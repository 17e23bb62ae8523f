import ECM.Hls.Descriptors
import ECM.CommonLib.AlfParameters
import ECM.CommonLib.Palette

/-! # Writing the parameters of CCSAO -/

namespace ECM.EncoderLib.VLCWriter
open CommonLib CommonLib.BitStream Lib.Loop CcSao

/-- `offset[i]`: there are offsets for `MAX_CCSAO_CLASS_NUM` classes. -/
def offsetAt (set : CcSaoSet) (i : ℕ) : Checked ℤ := do
  check (MAX_CCSAO_CLASS_NUM ≤ i) outOfRange
  return set.offset i

def codeCcSaoOffset (set : CcSaoSet) (i : ℕ) : WriteM Unit := do
  let offset ← offsetAt set i
  check (offset > MAX_CCSAO_OFFSET_THR ∨ offset < -MAX_CCSAO_OFFSET_THR) "CCSAO offset out of range"
  WRITE_UVLC offset.natAbs
  if offset.natAbs ≠ 0 then WRITE_FLAG (offset < 0)

def codeCcSaoEdge (set : CcSaoSet) : WriteM Unit := do
  check (set.candPosY ≥ CCSAO_EDGE_TYPE) "ccsao_cand_pos_y_TYPE"
  check (set.bandNumY = 0 ∨ set.bandNumY > CCSAO_EDGE_BAND_NUM_Y + CCSAO_EDGE_BAND_NUM_C)
    "CCSAO bandNumY out of range"
  check (set.bandNumCb = 0 ∨ set.bandNumCb > CCSAO_QUAN_NUM) "CCSAO bandNum chroma out of range"
  WRITE_CODE set.candPosY (MAX_CCSAO_CAND_POS_Y_BITS - 2)
  WRITE_CODE (set.bandNumY - 1) (MAX_CCSAO_BAND_NUM_Y_BITS - 2 + 1)
  WRITE_CODE (set.bandNumCb - 1) MAX_CCSAO_BAND_NUM_U_BAND_BITS

def codeCcSaoBand (set : CcSaoSet) : WriteM Unit := do
  check (set.candPosY ≥ MAX_CCSAO_CAND_POS_Y) "CCSAO candPosY out of range"
  check (set.bandNumY = 0 ∨ set.bandNumY > MAX_CCSAO_BAND_NUM_Y) "CCSAO bandNumY out of range"
  check (set.bandNumCb = 0 ∨ set.bandNumCb > MAX_CCSAO_BAND_NUM_U) "CCSAO bandNumU out of range"
  check (set.bandNumCr = 0 ∨ set.bandNumCr > MAX_CCSAO_BAND_NUM_V) "CCSAO bandNumV out of range"
  WRITE_CODE set.candPosY MAX_CCSAO_CAND_POS_Y_BITS
  WRITE_CODE (set.bandNumY - 1) MAX_CCSAO_BAND_NUM_Y_BITS
  WRITE_CODE (set.bandNumCb - 1) MAX_CCSAO_BAND_NUM_U_BITS
  WRITE_CODE (set.bandNumCr - 1) MAX_CCSAO_BAND_NUM_V_BITS

/-- The type of a set and its bands. -/
def codeCcSaoBands (set : CcSaoSet) : WriteM Unit := do
  WRITE_FLAG set.setType
  if set.setType then codeCcSaoEdge set else codeCcSaoBand set

def codeCcSaoSet (set : CcSaoSet) : WriteM Unit := do
  codeCcSaoBands set
  loop (fun i _ => codeCcSaoOffset set i) set.classNum ()

/-- The sets of one component. -/
def codeCcSaoComp (comp : CcSaoComp) : WriteM Unit := do
  if comp.enabled then
    check (comp.setNum = 0 ∨ comp.setNum > MAX_CCSAO_SET_NUM) "CCSAO setNum out of range"
    WRITE_UVLC (comp.setNum - 1)
    loop (fun setIdx _ => codeCcSaoSet (comp.sets setIdx)) comp.setNum ()

/-- The three flags that go in front of the components. -/
def codeCcSaoFlags (ccSaoParam : CcSaoComParam) : WriteM Unit := do
  WRITE_FLAG (ccSaoParam .Y).enabled
  WRITE_FLAG (ccSaoParam .Cb).enabled
  WRITE_FLAG (ccSaoParam .Cr).enabled

/-- `ccsaoEnabledFlag` is that of the SPS. -/
def codeCcSao (ccsaoEnabledFlag : Bool) (ccSaoParam : CcSaoComParam) : WriteM Unit := do
  if ccsaoEnabledFlag then
    codeCcSaoFlags ccSaoParam
    codeCcSaoComp (ccSaoParam .Y)
    codeCcSaoComp (ccSaoParam .Cb)
    codeCcSaoComp (ccSaoParam .Cr)

end ECM.EncoderLib.VLCWriter

/-! # Writing adaptation parameter sets

The parameters of the adaptive loop filter and of luma mapping. -/

namespace ECM.EncoderLib.VLCWriter
open CommonLib CommonLib.BitStream Lib.Loop CommonLib.Alf

/-! ## Golomb codes -/

/-- The loop that writes the prefix; every round takes something from the symbol. -/
def alfGolombPrefix : (fuel symbol k : ℕ) → WriteM (ℕ × ℕ)
  | 0, symbol, k => pure (symbol, k)
  | fuel + 1, symbol, k =>
    if symbol ≥ 1 <<< k then do
      WRITE_FLAG false
      alfGolombPrefix fuel (symbol - 1 <<< k) (k + 1)
    else pure (symbol, k)

def alfGolombSuffix (symbol k : ℕ) : WriteM Unit := if k > 0 then WRITE_CODE symbol k else pure ()

def alfGolombSign (coeff : ℤ) (signed_coeff : Bool) : WriteM Unit :=
  if signed_coeff ∧ coeff ≠ 0 then WRITE_FLAG (coeff < 0) else pure ()

def alfGolombEncode (coeff : ℤ) (k : ℕ) (signed_coeff : Bool) : WriteM Unit := do
  let (symbol, k) ← alfGolombPrefix (coeff.natAbs + 1) coeff.natAbs k
  WRITE_FLAG true
  alfGolombSuffix symbol k
  alfGolombSign coeff signed_coeff

/-- `lengthGolomb` of a symbol, without its sign. -/
def lengthGolombAbs : (fuel symbol k : ℕ) → ℕ
  | 0, _, k => k + 1
  | fuel + 1, symbol, k =>
    if symbol ≥ 1 <<< k then lengthGolombAbs fuel (symbol - 1 <<< k) (k + 1) + 1 else k + 1

/-- `EncAdaptiveLoopFilter::lengthGolomb` -/
def lengthGolomb (coeffVal : ℤ) (k : ℕ) : ℕ :=
  lengthGolombAbs (coeffVal.natAbs + 1) coeffVal.natAbs k + if coeffVal ≠ 0 then 1 else 0

/-! ## Filters -/

/-- The bits of the coefficients from `startIdx` to `endIdx` of all filters. -/
def golombBits (numFilters startIdx endIdx k : ℕ) (coeff : ℕ → ℕ → ℤ) : ℕ :=
  ((List.range numFilters).map fun filtIdx =>
    ((List.range (endIdx - startIdx)).map fun i => lengthGolomb (coeff filtIdx (startIdx + i)) k).sum).sum

/-- The first order from 0 to 3 that needs the fewest bits. -/
def bestOrder (bits : ℕ → ℕ) : ℕ :=
  ((List.range 4).foldl (fun (best : ℕ × ℕ) k => if bits k < best.2 then (k, bits k) else best)
    (0, Palette.MAX_INT)).1

/-- `bestK[orderIdx]` -/
def golombOrder (shape : AlfFilterShape) (numFilters : ℕ) (coeff : ℕ → ℕ → ℤ) (orderIdx : ℕ) : ℕ :=
  let startIdx := if orderIdx = 0 then 0 else shape.indexSecOrder
  let endIdx := if orderIdx = 0 then shape.indexSecOrder else shape.numCoeff - 1
  bestOrder fun k =>
    golombBits numFilters startIdx endIdx (k + if orderIdx = 0 then shape.offset0 else ALF_ORDER) coeff

/-- `alf_luma_coeff_exp_golomb_order` or `alf_chroma_coeff_exp_golomb_order`, for each order of the shape. -/
def codeGolombOrders (shape : AlfFilterShape) (numFilters : ℕ) (coeff : ℕ → ℕ → ℤ) : WriteM (ℕ → ℕ) :=
  loop (fun orderIdx bestK => do
    WRITE_CODE (golombOrder shape numFilters coeff orderIdx) 2
    return Function.update bestK orderIdx (golombOrder shape numFilters coeff orderIdx))
    shape.numOrder fun _ => 0

def codeAlfClipp (shape : AlfFilterShape) (numFilters : ℕ) (filters : AlfFilters) : WriteM Unit :=
  if filters.nonLinearFlag then
    loop (fun ind _ => loop (fun i _ => WRITE_CODE (toU32 (filters.clipp ind i)) 2) (shape.numCoeff - 1) ())
      numFilters ()
  else pure ()

def alfFilter (shape : AlfFilterShape) (numFilters : ℕ) (filters : AlfFilters) (order0 order1 : ℕ) :
    WriteM Unit := do
  loop (fun ind _ => loop (fun i _ =>
      alfGolombEncode (filters.coeff ind i) (if i < shape.indexSecOrder then order0 else order1) true)
    (shape.numCoeff - 1) ()) numFilters ()
  codeAlfClipp shape numFilters filters

/-- The orders and the filters that are coded with them. -/
def codeAlfFilters (shape : AlfFilterShape) (numFilters : ℕ) (filters : AlfFilters) : WriteM Unit := do
  let bestK ← codeGolombOrders shape numFilters filters.coeff
  alfFilter shape numFilters filters (bestK 0 + shape.offset0) (bestK 1 + ALF_ORDER)

/-! ## Parameter sets of the adaptive loop filter -/

/-- `alf_luma_coeff_delta_idx` for each class, unless there is only one filter. -/
def codeClassMap (alt : AlfLumaAlternative) : WriteM Unit :=
  if alt.numLumaFilters > 1 then
    loop (fun i _ => WRITE_CODE (toU32 (alt.filterCoeffDeltaIdx i)) (ceilLog2 alt.numLumaFilters))
      (numClasses alt.lumaClassifierIdx) ()
  else pure ()

def codeAlfLumaAlternative (shape : AlfFilterShape) (alt : AlfLumaAlternative) : WriteM Unit := do
  WRITE_FLAG alt.lumaClassifierIdx
  WRITE_FLAG alt.nonLinearFlag
  WRITE_UVLC (sub32 alt.numLumaFilters 1)
  codeClassMap alt
  codeAlfFilters shape alt.numLumaFilters alt.toAlfFilters

def codeAlfChromaAlternative (shape : AlfFilterShape) (alt : AlfFilters) : WriteM Unit := do
  WRITE_FLAG alt.nonLinearFlag
  codeAlfFilters shape 1 alt

def codeAlfLuma (param : AlfParam) : WriteM Unit :=
  if param.newFilterFlagLuma then do
    WRITE_UVLC (sub32 param.numAlternativesLuma 1)
    WRITE_FLAG (param.filterTypeLuma = .ALF_FILTER_9_EXT)
    loop (fun altIdx _ => codeAlfLumaAlternative param.filterTypeLuma.shape (param.luma altIdx))
      param.numAlternativesLuma ()
  else pure ()

def codeAlfChroma (param : AlfParam) : WriteM Unit :=
  if param.newFilterFlagChroma then do
    WRITE_UVLC (sub32 param.numAlternativesChroma 1)
    loop (fun altIdx _ => codeAlfChromaAlternative param.filterTypeChroma.shape (param.chroma altIdx))
      param.numAlternativesChroma ()
  else pure ()

def codeCcAlfCoeff (coeff : ℤ) : WriteM Unit :=
  if coeff = 0 then WRITE_CODE 0 CCALF_BITS_PER_COEFF_LEVEL
  else do
    WRITE_CODE (1 + coeff.natAbs.log2) CCALF_BITS_PER_COEFF_LEVEL
    WRITE_FLAG (coeff < 0)

def codeCcAlf (comp : CcAlfComp) : WriteM Unit :=
  if comp.newCcAlfFilter then do
    check (comp.ccAlfFilterCount > MAX_NUM_CC_ALF_FILTERS) "CC ALF Filter count is too large"
    check (comp.ccAlfFilterCount = 0) "CC ALF Filter count is too small"
    WRITE_UVLC (comp.ccAlfFilterCount - 1)
    loop (fun filterIdx _ => loop (fun i _ => codeCcAlfCoeff (comp.ccAlfCoeff filterIdx i))
      (MAX_NUM_CC_ALF_CHROMA_COEFF - 1) ()) comp.ccAlfFilterCount ()
  else pure ()

/-- The flags for chroma, if there is any. -/
def codeAlfChromaFlags (aps : AlfAps) : WriteM Unit :=
  if aps.chromaPresentFlag then do
    WRITE_FLAG aps.m_alfAPSParam.newFilterFlagChroma
    WRITE_FLAG (aps.m_ccAlfAPSParam 0).newCcAlfFilter
    WRITE_FLAG (aps.m_ccAlfAPSParam 1).newCcAlfFilter
  else pure ()

def codeAlfAps (aps : AlfAps) : WriteM Unit := do
  WRITE_FLAG aps.m_alfAPSParam.newFilterFlagLuma
  codeAlfChromaFlags aps
  codeAlfLuma aps.m_alfAPSParam
  codeAlfChroma aps.m_alfAPSParam
  loop (fun ccIdx _ => codeCcAlf (aps.m_ccAlfAPSParam ccIdx)) 2 ()

/-! ## Parameter sets of luma mapping -/

/-- `lmcs_delta_abs_cw[i]` and its sign. -/
def codeDeltaCW (deltaCW : ℤ) (maxNbitsNeededDeltaCW : ℕ) : WriteM Unit := do
  WRITE_CODE deltaCW.natAbs maxNbitsNeededDeltaCW
  if deltaCW.natAbs > 0 then WRITE_FLAG (deltaCW < 0)

/-- `lmcs_delta_abs_crs` and its sign. -/
def codeDeltaCRS (aps : LmcsAps) : WriteM Unit :=
  if aps.chromaPresentFlag then do
    WRITE_CODE aps.chrResScalingOffset.natAbs 3
    if aps.chrResScalingOffset.natAbs > 0 then WRITE_FLAG (aps.chrResScalingOffset < 0)
  else pure ()

def codeLmcsAps (aps : LmcsAps) : WriteM Unit := do
  WRITE_UVLC aps.reshaperModelMinBinIdx
  WRITE_UVLC (sub32 (PIC_CODE_CW_BINS - 1) aps.reshaperModelMaxBinIdx)
  WRITE_UVLC (sub32 aps.maxNbitsNeededDeltaCW 1)
  loop (fun r _ => codeDeltaCW (aps.reshaperModelBinCWDelta (aps.reshaperModelMinBinIdx + r))
      aps.maxNbitsNeededDeltaCW)
    (aps.reshaperModelMaxBinIdx + 1 - aps.reshaperModelMinBinIdx) ()
  codeDeltaCRS aps

end ECM.EncoderLib.VLCWriter
