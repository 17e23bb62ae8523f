import ECM.CommonLib.InLoopFilter
import ECM.CommonLib.AlfParameters
import ECM.Hls.Descriptors

/-! # Reading the parameters of CCSAO

The parameters have just been reset, and each part of them is read once. -/

namespace ECM.DecoderLib.VLCReader
open CommonLib CommonLib.BitStream Lib.Loop CcSao

/-- An integer as a `short`. -/
def i16 (v : ℤ) : ℤ := (v + 2 ^ 15) % 2 ^ 16 - 2 ^ 15

def parseCcSaoOffset : ReadM ℤ := do
  let uiCode ← READ_UVLC
  if i16 uiCode ≠ 0 then
    let sign ← READ_FLAG
    return if sign then i16 (-i16 uiCode) else i16 uiCode
  else return i16 uiCode

def parseCcSaoEdge : ReadM CcSaoSet := do
  let candPosY ← READ_CODE (MAX_CCSAO_CAND_POS_Y_BITS - 2)
  let bandNumY ← READ_CODE (MAX_CCSAO_BAND_NUM_Y_BITS - 2 + 1)
  let bandNumC ← READ_CODE MAX_CCSAO_BAND_NUM_U_BAND_BITS
  return { CcSaoSet.reset with
    setEnabled := true, setType := true, candPosY, bandNumY := bandNumY + 1, bandNumCb := bandNumC + 1 }

def parseCcSaoBand : ReadM CcSaoSet := do
  let candPosY ← READ_CODE MAX_CCSAO_CAND_POS_Y_BITS
  let bandNumY ← READ_CODE MAX_CCSAO_BAND_NUM_Y_BITS
  let bandNumU ← READ_CODE MAX_CCSAO_BAND_NUM_U_BITS
  let bandNumV ← READ_CODE MAX_CCSAO_BAND_NUM_V_BITS
  return { CcSaoSet.reset with
    setEnabled := true, candPosY, bandNumY := bandNumY + 1, bandNumCb := bandNumU + 1,
    bandNumCr := bandNumV + 1 }

/-- The type of a set and its bands. -/
def parseCcSaoBands : ReadM CcSaoSet := do
  let setType ← READ_FLAG
  if setType then parseCcSaoEdge else parseCcSaoBand

def parseCcSaoSet : ReadM CcSaoSet := do
  let set ← parseCcSaoBands
  let offset ← loop (fun i offset => do
    let v ← parseCcSaoOffset
    return Function.update offset i v) set.classNum set.offset
  return { set with offset }

/-- A component that is enabled; the number of sets is stored in eight bits. -/
def parseCcSaoComp (enabled : Bool) : ReadM CcSaoComp := do
  if enabled then
    let uiCode ← READ_UVLC
    let sets ← loop (fun setIdx sets => do
      let set ← parseCcSaoSet
      return Function.update sets setIdx set) ((uiCode + 1) % 2 ^ 8) CcSaoComp.reset.sets
    return { enabled, setNum := (uiCode + 1) % 2 ^ 8, sets }
  else return CcSaoComp.reset

/-- The flags of the three components. -/
def parseCcSaoFlags (ccsaoEnabledFlag : Bool) : ReadM (ComponentID → Bool) := do
  if ccsaoEnabledFlag then
    let y ← READ_FLAG
    let cb ← READ_FLAG
    let cr ← READ_FLAG
    return fun
      | .Y => y
      | .Cb => cb
      | .Cr => cr
  else return fun _ => false

def parseCcSao (ccsaoEnabledFlag : Bool) : ReadM CcSaoComParam := do
  let enabled ← parseCcSaoFlags ccsaoEnabledFlag
  let y ← parseCcSaoComp (enabled .Y)
  let cb ← parseCcSaoComp (enabled .Cb)
  let cr ← parseCcSaoComp (enabled .Cr)
  return fun
    | .Y => y
    | .Cb => cb
    | .Cr => cr

end ECM.DecoderLib.VLCReader

/-! # Reading adaptation parameter sets

The parameters of the adaptive loop filter and of luma mapping. -/

namespace ECM.DecoderLib.VLCReader
open CommonLib CommonLib.BitStream Lib.Loop CommonLib.Alf Function

/-! ## Golomb codes -/

/-- The zeros in front of the first one. -/
def alfGolombZeros : (fuel numLeadingBits : ℕ) → ReadM ℕ
  | 0, _ => throw "Exceeded FIFO size"
  | fuel + 1, numLeadingBits => do
    let b ← READ_FLAG
    if b then return numLeadingBits else alfGolombZeros fuel (numLeadingBits + 1)

def alfGolombBins (length : ℕ) : ReadM ℕ := if length > 0 then READ_CODE length else pure 0

def alfGolombSign (symbol : ℤ) (signed_val : Bool) : ReadM ℤ :=
  if signed_val ∧ symbol ≠ 0 then do
    let b ← READ_FLAG
    return if b then -symbol else symbol
  else pure symbol

def alfGolombDecode (k : ℕ) (signed_val : Bool) : ReadM ℤ := do
  let s ← get
  let numLeadingBits ← alfGolombZeros (s.unread.length + 1) 0
  let bins ← alfGolombBins (numLeadingBits + k)
  alfGolombSign (toI32 (u32 ((1 <<< numLeadingBits - 1) <<< k + bins))) signed_val

/-! ## Filters -/

/-- An array of rows; each round of the loops stores one entry. -/
def readRows (rows : ℕ) (cols : ℕ) (entry : ℕ → ReadM ℤ) (table : ℕ → ℕ → ℤ) : ReadM (ℕ → ℕ → ℤ) :=
  loop (fun ind table => do
    let row ← loop (fun i row => do
      let v ← entry i
      return update row i v) cols (table ind)
    return update table ind row) rows table

def readGolombOrders (shape : AlfFilterShape) : ReadM (ℕ → ℕ) :=
  loop (fun orderIdx bestK => do
    let code ← READ_CODE 2
    return update bestK orderIdx code) shape.numOrder fun _ => 0

def readAlfCoeff (isChroma : Bool) (order : ℕ) : ReadM ℤ := do
  let v ← alfGolombDecode order true
  check (isChroma ∧ (i16 v > 127 ∨ i16 v < -128)) "AlfCoeffC shall be in the range of -128 to 127, inclusive"
  return i16 v

def readAlfClip : ReadM ℤ := do
  let code ← READ_CODE 2
  return i16 code

/-- The clipping indices, or zeros. -/
def readAlfClipp (shape : AlfFilterShape) (numFilters : ℕ) (nonLinearFlag : Bool) (clipp : ℕ → ℕ → ℤ) :
    ReadM (ℕ → ℕ → ℤ) :=
  if nonLinearFlag then readRows numFilters (shape.numCoeff - 1) (fun _ => readAlfClip) clipp
  else pure fun ind i => if ind < numFilters ∧ i < shape.numCoeff then 0 else clipp ind i

def alfFilter (isChroma : Bool) (shape : AlfFilterShape) (numFilters : ℕ) (filters : AlfFilters)
    (order0 order1 : ℕ) : ReadM AlfFilters := do
  let coeff ← readRows numFilters (shape.numCoeff - 1)
    (fun i => readAlfCoeff isChroma (if i < shape.indexSecOrder then order0 else order1)) filters.coeff
  let clipp ← readAlfClipp shape numFilters filters.nonLinearFlag filters.clipp
  return { filters with coeff, clipp }

/-- The orders and the filters that are coded with them. -/
def readAlfFilters (isChroma : Bool) (shape : AlfFilterShape) (numFilters : ℕ) (filters : AlfFilters) :
    ReadM AlfFilters := do
  let bestK ← readGolombOrders shape
  alfFilter isChroma shape numFilters filters (bestK 0 + shape.offset0) (bestK 1 + ALF_ORDER)

/-! ## Parameter sets of the adaptive loop filter -/

def readClassMap (lumaClassifierIdx : Bool) (numLumaFilters : ℕ) (filterCoeffDeltaIdx : ℕ → ℤ) :
    ReadM (ℕ → ℤ) :=
  if numLumaFilters > 1 then
    loop (fun i filterCoeffDeltaIdx => do
      let code ← READ_CODE (ceilLog2 numLumaFilters)
      return update filterCoeffDeltaIdx i (i16 code)) (numClasses lumaClassifierIdx) filterCoeffDeltaIdx
  else pure fun i => if i < MAX_NUM_ALF_CLASSES then 0 else filterCoeffDeltaIdx i

def parseAlfLumaAlternative (shape : AlfFilterShape) (alt : AlfLumaAlternative) : ReadM AlfLumaAlternative := do
  let lumaClassifierIdx ← READ_FLAG
  let nonLinearFlag ← READ_FLAG
  let code ← READ_UVLC
  let filterCoeffDeltaIdx ← readClassMap lumaClassifierIdx (code + 1) alt.filterCoeffDeltaIdx
  let filters ← readAlfFilters false shape (code + 1) { alt.toAlfFilters with nonLinearFlag }
  return { toAlfFilters := filters, lumaClassifierIdx, numLumaFilters := code + 1, filterCoeffDeltaIdx }

def parseAlfChromaAlternative (shape : AlfFilterShape) (alt : AlfFilters) : ReadM AlfFilters := do
  let nonLinearFlag ← READ_FLAG
  readAlfFilters true shape 1 { alt with nonLinearFlag }

def parseAlfLuma (param : AlfParam) : ReadM AlfParam :=
  if param.newFilterFlagLuma then do
    let code ← READ_UVLC
    let ext ← READ_FLAG
    let filterTypeLuma := if ext then AlfFilterType.ALF_FILTER_9_EXT else AlfFilterType.ALF_FILTER_EXT
    let luma ← loop (fun altIdx luma => do
      let alt ← parseAlfLumaAlternative filterTypeLuma.shape (luma altIdx)
      return update luma altIdx alt) (code + 1) param.luma
    return { param with numAlternativesLuma := code + 1, filterTypeLuma, luma }
  else pure param

def parseAlfChroma (param : AlfParam) : ReadM AlfParam :=
  if param.newFilterFlagChroma then do
    let filterTypeChroma := AlfFilterType.ALF_FILTER_9
    let code ← READ_UVLC
    let chroma ← loop (fun altIdx chroma => do
      let alt ← parseAlfChromaAlternative filterTypeChroma.shape (chroma altIdx)
      return update chroma altIdx alt) (code + 1) param.chroma
    return { param with numAlternativesChroma := code + 1, filterTypeChroma, chroma }
  else pure param

def readCcAlfCoeff : ReadM ℤ := do
  let code ← READ_CODE CCALF_BITS_PER_COEFF_LEVEL
  if code = 0 then return 0
  else do
    let sign ← READ_FLAG
    return if sign then -((1 <<< (code - 1) : ℕ) : ℤ) else ((1 <<< (code - 1) : ℕ) : ℤ)

/-- The number of filters is stored in eight bits. -/
def parseCcAlf (comp : CcAlfComp) : ReadM CcAlfComp :=
  if comp.newCcAlfFilter then do
    let code ← READ_UVLC
    let ccAlfFilterCount := (code + 1) % 2 ^ 8
    let ccAlfCoeff ← readRows ccAlfFilterCount (MAX_NUM_CC_ALF_CHROMA_COEFF - 1) (fun _ => readCcAlfCoeff)
      comp.ccAlfCoeff
    return { comp with
      ccAlfFilterCount
      ccAlfFilterIdxEnabled := fun filterIdx =>
        if filterIdx < ccAlfFilterCount then true
        else if filterIdx < MAX_NUM_CC_ALF_FILTERS then false else comp.ccAlfFilterIdxEnabled filterIdx
      ccAlfCoeff }
  else pure comp

/-- The flags for chroma, which are zero where there is none. -/
def parseAlfChromaFlags (chromaPresentFlag : Bool) : ReadM (Bool × Bool × Bool) :=
  if chromaPresentFlag then do
    let newFilterFlagChroma ← READ_FLAG
    let cb ← READ_FLAG
    let cr ← READ_FLAG
    return (newFilterFlagChroma, cb, cr)
  else pure (false, false, false)

def parseAlfAps (aps : AlfAps) : ReadM AlfAps := do
  let newFilterFlagLuma ← READ_FLAG
  let (newFilterFlagChroma, cb, cr) ← parseAlfChromaFlags aps.chromaPresentFlag
  check (newFilterFlagLuma = false ∧ newFilterFlagChroma = false ∧ cb = false ∧ cr = false)
    ("bitstream conformance error: one of alf_luma_filter_signal_flag, alf_chroma_filter_signal_flag, " ++
      "alf_cross_component_cb_filter_signal_flag, and alf_cross_component_cr_filter_signal_flag shall be nonzero")
  let param ← parseAlfLuma { AlfParam.reset with newFilterFlagLuma, newFilterFlagChroma }
  let param ← parseAlfChroma param
  let ccAlf ← loop (fun ccIdx (ccAlf : ℕ → CcAlfComp) => do
      let comp ← parseCcAlf { ccAlf ccIdx with newCcAlfFilter := if ccIdx = 0 then cb else cr }
      return update ccAlf ccIdx comp) 2 aps.m_ccAlfAPSParam
  return { aps with m_alfAPSParam := param, m_ccAlfAPSParam := ccAlf }

/-! ## Parameter sets of luma mapping -/

/-- The sign of an absolute value: without one it is the value itself, which is zero then. -/
def readSign (code : ℕ) : ReadM ℕ := if toI32 code > 0 then READ_CODE 1 else pure code

def readDeltaCW (maxNbitsNeededDeltaCW : ℕ) : ReadM ℤ := do
  let code ← READ_CODE maxNbitsNeededDeltaCW
  let signCW ← readSign code
  return (1 - 2 * signCW) * toI32 code

/-- Without chroma nothing is read, and the offset is zero. -/
def readDeltaCRS (chromaPresentFlag : Bool) : ReadM ℤ :=
  if chromaPresentFlag then readDeltaCW 3 else pure 0

def parseLmcsAps (aps : LmcsAps) : ReadM LmcsAps := do
  let reshaperModelMinBinIdx ← READ_UVLC
  let code ← READ_UVLC
  let reshaperModelMaxBinIdx := sub32 (PIC_CODE_CW_BINS - 1) code
  let code ← READ_UVLC
  let reshaperModelBinCWDelta ← loop (fun r (delta : ℕ → ℤ) => do
      let v ← readDeltaCW (code + 1)
      return update delta (reshaperModelMinBinIdx + r) v)
    (reshaperModelMaxBinIdx + 1 - reshaperModelMinBinIdx)
    fun i => if i < PIC_CODE_CW_BINS then 0 else aps.reshaperModelBinCWDelta i
  let chrResScalingOffset ← readDeltaCRS aps.chromaPresentFlag
  return { aps with
    reshaperModelMinBinIdx
    reshaperModelMaxBinIdx
    reshaperModelBinCWDelta
    maxNbitsNeededDeltaCW := code + 1
    chrResScalingOffset }

end ECM.DecoderLib.VLCReader
