import ECM.CommonLib.Slice
import ECM.Hls.Descriptors
import ECM.CommonLib.ScalingList

/-! # Writing picture headers

`codePictureHeader` up to the most significant bits of the picture order count. -/

namespace ECM.EncoderLib.VLCWriter
open CommonLib CommonLib.BitStream

/-- `cs.slice->getPOC() & pocMask` in `pocBits` bits. -/
def codePocLsb (poc : ℤ) (pocBits : ℕ) : WriteM Unit :=
  WRITE_CODE (toU32 poc &&& 1 <<< pocBits - 1) pocBits

def codePocMsb (picHeader : PicHeader) (sps : PicHeader.SPS) : WriteM Unit := do
  if sps.m_pocMsbFlag then
    WRITE_FLAG picHeader.m_pocMsbPresentFlag
    if picHeader.m_pocMsbPresentFlag then
      WRITE_CODE (toU32 picHeader.m_pocMsbVal) sps.m_pocMsbLen

/-- Up to `ph_inter_slice_allowed_flag`. -/
def codePictureHeaderGdr (picHeader : PicHeader) : WriteM Unit := do
  WRITE_FLAG picHeader.m_gdrOrIrapPicFlag
  WRITE_FLAG picHeader.m_nonReferencePictureFlag
  if picHeader.m_gdrOrIrapPicFlag then WRITE_FLAG picHeader.m_gdrPicFlag

/-- From there up to `ph_pic_parameter_set_id`. -/
def codePictureHeaderSliceTypes (picHeader : PicHeader) : WriteM Unit := do
  WRITE_FLAG picHeader.m_picInterSliceAllowedFlag
  if picHeader.m_picInterSliceAllowedFlag then WRITE_FLAG picHeader.m_picIntraSliceAllowedFlag

def codeRecoveryPocCnt (picHeader : PicHeader) : WriteM Unit := do
  if picHeader.m_gdrPicFlag then WRITE_UVLC (toU32 picHeader.m_recoveryPocCnt)

def codePictureHeader (picHeader : PicHeader) (sps : PicHeader.SPS) (poc : ℤ) : WriteM Unit := do
  codePictureHeaderGdr picHeader
  codePictureHeaderSliceTypes picHeader
  WRITE_UVLC picHeader.m_ppsId
  codePocLsb poc sps.m_uiBitsForPOC
  codeRecoveryPocCnt picHeader
  codePocMsb picHeader sps

end ECM.EncoderLib.VLCWriter

/-! # Writing weighted prediction tables

The two `xCodePredWeightTable`, of a slice and of a picture header, over the parts that
they have in common. -/

namespace ECM.EncoderLib.VLCWriter
open CommonLib CommonLib.BitStream Lib.Loop WeightPrediction

variable (sps : SPS)

/-! ## One reference list -/

def codeDenominators (wp : WpScaling) : WriteM Unit := do
  WRITE_UVLC wp.Y.log2WeightDenom
  if sps.chroma then
    check (wp.Cb.log2WeightDenom ≠ wp.Cr.log2WeightDenom) "Chroma blocks of different size not supported"
    WRITE_SVLC (wp.Cb.log2WeightDenom - wp.Y.log2WeightDenom)

/-- `bDenomCoded` and `uiTotalSignalledWeightFlags`. -/
structure CodeState where
  denomCoded : Bool
  totalSignalledWeightFlags : ℕ

def codeLumaFlag (table : List WpScaling) (refIdx : ℕ) (state : CodeState) : WriteM CodeState := do
  let wp ← readAt table refIdx
  let _ ← (if state.denomCoded = false then codeDenominators sps wp else pure () : WriteM Unit)
  WRITE_FLAG wp.Y.presentFlag
  return ⟨true, state.totalSignalledWeightFlags + wp.Y.presentFlag.toNat⟩

def codeChromaFlag (table : List WpScaling) (refIdx : ℕ) (state : CodeState) : WriteM CodeState := do
  let wp ← readAt table refIdx
  check (wp.Cb.presentFlag ≠ wp.Cr.presentFlag) "Inconsistent settings for chroma channels"
  WRITE_FLAG wp.Cb.presentFlag
  return { state with
    totalSignalledWeightFlags := state.totalSignalledWeightFlags + 2 * wp.Cb.presentFlag.toNat }

def codeLumaWeight (wp : WPScalingParam) : WriteM Unit := do
  if wp.presentFlag then
    WRITE_SVLC (wp.codedWeight - (1 <<< wp.log2WeightDenom : ℕ))
    WRITE_SVLC wp.codedOffset

/-- The component `wp` of the chroma components `Cb` and `Cr`. -/
def codeChromaWeight (Cb Cr wp : WPScalingParam) : WriteM Unit := do
  check (Cb.log2WeightDenom ≠ Cr.log2WeightDenom) "Chroma blocks of different size not supported"
  WRITE_SVLC (wp.codedWeight - (1 <<< Cb.log2WeightDenom : ℕ))
  WRITE_SVLC (wp.codedOffset - pred (sps.range sps.m_bitDepthChroma) wp.codedWeight wp.log2WeightDenom)

def codeChromaWeights (wp : WpScaling) : WriteM Unit := do
  if wp.Cb.presentFlag then
    codeChromaWeight sps wp.Cb wp.Cr wp.Cb
    codeChromaWeight sps wp.Cb wp.Cr wp.Cr

def codeWeights (table : List WpScaling) (refIdx : ℕ) (state : CodeState) : WriteM CodeState := do
  let wp ← readAt table refIdx
  codeLumaWeight wp.Y
  let _ ← (if sps.chroma then codeChromaWeights sps wp else pure () : WriteM Unit)
  return state

/-- The flags and the weights of `numRefIdx` entries. -/
def codeRefList (table : List WpScaling) (numRefIdx : ℕ) (state : CodeState) : WriteM CodeState := do
  let state ← loop (codeLumaFlag sps table) numRefIdx state
  let state ← (if sps.chroma then loop (codeChromaFlag table) numRefIdx state else pure state : WriteM CodeState)
  loop (codeWeights sps table) numRefIdx state

/-! ## The tables -/

/-- What the slice version reads of a P or B slice. -/
structure WpSlice where
  isB : Bool
  useWP : Bool
  wpBiPred : Bool
  numRefIdxL0 : ℕ
  numRefIdxL1 : ℕ
  tableL0 : List WpScaling
  tableL1 : List WpScaling

def xCodePredWeightTable (slice : WpSlice) : WriteM Unit := do
  if (slice.isB = false ∧ slice.useWP) ∨ (slice.isB ∧ slice.wpBiPred) then
    let state ← codeRefList sps slice.tableL0 slice.numRefIdxL0 ⟨false, 0⟩
    let state ← (if slice.isB then codeRefList sps slice.tableL1 slice.numRefIdxL1 state else pure state :
      WriteM CodeState)
    check (state.totalSignalledWeightFlags > 24) "Too many signalled weight flags"

/-- What the picture header version reads of a picture header. -/
structure WpPicHeader where
  m_numL0Weights : ℕ
  m_numL1Weights : ℕ
  /-- `getRPL(1)->getNumRefEntries()`. -/
  numRefEntriesL1 : ℕ
  tableL0 : List WpScaling
  tableL1 : List WpScaling

/-- `num_l0_weights` is not among the syntax elements. -/
def xCodePredWeightTablePH (picHeader : WpPicHeader) : WriteM Unit := do
  let state ← codeRefList sps picHeader.tableL0 picHeader.m_numL0Weights ⟨false, 0⟩
  let _ ← (if picHeader.numRefEntriesL1 > 0 then WRITE_UVLC picHeader.m_numL1Weights else pure () : WriteM Unit)
  let state ← (if picHeader.m_numL1Weights = 0 then pure state
    else codeRefList sps picHeader.tableL1 picHeader.m_numL1Weights state : WriteM CodeState)
  check (state.totalSignalledWeightFlags > 24) "Too many signalled weight flags"

end ECM.EncoderLib.VLCWriter

/-! # Writing scaling lists -/

namespace ECM.EncoderLib.VLCWriter
open CommonLib CommonLib.BitStream Lib.Loop ScalingList

/-- `WRITE_SVLC((int8_t)data, ...)`, with the difference brought into the range before. -/
def codeDelta (data : ℤ) : WriteM Unit := WRITE_SVLC (i8 ((data + 128) % 256 - 128))

/-- `deltasrc[64]`, or the DC value with nothing taken off it. -/
def dcDelta (sl : ScalingList) (scalingListId : ℕ) (isPredictor : Bool) : ℤ :=
  if isPredictor then
    sl.m_scalingListDC scalingListId -
      (if sl.m_refMatrixId scalingListId ≥ SCALING_LIST_1D_START_16x16 then
        (if scalingListId = sl.m_refMatrixId scalingListId then 16 else sl.m_scalingListDC (sl.m_refMatrixId scalingListId))
      else sl.refScalingList scalingListId (sl.m_refMatrixId scalingListId) (scan scalingListId 0).idx)
  else sl.m_scalingListDC scalingListId

/-- `deltasrc[i]`, or the coefficient with nothing taken off it. -/
def coefDelta (sl : ScalingList) (scalingListId : ℕ) (isPredictor : Bool) (i : ℕ) : ℤ :=
  if isPredictor then
    sl.m_scalingListCoef scalingListId (scan scalingListId i).idx -
      sl.refScalingList scalingListId (sl.m_refMatrixId scalingListId) (scan scalingListId i).idx
  else sl.m_scalingListCoef scalingListId (scan scalingListId i).idx

/-- The differences of the DC value, if there is one, and of the coefficients. -/
def codeDeltas (scalingListId : ℕ) (dc : ℤ) (coef : ℕ → ℤ) (nextCoef : ℤ) : WriteM ℤ := do
  let nextCoef ← (if scalingListId ≥ SCALING_LIST_1D_START_16x16 then do
      codeDelta (dc - nextCoef)
      return dc
    else pure nextCoef : WriteM ℤ)
  loop (fun i nextCoef =>
    if Skipped scalingListId (scan scalingListId i) then pure nextCoef
    else do
      codeDelta (coef i - nextCoef)
      return coef i) (coefNum scalingListId) nextCoef

def xCodeScalingList (sl : ScalingList) (scalingListId : ℕ) (isPredictor : Bool) : WriteM Unit := do
  let _ ← codeDeltas scalingListId (dcDelta sl scalingListId isPredictor) (coefDelta sl scalingListId isPredictor)
    (if isPredictor then 0 else SCALING_LIST_START_VALUE)

/-- The mode of a list: copy, prediction, and what it refers to. -/
def codeMode (sl : ScalingList) (scalingListId : ℕ) : WriteM Unit := do
  WRITE_FLAG (sl.m_scalingListPredModeFlagIsCopy scalingListId)
  let _ ← (if sl.m_scalingListPredModeFlagIsCopy scalingListId = false then
      WRITE_FLAG (sl.m_scalingListPreditorModeFlag scalingListId)
    else pure () : WriteM Unit)
  if (sl.m_scalingListPredModeFlagIsCopy scalingListId ∨ sl.m_scalingListPreditorModeFlag scalingListId) ∧
      ¬IsStart scalingListId then
    WRITE_UVLC (scalingListId - sl.m_refMatrixId scalingListId)

def codeOneScalingList (sl : ScalingList) (scalingListId : ℕ) : WriteM Unit := do
  codeMode sl scalingListId
  if sl.m_scalingListPredModeFlagIsCopy scalingListId = false then
    xCodeScalingList sl scalingListId (sl.m_scalingListPreditorModeFlag scalingListId)

def codeScalingList (sl : ScalingList) (aps_chromaPresentFlag : Bool) : WriteM Unit :=
  loop (fun scalingListId _ =>
    if aps_chromaPresentFlag ∨ isLumaScalingList scalingListId then codeOneScalingList sl scalingListId
    else pure ()) 28 ()

end ECM.EncoderLib.VLCWriter
