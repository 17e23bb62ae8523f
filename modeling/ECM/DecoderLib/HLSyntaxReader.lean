import ECM.Hls.Descriptors
import ECM.CommonLib.ChromaQpMapping
import ECM.CommonLib.ScalingList

/-! # Reading picture headers

`parsePictureHeader` up to the most significant bits of the picture order count, the
count that `parseSliceHeader` derives, and `getSlicePoc`, which reads ahead for it. -/

namespace ECM.DecoderLib.VLCReader
open CommonLib CommonLib.BitStream PicHeader

/-! ## Picture order counts -/

def prevPocLsb (prevTid0POC : ℤ) (bitsForPOC : ℕ) : ℕ := toU32 prevTid0POC &&& 1 <<< bitsForPOC - 1

def prevPocMsb (prevTid0POC : ℤ) (bitsForPOC : ℕ) : ℤ := i32 (prevTid0POC - prevPocLsb prevTid0POC bitsForPOC)

/-- `iPOCmsb`, of a picture header that may carry it. -/
def derivePocMsb (idrPicFlag : Bool) (pocMsb : Option ℤ) (bitsForPOC : ℕ) (prevTid0POC : ℤ)
    (pocLsb : ℕ) : ℤ :=
  match pocMsb with
  | some pocMsbVal => i32 (pocMsbVal * (1 <<< bitsForPOC : ℕ))
  | none =>
    if idrPicFlag then 0
    else if pocLsb < prevPocLsb prevTid0POC bitsForPOC ∧
        prevPocLsb prevTid0POC bitsForPOC - pocLsb ≥ 1 <<< bitsForPOC / 2 then
      i32 (prevPocMsb prevTid0POC bitsForPOC + (1 <<< bitsForPOC : ℕ))
    else if pocLsb > prevPocLsb prevTid0POC bitsForPOC ∧
        pocLsb - prevPocLsb prevTid0POC bitsForPOC > 1 <<< bitsForPOC / 2 then
      i32 (prevPocMsb prevTid0POC bitsForPOC - (1 <<< bitsForPOC : ℕ))
    else prevPocMsb prevTid0POC bitsForPOC

def derivePoc (idrPicFlag : Bool) (pocMsb : Option ℤ) (bitsForPOC : ℕ) (prevTid0POC : ℤ) (pocLsb : ℕ) : ℤ :=
  i32 (derivePocMsb idrPicFlag pocMsb bitsForPOC prevTid0POC pocLsb + pocLsb)

/-- `getPocMsbVal()` where `getPocMsbPresentFlag()`. -/
def sentPocMsb (picHeader : PicHeader) : Option ℤ :=
  if picHeader.m_pocMsbPresentFlag then some picHeader.m_pocMsbVal else none

/-! ## The picture header -/

/-- `pps->getSPSId()` and the SPS. -/
def activeSPS (parameterSetManager : ParameterSetManager) (ppsId : ℕ) : Checked (ℕ × SPS) :=
  match parameterSetManager.getPPS ppsId with
  | none => throw "Invalid PPS"
  | some pps =>
    match parameterSetManager.getSPS pps.m_SPSId with
    | none => throw "Invalid SPS"
    | some sps => return (pps.m_SPSId, sps)

/-- Up to `ph_inter_slice_allowed_flag`. -/
def parsePictureHeaderGdr (picHeader : PicHeader) : ReadM PicHeader := do
  let m_gdrOrIrapPicFlag ← READ_FLAG
  let m_nonReferencePictureFlag ← READ_FLAG
  let m_gdrPicFlag ← (if m_gdrOrIrapPicFlag then READ_FLAG else pure false : ReadM Bool)
  return { picHeader with m_gdrOrIrapPicFlag, m_nonReferencePictureFlag, m_gdrPicFlag }

/-- From there up to `ph_pic_parameter_set_id`. -/
def parsePictureHeaderSliceTypes (picHeader : PicHeader) : ReadM PicHeader := do
  let m_picInterSliceAllowedFlag ← READ_FLAG
  let m_picIntraSliceAllowedFlag ← (if m_picInterSliceAllowedFlag then READ_FLAG else pure true : ReadM Bool)
  check (m_picInterSliceAllowedFlag = false ∧ m_picIntraSliceAllowedFlag = false)
    "Invalid picture without intra or inter slice"
  return { picHeader with m_picInterSliceAllowedFlag, m_picIntraSliceAllowedFlag }

/-- The parameter sets, and `ph_pic_order_cnt_lsb`. -/
def parsePictureHeaderLsb (parameterSetManager : ParameterSetManager) (picHeader : PicHeader) :
    ReadM (PicHeader × SPS) := do
  let m_ppsId ← READ_UVLC
  let (m_spsId, sps) ← activeSPS parameterSetManager m_ppsId
  let m_pocLsb ← READ_CODE sps.m_uiBitsForPOC
  return ({ picHeader with m_ppsId, m_spsId, m_pocLsb }, sps)

/-- Extra bits are ignored. -/
def parseExtraBits (sps : SPS) : ReadM Unit :=
  sps.m_extraPHBitPresentFlag.forM fun present => do
    if present then discard READ_FLAG

def parsePocMsb (sps : SPS) (picHeader : PicHeader) : ReadM PicHeader := do
  if sps.m_pocMsbFlag then
    let m_pocMsbPresentFlag ← READ_FLAG
    if m_pocMsbPresentFlag then
      let uiCode ← READ_CODE sps.m_pocMsbLen
      return { picHeader with m_pocMsbPresentFlag, m_pocMsbVal := toI32 uiCode }
    else return { picHeader with m_pocMsbPresentFlag }
  else return picHeader

/-- Up to `poc_msb_val`. -/
def parsePictureHeaderMsb (sps : SPS) (picHeader : PicHeader) : ReadM PicHeader := do
  let m_recoveryPocCnt ← (if picHeader.m_gdrPicFlag then toI32 <$> READ_UVLC else pure (-1) : ReadM ℤ)
  parseExtraBits sps
  parsePocMsb sps { picHeader with m_recoveryPocCnt }

def parsePictureHeader (parameterSetManager : ParameterSetManager) (picHeader : PicHeader) :
    ReadM PicHeader := do
  let picHeader ← parsePictureHeaderGdr picHeader
  let picHeader ← parsePictureHeaderSliceTypes picHeader
  let (picHeader, sps) ← parsePictureHeaderLsb parameterSetManager picHeader
  parsePictureHeaderMsb sps picHeader

/-- `parseSliceHeader` up to `pcSlice->setPOC`. -/
def parseSliceHeaderPoc (parameterSetManager : ParameterSetManager) (picHeader : PicHeader)
    (idrPicFlag : Bool) (prevTid0POC : ℤ) : ReadM (PicHeader × ℤ) := do
  let picture_header_in_slice_header_flag ← READ_FLAG
  let picHeader ← (if picture_header_in_slice_header_flag then do
      let picHeader ← parsePictureHeader parameterSetManager picHeader
      return { picHeader with m_valid := true }
    else pure picHeader : ReadM PicHeader)
  check (picHeader.m_valid = false) "Invalid Picture Header"
  let (_, sps) ← activeSPS parameterSetManager picHeader.m_ppsId
  return (picHeader,
    derivePoc idrPicFlag (sentPocMsb picHeader) sps.m_uiBitsForPOC prevTid0POC picHeader.m_pocLsb)

/-! ## Reading ahead -/

/-- Up to `ph_inter_slice_allowed_flag`. -/
def getSlicePocGdr : ReadM Unit := do
  let gdr_or_irap_pic_flag ← READ_FLAG
  if gdr_or_irap_pic_flag then discard READ_FLAG

/-- From there up to `ph_pic_parameter_set_id`. -/
def getSlicePocSliceTypes : ReadM Unit := do
  let ph_inter_slice_allowed_flag ← READ_FLAG
  if ph_inter_slice_allowed_flag then discard READ_FLAG
  discard READ_FLAG

/-- The parameter sets are those of the picture header before. -/
def getSlicePocLsb (sps : SPS) : ReadM ℕ := do
  discard READ_UVLC
  READ_CODE sps.m_uiBitsForPOC

/-- The part for a picture header in the slice header. -/
def getSlicePocOfPicHeader (sps : SPS) : ReadM ℕ := do
  getSlicePocGdr
  getSlicePocSliceTypes
  getSlicePocLsb sps

def getSlicePoc (parameterSetManager : ParameterSetManager) (picHeader : PicHeader) (idrPicFlag : Bool)
    (prevTid0POC : ℤ) : ReadM ℤ := do
  check (picHeader.m_valid = false) "Invalid Picture Header"
  let (_, sps) ← activeSPS parameterSetManager picHeader.m_ppsId
  let picture_header_in_slice_header_flag ← READ_FLAG
  let pocLsb ← (if picture_header_in_slice_header_flag then getSlicePocOfPicHeader sps
    else pure picHeader.m_pocLsb : ReadM ℕ)
  return derivePoc idrPicFlag (sentPocMsb picHeader) sps.m_uiBitsForPOC prevTid0POC pocLsb

end ECM.DecoderLib.VLCReader

/-! # Reading weighted prediction tables

The two `parsePredWeightTable`, of a slice and of a picture header, over the parts that
they have in common. -/

namespace ECM.DecoderLib.VLCReader
open CommonLib CommonLib.BitStream Lib.Loop WeightPrediction

variable (sps : SPS)

/-! ## One reference list -/

/-- The denominators of luma and chroma. -/
def parseDenominators : ReadM (ℕ × ℕ) := do
  let log2WeightDenomLuma ← READ_UVLC
  check (log2WeightDenomLuma > 7) "The value of luma_log2_weight_denom shall be in the range of 0 to 7"
  if sps.chroma then
    let deltaDenom ← READ_SVLC
    check (deltaDenom + log2WeightDenomLuma < 0)
      "luma_log2_weight_denom + delta_chroma_log2_weight_denom shall be in the range of 0 to 7"
    check (deltaDenom + log2WeightDenomLuma > 7)
      "luma_log2_weight_denom + delta_chroma_log2_weight_denom shall be in the range of 0 to 7"
    return (log2WeightDenomLuma, (deltaDenom + log2WeightDenomLuma).toNat)
  else return (log2WeightDenomLuma, 0)

/-- The table, and `uiTotalSignalledWeightFlags`. -/
abbrev ParseState := List WpScaling × ℕ

/-- A loop over the first `n` entries; `step` also says how many flags it counts. -/
def forEntries (n : ℕ) (step : WpScaling → ReadM (WpScaling × ℕ)) : ParseState → ReadM ParseState :=
  loop (fun refIdx state => do
    let wp ← readAt state.1 refIdx
    let (wp, flags) ← step wp
    let table ← writeAt state.1 refIdx wp
    return (table, state.2 + flags)) n

def parseLumaFlag (denom : ℕ × ℕ) (wp : WpScaling) : ReadM (WpScaling × ℕ) := do
  let presentFlag ← READ_FLAG
  let Y := { wp.Y with log2WeightDenom := denom.1, presentFlag }
  if sps.chroma then
    return ({ Y, Cb := { wp.Cb with log2WeightDenom := denom.2 }, Cr := { wp.Cr with log2WeightDenom := denom.2 } },
      presentFlag.toNat)
  else return ({ wp with Y }, presentFlag.toNat)

def parseChromaFlag (wp : WpScaling) : ReadM (WpScaling × ℕ) := do
  let presentFlag ← READ_FLAG
  return ({ wp with Cb := { wp.Cb with presentFlag }, Cr := { wp.Cr with presentFlag } }, 2 * presentFlag.toNat)

/-- The weight and the offset of a component without a flag. -/
def withoutWeight (wp : WPScalingParam) : WPScalingParam :=
  { wp with codedWeight := (1 <<< wp.log2WeightDenom : ℕ), codedOffset := 0 }

def parseLumaWeight (wp : WPScalingParam) : ReadM WPScalingParam := do
  if wp.presentFlag then
    let deltaWeight ← READ_SVLC
    check (deltaWeight < -128) "delta_luma_weight_lx shall be in the rage of -128 to 127"
    check (deltaWeight > 127) "delta_luma_weight_lx shall be in the rage of -128 to 127"
    let codedOffset ← READ_SVLC
    check (codedOffset < -sps.range sps.m_bitDepthLuma) "luma_offset_lx shall be in the rage of -128 to 127"
    check (codedOffset ≥ sps.range sps.m_bitDepthLuma) "luma_offset_lx shall be in the rage of -128 to 127"
    return { wp with codedWeight := deltaWeight + (1 <<< wp.log2WeightDenom : ℕ), codedOffset }
  else return withoutWeight wp

/-- The delta of the offset is less than `limit`. -/
def parseChromaWeight (limit : ℤ) (wp : WPScalingParam) : ReadM WPScalingParam := do
  let range := sps.range sps.m_bitDepthChroma
  let deltaWeight ← READ_SVLC
  check (deltaWeight < -128) "delta_chroma_weight_lx shall be in the rage of -128 to 127"
  check (deltaWeight > 127) "delta_chroma_weight_lx shall be in the rage of -128 to 127"
  let codedWeight := deltaWeight + (1 <<< wp.log2WeightDenom : ℕ)
  let deltaChroma ← READ_SVLC
  check (deltaChroma < -4 * range) "delta_chroma_offset_lx shall be in the range of -4 * 128 to 4 * 127"
  check (deltaChroma ≥ limit) "delta_chroma_offset_lx shall be in the range of -4 * 128 to 4 * 127"
  return { wp with
    codedWeight
    codedOffset := Clip3 (-range) (range - 1) (deltaChroma + pred range codedWeight wp.log2WeightDenom) }

def parseChromaWeights (limit : ℤ) (wp : WpScaling) : ReadM WpScaling := do
  if wp.Cb.presentFlag then
    let Cb ← parseChromaWeight sps limit wp.Cb
    let Cr ← parseChromaWeight sps limit wp.Cr
    return { wp with Cb, Cr }
  else return { wp with Cb := withoutWeight wp.Cb, Cr := withoutWeight wp.Cr }

def parseWeights (limit : ℤ) (wp : WpScaling) : ReadM (WpScaling × ℕ) := do
  let Y ← parseLumaWeight sps wp.Y
  let wp ← (if sps.chroma then parseChromaWeights sps limit { wp with Y } else pure { wp with Y } : ReadM WpScaling)
  return (wp, 0)

/-- No chroma component of any entry has a weight. -/
def clearChromaFlags (table : List WpScaling) : List WpScaling :=
  table.map fun wp => { wp with Cb := { wp.Cb with presentFlag := false }, Cr := { wp.Cr with presentFlag := false } }

/-- No component of the entries from `n` on has a weight. -/
def clearFlagsFrom (n : ℕ) (table : List WpScaling) : List WpScaling :=
  table.mapIdx fun refIdx wp => if refIdx < n then wp else
    { Y := { wp.Y with presentFlag := false }, Cb := { wp.Cb with presentFlag := false },
      Cr := { wp.Cr with presentFlag := false } }

/-- The flags and the weights of `numRefIdx` entries. -/
def parseRefList (limit : ℤ) (denom : ℕ × ℕ) (numRefIdx : ℕ) (state : ParseState) : ReadM ParseState := do
  let state ← forEntries numRefIdx (parseLumaFlag sps denom) state
  let state ← (if sps.chroma then forEntries numRefIdx parseChromaFlag state
    else pure (clearChromaFlags state.1, state.2) : ReadM ParseState)
  let state ← forEntries numRefIdx (parseWeights sps limit) state
  return (clearFlagsFrom numRefIdx state.1, state.2)

/-! ## The tables -/

/-- `iDeltaChroma > 4*(range-1)` is out of range. -/
def sliceLimit : ℤ := 4 * (sps.range sps.m_bitDepthChroma - 1) + 1

/-- `deltaChroma >= 4*range` is out of range. -/
def picHeaderLimit : ℤ := 4 * sps.range sps.m_bitDepthChroma

/-- The two tables of a P or B slice. -/
def parsePredWeightTable (isB : Bool) (numRefIdxL0 numRefIdxL1 : ℕ) (tableL0 tableL1 : List WpScaling) :
    ReadM (List WpScaling × List WpScaling) := do
  let denom ← parseDenominators sps
  let (tableL0, total) ← parseRefList sps (sliceLimit sps) denom numRefIdxL0 (tableL0, 0)
  let (tableL1, total) ← (if isB then parseRefList sps (sliceLimit sps) denom numRefIdxL1 (tableL1, total)
    else pure (tableL1, total) : ReadM ParseState)
  check (total > 24) "Too many weight flag signalled"
  return (tableL0, tableL1)

/-- The numbers of weights and the tables of a picture header. -/
structure ParsedWpPicHeader where
  m_numL0Weights : ℕ
  m_numL1Weights : ℕ
  tableL0 : List WpScaling
  tableL1 : List WpScaling

def parsePredWeightTablePH (numRefEntriesL1 : ℕ) (tableL0 tableL1 : List WpScaling) : ReadM ParsedWpPicHeader := do
  let denom ← parseDenominators sps
  let m_numL0Weights ← READ_UVLC
  let (tableL0, total) ← parseRefList sps (picHeaderLimit sps) denom m_numL0Weights (tableL0, 0)
  let m_numL1Weights ← (if numRefEntriesL1 > 0 then READ_UVLC else pure 0 : ReadM ℕ)
  let (tableL1, total) ← (if m_numL1Weights = 0 then pure (tableL1, total)
    else parseRefList sps (picHeaderLimit sps) denom m_numL1Weights (tableL1, total) : ReadM ParseState)
  check (total > 24) "Too many weight flag signalled"
  return { m_numL0Weights, m_numL1Weights, tableL0, tableL1 }

end ECM.DecoderLib.VLCReader

/-! # Reading chroma QP mapping tables

The part of `parseSPS` that reads the pivot points. -/

namespace ECM.DecoderLib.VLCReader
open CommonLib ECM.Hls

/-- One step from a pivot point to the next; the codes become `int`. -/
def parseQpPoint : ReadM (ℤ × ℤ) := do
  let deltaQpInValMinus1 ← READ_UVLC
  let uiCode ← READ_UVLC
  return (toI32 deltaQpInValMinus1, toI32 (uiCode ^^^ deltaQpInValMinus1))

/-- `qpBdOffset` is the one of luma. -/
def parseQpTable (qpBdOffset : ℤ) : ReadM QpTableParams := do
  let qpTableStart ← READ_SVLC
  check (qpTableStart < -26 - qpBdOffset ∨ qpTableStart > 36)
    "The value of sps_qp_table_start_minus26[ i ] shall be in the range of -26 - QpBdOffset to 36 inclusive"
  let uiCode ← READ_UVLC
  check ((uiCode : ℤ) > 36 - qpTableStart)
    "The value of sps_num_points_in_qp_table_minus1[ i ] shall be in the range of 0 to 36 - sps_qp_table_start_minus26[ i ], inclusive"
  let points ← (List.range (uiCode + 1)).mapM fun _ => parseQpPoint
  return {
    qpTableStartMinus26 := qpTableStart
    numPtsInCQPTableMinus1 := uiCode
    deltaQpInValMinus1 := points.map Prod.fst
    deltaQpOutVal := points.map Prod.snd }

def parseChromaQpTables (jointCbCrEnabledFlag : Bool) (qpBdOffset : ℤ) :
    ReadM ChromaQpMappingTableParams := do
  let m_sameCQPTableForAllChromaFlag ← READ_FLAG
  let numQpTables := if m_sameCQPTableForAllChromaFlag then 1 else if jointCbCrEnabledFlag then 3 else 2
  let tables ← (List.range numQpTables).mapM fun _ => parseQpTable qpBdOffset
  return { m_sameCQPTableForAllChromaFlag, tables }

end ECM.DecoderLib.VLCReader

/-! # Reading scaling lists -/

namespace ECM.DecoderLib.VLCReader
open CommonLib CommonLib.BitStream Lib.Loop ScalingList

/-- The list that is referred to: there are 28, and it has to have as many coefficients. -/
def refAt (sl : ScalingList) (scalingListId refListId : ℕ) : Checked (ℕ → ℤ) := do
  check (28 ≤ refListId ∨ matrixSize refListId < matrixSize scalingListId) outOfRange
  return sl.refScalingList scalingListId refListId

def setScalingListDC (sl : ScalingList) (scalingListId : ℕ) (dc : ℤ) : ScalingList :=
  { sl with m_scalingListDC := Function.update sl.m_scalingListDC scalingListId dc }

def setScalingListCoef (sl : ScalingList) (scalingListId : ℕ) (coef : ℕ → ℤ) : ScalingList :=
  { sl with m_scalingListCoef := Function.update sl.m_scalingListCoef scalingListId coef }

/-- The coefficients of a list: each difference goes on from the one before it. -/
def readCoefs (scalingListId : ℕ) (srcPred : ℕ → ℤ) (nextCoef : ℤ) (dst : ℕ → ℤ) : ReadM (ℤ × (ℕ → ℤ)) :=
  loop (fun i (st : ℤ × (ℕ → ℤ)) =>
    if Skipped scalingListId (scan scalingListId i) then
      pure (st.1, Function.update st.2 (scan scalingListId i).idx 0)
    else do
      let data ← READ_SVLC
      return (st.1 + data, Function.update st.2 (scan scalingListId i).idx
        ((st.1 + data + srcPred (scan scalingListId i).idx + 256) % 256))) (coefNum scalingListId) (nextCoef, dst)

/-- The DC value, if there is one, and the coefficients, with the predictions added. -/
def decodeDeltas (sl : ScalingList) (scalingListId : ℕ) (dcPred : ℤ) (srcPred : ℕ → ℤ) (nextCoef : ℤ) :
    ReadM ScalingList := do
  let (nextCoef, sl) ← (if scalingListId ≥ SCALING_LIST_1D_START_16x16 then do
      let data ← READ_SVLC
      return (nextCoef + data, setScalingListDC sl scalingListId ((nextCoef + data + dcPred + 256) % 256))
    else pure (nextCoef, sl) : ReadM (ℤ × ScalingList))
  let (_, coef) ← readCoefs scalingListId srcPred nextCoef (sl.m_scalingListCoef scalingListId)
  return setScalingListCoef sl scalingListId coef

def decodeScalingList (sl : ScalingList) (scalingListId : ℕ) (isPredictor : Bool) : ReadM ScalingList := do
  let predListId := sl.m_refMatrixId scalingListId
  check (isPredictor ∧ predListId > scalingListId) "Scaling List error predictor!"
  let srcPred ← (if isPredictor then refAt sl scalingListId predListId else pure fun _ => 0 : Checked (ℕ → ℤ))
  let sl := if isPredictor ∧ scalingListId = predListId then setScalingListDC sl predListId SCALING_LIST_DC else sl
  let dcPred :=
    if isPredictor then
      (if predListId ≥ SCALING_LIST_1D_START_16x16 then sl.m_scalingListDC predListId else srcPred 0)
    else 0
  decodeDeltas sl scalingListId dcPred srcPred (if isPredictor then 0 else SCALING_LIST_START_VALUE)

/-- `processRefMatrix`, after the DC value has been taken over from the reference. -/
def copyScalingList (sl : ScalingList) (scalingListId : ℕ) : Checked ScalingList := do
  let refListId := sl.m_refMatrixId scalingListId
  let coef ← refAt sl scalingListId refListId
  let sl := if scalingListId ≥ SCALING_LIST_1D_START_16x16 then
      setScalingListDC sl scalingListId
        (if scalingListId = refListId then 16
        else if refListId < SCALING_LIST_1D_START_16x16 then sl.m_scalingListCoef refListId 0
        else sl.m_scalingListDC refListId)
    else sl
  return setScalingListCoef sl scalingListId coef

/-- The mode of a list, as flags and reference. -/
def readMode (sl : ScalingList) (scalingListId : ℕ) : ReadM ScalingList := do
  let isCopy ← READ_FLAG
  let isPred ← (if isCopy = false then READ_FLAG else pure false : ReadM Bool)
  let refMatrixId ← (if (isCopy ∨ isPred) ∧ ¬IsStart scalingListId then do
      let code ← READ_UVLC
      return sub32 scalingListId code
    else if isCopy ∨ isPred then pure scalingListId
    else pure (sl.m_refMatrixId scalingListId) : ReadM ℕ)
  return sl.setMode scalingListId isCopy isPred refMatrixId

def readOneScalingList (sl : ScalingList) (scalingListId : ℕ) : ReadM ScalingList := do
  let sl ← readMode sl scalingListId
  if sl.m_scalingListPredModeFlagIsCopy scalingListId then copyScalingList sl scalingListId
  else decodeScalingList sl scalingListId (sl.m_scalingListPreditorModeFlag scalingListId)

/-- A list that is not there is the default. -/
def inferScalingList (sl : ScalingList) (scalingListId : ℕ) : Checked ScalingList :=
  copyScalingList { sl with
    m_scalingListPredModeFlagIsCopy := Function.update sl.m_scalingListPredModeFlagIsCopy scalingListId true
    m_refMatrixId := Function.update sl.m_refMatrixId scalingListId scalingListId } scalingListId

def parseScalingList (sl : ScalingList) (aps_chromaPresentFlag : Bool) : ReadM ScalingList :=
  loop (fun scalingListId sl =>
    if aps_chromaPresentFlag ∨ isLumaScalingList scalingListId then readOneScalingList sl scalingListId
    else liftM (inferScalingList sl scalingListId)) 28
    { sl with m_chromaScalingListPresentFlag := aps_chromaPresentFlag }

end ECM.DecoderLib.VLCReader
