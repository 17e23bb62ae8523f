import ECM.CommonLib.SEI
import ECM.EncoderLib.VLCWriter

/-! # Writing timing SEI messages

The payloads of the timing messages, and the framing of the messages of a NAL unit. -/

namespace ECM.EncoderLib.VLCWriter
open CommonLib CommonLib.BitStream

abbrev WriteM := StateT OutputBitstream (Except String)

def WRITE_CODE (uiCode uiLength : ℕ) : WriteM Unit := fun s => do
  let s ← xWriteCode s uiCode uiLength
  return ((), s)

def WRITE_FLAG (uiCode : Bool) : WriteM Unit := fun s => do
  let s ← xWriteFlag s uiCode
  return ((), s)

def WRITE_UVLC (uiCode : ℕ) : WriteM Unit := fun s => do
  let s ← xWriteUvlc s uiCode
  return ((), s)

/-- The loop of `xWriteRbspTrailingBits`; less than a byte is missing. -/
def writeAlignmentZeros : (rounds cnt : ℕ) → WriteM ℕ
  | 0, cnt => pure cnt
  | rounds + 1, cnt => do
    let s ← get
    if s.getNumBitsUntilByteAligned ≠ 0 then
      WRITE_FLAG false
      writeAlignmentZeros rounds (cnt + 1)
    else return cnt

def xWriteRbspTrailingBits : WriteM Unit := do
  WRITE_FLAG true
  let cnt ← writeAlignmentZeros 8 0
  check (cnt ≥ 8) "More than '8' alignment bytes read"

/-- A writer in sequence returns only if both parts do. -/
theorem write_bind_eq_ok {α β : Type} {x : WriteM α} {f : α → WriteM β} {s : OutputBitstream}
    {r : β × OutputBitstream} (h : (x >>= f) s = .ok r) :
    ∃ a t, x s = .ok (a, t) ∧ f a t = .ok r := by
  obtain ⟨⟨a, t⟩, hx, hf⟩ := bind_eq_ok h
  exact ⟨a, t, hx, hf⟩

end ECM.EncoderLib.VLCWriter

namespace ECM.EncoderLib.SEIwrite
open CommonLib CommonLib.BitStream EncoderLib.VLCWriter Lib.Loop

/-! ## Decoding unit information -/

def xWriteSEIDecodingUnitInfo (sei : SEIDecodingUnitInfo) (bp : SEIBufferingPeriod) (temporalId : ℕ) :
    WriteM Unit := do
  WRITE_UVLC (toU32 sei.m_decodingUnitIdx)
  if bp.m_decodingUnitCpbParamsInPicTimingSeiFlag = false then
    forRange temporalId bp.m_bpMaxSubLayers.toNat fun i => do
      let present ← readAt sei.m_duiSubLayerDelaysPresentFlag i
      if (i : ℤ) < bp.m_bpMaxSubLayers - 1 then WRITE_FLAG present
      if present then
        let increment ← readAt sei.m_duSptCpbRemovalDelayIncrement i
        WRITE_CODE (toU32 increment) bp.m_duCpbRemovalDelayIncrementLength
  if bp.m_decodingUnitDpbDuParamsInPicTimingSeiFlag then
    WRITE_FLAG sei.m_dpbOutputDuDelayPresentFlag
  if sei.m_dpbOutputDuDelayPresentFlag then
    WRITE_CODE (toU32 sei.m_picSptDpbOutputDuDelay) bp.m_dpbOutputDelayDuLength

/-! ## Buffering period -/

/-- The decoding unit parameters. -/
def writeDecodingUnitHrdParams (sei : SEIBufferingPeriod) : WriteM Unit := do
  WRITE_FLAG sei.m_bpDecodingUnitHrdParamsPresentFlag
  if sei.m_bpDecodingUnitHrdParamsPresentFlag then
    check (sei.m_duCpbRemovalDelayIncrementLength < 1)
      "sei.m_duCpbRemovalDelayIncrementLength must be > 0"
    WRITE_CODE (sub32 sei.m_duCpbRemovalDelayIncrementLength 1) 5
    check (sei.m_dpbOutputDelayDuLength < 1) "sei.m_dpbOutputDelayDuLength must be > 0"
    WRITE_CODE (sub32 sei.m_dpbOutputDelayDuLength 1) 5
    WRITE_FLAG sei.m_decodingUnitCpbParamsInPicTimingSeiFlag
    WRITE_FLAG sei.m_decodingUnitDpbDuParamsInPicTimingSeiFlag

def writeConcatenation (sei : SEIBufferingPeriod) : WriteM Unit := do
  WRITE_FLAG sei.m_concatenationFlag
  WRITE_FLAG sei.m_additionalConcatenationInfoPresentFlag
  if sei.m_additionalConcatenationInfoPresentFlag then
    WRITE_CODE sei.m_maxInitialRemovalDelayForConcatenation sei.m_initialCpbRemovalDelayLength

/-- The sub-layers and the delay deltas. -/
def writeDelayDeltas (sei : SEIBufferingPeriod) : WriteM Unit := do
  check (sei.m_auCpbRemovalDelayDelta < 1) "sei.m_auCpbRemovalDelayDelta must be > 0"
  WRITE_CODE (sub32 sei.m_auCpbRemovalDelayDelta 1) sei.m_cpbRemovalDelayLength
  check (sei.m_bpMaxSubLayers < 1) "bp_max_sub_layers_minus1 must be > 0"
  WRITE_CODE (toU32 (sei.m_bpMaxSubLayers - 1)) 3
  if sei.m_bpMaxSubLayers - 1 > 0 then WRITE_FLAG sei.m_cpbRemovalDelayDeltasPresentFlag
  if sei.m_cpbRemovalDelayDeltasPresentFlag then
    check (sei.m_numCpbRemovalDelayDeltas < 1) "m_numCpbRemovalDelayDeltas must be > 0"
    WRITE_UVLC (toU32 (sei.m_numCpbRemovalDelayDeltas - 1))
    forRange 0 sei.m_numCpbRemovalDelayDeltas.toNat fun i => do
      let delta ← readAt sei.m_cpbRemovalDelayDelta i
      WRITE_CODE delta sei.m_cpbRemovalDelayLength

/-- The delays of the sub-layer `i`, with the CPB as the first index. -/
def writeInitialDelays (sei : SEIBufferingPeriod) (i : ℕ) : WriteM Unit :=
  forRange 0 2 fun nalOrVcl =>
    if nalOrVcl = 0 ∧ sei.m_bpNalCpbParamsPresentFlag ∨ nalOrVcl = 1 ∧ sei.m_bpVclCpbParamsPresentFlag then
      forRange 0 sei.m_bpCpbCnt.toNat fun j => do
        let delay ← readAt3 sei.m_initialCpbRemovalDelay j i nalOrVcl
        WRITE_CODE delay sei.m_initialCpbRemovalDelayLength
        let offset ← readAt3 sei.m_initialCpbRemovalOffset j i nalOrVcl
        WRITE_CODE offset sei.m_initialCpbRemovalDelayLength
    else pure ()

def writeDpbOutputOffsets (sei : SEIBufferingPeriod) : WriteM Unit := do
  if sei.m_bpMaxSubLayers - 1 > 0 then WRITE_FLAG sei.m_sublayerDpbOutputOffsetsPresentFlag
  if sei.m_sublayerDpbOutputOffsetsPresentFlag then
    forRange 0 (sei.m_bpMaxSubLayers - 1).toNat fun i => do
      let offset ← readAt sei.m_dpbOutputTidOffset i
      WRITE_UVLC offset

def xWriteSEIBufferingPeriod (sei : SEIBufferingPeriod) : WriteM Unit := do
  WRITE_FLAG sei.m_bpNalCpbParamsPresentFlag
  WRITE_FLAG sei.m_bpVclCpbParamsPresentFlag
  check (sei.m_bpNalCpbParamsPresentFlag = false ∧ sei.m_bpVclCpbParamsPresentFlag = false)
    "bp_nal_hrd_parameters_present_flag and/or bp_vcl_hrd_parameters_present_flag must be true"
  check (sei.m_initialCpbRemovalDelayLength < 1) "sei.m_initialCpbRemovalDelayLength must be > 0"
  WRITE_CODE (sub32 sei.m_initialCpbRemovalDelayLength 1) 5
  check (sei.m_cpbRemovalDelayLength < 1) "sei.m_cpbRemovalDelayLength must be > 0"
  WRITE_CODE (sub32 sei.m_cpbRemovalDelayLength 1) 5
  check (sei.m_dpbOutputDelayLength < 1) "sei.m_dpbOutputDelayLength must be > 0"
  WRITE_CODE (sub32 sei.m_dpbOutputDelayLength 1) 5
  writeDecodingUnitHrdParams sei
  writeConcatenation sei
  writeDelayDeltas sei
  check (sei.m_bpCpbCnt < 1) "sei.m_bpCpbCnt must be > 0"
  WRITE_UVLC (toU32 (sei.m_bpCpbCnt - 1))
  if sei.m_bpMaxSubLayers - 1 > 0 then WRITE_FLAG sei.m_sublayerInitialCpbRemovalDelayPresentFlag
  forRange (if sei.m_sublayerInitialCpbRemovalDelayPresentFlag then 0 else (sei.m_bpMaxSubLayers - 1).toNat)
    sei.m_bpMaxSubLayers.toNat (writeInitialDelays sei)
  writeDpbOutputOffsets sei
  WRITE_FLAG sei.m_altCpbParamsPresentFlag
  if sei.m_altCpbParamsPresentFlag then WRITE_FLAG sei.m_useAltCpbParamsFlag

/-! ## Picture timing -/

/-- The delay of the sub-layer `i` below the highest one. -/
def writeSubLayerDelay (sei : SEIPictureTiming) (bp : SEIBufferingPeriod) (i : ℕ) : WriteM Unit := do
  let present ← readAt sei.m_ptSubLayerDelaysPresentFlag i
  WRITE_FLAG present
  if present then
    let enabled ← readAt sei.m_cpbRemovalDelayDeltaEnabledFlag i
    if bp.m_cpbRemovalDelayDeltasPresentFlag then WRITE_FLAG enabled
    if enabled then
      if bp.m_numCpbRemovalDelayDeltas - 1 > 0 then
        let deltaIdx ← readAt sei.m_cpbRemovalDelayDeltaIdx i
        WRITE_CODE deltaIdx (ceilLog2 (toU32 bp.m_numCpbRemovalDelayDeltas))
    else
      let delay ← readAt sei.m_auCpbRemovalDelay i
      WRITE_CODE (sub32 delay 1) bp.m_cpbRemovalDelayLength

/-- The alternative timing of the NAL or of the VCL HRD. -/
def writeAltTiming (bp : SEIBufferingPeriod) (delayDelta offsetDelta : List (List ℕ))
    (cpbDelayOffset dpbDelayOffset : List ℕ) : WriteM Unit :=
  forRange (if bp.m_sublayerInitialCpbRemovalDelayPresentFlag then 0 else (bp.m_bpMaxSubLayers - 1).toNat)
    bp.m_bpMaxSubLayers.toNat fun i => do
      forRange 0 bp.m_bpCpbCnt.toNat fun j => do
        let delta ← readAt2 delayDelta i j
        WRITE_CODE delta bp.m_initialCpbRemovalDelayLength
        let delta ← readAt2 offsetDelta i j
        WRITE_CODE delta bp.m_initialCpbRemovalDelayLength
      let offset ← readAt cpbDelayOffset i
      WRITE_CODE offset bp.m_cpbRemovalDelayLength
      let offset ← readAt dpbDelayOffset i
      WRITE_CODE offset bp.m_dpbOutputDelayLength

/-- The delays of the decoding unit `i`, or those that all units share. -/
def writeDuDelays (sei : SEIPictureTiming) (bp : SEIBufferingPeriod) (temporalId : ℕ)
    (delay : ℕ → Checked ℕ) : WriteM Unit :=
  forRange temporalId (bp.m_bpMaxSubLayers - 1).toNat fun j => do
    let present ← readAt sei.m_ptSubLayerDelaysPresentFlag j
    if present then
      let delayMinus1 ← delay j
      WRITE_CODE delayMinus1 bp.m_duCpbRemovalDelayIncrementLength

def writeDecodingUnits (sei : SEIPictureTiming) (bp : SEIBufferingPeriod) (temporalId : ℕ) :
    WriteM Unit := do
  WRITE_UVLC sei.m_numDecodingUnitsMinus1
  if sei.m_numDecodingUnitsMinus1 > 0 then
    WRITE_FLAG sei.m_duCommonCpbRemovalDelayFlag
    if sei.m_duCommonCpbRemovalDelayFlag then
      writeDuDelays sei bp temporalId (readAt sei.m_duCommonCpbRemovalDelayMinus1)
    forRange 0 (sei.m_numDecodingUnitsMinus1 + 1) fun i => do
      let numNalus ← readAt sei.m_numNalusInDuMinus1 i
      WRITE_UVLC numNalus
      if sei.m_duCommonCpbRemovalDelayFlag = false ∧ i < sei.m_numDecodingUnitsMinus1 then
        writeDuDelays sei bp temporalId fun j =>
          readAt sei.m_duCpbRemovalDelayMinus1 (i * bp.m_bpMaxSubLayers.toNat + j)

def xWriteSEIPictureTiming (sei : SEIPictureTiming) (bp : SEIBufferingPeriod) (temporalId : ℕ) :
    WriteM Unit := do
  let highest ← index (bp.m_bpMaxSubLayers - 1)
  let delay ← readAt sei.m_auCpbRemovalDelay highest
  WRITE_CODE (sub32 delay 1) bp.m_cpbRemovalDelayLength
  forRange temporalId (bp.m_bpMaxSubLayers - 1).toNat (writeSubLayerDelay sei bp)
  WRITE_CODE sei.m_picDpbOutputDelay bp.m_dpbOutputDelayLength
  if bp.m_altCpbParamsPresentFlag then
    WRITE_FLAG sei.m_cpbAltTimingInfoPresentFlag
    if sei.m_cpbAltTimingInfoPresentFlag then
      if bp.m_bpNalCpbParamsPresentFlag then
        writeAltTiming bp sei.m_nalCpbAltInitialRemovalDelayDelta sei.m_nalCpbAltInitialRemovalOffsetDelta
          sei.m_nalCpbDelayOffset sei.m_nalDpbDelayOffset
      if bp.m_bpVclCpbParamsPresentFlag then
        writeAltTiming bp sei.m_vclCpbAltInitialRemovalDelayDelta sei.m_vclCpbAltInitialRemovalOffsetDelta
          sei.m_vclCpbDelayOffset sei.m_vclDpbDelayOffset
  if bp.m_bpDecodingUnitHrdParamsPresentFlag && bp.m_decodingUnitDpbDuParamsInPicTimingSeiFlag then
    WRITE_CODE sei.m_picDpbOutputDuDelay bp.m_dpbOutputDelayDuLength
  if bp.m_bpDecodingUnitHrdParamsPresentFlag && bp.m_decodingUnitCpbParamsInPicTimingSeiFlag then
    writeDecodingUnits sei bp temporalId
  WRITE_UVLC (toU32 sei.m_ptDisplayElementalPeriodsMinus1)

/-! ## The messages of a NAL unit -/

def xWriteByteAlign : WriteM Unit := fun s =>
  if s.numHeldBits % 8 = 0 then .ok ((), s) else xWriteRbspTrailingBits s

def xWriteSEIpayloadData (sei : SEI) (hrd : HRD) (temporalId : ℕ) : WriteM HRD := do
  let hrd ← (match sei with
    | .bufferingPeriod sei => do
      xWriteSEIBufferingPeriod sei
      pure (hrd.setBufferingPeriodSEI sei)
    | .pictureTiming sei =>
      match hrd.getBufferingPeriodSEI with
      | none => throw "Buffering Period need to be initialized in HRD to allow writing of Picture Timing SEI"
      | some bp => do
        xWriteSEIPictureTiming sei bp temporalId
        pure hrd
    | .decodingUnitInfo sei =>
      match hrd.getBufferingPeriodSEI with
      | none => throw "Buffering Period need to be initialized in HRD to allow writing of Decoding Unit Information SEI"
      | some bp => do
        xWriteSEIDecodingUnitInfo sei bp temporalId
        pure hrd : WriteM HRD)
  xWriteByteAlign
  return hrd

/-- A payload type or size: bytes of 255 as long as there is as much left. -/
def writeExtended (v : ℕ) : WriteM Unit := do
  forRange 0 (v / 255) fun _ => WRITE_CODE 255 8
  WRITE_CODE (v % 255) 8

/-- One round of `writeSEImessages`: the payload is written to a bit stream of its own
first, which gives its size. -/
def writeSEImessage (sei : SEI) (hrd : HRD) (temporalId : ℕ) : WriteM HRD := do
  let (hrd, bs_count) ← (xWriteSEIpayloadData sei hrd temporalId OutputBitstream.clear : Checked _)
  let payload_data_num_bits := 8 * bs_count.fifo.length + bs_count.numHeldBits
  check (0 ≠ payload_data_num_bits % 8) "Invalid number of payload data bits"
  writeExtended sei.payloadType
  writeExtended (payload_data_num_bits / 8)
  xWriteSEIpayloadData sei hrd temporalId

/-- `writeSEImessages` of a list that is not nested. -/
def writeSEImessages (seiList : List SEI) (hrd : HRD) (temporalId : ℕ) : WriteM HRD := do
  let hrd ← seiList.foldlM (fun hrd sei => writeSEImessage sei hrd temporalId) hrd
  xWriteRbspTrailingBits
  return hrd

end ECM.EncoderLib.SEIwrite
