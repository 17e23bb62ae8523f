import ECM.CommonLib.SEI
import ECM.DecoderLib.ReadM

/-! # Reading timing SEI messages

The payloads of the timing messages, and `parseSEImessage` over the messages of a NAL
unit. Payloads of other types are read by a parameter. -/

namespace ECM.DecoderLib.SEIread
open CommonLib CommonLib.BitStream DecoderLib.VLCReader Lib.Loop

/-! ## Decoding unit information -/

/-- The sub-layer `i`. -/
def parseDuSubLayer (bp : SEIBufferingPeriod) (i : ℕ) (sei : SEIDecodingUnitInfo) :
    ReadM SEIDecodingUnitInfo := do
  let present ← (if (i : ℤ) < bp.m_bpMaxSubLayers - 1 then READ_FLAG else pure true : ReadM Bool)
  let m_duiSubLayerDelaysPresentFlag ← writeAt sei.m_duiSubLayerDelaysPresentFlag i present
  let increment ← (if present then READ_CODE bp.m_duCpbRemovalDelayIncrementLength else pure 0 : ReadM ℕ)
  let m_duSptCpbRemovalDelayIncrement ← writeAt sei.m_duSptCpbRemovalDelayIncrement i (toI32 increment)
  return { sei with m_duiSubLayerDelaysPresentFlag, m_duSptCpbRemovalDelayIncrement }

def xParseSEIDecodingUnitInfo (bp : SEIBufferingPeriod) (temporalId : ℕ) : ReadM SEIDecodingUnitInfo := do
  let val ← READ_UVLC
  let sei := { SEIDecodingUnitInfo.new with m_decodingUnitIdx := toI32 val }
  let sei ← (if bp.m_decodingUnitCpbParamsInPicTimingSeiFlag = false then
      loop (fun k => parseDuSubLayer bp (temporalId + k)) (bp.m_bpMaxSubLayers.toNat - temporalId) sei
    else
      loop (fun k sei => do
        let m_duSptCpbRemovalDelayIncrement ← writeAt sei.m_duSptCpbRemovalDelayIncrement (temporalId + k) 0
        return { sei with m_duSptCpbRemovalDelayIncrement })
        ((bp.m_bpMaxSubLayers - 1).toNat - temporalId) sei : ReadM SEIDecodingUnitInfo)
  let m_dpbOutputDuDelayPresentFlag ←
    (if bp.m_decodingUnitDpbDuParamsInPicTimingSeiFlag then READ_FLAG else pure false : ReadM Bool)
  let sei := { sei with m_dpbOutputDuDelayPresentFlag }
  if m_dpbOutputDuDelayPresentFlag then
    let val ← READ_CODE bp.m_dpbOutputDelayDuLength
    return { sei with m_picSptDpbOutputDuDelay := toI32 val }
  else return sei

/-! ## Buffering period -/

/-- The decoding unit parameters, and the check on alternative CPB parameters, which
are not read yet. -/
def parseDecodingUnitHrdParams (sei : SEIBufferingPeriod) : ReadM SEIBufferingPeriod := do
  let m_bpDecodingUnitHrdParamsPresentFlag ← READ_FLAG
  let sei := { sei with m_bpDecodingUnitHrdParamsPresentFlag }
  let sei ← (if m_bpDecodingUnitHrdParamsPresentFlag then do
      let code ← READ_CODE 5
      let sei := { sei with m_duCpbRemovalDelayIncrementLength := code + 1 }
      let code ← READ_CODE 5
      let sei := { sei with m_dpbOutputDelayDuLength := code + 1 }
      let m_decodingUnitCpbParamsInPicTimingSeiFlag ← READ_FLAG
      let m_decodingUnitDpbDuParamsInPicTimingSeiFlag ← READ_FLAG
      return { sei with m_decodingUnitCpbParamsInPicTimingSeiFlag, m_decodingUnitDpbDuParamsInPicTimingSeiFlag }
    else
      return { sei with
        m_duCpbRemovalDelayIncrementLength := 24
        m_dpbOutputDelayDuLength := 24
        m_decodingUnitDpbDuParamsInPicTimingSeiFlag := false } : ReadM SEIBufferingPeriod)
  check (sei.m_altCpbParamsPresentFlag && sei.m_bpDecodingUnitHrdParamsPresentFlag)
    "When bp_alt_cpb_params_present_flag is equal to 1, the value of bp_du_hrd_params_present_flag shall be equal to 0"
  return sei

def parseConcatenation (sei : SEIBufferingPeriod) : ReadM SEIBufferingPeriod := do
  let m_concatenationFlag ← READ_FLAG
  let m_additionalConcatenationInfoPresentFlag ← READ_FLAG
  let sei := { sei with m_concatenationFlag, m_additionalConcatenationInfoPresentFlag }
  if m_additionalConcatenationInfoPresentFlag then
    let m_maxInitialRemovalDelayForConcatenation ← READ_CODE sei.m_initialCpbRemovalDelayLength
    return { sei with m_maxInitialRemovalDelayForConcatenation }
  else return sei

/-- The sub-layers and the delay deltas. -/
def parseDelayDeltas (sei : SEIBufferingPeriod) : ReadM SEIBufferingPeriod := do
  let code ← READ_CODE sei.m_cpbRemovalDelayLength
  let sei := { sei with m_auCpbRemovalDelayDelta := u32 (code + 1) }
  let code ← READ_CODE 3
  let sei := { sei with m_bpMaxSubLayers := toI32 (code + 1) }
  let m_cpbRemovalDelayDeltasPresentFlag ←
    (if sei.m_bpMaxSubLayers - 1 > 0 then READ_FLAG else pure false : ReadM Bool)
  let sei := { sei with m_cpbRemovalDelayDeltasPresentFlag }
  if m_cpbRemovalDelayDeltasPresentFlag then
    let code ← READ_UVLC
    let sei := { sei with m_numCpbRemovalDelayDeltas := toI32 (code + 1) }
    loop (fun i sei => do
      let code ← READ_CODE sei.m_cpbRemovalDelayLength
      let m_cpbRemovalDelayDelta ← writeAt sei.m_cpbRemovalDelayDelta i code
      return { sei with m_cpbRemovalDelayDelta }) sei.m_numCpbRemovalDelayDeltas.toNat sei
  else return sei

/-- One delay and one offset: both are stored as the delay, with the sub-layer as the
first index. -/
def parseInitialDelay (i nalOrVcl j : ℕ) (sei : SEIBufferingPeriod) : ReadM SEIBufferingPeriod := do
  let code ← READ_CODE sei.m_initialCpbRemovalDelayLength
  let m_initialCpbRemovalDelay ← writeAt3 sei.m_initialCpbRemovalDelay i j nalOrVcl code
  let code ← READ_CODE sei.m_initialCpbRemovalDelayLength
  let m_initialCpbRemovalDelay ← writeAt3 m_initialCpbRemovalDelay i j nalOrVcl code
  return { sei with m_initialCpbRemovalDelay }

def parseInitialDelays (i : ℕ) (sei : SEIBufferingPeriod) : ReadM SEIBufferingPeriod :=
  loop (fun nalOrVcl sei =>
    if nalOrVcl = 0 ∧ sei.m_bpNalCpbParamsPresentFlag ∨ nalOrVcl = 1 ∧ sei.m_bpVclCpbParamsPresentFlag then
      loop (parseInitialDelay i nalOrVcl) sei.m_bpCpbCnt.toNat sei
    else pure sei) 2 sei

def parseDpbOutputOffsets (sei : SEIBufferingPeriod) : ReadM SEIBufferingPeriod := do
  let m_sublayerDpbOutputOffsetsPresentFlag ←
    (if sei.m_bpMaxSubLayers - 1 > 0 then READ_FLAG else pure false : ReadM Bool)
  let sei := { sei with m_sublayerDpbOutputOffsetsPresentFlag }
  if m_sublayerDpbOutputOffsetsPresentFlag then
    let sei ← loop (fun i sei => do
      let code ← READ_UVLC
      let m_dpbOutputTidOffset ← writeAt sei.m_dpbOutputTidOffset i code
      return { sei with m_dpbOutputTidOffset }) (sei.m_bpMaxSubLayers - 1).toNat sei
    let last ← index (sei.m_bpMaxSubLayers - 1)
    let m_dpbOutputTidOffset ← writeAt sei.m_dpbOutputTidOffset last 0
    return { sei with m_dpbOutputTidOffset }
  else return sei

def parseAltCpbParams (sei : SEIBufferingPeriod) : ReadM SEIBufferingPeriod := do
  let m_altCpbParamsPresentFlag ← READ_FLAG
  let sei := { sei with m_altCpbParamsPresentFlag }
  if m_altCpbParamsPresentFlag then
    let m_useAltCpbParamsFlag ← READ_FLAG
    return { sei with m_useAltCpbParamsFlag }
  else return sei

/-- `xParseSEIBufferingPeriod`: the number of CPBs is not read. -/
def xParseSEIBufferingPeriod : ReadM SEIBufferingPeriod := do
  let m_bpNalCpbParamsPresentFlag ← READ_FLAG
  let m_bpVclCpbParamsPresentFlag ← READ_FLAG
  let code ← READ_CODE 5
  let sei := { SEIBufferingPeriod.new with
    m_bpNalCpbParamsPresentFlag, m_bpVclCpbParamsPresentFlag, m_initialCpbRemovalDelayLength := code + 1 }
  let code ← READ_CODE 5
  let sei := { sei with m_cpbRemovalDelayLength := code + 1 }
  let code ← READ_CODE 5
  let sei := { sei with m_dpbOutputDelayLength := code + 1 }
  let sei ← parseDecodingUnitHrdParams sei
  let sei ← parseConcatenation sei
  let sei ← parseDelayDeltas sei
  let m_sublayerInitialCpbRemovalDelayPresentFlag ←
    (if sei.m_bpMaxSubLayers - 1 > 0 then READ_FLAG else pure false : ReadM Bool)
  let sei := { sei with m_sublayerInitialCpbRemovalDelayPresentFlag }
  let lo := if m_sublayerInitialCpbRemovalDelayPresentFlag then 0 else (sei.m_bpMaxSubLayers - 1).toNat
  let sei ← loop (fun k => parseInitialDelays (lo + k)) (sei.m_bpMaxSubLayers.toNat - lo) sei
  let sei ← parseDpbOutputOffsets sei
  parseAltCpbParams sei

/-! ## Picture timing -/

/-- The delay of the sub-layer `i` below the highest one. -/
def parseSubLayerDelay (bp : SEIBufferingPeriod) (i : ℕ) (sei : SEIPictureTiming) : ReadM SEIPictureTiming := do
  let present ← READ_FLAG
  let m_ptSubLayerDelaysPresentFlag ← writeAt sei.m_ptSubLayerDelaysPresentFlag i present
  let sei := { sei with m_ptSubLayerDelaysPresentFlag }
  if present then
    let enabled ← (if bp.m_cpbRemovalDelayDeltasPresentFlag then READ_FLAG else pure false : ReadM Bool)
    let m_cpbRemovalDelayDeltaEnabledFlag ← writeAt sei.m_cpbRemovalDelayDeltaEnabledFlag i enabled
    let sei := { sei with m_cpbRemovalDelayDeltaEnabledFlag }
    if enabled then
      let deltaIdx ← (if bp.m_numCpbRemovalDelayDeltas - 1 > 0 then
          READ_CODE (ceilLog2 (toU32 bp.m_numCpbRemovalDelayDeltas))
        else pure 0 : ReadM ℕ)
      let m_cpbRemovalDelayDeltaIdx ← writeAt sei.m_cpbRemovalDelayDeltaIdx i deltaIdx
      return { sei with m_cpbRemovalDelayDeltaIdx }
    else
      let symbol ← READ_CODE bp.m_cpbRemovalDelayLength
      let m_auCpbRemovalDelay ← writeAt sei.m_auCpbRemovalDelay i (u32 (symbol + 1))
      return { sei with m_auCpbRemovalDelay }
  else return sei

/-- The four tables of the alternative timing of an HRD. -/
structure AltTiming where
  delayDelta : List (List ℕ)
  offsetDelta : List (List ℕ)
  cpbDelayOffset : List ℕ
  dpbDelayOffset : List ℕ

def parseAltDelta (bp : SEIBufferingPeriod) (i j : ℕ) (alt : AltTiming) : ReadM AltTiming := do
  let symbol ← READ_CODE bp.m_initialCpbRemovalDelayLength
  let delayDelta ← writeAt2 alt.delayDelta i j symbol
  let symbol ← READ_CODE bp.m_initialCpbRemovalDelayLength
  let offsetDelta ← writeAt2 alt.offsetDelta i j symbol
  return { alt with delayDelta, offsetDelta }

/-- The tables of the NAL or of the VCL HRD, of a message that was just made. -/
def parseAltTiming (bp : SEIBufferingPeriod) : ReadM AltTiming := do
  let rows := bp.m_bpMaxSubLayers.toNat
  let table := List.replicate rows (List.replicate bp.m_bpCpbCnt.toNat 0)
  let alt : AltTiming := ⟨table, table, List.replicate rows 0, List.replicate rows 0⟩
  let lo := if bp.m_sublayerInitialCpbRemovalDelayPresentFlag then 0 else (bp.m_bpMaxSubLayers - 1).toNat
  loop (fun k alt => do
    let i := lo + k
    let alt ← loop (parseAltDelta bp i) bp.m_bpCpbCnt.toNat alt
    let symbol ← READ_CODE bp.m_cpbRemovalDelayLength
    let cpbDelayOffset ← writeAt alt.cpbDelayOffset i symbol
    let symbol ← READ_CODE bp.m_dpbOutputDelayLength
    let dpbDelayOffset ← writeAt alt.dpbDelayOffset i symbol
    return { alt with cpbDelayOffset, dpbDelayOffset }) (rows - lo) alt

/-- The tables when no alternative timing is sent. -/
def noAltTiming (bp : SEIBufferingPeriod) : AltTiming :=
  let rows := bp.m_bpMaxSubLayers.toNat
  let lo := if bp.m_sublayerInitialCpbRemovalDelayPresentFlag then 0 else (bp.m_bpMaxSubLayers - 1).toNat
  let table := List.replicate lo [] ++ List.replicate (rows - lo) (List.replicate bp.m_bpCpbCnt.toNat 0)
  ⟨table, table, List.replicate rows 0, List.replicate rows 0⟩

def setNalTiming (sei : SEIPictureTiming) (alt : AltTiming) : SEIPictureTiming :=
  { sei with
    m_nalCpbAltInitialRemovalDelayDelta := alt.delayDelta
    m_nalCpbAltInitialRemovalOffsetDelta := alt.offsetDelta
    m_nalCpbDelayOffset := alt.cpbDelayOffset
    m_nalDpbDelayOffset := alt.dpbDelayOffset }

def setVclTiming (sei : SEIPictureTiming) (alt : AltTiming) : SEIPictureTiming :=
  { sei with
    m_vclCpbAltInitialRemovalDelayDelta := alt.delayDelta
    m_vclCpbAltInitialRemovalOffsetDelta := alt.offsetDelta
    m_vclCpbDelayOffset := alt.cpbDelayOffset
    m_vclDpbDelayOffset := alt.dpbDelayOffset }

def parseAltTimings (bp : SEIBufferingPeriod) (sei : SEIPictureTiming) : ReadM SEIPictureTiming := do
  if bp.m_altCpbParamsPresentFlag then
    let m_cpbAltTimingInfoPresentFlag ← READ_FLAG
    let sei := { sei with m_cpbAltTimingInfoPresentFlag }
    if m_cpbAltTimingInfoPresentFlag then
      let sei ← (if bp.m_bpNalCpbParamsPresentFlag then do
          let alt ← parseAltTiming bp
          pure (setNalTiming sei alt)
        else pure sei : ReadM SEIPictureTiming)
      if bp.m_bpVclCpbParamsPresentFlag then
        let alt ← parseAltTiming bp
        return setVclTiming sei alt
      else return sei
    else return sei
  else
    return setVclTiming (setNalTiming { sei with m_cpbAltTimingInfoPresentFlag := false } (noAltTiming bp))
      (noAltTiming bp)

/-- The delays of a decoding unit, or those that all units share. -/
def parseDuDelays (bp : SEIBufferingPeriod) (temporalId : ℕ)
    (store : ℕ → ℕ → SEIPictureTiming → Checked SEIPictureTiming) (sei : SEIPictureTiming) :
    ReadM SEIPictureTiming :=
  loop (fun k sei => do
    let j := temporalId + k
    let present ← readAt sei.m_ptSubLayerDelaysPresentFlag j
    if present then
      let symbol ← READ_CODE bp.m_duCpbRemovalDelayIncrementLength
      store j symbol sei
    else return sei) ((bp.m_bpMaxSubLayers - 1).toNat - temporalId) sei

def parseDecodingUnits (bp : SEIBufferingPeriod) (temporalId : ℕ) (sei : SEIPictureTiming) :
    ReadM SEIPictureTiming := do
  let m_numDecodingUnitsMinus1 ← READ_UVLC
  let sei := { sei with
    m_numDecodingUnitsMinus1
    m_numNalusInDuMinus1 := List.replicate (m_numDecodingUnitsMinus1 + 1) 0
    m_duCpbRemovalDelayMinus1 :=
      List.replicate ((m_numDecodingUnitsMinus1 + 1) * bp.m_bpMaxSubLayers.toNat) 0 }
  if m_numDecodingUnitsMinus1 > 0 then
    let m_duCommonCpbRemovalDelayFlag ← READ_FLAG
    let sei := { sei with m_duCommonCpbRemovalDelayFlag }
    let sei ← (if m_duCommonCpbRemovalDelayFlag then
        parseDuDelays bp temporalId (fun j symbol sei => do
          let m_duCommonCpbRemovalDelayMinus1 ← writeAt sei.m_duCommonCpbRemovalDelayMinus1 j symbol
          return { sei with m_duCommonCpbRemovalDelayMinus1 }) sei
      else pure sei : ReadM SEIPictureTiming)
    loop (fun i sei => do
      let symbol ← READ_UVLC
      let m_numNalusInDuMinus1 ← writeAt sei.m_numNalusInDuMinus1 i symbol
      let sei := { sei with m_numNalusInDuMinus1 }
      if sei.m_duCommonCpbRemovalDelayFlag = false ∧ i < sei.m_numDecodingUnitsMinus1 then
        parseDuDelays bp temporalId (fun j symbol sei => do
          let m_duCpbRemovalDelayMinus1 ←
            writeAt sei.m_duCpbRemovalDelayMinus1 (i * bp.m_bpMaxSubLayers.toNat + j) symbol
          return { sei with m_duCpbRemovalDelayMinus1 }) sei
      else return sei) (m_numDecodingUnitsMinus1 + 1) sei
  else return { sei with m_duCommonCpbRemovalDelayFlag := false }

def xParseSEIPictureTiming (bp : SEIBufferingPeriod) (temporalId : ℕ) : ReadM SEIPictureTiming := do
  let symbol ← READ_CODE bp.m_cpbRemovalDelayLength
  let highest ← index (bp.m_bpMaxSubLayers - 1)
  let m_auCpbRemovalDelay ← writeAt SEIPictureTiming.new.m_auCpbRemovalDelay highest (u32 (symbol + 1))
  let sei := { SEIPictureTiming.new with m_auCpbRemovalDelay }
  let sei ← loop (fun k => parseSubLayerDelay bp (temporalId + k))
    ((bp.m_bpMaxSubLayers - 1).toNat - temporalId) sei
  let m_picDpbOutputDelay ← READ_CODE bp.m_dpbOutputDelayLength
  let sei ← parseAltTimings bp { sei with m_picDpbOutputDelay }
  let sei ← (if bp.m_bpDecodingUnitHrdParamsPresentFlag && bp.m_decodingUnitDpbDuParamsInPicTimingSeiFlag then do
      let m_picDpbOutputDuDelay ← READ_CODE bp.m_dpbOutputDelayDuLength
      pure { sei with m_picDpbOutputDuDelay }
    else pure sei : ReadM SEIPictureTiming)
  let sei ← (if bp.m_bpDecodingUnitHrdParamsPresentFlag && bp.m_decodingUnitCpbParamsInPicTimingSeiFlag then
      parseDecodingUnits bp temporalId sei
    else pure sei : ReadM SEIPictureTiming)
  let symbol ← READ_UVLC
  return { sei with m_ptDisplayElementalPeriodsMinus1 := toI32 symbol }

/-! ## The messages of a NAL unit -/

/-- A payload type or size, at most `fuel` bytes of it. -/
def readExtended : (fuel : ℕ) → ReadM ℕ
  | 0 => throw "payload type or size does not end"
  | fuel + 1 => do
    let val ← READ_CODE 8
    if val = 255 then do
      let rest ← readExtended fuel
      return val + rest
    else return val

/-- The `switch` of `xReadSEImessage` for a prefix SEI unit. -/
def parsePayload (parseOther : (payloadType payloadSize : ℕ) → ReadM Unit)
    (payloadType payloadSize : ℕ) (hrd : HRD) (temporalId : ℕ) : ReadM (Option SEI × HRD) :=
  match payloadType with
  | 0 => do
    let sei ← xParseSEIBufferingPeriod
    return (some (.bufferingPeriod sei), hrd.setBufferingPeriodSEI sei)
  | 1 =>
    match hrd.getBufferingPeriodSEI with
    | none => pure (none, hrd)
    | some bp => do
      let sei ← xParseSEIPictureTiming bp temporalId
      return (some (.pictureTiming sei), hrd)
  | 130 =>
    match hrd.getBufferingPeriodSEI with
    | none => pure (none, hrd)
    | some bp => do
      let sei ← xParseSEIDecodingUnitInfo bp temporalId
      return (some (.decodingUnitInfo sei), hrd)
  | _ => do
    parseOther payloadType payloadSize
    return (none, hrd)

/-- `for (mask = 0xff; finalBits & (mask >> finalPayloadBits); finalPayloadBits++)` -/
def countFinalPayloadBits (finalBits : ℕ) : (rounds finalPayloadBits : ℕ) → ℕ
  | 0, finalPayloadBits => finalPayloadBits
  | rounds + 1, finalPayloadBits =>
    if finalBits &&& 0xff >>> finalPayloadBits ≠ 0 then
      countFinalPayloadBits finalBits rounds (finalPayloadBits + 1)
    else finalPayloadBits

/-- The end of a payload: `READ_FLAG` as long as bits are left behind what was parsed. -/
def readPayloadEnd : ReadM Unit := fun bs => do
  let payloadBitsRemaining := bs.getNumBitsLeft
  if payloadBitsRemaining = 0 then return ((), bs)
  else
    let (_, bs) ← (forRange 0 (payloadBitsRemaining - 9) fun _ => do
      let _ ← READ_CODE 1
      pure () : ReadM Unit) bs
    let payloadBitsRemaining := min payloadBitsRemaining 9
    let (finalBits, _) ← bs.read payloadBitsRemaining
    let finalPayloadBits := countFinalPayloadBits finalBits 9 0
    let extension := payloadBitsRemaining - (9 - finalPayloadBits)
    (forRange 0 (extension + 1 + (payloadBitsRemaining - extension - 1)) fun _ => do
      let _ ← READ_FLAG
      pure () : ReadM Unit) bs

/-- `xReadSEImessage`: the message, when the payload gives one. -/
def xReadSEImessage (parseOther : (payloadType payloadSize : ℕ) → ReadM Unit)
    (hrd : HRD) (temporalId : ℕ) : ReadM (Option SEI × HRD) := fun bs => do
  let (payloadType, bs) ← readExtended (bs.fifo.length + 1) bs
  let (payloadSize, bs) ← readExtended (bs.fifo.length + 1) bs
  let (payload, bs) ← bs.extractSubstream (u32 (payloadSize * 8))
  let (result, payload) ← parsePayload parseOther payloadType payloadSize hrd temporalId payload
  let _ ← readPayloadEnd payload
  return (result, bs)

def xReadRbspTrailingBits : ReadM Unit := fun bs => do
  let (bit, bs) ← READ_FLAG bs
  check (bit = false) "Trailing bit not '1'"
  let (_, bs) ← (forRange 0 bs.getNumBitsUntilByteAligned fun _ => do
    let bit ← READ_FLAG
    check (bit = true) "Alignment bit is not '0'" : ReadM Unit) bs
  return ((), bs)

/-- The `do`-`while` loop of `parseSEImessage`, at most `fuel` rounds of it. -/
def readMessages (parseOther : (payloadType payloadSize : ℕ) → ReadM Unit) (temporalId : ℕ) :
    (fuel : ℕ) → HRD → ReadM (List SEI × HRD)
  | 0, _ => throw "the messages do not end"
  | fuel + 1, hrd => fun bs => do
    let ((sei, hrd), bs) ← xReadSEImessage parseOther hrd temporalId bs
    check (bs.getNumBitsUntilByteAligned ≠ 0) "Bitstream not aligned"
    if bs.getNumBitsLeft > 8 then
      let ((seis, hrd), bs) ← readMessages parseOther temporalId fuel hrd bs
      return ((sei.toList ++ seis, hrd), bs)
    else return ((sei.toList, hrd), bs)

/-- `parseSEImessage` on a prefix SEI unit: the messages that it adds to the list. -/
def parseSEImessage (parseOther : (payloadType payloadSize : ℕ) → ReadM Unit) (hrd : HRD)
    (temporalId : ℕ) : ReadM (List SEI × HRD) := fun bs => do
  check (bs.getNumBitsUntilByteAligned ≠ 0) "Bitstream not aligned"
  let (result, bs) ← readMessages parseOther temporalId (bs.fifo.length + 1) hrd bs
  let (_, bs) ← xReadRbspTrailingBits bs
  return (result, bs)

end ECM.DecoderLib.SEIread
