import ECM.CommonLib.VPS
import ECM.DecoderLib.SEIread

/-! # Reading scalable nesting SEI messages

`xParseSEIScalableNesting`. The nested messages are read by a parameter, which gives the message that it
adds to the list, if there is one; of these only the types are kept. -/

namespace ECM.CommonLib

def MAX_NESTING_NUM_LAYER : ℕ := 64

structure SEIScalableNesting where
  m_snOlsFlag : Bool
  m_snSubpicFlag : Bool
  m_snNumOlssMinus1 : ℕ
  m_snOlsIdxDeltaMinus1 : List ℕ
  m_snOlsIdx : List ℕ
  m_snAllLayersFlag : Bool
  m_snNumLayersMinus1 : ℕ
  m_snLayerId : List ℕ
  m_snNumSubpics : ℕ
  m_snSubpicIdLen : ℕ
  m_snSubpicId : List ℕ
  m_snNumSEIs : ℕ
  /-- The payload types of the nested messages. -/
  m_nestedSEIs : List ℕ
  deriving DecidableEq

namespace SEIScalableNesting

/-- `SEIScalableNesting()`; the arrays, which it leaves as they are, start at zero here. -/
def new : SEIScalableNesting where
  m_snOlsFlag := false
  m_snSubpicFlag := false
  m_snNumOlssMinus1 := 0
  m_snOlsIdxDeltaMinus1 := List.replicate MAX_NESTING_NUM_LAYER 0
  m_snOlsIdx := List.replicate MAX_NESTING_NUM_LAYER 0
  m_snAllLayersFlag := false
  m_snNumLayersMinus1 := 0
  m_snLayerId := List.replicate MAX_NESTING_NUM_LAYER 0
  m_snNumSubpics := 1
  m_snSubpicIdLen := 0
  m_snSubpicId := []
  m_snNumSEIs := 0
  m_nestedSEIs := []

/-- The indices in use. -/
def olsIdxs (sei : SEIScalableNesting) : List ℕ := sei.m_snOlsIdx.take (sei.m_snNumOlssMinus1 + 1)

end SEIScalableNesting

end ECM.CommonLib

namespace ECM.DecoderLib.SEIread
open CommonLib CommonLib.BitStream DecoderLib.VLCReader Lib.Loop

/-! ## Output layer sets and layers -/

/-- `sn_ols_idx_delta_minus1[ i ]` -/
def readOlsDelta (i : ℕ) (sei : SEIScalableNesting) : ReadM SEIScalableNesting := do
  let symbol ← READ_UVLC
  let m_snOlsIdxDeltaMinus1 ← writeAt sei.m_snOlsIdxDeltaMinus1 i symbol
  return { sei with m_snOlsIdxDeltaMinus1 }

def parseOlsDeltas (sei : SEIScalableNesting) : ReadM SEIScalableNesting := do
  let m_snNumOlssMinus1 ← READ_UVLC
  loop readOlsDelta (m_snNumOlssMinus1 + 1) { sei with m_snNumOlssMinus1 }

/-- One round of the loop that sets `m_snOlsIdx`. -/
def deriveOneOlsIdx (i : ℕ) (sei : SEIScalableNesting) : Checked SEIScalableNesting := do
  let delta ← readAt sei.m_snOlsIdxDeltaMinus1 i
  if i = 0 then
    let m_snOlsIdx ← writeAt sei.m_snOlsIdx i delta
    return { sei with m_snOlsIdx }
  else
    let before ← readAt sei.m_snOlsIdxDeltaMinus1 (i - 1)
    let m_snOlsIdx ← writeAt sei.m_snOlsIdx i (u32 (delta + before + 1))
    return { sei with m_snOlsIdx }

def deriveOlsIdx (sei : SEIScalableNesting) : Checked SEIScalableNesting :=
  loop deriveOneOlsIdx (sei.m_snNumOlssMinus1 + 1) sei

/-- The lowest layer of the output layer sets. -/
def lowestLayer (vps : VPS) (sei : SEIScalableNesting) : Checked ℕ :=
  loop (fun olsIdxForSEI lowestLayerId => do
    let olsIdx ← readAt sei.m_snOlsIdx olsIdxForSEI
    let olsIdx ← index (toI32 olsIdx)
    let numLayers ← readAt vps.m_numLayersInOls olsIdx
    loop (fun layerIdx lowestLayerId => do
      let layerId ← readAt2 vps.m_layerIdInOls olsIdx layerIdx
      return min lowestLayerId (toU32 layerId)) numLayers lowestLayerId)
    (sei.m_snNumOlssMinus1 + 1) (2 ^ 32 - 1)

def checkLowestLayer (vps : Option VPS) (nuhLayerId : ℕ) (sei : SEIScalableNesting) : Checked Unit :=
  match vps with
  | none => .ok ()
  | some vps =>
    if vps.m_VPSId ≠ 0 then do
      let lowestLayerId ← lowestLayer vps sei
      check (lowestLayerId ≠ nuhLayerId)
        "nuh_layer_id is not equal to the lowest layer among Olss that the scalable SEI applies"
    else .ok ()

/-- `sn_layer_id[ i ]` -/
def readLayerId (i : ℕ) (sei : SEIScalableNesting) : ReadM SEIScalableNesting := do
  let symbol ← READ_CODE 6
  let m_snLayerId ← writeAt sei.m_snLayerId i symbol
  return { sei with m_snLayerId }

def parseLayerIds (sei : SEIScalableNesting) : ReadM SEIScalableNesting := do
  let m_snAllLayersFlag ← READ_FLAG
  let sei := { sei with m_snAllLayersFlag }
  if m_snAllLayersFlag = false then
    let m_snNumLayersMinus1 ← READ_UVLC
    let sei := { sei with m_snNumLayersMinus1 }
    loop readLayerId (m_snNumLayersMinus1 + 1) sei
  else return sei

/-- What the message applies to. -/
def parseScope (vps : Option VPS) (nuhLayerId : ℕ) : ReadM SEIScalableNesting := do
  let m_snOlsFlag ← READ_FLAG
  let m_snSubpicFlag ← READ_FLAG
  let sei := { SEIScalableNesting.new with m_snOlsFlag, m_snSubpicFlag }
  if m_snOlsFlag then
    let sei ← parseOlsDeltas sei
    let sei ← deriveOlsIdx sei
    checkLowestLayer vps nuhLayerId sei
    return sei
  else parseLayerIds sei

/-! ## Subpictures -/

/-- `m_snSubpicIdLen` is an `uint8_t`, an id an `uint16_t`. -/
def parseSubpicIds (sei : SEIScalableNesting) : ReadM SEIScalableNesting := do
  if sei.m_snSubpicFlag then
    let symbol ← READ_UVLC
    let m_snNumSubpics := u32 (symbol + 1)
    let symbol ← READ_UVLC
    let m_snSubpicIdLen := (symbol + 1) % 2 ^ 8
    let sei := { sei with m_snNumSubpics, m_snSubpicIdLen, m_snSubpicId := List.replicate m_snNumSubpics 0 }
    loop (fun i sei => do
      let symbol ← READ_CODE sei.m_snSubpicIdLen
      let m_snSubpicId ← writeAt sei.m_snSubpicId i (symbol % 2 ^ 16)
      return { sei with m_snSubpicId }) m_snNumSubpics sei
  else return sei

/-! ## Nested messages -/

/-- A message as the nesting message looks at it. -/
structure NestedSEI where
  payloadType : ℕ
  bufferingPeriod : Option SEIBufferingPeriod

def vclAssociatedSeiList : List ℕ := [3, 19, 45, 129, 137, 144, 145, 147, 148, 149, 150, 153, 154, 155, 156, 168, 204]

/-- `tmpSEIs.front()` -/
def front {α : Type} : List α → Checked α
  | [] => .error "front of an empty list"
  | a :: _ => .ok a

/-- Timing messages and subpicture level information. -/
def isTiming (payloadType : ℕ) : Bool := payloadType = 0 || payloadType = 1 || payloadType = 130 || payloadType = 203

/-- One round of `xCheckScalableNestingConstraints`; `samePicTiming` is a flag of the VPS that is there. -/
def checkNested (sei : SEIScalableNesting) (isPrefix : Bool) (samePicTiming : Option Bool) (payloadType : ℕ) :
    Checked Unit := do
  check (payloadType = 3 ∨ payloadType = 133) "An SEI message that has payloadType equal to filler payload or scalable nesting shall not be contained in a scalable nesting SEI message"
  check (payloadType ≠ 3 ∧ payloadType ≠ 132 ∧ isPrefix = false) "When a scalable nesting SEI message contains an SEI message that has payloadType not equal to filler payload or decoded picture hash, the SEI NAL unit containing the scalable nesting SEI message shall have nal_unit_type equal to PREFIX_SEI_NUT"
  check (payloadType = 132 ∧ isPrefix = true) "When a scalable nesting SEI message contains an SEI message that has payloadType equal to decoded picture hash, the SEI NAL unit containing the scalable nesting SEI message shall have nal_unit_type equal to SUFFIX_SEI_NUT"
  check (payloadType = 132 ∧ sei.m_snSubpicFlag = false) "When the scalable nesting SEI message contains an SEI message that has payloadType equal to decoded picture hash, the value of sn_subpic_flag shall be equal to 1"
  check (payloadType = 203 ∧ sei.m_snSubpicFlag = true) "When the scalable nesting SEI message contains an SEI message that has payloadType equal to SLI, the value of sn_subpic_flag shall be equal to 0"
  match samePicTiming with
  | none => .error "null pointer"
  | some samePicTiming => do
    check (samePicTiming ∧ payloadType = 1) "When general_same_pic_timing_in_all_ols_flag is equal to 1, there shall be no SEI NAL unit that contain a scalable-nested SEI message with payloadType equal to PT"
    check (payloadType ∈ vclAssociatedSeiList ∧ sei.m_snOlsFlag = true) "When the scalable nesting SEI message contains an SEI message that has payloadType equal to a value in vclAssociatedSeiList, the value of sn_ols_flag shall be equal to 0"
    check (isTiming payloadType ∧ sei.m_snOlsFlag = false) "When the scalable nesting SEI message contains an SEI message that has payloadType equal to BP, PT, or DUI, or SLI, the value of sn_ols_flag shall be equal to 1"

def xCheckScalableNestingConstraints (sei : SEIScalableNesting) (isPrefix : Bool) (samePicTiming : Option Bool) :
    Checked Unit := do
  sei.m_nestedSEIs.forM (checkNested sei isPrefix samePicTiming)
  check (sei.m_nestedSEIs.any isTiming ∧ sei.m_nestedSEIs.any fun t => !isTiming t) "When a scalable nesting SEI message contains a BP, PT, DUI, or SLI SEI message, the scalable nesting SEI message shall not contain any other SEI message with payloadType not equal to BP, PT, DUI, or SLI"

section
variable (readSEI : HRD → ReadM (List NestedSEI × HRD))

/-- The number of nested messages, and the bits up to the next byte. -/
def parseNumSEIs (sei : SEIScalableNesting) : ReadM SEIScalableNesting := do
  let symbol ← READ_UVLC
  let sei := { sei with m_snNumSEIs := u32 (symbol + 1) }
  check (sei.m_snNumSEIs > 64) "The value of sn_num_seis_minus1 shall be in the range of 0 to 63"
  let bs ← get
  forRange 0 bs.getNumBitsUntilByteAligned fun _ => do
    let _ ← READ_FLAG
    pure ()
  return sei

/-- One nested message; `m_nestedHrd` keeps the buffering period. -/
def readNested (p : SEIScalableNesting × HRD) : ReadM (SEIScalableNesting × HRD) := do
  let (tmpSEIs, nestedHrd) ← readSEI p.2
  let nested ← front tmpSEIs
  let nestedHrd := match nested.bufferingPeriod with
    | some bp => nestedHrd.setBufferingPeriodSEI bp
    | none => nestedHrd
  return ({ p.1 with m_nestedSEIs := p.1.m_nestedSEIs ++ [nested.payloadType] }, nestedHrd)

def xParseSEIScalableNesting (vps : Option VPS) (samePicTiming : VPS → Bool) (isPrefix : Bool) (nuhLayerId : ℕ)
    (nestedHrd : HRD) : ReadM (SEIScalableNesting × HRD) := do
  let sei ← parseScope vps nuhLayerId
  let sei ← parseSubpicIds sei
  let sei ← parseNumSEIs sei
  let (sei, nestedHrd) ← loop (fun _ => readNested readSEI) sei.m_snNumSEIs (sei, nestedHrd)
  xCheckScalableNestingConstraints sei isPrefix (vps.map samePicTiming)
  return (sei, nestedHrd)

end

end ECM.DecoderLib.SEIread
