import ECM.CommonLib.VPS
import ECM.DecoderLib.LookAhead

/-! # The bitstream extractor

One round of `BitstreamExtractorApp::decode`: what is written to the output for one
NAL unit of the input. The syntax readers and writers, and the parameter sets they
keep, are a parameter. -/

namespace ECM.BitstreamExtractorApp
open CommonLib DecoderLib EncoderLib.NALwrite

inductive SEIPayloadType where
  | SCALABLE_NESTING | BUFFERING_PERIOD | PICTURE_TIMING | DECODING_UNIT_INFO | DECODED_PICTURE_HASH
  | OTHER
  deriving DecidableEq, Repr

/-- What the extractor reads of an SEI message; the nesting fields are those of a
scalable nesting message. -/
structure SEIMessage where
  payloadType : SEIPayloadType
  m_snOlsFlag : Bool
  /-- The first `m_snNumOlssMinus1 + 1` indices. -/
  m_snOlsIdx : List ℤ
  m_snSubpicFlag : Bool
  m_snSubpicId : List ℤ
  deriving DecidableEq, Repr

/-- The readers, the writers and the parameter set manager; `S` is the state they act on. -/
structure SyntaxLib (S : Type) where
  /-- `parseVPS` and `storeVPS`: the id of the VPS. -/
  storeVPS : InputNALUnit → S → Checked (ℕ × S)
  getVPS : S → ℕ → Option VPS
  /-- The VPS with the id 0 is changed in its place. -/
  setVPSIdZero : VPS → S → S
  generalSamePicTimingInAllOlsFlag : S → ℕ → Bool
  /-- `parseSPS` and `storeSPS`: the id of the SPS. -/
  storeSPS : InputNALUnit → S → Checked (ℕ × S)
  /-- `parsePPS` to `initSubPic`: the id of the SPS that the PPS refers to, if there is one. -/
  storePPS : InputNALUnit → S → Checked (Option ℕ × S)
  /-- The PPS last stored has the subpicture. -/
  hasSubPic : (m_subPicId : ℤ) → S → Bool
  storeAPS : InputNALUnit → S → Checked S
  xReadPicHeader : InputNALUnit → S → Checked S
  /-- `m_picHeader.getRecoveryPocCnt()` -/
  getRecoveryPocCnt : S → ℤ
  parseSEImessage : InputNALUnit → S → Checked (List SEIMessage × S)
  /-- `xParseSliceHeader`: the subpicture id of the slice. -/
  xParseSliceHeader : InputNALUnit → S → Checked (ℤ × S)
  /-- `getSubPicInfoPresentFlag()` of the SPS of the picture header. -/
  getSubPicInfoPresentFlag : S → Checked Bool
  codeVPS : S → ℕ → Checked (List UInt8)
  codeSPS : S → ℕ → Checked (List UInt8)
  codePPS : S → Checked (List UInt8)
  /-- What `xRewriteSPS` makes of the SPS, coded. -/
  codeTargetSPS : S → ℕ → Checked (List UInt8)
  /-- What `xRewritePPS` makes of the PPS last stored, coded. -/
  codeTargetPPS : S → Checked (List UInt8)
  /-- `writeSEImessages` of the nested messages. -/
  codeNestedSEIs : InputNALUnit → S → Checked (List UInt8)

/-- The command line. -/
structure Options where
  m_maxTemporalLayer : ℤ
  m_targetOlsIdx : ℤ
  m_subPicId : ℤ

structure ExtractorState (S : Type) where
  syntaxState : S
  m_vpsId : ℕ
  m_removeTimingSEI : Bool
  m_updatedSPSList : List ℕ
  lastSliceWritten : Bool

/-- A NAL unit of the output: one of the input, or one that the extractor codes. -/
inductive OutputUnit where
  | copied (nalu : InputNALUnit)
  | coded (nalUnitType : NalUnitType) (nuhLayerId temporalId : ℕ) (rbsp : List UInt8)
  deriving DecidableEq

namespace OutputUnit

def nalUnitType : OutputUnit → NalUnitType
  | copied nalu => nalu.m_nalUnitType
  | coded nalUnitType _ _ _ => nalUnitType

def nuhLayerId : OutputUnit → ℕ
  | copied nalu => nalu.m_nuhLayerId
  | coded _ nuhLayerId _ _ => nuhLayerId

def temporalId : OutputUnit → ℕ
  | copied nalu => nalu.m_temporalId
  | coded _ _ temporalId _ => temporalId

def isCopied : OutputUnit → Bool
  | copied _ => true
  | coded .. => false

end OutputUnit

section
variable {S : Type} (lib : SyntaxLib S) (opts : Options)

/-- The unit survives the target temporal layer. -/
def withinTemporalLayer (nalu : InputNALUnit) : Bool :=
  opts.m_maxTemporalLayer < 0 || (nalu.m_temporalId : ℤ) ≤ opts.m_maxTemporalLayer

/-- `xCheckNumSubLayers`: the unit is to be discarded. -/
def xCheckNumSubLayers (nalu : InputNALUnit) (vps : VPS) (s : S) : Checked Bool := do
  let olsIdx ← index opts.m_targetOlsIdx
  let layerIdx ← readAt vps.m_generalLayerIdx nalu.m_nuhLayerId
  let numSubLayers ← readAt2 vps.m_numSubLayersInLayerInOLS olsIdx layerIdx
  let retval : Bool := nalu.m_nalUnitType ≠ .CODED_SLICE_IDR_N_LP &&
    nalu.m_nalUnitType ≠ .CODED_SLICE_IDR_W_RADL && nalu.m_nalUnitType ≠ .CODED_SLICE_CRA &&
    !(nalu.m_nalUnitType = .CODED_SLICE_GDR && lib.getRecoveryPocCnt s = 0)
  return retval && (nalu.m_temporalId ≥ (numSubLayers % 2 ^ 32).toNat)

/-- VPS, DCI and end-of-bitstream units belong to every OLS. -/
def isSpecialNalType (t : NalUnitType) : Bool := t = .VPS || t = .DCI || t = .EOB

/-- The VPS in force. The one with the id 0 stands in for a VPS that is not there. -/
def targetVPS (s : ExtractorState S) : Checked (VPS × ExtractorState S) := do
  check (s.m_vpsId = 0 ∧ opts.m_targetOlsIdx ≠ 0)
    "only one OLS and one layer exist, but target olsIdx is not equal to zero"
  match lib.getVPS s.syntaxState s.m_vpsId with
  | none => .error "null pointer"
  | some vps =>
    if s.m_vpsId = 0 then
      let vps ← vps.deriveOutputLayerSets
      return (vps, { s with syntaxState := lib.setVPSIdZero vps s.syntaxState })
    else return (vps, s)

/-- The unit survives the target OLS. -/
def withinTargetOls (nalu : InputNALUnit) (s : ExtractorState S) :
    Checked (Bool × ExtractorState S) := do
  if opts.m_targetOlsIdx ≥ 0 then
    let (vps, s) ← targetVPS lib opts s
    check (opts.m_targetOlsIdx ≥ vps.m_totalNumOLSs)
      "target Ols shall be in the range of OLSs specified by the VPS"
    let olsIdx ← index opts.m_targetOlsIdx
    let layerIdInOls ← readAt vps.m_layerIdInOls olsIdx
    let isIncludedInTargetOls : Bool := (nalu.m_nuhLayerId : ℤ) ∈ layerIdInOls
    let discard ← xCheckNumSubLayers lib opts nalu vps s.syntaxState
    return ((isSpecialNalType nalu.m_nalUnitType || isIncludedInTargetOls) && !discard,
      { s with
        m_removeTimingSEI := !lib.generalSamePicTimingInAllOlsFlag s.syntaxState s.m_vpsId })
  else return (true, s)

/-! ## Parameter sets -/

/-- `xWriteVPS`, and `xWriteSPS` with its own text. -/
def xWriteParameterSet (nalUnitType : NalUnitType) (msg : String) (nalu : InputNALUnit)
    (rbsp : Checked (List UInt8)) : Checked OutputUnit := do
  check (nalu.m_temporalId ≠ 0) msg
  let rbsp ← rbsp
  return .coded nalUnitType nalu.m_nuhLayerId nalu.m_temporalId rbsp

def xWriteVPS (nalu : InputNALUnit) (rbsp : Checked (List UInt8)) : Checked OutputUnit :=
  xWriteParameterSet .VPS "The value of TemporalId of VPS NAL units shall be equal to 0" nalu rbsp

def xWriteSPS (nalu : InputNALUnit) (rbsp : Checked (List UInt8)) : Checked OutputUnit :=
  xWriteParameterSet .SPS "The value of TemporalId of SPS NAL units shall be equal to 0" nalu rbsp

def xWritePPS (nalu : InputNALUnit) (rbsp : Checked (List UInt8)) : Checked OutputUnit := do
  let rbsp ← rbsp
  return .coded .PPS nalu.m_nuhLayerId nalu.m_temporalId rbsp

/-- `xClearSPSUpdated`: `erase` with one iterator takes one element behind the kept ones. -/
def xClearSPSUpdated (spsId : ℕ) (m_updatedSPSList : List ℕ) : List ℕ :=
  let kept := m_updatedSPSList.filter (· ≠ spsId)
  kept ++ m_updatedSPSList.drop (kept.length + 1)

/-- A VPS is stored, and written if it was not dropped. -/
def extractVPS (write : Bool) (nalu : InputNALUnit) (s : ExtractorState S) :
    Checked (ExtractorState S × List OutputUnit) := do
  let (m_vpsId, syntaxState) ← lib.storeVPS nalu s.syntaxState
  let s := { s with m_vpsId, syntaxState }
  if write then
    let out ← xWriteVPS nalu (lib.codeVPS syntaxState m_vpsId)
    return (s, [out])
  else return (s, [])

/-- An SPS is stored, and written at once only when no subpicture is extracted. -/
def extractSPS (write : Bool) (nalu : InputNALUnit) (s : ExtractorState S) :
    Checked (ExtractorState S × List OutputUnit) := do
  let (spsId, syntaxState) ← lib.storeSPS nalu s.syntaxState
  let s := { s with syntaxState }
  if opts.m_subPicId ≥ 0 then
    return ({ s with m_updatedSPSList := s.m_updatedSPSList ++ [spsId] }, [])
  else if write then
    let out ← xWriteSPS nalu (lib.codeSPS syntaxState spsId)
    return (s, [out])
  else return (s, [])

/-- The PPS of the target subpicture, with its SPS when that was updated. -/
def extractTargetPPS (spsId : ℕ) (nalu : InputNALUnit) (s : ExtractorState S) :
    Checked (ExtractorState S × List OutputUnit) := do
  check (lib.hasSubPic opts.m_subPicId s.syntaxState = false) "Target subpicture not found"
  let (s, sps) ← (if spsId ∈ s.m_updatedSPSList then do
      let out ← xWriteSPS nalu (lib.codeTargetSPS s.syntaxState spsId)
      pure ({ s with m_updatedSPSList := xClearSPSUpdated spsId s.m_updatedSPSList }, [out])
    else pure (s, []) : Checked (ExtractorState S × List OutputUnit))
  let pps ← xWritePPS nalu (lib.codeTargetPPS s.syntaxState)
  return (s, sps ++ [pps])

def extractPPS (write : Bool) (nalu : InputNALUnit) (s : ExtractorState S) :
    Checked (ExtractorState S × List OutputUnit) := do
  let (sps, syntaxState) ← lib.storePPS nalu s.syntaxState
  let s := { s with syntaxState }
  match sps with
  | some spsId =>
    if opts.m_subPicId ≥ 0 then extractTargetPPS lib opts spsId nalu s
    else if write then
      let out ← xWritePPS nalu (lib.codePPS syntaxState)
      return (s, [out])
    else return (s, [])
  | none =>
    if write then
      let out ← xWritePPS nalu (lib.codePPS syntaxState)
      return (s, [out])
    else return (s, [])

/-! ## SEI messages -/

/-- The message does not keep the unit out of the target OLS. -/
def seiAllowed (m_removeTimingSEI : Bool) (sei : SEIMessage) : Bool :=
  (sei.payloadType ≠ .SCALABLE_NESTING || !sei.m_snOlsFlag ||
      sei.m_snOlsIdx.any (· = opts.m_targetOlsIdx)) &&
    (!(sei.payloadType = .BUFFERING_PERIOD || (m_removeTimingSEI && sei.payloadType = .PICTURE_TIMING) ||
      sei.payloadType = .DECODING_UNIT_INFO) || !(opts.m_targetOlsIdx > 0))

/-- `xCheckSEIsSubPicture`: what stays, and what is written in its place. -/
def xCheckSEIsSubPicture (SEIs : List SEIMessage) (nalu : InputNALUnit) (s : S) :
    Checked (Bool × List OutputUnit) := do
  match SEIs.filter (·.payloadType = .SCALABLE_NESTING) with
  | sei :: rest => do
    check (rest ≠ []) "There shall be only one Scalable Nesting SEI in one NAL unit"
    check (rest.length + 1 ≠ SEIs.length)
      "Scalable Nesting SEI shall not be in the same NAL unit as other SEIs"
    if sei.m_snSubpicFlag = false then return (false, [])
    else if opts.m_subPicId ∈ sei.m_snSubpicId then
      let rbsp ← lib.codeNestedSEIs nalu s
      return (false, [.coded nalu.m_nalUnitType nalu.m_nuhLayerId nalu.m_temporalId rbsp])
    else return (false, [])
  | [] => return (SEIs.all (·.payloadType ≠ .DECODED_PICTURE_HASH), [])

/-- The answer of the SEI branch, and what it writes. -/
def extractSEI (nalu : InputNALUnit) (s : ExtractorState S) :
    Checked (Bool × ExtractorState S × List OutputUnit) := do
  let (SEIs, syntaxState) ← lib.parseSEImessage nalu s.syntaxState
  let s := { s with syntaxState }
  let write := opts.m_targetOlsIdx < 0 || SEIs.all (seiAllowed opts s.m_removeTimingSEI)
  if opts.m_subPicId ≥ 0 then
    let (keep, outs) ← xCheckSEIsSubPicture lib opts SEIs nalu syntaxState
    return (write && keep, s, outs)
  else return (write, s, [])

/-! ## The round -/

/-- `xCheckSliceSubpicture` -/
def xCheckSliceSubpicture (sliceSubPicId : ℤ) (s : S) : Checked Bool := do
  let present ← lib.getSubPicInfoPresentFlag s
  if present then return opts.m_subPicId = sliceSubPicId
  else .error "Subpicture signalling disbled, cannot extract."

/-- The slice header, and with a target subpicture its answer in place of `write`. -/
def extractSlice (write : Bool) (nalu : InputNALUnit) (s : ExtractorState S) :
    Checked (Bool × ExtractorState S) := do
  let (sliceSubPicId, syntaxState) ← lib.xParseSliceHeader nalu s.syntaxState
  let s := { s with syntaxState }
  if opts.m_subPicId ≥ 0 then
    let write ← xCheckSliceSubpicture lib opts sliceSubPicId syntaxState
    return (write, s)
  else return (write, s)

/-- The branches on the type of the unit, with the decision of the layer filters: the
final decision, and the units written on the spot. -/
def extractByType (write : Bool) (nalu : InputNALUnit) (s : ExtractorState S) :
    Checked (Bool × ExtractorState S × List OutputUnit) :=
  match nalu.m_nalUnitType with
  | .SPS => do
    let (s, outs) ← extractSPS lib opts write nalu s
    return (false, s, outs)
  | .PPS => do
    let (s, outs) ← extractPPS lib opts write nalu s
    return (false, s, outs)
  | .PREFIX_APS | .SUFFIX_APS => do
    let syntaxState ← lib.storeAPS nalu s.syntaxState
    return (write, { s with syntaxState }, [])
  | .PH => do
    let syntaxState ← lib.xReadPicHeader nalu s.syntaxState
    return (write, { s with syntaxState }, [])
  | .PREFIX_SEI | .SUFFIX_SEI => do
    let (keep, s, outs) ← extractSEI lib opts nalu s
    return (write && keep, s, outs)
  | .FD => .ok (if opts.m_subPicId ≥ 0 then s.lastSliceWritten else write, s, [])
  | _ =>
    if nalu.isSlice then do
      let (write, s) ← extractSlice lib opts write nalu s
      return (write, s, [])
    else .ok (write, s, [])

/-- One round on a unit that is not empty: the state, and what is written. -/
def extractNalu (nalu : InputNALUnit) (s : ExtractorState S) :
    Checked (ExtractorState S × List OutputUnit) := do
  let write := withinTemporalLayer opts nalu
  let (s, vpsOuts) ← (if nalu.m_nalUnitType = .VPS then extractVPS lib write nalu s
    else .ok (s, []) : Checked (ExtractorState S × List OutputUnit))
  let write := write && nalu.m_nalUnitType ≠ .VPS
  let (inOls, s) ← withinTargetOls lib opts nalu s
  let (write, s, outs) ← extractByType lib opts (write && inOls) nalu s
  return ({ s with lastSliceWritten := if nalu.isSlice then write else s.lastSliceWritten },
    vpsOuts ++ outs ++ if write then [.copied nalu] else [])

/-- A round on a unit that is not empty, as the output file sees it. -/
structure Round (S : Type) where
  before : ExtractorState S
  nalu : InputNALUnit
  outs : List OutputUnit
  after : ExtractorState S

/-- The loop of `decode` over the units that the byte stream gives. -/
def decode : List (List UInt8) → ExtractorState S → Checked (List (Round S))
  | [], _ => .ok []
  | nalUnit :: nalUnits, s =>
    -- an attempt to decode an empty NAL unit
    if nalUnit = [] then decode nalUnits s
    else do
      let nalu ← readNalu nalUnit
      let (s', outs) ← extractNalu lib opts nalu s
      let rounds ← decode nalUnits s'
      return ⟨s, nalu, outs, s'⟩ :: rounds

end

/-- What a run has written. -/
def written {S : Type} (rounds : List (Round S)) : List OutputUnit := rounds.flatMap (·.outs)

end ECM.BitstreamExtractorApp
