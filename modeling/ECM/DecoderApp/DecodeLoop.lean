import ECM.DecoderLib.LookAhead

/-! # The main loop of the decoder application

One round of the loop of `DecApp::decode`, on the file, the flags of the loop
and a decoder library. The library is a parameter: the loop looks at its flags
and calls it. Writing pictures to a file is left out. -/

namespace ECM.DecoderApp
open CommonLib DecoderLib

/-- The calls of `DecLib` the loop makes; `D` is the state they act on. -/
structure DecLib (D : Type) where
  getFirstSliceInPicture : D → Bool
  setFirstSliceInPicture : (val : Bool) → D → D
  getFirstSliceInSequence : (layerId : ℕ) → D → Bool
  setFirstSliceInSequence : (val : Bool) → (layerId : ℕ) → D → D
  isSliceNaluFirstInAU : (newPicture : Bool) → D → InputNALUnit → Checked Bool
  decode : InputNALUnit → D → Checked D
  /-- `getVPS()->m_targetLayerIdSet` after `deriveTargetOutputLayerSet`. -/
  deriveTargetOutputLayerSet : D → Checked (List ℕ × D)
  /-- `executeLoopFilters` and `finishPicture`. -/
  finishPicture : D → Checked D
  /-- `updateAssociatedIRAP`, `updatePrevGDRInSameLayer` and `updatePrevIRAPAndGDRSubpic`. -/
  updateAssociatedIRAP : D → D
  /-- `checkSeiInPictureUnit` and `resetPictureSeiNalus`. -/
  checkSeiInPictureUnit : D → Checked D
  /-- `checkAPSInPictureUnit` and `resetPictureUnitNals`. -/
  checkAPSInPictureUnit : D → Checked D
  /-- `CheckNoOutputPriorPicFlagsInAccessUnit` to `resetAudIrapOrGdrAuFlag`. -/
  checkLayerIdIncludedInCvss : D → Checked D
  /-- `checkTidLayerIdInAccessUnit` to `resetAccessUnitSeiPayLoadTypes`. -/
  checkTidLayerIdInAccessUnit : D → Checked D
  /-- `resetAccessUnitNals`, `resetAccessUnitApsNals` and `resetAccessUnitPicInfo`. -/
  resetAccessUnitNals : D → D

/-- The variables that live across the rounds. -/
structure DecodeState (D : Type) where
  bitstreamFile : BitstreamFile
  m_cDecLib : D
  loopFiltered : ℕ → Bool
  bPicSkipped : Bool
  isEosPresentInPu : Bool
  /-- `pcListPic` is set. -/
  pcListPic : Bool
  m_targetDecLayerIdSet : List ℕ

namespace DecodeState
variable {D : Type}

/-- Before the first round. -/
def initial (m_cDecLib : D) (bytes : List UInt8) : DecodeState D :=
  ⟨.ofBytes bytes, m_cDecLib, fun _ => false, false, false, false, []⟩

end DecodeState

section
variable {D : Type} (lib : DecLib D) (m_iMaxTemporalLayer : ℤ)

def xIsNaluWithinTargetDecLayerIdSet (s : DecodeState D) (nalu : InputNALUnit) : Bool :=
  s.m_targetDecLayerIdSet = [] || nalu.m_nuhLayerId ∈ s.m_targetDecLayerIdSet

/-- Parse NAL unit syntax if within target decoding layer. -/
def decodeNalu (nalu : InputNALUnit) (s : DecodeState D) : Checked (DecodeState D) := do
  if (m_iMaxTemporalLayer < 0 ∨ (nalu.m_temporalId : ℤ) ≤ m_iMaxTemporalLayer) ∧
      xIsNaluWithinTargetDecLayerIdSet s nalu then
    check (nalu.m_temporalId > (m_iMaxTemporalLayer % 2 ^ 32).toNat)
      "bitstream shall not include any NAL unit with TemporalId greater than HighestTid"
    check (s.m_targetDecLayerIdSet ≠ [] ∧ nalu.m_nuhLayerId ∉ s.m_targetDecLayerIdSet)
      "bitstream shall not contain any other layers than included in the OLS with OlsIdx"
    let resets ← (if s.bPicSkipped && nalu.isSlice then
        lib.isSliceNaluFirstInAU true s.m_cDecLib nalu
      else .ok false : Checked Bool)
    let bPicSkipped := s.bPicSkipped && !nalu.isSlice
    let d := if resets then lib.resetAccessUnitNals s.m_cDecLib else s.m_cDecLib
    let d ← lib.decode nalu d
    if nalu.m_nalUnitType = .VPS then
      let (m_targetDecLayerIdSet, d) ← lib.deriveTargetOutputLayerSet d
      return { s with m_cDecLib := d, bPicSkipped, m_targetDecLayerIdSet }
    return { s with m_cDecLib := d, bPicSkipped }
  else return { s with bPicSkipped := true }

/-- The unit `nalUnit` is, and the state after it. -/
def readHeaderAndDecode (nalUnit : List UInt8) (s : DecodeState D) :
    Checked (InputNALUnit × DecodeState D) := do
  -- an attempt to decode an empty NAL unit
  if nalUnit = [] then return (.empty, s)
  else
    let nalu ← readNalu nalUnit
    let s ← decodeNalu lib m_iMaxTemporalLayer nalu s
    return (nalu, s)

/-- The branch for a file in which no new picture begins: the one unit it reads, with
its header, and the state. -/
def readAndDecode (s : DecodeState D) :
    Checked (List (List UInt8) × InputNALUnit × DecodeState D) := do
  -- find next NAL unit in stream
  let nalUnit := s.bitstreamFile.nextNalUnit.1
  let (nalu, s) ← readHeaderAndDecode lib m_iMaxTemporalLayer nalUnit
    { s with bitstreamFile := s.bitstreamFile.nextNalUnit.2 }
  -- once an EOS NAL unit appears in the current PU, mark the variable as true
  let isEosPresentInPu := s.isEosPresentInPu || nalu.m_nalUnitType = .EOS
  -- within the current PU, only EOS and EOB are allowed to be sent after an EOS nal unit
  check (isEosPresentInPu ∧ nalu.m_nalUnitType ≠ .EOS ∧ nalu.m_nalUnitType ≠ .EOB)
    "When an EOS NAL unit is present in a PU, it shall be the last NAL unit among all NAL units within the PU other than other EOS NAL units or an EOB NAL unit"
  return ([nalUnit], nalu, { s with isEosPresentInPu })

/-- The picture is complete: filter and finish it. -/
def completePicture (bNewPicture : Bool) (nalu : InputNALUnit) (s : DecodeState D) :
    Checked (DecodeState D) := do
  let layerId := nalu.m_nuhLayerId
  let eos : Bool := nalu.m_nalUnitType = .EOS
  if bNewPicture || s.bitstreamFile.failed || eos then
    if !lib.getFirstSliceInSequence layerId s.m_cDecLib && !s.bPicSkipped then
      let finishes := !s.loopFiltered layerId || !s.bitstreamFile.failed
      let d ← (if finishes then lib.finishPicture s.m_cDecLib else .ok s.m_cDecLib : Checked D)
      let d := if eos then lib.setFirstSliceInSequence true layerId d else d
      return { s with
        m_cDecLib := lib.updateAssociatedIRAP d
        loopFiltered := Function.update s.loopFiltered layerId eos
        pcListPic := s.pcListPic || finishes }
    else if lib.getFirstSliceInSequence layerId s.m_cDecLib then
      return { s with m_cDecLib := lib.setFirstSliceInPicture true s.m_cDecLib }
    else return s
  else return s

/-- The checks at the end of a round. -/
def checkUnits (bNewPicture bNewAccessUnit : Bool) (nalu : InputNALUnit) (s : DecodeState D) :
    Checked (DecodeState D) := do
  let d := s.m_cDecLib
  let d ← (if bNewPicture then lib.checkSeiInPictureUnit d else .ok d : Checked D)
  let d ← (if bNewPicture || s.bitstreamFile.failed || nalu.m_nalUnitType = .EOS then
    lib.checkAPSInPictureUnit d else .ok d : Checked D)
  let d ← (if bNewAccessUnit || s.bitstreamFile.failed then
    lib.checkLayerIdIncludedInCvss d else .ok d : Checked D)
  let d ← (if bNewAccessUnit then lib.checkTidLayerIdInAccessUnit d else .ok d : Checked D)
  let d := if bNewAccessUnit then lib.resetAccessUnitNals d else d
  return { s with
    m_cDecLib := d
    -- reset the EOS present status for the next PU check
    isEosPresentInPu := s.isEosPresentInPu && !bNewPicture }

/-- One round of the loop, and the units it handed to the decoder. -/
def decodeRound (s : DecodeState D) : Checked (DecodeState D × List (List UInt8)) := do
  -- determine if next NAL unit will be the first one from a new picture
  let (bNewPicture, bitstreamFile) ←
    isNewPicture (lib.getFirstSliceInPicture s.m_cDecLib) s.bitstreamFile
  let (bNewAccessUnit, bitstreamFile) ← (if bNewPicture then
      isNewAccessUnit bNewPicture (lib.isSliceNaluFirstInAU bNewPicture s.m_cDecLib) bitstreamFile
    else .ok (false, bitstreamFile) : Checked (Bool × BitstreamFile))
  let s := { s with bitstreamFile }
  let (nalUnits, nalu, s) ← (if bNewPicture then .ok ([], InputNALUnit.empty, s)
    else readAndDecode lib m_iMaxTemporalLayer s :
      Checked (List (List UInt8) × InputNALUnit × DecodeState D))
  let s ← completePicture lib bNewPicture nalu s
  let s := if s.pcListPic ∧ nalu.m_nalUnitType = .EOS then
      { s with m_cDecLib := lib.setFirstSliceInPicture false s.m_cDecLib } else s
  let s ← checkUnits lib bNewPicture bNewAccessUnit nalu s
  return (s, nalUnits)

/-- `n` rounds, while the file is good. -/
def decodeRounds : (n : ℕ) → DecodeState D → Checked (DecodeState D × List (List UInt8))
  | 0, s => .ok (s, [])
  | n + 1, s => do
    if s.bitstreamFile.failed then return (s, [])
    let (s, nalUnits) ← decodeRound lib m_iMaxTemporalLayer s
    let (s, rest) ← decodeRounds n s
    return (s, nalUnits ++ rest)

/-- The states in which a round of the loop ends, and the units handed to the
decoder on the way, when every round starts in a state that meets `Cond`. The
loop runs while the file is good. -/
inductive Reached (Cond : DecodeState D → Prop) (s₀ : DecodeState D) :
    DecodeState D → List (List UInt8) → Prop
  | start : Reached Cond s₀ s₀ []
  | round {s s' : DecodeState D} {read nalUnits : List (List UInt8)} (h : Reached Cond s₀ s read)
      (good : s.bitstreamFile.failed = false) (cond : Cond s)
      (run : decodeRound lib m_iMaxTemporalLayer s = .ok (s', nalUnits)) :
      Reached Cond s₀ s' (read ++ nalUnits)

end

end ECM.DecoderApp
