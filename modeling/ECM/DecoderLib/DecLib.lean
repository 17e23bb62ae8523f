import ECM.CommonLib.RefPicList

/-! # The decoded picture buffer

How a picture gets a buffer and how it is finished. -/

namespace ECM.DecoderLib
open CommonLib

/-- The buffer holds nothing that is needed. -/
def isAvailable (p : Picture) : Bool :=
  (p.reconstructed = false && !p.neededForOutput) || (!p.referenced && !p.neededForOutput)

/-- The first buffer that is available, or a new one at the end, is given to `use`. -/
def reuseBuffer (layerId : ℤ) (use : Picture → Picture) : List Picture → List Picture
  | [] => [use (Picture.new layerId)]
  | p :: rest =>
    if isAvailable p then
      use { p with neededForOutput := false, reconstructed := false, layerId } :: rest
    else p :: reuseBuffer layerId use rest

/-- `xGetNewPicBuffer`, and `use` for what the caller does with the picture. -/
def xGetNewPicBuffer (m_cListPic : List Picture) (m_iMaxRefPicNum : ℕ) (layerId : ℤ) (use : Picture → Picture) :
    List Picture :=
  if m_cListPic.length < m_iMaxRefPicNum then m_cListPic ++ [use (Picture.new layerId)]
  else reuseBuffer layerId use m_cListPic

/-- What decoding sets of a picture until `finishPicture` returns. -/
structure Completion where
  poc : ℤ
  picOutputFlag : Bool
  referenced : Bool
  bitsForPOC : ℕ
  slices : ℕ
  m_iMaxRefPicNum : ℕ
  deriving DecidableEq

/-- The picture as `finishPicture` leaves it. -/
def Completion.picture (c : Completion) (decodingOrderNumber : ℕ) (buffer : Picture) : Picture :=
  { buffer with
    poc := c.poc
    decodingOrderNumber := decodingOrderNumber
    neededForOutput := c.picOutputFlag
    referenced := c.referenced
    reconstructed := true
    longTerm := false
    bitsForPOC := some c.bitsForPOC
    slices := c.slices }

/-- A picture is decoded and finished, and the list is sorted for application output. -/
def completePicture (m_cListPic : List Picture) (layerId : ℤ) (c : Completion) (decodingOrderNumber : ℕ) :
    List Picture :=
  sortPicList (xGetNewPicBuffer m_cListPic c.m_iMaxRefPicNum layerId (c.picture decodingOrderNumber))

end ECM.DecoderLib

/-! # Filling in missing reference pictures

The loops of `xDecodeSlice` that create a picture as long as
`checkThatAllRefPicsAreAvailable` reports one with a positive POC. -/

namespace ECM.DecoderLib
open CommonLib

/-- What the loops take from the decoder. -/
structure DecodeSlice where
  m_apcSlicePilot : CurrentSlice
  mixedNaluTypesInPicFlag : Bool
  idrRefParamListPresent : Bool
  rplInfoInPhFlag : Bool
  noOutputBeforeRecoveryFlag : Bool
  m_iMaxRefPicNum : ℕ
  /-- The buffer is as large as a picture of the first SPS and PPS. -/
  sameFormat : Picture → Bool

namespace DecodeSlice

variable (d : DecodeSlice)

/-- A buffer that is used again. `destroy` takes the slices and the coding structure
of one that does not fit. -/
def reused (layerId : ℤ) (p : Picture) : Picture :=
  if d.sameFormat p ∧ p.layerId = layerId then { p with neededForOutput := false, reconstructed := false }
  else { p with
    neededForOutput := false, reconstructed := false, layerId, bitsForPOC := none, slices := 0 }

/-- `reuseBuffer` for a caller that may throw. -/
def reuseBuffer (layerId : ℤ) (use : Picture → Checked Picture) :
    List Picture → Checked (List Picture)
  | [] => do
    let pcPic ← use (Picture.new layerId)
    return [pcPic]
  | p :: rest =>
    if isAvailable p then do
      let pcPic ← use (d.reused layerId p)
      return pcPic :: rest
    else do
      let rest ← reuseBuffer layerId use rest
      return p :: rest

/-- `xGetNewPicBuffer` for a caller that may throw. -/
def xGetNewPicBuffer (layerId : ℤ) (use : Picture → Checked Picture) (m_cListPic : List Picture) :
    Checked (List Picture) :=
  if m_cListPic.length < d.m_iMaxRefPicNum then do
    let pcPic ← use (Picture.new layerId)
    return m_cListPic ++ [pcPic]
  else d.reuseBuffer layerId use m_cListPic

/-- For a caller that does not throw and sets what `destroy` takes it is the buffer's own. -/
theorem xGetNewPicBuffer_completion (layerId : ℤ) (c : Completion) (k : ℕ) (m_cListPic : List Picture)
    (hnum : c.m_iMaxRefPicNum = d.m_iMaxRefPicNum) :
    d.xGetNewPicBuffer layerId (fun p => .ok (c.picture k p)) m_cListPic =
      .ok (DecoderLib.xGetNewPicBuffer m_cListPic c.m_iMaxRefPicNum layerId (c.picture k)) := by
  have hreused : ∀ p, c.picture k (d.reused layerId p) =
      c.picture k { p with neededForOutput := false, reconstructed := false, layerId } := by
    intro p
    rw [reused]
    split
    · next hfit =>
      rw [← hfit.2]
    · rfl
  have hreuse : ∀ l, d.reuseBuffer layerId (fun p => .ok (c.picture k p)) l =
      .ok (DecoderLib.reuseBuffer layerId (c.picture k) l) := by
    intro l
    induction l with
    | nil => rfl
    | cons p rest ih =>
      rw [reuseBuffer, DecoderLib.reuseBuffer]
      split
      · rw [hreused]
        rfl
      · rw [ih]
        rfl
  rw [xGetNewPicBuffer, DecoderLib.xGetNewPicBuffer, hnum]
  split
  · rfl
  · exact hreuse m_cListPic

/-- The POC of the lost picture goes to its first slice: `poc` stays as it was. -/
def lostPicture (cFillPic : Picture) : Checked Picture := do
  check (cFillPic.slices = 0) "No slices in picture"
  return { cFillPic with referenced := true, reconstructed := true, neededForOutput := true }

/-- As `lostPicture`, with the long-term mark and without output. -/
def unavailablePicture (longTermFlag : Bool) (cFillPic : Picture) : Checked Picture := do
  check (cFillPic.slices = 0) "No slices in picture"
  return { cFillPic with
    referenced := true, longTerm := longTermFlag, reconstructed := true, neededForOutput := false }

def xCreateLostPicture (layerId : ℤ) (m_cListPic : List Picture) : Checked (List Picture) :=
  d.xGetNewPicBuffer layerId lostPicture m_cListPic

def xCreateUnavailablePicture (longTermFlag : Bool) (layerId : ℤ) (m_cListPic : List Picture) :
    Checked (List Picture) :=
  d.xGetNewPicBuffer layerId (unavailablePicture longTermFlag) m_cListPic

/-- The pictures are unavailable, not lost. -/
def isUnavailable : Bool :=
  !d.mixedNaluTypesInPicFlag &&
    ((d.m_apcSlicePilot.nalUnitType.isIDR && (d.idrRefParamListPresent || d.rplInfoInPhFlag)) ||
      ((d.m_apcSlicePilot.nalUnitType = .CODED_SLICE_GDR || d.m_apcSlicePilot.nalUnitType = .CODED_SLICE_CRA) &&
        d.noOutputBeforeRecoveryFlag))

/-- `getPic()->layerId` -/
def picLayerId : Checked ℤ :=
  match d.m_apcSlicePilot.picLayerId with
  | some layerId => .ok layerId
  | none => .error nullPointer

variable (pRPL : ReferencePictureList)

/-- The body of the loops, for a missing picture of the entry `refPicIndex`. -/
def createMissing (refPicIndex : ℕ) (m_cListPic : List Picture) : Checked (List Picture) :=
  if d.isUnavailable then
    match pRPL.entries[refPicIndex]? with
    | some e =>
      if e.isInterLayerRefPic then .ok m_cListPic
      else do
        let layerId ← d.picLayerId
        d.xCreateUnavailablePicture e.isLongterm layerId m_cListPic
    | none => .error nullPointer
  else do
    let layerId ← d.picLayerId
    d.xCreateLostPicture layerId m_cListPic

/-- The loop; `none` after `fuel` rounds that did not end it. -/
def fillMissing (numRefIdx : ℕ) : (fuel : ℕ) → List Picture → Checked (Option (List Picture))
  | 0, m_cListPic => do
    let (lostPoc, _, m_cListPic) ←
      checkThatAllRefPicsAreAvailable d.m_apcSlicePilot pRPL numRefIdx m_cListPic
    return if lostPoc > 0 then none else some m_cListPic
  | fuel + 1, m_cListPic => do
    let (lostPoc, refPicIndex, m_cListPic) ←
      checkThatAllRefPicsAreAvailable d.m_apcSlicePilot pRPL numRefIdx m_cListPic
    if lostPoc > 0 then
      let m_cListPic ← d.createMissing pRPL refPicIndex m_cListPic
      fillMissing numRefIdx fuel m_cListPic
    else return some m_cListPic

end DecodeSlice

end ECM.DecoderLib

/-! # The slices of a picture

`xDecodeSlice` makes each parsed slice the last one of the picture and the slice of its
coding structure; `finishPicture` then decides whether the picture is needed for output. -/

namespace ECM.DecoderLib
open CommonLib

/-- What is read of the PPS. -/
structure PicturePPS where
  mixedNaluTypesInPicFlag : Bool
  numSlicesInPic : ℕ
  deriving DecidableEq, Repr

/-- The picture that is decoded; of a slice only the NAL unit type is kept. -/
structure SlicedPicture where
  slices : List NalUnitType
  numSlices : ℕ
  /-- `cs->slice`. -/
  slice : NalUnitType
  neededForOutput : Bool
  deriving DecidableEq, Repr

variable (pps : PicturePPS)

/-- Two neighbouring slices have different types. -/
def hasDiffTypes : List NalUnitType → Bool
  | slice1 :: slice2 :: slices => slice1 ≠ slice2 || hasDiffTypes (slice2 :: slices)
  | _ => false

/-- `preSlices` are the slices before the current one. -/
def xCheckMixedNalUnit (preSlices : List NalUnitType) (nalUnitType : NalUnitType) : Checked Unit := do
  if pps.mixedNaluTypesInPicFlag then
    check (pps.numSlicesInPic < 2) "mixed nal unit type picture, but with less than 2 slices"
    check (nalUnitType = .CODED_SLICE_GDR) "picture with mixed NAL unit type cannot have GDR slice"
    check ((nalUnitType.isIDR ∨ nalUnitType = .CODED_SLICE_CRA) ∧
        ∃ preSlice ∈ preSlices, nalUnitType ≠ preSlice ∧ preSlice ≠ .CODED_SLICE_TRAIL)
      "In a mixed NAL unt type picture, an IRAP slice can be mixed with Trail slice(s) only"
    check (pps.numSlicesInPic = preSlices.length + 1 ∧ hasDiffTypes (preSlices ++ [nalUnitType]) = false)
      "VCL NAL units of the picture shall have two or more different nal_unit_type values"
  else
    check (∃ preSlice ∈ preSlices, preSlice ≠ nalUnitType)
      "mixed_nalu_types_in_pic_flag is zero, but have different nal unit types"

/-- The slice that begins a picture. -/
def xDecodeFirstSlice (nalUnitType : NalUnitType) : Checked SlicedPicture := do
  xCheckMixedNalUnit pps [] nalUnitType
  return {
    slices := [nalUnitType]
    numSlices := pps.numSlicesInPic
    slice := nalUnitType
    neededForOutput := false }

/-- Any other slice. -/
def xDecodeNextSlice (pcPic : SlicedPicture) (nalUnitType : NalUnitType) : Checked SlicedPicture := do
  check (nalUnitType ≠ pcPic.slices.getLastD .INVALID ∧ pps.mixedNaluTypesInPicFlag = false)
    "If pps_mixed_nalu_types_in_pic_flag is equal to 0, the value of NAL unit type shall be the same for all coded slice NAL units of a picture"
  xCheckMixedNalUnit pps pcPic.slices nalUnitType
  return { pcPic with
    slices := pcPic.slices ++ [nalUnitType]
    numSlices := pcPic.slices.length + 1
    slice := nalUnitType }

def xDecodeNextSlices : SlicedPicture → List NalUnitType → Checked SlicedPicture
  | pcPic, [] => .ok pcPic
  | pcPic, nalUnitType :: nalUnitTypes => do
    let pcPic ← xDecodeNextSlice pps pcPic nalUnitType
    xDecodeNextSlices pcPic nalUnitTypes

/-- The slices of a picture one after the other. -/
def decodeSlices (nalUnitType : NalUnitType) (nalUnitTypes : List NalUnitType) : Checked SlicedPicture := do
  let pcPic ← xDecodeFirstSlice pps nalUnitType
  xDecodeNextSlices pps pcPic nalUnitTypes

/-! ## `finishPicture` -/

def isRaslOrRadl (nalUnitType : NalUnitType) : Bool :=
  nalUnitType = .CODED_SLICE_RASL || nalUnitType = .CODED_SLICE_RADL

/-- `for (int i = 0; isRaslPic && i < m_pcPic->numSlices; i++)`, which looks at `pcSlice` in
every round. -/
def isRaslPic (pcSlice : NalUnitType) : (numSlices : ℕ) → Bool
  | 0 => true
  | numSlices + 1 => isRaslPic pcSlice numSlices && isRaslOrRadl pcSlice

/-- The output mark `finishPicture` leaves. -/
def finishPicture (picOutputFlag associatedWithNewClvs : Bool) (pcPic : SlicedPicture) : SlicedPicture :=
  let pcSlice := pcPic.slice
  let pcPic := { pcPic with neededForOutput := picOutputFlag }
  if associatedWithNewClvs && pcPic.neededForOutput then
    if !pps.mixedNaluTypesInPicFlag && pcSlice = .CODED_SLICE_RASL then
      { pcPic with neededForOutput := false }
    else if pps.mixedNaluTypesInPicFlag then
      if isRaslPic pcSlice pcPic.numSlices then { pcPic with neededForOutput := false } else pcPic
    else pcPic
  else pcPic

end ECM.DecoderLib

/-! # Skipping pictures for random access

`isRandomAccessSkipPicture` and the calls that `xDecodeSlice` makes of it, one
for each slice. -/

namespace ECM.DecoderLib
open CommonLib

/-- What `isRandomAccessSkipPicture` reads of `m_apcSlicePilot`. -/
structure SlicePilot where
  nalUnitType : NalUnitType
  poc : ℤ
  deriving DecidableEq

structure SkipState where
  iSkipFrame : ℤ
  /-- POC of the random access point: `MAX_INT` before it is set, `-MAX_INT` after an IDR picture. -/
  m_pocRandomAccess : ℤ
  m_warningMessageSkipPicture : Bool
  deriving DecidableEq

/-- A picture and the number of its slices. -/
structure CodedPicture extends SlicePilot where
  slices : ℕ
  slices_pos : 0 < slices

end ECM.DecoderLib
