import ECM.CommonLib.RefPicListSoundness
import ECM.CommonLib.Arrays

/-! # Construction of the reference picture lists

`constructRefPicList` looks each active entry up in the decoded picture buffer and marks the
picture. A picture is named by its index in the buffer. -/

namespace ECM.CommonLib

/-- What `constructRefPicList` reads of the slice, its picture and its parameter sets. -/
structure ConstructSlice extends CurrentSlice where
  /-- `m_pcPic->layerId`. -/
  layerId : ℤ
  /-- `getSPS()->getBitsForPOC()`. -/
  bitsForPOC : ℕ
  /-- The layer of `getInterLayerRefPicIdx( ii )`, by the video parameter set. -/
  refLayerId : ℕ → Checked ℤ

/-- The loop went on behind the last picture. -/
def endOfPicList : String := "end of the picture list"

/-- The first picture of the POC and the layer. -/
def xGetRefPic (rcListPic : List Picture) (poc layerId : ℤ) : Checked ℕ :=
  match rcListPic.findIdx? fun pcPic => pcPic.poc = poc && pcPic.layerId = layerId with
  | some i => pure i
  | none => throw endOfPicList

namespace ConstructSlice

variable (s : ConstructSlice)

/-- The test of `xGetLongTermRefPic`. -/
def isLongTermRefPic (poc : ℤ) (pocHasMsb : Bool) (pcPic : Picture) : Bool :=
  pcPic.poc ≠ s.poc && pcPic.referenced && pcPic.layerId = s.layerId &&
    (if pocHasMsb then pcPic.poc = poc else pcPic.poc % 2 ^ s.bitsForPOC = poc % 2 ^ s.bitsForPOC)

/-- The first picture that passes, or the first one of the list. -/
def xGetLongTermRefPic (rcListPic : List Picture) (poc : ℤ) (pocHasMsb : Bool) : Checked ℕ :=
  match rcListPic.findIdx? (s.isLongTermRefPic poc pocHasMsb) with
  | some i => pure i
  | none => if rcListPic = [] then throw endOfPicList else pure 0

/-- `ltrpPoc`; `localRPL` is the entry of `m_localRPL0` or `m_localRPL1`. -/
def ltrpPoc (rpl localRPL : RefPicEntry) : ℤ :=
  let pocCycle : ℤ := 2 ^ s.bitsForPOC
  let ltrpPoc := rpl.refPicIdentifier % pocCycle
  if localRPL.deltaPocMSBPresentFlag then
    ltrpPoc + (s.poc - localRPL.deltaPOCMSBCycleLT * pocCycle - s.poc % pocCycle)
  else ltrpPoc

/-- One round: the picture of the entry, and the buffer with its mark. -/
def constructEntry (rpl localRPL : RefPicEntry) (ii : ℕ) (rcListPic : List Picture) :
    Checked (ℕ × List Picture) := do
  if rpl.isInterLayerRefPic then
    let refLayerId ← s.refLayerId ii
    let pcRefPic ← xGetRefPic rcListPic s.poc refLayerId
    return (pcRefPic, rcListPic.modify pcRefPic fun p => { p with longTerm := true })
  else if !rpl.isLongterm then
    let pcRefPic ← xGetRefPic rcListPic (s.poc + rpl.refPicIdentifier) s.layerId
    return (pcRefPic, rcListPic.modify pcRefPic fun p => { p with longTerm := false })
  else
    let pcRefPic ← s.xGetLongTermRefPic rcListPic (s.ltrpPoc rpl localRPL) localRPL.deltaPocMSBPresentFlag
    return (pcRefPic, rcListPic.modify pcRefPic fun p => { p with longTerm := true })

end ConstructSlice

/-! ## The overload for whole lists -/

end ECM.CommonLib

/-! # Reference picture marking

`applyReferencePictureListBasedMarking` first makes long-term pictures of those that the
long-term entries of the two lists ask for, and then takes the mark from the pictures of the
layer that no entry asks for. -/

namespace ECM.CommonLib

section
variable (slice : CurrentSlice) (e : RefPicEntry)

end

section
variable (slice : CurrentSlice) (layerId : ℤ) (pcPic : Picture)

end

end ECM.CommonLib
