import ECM.CommonLib.TypeDef
import ECM.CommonLib.Picture

/-! # Reference picture lists

`checkThatAllRefPicsAreAvailable` looks the active entries of a list up in the
decoded picture buffer. A short-term picture that a long-term entry asks for is
marked on the way. -/

namespace ECM.CommonLib

/-- What a dereferenced null pointer comes to. -/
def nullPointer : String := "null pointer"

structure RefPicEntry where
  isLongterm : Bool
  /-- The difference to the POC of a short-term picture, or the POC LSBs of a long-term one. -/
  refPicIdentifier : ℤ
  deltaPocMSBPresentFlag : Bool
  deltaPOCMSBCycleLT : ℤ
  isInterLayerRefPic : Bool
  deriving DecidableEq, Repr

/-- `parseRefPicList` marks all inter-layer entries as long-term. -/
structure ReferencePictureList where
  m_numberOfShorttermPictures : ℕ
  m_numberOfLongtermPictures : ℕ
  entries : List RefPicEntry
  interLayer_longterm : ∀ e ∈ entries, e.isInterLayerRefPic = true → e.isLongterm = true

/-- What the search for reference pictures reads of the current slice. -/
structure CurrentSlice where
  poc : ℤ
  nalUnitType : NalUnitType
  /-- `getPic()->layerId`; a slice has no picture before one is set. -/
  picLayerId : Option ℤ
  deriving DecidableEq, Repr

variable (slice : CurrentSlice)

/-- The POC test of a long-term entry. -/
def samePocLongterm (e : RefPicEntry) (rpcPic : Picture) : Checked Bool :=
  match rpcPic.bitsForPOC with
  | none => .error nullPointer
  | some bitsForPOC =>
    let pocCycle : ℤ := 2 ^ bitsForPOC
    let refPoc := e.refPicIdentifier % pocCycle
    if e.deltaPocMSBPresentFlag then
      .ok (rpcPic.poc = refPoc + (slice.poc - e.deltaPOCMSBCycleLT * pocCycle - slice.poc % pocCycle))
    else .ok (rpcPic.poc % pocCycle = refPoc)

/-- A long-term picture for the entry `e`. -/
def hasLongterm (e : RefPicEntry) : List Picture → Checked Bool
  | [] => .ok false
  | rpcPic :: rest => do
    let same ← samePocLongterm slice e rpcPic
    if rpcPic.longTerm && same && rpcPic.referenced then return true else hasLongterm e rest

/-- The first short-term picture for the entry `e` becomes a long-term one. -/
def markLongterm (e : RefPicEntry) : List Picture → Checked (Option (List Picture))
  | [] => .ok none
  | rpcPic :: rest => do
    let same ← samePocLongterm slice e rpcPic
    if !rpcPic.longTerm && same && rpcPic.referenced then
      return some ({ rpcPic with longTerm := true } :: rest)
    else
      let marked ← markLongterm e rest
      return marked.map (rpcPic :: ·)

def lookupLongterm (e : RefPicEntry) (rcListPic : List Picture) : Checked (Option (List Picture)) := do
  let isAvailable ← hasLongterm slice e rcListPic
  if isAvailable then return some rcListPic else markLongterm slice e rcListPic

/-- The long-term entries from the index `ii` on; the first one that is missing. -/
def checkLongterm : List RefPicEntry → ℕ → List Picture → Checked (Option (ℤ × ℕ) × List Picture)
  | [], _, rcListPic => .ok (none, rcListPic)
  | e :: rest, ii, rcListPic =>
    if !e.isLongterm || e.isInterLayerRefPic then checkLongterm rest (ii + 1) rcListPic
    else do
      let found ← lookupLongterm slice e rcListPic
      match found with
      | some rcListPic => checkLongterm rest (ii + 1) rcListPic
      | none => return (some (e.refPicIdentifier, ii), rcListPic)

/-- A short-term picture for the entry `e`. -/
def hasShortterm (e : RefPicEntry) (rcListPic : List Picture) : Bool :=
  rcListPic.any fun rpcPic =>
    !rpcPic.longTerm && rpcPic.poc = slice.poc + e.refPicIdentifier && rpcPic.referenced

/-- The first short-term entry that is missing. -/
def checkShortterm (m_numberOfShorttermPictures : ℕ) (rcListPic : List Picture) :
    List RefPicEntry → ℕ → Option (ℤ × ℕ)
  | [], _ => none
  | e :: rest, ii =>
    if e.isLongterm then checkShortterm m_numberOfShorttermPictures rcListPic rest (ii + 1)
    else if !hasShortterm slice e rcListPic && m_numberOfShorttermPictures > 0 then
      some (slice.poc + e.refPicIdentifier, ii)
    else checkShortterm m_numberOfShorttermPictures rcListPic rest (ii + 1)

variable (pRPL : ReferencePictureList) (numActiveRefPics : ℕ)

/-- The search for the long-term entries, and the buffer with the pictures it marks. -/
def checkAllLongterm (rcListPic : List Picture) : Checked (Option (ℤ × ℕ) × List Picture) :=
  if pRPL.m_numberOfLongtermPictures > 0 then
    checkLongterm slice (pRPL.entries.take numActiveRefPics) 0 rcListPic
  else .ok (none, rcListPic)

/-- The returned POC, `*refPicIndex`, and the buffer. -/
def checkThatAllRefPicsAreAvailable (rcListPic : List Picture) : Checked (ℤ × ℕ × List Picture) :=
  if slice.nalUnitType.isIDR then .ok (0, 0, rcListPic)
  else do
    let (missing, rcListPic) ← checkAllLongterm slice pRPL numActiveRefPics rcListPic
    match missing with
    | some (notPresentPoc, ii) => return (notPresentPoc, ii, rcListPic)
    | none =>
      match checkShortterm slice pRPL.m_numberOfShorttermPictures rcListPic
          (pRPL.entries.take numActiveRefPics) 0 with
      | some (notPresentPoc, ii) => return (notPresentPoc, ii, rcListPic)
      | none => return (0, 0, rcListPic)

end ECM.CommonLib
