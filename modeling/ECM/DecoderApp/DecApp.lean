import ECM.CommonLib.Picture
import ECM.CommonLib.TypeDef

/-! # Picture output of the decoder application

`xWriteOutput` and `xFlushOutput` on lists of frame pictures. -/

namespace ECM.DecoderApp
open CommonLib

/-- `numReorderPicsHighestTid` and `maxDecPicBufferingHighestTid`. -/
structure Limits where
  numReorderPics : ℕ
  maxDecPicBuffering : ℕ
  deriving DecidableEq

/-- `numPicsNotYetDisplayed` and `dpbFullness`. -/
structure Counts where
  numPicsNotYetDisplayed : ℕ
  dpbFullness : ℕ
  deriving DecidableEq

/-- The picture waits: it is needed for output and comes after the last one displayed. -/
def isWaiting (m_iPOCLastDisplay : ℤ) (pcPic : Picture) : Bool :=
  pcPic.neededForOutput && pcPic.poc > m_iPOCLastDisplay

/-- The first loop of `xWriteOutput`. -/
def countPics (m_iPOCLastDisplay : ℤ) (pcListPic : List Picture) : Counts :=
  pcListPic.foldl
    (fun c pcPic =>
      if isWaiting m_iPOCLastDisplay pcPic then
        { numPicsNotYetDisplayed := c.numPicsNotYetDisplayed + 1, dpbFullness := c.dpbFullness + 1 }
      else if pcPic.referenced then { c with dpbFullness := c.dpbFullness + 1 }
      else c)
    ⟨0, 0⟩

/-- One of the limits is exceeded. -/
def exceeds (c : Counts) (limits : Limits) : Bool :=
  c.numPicsNotYetDisplayed > limits.numReorderPics || c.dpbFullness > limits.maxDecPicBuffering

/-- A picture after it was written. -/
def displayed (pcPic : Picture) : Picture :=
  { pcPic with
    -- erase non-referenced picture in the reference picture list after display
    reconstructed := if !pcPic.referenced && pcPic.reconstructed then false else pcPic.reconstructed
    neededForOutput := false }

/-- What a loop over the pictures leaves: the last POC displayed, the pictures, and those written. -/
structure Written where
  m_iPOCLastDisplay : ℤ
  pictures : List Picture
  written : List Picture
  deriving DecidableEq

/-- The second loop of `xWriteOutput`. -/
def writePics (limits : Limits) (c : Counts) (m_iPOCLastDisplay : ℤ) : List Picture → Written
  | [] => ⟨m_iPOCLastDisplay, [], []⟩
  | pcPic :: rest =>
    if isWaiting m_iPOCLastDisplay pcPic && exceeds c limits then
      let c := { numPicsNotYetDisplayed := c.numPicsNotYetDisplayed - 1
                 dpbFullness := if !pcPic.referenced then c.dpbFullness - 1 else c.dpbFullness }
      let w := writePics limits c pcPic.poc rest
      { w with pictures := displayed pcPic :: w.pictures, written := pcPic :: w.written }
    else
      let w := writePics limits c m_iPOCLastDisplay rest
      { w with pictures := pcPic :: w.pictures }

def xWriteOutput (limits : Limits) (m_iPOCLastDisplay : ℤ) (pcListPic : List Picture) : Written :=
  writePics limits (countPics m_iPOCLastDisplay pcListPic) m_iPOCLastDisplay pcListPic

/-- `layerId` is `none` for `NOT_VALID`. -/
def xFlushOutput (m_iPOCLastDisplay : ℤ) (pcListPic : List Picture) (layerId : Option ℤ) : Written :=
  if pcListPic = [] then ⟨m_iPOCLastDisplay, [], []⟩
  else
    let flushes (pcPic : Picture) : Bool := layerId.all (pcPic.layerId = ·)
    { m_iPOCLastDisplay := -MAX_INT
      pictures := pcListPic.filter fun pcPic => !flushes pcPic
      written := pcListPic.filter fun pcPic => flushes pcPic && pcPic.neededForOutput }

end ECM.DecoderApp

/-! # Flushing a list of frame or field pictures

`xFlushOutput` with what becomes of each slot of the list: the field branch releases pictures
without taking them out. -/

namespace ECM.DecoderApp.PicList
open CommonLib

structure ListedPicture extends Picture where
  fieldPic : Bool
  deriving DecidableEq, Repr

/-- What a slot of the list points to. -/
inductive Slot where
  | pic (pcPic : ListedPicture)
  /-- `destroy` and `delete` were called. -/
  | released (pcPic : ListedPicture)
  | null
  deriving DecidableEq, Repr

def Slot.release : Slot → Slot
  | pic pcPic => released pcPic
  | slot => slot

/-- What the loops leave: the slots, and the pictures written. -/
structure Flushed where
  slots : List Slot
  written : List ListedPicture
  deriving DecidableEq

section
variable (layerId : Option ℤ)

/-- `layerId` is `none` for `NOT_VALID`. -/
def flushes (pcPic : ListedPicture) : Bool := layerId.all (pcPic.layerId = ·)

/-- Both fields of a frame wait for output. -/
def isFieldPair (pcPicTop pcPicBottom : ListedPicture) : Bool :=
  pcPicTop.neededForOutput && pcPicBottom.neededForOutput && pcPicTop.poc % 2 = 0 &&
    pcPicBottom.poc = pcPicTop.poc + 1

def displayed (pcPic : ListedPicture) : ListedPicture :=
  { pcPic with toPicture := DecoderApp.displayed pcPic.toPicture }

/-- The loop of the field branch, from the pair of `pcPicTop` and the picture after it. -/
def flushFieldPairs (pcPicTop : ListedPicture) : List ListedPicture → Flushed
  | [] => ⟨[.pic pcPicTop], []⟩
  | pcPicBottom :: rest =>
    if flushes layerId pcPicTop && isFieldPair pcPicTop pcPicBottom then
      let w := flushFieldPairs (displayed pcPicBottom) rest
      ⟨.released (displayed pcPicTop) :: w.slots, pcPicTop :: pcPicBottom :: w.written⟩
    else
      let w := flushFieldPairs pcPicBottom rest
      { w with slots := .pic pcPicTop :: w.slots }

/-- `delete pcPicBottom` after the loop. -/
def releaseLast : List Slot → List Slot
  | [] => []
  | [slot] => [slot.release]
  | slot :: rest => slot :: releaseLast rest

/-- The field branch; `pcPicBottom` is `NULL` when there was no pair. -/
def flushFields (pcPic : ListedPicture) (rest : List ListedPicture) : Flushed :=
  let w := flushFieldPairs layerId pcPic rest
  if rest = [] then w else { w with slots := releaseLast w.slots }

/-- The frame branch. -/
def flushFrames : List ListedPicture → Flushed
  | [] => ⟨[], []⟩
  | pcPic :: rest =>
    let w := flushFrames rest
    if flushes layerId pcPic then
      ⟨.null :: w.slots, if pcPic.neededForOutput then pcPic :: w.written else w.written⟩
    else { w with slots := .pic pcPic :: w.slots }

def xFlushOutput : List ListedPicture → Flushed
  | [] => ⟨[], []⟩
  | pcPic :: rest =>
    let w := if pcPic.fieldPic then flushFields layerId pcPic rest else flushFrames layerId (pcPic :: rest)
    { w with slots := if layerId.isSome then w.slots.filter (· ≠ .null) else [] }

end

end ECM.DecoderApp.PicList
