import ECM.CommonLib.InLoopFilter
import ECM.CommonLib.LoopFilter

/-! # Sample adaptive offset of a block

`offsetBlock` and `offsetBlockNoClip` share their loops. They differ in what is done to a sum, and in
the horizontal boundaries that the first line of class 135 respects. A plane has its samples at
positions relative to the block; a line of signs is a map of columns. -/

namespace ECM.CommonLib.SampleAdaptiveOffset
open LoopFilter (ClpRng ClipPel)
open InLoopFilter (NUM_SAO_BO_CLASSES_LOG2)
open Lib.Loop

def SAO_TYPE_EO_0 : ℤ := InLoopFilter.SAO_TYPE_START_EO
def SAO_TYPE_EO_90 : ℤ := 1
def SAO_TYPE_EO_135 : ℤ := 2
def SAO_TYPE_EO_45 : ℤ := 3
def SAO_TYPE_BO : ℤ := InLoopFilter.SAO_TYPE_START_BO

abbrev Plane := ℤ × ℤ → ℤ

def sgn (val : ℤ) : ℤ := (if 0 < val then 1 else 0) - if val < 0 then 1 else 0

def isProcessDisabled (xPos yPos : ℤ) (verVirBndryPos horVirBndryPos : List ℤ) : Bool :=
  verVirBndryPos.any (fun pos => xPos = pos || xPos = pos - 1) ||
    horVirBndryPos.any fun pos => yPos = pos || yPos = pos - 1

/-- `offset` is advanced by two before. -/
def setEdge (clip offset : ℤ → ℤ) (src res : Plane) (x y edgeType : ℤ) : Plane :=
  Function.update res (x, y) (clip (src (x, y) + offset (edgeType + 2)))

/-- The arguments other than offsets and samples. -/
structure Block where
  channelBitDepth : ℕ
  clpRng : ClpRng
  typeIdx : ℤ
  width : ℤ
  height : ℤ
  isLeftAvail : Bool
  isRightAvail : Bool
  isAboveAvail : Bool
  isBelowAvail : Bool
  isAboveLeftAvail : Bool
  isAboveRightAvail : Bool
  isBelowLeftAvail : Bool
  isBelowRightAvail : Bool
  isCtuCrossedByVirtualBoundaries : Bool
  horVirBndryPos : List ℤ
  verVirBndryPos : List ℤ

namespace Block
variable (b : Block)

def skips (x y : ℤ) (ver hor : List ℤ) : Bool :=
  b.isCtuCrossedByVirtualBoundaries && isProcessDisabled x y ver hor

def startX : ℤ := if b.isLeftAvail then 0 else 1
def endX : ℤ := if b.isRightAvail then b.width else b.width - 1
def startY : ℤ := if b.isAboveAvail then 0 else 1
def endY : ℤ := if b.isBelowAvail then b.height else b.height - 1

section
variable (clip : ℤ → ℤ) (offset : ℤ → ℤ) (src : Plane)

/-! ## Class 0 -/

def edge0Line (y : ℤ) (res : Plane) : Plane :=
  (forTo b.startX b.endX (fun (signLeft, res) x =>
    let signRight := sgn (src (x, y) - src (x + 1, y))
    if b.skips x y b.verVirBndryPos [] then (-signRight, res)
    else (-signRight, setEdge clip offset src res x y (signRight + signLeft)))
    (sgn (src (b.startX, y) - src (b.startX - 1, y)), res)).2

def edge0 (res : Plane) : Plane :=
  forTo 0 b.height (fun res y => edge0Line b clip offset src y res) res

/-! ## Class 90 -/

def edge90Line (y : ℤ) (s : (ℤ → ℤ) × Plane) : (ℤ → ℤ) × Plane :=
  forTo 0 b.width (fun (signUpLine, res) x =>
    let signDown := sgn (src (x, y) - src (x, y + 1))
    if b.skips x y [] b.horVirBndryPos then (Function.update signUpLine x (-signDown), res)
    else (Function.update signUpLine x (-signDown), setEdge clip offset src res x y (signDown + signUpLine x))) s

def edge90 (signLineBuf1 : ℤ → ℤ) (res : Plane) : Plane :=
  let signUpLine := forTo 0 b.width (fun signUpLine x =>
    Function.update signUpLine x (sgn (src (x, b.startY) - src (x, b.startY - 1)))) signLineBuf1
  (forTo b.startY b.endY (fun s y => edge90Line b clip offset src y s) (signUpLine, res)).2

/-! ## Class 135 -/

def edge135First (firstLineHor : List ℤ) (signUpLine : ℤ → ℤ) (res : Plane) : Plane :=
  let firstLineStartX := if b.isAboveLeftAvail then 0 else 1
  let firstLineEndX := if b.isAboveAvail then b.endX else 1
  forTo firstLineStartX firstLineEndX (fun res x =>
    if b.skips x 0 b.verVirBndryPos firstLineHor then res
    else setEdge clip offset src res x 0 (sgn (src (x, 0) - src (x - 1, -1)) - signUpLine (x + 1))) res

def edge135Samples (signUpLine : ℤ → ℤ) (y : ℤ) (s : (ℤ → ℤ) × Plane) : (ℤ → ℤ) × Plane :=
  forTo b.startX b.endX (fun (signDownLine, res) x =>
    let signDown := sgn (src (x, y) - src (x + 1, y + 1))
    if b.skips x y b.verVirBndryPos b.horVirBndryPos then (Function.update signDownLine (x + 1) (-signDown), res)
    else
      let res := setEdge clip offset src res x y (signDown + signUpLine x)
      (Function.update signDownLine (x + 1) (-signDown), res)) s

/-- A line between the first and the last. The lines of signs are swapped at its end. -/
def edge135Line (y : ℤ) (s : (ℤ → ℤ) × (ℤ → ℤ) × Plane) : (ℤ → ℤ) × (ℤ → ℤ) × Plane :=
  let (signUpLine, signDownLine, res) := s
  let (signDownLine, res) := edge135Samples b clip offset src signUpLine y (signDownLine, res)
  let signDownLine := Function.update signDownLine b.startX (sgn (src (b.startX, y + 1) - src (b.startX - 1, y)))
  (signDownLine, signUpLine, res)

def edge135Last (signUpLine : ℤ → ℤ) (res : Plane) : Plane :=
  let lastLineStartX := if b.isBelowAvail then b.startX else b.width - 1
  let lastLineEndX := if b.isBelowRightAvail then b.width else b.width - 1
  let y := b.height - 1
  forTo lastLineStartX lastLineEndX (fun res x =>
    if b.skips x y b.verVirBndryPos b.horVirBndryPos then res
    else setEdge clip offset src res x y (sgn (src (x, y) - src (x + 1, y + 1)) + signUpLine x)) res

def edge135 (firstLineHor : List ℤ) (signLineBuf1 signLineBuf2 : ℤ → ℤ) (res : Plane) : Plane :=
  let signUpLine := forTo b.startX (b.endX + 1) (fun signUpLine x =>
    Function.update signUpLine x (sgn (src (x, 1) - src (x - 1, 0)))) signLineBuf1
  let res := edge135First b clip offset src firstLineHor signUpLine res
  let (signUpLine, _, res) :=
    forTo 1 (b.height - 1) (fun s y => edge135Line b clip offset src y s) (signUpLine, signLineBuf2, res)
  edge135Last b clip offset src signUpLine res

/-! ## Class 45 -/

def edge45First (signUpLine : ℤ → ℤ) (res : Plane) : Plane :=
  let firstLineStartX := if b.isAboveAvail then b.startX else b.width - 1
  let firstLineEndX := if b.isAboveRightAvail then b.width else b.width - 1
  forTo firstLineStartX firstLineEndX (fun res x =>
    if b.skips x 0 b.verVirBndryPos b.horVirBndryPos then res
    else setEdge clip offset src res x 0 (sgn (src (x, 0) - src (x + 1, -1)) - signUpLine (x - 1))) res

def edge45Samples (y : ℤ) (s : (ℤ → ℤ) × Plane) : (ℤ → ℤ) × Plane :=
  forTo b.startX b.endX (fun (signUpLine, res) x =>
    let signDown := sgn (src (x, y) - src (x - 1, y + 1))
    if b.skips x y b.verVirBndryPos b.horVirBndryPos then (Function.update signUpLine (x - 1) (-signDown), res)
    else
      let res := setEdge clip offset src res x y (signDown + signUpLine x)
      (Function.update signUpLine (x - 1) (-signDown), res)) s

def edge45Line (y : ℤ) (s : (ℤ → ℤ) × Plane) : (ℤ → ℤ) × Plane :=
  let (signUpLine, res) := edge45Samples b clip offset src y s
  (Function.update signUpLine (b.endX - 1) (sgn (src (b.endX - 1, y + 1) - src (b.endX, y))), res)

def edge45Last (signUpLine : ℤ → ℤ) (res : Plane) : Plane :=
  let lastLineStartX := if b.isBelowLeftAvail then 0 else 1
  let lastLineEndX := if b.isBelowAvail then b.endX else 1
  let y := b.height - 1
  forTo lastLineStartX lastLineEndX (fun res x =>
    if b.skips x y b.verVirBndryPos b.horVirBndryPos then res
    else setEdge clip offset src res x y (sgn (src (x, y) - src (x - 1, y + 1)) + signUpLine x)) res

/-- `signUpLine` starts at the second entry of the buffer, so that it has an entry for column -1. -/
def edge45 (signLineBuf1 : ℤ → ℤ) (res : Plane) : Plane :=
  let signUpLine := forTo (b.startX - 1) b.endX (fun signUpLine x =>
    Function.update signUpLine x (sgn (src (x, 1) - src (x + 1, 0)))) fun x => signLineBuf1 (x + 1)
  let res := edge45First b clip offset src signUpLine res
  let (signUpLine, res) := forTo 1 (b.height - 1) (fun s y => edge45Line b clip offset src y s) (signUpLine, res)
  edge45Last b clip offset src signUpLine res

/-! ## Bands -/

def band (res : Plane) : Plane :=
  let shiftBits := b.channelBitDepth - NUM_SAO_BO_CLASSES_LOG2
  forTo 0 b.height (fun res y => forTo 0 b.width (fun res x =>
    Function.update res (x, y) (clip (src (x, y) + offset (src (x, y) >>> shiftBits)))) res) res

def offsetBlockWith (firstLineHor : List ℤ) (signLineBuf1 signLineBuf2 : ℤ → ℤ) (res : Plane) : Checked Plane :=
  if b.typeIdx = SAO_TYPE_EO_0 then .ok (b.edge0 clip offset src res)
  else if b.typeIdx = SAO_TYPE_EO_90 then .ok (b.edge90 clip offset src signLineBuf1 res)
  else if b.typeIdx = SAO_TYPE_EO_135 then
    .ok (b.edge135 clip offset src firstLineHor signLineBuf1 signLineBuf2 res)
  else if b.typeIdx = SAO_TYPE_EO_45 then .ok (b.edge45 clip offset src signLineBuf1 res)
  else if b.typeIdx = SAO_TYPE_BO then .ok (b.band clip offset src res)
  else .error "Not a supported SAO types\n"

end

/-! ## The two functions -/

section
variable (offset : ℤ → ℤ) (src : Plane) (signLineBuf1 signLineBuf2 : ℤ → ℤ) (res : Plane)

def offsetBlock : Checked Plane :=
  b.offsetBlockWith (fun v => ClipPel v b.clpRng) offset src b.horVirBndryPos signLineBuf1 signLineBuf2 res

/-- The first line of class 135 is called with no horizontal boundaries. -/
def offsetBlockNoClip : Checked Plane :=
  b.offsetBlockWith (fun v => v) offset src [] signLineBuf1 signLineBuf2 res

end

end Block

end ECM.CommonLib.SampleAdaptiveOffset
