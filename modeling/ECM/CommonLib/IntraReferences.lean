import ECM.CommonLib.InLoopFilter
import ECM.CommonLib.TypeDef

/-! # Reference samples of intra prediction

`xFillReferenceSamples` fills two arrays behind each other, the row above a block and
the column left of it, both from the corner on. The samples come in units, numbered
from the lowest unit on the left up to the corner and then to the right; units that
are not available are padded from their neighbours. `reco x y` is the reconstructed
sample at this offset from the block, and an address in the buffer an integer. -/

namespace ECM.CommonLib

abbrev RefBuffer := ℤ → ℤ

/-- `for( i = lo; i < hi; i++ ) ptr[i] = val( i );` -/
def fillRef (ptr lo hi : ℤ) (val : ℤ → ℤ) (buf : RefBuffer) : RefBuffer :=
  (List.range (hi - lo).toNat).foldl (fun buf (k : ℕ) => Function.update buf (ptr + (lo + k)) (val (lo + k))) buf

theorem fillRef_apply (ptr lo hi : ℤ) (val : ℤ → ℤ) (buf : RefBuffer) (a : ℤ) :
    fillRef ptr lo hi val buf a = if ptr + lo ≤ a ∧ a < ptr + hi then val (a - ptr) else buf a := by
  have hloop (n : ℕ) : (List.range n).foldl
      (fun buf (k : ℕ) => Function.update buf (ptr + (lo + k)) (val (lo + k))) buf a =
      if ptr + lo ≤ a ∧ a < ptr + lo + n then val (a - ptr) else buf a := by
    induction n with
    | zero => rw [if_neg (by omega)]; rfl
    | succ n ih =>
      rw [List.range_succ, List.foldl_append, List.foldl_cons, List.foldl_nil]
      by_cases heq : a = ptr + (lo + n)
      · rw [heq, Function.update_self, if_pos (by omega)]
        congr 1
        omega
      · rw [Function.update_of_ne heq, ih]
        exact if_congr (by omega) rfl rfl
  unfold fillRef
  rw [hloop]
  by_cases hle : lo ≤ hi
  · exact if_congr (by omega) rfl rfl
  · rw [if_neg (by omega), if_neg (by omega)]

/-- `cs.isDecomp` and `cs.getCURestricted( … ) != NULL`, at offsets from the block. -/
structure Neighborhood where
  isDecomp : ℤ → ℤ → Bool
  getCURestricted : ℤ → ℤ → Bool

namespace Neighborhood
variable (nb : Neighborhood)

/-- The loop of the four functions below over `units` units: `pos` is the position looked at for
a unit, and `idx` its flag. -/
def scanUnits (pos : ℕ → ℤ × ℤ) (idx : ℕ → ℕ) : (units k : ℕ) → (validFlags : ℕ → Bool) → (numIntra : ℕ) →
    (ℕ → Bool) × ℕ
  | 0, _, validFlags, numIntra => (validFlags, numIntra)
  | units + 1, k, validFlags, numIntra =>
    if !nb.isDecomp (pos k).1 (pos k).2 then (validFlags, numIntra)
    else
      let valid := nb.getCURestricted (pos k).1 (pos k).2
      scanUnits pos idx units (k + 1) (Function.update validFlags (idx k) valid) (numIntra + valid.toNat)

def isAboveLeftAvailable (x y : ℤ) : Bool := nb.isDecomp (x - 1) (y - 1) && nb.getCURestricted (x - 1) (y - 1)

def isAboveAvailable (x y : ℤ) (units unitWidth first : ℕ) (validFlags : ℕ → Bool) : (ℕ → Bool) × ℕ :=
  nb.scanUnits (fun k => (x + k * unitWidth, y - 1)) (fun k => first + k) units 0 validFlags 0

def isLeftAvailable (x y : ℤ) (units unitHeight first : ℕ) (validFlags : ℕ → Bool) : (ℕ → Bool) × ℕ :=
  nb.scanUnits (fun k => (x - 1, y + k * unitHeight)) (fun k => first - k) units 0 validFlags 0

def isAboveRightAvailable (x y : ℤ) (units unitWidth first : ℕ) (validFlags : ℕ → Bool) : (ℕ → Bool) × ℕ :=
  nb.scanUnits (fun k => (x + (unitWidth + k * unitWidth), y - 1)) (fun k => first + k) units 0 validFlags 0

def isBelowLeftAvailable (x y : ℤ) (units unitHeight first : ℕ) (validFlags : ℕ → Bool) : (ℕ → Bool) × ℕ :=
  nb.scanUnits (fun k => (x - 1, y + (unitHeight + k * unitHeight))) (fun k => first - k) units 0 validFlags 0

end Neighborhood

/-- What the filling reads of a block and of its coding unit. A coding unit with sub-partitions
predicts from the nearest line: `isp_mode` is only coded there. -/
structure RefBlock where
  compID : ComponentID
  chromaFormat : ChromaFormat
  width : ℕ
  height : ℕ
  ispMode : Bool
  /-- `cu.firstPU->multiRefIdx` -/
  puMultiRefIdx : ℕ
  /-- `m_topRefLength` -/
  predSize : ℕ
  /-- `m_leftRefLength` -/
  predHSize : ℕ
  bitDepth : ℕ
  width_pos : 0 < width
  height_pos : 0 < height
  isp_line : puMultiRefIdx ≠ 0 → ispMode = false

namespace RefBlock
variable (b : RefBlock)

def multiRefIdx : ℕ := if b.compID = .Y then b.puMultiRefIdx else 0

def predStride : ℕ := b.predSize + 1 + b.multiRefIdx

/-- `pcv.minCUWidth` and `pcv.minCUHeight` are 4, and `pcv.noChroma2x2` is `false`. -/
def unitWidth : ℕ :=
  if b.width ≤ 2 ∧ b.ispMode ∧ b.compID = .Y then b.width
  else 4 >>> getChannelTypeScaleX b.compID.toChannelType b.chromaFormat

def unitHeight : ℕ :=
  if b.height ≤ 2 ∧ b.ispMode ∧ b.compID = .Y then b.height
  else 4 >>> getChannelTypeScaleY b.compID.toChannelType b.chromaFormat

def leftMrlUnitNum : ℕ := b.multiRefIdx / b.unitHeight

def aboveMrlUnitNum : ℕ := b.multiRefIdx / b.unitWidth

def totalAboveUnits : ℕ := (b.predSize + (b.unitWidth - 1)) / b.unitWidth

def totalLeftUnits : ℕ := (b.predHSize + (b.unitHeight - 1)) / b.unitHeight

def totalUnits : ℕ := b.totalAboveUnits + b.totalLeftUnits + 1 + b.leftMrlUnitNum + b.aboveMrlUnitNum

/-- The number of the unit at the corner. -/
def cornerUnit : ℕ := b.totalLeftUnits + b.leftMrlUnitNum

/-- How many rows of the left column, and columns of the row above, are not in a unit of their own. -/
def cornerRows : ℤ := 1 + b.multiRefIdx - b.leftMrlUnitNum * b.unitHeight

def cornerCols : ℤ := 1 + b.multiRefIdx - b.aboveMrlUnitNum * b.unitWidth

/-- How many samples the unit at the far end of an array has. -/
def lastSample (length unit : ℕ) : ℕ := if length % unit = 0 then unit else length % unit

def numAboveUnits : ℕ := max (b.width / b.unitWidth) 1

def numLeftUnits : ℕ := max (b.height / b.unitHeight) 1

/-! ## Which units are available -/

/-- `neighborFlags`, and how many of them are set. -/
def analyzeNeighborhood (nb : Neighborhood) : (ℕ → Bool) × ℕ :=
  let line : ℤ := b.multiRefIdx
  -- offsets from the block: `posRT` and `posLB` are inside it
  let right : ℤ := b.width - 1
  let bottom : ℤ := b.height - 1
  let flags := Function.update (fun _ => false) b.cornerUnit (nb.isAboveLeftAvailable (-line) (-line))
  let numIntraNeighbor := if flags b.cornerUnit then 1 else 0
  let (flags, n₁) := nb.isAboveAvailable (-(b.aboveMrlUnitNum * b.unitWidth)) (-line) b.aboveMrlUnitNum b.unitWidth
    (b.cornerUnit + 1) flags
  let (flags, n₂) := nb.isLeftAvailable (-line) (-(b.leftMrlUnitNum * b.unitHeight)) b.leftMrlUnitNum b.unitHeight
    (b.cornerUnit - 1) flags
  let (flags, n₃) := nb.isAboveAvailable 0 (-line) b.numAboveUnits b.unitWidth
    (b.cornerUnit + 1 + b.aboveMrlUnitNum) flags
  let (flags, n₄) := nb.isAboveRightAvailable right (-line) (b.totalAboveUnits - b.numAboveUnits) b.unitWidth
    (b.cornerUnit + 1 + b.aboveMrlUnitNum + b.numAboveUnits) flags
  let (flags, n₅) := nb.isLeftAvailable (-line) 0 b.numLeftUnits b.unitHeight (b.totalLeftUnits - 1) flags
  let (flags, n₆) := nb.isBelowLeftAvailable (-line) bottom (b.totalLeftUnits - b.numLeftUnits) b.unitHeight
    (b.totalLeftUnits - 1 - b.numLeftUnits) flags
  (flags, numIntraNeighbor + n₁ + n₂ + n₃ + n₄ + n₅ + n₆)

/-! ## Copying what is available -/

variable (reco : ℤ → ℤ → ℤ) (neighborFlags : ℕ → Bool)

def copyCorner (buf : RefBuffer) : RefBuffer :=
  let line : ℤ := 1 + b.multiRefIdx
  if neighborFlags b.cornerUnit then
    let buf := Function.update buf 0 (reco (-line) (-line))
    let buf := Function.update buf b.predStride (reco (-line) (-line))
    -- one loop fills both arrays, as far as the rows go
    let buf := fillRef 0 1 b.cornerRows (fun i => reco (i - line) (-line)) buf
    fillRef b.predStride 1 b.cornerRows (fun i => reco (-line) (i - line)) buf
  else buf

/-- Units on the left, downwards: `y` and `dst` are the pointers, behind the last unit in the end. -/
def copyLeft : (unitIdx : ℕ) → (y dst : ℤ) → RefBuffer → RefBuffer × ℤ × ℤ
  | 0, y, dst, buf => (buf, y, dst)
  | unitIdx + 1, y, dst, buf =>
    let buf := if neighborFlags (unitIdx + 1) then
        fillRef dst 0 b.unitHeight (fun i => reco (-(1 + b.multiRefIdx)) (y + i)) buf
      else buf
    copyLeft unitIdx (y + b.unitHeight) (dst + b.unitHeight) buf

/-- `units` units above, to the right. -/
def copyAbove : (units unitIdx : ℕ) → (x dst : ℤ) → RefBuffer → RefBuffer × ℤ × ℤ
  | 0, _, x, dst, buf => (buf, x, dst)
  | units + 1, unitIdx, x, dst, buf =>
    let buf := if neighborFlags unitIdx then
        fillRef dst 0 b.unitWidth (fun j => reco (x + j) (-(1 + b.multiRefIdx))) buf
      else buf
    copyAbove units (unitIdx + 1) (x + b.unitWidth) (dst + b.unitWidth) buf

def copyAvailable (buf : RefBuffer) : RefBuffer :=
  let buf := b.copyCorner reco neighborFlags buf
  let (buf, y, dst) := b.copyLeft reco neighborFlags (b.cornerUnit - 1) (-(b.leftMrlUnitNum * b.unitHeight))
    (b.predStride + b.cornerRows) buf
  let buf := if neighborFlags 0 then
      fillRef dst 0 (lastSample b.predHSize b.unitHeight) (fun i => reco (-(1 + b.multiRefIdx)) (y + i)) buf
    else buf
  let (buf, x, dst) := b.copyAbove reco neighborFlags (b.totalUnits - 1 - (b.cornerUnit + 1)) (b.cornerUnit + 1)
    (-(b.aboveMrlUnitNum * b.unitWidth)) b.cornerCols buf
  if neighborFlags (b.totalUnits - 1) then
    fillRef dst 0 (lastSample b.predSize b.unitWidth) (fun j => reco (x + j) (-(1 + b.multiRefIdx))) buf
  else buf

/-! ## Padding -/

/-- `while( unit < totalUnits && !neighborFlags[unit] ) unit++;`, at most `rounds` times round. -/
def findAvailable : (rounds unit : ℕ) → ℕ
  | 0, unit => unit
  | rounds + 1, unit =>
    if unit < b.totalUnits ∧ !neighborFlags unit then findAvailable rounds (unit + 1) else unit

/-- From the first available unit down to the last sample below left. -/
def padFirst (buf : RefBuffer) : RefBuffer × ℕ :=
  if !neighborFlags 0 then
    let firstAvailUnit := b.findAvailable neighborFlags b.totalUnits 1
    let firstAvailRow : ℤ :=
      if firstAvailUnit < b.cornerUnit then
        ((b.cornerUnit : ℤ) - firstAvailUnit) * b.unitHeight + b.multiRefIdx - b.leftMrlUnitNum * b.unitHeight
      else if firstAvailUnit = b.cornerUnit then b.multiRefIdx - b.leftMrlUnitNum * b.unitHeight
      else -1
    let firstAvailCol : ℤ :=
      if firstAvailUnit ≤ b.cornerUnit then 0
      else ((firstAvailUnit : ℤ) - b.cornerUnit - 1) * b.unitWidth + 1 + b.multiRefIdx - b.aboveMrlUnitNum * b.unitWidth
    let firstAvailSample := buf (if firstAvailRow < 0 then firstAvailCol else firstAvailRow + b.predStride)
    let lastRow : ℤ := b.predHSize + b.multiRefIdx
    let buf := fillRef b.predStride (firstAvailRow + 1) (lastRow + 1) (fun _ => firstAvailSample) buf
    let buf := if firstAvailCol > 0 then fillRef 0 0 firstAvailCol (fun _ => firstAvailSample) buf else buf
    (buf, firstAvailUnit)
  else (buf, 0)

/-- The current unit takes the last sample of the one before it. -/
def padUnit (lastAvailUnit currUnit : ℕ) (buf : RefBuffer) : RefBuffer :=
  let lastAvailRow : ℤ :=
    if lastAvailUnit < b.cornerUnit then
      ((b.cornerUnit : ℤ) - lastAvailUnit - 1) * b.unitHeight + b.multiRefIdx - b.leftMrlUnitNum * b.unitHeight + 1
    else -1
  let lastAvailCol : ℤ :=
    if lastAvailUnit < b.cornerUnit then 0
    else if lastAvailUnit = b.cornerUnit then b.multiRefIdx - b.leftMrlUnitNum * b.unitHeight
    else ((lastAvailUnit : ℤ) - b.cornerUnit) * b.unitWidth + b.multiRefIdx - b.aboveMrlUnitNum * b.unitWidth
  let lastAvailSample := buf (if lastAvailRow < 0 then lastAvailCol else lastAvailRow + b.predStride)
  if currUnit < b.cornerUnit then
    fillRef b.predStride (lastAvailRow - b.unitHeight) lastAvailRow (fun _ => lastAvailSample) buf
  else if currUnit = b.cornerUnit then
    fillRef 0 0 b.cornerCols (fun _ => lastAvailSample)
      (fillRef b.predStride 0 b.cornerRows (fun _ => lastAvailSample) buf)
  else
    let numSamplesInUnit := if currUnit = b.totalUnits - 1 then lastSample b.predSize b.unitWidth else b.unitWidth
    fillRef 0 (lastAvailCol + 1) (lastAvailCol + numSamplesInUnit + 1) (fun _ => lastAvailSample) buf

/-- `while( currUnit < totalUnits )`, at most `rounds` times round. -/
def padOthers : (rounds lastAvailUnit currUnit : ℕ) → RefBuffer → RefBuffer
  | 0, _, _, buf => buf
  | rounds + 1, lastAvailUnit, currUnit, buf =>
    if currUnit < b.totalUnits then
      padOthers rounds currUnit (currUnit + 1)
        (if !neighborFlags currUnit then b.padUnit lastAvailUnit currUnit buf else buf)
    else buf

/-! ## All of it -/

def xFillReferenceSamples (nb : Neighborhood) (buf : RefBuffer) : Checked RefBuffer := do
  check (b.numAboveUnits ≤ 0 ∨ b.numLeftUnits ≤ 0 ∨ (b.totalAboveUnits : ℤ) - b.numAboveUnits ≤ 0 ∨
    (b.totalLeftUnits : ℤ) - b.numLeftUnits ≤ 0) "Size not supported"
  let (neighborFlags, numIntraNeighbor) := b.analyzeNeighborhood nb
  let line : ℤ := 1 + b.multiRefIdx
  if numIntraNeighbor = 0 then
    let valueDC : ℤ := 2 ^ (b.bitDepth - 1)
    return fillRef b.predStride 0 (b.predHSize + b.multiRefIdx + 1) (fun _ => valueDC)
      (fillRef 0 0 (b.predSize + b.multiRefIdx + 1) (fun _ => valueDC) buf)
  else if numIntraNeighbor = b.totalUnits then
    return fillRef b.predStride 0 (b.predHSize + b.multiRefIdx + 1) (fun i => reco (-line) (i - line))
      (fillRef 0 0 (b.predSize + b.multiRefIdx + 1) (fun j => reco (j - line) (-line)) buf)
  else
    let (buf, lastAvailUnit) := b.padFirst neighborFlags (b.copyAvailable reco neighborFlags buf)
    return b.padOthers neighborFlags b.totalUnits lastAvailUnit (lastAvailUnit + 1) buf

end RefBlock

end ECM.CommonLib
