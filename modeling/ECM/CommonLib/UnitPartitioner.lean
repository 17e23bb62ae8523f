import ECM.CommonLib.TypeDef
import ECM.CommonLib.Unit

/-! # The partitioner of the coding tree

A stack of levels, each the list of parts of one split and the index of the
current part, beside counters for how the current area was reached. The
counters are `unsigned` in the source; as integers they show a step below zero. -/

namespace ECM.CommonLib

inductive PartSplit where
  | ctuLevel
  | cuQuadSplit
  | cuHorzSplit
  | cuVertSplit
  | cuTriHSplit
  | cuTriVSplit
  | tuMaxTrSplit
  | tuNoIsp
  | tu1dHorzSplit
  | tu1dVertSplit
  | sbtVerHalfPos0Split
  | sbtVerHalfPos1Split
  | sbtHorHalfPos0Split
  | sbtHorHalfPos1Split
  | sbtVerQuadPos0Split
  | sbtVerQuadPos1Split
  | sbtHorQuadPos0Split
  | sbtHorQuadPos1Split
  | cuMtSplit
  | cuBtSplit
  | cuDontSplit
deriving DecidableEq, Inhabited

namespace PartSplit

/-- `CU_HORZ_SPLIT` to `CU_TRIV_SPLIT`. -/
def isMtt : PartSplit → Bool
  | cuHorzSplit | cuVertSplit | cuTriHSplit | cuTriVSplit => true
  | _ => false

def isTernary : PartSplit → Bool
  | cuTriHSplit | cuTriVSplit => true
  | _ => false

/-- `SBT_VER_QUAD_POS0_SPLIT` to `SBT_HOR_QUAD_POS1_SPLIT`. -/
def isSbtQuad : PartSplit → Bool
  | sbtVerQuadPos0Split | sbtVerQuadPos1Split | sbtHorQuadPos0Split | sbtHorQuadPos1Split => true
  | _ => false

/-- `SBT_VER_HALF_POS0_SPLIT` to `SBT_HOR_QUAD_POS1_SPLIT`. -/
def isSbt : PartSplit → Bool
  | sbtVerHalfPos0Split | sbtVerHalfPos1Split | sbtHorHalfPos0Split | sbtHorHalfPos1Split => true
  | split => split.isSbtQuad

/-- The splits that cut a vertical line. -/
def isSbtVer : PartSplit → Bool
  | sbtVerHalfPos0Split | sbtVerHalfPos1Split | sbtVerQuadPos0Split | sbtVerQuadPos1Split => true
  | _ => false

/-- The splits of the coding tree. -/
def isCu (split : PartSplit) : Bool := split = cuQuadSplit || split.isMtt

/-- The splits of a coding unit into transform units. -/
def isTu (split : PartSplit) : Bool := split = tuMaxTrSplit || split.isSbt

end PartSplit

def MAX_CU_SIZE : Nat := 256
def MIN_TB_SIZEY : Nat := 4
def MAX_TB_SIZEY : Nat := 256
def MAX_CU_TILING_PARTITIONS : Nat := 64
def MIN_DUALTREE_CHROMA_WIDTH : Nat := 4
def MIN_DUALTREE_CHROMA_SIZE : Nat := 16

/-- What the partitioner reads of `cs`: the picture, the partitioning limits
`pcv` gives for the slice, the maximum transform size and the depths of the
quantization groups. -/
structure CodingStructure where
  picWidth : Nat
  picHeight : Nat
  isDualITree : Bool
  maxBtDepth : ChannelType → Nat
  maxBtSize : ChannelType → Nat
  minBtSize : ChannelType → Nat
  maxTtSize : ChannelType → Nat
  minTtSize : ChannelType → Nat
  minQtSize : ChannelType → Nat
  maxTbSize : Nat
  cuQpDeltaSubdiv : Nat
  cuChromaQpOffsetSubdiv : Nat

/-- `cs.picture->Y()`. -/
def CodingStructure.picture (cs : CodingStructure) : CompArea := ⟨0, 0, cs.picWidth, cs.picHeight⟩

/-! ## The parts of a split -/

namespace PartitionerImpl

/-- A loop that makes the parts one after the other and checks each. -/
def subPartitions (n : Nat) (sub : Nat → UnitArea) (tooSmall : UnitArea → Bool) (msg : String) :
    Checked (List UnitArea) :=
  (List.range n).mapM fun i => do
    check (tooSmall (sub i)) msg
    return sub i

def quadBlock (i : Nat) (blk : CompArea) : CompArea :=
  let height := blk.height >>> 1
  let width := blk.width >>> 1
  { x := if i &&& 1 ≠ 0 then blk.x + width else blk.x
    y := if i ≥ 2 then blk.y + height else blk.y
    width, height }

def horzBlock (i : Nat) (blk : CompArea) : CompArea :=
  let height := blk.height >>> 1
  { blk with y := if i = 1 then blk.y + height else blk.y, height }

def vertBlock (i : Nat) (blk : CompArea) : CompArea :=
  let width := blk.width >>> 1
  { blk with x := if i = 1 then blk.x + width else blk.x, width }

/-- The side of a part of a ternary split. -/
def triSide (i side : Nat) : Nat :=
  if (i + 1) &&& 1 ≠ 0 then side >>> 1 >>> 1 else side >>> 1

/-- The offset of a part of a ternary split. -/
def triOffset (i side : Nat) : Nat :=
  if i = 1 then triSide i side / 2 else if i = 2 then 3 * triSide i side else 0

def triHBlock (i : Nat) (blk : CompArea) : CompArea :=
  { blk with y := blk.y + triOffset i blk.height, height := triSide i blk.height }

def triVBlock (i : Nat) (blk : CompArea) : CompArea :=
  { blk with x := blk.x + triOffset i blk.width, width := triSide i blk.width }

/-- `pcv->noChroma2x2` is `false` in every `PreCalcValues`. -/
def getCUSubPartitions (cuArea : UnitArea) (splitType : PartSplit) : Checked (List UnitArea) :=
  match splitType with
  | .cuQuadSplit => subPartitions 4 (fun i => cuArea.mapBlocks (quadBlock i))
      (fun sub => sub.Y.height < MIN_TB_SIZEY)
      "the split causes the block to be smaller than the minimal TU size"
  | .cuHorzSplit => subPartitions 2 (fun i => cuArea.mapBlocks (horzBlock i))
      (fun sub => sub.Y.height < MIN_TB_SIZEY)
      "the cs split causes the block to be smaller than the minimal TU size"
  | .cuVertSplit => subPartitions 2 (fun i => cuArea.mapBlocks (vertBlock i))
      (fun sub => sub.Y.width < MIN_TB_SIZEY)
      "the split causes the block to be smaller than the minimal TU size"
  | .cuTriHSplit => subPartitions 3 (fun i => cuArea.mapBlocks (triHBlock i))
      (fun sub => sub.Y.height < MIN_TB_SIZEY)
      "the cs split causes the block to be smaller than the minimal TU size"
  | .cuTriVSplit => subPartitions 3 (fun i => cuArea.mapBlocks (triVBlock i))
      (fun sub => sub.Y.width < MIN_TB_SIZEY)
      "the split causes the block to be smaller than the minimal TU size"
  | _ => .error "Unknown CU sub-partitioning"

def g_zScanToX : List Nat :=
  [0, 1, 0, 1, 2, 3, 2, 3,
   0, 1, 0, 1, 2, 3, 2, 3,
   4, 5, 4, 5, 6, 7, 6, 7,
   4, 5, 4, 5, 6, 7, 6, 7,
   0, 1, 0, 1, 2, 3, 2, 3,
   0, 1, 0, 1, 2, 3, 2, 3,
   4, 5, 4, 5, 6, 7, 6, 7,
   4, 5, 4, 5, 6, 7, 6, 7]

def g_zScanToY : List Nat :=
  [0, 0, 1, 1, 0, 0, 1, 1,
   2, 2, 3, 3, 2, 2, 3, 3,
   0, 0, 1, 1, 0, 0, 1, 1,
   2, 2, 3, 3, 2, 2, 3, 3,
   4, 4, 5, 5, 4, 4, 5, 5,
   6, 6, 7, 7, 6, 6, 7, 7,
   4, 4, 5, 5, 4, 4, 5, 5,
   6, 6, 7, 7, 6, 6, 7, 7]

def g_rsScanToZ : List Nat :=
  [ 0,  1,  4,  5, 16, 17, 20, 21,
    2,  3,  6,  7, 18, 19, 22, 23,
    8,  9, 12, 13, 24, 25, 28, 29,
   10, 11, 14, 15, 26, 27, 30, 31,
   32, 33, 36, 37, 48, 49, 52, 53,
   34, 35, 38, 39, 50, 51, 54, 55,
   40, 41, 44, 45, 56, 57, 60, 61,
   42, 43, 46, 47, 58, 59, 62, 63]

def maxTuBlock (numTilesH numTilesV x y : Nat) (comp : CompArea) : CompArea :=
  if comp.valid then
    let width := comp.width / numTilesH
    let height := comp.height / numTilesV
    { x := comp.x + (width * x : Nat), y := comp.y + (height * y : Nat), width, height }
  else comp

def getMaxTuTiling (cuArea : UnitArea) (cs : CodingStructure) : Checked (List UnitArea) := do
  let numTilesH := max 1 (cuArea.Y.width / cs.maxTbSize)
  let numTilesV := max 1 (cuArea.Y.height / cs.maxTbSize)
  let numTiles := numTilesH * numTilesV
  check (numTiles > MAX_CU_TILING_PARTITIONS) "CU partitioning requires more partitions than available"
  return (List.range numTiles).map fun i =>
    let rsy := i / numTilesH
    let rsx := i % numTilesH
    let z := g_rsScanToZ.getD ((rsy <<< 3) + rsx) 0
    cuArea.mapBlocks (maxTuBlock numTilesH numTilesV (g_zScanToX.getD z 0) (g_zScanToY.getD z 0))

/-- The share of the cut side, in quarters, that tile `i` takes. -/
def sbtFactor (splitType : PartSplit) (i : Nat) : Nat :=
  match splitType with
  | .sbtHorQuadPos0Split | .sbtVerQuadPos0Split => if i = 0 then 1 else 3
  | .sbtHorQuadPos1Split | .sbtVerQuadPos1Split => if i = 1 then 1 else 3
  | _ => 2

/-- Where tile `i` starts on the cut side, in quarters. -/
def sbtOffsetFactor (splitType : PartSplit) (i : Nat) : Nat :=
  if i = 0 then 0
  else match splitType with
    | .sbtHorQuadPos0Split | .sbtVerQuadPos0Split => 1
    | .sbtHorQuadPos1Split | .sbtVerQuadPos1Split => 3
    | _ => 2

def sbtBlock (splitType : PartSplit) (i : Nat) (comp : CompArea) : CompArea :=
  let widthFactor := if splitType.isSbtVer then sbtFactor splitType i else 4
  let xOffsetFactor := if splitType.isSbtVer then sbtOffsetFactor splitType i else 0
  let heightFactor := if splitType.isSbtVer then 4 else sbtFactor splitType i
  let yOffsetFactor := if splitType.isSbtVer then 0 else sbtOffsetFactor splitType i
  if comp.valid then
    { x := comp.x + ((comp.width * xOffsetFactor) >>> 2 : Nat)
      y := comp.y + ((comp.height * yOffsetFactor) >>> 2 : Nat)
      width := (comp.width * widthFactor) >>> 2
      height := (comp.height * heightFactor) >>> 2 }
  else comp

def getSbtTuTiling (cuArea : UnitArea) (splitType : PartSplit) : List UnitArea :=
  (List.range 2).map fun i => cuArea.mapBlocks (sbtBlock splitType i)

end PartitionerImpl

/-! ## The state -/

structure PartLevel where
  split : PartSplit
  parts : List UnitArea
  idx : Nat
  checkdIfImplicit : Bool
  isImplicit : Bool
  implicitSplit : PartSplit
  canQtSplit : Bool
  qgEnable : Bool
  qgChromaEnable : Bool
deriving DecidableEq, Inhabited

def PartLevel.ofParts (split : PartSplit) (parts : List UnitArea) : PartLevel where
  split := split
  parts := parts
  idx := 0
  checkdIfImplicit := false
  isImplicit := false
  implicitSplit := .cuDontSplit
  canQtSplit := true
  qgEnable := true
  qgChromaEnable := true

/-- `m_partStack` is never empty: `back` is its last level, `below` the others,
the latest first. -/
structure Partitioner where
  back : PartLevel
  below : List PartLevel
  currDepth : Int
  currQtDepth : Int
  currTrDepth : Int
  currBtDepth : Int
  currMtDepth : Int
  currSubdiv : Int
  currQgPos : Position
  currQgChromaPos : Position
  currImplicitBtDepth : Int
  chType : ChannelType
deriving DecidableEq

/-- The six answers of `canSplit`. -/
structure SplitFlags where
  canNo : Bool
  canQt : Bool
  canBh : Bool
  canBv : Bool
  canTh : Bool
  canTv : Bool
deriving DecidableEq

namespace Partitioner

def currPartIdx (p : Partitioner) : Nat := p.back.idx

def currArea (p : Partitioner) : UnitArea := p.back.parts.getD p.currPartIdx default

def initCtu (ctuArea : UnitArea) (chType : ChannelType) : Partitioner where
  back := PartLevel.ofParts .ctuLevel [ctuArea]
  below := []
  currDepth := 0
  currQtDepth := 0
  currTrDepth := 0
  currBtDepth := 0
  currMtDepth := 0
  currSubdiv := 0
  currQgPos := ctuArea.lumaPos
  currQgChromaPos := if ctuArea.chromaFormat ≠ .chroma400 then ctuArea.chromaPos else default
  currImplicitBtDepth := 0
  chType := chType

/-! ## Which splits are possible -/

/-- The split forced on the current area, when it is not cached. -/
def deriveImplicitSplit (cs : CodingStructure) (p : Partitioner) : PartSplit :=
  let area := p.currArea.Y
  let isBlInPic := cs.picture.contains area.bottomLeft
  let isTrInPic := cs.picture.contains area.topRight
  let maxBtSize := cs.maxBtSize p.chType
  let isBtAllowed : Bool := area.width ≤ maxBtSize ∧ area.height ≤ maxBtSize ∧
    p.currMtDepth < cs.maxBtDepth p.chType + p.currImplicitBtDepth
  let minQtSize := cs.minQtSize p.chType
  let isQtAllowed : Bool := area.width > minQtSize ∧ area.height > minQtSize ∧ p.currBtDepth = 0
  let split : PartSplit :=
    if !isBlInPic && !isTrInPic && isQtAllowed then .cuQuadSplit
    else if !isBlInPic && isBtAllowed && area.width ≤ MAX_TB_SIZEY then .cuHorzSplit
    else if !isTrInPic && isBtAllowed && area.height ≤ MAX_TB_SIZEY then .cuVertSplit
    else if !isBlInPic || !isTrInPic then .cuQuadSplit
    else .cuDontSplit
  let split :=
    if cs.isDualITree && (area.width > MAX_TB_SIZEY || area.height > MAX_TB_SIZEY) then .cuQuadSplit
    else split
  if (!isBlInPic || !isTrInPic) && split = .cuDontSplit then .cuQuadSplit else split

/-- The current level with its implicit split cached. -/
def cacheImplicitSplit (p : Partitioner) (split : PartSplit) : Partitioner :=
  { p with back := { p.back with
      checkdIfImplicit := true, isImplicit := split ≠ .cuDontSplit, implicitSplit := split } }

def getImplicitSplit (cs : CodingStructure) (p : Partitioner) : PartSplit × Partitioner :=
  if p.back.checkdIfImplicit then (p.back.implicitSplit, p)
  else
    let split := p.deriveImplicitSplit cs
    (split, p.cacheImplicitSplit split)

def isSplitImplicit (cs : CodingStructure) (p : Partitioner) (split : PartSplit) : Bool × Partitioner :=
  let (implicitSplit, p) := p.getImplicitSplit cs
  (split = implicitSplit, p)

/-- The answers of `canSplit` once the implicit split is known. -/
def splitFlags (cs : CodingStructure) (p : Partitioner) (implicitSplit : PartSplit) : SplitFlags :=
  let maxBTD := cs.maxBtDepth p.chType + p.currImplicitBtDepth
  let maxBtSize := cs.maxBtSize p.chType
  let minBtSize := cs.minBtSize p.chType
  let maxTtSize := cs.maxTtSize p.chType
  let minTtSize := cs.minTtSize p.chType
  let minQtSize := cs.minQtSize p.chType
  let canBtt : Bool := p.currMtDepth < maxBTD
  let area := p.currArea.Y
  let areaC := if p.chType = .chroma then some p.currArea.Cb else none
  let lastSplit := p.back.split
  let parlSplit : PartSplit := if lastSplit = .cuTriHSplit then .cuHorzSplit else .cuVertSplit
  let canQt : Bool := !(lastSplit ≠ .ctuLevel && lastSplit ≠ .cuQuadSplit) &&
    !(area.width ≤ minQtSize) && !areaC.any fun c => c.width ≤ MIN_DUALTREE_CHROMA_WIDTH
  if implicitSplit ≠ .cuDontSplit then
    let canBh : Bool := implicitSplit = .cuHorzSplit
    let canBv : Bool := implicitSplit = .cuVertSplit
    { canNo := false, canQt := canQt || (!canBh && !canBv), canBh, canBv, canTh := false, canTv := false }
  else
    let middle : Bool := (lastSplit = .cuTriHSplit || lastSplit = .cuTriVSplit) && p.currPartIdx = 1
    let canBh : Bool := !(middle && parlSplit = .cuHorzSplit)
    let canBv : Bool := !(middle && parlSplit = .cuVertSplit)
    let canBtt := canBtt &&
      !((area.width ≤ minBtSize && area.height ≤ minBtSize) &&
        (area.width ≤ minTtSize && area.height ≤ minTtSize))
    let canBtt := canBtt &&
      !((area.width > maxBtSize || area.height > maxBtSize) &&
        (area.width > maxTtSize || area.height > maxTtSize))
    if !canBtt then
      { canNo := true, canQt, canBh := false, canBv := false, canTh := false, canTv := false }
    else
      let btTooLarge : Bool := area.width > maxBtSize || area.height > maxBtSize
      let canBh := canBh && !btTooLarge && !(area.height ≤ minBtSize) &&
        !(area.width > MAX_TB_SIZEY && area.height ≤ MAX_TB_SIZEY) &&
        !areaC.any fun c => c.width * c.height ≤ MIN_DUALTREE_CHROMA_SIZE
      let canBv := canBv && !btTooLarge && !(area.width ≤ minBtSize) &&
        !(area.width ≤ MAX_TB_SIZEY && area.height > MAX_TB_SIZEY) &&
        !areaC.any fun c => c.width * c.height ≤ MIN_DUALTREE_CHROMA_SIZE
      let canTh := !(area.height ≤ 2 * minTtSize || area.height > maxTtSize || area.width > maxTtSize) &&
        !(area.width > MAX_TB_SIZEY || area.height > MAX_TB_SIZEY) &&
        !areaC.any fun c => c.width * c.height ≤ MIN_DUALTREE_CHROMA_SIZE * 2
      let canTv := !(area.width ≤ 2 * minTtSize || area.width > maxTtSize || area.height > maxTtSize) &&
        !(area.width > MAX_TB_SIZEY || area.height > MAX_TB_SIZEY) &&
        !areaC.any fun c => c.width * c.height ≤ MIN_DUALTREE_CHROMA_SIZE * 2
      { canNo := true, canQt, canBh, canBv, canTh, canTv }

/-- `canSplit` for one split; it leaves the implicit split cached. -/
def canSplit (cs : CodingStructure) (p : Partitioner) (split : PartSplit) : Checked (Bool × Partitioner) := do
  let area := p.currArea.Y
  let maxTrSize := cs.maxTbSize
  let (implicitSplit, p) := p.getImplicitSplit cs
  let flags := p.splitFlags cs implicitSplit
  match split with
  | .ctuLevel => .error "Checking if top level split is possible"
  | .tuMaxTrSplit => return (area.width > maxTrSize || area.height > maxTrSize, p)
  | .sbtVerHalfPos0Split | .sbtVerHalfPos1Split | .sbtHorHalfPos0Split | .sbtHorHalfPos1Split
  | .sbtVerQuadPos0Split | .sbtVerQuadPos1Split | .sbtHorQuadPos0Split | .sbtHorQuadPos1Split =>
    return (p.currTrDepth = 0, p)
  | .cuQuadSplit => return (flags.canQt, p)
  | .cuDontSplit => return (flags.canNo, p)
  | .cuHorzSplit => return (flags.canBh, p)
  | .cuVertSplit => return (flags.canBv, p)
  | .cuTriHSplit => return (flags.canTh, p)
  | .cuTriVSplit => return (flags.canTv, p)
  | .cuMtSplit => return (flags.canBh || flags.canTh || flags.canBv || flags.canTv, p)
  | .cuBtSplit => return (flags.canBh || flags.canBv, p)
  | _ => .error "Unknown split mode"

/-! ## Entering a split, its parts, leaving it -/

/-- The parts of the current area under `split`. -/
def splitParts (cs : CodingStructure) (p : Partitioner) (split : PartSplit) : Checked (List UnitArea) :=
  match split with
  | .cuQuadSplit | .cuHorzSplit | .cuVertSplit | .cuTriHSplit | .cuTriVSplit =>
    PartitionerImpl.getCUSubPartitions p.currArea split
  | .tuMaxTrSplit => PartitionerImpl.getMaxTuTiling p.currArea cs
  | .sbtVerHalfPos0Split | .sbtVerHalfPos1Split | .sbtHorHalfPos0Split | .sbtHorHalfPos1Split
  | .sbtVerQuadPos0Split | .sbtVerQuadPos1Split | .sbtHorQuadPos0Split | .sbtHorQuadPos1Split =>
    .ok (PartitionerImpl.getSbtTuTiling p.currArea split)
  | _ => .error "Unknown split mode"

/-- The counters of the coding tree after the level of `split` is pushed. -/
def countSplit (p : Partitioner) (split : PartSplit) (isImplicit canQtSplit : Bool) : Checked Partitioner :=
  if split.isMtt then
    .ok { p with
      back := { p.back with canQtSplit }
      currBtDepth := p.currBtDepth + 1 + if split.isTernary then 1 else 0
      currImplicitBtDepth := p.currImplicitBtDepth + if isImplicit then 1 else 0
      currMtDepth := p.currMtDepth + 1
      currSubdiv := p.currSubdiv + if split.isTernary then 1 else 0 }
  else if split = .cuQuadSplit then do
    check (p.currBtDepth > 0) "Cannot split a non-square area other than with a binary split"
    check (p.currMtDepth > 0) "Cannot split a non-square area other than with a binary split"
    return { p with
      currMtDepth := 0
      currBtDepth := 0
      currQtDepth := p.currQtDepth + 1
      currSubdiv := p.currSubdiv + 1 }
  else .ok p

/-- The quantization groups as the new level begins. -/
def enterQg (cs : CodingStructure) (p : Partitioner) (qgEnable qgChromaEnable : Bool) : Partitioner :=
  let qgEnable : Bool := qgEnable && p.currSubdiv ≤ cs.cuQpDeltaSubdiv
  let qgChromaEnable : Bool := qgChromaEnable && p.currSubdiv ≤ cs.cuChromaQpOffsetSubdiv
  { p with
    back := { p.back with qgEnable, qgChromaEnable }
    currQgPos := if qgEnable then p.currArea.lumaPos else p.currQgPos
    currQgChromaPos := if qgChromaEnable then p.currArea.chromaPos else p.currQgChromaPos }

/-- The level of `split` pushed, with the transform depth it has. -/
def pushLevel (p : Partitioner) (split : PartSplit) (parts : List UnitArea) : Partitioner :=
  { p with
    back := PartLevel.ofParts split parts
    below := p.back :: p.below
    currDepth := p.currDepth + 1
    currSubdiv := p.currSubdiv + 1
    currTrDepth := if split.isTu then p.currTrDepth + 1 else 0 }

def splitCurrArea (cs : CodingStructure) (p : Partitioner) (split : PartSplit) : Checked Partitioner := do
  let (ok, p) ← p.canSplit cs split
  check (!ok) "Trying to apply a prohibited split!"
  let (isImplicit, p) := p.isSplitImplicit cs split
  let (canQtSplit, p) ← p.canSplit cs .cuQuadSplit
  let qgEnable := p.back.qgEnable
  let qgChromaEnable := p.back.qgChromaEnable
  let parts ← p.splitParts cs split
  let p ← (p.pushLevel split parts).countSplit split isImplicit canQtSplit
  return p.enterQg cs qgEnable qgChromaEnable

/-- `splitCurrArea` where `CHECKD` is empty, as in a build without `_DEBUG`. -/
def splitCurrAreaNDebug (cs : CodingStructure) (p : Partitioner) (split : PartSplit) : Checked Partitioner := do
  let (isImplicit, p) := p.isSplitImplicit cs split
  let (canQtSplit, p) ← p.canSplit cs .cuQuadSplit
  let qgEnable := p.back.qgEnable
  let qgChromaEnable := p.back.qgChromaEnable
  let parts ← p.splitParts cs split
  let p ← (p.pushLevel split parts).countSplit split isImplicit canQtSplit
  return p.enterQg cs qgEnable qgChromaEnable

/-- The quantization groups back at the part of the outer level. -/
def leaveQg (p : Partitioner) : Partitioner :=
  { p with
    currQgPos := if p.back.qgEnable then p.currArea.lumaPos else p.currQgPos
    currQgChromaPos :=
      if p.currArea.chromaFormat ≠ .chroma400 ∧ p.back.qgChromaEnable then p.currArea.chromaPos
      else p.currQgChromaPos }

/-- The counters of the coding and the transform tree after the level of
`currSplit` is popped at part `currIdx`. -/
def uncountSplit (p : Partitioner) (currSplit : PartSplit) (currIdx : Nat) : Checked Partitioner :=
  if currSplit.isMtt then do
    check (!p.back.checkdIfImplicit) "Didn't check if the current split is implicit"
    check (p.currBtDepth = 0) "BT depth is '0', athough a BT split was performed"
    check (p.currMtDepth = 0) "MT depth is '0', athough a BT split was performed"
    let p := { p with
      currMtDepth := p.currMtDepth - 1
      currImplicitBtDepth := p.currImplicitBtDepth - if p.back.isImplicit then 1 else 0
      currBtDepth := p.currBtDepth - 1 }
    if currSplit.isTernary && currIdx ≠ 1 then do
      check (p.currBtDepth = 0) "BT depth is '0', athough a TT split was performed"
      return { p with currBtDepth := p.currBtDepth - 1, currSubdiv := p.currSubdiv - 1 }
    else return p
  else if currSplit.isTu then do
    check (p.currTrDepth = 0) "TR depth is '0', although a TU split was performed"
    return { p with currTrDepth := p.currTrDepth - 1 }
  else do
    check (p.currTrDepth > 0) "RQT found with QTBT partitioner"
    check (p.currQtDepth = 0) "QT depth is '0', although a QT split was performed"
    return { p with currQtDepth := p.currQtDepth - 1, currSubdiv := p.currSubdiv - 1 }

/-- At the level of the CTU the depth is 0 and the first `CHECK` fires. -/
def exitCurrSplit (p : Partitioner) : Checked Partitioner :=
  match p.below with
  | [] => .error "depth is '0', although a split was performed"
  | back :: below => do
    check (p.currDepth = 0) "depth is '0', although a split was performed"
    let q := { p with
      back, below, currDepth := p.currDepth - 1, currSubdiv := p.currSubdiv - 1 }
    q.leaveQg.uncountSplit p.back.split p.back.idx

/-- The counters of a ternary split as its part `currIdx` begins. -/
def countPart (p : Partitioner) (currIdx : Nat) : Partitioner :=
  if p.back.split.isTernary then
    if currIdx = 1 then { p with currBtDepth := p.currBtDepth - 1, currSubdiv := p.currSubdiv - 1 }
    else { p with currBtDepth := p.currBtDepth + 1, currSubdiv := p.currSubdiv + 1 }
  else p

/-- The current level moved on to its next part. -/
def advance (p : Partitioner) : Partitioner :=
  { p with back := { p.back with
      idx := p.back.idx + 1, checkdIfImplicit := false, isImplicit := false } }

/-- The quantization groups as the next part begins. -/
def partQg (p : Partitioner) : Partitioner :=
  { p with
    currQgPos := if p.back.qgEnable then p.currArea.lumaPos else p.currQgPos
    currQgChromaPos := if p.back.qgChromaEnable then p.currArea.chromaPos else p.currQgChromaPos }

def nextPart (p : Partitioner) (autoPop : Bool) : Checked (Bool × Partitioner) := do
  let p := p.advance
  let currIdx := p.back.idx
  if currIdx < p.back.parts.length then
    return (true, (p.countPart currIdx).partQg)
  else if autoPop then do
    let p ← p.exitCurrSplit
    return (false, p)
  else return (false, p)

end Partitioner

end ECM.CommonLib
