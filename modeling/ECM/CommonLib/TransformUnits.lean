import ECM.CommonLib.Bins
import ECM.CommonLib.CodingUnits
import ECM.CommonLib.InLoopFilter
import ECM.CommonLib.IntraModes

/-! # Transform units

A coding unit is cut into transform units by its size, by intra sub-partitions or
by a sub-block transform. Both sides of the coder ask a partitioner which cut is
possible; intra sub-partitions have a partitioner of their own. Here a partitioner
is what it shows: the area of the current part, its transform depth and its index. -/

namespace ECM.CommonLib

inductive ISPType where
  | notIntraSubpartitions
  | horIntraSubpartitions
  | verIntraSubpartitions
  deriving DecidableEq, Repr

inductive SbtIdx where
  | verHalf
  | horHalf
  | verQuad
  | horQuad
  deriving DecidableEq, Repr

/-- `sbtInfo`, where it is not 0. -/
structure SbtInfo where
  idx : SbtIdx
  /-- the position is `SBT_POS1` -/
  pos1 : Bool
  deriving DecidableEq, Repr

namespace SbtInfo

def getSbtTuSplit (s : SbtInfo) : PartSplit :=
  match s.idx with
  | .verHalf => if s.pos1 then .sbtVerHalfPos1Split else .sbtVerHalfPos0Split
  | .horHalf => if s.pos1 then .sbtHorHalfPos1Split else .sbtHorHalfPos0Split
  | .verQuad => if s.pos1 then .sbtVerQuadPos1Split else .sbtVerQuadPos0Split
  | .horQuad => if s.pos1 then .sbtHorQuadPos1Split else .sbtHorQuadPos0Split

/-- The sizes that `checkAllowedSbt` asks for. -/
def allowed (s : SbtInfo) (cuWidth cuHeight maxSbtCUSize : ℕ) : Bool :=
  cuWidth ≤ maxSbtCUSize && cuHeight ≤ maxSbtCUSize &&
    match s.idx with
    | .verHalf => 8 ≤ cuWidth
    | .horHalf => 8 ≤ cuHeight
    | .verQuad => 16 ≤ cuWidth
    | .horQuad => 16 ≤ cuHeight

end SbtInfo

/-- What the transform tree reads of a coding unit. `area` is the area of the
partitioner as the tree begins, and `chType` its channel. -/
structure TransformCU where
  area : UnitArea
  chType : ChannelType
  predMode : PredMode
  ispMode : ISPType
  sbtInfo : Option SbtInfo
  colorTransform : Bool
  bdpcmMode : Bool
  bdpcmModeChroma : Bool

/-- What the coded-block flags need of a transform unit. `cbf` has a bit for each depth. -/
structure TransformUnit where
  area : UnitArea
  depth : ℕ
  cbf : ComponentID → ℕ
  noResidual : Bool

namespace TransformUnit

def getCbfAtDepth (tu : TransformUnit) (compID : ComponentID) (depth : ℕ) : Bool := (tu.cbf compID).testBit depth

/-- The bit is cleared, then set. -/
def setCbfAtDepth (tu : TransformUnit) (compID : ComponentID) (depth : ℕ) (cbf : Bool) : TransformUnit :=
  let cleared := tu.cbf compID ^^^ (tu.cbf compID &&& 1 <<< depth)
  { tu with cbf := Function.update tu.cbf compID (cleared ||| cbf.toNat <<< depth) }

def getCbf (tu : TransformUnit) (compID : ComponentID) : Bool := tu.getCbfAtDepth compID tu.depth

theorem testBit_set (n d d' : ℕ) (b : Bool) :
    ((n ^^^ (n &&& 1 <<< d)) ||| b.toNat <<< d).testBit d' = if d' = d then b else n.testBit d' := by
  rw [Nat.testBit_or, Nat.testBit_xor, Nat.testBit_and, Nat.testBit_shiftLeft, Nat.testBit_shiftLeft]
  by_cases hd : d' = d
  · subst hd
    rw [if_pos rfl, Nat.sub_self]
    cases b <;> simp
  · rw [if_neg hd]
    by_cases hle : d ≤ d'
    · obtain ⟨k, rfl⟩ : ∃ k, d' = d + 1 + k := ⟨d' - d - 1, by omega⟩
      have hone : Nat.testBit 1 (k + 1) = false := by
        rw [Nat.testBit_succ]
        exact Nat.zero_testBit k
      rw [show d + 1 + k - d = k + 1 by omega]
      cases b <;> simp [hone]
    · simp [hle]

theorem getCbfAtDepth_set (tu : TransformUnit) (c c' : ComponentID) (d d' : ℕ) (b : Bool) :
    (tu.setCbfAtDepth c d b).getCbfAtDepth c' d' = if c' = c ∧ d' = d then b else tu.getCbfAtDepth c' d' := by
  unfold getCbfAtDepth setCbfAtDepth
  by_cases hc : c' = c
  · subst hc
    dsimp only
    rw [Function.update_self, testBit_set]
    simp
  · dsimp only
    rw [Function.update_of_ne hc, if_neg fun h => hc h.1]

@[simp] theorem depth_setCbfAtDepth (tu : TransformUnit) (c : ComponentID) (d : ℕ) (b : Bool) :
    (tu.setCbfAtDepth c d b).depth = tu.depth := rfl

end TransformUnit

/-- `TU::getPrevTuCbfAtDepth`, where the units of the coding unit before this one are given. -/
def getPrevTuCbfAtDepth (earlier : List TransformUnit) (compID : ComponentID) (trDepth : ℕ) : Bool :=
  earlier.getLast?.any fun prevTU =>
    (prevTU.area.blockOf compID.toChannelType).valid && prevTU.getCbfAtDepth compID trDepth

structure ChromaCbfs where
  Cb : Bool
  Cr : Bool

def ChromaCbfs.sigChroma (c : ChromaCbfs) (chromaFormat : ChromaFormat) : Bool :=
  if chromaFormat = .chroma400 then false else c.Cb || c.Cr

/-! ## The parts -/

/-- The current part of a partitioner. -/
structure TuPart where
  currArea : UnitArea
  currTrDepth : ℕ
  currPartIdx : ℕ

def floorLog2 (x : ℕ) : ℕ := x.log2

/-- `CU::getISPSplitDim`. -/
def getISPSplitDim (width height : ℕ) (ispType : PartSplit) : Checked ℕ := do
  let divideTuInRows : Bool := ispType = .tu1dHorzSplit
  let splitDimensionSize := if divideTuInRows then height else width
  let nonSplitDimensionSize := if divideTuInRows then width else height
  let minNumberOfSamplesPerCu := 1 <<< (floorLog2 MIN_TB_SIZEY <<< 1)
  let factorToMinSamples := if nonSplitDimensionSize < minNumberOfSamplesPerCu
    then minNumberOfSamplesPerCu >>> floorLog2 nonSplitDimensionSize else 1
  let partitionSize := if splitDimensionSize >>> 2 < factorToMinSamples then factorToMinSamples
    else splitDimensionSize >>> 2
  check (floorLog2 partitionSize + floorLog2 nonSplitDimensionSize < floorLog2 minNumberOfSamplesPerCu)
    "A partition has less than the minimum amount of samples!"
  return partitionSize

/-- `CU::canUseISP`. -/
def canUseISP (width height maxTrSize : ℕ) : Bool :=
  let notEnoughSamplesToSplit : Bool := floorLog2 width + floorLog2 height ≤ floorLog2 MIN_TB_SIZEY <<< 1
  let cuSizeLargerThanMaxTrSize : Bool := width > maxTrSize ∨ height > maxTrSize
  !(notEnoughSamplesToSplit || cuSizeLargerThanMaxTrSize)

namespace PartitionerImpl

/-- Luma of sub-partition `i`: each begins where the one before it ends. -/
def ispBlock (splitType : PartSplit) (splitDimensionSize i : ℕ) (blkY : CompArea) : CompArea :=
  if splitType = .tu1dHorzSplit then
    { blkY with y := blkY.y + (i * splitDimensionSize : ℕ), height := splitDimensionSize }
  else { blkY with x := blkY.x + (i * splitDimensionSize : ℕ), width := splitDimensionSize }

/-- Only luma is partitioned; chroma goes with the last sub-partition, unless it has a tree of its own. -/
def getTUIntraSubPartitions (tuArea : UnitArea) (cs : CodingStructure) (splitType : PartSplit) :
    Checked (List UnitArea) := do
  let splitDimensionSize ← getISPSplitDim tuArea.Y.width tuArea.Y.height splitType
  let side := if splitType = .tu1dHorzSplit then tuArea.Y.height else tuArea.Y.width
  let nPartitions := side >>> floorLog2 splitDimensionSize
  check (splitDimensionSize < 1) "the split causes the block to be smaller than the minimal TU size"
  let partitionsWithoutChroma := if tuArea.chromaFormat = .chroma400 then 0
    else if cs.isDualITree then nPartitions else nPartitions - 1
  return (List.range nPartitions).map fun i =>
    { tuArea with
      Y := ispBlock splitType splitDimensionSize i tuArea.Y
      chroma := if i < partitionsWithoutChroma then tuArea.chroma.map fun _ => default else tuArea.chroma }

end PartitionerImpl

namespace TransformCU

/-- The tree is cut by a `TUIntraSubPartitioner`. -/
def usesIsp (cu : TransformCU) : Bool := cu.ispMode ≠ .notIntraSubpartitions && cu.chType = .luma

/-- `ispType`, with which `transform_tree` is called. -/
def ispType (cu : TransformCU) : PartSplit :=
  if cu.usesIsp then
    if cu.ispMode = .horIntraSubpartitions then .tu1dHorzSplit else .tu1dVertSplit
  else .tuNoIsp

/-- `subTuIdx`, with which `transform_tree` is called; `none` stands for -1. -/
def subTuIdx (cu : TransformCU) : Option ℕ := if cu.usesIsp then some 0 else none

end TransformCU

namespace TuPart
variable (cs : CodingStructure) (cu : TransformCU) (part : TuPart)

/-- `canSplit` of the partitioner in use. Splits of the coding tree are not asked for. -/
def canSplit (split : PartSplit) : Checked Bool :=
  let area := part.currArea.Y
  if cu.usesIsp then
    match split with
    | .tu1dHorzSplit => .ok (area.height = cu.area.Y.height)
    | .tu1dVertSplit => .ok (area.width = cu.area.Y.width)
    | .tuMaxTrSplit => .ok false
    | _ => .error "Unknown 1-D split mode"
  else if split = .tuMaxTrSplit then .ok (area.width > cs.maxTbSize || area.height > cs.maxTbSize)
  else if split.isSbt then .ok (part.currTrDepth = 0)
  else .error "Unknown split mode"

/-- The parts that `splitCurrArea` of the partitioner in use makes. -/
def splitCurrArea (split : PartSplit) : Checked (List UnitArea) :=
  if split = .tuMaxTrSplit then PartitionerImpl.getMaxTuTiling part.currArea cs
  else if cu.usesIsp then
    if split = .tu1dHorzSplit ∨ split = .tu1dVertSplit then
      PartitionerImpl.getTUIntraSubPartitions part.currArea cs split
    else .error "Unknown ISP split mode"
  else if split.isSbt then .ok (PartitionerImpl.getSbtTuTiling part.currArea split)
  else .error "Unknown split mode"

/-- `cu.sbtInfo && partitioner.canSplit( PartSplit( cu.getSbtTuSplit() ), cs )` -/
def canSplitSbt : Checked Bool :=
  match cu.sbtInfo with
  | none => .ok false
  | some sbtInfo => part.canSplit cs cu sbtInfo.getSbtTuSplit

/-- The split that is made once it is known that there is one. -/
def split : Checked (List UnitArea) := do
  if ← part.canSplit cs cu .tuMaxTrSplit then part.splitCurrArea cs cu .tuMaxTrSplit
  else if cu.ispMode ≠ .notIntraSubpartitions then part.splitCurrArea cs cu cu.ispType
  else match cu.sbtInfo with
    | none => .error "Implicit TU split not available"
    | some sbtInfo =>
      if ← part.canSplit cs cu sbtInfo.getSbtTuSplit then part.splitCurrArea cs cu sbtInfo.getSbtTuSplit
      else .error "Implicit TU split not available"

/-- The partitioner on each part of a split, in turn. -/
def parts (areas : List UnitArea) : List TuPart := areas.mapIdx fun i area => ⟨area, part.currTrDepth + 1, i⟩

/-- The unit that is added for a part, before its flags are read. -/
def newUnit : TransformUnit where
  area := cs.getArea part.currArea cu.chType
  depth := part.currTrDepth
  cbf := fun _ => 0
  -- `checkTuNoResidual`
  noResidual := cu.sbtInfo.any fun sbtInfo => if sbtInfo.pos1 then part.currPartIdx = 0 else part.currPartIdx = 1

end TuPart

/-! ## The coded-block flags -/

/-- `DeriveCtx::CtxQtCbf`. -/
def CtxQtCbf (compID : ComponentID) (prevCbf : Bool) (ispIdx : Bool) : ℕ :=
  if ispIdx && compID.toChannelType = .luma then 2 + prevCbf.toNat
  else if compID = .Cr then prevCbf.toNat
  else 0

namespace TransformCU
variable (cu : TransformCU)

def isIntra : Bool := cu.predMode = .intra

def hasIsp : Bool := cu.ispMode ≠ .notIntraSubpartitions

/-- The context of `cbf_comp`. -/
def cbfCtx (compID : ComponentID) (prevCbf useISP : Bool) : Bins.CtxId :=
  let bdpcm := if compID = .Y then cu.bdpcmMode else cu.bdpcmModeChroma
  ⟨.QtCbf compID.idx,
    if bdpcm then (if compID = .Cr then 2 else 1)
    else CtxQtCbf compID prevCbf (useISP && compID.toChannelType = .luma)⟩

/-- The flags of chroma are coded with this part. -/
def codesChroma (cs : CodingStructure) (part : TuPart) : Bool :=
  let area := part.currArea
  let chromaCbfISP := area.Cb.valid && cu.hasIsp
  area.Cb.valid && (!cs.isDualITree || cu.chType = .chroma) && (!cu.hasIsp || chromaCbfISP)

def lumaCbfIsInferredACT (trDepth : ℕ) (sigChroma : Bool) : Bool :=
  cu.colorTransform && cu.isIntra && trDepth = 0 && !sigChroma

/-- How many sub-partitions the coding unit has. -/
def nTus (tu : TransformUnit) : ℕ :=
  if cu.ispMode = .horIntraSubpartitions then cu.area.Y.height >>> floorLog2 tu.area.Y.height
  else cu.area.Y.width >>> floorLog2 tu.area.Y.width

/-- `lastCbfIsInferred` and `previousCbf`, from what the earlier units have. -/
def inferLumaCbf (tu : TransformUnit) (subTuCounter : Option ℕ) (lumaCbfIsInferredACT rootCbfSoFar prevTuCbf : Bool) :
    Bool × Bool :=
  if cu.hasIsp then
    let lastCbfIsInferred := if subTuCounter = some (cu.nTus tu - 1) && !rootCbfSoFar then true
      else lumaCbfIsInferredACT
    (lastCbfIsInferred, if lastCbfIsInferred then false else prevTuCbf)
  else (lumaCbfIsInferredACT, false)

end TransformCU

end ECM.CommonLib
