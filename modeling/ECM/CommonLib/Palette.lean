import ECM.CommonLib.Bins
import ECM.CommonLib.InLoopFilter

/-! # Palette coding units

The palette of a coding unit, its index map, and the traverse scan of the map. -/

namespace ECM.CommonLib.Palette
open CommonLib.Bins

/-! ## Traverse scan -/

inductive CoeffScanType where
  | SCAN_TRAV_HOR
  | SCAN_TRAV_VER
  deriving DecidableEq, Repr

/-- `x` is the column and `y` the line. -/
structure ScanElement where
  x : ℕ
  y : ℕ
  deriving DecidableEq, Repr

namespace ScanGenerator

/-- How `GetNextIndex` advances. -/
def advance (scanType : CoeffScanType) (blockWidth blockHeight : ℕ) (p : ScanElement) : ScanElement :=
  match scanType with
  | .SCAN_TRAV_HOR =>
    if p.y % 2 = 0 then
      if p.x = blockWidth - 1 then ⟨blockWidth - 1, p.y + 1⟩ else ⟨p.x + 1, p.y⟩
    else
      if p.x = 0 then ⟨0, p.y + 1⟩ else ⟨p.x - 1, p.y⟩
  | .SCAN_TRAV_VER =>
    if p.x % 2 = 0 then
      if p.y = blockHeight - 1 then ⟨p.x + 1, blockHeight - 1⟩ else ⟨p.x, p.y + 1⟩
    else
      if p.y = 0 then ⟨p.x + 1, 0⟩ else ⟨p.x, p.y - 1⟩

end ScanGenerator

/-- `g_scanOrder[SCAN_UNGROUPED][scanType]` for the block size. -/
def scanOrder (scanType : CoeffScanType) (blockWidth blockHeight : ℕ) : ℕ → ScanElement
  | 0 => ⟨0, 0⟩
  | n + 1 => ScanGenerator.advance scanType blockWidth blockHeight (scanOrder scanType blockWidth blockHeight n)

/-! ## Coding units -/

inductive PLTRunMode where
  | PLT_RUN_INDEX
  | PLT_RUN_COPY
  deriving DecidableEq, Repr

def LOG2_PALETTE_CG_SIZE : ℕ := 4
def RUN_IDX_THRE : ℕ := 4
def MAXPLTPREDSIZE : ℕ := 63
def MAXPLTSIZE : ℕ := 31
def MAXPLTSIZE_DUALTREE : ℕ := 15
def MAX_QP : ℕ := 63
def CU_DQP_TU_CMAX : ℕ := 5
def CU_DQP_EG_k : ℕ := 0
def MAX_INT : ℕ := 2147483647

/-- What is kept for the component `compBegin`; palettes and escape values for each component. -/
structure PaletteCU where
  lastPLTSize : ℕ
  reuseflag : ℕ → Bool
  reusePLTSize : ℕ
  curPLTSize : ℕ
  curPLT : ComponentID → ℕ → ℕ
  useEscape : Bool
  useRotation : Bool
  runType : ScanElement → PLTRunMode
  curPLTIdx : ScanElement → ℕ
  escapeValue : ComponentID → ScanElement → ℕ
  qp : ℤ
  chromaQpAdj : ℕ

/-- What the syntax of a unit depends on: its tree and size, the parameter sets, the slice
and the palette predictor. -/
structure PaletteContext where
  compBegin : ComponentID
  numComp : ℕ
  width : ℕ
  height : ℕ
  chType : ChannelType
  isDualITree : Bool
  chromaFormatIdc : ChromaFormat
  bitDepths : ChannelType → ℕ
  useDQP : Bool
  useChromaQpAdj : Bool
  chromaQpOffsetListLen : ℕ
  prevPLTSize : ℕ
  prevPLT : ComponentID → ℕ → ℕ
  width_pos : 0 < width
  height_pos : 0 < height
  bitDepth_le : ∀ channel, bitDepths channel ≤ 16
  prevPLTSize_le : prevPLTSize ≤ MAXPLTPREDSIZE

structure CUCtx where
  qp : ℤ
  isDQPCoded : Bool
  isChromaQpAdjCoded : Bool

namespace PaletteContext
variable (ctx : PaletteContext)

/-- From `compBegin`, `numComp` components. -/
def comps : List ComponentID := (ComponentID.all.drop ctx.compBegin.idx).take ctx.numComp

def maxPltSize : ℕ := if ctx.isDualITree then MAXPLTSIZE_DUALTREE else MAXPLTSIZE

def total : ℕ := ctx.height * ctx.width

def qpBDOffset : ℕ := 6 * (ctx.bitDepths .luma - 8)

/-- `m_scanOrder`. -/
def scan (useRotation : Bool) (idx : ℕ) : ScanElement :=
  scanOrder (if useRotation then .SCAN_TRAV_VER else .SCAN_TRAV_HOR) ctx.width ctx.height idx

/-- `posxprev` and `posyprev`. -/
def scanPrev (useRotation : Bool) (curPos : ℕ) : ScanElement :=
  if curPos = 0 then ⟨0, 0⟩ else ctx.scan useRotation (curPos - 1)

end PaletteContext

def PaletteCU.indexMaxSize (cu : PaletteCU) : ℕ := if cu.useEscape then cu.curPLTSize + 1 else cu.curPLTSize

/-- Where a copied index comes from. -/
def ScanElement.above (useRotation : Bool) (p : ScanElement) : ScanElement :=
  if useRotation then ⟨p.x - 1, p.y⟩ else ⟨p.x, p.y - 1⟩

/-- Whether nothing is above. -/
def ScanElement.firstLine (useRotation : Bool) (p : ScanElement) : Bool :=
  (p.y = 0 && !useRotation) || (p.x = 0 && useRotation)

/-! ## Contexts -/

def g_paletteRunTopLut : List ℕ := [0, 1, 1, 2, 2]
def g_paletteRunLeftLut : List ℕ := [0, 1, 2, 3, 4]

def CtxPltCopyFlag (prevRunType : PLTRunMode) (dist : ℕ) : ℕ :=
  let ucCtxLut := if prevRunType = .PLT_RUN_INDEX then g_paletteRunLeftLut else g_paletteRunTopLut
  if dist ≤ RUN_IDX_THRE then ucCtxLut.getD dist 0 else ucCtxLut.getD RUN_IDX_THRE 0

/-- The context of a copy flag. -/
def copyFlagCtx (prevRunType : PLTRunMode) (dist : ℕ) : CtxId :=
  ⟨if prevRunType = .PLT_RUN_INDEX then .IdxRunModel else .CopyRunModel, CtxPltCopyFlag prevRunType dist⟩

/-- The state of the runs; `runCopyFlag` is that of the current 16 positions. -/
structure RunState where
  prevRunPos : ℕ
  prevRunType : PLTRunMode
  runCopyFlag : ℕ → ℕ

/-- `runCopyFlag` at the first position of a group. -/
def initRunCopyFlag (minSubPos : ℕ) : ℕ → ℕ := fun i => if minSubPos = 0 ∧ i = 0 then 0 else MAX_INT

/-- The number of reuse flags below `n`. -/
def numReused (reuseflag : ℕ → Bool) : (n : ℕ) → ℕ
  | 0 => 0
  | n + 1 => numReused reuseflag n + (reuseflag n).toNat

end ECM.CommonLib.Palette

/-! # Updating the palette predictor

The entries of the old predictor that were not reused go behind the current palette. Arrays
are indexed by component, and sizes and flags by channel, for which the first component of
the tree stands. -/

namespace ECM.CommonLib.Palette

def MAXPLTPREDSIZE_DUALTREE : ℕ := 31

structure PLTBuf where
  curPLTSize : ℕ → ℕ
  curPLT : ℕ → ℕ → ℤ

namespace CodingStructure

/-- The local arrays of `reorderPrevPLT`. -/
structure Stuffing where
  stuffedPLT : ℕ → ℕ → ℤ
  tempCurPLTsize : ℕ → ℕ
  stuffPLTsize : ℕ → ℕ

/-- `comID`, by which sizes and flags are indexed. -/
def comID (jointPLT : Bool) (compBegin i : ℕ) : ℕ := if jointPLT then compBegin else if i > 0 then 1 else 0

def memcpy (dst src : ℕ → ℤ) (n : ℕ) : ℕ → ℤ := fun k => if k < n then src k else dst k

section
variable (prevPLT : PLTBuf) (curPLTSize : ℕ → ℕ) (curPLT : ℕ → ℕ → ℤ) (reuseflag : ℕ → ℕ → Bool)
  (compBegin numComp : ℕ) (jointPLT : Bool)

/-- The current palette of a component. -/
def copyCurPLT (s : Stuffing) (i : ℕ) : Stuffing where
  stuffedPLT := Function.update s.stuffedPLT i
    (memcpy (s.stuffedPLT i) (curPLT i) (curPLTSize (comID jointPLT compBegin i)))
  tempCurPLTsize := Function.update s.tempCurPLTsize (comID jointPLT compBegin i)
    (curPLTSize (comID jointPLT compBegin i))
  stuffPLTsize := Function.update s.stuffPLTsize i 0

/-- An entry of the old predictor, in luma or in both chroma components. -/
def stuffEntry (comID ch i : ℕ) (s : Stuffing) : Stuffing :=
  let pos := s.tempCurPLTsize comID + s.stuffPLTsize ch
  { s with
    stuffedPLT := if ch = 0 then Function.update s.stuffedPLT 0 (Function.update (s.stuffedPLT 0) pos (prevPLT.curPLT 0 i))
      else Function.update
        (Function.update s.stuffedPLT 1 (Function.update (s.stuffedPLT 1) pos (prevPLT.curPLT 1 i)))
        2 (Function.update (s.stuffedPLT 2) pos (prevPLT.curPLT 2 i))
    stuffPLTsize := Function.update s.stuffPLTsize ch (s.stuffPLTsize ch + 1) }

/-- The loop over the old predictor from the entry `i` on, which ends early at the greatest size. -/
def stuffEntries (maxPredPltSize comID ch : ℕ) : (rounds i : ℕ) → Stuffing → Stuffing
  | 0, _, s => s
  | rounds + 1, i, s =>
    if s.tempCurPLTsize comID + s.stuffPLTsize ch ≥ maxPredPltSize then s
    else
      stuffEntries maxPredPltSize comID ch rounds (i + 1)
        (if !reuseflag comID i then stuffEntry prevPLT comID ch i s else s)

/-- The loop over the components breaks behind the first of chroma. -/
def stuffChannel (maxPredPltSize : ℕ) (s : Stuffing) (ch : ℕ) : Stuffing :=
  if ch > 1 then s
  else
    stuffEntries prevPLT reuseflag maxPredPltSize (comID jointPLT compBegin ch) ch
      (prevPLT.curPLTSize (comID jointPLT compBegin ch)) 0 s

def storeComp (maxPredPltSize : ℕ) (s : Stuffing) (prevPLT : PLTBuf) (i : ℕ) : Checked PLTBuf := do
  let size := curPLTSize (comID jointPLT compBegin i) + s.stuffPLTsize (comID jointPLT compBegin i)
  check (size > maxPredPltSize) " Maximum palette predictor size exceed limit"
  return {
    curPLTSize := Function.update prevPLT.curPLTSize (comID jointPLT compBegin i) size
    curPLT := Function.update prevPLT.curPLT i (memcpy (prevPLT.curPLT i) (s.stuffedPLT i) size) }

/-- `uninit` is what the local arrays hold at first. -/
def reorderPrevPLT (uninit : Stuffing) : Checked PLTBuf := do
  let maxPredPltSize := if jointPLT then MAXPLTPREDSIZE else MAXPLTPREDSIZE_DUALTREE
  let comps := List.range' compBegin numComp
  let s := comps.foldl (copyCurPLT curPLTSize curPLT compBegin jointPLT) uninit
  let s := comps.foldl (stuffChannel prevPLT reuseflag compBegin jointPLT maxPredPltSize) s
  comps.foldlM (storeComp curPLTSize compBegin jointPLT maxPredPltSize s) prevPLT

end
end CodingStructure
end ECM.CommonLib.Palette
