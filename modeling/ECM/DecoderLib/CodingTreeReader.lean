import ECM.CommonLib.CodingUnits

/-! # Reading the coding tree of a CTU

`coding_tree` reads a split of the current area and goes on with its parts, or
adds a coding unit. In the dual tree of a large CTU it is given a second
partitioner for chroma: luma and chroma units of each part are then read in
turn, and the list of units is re-linked so that all luma units come first. The
binary decoder with everything else the units are parsed into is a state of any
type. -/

namespace ECM.DecoderLib.CodingTreeReader
open CommonLib

def MAX_INTRA_SIZE : ℕ := 128

/-- How `coding_tree` ends early: by a `CHECK` or at a null pointer. The source
has no bound on its recursion and its loops; the walks here have one. -/
inductive TreeFault where
  | check (msg : String)
  | nullPointer
  | unending
deriving DecidableEq

abbrev Tree := Except TreeFault

def lift {α : Type} (x : Checked α) : Tree α := x.mapError .check

/-- The bins of a split, each with contexts of its own. -/
inductive SplitBin where
  | splitFlag
  | splitQtFlag
  | splitHvFlag
  | split12Flag (isVer : Bool)
deriving DecidableEq

/-- What the coding tree is read with. `maxSize` is the largest size at which
luma and chroma share a tree of their own, the minimum of `MAX_TB_SIZEY` and
`MAX_INTRA_SIZE`; `decodeBin` derives the context from the neighbours. -/
structure TreeReader (σ : Type) where
  cs : CodingStructure
  chromaFormat : ChromaFormat
  maxSize : ℕ
  decodeBin : Partitioner → SplitBin → σ → Bool × σ
  codingUnit : Partitioner → σ → Checked σ

structure TreeState (σ : Type) where
  bins : σ
  units : CodingUnits

variable {σ : Type}

/-- The binary or ternary split, once it is neither none nor a quad split. -/
def splitBtt (decodeBin : SplitBin → σ → Bool × σ) (f : SplitFlags) (s : σ) : PartSplit × σ :=
  let canHor := f.canBh || f.canTh
  let isVer := f.canBv || f.canTv
  let (isVer, s) := if isVer && canHor then decodeBin .splitHvFlag s else (isVer, s)
  let can14 := if isVer then f.canTv else f.canTh
  let is12 := if isVer then f.canBv else f.canBh
  let (is12, s) := if is12 && can14 then decodeBin (.split12Flag isVer) s else (is12, s)
  (if isVer && is12 then .cuVertSplit else if isVer && !is12 then .cuTriVSplit
    else if !isVer && is12 then .cuHorzSplit else .cuTriHSplit, s)

def splitCuMode (decodeBin : SplitBin → σ → Bool × σ) (f : SplitFlags) (s : σ) : PartSplit × σ :=
  let canBtt := f.canBh || f.canBv || f.canTh || f.canTv
  let isSplit := canBtt || f.canQt
  let (isSplit, s) := if f.canNo && isSplit then decodeBin .splitFlag s else (isSplit, s)
  if !isSplit then (.cuDontSplit, s)
  else
    let (isQt, s) := if f.canQt && canBtt then decodeBin .splitQtFlag s else (f.canQt, s)
    if isQt then (.cuQuadSplit, s) else splitBtt decodeBin f s

namespace TreeReader
variable (r : TreeReader σ)

/-- `split_cu_mode` and the `CHECK` after it. -/
def readSplit (p : Partitioner) (s : TreeState σ) : Tree (PartSplit × Partitioner × TreeState σ) := do
  let (implicitSplit, p) := p.getImplicitSplit r.cs
  let (splitMode, bins) := splitCuMode (r.decodeBin p) (p.splitFlags r.cs implicitSplit) s.bins
  let (ok, p) ← lift (p.canSplit r.cs splitMode)
  lift (check (!ok) "Got an invalid split!")
  return (splitMode, p, { s with bins })

/-- The unit of the current area. -/
def codeUnit (p : Partitioner) (s : TreeState σ) : Tree (TreeState σ) := do
  let units ← lift (s.units.addCU (r.cs.getArea p.currArea p.chType) p.chType)
  let bins ← lift (r.codingUnit p s.bins)
  return { bins, units }

/-- The current part begins in the picture. -/
def begins (p : Partitioner) : Bool :=
  ((r.cs.area r.chromaFormat).blockOf p.chType).contains (p.currArea.blockOf p.chType).pos

/-- A part is visited if it begins in the picture. -/
def visitPart (visit : Partitioner → TreeState σ → Tree (Partitioner × TreeState σ)) (p : Partitioner)
    (s : TreeState σ) : Tree (Partitioner × TreeState σ) :=
  if r.begins p then visit p s else .ok (p, s)

/-- `do { } while( partitioner.nextPart( cs ) )` over `n` parts. -/
def partsLoop (visit : Partitioner → TreeState σ → Tree (Partitioner × TreeState σ)) :
    ℕ → Partitioner → TreeState σ → Tree (Partitioner × TreeState σ)
  | 0, _, _ => .error .unending
  | n + 1, p, s => do
    let (p, s) ← r.visitPart visit p s
    let (more, p) ← lift (p.nextPart false)
    if more then partsLoop visit n p s else return (p, s)

/-- The parts of a split that was decided on. -/
def splitParts (visit : Partitioner → TreeState σ → Tree (Partitioner × TreeState σ)) (splitMode : PartSplit)
    (p : Partitioner) (s : TreeState σ) : Tree (Partitioner × TreeState σ) := do
  let p ← lift (p.splitCurrAreaNDebug r.cs splitMode)
  let (p, s) ← r.partsLoop visit p.back.parts.length p s
  let p ← lift p.exitCurrSplit
  return (p, s)

/-- `coding_tree` without a chroma partitioner, at most `depth` splits deep. -/
def codingTree : ℕ → Partitioner → TreeState σ → Tree (Partitioner × TreeState σ)
  | 0, _, _ => .error .unending
  | depth + 1, p, s => do
    let (splitMode, p, s) ← r.readSplit p s
    if splitMode ≠ .cuDontSplit then r.splitParts (codingTree depth) splitMode p s
    else do
      let s ← r.codeUnit p s
      return (p, s)

/-- The area is larger than luma and chroma may share. -/
def large (p : Partitioner) : Bool := p.currArea.Y.width > r.maxSize || p.currArea.Y.height > r.maxSize

/-- A large part is visited by both partitioners if it begins in the picture. -/
def visitParts
    (visitBoth : Partitioner → Partitioner → TreeState σ → Tree (Partitioner × Partitioner × TreeState σ))
    (p pC : Partitioner) (s : TreeState σ) : Tree (Partitioner × Partitioner × TreeState σ) :=
  if r.begins p then visitBoth p pC s else .ok (p, pC, s)

/-- The loop over the parts of both partitioners. -/
def jointLoop
    (visitBoth : Partitioner → Partitioner → TreeState σ → Tree (Partitioner × Partitioner × TreeState σ))
    (visit : Partitioner → TreeState σ → Tree (Partitioner × TreeState σ)) :
    ℕ → Partitioner → Partitioner → TreeState σ → Tree (Partitioner × Partitioner × TreeState σ)
  | 0, _, _, _ => .error .unending
  | n + 1, p, pC, s =>
    if r.large p then do
      let (p, pC, s) ← r.visitParts visitBoth p pC s
      let (lumaContinue, p) ← lift (p.nextPart false)
      let (chromaContinue, pC) ← lift (pC.nextPart false)
      lift (check (lumaContinue ≠ chromaContinue) "luma chroma partition should be matched")
      if lumaContinue then jointLoop visitBoth visit n p pC s else return (p, pC, s)
    else do
      let (p, s) ← r.visitPart visit p s
      let (lumaContinue, p) ← lift (p.nextPart false)
      let (pC, s) ← r.visitPart visit pC s
      let (chromaContinue, pC) ← lift (pC.nextPart false)
      lift (check (lumaContinue ≠ chromaContinue) "luma chroma partition should be matched")
      if lumaContinue then jointLoop visitBoth visit n p pC s else return (p, pC, s)

/-! ## Re-linking -/

/-- `*p`. -/
def deref (u : CodingUnits) (a : ℕ) : Tree CodingUnit :=
  match u.cus[a]? with
  | some cu => .ok cu
  | none => .error .nullPointer

/-- `if( temp != nullptr ) temp->next = nextCu`. -/
def swapNext (u : CodingUnits) (temp : Option ℕ) (nextCu : ℕ) : CodingUnits :=
  match temp with
  | some a => u.setNext a (some nextCu)
  | none => u

/-- `while( currentCu->next != nullptr )`; it leaves the last luma unit before a
chroma unit. -/
def catLoop : ℕ → CodingUnits → ℕ → ChannelType → Option ℕ → Option ℕ → Tree (CodingUnits × Option ℕ)
  | 0, _, _, _, _, _ => .error .unending
  | n + 1, u, currentCu, currentChType, tempLastLumaCu, tempLastChromaCu =>
    match u.next currentCu with
    | none => .ok (u, tempLastLumaCu)
    | some nextCu => do
      let cu ← deref u nextCu
      if currentChType ≠ cu.chType ∧ currentChType = .luma then
        catLoop n (swapNext u tempLastChromaCu nextCu) nextCu cu.chType (some currentCu) tempLastChromaCu
      else if currentChType ≠ cu.chType ∧ currentChType = .chroma then
        catLoop n (swapNext u tempLastLumaCu nextCu) nextCu cu.chType tempLastLumaCu (some currentCu)
      else catLoop n u nextCu cu.chType tempLastLumaCu tempLastChromaCu

/-- The chroma units of the current area catenated behind its luma units. -/
def catChroma (p pC : Partitioner) (u : CodingUnits) : Tree CodingUnits := do
  let area := r.cs.area r.chromaFormat
  match u.getCU area p.currArea.lumaPos .luma with
  | none => .error .nullPointer
  | some currentCu =>
    let cu ← deref u currentCu
    let (u, tempLastLumaCu) ← catLoop u.cus.length u currentCu cu.chType none none
    let chromaFirstCu := u.getCU area pC.currArea.chromaPos .chroma
    match tempLastLumaCu with
    | none => .error .nullPointer
    | some a => return u.setNext a chromaFirstCu

/-- `coding_tree` with a chroma partitioner. -/
def codingTreeJoint :
    ℕ → Partitioner → Partitioner → TreeState σ → Tree (Partitioner × Partitioner × TreeState σ)
  | 0, _, _, _ => .error .unending
  | depth + 1, p, pC, s => do
    let (splitMode, p, s) ← r.readSplit p s
    if splitMode ≠ .cuDontSplit then
      if r.cs.isDualITree ∧ (p.currArea.Y.width ≥ r.maxSize ∨ p.currArea.Y.height ≥ r.maxSize) then do
        let p ← lift (p.splitCurrAreaNDebug r.cs .cuQuadSplit)
        let pC ← lift (pC.splitCurrAreaNDebug r.cs .cuQuadSplit)
        let (p, pC, s) ← r.jointLoop (codingTreeJoint depth) (r.codingTree depth) p.back.parts.length p pC s
        let p ← lift p.exitCurrSplit
        let pC ← lift pC.exitCurrSplit
        let units ← r.catChroma p pC s.units
        return (p, pC, { s with units })
      else do
        let (p, s) ← r.splitParts (r.codingTree depth) splitMode p s
        return (p, pC, s)
    else do
      let s ← r.codeUnit p s
      return (p, pC, s)

end TreeReader

end ECM.DecoderLib.CodingTreeReader
