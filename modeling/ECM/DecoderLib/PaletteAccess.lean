import ECM.DecoderLib.PaletteReader
import ECM.Lib.Guarded

/-! # Reading palette coding units with every access checked

The reader with a check before each access: a reuse flag has to be that of an entry of the predictor, an
entry has to have its place in the palette, and a position of the index map has to lie in the block. -/

namespace ECM.DecoderLib.PaletteAccess
open CommonLib CommonLib.Bins CommonLib.Palette Lib.Codec Lib.Guarded Lib.Loop

def outside : String := "access outside of its array"

def access (p : Prop) [Decidable p] : BinGet Unit := allowed outside p

/-! ## Palette -/

def predFlags (lastPLTSize maxPLTSize : ℕ) :
    (rounds idx numPltPredicted symbol : ℕ) → (reuseflag : ℕ → Bool) → BinGet (ℕ → Bool)
  | 0, _, _, _, reuseflag => pure reuseflag
  | rounds + 1, idx, numPltPredicted, symbol, reuseflag =>
    if idx < lastPLTSize ∧ numPltPredicted < maxPLTSize then do
      let symbol ← (if idx > 0 then CABACReader.exp_golomb_eqprob 0 else pure symbol : BinGet ℕ)
      if symbol = 1 then return reuseflag
      else
        let idx := if symbol ≠ 0 then u32 (idx + (symbol - 1)) else idx
        access (idx < lastPLTSize)
        predFlags lastPLTSize maxPLTSize rounds (u32 (idx + 1)) (numPltPredicted + 1) symbol
          (Function.update reuseflag idx true)
    else pure reuseflag

def xDecodePLTPredIndicator (lastPLTSize maxPLTSize : ℕ) (reuseflag : ℕ → Bool) : BinGet (ℕ → Bool) := do
  let symbol ← CABACReader.exp_golomb_eqprob 0
  if symbol ≠ 1 then predFlags lastPLTSize maxPLTSize (maxPLTSize + 1) 0 0 symbol reuseflag
  else return reuseflag

section
variable (ctx : PaletteContext)

/-- The places that the reused entries are written to. -/
def reuseAccess (reuseflag : ℕ → Bool) (lastPLTSize : ℕ) : BinGet Unit :=
  access (∀ idx < lastPLTSize, reuseflag idx = true → ∀ _compID ∈ ctx.comps, numReused reuseflag idx < ctx.maxPltSize)

def newEntries (curPLTidx curPLTSize : ℕ) (curPLT : ComponentID → ℕ → ℕ) : BinGet (ComponentID → ℕ → ℕ) :=
  ctx.comps.foldlM (fun curPLT compID =>
    loop (fun i curPLT => do
      let entry ← decodeBinsEP (ctx.bitDepths compID.toChannelType)
      access (curPLTidx + i < ctx.maxPltSize)
      return Function.update curPLT compID (Function.update (curPLT compID) (curPLTidx + i) entry))
      (curPLTSize - curPLTidx) curPLT) curPLT

def parsePalette (cu : PaletteCU) : BinGet PaletteCU := do
  let lastPLTSize := ctx.prevPLTSize
  let reuseflag ← (if lastPLTSize ≠ 0 then xDecodePLTPredIndicator lastPLTSize ctx.maxPltSize cu.reuseflag
    else pure cu.reuseflag : BinGet (ℕ → Bool))
  let curPLTidx := numReused reuseflag lastPLTSize
  reuseAccess ctx reuseflag lastPLTSize
  let curPLT := fun compID => if compID ∈ ctx.comps then
      CABACReader.reuseEntries reuseflag (ctx.prevPLT compID) (cu.curPLT compID) lastPLTSize
    else cu.curPLT compID
  let recievedPLTnum ← (if curPLTidx < ctx.maxPltSize then CABACReader.exp_golomb_eqprob 0 else pure 0 : BinGet ℕ)
  let curPLTSize := (curPLTidx + recievedPLTnum) % 2 ^ 8
  let curPLT ← newEntries ctx curPLTidx curPLTSize curPLT
  return { cu with lastPLTSize, reuseflag, curPLTSize, curPLT }

/-! ## Index map -/

/-- A column and a line, which may be left of the block or above it. -/
abbrev Pos := ℤ × ℤ

def Inside (p : Pos) : Prop := (0 ≤ p.1 ∧ p.1 < ctx.width) ∧ 0 ≤ p.2 ∧ p.2 < ctx.height

instance (p : Pos) : Decidable (Inside ctx p) := inferInstanceAs (Decidable (_ ∧ _))

def posOf (p : ScanElement) : Pos := (p.x, p.y)

def posAbove (useRotation : Bool) (p : ScanElement) : Pos := if useRotation then (p.x - 1, p.y) else (p.x, p.y - 1)

/-- What the run coding accesses at a position, and the coding of a single index. -/
def runAccesses (cu : PaletteCU) (curPos : ℕ) : List Pos :=
  [posOf (ctx.scan cu.useRotation curPos), posOf (ctx.scanPrev cu.useRotation curPos)]

/-- What `xAdjustPLTIndex` accesses. -/
def adjustAccesses (cu : PaletteCU) (idx : ℕ) : List Pos :=
  let pos := ctx.scan cu.useRotation idx
  let prevpos := ctx.scan cu.useRotation (idx - 1)
  if idx ≠ 0 then
    [posOf prevpos, if cu.runType prevpos = .PLT_RUN_INDEX then posOf prevpos else posAbove cu.useRotation pos]
  else []

/-- What the index coding accesses. -/
def indexAccesses (minSubPos curPos : ℕ) (st : RunState) (cu : PaletteCU) : List Pos :=
  let pos := ctx.scan cu.useRotation curPos
  posOf pos ::
    if st.runCopyFlag (curPos - minSubPos) = 0 ∧ cu.runType pos = .PLT_RUN_INDEX then adjustAccesses ctx cu curPos
    else if cu.runType pos = .PLT_RUN_INDEX then [posOf (ctx.scanPrev cu.useRotation curPos)]
    else [posAbove cu.useRotation pos]

def insideAll (ps : List Pos) : BinGet Unit := access (∀ p ∈ ps, Inside ctx p)

def runsAndIndices (asserts : Bool) (minSubPos maxSubPos : ℕ) (st : RunState) (cu : PaletteCU) :
    BinGet (RunState × PaletteCU) :=
  if cu.indexMaxSize > 1 then do
    let (st, cu) ← loop (fun i (p : RunState × PaletteCU) => do
      insideAll ctx (runAccesses ctx p.2 (minSubPos + i))
      CABACReader.runPosition ctx minSubPos (minSubPos + i) p.1 p.2) (maxSubPos - minSubPos) (st, cu)
    let cu ← loop (fun i cu => do
      insideAll ctx (indexAccesses ctx minSubPos (minSubPos + i) st cu)
      CABACReader.indexPosition ctx asserts minSubPos (minSubPos + i) st cu)
      (maxSubPos - minSubPos) cu
    return (st, cu)
  else do
    let cu ← loop (fun i cu => do
      insideAll ctx (runAccesses ctx cu (minSubPos + i))
      pure (CABACReader.singlePosition ctx minSubPos (minSubPos + i) st cu))
      (maxSubPos - minSubPos) cu
    return (st, cu)

def cuPaletteSubblockInfo (asserts : Bool) (subSetId : ℕ) (p : RunState × PaletteCU) :
    BinGet (RunState × PaletteCU) := do
  let minSubPos := subSetId <<< LOG2_PALETTE_CG_SIZE
  let maxSubPos := min (minSubPos + (1 <<< LOG2_PALETTE_CG_SIZE)) ctx.total
  let (st, cu) ← runsAndIndices ctx asserts minSubPos maxSubPos
    { p.1 with runCopyFlag := initRunCopyFlag minSubPos } p.2
  let cu ← ctx.comps.foldlM (fun cu compID =>
    loop (fun i cu => do
      insideAll ctx [posOf (ctx.scan cu.useRotation (minSubPos + i))]
      CABACReader.escapePosition ctx asserts compID (minSubPos + i) cu) (maxSubPos - minSubPos) cu) cu
  return (st, cu)

/-! ## The unit -/

/-- What is read behind the palette. -/
def parseIndexMap (asserts : Bool) (cuCtx : CUCtx) (cu : PaletteCU) : BinGet (PaletteCU × CUCtx) := do
  let useEscape ← (if cu.curPLTSize > 0 then decodeBinEP else pure true : BinGet Bool)
  let cu := { cu with useEscape }
  let useRotation ← CABACReader.parseScanRotationModeFlag cu
  let cu := { cu with useRotation }
  let (cu, cuCtx) ← CABACReader.parseQpDelta ctx cu cuCtx
  let (cu, cuCtx) ← CABACReader.parseChromaQpOffset ctx cu cuCtx
  let (_, cu) ← loop (cuPaletteSubblockInfo ctx asserts) (((ctx.total - 1) >>> LOG2_PALETTE_CG_SIZE) + 1)
    (⟨0, .PLT_RUN_INDEX, fun _ => Palette.MAX_INT⟩, cu)
  check (cu.curPLTSize > ctx.maxPltSize) " Current palette size is larger than maximum palette size"
  return (cu, cuCtx)

def cu_palette_info (asserts : Bool) (cu : PaletteCU) (cuCtx : CUCtx) : BinGet (PaletteCU × CUCtx) := do
  let cu ← parsePalette ctx cu
  parseIndexMap ctx asserts cuCtx cu

end

end ECM.DecoderLib.PaletteAccess
