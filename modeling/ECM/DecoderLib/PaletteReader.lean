import ECM.CommonLib.Palette
import ECM.DecoderLib.CABACReader

/-! # Reading palette coding units

`asserts` says whether the `assert`s of the reader are compiled in. -/

namespace ECM.DecoderLib.CABACReader
open CommonLib CommonLib.Bins CommonLib.Palette Lib.Codec Lib.Loop

/-! ## Quantization parameters -/

/-- `(int8_t) qpY`. -/
def toInt8 (qpY : ℤ) : ℤ := (qpY + 128) % 256 - 128

def qpDeltaSign (DQp : ℕ) : BinGet ℤ :=
  if DQp > 0 then do
    let negative ← decodeBinEP
    return if negative then -DQp else DQp
  else pure 0

def cu_qp_delta (qpBdOffsetY : ℕ) (predQP : ℤ) : BinGet ℤ := do
  let DQp ← unary_max_symbol ⟨.DeltaQP, 0⟩ ⟨.DeltaQP, 1⟩ CU_DQP_TU_CMAX
  let more ← (if DQp ≥ CU_DQP_TU_CMAX then exp_golomb_eqprob CU_DQP_EG_k else pure 0 : BinGet ℕ)
  let DQp ← qpDeltaSign (DQp + more)
  let qpY := if DQp ≠ 0 then
      (predQP + DQp + (MAX_QP + 1) + 2 * qpBdOffsetY).tmod ((MAX_QP + 1) + qpBdOffsetY) - qpBdOffsetY
    else predQP
  return toInt8 qpY

def cu_chroma_qp_offset (chromaQpOffsetListLen : ℕ) : BinGet ℕ := do
  let qpAdj ← decodeBin ⟨.ChromaQpAdjFlag, 0⟩
  if qpAdj ∧ chromaQpOffsetListLen > 1 then do
    let idc ← unary_max_symbol ⟨.ChromaQpAdjIdc, 0⟩ ⟨.ChromaQpAdjIdc, 0⟩ (chromaQpOffsetListLen - 1)
    return qpAdj.toNat + idc
  else return qpAdj.toNat

/-! ## Palette prediction -/

/-- The loop, at most `rounds` times round; `numPltPredicted` grows with each, and `idx`, which may wrap. -/
def predFlags (lastPLTSize maxPLTSize : ℕ) :
    (rounds idx numPltPredicted symbol : ℕ) → (reuseflag : ℕ → Bool) → BinGet (ℕ → Bool)
  | 0, _, _, _, reuseflag => pure reuseflag
  | rounds + 1, idx, numPltPredicted, symbol, reuseflag =>
    if idx < lastPLTSize ∧ numPltPredicted < maxPLTSize then do
      let symbol ← (if idx > 0 then exp_golomb_eqprob 0 else pure symbol : BinGet ℕ)
      if symbol = 1 then return reuseflag
      else
        let idx := if symbol ≠ 0 then u32 (idx + (symbol - 1)) else idx
        predFlags lastPLTSize maxPLTSize rounds (u32 (idx + 1)) (numPltPredicted + 1) symbol
          (Function.update reuseflag idx true)
    else pure reuseflag

def xDecodePLTPredIndicator (lastPLTSize maxPLTSize : ℕ) (reuseflag : ℕ → Bool) : BinGet (ℕ → Bool) := do
  let symbol ← exp_golomb_eqprob 0
  if symbol ≠ 1 then predFlags lastPLTSize maxPLTSize (maxPLTSize + 1) 0 0 symbol reuseflag
  else return reuseflag

/-- The reused entries below `n`, stored from index 0 on. -/
def reuseEntries (reuseflag : ℕ → Bool) (prevPLT curPLT : ℕ → ℕ) : (n : ℕ) → ℕ → ℕ
  | 0 => curPLT
  | n + 1 =>
    let curPLT := reuseEntries reuseflag prevPLT curPLT n
    if reuseflag n then Function.update curPLT (numReused reuseflag n) (prevPLT n) else curPLT

/-! ## Index map -/

section IndexMap
variable (ctx : PaletteContext)

/-- The run type of a position where a run begins. -/
def runTypeFlag (cu : PaletteCU) (curPos : ℕ) : BinGet PLTRunMode := do
  let pos := ctx.scan cu.useRotation curPos
  let posprev := ctx.scanPrev cu.useRotation curPos
  if pos.firstLine cu.useRotation then return .PLT_RUN_INDEX
  else if curPos ≠ 0 ∧ cu.runType posprev = .PLT_RUN_COPY then return .PLT_RUN_INDEX
  else do
    let copy ← decodeBin ⟨.RunTypeFlag, 0⟩
    return if copy then .PLT_RUN_COPY else .PLT_RUN_INDEX

/-- `identityFlag`, which is 1 at the first position. -/
def runCopyFlag (minSubPos curPos : ℕ) (st : RunState) : BinGet (Bool × RunState) :=
  if curPos > 0 then do
    let identityFlag ← decodeBin (copyFlagCtx st.prevRunType (curPos - st.prevRunPos - 1))
    return (identityFlag, { st with
      runCopyFlag := Function.update st.runCopyFlag (curPos - minSubPos) identityFlag.toNat })
  else pure (true, st)

/-- One position of the run coding. -/
def runPosition (minSubPos curPos : ℕ) (st : RunState) (cu : PaletteCU) : BinGet (RunState × PaletteCU) := do
  let pos := ctx.scan cu.useRotation curPos
  let (identityFlag, st) ← runCopyFlag minSubPos curPos st
  if identityFlag = false ∨ curPos = 0 then do
    let runType ← runTypeFlag ctx cu curPos
    return ({ st with prevRunPos := curPos, prevRunType := runType },
      { cu with runType := Function.update cu.runType pos runType })
  else
    return (st, { cu with
      runType := Function.update cu.runType pos (cu.runType (ctx.scanPrev cu.useRotation curPos)) })

/-- The reference of an index; `MAX_INT` at the first position. -/
def refLevel (cu : PaletteCU) (idx maxSymbol : ℕ) : Checked ℕ :=
  if idx ≠ 0 then do
    let pos := ctx.scan cu.useRotation idx
    let prevpos := ctx.scan cu.useRotation (idx - 1)
    let refpos := if cu.runType prevpos = .PLT_RUN_INDEX then prevpos else pos.above cu.useRotation
    return if cu.curPLTIdx refpos = cu.curPLTSize then maxSymbol - 1 else cu.curPLTIdx refpos
  else pure Palette.MAX_INT

/-- `assert(prevposx > 0)` or `assert(prevposy > 0)`, where the run before is a copy. -/
def assertPrevPos (asserts : Bool) (cu : PaletteCU) (idx : ℕ) : Checked Unit :=
  let prevpos := ctx.scan cu.useRotation (idx - 1)
  check (asserts ∧ idx ≠ 0 ∧ cu.runType prevpos ≠ .PLT_RUN_INDEX ∧ prevpos.firstLine cu.useRotation)
    "prevposx > 0, prevposy > 0"

def xAdjustPLTIndex (asserts : Bool) (cu : PaletteCU) (curLevel idx maxSymbol : ℕ) : Checked ℕ := do
  assertPrevPos ctx asserts cu idx
  let refLevel ← refLevel ctx cu idx maxSymbol
  return if curLevel ≥ refLevel then curLevel + 1 else curLevel

/-- The index of a position. -/
def indexPosition (asserts : Bool) (minSubPos curPos : ℕ) (st : RunState) (cu : PaletteCU) : BinGet PaletteCU := do
  let pos := ctx.scan cu.useRotation curPos
  let adjust := if curPos > 0 then 1 else 0
  if st.runCopyFlag (curPos - minSubPos) = 0 ∧ cu.runType pos = .PLT_RUN_INDEX then do
    let symbol ← xReadTruncBinCode (cu.indexMaxSize - adjust)
    let index ← xAdjustPLTIndex ctx asserts cu symbol curPos cu.indexMaxSize
    return { cu with curPLTIdx := Function.update cu.curPLTIdx pos index }
  else
    let refpos := if cu.runType pos = .PLT_RUN_INDEX then ctx.scanPrev cu.useRotation curPos
      else pos.above cu.useRotation
    return { cu with curPLTIdx := Function.update cu.curPLTIdx pos (cu.curPLTIdx refpos) }

/-- A position of a map with one index. -/
def singlePosition (minSubPos curPos : ℕ) (st : RunState) (cu : PaletteCU) : PaletteCU :=
  let pos := ctx.scan cu.useRotation curPos
  { cu with
    runType := Function.update cu.runType pos .PLT_RUN_INDEX
    curPLTIdx := Function.update cu.curPLTIdx pos
      (if st.runCopyFlag (curPos - minSubPos) = 0 then 0
        else cu.curPLTIdx (ctx.scanPrev cu.useRotation curPos)) }

/-- `escapeValue.at( pos ) = exp_golomb_eqprob( 5 )`. -/
def readEscape (asserts : Bool) (compID : ComponentID) (pos : ScanElement) (cu : PaletteCU) : BinGet PaletteCU := do
  let value ← exp_golomb_eqprob 5
  check (asserts ∧ ¬value < 1 <<< (ctx.bitDepths compID.toChannelType + 1)) "escapeValue out of range"
  return { cu with escapeValue :=
    Function.update cu.escapeValue compID (Function.update (cu.escapeValue compID) pos value) }

def escapePosition (asserts : Bool) (compID : ComponentID) (curPos : ℕ) (cu : PaletteCU) : BinGet PaletteCU := do
  let pos := ctx.scan cu.useRotation curPos
  let scaleX := getChannelTypeScaleX .chroma ctx.chromaFormatIdc
  let scaleY := getChannelTypeScaleY .chroma ctx.chromaFormatIdc
  if cu.curPLTIdx pos = cu.curPLTSize then do
    let cu ← (if compID = .Y ∨ ctx.compBegin ≠ .Y then readEscape ctx asserts compID pos cu
      else pure cu : BinGet PaletteCU)
    if ctx.compBegin = .Y ∧ compID ≠ .Y ∧ pos.y % 2 ^ scaleY = 0 ∧ pos.x % 2 ^ scaleX = 0 then
      readEscape ctx asserts compID ⟨pos.x >>> scaleX, pos.y >>> scaleY⟩ cu
    else return cu
  else return cu

/-- The runs and the indices of a group. -/
def runsAndIndices (asserts : Bool) (minSubPos maxSubPos : ℕ) (st : RunState) (cu : PaletteCU) :
    BinGet (RunState × PaletteCU) :=
  if cu.indexMaxSize > 1 then do
    let (st, cu) ← loop (fun i (p : RunState × PaletteCU) =>
      runPosition ctx minSubPos (minSubPos + i) p.1 p.2) (maxSubPos - minSubPos) (st, cu)
    let cu ← loop (fun i cu => indexPosition ctx asserts minSubPos (minSubPos + i) st cu)
      (maxSubPos - minSubPos) cu
    return (st, cu)
  else do
    let cu ← loop (fun i cu => pure (singlePosition ctx minSubPos (minSubPos + i) st cu))
      (maxSubPos - minSubPos) cu
    return (st, cu)

def cuPaletteSubblockInfo (asserts : Bool) (subSetId : ℕ) (p : RunState × PaletteCU) :
    BinGet (RunState × PaletteCU) := do
  let minSubPos := subSetId <<< LOG2_PALETTE_CG_SIZE
  let maxSubPos := min (minSubPos + (1 <<< LOG2_PALETTE_CG_SIZE)) ctx.total
  let (st, cu) ← runsAndIndices ctx asserts minSubPos maxSubPos
    { p.1 with runCopyFlag := initRunCopyFlag minSubPos } p.2
  let cu ← ctx.comps.foldlM (fun cu compID =>
    loop (fun i cu => escapePosition ctx asserts compID (minSubPos + i) cu) (maxSubPos - minSubPos) cu) cu
  return (st, cu)

end IndexMap

/-! ## The unit -/

def parseQpDelta (ctx : PaletteContext) (cu : PaletteCU) (cuCtx : CUCtx) : BinGet (PaletteCU × CUCtx) :=
  if cu.useEscape ∧ ctx.useDQP ∧ ¬cuCtx.isDQPCoded ∧ (¬ctx.isDualITree ∨ ctx.chType = .luma) then do
    let qp ← cu_qp_delta ctx.qpBDOffset cuCtx.qp
    return ({ cu with qp }, { cuCtx with qp, isDQPCoded := true })
  else pure (cu, cuCtx)

def parseChromaQpOffset (ctx : PaletteContext) (cu : PaletteCU) (cuCtx : CUCtx) : BinGet (PaletteCU × CUCtx) :=
  if cu.useEscape ∧ ctx.useChromaQpAdj ∧ ¬cuCtx.isChromaQpAdjCoded ∧
      (¬ctx.isDualITree ∨ ctx.chType = .chroma) then do
    let chromaQpAdj ← cu_chroma_qp_offset ctx.chromaQpOffsetListLen
    return ({ cu with chromaQpAdj }, { cuCtx with isChromaQpAdjCoded := true })
  else pure (cu, cuCtx)

/-- The entries from `curPLTidx` on, component by component. -/
def newEntries (ctx : PaletteContext) (curPLTidx curPLTSize : ℕ) (curPLT : ComponentID → ℕ → ℕ) :
    BinGet (ComponentID → ℕ → ℕ) :=
  ctx.comps.foldlM (fun curPLT compID =>
    loop (fun i curPLT => do
      let entry ← decodeBinsEP (ctx.bitDepths compID.toChannelType)
      return Function.update curPLT compID (Function.update (curPLT compID) (curPLTidx + i) entry))
      (curPLTSize - curPLTidx) curPLT) curPLT

def parseScanRotationModeFlag (cu : PaletteCU) : BinGet Bool :=
  if cu.indexMaxSize > 1 then decodeBin ⟨.RotationFlag, 0⟩ else pure false

/-- The palette: reuse flags, entries and size. -/
def parsePalette (ctx : PaletteContext) (cu : PaletteCU) : BinGet PaletteCU := do
  let lastPLTSize := ctx.prevPLTSize
  let reuseflag ← (if lastPLTSize ≠ 0 then xDecodePLTPredIndicator lastPLTSize ctx.maxPltSize cu.reuseflag
    else pure cu.reuseflag : BinGet (ℕ → Bool))
  let curPLTidx := numReused reuseflag lastPLTSize
  let curPLT := fun compID => if compID ∈ ctx.comps then
      reuseEntries reuseflag (ctx.prevPLT compID) (cu.curPLT compID) lastPLTSize
    else cu.curPLT compID
  let recievedPLTnum ← (if curPLTidx < ctx.maxPltSize then exp_golomb_eqprob 0 else pure 0 : BinGet ℕ)
  -- the size is an `uint8_t`
  let curPLTSize := (curPLTidx + recievedPLTnum) % 2 ^ 8
  let curPLT ← newEntries ctx curPLTidx curPLTSize curPLT
  return { cu with lastPLTSize, reuseflag, curPLTSize, curPLT }

/-- Also returns what becomes of `cuCtx`. -/
def cu_palette_info (ctx : PaletteContext) (asserts : Bool) (cu : PaletteCU) (cuCtx : CUCtx) :
    BinGet (PaletteCU × CUCtx) := do
  let cu ← parsePalette ctx cu
  let useEscape ← (if cu.curPLTSize > 0 then decodeBinEP else pure true : BinGet Bool)
  let cu := { cu with useEscape }
  let useRotation ← parseScanRotationModeFlag cu
  let cu := { cu with useRotation }
  let (cu, cuCtx) ← parseQpDelta ctx cu cuCtx
  let (cu, cuCtx) ← parseChromaQpOffset ctx cu cuCtx
  let (_, cu) ← loop (cuPaletteSubblockInfo ctx asserts) (((ctx.total - 1) >>> LOG2_PALETTE_CG_SIZE) + 1)
    (⟨0, .PLT_RUN_INDEX, fun _ => Palette.MAX_INT⟩, cu)
  check (cu.curPLTSize > ctx.maxPltSize) " Current palette size is larger than maximum palette size"
  return (cu, cuCtx)

end ECM.DecoderLib.CABACReader
