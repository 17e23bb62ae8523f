import ECM.CommonLib.Palette
import ECM.EncoderLib.CABACWriter

/-! # Writing palette coding units -/

namespace ECM.EncoderLib.CABACWriter
open CommonLib CommonLib.Bins CommonLib.Palette Lib.Codec Lib.Loop

/-! ## Quantization parameters -/

/-- `DQp`, brought into its range. -/
def wrapDQp (qpBdOffsetY : ℕ) (qp predQP : ℤ) : ℤ :=
  (qp - predQP + (MAX_QP + 1) + ((MAX_QP + 1) / 2 : ℕ) + qpBdOffsetY + (qpBdOffsetY / 2 : ℕ)).tmod
    ((MAX_QP + 1) + qpBdOffsetY) - ((MAX_QP + 1) / 2 : ℕ) - (qpBdOffsetY / 2 : ℕ)

def cu_qp_delta (qpBdOffsetY : ℕ) (predQP qp : ℤ) : BinPut Unit := do
  let DQp := wrapDQp qpBdOffsetY qp predQP
  let absDQP := DQp.natAbs
  let unaryDQP := min absDQP CU_DQP_TU_CMAX
  unary_max_symbol unaryDQP ⟨.DeltaQP, 0⟩ ⟨.DeltaQP, 1⟩ CU_DQP_TU_CMAX
  (if absDQP ≥ CU_DQP_TU_CMAX then exp_golomb_eqprob (absDQP - CU_DQP_TU_CMAX) CU_DQP_EG_k
    else pure () : BinPut Unit)
  if absDQP > 0 then encodeBinEP (DQp < 0) else pure ()

def cu_chroma_qp_offset (chromaQpOffsetListLen qpAdj : ℕ) : BinPut Unit :=
  if qpAdj = 0 then encodeBin false ⟨.ChromaQpAdjFlag, 0⟩
  else do
    encodeBin true ⟨.ChromaQpAdjFlag, 0⟩
    if chromaQpOffsetListLen > 1 then
      unary_max_symbol (qpAdj - 1) ⟨.ChromaQpAdjIdc, 0⟩ ⟨.ChromaQpAdjIdc, 0⟩ (chromaQpOffsetListLen - 1)
    else pure ()

/-! ## Palette prediction -/

/-- -1 if no entry below `n` is reused. -/
def lastPredIdx (reuseflag : ℕ → Bool) : (n : ℕ) → ℤ
  | 0 => -1
  | n + 1 => if reuseflag n then n else lastPredIdx reuseflag n

/-- The runs before the reused entries, `left` entries from `idx` on. -/
def predRuns (reuseflag : ℕ → Bool) : (left idx run : ℕ) → BinPut Unit
  | 0, _, _ => pure ()
  | left + 1, idx, run =>
    if reuseflag idx then do
      exp_golomb_eqprob (if run ≠ 0 then run + 1 else run) 0
      predRuns reuseflag left (idx + 1) 0
    else predRuns reuseflag left (idx + 1) (run + 1)

def xEncodePLTPredIndicator (cu : PaletteCU) (maxPLTSize : ℕ) : BinPut Unit := do
  let lastPredIdx := lastPredIdx cu.reuseflag cu.lastPLTSize
  let numPLTPredicted := numReused cu.reuseflag cu.lastPLTSize
  predRuns cu.reuseflag (lastPredIdx + 1).toNat 0 0
  if numPLTPredicted < maxPLTSize ∧ lastPredIdx + 1 < cu.lastPLTSize ∨ numPLTPredicted = 0 then
    exp_golomb_eqprob 1 0
  else pure ()

/-! ## Index map -/

section IndexMap
variable (ctx : PaletteContext) (cu : PaletteCU)

/-- Whether the run goes on. -/
def identityFlag (curPos : ℕ) : Bool :=
  let pos := ctx.scan cu.useRotation curPos
  let posprev := ctx.scanPrev cu.useRotation curPos
  ¬(cu.runType pos ≠ cu.runType posprev ∨
    cu.runType pos = .PLT_RUN_INDEX ∧ cu.curPLTIdx pos ≠ cu.curPLTIdx posprev)

def runTypeFlag (curPos : ℕ) : BinPut Unit := do
  let pos := ctx.scan cu.useRotation curPos
  let posprev := ctx.scanPrev cu.useRotation curPos
  if pos.firstLine cu.useRotation then
    (check (cu.runType pos ≠ .PLT_RUN_INDEX) "runType.at(posx, posy) == PLT_RUN_INDEX" : Checked Unit)
  else if curPos ≠ 0 ∧ cu.runType posprev = .PLT_RUN_COPY then
    (check (cu.runType pos ≠ .PLT_RUN_INDEX) "runType.at(posx, posy) == PLT_RUN_INDEX" : Checked Unit)
  else encodeBin (cu.runType pos = .PLT_RUN_COPY) ⟨.RunTypeFlag, 0⟩

/-- The copy flag, from the second position on. -/
def runCopyFlag (minSubPos curPos : ℕ) (st : RunState) : BinPut RunState :=
  if curPos > 0 then do
    encodeBin (identityFlag ctx cu curPos) (copyFlagCtx st.prevRunType (curPos - st.prevRunPos - 1))
    return { st with
      runCopyFlag := Function.update st.runCopyFlag (curPos - minSubPos) (identityFlag ctx cu curPos).toNat }
  else pure st

/-- One position of the run coding. -/
def runPosition (minSubPos curPos : ℕ) (st : RunState) : BinPut RunState := do
  let st ← runCopyFlag ctx cu minSubPos curPos st
  if ¬identityFlag ctx cu curPos ∨ curPos = 0 then do
    runTypeFlag ctx cu curPos
    return { st with prevRunPos := curPos, prevRunType := cu.runType (ctx.scan cu.useRotation curPos) }
  else return st

/-- An index, where that of an escape is the last one. -/
def indexLevel (maxSymbol : ℕ) (pos : ScanElement) : ℕ :=
  if cu.curPLTIdx pos = cu.curPLTSize then maxSymbol - 1 else cu.curPLTIdx pos

/-- `curLevel` and `maxSymbol` without the index that the neighbour excludes. -/
def removeRedundancy (idx maxSymbol curLevel : ℕ) : Checked (ℕ × ℕ) :=
  if idx ≠ 0 then do
    let pos := ctx.scan cu.useRotation idx
    let prevpos := ctx.scan cu.useRotation (idx - 1)
    let refpos := if cu.runType prevpos = .PLT_RUN_INDEX then prevpos else pos.above cu.useRotation
    check (cu.runType prevpos ≠ .PLT_RUN_INDEX ∧ prevpos.firstLine cu.useRotation) "prevposx > 0, prevposy > 0"
    let refLevel := indexLevel cu maxSymbol refpos
    check (refLevel = curLevel) "refLevel != curLevel"
    return (if curLevel > refLevel then curLevel - 1 else curLevel, maxSymbol - 1)
  else pure (curLevel, maxSymbol)

def writePLTIndex (idx maxSymbol : ℕ) : BinPut Unit := do
  let (curLevel, maxSymbol) ← removeRedundancy ctx cu idx maxSymbol
    (indexLevel cu maxSymbol (ctx.scan cu.useRotation idx))
  check (¬maxSymbol > 0) "maxSymbol > 0"
  check (¬maxSymbol > curLevel) "maxSymbol > curLevel"
  if maxSymbol > 1 then xWriteTruncBinCode curLevel maxSymbol else pure ()

/-- The index of a position where a run of indices begins. -/
def indexPosition (minSubPos curPos : ℕ) (st : RunState) : BinPut Unit :=
  if st.runCopyFlag (curPos - minSubPos) = 0 ∧
      cu.runType (ctx.scan cu.useRotation curPos) = .PLT_RUN_INDEX then
    writePLTIndex ctx cu curPos cu.indexMaxSize
  else pure ()

/-- The escape values of a position for one component. -/
def escapePosition (compID : ComponentID) (curPos : ℕ) : BinPut Unit := do
  let pos := ctx.scan cu.useRotation curPos
  let scaleX := getChannelTypeScaleX .chroma ctx.chromaFormatIdc
  let scaleY := getChannelTypeScaleY .chroma ctx.chromaFormatIdc
  if cu.curPLTIdx pos = cu.curPLTSize then do
    (if compID = .Y ∨ ctx.compBegin ≠ .Y then exp_golomb_eqprob (cu.escapeValue compID pos) 5
      else pure () : BinPut Unit)
    if ctx.compBegin = .Y ∧ compID ≠ .Y ∧ pos.y % 2 ^ scaleY = 0 ∧ pos.x % 2 ^ scaleX = 0 then
      exp_golomb_eqprob (cu.escapeValue compID ⟨pos.x >>> scaleX, pos.y >>> scaleY⟩) 5
    else pure ()
  else pure ()

/-- The runs and the indices of a group. -/
def runsAndIndices (minSubPos maxSubPos : ℕ) (st : RunState) : BinPut RunState :=
  if cu.indexMaxSize > 1 then do
    let st ← loop (fun i st => runPosition ctx cu minSubPos (minSubPos + i) st) (maxSubPos - minSubPos) st
    forRange minSubPos maxSubPos fun curPos => indexPosition ctx cu minSubPos curPos st
    return st
  else pure st

def cuPaletteSubblockInfo (subSetId : ℕ) (st : RunState) : BinPut RunState := do
  let minSubPos := subSetId <<< LOG2_PALETTE_CG_SIZE
  let maxSubPos := min (minSubPos + (1 <<< LOG2_PALETTE_CG_SIZE)) ctx.total
  let st ← runsAndIndices ctx cu minSubPos maxSubPos { st with runCopyFlag := initRunCopyFlag minSubPos }
  ctx.comps.forM fun compID => forRange minSubPos maxSubPos fun curPos => escapePosition ctx cu compID curPos
  return st

end IndexMap

/-! ## The unit -/

def codeQpDelta (ctx : PaletteContext) (cu : PaletteCU) (cuCtx : CUCtx) : BinPut CUCtx :=
  if cu.useEscape ∧ ctx.useDQP ∧ ¬cuCtx.isDQPCoded ∧ (¬ctx.isDualITree ∨ ctx.chType = .luma) then do
    cu_qp_delta ctx.qpBDOffset cuCtx.qp cu.qp
    return { cuCtx with qp := cu.qp, isDQPCoded := true }
  else pure cuCtx

def codeChromaQpOffset (ctx : PaletteContext) (cu : PaletteCU) (cuCtx : CUCtx) : BinPut CUCtx :=
  if cu.useEscape ∧ ctx.useChromaQpAdj ∧ ¬cuCtx.isChromaQpAdjCoded ∧
      (¬ctx.isDualITree ∨ ctx.chType = .chroma) then do
    cu_chroma_qp_offset ctx.chromaQpOffsetListLen cu.chromaQpAdj
    return { cuCtx with isChromaQpAdjCoded := true }
  else pure cuCtx

/-- The new entries of the palette. -/
def newEntries (ctx : PaletteContext) (cu : PaletteCU) : BinPut Unit :=
  ctx.comps.forM fun compID =>
    forRange cu.reusePLTSize cu.curPLTSize fun idx =>
      encodeBinsEP (cu.curPLT compID idx) (ctx.bitDepths compID.toChannelType)

def codeScanRotationModeFlag (cu : PaletteCU) : BinPut Unit := do
  if cu.indexMaxSize > 1 then encodeBin cu.useRotation ⟨.RotationFlag, 0⟩
  else (check cu.useRotation "!cu.useRotation[compBegin]" : Checked Unit)

/-- Also returns what becomes of `cuCtx`. -/
def cu_palette_info (ctx : PaletteContext) (cu : PaletteCU) (cuCtx : CUCtx) : BinPut CUCtx := do
  (if cu.lastPLTSize ≠ 0 then xEncodePLTPredIndicator cu ctx.maxPltSize else pure () : BinPut Unit)
  let reusedPLTnum := numReused cu.reuseflag cu.lastPLTSize
  (if reusedPLTnum < ctx.maxPltSize then exp_golomb_eqprob (cu.curPLTSize - reusedPLTnum) 0
    else pure () : BinPut Unit)
  newEntries ctx cu
  (if cu.curPLTSize > 0 then encodeBinEP cu.useEscape else pure () : BinPut Unit)
  codeScanRotationModeFlag cu
  let cuCtx ← codeQpDelta ctx cu cuCtx
  let cuCtx ← codeChromaQpOffset ctx cu cuCtx
  let _ ← loop (cuPaletteSubblockInfo ctx cu) (((ctx.total - 1) >>> LOG2_PALETTE_CG_SIZE) + 1)
    ⟨0, .PLT_RUN_INDEX, fun _ => Palette.MAX_INT⟩
  check (cu.curPLTSize > ctx.maxPltSize) " Current palette size is larger than maximum palette size"
  return cuCtx

end ECM.EncoderLib.CABACWriter
