import ECM.Cabac.RemAbs
import ECM.CommonLib.ContextModelling
import ECM.CommonLib.DepQuant

/-! # Transform coefficients of the decoder

`CABACReader::residual_coding_subblock`: the absolute levels of a sub-block in up to
three passes, and then the signs. Levels stay below `2 ^ 18`, far from where an `int` wraps. -/

namespace ECM.DecoderLib.CABACReader
open CommonLib CommonLib.Bins ECM.Cabac.RemAbs ECM.DepQuant Lib.Codec

/-- What the passes over a sub-block keep. `sigBlkPos` holds the positions of the
significant coefficients so far. -/
structure Subblock where
  cctx : CoeffCodingContext
  coeff : ℕ → ℤ
  state : ℕ
  sigBlkPos : List ℕ
  firstNZPos : ℤ
  lastNZPos : ℤ

namespace Subblock

def numNonZero (s : Subblock) : ℕ := s.sigBlkPos.length

/-- `coeff[blkPos]` becomes `level`. -/
def setCoeff (s : Subblock) (scanPos : ℕ) (level : ℤ) : Subblock :=
  { s with coeff := fun pos => if pos = s.cctx.blockPos scanPos then level else s.coeff pos }

/-- One more significant coefficient. -/
def addSig (s : Subblock) (scanPos : ℕ) : Subblock :=
  { s with
    sigBlkPos := s.sigBlkPos ++ [s.cctx.blockPos scanPos]
    firstNZPos := scanPos
    lastNZPos := max s.lastNZPos scanPos }

def countBins (s : Subblock) (n : ℤ) : Subblock :=
  { s with cctx := { s.cctx with regBinLimit := s.cctx.regBinLimit - n } }

end Subblock

/-! ## Absolute levels -/

/-- `sig_coeff_flag`, which is not sent where it can be inferred. -/
def sigFlag (s : Subblock) (inferSigPos : ℤ) (scanPos : ℕ) : BinGet (Bool × Subblock) :=
  if s.numNonZero = 0 ∧ scanPos = inferSigPos then
    return (true, if scanPos ≠ s.cctx.scanPosLast then
      { s with cctx := (s.cctx.sigCtxIdAbs scanPos s.coeff s.state).2 } else s)
  else do
    let sigFlag ← decodeBin (s.cctx.sigCtxIdAbs scanPos s.coeff s.state).1
    return (sigFlag, { s with cctx := (s.cctx.sigCtxIdAbs scanPos s.coeff s.state).2 }.countBins 1)

/-- The flags above a level of one. -/
def levelFlags (s : Subblock) (scanPos : ℕ) : BinGet Subblock := do
  let ctxOff := s.cctx.ctxOffsetAbs
  let s := s.addSig scanPos
  let gt1Flag ← decodeBin (s.cctx.greater1CtxIdAbs ctxOff)
  if gt1Flag then
    let parFlag ← decodeBin (s.cctx.parityCtxIdAbs ctxOff)
    let gt2Flag ← decodeBin (s.cctx.greater2CtxIdAbs ctxOff)
    return (s.setCoeff scanPos (s.coeff (s.cctx.blockPos scanPos) +
      (1 + parFlag.toNat + 1 + gt2Flag.toNat <<< 1))).countBins 3
  else return (s.setCoeff scanPos (s.coeff (s.cctx.blockPos scanPos) + 1)).countBins 1

def nextState (s : Subblock) (stateTransTable : ℕ) (level : ℤ) : Subblock :=
  { s with state := transition stateTransTable s.state level }

/-- The first pass, over `left` positions more; it ends when there are not enough bins with
contexts left, and returns how many positions are still to be coded then. -/
def contextPass (stateTransTable : ℕ) (inferSigPos : ℤ) : (left : ℕ) → Subblock → BinGet (ℕ × Subblock)
  | 0, s => pure (0, s)
  | left + 1, s =>
    if s.cctx.regBinLimit ≥ 4 then do
      let scanPos := s.cctx.minSubPos + left
      let (sigFlag, s) ← sigFlag s inferSigPos scanPos
      let s ← (if sigFlag then levelFlags s scanPos else pure s)
      contextPass stateTransTable inferSigPos left
        (nextState s stateTransTable (s.coeff (s.cctx.blockPos scanPos)))
    else pure (left + 1, s)

def remainder (s : Subblock) (scanPos : ℕ) : BinGet Subblock := do
  let ricePar := g_auiGoRiceParsCoeff.getD (s.cctx.templateAbsSum scanPos s.coeff 4) 0
  let tcoeff := s.coeff (s.cctx.blockPos scanPos)
  if tcoeff ≥ 4 then
    let rem ← decodeRemAbsEP ricePar COEF_REMAIN_BIN_REDUCTION s.cctx.maxLog2TrDynamicRange
    return s.setCoeff scanPos (tcoeff + rem <<< 1)
  else return s

/-- The second pass, over the `n` positions above the first `skip`. -/
def remainderPass (skip : ℕ) : (n : ℕ) → Subblock → BinGet Subblock
  | 0, s => pure s
  | n + 1, s => do
    let s ← remainder s (s.cctx.minSubPos + (skip + n))
    remainderPass skip n s

/-- The level that a remainder stands for: `pos0` is that of a zero. -/
def levelOf (rem pos0 : ℕ) : ℕ := if rem = pos0 then 0 else if rem < pos0 then rem + 1 else rem

def setLevel (s : Subblock) (stateTransTable scanPos tcoeff : ℕ) : Subblock :=
  if tcoeff ≠ 0 then ((nextState s stateTransTable tcoeff).addSig scanPos).setCoeff scanPos tcoeff
  else nextState s stateTransTable tcoeff

def bypassLevel (s : Subblock) (stateTransTable scanPos : ℕ) : BinGet Subblock := do
  let rice := g_auiGoRiceParsCoeff.getD (s.cctx.templateAbsSum scanPos s.coeff 0) 0
  let pos0 := g_auiGoRicePosCoeff0 s.state rice
  let rem ← decodeRemAbsEP rice COEF_REMAIN_BIN_REDUCTION s.cctx.maxLog2TrDynamicRange
  return setLevel s stateTransTable scanPos (levelOf rem pos0)

/-- The pass over what is left without contexts. -/
def bypassPass (stateTransTable : ℕ) : (left : ℕ) → Subblock → BinGet Subblock
  | 0, s => pure s
  | left + 1, s => do
    let s ← bypassLevel s stateTransTable (s.cctx.minSubPos + left)
    bypassPass stateTransTable left s

def firstSigPos (cctx : CoeffCodingContext) : ℕ := if cctx.isLast then cctx.scanPosLast else cctx.maxSubPos

def inferSigPos (cctx : CoeffCodingContext) : ℤ :=
  if firstSigPos cctx ≠ cctx.scanPosLast then if cctx.isNotFirst then cctx.minSubPos else -1
  else firstSigPos cctx

/-- All absolute levels of a sub-block. -/
def absLevels (cctx : CoeffCodingContext) (coeff : ℕ → ℤ) (stateTransTable state : ℕ) : BinGet Subblock := do
  let count := firstSigPos cctx + 1 - cctx.minSubPos
  let (left, s) ← contextPass stateTransTable (inferSigPos cctx) count ⟨cctx, coeff, state, [], firstSigPos cctx, -1⟩
  let s ← remainderPass left (count - left) s
  bypassPass stateTransTable left s

/-! ## Signs -/

/-- `check_coeff_conformance( cctx, coeff )` -/
def conforming (cctx : CoeffCodingContext) (coeff : ℤ) : Checked Unit :=
  check (coeff < cctx.minCoeff ∨ coeff > cctx.maxCoeff) "TransCoeffLevel outside allowable range"

/-- The signs of the word `signPattern`, from its highest bit on. -/
def setSigns (cctx : CoeffCodingContext) : (sigBlkPos : List ℕ) → (coeff : ℕ → ℤ) → (signPattern : ℕ) →
    (sumAbs : ℤ) → Checked ((ℕ → ℤ) × ℤ)
  | [], coeff, _, sumAbs => .ok (coeff, sumAbs)
  | blkPos :: sigBlkPos, coeff, signPattern, sumAbs => do
    let absCoeff := coeff blkPos
    let level := if signPattern.testBit 31 then -absCoeff else absCoeff
    conforming cctx level
    setSigns cctx sigBlkPos (fun pos => if pos = blkPos then level else coeff pos) (u32 (signPattern <<< 1))
      (sumAbs + absCoeff)

def SIGN_PRED_HIDDEN : ℤ := 3

/-- The sign that is not sent follows from the sum of the levels. -/
def setHiddenSign (cctx : CoeffCodingContext) (blkPos : ℕ) (coeff sign : ℕ → ℤ) (sumAbs : ℤ) :
    Checked ((ℕ → ℤ) × (ℕ → ℤ)) := do
  let absCoeff := coeff blkPos
  let level := if (sumAbs + absCoeff) % 2 ≠ 0 then -absCoeff else absCoeff
  conforming cctx level
  return (fun pos => if pos = blkPos then level else coeff pos,
    fun pos => if pos = blkPos then SIGN_PRED_HIDDEN else sign pos)

def numSigns (s : Subblock) : ℕ :=
  if s.cctx.hideSign s.firstNZPos s.lastNZPos then s.numNonZero - 1 else s.numNonZero

/-- The signs that are sent, and the sum of their levels. -/
def sentSigns (s : Subblock) : BinGet ((ℕ → ℤ) × ℤ) :=
  if s.cctx.signPredQualified then pure (s.coeff, 0)
  else do
    let signPattern ← decodeBinsEP (numSigns s)
    liftM (setSigns s.cctx (s.sigBlkPos.take (numSigns s)) s.coeff (u32 (signPattern <<< (32 - numSigns s))) 0)

/-- The coefficients and their signs, once the absolute levels are known. -/
def signs (s : Subblock) (sign : ℕ → ℤ) : BinGet ((ℕ → ℤ) × (ℕ → ℤ)) := do
  let (coeff, sumAbs) ← sentSigns s
  match s.sigBlkPos.drop (numSigns s) with
  | [] => return (coeff, sign)
  | blkPos :: _ => liftM (setHiddenSign s.cctx blkPos coeff sign sumAbs)

/-! ## The sub-block -/

structure SubblockResult where
  cctx : CoeffCodingContext
  coeff : ℕ → ℤ
  sign : ℕ → ℤ
  state : ℕ

def residual_coding_subblock (cctx : CoeffCodingContext) (coeff sign : ℕ → ℤ) (stateTransTable state : ℕ) :
    BinGet SubblockResult := do
  let sigGroup ← (if cctx.isLast ∨ cctx.minSubPos = 0 then pure true else decodeBin cctx.sigGroupCtxId)
  if sigGroup then
    let s ← absLevels cctx.setSigGroup coeff stateTransTable state
    let (coeff, sign) ← signs s sign
    return ⟨s.cctx, coeff, sign, s.state⟩
  else return ⟨cctx, coeff, sign, state⟩

end ECM.DecoderLib.CABACReader
