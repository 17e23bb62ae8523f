import ECM.CommonLib.Bins
import ECM.CommonLib.Rom
import ECM.CommonLib.Unit
import Mathlib.Algebra.BigOperators.Group.List.Basic

/-! # Contexts of transform coefficients

`CoeffCodingContext`: where a sub-block is in its block, which contexts its bins have,
and what the levels around a coefficient add up to. -/

namespace ECM.CommonLib
open CommonLib.Bins CommonLib.Rom

def SBH_THRESHOLD : ℤ := 4
def COEF_REMAIN_BIN_REDUCTION : ℕ := 5
def SIGN_PRED_FREQ_RANGE : ℕ := 32

/-- `g_auiGoRiceParsCoeff[sumAll]` -/
def g_auiGoRiceParsCoeff : List ℕ :=
  [0, 0, 0, 0, 0, 0, 0, 1, 1, 1, 1, 1, 1, 1, 2, 2, 2, 2, 2, 2, 2, 2, 2, 2, 2, 2, 2, 2, 3, 3, 3, 3]

def g_auiGoRicePosCoeff0 (st ricePar : ℕ) : ℕ := (1 + (st &&& 1)) <<< ricePar

/-- An `m_chType` as an index. -/
def ChannelType.index : ChannelType → ℕ
  | .luma => 0
  | .chroma => 1

/-- The fields from `scanPosLast` on change during the coding of a block. -/
structure CoeffCodingContext where
  block : BlockSize
  chType : ChannelType
  signHiding : Bool
  maxLog2TrDynamicRange : ℕ
  bSignPredQualified : Bool
  scanPosLast : ℕ
  subSetId : ℕ
  sigCoeffGroupFlag : ℕ → Bool
  tmplCpSum1 : ℤ
  tmplCpDiag : ℤ
  regBinLimit : ℤ

namespace CoeffCodingContext

variable (cctx : CoeffCodingContext)

/-! ## Sub-blocks -/

def log2CGSize : ℕ := cctx.block.log2CGSize

def initSubblock (subSetId : ℕ) : CoeffCodingContext := { cctx with subSetId }

/-- `m_scanCG[m_subSetId]` -/
def subSetPos : ScanElement := scanUngrouped cctx.block.widthInGroups cctx.block.heightInGroups cctx.subSetId

def cgPosY : ℕ := cctx.subSetPos.idx / cctx.block.widthInGroups

def cgPosX : ℕ := cctx.subSetPos.idx - cctx.cgPosY * cctx.block.widthInGroups

def minSubPos : ℕ := cctx.subSetId <<< cctx.log2CGSize

def maxSubPos : ℕ := cctx.minSubPos + 1 <<< cctx.log2CGSize - 1

def isLast : Bool := cctx.scanPosLast >>> cctx.log2CGSize = cctx.subSetId

def isNotFirst : Bool := cctx.subSetId ≠ 0

def setSigGroup : CoeffCodingContext :=
  { cctx with sigCoeffGroupFlag := fun pos => if pos = cctx.subSetPos.idx then true else cctx.sigCoeffGroupFlag pos }

def sigGroupCtxId : CtxId :=
  let sigRight := decide (cctx.cgPosX + 1 < cctx.block.widthInGroups) && cctx.sigCoeffGroupFlag (cctx.subSetPos.idx + 1)
  let sigLower := decide (cctx.cgPosY + 1 < cctx.block.heightInGroups) &&
    cctx.sigCoeffGroupFlag (cctx.subSetPos.idx + cctx.block.widthInGroups)
  ⟨.SigCoeffGroup cctx.chType.index, (sigRight || sigLower).toNat⟩

def hideSign (posFirst posLast : ℤ) : Bool := cctx.signHiding && decide (posLast - posFirst ≥ SBH_THRESHOLD)

/-- Signs of the sub-block are left to sign prediction. -/
def signPredQualified : Bool :=
  cctx.bSignPredQualified && decide (cctx.cgPosX <<< cctx.block.log2CGWidth < SIGN_PRED_FREQ_RANGE) &&
    decide (cctx.cgPosY <<< cctx.block.log2CGHeight < SIGN_PRED_FREQ_RANGE) &&
    decide (cctx.block.width ≥ 4) && decide (cctx.block.height ≥ 4)

def minCoeff : ℤ := -2 ^ cctx.maxLog2TrDynamicRange

def maxCoeff : ℤ := 2 ^ cctx.maxLog2TrDynamicRange - 1

/-! ## Templates -/

def blockPos (scanPos : ℕ) : ℕ := (cctx.block.scanGrouped scanPos).idx

def posX (scanPos : ℕ) : ℕ := (cctx.block.scanGrouped scanPos).x

def posY (scanPos : ℕ) : ℕ := (cctx.block.scanGrouped scanPos).y

/-- The positions right of and below a position whose levels count for it. -/
def templatePos (scanPos : ℕ) : List ℕ :=
  let pData := cctx.posX scanPos + cctx.posY scanPos * cctx.block.width
  (if cctx.posX scanPos < cctx.block.width - 1 then
    [pData + 1] ++ (if cctx.posX scanPos < cctx.block.width - 2 then [pData + 2] else []) ++
      if cctx.posY scanPos < cctx.block.height - 1 then [pData + cctx.block.width + 1] else []
  else []) ++
  if cctx.posY scanPos < cctx.block.height - 1 then
    [pData + cctx.block.width] ++
      if cctx.posY scanPos < cctx.block.height - 2 then [pData + (cctx.block.width <<< 1)] else []
  else []

/-- The `UPDATE` of `sumAbs`. -/
def templateLevel (x : ℤ) : ℕ := min (4 + x.natAbs % 2) x.natAbs

/-- The context of `sig_coeff_flag`, and the template for the contexts after it. -/
def sigCtxIdAbs (scanPos : ℕ) (coeff : ℕ → ℤ) (state : ℕ) : CtxId × CoeffCodingContext :=
  let template := (cctx.templatePos scanPos).map coeff
  let diag := cctx.posX scanPos + cctx.posY scanPos
  let numPos := template.countP (· ≠ 0)
  let sumAbs := (template.map templateLevel).sum
  let ctxOfs := min ((sumAbs + 1) >>> 1) 3 + (if diag < 2 then 4 else 0) +
    if cctx.chType = .luma ∧ diag < 5 then 4 else 0
  (⟨.SigFlag ([cctx.chType.index, cctx.chType.index + 2, cctx.chType.index, cctx.chType.index + 4].getD (state &&& 3) 0),
    ctxOfs⟩, { cctx with tmplCpDiag := diag, tmplCpSum1 := sumAbs - numPos })

def ctxOffsetAbs : ℕ :=
  if cctx.tmplCpDiag ≠ -1 then
    (min cctx.tmplCpSum1 4 + 1).toNat +
      if cctx.tmplCpDiag = 0 then (if cctx.chType = .luma then 15 else 5)
      else if cctx.chType = .luma then
        (if cctx.tmplCpDiag < 3 then 10 else if cctx.tmplCpDiag < 10 then 5 else 0)
      else 0
  else 0

def parityCtxIdAbs (offset : ℕ) : CtxId := ⟨.ParFlag cctx.chType.index, offset⟩

def greater1CtxIdAbs (offset : ℕ) : CtxId := ⟨.GtxFlag (cctx.chType.index + 2), offset⟩

def greater2CtxIdAbs (offset : ℕ) : CtxId := ⟨.GtxFlag cctx.chType.index, offset⟩

def templateAbsSum (scanPos : ℕ) (coeff : ℕ → ℤ) (baseLevel : ℕ) : ℕ :=
  min (((cctx.templatePos scanPos).map fun pos => (coeff pos).natAbs).sum - 5 * baseLevel) 31

end CoeffCodingContext

end ECM.CommonLib

/-! # Sign bit hiding of the encoder

`xSignBitHidingHDQ` changes one level of a sub-block where the parity of the levels
does not agree with the sign to be hidden. -/

namespace ECM.CommonLib.Quant

/-- What the loops over a sub-block read. -/
structure CodingGroup where
  groupSize : ℕ
  /-- `cctx.blockPos( n + subPos )` -/
  blockPos : ℕ → ℕ
  pQCoef : ℕ → ℤ
  pCoef : ℕ → ℤ
  deltaU : ℕ → Int32

namespace CodingGroup

variable (g : CodingGroup)

def level (n : ℕ) : ℤ := g.pQCoef (g.blockPos n)

/-- The last position below `n` with a level, `-1` if there is none. -/
def lastNZBelow : (n : ℕ) → ℤ
  | 0 => -1
  | n + 1 => if g.level n ≠ 0 then n else lastNZBelow n

def lastNZPosInCG : ℤ := g.lastNZBelow g.groupSize

def firstNZPosInCG : ℕ := ((List.range g.groupSize).find? fun n => g.level n ≠ 0).getD g.groupSize

def absSum : ℤ :=
  ((List.range' g.firstNZPosInCG (g.lastNZPosInCG + 1 - g.firstNZPosInCG).toNat).map g.level).sum

def signbit : ℕ := if g.level g.firstNZPosInCG > 0 then 0 else 1

/-- `curCost` and `curChange` of a position; `curChange` keeps its value where the
position is ruled out. -/
def candidate (n : ℕ) (curChange : ℤ) : Int32 × ℤ :=
  let blkPos := g.blockPos n
  if g.pQCoef blkPos ≠ 0 then
    if g.deltaU blkPos > 0 then (-g.deltaU blkPos, 1)
    else if n = g.firstNZPosInCG ∧ (g.pQCoef blkPos).natAbs = 1 then (Int32.maxValue, curChange)
    else (g.deltaU blkPos, -1)
  else if n < g.firstNZPosInCG then
    let thisSignBit := if g.pCoef blkPos ≥ 0 then 0 else 1
    if thisSignBit ≠ g.signbit then (Int32.maxValue, curChange) else (-g.deltaU blkPos, 1)
  else (-g.deltaU blkPos, 1)

/-- The best position so far. -/
structure Search where
  curChange : ℤ
  minCostInc : Int32
  finalChange : ℤ
  minPos : ℤ

def Search.start : Search := ⟨0, Int32.maxValue, 0, -1⟩

def visit (n : ℕ) (s : Search) : Search :=
  let cur := g.candidate n s.curChange
  if cur.1 < s.minCostInc then ⟨cur.2, cur.1, cur.2, g.blockPos n⟩ else { s with curChange := cur.2 }

/-- The loop over the positions below `n`, from the last one down. -/
def search : (n : ℕ) → Search → Search
  | 0, s => s
  | n + 1, s => search n (g.visit n s)

/-- The level at `minPos` is changed. -/
def change (maxLog2TrDynamicRange : ℕ) (s : Search) : Option (ℕ → ℤ) :=
  if s.minPos < 0 then none
  else
    let minPos := s.minPos.toNat
    let entropyCodingMinimum : ℤ := -2 ^ maxLog2TrDynamicRange
    let entropyCodingMaximum : ℤ := 2 ^ maxLog2TrDynamicRange - 1
    let finalChange :=
      if g.pQCoef minPos = entropyCodingMaximum ∨ g.pQCoef minPos = entropyCodingMinimum then -1 else s.finalChange
    some (Function.update g.pQCoef minPos
      (if g.pCoef minPos ≥ 0 then g.pQCoef minPos + finalChange else g.pQCoef minPos - finalChange))

/-- The sub-block; `none` where an index is negative. -/
def hide (maxLog2TrDynamicRange : ℕ) (lastCG : ℤ) : Option (ℕ → ℤ) :=
  if g.lastNZPosInCG - g.firstNZPosInCG ≥ SBH_THRESHOLD then
    if (g.signbit : ℤ) ≠ g.absSum % 2 then
      g.change maxLog2TrDynamicRange
        (g.search (if lastCG = 1 then g.lastNZPosInCG + 1 else g.groupSize).toNat Search.start)
    else some g.pQCoef
  else some g.pQCoef

end CodingGroup

/-- `getMaxLog2TrDynamicRange` of the SPS, with which the levels are clipped. -/
def getMaxLog2TrDynamicRange (extendedPrecisionProcessingFlag : Bool) (bitDepth : ℕ) : ℕ :=
  if extendedPrecisionProcessingFlag then max 15 (bitDepth + 6) else 15

/-! ## Over the sub-blocks -/

structure TuLevels where
  pQCoef : ℕ → ℤ
  lastCG : ℤ

variable (cctx : CoeffCodingContext) (pCoef : ℕ → ℤ) (deltaU : ℕ → Int32) (maxLog2TrDynamicRange : ℕ)

def codingGroup (subSet : ℕ) (pQCoef : ℕ → ℤ) : CodingGroup where
  groupSize := 1 <<< cctx.log2CGSize
  blockPos n := cctx.blockPos (n + subSet <<< cctx.log2CGSize)
  pQCoef := pQCoef
  pCoef := pCoef
  deltaU := deltaU

def hideSubSet (subSet : ℕ) (s : TuLevels) : Option TuLevels :=
  let g := codingGroup cctx pCoef deltaU subSet s.pQCoef
  let lastCG := if g.lastNZPosInCG ≥ 0 ∧ s.lastCG = -1 then 1 else s.lastCG
  (g.hide maxLog2TrDynamicRange lastCG).map fun pQCoef => ⟨pQCoef, if lastCG = 1 then 0 else lastCG⟩

/-- The sub-blocks below `subSet`, from the last one down. -/
def hideSubSets : (subSet : ℕ) → TuLevels → Option TuLevels
  | 0, s => some s
  | subSet + 1, s => (hideSubSet cctx pCoef deltaU maxLog2TrDynamicRange subSet s).bind (hideSubSets subSet)

def xSignBitHidingHDQ (pQCoef : ℕ → ℤ) : Option (ℕ → ℤ) :=
  let lastSubSet := (cctx.block.width * cctx.block.height - 1) >>> cctx.log2CGSize
  (hideSubSets cctx pCoef deltaU maxLog2TrDynamicRange (lastSubSet + 1) ⟨pQCoef, -1⟩).map (·.pQCoef)

end ECM.CommonLib.Quant
