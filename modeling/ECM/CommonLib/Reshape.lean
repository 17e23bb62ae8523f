import ECM.CommonLib.AlfParameters
import ECM.CommonLib.Slice

/-! # Luma mapping tables

`constructReshaper` makes the tables of luma mapping with chroma scaling: sixteen bins of
samples of equal length, each of which is mapped onto its number of code words. -/

namespace ECM.CommonLib.Lmcs
open Lib.Loop Alf WeightPrediction

def FP_PREC : ℕ := 11

def CSCALE_FP_PREC : ℕ := 11

/-- An `int` that becomes a `Pel`, which has 16 bits. -/
def toPel (v : ℤ) : ℤ := Int.bmod v (2 ^ 16)

/-- An `int` that becomes a `uint16_t`. -/
def toU16 (v : ℤ) : ℕ := (v % 2 ^ 16).toNat

def divisionByZero : String := "division by zero"

/-- `a / b` of two `int`. -/
def divide (a b : ℤ) : Checked ℤ := if b = 0 then .error divisionByZero else .ok (a.tdiv b)

/-- What `constructReshaper` reads of a `SliceReshapeInfo`. -/
structure SliceReshapeInfo where
  reshaperModelMinBinIdx : ℕ
  reshaperModelMaxBinIdx : ℕ
  reshaperModelBinCWDelta : List ℤ
  chrResScalingOffset : ℤ
  length_delta : reshaperModelBinCWDelta.length = PIC_CODE_CW_BINS

def getReshaperAPSInfo (aps : LmcsAps) : SliceReshapeInfo where
  reshaperModelMinBinIdx := aps.reshaperModelMinBinIdx
  reshaperModelMaxBinIdx := aps.reshaperModelMaxBinIdx
  reshaperModelBinCWDelta := tab PIC_CODE_CW_BINS aps.reshaperModelBinCWDelta
  chrResScalingOffset := aps.chrResScalingOffset
  length_delta := length_tab _ _

/-- The tables of a `Reshape`. -/
structure Reshape where
  m_sliceReshapeInfo : SliceReshapeInfo
  m_invLUT : List ℤ
  m_fwdLUT : List ℤ
  m_chromaAdjHelpLUT : List ℤ
  m_binCW : List ℕ
  m_initCW : ℕ
  m_reshapePivot : List ℤ
  m_inputPivot : List ℤ
  m_fwdScaleCoef : List ℤ
  m_invScaleCoef : List ℤ
  m_lumaBD : ℕ
  m_reshapeLUTSize : ℕ

/-- A `Reshape` whose vectors are empty. -/
def Reshape.new (info : SliceReshapeInfo) : Reshape := ⟨info, [], [], [], [], 0, [], [], [], [], 0, 0⟩

/-- `if (xs.empty()) xs.resize( n, a )`. -/
def resizeEmpty {α : Type} (xs : List α) (n : ℕ) (a : α) : List α := if xs.isEmpty then resize xs n a else xs

def createDec (bitDepth : ℕ) (r : Reshape) : Reshape :=
  let m_reshapeLUTSize := 2 ^ bitDepth
  { r with
    m_lumaBD := bitDepth
    m_reshapeLUTSize
    m_initCW := toU16 (m_reshapeLUTSize / PIC_CODE_CW_BINS : ℕ)
    m_fwdLUT := resizeEmpty r.m_fwdLUT m_reshapeLUTSize 0
    m_invLUT := resizeEmpty r.m_invLUT m_reshapeLUTSize 0
    m_binCW := resizeEmpty r.m_binCW PIC_CODE_CW_BINS 0
    m_inputPivot := resizeEmpty r.m_inputPivot (PIC_CODE_CW_BINS + 1) 0
    m_fwdScaleCoef := resizeEmpty r.m_fwdScaleCoef PIC_CODE_CW_BINS (2 ^ FP_PREC)
    m_invScaleCoef := resizeEmpty r.m_invScaleCoef PIC_CODE_CW_BINS (2 ^ FP_PREC)
    m_reshapePivot := resizeEmpty r.m_reshapePivot (PIC_CODE_CW_BINS + 1) 0
    m_chromaAdjHelpLUT := resizeEmpty r.m_chromaAdjHelpLUT PIC_CODE_CW_BINS (2 ^ CSCALE_FP_PREC) }

/-! ## Inverse lookup -/

/-- The rounds of `getPWLIdxInv` from `idxS` on, `n` of which are left. -/
def scanBins (m_reshapePivot : List ℤ) (lumaVal : ℤ) : (n idxS : ℕ) → Checked ℕ
  | 0, idxS => .ok idxS
  | n + 1, idxS => do
    let pivot ← readAt m_reshapePivot (idxS + 1)
    if lumaVal < pivot then .ok idxS else scanBins m_reshapePivot lumaVal n (idxS + 1)

def getPWLIdxInv (r : Reshape) (lumaVal : ℤ) : Checked ℕ := do
  let info := r.m_sliceReshapeInfo
  let idxS ← index (toI32 info.reshaperModelMinBinIdx)
  let idxS ← scanBins r.m_reshapePivot lumaVal (info.reshaperModelMaxBinIdx + 1 - idxS) idxS
  return min idxS (PIC_CODE_CW_BINS - 1)

/-! ## Construction -/

/-- The code words of the bins. The second loop runs over an `int` that starts at the last bin and one,
which may wrap. -/
def setBinCW (info : SliceReshapeInfo) (m_initCW : ℕ) (m_binCW : List ℕ) : Checked (List ℕ) := do
  let m_binCW ← loop (fun i m_binCW => writeAt m_binCW i 0) info.reshaperModelMinBinIdx m_binCW
  let first := toI32 (u32 (info.reshaperModelMaxBinIdx + 1))
  let m_binCW ← loop (fun k m_binCW => do
      let i ← index (first + k)
      writeAt m_binCW i 0) (PIC_CODE_CW_BINS - first).toNat m_binCW
  loop (fun k m_binCW => do
      let i ← index (toI32 (info.reshaperModelMinBinIdx + k))
      let delta ← readAt info.reshaperModelBinCWDelta i
      writeAt m_binCW i (toU16 (delta + m_initCW)))
    (info.reshaperModelMaxBinIdx + 1 - info.reshaperModelMinBinIdx) m_binCW

/-- The scales of a bin from its values to its samples, and those of chroma. -/
def setInvScale (m_initCW : ℕ) (chrResScalingOffset : ℤ) (binCW i : ℕ) (m_invScaleCoef m_chromaAdjHelpLUT : List ℤ) :
    Checked (List ℤ × List ℤ) := do
  if binCW = 0 then
    let m_invScaleCoef ← writeAt m_invScaleCoef i 0
    let m_chromaAdjHelpLUT ← writeAt m_chromaAdjHelpLUT i (2 ^ CSCALE_FP_PREC)
    return (m_invScaleCoef, m_chromaAdjHelpLUT)
  else
    let invScale ← divide (m_initCW * 2 ^ FP_PREC) binCW
    let m_invScaleCoef ← writeAt m_invScaleCoef i invScale
    let chromaAdj ← divide (m_initCW * 2 ^ FP_PREC) (binCW + chrResScalingOffset)
    let m_chromaAdjHelpLUT ← writeAt m_chromaAdjHelpLUT i chromaAdj
    return (m_invScaleCoef, m_chromaAdjHelpLUT)

def setBin (pwlFwdBinLen i : ℕ) (r : Reshape) : Checked Reshape := do
  let binCW ← readAt r.m_binCW i
  let reshapePivot ← readAt r.m_reshapePivot i
  let m_reshapePivot ← writeAt r.m_reshapePivot (i + 1) (toPel (reshapePivot + binCW))
  let inputPivot ← readAt r.m_inputPivot i
  let m_inputPivot ← writeAt r.m_inputPivot (i + 1) (toPel (inputPivot + r.m_initCW))
  let fwdScale : ℤ := (binCW * 2 ^ FP_PREC + 2 ^ (pwlFwdBinLen.log2 - 1)) >>> pwlFwdBinLen.log2
  let m_fwdScaleCoef ← writeAt r.m_fwdScaleCoef i fwdScale
  let (m_invScaleCoef, m_chromaAdjHelpLUT) ← setInvScale r.m_initCW
    r.m_sliceReshapeInfo.chrResScalingOffset binCW i r.m_invScaleCoef r.m_chromaAdjHelpLUT
  return { r with m_reshapePivot, m_inputPivot, m_fwdScaleCoef, m_invScaleCoef, m_chromaAdjHelpLUT }

/-- `to + ((coef * (lumaSample - from) + (1 << (FP_PREC - 1))) >> FP_PREC)`. -/
def scaled (coef pivot lumaSample inputPivot : ℤ) : ℤ :=
  i32 (pivot + i32 (coef * (lumaSample - inputPivot) + 2 ^ (FP_PREC - 1)) >>> FP_PREC)

def setSample (lumaSample : ℕ) (r : Reshape) : Checked Reshape := do
  let maxVal := toPel (2 ^ r.m_lumaBD - 1)
  let idxY ← divide lumaSample r.m_initCW
  let idxY ← index idxY
  let reshapePivot ← readAt r.m_reshapePivot idxY
  let fwdScale ← readAt r.m_fwdScaleCoef idxY
  let inputPivot ← readAt r.m_inputPivot idxY
  let tempVal := scaled fwdScale reshapePivot lumaSample inputPivot
  let m_fwdLUT ← writeAt r.m_fwdLUT lumaSample (Clip3 0 maxVal (toPel tempVal))
  let idxYInv ← getPWLIdxInv r lumaSample
  let inputPivot ← readAt r.m_inputPivot idxYInv
  let invScale ← readAt r.m_invScaleCoef idxYInv
  let reshapePivot ← readAt r.m_reshapePivot idxYInv
  let invSample := scaled invScale inputPivot lumaSample reshapePivot
  let m_invLUT ← writeAt r.m_invLUT lumaSample (Clip3 0 maxVal (toPel invSample))
  return { r with m_fwdLUT, m_invLUT }

def constructReshaper (r : Reshape) : Checked Reshape := do
  let pwlFwdBinLen := r.m_reshapeLUTSize / PIC_CODE_CW_BINS
  let m_binCW ← setBinCW r.m_sliceReshapeInfo r.m_initCW r.m_binCW
  let r ← loop (setBin pwlFwdBinLen) PIC_CODE_CW_BINS { r with m_binCW }
  loop setSample r.m_reshapeLUTSize r

end ECM.CommonLib.Lmcs
