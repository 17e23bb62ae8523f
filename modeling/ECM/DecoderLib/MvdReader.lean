import ECM.Cabac.RemAbs
import ECM.CommonLib.PredictionUnit

/-! # Vector differences of the decoder

`CABACReader::mvd_coding`, `bvdCoding` for block vectors, and what is read of the differences of a
unit that is not merged: `prediction_unit` as far as they are concerned, their precision, and
`mvsd_data`. -/

namespace ECM.DecoderLib.CABACReader
open CommonLib CommonLib.Bins ECM.Cabac.RemAbs Lib.Codec

/-- What both functions check in the end. -/
def legalMv (horAbs verAbs : ℤ) (x : String) : Checked Mv := do
  check (¬Mv.Legal horAbs ∨ ¬Mv.Legal verAbs) x
  return ⟨horAbs, verAbs⟩

/-- `if (m_BinDecoder.decodeBinEP()) abs = -abs;` -/
def signBin (abs : ℤ) : BinGet ℤ := do
  let sign ← decodeBinEP
  return if sign then i32 (-abs) else abs

/-! ## Motion vector differences -/

/-- `abs_mvd_greater1_flag` -/
def mvdGreater1 (greater0 : Bool) : BinGet ℤ :=
  if greater0 then do
    let greater1 ← decodeBin ⟨.Mvd, 1⟩
    return 1 + greater1.toNat
  else pure 0

/-- `abs_mvd_minus2` and `mvd_sign_flag` -/
def mvdMinus2 (abs : ℤ) (codeSign : Bool) : BinGet ℤ :=
  if abs ≠ 0 then do
    let abs ← (if abs > 1 then do
      let remAbs ← decodeRemAbsEP 1 0 (MV_BITS - 1)
      return i32 (abs + remAbs)
    else pure abs)
    if codeSign then signBin abs else return abs
  else pure abs

def mvd_coding (codeSign : Bool) : BinGet Mv := do
  let horGreater0 ← decodeBin ⟨.Mvd, 0⟩
  let verGreater0 ← decodeBin ⟨.Mvd, 0⟩
  let horAbs ← mvdGreater1 horGreater0
  let verAbs ← mvdGreater1 verGreater0
  let horAbs ← mvdMinus2 horAbs codeSign
  let verAbs ← mvdMinus2 verAbs codeSign
  legalMv horAbs verAbs "Illegal MVD value"

/-! ## Block vector differences -/

/-- The loop of `xReadBvdContext`, at most `rounds` times round: the symbol so far, and `param`. -/
def bvdPrefix (ctxT offset : ℕ) : (rounds symbol param uiIdx : ℕ) → BinGet (ℕ × ℕ)
  | 0, _, _, _ => throw "shift out of range"
  | rounds + 1, symbol, param, uiIdx => do
    let bit ← (if uiIdx ≥ ctxT then decodeBinEP else decodeBin ⟨.Bvd, offset + uiIdx + 1⟩)
    let symbol := u32 (symbol + u32 (bit.toNat <<< param))
    if bit then bvdPrefix ctxT offset rounds symbol (param + 1) (uiIdx + 1) else return (symbol, param)

def xReadBvdContext (ctxT offset param : ℕ) : BinGet ℕ := do
  let (symbol, param) ← bvdPrefix ctxT offset 32 0 param 0
  if param ≠ 0 then
    let bit ← decodeBinsEP param
    return u32 (symbol + bit)
  else return symbol

def bvdComponent (greater0 : Bool) (ctxT offset : ℕ) : BinGet ℤ :=
  if greater0 then do
    let symbol ← xReadBvdContext ctxT offset BVD_CODING_GOLOMB_ORDER
    signBin (i32 (1 + symbol))
  else pure 0

def bvdCoding : BinGet Mv := do
  let horGreater0 ← decodeBin ⟨.Bvd, HOR_BVD_CTX_OFFSET⟩
  let verGreater0 ← decodeBin ⟨.Bvd, VER_BVD_CTX_OFFSET⟩
  let horAbs ← bvdComponent horGreater0 NUM_HOR_BVD_CTX HOR_BVD_CTX_OFFSET
  let verAbs ← bvdComponent verGreater0 NUM_VER_BVD_CTX VER_BVD_CTX_OFFSET
  legalMv horAbs verAbs "Illegal BVD value"

/-! ## The differences of a unit -/

section
open RefPicList

variable (flags : MvdFlags) (pu : PredictionUnit)

/-- The differences of a list. -/
def parseMvds (eRefList : RefPicList) : BinGet PredictionUnit :=
  if pu.affine then (List.range pu.numControlPoints).foldlM (fun pu i => do
    let mvd ← mvd_coding (!pu.isMvsdApplicable flags)
    return pu.setMvdAffi eRefList i mvd) pu
  else if pu.amvpMergeModeFlag eRefList.other && pu.mvpIdx eRefList < 2 then return pu.setMvd eRefList .zero
  else do
    let mvd ← mvd_coding (!pu.isMvsdApplicable flags)
    return pu.setMvd eRefList mvd

/-- What is not sent of list 1 is zero. -/
def zeroMvds : PredictionUnit :=
  ((pu.setMvd REF_PIC_LIST_1 .zero).setMvdAffi REF_PIC_LIST_1 0 .zero).setMvdAffi REF_PIC_LIST_1 1 .zero
    |>.setMvdAffi REF_PIC_LIST_1 2 .zero

/-- Symmetric differences. -/
def mirrorMvd : Checked PredictionUnit :=
  if pu.smvdMode ≠ 0 then do
    let eCurRefList := if pu.smvdMode = 1 then REF_PIC_LIST_0 else REF_PIC_LIST_1
    let mvd : Mv := ⟨-(pu.mvd eCurRefList).hor, -(pu.mvd eCurRefList).ver⟩
    check (¬Mv.Legal mvd.hor ∨ ¬Mv.Legal mvd.ver) "Illegal MVD value"
    return pu.setMvd eCurRefList.other mvd
  else .ok pu

/-- The differences that `prediction_unit` reads. -/
def unitMvds : BinGet PredictionUnit := do
  let pu ← (if pu.interDir ≠ 2 ∧ pu.amvpMergeModeFlag REF_PIC_LIST_0 = false then
    parseMvds flags pu REF_PIC_LIST_0 else pure pu)
  let pu ← (if pu.interDir ≠ 1 ∧ pu.smvdMode ≠ 1 ∧ pu.amvpMergeModeFlag REF_PIC_LIST_1 = false then
      if pu.mvdL1Zero flags then pure (zeroMvds pu) else parseMvds flags pu REF_PIC_LIST_1
    else pure pu)
  let pu := if pu.interDir = 3 ∧ pu.isBipredRestriction then { pu with interDir := 1 } else pu
  mirrorMvd pu

def imv_mode : BinGet PredictionUnit :=
  if flags.amvrEnabledFlag = false then pure pu
  else if pu.amvpMergeModeFlag REF_PIC_LIST_0 || pu.amvpMergeModeFlag REF_PIC_LIST_1 then pure pu
  else if hasSubCUNonZeroMVd flags pu = false then pure pu
  else if pu.affine then pure pu
  else do
    let value ← decodeBin ⟨.ImvFlag, 0⟩
    if value then do
      let value ← decodeBin ⟨.ImvFlag, 4⟩
      if value then do
        let value ← decodeBin ⟨.ImvFlag, 1⟩
        return { pu with imv := if value then .IMV_4PEL else .IMV_FPEL }
      else return { pu with imv := .IMV_HPEL }
    else return { pu with imv := .IMV_OFF }

def affine_amvr_mode : BinGet PredictionUnit :=
  if flags.affineAmvrEnabledFlag = false ∨ pu.affine = false then pure pu
  else if hasSubCUNonZeroAffineMVd flags pu = false then pure pu
  else do
    let value ← decodeBin ⟨.ImvFlag, 2⟩
    if value then do
      let value ← decodeBin ⟨.ImvFlag, 3⟩
      return { pu with imv := if value then .IMV_4PEL else .IMV_FPEL }
    else return { pu with imv := .IMV_OFF }

/-! ## Signs -/

/-- The sign of a component, if it has one. -/
def explicitSign (v : ℤ) : BinGet ℤ := if v ≠ 0 then signBin v else pure v

def explicitSigns (mv : Mv) : BinGet Mv := do
  let hor ← explicitSign mv.hor
  let ver ← explicitSign mv.ver
  return ⟨hor, ver⟩

/-- The bits of the index, for components together with their absolute values in internal precision. -/
def mvsdBins (thres : ℤ) (ctxId : ℕ) : List (ℤ × ℤ) → (mvsdIdx shift : ℕ) → BinGet ℕ
  | [], mvsdIdx, _ => pure mvsdIdx
  | (v, abs) :: vs, mvsdIdx, shift =>
    if v ≠ 0 then do
      let bin ← decodeBin ⟨.MvsdIdx, if abs ≤ thres then ctxId else ctxId + 1⟩
      mvsdBins thres ctxId vs (mvsdIdx + bin.toNat <<< shift) (shift + 1)
    else mvsdBins thres ctxId vs mvsdIdx shift

def mvsdIdxFunc (eRefList : RefPicList) : BinGet PredictionUnit :=
  if pu.isMvsdApplicable flags = false then pure pu
  else if pu.mvdL1Zero flags && eRefList = REF_PIC_LIST_1 then pure pu
  else if pu.smvdMode ≠ 0 ∧ eRefList = REF_PIC_LIST_1 then pure pu
  else if flags.useARL && (pu.interDir = 3 && (eRefList = REF_PIC_LIST_1 && (pu.mvd REF_PIC_LIST_0).isNonZero)) then do
    let mvd ← explicitSigns (pu.mvd eRefList)
    return pu.setMvd eRefList mvd
  else do
    let trMv ← (pu.mvd eRefList).getAbsMv.changeTransPrecAmvr2Internal pu.imv
    let mvsdIdx ← mvsdBins THRES_TRANS 0 ((Mv.components [pu.mvd eRefList]).zip (Mv.components [trMv])) 0 0
    return pu.setMvsdIdx eRefList mvsdIdx

def mvsdAffineIdxFunc (eRefList : RefPicList) : BinGet PredictionUnit :=
  if pu.affine = false then pure pu
  else if pu.isMvsdApplicable flags = false then pure pu
  else if pu.mvdL1Zero flags && eRefList = REF_PIC_LIST_1 then pure pu
  else if flags.useARL && (pu.interDir = 3 && (eRefList = REF_PIC_LIST_1 && pu.isNonZeroAffine REF_PIC_LIST_0)) then
    (List.range pu.numControlPoints).foldlM (fun pu i => do
      let mvd ← explicitSigns (pu.mvdAffi eRefList i)
      return pu.setMvdAffi eRefList i mvd) pu
  else do
    let affMv ← (pu.affineMvds eRefList).mapM fun mvd => mvd.getAbsMv.changeAffinePrecAmvr2Internal pu.imv
    let mvsdIdx ← mvsdBins THRES_AFFINE 2
      ((Mv.components (pu.affineMvds eRefList)).zip (Mv.components affMv)) 0 0
    return pu.setMvsdIdx eRefList mvsdIdx

def mvsd_data : BinGet PredictionUnit :=
  if pu.isMvsdApplicable flags = false then pure pu
  else do
    let pu ← (if pu.interDir ≠ 2 then
      if pu.affine then mvsdAffineIdxFunc flags pu REF_PIC_LIST_0 else mvsdIdxFunc flags pu REF_PIC_LIST_0
    else pure pu)
    if pu.interDir ≠ 1 ∧ pu.smvdMode ≠ 1 then
      if pu.affine then mvsdAffineIdxFunc flags pu REF_PIC_LIST_1 else mvsdIdxFunc flags pu REF_PIC_LIST_1
    else pure pu

/-- The differences in the order of `cu_pred_data`. -/
def unitDifferences : BinGet PredictionUnit := do
  let pu ← unitMvds flags pu
  let pu ← imv_mode flags pu
  let pu ← affine_amvr_mode flags pu
  mvsd_data flags pu

end

end ECM.DecoderLib.CABACReader
