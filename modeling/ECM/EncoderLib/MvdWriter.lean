import ECM.Cabac.RemAbs
import ECM.CommonLib.PredictionUnit

/-! # Vector differences of the encoder

`CABACWriter::mvd_coding`, `bvdCoding` for block vectors, and what a unit that is not merged sends
of its differences: `prediction_unit` as far as they are concerned, their precision, and `mvsd_data`. -/

namespace ECM.EncoderLib.CABACWriter
open CommonLib CommonLib.Bins ECM.Cabac.RemAbs Lib.Codec

/-! ## Motion vector differences -/

/-- The shifts to the precision that is signalled. -/
def mvdPrecision (mvd : Mv) (imv : ImvMode) : Checked Mv :=
  if imv = .IMV_OFF then .ok mvd
  else do
    check (mvd.hor % 2 ≠ 0 ∧ mvd.ver % 2 ≠ 0) "IMV: MVD is not a multiple of 2"
    let mvd := mvd.shiftRight 1
    if imv = .IMV_HPEL then return mvd
    else
      check (mvd.hor % 2 ≠ 0 ∧ mvd.ver % 2 ≠ 0) "IMV: MVD is not a multiple of 4"
      let mvd := mvd.shiftRight 1
      if imv ≠ .IMV_4PEL then return mvd
      else
        check (mvd.hor % 4 ≠ 0 ∧ mvd.ver % 4 ≠ 0) "IMV: MVD is not a multiple of 16"
        return mvd.shiftRight 2

/-- `abs_mvd_greater1_flag` -/
def mvdGreater1 (mvd : ℤ) : BinPut Unit :=
  if mvd.natAbs > 0 then encodeBin (mvd.natAbs > 1) ⟨.Mvd, 1⟩ else pure ()

/-- `abs_mvd_minus2` and `mvd_sign_flag` -/
def mvdMinus2 (mvd : ℤ) (codeSign : Bool) : BinPut Unit :=
  if mvd.natAbs > 0 then do
    (if mvd.natAbs > 1 then encodeRemAbsEP (mvd.natAbs - 2) 1 0 (MV_BITS - 1) else pure ())
    if codeSign then encodeBinEP (mvd < 0) else pure ()
  else pure ()

def mvd_coding (rMvd : Mv) (imv : ImvMode) (codeSign : Bool) : BinPut Unit := do
  let mvd ← mvdPrecision rMvd imv
  encodeBin (mvd.hor.natAbs > 0) ⟨.Mvd, 0⟩
  encodeBin (mvd.ver.natAbs > 0) ⟨.Mvd, 0⟩
  mvdGreater1 mvd.hor
  mvdGreater1 mvd.ver
  mvdMinus2 mvd.hor codeSign
  mvdMinus2 mvd.ver codeSign

/-! ## Block vector differences -/

/-- The bins of the word `bins`, highest first: the first `ctxT` of them have contexts. -/
def bvdBins (ctxT offset : ℕ) : (left bins bitCount : ℕ) → BinPut Unit
  | 0, _, _ => pure ()
  | i + 1, bins, bitCount => do
    let temp := bins >>> i
    (if bitCount ≥ ctxT then encodeBinEP (temp ≠ 0) else encodeBin (temp ≠ 0) ⟨.Bvd, offset + bitCount + 1⟩)
    bvdBins ctxT offset i (bins - temp <<< i) (bitCount + 1)

/-- The first loop is that of `exp_golomb_eqprob`. -/
def xWriteBvdContext (uiSymbol ctxT offset param : ℕ) : BinPut Unit := do
  let (bins, numBins, uiSymbol, param) := expGolombPrefix (uiSymbol + 1) uiSymbol param 0 0
  bvdBins ctxT offset (numBins + 1) (u32 (bins <<< 1)) 0
  encodeBinsEP uiSymbol param

def bvdComponent (bvd : ℤ) (ctxT offset : ℕ) : BinPut Unit :=
  if bvd.natAbs > 0 then do
    xWriteBvdContext (bvd.natAbs - 1) ctxT offset BVD_CODING_GOLOMB_ORDER
    encodeBinEP (bvd < 0)
  else pure ()

def bvdCoding (rMvd : Mv) : BinPut Unit := do
  encodeBin (rMvd.hor.natAbs > 0) ⟨.Bvd, HOR_BVD_CTX_OFFSET⟩
  encodeBin (rMvd.ver.natAbs > 0) ⟨.Bvd, VER_BVD_CTX_OFFSET⟩
  bvdComponent rMvd.hor NUM_HOR_BVD_CTX HOR_BVD_CTX_OFFSET
  bvdComponent rMvd.ver NUM_VER_BVD_CTX VER_BVD_CTX_OFFSET

/-! ## The differences of a unit -/

section
open RefPicList

variable (flags : MvdFlags) (pu : PredictionUnit)

/-- The differences of a list. -/
def codeMvds (eRefList : RefPicList) : BinPut Unit :=
  if pu.affine then (List.range pu.numControlPoints).forM fun i => do
    let mvd ← (pu.mvdAffi eRefList i).changeAffinePrecInternal2Amvr pu.imv
    mvd_coding mvd .IMV_OFF (!pu.isMvsdApplicable flags)
  else if pu.amvpMergeModeFlag eRefList.other && pu.mvpIdx eRefList < 2 then do
    check ((pu.mvd eRefList).hor ≠ 0) "this is not possible"
    check ((pu.mvd eRefList).ver ≠ 0) "this is not possible"
  else do
    let mvd ← (pu.mvd eRefList).changeTransPrecInternal2Amvr pu.imv
    mvd_coding mvd .IMV_OFF (!pu.isMvsdApplicable flags)

/-- The differences that `prediction_unit` sends. -/
def unitMvds : BinPut Unit := do
  (if pu.interDir ≠ 2 ∧ pu.amvpMergeModeFlag REF_PIC_LIST_0 = false then codeMvds flags pu REF_PIC_LIST_0 else pure ())
  if pu.interDir ≠ 1 ∧ pu.smvdMode ≠ 1 ∧ pu.amvpMergeModeFlag REF_PIC_LIST_1 = false ∧ pu.mvdL1Zero flags = false then
    codeMvds flags pu REF_PIC_LIST_1
  else pure ()

def imv_mode : BinPut Unit :=
  if flags.amvrEnabledFlag = false then pure ()
  else if pu.affine then pure ()
  else if pu.amvpMergeModeFlag REF_PIC_LIST_0 || pu.amvpMergeModeFlag REF_PIC_LIST_1 then pure ()
  else if hasSubCUNonZeroMVd flags pu = false then pure ()
  else do
    encodeBin (pu.imv.toNat > 0) ⟨.ImvFlag, 0⟩
    if pu.imv.toNat > 0 then do
      encodeBin (pu.imv.toNat < 3) ⟨.ImvFlag, 4⟩
      if pu.imv.toNat < 3 then encodeBin (pu.imv.toNat > 1) ⟨.ImvFlag, 1⟩ else pure ()
    else pure ()

def affine_amvr_mode : BinPut Unit :=
  if flags.affineAmvrEnabledFlag = false ∨ pu.affine = false then pure ()
  else if hasSubCUNonZeroAffineMVd flags pu = false then pure ()
  else do
    encodeBin (pu.imv.toNat > 0) ⟨.ImvFlag, 2⟩
    if pu.imv.toNat > 0 then encodeBin (pu.imv.toNat > 1) ⟨.ImvFlag, 3⟩ else pure ()

/-! ## Signs -/

/-- The sign of a component, if it has one. -/
def explicitSign (v : ℤ) : BinPut Unit := if v ≠ 0 then encodeBinEP (v < 0) else pure ()

/-- The bits of the index, lowest first: one for each component that has a sign. -/
def mvsdBins (thres : ℤ) (ctxId : ℕ) : List ℤ → ℤ → BinPut Unit
  | [], _ => pure ()
  | v :: vs, mvsdIdx =>
    if v ≠ 0 then do
      encodeBin (mvsdIdx % 2 = 1) ⟨.MvsdIdx, if v.natAbs ≤ thres then ctxId else ctxId + 1⟩
      mvsdBins thres ctxId vs (mvsdIdx >>> (1 : ℕ))
    else mvsdBins thres ctxId vs mvsdIdx

def mvsdIdxFunc (eRefList : RefPicList) : BinPut Unit :=
  if pu.isMvsdApplicable flags = false then pure ()
  else if pu.mvdL1Zero flags && eRefList = REF_PIC_LIST_1 then pure ()
  else if pu.smvdMode ≠ 0 ∧ eRefList = REF_PIC_LIST_1 then pure ()
  else if flags.useARL && (pu.interDir = 3 && (eRefList = REF_PIC_LIST_1 && (pu.mvd REF_PIC_LIST_0).isNonZero)) then
    (Mv.components [pu.mvd eRefList]).forM explicitSign
  else do
    check ((pu.mvd eRefList).isNonZero ∧ pu.mvsdIdx eRefList = -1) "mvsdIdx == -1 for transMv"
    mvsdBins THRES_TRANS 0 (Mv.components [pu.mvd eRefList]) (pu.mvsdIdx eRefList)

def mvsdAffineIdxFunc (eRefList : RefPicList) : BinPut Unit :=
  if pu.affine = false then pure ()
  else if pu.isMvsdApplicable flags = false then pure ()
  else if pu.mvdL1Zero flags && eRefList = REF_PIC_LIST_1 then pure ()
  else if flags.useARL && (pu.interDir = 3 && (eRefList = REF_PIC_LIST_1 && pu.isNonZeroAffine REF_PIC_LIST_0)) then
    (Mv.components (pu.affineMvds eRefList)).forM explicitSign
  else do
    check (pu.isNonZeroAffine eRefList ∧ pu.mvsdIdx eRefList = -1) "mvsdIdx == -1 for AffineMv"
    mvsdBins THRES_AFFINE 2 (Mv.components (pu.affineMvds eRefList)) (pu.mvsdIdx eRefList)

def mvsd_data : BinPut Unit :=
  if pu.isMvsdApplicable flags = false then pure ()
  else do
    (if pu.interDir ≠ 2 then
      if pu.affine then mvsdAffineIdxFunc flags pu REF_PIC_LIST_0 else mvsdIdxFunc flags pu REF_PIC_LIST_0
    else pure ())
    if pu.interDir ≠ 1 ∧ pu.smvdMode ≠ 1 then
      if pu.affine then mvsdAffineIdxFunc flags pu REF_PIC_LIST_1 else mvsdIdxFunc flags pu REF_PIC_LIST_1
    else pure ()

/-- The differences in the order of `cu_pred_data`. -/
def unitDifferences : BinPut Unit := do
  unitMvds flags pu
  imv_mode flags pu
  affine_amvr_mode flags pu
  mvsd_data flags pu

end

end ECM.EncoderLib.CABACWriter
