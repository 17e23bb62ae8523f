import ECM.CommonLib.RefIdxTables
import ECM.CommonLib.Unit

/-! # Motion vector differences of a prediction unit

The precisions that a difference is kept and sent in, and the differences of a unit that is not
merged. -/

namespace ECM.CommonLib

/-! ## Precisions -/

inductive MvPrecision where
  | MV_PRECISION_4PEL
  | MV_PRECISION_INT
  | MV_PRECISION_HALF
  | MV_PRECISION_QUARTER
  | MV_PRECISION_SIXTEENTH
  | MV_PRECISION_INTERNAL
  deriving DecidableEq, Repr

/-- `MV_FRACTIONAL_BITS_INTERNAL` is 4. -/
def MvPrecision.toInt : MvPrecision → ℤ
  | MV_PRECISION_4PEL => 0
  | MV_PRECISION_INT => 2
  | MV_PRECISION_HALF => 3
  | MV_PRECISION_QUARTER => 4
  | MV_PRECISION_SIXTEENTH => 6
  | MV_PRECISION_INTERNAL => 6

def ImvMode.toNat : ImvMode → ℕ
  | IMV_OFF => 0
  | IMV_FPEL => 1
  | IMV_4PEL => 2
  | IMV_HPEL => 3

namespace Mv

def m_amvrPrecision : List MvPrecision :=
  [.MV_PRECISION_QUARTER, .MV_PRECISION_INT, .MV_PRECISION_4PEL, .MV_PRECISION_HALF]

def m_amvrPrecAffine : List MvPrecision := [.MV_PRECISION_QUARTER, .MV_PRECISION_SIXTEENTH, .MV_PRECISION_INT]

/-- `changePrecision` on a component. -/
def changeComponent (shift : ℤ) (v : ℤ) : ℤ :=
  if shift ≥ 0 then v * 2 ^ shift.toNat
  else
    let rightShift := (-shift).toNat
    let nOffset := 2 ^ (rightShift - 1)
    if v ≥ 0 then (v + nOffset - 1) >>> rightShift else (v + nOffset) >>> rightShift

def changePrecision (mv : Mv) (src dst : MvPrecision) : Mv :=
  let shift := dst.toInt - src.toInt
  ⟨changeComponent shift mv.hor, changeComponent shift mv.ver⟩

def changeTransPrecInternal2Amvr (mv : Mv) (amvr : ImvMode) : Checked Mv := do
  let precision ← readAt m_amvrPrecision amvr.toNat
  return mv.changePrecision .MV_PRECISION_INTERNAL precision

def changeTransPrecAmvr2Internal (mv : Mv) (amvr : ImvMode) : Checked Mv := do
  let precision ← readAt m_amvrPrecision amvr.toNat
  return mv.changePrecision precision .MV_PRECISION_INTERNAL

def changeAffinePrecInternal2Amvr (mv : Mv) (amvr : ImvMode) : Checked Mv := do
  let precision ← readAt m_amvrPrecAffine amvr.toNat
  return mv.changePrecision .MV_PRECISION_INTERNAL precision

def changeAffinePrecAmvr2Internal (mv : Mv) (amvr : ImvMode) : Checked Mv := do
  let precision ← readAt m_amvrPrecAffine amvr.toNat
  return mv.changePrecision precision .MV_PRECISION_INTERNAL

def getAbsMv (mv : Mv) : Mv := ⟨mv.hor.natAbs, mv.ver.natAbs⟩

def zero : Mv := ⟨0, 0⟩

/-- `mv.getHor() || mv.getVer()` -/
def isNonZero (mv : Mv) : Bool := mv.hor ≠ 0 || mv.ver ≠ 0

/-- The components of some vectors, one after the other. -/
def components (mvs : List Mv) : List ℤ := mvs.flatMap fun mv => [mv.hor, mv.ver]

end Mv

/-! ## Units -/

inductive EAffineModel where
  | AFFINEMODEL_4PARAM
  | AFFINEMODEL_6PARAM
  deriving DecidableEq, Repr

/-- A unit that is not merged, and of its coding unit, which has no other, what concerns the
differences. -/
structure PredictionUnit where
  interDir : ℕ
  affine : Bool
  affineType : EAffineModel
  smvdMode : ℕ
  imv : ImvMode
  amvpMergeModeFlag : RefPicList → Bool
  mvpIdx : RefPicList → ℕ
  mvd : RefPicList → Mv
  mvdAffi : RefPicList → ℕ → Mv
  mvsdIdx : RefPicList → ℤ
  /-- `addHypData.size()` -/
  numAddHyps : ℕ
  numMergedAddHyps : ℕ
  isBipredRestriction : Bool

/-- What parameter sets and picture header say of differences. -/
structure MvdFlags where
  useMVSD : Bool
  useARL : Bool
  mvdL1ZeroFlag : Bool
  amvrEnabledFlag : Bool
  affineAmvrEnabledFlag : Bool

namespace PredictionUnit
open RefPicList

variable (pu : PredictionUnit) (flags : MvdFlags)

/-- The number of control points. -/
def numControlPoints : ℕ := if pu.affineType = .AFFINEMODEL_6PARAM then 3 else 2

def setMvd (l : RefPicList) (mv : Mv) : PredictionUnit := { pu with mvd := Function.update pu.mvd l mv }

def setMvdAffi (l : RefPicList) (i : ℕ) (mv : Mv) : PredictionUnit :=
  { pu with mvdAffi := Function.update pu.mvdAffi l (Function.update (pu.mvdAffi l) i mv) }

def setMvsdIdx (l : RefPicList) (mvsdIdx : ℤ) : PredictionUnit :=
  { pu with mvsdIdx := Function.update pu.mvsdIdx l mvsdIdx }

/-- The difference of the sizes is unsigned. -/
def isMvsdApplicable : Bool := flags.useMVSD && pu.numAddHyps = pu.numMergedAddHyps

/-- The differences of the control points. -/
def affineMvds (l : RefPicList) : List Mv := (List.range pu.numControlPoints).map (pu.mvdAffi l)

/-- The control points of the list have a difference. -/
def isNonZeroAffine (l : RefPicList) : Bool := (pu.affineMvds l).any Mv.isNonZero

/-- The differences of list 1 are not sent. -/
def mvdL1Zero : Bool := flags.mvdL1ZeroFlag && pu.interDir = 3

end PredictionUnit

open PredictionUnit RefPicList

def hasSubCUNonZeroMVd (flags : MvdFlags) (pu : PredictionUnit) : Bool :=
  (pu.interDir ≠ 2 && (pu.mvd REF_PIC_LIST_0).isNonZero) ||
    (pu.interDir ≠ 1 && !pu.mvdL1Zero flags && (pu.mvd REF_PIC_LIST_1).isNonZero)

def hasSubCUNonZeroAffineMVd (flags : MvdFlags) (pu : PredictionUnit) : Bool :=
  pu.affine && ((pu.interDir ≠ 2 && pu.isNonZeroAffine REF_PIC_LIST_0) ||
    (pu.interDir ≠ 1 && !pu.mvdL1Zero flags && pu.isNonZeroAffine REF_PIC_LIST_1))

/-! ## Thresholds of the sign contexts -/

def THRES_TRANS : ℤ := 16

def THRES_AFFINE : ℤ := 4

end ECM.CommonLib
