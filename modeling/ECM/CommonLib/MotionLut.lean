import ECM.CommonLib.Unit
import ECM.Lib.RecencyList

/-! # History-based motion tables

The motions of the units coded before, one table for each kind. The table of affine motions
is split by reference list and index. -/

namespace ECM.CommonLib.MotionLut
open Lib.RecencyList

def MAX_NUM_HMVP_CANDS : ℕ := 5
def MAX_NUM_HMVP_IBC_CANDS : ℕ := 25
def MAX_NUM_AFF_HMVP_CANDS : ℕ := 7
def MAX_NUM_AFF_INHERIT_HMVP_CANDS : ℕ := 9
def MAX_NUM_AFFHMVP_ENTRIES_ONELIST : ℕ := 5

structure MotionInfo where
  isInter : Bool
  isIBCmot : Bool
  interDir : ℕ
  useAltHpelIf : Bool
  sliceIdx : ℕ
  mv : Fin 2 → Mv
  refIdx : Fin 2 → ℤ
  BcwIdx : ℕ
  usesLIC : Bool
  bv : Mv

/-- The motion of one reference list is the same. -/
def MotionInfo.eqList (a mi : MotionInfo) (l : Fin 2) : Bool := a.refIdx l = mi.refIdx l && a.mv l = mi.mv l

/-- `operator==`: a list that is not used is not looked at. -/
def MotionInfo.eq (a mi : MotionInfo) : Bool :=
  a.isInter = mi.isInter && a.isIBCmot = mi.isIBCmot &&
    (!a.isInter || (a.sliceIdx = mi.sliceIdx && a.interDir = mi.interDir &&
      (a.interDir = 2 || a.eqList mi 0) && (a.interDir = 1 || a.eqList mi 1)))

structure AffineMotionInfo where
  oneSetAffineParametersPattern : BitVec 64
  deriving DecidableEq

def AffineMotionInfo.eq (a motInfo : AffineMotionInfo) : Bool :=
  a.oneSetAffineParametersPattern = motInfo.oneSetAffineParametersPattern

structure MvField where
  mv : Mv
  refIdx : ℤ

structure AffineInheritInfo where
  basePos : ℤ × ℤ
  baseMV : Fin 2 → MvField
  oneSetAffineParametersPattern : Fin 2 → BitVec 64

/-- The parameters of a reference list are looked at only where it is used. -/
def AffineInheritInfo.eqList (a motInfo : AffineInheritInfo) (l : Fin 2) : Bool :=
  (a.baseMV l).refIdx = -1 || a.oneSetAffineParametersPattern l = motInfo.oneSetAffineParametersPattern l

def AffineInheritInfo.eq (a motInfo : AffineInheritInfo) : Bool :=
  (a.baseMV 0).refIdx = (motInfo.baseMV 0).refIdx && (a.baseMV 1).refIdx = (motInfo.baseMV 1).refIdx &&
    a.eqList motInfo 0 && a.eqList motInfo 1

/-! ## Adding to the tables -/

def addMiToLut (lut : List MotionInfo) (mi : MotionInfo) : List MotionInfo :=
  addRecent MAX_NUM_HMVP_CANDS MotionInfo.eq lut mi

def addMiToLutIBC (lut : List MotionInfo) (mi : MotionInfo) : List MotionInfo :=
  addRecent MAX_NUM_HMVP_IBC_CANDS MotionInfo.eq lut mi

def addAffInheritToLut (lut : List AffineInheritInfo) (mi : AffineInheritInfo) : List AffineInheritInfo :=
  addRecent MAX_NUM_AFF_INHERIT_HMVP_CANDS AffineInheritInfo.eq lut mi

/-- The tables of affine motions; the greatest indices of a list share one. -/
abbrev AffineLuts := Fin (2 * MAX_NUM_AFFHMVP_ENTRIES_ONELIST) → List AffineMotionInfo

def idxInLUT (reflist : Fin 2) (refIdx : ℕ) : Fin (2 * MAX_NUM_AFFHMVP_ENTRIES_ONELIST) :=
  ⟨reflist * MAX_NUM_AFFHMVP_ENTRIES_ONELIST + min refIdx (MAX_NUM_AFFHMVP_ENTRIES_ONELIST - 1), by
    simp only [MAX_NUM_AFFHMVP_ENTRIES_ONELIST]
    omega⟩

/-- Where the motion of a reference list goes: nowhere if the list has no index, or no parameters. -/
def affineTarget (addMi : Fin 2 → AffineMotionInfo) (refIdx : Fin 2 → Option ℕ) (reflist : Fin 2) :
    Option (Fin (2 * MAX_NUM_AFFHMVP_ENTRIES_ONELIST)) :=
  match refIdx reflist with
  | none => none
  | some r => if (addMi reflist).oneSetAffineParametersPattern ≠ 0 then some (idxInLUT reflist r) else none

/-- A reference index of -1 is `none`. -/
def addAffMiToLut (lutSet : AffineLuts) (addMi : Fin 2 → AffineMotionInfo) (refIdx : Fin 2 → Option ℕ) :
    AffineLuts :=
  ([0, 1] : List (Fin 2)).foldl (fun lutSet reflist =>
    match affineTarget addMi refIdx reflist with
    | none => lutSet
    | some idx =>
      Function.update lutSet idx
        (addRecent MAX_NUM_AFF_HMVP_CANDS AffineMotionInfo.eq (lutSet idx) (addMi reflist))) lutSet

structure LutMotionCand where
  lut : List MotionInfo
  lutIbc : List MotionInfo
  lutAff : AffineLuts
  lutAffInherit : List AffineInheritInfo

def LutMotionCand.empty : LutMotionCand := ⟨[], [], fun _ => [], []⟩

/-- A call of one of the functions on its table. -/
inductive LutCall where
  | addMiToLut (mi : MotionInfo)
  | addMiToLutIBC (mi : MotionInfo)
  | addAffMiToLut (addMi : Fin 2 → AffineMotionInfo) (refIdx : Fin 2 → Option ℕ)
  | addAffInheritToLut (mi : AffineInheritInfo)

def LutMotionCand.call (motionLut : LutMotionCand) : LutCall → LutMotionCand
  | .addMiToLut mi => { motionLut with lut := MotionLut.addMiToLut motionLut.lut mi }
  | .addMiToLutIBC mi => { motionLut with lutIbc := MotionLut.addMiToLutIBC motionLut.lutIbc mi }
  | .addAffMiToLut addMi refIdx =>
    { motionLut with lutAff := MotionLut.addAffMiToLut motionLut.lutAff addMi refIdx }
  | .addAffInheritToLut mi =>
    { motionLut with lutAffInherit := MotionLut.addAffInheritToLut motionLut.lutAffInherit mi }

end ECM.CommonLib.MotionLut
