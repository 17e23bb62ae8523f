import ECM.CommonLib.SEI

/-! # Weighted prediction tables

The weights and offsets of the reference pictures, for each component, and what the
syntax needs of the sequence parameter set. -/

namespace ECM.CommonLib

def MAX_NUM_REF : ℕ := 16

structure WPScalingParam where
  presentFlag : Bool
  log2WeightDenom : ℕ
  codedWeight : ℤ
  codedOffset : ℤ
  deriving DecidableEq, Repr

/-- `m_weightPredTable[refPicList][refIdx]`, one for each component. -/
structure WpScaling where
  Y : WPScalingParam
  Cb : WPScalingParam
  Cr : WPScalingParam
  deriving DecidableEq, Repr

namespace WeightPrediction

structure SPS where
  /-- The chroma format is not `CHROMA_400`. -/
  chroma : Bool
  m_highPrecisionOffsetsEnabledFlag : Bool
  m_bitDepthLuma : ℕ
  m_bitDepthChroma : ℕ

/-- Half the range of the offsets. -/
def SPS.range (sps : SPS) (bitDepth : ℕ) : ℤ :=
  if sps.m_highPrecisionOffsetsEnabledFlag then (1 <<< bitDepth / 2 : ℕ) else 128

/-- What a chroma offset is predicted from. -/
def pred (range codedWeight : ℤ) (log2WeightDenom : ℕ) : ℤ :=
  range - range * codedWeight / 2 ^ log2WeightDenom

def Clip3 (minVal maxVal a : ℤ) : ℤ := min (max minVal a) maxVal

end WeightPrediction

end ECM.CommonLib

/-! # CTUs of a slice

A slice is filled part by part, each part in raster order. -/

namespace ECM.CommonLib.SliceMap

/-- What `addCtusToSlice` appends. -/
def addCtusToSlice (startX stopX startY stopY picWidthInCtbsY : ℕ) : List ℕ :=
  (List.range' startY (stopY - startY)).flatMap fun ctbY =>
    (List.range' startX (stopX - startX)).map fun ctbX => ctbY * picWidthInCtbsY + ctbX

variable {startX stopX startY stopY width : ℕ}

theorem mem_addCtusToSlice {a : ℕ} : a ∈ addCtusToSlice startX stopX startY stopY width ↔
    ∃ x y, startX ≤ x ∧ x < stopX ∧ startY ≤ y ∧ y < stopY ∧ a = y * width + x := by
  simp only [addCtusToSlice, List.mem_flatMap, List.mem_map, List.mem_range'_1]
  constructor
  · rintro ⟨y, hy, x, hx, rfl⟩
    exact ⟨x, y, hx.1, by omega, hy.1, by omega, rfl⟩
  · rintro ⟨x, y, hx, hx', hy, hy', rfl⟩
    exact ⟨y, ⟨hy, by omega⟩, x, ⟨hx, by omega⟩, rfl⟩

/-- Each part is in the order of the addresses. -/
theorem addCtusToSlice_sorted (hx : stopX ≤ width) :
    (addCtusToSlice startX stopX startY stopY width).Pairwise (· < ·) := by
  have hrange : ∀ s n : ℕ, (List.range' s n).Pairwise (· < ·) := fun _ _ => List.pairwise_lt_range'
  rw [addCtusToSlice, List.pairwise_flatMap]
  constructor
  · intro y _
    rw [List.pairwise_map]
    exact (hrange _ _).imp fun hlt => Nat.add_lt_add_left hlt _
  · refine (hrange _ _).imp fun {y y'} hlt a ha b hb => ?_
    obtain ⟨x, hx₁, rfl⟩ := List.mem_map.mp ha
    obtain ⟨x', hx₂, rfl⟩ := List.mem_map.mp hb
    rw [List.mem_range'_1] at hx₁
    calc y * width + x < y * width + width := by omega
      _ = (y + 1) * width := (Nat.succ_mul y width).symm
      _ ≤ y' * width := Nat.mul_le_mul_right width hlt
      _ ≤ y' * width + x' := Nat.le_add_right _ _

end ECM.CommonLib.SliceMap

/-! # Picture headers

What the front of a picture header sets, and what of the parameter sets it needs. -/

namespace ECM.CommonLib

structure PicHeader where
  m_valid : Bool
  m_gdrOrIrapPicFlag : Bool
  m_nonReferencePictureFlag : Bool
  m_gdrPicFlag : Bool
  m_picInterSliceAllowedFlag : Bool
  m_picIntraSliceAllowedFlag : Bool
  m_ppsId : ℕ
  m_spsId : ℕ
  m_pocLsb : ℕ
  m_recoveryPocCnt : ℤ
  m_pocMsbPresentFlag : Bool
  m_pocMsbVal : ℤ

namespace PicHeader

structure SPS where
  m_uiBitsForPOC : ℕ
  m_pocMsbFlag : Bool
  m_pocMsbLen : ℕ
  /-- One for each bit of `m_numExtraPHBitsBytes`. -/
  m_extraPHBitPresentFlag : List Bool

structure PPS where
  m_SPSId : ℕ

/-- `getPPS` and `getSPS` of a `ParameterSetManager`; a missing set is null. -/
structure ParameterSetManager where
  getPPS : ℕ → Option PPS
  getSPS : ℕ → Option SPS

end PicHeader

end ECM.CommonLib
