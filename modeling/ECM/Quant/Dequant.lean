import ECM.CommonLib.Quant
import ECM.Lib.FixedPoint
import ECM.Quant.Trellis

/-! # Scalar dequantisation is exact

The product of a level and its scale fits into an `int` because the level is clipped
first, and where the clipping changes a level the result saturates in any case. Both
follow from the shift alone; the tables of a scaling list are followed through
`setScalingListDec`, which leaves those of some shapes as they were. -/

namespace ECM.Quant.Dequant
open CommonLib CommonLib.Quant Lib.FixedPoint List
open Lib.Loop (mapM_ok foldl_update_of_mem foldl_update_of_notMem)
open WeightPrediction (Clip3)
open QpMap (MAX_QP)

/-- The product of a level and a scale, shifted with rounding and clipped. -/
def dequantised (rightShift scale level : ℤ) : ℤ :=
  saturated (2 ^ 15)
    (if 0 < rightShift then (level * scale + 2 ^ (rightShift.toNat - 1)) / 2 ^ rightShift.toNat
    else level * scale * 2 ^ (-rightShift).toNat)

def LevelInRange (level : ℤ) : Prop := -2 ^ 15 ≤ level ∧ level ≤ 2 ^ 15 - 1

/-! ## One sample -/

section
variable {b scale maxScale level : ℤ} {k : ℕ}

/-- A clipped level times a scale. -/
theorem product_bounds (hb : 0 < b) (hscale : 0 ≤ scale) (hmax : scale ≤ maxScale) (level : ℤ) :
    -(b * maxScale) ≤ saturated b level * scale ∧ saturated b level * scale ≤ b * maxScale := by
  obtain ⟨hlow, hhigh⟩ := saturated_mem hb level
  have hend : b * scale ≤ b * maxScale := mul_le_mul_of_nonneg_left hmax hb.le
  have hge := mul_le_mul_of_nonneg_right hlow hscale
  have hle := mul_le_mul_of_nonneg_right hhigh hscale
  constructor
  · linarith
  · linarith

theorem dequantSample_right (hk : 0 < k) (hk' : k ≤ 16) (hscale : 0 ≤ scale) (hmax : scale ≤ maxScale)
    (hfit : 2 ^ 15 * maxScale + 2 ^ 15 < 2 ^ 31) (hlevel : LevelInRange level) :
    dequantSample k (-2 ^ 15) (2 ^ 15 - 1) (-2 ^ 15) (2 ^ 15 - 1) scale level =
      .ok (dequantised k scale level) := by
  have hclip : Clip3 (-2 ^ 15) (2 ^ 15 - 1) level = level := saturated_of_mem hlevel.1 hlevel.2
  obtain ⟨hlow, hhigh⟩ := @product_bounds (2 ^ 15) scale maxScale (by norm_num) hscale hmax level
  rw [saturated_of_mem hlevel.1 hlevel.2] at hlow hhigh
  have hsub : ((k : ℤ) - 1).toNat = k - 1 := by omega
  have hhalf : (1 : ℤ) ≤ 2 ^ (k - 1) := one_le_pow₀ (by norm_num)
  have hhalf' : (2 : ℤ) ^ (k - 1) ≤ 2 ^ 15 := pow_le_pow_right₀ (by norm_num) (by omega)
  have hadd : shiftLeft32 1 (k - 1) = .ok (2 ^ (k - 1)) := by
    rw [shiftLeft32_ok (by omega) (by rw [hsub]; omega), hsub, one_mul]
  unfold dequantSample dequantised
  dsimp only
  rw [hclip, int32_ok (by omega), ok_bind, if_pos (by omega), hadd, ok_bind, int32_ok (by omega), ok_bind,
    shiftRight32_ok (by omega), ok_bind, if_pos (by omega), Int.toNat_natCast, Int.shiftRight_eq_div_pow]
  push_cast
  rfl

theorem dequantSample_left (hk : k < 32) (hb : 0 < b) (hscale : 0 ≤ scale) (hmax : scale ≤ maxScale)
    (hfit : b * maxScale * 2 ^ k < 2 ^ 31) (hend : scale = 0 ∨ 0 < scale ∧ 2 ^ 15 ≤ (b - 1) * (scale * 2 ^ k)) :
    dequantSample (-k) (-b) (b - 1) (-2 ^ 15) (2 ^ 15 - 1) scale level = .ok (dequantised (-k) scale level) := by
  have hclip : Clip3 (-b) (b - 1) level = saturated b level := rfl
  obtain ⟨hlow, hhigh⟩ := product_bounds hb hscale hmax level
  have hpow : (1 : ℤ) ≤ 2 ^ k := one_le_pow₀ (by norm_num)
  have hnonneg : 0 ≤ b * maxScale := mul_nonneg hb.le (hscale.trans hmax)
  have hshift : b * maxScale ≤ b * maxScale * 2 ^ k := le_mul_of_one_le_right hnonneg hpow
  have hlow' := mul_le_mul_of_nonneg_right hlow (le_trans zero_le_one hpow)
  have hhigh' := mul_le_mul_of_nonneg_right hhigh (le_trans zero_le_one hpow)
  have hneg : (-(-(k : ℤ))).toNat = k := by omega
  have hleft : shiftLeft32 (saturated b level * scale) (-(-(k : ℤ))) = .ok (saturated b level * scale * 2 ^ k) := by
    rw [shiftLeft32_ok (by omega) (by rw [hneg]; constructor <;> linarith), hneg]
  unfold dequantSample dequantised
  dsimp only
  rw [hclip, int32_ok (by omega), ok_bind, if_neg (by omega), hleft, ok_bind, if_neg (by omega), hneg, mul_assoc level,
    ← @saturated_scaled (2 ^ 15) b _ (by norm_num) hb, ← mul_assoc]
  · rfl
  · rcases hend with rfl | ⟨hpos, hend⟩
    · exact .inl (zero_mul _)
    · exact .inr ⟨mul_pos hpos (by omega), hend⟩

end

theorem dequantised_zero (rightShift level : ℤ) : dequantised rightShift 0 level = 0 := by
  unfold dequantised
  rw [mul_zero, zero_mul, zero_add]
  split
  case isTrue hpos =>
    have hlt : (2 : ℤ) ^ (rightShift.toNat - 1) < 2 ^ rightShift.toNat :=
      pow_lt_pow_right₀ (by norm_num) (by omega)
    rw [Int.ediv_eq_zero_of_lt (by positivity) hlt]
    rfl
  case isFalse => rfl

theorem dequantised_pos {rightShift : ℤ} (h : rightShift ≤ 15) : 0 < dequantised rightShift 26010 (2 ^ 15 - 1) := by
  have hsat : ∀ v : ℤ, 1 ≤ v → 0 < saturated (2 ^ 15) v := fun v hv =>
    lt_min (lt_max_of_lt_right hv) (by norm_num)
  unfold dequantised
  refine hsat _ ?_
  split
  case isTrue hpos =>
    have hpow : (2 : ℤ) ^ rightShift.toNat ≤ 2 ^ 15 := pow_le_pow_right₀ (by norm_num) (by omega)
    have hhalf : (0 : ℤ) < 2 ^ (rightShift.toNat - 1) := by positivity
    refine Int.le_ediv_of_mul_le (by positivity) ?_
    omega
  case isFalse =>
    have hpos : (0 : ℤ) < (2 ^ 15 - 1) * 26010 * 2 ^ (-rightShift).toNat := by positivity
    exact hpos

/-! ## The range of the levels that are kept -/

/-- Entries of a scaling list and the scales of the QP, or the latter alone. -/
structure Scales (scaleBits maxScale rightShift : ℤ) : Prop where
  bits : scaleBits = 15 ∧ maxScale = 26010 ∧ -7 ≤ rightShift ∧ rightShift ≤ 15 ∨
    scaleBits = 7 ∧ maxScale = 102 ∧ -11 ≤ rightShift ∧ rightShift ≤ 11

def IsScale (maxScale scale : ℤ) : Prop := (scale = 0 ∨ 40 ≤ scale) ∧ scale ≤ maxScale

theorem inputRange_ok {e : ℕ} {target : ℕ} (he : e < 31) (ht : target = e + 1) :
    shiftLeft32 1 (sub32 target 1) = .ok (2 ^ e) := by
  have hsub : sub32 target 1 = e := by
    rw [sub32_of_le (by omega) (by omega), ht, Nat.add_sub_cancel]
  have hpow : (2 : ℤ) ^ e ≤ 2 ^ 30 := pow_le_pow_right₀ (by norm_num) (by omega)
  have hpos : (0 : ℤ) < 2 ^ e := by positivity
  rw [hsub, shiftLeft32_ok (by omega) (by rw [Int.toNat_natCast, one_mul]; omega), Int.toNat_natCast, one_mul]

theorem dequantSample_ok {scaleBits maxScale rightShift : ℤ} (h : Scales scaleBits maxScale rightShift) :
    ∃ b, shiftLeft32 1 (sub32 (targetInputBitDepth 15 rightShift scaleBits) 1) = .ok b ∧
      ∀ scale level, IsScale maxScale scale → LevelInRange level →
        dequantSample rightShift (-b) (b - 1) (-2 ^ 15) (2 ^ 15 - 1) scale level =
          .ok (dequantised rightShift scale level) := by
  have hbits := h.bits
  by_cases hpos : 0 < rightShift
  · refine ⟨2 ^ 15, inputRange_ok (by norm_num) ?_, fun scale level hscale hlevel => ?_⟩
    · unfold targetInputBitDepth
      omega
    · obtain ⟨k, rfl⟩ : ∃ k : ℕ, rightShift = k := ⟨rightShift.toNat, by omega⟩
      have hmax : maxScale ≤ 26010 := by omega
      obtain ⟨hzero, hle⟩ := hscale
      exact dequantSample_right (by omega) (by omega) (by omega) (hle.trans hmax) (by norm_num) hlevel
  · obtain ⟨k, rfl⟩ : ∃ k : ℕ, rightShift = -(k : ℤ) := ⟨(-rightShift).toNat, by omega⟩
    obtain ⟨c, hc, hk, hc16, hfit⟩ : ∃ c : ℕ, scaleBits = 31 - c ∧ k + 9 ≤ c ∧ 16 ≤ c ∧ maxScale * 2 ^ c < 2 ^ 31 := by
      rcases hbits with ⟨rfl, rfl, hlow, -⟩ | ⟨rfl, rfl, hlow, -⟩
      · exact ⟨16, by norm_num, by omega, le_refl _, by norm_num⟩
      · exact ⟨24, by norm_num, by omega, by norm_num, by norm_num⟩
    refine ⟨2 ^ min 15 (c - k), inputRange_ok (by omega) ?_, fun scale level hscale _ => ?_⟩
    · unfold targetInputBitDepth
      omega
    obtain ⟨hzero, hle⟩ := hscale
    generalize he : min 15 (c - k) = e
    refine dequantSample_left (by omega) (by positivity) (by omega) hle ?_ (hzero.imp_right fun hge => ⟨by omega, ?_⟩)
    · have hcap : (2 : ℤ) ^ (e + k) ≤ 2 ^ c := pow_le_pow_right₀ (by norm_num) (by omega)
      have hscaled := mul_le_mul_of_nonneg_left hcap (by omega : 0 ≤ maxScale)
      calc 2 ^ e * maxScale * 2 ^ k = maxScale * 2 ^ (e + k) := by rw [pow_add]; ring
        _ < 2 ^ 31 := by omega
    · -- half of what is kept saturates already
      obtain ⟨d, rfl⟩ : ∃ d, e = d + 1 := ⟨e - 1, by omega⟩
      have hhalf : (2 : ℤ) ^ d ≤ 2 ^ (d + 1) - 1 := by
        have hone : (1 : ℤ) ≤ 2 ^ d := one_le_pow₀ (by norm_num)
        rw [pow_succ]
        linarith
      have hpow : (2 : ℤ) ^ 14 ≤ 2 ^ (d + k) := pow_le_pow_right₀ (by norm_num) (by omega)
      have hpos : (0 : ℤ) ≤ scale * 2 ^ k := mul_nonneg (by omega) (by positivity)
      calc (2 : ℤ) ^ 15 ≤ 2 ^ 14 * scale := by linarith
        _ ≤ 2 ^ (d + k) * scale := mul_le_mul_of_nonneg_right hpow (by omega)
        _ = 2 ^ d * (scale * 2 ^ k) := by rw [pow_add]; ring
        _ ≤ (2 ^ (d + 1) - 1) * (scale * 2 ^ k) := mul_le_mul_of_nonneg_right hhalf hpos

/-! ## The shift -/

theorem invQuantScale_bounds : ∀ adjusted, ∀ rem < 6, 40 ≤ invQuantScale adjusted rem ∧
    invQuantScale adjusted rem ≤ 102 := by decide

/-- A QP that the constructor makes for a bit depth. -/
structure QpFor (bitDepth : ℤ) (cQP : QpParam) : Prop where
  nonneg : ∀ ts, 0 ≤ cQP.Qps ts
  le : ∀ ts, cQP.Qps ts ≤ 63 + 6 * (bitDepth - 8)

theorem QpParam.new_qpFor {bitDepth internalMinusInputBitDepth : ℤ} (hbd : 8 ≤ bitDepth)
    (hminus : 0 ≤ internalMinusInputBitDepth ∧ internalMinusInputBitDepth ≤ 8) (qpy : ℤ) (compID : QpComponent)
    (chromaQPOffset dqp : ℤ) (mapped : ℤ → ℤ) (applyACTQpoffset : Bool) :
    QpFor bitDepth (QpParam.new qpy compID (6 * (bitDepth - 8)) internalMinusInputBitDepth chromaQPOffset dqp mapped
      applyACTQpoffset) := by
  unfold QpParam.new
  dsimp only
  generalize (if applyACTQpoffset then _ else _ : ℤ) + dqp = base
  have hbase : 0 ≤ Clip3 0 (MAX_QP + 6 * (bitDepth - 8)) base ∧
      Clip3 0 (MAX_QP + 6 * (bitDepth - 8)) base ≤ 63 + 6 * (bitDepth - 8) := by
    unfold Clip3 MAX_QP
    omega
  generalize Clip3 0 (MAX_QP + 6 * (bitDepth - 8)) base = baseQp at hbase ⊢
  constructor
  · rintro (_ | _) <;> dsimp only <;> omega
  · rintro (_ | _) <;> dsimp only <;> omega

theorem QpFor.per {bitDepth : ℤ} {cQP : QpParam} (h : QpFor bitDepth cQP) (ts : Bool) :
    0 ≤ cQP.per ts ∧ cQP.per ts ≤ bitDepth + 2 ∧ cQP.rem ts < 6 := by
  have hnonneg := h.nonneg ts
  have hle := h.le ts
  unfold QpParam.per QpParam.rem
  rw [Int.tdiv_eq_ediv_of_nonneg hnonneg, Int.tmod_eq_emod_of_nonneg hnonneg]
  omega

/-- A block of the shapes there are, in a sequence of the usual dynamic range. -/
structure Block (cs : ChannelSettings) (tu : TransformBlock) (lw lh : ℕ) : Prop where
  width : tu.width = 2 ^ lw
  height : tu.height = 2 ^ lh
  lw_le : lw ≤ 8
  lh_le : lh ≤ 8
  bitDepth : 8 ≤ cs.bitDepth ∧ cs.bitDepth ≤ 12
  range : cs.getMaxLog2TrDynamicRange = 15

section
variable {q : Quantiser} {cs : ChannelSettings} {tu : TransformBlock} {cQP : QpParam} {lw lh : ℕ}

theorem floorLog2_two_pow (k : ℕ) : floorLog2 (2 ^ k) = k := Nat.log2_two_pow

theorem Block.needs (h : Block cs tu lw lh) :
    needsBlockSizeTrafoScale tu = (!tu.isTransformSkip && decide ((lw + lh) % 2 = 1)) := by
  unfold needsBlockSizeTrafoScale needsSqrt2Scale isNonLog2BlockSize
  rw [h.width, h.height, floorLog2_two_pow, floorLog2_two_pow, Nat.and_one_is_mod, Nat.shiftLeft_eq, Nat.shiftLeft_eq,
    one_mul, one_mul, decide_not, decide_not, decide_eq_true rfl, decide_eq_true rfl]
  exact Bool.or_false _

theorem Block.shift (h : Block cs tu lw lh) (hqp : QpFor cs.bitDepth cQP) :
    Scales (if getUseScalingList q cs tu then 15 else 7) (if getUseScalingList q cs tu then 26010 else 102)
      (rightShift q cs tu cQP) := by
  obtain ⟨hper, hper', -⟩ := hqp.per tu.isTransformSkip
  obtain ⟨hlow, hhigh⟩ := h.bitDepth
  have hlw := h.lw_le
  have hlh := h.lh_le
  have hext : cs.extendedPrecisionProcessingFlag = true → cs.bitDepth ≤ 9 := by
    intro hext
    have hrange := h.range
    rw [ChannelSettings.getMaxLog2TrDynamicRange, if_pos hext] at hrange
    omega
  have htransform : tu.isTransformSkip = false →
      -5 + (12 - cs.bitDepth) ≤ iTransformShift cs tu ∧ iTransformShift cs tu ≤ 15 - cs.bitDepth := by
    intro hts
    unfold iTransformShift getTransformShift
    dsimp only
    rw [h.needs, h.range, h.width, h.height, floorLog2_two_pow, floorLog2_two_pow, hts, Nat.shiftRight_eq_div_pow]
    cases hflag : cs.extendedPrecisionProcessingFlag with
    | false =>
      by_cases hodd : (lw + lh) % 2 = 1 <;> simp [hodd] <;> omega
    | true =>
      have hbd := hext hflag
      by_cases hodd : (lw + lh) % 2 = 1 <;> simp [hodd] <;> omega
  have huse : getUseScalingList q cs tu = true → tu.isTransformSkip = false := by
    unfold getUseScalingList
    cases tu.isTransformSkip <;> simp
  unfold rightShift IQUANT_SHIFT LOG2_SCALING_LIST_NEUTRAL_VALUE
  constructor
  cases hts : tu.isTransformSkip with
  | false =>
    rw [hts] at hper hper'
    obtain ⟨hlow', hhigh'⟩ := htransform hts
    cases getUseScalingList q cs tu <;> simp <;> omega
  | true =>
    rw [hts] at hper hper'
    have hno : getUseScalingList q cs tu = false := by
      cases hq : getUseScalingList q cs tu with
      | false => rfl
      | true => rw [huse hq] at hts; cases hts
    rw [hno]
    simp
    omega

end

/-! ## The tables -/

/-- The factor of a sample: the block is stretched to a square and its place looked up in the
list of that square. -/
def scalingFactor (scalingList : ScalingList) (list lw lh n : ℕ) : ℤ :=
  let side := max lw lh
  let sizeNum := min 8 (2 ^ side)
  let ratio := 2 ^ side / sizeNum
  let j := n / 2 ^ lw * 2 ^ (side - lh)
  let i := n % 2 ^ lw * 2 ^ (side - lw)
  if n = 0 ∧ 8 < 2 ^ side then scalingList.m_scalingListDC (scalingListIdOf side list)
  else scalingList.m_scalingListCoef (scalingListIdOf side list) (j / ratio * sizeNum + i / ratio)

/-- The shapes whose tables `setScalingListDec` fills. -/
def Covered (lw lh list : ℕ) : Prop :=
  lw ≤ 6 ∧ lh ≤ 6 ∧ (lw = lh → 1 ≤ lw ∧ (lw = 1 → 4 ≤ list)) ∧ (lw ≠ lh → 2 ≤ max lw lh)

section
variable {lw lh list qp : ℕ}

theorem mem_keysFor {sizew sizeh l : ℕ} :
    (lw, lh, list, qp) ∈ keysFor sizew sizeh l ↔ (sizew = lw ∧ sizeh = lh ∧ l = list) ∧ qp < 6 := by
  unfold keysFor SCALING_LIST_REM_NUM
  rw [mem_map]
  constructor
  · rintro ⟨qp', hmem, heq⟩
    obtain ⟨h1, h2, h3, rfl⟩ := by simpa only [Prod.mk.injEq] using heq
    exact ⟨⟨h1, h2, h3⟩, mem_range.mp hmem⟩
  · rintro ⟨⟨rfl, rfl, rfl⟩, hlt⟩
    exact ⟨qp, mem_range.mpr hlt, rfl⟩

theorem mem_squareKeys : (lw, lh, list, qp) ∈ squareKeys ↔
    lw = lh ∧ (1 ≤ lw ∧ lw ≤ 6) ∧ (lw = 1 → 4 ≤ list) ∧ list < 6 ∧ qp < 6 := by
  unfold squareKeys SCALING_LIST_FIRST_CODED SCALING_LIST_LAST_CODED SCALING_LIST_2x2 SCALING_LIST_NUM
  simp only [mem_flatMap, mem_range'_1, mem_range]
  constructor
  · rintro ⟨size, hsize, l, hl, hmem⟩
    split at hmem
    case isTrue => exact absurd hmem not_mem_nil
    case isFalse hskip =>
      obtain ⟨⟨rfl, rfl, rfl⟩, hqp⟩ := mem_keysFor.mp hmem
      exact ⟨rfl, by omega, by omega, hl, hqp⟩
  · rintro ⟨rfl, hsize, hsmall, hl, hqp⟩
    refine ⟨lw, by omega, list, hl, ?_⟩
    rw [if_neg (by omega)]
    exact mem_keysFor.mpr ⟨⟨rfl, rfl, rfl⟩, hqp⟩

theorem mem_rectangleKeys : (lw, lh, list, qp) ∈ rectangleKeys ↔
    lw ≠ lh ∧ 2 ≤ max lw lh ∧ lw ≤ 6 ∧ lh ≤ 6 ∧ list < 6 ∧ qp < 6 := by
  unfold rectangleKeys SCALING_LIST_LAST_CODED SCALING_LIST_4x4 SCALING_LIST_NUM
  simp only [mem_flatMap, mem_range]
  constructor
  · rintro ⟨sizew, hw, sizeh, hh, hmem⟩
    split at hmem
    case isTrue => exact absurd hmem not_mem_nil
    case isFalse hskip =>
      obtain ⟨l, hl, hmem⟩ := mem_flatMap.mp hmem
      obtain ⟨⟨rfl, rfl, rfl⟩, hqp⟩ := mem_keysFor.mp hmem
      exact ⟨by omega, by omega, by omega, by omega, mem_range.mp hl, hqp⟩
  · rintro ⟨hne, hmax, hw, hh, hl, hqp⟩
    refine ⟨lw, by omega, lh, by omega, ?_⟩
    rw [if_neg (by omega)]
    exact mem_flatMap.mpr ⟨list, mem_range.mpr hl, mem_keysFor.mpr ⟨⟨rfl, rfl, rfl⟩, hqp⟩⟩

theorem listSize_eq (h : lw ≤ 6) : g_scalingListSizeX.getD lw 0 = 2 ^ lw := by
  have hall : ∀ k ≤ 6, g_scalingListSizeX.getD k 0 = 2 ^ k := by decide
  exact hall lw h

/-- The factor, as `processScalingListDec` looks it up. -/
theorem scalingListCoeff_eq (coeff : ℕ → ℤ) (hw : lw ≤ 6) (hh : lh ≤ 6) {ratio sizeNum n : ℕ}
    (hsize : sizeNum = min 8 (2 ^ max lw lh)) (hratio : lw = lh → ratio = 2 ^ lw / sizeNum)
    (hn : n < 2 ^ lh * 2 ^ lw) :
    scalingListCoeff coeff (2 ^ lh) (2 ^ lw) ratio sizeNum (n / 2 ^ lw) (n % 2 ^ lw) =
      coeff (n / 2 ^ lw * 2 ^ (max lw lh - lh) / (2 ^ max lw lh / sizeNum) * sizeNum +
        n % 2 ^ lw * 2 ^ (max lw lh - lw) / (2 ^ max lw lh / sizeNum)) := by
  have hcol : n % 2 ^ lw < 2 ^ lw := Nat.mod_lt _ (by positivity)
  have hrow : n / 2 ^ lw < 2 ^ lh := Nat.div_lt_of_lt_mul (by rwa [mul_comm])
  have hcol' : 2 ^ lw ≤ 2 ^ 6 := Nat.pow_le_pow_right (by norm_num) hw
  have hrow' : 2 ^ lh ≤ 2 ^ 6 := Nat.pow_le_pow_right (by norm_num) hh
  have hsizePos : 0 < sizeNum := by rw [hsize]; positivity
  have hratioPos : ∀ s, s = max lw lh → 2 ^ s / sizeNum ≠ 0 := by
    rintro s rfl
    exact (Nat.div_pos (by rw [hsize]; exact min_le_right _ _) hsizePos).ne'
  unfold scalingListCoeff JVET_C0024_ZERO_OUT_TH
  dsimp only
  rcases Nat.lt_trichotomy lw lh with hlt | rfl | hgt
  · have hpow : 2 ^ lw < 2 ^ lh := Nat.pow_lt_pow_right (by norm_num) hlt
    rw [if_neg hpow.ne', if_neg (by omega), if_pos hpow, if_pos hpow, if_pos (hratioPos lh (by omega)),
      max_eq_right hlt.le, Nat.sub_self, pow_zero, mul_one, Nat.pow_div hlt.le (by norm_num)]
  · rw [if_pos rfl, max_self, Nat.sub_self, pow_zero, mul_one, mul_one, hratio rfl]
  · have hpow : 2 ^ lh < 2 ^ lw := Nat.pow_lt_pow_right (by norm_num) hgt
    rw [if_neg hpow.ne, if_neg (by omega), if_neg (by omega), if_neg (by omega), if_pos (hratioPos lw (by omega)),
      max_eq_left hgt.le, Nat.sub_self, pow_zero, mul_one, Nat.pow_div hgt.le (by norm_num)]

/-- What a visit makes of an entry. -/
def tableEntry (scalingList : ScalingList) (id ratio sizeNum : ℕ) (key : ℕ × ℕ × ℕ × ℕ) : (ℕ → ℤ) → ℕ → ℤ :=
  let width := g_scalingListSizeX.getD key.1 0
  let height := g_scalingListSizeX.getD key.2.1 0
  let blockIsNotPowerOf4 : Bool := (floorLog2 width + floorLog2 height) &&& 1 = 1
  processScalingListDec (scalingList.m_scalingListCoef id) (invQuantScale blockIsNotPowerOf4 key.2.2.2)
    height width ratio sizeNum (scalingList.m_scalingListDC id)

theorem tableEntry_eq (scalingList : ScalingList) (hw : lw ≤ 6) (hh : lh ≤ 6) {ratio sizeNum n : ℕ}
    (hsize : sizeNum = min 8 (2 ^ max lw lh)) (hratio : lw = lh → ratio = 2 ^ lw / sizeNum)
    (hn : n < 2 ^ lh * 2 ^ lw) (old : ℕ → ℤ) :
    tableEntry scalingList (scalingListIdOf (max lw lh) list) ratio sizeNum (lw, lh, list, qp) old n =
      invQuantScale (decide ((lw + lh) % 2 = 1)) qp * scalingFactor scalingList list lw lh n := by
  have hdc : scalingListHasDC (2 ^ lh) (2 ^ lw) ratio = decide (8 < 2 ^ max lw lh) := by
    unfold scalingListHasDC
    by_cases heq : lw = lh
    · subst heq
      rw [if_pos rfl, hratio rfl, hsize, max_self, decide_eq_decide]
      rcases Nat.lt_or_ge 8 (2 ^ lw) with hlt | hge
      · have h3 : 3 < lw := (Nat.pow_lt_pow_iff_right (by norm_num : 1 < 2)).mp hlt
        obtain ⟨d, rfl⟩ : ∃ d, lw = 3 + (d + 1) := ⟨lw - 4, by omega⟩
        have hpow : 2 ^ (3 + (d + 1)) = 16 * 2 ^ d := by ring
        have hpos : 0 < 2 ^ d := by positivity
        rw [min_eq_left hlt.le, hpow]
        omega
      · rw [min_eq_right hge, Nat.div_self (by positivity)]
        omega
    · have hne : 2 ^ lh ≠ 2 ^ lw := fun h => heq (Nat.pow_right_injective (le_refl 2) h).symm
      have hmax : max (2 ^ lw) (2 ^ lh) = 2 ^ max lw lh :=
        ((pow_right_mono₀ (by norm_num : 1 ≤ 2)).map_max).symm
      rw [if_neg hne, hmax]
  unfold tableEntry processScalingListDec scalingFactor
  dsimp only
  rw [listSize_eq hw, listSize_eq hh, floorLog2_two_pow, floorLog2_two_pow, Nat.and_one_is_mod, hdc]
  simp only [decide_eq_true_eq]
  split
  case isTrue => rfl
  case isFalse =>
    rw [scalingListCoeff_eq _ hw hh hsize hratio hn, hsize]

def squareEntry (scalingList : ScalingList) (key : ℕ × ℕ × ℕ × ℕ) : (ℕ → ℤ) → ℕ → ℤ :=
  let sizeX := g_scalingListSizeX.getD key.1 0
  tableEntry scalingList (scalingListIdOf key.1 key.2.2.1) (sizeX / min MAX_MATRIX_SIZE_NUM sizeX)
    (min MAX_MATRIX_SIZE_NUM sizeX) key

theorem xSetScalingListDec_eq (scalingList : ScalingList) : xSetScalingListDec scalingList =
    fun t k => Function.update t k (squareEntry scalingList k (t k)) := rfl

def rectangleEntry (scalingList : ScalingList) (key : ℕ × ℕ × ℕ × ℕ) : (ℕ → ℤ) → ℕ → ℤ :=
  let largeSideId := if key.1 > key.2.1 then key.1 else key.2.1
  tableEntry scalingList (scalingListIdOf largeSideId key.2.2.1) (if largeSideId > 3 then 2 else 1)
    (if largeSideId ≥ 3 then 8 else 4) key

theorem xSetRecScalingListDec_eq (scalingList : ScalingList) : xSetRecScalingListDec scalingList =
    fun t k => Function.update t k (rectangleEntry scalingList k (t k)) := rfl

theorem squareEntry_eq (scalingList : ScalingList) (hw : lw ≤ 6) {n : ℕ} (hn : n < 2 ^ lw * 2 ^ lw) (old : ℕ → ℤ) :
    squareEntry scalingList (lw, lw, list, qp) old n =
      invQuantScale (decide ((lw + lw) % 2 = 1)) qp * scalingFactor scalingList list lw lw n := by
  have h := @tableEntry_eq lw lw list qp scalingList hw hw (2 ^ lw / min MAX_MATRIX_SIZE_NUM (2 ^ lw))
    (min MAX_MATRIX_SIZE_NUM (2 ^ lw)) n (by rw [max_self]; rfl) (fun _ => rfl) hn old
  rw [max_self] at h
  unfold squareEntry
  dsimp only
  rw [listSize_eq hw, h]

theorem rectangleEntry_eq (scalingList : ScalingList) (hw : lw ≤ 6) (hh : lh ≤ 6) (hne : lw ≠ lh)
    (hlarge : 2 ≤ max lw lh) {n : ℕ} (hn : n < 2 ^ lh * 2 ^ lw) (old : ℕ → ℤ) :
    rectangleEntry scalingList (lw, lh, list, qp) old n =
      invQuantScale (decide ((lw + lh) % 2 = 1)) qp * scalingFactor scalingList list lw lh n := by
  have hside : (if lw > lh then lw else lh) = max lw lh := by
    split <;> omega
  have hsize : (if max lw lh ≥ 3 then 8 else 4) = min 8 (2 ^ max lw lh) := by
    generalize max lw lh = side at hlarge ⊢
    split
    case isTrue h3 =>
      have h8 : 2 ^ 3 ≤ 2 ^ side := Nat.pow_le_pow_right (by norm_num) h3
      exact (min_eq_left h8).symm
    case isFalse h3 =>
      obtain rfl : side = 2 := by omega
      rfl
  unfold rectangleEntry
  dsimp only
  rw [hside]
  exact tableEntry_eq scalingList hw hh hsize (fun h => absurd h hne) hn old

/-- The table of a shape that is covered. -/
theorem setScalingListDec_covered (scalingList : ScalingList) (m_dequantCoef : DequantCoef)
    (h : Covered lw lh list) (hl : list < 6) (hqp : qp < 6) {n : ℕ} (hn : n < 2 ^ lh * 2 ^ lw) :
    setScalingListDec scalingList m_dequantCoef (lw, lh, list, qp) n =
      invQuantScale (decide ((lw + lh) % 2 = 1)) qp * scalingFactor scalingList list lw lh n := by
  obtain ⟨hw, hh, hsquare, hrect⟩ := h
  rw [setScalingListDec, xSetScalingListDec_eq, xSetRecScalingListDec_eq]
  by_cases heq : lw = lh
  · subst heq
    obtain ⟨hpos, hsmall⟩ := hsquare rfl
    rw [foldl_update_of_notMem _ fun hmem => (mem_rectangleKeys.mp hmem).1 rfl]
    exact @foldl_update_of_mem _ _ _ _ _
      (fun entry : ℕ → ℤ => entry n = invQuantScale (decide ((lw + lw) % 2 = 1)) qp * scalingFactor scalingList list lw lw n)
      _ _ (squareEntry_eq scalingList hw hn) (mem_squareKeys.mpr ⟨rfl, ⟨hpos, hw⟩, hsmall, hl, hqp⟩)
  · exact @foldl_update_of_mem _ _ _ _ _
      (fun entry : ℕ → ℤ => entry n = invQuantScale (decide ((lw + lh) % 2 = 1)) qp * scalingFactor scalingList list lw lh n)
      _ _ (rectangleEntry_eq scalingList hw hh heq (hrect heq) hn)
      (mem_rectangleKeys.mpr ⟨heq, hrect heq, hw, hh, hl, hqp⟩)

/-- No other table is touched. -/
theorem setScalingListDec_uncovered (scalingList : ScalingList) (m_dequantCoef : DequantCoef)
    (h : ¬Covered lw lh list) :
    setScalingListDec scalingList m_dequantCoef (lw, lh, list, qp) = m_dequantCoef (lw, lh, list, qp) := by
  unfold Covered at h
  rw [setScalingListDec, xSetScalingListDec_eq, xSetRecScalingListDec_eq,
    foldl_update_of_notMem _ fun hmem => ?_, foldl_update_of_notMem _ fun hmem => ?_]
  · obtain ⟨rfl, ⟨hpos, hw⟩, hsmall, -⟩ := mem_squareKeys.mp hmem
    exact h ⟨hw, hw, fun _ => ⟨hpos, hsmall⟩, fun hne => absurd rfl hne⟩
  · obtain ⟨hne, hmax, hw, hh, -⟩ := mem_rectangleKeys.mp hmem
    exact h ⟨hw, hh, fun heq => absurd heq hne, fun _ => hmax⟩

end

/-! ## A block -/

section
variable {q : Quantiser} {cs : ChannelSettings} {tu : TransformBlock} {cQP : QpParam} {lw lh : ℕ}

/-- The quantiser with other tables. -/
def withTable (q : Quantiser) (table : DequantCoef) : Quantiser := { q with m_dequantCoef := table }

theorem withTable_use (table : DequantCoef) :
    getUseScalingList (withTable q table) cs tu = getUseScalingList q cs tu := rfl

theorem withTable_shift (table : DequantCoef) :
    rightShift (withTable q table) cs tu cQP = rightShift q cs tu cQP := rfl

theorem withTable_table (table : DequantCoef) : (withTable q table).m_dequantCoef = table := rfl

/-- The factor of each sample: the one of the QP, with that of the scaling list if it is used. -/
def scaleOf (q : Quantiser) (cs : ChannelSettings) (tu : TransformBlock) (cQP : QpParam) (scalingList : ScalingList)
    (lw lh n : ℕ) : ℤ :=
  invQuantScale (needsBlockSizeTrafoScale tu) (cQP.rem tu.isTransformSkip) *
    (if getUseScalingList q cs tu then scalingFactor scalingList (getScalingListType tu.predMode tu.compID) lw lh n
    else 1)

theorem listType_lt (predMode : PredMode) (compID : ComponentID) : getScalingListType predMode compID < 6 := by
  unfold getScalingListType
  cases compID <;> cases predMode <;> decide

/-- What is computed of a block once the scales are at hand. -/
theorem dequant_eq (h : Block cs tu lw lh) (hqp : QpFor cs.bitDepth cQP) (htr : tu.width ≤ q.m_uiMaxTrSize)
    (hbdpcm : tu.bdpcmMode = 0 ∧ tu.bdpcmModeChroma = 0) (levels : ℕ → ℤ) {use : Bool} {shift : ℤ}
    {table : DequantCoef} (huse : getUseScalingList q cs tu = use) (hshift : rightShift q cs tu cQP = shift)
    (htable : q.m_dequantCoef = table) :
    ∃ b, (∀ scale level, IsScale (if use then 26010 else 102) scale → LevelInRange level →
        dequantSample shift (-b) (b - 1) (-2 ^ 15) (2 ^ 15 - 1) scale level = .ok (dequantised shift scale level)) ∧
      dequant q cs tu cQP levels = (do
        let scales ← (if use then
            getDequantCoeff table (getScalingListType tu.predMode tu.compID) (cQP.rem tu.isTransformSkip) lw lh
          else pure fun _ => invQuantScale (needsBlockSizeTrafoScale tu) (cQP.rem tu.isTransformSkip) :
            Checked (ℕ → ℤ))
        (List.range (2 ^ lw * 2 ^ lh)).mapM fun n =>
          dequantSample shift (-b) (b - 1) (-2 ^ 15) (2 ^ 15 - 1) (scales n) (levels n)) := by
  subst huse hshift htable
  obtain ⟨b, hb, hsample⟩ := dequantSample_ok (h.shift (q := q) hqp)
  refine ⟨b, hsample, ?_⟩
  have hlevels : qCoefs cs tu levels = levels := by
    unfold qCoefs
    dsimp only
    rw [hbdpcm.1, hbdpcm.2, if_neg (by simp)]
  have hbits : (if getUseScalingList q cs tu then 1 + IQUANT_SHIFT + SCALING_LIST_BITS else IQUANT_SHIFT + 1) =
      if getUseScalingList q cs tu then 15 else 7 := rfl
  have hrange : shiftLeft32 1 15 = .ok (2 ^ 15) := rfl
  have hsize : u32 (2 ^ lw * 2 ^ lh) = 2 ^ lw * 2 ^ lh := by
    refine u32_of_lt ?_
    rw [← pow_add]
    have := h.lw_le
    have := h.lh_le
    exact Nat.pow_lt_pow_right (by norm_num) (by omega)
  have hlist : ¬getScalingListType tu.predMode tu.compID ≥ SCALING_LIST_NUM := Nat.not_le.mpr (listType_lt _ _)
  unfold dequant
  dsimp only
  rw [h.range, hrange, ok_bind, check_ok _ hlist, ok_bind, check_ok _ (Nat.not_lt.mpr htr), ok_bind, hbits, hb, ok_bind, h.width, h.height, floorLog2_two_pow, floorLog2_two_pow, hsize, hlevels]

/-- The entries of a scaling list; 0 is not coded but left in a part of the largest lists. -/
structure Entries (scalingList : ScalingList) : Prop where
  coef : ∀ id < 28, ∀ i < ScalingList.coefNum id,
    0 ≤ scalingList.m_scalingListCoef id i ∧ scalingList.m_scalingListCoef id i ≤ 255
  dc : ∀ id < 28, 0 ≤ scalingList.m_scalingListDC id ∧ scalingList.m_scalingListDC id ≤ 255

/-- The list of a square has its size, up to 8. -/
theorem scalingListIdOf_spec : ∀ side ∈ List.range' 1 6, ∀ list < 6,
    scalingListIdOf side list < 28 ∧ ScalingList.matrixSize (scalingListIdOf side list) = min 8 (2 ^ side) := by
  decide

/-- A place in the square, in the units of the list. -/
theorem place_lt {l side sizeNum x : ℕ} (hl : l ≤ side) (hdvd : sizeNum ∣ 2 ^ side) (hx : x < 2 ^ l) :
    x * 2 ^ (side - l) / (2 ^ side / sizeNum) < sizeNum := by
  obtain ⟨ratio, hratio⟩ := hdvd
  have hpos : 0 < sizeNum * ratio := hratio ▸ (by positivity : 0 < 2 ^ side)
  have hsize : 0 < sizeNum := Nat.pos_of_mul_pos_right hpos
  have hlt : x * 2 ^ (side - l) < 2 ^ side := by
    calc x * 2 ^ (side - l) < 2 ^ l * 2 ^ (side - l) := Nat.mul_lt_mul_of_pos_right hx (by positivity)
      _ = 2 ^ side := by rw [← pow_add, Nat.add_sub_cancel' hl]
  rw [hratio, Nat.mul_div_cancel_left _ hsize]
  exact Nat.div_lt_of_lt_mul (by rwa [mul_comm ratio, ← hratio])

theorem Entries.factor {scalingList : ScalingList} (h : Entries scalingList) {list n : ℕ} (hc : Covered lw lh list)
    (hl : list < 6) (hn : n < 2 ^ lw * 2 ^ lh) :
    0 ≤ scalingFactor scalingList list lw lh n ∧ scalingFactor scalingList list lw lh n ≤ 255 := by
  obtain ⟨hw, hh, hsquare, hrect⟩ := hc
  have hside : max lw lh ∈ List.range' 1 6 := by
    rw [mem_range'_1]
    omega
  obtain ⟨hid, hsize⟩ := scalingListIdOf_spec _ hside list hl
  have hdvd : min 8 (2 ^ max lw lh) ∣ 2 ^ max lw lh := by
    rcases le_total (2 ^ 3) (2 ^ max lw lh) with hle | hle
    · have h3 : 3 ≤ max lw lh := (Nat.pow_le_pow_iff_right (by norm_num : 1 < 2)).mp hle
      exact (Nat.min_eq_left hle).symm ▸ pow_dvd_pow 2 h3
    · exact (Nat.min_eq_right hle).symm ▸ dvd_refl _
  have hrow := place_lt (le_max_right lw lh) hdvd (Nat.div_lt_of_lt_mul hn)
  have hcol := place_lt (le_max_left lw lh) hdvd (Nat.mod_lt n (by positivity : 0 < 2 ^ lw))
  unfold scalingFactor
  dsimp only
  split
  case isTrue => exact h.dc _ hid
  case isFalse =>
    refine h.coef _ hid _ ?_
    rw [ScalingList.coefNum, hsize]
    generalize min 8 (2 ^ max lw lh) = sizeNum at hrow hcol ⊢
    calc _ < _ * sizeNum + sizeNum := Nat.add_lt_add_left hcol _
      _ ≤ sizeNum * sizeNum := by
        rw [← Nat.succ_mul]
        exact Nat.mul_le_mul_right _ hrow

/-- The scale of the QP times an entry of a list. -/
theorem isScale_product {scale factor : ℤ} (hscale : 40 ≤ scale ∧ scale ≤ 102) (hfactor : 0 ≤ factor ∧ factor ≤ 255) :
    IsScale 26010 (scale * factor) := by
  constructor
  · rcases Int.lt_or_eq_of_le hfactor.1 with hpos | hzero
    · exact .inr (le_trans hscale.1 (le_mul_of_one_le_right (by omega) hpos))
    · exact .inl (by rw [← hzero, mul_zero])
  · calc scale * factor ≤ 102 * 255 := mul_le_mul hscale.2 hfactor.2 hfactor.1 (by norm_num)
      _ = 26010 := by norm_num

/-- An entry that is out of reach or was never written. -/
theorem getDequantCoeff_eq_ok {table : DequantCoef} {list rem : ℕ} {scales : ℕ → ℤ}
    (h : getDequantCoeff table list rem lw lh = .ok scales) : scales = table (lw, lh, list, rem) := by
  unfold getDequantCoeff at h
  obtain ⟨-, -, h⟩ := bind_eq_ok h
  exact (Except.ok.inj h).symm

theorem getDequantCoeff_ok (table : DequantCoef) {list rem : ℕ} (hlw : lw ≤ 6) (hlh : lh ≤ 6) (hl : list < 6)
    (hrem : rem < 6) : getDequantCoeff table list rem lw lh = .ok (table (lw, lh, list, rem)) := by
  have hin : ¬(SCALING_LIST_SIZE_NUM ≤ lw ∨ SCALING_LIST_SIZE_NUM ≤ lh ∨ SCALING_LIST_NUM ≤ list ∨
      SCALING_LIST_REM_NUM ≤ rem) := by
    unfold SCALING_LIST_SIZE_NUM SCALING_LIST_NUM SCALING_LIST_REM_NUM
    omega
  unfold getDequantCoeff
  rw [check_ok _ hin]
  rfl

theorem use_notSkip (h : getUseScalingList q cs tu = true) : tu.isTransformSkip = false := by
  unfold getUseScalingList at h
  cases hts : tu.isTransformSkip with
  | false => rfl
  | true => rw [hts] at h; simp at h

/-- The dequantisation of a block is exact, whatever the tables held before the list was set, if and
only if the list is not used or covers the shape of the block. -/
theorem dequant_exact_iff (q : Quantiser) (cs : ChannelSettings) (tu : TransformBlock) (scalingList : ScalingList)
    (lw lh : ℕ) (qpy : ℤ) (compID : QpComponent) (chromaQPOffset dqp : ℤ) (mapped : ℤ → ℤ) (applyACTQpoffset : Bool)
    (hwidth : tu.width = 2 ^ lw) (hheight : tu.height = 2 ^ lh) (hlw : lw ≤ 8) (hlh : lh ≤ 8)
    (htr : tu.width ≤ q.m_uiMaxTrSize) (hbd : 8 ≤ cs.bitDepth ∧ cs.bitDepth ≤ 12)
    (hrange : cs.getMaxLog2TrDynamicRange = 15) (hbdpcm : tu.bdpcmMode = 0 ∧ tu.bdpcmModeChroma = 0)
    (hminus : 0 ≤ cs.internalMinusInputBitDepth ∧ cs.internalMinusInputBitDepth ≤ 8)
    (hentries : Entries scalingList) :
    let cQP := QpParam.new qpy compID cs.qpBdOffset cs.internalMinusInputBitDepth chromaQPOffset dqp mapped
      applyACTQpoffset
    (∀ memory levels, (∀ n, LevelInRange (levels n)) →
      dequant (withTable q (setScalingListDec scalingList memory)) cs tu cQP levels =
        .ok ((List.range (2 ^ lw * 2 ^ lh)).map fun n =>
          dequantised (rightShift q cs tu cQP) (scaleOf q cs tu cQP scalingList lw lh n) (levels n))) ↔
      (getUseScalingList q cs tu = true → Covered lw lh (getScalingListType tu.predMode tu.compID)) := by
  intro cQP
  have hblock : Block cs tu lw lh := ⟨hwidth, hheight, hlw, hlh, hbd, hrange⟩
  have hqp : QpFor cs.bitDepth cQP := QpParam.new_qpFor hbd.1 hminus _ _ _ _ _ _
  obtain ⟨-, -, hrem⟩ := hqp.per tu.isTransformSkip
  have hscale := invQuantScale_bounds (needsBlockSizeTrafoScale tu) _ hrem
  have hrun : ∀ table levels, ∃ b, _ := fun table levels =>
    @dequant_eq (withTable q table) cs tu cQP lw lh hblock hqp htr hbdpcm levels _ _ _ (withTable_use table)
      (withTable_shift table) (withTable_table table)
  clear_value cQP
  constructor
  · intro hexact huse
    by_contra hcovered
    -- the same list over two memories
    have hsame : ∀ c : ℤ, IsScale 26010 c → dequantised (rightShift q cs tu cQP) c (2 ^ 15 - 1) =
        dequantised (rightShift q cs tu cQP) (scaleOf q cs tu cQP scalingList lw lh 0) (2 ^ 15 - 1) := by
      intro c hc
      have hlevel : LevelInRange (2 ^ 15 - 1) := ⟨by norm_num, by norm_num⟩
      have hex := hexact (fun _ _ => c) (fun _ => 2 ^ 15 - 1) fun _ => hlevel
      have hentry := @setScalingListDec_uncovered lw lh _ (cQP.rem tu.isTransformSkip) scalingList (fun _ _ => c) hcovered
      generalize setScalingListDec scalingList (fun _ _ => c) = table at hex hentry
      obtain ⟨b, hsample, heq⟩ := hrun table fun _ => 2 ^ 15 - 1
      rw [hex, if_pos huse] at heq
      rw [if_pos huse] at hsample
      obtain ⟨scales, hscales, heq⟩ := bind_eq_ok heq.symm
      rw [getDequantCoeff_eq_ok hscales, hentry, mapM_ok fun n _ => hsample c (2 ^ 15 - 1) hc hlevel] at heq
      have hpos : 0 < 2 ^ lw * 2 ^ lh := by positivity
      exact map_inj_left.mp (Except.ok.inj heq) 0 (mem_range.mpr hpos)
    have hshift := (hblock.shift (q := q) hqp).bits
    rw [if_pos huse, if_pos huse] at hshift
    have hzero := (hsame 0 ⟨.inl rfl, by norm_num⟩).trans (hsame 26010 ⟨.inr (by norm_num), le_refl _⟩).symm
    rw [dequantised_zero] at hzero
    exact absurd hzero (dequantised_pos (by omega)).ne
  · intro hcovered memory levels hlevels
    have hentry : getUseScalingList q cs tu = true → ∀ n < 2 ^ lw * 2 ^ lh, _ := fun huse n hn =>
      @setScalingListDec_covered lw lh _ (cQP.rem tu.isTransformSkip) scalingList memory (hcovered huse)
        (listType_lt tu.predMode tu.compID) hrem n (by rwa [mul_comm])
    generalize setScalingListDec scalingList memory = table at hentry ⊢
    obtain ⟨b, hsample, heq⟩ := hrun table levels
    rw [heq]
    have hsamples : ∀ scales : ℕ → ℤ, (∀ n < 2 ^ lw * 2 ^ lh,
        IsScale (if getUseScalingList q cs tu then 26010 else 102) (scales n) ∧
          scales n = scaleOf q cs tu cQP scalingList lw lh n) →
        ((List.range (2 ^ lw * 2 ^ lh)).mapM fun n =>
          dequantSample (rightShift q cs tu cQP) (-b) (b - 1) (-2 ^ 15) (2 ^ 15 - 1) (scales n) (levels n)) =
        .ok ((List.range (2 ^ lw * 2 ^ lh)).map fun n =>
          dequantised (rightShift q cs tu cQP) (scaleOf q cs tu cQP scalingList lw lh n) (levels n)) := by
      intro scales hscales
      refine mapM_ok fun n hn => ?_
      obtain ⟨hs, heq⟩ := hscales n (mem_range.mp hn)
      rw [hsample _ _ hs (hlevels n), heq]
    by_cases huse : getUseScalingList q cs tu = true
    · have hneeds : needsBlockSizeTrafoScale tu = decide ((lw + lh) % 2 = 1) := by
        rw [hblock.needs, use_notSkip huse]
        exact Bool.true_and _
      obtain ⟨hlow, hhigh, -⟩ := hcovered huse
      rw [if_pos huse, getDequantCoeff_ok table hlow hhigh (listType_lt _ _) hrem, ok_bind]
      refine hsamples _ fun n hn => ?_
      rw [hentry huse n hn, ← hneeds]
      unfold scaleOf
      rw [if_pos huse, if_pos huse]
      exact ⟨isScale_product hscale (hentries.factor (hcovered huse) (listType_lt _ _) hn), rfl⟩
    · rw [if_neg huse]
      refine hsamples _ fun n _ => ?_
      unfold scaleOf
      rw [if_neg huse, if_neg huse, mul_one]
      exact ⟨⟨.inr hscale.1, hscale.2⟩, rfl⟩

end

/-! ## A list that is not there -/

def flatList : ScalingList where
  m_scalingListPredModeFlagIsCopy := fun _ => true
  m_scalingListDC := fun _ => 16
  m_refMatrixId := fun _ => 0
  m_scalingListPreditorModeFlag := fun _ => false
  m_scalingListCoef := fun _ _ => 16
  m_chromaScalingListPresentFlag := true

def mainChannel : ChannelSettings where
  bitDepth := 10
  internalMinusInputBitDepth := 0
  extendedPrecisionProcessingFlag := false
  disableScalingMatrixForLfnstBlks := false
  scalingMatrixForAlternativeColourSpaceDisabledFlag := false
  scalingMatrixDesignatedColourSpaceFlag := false
  explicitScalingListUsed := true
  isDualITree := false

def lumaBlock (width height : ℕ) : TransformBlock where
  compID := .Y
  width := width
  height := height
  isTransformSkip := false
  predMode := .intra
  lfnstIdx := 0
  colorTransform := false
  bdpcmMode := 0
  bdpcmModeChroma := 0

def scalingQuantiser : Quantiser := ⟨256, true, fun _ _ => 0⟩

/-- A block of 256x16 with a scaling list reads behind the end of the tables. -/
theorem dequant_exact_iff_wide :
    dequant (withTable scalingQuantiser (setScalingListDec flatList fun _ _ => 0)) mainChannel (lumaBlock 256 16)
      (QpParam.new 32 .Y 12 0 0 0 (fun qp => qp) false) (fun _ => 1) = .error outOfRange := by
  generalize setScalingListDec flatList (fun _ _ => 0) = table
  have hblock : Block mainChannel (lumaBlock 256 16) 8 4 :=
    ⟨rfl, rfl, by decide, by decide, ⟨by decide, by decide⟩, rfl⟩
  have hqp : QpFor mainChannel.bitDepth (QpParam.new 32 .Y 12 0 0 0 (fun qp => qp) false) :=
    @QpParam.new_qpFor 10 0 (by decide) (by decide) 32 .Y 0 0 (fun qp => qp) false
  obtain ⟨b, -, heq⟩ := dequant_eq hblock hqp (q := withTable scalingQuantiser table) (le_refl _) ⟨rfl, rfl⟩ (fun _ => 1)
    (withTable_use table) (withTable_shift table) (withTable_table table)
  rw [heq]
  rfl

/-- In a block of 8x16 each level of 3 stands for 864. -/
theorem dequant_exact_iff_small :
    dequant (withTable scalingQuantiser (setScalingListDec flatList fun _ _ => 0)) mainChannel (lumaBlock 8 16)
      (QpParam.new 32 .Y 12 0 0 0 (fun qp => qp) false) (fun _ => 3) =
        .ok ((List.range (2 ^ 3 * 2 ^ 4)).map fun n =>
          dequantised (rightShift scalingQuantiser mainChannel (lumaBlock 8 16)
            (QpParam.new 32 .Y 12 0 0 0 (fun qp => qp) false))
            (scaleOf scalingQuantiser mainChannel (lumaBlock 8 16)
              (QpParam.new 32 .Y 12 0 0 0 (fun qp => qp) false) flatList 3 4 n) 3) := by
  have hentries : Entries flatList := ⟨fun _ _ _ _ => ⟨by norm_num [flatList], by norm_num [flatList]⟩,
    fun _ _ => ⟨by norm_num [flatList], by norm_num [flatList]⟩⟩
  refine (dequant_exact_iff scalingQuantiser mainChannel (lumaBlock 8 16) flatList 3 4 32 .Y 0 0 (fun qp => qp) false
    rfl rfl (by decide) (by decide) (by decide) (by decide) rfl (by decide) (by decide) hentries).mpr ?_ _ _ ?_
  · intro _
    exact ⟨by decide, by decide, by decide, by decide⟩
  · exact fun _ => ⟨by decide, by decide⟩

end ECM.Quant.Dequant
