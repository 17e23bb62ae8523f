import ECM.CommonLib.TemporalMotion
import ECM.Lib.FixedPoint
import Mathlib.Tactic.IntervalCases

/-! # Scaling of temporal motion

A component is rounded to the nearest value of a 6-bit mantissa. The motion of the collocated picture
is scaled by a quotient of POC distances, which exists where no slice of the collocated picture refers
to its own POC by a short-term entry. -/

namespace ECM.Motion.TemporalScaling
open CommonLib Lib.FixedPoint

/-! ## The step of the mantissa -/

theorem floorLog2_or {m s : ℕ} (hlow : 32 * 2 ^ s ≤ m) (hhigh : m < 64 * 2 ^ s) : floorLog2 (m ||| 31) = s + 5 := by
  have hpow : (2 : ℕ) ^ (s + 5) = 32 * 2 ^ s := by rw [pow_add, mul_comm]; rfl
  have hpow' : (2 : ℕ) ^ (s + 5 + 1) = 64 * 2 ^ s := by rw [pow_succ, hpow]; ring
  have hone := Nat.one_le_two_pow (n := s)
  have hor : m ≤ m ||| 31 := Nat.left_le_or
  rw [floorLog2, Nat.log2_eq_iff (by omega)]
  constructor
  · rw [hpow]
    exact hlow.trans hor
  · refine Nat.or_lt_two_pow ?_ ?_
    · rw [hpow']
      exact hhigh
    · rw [hpow']
      omega

theorem floorLog2_or_small {m : ℕ} (h : m < 32) : floorLog2 (m ||| 31) = 4 := by
  have hor : 31 ≤ m ||| 31 := Nat.right_le_or
  rw [floorLog2, Nat.log2_eq_iff (by omega)]
  exact ⟨by omega, @Nat.or_lt_two_pow m 31 5 h (by norm_num)⟩

/-- A magnitude lies in one binade. -/
theorem exists_binade {m : ℕ} (hlow : 32 ≤ m) (hhigh : m ≤ 2 ^ 18) : ∃ s ≤ 13, 32 * 2 ^ s ≤ m ∧ m < 64 * 2 ^ s := by
  have hlog := Nat.log2_self_le (n := m) (by omega)
  have hlog' := Nat.lt_log2_self (n := m)
  have hge : 5 ≤ m.log2 := (Nat.le_log2 (by omega)).mpr hlow
  have hle : m.log2 < 19 := (Nat.log2_lt (by omega)).mpr (by omega)
  obtain ⟨s, hs⟩ := Nat.exists_eq_add_of_le hge
  rw [hs, pow_add] at hlog
  rw [hs, pow_succ, pow_add] at hlog'
  exact ⟨s, by omega, by omega, by omega⟩

/-- The scale of a component of magnitude `m`. -/
theorem scale_cases {m : ℕ} {scale : ℤ} (hm : m ≤ 2 ^ 18) (hscale : scale = floorLog2 (m ||| 31) - 5) :
    (scale = -1 ∧ m < 32) ∨ ∃ s : ℕ, s ≤ 13 ∧ scale = s ∧ (32 : ℤ) * 2 ^ s ≤ m ∧ (m : ℤ) < 64 * 2 ^ s := by
  rcases Nat.lt_or_ge m 32 with hlt | hge
  · refine .inl ⟨?_, hlt⟩
    rw [hscale, floorLog2_or_small hlt]
    rfl
  · obtain ⟨s, hs, h1, h2⟩ := exists_binade hge hm
    refine .inr ⟨s, hs, ?_, by exact_mod_cast h1, by exact_mod_cast h2⟩
    rw [hscale, floorLog2_or h1 h2]
    omega

/-- The components that are rounded, with the ends of the next binade. -/
def Rounded (v : ℤ) : Prop := -2 ^ 18 ≤ v ∧ v ≤ 2 ^ 18

/-- What the sign, the scale and the value of a component come to. -/
inductive Binade (v : ℤ) : Prop
  | small (scale : mvScale v = -1) (low : -32 ≤ v) (high : v < 32)
  | positive (s : ℕ) (le : s ≤ 13) (sign : v >>> (31 : ℕ) = 0) (scale : mvScale v = s) (low : 32 * 2 ^ s ≤ v)
      (high : v < 64 * 2 ^ s)
  | negative (s : ℕ) (le : s ≤ 13) (sign : v >>> (31 : ℕ) = -1) (scale : mvScale v = s) (low : -64 * 2 ^ s ≤ v)
      (high : v < -32 * 2 ^ s)

theorem binade {v : ℤ} (hv : Rounded v) : Binade v := by
  obtain ⟨hlow, hhigh⟩ := hv
  cases v with
  | ofNat m =>
    have hsign : (Int.ofNat m) >>> (31 : ℕ) = 0 := by
      rw [Int.shiftRight_eq_div_pow]
      exact Int.ediv_eq_zero_of_lt (Int.natCast_nonneg m) (by simp only [Int.ofNat_eq_natCast] at *; omega)
    have hscale : mvScale (Int.ofNat m) = floorLog2 (m ||| 31) - 5 := by
      rw [mvScale, hsign]
      have hxor : Int.xor (Int.ofNat m) 0 = Int.ofNat m := congrArg Int.ofNat (Nat.xor_zero m)
      simp only [hxor]
      rfl
    rw [Int.ofNat_eq_natCast] at *
    rcases scale_cases (by omega) hscale with ⟨hs, hm⟩ | ⟨s, hle, hs, h1, h2⟩
    · exact .small hs (by omega) (by omega)
    · exact .positive s hle hsign hs h1 h2
  | negSucc m =>
    have hval : Int.negSucc m = -(m : ℤ) - 1 := by omega
    have hsign : (Int.negSucc m) >>> (31 : ℕ) = -1 := by
      rw [Int.shiftRight_eq_div_pow]
      omega
    have hscale : mvScale (Int.negSucc m) = floorLog2 (m ||| 31) - 5 := by
      rw [mvScale, hsign]
      have hxor : Int.xor (Int.negSucc m) (-1) = Int.ofNat m := congrArg Int.ofNat (Nat.xor_zero m)
      simp only [hxor]
      rfl
    rcases scale_cases (by omega) hscale with ⟨hs, hm⟩ | ⟨s, hle, hs, h1, h2⟩
    · exact .small hs (by omega) (by omega)
    · exact .negative s hle hsign hs (by omega) (by omega)

/-! ## Packing

There are 33 values of the mantissa for each step, with both ends of the binade. -/

theorem unpack_positive : ∀ s < 14, ∀ k < 33,
    convertMvFloatToFixed (roundMvFloat 0 (32 + (k : ℕ)) s) = (32 + (k : ℕ)) * 2 ^ s := by
  intro s hs
  interval_cases s <;> decide +kernel

/-- The lower end of the first negative binade is a component that is not rounded. -/
theorem unpack_negative : ∀ s < 14, ∀ k < 33, (s = 0 → k ≠ 0) →
    convertMvFloatToFixed (roundMvFloat (-1) (-32 - (k : ℕ)) s) = (-32 - (k : ℕ)) * 2 ^ s := by
  intro s hs
  interval_cases s <;> decide +kernel

theorem unpack_small : ∀ k < 64, convertMvFloatToFixed (packMvFloat 0 ((k : ℕ) - 32)) = (k : ℕ) - 32 := by
  decide +kernel

/-- A step of the mantissa of `v`. -/
def mvStep (v : ℤ) : ℤ := 2 ^ (mvScale v).toNat

theorem mvStep_pos (v : ℤ) : 0 < mvStep v := pow_pos (by norm_num) _

theorem round_shift (s : ℕ) (v : ℤ) :
    (v + ((1 : ℤ) <<< s) >>> (1 : ℕ)) >>> s = (v + 2 ^ s / 2) / 2 ^ s := by
  rw [Int.shiftRight_eq_div_pow, Int.shiftRight_eq_div_pow, Int.shiftLeft_eq, Int.one_mul]
  norm_num

theorem roundMvComp_eq {v : ℤ} (hv : Rounded v) : roundMvComp v = roundedTo (mvStep v) v := by
  rw [roundMvComp, convertMvFixedToFloat, mvStep]
  cases binade hv with
  | small hscale hlow hhigh =>
    obtain ⟨k, hk⟩ := Int.eq_ofNat_of_zero_le (show 0 ≤ v + 32 by omega)
    have hunpack := unpack_small k (by omega)
    rw [← hk, add_sub_cancel_right] at hunpack
    simp only [hscale]
    rw [if_neg (by decide), hunpack, roundedTo, show (2 : ℤ) ^ (-1 : ℤ).toNat = 1 from rfl]
    omega
  | positive s hs hsign hscale hlow hhigh =>
    have hpos : (0 : ℤ) < 2 ^ s := by positivity
    have hn : 32 ≤ (v + 2 ^ s / 2) / 2 ^ s := Int.le_ediv_of_mul_le hpos (by omega)
    have hn' : (v + 2 ^ s / 2) / 2 ^ s < 65 := Int.ediv_lt_of_lt_mul hpos (by omega)
    obtain ⟨k, hk⟩ := Int.eq_ofNat_of_zero_le (show 0 ≤ (v + 2 ^ s / 2) / 2 ^ s - 32 by omega)
    have hunpack := unpack_positive s (by omega) k (by omega)
    rw [← hk, add_sub_cancel] at hunpack
    simp only [hscale, hsign, Int.toNat_natCast]
    rw [if_pos (Int.natCast_nonneg s), round_shift, hunpack, roundedTo]
  | negative s hs hsign hscale hlow hhigh =>
    have hpos : (0 : ℤ) < 2 ^ s := by positivity
    have hn : -64 ≤ (v + 2 ^ s / 2) / 2 ^ s := Int.le_ediv_of_mul_le hpos (by omega)
    have hn' : (v + 2 ^ s / 2) / 2 ^ s < -31 := Int.ediv_lt_of_lt_mul hpos (by omega)
    obtain ⟨k, hk⟩ := Int.eq_ofNat_of_zero_le (show 0 ≤ -32 - (v + 2 ^ s / 2) / 2 ^ s by omega)
    have hzero : s = 0 → k ≠ 0 := by
      rintro rfl
      norm_num at hk hhigh
      omega
    have hunpack := unpack_negative s (by omega) k (by omega) hzero
    rw [← hk, sub_sub_cancel] at hunpack
    simp only [hscale, hsign, Int.toNat_natCast]
    rw [if_pos (Int.natCast_nonneg s), round_shift, hunpack, roundedTo]

/-- No value of a mantissa of 6 bits with its sign is nearer. -/
theorem roundMvComp_roundsTo : RoundsTo Rounded (Leading 32) roundMvComp where
  value v hv := by
    rw [roundMvComp_eq hv, mvStep]
    cases binade hv with
    | small hscale hlow hhigh =>
      rw [hscale]
      exact roundedTo_leading (abs_le.mpr ⟨by rw [show (-1 : ℤ).toNat = 0 from rfl]; omega,
        by rw [show (-1 : ℤ).toNat = 0 from rfl]; omega⟩)
    | positive s hs hsign hscale hlow hhigh =>
      rw [hscale, Int.toNat_natCast]
      have hpos : (0 : ℤ) < 2 ^ s := by positivity
      exact roundedTo_leading (abs_le.mpr ⟨by linarith, by linarith⟩)
    | negative s hs hsign hscale hlow hhigh =>
      rw [hscale, Int.toNat_natCast]
      have hpos : (0 : ℤ) < 2 ^ s := by positivity
      exact roundedTo_leading (abs_le.mpr ⟨by linarith, by linarith⟩)
  nearest v w hv hw := by
    rw [roundMvComp_eq hv, mvStep]
    refine leading_nearest (by norm_num) ?_ hw
    cases binade hv with
    | small hscale hlow hhigh =>
      right
      rw [hscale]
      rfl
    | positive s hs hsign hscale hlow hhigh =>
      left
      rw [hscale, Int.toNat_natCast]
      exact hlow.trans (le_abs_self v)
    | negative s hs hsign hscale hlow hhigh =>
      left
      rw [hscale, Int.toNat_natCast]
      refine le_trans ?_ (neg_le_abs v)
      linarith

/-- A component as it is stored. -/
def Stored (v : ℤ) : Prop := MV_MIN ≤ v ∧ v ≤ MV_MAX

theorem Stored.rounded {v : ℤ} (h : Stored v) : Rounded v := by
  unfold Stored MV_MIN MV_MAX at h
  unfold Rounded
  omega

/-- A stored component is rounded to the range of the storage with its open end. -/
theorem Stored.round {v : ℤ} (h : Stored v) : -2 ^ 17 ≤ roundMvComp v ∧ roundMvComp v ≤ 2 ^ 17 := by
  have hmin : Leading 32 (-2 ^ 17) := ⟨-32, 12, by norm_num, by norm_num⟩
  have hmax : Leading 32 (2 ^ 17) := ⟨32, 12, by norm_num, by norm_num⟩
  have hv := h.rounded
  obtain ⟨hlow, hhigh⟩ := h
  unfold MV_MIN at hlow
  unfold MV_MAX at hhigh
  have hdmin : Rounded (-2 ^ 17) := ⟨by norm_num, by norm_num⟩
  have hdmax : Rounded (2 ^ 17) := ⟨by norm_num, by norm_num⟩
  constructor
  · rw [← roundMvComp_roundsTo.fixes hdmin hmin]
    exact roundMvComp_roundsTo.mono hdmin hv hlow
  · rw [← roundMvComp_roundsTo.fixes hdmax hmax]
    exact roundMvComp_roundsTo.mono hv hdmax (by omega)

/-- What is said of the rounding of stored components. -/
structure RoundsStored : Prop where
  idempotent : ∀ v, Stored v → roundMvComp (roundMvComp v) = roundMvComp v
  mono : ∀ v w, Stored v → Stored w → v ≤ w → roundMvComp v ≤ roundMvComp w
  half_step : ∀ v, Stored v → 2 * |roundMvComp v - v| ≤ mvStep v

theorem roundsStored : RoundsStored where
  idempotent v hv := by
    obtain ⟨hlow, hhigh⟩ := hv.round
    exact roundMvComp_roundsTo.idempotent hv.rounded ⟨by omega, by omega⟩
  mono _ _ hv hw hvw := roundMvComp_roundsTo.mono hv.rounded hw.rounded hvw
  half_step v hv := by
    rw [roundMvComp_eq hv.rounded]
    exact roundedTo_error (mvStep_pos v) v

/-! ## Scaling -/

open WeightPrediction (Clip3)

theorem Clip3_mem {lo hi : ℤ} (h : lo ≤ hi) (a : ℤ) : lo ≤ Clip3 lo hi a ∧ Clip3 lo hi a ≤ hi :=
  ⟨le_min (le_max_left _ _) h, min_le_right _ _⟩

theorem Clip3_eq_zero {a : ℤ} (h : Clip3 (-128) 127 a = 0) : a = 0 := by
  unfold Clip3 at h
  omega

theorem divide_ok {a b : ℤ} (h : b ≠ 0) : divide a b = .ok (a.tdiv b) := by
  rw [divide, check_ok _ h]
  rfl

theorem abs_tdiv_le (a b : ℤ) : |a.tdiv b| ≤ |a| := by
  rw [Int.abs_eq_natAbs, Int.abs_eq_natAbs, Int.natAbs_tdiv]
  exact_mod_cast Nat.div_le_self _ _

/-- The distance of the collocated picture is divided by where it is not zero. -/
theorem xGetDistScaleFactor_ok {iCurrPOC iCurrRefPOC iColPOC iColRefPOC : ℤ} (h : iColPOC ≠ iColRefPOC) :
    ∃ iScale, xGetDistScaleFactor iCurrPOC iCurrRefPOC iColPOC iColRefPOC = .ok iScale ∧
      -4096 ≤ iScale ∧ iScale ≤ 4096 := by
  unfold xGetDistScaleFactor
  dsimp only
  by_cases heq : iColPOC - iColRefPOC = iCurrPOC - iCurrRefPOC
  · rw [if_pos heq]
    exact ⟨4096, rfl, by omega, by omega⟩
  rw [if_neg heq]
  have htdd : Clip3 (-128) 127 (iColPOC - iColRefPOC) ≠ 0 := fun hzero => h (sub_eq_zero.mp (Clip3_eq_zero hzero))
  obtain ⟨hb, hb'⟩ := @Clip3_mem (-128) 127 (by omega) (iCurrPOC - iCurrRefPOC)
  obtain ⟨hd, hd'⟩ := @Clip3_mem (-128) 127 (by omega) (iColPOC - iColRefPOC)
  generalize Clip3 (-128) 127 (iColPOC - iColRefPOC) = iTDD at htdd hd hd' ⊢
  generalize Clip3 (-128) 127 (iCurrPOC - iCurrRefPOC) = iTDB at hb hb' ⊢
  have hx : |(0x4000 + |iTDD.tdiv 2|).tdiv iTDD| ≤ 2 ^ 15 := by
    have hround := (abs_tdiv_le iTDD 2).trans (abs_le.mpr ⟨hd, by omega⟩)
    have hnonneg := abs_nonneg (iTDD.tdiv 2)
    refine (abs_tdiv_le _ _).trans ?_
    rw [abs_of_nonneg (by omega)]
    omega
  rw [divide_ok htdd, ok_bind]
  generalize (0x4000 + |iTDD.tdiv 2|).tdiv iTDD = iX at hx ⊢
  have hproduct : |iTDB * iX| ≤ 2 ^ 7 * 2 ^ 15 := by
    rw [abs_mul]
    exact mul_le_mul (abs_le.mpr ⟨by omega, by omega⟩) hx (abs_nonneg _) (by norm_num)
  obtain ⟨hp, hp'⟩ := abs_le.mp hproduct
  rw [int32_ok (by omega), ok_bind, int32_ok (by omega), ok_bind]
  obtain ⟨hs, hs'⟩ := @Clip3_mem (-4096) 4095 (by omega) ((iTDB * iX + 32) >>> (6 : ℕ))
  exact ⟨_, rfl, hs, by omega⟩

/-- A division by zero is the only thing that can go wrong with the factor. -/
theorem xGetDistScaleFactor_error {iCurrPOC iCurrRefPOC iColPOC : ℤ} (h : iCurrPOC ≠ iCurrRefPOC) :
    xGetDistScaleFactor iCurrPOC iCurrRefPOC iColPOC iColPOC = .error "division by zero" := by
  unfold xGetDistScaleFactor
  dsimp only
  rw [if_neg (by omega), sub_self]
  rfl

theorem scaleMvComp_ok {iScale c : ℤ} (hs : -4096 ≤ iScale ∧ iScale ≤ 4096) (hc : -2 ^ 17 ≤ c ∧ c ≤ 2 ^ 17) :
    ∃ m, scaleMvComp iScale c = .ok m ∧ Stored m := by
  have hproduct : |iScale * c| ≤ 4096 * 2 ^ 17 := by
    rw [abs_mul]
    exact mul_le_mul (abs_le.mpr hs) (abs_le.mpr hc) (abs_nonneg _) (by norm_num)
  obtain ⟨hp, hp'⟩ := abs_le.mp hproduct
  unfold scaleMvComp
  rw [int32_ok (by omega), ok_bind, int32_ok (by omega), ok_bind, int32_ok (by split <;> omega), ok_bind]
  exact ⟨_, rfl, Clip3_mem (by decide) _⟩

def StoredMv (mv : Mv) : Prop := Stored mv.hor ∧ Stored mv.ver

theorem storedMv_zero : StoredMv ⟨0, 0⟩ := by
  have hzero : Stored 0 := ⟨by decide, by decide⟩
  exact ⟨hzero, hzero⟩

theorem scaleMv_ok {mv : Mv} {iScale : ℤ} (hs : -4096 ≤ iScale ∧ iScale ≤ 4096) (hmv : StoredMv mv) :
    ∃ mv', mv.round.scaleMv iScale = .ok mv' ∧ StoredMv mv' := by
  obtain ⟨mvx, hx, hmvx⟩ := scaleMvComp_ok hs hmv.1.round
  obtain ⟨mvy, hy, hmvy⟩ := scaleMvComp_ok hs hmv.2.round
  refine ⟨⟨mvx, mvy⟩, ?_, hmvx, hmvy⟩
  rw [Mv.scaleMv, Mv.round, hx, ok_bind, hy]
  rfl

theorem clipToStorageBitDepth_stored (mv : Mv) : StoredMv mv.clipToStorageBitDepth :=
  ⟨Clip3_mem (by decide) _, Clip3_mem (by decide) _⟩

/-! ## What the construction of the lists leaves -/

open ECM.Hls (isShortterm)

variable {s : ConstructSlice} {pics pics' : List Picture}

/-- The picture that is marked, as it is after it. -/
theorem modify_longTerm {i : ℕ} {b : Bool} {p : Picture}
    (h : (pics.modify i fun p => { p with longTerm := b })[i]? = some p) :
    ∃ q, pics[i]? = some q ∧ p.poc = q.poc ∧ p.longTerm = b := by
  simp only [List.getElem?_modify, if_true] at h
  obtain ⟨q, hq, rfl⟩ := Option.map_eq_some_iff.mp h
  exact ⟨q, hq, rfl, rfl⟩

theorem xGetRefPic_poc {poc layerId : ℤ} {i : ℕ} {q : Picture} (h : xGetRefPic pics poc layerId = .ok i)
    (hq : pics[i]? = some q) : q.poc = poc := by
  rw [xGetRefPic] at h
  split at h
  case h_1 j hfind =>
    obtain rfl := Except.ok.inj h
    obtain ⟨hlt, hp, -⟩ := List.findIdx?_eq_some_iff_getElem.mp hfind
    rw [List.getElem?_eq_getElem hlt] at hq
    rw [Option.some.inj hq, Bool.and_eq_true] at hp
    exact of_decide_eq_true hp.1
  case h_2 => cases h

/-- What a slice keeps of the entry `e`: a short-term entry refers to the POC that it names. -/
structure Keeps (s : ConstructSlice) (e : Rpl.Entry) (r : SlicePicRef) : Prop where
  longTerm : r.isUsedAsLongTerm = !isShortterm e
  refPOC : isShortterm e = true → r.refPOC = s.poc + e.m_refPicIdentifier

theorem constructEntry_keeps {e localRPL : Rpl.Entry} {ii pcRefPic : ℕ} {pic : Picture}
    (h : s.constructEntry e.toRefPicEntry localRPL.toRefPicEntry ii pics = .ok (pcRefPic, pics'))
    (hpic : pics'[pcRefPic]? = some pic) : Keeps s e ⟨pcRefPic, pic.poc, pic.longTerm⟩ := by
  unfold ConstructSlice.constructEntry Rpl.Entry.toRefPicEntry at h
  dsimp only at h
  cases hinter : e.m_isInterLayerRefPic with
  | true =>
    rw [hinter, if_pos rfl] at h
    obtain ⟨refLayerId, -, h⟩ := bind_eq_ok h
    obtain ⟨i, -, h⟩ := bind_eq_ok h
    cases h
    obtain ⟨q, -, -, hlong⟩ := modify_longTerm hpic
    exact ⟨by simp [isShortterm, hinter, hlong], by simp [isShortterm, hinter]⟩
  | false =>
    rw [hinter, if_neg Bool.false_ne_true] at h
    cases hlongterm : e.m_isLongtermRefPic with
    | true =>
      rw [hlongterm, if_neg (by decide)] at h
      obtain ⟨i, -, h⟩ := bind_eq_ok h
      cases h
      obtain ⟨q, -, -, hlong⟩ := modify_longTerm hpic
      exact ⟨by simp [isShortterm, hinter, hlongterm, hlong], by simp [isShortterm, hinter, hlongterm]⟩
    | false =>
      rw [hlongterm, if_pos (by decide)] at h
      obtain ⟨i, hfound, h⟩ := bind_eq_ok h
      cases h
      obtain ⟨q, hq, hpoc, hlong⟩ := modify_longTerm hpic
      exact ⟨by simp [isShortterm, hinter, hlongterm, hlong], fun _ => hpoc.trans (xGetRefPic_poc hfound hq)⟩

/-- The references of one list, entry by entry. -/
structure KeepsAll (s : ConstructSlice) (rpl : Rpl.ReferencePictureList) (n ii : ℕ) (refs : List SlicePicRef) :
    Prop where
  length : refs.length = n
  entry : ∀ k r, refs[k]? = some r → ∃ e, rpl.m_entries[ii + k]? = some e ∧ Keeps s e r

theorem constructRefs_keepsAll {m_pRPL m_localRPL : Rpl.ReferencePictureList} {n : ℕ} :
    ∀ {ii : ℕ} {pics : List Picture} {refs : List SlicePicRef},
    s.constructRefs m_pRPL m_localRPL n ii pics = .ok (refs, pics') → KeepsAll s m_pRPL n ii refs := by
  induction n with
  | zero =>
    intro ii pics refs h
    cases h
    exact ⟨rfl, fun k r hr => by cases hr⟩
  | succ n ih =>
    intro ii pics refs h
    rw [ConstructSlice.constructRefs] at h
    obtain ⟨e, he, h⟩ := bind_eq_ok h
    obtain ⟨localRPL, -, h⟩ := bind_eq_ok h
    obtain ⟨⟨pcRefPic, pics₁⟩, hentry, h⟩ := bind_eq_ok h
    obtain ⟨pic, hpic, h⟩ := bind_eq_ok h
    obtain ⟨⟨refs', pics₂⟩, hrest, h⟩ := bind_eq_ok h
    cases h
    have hkeeps := constructEntry_keeps hentry (readAt_eq_ok hpic)
    have hall := ih hrest
    refine ⟨congrArg (· + 1) hall.length, fun k r hr => ?_⟩
    cases k with
    | zero =>
      obtain rfl := Option.some.inj hr
      exact ⟨e, readAt_eq_ok he, hkeeps⟩
    | succ k =>
      obtain ⟨e', he', hkeeps'⟩ := hall.entry k r hr
      exact ⟨e', by rw [← he', Nat.add_right_comm, Nat.add_assoc], hkeeps'⟩

/-- A slice after its lists have been constructed. -/
structure ConstructedSlice where
  independentSliceIdx : ℕ
  slice : ConstructSlice
  m_pRPL : RefPicList → Rpl.ReferencePictureList
  m_localRPL : RefPicList → Rpl.ReferencePictureList
  m_aiNumRefIdx : RefPicList → ℕ
  rcListPic : List Picture
  refs : RefPicList → List SlicePicRef
  rcListPic' : List Picture
  constructed : slice.constructRefPicLists m_pRPL m_localRPL m_aiNumRefIdx rcListPic = .ok (refs, rcListPic')

namespace ConstructedSlice

/-- The slice of a collocated picture. -/
def toColSlice (s : ConstructedSlice) : ColSlice := ⟨s.independentSliceIdx, s.slice.poc, s.refs⟩

theorem keepsAll (s : ConstructedSlice) (l : RefPicList) :
    KeepsAll s.slice (s.m_pRPL l) (s.m_aiNumRefIdx l) 0 (s.refs l) := by
  have h := s.constructed
  rw [ConstructSlice.constructRefPicLists] at h
  obtain ⟨-, -, h⟩ := bind_eq_ok h
  obtain ⟨⟨refs0, pics0⟩, h0, h⟩ := bind_eq_ok h
  obtain ⟨-, -, h⟩ := bind_eq_ok h
  obtain ⟨⟨refs1, pics1⟩, h1, h⟩ := bind_eq_ok h
  obtain ⟨hrefs, -⟩ := Prod.mk.inj (Except.ok.inj h)
  rw [← hrefs]
  cases l with
  | REF_PIC_LIST_0 => exact constructRefs_keepsAll h0
  | REF_PIC_LIST_1 => exact constructRefs_keepsAll h1

/-- No active short-term entry names the POC of the slice: the differences of the entries do not cancel,
and there are no more active entries than coded ones. -/
def SkipsOwnPoc (s : ConstructedSlice) : Prop :=
  ∀ l i e, i < s.m_aiNumRefIdx l → (s.m_pRPL l).m_entries[i]? = some e → isShortterm e = true →
    e.m_refPicIdentifier ≠ 0

theorem SkipsOwnPoc.refPOC_ne {s : ConstructedSlice} (h : s.SkipsOwnPoc) {l : RefPicList} {k : ℕ} {r : SlicePicRef}
    (hr : (s.refs l)[k]? = some r) (hshort : r.isUsedAsLongTerm = false) : s.slice.poc ≠ r.refPOC := by
  obtain ⟨e, he, hkeeps⟩ := (s.keepsAll l).entry k r hr
  have hlt : k < s.m_aiNumRefIdx l := by
    rw [← (s.keepsAll l).length]
    exact (List.getElem?_eq_some_iff.mp hr).1
  have he' : isShortterm e = true := by
    have hlong := hkeeps.longTerm
    rw [hshort] at hlong
    simpa using hlong.symm
  rw [Nat.zero_add] at he
  have hne := h l k e hlt he he'
  rw [hkeeps.refPOC he']
  omega

end ConstructedSlice

/-! ## The collocated motion -/

/-- A motion that is stored with a picture of these slices: it belongs to one of them, and to its
references. -/
structure StoredMotion (slices : List ColSlice) (mi : MotionLut.MotionInfo) : Prop where
  slice : ∃ colSlice, slices.find? (fun s => s.independentSliceIdx = mi.sliceIdx) = some colSlice ∧
    ∀ l : RefPicList, mi.refIdx l.idx < (colSlice.refs l).length
  mv : ∀ l : RefPicList, 0 ≤ mi.refIdx l.idx → StoredMv (mi.mv l.idx)

/-- The reference that the motion is scaled to is an active one. -/
structure ValidRef (slice : TemporalSlice) (eRefPicList : RefPicList) (refIdx : ℤ) (targetRefIdx : Option ℤ) :
    Prop where
  refIdx : targetRefIdx = none → 0 ≤ refIdx ∧ refIdx < (slice.m_apcRefPicList eRefPicList).length
  imRefIdx : ∀ sliceIdx l i, -1 ≤ slice.getImRefIdx sliceIdx l eRefPicList i ∧
    slice.getImRefIdx sliceIdx l eRefPicList i < (slice.m_apcRefPicList eRefPicList).length

theorem getRefPic_ok {slice : TemporalSlice} {l : RefPicList} {refIdx : ℤ} (hnonneg : 0 ≤ refIdx)
    (hlt : refIdx < (slice.m_apcRefPicList l).length) : ∃ pic, slice.getRefPic l refIdx = .ok pic := by
  obtain ⟨pic, hpic⟩ : ∃ pic, (slice.m_apcRefPicList l)[refIdx.toNat]? = some pic :=
    ⟨_, List.getElem?_eq_getElem (by omega)⟩
  refine ⟨pic, ?_⟩
  rw [TemporalSlice.getRefPic, if_neg (by omega), hpic]

/-- The call returns, and what it returns can be stored. -/
def Returns {α : Type} (mvOf : α → Option Mv) (run : Checked α) : Prop :=
  ∃ r, run = .ok r ∧ ∀ mv ∈ mvOf r, StoredMv mv

theorem scaledTo_returns {slice : TemporalSlice} {colSlice : ColSlice} {ref : SlicePicRef} {mv : Mv}
    {eRefPicList : RefPicList} {refIdx : ℤ} (hpic : ∃ pic, slice.getRefPic eRefPicList refIdx = .ok pic)
    (href : ref.isUsedAsLongTerm = false → colSlice.poc ≠ ref.refPOC) (hmv : StoredMv mv) :
    Returns id (slice.scaledTo colSlice ref mv eRefPicList refIdx) := by
  obtain ⟨pic, hpic⟩ := hpic
  rw [TemporalSlice.scaledTo, hpic, ok_bind]
  dsimp only
  by_cases hkind : pic.longTerm = ref.isUsedAsLongTerm
  · rw [if_neg (not_not.mpr hkind)]
    cases hlong : pic.longTerm with
    | true =>
      rw [if_pos rfl]
      refine ⟨_, rfl, fun mv' hmv' => ?_⟩
      obtain rfl := Option.some.inj hmv'
      exact clipToStorageBitDepth_stored _
    | false =>
      rw [if_neg Bool.false_ne_true]
      obtain ⟨iScale, hscale, hbounds⟩ := @xGetDistScaleFactor_ok slice.poc pic.poc colSlice.poc ref.refPOC
        (href (hkind.symm.trans hlong))
      rw [hscale, ok_bind]
      by_cases hsame : iScale = 4096
      · rw [if_pos hsame]
        refine ⟨_, rfl, fun mv' hmv' => ?_⟩
        obtain rfl := Option.some.inj hmv'
        exact clipToStorageBitDepth_stored _
      · rw [if_neg hsame]
        obtain ⟨rcMv, hrun, hstored⟩ := scaleMv_ok hbounds hmv
        rw [hrun, ok_bind]
        refine ⟨_, rfl, fun mv' hmv' => ?_⟩
        obtain rfl := Option.some.inj hmv'
        exact hstored
  · rw [if_pos hkind]
    exact ⟨none, rfl, fun mv' hmv' => by cases hmv'⟩

theorem colReference_some {slice : TemporalSlice} {mi : MotionLut.MotionInfo} {eRefPicList l : RefPicList}
    {sbFlag : Bool} {iColRefIdx : ℤ} (h : colReference slice mi eRefPicList sbFlag = some (l, iColRefIdx)) :
    iColRefIdx = mi.refIdx l.idx ∧ 0 ≤ iColRefIdx := by
  unfold colReference at h
  dsimp only at h
  generalize (if slice.checkLDC = true then eRefPicList else RefPicList.ofFlag slice.colFromL0Flag) = first at h
  split at h
  · split at h
    · cases h
    · cases h
      exact ⟨rfl, by omega⟩
  · split at h
    · split at h
      · cases h
      · cases h
        exact ⟨rfl, by omega⟩
    · cases h
      exact ⟨rfl, by omega⟩

/-- For every unit of a slice whose collocated picture has these slices, and every motion that can be
stored with it. -/
def ScalesSafely (slices : List ConstructedSlice) : Prop :=
  ∀ (pu : TemporalUnit) (eRefPicList : RefPicList) (pos : Position) (refIdx : ℤ) (sbFlag : Bool)
    (targetRefIdx : Option ℤ),
    (∀ pColPic, pu.slice.colPic = some pColPic → pColPic.slices = slices.map ConstructedSlice.toColSlice ∧
      ∀ pos, (pColPic.getMotionInfo pos).isInter = true → (pColPic.getMotionInfo pos).isIBCmot = false →
        StoredMotion pColPic.slices (pColPic.getMotionInfo pos)) →
    ValidRef pu.slice eRefPicList refIdx targetRefIdx →
    Returns Prod.fst (getColocatedMVP pu eRefPicList pos refIdx sbFlag targetRefIdx)

theorem returns_none {t : Option ℤ} :
    Returns Prod.fst (pure (none, t) : Checked (Option Mv × Option ℤ)) :=
  ⟨_, rfl, fun mv hmv => by cases hmv⟩

theorem Returns.with_target {t : Option ℤ} {run : Checked (Option Mv)} (h : Returns id run) :
    Returns Prod.fst (do let rcMv ← run; return (rcMv, t)) := by
  obtain ⟨r, hrun, hr⟩ := h
  rw [hrun, ok_bind]
  exact ⟨_, rfl, hr⟩

/-- The slices are looked up by their index. -/
theorem find_toColSlice (slices : List ConstructedSlice) (sliceIdx : ℕ) :
    (slices.map ConstructedSlice.toColSlice).find? (fun s => s.independentSliceIdx = sliceIdx) =
      (slices.find? fun s => s.independentSliceIdx = sliceIdx).map ConstructedSlice.toColSlice := by
  rw [List.find?_map]
  rfl

theorem scalesSafely_of_skips {slices : List ConstructedSlice}
    (h : ∀ sliceIdx s, slices.find? (fun s => s.independentSliceIdx = sliceIdx) = some s → s.SkipsOwnPoc) :
    ScalesSafely slices := by
  intro pu eRefPicList pos refIdx sbFlag targetRefIdx hcol hvalid
  unfold getColocatedMVP
  dsimp only
  cases hpic : pu.slice.colPic with
  | none => exact returns_none
  | some pColPic =>
    obtain ⟨hslices, hmotion⟩ := hcol pColPic hpic
    dsimp only
    generalize colPosition pos = pos
    have hmotion := hmotion pos
    generalize pColPic.getMotionInfo pos = mi at hmotion ⊢
    split
    · exact returns_none
    split
    · exact returns_none
    rename_i hinter
    simp only [Bool.or_eq_true, Bool.not_eq_true', not_or, Bool.not_eq_true, Bool.not_eq_false] at hinter
    have hstored := hmotion hinter.1.1 hinter.1.2
    cases href : colReference pu.slice mi eRefPicList sbFlag with
    | none => exact returns_none
    | some r =>
      obtain ⟨l, iColRefIdx⟩ := r
      obtain ⟨hidx, hnonneg⟩ := colReference_some href
      obtain ⟨colSlice, hfind, hlt⟩ := hstored.slice
      have hmv := hstored.mv l (hidx ▸ hnonneg)
      have hltl := hlt l
      rw [← hidx] at hltl
      obtain ⟨ref, hr⟩ : ∃ ref, (colSlice.refs l)[iColRefIdx.toNat]? = some ref :=
        ⟨_, List.getElem?_eq_getElem (by omega)⟩
      have hne : ref.isUsedAsLongTerm = false → colSlice.poc ≠ ref.refPOC := by
        rw [hslices, find_toColSlice] at hfind
        obtain ⟨s, hs, rfl⟩ := Option.map_eq_some_iff.mp hfind
        exact (h _ s hs).refPOC_ne hr
      dsimp only
      rw [hfind]
      dsimp only
      cases targetRefIdx with
      | none =>
        dsimp only
        rw [readAt_ok hr, ok_bind]
        obtain ⟨hlow, hhigh⟩ := hvalid.refIdx rfl
        exact (scaledTo_returns (getRefPic_ok hlow hhigh) hne hmv).with_target
      | some target =>
        dsimp only
        obtain ⟨hlow, hhigh⟩ := hvalid.imRefIdx mi.sliceIdx l iColRefIdx
        split
        · exact returns_none
        · rw [readAt_ok hr, ok_bind]
          exact (scaledTo_returns (getRefPic_ok (by omega) hhigh) hne hmv).with_target

/-! ## A picture that refers to its own POC -/

section
variable (s : ConstructedSlice) (l : RefPicList) (k : ℕ)

/-- A motion of the slice with the entry `k` of the list `l` only. -/
def motionOf : MotionLut.MotionInfo where
  isInter := true
  isIBCmot := false
  interDir := 1
  useAltHpelIf := false
  sliceIdx := s.independentSliceIdx
  mv := fun _ => ⟨0, 0⟩
  refIdx := fun i => if i = l.idx then k else -1
  BcwIdx := 0
  usesLIC := false
  bv := ⟨0, 0⟩

variable (slices : List ConstructedSlice)

/-- The picture with this motion everywhere. -/
def pictureOf : ColPicture where
  poc := s.slice.poc
  longTerm := false
  slices := slices.map ConstructedSlice.toColSlice
  getMotionInfo := fun _ => motionOf s l k

/-- A unit of a later picture that refers to this one only. -/
def unitOf : TemporalUnit where
  slice :=
    { poc := s.slice.poc + 8
      isInterB := false
      colFromL0Flag := true
      colRefIdx := 0
      checkLDC := true
      m_apcRefPicList := fun _ => [pictureOf s l k slices]
      getImRefIdx := fun _ _ _ _ => -1 }
  isIBC := false
  treatedAsPicFlag := false
  isContainingPos := fun _ => true

variable {s l k slices}

theorem motionOf_idx (l' : RefPicList) : (motionOf s l k).refIdx l'.idx = if l' = l then (k : ℤ) else -1 := by
  cases l <;> cases l' <;> rfl

theorem getColocatedMVP_error {r : SlicePicRef}
    (hfind : slices.find? (fun s' => s'.independentSliceIdx = s.independentSliceIdx) = some s)
    (hr : (s.refs l)[k]? = some r) (hshort : r.isUsedAsLongTerm = false) (hpoc : r.refPOC = s.slice.poc)
    (pos : Position) :
    getColocatedMVP (unitOf s l k slices) l pos 0 false none = .error "division by zero" := by
  have hcol : (unitOf s l k slices).slice.colPic = some (pictureOf s l k slices) := rfl
  have href : colReference (unitOf s l k slices).slice (motionOf s l k) l false = some (l, (k : ℤ)) := by
    have hidx := @motionOf_idx s l k l
    rw [if_pos rfl] at hidx
    unfold colReference unitOf
    simp only [Bool.false_and, if_true, hidx]
    rw [if_neg (by decide), if_neg (by omega)]
  have hfind' : (pictureOf s l k slices).slices.find?
      (fun s' => s'.independentSliceIdx = (motionOf s l k).sliceIdx) = some s.toColSlice := by
    refine (find_toColSlice slices _).trans ?_
    exact (congrArg _ hfind).trans rfl
  have hscaled : (unitOf s l k slices).slice.scaledTo s.toColSlice r ⟨0, 0⟩ l 0 = .error "division by zero" := by
    have hpic : (unitOf s l k slices).slice.getRefPic l 0 = .ok (pictureOf s l k slices) := rfl
    have hfactor : xGetDistScaleFactor (unitOf s l k slices).slice.poc (pictureOf s l k slices).poc
        s.toColSlice.poc r.refPOC = .error "division by zero" := by
      rw [hpoc]
      exact xGetDistScaleFactor_error (show s.slice.poc + 8 ≠ s.slice.poc by omega)
    rw [TemporalSlice.scaledTo, hpic, ok_bind]
    dsimp only
    have hlong : (pictureOf s l k slices).longTerm = false := rfl
    rw [if_neg (not_not.mpr (hlong.trans hshort.symm)), hlong, if_neg Bool.false_ne_true, hfactor]
    rfl
  unfold getColocatedMVP
  dsimp only
  rw [hcol]
  dsimp only
  have hsubPic : ((unitOf s l k slices).treatedAsPicFlag &&
      !(unitOf s l k slices).isContainingPos (colPosition pos)) = false := rfl
  have hinter : (!((pictureOf s l k slices).getMotionInfo (colPosition pos)).isInter ||
      ((pictureOf s l k slices).getMotionInfo (colPosition pos)).isIBCmot ||
        (unitOf s l k slices).isIBC) = false := rfl
  rw [hsubPic, hinter, if_neg Bool.false_ne_true, if_neg Bool.false_ne_true]
  have hmotion : (pictureOf s l k slices).getMotionInfo (colPosition pos) = motionOf s l k := rfl
  rw [hmotion, href]
  dsimp only
  rw [hfind']
  dsimp only
  have hread : readAt (s.toColSlice.refs l) (k : ℤ).toNat = .ok r := readAt_ok hr
  rw [hread, ok_bind]
  exact congrArg (· >>= _) hscaled

end

theorem skips_of_scalesSafely {slices : List ConstructedSlice} (h : ScalesSafely slices) {sliceIdx : ℕ}
    {s : ConstructedSlice} (hs : slices.find? (fun s => s.independentSliceIdx = sliceIdx) = some s) :
    s.SkipsOwnPoc := by
  intro l k e hlt he hshort hzero
  have hidx : s.independentSliceIdx = sliceIdx := of_decide_eq_true (List.find?_some hs :)
  rw [← hidx] at hs
  obtain ⟨r, hr⟩ : ∃ r, (s.refs l)[k]? = some r :=
    ⟨_, List.getElem?_eq_getElem (by rw [(s.keepsAll l).length]; exact hlt)⟩
  obtain ⟨e', he', hkeeps⟩ := (s.keepsAll l).entry k r hr
  rw [Nat.zero_add, he] at he'
  obtain rfl := Option.some.inj he'
  have herror := getColocatedMVP_error hs hr (by rw [hkeeps.longTerm, hshort]; rfl)
    (by rw [hkeeps.refPOC hshort, hzero, add_zero]) ⟨0, 0⟩
  have hstored : StoredMotion (slices.map ConstructedSlice.toColSlice) (motionOf s l k) := by
    refine ⟨⟨s.toColSlice, ?_, fun l' => ?_⟩, fun l' _ => storedMv_zero⟩
    · exact (find_toColSlice slices _).trans ((congrArg _ hs).trans rfl)
    · rw [motionOf_idx]
      split
      case isTrue heq =>
        rw [heq]
        exact_mod_cast (List.getElem?_eq_some_iff.mp hr).1
      case isFalse => omega
  have hcol : ∀ pColPic, (unitOf s l k slices).slice.colPic = some pColPic →
      pColPic.slices = slices.map ConstructedSlice.toColSlice ∧
      ∀ pos, (pColPic.getMotionInfo pos).isInter = true → (pColPic.getMotionInfo pos).isIBCmot = false →
        StoredMotion pColPic.slices (pColPic.getMotionInfo pos) := by
    intro pColPic hpic
    obtain rfl := Option.some.inj hpic
    exact ⟨rfl, fun _ _ _ => hstored⟩
  have hvalid : ValidRef (unitOf s l k slices).slice l 0 none :=
    ⟨fun _ => ⟨le_refl 0, Int.zero_lt_one⟩, fun _ _ _ => ⟨le_refl (-1), (by decide : (-1 : ℤ) < 1)⟩⟩
  obtain ⟨_, hrun, -⟩ := h (unitOf s l k slices) l ⟨0, 0⟩ 0 false none hcol hvalid
  rw [herror] at hrun
  cases hrun

/-- Temporal motion is scaled without a division by zero, an overflow or a vector out of range if and
only if the slices of the collocated picture do not refer to their own POC by a short-term entry. -/
theorem getColocatedMVP_safe_iff (slices : List ConstructedSlice) :
    ScalesSafely slices ∧ RoundsStored ↔
      ∀ sliceIdx s, slices.find? (fun s => s.independentSliceIdx = sliceIdx) = some s → s.SkipsOwnPoc :=
  ⟨fun h _ _ hs => skips_of_scalesSafely h.1 hs, fun h => ⟨scalesSafely_of_skips h, roundsStored⟩⟩

/-- A P slice whose list is coded with no entries: its one active entry behind them finds the picture of the
slice itself. -/
def ownPocSlice : ConstructedSlice where
  independentSliceIdx := 0
  slice :=
    { poc := 8
      nalUnitType := .CODED_SLICE_TRAIL
      picLayerId := some 0
      layerId := 0
      bitsForPOC := 4
      refLayerId := fun _ => throw nullPointer }
  m_pRPL := fun _ => .new
  m_localRPL := fun _ => .new
  m_aiNumRefIdx := fun | .REF_PIC_LIST_0 => 1 | .REF_PIC_LIST_1 => 0
  rcListPic := [⟨8, 0, 0, false, true, false, false, some 4, 1⟩]
  refs := fun | .REF_PIC_LIST_0 => [⟨0, 8, false⟩] | .REF_PIC_LIST_1 => []
  rcListPic' := [⟨8, 0, 0, false, true, false, false, some 4, 1⟩]
  constructed := rfl

theorem ownPocSlice_divides_by_zero :
    (∃ s', DecoderLib.VLCReader.parseRefPicList ⟨false, false, false, false, 4⟩ .new 0 (.ofFifo [0x80]) =
      .ok (ownPocSlice.m_pRPL .REF_PIC_LIST_0, s')) ∧
    getColocatedMVP (unitOf ownPocSlice .REF_PIC_LIST_0 0 [ownPocSlice]) .REF_PIC_LIST_0 ⟨0, 0⟩ 0 false none =
      .error "division by zero" ∧
    ¬ScalesSafely [ownPocSlice] := by
  refine ⟨⟨_, rfl⟩, getColocatedMVP_error rfl rfl rfl rfl ⟨0, 0⟩, fun h => ?_⟩
  have hskips := skips_of_scalesSafely h (rfl : [ownPocSlice].find? (fun s => s.independentSliceIdx = 0) = _)
  exact hskips .REF_PIC_LIST_0 0 _ Nat.one_pos rfl rfl rfl

end ECM.Motion.TemporalScaling
