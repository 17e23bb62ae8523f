import ECM.CommonLib.LoopFilter
import ECM.Lib.FixedPoint

/-! # Deblocking stays in range

What a filter may do to a line: every sample stays in the range, changes by what its position allows,
and a side that is not to be filtered is what it was. -/

namespace ECM.InLoop.Deblocking
open CommonLib CommonLib.WeightPrediction CommonLib.LoopFilter Lib.FixedPoint

/-! ## Sides -/

/-- The samples of `s` are in the range from `lo` to `hi`, and as near to the ones of `m` as allowed. -/
def Within (lo hi : ℤ) (limit : ℕ → ℤ) (m s : ℕ → ℤ) : Prop :=
  ∀ pos, lo ≤ s pos ∧ s pos ≤ hi ∧ |s pos - m pos| ≤ limit pos

variable {lo hi d v tc : ℤ} {limit limit' : ℕ → ℤ} {m s : ℕ → ℤ}

theorem within_refl (hm : ∀ pos, lo ≤ m pos ∧ m pos ≤ hi) (hlimit : ∀ pos, 0 ≤ limit pos) : Within lo hi limit m m := by
  intro pos
  rw [Int.sub_self, abs_zero]
  exact ⟨(hm pos).1, (hm pos).2, hlimit pos⟩

theorem Within.update (h : Within lo hi limit m s) (pos : ℕ) (hv : lo ≤ v ∧ v ≤ hi ∧ |v - m pos| ≤ limit pos) :
    Within lo hi limit m (Function.update s pos v) := by
  intro k
  rcases eq_or_ne k pos with rfl | hne
  · rw [Function.update_self]
    exact hv
  · rw [Function.update_of_ne hne]
    exact h k

/-- In a range of one value nothing moves. -/
theorem Within.eq_of_const {c : ℤ} (hm : ∀ pos, m pos = c) (h : Within c c limit m s) : s = m := by
  funext pos
  rw [hm pos]
  exact le_antisymm (h pos).2.1 (h pos).1

theorem Within.restore (h : Within lo hi limit m s) (hm : ∀ pos, lo ≤ m pos ∧ m pos ≤ hi) (noFilter : Bool) (count : ℕ) :
    Within lo hi limit m (restore noFilter count m s) := by
  intro pos
  rw [LoopFilter.restore]
  split
  · dsimp only
    split
    · exact within_refl hm (fun k => (abs_nonneg _).trans (h k).2.2) pos
    · exact h pos
  · exact h pos

/-- All that may have been written is set back. -/
theorem restore_eq {count : ℕ} (h : Within lo hi limit m s) (hlimit : ∀ pos, count ≤ pos → limit pos = 0) :
    restore true count m s = m := by
  funext pos
  simp only [LoopFilter.restore, if_true]
  split
  · rfl
  · have hzero := (h pos).2.2
    rw [hlimit pos (by omega), abs_nonpos_iff] at hzero
    exact Int.sub_eq_zero.mp hzero

/-! ## Values -/

/-- A value of the range, clipped to the surroundings of a sample. -/
theorem clip3_near {c : ℤ} (hc : lo ≤ c ∧ c ≤ hi) (hv : lo ≤ v ∧ v ≤ hi) (hd : 0 ≤ d) :
    lo ≤ Clip3 (c - d) (c + d) v ∧ Clip3 (c - d) (c + d) v ≤ hi ∧ |Clip3 (c - d) (c + d) v - c| ≤ d := by
  rw [Clip3, abs_le]
  omega

theorem clip3_abs (hd : 0 ≤ d) : |Clip3 (-d) d v| ≤ d := by
  rw [Clip3, abs_le]
  omega

/-- Clipping to the range does not take a sample of it further away. -/
theorem clipPel_near {clpRng : ClpRng} {c : ℤ} (hc : clpRng.min ≤ c ∧ c ≤ clpRng.max) (hv : |v| ≤ d) :
    clpRng.min ≤ ClipPel (c + v) clpRng ∧ ClipPel (c + v) clpRng ≤ clpRng.max ∧ |ClipPel (c + v) clpRng - c| ≤ d := by
  rw [abs_le] at hv ⊢
  rw [ClipPel]
  omega

/-- A rounded mean. -/
theorem mean_mem {r : ℤ} {k : ℕ} (hr : 0 ≤ r ∧ r < 2 ^ k) (hv : lo * 2 ^ k ≤ v ∧ v ≤ hi * 2 ^ k) :
    lo ≤ (v + r) >>> k ∧ (v + r) >>> k ≤ hi := by
  have hunit : (0 : ℤ) < 2 ^ k := Int.pow_pos (by decide)
  rw [Int.shiftRight_eq_div_pow]
  push_cast
  constructor
  · rw [Int.le_ediv_iff_mul_le hunit]
    omega
  · rw [← Int.lt_add_one_iff, Int.ediv_lt_iff_lt_mul hunit, Int.add_mul, Int.one_mul]
    omega

/-- A mean of two values with weights of 64 together. -/
theorem weightedMean_mem {a b w : ℤ} (ha : lo ≤ a ∧ a ≤ hi) (hb : lo ≤ b ∧ b ≤ hi) (hw : 0 ≤ w ∧ w ≤ 64) :
    lo ≤ (a * w + b * (64 - w) + 32) >>> (6 : ℕ) ∧ (a * w + b * (64 - w) + 32) >>> (6 : ℕ) ≤ hi := by
  have hrest : 0 ≤ 64 - w := by omega
  have hlow : lo * 64 ≤ a * w + b * (64 - w) := by
    calc lo * 64 = lo * w + lo * (64 - w) := by ring
      _ ≤ a * w + b * (64 - w) :=
        add_le_add (mul_le_mul_of_nonneg_right ha.1 hw.1) (mul_le_mul_of_nonneg_right hb.1 hrest)
  have hhigh : a * w + b * (64 - w) ≤ hi * 64 := by
    calc a * w + b * (64 - w) ≤ hi * w + hi * (64 - w) :=
        add_le_add (mul_le_mul_of_nonneg_right ha.2 hw.1) (mul_le_mul_of_nonneg_right hb.2 hrest)
      _ = hi * 64 := by ring
  exact mean_mem (by decide) ⟨hlow, hhigh⟩

/-! ## Long filters -/

/-- What a long or strong filter of a number of samples may change. -/
def strongLimit (tc : ℤ) (number pos : ℕ) : ℤ :=
  if pos < number then (tc * (tcTable number).getD pos 0) >>> (1 : ℕ) else 0

theorem strongLimit_nonneg (htc : 0 ≤ tc) (number pos : ℕ) : 0 ≤ strongLimit tc number pos := by
  have hfactor : ∀ pos, 0 ≤ (tcTable number).getD pos 0 := by
    intro pos
    rw [tcTable]
    split
    · rcases pos with _ | _ | _ | pos <;> simp
    · rcases pos with _ | _ | _ | _ | _ | _ | _ | pos <;> simp
  rw [strongLimit, Int.shiftRight_eq_div_pow]
  split
  · exact Int.ediv_nonneg (mul_nonneg htc (hfactor pos)) (by simp)
  · exact le_refl 0

theorem dbCoeffs_mem (number pos : ℕ) : 0 ≤ (dbCoeffs number).getD pos 0 ∧ (dbCoeffs number).getD pos 0 ≤ 64 := by
  rw [dbCoeffs]
  split
  · rcases pos with _ | _ | _ | _ | _ | _ | _ | pos <;> simp
  · split
    · rcases pos with _ | _ | _ | _ | _ | pos <;> simp
    · rcases pos with _ | _ | _ | pos <;> simp

theorem xBilinearSide_within {refMiddle ref : ℤ} (htc : 0 ≤ tc) (hm : ∀ pos, lo ≤ m pos ∧ m pos ≤ hi)
    (hmiddle : lo ≤ refMiddle ∧ refMiddle ≤ hi) (href : lo ≤ ref ∧ ref ≤ hi) (number : ℕ) :
    Within lo hi (strongLimit tc number) m (xBilinearSide refMiddle ref number (dbCoeffs number) tc m) := by
  have hnonneg := strongLimit_nonneg htc number
  -- The samples that are still to be written are as they were.
  refine (Lib.Loop.foldl_range (P := fun i s => Within lo hi (strongLimit tc number) m s ∧ ∀ pos, i ≤ pos → s pos = m pos)
    ⟨within_refl hm hnonneg, fun _ _ => rfl⟩ ?_).1
  rintro i hi s ⟨hs, hsame⟩
  have hlimit : strongLimit tc number i = (tc * (tcTable number).getD i 0) >>> (1 : ℕ) := if_pos hi
  dsimp only
  rw [hsame i (le_refl i), ← hlimit]
  constructor
  · exact hs.update i (clip3_near (hm i) (weightedMean_mem hmiddle href (dbCoeffs_mem number i)) (hnonneg i))
  · intro pos hpos
    rw [Function.update_of_ne (by omega)]
    exact hsame pos (by omega)

/-- The numbers of samples that a filter changes on a side. -/
def IsNumber (number : ℕ) : Prop := number = 3 ∨ number = 5 ∨ number = 7

theorem refSide_mem {number : ℕ} (hm : ∀ pos, lo ≤ m pos ∧ m pos ≤ hi) (hnumber : IsNumber number) :
    lo ≤ refSide number m ∧ refSide number m ≤ hi := by
  rcases hnumber with rfl | rfl | rfl
  · exact mean_mem (by decide) (by have := hm 2; have := hm 3; omega)
  · exact mean_mem (by decide) (by have := hm 4; have := hm 5; omega)
  · exact mean_mem (by decide) (by have := hm 6; have := hm 7; omega)

/-- Whatever the numbers, the weights add up to the divisor. -/
theorem refMiddle_mem {P Q : ℕ → ℤ} (hP : ∀ pos, lo ≤ P pos ∧ P pos ≤ hi) (hQ : ∀ pos, lo ≤ Q pos ∧ Q pos ≤ hi)
    (numberP numberQ : ℕ) : lo ≤ refMiddle numberP numberQ P Q ∧ refMiddle numberP numberQ P Q ≤ hi := by
  have hsamples : ∀ R : ℕ → ℤ, (∀ pos, lo ≤ R pos ∧ R pos ≤ hi) →
      (lo ≤ R 0 ∧ R 0 ≤ hi) ∧ (lo ≤ R 1 ∧ R 1 ≤ hi) ∧ (lo ≤ R 2 ∧ R 2 ≤ hi) ∧ (lo ≤ R 3 ∧ R 3 ≤ hi) ∧
        (lo ≤ R 4 ∧ R 4 ≤ hi) ∧ (lo ≤ R 5 ∧ R 5 ≤ hi) ∧ (lo ≤ R 6 ∧ R 6 ≤ hi) :=
    fun R h => ⟨h 0, h 1, h 2, h 3, h 4, h 5, h 6⟩
  obtain ⟨p0, p1, p2, p3, p4, p5, p6⟩ := hsamples P hP
  obtain ⟨q0, q1, q2, q3, q4, q5, q6⟩ := hsamples Q hQ
  rw [refMiddle]
  split_ifs with hsame hfive hswap
  · exact mean_mem (by decide) (by omega)
  · exact mean_mem (by decide) (by omega)
  all_goals
    dsimp only
    split_ifs <;> exact mean_mem (by decide) (by omega)

/-! ## Lines -/

def Line.InRange (src : Line) (lo hi : ℤ) : Prop :=
  (∀ pos, lo ≤ src.P pos ∧ src.P pos ≤ hi) ∧ ∀ pos, lo ≤ src.Q pos ∧ src.Q pos ≤ hi

variable {src : Line} {limitP limitQ : ℕ → ℤ}

def LineWithin (lo hi : ℤ) (limitP limitQ : ℕ → ℤ) (src src' : Line) : Prop :=
  Within lo hi limitP src.P src'.P ∧ Within lo hi limitQ src.Q src'.Q

theorem xBilinearFilter_within {numberP numberQ : ℕ} (htc : 0 ≤ tc) (hsrc : Line.InRange src lo hi)
    (hP : IsNumber numberP) (hQ : IsNumber numberQ) :
    LineWithin lo hi (strongLimit tc numberP) (strongLimit tc numberQ) src
      (xBilinearFilter (refMiddle numberP numberQ src.P src.Q) (refSide numberP src.P) (refSide numberQ src.Q)
        numberP numberQ (dbCoeffs numberP) (dbCoeffs numberQ) tc src) := by
  have hmiddle := refMiddle_mem hsrc.1 hsrc.2 numberP numberQ
  constructor
  · exact xBilinearSide_within htc hsrc.1 hmiddle (refSide_mem hsrc.1 hP) numberP
  · exact xBilinearSide_within htc hsrc.2 hmiddle (refSide_mem hsrc.2 hQ) numberQ

/-- What the weak luma filter may change. -/
def weakLumaLimit (tc : ℤ) (pos : ℕ) : ℤ := if pos = 0 then tc else if pos = 1 then tc >>> (1 : ℕ) else 0

def strongChromaLimit (tc : ℤ) (pos : ℕ) : ℤ := if pos < 3 then tc else 0

def weakChromaLimit (tc : ℤ) (pos : ℕ) : ℤ := if pos = 0 then tc else 0

theorem strongLimit_three (tc : ℤ) :
    strongLimit tc 3 0 = 3 * tc ∧ strongLimit tc 3 1 = 2 * tc ∧ strongLimit tc 3 2 = 1 * tc := by
  simp only [strongLimit, tcTable, Int.shiftRight_eq_div_pow]
  simp
  omega

theorem strongLuma_within (htc : 0 ≤ tc) (hsrc : Line.InRange src lo hi) :
    LineWithin lo hi (strongLimit tc 3) (strongLimit tc 3) src (strongLuma src tc) := by
  have hnonneg := strongLimit_nonneg htc 3
  obtain ⟨h0, h1, h2⟩ := strongLimit_three tc
  have p0 := hsrc.1 0
  have p1 := hsrc.1 1
  have p2 := hsrc.1 2
  have p3 := hsrc.1 3
  have q0 := hsrc.2 0
  have q1 := hsrc.2 1
  have q2 := hsrc.2 2
  have q3 := hsrc.2 3
  constructor
  · refine (((within_refl hsrc.1 hnonneg).update 0 ?_).update 1 ?_).update 2 ?_
    · rw [h0]
      exact clip3_near p0 (mean_mem (by decide) (by omega)) (by omega)
    · rw [h1]
      exact clip3_near p1 (mean_mem (by decide) (by omega)) (by omega)
    · rw [h2]
      exact clip3_near p2 (mean_mem (by decide) (by omega)) (by omega)
  · refine (((within_refl hsrc.2 hnonneg).update 0 ?_).update 1 ?_).update 2 ?_
    · rw [h0]
      exact clip3_near q0 (mean_mem (by decide) (by omega)) (by omega)
    · rw [h1]
      exact clip3_near q1 (mean_mem (by decide) (by omega)) (by omega)
    · rw [h2]
      exact clip3_near q2 (mean_mem (by decide) (by omega)) (by omega)

theorem strongChroma_within (htc : 0 ≤ tc) (hsrc : Line.InRange src lo hi) (boundary : Bool) :
    LineWithin lo hi (strongChromaLimit tc) (strongChromaLimit tc) src (strongChroma src tc boundary) := by
  have hnonneg : ∀ pos, 0 ≤ strongChromaLimit tc pos := by
    intro pos
    rw [strongChromaLimit]
    split <;> omega
  have p0 := hsrc.1 0
  have p1 := hsrc.1 1
  have p2 := hsrc.1 2
  have p3 := hsrc.1 3
  have q0 := hsrc.2 0
  have q1 := hsrc.2 1
  have q2 := hsrc.2 2
  have q3 := hsrc.2 3
  rw [strongChroma]
  cases boundary with
  | true =>
    constructor
    · refine (within_refl hsrc.1 hnonneg).update 0 ?_
      exact clip3_near p0 (mean_mem (by decide) (by omega)) htc
    · refine (((within_refl hsrc.2 hnonneg).update 0 ?_).update 1 ?_).update 2 ?_
      · exact clip3_near q0 (mean_mem (by decide) (by omega)) htc
      · exact clip3_near q1 (mean_mem (by decide) (by omega)) htc
      · exact clip3_near q2 (mean_mem (by decide) (by omega)) htc
  | false =>
    constructor
    · refine (((within_refl hsrc.1 hnonneg).update 2 ?_).update 1 ?_).update 0 ?_
      · exact clip3_near p2 (mean_mem (by decide) (by omega)) htc
      · exact clip3_near p1 (mean_mem (by decide) (by omega)) htc
      · exact clip3_near p0 (mean_mem (by decide) (by omega)) htc
    · refine (((within_refl hsrc.2 hnonneg).update 0 ?_).update 1 ?_).update 2 ?_
      · exact clip3_near q0 (mean_mem (by decide) (by omega)) htc
      · exact clip3_near q1 (mean_mem (by decide) (by omega)) htc
      · exact clip3_near q2 (mean_mem (by decide) (by omega)) htc

/-! ## Weak filters -/

variable {clpRng : ClpRng} {c : ℤ}

theorem clipPel_sub (hc : clpRng.min ≤ c ∧ c ≤ clpRng.max) (hv : |v| ≤ d) :
    clpRng.min ≤ ClipPel (c - v) clpRng ∧ ClipPel (c - v) clpRng ≤ clpRng.max ∧ |ClipPel (c - v) clpRng - c| ≤ d := by
  rw [sub_eq_add_neg c v]
  exact clipPel_near hc (by rwa [abs_neg])

theorem half_nonneg (htc : 0 ≤ tc) : 0 ≤ tc >>> (1 : ℕ) := by
  rw [Int.shiftRight_eq_div_pow]
  exact Int.ediv_nonneg htc (by simp)

theorem weakLuma_within (htc : 0 ≤ tc) (hsrc : Line.InRange src clpRng.min clpRng.max) (iThrCut : ℤ)
    (secondP secondQ : Bool) :
    LineWithin clpRng.min clpRng.max (weakLumaLimit tc) (weakLumaLimit tc) src
      (weakLuma src tc iThrCut secondP secondQ clpRng) := by
  have hhalf := half_nonneg htc
  have hnonneg : ∀ pos, 0 ≤ weakLumaLimit tc pos := by
    intro pos
    rw [weakLumaLimit]
    split_ifs <;> omega
  rw [weakLuma]
  dsimp only
  split
  · constructor
    · dsimp only
      split
      · exact ((within_refl hsrc.1 hnonneg).update 0 (clipPel_near (hsrc.1 0) (clip3_abs htc))).update 1
          (clipPel_near (hsrc.1 1) (clip3_abs hhalf))
      · exact (within_refl hsrc.1 hnonneg).update 0 (clipPel_near (hsrc.1 0) (clip3_abs htc))
    · dsimp only
      split
      · exact ((within_refl hsrc.2 hnonneg).update 0 (clipPel_sub (hsrc.2 0) (clip3_abs htc))).update 1
          (clipPel_near (hsrc.2 1) (clip3_abs hhalf))
      · exact (within_refl hsrc.2 hnonneg).update 0 (clipPel_sub (hsrc.2 0) (clip3_abs htc))
  · exact ⟨within_refl hsrc.1 hnonneg, within_refl hsrc.2 hnonneg⟩

theorem clip3_zero (htc : 0 ≤ tc) : Clip3 (-tc) tc 0 = 0 := by
  rw [Clip3]
  omega

theorem clipPel_of_mem (hc : clpRng.min ≤ c ∧ c ≤ clpRng.max) : ClipPel c clpRng = c := by
  rw [ClipPel]
  omega

/-- All samples are `c`. -/
def Line.const (c : ℤ) : Line := ⟨fun _ => c, fun _ => c⟩

theorem update_const (pos : ℕ) (c : ℤ) : Function.update (fun _ => c : ℕ → ℤ) pos c = fun _ => c :=
  Function.update_eq_self pos _

theorem weakLuma_const (htc : 0 ≤ tc) (hc : clpRng.min ≤ c ∧ c ≤ clpRng.max) (iThrCut : ℤ) (secondP secondQ : Bool) :
    weakLuma (Line.const c) tc iThrCut secondP secondQ clpRng = Line.const c := by
  have hdelta : (9 * 0 - 3 * 0 + 8 : ℤ) >>> (4 : ℕ) = 0 := rfl
  have hmean : (c + c + 1) >>> (1 : ℕ) = c := by
    rw [Int.shiftRight_eq_div_pow]
    omega
  simp only [weakLuma, Line.const, hdelta, hmean, clip3_zero htc, clip3_zero (half_nonneg htc), Int.add_zero, Int.sub_zero,
    Int.sub_self, Int.zero_shiftRight, clipPel_of_mem hc, update_const, ite_self]

theorem weakChroma_within (htc : 0 ≤ tc) (hsrc : Line.InRange src clpRng.min clpRng.max) :
    LineWithin clpRng.min clpRng.max (weakChromaLimit tc) (weakChromaLimit tc) src (weakChroma src tc clpRng) := by
  have hnonneg : ∀ pos, 0 ≤ weakChromaLimit tc pos := by
    intro pos
    rw [weakChromaLimit]
    split <;> omega
  constructor
  · exact (within_refl hsrc.1 hnonneg).update 0 (clipPel_near (hsrc.1 0) (clip3_abs htc))
  · exact (within_refl hsrc.2 hnonneg).update 0 (clipPel_sub (hsrc.2 0) (clip3_abs htc))

theorem weakChroma_const (htc : 0 ≤ tc) (hc : clpRng.min ≤ c ∧ c ≤ clpRng.max) :
    weakChroma (Line.const c) tc clpRng = Line.const c := by
  have hdelta : ((c - c) <<< (2 : ℕ) + c - c + 4) >>> (3 : ℕ) = 0 := by
    rw [Int.add_sub_cancel, Int.sub_self]
    rfl
  simp only [weakChroma, Line.const, hdelta, clip3_zero htc, Int.add_zero, Int.sub_zero, clipPel_of_mem hc, update_const]

/-! ## Filtered lines -/

/-- The samples stay in the range, change by what is allowed at their position, a constant line stays
as it is, and so does a side without filter. -/
structure Deblocked (clpRng : ClpRng) (limitP limitQ : ℕ → ℤ) (noFilterP noFilterQ : Bool) (src src' : Line) : Prop where
  within : LineWithin clpRng.min clpRng.max limitP limitQ src src'
  const : ∀ c, src = Line.const c → src' = src
  sideP : noFilterP = true → src'.P = src.P
  sideQ : noFilterQ = true → src'.Q = src.Q

theorem restore_self (noFilter : Bool) (count : ℕ) (m : ℕ → ℤ) : restore noFilter count m m = m := by
  simp [restore]

theorem deblocked {src' : Line} {noFilterP noFilterQ : Bool} {countP countQ : ℕ}
    (hsrc : Line.InRange src clpRng.min clpRng.max)
    (hwithin : LineWithin clpRng.min clpRng.max limitP limitQ src src')
    (hconst : ∀ c, src = Line.const c → src' = src)
    (hP : ∀ pos, countP ≤ pos → limitP pos = 0) (hQ : ∀ pos, countQ ≤ pos → limitQ pos = 0) :
    Deblocked clpRng limitP limitQ noFilterP noFilterQ src
      ⟨restore noFilterP countP src.P src'.P, restore noFilterQ countQ src.Q src'.Q⟩ where
  within := ⟨hwithin.1.restore hsrc.1 _ _, hwithin.2.restore hsrc.2 _ _⟩
  const c hc := by rw [hconst c hc, restore_self, restore_self]
  sideP h := by
    dsimp only
    rw [h, restore_eq hwithin.1 hP]
  sideQ h := by
    dsimp only
    rw [h, restore_eq hwithin.2 hQ]

/-- A filter that keeps every range keeps the constant lines. -/
theorem const_of_within {src' : Line}
    (h : ∀ lo hi, Line.InRange src lo hi → LineWithin lo hi limitP limitQ src src') :
    ∀ c, src = Line.const c → src' = src := by
  rintro c rfl
  have hrange := h c c ⟨fun _ => ⟨le_refl c, le_refl c⟩, fun _ => ⟨le_refl c, le_refl c⟩⟩
  have hP := Within.eq_of_const (fun _ => rfl) hrange.1
  have hQ := Within.eq_of_const (fun _ => rfl) hrange.2
  cases src'
  exact congrArg₂ Line.mk hP hQ

/-! ## The filters of a line -/

theorem strongLimit_of_le {number pos : ℕ} (h : number ≤ pos) : strongLimit tc number pos = 0 := if_neg (by omega)

theorem weakLumaLimit_of_le {count pos : ℕ} (hcount : 2 ≤ count) (h : count ≤ pos) : weakLumaLimit tc pos = 0 := by
  rw [weakLumaLimit, if_neg (by omega), if_neg (by omega)]

/-- What `xPelFilterLuma` may change on a side. -/
def lumaLimit (tc : ℤ) (sw sideIsLarge : Bool) (maxFilterLength : ℕ) : ℕ → ℤ :=
  if sw then strongLimit tc (if sideIsLarge then maxFilterLength else 3) else weakLumaLimit tc

def chromaLimit (tc : ℤ) (sw : Bool) : ℕ → ℤ := if sw then strongChromaLimit tc else weakChromaLimit tc

/-- The lengths with which `xEdgeFilterLuma` calls the filter. -/
def IsLarge (sideIsLarge : Bool) (maxFilterLength : ℕ) : Prop :=
  sideIsLarge = true → maxFilterLength = 5 ∨ maxFilterLength = 7

theorem IsLarge.isNumber {large : Bool} {length : ℕ} (h : IsLarge large length) :
    IsNumber (if large then length else 3) := by
  cases large with
  | true => exact .inr (h rfl)
  | false => exact .inl rfl

theorem lumaLimit_of_le {sw large : Bool} {length pos : ℕ} (h : IsLarge large length)
    (hpos : (if large then 7 else 3) ≤ pos) : lumaLimit tc sw large length pos = 0 := by
  rw [lumaLimit]
  cases sw with
  | true =>
    refine strongLimit_of_le ?_
    cases large with
    | true => exact (show length ≤ 7 by have := h rfl; omega).trans hpos
    | false => exact hpos
  | false =>
    refine weakLumaLimit_of_le ?_ hpos
    split <;> omega

theorem strongOrLongLuma_within {pLarge qLarge : Bool} {lengthP lengthQ : ℕ} (htc : 0 ≤ tc)
    (hP : IsLarge pLarge lengthP) (hQ : IsLarge qLarge lengthQ) (src : Line) :
    ∃ src', strongOrLongLuma src tc pLarge qLarge lengthP lengthQ = .ok src' ∧
      ∀ lo hi, Line.InRange src lo hi →
        LineWithin lo hi (lumaLimit tc true pLarge lengthP) (lumaLimit tc true qLarge lengthQ) src src' := by
  rw [strongOrLongLuma]
  by_cases hlarge : pLarge || qLarge
  · rw [if_pos hlarge]
    have hlong : 3 < (if pLarge then lengthP else 3) ∨ 3 < (if qLarge then lengthQ else 3) := by
      cases hp : pLarge with
      | true => exact .inl (by have := hP hp; simp; omega)
      | false =>
        rw [hp, Bool.false_or] at hlarge
        exact .inr (by have := hQ hlarge; simp [hlarge]; omega)
    refine ⟨_, by rw [xFilteringPandQ, check_ok _ (by omega), ok_bind]; rfl, fun lo hi hsrc => ?_⟩
    exact xBilinearFilter_within htc hsrc hP.isNumber hQ.isNumber
  · rw [if_neg hlarge]
    rw [Bool.or_eq_true, not_or, Bool.not_eq_true, Bool.not_eq_true] at hlarge
    obtain ⟨rfl, rfl⟩ := hlarge
    exact ⟨_, rfl, fun lo hi hsrc => strongLuma_within htc hsrc⟩

/-- Every call of the two filters, with the lengths and the chroma decision of their callers. -/
theorem xPelFilter_deblocked (htc : 0 ≤ tc) (hsrc : Line.InRange src clpRng.min clpRng.max)
    (sw noFilterP noFilterQ : Bool) :
    (∀ (iThrCut : ℤ) (secondP secondQ pLarge qLarge : Bool) (lengthP lengthQ : ℕ),
      IsLarge pLarge lengthP → IsLarge qLarge lengthQ →
      ∃ src', xPelFilterLuma src tc sw noFilterP noFilterQ iThrCut secondP secondQ clpRng pLarge qLarge lengthP lengthQ
          = .ok src' ∧
        Deblocked clpRng (lumaLimit tc sw pLarge lengthP) (lumaLimit tc sw qLarge lengthQ) noFilterP noFilterQ src src') ∧
    ∀ largeBoundary boundary : Bool, (sw = true → largeBoundary = true) →
      Deblocked clpRng (chromaLimit tc sw) (chromaLimit tc sw) noFilterP noFilterQ src
        (xPelFilterChroma src tc sw noFilterP noFilterQ clpRng largeBoundary boundary) := by
  constructor
  · intro iThrCut secondP secondQ pLarge qLarge lengthP lengthQ hP hQ
    cases sw with
    | true =>
      obtain ⟨src', hok, hwithin⟩ := strongOrLongLuma_within htc hP hQ src
      refine ⟨_, by rw [xPelFilterLuma, if_pos rfl, hok, ok_bind]; rfl, ?_⟩
      exact deblocked hsrc (hwithin _ _ hsrc) (const_of_within hwithin) (fun _ h => lumaLimit_of_le hP h)
        fun _ h => lumaLimit_of_le hQ h
    | false =>
      refine ⟨_, rfl, ?_⟩
      refine deblocked hsrc (weakLuma_within htc hsrc iThrCut secondP secondQ) ?_ (fun _ h => lumaLimit_of_le hP h)
        fun _ h => lumaLimit_of_le hQ h
      rintro c rfl
      exact weakLuma_const htc (hsrc.1 0) iThrCut secondP secondQ
  · intro largeBoundary boundary hlarge
    cases sw with
    | true =>
      obtain rfl := hlarge rfl
      exact deblocked hsrc (strongChroma_within htc hsrc boundary)
        (const_of_within fun _ _ h => strongChroma_within htc h boundary) (fun _ h => if_neg (Nat.not_lt.mpr h))
        fun _ h => if_neg (Nat.not_lt.mpr h)
    | false =>
      have hpos : ∀ pos, (if largeBoundary then 3 else 1) ≤ pos → weakChromaLimit tc pos = 0 := by
        intro pos hpos
        refine if_neg ?_
        split at hpos <;> omega
      refine deblocked hsrc (weakChroma_within htc hsrc) ?_ hpos hpos
      rintro c rfl
      exact weakChroma_const htc (hsrc.1 0)

/-- A filter of seven samples on the one side and three on the other, which is not to be filtered. -/
theorem xPelFilter_seven_three :
    Line.InRange ⟨fun _ => 4, fun _ => 10⟩ 0 1023 ∧
      (∃ src', xPelFilterLuma ⟨fun _ => 4, fun _ => 10⟩ 2 true false true 20 true true ⟨0, 1023⟩ true false 7 3
          = .ok src' ∧
        Deblocked ⟨0, 1023⟩ (lumaLimit 2 true true 7) (lumaLimit 2 true false 3) false true
          ⟨fun _ => 4, fun _ => 10⟩ src') ∧
      Deblocked ⟨0, 1023⟩ (chromaLimit 2 true) (chromaLimit 2 true) false true ⟨fun _ => 4, fun _ => 10⟩
        (xPelFilterChroma ⟨fun _ => 4, fun _ => 10⟩ 2 true false true ⟨0, 1023⟩ true false) :=
  have hsrc : Line.InRange ⟨fun _ => 4, fun _ => 10⟩ 0 1023 :=
    ⟨fun _ => (by decide : (0 : ℤ) ≤ 4 ∧ (4 : ℤ) ≤ 1023), fun _ => (by decide : (0 : ℤ) ≤ 10 ∧ (10 : ℤ) ≤ 1023)⟩
  have hfilter := @xPelFilter_deblocked 2 ⟨fun _ => 4, fun _ => 10⟩ ⟨0, 1023⟩ (by decide) hsrc true false true
  ⟨hsrc, hfilter.1 20 true true true false 7 3 (fun _ => .inr rfl) Bool.noConfusion, hfilter.2 true false fun _ => rfl⟩

end ECM.InLoop.Deblocking
