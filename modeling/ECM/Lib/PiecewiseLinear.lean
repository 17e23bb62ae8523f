import ECM.Lib.FixedPoint
import Mathlib.Algebra.BigOperators.Group.Finset.Basic
import Mathlib.Algebra.Order.BigOperators.Group.Finset

/-! # Piecewise linear maps

A range is cut into segments of `l` samples; the segment `i` is mapped onto the `c i` values from
`pivot c i` on. The slopes are fixed point numbers: exact on the way there, rounded down on the
way back. -/

namespace ECM.Lib.PiecewiseLinear
open FixedPoint

/-- The values of the segments before `i`. -/
def pivot (c : ℕ → ℕ) (i : ℕ) : ℕ := ∑ j ∈ Finset.range i, c j

@[simp] theorem pivot_zero (c : ℕ → ℕ) : pivot c 0 = 0 := rfl

theorem pivot_succ (c : ℕ → ℕ) (i : ℕ) : pivot c (i + 1) = pivot c i + c i := Finset.sum_range_succ c i

theorem pivot_mono (c : ℕ → ℕ) {i j : ℕ} (h : i ≤ j) : pivot c i ≤ pivot c j :=
  Finset.sum_le_sum_of_subset (Finset.range_mono h)

/-- The segments in between have no values. -/
theorem pivot_eq_of_zero {c : ℕ → ℕ} {i j : ℕ} (h : i ≤ j) (hc : ∀ k, i ≤ k → k < j → c k = 0) :
    pivot c j = pivot c i := by
  induction j, h using Nat.le_induction with
  | base => rfl
  | succ j hj ih =>
    rw [pivot_succ, hc j hj (Nat.lt_succ_self j), ih fun k hk hkj => hc k hk (Nat.lt_succ_of_lt hkj), Nat.add_zero]

/-! ## Forward -/

def forward (half : ℤ) (l : ℕ) (c : ℕ → ℕ) (f : ℕ → ℤ) (x : ℕ) : ℤ :=
  pivot c (x / l) + rounded half (f (x / l) * (x % l : ℕ))

variable {half : ℤ} {l : ℕ} {c : ℕ → ℕ} {f g : ℕ → ℤ}

/-- The end of a segment is the beginning of the next one. -/
theorem forward_add_one (h : 0 < half) (hl : 0 < l) (hf : ∀ i, f i * l = 2 * half * c i) (x : ℕ) :
    forward half l c f (x + 1) = pivot c (x / l) + rounded half (f (x / l) * (x % l : ℕ) + f (x / l)) := by
  have hlast := Nat.mod_lt x hl
  rcases Nat.lt_or_ge (x % l + 1) l with hin | hend
  · have hdiv : (x + 1) / l = x / l := by
      rw [Nat.succ_div_of_mod_ne_zero]
      rw [Nat.add_mod, Nat.mod_eq_of_lt (show 1 < l by omega), Nat.mod_eq_of_lt hin]
      omega
    have hmod : (x + 1) % l = x % l + 1 := by
      rw [Nat.add_mod, Nat.mod_eq_of_lt (show 1 < l by omega), Nat.mod_eq_of_lt hin]
    rw [forward, hdiv, hmod, Nat.cast_add, Nat.cast_one, Int.mul_add, Int.mul_one]
  · have hfull : x % l + 1 = l := by omega
    have hmod : (x + 1) % l = 0 := by
      rw [← Nat.mod_add_mod, hfull, Nat.mod_self]
    have hdiv : (x + 1) / l = x / l + 1 := Nat.succ_div_of_mod_eq_zero hmod
    have hslope : f (x / l) * (x % l : ℕ) + f (x / l) = 2 * half * c (x / l) := by
      rw [← mul_add_one, ← Nat.cast_succ, Nat.succ_eq_add_one, hfull, hf]
    rw [forward, hdiv, hmod, Nat.cast_zero, Int.mul_zero, rounded_zero h, pivot_succ, hslope, rounded_units h]
    push_cast
    ring

theorem slope_nonneg (h : 0 < half) (hl : 0 < l) (hf : ∀ i, f i * l = 2 * half * c i) (i : ℕ) : 0 ≤ f i := by
  have hge : 0 ≤ f i * l := by
    rw [hf i]
    exact mul_nonneg (by omega) (by omega)
  exact nonneg_of_mul_nonneg_left hge (by exact_mod_cast hl)

theorem forward_mono (h : 0 < half) (hl : 0 < l) (hf : ∀ i, f i * l = 2 * half * c i) :
    Monotone (forward half l c f) := by
  refine monotone_nat_of_le_succ fun x => ?_
  have hslope := slope_nonneg h hl hf (x / l)
  rw [forward_add_one h hl hf, forward]
  have hle := rounded_mono (v := f (x / l) * (x % l : ℕ)) (w := f (x / l) * (x % l : ℕ) + f (x / l)) h (by omega)
  omega

/-- How far one sample is from the next one. -/
theorem forward_step (h : 0 < half) (hl : 0 < l) (hf : ∀ i, f i * l = 2 * half * c i) {x : ℕ} {n : ℤ}
    (hn : c (x / l) ≤ n * l) : forward half l c f (x + 1) ≤ forward half l c f x + n := by
  have hslope : f (x / l) ≤ 2 * half * n := by
    have hlpos : (0 : ℤ) < l := by exact_mod_cast hl
    refine le_of_mul_le_mul_right ?_ hlpos
    rw [hf, Int.mul_assoc (2 * half)]
    exact mul_le_mul_of_nonneg_left hn (by omega)
  have hle := rounded_add_le (v := f (x / l) * (x % l : ℕ)) h hslope
  rw [forward_add_one h hl hf, forward]
  omega

theorem pivot_le_forward (h : 0 < half) (hl : 0 < l) (hf : ∀ i, f i * l = 2 * half * c i) (x : ℕ) :
    pivot c (x / l) ≤ forward half l c f x := by
  have hge := rounded_nonneg h (mul_nonneg (slope_nonneg h hl hf (x / l)) (Int.natCast_nonneg (x % l)))
  rw [forward]
  omega

theorem forward_zero (h : 0 < half) : forward half l c f 0 = 0 := by
  rw [forward, Nat.zero_div, Nat.zero_mod, Nat.cast_zero, Int.mul_zero, rounded_zero h, pivot_zero]
  rfl

/-! ## Back -/

/-- `i` is the segment of the value `y` among the segments from `lo` to `hi`; beyond the values
of the last of them, the last one is taken. -/
structure InSegment (c : ℕ → ℕ) (lo hi y i : ℕ) : Prop where
  lo_le : lo ≤ i
  le_hi : i ≤ hi
  reached : lo < i → pivot c i ≤ y
  inside : i < hi → y < pivot c (i + 1)

variable {lo hi y i j : ℕ}

theorem exists_inSegment (c : ℕ → ℕ) (y : ℕ) (h : lo ≤ hi) : ∃ i, InSegment c lo hi y i := by
  induction hi, h using Nat.le_induction with
  | base => exact ⟨lo, Nat.le_refl lo, Nat.le_refl lo, fun h => absurd h (Nat.lt_irrefl lo),
      fun h => absurd h (Nat.lt_irrefl lo)⟩
  | succ hi hle ih =>
    obtain ⟨i, hseg⟩ := ih
    have hlo := hseg.lo_le
    have hhi := hseg.le_hi
    by_cases hlast : i = hi ∧ pivot c (i + 1) ≤ y
    · exact ⟨i + 1, by omega, by omega, fun _ => hlast.2, fun hlt => by omega⟩
    · refine ⟨i, hlo, by omega, hseg.reached, fun hlt => ?_⟩
      rcases Nat.lt_or_ge i hi with hlt | hge
      · exact hseg.inside hlt
      · omega

theorem InSegment.unique (h : InSegment c lo hi y i) (h' : InSegment c lo hi y j) : i = j := by
  have hle : ∀ {i j}, InSegment c lo hi y i → InSegment c lo hi y j → i ≤ j := by
    intro i j h h'
    by_contra hlt
    have hin := h'.inside (by have := h.le_hi; omega)
    have hreached := h.reached (by have := h'.lo_le; omega)
    have hpivot := pivot_mono c (show j + 1 ≤ i by omega)
    omega
  exact Nat.le_antisymm (hle h h') (hle h' h)

/-- The next value is in the same segment, or begins a later one. -/
theorem InSegment.next (h : InSegment c lo hi y i) (h' : InSegment c lo hi (y + 1) j) :
    j = i ∨ i < j ∧ i < hi ∧ pivot c j = y + 1 := by
  have hlo := h.lo_le
  have hhi' := h'.le_hi
  rcases Nat.lt_trichotomy i j with hlt | rfl | hlt
  · have hin := h.inside (by omega)
    have hreached := h'.reached (by omega)
    have hpivot := pivot_mono c (show i + 1 ≤ j by omega)
    exact .inr ⟨hlt, by omega, by omega⟩
  · exact .inl rfl
  · have hhi := h.le_hi
    have hlo' := h'.lo_le
    have hin := h'.inside (by omega)
    have hreached := h.reached (by omega)
    have hpivot := pivot_mono c (show j + 1 ≤ i by omega)
    omega

def inverse (half : ℤ) (l : ℕ) (c : ℕ → ℕ) (g : ℕ → ℤ) (i y : ℕ) : ℤ :=
  i * l + rounded half (g i * ((y : ℤ) - pivot c i))

/-- The first value of a segment goes back to its first sample. -/
theorem inverse_pivot (h : 0 < half) (i : ℕ) : inverse half l c g i (pivot c i) = i * l := by
  rw [inverse, Int.sub_self, Int.mul_zero, rounded_zero h, Int.add_zero]

/-- No value of a segment goes beyond the end of it. -/
theorem inverse_le (h : 0 < half) (hg : 0 ≤ g i) (hc : g i * c i ≤ 2 * half * l) (hy : y ≤ pivot c (i + 1)) :
    inverse half l c g i y ≤ (i + 1) * l := by
  have hdist : (y : ℤ) - pivot c i ≤ c i := by
    rw [pivot_succ] at hy
    omega
  have hle := rounded_le h ((mul_le_mul_of_nonneg_left hdist hg).trans hc)
  rw [inverse]
  linarith

theorem le_inverse (h : 0 < half) (hg : 0 ≤ g i) (hy : pivot c i ≤ y) : i * l ≤ inverse half l c g i y := by
  have hge := rounded_nonneg h (mul_nonneg hg (show (0 : ℤ) ≤ (y : ℤ) - pivot c i by omega))
  rw [inverse]
  omega

theorem inverse_step (h : 0 < half) (hg : 0 ≤ g i) {n : ℤ} (hn : g i ≤ 2 * half * n) :
    inverse half l c g i y ≤ inverse half l c g i (y + 1) ∧
      inverse half l c g i (y + 1) ≤ inverse half l c g i y + n := by
  have hnext : g i * (((y + 1 : ℕ) : ℤ) - pivot c i) = g i * ((y : ℤ) - pivot c i) + g i := by
    push_cast
    ring
  have hmono := rounded_mono (v := g i * ((y : ℤ) - pivot c i)) (w := g i * ((y : ℤ) - pivot c i) + g i) h (by omega)
  have hle := rounded_add_le (v := g i * ((y : ℤ) - pivot c i)) h hn
  rw [inverse, inverse, hnext]
  omega

/-- The way back from the values in their order never goes back in the samples. -/
theorem inverse_next (h : 0 < half) (hg : 0 ≤ g i) (hc : g i * c i ≤ 2 * half * l)
    (hseg : InSegment c lo hi y i) (hnext : InSegment c lo hi (y + 1) j) :
    inverse half l c g i y ≤ inverse half l c g j (y + 1) := by
  rcases hseg.next hnext with rfl | ⟨hlt, hhi, hpivot⟩
  · exact (inverse_step h hg (le_mul_of_one_le_left hg (show 1 ≤ 2 * half by omega))).1
  · rw [← hpivot, inverse_pivot h]
    have hle := inverse_le (l := l) h hg hc (Nat.le_of_lt (hseg.inside hhi))
    have hsamples : ((i : ℤ) + 1) * l ≤ j * l := mul_le_mul_of_nonneg_right (by omega) (Int.natCast_nonneg l)
    exact hle.trans hsamples

/-- There and back in a segment that has at least as many values as samples. -/
theorem inverse_forward (h : 0 < half) (hf : ∀ i, f i * l = 2 * half * c i) {x : ℕ} (hx : x / l = i)
    (hlc : l ≤ c i) (hl : 0 < l) (hg : g i * c i ≤ 2 * half * l) (hg' : 2 * half * l < g i * c i + c i) :
    ∃ y : ℕ, forward half l c f x = y ∧ pivot c i ≤ y ∧ y < pivot c (i + 1) ∧
      inverse half l c g i y ≤ x ∧ x ≤ inverse half l c g i y + 1 + (c i - 1 : ℤ) / (2 * half) := by
  have hdl : x % l < l := Nat.mod_lt x hl
  have hsplit : (x : ℤ) = i * l + (x % l : ℕ) := by
    rw [← hx]
    exact_mod_cast (Nat.div_add_mod' x l).symm
  obtain ⟨hlt, hup, hlow⟩ := rescale_error (f := f i) (g := g i) (d := (x % l : ℕ)) (l := l) (c := c i) h
    (Int.natCast_nonneg _) (by exact_mod_cast hdl) (by exact_mod_cast hlc) (hf i) hg hg'
  have hnonneg := rounded_nonneg h (mul_nonneg (slope_nonneg h hl hf i) (Int.natCast_nonneg (x % l)))
  obtain ⟨e, he⟩ := Int.eq_ofNat_of_zero_le hnonneg
  have hfwd : forward half l c f x = (pivot c i + e : ℕ) := by
    rw [forward, hx, he, Nat.cast_add]
  rw [he] at hlt hup hlow
  refine ⟨pivot c i + e, hfwd, Nat.le_add_right _ _, ?_, ?_, ?_⟩
  · rw [pivot_succ]
    omega
  all_goals
    rw [inverse, Nat.cast_add, add_sub_cancel_left]
    omega

end ECM.Lib.PiecewiseLinear
