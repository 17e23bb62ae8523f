import Mathlib.Algebra.Order.Group.Nat
import Mathlib.Data.Int.ConditionallyCompleteOrder
import Mathlib.Order.Monotone.Basic
import Mathlib.Tactic.Linarith
import Mathlib.Tactic.NormNum
import Mathlib.Tactic.Positivity
import Mathlib.Tactic.Ring

/-! # Fixed point numbers

Values in units of `2 * half`, rounded to the nearest unit, and values that are narrowed to a
machine word before they are clipped. -/

namespace ECM.Lib.FixedPoint

variable {half v w n : ℤ}

/-- `v` units of `1 / (2 * half)`, rounded to a whole number, halves upwards. -/
def rounded (half v : ℤ) : ℤ := (v + half) / (2 * half)

theorem mul_rounded_le (half v : ℤ) (h : 0 < half) : 2 * half * rounded half v ≤ v + half :=
  Int.mul_ediv_self_le (by omega)

theorem lt_mul_rounded (half v : ℤ) (h : 0 < half) : v + half < 2 * half * (rounded half v + 1) := by
  rw [Int.mul_add, Int.mul_one]
  exact Int.lt_mul_ediv_self_add (by omega)

theorem rounded_mono (h : 0 < half) (hvw : v ≤ w) : rounded half v ≤ rounded half w :=
  Int.ediv_le_ediv (by omega) (by omega)

theorem rounded_add_units (h : 0 < half) (v n : ℤ) : rounded half (v + 2 * half * n) = rounded half v + n := by
  rw [rounded, Int.add_right_comm, Int.add_mul_ediv_left _ _ (by omega), rounded]

theorem rounded_zero (h : 0 < half) : rounded half 0 = 0 := by
  rw [rounded, Int.zero_add]
  exact Int.ediv_eq_zero_of_lt (by omega) (by omega)

theorem rounded_units (h : 0 < half) (n : ℤ) : rounded half (2 * half * n) = n := by
  have hadd := rounded_add_units h 0 n
  rw [Int.zero_add, rounded_zero h, Int.zero_add] at hadd
  exact hadd

theorem rounded_nonneg (h : 0 < half) (hv : 0 ≤ v) : 0 ≤ rounded half v := by
  rw [← rounded_zero h]
  exact rounded_mono h hv

/-- A number of units is not reached by rounding from below it, and not left from above. -/
theorem rounded_le (h : 0 < half) (hv : v ≤ 2 * half * n) : rounded half v ≤ n := by
  rw [← rounded_units h n]
  exact rounded_mono h hv

theorem rounded_add_le (h : 0 < half) (hw : w ≤ 2 * half * n) : rounded half (v + w) ≤ rounded half v + n := by
  rw [← rounded_add_units h]
  exact rounded_mono h (by omega)

/-- `d` of `l` samples scaled to a range of `c` values, the whole range to the whole range. -/
theorem scale_bounds {f d l c : ℤ} (h : 0 < half) (hd : 0 ≤ d) (hl : 0 < l) (hc : 0 ≤ c)
    (hf : f * l = 2 * half * c) :
    0 ≤ rounded half (f * d) ∧ 2 * rounded half (f * d) * l ≤ 2 * (c * d) + l ∧
      2 * (c * d) < 2 * rounded half (f * d) * l + l := by
  have hfd : f * d * l = 2 * half * (c * d) := by rw [mul_right_comm, hf]; ring
  have hslope : 0 ≤ f := by
    have hge : 0 ≤ f * l := hf ▸ mul_nonneg (by omega) hc
    exact nonneg_of_mul_nonneg_left hge hl
  refine ⟨rounded_nonneg h (mul_nonneg hslope hd), ?_, ?_⟩
  · have hlow := mul_le_mul_of_nonneg_right (mul_rounded_le half (f * d) h) hl.le
    refine le_of_mul_le_mul_left ?_ h
    linarith
  · have hhigh := mul_lt_mul_of_pos_right (lt_mul_rounded half (f * d) h) hl
    refine lt_of_mul_lt_mul_left ?_ h.le
    linarith

/-- Scaled with the exact slope to a range that is not smaller, and back with the slope rounded down:
the result is not above `d`, and below it by the error of the slope at most. -/
theorem rescale_error {f g d l c : ℤ} (h : 0 < half) (hd : 0 ≤ d) (hdl : d < l) (hlc : l ≤ c)
    (hf : f * l = 2 * half * c) (hg : g * c ≤ 2 * half * l) (hg' : 2 * half * l < g * c + c) :
    rounded half (f * d) < c ∧ rounded half (g * rounded half (f * d)) ≤ d ∧
      d ≤ rounded half (g * rounded half (f * d)) + 1 + (c - 1) / (2 * half) := by
  have hc : 0 < c := by omega
  obtain ⟨hnonneg, hlow, hhigh⟩ := scale_bounds h hd (by omega) hc.le hf
  have hsame : l = c → rounded half (f * d) = d := by
    intro hlc
    have hunit : f = 2 * half := mul_right_cancel₀ hc.ne' (hlc ▸ hf)
    rw [hunit, rounded_units h]
  generalize rounded half (f * d) = e at hnonneg hlow hhigh hsame ⊢
  have hlt : e < c := by nlinarith
  have hback := mul_le_mul_of_nonneg_right (mul_rounded_le half (g * e) h) hc.le
  have hback' := mul_lt_mul_of_pos_right (lt_mul_rounded half (g * e) h) hc
  have hge := mul_le_mul_of_nonneg_right hg hnonneg
  have hge' := mul_le_mul_of_nonneg_right hg'.le hnonneg
  refine ⟨hlt, ?_, ?_⟩
  · rcases hlc.lt_or_eq with hlc | rfl
    · generalize rounded half (g * e) = q at hback ⊢
      have hscaled : 2 * half * c * q < 2 * half * c * (d + 1) := by nlinarith
      exact Int.lt_add_one_iff.mp (lt_of_mul_lt_mul_left hscaled (by positivity))
    · rw [hsame rfl]
      refine rounded_le h (mul_le_mul_of_nonneg_right ?_ hd)
      exact le_of_mul_le_mul_right hg hc
  · generalize rounded half (g * e) = q at hback' ⊢
    have hscaled : 2 * half * (d - q - 1) * c < e * c := by nlinarith
    have hrest : 2 * half * (d - q - 1) < e := lt_of_mul_lt_mul_right hscaled hc.le
    have hdiv : d - q - 1 ≤ (c - 1) / (2 * half) := by
      refine Int.le_ediv_of_mul_le (by omega) ?_
      rw [mul_comm]
      omega
    omega

/-! ## Narrowed values -/

/-- A word of the range `-m` to `m - 1`, clipped to the range `0` to `top`. -/
def clipped (m : ℕ) (top v : ℤ) : ℤ := min (max 0 (Int.bmod v (2 * m))) top

variable {m : ℕ} {top : ℤ}

theorem clipped_mem (htop : 0 ≤ top) (v : ℤ) : 0 ≤ clipped m top v ∧ clipped m top v ≤ top :=
  ⟨le_min (le_max_left _ _) htop, min_le_right _ _⟩

theorem clipped_of_lt (hv : 0 ≤ v) (hlt : v < m) : clipped m top v = min v top := by
  rw [clipped, Int.bmod_eq_of_le (by omega) (by omega), max_eq_right hv]

/-- The upper half of the words is negative. -/
theorem clipped_of_ge (htop : 0 ≤ top) (hv : m ≤ v) (hlt : v < 2 * m) : clipped m top v = 0 := by
  have hneg : Int.bmod v (2 * m) = v - (2 * m : ℕ) := by
    rw [← Int.sub_bmod_right v (2 * m)]
    exact Int.bmod_eq_of_le (by omega) (by omega)
  rw [clipped, hneg, max_eq_left (by omega), min_eq_left htop]

/-- A sequence that does not decrease keeps its order where it is narrowed if and only if it stays below
the first word that turns negative, provided that it does not jump over the negative ones. -/
theorem clipped_monotone_iff {t e : ℕ → ℤ} {n : ℕ} (htop : 0 < top) (ht : Monotone t) (hnonneg : 0 ≤ t 0)
    (hfirst : t 0 < m) (hcross : ∀ x, t x < m → m ≤ t (x + 1) → 0 < t x ∧ t (x + 1) < 2 * m)
    (he : ∀ x < n, t x < 2 * m → e x = clipped m top (t x)) :
    (∀ x y, x ≤ y → y < n → e x ≤ e y) ↔ ∀ x < n, t x < m := by
  have hpos : ∀ x, 0 ≤ t x := fun x => hnonneg.trans (ht (Nat.zero_le x))
  have hbelow : ∀ x < n, t x < m → e x = min (t x) top := fun x hx hlt => by
    have hx0 := hpos x
    rw [he x hx (by omega), clipped_of_lt hx0 hlt]
  constructor
  · intro hmono x
    induction x with
    | zero => exact fun _ => hfirst
    | succ x ih =>
      intro hx
      have hprev := ih (by omega)
      by_contra hge
      obtain ⟨hgt, hlt⟩ := hcross x hprev (not_lt.mp hge)
      have hle := hmono x (x + 1) (Nat.le_succ x) hx
      rw [he (x + 1) hx hlt, clipped_of_ge htop.le (not_lt.mp hge) hlt, hbelow x (by omega) hprev] at hle
      exact absurd hle (not_le.mpr (lt_min hgt htop))
  · intro hlt x y hxy hy
    rw [hbelow x (by omega) (hlt x (by omega)), hbelow y hy (hlt y hy)]
    exact min_le_min_right top (ht hxy)

/-! ## Saturation -/

/-- A value clipped to the range of `-n` to `n - 1`. -/
def saturated (n v : ℤ) : ℤ := min (max (-n) v) (n - 1)

theorem saturated_mem (hn : 0 < n) (v : ℤ) : -n ≤ saturated n v ∧ saturated n v ≤ n - 1 :=
  ⟨le_min (le_max_left _ _) (by omega), min_le_right _ _⟩

theorem saturated_of_mem (hlow : -n ≤ v) (hhigh : v ≤ n - 1) : saturated n v = v := by
  rw [saturated, max_eq_right hlow, min_eq_left hhigh]

theorem saturated_of_le (hn : 0 < n) (hv : v ≤ -n) : saturated n v = -n := by
  rw [saturated, max_eq_left hv, min_eq_left (by omega)]

theorem saturated_of_ge (hn : 0 < n) (hv : n - 1 ≤ v) : saturated n v = n - 1 := by
  rw [saturated, max_eq_right (by omega), min_eq_right hv]

/-- A value may be clipped before it is scaled where the ends of its range saturate the result. -/
theorem saturated_scaled {b f : ℤ} (hn : 0 < n) (hb : 0 < b) (hf : f = 0 ∨ 0 < f ∧ n ≤ (b - 1) * f) (v : ℤ) :
    saturated n (saturated b v * f) = saturated n (v * f) := by
  rcases hf with rfl | ⟨hf, hend⟩
  · rw [mul_zero, mul_zero]
  rcases le_total v (-b) with hlow | hlow
  · have hfar : v * f ≤ -b * f := mul_le_mul_of_nonneg_right hlow hf.le
    have hnear : -b * f ≤ -n := by linarith
    rw [saturated_of_le hb hlow, saturated_of_le hn hnear, saturated_of_le hn (hfar.trans hnear)]
  rcases le_total v (b - 1) with hhigh | hhigh
  · rw [saturated_of_mem hlow hhigh]
  · have hfar : (b - 1) * f ≤ v * f := mul_le_mul_of_nonneg_right hhigh hf.le
    rw [saturated_of_ge hb hhigh, saturated_of_ge hn (by omega), saturated_of_ge hn (by omega)]

/-! ## Rounding to nearest -/

/-- On `D` the function goes to a value of `R`, and no value of `R` is nearer. -/
structure RoundsTo (D R : ℤ → Prop) (f : ℤ → ℤ) : Prop where
  value : ∀ v, D v → R (f v)
  nearest : ∀ v w, D v → R w → |f v - v| ≤ |w - v|

namespace RoundsTo

variable {D R : ℤ → Prop} {f : ℤ → ℤ}

theorem fixes (h : RoundsTo D R f) (hv : D v) (hr : R v) : f v = v := by
  have hle := h.nearest v v hv hr
  rw [sub_self, abs_zero] at hle
  exact sub_eq_zero.mp (abs_eq_zero.mp (le_antisymm hle (abs_nonneg _)))

/-- Were the results in the other order, both arguments would lie at their midpoint. -/
theorem mono (h : RoundsTo D R f) (hv : D v) (hw : D w) (hvw : v ≤ w) : f v ≤ f w := by
  by_contra hlt
  rw [not_le] at hlt
  have hnear := h.nearest v (f w) hv (h.value w hw)
  have hnear' := h.nearest w (f v) hw (h.value v hv)
  have hmid : f v + f w ≤ 2 * v := by
    have hself := le_abs_self (f v - v)
    rcases abs_cases (f w - v) with ⟨habs, -⟩ | ⟨habs, -⟩ <;> omega
  have hmid' : 2 * w ≤ f v + f w := by
    have hself := neg_abs_le (f w - w)
    rcases abs_cases (f v - w) with ⟨habs, -⟩ | ⟨habs, -⟩ <;> omega
  have heq : v = w := by omega
  rw [heq] at hlt
  exact lt_irrefl _ hlt

theorem idempotent (h : RoundsTo D R f) (hv : D v) (hf : D (f v)) : f (f v) = f v :=
  h.fixes hf (h.value v hv)

end RoundsTo

/-- The nearest multiple of `u`, halves upwards. -/
def roundedTo (u v : ℤ) : ℤ := (v + u / 2) / u * u

section
variable {u : ℤ}

theorem roundedTo_error (h : 0 < u) (v : ℤ) : 2 * |roundedTo u v - v| ≤ u := by
  have hlow := Int.ediv_mul_le (v + u / 2) h.ne'
  have hhigh := Int.lt_ediv_add_one_mul_self (v + u / 2) h
  rw [add_mul, one_mul] at hhigh
  rw [roundedTo]
  rcases abs_cases ((v + u / 2) / u * u - v) with ⟨habs, -⟩ | ⟨habs, -⟩ <;> rw [habs] <;> omega

theorem roundedTo_nearest (h : 0 < u) (hw : u ∣ w) : |roundedTo u v - v| ≤ |w - v| := by
  by_contra hlt
  rw [not_le] at hlt
  have herror := roundedTo_error h v
  have hdvd : u ∣ w - roundedTo u v := dvd_sub hw (Dvd.intro_left _ rfl)
  have hclose : |w - roundedTo u v| < u := by
    have htri := abs_sub_le w v (roundedTo u v)
    rw [abs_sub_comm v] at htri
    linarith
  have hzero := Int.eq_zero_of_abs_lt_dvd hdvd hclose
  rw [sub_eq_zero.mp hzero] at hlt
  exact lt_irrefl _ hlt

/-- A multiple of a power of two by no more than `2 * m`. -/
def Leading (m v : ℤ) : Prop := ∃ (n : ℤ) (s : ℕ), |n| ≤ 2 * m ∧ v = n * 2 ^ s

/-- In a binade whose values are `m` to `2 * m` steps, the nearest step. -/
theorem roundedTo_leading {m : ℤ} {s : ℕ} (hv : |v| ≤ 2 * m * 2 ^ s) :
    Leading m (roundedTo (2 ^ s) v) := by
  have hu : (0 : ℤ) < 2 ^ s := by positivity
  refine ⟨(v + 2 ^ s / 2) / 2 ^ s, s, ?_, rfl⟩
  obtain ⟨hlow, hhigh⟩ := abs_le.mp hv
  rw [abs_le]
  constructor
  · refine Int.le_ediv_of_mul_le hu ?_
    have hhalf : (0 : ℤ) ≤ 2 ^ s / 2 := by omega
    linarith
  · refine Int.le_of_lt_add_one (Int.ediv_lt_of_lt_mul hu ?_)
    have hhalf : (2 : ℤ) ^ s / 2 < 2 ^ s := by omega
    linarith

theorem leading_nearest {m : ℤ} {s : ℕ} (hm : 0 ≤ m) (hv : m * 2 ^ s ≤ |v| ∨ s = 0) (hw : Leading m w) :
    |roundedTo (2 ^ s) v - v| ≤ |w - v| := by
  have hu : (0 : ℤ) < 2 ^ s := by positivity
  obtain ⟨n, t, hn, rfl⟩ := hw
  rcases Nat.lt_or_ge t s with hts | hts
  · -- a value of a lower binade is not nearer than the lower end of this one
    have hv := hv.resolve_right (by omega)
    have hpow : 2 * (2 : ℤ) ^ t ≤ 2 ^ s := by
      rw [← pow_succ']
      exact pow_le_pow_right₀ (by norm_num) hts
    have hlow : |n * 2 ^ t| ≤ m * 2 ^ s := by
      rw [abs_mul, abs_of_pos (by positivity : (0 : ℤ) < 2 ^ t)]
      have hmul := mul_le_mul_of_nonneg_right hn (by positivity : (0 : ℤ) ≤ 2 ^ t)
      have hmul' := mul_le_mul_of_nonneg_left hpow hm
      linarith
    obtain ⟨hlow, hlow'⟩ := abs_le.mp hlow
    rcases abs_cases v with ⟨habs, -⟩ | ⟨habs, -⟩
    · refine (roundedTo_nearest hu (Dvd.intro_left m rfl)).trans ?_
      rw [abs_of_nonpos (by linarith), abs_of_nonpos (by linarith)]
      linarith
    · refine (roundedTo_nearest hu (Dvd.intro_left (-m) rfl)).trans ?_
      rw [abs_of_nonneg (by linarith), abs_of_nonneg (by linarith)]
      linarith
  · exact roundedTo_nearest hu (Dvd.dvd.mul_left (pow_dvd_pow 2 hts) n)

end

end ECM.Lib.FixedPoint
