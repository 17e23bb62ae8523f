import Mathlib.Algebra.BigOperators.Intervals
import Mathlib.Tactic.Ring

/-! # Products of a matrix and a vector by halves

Rows that are symmetric, or antisymmetric, about their middle need only the sums, or the
differences, of opposite entries of a vector. Where the even rows of a matrix are such a matrix again
on the first half of their columns, this is done level by level. -/

namespace ECM.Lib.EvenOdd
open Finset

variable {R : Type} [CommRing R]

/-! ## One level -/

section
variable {m : ℕ} {c x : ℕ → R}

def Symmetric (m : ℕ) (c : ℕ → R) : Prop := ∀ n < m, c (2 * m - 1 - n) = c n

def Antisymmetric (m : ℕ) (c : ℕ → R) : Prop := ∀ n < m, c (2 * m - 1 - n) = -c n

def sums (m : ℕ) (x : ℕ → R) (n : ℕ) : R := x n + x (2 * m - 1 - n)

def diffs (m : ℕ) (x : ℕ → R) (n : ℕ) : R := x n - x (2 * m - 1 - n)

/-- A sum over opposite entries. -/
theorem sum_opposite (m : ℕ) (f : ℕ → R) :
    ∑ n ∈ range (2 * m), f n = ∑ n ∈ range m, (f n + f (2 * m - 1 - n)) := by
  rw [sum_add_distrib, two_mul, sum_range_add, ← sum_range_reflect (fun n => f (m + n))]
  congr 1
  refine sum_congr rfl fun n hn => ?_
  have hlt := mem_range.mp hn
  congr 1
  omega

theorem Symmetric.sum_eq (h : Symmetric m c) :
    ∑ n ∈ range (2 * m), c n * x n = ∑ n ∈ range m, c n * sums m x n := by
  rw [sum_opposite]
  refine sum_congr rfl fun n hn => ?_
  rw [h n (mem_range.mp hn), sums]
  ring

theorem Antisymmetric.sum_eq (h : Antisymmetric m c) :
    ∑ n ∈ range (2 * m), c n * x n = ∑ n ∈ range m, c n * diffs m x n := by
  rw [sum_opposite]
  refine sum_congr rfl fun n hn => ?_
  rw [h n (mem_range.mp hn), diffs]
  ring

end

/-- A sum over even and odd entries. -/
theorem sum_parity (m : ℕ) (f : ℕ → R) :
    ∑ n ∈ range (2 * m), f n = ∑ n ∈ range m, f (2 * n) + ∑ n ∈ range m, f (2 * n + 1) := by
  induction m with
  | zero => simp only [Nat.mul_zero, sum_range_zero, add_zero]
  | succ m ih =>
    rw [Nat.mul_succ, sum_range_succ, sum_range_succ, ih, sum_range_succ, sum_range_succ]
    ring

/-! ## Matrices of `2 ^ l` rows -/

/-- Row `k` is symmetric on its first `2 ^ (i + 1)` columns where `2 ^ (l - i)` divides `k`, and
antisymmetric where half of it does only. -/
structure Butterfly (l : ℕ) (A : ℕ → ℕ → R) : Prop where
  symmetric : ∀ i j, i + 1 + j = l → ∀ k < 2 ^ i, Symmetric (2 ^ i) (A (k * 2 ^ (j + 1)))
  antisymmetric : ∀ i j, i + 1 + j = l → ∀ k < 2 ^ i, Antisymmetric (2 ^ i) (A (k * 2 ^ (j + 1) + 2 ^ j))

/-- The sums of level `j`, of a vector of `2 ^ (i + j)` entries. -/
def level (i : ℕ) : (j : ℕ) → (ℕ → R) → ℕ → R
  | 0, x => x
  | j + 1, x => sums (2 ^ i) (level (i + 1) j x)

variable {l : ℕ} {A : ℕ → ℕ → R}

/-- A row with `2 ^ j` dividing its number, by the sums of level `j`. -/
theorem Butterfly.sum_even (h : Butterfly l A) {i j : ℕ} (hij : i + j = l) (x : ℕ → R) {k : ℕ} (hk : k < 2 ^ i) :
    ∑ n ∈ range (2 ^ l), A (k * 2 ^ j) n * x n = ∑ n ∈ range (2 ^ i), A (k * 2 ^ j) n * level i j x n := by
  induction j generalizing i k with
  | zero =>
    rw [← hij]
    rfl
  | succ j ih =>
    have hrow : k * 2 ^ (j + 1) = 2 * k * 2 ^ j := by ring
    have hlt : 2 * k < 2 ^ (i + 1) := by
      rw [pow_succ]
      omega
    have hsym := h.symmetric i j (by omega) k hk
    rw [hrow] at hsym ⊢
    rw [@ih (i + 1) (by omega) (2 * k) hlt, pow_succ', hsym.sum_eq]
    rfl

/-- A row with no higher power than `2 ^ j` dividing its number. -/
theorem Butterfly.sum_odd (h : Butterfly l A) {i j : ℕ} (hij : i + 1 + j = l) (x : ℕ → R) {k : ℕ} (hk : k < 2 ^ i) :
    ∑ n ∈ range (2 ^ l), A (k * 2 ^ (j + 1) + 2 ^ j) n * x n =
      ∑ n ∈ range (2 ^ i), A (k * 2 ^ (j + 1) + 2 ^ j) n * diffs (2 ^ i) (level (i + 1) j x) n := by
  have hrow : k * 2 ^ (j + 1) + 2 ^ j = (2 * k + 1) * 2 ^ j := by ring
  have hlt : 2 * k + 1 < 2 ^ (i + 1) := by
    rw [pow_succ]
    omega
  have hanti := h.antisymmetric i j hij k hk
  rw [hrow] at hanti ⊢
  rw [h.sum_even hij x hlt, pow_succ', hanti.sum_eq]

/-! ## The transposed matrix -/

/-- Column `n` of the rows that `2 ^ j` divides. -/
def evenPart (A : ℕ → ℕ → R) (y : ℕ → R) (i j n : ℕ) : R :=
  ∑ k ∈ range (2 ^ i), A (k * 2 ^ j) n * y (k * 2 ^ j)

/-- Column `n` of the rows that `2 ^ j` divides and `2 ^ (j + 1)` does not. -/
def oddPart (A : ℕ → ℕ → R) (y : ℕ → R) (i j n : ℕ) : R :=
  ∑ k ∈ range (2 ^ i), A (k * 2 ^ (j + 1) + 2 ^ j) n * y (k * 2 ^ (j + 1) + 2 ^ j)

/-- The first half by sums, the second one by differences from its end. -/
def mirrored (m : ℕ) (E O : ℕ → R) (n : ℕ) : R :=
  if n < m then E n + O n else E (m - 1 - (n - m)) - O (m - 1 - (n - m))

theorem evenPart_split (A : ℕ → ℕ → R) (y : ℕ → R) (i j n : ℕ) :
    evenPart A y (i + 1) j n = evenPart A y i (j + 1) n + oddPart A y i j n := by
  unfold evenPart oddPart
  rw [pow_succ', sum_parity]
  congr 1
  · refine sum_congr rfl fun k _ => ?_
    rw [show 2 * k * 2 ^ j = k * 2 ^ (j + 1) by ring]
  · refine sum_congr rfl fun k _ => ?_
    rw [show (2 * k + 1) * 2 ^ j = k * 2 ^ (j + 1) + 2 ^ j by ring]

theorem Butterfly.mirrored_eq (h : Butterfly l A) {i j : ℕ} (hij : i + 1 + j = l) (y : ℕ → R) {E O : ℕ → R}
    (hE : ∀ n < 2 ^ i, E n = evenPart A y i (j + 1) n) (hO : ∀ n < 2 ^ i, O n = oddPart A y i j n) :
    ∀ n < 2 ^ (i + 1), mirrored (2 ^ i) E O n = evenPart A y (i + 1) j n := by
  intro n hn
  rw [pow_succ'] at hn
  unfold mirrored
  split
  · rename_i hlt
    rw [hE n hlt, hO n hlt, evenPart_split]
  · obtain ⟨n', hn', rfl⟩ : ∃ n' < 2 ^ i, n = 2 * 2 ^ i - 1 - n' := ⟨2 * 2 ^ i - 1 - n, by omega, by omega⟩
    have hback : 2 ^ i - 1 - (2 * 2 ^ i - 1 - n' - 2 ^ i) = n' := by omega
    rw [hback, hE n' hn', hO n' hn', evenPart_split, sub_eq_add_neg]
    unfold evenPart oddPart
    rw [← sum_neg_distrib]
    congr 1
    · refine sum_congr rfl fun k hk => ?_
      rw [h.symmetric i j hij k (mem_range.mp hk) n' hn']
    · refine sum_congr rfl fun k hk => ?_
      rw [h.antisymmetric i j hij k (mem_range.mp hk) n' hn']
      ring

end ECM.Lib.EvenOdd
