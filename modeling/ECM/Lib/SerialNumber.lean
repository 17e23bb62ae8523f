import Mathlib.Data.Int.ModEq

/-! # Serial numbers

A counter of which only the residue modulo `M` is sent. The receiver takes the number
with that residue that is nearest to a reference; half a turn counts as forwards. -/

namespace ECM.Lib.SerialNumber

variable {M ref r p q : ℤ}

/-- Less than half a turn behind `ref`, at most half a turn ahead. -/
def InWindow (M ref p : ℤ) : Prop := ref - p < M / 2 ∧ p - ref ≤ M / 2

/-- The start of the turn of the number with residue `r`. -/
def turn (M ref r : ℤ) : ℤ :=
  if r < ref % M ∧ M / 2 ≤ ref % M - r then ref - ref % M + M
  else if ref % M < r ∧ M / 2 < r - ref % M then ref - ref % M - M
  else ref - ref % M

def extend (M ref r : ℤ) : ℤ := turn M ref r + r

/-- The window holds at most one number of each residue. -/
theorem InWindow.unique (hM : 0 < M) (hp : InWindow M ref p) (hq : InWindow M ref q)
    (h : p % M = q % M) : p = q := by
  obtain ⟨k, hk⟩ : M ∣ q - p := Int.ModEq.dvd h
  obtain ⟨hp1, hp2⟩ := hp
  obtain ⟨hq1, hq2⟩ := hq
  have hlt : M * k < M * 1 := by omega
  have hgt : M * -1 < M * k := by omega
  have hk1 : k < 1 := Int.lt_of_mul_lt_mul_left hlt hM.le
  have hk2 : -1 < k := Int.lt_of_mul_lt_mul_left hgt hM.le
  have hk0 : k = 0 := by omega
  rw [hk0, mul_zero] at hk
  omega

theorem turn_emod (M ref r : ℤ) : turn M ref r % M = 0 := by
  have hbase : (ref - ref % M) % M = 0 := Int.emod_eq_zero_of_dvd (Int.dvd_self_sub_emod)
  rw [turn]
  split_ifs
  · rw [Int.add_emod_right, hbase]
  · rw [Int.sub_emod_right, hbase]
  · exact hbase

theorem extend_emod (M ref r : ℤ) : extend M ref r % M = r % M := by
  rw [extend, Int.add_emod, turn_emod, zero_add, Int.emod_emod]

theorem extend_inWindow (hM : 0 < M) (heven : M % 2 = 0) (h0 : 0 ≤ r) (hr : r < M) :
    InWindow M ref (extend M ref r) := by
  have hres0 := Int.emod_nonneg ref hM.ne'
  have hres := Int.emod_lt_of_pos ref hM
  rw [InWindow, extend, turn]
  split_ifs with h1 h2
  · omega
  · omega
  · omega

/-- A number in the window is found from its residue. -/
theorem extend_eq (hM : 0 < M) (heven : M % 2 = 0) (hp : InWindow M ref p) :
    extend M ref (p % M) = p := by
  have hwin := @extend_inWindow M ref _ hM heven (Int.emod_nonneg p hM.ne') (Int.emod_lt_of_pos p hM)
  refine hwin.unique hM hp ?_
  rw [extend_emod, Int.emod_emod]

end ECM.Lib.SerialNumber
