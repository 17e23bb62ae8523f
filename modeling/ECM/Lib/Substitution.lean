import Mathlib.Data.Nat.Notation

/-! # Substitution along a path

Of the samples along a path some are missing. A missing sample is replaced by the
nearest one before it, by the first one of all where there is none before, and by a
given value where all are missing. -/

namespace ECM.Lib.Substitution

variable {α : Type} {avail : ℕ → Bool} {v : ℕ → α} {grey : α} {n s t : ℕ}

/-- The nearest available position up to `t`. -/
def nearest (avail : ℕ → Bool) : (t : ℕ) → Option ℕ
  | 0 => if avail 0 then some 0 else none
  | t + 1 => if avail (t + 1) then some (t + 1) else nearest avail t

/-- The sample at position `t` of a path of `n` positions. -/
def substitute (avail : ℕ → Bool) (v : ℕ → α) (n : ℕ) (grey : α) (t : ℕ) : α :=
  match nearest avail t with
  | some s => v s
  | none =>
    match (List.range n).find? avail with
    | some s => v s
    | none => grey

theorem nearest_of_avail (h : avail t = true) : nearest avail t = some t := by
  cases t <;> simp [nearest, h]

theorem nearest_none (h : ∀ r ≤ t, avail r = false) : nearest avail t = none := by
  induction t with
  | zero => simp [nearest, h 0 (Nat.le_refl 0)]
  | succ t ih =>
    rw [nearest, h (t + 1) (Nat.le_refl _), ih fun r hr => h r (Nat.le_succ_of_le hr)]
    rfl

/-- Over a gap the nearest position stays. -/
theorem nearest_gap (hst : s ≤ t) (hgap : ∀ r, s < r → r ≤ t → avail r = false) :
    nearest avail t = nearest avail s := by
  induction t with
  | zero => rw [Nat.le_zero.mp hst]
  | succ t ih =>
    by_cases heq : s = t + 1
    · rw [heq]
    · rw [nearest, hgap (t + 1) (by omega) (Nat.le_refl _), if_neg Bool.false_ne_true,
        ih (by omega) fun r hsr hrt => hgap r hsr (Nat.le_succ_of_le hrt)]

/-- A sample that is there is kept. -/
theorem substitute_of_avail (h : avail t = true) : substitute avail v n grey t = v t := by
  unfold substitute
  rw [nearest_of_avail h]

theorem substitute_gap (hst : s ≤ t) (hgap : ∀ r, s < r → r ≤ t → avail r = false) :
    substitute avail v n grey t = substitute avail v n grey s := by
  unfold substitute
  rw [nearest_gap hst hgap]

/-- Up to the first sample that is there, all are replaced by it. -/
theorem substitute_first (hs : avail s = true) (hsn : s < n) (hfirst : ∀ r < s, avail r = false) (hts : t ≤ s) :
    substitute avail v n grey t = v s := by
  by_cases heq : t = s
  · rw [heq, substitute_of_avail hs]
  · have hfind : (List.range n).find? avail = some s := by
      rw [List.find?_range_eq_some]
      exact ⟨hs, List.mem_range.mpr hsn, fun r hr => by rw [hfirst r hr]; rfl⟩
    unfold substitute
    rw [nearest_none fun r hr => hfirst r (by omega), hfind]

theorem substitute_none (h : ∀ r < n, avail r = false) (ht : t < n) : substitute avail v n grey t = grey := by
  have hfind : (List.range n).find? avail = none := by
    rw [List.find?_eq_none]
    intro r hr
    rw [h r (List.mem_range.mp hr)]
    exact Bool.false_ne_true
  unfold substitute
  rw [nearest_none fun r hr => h r (by omega), hfind]

end ECM.Lib.Substitution
