import Mathlib.Data.List.Nodup

/-! # Collecting without repetition

Items are appended to a list that does not hold them yet, all of them or only until
the list is full. What is collected is the first occurrences in their order, so that
an item may be left out before or after collecting. -/

namespace ECM.Lib.FirstOccurrences

variable {α : Type} [DecidableEq α] {l : List α} {a : α} {capacity : ℕ}

def addNew (l : List α) (a : α) : List α := if a ∈ l then l else l ++ [a]

def addAll (l items : List α) : List α := items.foldl addNew l

/-- Adds the items until there are `capacity` in the list. -/
def addUntil (capacity : ℕ) : (l items : List α) → List α
  | l, [] => l
  | l, a :: items => if l.length = capacity then l else addUntil capacity (addNew l a) items

/-! ## All items -/

theorem addNew_nodup (h : l.Nodup) (a : α) : (addNew l a).Nodup := by
  unfold addNew
  split
  case isTrue => exact h
  case isFalse hnew => exact List.nodup_append.mpr ⟨h, List.nodup_singleton a, fun b hb c hc heq =>
      hnew (List.mem_singleton.mp hc ▸ heq ▸ hb)⟩

theorem mem_addNew {b : α} : b ∈ addNew l a ↔ b ∈ l ∨ b = a := by
  unfold addNew
  split
  case isTrue hmem => exact ⟨.inl, fun h => h.elim id fun heq => heq ▸ hmem⟩
  case isFalse => rw [List.mem_append, List.mem_singleton]

theorem prefix_addNew (l : List α) (a : α) : l <+: addNew l a := by
  unfold addNew
  split
  · exact List.prefix_rfl
  · exact List.prefix_append l [a]

theorem addNew_length (l : List α) (a : α) : (addNew l a).length ≤ l.length + 1 := by
  unfold addNew
  split
  · exact Nat.le_succ _
  · exact Nat.le_of_eq List.length_append

theorem addAll_append (l items rest : List α) : addAll l (items ++ rest) = addAll (addAll l items) rest :=
  List.foldl_append

theorem addAll_nodup (h : l.Nodup) (items : List α) : (addAll l items).Nodup := by
  induction items generalizing l with
  | nil => exact h
  | cons a items ih => exact ih (addNew_nodup h a)

theorem mem_addAll {b : α} (items : List α) : b ∈ addAll l items ↔ b ∈ l ∨ b ∈ items := by
  induction items generalizing l with
  | nil => exact ⟨.inl, fun h => h.elim id fun h => absurd h List.not_mem_nil⟩
  | cons a items ih =>
    change b ∈ addAll (addNew l a) items ↔ _
    rw [ih, mem_addNew, List.mem_cons, or_assoc]

theorem prefix_addAll (l items : List α) : l <+: addAll l items := by
  induction items generalizing l with
  | nil => exact List.prefix_rfl
  | cons a items ih => exact (prefix_addNew l a).trans (ih (addNew l a))

theorem addAll_length (l items : List α) : (addAll l items).length ≤ l.length + items.length := by
  induction items generalizing l with
  | nil => exact Nat.le_refl _
  | cons a items ih =>
    have hstep := ih (addNew l a)
    have hone := addNew_length l a
    change (addAll (addNew l a) items).length ≤ _
    rw [List.length_cons]
    omega

/-! ## Until the list is full -/

/-- Collecting until the list is full gives the first of all that are collected. -/
theorem addUntil_eq_take (h : l.length ≤ capacity) (items : List α) :
    addUntil capacity l items = (addAll l items).take capacity := by
  induction items generalizing l with
  | nil => exact (List.take_of_length_le h).symm
  | cons a items ih =>
    rw [addUntil]
    split
    case isTrue hfull =>
      obtain ⟨rest, hrest⟩ := prefix_addAll l (a :: items)
      rw [← hrest, ← hfull, List.take_left]
    case isFalse hfree =>
      have hstep := addNew_length l a
      rw [ih (by omega)]
      rfl

theorem addUntil_length (h : l.length ≤ capacity) (items : List α) : (addUntil capacity l items).length ≤ capacity := by
  rw [addUntil_eq_take h]
  exact List.length_take_le _ _

theorem addUntil_full (h : l.length = capacity) (items : List α) : addUntil capacity l items = l := by
  cases items with
  | nil => rfl
  | cons a items => rw [addUntil, if_pos h]

theorem addUntil_append (l items rest : List α) :
    addUntil capacity l (items ++ rest) = addUntil capacity (addUntil capacity l items) rest := by
  induction items generalizing l with
  | nil => rfl
  | cons a items ih =>
    rw [List.cons_append, addUntil, addUntil]
    split
    case isTrue hfull => exact (addUntil_full hfull rest).symm
    case isFalse => exact ih (addNew l a)

/-! ## Leaving out an item -/

/-- An item that is already there only keeps itself from being collected. -/
theorem addAll_cons (a : α) (l items : List α) :
    addAll (a :: l.filter (· ≠ a)) items = a :: (addAll l items).filter (· ≠ a) := by
  induction items generalizing l with
  | nil => rfl
  | cons b items ih =>
    have hstep : addNew (a :: l.filter (· ≠ a)) b = a :: (addNew l b).filter (· ≠ a) := by
      by_cases hb : b = a
      · subst hb
        unfold addNew
        rw [if_pos List.mem_cons_self]
        split
        · rfl
        · rw [List.filter_append, List.filter_singleton]
          simp
      · have hmem : b ∈ a :: l.filter (· ≠ a) ↔ b ∈ l := by simp [hb]
        unfold addNew
        split
        case isTrue h => rw [if_pos (hmem.mp h)]
        case isFalse h =>
          rw [if_neg fun hl => h (hmem.mpr hl), List.filter_append, List.filter_singleton]
          simp [hb]
    change addAll (addNew (a :: l.filter (· ≠ a)) b) items = _
    rw [hstep, ih]
    rfl

/-- Of different items at most one is left out, so that one more makes up for it. -/
theorem take_filter_take (h : l.Nodup) (a : α) (n : ℕ) :
    ((l.take (n + 1)).filter (· ≠ a)).take n = (l.filter (· ≠ a)).take n := by
  induction l generalizing n with
  | nil => rw [List.take_nil]
  | cons b l ih =>
    obtain ⟨hb, hl⟩ := List.nodup_cons.mp h
    rw [List.take_succ_cons]
    by_cases heq : b = a
    · subst heq
      have hall : ∀ m : List α, b ∉ m → (b :: m).filter (· ≠ b) = m := fun m hm => by
        rw [List.filter_cons_of_neg (by simp)]
        exact List.filter_eq_self.mpr fun c hc => by simp; exact fun heq => hm (heq ▸ hc)
      rw [hall l hb, hall _ fun hm => hb (List.mem_of_mem_take hm), List.take_take, Nat.min_self]
    · rw [List.filter_cons_of_pos (by simpa using heq), List.filter_cons_of_pos (by simpa using heq)]
      cases n with
      | zero => rfl
      | succ n => rw [List.take_succ_cons, List.take_succ_cons, ih hl]

end ECM.Lib.FirstOccurrences
