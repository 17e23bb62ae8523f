import Mathlib.Data.List.Nodup
import Mathlib.Logic.Function.Basic

/-! # Singly linked lists

The nodes of a list are linked by a function from each node to the one after it.
`Links` describes a segment: its nodes follow one another and the last one
points to a given place. Segments are put together by appending, and a segment
is led elsewhere by changing the pointer of its last node alone. -/

namespace ECM.Lib.LinkedList

variable {α : Type} {next next' : α → Option α} {l m : List α} {a : α} {e e' : Option α}

/-- The nodes of `l` follow one another, the last one points to `e`. -/
def Links (next : α → Option α) : List α → Option α → Prop
  | [], _ => True
  | a :: l, e => next a = l.head?.or e ∧ Links next l e

@[simp] theorem links_nil : Links next [] e := trivial

theorem links_cons : Links next (a :: l) e ↔ next a = l.head?.or e ∧ Links next l e := Iff.rfl

@[simp] theorem links_singleton : Links next [a] e ↔ next a = e := by simp [links_cons]

/-- Two segments make one where the first leads to the second. -/
theorem links_append : Links next (l ++ m) e ↔ Links next l (m.head?.or e) ∧ Links next m e := by
  induction l with
  | nil => simp
  | cons a l ih =>
    rw [List.cons_append, links_cons, links_cons, ih, List.head?_append, Option.or_assoc, and_assoc]

/-- A segment is a matter of the pointers of its own nodes. -/
theorem Links.congr (h : Links next l e) (hn : ∀ a ∈ l, next' a = next a) : Links next' l e := by
  induction l with
  | nil => exact trivial
  | cons a l ih =>
    obtain ⟨ha, hl⟩ := h
    exact ⟨(hn a List.mem_cons_self).trans ha, ih hl fun b hb => hn b (List.mem_cons_of_mem a hb)⟩

/-- Where the last node points to. -/
theorem Links.last (h : Links next l e) (ha : l.getLast? = some a) : next a = e := by
  obtain ⟨l', rfl⟩ := List.getLast?_eq_some_iff.mp ha
  exact links_singleton.mp (links_append.mp h).2

/-- The pointer of the last node leads the segment elsewhere. -/
theorem Links.redirect (h : Links next l e) (hd : l.Nodup)
    (hlast : ∀ a, l.getLast? = some a → next' a = e')
    (hn : ∀ a ∈ l, l.getLast? ≠ some a → next' a = next a) : Links next' l e' := by
  rcases List.eq_nil_or_concat' l with rfl | ⟨l', a, rfl⟩
  · exact trivial
  have ha : (l' ++ [a]).getLast? = some a := List.getLast?_concat
  obtain ⟨h', -⟩ := links_append.mp h
  refine links_append.mpr ⟨?_, links_singleton.mpr (hlast a ha)⟩
  refine h'.congr fun b hb => hn b (List.mem_append_left _ hb) ?_
  rw [ha]
  intro hba
  obtain rfl := Option.some.inj hba
  exact (List.nodup_append.mp hd).2.2 a hb a (List.mem_singleton_self a) rfl

/-! ## Following the pointers -/

/-- The nodes met from `p` on, in at most so many steps. -/
def follow (next : α → Option α) : ℕ → Option α → List α
  | 0, _ => []
  | _ + 1, none => []
  | n + 1, some a => a :: follow next n (next a)

theorem Links.follow (h : Links next l none) : ∀ {n}, l.length ≤ n →
    LinkedList.follow next n l.head? = l := by
  induction l with
  | nil =>
    intro n _
    cases n <;> rfl
  | cons a l ih =>
    intro n hn
    obtain ⟨n, rfl⟩ := Nat.exists_eq_succ_of_ne_zero (Nat.ne_of_gt (Nat.lt_of_lt_of_le (Nat.succ_pos _) hn))
    obtain ⟨ha, hl⟩ := h
    rw [Option.or_none] at ha
    show a :: LinkedList.follow next n (next a) = a :: l
    rw [ha, ih hl (Nat.le_of_succ_le_succ hn)]

end ECM.Lib.LinkedList
