import Mathlib.Data.Nat.Notation
import Mathlib.Logic.Function.Basic

/-! # Objects with a lifetime

`new` hands out addresses that were never used before and `delete` ends the life
of an object; deleting an object twice is an error, deleting `NULL` is not. -/

namespace ECM.Lib

/-- `T*`. -/
abbrev Ptr := Option ℕ

structure Heap (T : Type) where
  next : ℕ
  cell : ℕ → Option T

namespace Heap
variable {T : Type}

def empty : Heap T := ⟨0, fun _ => none⟩

def new (h : Heap T) (v : T) : Heap T :=
  { next := h.next + 1, cell := Function.update h.cell h.next (some v) }

def delete (h : Heap T) : Ptr → Except String (Heap T)
  | none => .ok h
  | some a =>
    match h.cell a with
    | some _ => .ok { h with cell := Function.update h.cell a none }
    | none => .error "delete of a released object"

/-- The object is there and has not been released. -/
def Live (h : Heap T) (a : ℕ) : Prop := h.cell a ≠ none

/-- Only addresses that were handed out hold an object. -/
def Ok (h : Heap T) : Prop := ∀ a, h.Live a → a < h.next

variable {h h' : Heap T} {a b : ℕ} {v : T}

theorem new_ok (h1 : h.Ok) : (h.new v).Ok := by
  intro a ha
  by_cases h2 : a = h.next
  · subst h2
    exact Nat.lt_succ_self _
  · have h3 : h.Live a := by simpa [Live, new, h2] using ha
    exact Nat.lt_succ_of_lt (h1 a h3)

@[simp] theorem new_cell_next : (h.new v).cell h.next = some v := by simp [new]

theorem new_cell (hne : a ≠ h.next) : (h.new v).cell a = h.cell a := by simp [new, hne]

theorem Live.ne_next (ha : h.Live a) (h1 : h.Ok) : a ≠ h.next := Nat.ne_of_lt (h1 a ha)

theorem delete_live (ha : h.Live a) :
    h.delete (some a) = .ok { h with cell := Function.update h.cell a none } := by
  obtain ⟨w, hw⟩ := Option.ne_none_iff_exists'.mp ha
  simp [delete, hw]

/-- What a `delete` that does not fail leaves. -/
theorem delete_spec {p : Ptr} (hd : h.delete p = .ok h') :
    h'.next = h.next ∧ (∀ a, p ≠ some a → h'.cell a = h.cell a) ∧ ∀ a, p = some a → h'.cell a = none := by
  cases p with
  | none =>
    obtain rfl : h = h' := Except.ok.inj hd
    exact ⟨rfl, fun _ _ => rfl, fun a ha => by cases ha⟩
  | some b =>
    have hb : h.Live b := by
      intro hb
      simp [delete, hb] at hd
    rw [delete_live hb] at hd
    obtain rfl := Except.ok.inj hd
    refine ⟨rfl, fun a ha => ?_, fun a ha => ?_⟩
    · have hab : a ≠ b := fun hab => ha (congrArg some hab.symm)
      simp [hab]
    · obtain rfl : b = a := Option.some.inj ha
      simp

theorem delete_ok {p : Ptr} (h1 : h.Ok) (hd : h.delete p = .ok h') : h'.Ok := by
  obtain ⟨hn, hkeep, hgone⟩ := delete_spec hd
  intro a ha
  rw [hn]
  apply h1
  by_cases hp : p = some a
  · exact absurd (hgone a hp) ha
  · intro hc
    exact ha ((hkeep a hp).trans hc)

end Heap

end ECM.Lib
