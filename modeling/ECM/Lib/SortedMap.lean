import Mathlib.Order.Lattice
import Mathlib.Data.List.Pairwise

/-! # Maps in the order of their keys

Entries with strictly increasing keys, as `std::map` holds them. -/

namespace ECM.Lib

/-- Strictly increasing keys: no two entries share one. -/
structure SortedMap (κ α : Type) [LinearOrder κ] where
  entries : List (κ × α)
  sorted : entries.Pairwise fun a b => a.1 < b.1

namespace SortedMap
variable {κ α : Type} [LinearOrder κ]

/-! ## Entries in order -/

/-- The value of `k`. -/
def lookup (k : κ) : List (κ × α) → Option α
  | [] => none
  | (k', v) :: rest => if k' = k then some v else lookup k rest

/-- `v` under `k`, in its place. -/
def insertEntry (k : κ) (v : α) : List (κ × α) → List (κ × α)
  | [] => [(k, v)]
  | (k', v') :: rest =>
    if k < k' then (k, v) :: (k', v') :: rest
    else if k = k' then (k, v) :: rest
    else (k', v') :: insertEntry k v rest

variable {k k' : κ} {v : α} {es : List (κ × α)}

theorem mem_insertEntry {e : κ × α} (h : e ∈ insertEntry k v es) : e = (k, v) ∨ e ∈ es := by
  induction es with
  | nil => exact Or.inl (List.mem_singleton.mp h)
  | cons e' rest ih =>
    rw [insertEntry] at h
    split at h
    · exact List.mem_cons.mp h
    · split at h
      · exact (List.mem_cons.mp h).imp id (List.mem_cons_of_mem _)
      · rcases List.mem_cons.mp h with rfl | h
        · exact Or.inr List.mem_cons_self
        · exact (ih h).imp id (List.mem_cons_of_mem _)

theorem insertEntry_sorted (h : es.Pairwise fun a b => a.1 < b.1) :
    (insertEntry k v es).Pairwise fun a b => a.1 < b.1 := by
  induction es with
  | nil => exact List.pairwise_singleton _ _
  | cons e rest ih =>
    obtain ⟨hhead, htail⟩ := List.pairwise_cons.mp h
    rw [insertEntry]
    split
    · next hlt =>
      refine List.pairwise_cons.mpr ⟨fun b hb => ?_, h⟩
      rcases List.mem_cons.mp hb with rfl | hb
      · exact hlt
      · exact hlt.trans (hhead b hb)
    · next hge =>
      split
      · next heq =>
        subst heq
        exact List.pairwise_cons.mpr ⟨hhead, htail⟩
      · next hne =>
        refine List.pairwise_cons.mpr ⟨fun b hb => ?_, ih htail⟩
        rcases mem_insertEntry hb with rfl | hb
        · exact lt_of_le_of_ne (not_lt.mp hge) (Ne.symm hne)
        · exact hhead b hb

theorem lookup_insertEntry_self (k : κ) (v : α) (es : List (κ × α)) :
    lookup k (insertEntry k v es) = some v := by
  induction es with
  | nil => exact if_pos rfl
  | cons e rest ih =>
    rw [insertEntry]
    split
    · exact if_pos rfl
    · split
      · exact if_pos rfl
      · next hne => rw [lookup, if_neg (Ne.symm hne), ih]

theorem lookup_insertEntry_ne (hne : k' ≠ k) (v : α) (es : List (κ × α)) :
    lookup k' (insertEntry k v es) = lookup k' es := by
  induction es with
  | nil => exact if_neg (Ne.symm hne)
  | cons e rest ih =>
    rw [insertEntry]
    split
    · exact if_neg (Ne.symm hne)
    · split
      · next heq => rw [lookup, lookup, if_neg (Ne.symm hne), if_neg (heq ▸ Ne.symm hne)]
      · rw [lookup, lookup, ih]

/-- All keys are above `k`. -/
theorem lookup_eq_none_of_lt (h : ∀ e ∈ es, k < e.1) : lookup k es = none := by
  induction es with
  | nil => rfl
  | cons e rest ih =>
    rw [lookup, if_neg (h e List.mem_cons_self).ne', ih fun e' he' => h e' (List.mem_cons_of_mem _ he')]

theorem lookup_isSome_iff : (lookup k es).isSome = true ↔ ∃ e ∈ es, e.1 = k := by
  induction es with
  | nil => simp [lookup]
  | cons e rest ih =>
    rw [lookup]
    split
    · next h => simp [h]
    · next h => simp [h, ih]

theorem length_insertEntry (h : es.Pairwise fun a b => a.1 < b.1) :
    (insertEntry k v es).length = es.length + if (lookup k es).isSome then 0 else 1 := by
  induction es with
  | nil => rfl
  | cons e rest ih =>
    obtain ⟨hhead, htail⟩ := List.pairwise_cons.mp h
    rw [insertEntry]
    split
    · next hlt =>
      have hnone : lookup k (e :: rest) = none := lookup_eq_none_of_lt fun b hb => by
        rcases List.mem_cons.mp hb with rfl | hb
        · exact hlt
        · exact hlt.trans (hhead b hb)
      rw [hnone]
      rfl
    · split
      · next heq => rw [lookup, if_pos heq.symm]; rfl
      · next hne =>
        rw [lookup, if_neg (Ne.symm hne), List.length_cons, ih htail, List.length_cons, Nat.add_right_comm]

/-! ## Maps -/

def empty : SortedMap κ α := ⟨[], List.Pairwise.nil⟩

def find? (m : SortedMap κ α) (k : κ) : Option α := lookup k m.entries

def size (m : SortedMap κ α) : ℕ := m.entries.length

def insert (m : SortedMap κ α) (k : κ) (v : α) : SortedMap κ α :=
  ⟨insertEntry k v m.entries, insertEntry_sorted m.sorted⟩

/-- `erase( begin() )`. -/
def eraseBegin (m : SortedMap κ α) : SortedMap κ α := ⟨m.entries.tail, m.sorted.tail⟩

/-- `k` has an entry. -/
def Has (m : SortedMap κ α) (k : κ) : Prop := (m.find? k).isSome = true

/-- `k` has an entry, and no smaller key has. -/
def IsMin (m : SortedMap κ α) (k : κ) : Prop := m.Has k ∧ ∀ k', m.Has k' → k ≤ k'

variable {m : SortedMap κ α}

@[simp] theorem find?_insert_self (m : SortedMap κ α) (k : κ) (v : α) : (m.insert k v).find? k = some v :=
  lookup_insertEntry_self k v m.entries

theorem find?_insert_ne (hne : k' ≠ k) : (m.insert k v).find? k' = m.find? k' :=
  lookup_insertEntry_ne hne v m.entries

theorem size_insert_of_has (h : m.Has k) : (m.insert k v).size = m.size := by
  have hsome : (lookup k m.entries).isSome = true := h
  rw [size, insert, length_insertEntry m.sorted, if_pos hsome]
  rfl

theorem size_insert_of_not_has (h : ¬m.Has k) : (m.insert k v).size = m.size + 1 := by
  have hnone : ¬(lookup k m.entries).isSome = true := h
  rw [size, insert, length_insertEntry m.sorted, if_neg hnone]
  rfl

theorem size_eraseBegin (m : SortedMap κ α) : m.eraseBegin.size = m.size - 1 := List.length_tail

/-- The entry that goes is that of the smallest key. -/
theorem find?_eraseBegin_min (h : m.IsMin k) : m.eraseBegin.find? k = none := by
  obtain ⟨es, hs⟩ := m
  cases es with
  | nil => rfl
  | cons e rest =>
    have hle : k ≤ e.1 := h.2 e.1 (lookup_isSome_iff.mpr ⟨e, List.mem_cons_self, rfl⟩)
    exact lookup_eq_none_of_lt fun b hb => lt_of_le_of_lt hle (List.rel_of_pairwise_cons hs hb)

theorem find?_eraseBegin (h : ¬m.IsMin k) : m.eraseBegin.find? k = m.find? k := by
  obtain ⟨es, hs⟩ := m
  cases es with
  | nil => rfl
  | cons e rest =>
    by_cases he : e.1 = k
    · subst he
      refine absurd ⟨lookup_isSome_iff.mpr ⟨e, List.mem_cons_self, rfl⟩, fun k' hk' => ?_⟩ h
      obtain ⟨e', he', rfl⟩ := lookup_isSome_iff.mp hk'
      rcases List.mem_cons.mp he' with rfl | he'
      · exact le_refl _
      · exact (List.rel_of_pairwise_cons hs he').le
    · exact (if_neg he).symm

end SortedMap

end ECM.Lib
