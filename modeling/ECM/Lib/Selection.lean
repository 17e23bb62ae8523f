import Mathlib.Data.List.Nodup

/-! # The best of a stream

From the items seen so far a list keeps the best ones, at most so many, in order.
A new item is put behind the kept ones that go before it and in front of the others,
and what then stands past the limit is dropped. Only the order of the items is used. -/

namespace ECM.Lib.Selection

variable {α : Type} {before : α → α → Prop} {limit k : ℕ} {seen kept : List α} {x : α}

/-- `kept` are the best `limit` of the items in `seen`, the best one first. -/
structure Selects (before : α → α → Prop) (limit : ℕ) (seen kept : List α) : Prop where
  inside : ∀ p ∈ kept, p ∈ seen
  ordered : kept.Pairwise before
  best : ∀ p ∈ kept, ∀ q ∈ seen, q ∉ kept → before p q
  length_le : kept.length ≤ limit
  all : kept.length < limit → ∀ q ∈ seen, q ∈ kept

/-- The kept items with the new one at place `k`. -/
def insertAt (k : ℕ) (x : α) (kept : List α) : List α := kept.take k ++ x :: kept.drop k

theorem mem_insertAt {p : α} : p ∈ insertAt k x kept ↔ p = x ∨ p ∈ kept := by
  unfold insertAt
  rw [List.mem_append, List.mem_cons, or_left_comm, ← List.mem_append, List.take_append_drop]

theorem insertAt_length : (insertAt k x kept).length = kept.length + 1 := by
  unfold insertAt
  rw [List.length_append, List.length_cons, ← Nat.add_assoc, ← List.length_append,
    List.take_append_drop]

theorem insertAt_ordered (h : kept.Pairwise before) (hlow : ∀ p ∈ kept.take k, before p x)
    (hhigh : ∀ p ∈ kept.drop k, before x p) : (insertAt k x kept).Pairwise before := by
  rw [← List.take_append_drop k kept] at h
  obtain ⟨htake, hdrop, hcross⟩ := List.pairwise_append.mp h
  refine List.pairwise_append.mpr ⟨htake, List.pairwise_cons.mpr ⟨hhigh, hdrop⟩, ?_⟩
  intro p hp q hq
  rcases List.mem_cons.mp hq with rfl | hq
  · exact hlow p hp
  · exact hcross p hp q hq

/-- What falls out of a list in order comes after what stays. -/
theorem before_of_dropped (h : kept.Pairwise before) {p q : α} (hp : p ∈ kept.take k)
    (hq : q ∈ kept) (hdropped : q ∉ kept.take k) : before p q := by
  rw [← List.take_append_drop k kept] at h hq
  refine (List.pairwise_append.mp h).2.2 p hp q ?_
  exact (List.mem_append.mp hq).resolve_left hdropped

/-- One more item, put where it belongs. -/
theorem Selects.insert (h : Selects before limit seen kept)
    (htrans : ∀ {a b c}, before a b → before b c → before a c) (hnew : x ∉ kept)
    (hlow : ∀ p ∈ kept.take k, before p x) (hhigh : ∀ p ∈ kept.drop k, before x p) :
    Selects before limit (x :: seen) ((insertAt k x kept).take limit) := by
  have hord := insertAt_ordered h.ordered hlow hhigh
  refine ⟨?_, hord.sublist (List.take_sublist _ _), ?_, List.length_take_le _ _, ?_⟩
  · intro p hp
    rcases mem_insertAt.mp (List.mem_of_mem_take hp) with rfl | hp
    · exact List.mem_cons_self
    · exact List.mem_cons_of_mem x (h.inside p hp)
  · intro p hp q hq hnot
    by_cases hin : q ∈ insertAt k x kept
    · exact before_of_dropped hord hp hin hnot
    have hqx : q ≠ x := fun heq => hin (mem_insertAt.mpr (.inl heq))
    have hqk : q ∉ kept := fun hk => hin (mem_insertAt.mpr (.inr hk))
    have hqs : q ∈ seen := (List.mem_cons.mp hq).resolve_left hqx
    rcases mem_insertAt.mp (List.mem_of_mem_take hp) with rfl | hpk
    · -- something was left out before, so the list was full and the new item is not its end
      have hfull : limit ≤ kept.length := Nat.le_of_not_lt fun hlt => hqk (h.all hlt q hqs)
      have hk : k < kept.length := by
        refine Nat.lt_of_not_le fun hle => hnew ?_
        rw [insertAt, List.take_of_length_le hle, List.take_append_of_le_length hfull] at hp
        exact List.mem_of_mem_take hp
      have hlast : kept.get ⟨k, hk⟩ ∈ kept.drop k := by
        rw [List.drop_eq_getElem_cons hk]
        exact List.mem_cons_self
      exact htrans (hhigh _ hlast) (h.best _ (List.mem_of_mem_drop hlast) q hqs hqk)
    · exact h.best p hpk q hqs hqk
  · intro hlt q hq
    rw [List.length_take, insertAt_length] at hlt
    rw [List.take_of_length_le (by rw [insertAt_length]; omega)]
    rcases List.mem_cons.mp hq with rfl | hq
    · exact mem_insertAt.mpr (.inl rfl)
    · exact mem_insertAt.mpr (.inr (h.all (by omega) q hq))

end ECM.Lib.Selection
