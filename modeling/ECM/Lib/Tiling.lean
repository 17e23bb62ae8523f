import Mathlib.Data.Set.Prod
import Mathlib.Order.CompletePartialOrder
import Mathlib.Order.Interval.Set.Disjoint

/-! # Tilings of a set

A list of sets tiles a set when its members are pairwise disjoint and together
make up the set. Tilings refine part by part, multiply over products and
restrict to a subset whose border no part crosses. -/

namespace ECM.Lib.Tiling
open Set

variable {α β ι : Type}

structure Tiles (s : Set α) (parts : List (Set α)) : Prop where
  disjoint : parts.Pairwise Disjoint
  cover : ∀ x, x ∈ s ↔ ∃ p ∈ parts, x ∈ p

variable {s u : Set α} {t : Set β} {parts : List (Set α)}

theorem Tiles.subset (h : Tiles s parts) {p : Set α} (hp : p ∈ parts) : p ⊆ s :=
  fun x hx => (h.cover x).mpr ⟨p, hp, hx⟩

theorem Tiles.single (s : Set α) : Tiles s [s] where
  disjoint := List.pairwise_singleton _ _
  cover x := by simp

theorem Tiles.nil : Tiles (∅ : Set α) [] where
  disjoint := List.Pairwise.nil
  cover x := by simp

theorem Tiles.append {parts' : List (Set α)} (h : Tiles s parts) (h' : Tiles u parts')
    (hd : Disjoint s u) : Tiles (s ∪ u) (parts ++ parts') where
  disjoint := List.pairwise_append.mpr
    ⟨h.disjoint, h'.disjoint, fun _ hp _ hq => hd.mono (h.subset hp) (h'.subset hq)⟩
  cover x := by
    rw [mem_union, h.cover x, h'.cover x]
    simp only [List.mem_append, or_and_right, exists_or]

/-- Tiling every part of a tiling tiles the whole. -/
theorem Tiles.flatMap {l : List ι} {f : ι → Set α} (h : Tiles s (l.map f)) {g : ι → List (Set α)}
    (hg : ∀ i ∈ l, Tiles (f i) (g i)) : Tiles s (l.flatMap g) where
  disjoint := by
    rw [List.pairwise_flatMap]
    refine ⟨fun i hi => (hg i hi).disjoint, ?_⟩
    refine (List.pairwise_map.mp h.disjoint).imp_of_mem ?_
    intro i j hi hj hij p hp q hq
    exact hij.mono ((hg i hi).subset hp) ((hg j hj).subset hq)
  cover x := by
    rw [h.cover x]
    constructor
    · rintro ⟨p, hp, hx⟩
      obtain ⟨i, hi, rfl⟩ := List.mem_map.mp hp
      obtain ⟨q, hq, hx⟩ := ((hg i hi).cover x).mp hx
      exact ⟨q, List.mem_flatMap.mpr ⟨i, hi, hq⟩, hx⟩
    · rintro ⟨q, hq, hx⟩
      obtain ⟨i, hi, hq⟩ := List.mem_flatMap.mp hq
      exact ⟨f i, List.mem_map_of_mem hi, (hg i hi).subset hq hx⟩

/-- The parts inside `u` tile what `u` has of the whole, when every part is
either inside or outside. -/
theorem Tiles.inter_filter {l : List ι} {f : ι → Set α} (h : Tiles s (l.map f)) {keep : ι → Bool}
    (hin : ∀ i ∈ l, keep i = true → f i ⊆ u) (hout : ∀ i ∈ l, keep i = false → Disjoint (f i) u) :
    Tiles (s ∩ u) ((l.filter keep).map f) where
  disjoint := by
    rw [List.pairwise_map]
    exact (List.pairwise_map.mp h.disjoint).sublist List.filter_sublist
  cover x := by
    rw [mem_inter_iff, h.cover x]
    constructor
    · rintro ⟨⟨p, hp, hx⟩, hu⟩
      obtain ⟨i, hi, rfl⟩ := List.mem_map.mp hp
      cases hk : keep i with
      | false => exact absurd hu (disjoint_left.mp (hout i hi hk) hx)
      | true => exact ⟨f i, List.mem_map_of_mem (List.mem_filter.mpr ⟨hi, hk⟩), hx⟩
    · rintro ⟨p, hp, hx⟩
      obtain ⟨i, hi, rfl⟩ := List.mem_map.mp hp
      obtain ⟨hi, hk⟩ := List.mem_filter.mp hi
      exact ⟨⟨f i, List.mem_map_of_mem hi, hx⟩, hin i hi hk hx⟩

/-! ## Products -/

theorem Tiles.prod_right (h : Tiles s parts) (t : Set β) : Tiles (s ×ˢ t) (parts.map (· ×ˢ t)) where
  disjoint := by
    rw [List.pairwise_map]
    exact h.disjoint.imp fun hd => disjoint_prod.mpr (Or.inl hd)
  cover x := by
    rw [mem_prod, h.cover x.1]
    simp only [List.mem_map, exists_exists_and_eq_and, mem_prod]
    constructor
    · rintro ⟨⟨p, hp, h1⟩, h2⟩
      exact ⟨p, hp, h1, h2⟩
    · rintro ⟨p, hp, h1, h2⟩
      exact ⟨⟨p, hp, h1⟩, h2⟩

theorem Tiles.prod_left (s : Set α) {parts : List (Set β)} (h : Tiles t parts) :
    Tiles (s ×ˢ t) (parts.map (s ×ˢ ·)) where
  disjoint := by
    rw [List.pairwise_map]
    exact h.disjoint.imp fun hd => disjoint_prod.mpr (Or.inr hd)
  cover x := by
    rw [mem_prod, h.cover x.2]
    simp only [List.mem_map, exists_exists_and_eq_and, mem_prod]
    constructor
    · rintro ⟨h1, p, hp, h2⟩
      exact ⟨p, hp, h1, h2⟩
    · rintro ⟨p, hp, h1, h2⟩
      exact ⟨h1, p, hp, h2⟩

/-- A grid, row by row. -/
theorem Tiles.grid {cols : List (Set α)} {rows : List (Set β)} (hc : Tiles s cols) (hr : Tiles t rows) :
    Tiles (s ×ˢ t) (rows.flatMap fun r => cols.map (· ×ˢ r)) :=
  (hr.prod_left s).flatMap fun r _ => hc.prod_right r

/-! ## Cuts of an interval -/

variable [LinearOrder α] [LinearOrder β]

/-- Consecutive cut points tile the interval between the first and the last. -/
theorem tiles_Ico {f : ℕ → α} : ∀ {n : ℕ}, (∀ j < n, f j ≤ f (j + 1)) →
    Tiles (Ico (f 0) (f n)) ((List.range n).map fun j => Ico (f j) (f (j + 1))) := by
  intro n
  induction n with
  | zero =>
    intro _
    rw [Ico_self]
    exact Tiles.nil
  | succ n ih =>
    intro h
    have hle : f 0 ≤ f n := by
      clear ih
      induction n with
      | zero => exact le_refl _
      | succ n ih => exact (ih fun j hj => h j (by omega)).trans (h n (by omega))
    have hn := h n (Nat.lt_succ_self n)
    rw [List.range_succ, List.map_append, ← Ico_union_Ico_eq_Ico hle hn]
    refine (ih fun j hj => h j (by omega)).append (Tiles.single _) ?_
    exact Ico_disjoint_Ico_same

/-- The cells of a grid in raster order. -/
theorem range_mul_map {γ : Type} (g : ℕ → ℕ → γ) (n m : ℕ) :
    (List.range (n * m)).map (fun i => g (i % n) (i / n)) =
      (List.range m).flatMap fun r => (List.range n).map fun c => g c r := by
  induction m with
  | zero => rfl
  | succ m ih =>
    rw [Nat.mul_succ, List.range_add, List.map_append, ih, List.range_succ, List.flatMap_append,
      List.flatMap_singleton, List.map_map]
    refine congrArg _ (List.map_congr_left fun c hc => ?_)
    have hc := List.mem_range.mp hc
    have hmod : (n * m + c) % n = c := by rw [Nat.mul_add_mod, Nat.mod_eq_of_lt hc]
    have hdiv : (n * m + c) / n = m := by
      rw [Nat.mul_add_div (by omega), Nat.div_eq_of_lt hc, Nat.add_zero]
    rw [Function.comp, hmod, hdiv]

/-- A grid of cuts in both directions, in raster order. -/
theorem tiles_grid {f : ℕ → α} {g : ℕ → β} {n m : ℕ} (hf : ∀ j < n, f j ≤ f (j + 1))
    (hg : ∀ j < m, g j ≤ g (j + 1)) :
    Tiles (Ico (f 0) (f n) ×ˢ Ico (g 0) (g m)) ((List.range (n * m)).map fun i =>
      Ico (f (i % n)) (f (i % n + 1)) ×ˢ Ico (g (i / n)) (g (i / n + 1))) := by
  have h := (tiles_Ico hf).grid (tiles_Ico hg)
  rw [List.flatMap_map] at h
  simp only [List.map_map, Function.comp_def] at h
  rw [range_mul_map (fun c r => Ico (f c) (f (c + 1)) ×ˢ Ico (g r) (g (r + 1)))]
  exact h

end ECM.Lib.Tiling
