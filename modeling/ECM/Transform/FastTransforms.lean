import ECM.CommonLib.TrQuantEmt
import Mathlib.Data.List.GetD

/-! # Fast transforms are products with their matrices -/

namespace ECM.Transform.FastTransforms
open CommonLib.TrQuantEmt CommonLib.RomTr Lib.Loop Lib.EvenOdd
open Finset (range sum_congr mem_range)

/-! ## What a line writes -/

/-- The entries below `count` are written once each, entry `k` with `g k`. -/
structure Writes (values : List (ℕ × ℤ)) (count : ℕ) (g : ℕ → ℤ) : Prop where
  keys : (values.map Prod.fst).Perm (List.range count)
  value : ∀ e ∈ values, e.2 = g e.1

section
variable {values : List (ℕ × ℤ)} {count : ℕ} {g : ℕ → ℤ} {place : ℕ → ℕ} {dst : TCoeffs}

theorem Writes.store_lt (h : Writes values count g) (hplace : Function.Injective place) {k : ℕ} (hk : k < count) :
    store place values dst (place k) = g k := by
  obtain ⟨e, he, rfl⟩ := List.mem_map.mp (h.keys.mem_iff.mpr (List.mem_range.mpr hk))
  have hnodup : (values.map fun e => place e.1).Nodup := by
    have hmap := (List.nodup_map_iff hplace).mpr (h.keys.nodup_iff.mpr List.nodup_range)
    rwa [List.map_map] at hmap
  rw [← h.value e he]
  exact foldl_assign_of_mem dst hnodup he

theorem Writes.store_of_ne (h : Writes values count g) {i : ℕ} (hi : ∀ k < count, place k ≠ i) :
    store place values dst i = dst i := by
  refine foldl_assign_of_notMem dst fun hmem => ?_
  obtain ⟨e, he, heq⟩ := List.mem_map.mp hmem
  exact hi e.1 (List.mem_range.mp (h.keys.mem_iff.mp (List.mem_map_of_mem he))) heq

end

/-! ## Positions -/

theorem index_lt {n i k m : ℕ} (h : k * n + i < m * n) : k < m := by
  by_contra hge
  have hmul := Nat.mul_le_mul_right n (Nat.le_of_not_lt hge)
  omega

theorem lt_index {n i k m : ℕ} (hi : i < n) (h : k < m) : k * n + i < m * n := by
  have hmul := Nat.mul_le_mul_right n (Nat.succ_le_of_lt h)
  rw [Nat.succ_mul] at hmul
  omega

theorem index_inj {n i j k m : ℕ} (hi : i < n) (hj : j < n) (h : k * n + i = m * n + j) : k = m ∧ i = j := by
  have hk := @index_lt n i k (m + 1) (by rw [Nat.succ_mul]; omega)
  have hm := @index_lt n j m (k + 1) (by rw [Nat.succ_mul]; omega)
  obtain rfl : k = m := by omega
  omega

/-! ## Forward lines -/

section
variable {uiTrSize line iSkipLine iSkipLine2 count : ℕ} {values : TCoeffs → List (ℕ × ℤ)} {g : TCoeffs → ℕ → ℤ}

theorem forwardLines_apply (h : ∀ x, Writes (values x) count (g x)) (src dst : TCoeffs) {r : ℕ} (hr : r ≤ line)
    {i : ℕ} (hi : i < line) (k : ℕ) : forwardLines uiTrSize values src dst line r (k * line + i) =
      if i < r ∧ k < count then g (fun n => src (i * uiTrSize + n)) k else dst (k * line + i) := by
  revert i k
  refine @foldl_range TCoeffs r (fun m t => ∀ {i : ℕ}, i < line → ∀ k, t (k * line + i) =
    if i < m ∧ k < count then g (fun n => src (i * uiTrSize + n)) k else dst (k * line + i)) dst _ ?_ ?_
  · intro i _ k
    rw [if_neg (by omega)]
  · intro m hm t ht i hi k
    have hx := h fun n => src (m * uiTrSize + n)
    by_cases hnew : i = m ∧ k < count
    · obtain ⟨rfl, hk⟩ := hnew
      have hplace : Function.Injective fun k => k * line + i := fun a b hab =>
        (index_inj hi hi hab).1
      rw [if_pos ⟨by omega, hk⟩]
      exact hx.store_lt hplace hk
    · rw [hx.store_of_ne, ht hi]
      · by_cases hk : k < count
        · simp only [hk, and_true] at hnew ⊢
          congr 1
          exact propext (by omega)
        · rw [if_neg (by omega), if_neg (by omega)]
      · intro k' hk' heq
        obtain ⟨rfl, rfl⟩ := index_inj (by omega) hi heq
        exact hnew ⟨rfl, hk'⟩

theorem clearLines_apply (dst : TCoeffs) (hskip : iSkipLine ≤ line) {i : ℕ} (hi : i < line) (k : ℕ) :
    clearLines line iSkipLine count dst (k * line + i) =
      if line - iSkipLine ≤ i ∧ k < count then 0 else dst (k * line + i) := by
  revert i k
  refine @foldl_range TCoeffs count (fun m t => ∀ {i : ℕ}, i < line → ∀ k, t (k * line + i) =
    if line - iSkipLine ≤ i ∧ k < m then 0 else dst (k * line + i)) dst _ ?_ ?_
  · intro i _ k
    rw [if_neg (by omega)]
  · intro m _ t ht i hi k
    have hiff : line - iSkipLine + m * line ≤ k * line + i ∧
        k * line + i < line - iSkipLine + m * line + iSkipLine ↔ line - iSkipLine ≤ i ∧ k = m := by
      constructor
      · rintro ⟨hlow, hhigh⟩
        have hk := @index_lt line i k (m + 1) (by rw [Nat.succ_mul]; omega)
        rcases Nat.lt_succ_iff_lt_or_eq.mp hk with hlt | rfl
        · have := lt_index hi hlt
          omega
        · exact ⟨by omega, rfl⟩
      · rintro ⟨hlow, rfl⟩
        omega
    unfold clear
    by_cases hnew : line - iSkipLine ≤ i ∧ k = m
    · rw [if_pos (hiff.mpr hnew), if_pos ⟨hnew.1, by omega⟩]
    · rw [if_neg (mt hiff.mp hnew), ht hi]
      congr 1
      exact propext (by omega)

/-- Entries of a forward function that clears all its frequencies. -/
theorem forwardAll_apply (h : ∀ x, Writes (values x) uiTrSize (g x)) (src dst : TCoeffs) (hskip : iSkipLine ≤ line)
    {i : ℕ} (hi : i < line) {k : ℕ} (hk : k < uiTrSize) :
    forwardAll uiTrSize values src dst line iSkipLine (k * line + i) =
      if line - iSkipLine ≤ i then 0 else g (fun n => src (i * uiTrSize + n)) k := by
  rw [forwardAll, clearLines_apply _ hskip hi, forwardLines_apply h src dst (Nat.sub_le _ _) hi]
  by_cases hle : line - iSkipLine ≤ i
  · rw [if_pos ⟨hle, hk⟩, if_pos hle]
  · rw [if_neg (by omega), if_neg hle, if_pos ⟨by omega, hk⟩]

/-- Entries of a forward function that clears the skipped frequencies. -/
theorem forwardCutoff_apply (h : ∀ x, Writes (values x) count (g x)) (hcount : uiTrSize - iSkipLine2 ≤ count)
    (src dst : TCoeffs) (hskip : iSkipLine ≤ line) (hskip2 : iSkipLine2 ≤ uiTrSize) {i : ℕ} (hi : i < line)
    {k : ℕ} (hk : k < uiTrSize) :
    forwardCutoff uiTrSize values src dst line iSkipLine iSkipLine2 (k * line + i) =
      if uiTrSize - iSkipLine2 ≤ k ∨ line - iSkipLine ≤ i then 0 else g (fun n => src (i * uiTrSize + n)) k := by
  have hsize : line * (uiTrSize - iSkipLine2) + line * iSkipLine2 = uiTrSize * line := by
    rw [← Nat.mul_add, Nat.sub_add_cancel hskip2, Nat.mul_comm]
  have hlt := lt_index hi hk
  unfold forwardCutoff clear
  rw [clearLines_apply _ hskip hi, forwardLines_apply h src dst (Nat.sub_le _ _) hi]
  by_cases hcut : uiTrSize - iSkipLine2 ≤ k
  · have hle := Nat.mul_le_mul_right line hcut
    rw [Nat.mul_comm (uiTrSize - iSkipLine2)] at hle
    rw [if_pos ⟨by omega, by omega⟩, if_pos (.inl hcut)]
  · have hbelow := lt_index hi (Nat.lt_of_not_le hcut)
    rw [Nat.mul_comm (uiTrSize - iSkipLine2)] at hbelow
    rw [if_neg (by omega)]
    by_cases hle : line - iSkipLine ≤ i
    · rw [if_pos ⟨hle, by omega⟩, if_pos (.inr hle)]
    · rw [if_neg (mt And.left hle), if_pos ⟨by omega, by omega⟩, if_neg (not_or_intro hcut hle)]

/-! ## Inverse lines -/

theorem inverseLines_apply {src : TCoeffs} (h : ∀ i < line - iSkipLine,
      Writes (values fun k => src (k * line + i)) uiTrSize (g fun k => src (k * line + i)))
    (dst : TCoeffs) (hskip : iSkipLine ≤ line) {i : ℕ} (hi : i < line) {n : ℕ} (hn : n < uiTrSize) :
    inverseLines uiTrSize values src dst line iSkipLine (i * uiTrSize + n) =
      if line - iSkipLine ≤ i then 0 else g (fun k => src (k * line + i)) n := by
  have hlines : ∀ {i : ℕ} (_ : i < line) {n : ℕ} (_ : n < uiTrSize),
      (List.range (line - iSkipLine)).foldl (fun dst j => store (fun n => j * uiTrSize + n)
        (values fun k => src (k * line + j)) dst) dst (i * uiTrSize + n) =
        if i < line - iSkipLine then g (fun k => src (k * line + i)) n else dst (i * uiTrSize + n) := by
    refine @foldl_range TCoeffs _ (fun m t => ∀ {i : ℕ}, i < line → ∀ {n : ℕ}, n < uiTrSize →
      t (i * uiTrSize + n) = if i < m then g (fun k => src (k * line + i)) n else dst (i * uiTrSize + n)) dst _ ?_ ?_
    · intro i _ n _
      rw [if_neg (Nat.not_lt_zero i)]
    · intro m hm t ht i hi n hn
      have hx := h m hm
      by_cases him : i = m
      · obtain rfl := him
        have hplace : Function.Injective fun n => i * uiTrSize + n := fun a b hab => Nat.add_left_cancel hab
        rw [if_pos (Nat.lt_succ_self i)]
        exact hx.store_lt hplace hn
      · rw [hx.store_of_ne, ht hi hn]
        · congr 1
          exact propext (by omega)
        · intro n' hn' heq
          exact him (index_inj hn' hn heq).1.symm
  have hsize : (line - iSkipLine) * uiTrSize + iSkipLine * uiTrSize = line * uiTrSize := by
    rw [← Nat.add_mul, Nat.sub_add_cancel hskip]
  have hlt := lt_index hn hi
  unfold inverseLines clear
  by_cases hle : line - iSkipLine ≤ i
  · have hmul := Nat.mul_le_mul_right uiTrSize hle
    rw [if_pos ⟨by omega, by omega⟩, if_pos hle]
  · have hbelow := lt_index hn (Nat.lt_of_not_le hle)
    rw [if_neg (by omega), if_neg hle, hlines hi hn, if_pos (by omega)]

end

/-! ## Matrix multiplication -/

section
variable (uiTrSize cutoff : ℕ) (tc : ℕ → ℤ) (finish : ℤ → ℤ) (src : TCoeffs)

/-- The product of row `k` with a line. -/
def forwardValue (k : ℕ) : ℤ := finish (∑ n ∈ range uiTrSize, tc (k * uiTrSize + n) * src n)

/-- The product of column `n` with a line. -/
def inverseValue (n : ℕ) : ℤ := finish (∑ k ∈ range uiTrSize, tc (k * uiTrSize + n) * src k)

theorem forwardMMLine_writes :
    Writes (forwardMMLine uiTrSize cutoff tc finish src) cutoff (forwardValue uiTrSize tc finish src) where
  keys := by
    rw [forwardMMLine, List.map_map, show Prod.fst ∘ _ = (fun j : ℕ => j) from rfl, List.map_id']
  value e he := by
    obtain ⟨j, -, rfl⟩ := List.mem_map.mp he
    exact congrArg finish (sum_congr rfl fun k _ => Int.mul_comm _ _)

/-- Skipped coefficients do not count if they are zero. -/
theorem inverseMMLine_writes (hcut : cutoff ≤ uiTrSize) (hzero : ∀ k, cutoff ≤ k → k < uiTrSize → src k = 0) :
    Writes (inverseMMLine uiTrSize cutoff tc finish src) uiTrSize (inverseValue uiTrSize tc finish src) where
  keys := by
    rw [inverseMMLine, List.map_map, show Prod.fst ∘ _ = (fun j : ℕ => j) from rfl, List.map_id']
  value e he := by
    obtain ⟨j, -, rfl⟩ := List.mem_map.mp he
    refine congrArg finish ?_
    calc ∑ k ∈ range cutoff, src k * tc (k * uiTrSize + j)
      _ = ∑ k ∈ range cutoff, tc (k * uiTrSize + j) * src k := sum_congr rfl fun k _ => Int.mul_comm _ _
      _ = ∑ k ∈ range uiTrSize, tc (k * uiTrSize + j) * src k :=
        Finset.sum_subset (Finset.range_subset_range.mpr hcut) fun k hk hk' => by
          rw [hzero k (Nat.le_of_not_lt (mt mem_range.mpr hk')) (mem_range.mp hk), Int.mul_zero]

end

/-! ## Forward DCT-II -/

section
variable {l : ℕ} {iT : ℕ → ℤ} {finish : ℤ → ℤ} {x : TCoeffs}

/-- The rows of a matrix of size `2 ^ l`. -/
def rowsOf (l : ℕ) (iT : ℕ → ℤ) (k n : ℕ) : ℤ := iT (k * 2 ^ l + n)

/-- A frequency that `2 ^ j` divides, from the sums of level `j`. -/
theorem even_entry (h : Butterfly l (rowsOf l iT)) {i j : ℕ} (hij : i + j = l) {k : ℕ} (hk : k < 2 ^ i) :
    finish (products (2 ^ i) iT (k * 2 ^ j * 2 ^ l) (level i j x)) =
      forwardValue (2 ^ l) iT finish x (k * 2 ^ j) :=
  congrArg finish (h.sum_even hij x hk).symm

/-- A frequency that no higher power than `2 ^ j` divides, from the differences of level `j`. -/
theorem odd_entry (h : Butterfly l (rowsOf l iT)) {i j : ℕ} (hij : i + 1 + j = l) {k : ℕ} (hk : k < 2 ^ i) :
    finish (products (2 ^ i) iT ((k * 2 ^ (j + 1) + 2 ^ j) * 2 ^ l) (diffs (2 ^ i) (level (i + 1) j x))) =
      forwardValue (2 ^ l) iT finish x (k * 2 ^ (j + 1) + 2 ^ j) :=
  congrArg finish (h.sum_odd hij x hk).symm

/-- The loop over frequencies that no higher power than `2 ^ j` divides. -/
theorem odd_group (h : Butterfly l (rowsOf l iT)) {i j : ℕ} (hij : i + 1 + j = l) {c : ℕ} (hc : c ≤ 2 ^ i) :
    ∀ e ∈ (List.range' (2 ^ j) c (2 ^ (j + 1))).map (fun k =>
      (k, finish (products (2 ^ i) iT (k * 2 ^ l) (diffs (2 ^ i) (level (i + 1) j x))))),
      e.2 = forwardValue (2 ^ l) iT finish x e.1 := by
  intro e he
  obtain ⟨k, hk, rfl⟩ := List.mem_map.mp he
  obtain ⟨q, hq, rfl⟩ := List.mem_range'.mp hk
  rw [Nat.add_comm, Nat.mul_comm]
  exact odd_entry h hij (by omega)

theorem forwardDCT2_B2Line_writes (h : Butterfly 1 (rowsOf 1 iT)) :
    Writes (forwardDCT2_B2Line iT finish x) 2 (forwardValue 2 iT finish x) where
  keys := .refl _
  value := by
    have h0 := @even_entry 1 iT finish x h 0 1 rfl 0 (by decide)
    have h1 := @odd_entry 1 iT finish x h 0 0 rfl 0 (by decide)
    simp only [products, pow_zero, Finset.sum_range_one] at h0 h1
    simp only [forwardDCT2_B2Line, List.forall_mem_cons]
    exact ⟨h0, h1, List.forall_mem_nil _⟩

theorem forwardDCT2_B4Line_writes (h : Butterfly 2 (rowsOf 2 iT)) :
    Writes (forwardDCT2_B4Line iT finish x) 4 (forwardValue 4 iT finish x) where
  keys := by
    change List.Perm [0, 2, 1, 3] _
    decide
  value := by
    simp only [forwardDCT2_B4Line, List.forall_mem_cons]
    exact ⟨@even_entry 2 iT finish x h 1 1 rfl 0 (by decide), @even_entry 2 iT finish x h 1 1 rfl 1 (by decide),
      @odd_entry 2 iT finish x h 1 0 rfl 0 (by decide), @odd_entry 2 iT finish x h 1 0 rfl 1 (by decide),
      List.forall_mem_nil _⟩

theorem forwardDCT2_B8Line_writes (h : Butterfly 3 (rowsOf 3 iT)) :
    Writes (forwardDCT2_B8Line iT finish x) 8 (forwardValue 8 iT finish x) where
  keys := by
    change List.Perm [0, 4, 2, 6, 1, 3, 5, 7] _
    decide
  value := by
    simp only [forwardDCT2_B8Line, List.forall_mem_cons]
    refine ⟨?_, ?_, ?_, ?_, ?_, ?_, ?_, ?_, List.forall_mem_nil _⟩
    · exact @even_entry 3 iT finish x h 1 2 rfl 0 (by decide)
    · exact @even_entry 3 iT finish x h 1 2 rfl 1 (by decide)
    · exact @odd_entry 3 iT finish x h 1 1 rfl 0 (by decide)
    · exact @odd_entry 3 iT finish x h 1 1 rfl 1 (by decide)
    · exact @odd_entry 3 iT finish x h 2 0 rfl 0 (by decide)
    · exact @odd_entry 3 iT finish x h 2 0 rfl 1 (by decide)
    · exact @odd_entry 3 iT finish x h 2 0 rfl 2 (by decide)
    · exact @odd_entry 3 iT finish x h 2 0 rfl 3 (by decide)

theorem forwardDCT2_B16Line_writes (h : Butterfly 4 (rowsOf 4 iT)) :
    Writes (forwardDCT2_B16Line iT finish x) 16 (forwardValue 16 iT finish x) where
  keys := by
    simp only [forwardDCT2_B16Line, List.map_append, List.map_map, List.map_cons, List.map_nil, Function.comp_def,
      List.map_id']
    decide
  value := by
    simp only [forwardDCT2_B16Line, List.forall_mem_append, List.forall_mem_cons]
    refine ⟨⟨⟨?_, ?_, ?_, ?_, List.forall_mem_nil _⟩, ?_⟩, ?_⟩
    · exact @even_entry 4 iT finish x h 1 3 rfl 0 (by decide)
    · exact @even_entry 4 iT finish x h 1 3 rfl 1 (by decide)
    · exact @odd_entry 4 iT finish x h 1 2 rfl 0 (by decide)
    · exact @odd_entry 4 iT finish x h 1 2 rfl 1 (by decide)
    · exact @odd_group 4 iT finish x h 2 1 rfl 4 (by decide)
    · exact @odd_group 4 iT finish x h 3 0 rfl 8 (by decide)

theorem forwardDCT2_B32Line_writes (h : Butterfly 5 (rowsOf 5 iT)) :
    Writes (forwardDCT2_B32Line iT finish x) 32 (forwardValue 32 iT finish x) where
  keys := by
    simp only [forwardDCT2_B32Line, List.map_append, List.map_map, List.map_cons, List.map_nil, Function.comp_def,
      List.map_id']
    decide
  value := by
    simp only [forwardDCT2_B32Line, List.forall_mem_append, List.forall_mem_cons]
    refine ⟨⟨⟨⟨?_, ?_, ?_, ?_, List.forall_mem_nil _⟩, ?_⟩, ?_⟩, ?_⟩
    · exact @even_entry 5 iT finish x h 1 4 rfl 0 (by decide)
    · exact @even_entry 5 iT finish x h 1 4 rfl 1 (by decide)
    · exact @odd_entry 5 iT finish x h 1 3 rfl 0 (by decide)
    · exact @odd_entry 5 iT finish x h 1 3 rfl 1 (by decide)
    · exact @odd_group 5 iT finish x h 2 2 rfl 4 (by decide)
    · exact @odd_group 5 iT finish x h 3 1 rfl 8 (by decide)
    · exact @odd_group 5 iT finish x h 4 0 rfl 16 (by decide)

theorem forwardDCT2_B64Line_writes (h : Butterfly 6 (rowsOf 6 iT)) (zo : Bool) :
    Writes (forwardDCT2_B64Line iT finish x zo) (if zo then 32 else 64) (forwardValue 64 iT finish x) where
  keys := by
    unfold forwardDCT2_B64Line
    simp only [List.map_append, List.map_map, List.map_cons, apply_ite, List.map_nil, Function.comp_def, List.map_id']
    cases zo <;> decide
  value := by
    simp only [forwardDCT2_B64Line, List.forall_mem_append, List.forall_mem_cons]
    refine ⟨⟨⟨⟨⟨⟨?_, ?_, List.forall_mem_nil _⟩, ?_⟩, ?_⟩, ?_⟩, ?_⟩, ?_⟩
    · exact @even_entry 6 iT finish x h 1 5 rfl 0 (by decide)
    · exact @odd_entry 6 iT finish x h 1 4 rfl 0 (by decide)
    · cases zo with
      | false =>
        refine List.forall_mem_cons.mpr ⟨?_, List.forall_mem_cons.mpr ⟨?_, List.forall_mem_nil _⟩⟩
        · exact @even_entry 6 iT finish x h 1 5 rfl 1 (by decide)
        · exact @odd_entry 6 iT finish x h 1 4 rfl 1 (by decide)
      | true => exact List.forall_mem_nil _
    · exact @odd_group 6 iT finish x h 2 3 rfl (if zo then 2 else 4) (by split <;> decide)
    · exact @odd_group 6 iT finish x h 3 2 rfl (if zo then 4 else 8) (by split <;> decide)
    · exact @odd_group 6 iT finish x h 4 1 rfl (if zo then 8 else 16) (by split <;> decide)
    · exact @odd_group 6 iT finish x h 5 0 rfl (if zo then 16 else 32) (by split <;> decide)

end

/-! ## Inverse DCT-II -/

section
variable {l : ℕ} {iT : ℕ → ℤ} {finish : ℤ → ℤ} {y : TCoeffs}

theorem taps_range' (uiTrSize n s c step : ℕ) : taps uiTrSize iT n (List.range' s c step) y =
    ∑ q ∈ range c, iT ((s + step * q) * uiTrSize + n) * y (s + step * q) := by
  unfold taps
  induction c with
  | zero => rfl
  | succ c ih =>
    rw [List.range'_concat, List.map_append, List.sum_append, ih, Finset.sum_range_succ]
    simp only [List.map_cons, List.map_nil, List.sum_singleton]

theorem taps_even (i j n : ℕ) :
    taps (2 ^ l) iT n (List.range' 0 (2 ^ i) (2 ^ j)) y = evenPart (rowsOf l iT) y i j n := by
  rw [taps_range']
  refine sum_congr rfl fun q _ => ?_
  rw [Nat.zero_add, Nat.mul_comm (2 ^ j)]
  rfl

theorem taps_odd (i j n : ℕ) :
    taps (2 ^ l) iT n (List.range' (2 ^ j) (2 ^ i) (2 ^ (j + 1))) y = oddPart (rowsOf l iT) y i j n := by
  rw [taps_range']
  refine sum_congr rfl fun q _ => ?_
  rw [Nat.add_comm (2 ^ j), Nat.mul_comm (2 ^ (j + 1))]
  rfl

/-- Coefficients that are left out do not count if they are zero. -/
theorem taps_zo {zo : Bool} {uiTrSize n : ℕ} (a b : List ℕ) (hzero : zo = true → ∀ k ∈ b, y k = 0) :
    (taps uiTrSize iT n a y + if zo then 0 else taps uiTrSize iT n b y) = taps uiTrSize iT n (a ++ b) y := by
  unfold taps
  rw [List.map_append, List.sum_append]
  cases zo with
  | false => rfl
  | true =>
    have hsum : (b.map fun i => iT (i * uiTrSize + n) * y i).sum = 0 := by
      refine List.sum_eq_zero fun v hv => ?_
      obtain ⟨k, hk, rfl⟩ := List.mem_map.mp hv
      rw [hzero rfl k hk, Int.mul_zero]
    rw [if_pos rfl, hsum]

theorem halves_writes (m : ℕ) (E O : ℕ → ℤ) :
    Writes (halves finish m E O) (2 * m) fun n => finish (mirrored m E O n) where
  keys := by
    have hperm := List.flatMap_append_perm (List.range m) (fun k => [k]) fun k => [k + m]
    rw [halves, List.map_flatMap, two_mul, List.range_add]
    refine List.Perm.trans (.of_eq rfl) (hperm.symm.trans (.of_eq ?_))
    rw [List.flatMap_singleton', List.map_eq_flatMap]
    simp only [Nat.add_comm]
  value e he := by
    obtain ⟨k, hk, he⟩ := List.mem_flatMap.mp he
    have hlt := List.mem_range.mp hk
    unfold mirrored
    rcases List.mem_cons.mp he with rfl | he
    · rw [if_pos hlt]
    · obtain rfl := List.mem_singleton.mp he
      rw [if_neg (by omega), Nat.add_sub_cancel]

/-- The last level gives the whole column. -/
theorem inverse_writes (h : Butterfly (l + 1) (rowsOf (l + 1) iT)) {E O : ℕ → ℤ}
    (hE : ∀ n < 2 ^ l, E n = evenPart (rowsOf (l + 1) iT) y l 1 n)
    (hO : ∀ n < 2 ^ l, O n = oddPart (rowsOf (l + 1) iT) y l 0 n) :
    Writes (halves finish (2 ^ l) E O) (2 ^ (l + 1)) (inverseValue (2 ^ (l + 1)) iT finish y) := by
  have hhalves := @halves_writes finish (2 ^ l) E O
  rw [← pow_succ'] at hhalves
  refine ⟨hhalves.keys, fun e he => ?_⟩
  have hlt := List.mem_range.mp (hhalves.keys.mem_iff.mp (List.mem_map_of_mem he))
  rw [hhalves.value e he, h.mirrored_eq (Nat.add_zero _) y hE hO e.1 hlt]
  refine congrArg finish (sum_congr rfl fun k _ => ?_)
  rw [pow_zero, Nat.mul_one]
  rfl

theorem Writes.perm {values values' : List (ℕ × ℤ)} {count : ℕ} {g : ℕ → ℤ} (h : Writes values count g)
    (hperm : values'.Perm values) : Writes values' count g :=
  ⟨(hperm.map _).trans h.keys, fun e he => h.value e (hperm.mem_iff.mp he)⟩

theorem inverseDCT2_B4Line_writes (h : Butterfly 2 (rowsOf 2 iT)) :
    Writes (inverseDCT2_B4Line iT finish y) 4 (inverseValue 4 iT finish y) :=
  (inverse_writes h (fun n _ => @taps_even 2 iT y 1 1 n) fun n _ => @taps_odd 2 iT y 1 0 n).perm
    (.cons _ (.swap _ _ _))

theorem inverseDCT2_B8Line_writes (h : Butterfly 3 (rowsOf 3 iT)) :
    Writes (inverseDCT2_B8Line iT finish y) 8 (inverseValue 8 iT finish y) := by
  have hE := @Butterfly.mirrored_eq _ _ _ _ h 1 1 rfl y _ _ (fun n _ => @taps_even 3 iT y 1 2 n) fun n _ =>
    @taps_odd 3 iT y 1 1 n
  exact inverse_writes h hE fun n _ => @taps_odd 3 iT y 2 0 n

theorem inverseDCT2_B16Line_writes (h : Butterfly 4 (rowsOf 4 iT)) :
    Writes (inverseDCT2_B16Line iT finish y) 16 (inverseValue 16 iT finish y) := by
  have hEE := @Butterfly.mirrored_eq _ _ _ _ h 1 2 rfl y _ _ (fun n _ => @taps_even 4 iT y 1 3 n) fun n _ =>
    @taps_odd 4 iT y 1 2 n
  have hE := @Butterfly.mirrored_eq _ _ _ _ h 2 1 rfl y _ _ hEE fun n _ => @taps_odd 4 iT y 2 1 n
  exact inverse_writes h hE fun n _ => @taps_odd 4 iT y 3 0 n

theorem inverseDCT2_B32Line_writes (h : Butterfly 5 (rowsOf 5 iT)) :
    Writes (inverseDCT2_B32Line iT finish y) 32 (inverseValue 32 iT finish y) := by
  have hEEE := @Butterfly.mirrored_eq _ _ _ _ h 1 3 rfl y _ _ (fun n _ => @taps_even 5 iT y 1 4 n) fun n _ =>
    @taps_odd 5 iT y 1 3 n
  have hEE := @Butterfly.mirrored_eq _ _ _ _ h 2 2 rfl y _ _ hEEE fun n _ => @taps_odd 5 iT y 2 2 n
  have hE := @Butterfly.mirrored_eq _ _ _ _ h 3 1 rfl y _ _ hEE fun n _ => @taps_odd 5 iT y 3 1 n
  exact inverse_writes h hE fun n _ => @taps_odd 5 iT y 4 0 n

theorem inverseDCT2_B64Line_writes (h : Butterfly 6 (rowsOf 6 iT)) {zo : Bool}
    (hzero : zo = true → ∀ k, 32 ≤ k → k < 64 → y k = 0) :
    Writes (inverseDCT2_B64Line iT finish y zo) 64 (inverseValue 64 iT finish y) := by
  have hskip {n : ℕ} (a b : List ℕ) (hb : ∀ k ∈ b, 32 ≤ k ∧ k < 64) :
      (taps 64 iT n a y + if zo then 0 else taps 64 iT n b y) = taps 64 iT n (a ++ b) y :=
    taps_zo a b fun hzo k hk => hzero hzo k (hb k hk).1 (hb k hk).2
  have hEEEE := @Butterfly.mirrored_eq _ _ _ _ h 1 4 rfl y _ _
    (fun n _ => (hskip [0] [32] (by decide)).trans (@taps_even 6 iT y 1 5 n)) fun n _ =>
    (hskip [16] [48] (by decide)).trans (@taps_odd 6 iT y 1 4 n)
  have hEEE := @Butterfly.mirrored_eq _ _ _ _ h 2 3 rfl y _ _ hEEEE fun n _ =>
    (hskip [8, 24] [40, 56] (by decide)).trans (@taps_odd 6 iT y 2 3 n)
  have hEE := @Butterfly.mirrored_eq _ _ _ _ h 3 2 rfl y _ _ hEEE fun n _ =>
    (hskip (List.range' 4 4 8) (List.range' 36 4 8) (by decide)).trans (@taps_odd 6 iT y 3 2 n)
  have hE := @Butterfly.mirrored_eq _ _ _ _ h 4 1 rfl y _ _ hEE fun n _ =>
    (hskip (List.range' 2 8 4) (List.range' 34 8 4) (by decide)).trans (@taps_odd 6 iT y 4 1 n)
  exact inverse_writes h hE fun n _ =>
    (hskip (List.range' 1 16 2) (List.range' 33 16 2) (by decide)).trans (@taps_odd 6 iT y 5 0 n)

end

/-! ## The matrices -/

/-- The second half of the first `2 * m` columns of a row is `f` of the first one, backwards. -/
def Mirrored (f : ℤ → ℤ) (m : ℕ) (row : List ℤ) : Prop := (row.drop m).take m = (row.take m).reverse.map f

instance (f : ℤ → ℤ) (m : ℕ) (row : List ℤ) : Decidable (Mirrored f m row) :=
  inferInstanceAs (Decidable ((row.drop m).take m = (row.take m).reverse.map f))

/-- `Butterfly` for a table. -/
def Table (l : ℕ) (rows : List (List ℤ)) : Prop :=
  rows.length = 2 ^ l ∧ (∀ row ∈ rows, row.length = 2 ^ l) ∧
    ∀ i < l, ∀ k < 2 ^ i, Mirrored id (2 ^ i) (rows.getD (k * 2 ^ (l - i)) []) ∧
      Mirrored Int.neg (2 ^ i) (rows.getD (k * 2 ^ (l - i) + 2 ^ (l - i - 1)) [])

instance (l : ℕ) (rows : List (List ℤ)) : Decidable (Table l rows) :=
  inferInstanceAs (Decidable (_ ∧ _ ∧ _))

theorem Mirrored.apply {f : ℤ → ℤ} {m : ℕ} {row : List ℤ} (h : Mirrored f m row) (hlength : 2 * m ≤ row.length)
    {n : ℕ} (hn : n < m) : row.getD (2 * m - 1 - n) 0 = f (row.getD n 0) := by
  have hget := congrArg (fun r => r.getD (m - 1 - n) 0) h
  simp only [List.getD_eq_getElem?_getD] at hget ⊢
  rw [List.getElem?_take_of_lt (by omega), List.getElem?_drop, List.getElem?_map,
    List.getElem?_reverse (by rw [List.length_take]; omega), List.length_take, Nat.min_eq_left (by omega),
    List.getElem?_take_of_lt (by omega), show m + (m - 1 - n) = 2 * m - 1 - n by omega,
    show m - 1 - (m - 1 - n) = n by omega, List.getElem?_eq_getElem (show n < row.length by omega)] at hget
  rw [hget, List.getElem?_eq_getElem (show n < row.length by omega)]
  rfl

theorem rowMajor_apply {rows : List (List ℤ)} {size : ℕ} (hrows : ∀ row ∈ rows, row.length = size) {n : ℕ}
    (hn : n < size) (k : ℕ) : rowMajor rows (k * size + n) = (rows.getD k []).getD n 0 := by
  induction rows generalizing k with
  | nil => simp [rowMajor]
  | cons row rows ih =>
    have hrow := hrows row List.mem_cons_self
    have hnext := ih fun r hr => hrows r (List.mem_cons_of_mem row hr)
    unfold rowMajor at hnext ⊢
    cases k with
    | zero =>
      rw [List.flatten_cons, List.getD_append _ _ _ _ (by omega), Nat.zero_mul, Nat.zero_add]
      rfl
    | succ k =>
      rw [List.flatten_cons, List.getD_append_right _ _ _ _ (by rw [Nat.succ_mul]; omega), List.getD_cons_succ,
        ← hnext k, hrow, Nat.succ_mul]
      congr 1
      omega

theorem Mirrored.rowsOf_eq {f : ℤ → ℤ} {l i k : ℕ} {rows : List (List ℤ)} (hrows : ∀ row ∈ rows, row.length = 2 ^ l)
    (hlength : rows.length = 2 ^ l) (hi : i < l) (hk : k < 2 ^ l) (h : Mirrored f (2 ^ i) (rows.getD k []))
    {n : ℕ} (hn : n < 2 ^ i) :
    rowsOf l (rowMajor rows) k (2 * 2 ^ i - 1 - n) = f (rowsOf l (rowMajor rows) k n) := by
  have hrow : (rows.getD k []).length = 2 ^ l := by
    rw [List.getD_eq_getElem _ _ (hlength ▸ hk)]
    exact hrows _ (List.getElem_mem _)
  have hhalf : 2 * 2 ^ i ≤ 2 ^ l := by
    rw [← pow_succ']
    exact Nat.pow_le_pow_right (by decide) hi
  unfold rowsOf
  rw [rowMajor_apply hrows (by omega), rowMajor_apply hrows (by omega), h.apply (by omega) hn]

theorem Table.butterfly {l : ℕ} {rows : List (List ℤ)} (h : Table l rows) :
    Butterfly l (rowsOf l (rowMajor rows)) := by
  obtain ⟨hlength, hrows, hmirrored⟩ := h
  have hlt {i j k : ℕ} (hij : i + 1 + j = l) (hk : k < 2 ^ i) : k * 2 ^ (j + 1) + 2 ^ j < 2 ^ l := by
    have hpow : 2 ^ l = 2 ^ i * 2 ^ (j + 1) := by
      rw [← pow_add, ← hij]
      congr 1
      omega
    rw [hpow]
    exact lt_index (Nat.pow_lt_pow_right (by decide) (Nat.lt_succ_self j)) hk
  constructor
  · intro i j hij k hk n hn
    have hrow := (hmirrored i (by omega) k hk).1
    rw [show l - i = j + 1 by omega] at hrow
    rw [hrow.rowsOf_eq hrows hlength (by omega) (Nat.lt_of_le_of_lt (Nat.le_add_right _ _) (hlt hij hk)) hn]
    rfl
  · intro i j hij k hk n hn
    have hrow := (hmirrored i (by omega) k hk).2
    rw [show l - i = j + 1 by omega, Nat.add_sub_cancel] at hrow
    rw [hrow.rowsOf_eq hrows hlength (by omega) (hlt hij hk) hn]
    rfl

theorem dct2P2_table : Table 1 g_trCoreDCT2P2 := by decide
theorem dct2P4_table : Table 2 g_trCoreDCT2P4 := by decide
theorem dct2P8_table : Table 3 g_trCoreDCT2P8 := by decide +kernel
theorem dct2P16_table : Table 4 g_trCoreDCT2P16 := by decide +kernel
theorem dct2P32_table : Table 5 g_trCoreDCT2P32 := by decide +kernel
theorem dct2P64_table : Table 6 g_trCoreDCT2P64 := by
  refine ⟨by decide +kernel, by decide +kernel, fun i hi => ?_⟩
  have hcases : i = 0 ∨ i = 1 ∨ i = 2 ∨ i = 3 ∨ i = 4 ∨ i = 5 := by omega
  rcases hcases with rfl | rfl | rfl | rfl | rfl | rfl <;> decide +kernel

/-! ## DST-VII -/

/-- `cs` against the entries of `x` from `i` on. -/
def dotFrom (x : ℕ → ℤ) : (cs : List ℤ) → (i : ℕ) → ℤ
  | [], _ => 0
  | c :: cs, i => c * x i + dotFrom x cs (i + 1)

theorem dotFrom_eq (x : ℕ → ℤ) (cs : List ℤ) (i : ℕ) :
    dotFrom x cs i = ∑ n ∈ range cs.length, cs.getD n 0 * x (i + n) := by
  induction cs generalizing i with
  | nil => rfl
  | cons c cs ih =>
    rw [List.length_cons, Finset.sum_range_succ', Int.add_comm, dotFrom, ih]
    congr 1
    refine sum_congr rfl fun n _ => ?_
    rw [List.getD_cons_succ, Nat.add_assoc, Nat.add_comm 1]

section
variable {rows : List (List ℤ)} {size : ℕ} {x : TCoeffs}

theorem row_sum (hrows : ∀ row ∈ rows, row.length = size) (hlength : rows.length = size) {k : ℕ} (hk : k < size) :
    ∑ n ∈ range size, rowMajor rows (k * size + n) * x n = dotFrom x (rows.getD k []) 0 := by
  have hrow : (rows.getD k []).length = size := by
    rw [List.getD_eq_getElem _ _ (hlength ▸ hk)]
    exact hrows _ (List.getElem_mem _)
  rw [dotFrom_eq, hrow]
  refine sum_congr rfl fun n hn => ?_
  rw [rowMajor_apply hrows (mem_range.mp hn), Nat.zero_add]

theorem column_sum (hrows : ∀ row ∈ rows, row.length = size) (hlength : rows.length = size) {n : ℕ} (hn : n < size) :
    ∑ k ∈ range size, rowMajor rows (k * size + n) * x k = dotFrom x (rows.map fun row => row.getD n 0) 0 := by
  rw [dotFrom_eq, List.length_map, hlength]
  refine sum_congr rfl fun k hk => ?_
  have hget : k < rows.length := hlength ▸ mem_range.mp hk
  rw [rowMajor_apply hrows hn, Nat.zero_add, List.getD_eq_getElem rows [] hget,
    List.getD_eq_getElem (rows.map _) 0 (by rwa [List.length_map]), List.getElem_map]

end

theorem dst7P4_rows : ∀ row ∈ g_trCoreDST7P4, row.length = 4 := by decide
theorem dst7P16_rows : ∀ row ∈ g_trCoreDST7P16, row.length = 16 := by decide

section
variable {finish : ℤ → ℤ} {x : TCoeffs}

/-- A list of values is checked against the rows of a matrix. -/
theorem writes_rows {rows : List (List ℤ)} {size : ℕ} {values : List (ℕ × ℤ)} (hrows : ∀ row ∈ rows, row.length = size)
    (hlength : rows.length = size) (keys : (values.map Prod.fst).Perm (List.range size))
    (h : ∀ e ∈ values, e.2 = finish (dotFrom x (rows.getD e.1 []) 0)) :
    Writes values size (forwardValue size (rowMajor rows) finish x) := by
  refine ⟨keys, fun e he => ?_⟩
  have hlt := List.mem_range.mp (keys.mem_iff.mp (List.mem_map_of_mem he))
  rw [h e he, forwardValue, row_sum hrows hlength hlt]

theorem writes_columns {rows : List (List ℤ)} {size : ℕ} {values : List (ℕ × ℤ)} (hrows : ∀ row ∈ rows, row.length = size)
    (hlength : rows.length = size) (keys : (values.map Prod.fst).Perm (List.range size))
    (h : ∀ e ∈ values, e.2 = finish (dotFrom x (rows.map fun row => row.getD e.1 0) 0)) :
    Writes values size (inverseValue size (rowMajor rows) finish x) := by
  refine ⟨keys, fun e he => ?_⟩
  have hlt := List.mem_range.mp (keys.mem_iff.mp (List.mem_map_of_mem he))
  rw [h e he, inverseValue, column_sum hrows hlength hlt]

theorem dst7P4_first : rowMajor g_trCoreDST7P4 0 = 29 ∧ rowMajor g_trCoreDST7P4 1 = 55 ∧
    rowMajor g_trCoreDST7P4 2 = 74 := ⟨rfl, rfl, rfl⟩

theorem dst7P16_first : rowMajor g_trCoreDST7P16 0 = 8 ∧ rowMajor g_trCoreDST7P16 1 = 17 ∧
    rowMajor g_trCoreDST7P16 2 = 25 ∧ rowMajor g_trCoreDST7P16 3 = 33 ∧ rowMajor g_trCoreDST7P16 4 = 40 ∧
    rowMajor g_trCoreDST7P16 5 = 48 ∧ rowMajor g_trCoreDST7P16 6 = 55 ∧ rowMajor g_trCoreDST7P16 7 = 62 ∧
    rowMajor g_trCoreDST7P16 8 = 68 ∧ rowMajor g_trCoreDST7P16 9 = 73 ∧ rowMajor g_trCoreDST7P16 10 = 77 ∧
    rowMajor g_trCoreDST7P16 11 = 81 ∧ rowMajor g_trCoreDST7P16 14 = 88 :=
  ⟨rfl, rfl, rfl, rfl, rfl, rfl, rfl, rfl, rfl, rfl, rfl, rfl, rfl⟩

theorem forwardDST7_B4Line_writes : Writes (forwardDST7_B4Line (rowMajor g_trCoreDST7P4) finish x) 4
    (forwardValue 4 (rowMajor g_trCoreDST7P4) finish x) := by
  obtain ⟨h0, h1, h2⟩ := dst7P4_first
  refine writes_rows dst7P4_rows rfl (.refl _) ?_
  simp only [forwardDST7_B4Line, List.forall_mem_cons, h0, h1, h2]
  simp only [g_trCoreDST7P4, DEFINE_DST7_P4_MATRIX, List.getD_cons_succ, List.getD_cons_zero, dotFrom]
  refine ⟨?_, ?_, ?_, ?_, List.forall_mem_nil _⟩ <;>
    · congr 1
      ring

theorem inverseDST7_B4Line_writes : Writes (inverseDST7_B4Line (rowMajor g_trCoreDST7P4) finish x) 4
    (inverseValue 4 (rowMajor g_trCoreDST7P4) finish x) := by
  obtain ⟨h0, h1, h2⟩ := dst7P4_first
  refine writes_columns dst7P4_rows rfl (.refl _) ?_
  simp only [inverseDST7_B4Line, List.forall_mem_cons, h0, h1, h2]
  simp only [g_trCoreDST7P4, DEFINE_DST7_P4_MATRIX, List.map_cons, List.map_nil, List.getD_cons_succ,
    List.getD_cons_zero, dotFrom]
  refine ⟨?_, ?_, ?_, ?_, List.forall_mem_nil _⟩ <;>
    · congr 1
      ring

theorem forwardDST7_B16Line_writes : Writes (forwardDST7_B16Line (rowMajor g_trCoreDST7P16) finish x) 16
    (forwardValue 16 (rowMajor g_trCoreDST7P16) finish x) := by
  obtain ⟨h0, h1, h2, h3, h4, h5, h6, h7, h8, h9, h10, h11, h14⟩ := dst7P16_first
  refine writes_rows dst7P16_rows rfl ?_ ?_
  · change List.Perm [1, 4, 7, 10, 13, 5, 0, 2, 3, 6, 8, 9, 11, 12, 14, 15] _
    decide
  simp only [forwardDST7_B16Line, List.forall_mem_cons, h0, h1, h2, h3, h4, h5, h6, h7, h8, h9, h10, h11, h14]
  simp only [g_trCoreDST7P16, DEFINE_DST7_P16_MATRIX, List.getD_cons_succ, List.getD_cons_zero, dotFrom]
  refine ⟨?_, ?_, ?_, ?_, ?_, ?_, ?_, ?_, ?_, ?_, ?_, ?_, ?_, ?_, ?_, ?_, List.forall_mem_nil _⟩ <;>
    · congr 1
      ring

theorem inverseDST7_B16Line_writes : Writes (inverseDST7_B16Line (rowMajor g_trCoreDST7P16) finish x) 16
    (inverseValue 16 (rowMajor g_trCoreDST7P16) finish x) := by
  obtain ⟨h0, h1, h2, h3, h4, h5, h6, h7, h8, h9, h10, h11, h14⟩ := dst7P16_first
  refine writes_columns dst7P16_rows rfl ?_ ?_
  · change List.Perm [2, 5, 8, 11, 14, 10, 0, 1, 3, 4, 6, 7, 9, 12, 13, 15] _
    decide
  simp only [inverseDST7_B16Line, List.forall_mem_cons, h0, h1, h2, h3, h4, h5, h6, h7, h8, h9, h10, h11, h14]
  simp only [g_trCoreDST7P16, DEFINE_DST7_P16_MATRIX, List.map_cons, List.map_nil, List.getD_cons_succ,
    List.getD_cons_zero, dotFrom]
  refine ⟨?_, ?_, ?_, ?_, ?_, ?_, ?_, ?_, ?_, ?_, ?_, ?_, ?_, ?_, ?_, ?_, List.forall_mem_nil _⟩ <;>
    · congr 1
      ring

/-- The inverse of size 2 uses one entry for both columns. -/
theorem inverseDCT2_B2Line_writes : Writes (inverseDCT2_B2Line (rowMajor g_trCoreDCT2P2) finish x) 2
    (inverseValue 2 (rowMajor g_trCoreDCT2P2) finish x) := by
  have h0 : rowMajor g_trCoreDCT2P2 0 = 64 := rfl
  have h2 : rowMajor g_trCoreDCT2P2 2 = 64 := rfl
  refine writes_columns dct2P2_table.2.1 rfl (.refl _) ?_
  simp only [inverseDCT2_B2Line, List.forall_mem_cons, h0, h2]
  simp only [g_trCoreDCT2P2, DEFINE_DCT2_P2_MATRIX, List.map_cons, List.map_nil, List.getD_cons_succ,
    List.getD_cons_zero, dotFrom]
  refine ⟨?_, ?_, List.forall_mem_nil _⟩ <;>
    · congr 1
      ring

end

/-! ## Calls -/

/-- Skipped frequencies that `xT` and `xIT` pass to a transform. -/
def PassedSkip (uiTrSize iSkipLine2 : ℕ) : Prop :=
  ∃ width height lfnst, width = uiTrSize ∧ (skipSizes width height lfnst).1 = iSkipLine2 ∨
    height = uiTrSize ∧ (skipSizes width height lfnst).2 = iSkipLine2

/-- Arguments of a call. The skipped lines are frequencies that the other direction skips. -/
structure Call (uiTrSize : ℕ) where
  shift : ℕ
  line : ℕ
  iSkipLine : ℕ
  iSkipLine2 : ℕ
  shift_pos : 1 ≤ shift
  iSkipLine_le : iSkipLine ≤ line
  passed : PassedSkip uiTrSize iSkipLine2

/-- None are skipped, or all but the 16 lowest. -/
theorem PassedSkip.cases {uiTrSize iSkipLine2 : ℕ} (h : PassedSkip uiTrSize iSkipLine2) (hsize : uiTrSize ≤ 64) :
    iSkipLine2 ≤ uiTrSize ∧ (iSkipLine2 = 0 ∨ uiTrSize ≤ iSkipLine2 + 16) := by
  obtain ⟨width, height, lfnst, h⟩ := h
  unfold skipSizes JVET_C0024_ZERO_OUT_TH at h
  rcases h with ⟨rfl, rfl⟩ | ⟨rfl, rfl⟩ <;> dsimp only <;> split_ifs <;> dsimp only <;> omega

section
variable {uiTrSize : ℕ} {tc : ℕ → ℤ} (c : Call uiTrSize)

/-- Every frequency that is not skipped has the value of the matrix multiplication, and skipped lines are zero. -/
def ForwardAgrees (tc : ℕ → ℤ) (forward : (src dst : TCoeffs) → TCoeffs) : Prop :=
  ∀ src dst dst', ∀ i < c.line, ∀ k < uiTrSize, (k < uiTrSize - c.iSkipLine2 →
    forward src dst (k * c.line + i) =
      fastForwardMM uiTrSize tc src dst' c.shift c.line c.iSkipLine c.iSkipLine2 (k * c.line + i)) ∧
    (c.line - c.iSkipLine ≤ i → forward src dst (k * c.line + i) = 0)

/-- The block is that of the matrix multiplication where the skipped coefficients are zero. -/
def InverseAgrees (tc : ℕ → ℤ) (inverse : (src dst : TCoeffs) → (outputMinimum outputMaximum : ℤ) → TCoeffs) : Prop :=
  ∀ src dst dst' outputMinimum outputMaximum, (∀ i < c.line - c.iSkipLine, ∀ k, uiTrSize - c.iSkipLine2 ≤ k →
      k < uiTrSize → src (k * c.line + i) = 0) → ∀ i < c.line, ∀ n < uiTrSize,
    inverse src dst outputMinimum outputMaximum (i * uiTrSize + n) =
      fastInverseMM uiTrSize tc src dst' c.shift c.line c.iSkipLine c.iSkipLine2 outputMinimum outputMaximum
        (i * uiTrSize + n)

def forwardRound (v : ℤ) : ℤ := roundShift (1 <<< (c.shift - 1)) c.shift v

theorem roundAdd_eq : roundAdd c.shift = 1 <<< (c.shift - 1) := if_pos c.shift_pos

variable {c}

theorem fastForwardMM_apply (hsize : uiTrSize ≤ 64) (src dst : TCoeffs) {i k : ℕ} (hi : i < c.line) (hk : k < uiTrSize) :
    fastForwardMM uiTrSize tc src dst c.shift c.line c.iSkipLine c.iSkipLine2 (k * c.line + i) =
      if uiTrSize - c.iSkipLine2 ≤ k ∨ c.line - c.iSkipLine ≤ i then 0
      else forwardValue uiTrSize tc (forwardRound c) (fun n => src (i * uiTrSize + n)) k :=
  forwardCutoff_apply (fun x => forwardMMLine_writes uiTrSize _ tc (forwardRound c) x) (Nat.le_refl _) src dst
    c.iSkipLine_le (c.passed.cases hsize).1 hi hk

theorem forwardAll_agrees (hsize : uiTrSize ≤ 64) {values : TCoeffs → List (ℕ × ℤ)}
    (h : ∀ x, Writes (values x) uiTrSize (forwardValue uiTrSize tc (forwardRound c) x)) :
    ForwardAgrees c tc fun src dst => forwardAll uiTrSize values src dst c.line c.iSkipLine := by
  intro src dst dst' i hi k hk
  dsimp only
  rw [forwardAll_apply h src dst c.iSkipLine_le hi hk, fastForwardMM_apply hsize src dst' hi hk]
  refine ⟨fun hcut => ?_, fun hskip => if_pos hskip⟩
  by_cases hskip : c.line - c.iSkipLine ≤ i
  · rw [if_pos hskip, if_pos (.inr hskip)]
  · rw [if_neg hskip, if_neg (not_or_intro (Nat.not_le_of_lt hcut) hskip)]

theorem forwardCutoff_agrees (hsize : uiTrSize ≤ 64) {count : ℕ} (hcount : uiTrSize - c.iSkipLine2 ≤ count)
    {values : TCoeffs → List (ℕ × ℤ)}
    (h : ∀ x, Writes (values x) count (forwardValue uiTrSize tc (forwardRound c) x)) :
    ForwardAgrees c tc fun src dst => forwardCutoff uiTrSize values src dst c.line c.iSkipLine c.iSkipLine2 := by
  intro src dst dst' i hi k hk
  dsimp only
  rw [forwardCutoff_apply h hcount src dst c.iSkipLine_le (c.passed.cases hsize).1 hi hk,
    fastForwardMM_apply hsize src dst' hi hk]
  exact ⟨fun _ => rfl, fun hskip => if_pos (.inr hskip)⟩

theorem inverseLines_agrees (hsize : uiTrSize ≤ 64) {values : ℤ → ℤ → TCoeffs → List (ℕ × ℤ)}
    (h : ∀ outputMinimum outputMaximum x, (∀ k, uiTrSize - c.iSkipLine2 ≤ k → k < uiTrSize → x k = 0) →
      Writes (values outputMinimum outputMaximum x) uiTrSize (inverseValue uiTrSize tc
        (roundClip (1 <<< (c.shift - 1)) c.shift outputMinimum outputMaximum) x)) :
    InverseAgrees c tc fun src dst outputMinimum outputMaximum =>
      inverseLines uiTrSize (values outputMinimum outputMaximum) src dst c.line c.iSkipLine := by
  intro src dst dst' outputMinimum outputMaximum hzero i hi n hn
  obtain ⟨hle, -⟩ := c.passed.cases hsize
  have hfast := fun i hi => h outputMinimum outputMaximum (fun k => src (k * c.line + i)) (hzero i hi)
  have hmm := fun i hi => inverseMMLine_writes uiTrSize (uiTrSize - c.iSkipLine2) tc
    (roundClip (1 <<< (c.shift - 1)) c.shift outputMinimum outputMaximum) (fun k => src (k * c.line + i))
    (Nat.sub_le _ _) (hzero i hi)
  dsimp only
  rw [inverseLines_apply hfast dst c.iSkipLine_le hi hn, fastInverseMM, inverseLines_apply hmm dst' c.iSkipLine_le hi hn]

end

/-! ## Every transform -/

inductive FastTransform where
  | DCT2_B2
  | DCT2_B4
  | DCT2_B8
  | DCT2_B16
  | DCT2_B32
  | DCT2_B64
  | DST7_B4
  | DST7_B16

namespace FastTransform

def uiTrSize : FastTransform → ℕ
  | DCT2_B2 => 2
  | DCT2_B4 => 4
  | DCT2_B8 => 8
  | DCT2_B16 => 16
  | DCT2_B32 => 32
  | DCT2_B64 => 64
  | DST7_B4 => 4
  | DST7_B16 => 16

/-- The matrix that the function uses. -/
def core : FastTransform → List (List ℤ)
  | DCT2_B2 => g_trCoreDCT2P2
  | DCT2_B4 => g_trCoreDCT2P4
  | DCT2_B8 => g_trCoreDCT2P8
  | DCT2_B16 => g_trCoreDCT2P16
  | DCT2_B32 => g_trCoreDCT2P32
  | DCT2_B64 => g_trCoreDCT2P64
  | DST7_B4 => g_trCoreDST7P4
  | DST7_B16 => g_trCoreDST7P16

def forward (src dst : TCoeffs) (shift line iSkipLine iSkipLine2 : ℕ) : FastTransform → TCoeffs
  | DCT2_B2 => fastForwardDCT2_B2 src dst shift line iSkipLine
  | DCT2_B4 => fastForwardDCT2_B4 src dst shift line iSkipLine
  | DCT2_B8 => fastForwardDCT2_B8 src dst shift line iSkipLine
  | DCT2_B16 => fastForwardDCT2_B16 src dst shift line iSkipLine
  | DCT2_B32 => fastForwardDCT2_B32 src dst shift line iSkipLine
  | DCT2_B64 => fastForwardDCT2_B64 src dst shift line iSkipLine iSkipLine2
  | DST7_B4 => fastForwardDST7_B4 src dst shift line iSkipLine
  | DST7_B16 => fastForwardDST7_B16 src dst shift line iSkipLine iSkipLine2

def inverse (src dst : TCoeffs) (shift line iSkipLine iSkipLine2 : ℕ) (outputMinimum outputMaximum : ℤ) :
    FastTransform → TCoeffs
  | DCT2_B2 => fastInverseDCT2_B2 src dst shift line iSkipLine outputMinimum outputMaximum
  | DCT2_B4 => fastInverseDCT2_B4 src dst shift line iSkipLine outputMinimum outputMaximum
  | DCT2_B8 => fastInverseDCT2_B8 src dst shift line iSkipLine outputMinimum outputMaximum
  | DCT2_B16 => fastInverseDCT2_B16 src dst shift line iSkipLine outputMinimum outputMaximum
  | DCT2_B32 => fastInverseDCT2_B32 src dst shift line iSkipLine outputMinimum outputMaximum
  | DCT2_B64 => fastInverseDCT2_B64 src dst shift line iSkipLine iSkipLine2 outputMinimum outputMaximum
  | DST7_B4 => fastInverseDST7_B4 src dst shift line iSkipLine outputMinimum outputMaximum
  | DST7_B16 => fastInverseDST7_B16 src dst shift line iSkipLine outputMinimum outputMaximum

theorem uiTrSize_le (t : FastTransform) : t.uiTrSize ≤ 64 := by
  cases t <;> decide

theorem forward_agrees (t : FastTransform) (c : Call t.uiTrSize) : ForwardAgrees c (rowMajor t.core) fun src dst =>
    t.forward src dst c.shift c.line c.iSkipLine c.iSkipLine2 := by
  have hsize := t.uiTrSize_le
  have hadd := roundAdd_eq c
  cases t with
  | DCT2_B2 =>
    unfold forward fastForwardDCT2_B2
    rw [hadd]
    exact forwardAll_agrees hsize fun x => forwardDCT2_B2Line_writes dct2P2_table.butterfly
  | DCT2_B4 =>
    unfold forward fastForwardDCT2_B4
    rw [hadd]
    exact forwardAll_agrees hsize fun x => forwardDCT2_B4Line_writes dct2P4_table.butterfly
  | DCT2_B8 =>
    unfold forward fastForwardDCT2_B8
    rw [hadd]
    exact forwardAll_agrees hsize fun x => forwardDCT2_B8Line_writes dct2P8_table.butterfly
  | DCT2_B16 =>
    unfold forward fastForwardDCT2_B16
    rw [hadd]
    exact forwardAll_agrees hsize fun x => forwardDCT2_B16Line_writes dct2P16_table.butterfly
  | DCT2_B32 =>
    unfold forward fastForwardDCT2_B32
    rw [hadd]
    exact forwardAll_agrees hsize fun x => forwardDCT2_B32Line_writes dct2P32_table.butterfly
  | DCT2_B64 =>
    have hcount : 64 - c.iSkipLine2 ≤ if decide (c.iSkipLine2 ≠ 0) then 32 else 64 := by
      rcases (c.passed.cases hsize).2 with hzero | hmost
      · rw [hzero]
        exact Nat.le_refl 64
      · change 64 ≤ c.iSkipLine2 + 16 at hmost
        split <;> omega
    exact forwardCutoff_agrees hsize hcount fun x => forwardDCT2_B64Line_writes dct2P64_table.butterfly _
  | DST7_B4 =>
    unfold forward fastForwardDST7_B4
    rw [hadd]
    exact forwardAll_agrees hsize fun x => forwardDST7_B4Line_writes
  | DST7_B16 =>
    unfold forward fastForwardDST7_B16
    rw [hadd]
    exact forwardCutoff_agrees hsize (Nat.sub_le 16 _) fun x => forwardDST7_B16Line_writes

theorem inverse_agrees (t : FastTransform) (c : Call t.uiTrSize) : InverseAgrees c (rowMajor t.core)
    fun src dst outputMinimum outputMaximum =>
      t.inverse src dst c.shift c.line c.iSkipLine c.iSkipLine2 outputMinimum outputMaximum := by
  have hsize := t.uiTrSize_le
  have hadd := roundAdd_eq c
  cases t with
  | DCT2_B2 => exact inverseLines_agrees hsize fun _ _ x _ => inverseDCT2_B2Line_writes
  | DCT2_B4 => exact inverseLines_agrees hsize fun _ _ x _ => inverseDCT2_B4Line_writes dct2P4_table.butterfly
  | DCT2_B8 => exact inverseLines_agrees hsize fun _ _ x _ => inverseDCT2_B8Line_writes dct2P8_table.butterfly
  | DCT2_B16 => exact inverseLines_agrees hsize fun _ _ x _ => inverseDCT2_B16Line_writes dct2P16_table.butterfly
  | DCT2_B32 => exact inverseLines_agrees hsize fun _ _ x _ => inverseDCT2_B32Line_writes dct2P32_table.butterfly
  | DCT2_B64 =>
    refine inverseLines_agrees hsize fun _ _ x hzero => inverseDCT2_B64Line_writes dct2P64_table.butterfly ?_
    intro hzo k hk hk'
    have hskip := of_decide_eq_true hzo
    exact hzero k (by change 64 - c.iSkipLine2 ≤ k; omega) hk'
  | DST7_B4 =>
    unfold inverse fastInverseDST7_B4
    rw [hadd]
    exact inverseLines_agrees hsize fun _ _ x _ => inverseDST7_B4Line_writes
  | DST7_B16 =>
    unfold inverse fastInverseDST7_B16
    rw [hadd]
    exact inverseLines_agrees hsize fun _ _ x _ => inverseDST7_B16Line_writes

end FastTransform

/-- Every fast transform is the product with its matrix in all calls. -/
theorem fastTransform_agrees (t : FastTransform) (c : Call t.uiTrSize) :
    (ForwardAgrees c (rowMajor t.core) fun src dst => t.forward src dst c.shift c.line c.iSkipLine c.iSkipLine2) ∧
      InverseAgrees c (rowMajor t.core) fun src dst outputMinimum outputMaximum =>
        t.inverse src dst c.shift c.line c.iSkipLine c.iSkipLine2 outputMinimum outputMaximum :=
  ⟨t.forward_agrees c, t.inverse_agrees c⟩

end ECM.Transform.FastTransforms
