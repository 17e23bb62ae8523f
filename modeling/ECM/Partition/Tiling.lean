import Mathlib.Data.Int.ConditionallyCompleteOrder
import ECM.Lib.Tiling
import ECM.Partition.Balance
import ECM.Partition.CodingTree

/-! # Splits tile

The parts of a split tile the area that is split, in luma and in each chroma
component: the sides of the coding tree are powers of two that every split
divides. A walk over the tree of splits therefore ends in areas that tile the
area it started from. -/

namespace ECM.Partition
open CommonLib Lib.Tiling PartSplit Partitioner PartitionerImpl Set List

/-- The samples of a block. -/
def samples (a : CompArea) : Set (ℤ × ℤ) := Ico a.x (a.x + a.width) ×ˢ Ico a.y (a.y + a.height)

theorem mem_samples {a : CompArea} {p : ℤ × ℤ} : p ∈ samples a ↔ a.contains ⟨p.1, p.2⟩ = true := by
  rw [CompArea.contains_iff]
  simp only [samples, mem_prod, mem_Ico, and_assoc]

/-- The block of component `c`. -/
def block (a : UnitArea) (c : ℕ) : CompArea := a.blocks.getD c default

/-- In every component, the areas tile the block of the unit. -/
def UnitTiles (a : UnitArea) (parts : List UnitArea) : Prop :=
  ∀ c < a.blocks.length, Tiles (samples (block a c)) (parts.map fun q => samples (block q c))

theorem block_mapBlocks (f : CompArea → CompArea) {a : UnitArea} {c : ℕ} (hc : c < a.blocks.length) :
    block (a.mapBlocks f) c = f (block a c) := by
  unfold block
  rw [UnitArea.blocks_mapBlocks, getD_eq_getElem?_getD, getD_eq_getElem?_getD, List.getElem?_map,
    List.getElem?_eq_getElem hc]
  rfl

theorem block_mem {a : UnitArea} {c : ℕ} (hc : c < a.blocks.length) : block a c ∈ a.blocks := by
  have hget : block a c = a.blocks[c] := (getElem_eq_getD default).symm
  rw [hget]
  exact getElem_mem hc

/-- Parts made by a map on blocks tile when the maps do. -/
theorem unitTiles_range {a : UnitArea} {n : ℕ} {f : ℕ → CompArea → CompArea}
    (h : ∀ b ∈ a.blocks, Tiles (samples b) ((List.range n).map fun i => samples (f i b))) :
    UnitTiles a ((List.range n).map fun i => a.mapBlocks (f i)) := by
  intro c hc
  rw [map_map]
  refine cast (congrArg (Tiles _) ?_) (h _ (block_mem hc))
  exact map_congr_left fun i _ => congrArg samples (block_mapBlocks (f i) hc).symm

/-- Tilings of the parts make a tiling of the whole. -/
theorem UnitTiles.flatMap {a : UnitArea} {parts : List UnitArea} (h : UnitTiles a parts)
    (hlen : ∀ q ∈ parts, q.blocks.length = a.blocks.length) {g : ℕ → List UnitArea}
    (hg : ∀ j < parts.length, UnitTiles (parts.getD j default) (g j)) :
    UnitTiles a ((List.range parts.length).flatMap g) := by
  intro c hc
  rw [map_flatMap]
  refine Tiles.flatMap (f := fun j => samples (block (parts.getD j default) c)) ?_ ?_
  · refine cast (congrArg (Tiles _) ?_) (h c hc)
    refine ext_getElem (by simp) fun j hj _ => ?_
    have hj' : j < parts.length := by simpa using hj
    rw [getElem_map, getElem_map, getElem_range, getD_eq_getElem?_getD,
      List.getElem?_eq_getElem hj']
    rfl
  · intro j hj
    have hj := mem_range.mp hj
    refine hg j hj c ?_
    have hget : parts.getD j default = parts[j] := (getElem_eq_getD default).symm
    rw [hget, hlen _ (getElem_mem hj)]
    exact hc

/-! ## Cuts of a block -/

variable {b : CompArea} {n m : ℕ} {part : ℕ → CompArea}

theorem tiles_cols (f : ℕ → ℤ) (h0 : f 0 = b.x) (hn : f n = b.x + b.width)
    (hp : ∀ i < n, (part i).x = f i ∧ (part i).x + (part i).width = f (i + 1) ∧ (part i).y = b.y ∧
      (part i).height = b.height) :
    Tiles (samples b) ((List.range n).map fun i => samples (part i)) := by
  have hmono : ∀ j < n, f j ≤ f (j + 1) := by
    intro j hj
    obtain ⟨h1, h2, -⟩ := hp j hj
    omega
  have h := (tiles_Ico hmono).prod_right (Ico b.y (b.y + b.height))
  rw [h0, hn, map_map] at h
  refine cast (congrArg (Tiles _) (map_congr_left fun i hi => ?_)) h
  obtain ⟨h1, h2, h3, h4⟩ := hp i (mem_range.mp hi)
  rw [Function.comp, ← h2, ← h1, ← h3, ← h4]
  rfl

theorem tiles_rows (f : ℕ → ℤ) (h0 : f 0 = b.y) (hn : f n = b.y + b.height)
    (hp : ∀ i < n, (part i).y = f i ∧ (part i).y + (part i).height = f (i + 1) ∧ (part i).x = b.x ∧
      (part i).width = b.width) :
    Tiles (samples b) ((List.range n).map fun i => samples (part i)) := by
  have hmono : ∀ j < n, f j ≤ f (j + 1) := by
    intro j hj
    obtain ⟨h1, h2, -⟩ := hp j hj
    omega
  have h := (tiles_Ico hmono).prod_left (Ico b.x (b.x + b.width))
  rw [h0, hn, map_map] at h
  refine cast (congrArg (Tiles _) (map_congr_left fun i hi => ?_)) h
  obtain ⟨h1, h2, h3, h4⟩ := hp i (mem_range.mp hi)
  rw [Function.comp, ← h2, ← h1, ← h3, ← h4]
  rfl

/-- `n` columns and `m` rows of equal cells, in raster order. -/
theorem tiles_cells {w h : ℕ} (hw : n * w = b.width) (hh : m * h = b.height)
    (hp : ∀ i < n * m, part i = ⟨b.x + (w * (i % n) : ℕ), b.y + (h * (i / n) : ℕ), w, h⟩) :
    Tiles (samples b) ((List.range (n * m)).map fun i => samples (part i)) := by
  have hx : b.x + (w * n : ℕ) = b.x + b.width := by rw [← hw, Nat.mul_comm]
  have hy : b.y + (h * m : ℕ) = b.y + b.height := by rw [← hh, Nat.mul_comm]
  have htile := tiles_grid (f := fun j => b.x + (w * j : ℕ)) (g := fun j => b.y + (h * j : ℕ)) (n := n) (m := m)
    (fun j _ => Int.add_le_add_left (Int.ofNat_le.mpr (Nat.mul_le_mul_left w (Nat.le_succ j))) b.x)
    (fun j _ => Int.add_le_add_left (Int.ofNat_le.mpr (Nat.mul_le_mul_left h (Nat.le_succ j))) b.y)
  rw [hx, hy] at htile
  simp only [Nat.mul_zero, Nat.cast_zero, add_zero] at htile
  refine cast (congrArg (Tiles _) (map_congr_left fun i hi => ?_)) htile
  rw [hp i (mem_range.mp hi)]
  unfold samples
  dsimp only
  rw [Nat.mul_succ, Nat.mul_succ, Nat.cast_add, Nat.cast_add, add_assoc, add_assoc]

/-! ## The blocks of a split -/

/-- The sides of a block that a coding split divides. -/
def CuDivides (split : PartSplit) (b : CompArea) : Prop :=
  match split with
  | .cuHorzSplit => 2 ∣ b.height
  | .cuVertSplit => 2 ∣ b.width
  | .cuTriHSplit => 4 ∣ b.height
  | .cuTriVSplit => 4 ∣ b.width
  | _ => 2 ∣ b.width ∧ 2 ∣ b.height

theorem half_eq (side : ℕ) : side >>> 1 = side / 2 := Nat.shiftRight_eq_div_pow side 1

/-- The cuts of a ternary split. -/
def triCut (side i : ℕ) : ℕ :=
  if i = 0 then 0 else if i = 1 then side / 4 else if i = 2 then 3 * (side / 4) else side

theorem triCut_spec {side i : ℕ} (h : 4 ∣ side) (hi : i < 3) :
    triOffset i side = triCut side i ∧ triOffset i side + triSide i side = triCut side (i + 1) := by
  obtain ⟨k, rfl⟩ := h
  interval_cases i <;> simp [triOffset, triSide, triCut, Nat.shiftRight_eq_div_pow] <;> omega

theorem cuBlock_tiles {split : PartSplit} (hs : split.isCu = true) (hd : CuDivides split b) :
    Tiles (samples b) ((List.range (cuParts split)).map fun i => samples (cuBlock split i b)) := by
  cases split
  case cuQuadSplit =>
    obtain ⟨⟨w, hw⟩, ⟨h, hh⟩⟩ := hd
    refine tiles_cells (n := 2) (m := 2) hw.symm hh.symm fun i hi => ?_
    have hb : b.width >>> 1 = w ∧ b.height >>> 1 = h := by
      rw [half_eq, half_eq]
      omega
    show quadBlock i b = _
    unfold quadBlock
    rw [hb.1, hb.2]
    interval_cases i <;> simp
  case cuHorzSplit =>
    obtain ⟨h, hh⟩ := hd
    have hb : b.height >>> 1 = h := by
      rw [half_eq]
      omega
    refine tiles_rows (fun j => b.y + (h * j : ℕ)) (by simp) ?_ fun i hi => ?_
    · show b.y + (h * 2 : ℕ) = b.y + b.height
      rw [hh, Nat.mul_comm]
    · have hi : i < 2 := hi
      simp only [cuBlock, horzBlock, hb]
      interval_cases i
      · simp
      · simp
        omega
  case cuVertSplit =>
    obtain ⟨w, hw⟩ := hd
    have hb : b.width >>> 1 = w := by
      rw [half_eq]
      omega
    refine tiles_cols (fun j => b.x + (w * j : ℕ)) (by simp) ?_ fun i hi => ?_
    · show b.x + (w * 2 : ℕ) = b.x + b.width
      rw [hw, Nat.mul_comm]
    · have hi : i < 2 := hi
      simp only [cuBlock, vertBlock, hb]
      interval_cases i
      · simp
      · simp
        omega
  case cuTriHSplit =>
    refine tiles_rows (fun j => b.y + triCut b.height j) (by simp [triCut]) rfl fun i hi => ?_
    obtain ⟨h1, h2⟩ := triCut_spec hd hi
    refine ⟨congrArg (b.y + ·) (congrArg Nat.cast h1), ?_, rfl, rfl⟩
    rw [← h2, Nat.cast_add, ← add_assoc]
    rfl
  case cuTriVSplit =>
    refine tiles_cols (fun j => b.x + triCut b.width j) (by simp [triCut]) rfl fun i hi => ?_
    obtain ⟨h1, h2⟩ := triCut_spec hd hi
    refine ⟨congrArg (b.x + ·) (congrArg Nat.cast h1), ?_, rfl, rfl⟩
    rw [← h2, Nat.cast_add, ← add_assoc]
    rfl
  all_goals exact absurd hs Bool.false_ne_true

theorem zScan (i j : ℕ) (hi : i < 8) (hj : j < 8) :
    g_zScanToX.getD (g_rsScanToZ.getD ((j <<< 3) + i) 0) 0 = i ∧
      g_zScanToY.getD (g_rsScanToZ.getD ((j <<< 3) + i) 0) 0 = j := by
  have h : ∀ i < 8, ∀ j < 8, g_zScanToX.getD (g_rsScanToZ.getD ((j <<< 3) + i) 0) 0 = i ∧
      g_zScanToY.getD (g_rsScanToZ.getD ((j <<< 3) + i) 0) 0 = j := by decide
  exact h i hi j hj

/-- The tiles of the maximum transform size, where they divide the block. -/
theorem maxTuBlock_tiles (hv : b.valid = true) (hn : n ∣ b.width) (hm : m ∣ b.height) (hn8 : n ≤ 8)
    (hm8 : m ≤ 8) : Tiles (samples b) ((List.range (n * m)).map fun i =>
      let z := g_rsScanToZ.getD (((i / n) <<< 3) + i % n) 0
      samples (maxTuBlock n m (g_zScanToX.getD z 0) (g_zScanToY.getD z 0) b)) := by
  refine tiles_cells (Nat.mul_div_cancel' hn) (Nat.mul_div_cancel' hm) fun i hi => ?_
  have hpos : 0 < n := Nat.pos_of_ne_zero fun h => by rw [h, Nat.zero_mul] at hi; omega
  have hi1 : i % n < 8 := (Nat.mod_lt i hpos).trans_le hn8
  have hi2 : i / n < 8 := (Nat.div_lt_of_lt_mul hi).trans_le hm8
  obtain ⟨hx, hy⟩ := zScan _ _ hi1 hi2
  rw [hx, hy]
  unfold maxTuBlock
  rw [hv, if_pos rfl]

/-- The divisions a transform split of a coding unit makes. -/
def SbtDivides (split : PartSplit) (b : CompArea) : Prop :=
  (if split.isSbtQuad then 4 else 2) ∣ if split.isSbtVer then b.width else b.height

/-- Where the second tile begins, on a side of the given length. -/
def sbtCut (split : PartSplit) (side i : ℕ) : ℕ :=
  if i = 0 then 0 else if i = 1 then (side * sbtOffsetFactor split 1) >>> 2 else side

theorem sbtCut_spec {split : PartSplit} {side i : ℕ} (hs : split.isSbt = true)
    (h : (if split.isSbtQuad then 4 else 2) ∣ side) (hi : i < 2) :
    (side * sbtOffsetFactor split i) >>> 2 = sbtCut split side i ∧
      sbtCut split side i + (side * sbtFactor split i) >>> 2 = sbtCut split side (i + 1) := by
  obtain ⟨k, rfl⟩ := h
  cases split <;> first
    | exact absurd hs Bool.false_ne_true
    | (interval_cases i <;>
       simp [sbtOffsetFactor, sbtCut, sbtFactor, isSbtQuad, Nat.shiftRight_eq_div_pow] <;> omega)

theorem sbtBlock_tiles {split : PartSplit} (hs : split.isSbt = true) (hv : b.valid = true)
    (hd : SbtDivides split b) :
    Tiles (samples b) ((List.range 2).map fun i => samples (sbtBlock split i b)) := by
  have hwhole (side : ℕ) : (side * 4) >>> 2 = side := by
    rw [Nat.shiftRight_eq_div_pow]
    omega
  unfold SbtDivides at hd
  cases hver : split.isSbtVer with
  | true =>
    rw [hver, if_pos rfl] at hd
    refine tiles_cols (fun j => b.x + sbtCut split b.width j) (by simp [sbtCut]) rfl fun i hi => ?_
    obtain ⟨h1, h2⟩ := sbtCut_spec hs hd hi
    simp only [sbtBlock, hver, hv, if_true, hwhole, h1, Nat.mul_zero, Nat.zero_shiftRight, Nat.cast_zero,
      add_zero, and_self, and_true, true_and]
    rw [← h2, Nat.cast_add, add_assoc]
  | false =>
    rw [hver, if_neg Bool.false_ne_true] at hd
    refine tiles_rows (fun j => b.y + sbtCut split b.height j) (by simp [sbtCut]) rfl fun i hi => ?_
    obtain ⟨h1, h2⟩ := sbtCut_spec hs hd hi
    simp only [sbtBlock, hver, hv, if_true, Bool.false_eq_true, if_false, hwhole, h1, Nat.mul_zero,
      Nat.zero_shiftRight, Nat.cast_zero, add_zero, and_self, and_true, true_and]
    rw [← h2, Nat.cast_add, add_assoc]

/-! ## The sides of the units -/

/-- A luma side of the coding tree, and the side of a block of the same unit. -/
def CuSide (y b : ℕ) : Prop := y ≤ 256 ∧ ∃ k, y = 4 * 2 ^ k ∧ (b = y ∨ 2 * b = y)

/-- The same for a transform unit: a transform split can leave three quarters. -/
def TuSide (y b : ℕ) : Prop := y ≤ 256 ∧ ∃ m k, (m = 1 ∨ m = 3) ∧ y = m * 2 ^ k ∧ (b = y ∨ 2 * b = y)

theorem CuSide.tuSide {y b : ℕ} (h : CuSide y b) : TuSide y b := by
  obtain ⟨hy, k, hk, hb⟩ := h
  exact ⟨hy, 1, k + 2, Or.inl rfl, by rw [hk, pow_add]; omega, hb⟩

theorem CuSide.two_dvd {y b : ℕ} (h : CuSide y b) : 2 ∣ b := by
  obtain ⟨-, k, hk, hb⟩ := h
  omega

theorem CuSide.half {y b : ℕ} (h : CuSide y b) (h4 : 4 ≤ y / 2) : CuSide (y / 2) (b / 2) := by
  obtain ⟨hy, k, hk, hb⟩ := h
  cases k with
  | zero => omega
  | succ k =>
    rw [pow_succ] at hk
    exact ⟨by omega, k, by omega, by omega⟩

theorem CuSide.quarter {y b : ℕ} (h : CuSide y b) (h4 : 4 ≤ y / 4) :
    4 ∣ b ∧ CuSide (y / 4) (b / 4) := by
  obtain ⟨hy, k, hk, hb⟩ := h
  rcases k with - | - | k
  · omega
  · omega
  · rw [pow_add] at hk
    exact ⟨by omega, by omega, k, by omega, by omega⟩

theorem TuSide.pos {y b : ℕ} (h : TuSide y b) : b ≠ 0 := by
  obtain ⟨-, m, k, hm, hk, hb⟩ := h
  have hpos : 0 < 2 ^ k := Nat.two_pow_pos k
  rcases hm with rfl | rfl <;> omega

/-- The tiles of the maximum transform size divide a side. -/
theorem TuSide.tiles {y b t : ℕ} (h : TuSide y b) (ht : 5 ≤ t) :
    max 1 (y / 2 ^ t) ∣ b ∧ max 1 (y / 2 ^ t) ≤ 8 ∧
      TuSide (y / max 1 (y / 2 ^ t)) (b / max 1 (y / 2 ^ t)) := by
  by_cases hone : y / 2 ^ t ≤ 1
  · rw [max_eq_left hone, Nat.div_one, Nat.div_one]
    exact ⟨one_dvd b, by decide, h⟩
  obtain ⟨hy, m, k, hm, hk, hb⟩ := h
  have hpos : 0 < 2 ^ k := Nat.two_pow_pos k
  have h32 : 2 ^ 5 ≤ 2 ^ t := Nat.pow_le_pow_right (by decide) ht
  have hlarge : 2 * 2 ^ t ≤ y := (Nat.le_div_iff_mul_le (by omega)).mp (by omega)
  have hkt : t ≤ k := by
    by_contra hlt
    have hpow : 2 ^ (k + 1) ≤ 2 ^ t := Nat.pow_le_pow_right (by decide) (by omega)
    rw [pow_succ] at hpow
    rcases hm with rfl | rfl <;> omega
  obtain ⟨d, rfl⟩ := Nat.exists_eq_add_of_le hkt
  -- the tiles are as many as the side has units of `2 ^ t`
  have hyN : y = (m * 2 ^ d) * 2 ^ t := by
    rw [hk, pow_add, Nat.mul_assoc, Nat.mul_comm (2 ^ t)]
  have hN : y / 2 ^ t = m * 2 ^ d := by
    rw [hyN, Nat.mul_div_cancel _ (by omega)]
  rw [max_eq_right (by omega), hN]
  rw [hN] at hone
  generalize m * 2 ^ d = N at hyN hone
  have hN8 : N ≤ 8 := by
    by_contra hlt
    have hmul : 9 * 2 ^ 5 ≤ N * 2 ^ t := Nat.mul_le_mul (by omega) h32
    omega
  obtain ⟨t', rfl⟩ : ∃ t', t = t' + 1 := ⟨t - 1, by omega⟩
  have hydiv : y / N = 2 ^ (t' + 1) := by rw [hyN, Nat.mul_div_cancel_left _ (by omega)]
  rcases hb with hb | hb
  · refine ⟨⟨2 ^ (t' + 1), hb.trans hyN⟩, hN8, ?_⟩
    rw [hb, hydiv]
    refine ⟨?_, 1, t' + 1, Or.inl rfl, (Nat.one_mul _).symm, Or.inl rfl⟩
    exact hydiv ▸ (Nat.div_le_self y N).trans hy
  · have hbN : b = N * 2 ^ t' := by
      rw [pow_succ, ← Nat.mul_assoc] at hyN
      omega
    have hbdiv : b / N = 2 ^ t' := by rw [hbN, Nat.mul_div_cancel_left _ (by omega)]
    refine ⟨⟨2 ^ t', hbN⟩, hN8, ?_⟩
    rw [hbdiv, hydiv]
    refine ⟨?_, 1, t' + 1, Or.inl rfl, (Nat.one_mul _).symm, Or.inr (by rw [pow_succ, Nat.mul_comm])⟩
    exact hydiv ▸ (Nat.div_le_self y N).trans hy

/-- All blocks of a unit have sides that go with the luma sides. -/
def UnitOk (side : ℕ → ℕ → Prop) (a : UnitArea) : Prop :=
  ∀ b ∈ a.blocks, side a.Y.width b.width ∧ side a.Y.height b.height

/-- The parts of a level. -/
def SidesFit (split : PartSplit) (parts : List UnitArea) : Prop :=
  ∀ a ∈ parts, UnitOk (if split.isTu then TuSide else CuSide) a

theorem UnitOk.mapBlocks {side : ℕ → ℕ → Prop} {a : UnitArea} {f : CompArea → CompArea}
    (h : ∀ b ∈ a.blocks, side (f a.Y).width (f b).width ∧ side (f a.Y).height (f b).height) :
    UnitOk side (a.mapBlocks f) := by
  intro b hb
  rw [UnitArea.blocks_mapBlocks] at hb
  obtain ⟨b', hb', rfl⟩ := mem_map.mp hb
  exact h b' hb'

theorem UnitOk.tuSide {a : UnitArea} (h : UnitOk CuSide a) : UnitOk TuSide a :=
  fun b hb => ⟨(h b hb).1.tuSide, (h b hb).2.tuSide⟩

theorem valid_of_sides {y h : ℕ} {b : CompArea} (hw : TuSide y b.width) (hh : TuSide h b.height) :
    b.valid = true := by
  unfold CompArea.valid
  rw [bne_iff_ne.mpr hw.pos, bne_iff_ne.mpr hh.pos]
  rfl

/-- A coding split divides every block, and leaves sides of the same kind. -/
theorem cuSplit_sides {split : PartSplit} (hs : split.isCu = true) {a : UnitArea} (ha : UnitOk CuSide a)
    (hq : split = .cuQuadSplit → a.Y.width = a.Y.height)
    (hside : ∀ i < cuParts split, 4 ≤ cuSide split (cuBlock split i a.Y)) :
    ∀ b ∈ a.blocks, CuDivides split b ∧ ∀ i < cuParts split,
      CuSide (cuBlock split i a.Y).width (cuBlock split i b).width ∧
        CuSide (cuBlock split i a.Y).height (cuBlock split i b).height := by
  intro b hb
  obtain ⟨hw, hh⟩ := ha b hb
  cases split
  case cuQuadSplit =>
    have h4 : 4 ≤ a.Y.height / 2 := half_eq a.Y.height ▸ hside 0 (by decide)
    have h4' : 4 ≤ a.Y.width / 2 := by rw [hq rfl]; exact h4
    refine ⟨⟨hw.two_dvd, hh.two_dvd⟩, fun i _ => ?_⟩
    simp only [cuBlock, quadBlock, half_eq]
    exact ⟨hw.half h4', hh.half h4⟩
  case cuHorzSplit =>
    have h4 : 4 ≤ a.Y.height / 2 := half_eq a.Y.height ▸ hside 0 (by decide)
    refine ⟨hh.two_dvd, fun i _ => ?_⟩
    simp only [cuBlock, horzBlock, half_eq]
    exact ⟨hw, hh.half h4⟩
  case cuVertSplit =>
    have h4 : 4 ≤ a.Y.width / 2 := half_eq a.Y.width ▸ hside 0 (by decide)
    refine ⟨hw.two_dvd, fun i _ => ?_⟩
    simp only [cuBlock, vertBlock, half_eq]
    exact ⟨hw.half h4, hh⟩
  case cuTriHSplit =>
    have h4 : 4 ≤ a.Y.height >>> 1 >>> 1 := hside 0 (by decide)
    rw [half_eq, half_eq, Nat.div_div_eq_div_mul] at h4
    obtain ⟨hd, hquart⟩ := hh.quarter h4
    refine ⟨hd, fun i hi => ⟨hw, ?_⟩⟩
    have hi : i < 3 := hi
    simp only [cuBlock, triHBlock, triSide, half_eq]
    split
    · rw [Nat.div_div_eq_div_mul, Nat.div_div_eq_div_mul]
      exact hquart
    · exact hh.half (by omega)
  case cuTriVSplit =>
    have h4 : 4 ≤ a.Y.width >>> 1 >>> 1 := hside 0 (by decide)
    rw [half_eq, half_eq, Nat.div_div_eq_div_mul] at h4
    obtain ⟨hd, hquart⟩ := hw.quarter h4
    refine ⟨hd, fun i hi => ⟨?_, hh⟩⟩
    have hi : i < 3 := hi
    simp only [cuBlock, triVBlock, triSide, half_eq]
    split
    · rw [Nat.div_div_eq_div_mul, Nat.div_div_eq_div_mul]
      exact hquart
    · exact hw.half (by omega)
  all_goals exact absurd hs Bool.false_ne_true

/-- The condition under which the quarters of a sub-block transform tile: the
side that is cut is a multiple of four samples in every component. -/
def QuarterOk (split : PartSplit) (a : UnitArea) : Prop :=
  split.isSbtQuad = true → ∀ b ∈ a.blocks, 4 ∣ if split.isSbtVer then b.width else b.height

/-- What a factor of a sub-block transform leaves of a side. -/
theorem sbtFactor_cases {split : PartSplit} (hs : split.isSbt = true) {i : ℕ} (hi : i < 2) :
    split.isSbtQuad = false ∧ sbtFactor split i = 2 ∨
      split.isSbtQuad = true ∧ (sbtFactor split i = 1 ∨ sbtFactor split i = 3) := by
  interval_cases i <;> cases split <;> first
    | exact absurd hs Bool.false_ne_true
    | exact Or.inl ⟨rfl, rfl⟩
    | exact Or.inr ⟨rfl, Or.inl rfl⟩
    | exact Or.inr ⟨rfl, Or.inr rfl⟩

theorem sbtSide {split : PartSplit} (hs : split.isSbt = true) {y b : ℕ} (h : CuSide y b)
    (hb4 : split.isSbtQuad = true → 4 ∣ b) {i : ℕ} (hi : i < 2) :
    TuSide ((y * sbtFactor split i) >>> 2) ((b * sbtFactor split i) >>> 2) := by
  obtain ⟨hy, k, hk, hb⟩ := h
  rw [Nat.shiftRight_eq_div_pow, Nat.shiftRight_eq_div_pow]
  rcases sbtFactor_cases hs hi with ⟨-, hf⟩ | ⟨hq, hf | hf⟩
  · rw [hf]
    refine ⟨by omega, 1, k + 1, Or.inl rfl, ?_, by omega⟩
    rw [pow_succ]
    omega
  · have h4 := hb4 hq
    rw [hf]
    exact ⟨by omega, 1, k, Or.inl rfl, by omega, by omega⟩
  · have h4 := hb4 hq
    rw [hf]
    exact ⟨by omega, 3, k, Or.inr rfl, by omega, by omega⟩

/-! ## Splits of the partitioner -/

variable {cs : CodingStructure} {p q : Partitioner} {split : PartSplit} {parts : List UnitArea}

/-- The transform depth is positive below a transform split. -/
theorem one_le_trDepth (hp : PartitionerOk cs p) (ht : p.back.split.isTu = true) : 1 ≤ p.currTrDepth := by
  have hc := congrArg Counters.trDepth hp.counters
  cases hb : p.below with
  | nil =>
    have hst := hp.stack
    rw [hb] at hst
    rw [hst.2] at ht
    cases ht
  | cons b below =>
    have hn := (countersOf_nonneg below b).trDepth
    rw [hb, countersOf, Counters.push_tu ht] at hc
    have hc' : p.currTrDepth = (countersOf b below).trDepth + 1 := hc
    omega

/-- The configuration of the transform sizes in the parameter sets. -/
def TbSizeOk (cs : CodingStructure) : Prop := ∃ u, cs.maxTbSize = 2 ^ (5 + u)

theorem getMaxTuTiling_eq {a : UnitArea} (h : getMaxTuTiling a cs = .ok parts) :
    parts = (List.range (max 1 (a.Y.width / cs.maxTbSize) * max 1 (a.Y.height / cs.maxTbSize))).map fun i =>
      a.mapBlocks fun b =>
        let numTilesH := max 1 (a.Y.width / cs.maxTbSize)
        let z := g_rsScanToZ.getD (((i / numTilesH) <<< 3) + i % numTilesH) 0
        maxTuBlock numTilesH (max 1 (a.Y.height / cs.maxTbSize)) (g_zScanToX.getD z 0) (g_zScanToY.getD z 0) b := by
  obtain ⟨_, -, h⟩ := bind_eq_ok h
  exact (Except.ok.inj h).symm

theorem currArea_mem (hpart : p.back.idx < p.back.parts.length) : p.currArea ∈ p.back.parts := by
  have hget : p.currArea = p.back.parts[p.back.idx] := (getElem_eq_getD default).symm
  rw [hget]
  exact getElem_mem hpart

/-- Parts made block by block have the blocks of their unit. -/
theorem length_blocks {a : UnitArea} {n : ℕ} {f : ℕ → CompArea → CompArea}
    (h : parts = (List.range n).map fun i => a.mapBlocks (f i)) :
    ∀ q ∈ parts, q.blocks.length = a.blocks.length := by
  intro q hq
  rw [h] at hq
  obtain ⟨i, -, rfl⟩ := mem_map.mp hq
  rw [UnitArea.blocks_mapBlocks, length_map]

/-- An admitted coding split tiles the current area, and leaves sides of the
coding tree. -/
theorem cuParts_tile (hp : PartitionerOk cs p) (hpart : p.back.idx < p.back.parts.length)
    (hfit : SidesFit p.back.split p.back.parts) (hs : split.isCu = true) (hcu : p.back.split.isTu = false)
    (hadm : p.admits cs split = true) (hparts : p.splitParts cs split = .ok parts) :
    UnitTiles p.currArea parts ∧ (∀ a ∈ parts, a.blocks.length = p.currArea.blocks.length) ∧
      SidesFit split parts := by
  have hcur := hfit _ (currArea_mem hpart)
  rw [hcu, if_neg Bool.false_ne_true] at hcur
  obtain ⟨rfl, hside⟩ := (splitParts_cu hs).mp hparts
  have hsq (hq : split = .cuQuadSplit) : p.currArea.Y.width = p.currArea.Y.height := by
    rw [hq] at hadm
    exact (currPart hp hpart hcu).square (qt_of_admits hp hpart hcu hadm)
  have hsides := cuSplit_sides hs hcur hsq hside
  refine ⟨unitTiles_range fun b hb => cuBlock_tiles hs (hsides b hb).1, length_blocks rfl, ?_⟩
  intro a ha
  obtain ⟨i, hi, rfl⟩ := mem_map.mp ha
  have htu : split.isTu = false := by
    cases split <;> first | rfl | exact absurd hs Bool.false_ne_true
  rw [htu, if_neg Bool.false_ne_true]
  exact UnitOk.mapBlocks fun b hb => (hsides b hb).2 i (mem_range.mp hi)

/-- Tiles of the maximum transform size. -/
theorem maxTuTiling_tile (hcs : TbSizeOk cs) {a : UnitArea} (ha : UnitOk TuSide a)
    (hparts : getMaxTuTiling a cs = .ok parts) :
    UnitTiles a parts ∧ (∀ q ∈ parts, q.blocks.length = a.blocks.length) ∧ ∀ q ∈ parts, UnitOk TuSide q := by
  obtain ⟨u, hu⟩ := hcs
  have hpe := getMaxTuTiling_eq hparts
  rw [hu] at hpe
  subst hpe
  have h5 : 5 ≤ 5 + u := Nat.le_add_right 5 u
  refine ⟨unitTiles_range fun b hb => ?_, length_blocks rfl, fun q hq => ?_⟩
  · obtain ⟨hw, hh⟩ := ha b hb
    obtain ⟨hdw, h8w, -⟩ := hw.tiles h5
    obtain ⟨hdh, h8h, -⟩ := hh.tiles h5
    exact maxTuBlock_tiles (valid_of_sides hw hh) hdw hdh h8w h8h
  · obtain ⟨i, -, rfl⟩ := mem_map.mp hq
    refine UnitOk.mapBlocks fun b hb => ?_
    obtain ⟨hw, hh⟩ := ha b hb
    obtain ⟨hyw, hyh⟩ := ha a.Y mem_cons_self
    simp only [maxTuBlock, valid_of_sides hw hh, valid_of_sides hyw hyh, if_true]
    exact ⟨(hw.tiles h5).2.2, (hh.tiles h5).2.2⟩

/-- The two tiles of a sub-block transform. -/
theorem sbtTuTiling_tile {split : PartSplit} (hsbt : split.isSbt = true) {a : UnitArea} (ha : UnitOk CuSide a)
    (hquart : QuarterOk split a) :
    UnitTiles a (getSbtTuTiling a split) ∧ (∀ q ∈ getSbtTuTiling a split, q.blocks.length = a.blocks.length) ∧
      ∀ q ∈ getSbtTuTiling a split, UnitOk TuSide q := by
  have hdiv (b : CompArea) (hb : b ∈ a.blocks) : SbtDivides split b := by
    obtain ⟨hw, hh⟩ := ha b hb
    unfold SbtDivides
    split
    · exact hquart ‹_› b hb
    · split
      · exact hw.two_dvd
      · exact hh.two_dvd
  refine ⟨unitTiles_range fun b hb => ?_, length_blocks rfl, fun q hq => ?_⟩
  · obtain ⟨hw, hh⟩ := ha.tuSide b hb
    exact sbtBlock_tiles hsbt (valid_of_sides hw hh) (hdiv b hb)
  · obtain ⟨i, hi, rfl⟩ := mem_map.mp hq
    have hi := mem_range.mp hi
    refine UnitOk.mapBlocks fun b hb => ?_
    obtain ⟨hw, hh⟩ := ha.tuSide b hb
    obtain ⟨hyw, hyh⟩ := ha.tuSide a.Y mem_cons_self
    obtain ⟨hcw, hch⟩ := ha b hb
    have hwhole (side : ℕ) : (side * 4) >>> 2 = side := by
      rw [Nat.shiftRight_eq_div_pow]
      omega
    have h4 := fun hq => hquart hq b hb
    simp only [sbtBlock, valid_of_sides hw hh, valid_of_sides hyw hyh, if_true]
    split
    · rename_i hver
      rw [hver, if_pos rfl] at h4
      rw [hwhole, hwhole]
      exact ⟨sbtSide hsbt hcw h4 hi, hh⟩
    · rename_i hver
      rw [if_neg hver] at h4
      rw [hwhole, hwhole]
      exact ⟨hw, sbtSide hsbt hch h4 hi⟩

/-- An admitted split tiles the current area, and leaves sides of the kind of
its tree. -/
theorem splitParts_tile (hcs : TbSizeOk cs) (hp : PartitionerOk cs p)
    (hpart : p.back.idx < p.back.parts.length) (hfit : SidesFit p.back.split p.back.parts)
    (hs : split.isCu = true ∨ split.isTu = true) (hcu : split.isCu = true → p.back.split.isTu = false)
    (hquart : QuarterOk split p.currArea) (hadm : p.admits cs split = true)
    (hparts : p.splitParts cs split = .ok parts) :
    UnitTiles p.currArea parts ∧ (∀ a ∈ parts, a.blocks.length = p.currArea.blocks.length) ∧
      SidesFit split parts := by
  have hcur := hfit _ (currArea_mem hpart)
  cases hsplit : split.isCu with
  | true => exact cuParts_tile hp hpart hfit hsplit (hcu hsplit) hadm hparts
  | false =>
    have htu : split.isTu = true := hs.resolve_left (by rw [hsplit]; exact Bool.false_ne_true)
    unfold SidesFit
    rw [htu, if_pos rfl]
    by_cases hmax : split = .tuMaxTrSplit
    · have htuSide : UnitOk TuSide p.currArea := by
        split at hcur
        · exact hcur
        · exact hcur.tuSide
      subst hmax
      exact maxTuTiling_tile hcs htuSide hparts
    · have hsbt : split.isSbt = true := by simpa [isTu, hmax] using htu
      have hcu' : p.back.split.isTu = false := by
        cases ht : p.back.split.isTu with
        | false => rfl
        | true =>
          have hone := one_le_trDepth hp ht
          have hzero : p.currTrDepth = 0 := by
            cases split <;> first
              | exact absurd hsbt Bool.false_ne_true
              | exact of_decide_eq_true hadm
          omega
      rw [hcu', if_neg Bool.false_ne_true] at hcur
      have hpe : parts = getSbtTuTiling p.currArea split := by
        cases split <;> first
          | exact absurd hsbt Bool.false_ne_true
          | exact (Except.ok.inj hparts).symm
      rw [hpe]
      exact sbtTuTiling_tile hsbt hcur hquart

/-! ## Runs and walks -/

/-- The operations of a run whose splits tile. -/
def TilingOp (cs : CodingStructure) (p : Partitioner) (op : Op) : Prop :=
  Admissible cs p op ∧ ∀ split, op = .splitCurrArea split → QuarterOk split p.currArea

/-- The decisions of a walk whose splits tile. -/
def TilingDecision (decision : Partitioner → Option PartSplit) : Prop :=
  ∀ p split, decision p = some split → (split.isCu = true ∨ split.isTu = true) ∧
    (split.isCu = true → p.back.split.isTu = false) ∧ QuarterOk split p.currArea

theorem ctuArea_sidesFit {fmt : ChromaFormat} {log2CtuSize : ℕ} (h5 : 5 ≤ log2CtuSize)
    (h8 : log2CtuSize ≤ 8) (col row : ℕ) : SidesFit .ctuLevel [ctuArea fmt log2CtuSize col row] := by
  intro a ha
  obtain rfl := mem_singleton.mp ha
  have hhigh : 2 ^ log2CtuSize ≤ 2 ^ 8 := Nat.pow_le_pow_right (by decide) h8
  have hpow : 2 ^ log2CtuSize = 4 * 2 ^ (log2CtuSize - 2) := by
    rw [show (4 : ℕ) = 2 ^ 2 from rfl, ← pow_add]
    congr 1
    omega
  have hside (side : ℕ) (h : side = 2 ^ log2CtuSize ∨ 2 * side = 2 ^ log2CtuSize) :
      CuSide (2 ^ log2CtuSize) side := ⟨hhigh, _, hpow, h⟩
  have hscale (s : ℕ) (hs : s = 0 ∨ s = 1) :
      2 ^ log2CtuSize >>> s = 2 ^ log2CtuSize ∨ 2 * (2 ^ log2CtuSize >>> s) = 2 ^ log2CtuSize := by
    rcases hs with rfl | rfl
    · exact Or.inl rfl
    · right
      rw [half_eq, hpow]
      omega
  have hsx : getChannelTypeScaleX .chroma fmt = 0 ∨ getChannelTypeScaleX .chroma fmt = 1 := by
    cases fmt <;> decide
  have hsy : getChannelTypeScaleY .chroma fmt = 0 ∨ getChannelTypeScaleY .chroma fmt = 1 := by
    cases fmt <;> decide
  intro b hb
  rcases mem_cons.mp hb with rfl | hb
  · exact ⟨hside _ (Or.inl rfl), hside _ (Or.inl rfl)⟩
  · have hc : b.width = 2 ^ log2CtuSize >>> getChannelTypeScaleX .chroma fmt ∧
        b.height = 2 ^ log2CtuSize >>> getChannelTypeScaleY .chroma fmt := by
      unfold ctuArea UnitArea.ofArea at hb
      dsimp only at hb
      split at hb
      · cases hb
      · simp only [mem_cons, not_mem_nil, or_false, or_self] at hb
        rw [hb]
        exact ⟨rfl, rfl⟩
    rw [hc.1, hc.2]
    exact ⟨hside _ (hscale _ hsx), hside _ (hscale _ hsy)⟩

/-- The sides fit at every level of the stack, in every state of a run. -/
theorem reachable_sidesFit (hcs : TbSizeOk cs) {ctu : UnitArea} {chType : ChannelType}
    (hinit : PartitionerOk cs (initCtu ctu chType)) (hctu : SidesFit .ctuLevel [ctu])
    (h : Reachable cs (TilingOp cs) ctu chType p) :
    PartitionerOk cs p ∧ ∀ l ∈ p.back :: p.below, SidesFit l.split l.parts := by
  induction h with
  | init =>
    refine ⟨hinit, fun l hl => ?_⟩
    obtain rfl := mem_singleton.mp hl
    exact hctu
  | step _ ha hop ih =>
    obtain ⟨hok, hfit⟩ := ih
    rcases applyOp_spec hok ha.1 with ⟨_, -, _, -, he⟩ | ⟨q, hq, hok', hmoved⟩
    · rw [hop] at he
      cases he
    rw [hop] at hq
    cases hq
    refine ⟨hok', ?_⟩
    cases hmoved with
    | pushed split parts hop' hadm hparts hE =>
      subst hop'
      obtain ⟨⟨hs, hpart, -, hcu⟩, hquart⟩ := ha
      have hback := hfit _ mem_cons_self
      have htile := splitParts_tile hcs hok hpart hback hs hcu (hquart _ rfl) hadm hparts
      intro l hl
      rw [hE.below] at hl
      rcases mem_cons.mp hl with rfl | hl
      · rw [hE.split, hE.parts]
        exact htile.2.2
      · rcases mem_cons.mp hl with rfl | hl
        · exact hback
        · exact hfit l (mem_cons_of_mem _ hl)
    | stayed hbelow hsplit hparts =>
      intro l hl
      rw [hbelow] at hl
      rcases mem_cons.mp hl with rfl | hl
      · rw [hsplit, hparts]
        exact hfit _ mem_cons_self
      · exact hfit l (mem_cons_of_mem _ hl)
    | popped hbelow =>
      intro l hl
      rw [← hbelow] at hl
      exact hfit l (mem_cons_of_mem _ hl)

theorem tiling_rule (hcs : TbSizeOk cs) {decision : Partitioner → Option PartSplit}
    (hd : TilingDecision decision) : TreeRule cs decision SidesFit UnitTiles where
  split p split _ _ _ h := ⟨(hd p split h).1, (hd p split h).2.1⟩
  level p split parts hp hpart hfit h hadm hparts :=
    (splitParts_tile hcs hp hpart hfit (hd p split h).1 (hd p split h).2.1 (hd p split h).2.2 hadm hparts).2.2
  leaf p _ _ _ _ := fun _ _ => Tiles.single _
  node p split parts g hp hpart hfit h hadm hparts hg := by
    obtain ⟨htile, hlen, -⟩ :=
      splitParts_tile hcs hp hpart hfit (hd p split h).1 (hd p split h).2.1 (hd p split h).2.2 hadm hparts
    exact htile.flatMap hlen hg

/-- In every state of a run the parts of an admitted split tile the current
area, in every component; and so do the leaves of every walk from there. -/
theorem splits_tile (hcs : TbSizeOk cs) (fmt : ChromaFormat) (chType : ChannelType) {log2CtuSize : ℕ}
    (h5 : 5 ≤ log2CtuSize) (h8 : log2CtuSize ≤ 8) (col row : ℕ)
    (h : Reachable cs (TilingOp cs) (ctuArea fmt log2CtuSize col row) chType p) :
    (∀ split q, TilingOp cs p (.splitCurrArea split) → p.splitCurrArea cs split = .ok q →
      UnitTiles p.currArea q.back.parts) ∧
    ∀ decision depth areas q, TilingDecision decision → p.back.idx < p.back.parts.length →
      codingTree cs decision depth p = .ok (areas, q) → UnitTiles p.currArea areas := by
  obtain ⟨hok, hfit⟩ := reachable_sidesFit hcs (initCtu_ok h5 h8 col row chType)
    (ctuArea_sidesFit h5 h8 col row) h
  have hback := hfit _ mem_cons_self
  constructor
  · rintro split q ⟨⟨hs, hpart, -, hcu⟩, hquart⟩ hq
    obtain ⟨hadm, parts, hparts, hE⟩ := splitCurrArea_ok hok hs hpart hcu hq
    rw [hE.parts]
    exact (splitParts_tile hcs hok hpart hback hs hcu (hquart _ rfl) hadm hparts).1
  · intro decision depth areas q hd hpart hwalk
    exact (codingTree_spec (tiling_rule hcs hd) depth hok hpart hback hwalk).2

/-- A ternary split of the CTU, and a quarter split of its first part. -/
def smallDecision (p : Partitioner) : Option PartSplit :=
  if p.back.split = .ctuLevel then some .cuTriVSplit else none

theorem splits_tile_ternary : ∃ areas q,
    codingTree smallConfig smallDecision 2 (initCtu (ctuArea .chroma420 6 1 0) .luma) = .ok (areas, q) ∧
      areas.length = 3 ∧ UnitTiles (ctuArea .chroma420 6 1 0) areas := by
  refine ⟨_, _, rfl, rfl, ?_⟩
  refine (splits_tile (show TbSizeOk smallConfig from ⟨1, rfl⟩) .chroma420 .luma (show 5 ≤ 6 by decide)
    (show 6 ≤ 8 by decide) 1 0 Reachable.init).2 smallDecision 2 _ _ ?_ Nat.zero_lt_one rfl
  intro p split h
  unfold smallDecision at h
  split at h
  · cases h
    exact ⟨Or.inl rfl, fun _ => by rw [‹p.back.split = _›]; rfl, fun h => by cases h⟩
  · cases h

/-- Two admitted splits that leave a chroma sample out: a quarter split of a
block four samples wide, and a split in halves of a block six samples wide that
a coding split inside of a transform split left. -/
theorem splits_leave_samples_out :
    (∃ p q, runOps smallConfig (initCtu (ctuArea .chroma420 5 0 0) .luma)
        [.splitCurrArea .cuQuadSplit, .splitCurrArea .cuQuadSplit, .splitCurrArea .cuVertSplit] = .ok p ∧
      p.splitCurrArea smallConfig .sbtVerQuadPos0Split = .ok q ∧ ¬UnitTiles p.currArea q.back.parts) ∧
    ∃ p q, runOps smallConfig (initCtu (ctuArea .chroma420 5 0 0) .luma)
        [.splitCurrArea .cuQuadSplit, .splitCurrArea .sbtVerQuadPos1Split, .splitCurrArea .cuVertSplit] = .ok p ∧
      p.splitCurrArea smallConfig .sbtVerHalfPos0Split = .ok q ∧ ¬UnitTiles p.currArea q.back.parts := by
  have hout {a : UnitArea} {parts : List UnitArea} {x : ℤ} (hlen : 1 < a.blocks.length)
      (hin : (block a 1).contains ⟨x, 0⟩ = true) (hnot : ∀ q ∈ parts, (block q 1).contains ⟨x, 0⟩ = false) :
      ¬UnitTiles a parts := by
    intro h
    obtain ⟨s, hs, hx⟩ := ((h 1 hlen).cover (x, 0)).mp (mem_samples.mpr hin)
    obtain ⟨q, hq, rfl⟩ := mem_map.mp hs
    rw [mem_samples, hnot q hq] at hx
    cases hx
  constructor
  · refine ⟨_, _, rfl, rfl, hout (x := 1) (by decide) (by decide) (by decide)⟩
  · refine ⟨_, _, rfl, rfl, hout (x := 2) (by decide) (by decide) (by decide)⟩

end ECM.Partition
