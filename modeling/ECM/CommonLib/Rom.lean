import Mathlib.Data.Finset.Prod
import Mathlib.Data.Prod.Lex
import Mathlib.Order.Monotone.Basic
import Mathlib.Tactic.Ring

/-! # Diagonal scans

`ScanGenerator` with `SCAN_DIAG`, and the scan orders that are built with it. The
generator goes through a block antidiagonal by antidiagonal, each from the bottom left
to the top right, and so meets every position once. -/

namespace ECM.CommonLib.Rom

/-! ## The generator -/

/-- Where the generator stands. -/
structure ScanGenerator where
  line : ℕ
  column : ℕ
  deriving DecidableEq, Repr

/-- How `GetNextIndex` advances line and column. -/
def ScanGenerator.advance (blockWidth blockHeight : ℕ) (g : ScanGenerator) : ScanGenerator :=
  if g.column = blockWidth - 1 ∨ g.line = 0 then
    if g.line + (g.column + 1) ≥ blockHeight then
      ⟨blockHeight - 1, g.line + (g.column + 1) - (blockHeight - 1)⟩
    else ⟨g.line + (g.column + 1), 0⟩
  else ⟨g.line - 1, g.column + 1⟩

/-- The generator after `n` calls of `GetNextIndex`. -/
def scanGenerator (blockWidth blockHeight : ℕ) : (n : ℕ) → ScanGenerator
  | 0 => ⟨0, 0⟩
  | n + 1 => (scanGenerator blockWidth blockHeight n).advance blockWidth blockHeight

/-! ## Order -/

namespace ScanGenerator

/-- The antidiagonal, and the place on it. -/
def key (g : ScanGenerator) : ℕ ×ₗ ℕ := toLex (g.line + g.column, g.column)

/-- The position is one of the block. -/
def Inside (blockWidth blockHeight : ℕ) (g : ScanGenerator) : Prop := g.line < blockHeight ∧ g.column < blockWidth

variable {blockWidth blockHeight : ℕ} {g g' : ScanGenerator}

theorem key_lt_iff : g.key < g'.key ↔ g.line + g.column < g'.line + g'.column ∨
    g.line + g.column = g'.line + g'.column ∧ g.column < g'.column := Prod.Lex.lt_iff

theorem key_inj (h : g.key = g'.key) : g = g' := by
  have hpair : (g.line + g.column, g.column) = (g'.line + g'.column, g'.column) := h
  obtain ⟨hsum, hcolumn⟩ := Prod.mk.inj hpair
  cases g
  cases g'
  simp only [mk.injEq] at hsum hcolumn ⊢
  omega

theorem key_lt_advance (g : ScanGenerator) : g.key < (g.advance blockWidth blockHeight).key := by
  rw [key_lt_iff, advance]
  split_ifs <;> dsimp only <;> omega

/-- No position of the block lies between a position and the one after it. -/
theorem advance_le (hg' : g'.Inside blockWidth blockHeight) (hlt : g.key < g'.key)
    (hg : g.Inside blockWidth blockHeight) : ¬g'.key < (g.advance blockWidth blockHeight).key := by
  obtain ⟨hline, hcolumn⟩ := hg
  obtain ⟨hline', hcolumn'⟩ := hg'
  rw [key_lt_iff] at hlt ⊢
  rw [advance]
  split_ifs <;> dsimp only <;> omega

theorem advance_inside (hg' : g'.Inside blockWidth blockHeight) (hlt : g.key < g'.key)
    (hg : g.Inside blockWidth blockHeight) : (g.advance blockWidth blockHeight).Inside blockWidth blockHeight := by
  obtain ⟨hline, hcolumn⟩ := hg
  obtain ⟨hline', hcolumn'⟩ := hg'
  rw [key_lt_iff] at hlt
  rw [Inside, advance]
  split_ifs <;> dsimp only <;> omega

end ScanGenerator

variable {blockWidth blockHeight : ℕ}

theorem scanGenerator_strictMono :
    StrictMono fun n => (scanGenerator blockWidth blockHeight n).key :=
  strictMono_nat_of_lt_succ fun _ => ScanGenerator.key_lt_advance _

theorem scanGenerator_injective : Function.Injective (scanGenerator blockWidth blockHeight) :=
  fun _ _ h => scanGenerator_strictMono.injective (congrArg ScanGenerator.key h)

/-! ## Coverage -/

/-- Up to the last one met, the positions of the block are those that were met. -/
theorem scanGenerator_met {n : ℕ} (hinside : ∀ m ≤ n, (scanGenerator blockWidth blockHeight m).Inside blockWidth blockHeight)
    {g : ScanGenerator} (hg : g.Inside blockWidth blockHeight) :
    ¬(scanGenerator blockWidth blockHeight n).key < g.key → ∃ m ≤ n, scanGenerator blockWidth blockHeight m = g := by
  induction n with
  | zero =>
    intro hle
    refine ⟨0, Nat.le_refl 0, ScanGenerator.key_inj ?_⟩
    have hzero : ¬g.key < (scanGenerator blockWidth blockHeight 0).key := by
      rw [ScanGenerator.key_lt_iff, scanGenerator]
      dsimp only
      omega
    exact le_antisymm (not_lt.mp hzero) (not_lt.mp hle)
  | succ n ih =>
    intro hle
    by_cases hlt : (scanGenerator blockWidth blockHeight n).key < g.key
    · refine ⟨n + 1, Nat.le_refl _, ScanGenerator.key_inj (le_antisymm ?_ (not_lt.mp hle))⟩
      exact not_lt.mp (ScanGenerator.advance_le hg hlt (hinside n (Nat.le_succ n)))
    · obtain ⟨m, hm, heq⟩ := ih (fun m hm => hinside m (Nat.le_succ_of_le hm)) hlt
      exact ⟨m, Nat.le_succ_of_le hm, heq⟩

/-- As long as there are positions left, the generator is in the block. -/
theorem scanGenerator_inside {n : ℕ} : n < blockWidth * blockHeight →
    ∀ m ≤ n, (scanGenerator blockWidth blockHeight m).Inside blockWidth blockHeight := by
  induction n with
  | zero =>
    intro hpos m hm
    obtain rfl := Nat.le_zero.mp hm
    exact ⟨Nat.pos_of_mul_pos_left hpos, Nat.pos_of_mul_pos_right hpos⟩
  | succ n ih =>
    intro hlt m hm
    have hbelow := ih (Nat.lt_of_succ_lt hlt)
    rcases Nat.le_or_eq_of_le_succ hm with hle | rfl
    · exact hbelow m hle
    by_cases hmore : ∃ g : ScanGenerator, g.Inside blockWidth blockHeight ∧
        (scanGenerator blockWidth blockHeight n).key < g.key
    · obtain ⟨g, hg, hkey⟩ := hmore
      exact ScanGenerator.advance_inside hg hkey (hbelow n (Nat.le_refl n))
    · -- all positions were met within `n + 1` calls, but there are more of them
      have hall : Finset.range blockHeight ×ˢ Finset.range blockWidth ⊆ (Finset.range (n + 1)).image fun m =>
          ((scanGenerator blockWidth blockHeight m).line, (scanGenerator blockWidth blockHeight m).column) := by
        intro p hp
        obtain ⟨hline, hcolumn⟩ := Finset.mem_product.mp hp
        obtain ⟨m, hm, heq⟩ := scanGenerator_met hbelow (g := ⟨p.1, p.2⟩)
          ⟨Finset.mem_range.mp hline, Finset.mem_range.mp hcolumn⟩ fun hkey =>
            hmore ⟨_, ⟨Finset.mem_range.mp hline, Finset.mem_range.mp hcolumn⟩, hkey⟩
        refine Finset.mem_image.mpr ⟨m, Finset.mem_range.mpr (Nat.lt_succ_of_le hm), ?_⟩
        rw [heq]
      have hcard := (Finset.card_le_card hall).trans Finset.card_image_le
      rw [Finset.card_product, Finset.card_range, Finset.card_range, Finset.card_range, Nat.mul_comm] at hcard
      omega

/-! ## Scan orders -/

structure ScanElement where
  idx : ℕ
  x : ℕ
  y : ℕ
  deriving DecidableEq, Repr

def ScanElement.ofRaster (blockWidth rasterPos : ℕ) : ScanElement :=
  ⟨rasterPos, rasterPos - rasterPos / blockWidth * blockWidth, rasterPos / blockWidth⟩

/-- `g_scanOrder[SCAN_UNGROUPED][SCAN_DIAG]` for the block size. -/
def scanUngrouped (blockWidth blockHeight scanPosition : ℕ) : ScanElement :=
  .ofRaster blockWidth ((scanGenerator blockWidth blockHeight scanPosition).line * blockWidth +
    (scanGenerator blockWidth blockHeight scanPosition).column)

/-- A raster position has one line and one column. -/
theorem raster_inj {w line column line' column' : ℕ} (hcolumn : column < w) (hcolumn' : column' < w)
    (h : line * w + column = line' * w + column') : line = line' ∧ column = column' := by
  have hlines := congrArg (· / w) h
  have hpos : 0 < w := Nat.lt_of_le_of_lt (Nat.zero_le _) hcolumn
  simp only [Nat.mul_comm _ w, Nat.mul_add_div hpos, Nat.div_eq_of_lt hcolumn, Nat.div_eq_of_lt hcolumn',
    Nat.add_zero] at hlines
  subst hlines
  exact ⟨rfl, Nat.add_left_cancel h⟩

theorem scanUngrouped_idx_lt {n : ℕ} (hn : n < blockWidth * blockHeight) :
    (scanUngrouped blockWidth blockHeight n).idx < blockWidth * blockHeight := by
  obtain ⟨hline, hcolumn⟩ := scanGenerator_inside hn n (Nat.le_refl n)
  have hlines := Nat.mul_le_mul_right blockWidth hline
  rw [Nat.succ_mul, Nat.mul_comm blockHeight] at hlines
  change _ * blockWidth + _ < _
  omega

/-- The scan meets no position twice. -/
theorem scanUngrouped_idx_inj {m n : ℕ} (hm : m < blockWidth * blockHeight) (hn : n < blockWidth * blockHeight)
    (h : (scanUngrouped blockWidth blockHeight m).idx = (scanUngrouped blockWidth blockHeight n).idx) : m = n := by
  obtain ⟨hline, hcolumn⟩ := raster_inj (scanGenerator_inside hm m (Nat.le_refl m)).2
    (scanGenerator_inside hn n (Nat.le_refl n)).2 h
  have hsame : scanGenerator blockWidth blockHeight m = scanGenerator blockWidth blockHeight n :=
    ScanGenerator.key_inj (by rw [ScanGenerator.key, ScanGenerator.key, hcolumn, hline])
  exact scanGenerator_injective hsame

/-- The scan meets every position. -/
theorem exists_scanUngrouped {j : ℕ} (hj : j < blockWidth * blockHeight) :
    ∃ n < blockWidth * blockHeight, (scanUngrouped blockWidth blockHeight n).idx = j := by
  have hall : (Finset.range (blockWidth * blockHeight)).image (fun n => (scanUngrouped blockWidth blockHeight n).idx) =
      Finset.range (blockWidth * blockHeight) := by
    refine Finset.eq_of_subset_of_card_le (fun j hj => ?_) ?_
    · obtain ⟨n, hn, rfl⟩ := Finset.mem_image.mp hj
      exact Finset.mem_range.mpr (scanUngrouped_idx_lt (Finset.mem_range.mp hn))
    · rw [Finset.card_image_of_injOn fun m hm n hn h => scanUngrouped_idx_inj
        (Finset.mem_range.mp (Finset.mem_coe.mp hm)) (Finset.mem_range.mp (Finset.mem_coe.mp hn)) h]
  have hmem : j ∈ Finset.range (blockWidth * blockHeight) := Finset.mem_range.mpr hj
  rw [← hall] at hmem
  obtain ⟨n, hn, heq⟩ := Finset.mem_image.mp hmem
  exact ⟨n, Finset.mem_range.mp hn, heq⟩

/-- By the logarithms of the width and the height of a block, those of its sub-blocks. -/
def g_log2SbbSize : List (List (ℕ × ℕ)) :=
  [[(0, 0), (0, 1), (0, 2), (0, 3), (0, 4), (0, 4), (0, 4), (0, 4), (0, 4)],
   [(1, 0), (1, 1), (1, 1), (1, 3), (1, 3), (1, 3), (1, 3), (1, 3), (1, 3)],
   [(2, 0), (1, 1), (2, 2), (2, 2), (2, 2), (2, 2), (2, 2), (2, 2), (2, 2)],
   [(3, 0), (3, 1), (2, 2), (2, 2), (2, 2), (2, 2), (2, 2), (2, 2), (2, 2)],
   [(4, 0), (3, 1), (2, 2), (2, 2), (2, 2), (2, 2), (2, 2), (2, 2), (2, 2)],
   [(4, 0), (3, 1), (2, 2), (2, 2), (2, 2), (2, 2), (2, 2), (2, 2), (2, 2)],
   [(4, 0), (3, 1), (2, 2), (2, 2), (2, 2), (2, 2), (2, 2), (2, 2), (2, 2)],
   [(4, 0), (3, 1), (2, 2), (2, 2), (2, 2), (2, 2), (2, 2), (2, 2), (2, 2)],
   [(4, 0), (3, 1), (2, 2), (2, 2), (2, 2), (2, 2), (2, 2), (2, 2), (2, 2)]]

/-- A block of `2 ^ log2BlockWidth` by `2 ^ log2BlockHeight`, and its sub-blocks. -/
structure BlockSize where
  log2BlockWidth : ℕ
  log2BlockHeight : ℕ
  width_le : log2BlockWidth ≤ 8
  height_le : log2BlockHeight ≤ 8

namespace BlockSize

variable (b : BlockSize)

def width : ℕ := 2 ^ b.log2BlockWidth

def height : ℕ := 2 ^ b.log2BlockHeight

def log2CG : ℕ × ℕ := (g_log2SbbSize.getD b.log2BlockWidth []).getD b.log2BlockHeight (0, 0)

def log2CGWidth : ℕ := b.log2CG.1

def log2CGHeight : ℕ := b.log2CG.2

def log2CGSize : ℕ := b.log2CGWidth + b.log2CGHeight

def widthInGroups : ℕ := b.width >>> b.log2CGWidth

def heightInGroups : ℕ := b.height >>> b.log2CGHeight

/-- The generators of a scan position: that of its sub-block, and the one inside it. -/
def groupScan (groupIndex : ℕ) : ScanGenerator := scanGenerator b.widthInGroups b.heightInGroups groupIndex

def insideScan (scanPosition : ℕ) : ScanGenerator := scanGenerator (2 ^ b.log2CGWidth) (2 ^ b.log2CGHeight) scanPosition

def rasterPos (groupIndex scanPosition : ℕ) : ℕ :=
  ((b.insideScan scanPosition).line + (b.groupScan groupIndex).line * 2 ^ b.log2CGHeight) * b.width +
    (b.insideScan scanPosition).column + (b.groupScan groupIndex).column * 2 ^ b.log2CGWidth

/-- `g_scanOrder[SCAN_GROUPED_4x4][SCAN_DIAG]` for the block size. -/
def scanGrouped (i : ℕ) : ScanElement :=
  .ofRaster b.width (b.rasterPos (i >>> b.log2CGSize) (i % 2 ^ b.log2CGSize))

/-! ## Sub-blocks -/

theorem log2CG_le : b.log2CGWidth ≤ b.log2BlockWidth ∧ b.log2CGHeight ≤ b.log2BlockHeight ∧ b.log2CGSize ≤ 4 := by
  have htable : ∀ w ≤ 8, ∀ h ≤ 8,
      ((g_log2SbbSize.getD w []).getD h (0, 0)).1 ≤ w ∧ ((g_log2SbbSize.getD w []).getD h (0, 0)).2 ≤ h ∧
        ((g_log2SbbSize.getD w []).getD h (0, 0)).1 + ((g_log2SbbSize.getD w []).getD h (0, 0)).2 ≤ 4 := by
    decide
  exact htable _ b.width_le _ b.height_le

theorem insideScan_inside {i : ℕ} (hi : i < 2 ^ b.log2CGSize) :
    (b.insideScan i).Inside (2 ^ b.log2CGWidth) (2 ^ b.log2CGHeight) := by
  rw [log2CGSize, Nat.pow_add] at hi
  exact scanGenerator_inside hi i (Nat.le_refl i)

/-- The positions of a sub-block are different ones. -/
theorem rasterPos_inj {groupIndex i j : ℕ} (hi : i < 2 ^ b.log2CGSize) (hj : j < 2 ^ b.log2CGSize)
    (h : b.rasterPos groupIndex i = b.rasterPos groupIndex j) : i = j := by
  have hgroup : 2 ^ b.log2CGWidth ≤ b.width := Nat.pow_le_pow_right (by decide) b.log2CG_le.1
  have hin := (b.insideScan_inside hi).2
  have hjn := (b.insideScan_inside hj).2
  rw [rasterPos, rasterPos, Nat.add_mul, Nat.add_mul] at h
  obtain ⟨hline, hcolumn⟩ := @raster_inj b.width (b.insideScan i).line (b.insideScan i).column
    (b.insideScan j).line (b.insideScan j).column (by omega) (by omega) (by omega)
  have hsame : b.insideScan i = b.insideScan j :=
    ScanGenerator.key_inj (by rw [ScanGenerator.key, ScanGenerator.key, hcolumn, hline])
  exact scanGenerator_injective hsame

/-! ## The whole block -/

theorem width_eq : b.widthInGroups * 2 ^ b.log2CGWidth = b.width := by
  rw [widthInGroups, width, Nat.shiftRight_eq_div_pow]
  exact Nat.div_mul_cancel (Nat.pow_dvd_pow 2 b.log2CG_le.1)

theorem height_eq : b.heightInGroups * 2 ^ b.log2CGHeight = b.height := by
  rw [heightInGroups, height, Nat.shiftRight_eq_div_pow]
  exact Nat.div_mul_cancel (Nat.pow_dvd_pow 2 b.log2CG_le.2.1)

/-- The block is made of whole sub-blocks. -/
theorem area_eq : b.width * b.height = b.widthInGroups * b.heightInGroups * 2 ^ b.log2CGSize := by
  rw [← b.width_eq, ← b.height_eq, log2CGSize, Nat.pow_add]
  ring

theorem groupScan_inside {groupIndex : ℕ} (h : groupIndex < b.widthInGroups * b.heightInGroups) :
    (b.groupScan groupIndex).Inside b.widthInGroups b.heightInGroups :=
  scanGenerator_inside h groupIndex (Nat.le_refl groupIndex)

/-- The line and the column of a position lie in the block. -/
theorem rasterPos_inside {groupIndex i : ℕ} (hg : groupIndex < b.widthInGroups * b.heightInGroups)
    (hi : i < 2 ^ b.log2CGSize) :
    (b.insideScan i).line + (b.groupScan groupIndex).line * 2 ^ b.log2CGHeight < b.height ∧
      (b.insideScan i).column + (b.groupScan groupIndex).column * 2 ^ b.log2CGWidth < b.width := by
  obtain ⟨hline, hcolumn⟩ := b.insideScan_inside hi
  obtain ⟨hgline, hgcolumn⟩ := b.groupScan_inside hg
  have hlines := Nat.mul_le_mul_right (2 ^ b.log2CGHeight) (Nat.succ_le_of_lt hgline)
  have hcolumns := Nat.mul_le_mul_right (2 ^ b.log2CGWidth) (Nat.succ_le_of_lt hgcolumn)
  rw [b.height_eq, Nat.succ_mul] at hlines
  rw [b.width_eq, Nat.succ_mul] at hcolumns
  omega

/-- A place in blocks of `n` has one block and one place in it. -/
theorem block_inj {n a c a' c' : ℕ} (ha : a < n) (ha' : a' < n) (h : a + c * n = a' + c' * n) : a = a' ∧ c = c' := by
  obtain ⟨hc, ha⟩ := @raster_inj n c a c' a' ha ha' (by omega)
  exact ⟨ha, hc⟩

theorem rasterPos_group_inj {groupIndex groupIndex' i j : ℕ} (hg : groupIndex < b.widthInGroups * b.heightInGroups)
    (hg' : groupIndex' < b.widthInGroups * b.heightInGroups) (hi : i < 2 ^ b.log2CGSize) (hj : j < 2 ^ b.log2CGSize)
    (h : b.rasterPos groupIndex i = b.rasterPos groupIndex' j) : groupIndex = groupIndex' ∧ i = j := by
  rw [rasterPos, rasterPos, Nat.add_assoc, Nat.add_assoc] at h
  obtain ⟨hline, hcolumn⟩ := raster_inj (b.rasterPos_inside hg hi).2 (b.rasterPos_inside hg' hj).2 h
  obtain ⟨hil, hgl⟩ := block_inj (b.insideScan_inside hi).1 (b.insideScan_inside hj).1 hline
  obtain ⟨hic, hgc⟩ := block_inj (b.insideScan_inside hi).2 (b.insideScan_inside hj).2 hcolumn
  have hinside : b.insideScan i = b.insideScan j :=
    ScanGenerator.key_inj (by rw [ScanGenerator.key, ScanGenerator.key, hil, hic])
  have hgroup : b.groupScan groupIndex = b.groupScan groupIndex' :=
    ScanGenerator.key_inj (by rw [ScanGenerator.key, ScanGenerator.key, hgl, hgc])
  exact ⟨scanGenerator_injective hgroup, scanGenerator_injective hinside⟩

/-- The scan of the whole block meets no position twice. -/
theorem scanGrouped_idx_inj {i j : ℕ} (hi : i < b.width * b.height) (hj : j < b.width * b.height)
    (h : (b.scanGrouped i).idx = (b.scanGrouped j).idx) : i = j := by
  have hpos := Nat.two_pow_pos b.log2CGSize
  rw [b.area_eq] at hi hj
  rw [Nat.mul_comm] at hi hj
  have hraster : b.rasterPos (i >>> b.log2CGSize) (i % 2 ^ b.log2CGSize) =
      b.rasterPos (j >>> b.log2CGSize) (j % 2 ^ b.log2CGSize) := h
  rw [Nat.shiftRight_eq_div_pow, Nat.shiftRight_eq_div_pow] at hraster
  obtain ⟨hgroup, hinside⟩ := b.rasterPos_group_inj (Nat.div_lt_of_lt_mul hi) (Nat.div_lt_of_lt_mul hj)
    (Nat.mod_lt i hpos) (Nat.mod_lt j hpos) hraster
  rw [← Nat.div_add_mod i (2 ^ b.log2CGSize), hgroup, hinside, Nat.div_add_mod]

theorem scanGrouped_idx_lt {i : ℕ} (hi : i < b.width * b.height) : (b.scanGrouped i).idx < b.width * b.height := by
  rw [b.area_eq, Nat.mul_comm] at hi
  have hgroup : i >>> b.log2CGSize < b.widthInGroups * b.heightInGroups := by
    rw [Nat.shiftRight_eq_div_pow]
    exact Nat.div_lt_of_lt_mul hi
  obtain ⟨hline, hcolumn⟩ := b.rasterPos_inside hgroup (Nat.mod_lt i (Nat.two_pow_pos b.log2CGSize))
  have hlines := Nat.mul_le_mul_right b.width (Nat.succ_le_of_lt hline)
  rw [Nat.succ_mul, Nat.mul_comm b.height] at hlines
  change b.rasterPos _ _ < _
  rw [rasterPos]
  omega

end BlockSize

end ECM.CommonLib.Rom
