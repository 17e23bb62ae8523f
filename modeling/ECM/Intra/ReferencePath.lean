import ECM.CommonLib.IntraReferences
import Mathlib.Data.Int.ConditionallyCompleteOrder
import Mathlib.Tactic.LinearCombination
import Mathlib.Tactic.Linarith
import Mathlib.Tactic.Ring
import Mathlib.Tactic.Zify

/-! # The path of the reference samples

The entries of both arrays lie on a path, from the lowest sample on the left up to the
corner and then to the right. The units are consecutive stretches of the path, and a
loop over addresses writes a stretch of it. -/

namespace ECM.Intra.ReferenceSamples
open CommonLib CommonLib.RefBlock

/-- An entry of the column on the left or of the row above. -/
inductive Entry where
  | left (i : ℕ)
  | top (j : ℕ)

namespace Entry
variable (b : RefBlock)

def address : Entry → ℤ
  | left i => b.predStride + i
  | top j => j

/-- The reconstructed sample at the position of an entry. -/
def sample (reco : ℤ → ℤ → ℤ) : Entry → ℤ
  | left i => reco (-(1 + b.multiRefIdx)) (i - (1 + b.multiRefIdx))
  | top j => reco (j - (1 + b.multiRefIdx)) (-(1 + b.multiRefIdx))

/-- The unit that contains the position of an entry. -/
def unit : Entry → ℕ
  | left i => if i < b.cornerRows then b.cornerUnit
      else b.cornerUnit - 1 - (i - b.cornerRows.toNat) / b.unitHeight
  | top j => if j < b.cornerCols then b.cornerUnit
      else b.cornerUnit + 1 + (j - b.cornerCols.toNat) / b.unitWidth

end Entry

/-- The lowest entry on the left. -/
def lastLeft (b : RefBlock) : ℕ := b.predHSize + b.multiRefIdx

def pathLength (b : RefBlock) : ℕ := lastLeft b + 1 + b.predStride

/-- The path through both arrays. It visits the corner twice, once in each array. -/
def path (b : RefBlock) (t : ℕ) : Entry :=
  if t ≤ lastLeft b then .left (lastLeft b - t) else .top (t - lastLeft b - 1)

/-- What the source checks, and what the sizes of units and the rules for reference lines give. -/
structure Valid (b : RefBlock) : Prop where
  width : 0 < b.unitWidth
  height : 0 < b.unitHeight
  above : 2 ≤ b.totalAboveUnits
  left : 2 ≤ b.totalLeftUnits
  square : b.cornerRows = b.cornerCols

variable {b : RefBlock}

/-! ## Where the units are on the path -/

/-- The position at which a unit begins. -/
def start (b : RefBlock) (u : ℕ) : ℤ :=
  if u = 0 then 0
  else if u ≤ b.cornerUnit then lastLeft b + 1 - b.cornerRows - ((b.cornerUnit : ℤ) - u) * b.unitHeight
  else if u < b.totalUnits then lastLeft b + 1 + b.cornerCols + ((u : ℤ) - b.cornerUnit - 1) * b.unitWidth
  else pathLength b

/-- The units of an array cover its samples; the far one may be a part of a unit. -/
theorem length_eq {n u : ℕ} (hu : 0 < u) :
    (n : ℤ) = (((n + (u - 1)) / u : ℕ) - 1) * u + lastSample n u ∧ 0 < lastSample n u ∧ lastSample n u ≤ u := by
  have hmod := Nat.div_add_mod n u
  have hlt := Nat.mod_lt n hu
  unfold lastSample
  by_cases hzero : n % u = 0
  · have hdiv : (n + (u - 1)) / u = n / u := by
      rw [Nat.div_eq_iff hu] at *
      rw [hzero] at hmod
      generalize n / u = q at hmod ⊢
      rw [Nat.mul_comm] at hmod
      omega
    rw [if_pos hzero, hdiv]
    refine ⟨?_, hu, Nat.le_refl u⟩
    have hn : (n : ℤ) = u * (n / u : ℕ) := by
      rw [← Nat.cast_mul]
      omega
    linear_combination hn
  · have hdiv : (n + (u - 1)) / u = n / u + 1 := by
      rw [Nat.div_eq_iff hu] at *
      generalize n / u = q at hmod ⊢
      generalize n % u = r at *
      rw [Nat.mul_comm] at hmod
      rw [Nat.add_mul]
      omega
    rw [if_neg hzero, hdiv]
    refine ⟨?_, by omega, by omega⟩
    have hn : (n : ℤ) = u * (n / u : ℕ) + (n % u : ℕ) := by
      rw [← Nat.cast_mul, ← Nat.cast_add, hmod]
    push_cast at hn ⊢
    linear_combination hn

/-- The corner has a sample of its own in each array. -/
theorem one_le_corner (b : RefBlock) : 1 ≤ b.cornerRows ∧ b.cornerRows ≤ 1 + b.multiRefIdx ∧
    1 ≤ b.cornerCols ∧ b.cornerCols ≤ 1 + b.multiRefIdx := by
  have hrows := Nat.div_mul_le_self b.multiRefIdx b.unitHeight
  have hcols := Nat.div_mul_le_self b.multiRefIdx b.unitWidth
  unfold cornerRows cornerCols leftMrlUnitNum aboveMrlUnitNum
  rw [← Nat.cast_mul, ← Nat.cast_mul]
  omega

theorem cornerUnit_bounds (h : Valid b) : 2 ≤ b.cornerUnit ∧ b.cornerUnit + 2 < b.totalUnits := by
  have hl := h.left
  have ha := h.above
  unfold cornerUnit totalUnits
  omega

theorem start_of_le {u : ℕ} (hpos : 0 < u) (hu : u ≤ b.cornerUnit) :
    start b u = lastLeft b + 1 - b.cornerRows - ((b.cornerUnit : ℤ) - u) * b.unitHeight := by
  unfold start
  rw [if_neg (by omega), if_pos hu]

theorem start_of_gt {u : ℕ} (hc : b.cornerUnit < u) (hu : u < b.totalUnits) :
    start b u = lastLeft b + 1 + b.cornerCols + ((u : ℤ) - b.cornerUnit - 1) * b.unitWidth := by
  unfold start
  rw [if_neg (by omega), if_neg (by omega), if_pos hu]

theorem start_one (h : Valid b) : start b 1 = lastSample b.predHSize b.unitHeight := by
  obtain ⟨hlen, -⟩ := length_eq (n := b.predHSize) h.height
  obtain ⟨htwo, -⟩ := cornerUnit_bounds h
  unfold start
  rw [if_neg Nat.one_ne_zero, if_pos (by omega)]
  have hcu : (b.cornerUnit : ℤ) = ((b.predHSize + (b.unitHeight - 1)) / b.unitHeight : ℕ) + b.leftMrlUnitNum := by
    unfold cornerUnit totalLeftUnits
    rw [Nat.cast_add]
  rw [hcu]
  unfold lastLeft cornerRows
  push_cast at hlen ⊢
  linear_combination hlen

theorem start_left {u : ℕ} (h1 : 1 ≤ u) (hu : u < b.cornerUnit) : start b (u + 1) = start b u + b.unitHeight := by
  unfold start
  rw [if_neg (by omega), if_pos (by omega), if_neg (by omega), if_pos (by omega)]
  push_cast
  ring

theorem start_corner (h : Valid b) : start b b.cornerUnit = lastLeft b + 1 - b.cornerRows ∧
    start b (b.cornerUnit + 1) = lastLeft b + 1 + b.cornerCols := by
  obtain ⟨htwo, hlt⟩ := cornerUnit_bounds h
  unfold start
  rw [if_neg (by omega), if_pos (Nat.le_refl _), if_neg (by omega), if_neg (by omega), if_pos (by omega)]
  push_cast
  constructor <;> ring

theorem start_above {u : ℕ} (hc : b.cornerUnit < u) (hu : u + 1 < b.totalUnits) :
    start b (u + 1) = start b u + b.unitWidth := by
  unfold start
  rw [if_neg (by omega), if_neg (by omega), if_pos hu, if_neg (by omega), if_neg (by omega), if_pos (by omega)]
  push_cast
  ring

theorem start_last (h : Valid b) {u : ℕ} (hu : u + 1 = b.totalUnits) :
    start b (u + 1) = start b u + lastSample b.predSize b.unitWidth ∧ start b (u + 1) = pathLength b := by
  obtain ⟨hlen, -⟩ := length_eq (n := b.predSize) h.width
  obtain ⟨-, hlt⟩ := cornerUnit_bounds h
  have hcu : (u : ℤ) - b.cornerUnit - 1 =
      ((b.predSize + (b.unitWidth - 1)) / b.unitWidth : ℕ) + b.aboveMrlUnitNum - 1 := by
    have hnat : u = b.cornerUnit + (b.predSize + (b.unitWidth - 1)) / b.unitWidth + b.aboveMrlUnitNum := by
      unfold totalUnits totalAboveUnits at hu
      unfold cornerUnit
      omega
    omega
  unfold start
  rw [if_neg (by omega), if_neg (by omega), if_neg (by omega), if_neg (by omega), if_neg (by omega), if_pos (by omega),
    hcu]
  refine ⟨?_, rfl⟩
  unfold pathLength predStride cornerCols
  push_cast at hlen ⊢
  linear_combination hlen

theorem start_total (h : Valid b) : start b b.totalUnits = pathLength b := by
  obtain ⟨-, hlt⟩ := cornerUnit_bounds h
  obtain ⟨u, hu⟩ : ∃ u, u + 1 = b.totalUnits := ⟨b.totalUnits - 1, by omega⟩
  rw [← hu]
  exact (start_last h hu).2

/-- Every unit has an entry. -/
theorem start_lt_succ (h : Valid b) {u : ℕ} (hu : u < b.totalUnits) : start b u < start b (u + 1) := by
  have hheight := h.height
  have hwidth := h.width
  obtain ⟨htwo, hlt⟩ := cornerUnit_bounds h
  obtain ⟨hr, -, hc, -⟩ := one_le_corner b
  obtain ⟨hcs, hcs'⟩ := start_corner h
  rcases Nat.lt_trichotomy u b.cornerUnit with hl | rfl | hgt
  · rcases Nat.eq_zero_or_pos u with rfl | hpos
    · obtain ⟨-, hlast, -⟩ := length_eq (n := b.predHSize) h.height
      rw [start_one h]
      change (0 : ℤ) < _
      omega
    · rw [start_left hpos hl]
      omega
  · omega
  · by_cases hlast : u + 1 = b.totalUnits
    · obtain ⟨-, hpos, -⟩ := length_eq (n := b.predSize) h.width
      rw [(start_last h hlast).1]
      omega
    · rw [start_above hgt (by omega)]
      omega

theorem start_mono (h : Valid b) {u w : ℕ} (huw : u ≤ w) (hw : w ≤ b.totalUnits) : start b u ≤ start b w := by
  induction w, huw using Nat.le_induction with
  | base => exact Int.le_refl _
  | succ w _ ih => exact (ih (by omega)).trans (start_lt_succ h (by omega)).le

theorem unit_left (h : Valid b) {i : ℕ} (hi : i ≤ lastLeft b) (hc : b.cornerRows ≤ i) :
    Entry.unit b (.left i) < b.cornerUnit ∧
      start b (Entry.unit b (.left i)) ≤ lastLeft b - i ∧
      (lastLeft b - i : ℤ) < start b (Entry.unit b (.left i) + 1) := by
  obtain ⟨htwo, -⟩ := cornerUnit_bounds h
  obtain ⟨hr, -⟩ := one_le_corner b
  obtain ⟨c, hcr⟩ : ∃ c : ℕ, b.cornerRows = c := Int.eq_ofNat_of_zero_le (by omega)
  have hdiv := Nat.div_add_mod (i - c) b.unitHeight
  have hmod := Nat.mod_lt (i - c) h.height
  -- the units above this one
  have hq : (i - c) / b.unitHeight < b.cornerUnit := by
    obtain ⟨hlen, -, hlast⟩ := length_eq (n := b.predHSize) h.height
    rw [Nat.div_lt_iff_lt_mul h.height]
    have hcu : ((b.cornerUnit * b.unitHeight : ℕ) : ℤ) =
        (((b.predHSize + (b.unitHeight - 1)) / b.unitHeight : ℕ) : ℤ) * b.unitHeight +
          b.leftMrlUnitNum * b.unitHeight := by
      unfold cornerUnit totalLeftUnits
      push_cast
      ring
    have hrows : (c : ℤ) = 1 + b.multiRefIdx - b.leftMrlUnitNum * b.unitHeight := hcr.symm
    have hil : (i : ℤ) ≤ b.predHSize + b.multiRefIdx := by
      unfold lastLeft at hi
      omega
    have hci : c ≤ i := by omega
    zify [hci]
    rw [← Nat.cast_mul, hcu]
    have hle : (lastSample b.predHSize b.unitHeight : ℤ) ≤ b.unitHeight := by omega
    linarith
  have hunit : Entry.unit b (.left i) = b.cornerUnit - 1 - (i - c) / b.unitHeight := by
    change (if (i : ℤ) < b.cornerRows then _ else _) = _
    rw [if_neg (not_lt.mpr hc), hcr]
    rfl
  rw [hunit]
  generalize (i - c) / b.unitHeight = q at hdiv hq ⊢
  generalize (i - c) % b.unitHeight = r at hdiv hmod
  have hsum : (b.unitHeight : ℤ) * q + r = i - c := by
    rw [← Nat.cast_mul, ← Nat.cast_add, hdiv]
    omega
  have hsucc : start b (b.cornerUnit - 1 - q + 1) = lastLeft b + 1 - c - q * b.unitHeight := by
    unfold start
    rw [if_neg (by omega), if_pos (by omega), hcr, show (b.cornerUnit : ℤ) - (b.cornerUnit - 1 - q + 1 : ℕ) = q by omega]
  refine ⟨by omega, ?_, ?_⟩
  · by_cases hzero : b.cornerUnit - 1 - q = 0
    · rw [hzero]
      change (0 : ℤ) ≤ _
      omega
    · unfold start
      rw [if_neg hzero, if_pos (by omega), hcr, show (b.cornerUnit : ℤ) - (b.cornerUnit - 1 - q : ℕ) = q + 1 by omega]
      linarith
  · rw [hsucc]
    linarith

theorem unit_top (h : Valid b) {j : ℕ} (hj : j < b.predStride) (hc : b.cornerCols ≤ j) :
    Entry.unit b (.top j) < b.totalUnits ∧
      start b (Entry.unit b (.top j)) ≤ lastLeft b + 1 + j ∧
      (lastLeft b + 1 + j : ℤ) < start b (Entry.unit b (.top j) + 1) := by
  obtain ⟨-, hlt⟩ := cornerUnit_bounds h
  obtain ⟨-, -, hr, -⟩ := one_le_corner b
  obtain ⟨c, hcr⟩ : ∃ c : ℕ, b.cornerCols = c := Int.eq_ofNat_of_zero_le (by omega)
  have hdiv := Nat.div_add_mod (j - c) b.unitWidth
  have hmod := Nat.mod_lt (j - c) h.width
  have htotal : b.totalUnits = b.cornerUnit + 1 + b.totalAboveUnits + b.aboveMrlUnitNum := by
    unfold totalUnits cornerUnit
    omega
  -- the units of the row before this one
  have hq : (j - c) / b.unitWidth < b.totalAboveUnits + b.aboveMrlUnitNum := by
    obtain ⟨hlen, -, hlast⟩ := length_eq (n := b.predSize) h.width
    rw [Nat.div_lt_iff_lt_mul h.width]
    have hcols : (c : ℤ) = 1 + b.multiRefIdx - b.aboveMrlUnitNum * b.unitWidth := hcr.symm
    have hjl : (j : ℤ) < b.predSize + 1 + b.multiRefIdx := by
      unfold predStride at hj
      omega
    have hcj : c ≤ j := by omega
    zify [hcj]
    have hle : (lastSample b.predSize b.unitWidth : ℤ) ≤ b.unitWidth := by omega
    have hta : (b.totalAboveUnits : ℤ) = ((b.predSize + (b.unitWidth - 1)) / b.unitWidth : ℕ) := rfl
    rw [hta]
    linarith
  have hunit : Entry.unit b (.top j) = b.cornerUnit + 1 + (j - c) / b.unitWidth := by
    change (if (j : ℤ) < b.cornerCols then _ else _) = _
    rw [if_neg (not_lt.mpr hc), hcr]
    rfl
  have hjN : (lastLeft b + 1 + j : ℤ) < pathLength b := by
    unfold pathLength
    push_cast
    omega
  rw [hunit]
  generalize (j - c) / b.unitWidth = q at hdiv hq ⊢
  generalize (j - c) % b.unitWidth = r at hdiv hmod
  have hsum : (b.unitWidth : ℤ) * q + r = j - c := by
    rw [← Nat.cast_mul, ← Nat.cast_add, hdiv]
    omega
  have hstart : start b (b.cornerUnit + 1 + q) = lastLeft b + 1 + c + q * b.unitWidth := by
    unfold start
    rw [if_neg (by omega), if_neg (by omega), if_pos (by omega), hcr,
      show ((b.cornerUnit + 1 + q : ℕ) : ℤ) - b.cornerUnit - 1 = q by omega]
  refine ⟨by omega, ?_, ?_⟩
  · rw [hstart]
    linarith
  · by_cases hlast : b.cornerUnit + 1 + q + 1 = b.totalUnits
    · rw [(start_last h hlast).2]
      exact hjN
    · rw [start_above (by omega) (by omega), hstart]
      linarith

/-- A position is in its unit. -/
theorem mem_unit (h : Valid b) {t : ℕ} (ht : t < pathLength b) :
    (path b t).unit b < b.totalUnits ∧ start b ((path b t).unit b) ≤ t ∧ (t : ℤ) < start b ((path b t).unit b + 1) := by
  obtain ⟨htwo, hlt⟩ := cornerUnit_bounds h
  obtain ⟨hr, -, hc, -⟩ := one_le_corner b
  obtain ⟨hcs, hcs'⟩ := start_corner h
  unfold path
  unfold pathLength at ht
  by_cases hleft : t ≤ lastLeft b
  · rw [if_pos hleft]
    by_cases hcorner : ((lastLeft b - t : ℕ) : ℤ) < b.cornerRows
    · have hunit : Entry.unit b (.left (lastLeft b - t)) = b.cornerUnit := if_pos hcorner
      rw [hunit, hcs, hcs']
      omega
    · obtain ⟨h1, h2, h3⟩ := unit_left h (Nat.sub_le _ t) (not_lt.mp hcorner)
      omega
  · rw [if_neg hleft]
    by_cases hcorner : ((t - lastLeft b - 1 : ℕ) : ℤ) < b.cornerCols
    · have hunit : Entry.unit b (.top (t - lastLeft b - 1)) = b.cornerUnit := if_pos hcorner
      rw [hunit, hcs, hcs']
      omega
    · obtain ⟨h1, h2, h3⟩ := unit_top h (by omega) (not_lt.mp hcorner)
      omega

theorem unit_eq_iff (h : Valid b) {t u : ℕ} (ht : t < pathLength b) (hu : u < b.totalUnits) :
    (path b t).unit b = u ↔ start b u ≤ t ∧ (t : ℤ) < start b (u + 1) := by
  obtain ⟨hlt, h1, h2⟩ := mem_unit h ht
  constructor
  · rintro rfl
    exact ⟨h1, h2⟩
  · rintro ⟨hs, hs'⟩
    rcases Nat.lt_trichotomy ((path b t).unit b) u with hl | heq | hgt
    · have hm := start_mono h (show (path b t).unit b + 1 ≤ u from hl) hu.le
      omega
    · exact heq
    · have hm := start_mono h (show u + 1 ≤ (path b t).unit b from hgt) hlt.le
      omega

/-! ## What a loop writes -/

theorem address_left {t : ℕ} (ht : t ≤ lastLeft b) :
    (path b t).address b = b.predStride + (lastLeft b - t : ℤ) := by
  unfold path
  rw [if_pos ht]
  change (b.predStride : ℤ) + (lastLeft b - t : ℕ) = _
  omega

theorem address_top {t : ℕ} (ht : lastLeft b < t) : (path b t).address b = (t : ℤ) - lastLeft b - 1 := by
  unfold path
  rw [if_neg (by omega)]
  change ((t - lastLeft b - 1 : ℕ) : ℤ) = _
  omega

variable {reco : ℤ → ℤ → ℤ} {neighborFlags : ℕ → Bool} {buf buf' : RefBuffer}

theorem sample_left {t : ℕ} (ht : t ≤ lastLeft b) : (path b t).sample b reco =
    reco (-(1 + b.multiRefIdx)) ((lastLeft b : ℤ) - t - (1 + b.multiRefIdx)) := by
  unfold path
  rw [if_pos ht, ← Nat.cast_sub ht]
  rfl

theorem sample_top {t : ℕ} (ht : lastLeft b < t) : (path b t).sample b reco =
    reco ((t : ℤ) - lastLeft b - 1 - (1 + b.multiRefIdx)) (-(1 + b.multiRefIdx)) := by
  have hcast : ((t - lastLeft b - 1 : ℕ) : ℤ) = (t : ℤ) - lastLeft b - 1 := by omega
  unfold path
  rw [if_neg (by omega), ← hcast]
  rfl

/-- An address in neither array. -/
def Outside (b : RefBlock) (a : ℤ) : Prop := a < 0 ∨ b.predStride + (lastLeft b + 1 : ℤ) ≤ a

/-- Of the path only the positions in `S` are written. -/
structure Writes (b : RefBlock) (S : Set ℤ) (val : ℕ → ℤ) (buf buf' : RefBuffer) : Prop where
  written : ∀ t < pathLength b, (t : ℤ) ∈ S → buf' ((path b t).address b) = val t
  kept : ∀ t < pathLength b, (t : ℤ) ∉ S → buf' ((path b t).address b) = buf ((path b t).address b)
  frame : ∀ a, Outside b a → buf' a = buf a

namespace Writes
variable {S S' : Set ℤ} {val val' : ℕ → ℤ} {buf₁ buf₂ : RefBuffer}

theorem congr (hw : Writes b S val buf buf') (hval : ∀ t < pathLength b, (t : ℤ) ∈ S → val t = val' t) :
    Writes b S val' buf buf' :=
  ⟨fun t ht hS => (hw.written t ht hS).trans (hval t ht hS), hw.kept, hw.frame⟩

/-- Two loops that write the same values. -/
theorem trans (h₁ : Writes b S val buf buf₁) (h₂ : Writes b S' val buf₁ buf₂) :
    Writes b (S ∪ S') val buf buf₂ := by
  refine ⟨fun t ht hS => ?_, fun t ht hS => ?_, fun a ha => (h₂.frame a ha).trans (h₁.frame a ha)⟩
  · by_cases h : (t : ℤ) ∈ S'
    · exact h₂.written t ht h
    · rw [h₂.kept t ht h]
      exact h₁.written t ht (hS.resolve_right h)
  · rw [Set.mem_union, not_or] at hS
    rw [h₂.kept t ht hS.2, h₁.kept t ht hS.1]

end Writes

/-- A loop over a stretch of the left column. -/
theorem writes_left {p q : ℤ} (hp : 0 ≤ p) (hq : q ≤ lastLeft b + 1) {ptr lo hi : ℤ}
    (hlo : ptr + lo = b.predStride + lastLeft b + 1 - q) (hhi : ptr + hi = b.predStride + lastLeft b + 1 - p)
    (val : ℤ → ℤ) :
    Writes b (Set.Ico p q) (fun t => val (b.predStride + lastLeft b - t - ptr)) buf (fillRef ptr lo hi val buf) := by
  refine ⟨fun t ht hS => ?_, fun t ht hS => ?_, fun a ha => ?_⟩
  · rw [Set.mem_Ico] at hS
    rw [fillRef_apply, address_left (by omega), if_pos (by omega)]
    congr 1
    ring
  · rw [Set.mem_Ico] at hS
    rw [fillRef_apply]
    by_cases hleft : t ≤ lastLeft b
    · rw [address_left hleft, if_neg (by omega)]
    · unfold pathLength at ht
      rw [address_top (by omega), if_neg (by omega)]
  · unfold Outside at ha
    rw [fillRef_apply, if_neg (by omega)]

/-- A loop over a stretch of the row above. -/
theorem writes_top {p q : ℤ} (hp : lastLeft b + 1 ≤ p) (hq : q ≤ pathLength b) {ptr lo hi : ℤ}
    (hlo : ptr + lo = p - lastLeft b - 1) (hhi : ptr + hi = q - lastLeft b - 1) (val : ℤ → ℤ) :
    Writes b (Set.Ico p q) (fun t => val (t - lastLeft b - 1 - ptr)) buf (fillRef ptr lo hi val buf) := by
  have hN : (pathLength b : ℤ) = lastLeft b + 1 + b.predStride := by
    unfold pathLength
    push_cast
    ring
  refine ⟨fun t ht hS => ?_, fun t ht hS => ?_, fun a ha => ?_⟩
  · rw [Set.mem_Ico] at hS
    rw [fillRef_apply, address_top (by omega), if_pos (by omega)]
  · rw [Set.mem_Ico] at hS
    rw [fillRef_apply]
    by_cases hleft : t ≤ lastLeft b
    · rw [address_left hleft, if_neg (by omega)]
    · rw [address_top (by omega), if_neg (by omega)]
  · unfold Outside at ha
    rw [fillRef_apply, if_neg (by omega)]

/-- Both arrays, the whole path. -/
theorem writes_all (left top : ℤ → ℤ) (val : ℕ → ℤ)
    (hleft : ∀ t ≤ lastLeft b, left ((lastLeft b : ℤ) - t) = val t)
    (htop : ∀ t, lastLeft b < t → top ((t : ℤ) - lastLeft b - 1) = val t) :
    Writes b Set.univ val buf (fillRef b.predStride 0 (b.predHSize + b.multiRefIdx + 1) left
      (fillRef 0 0 (b.predSize + b.multiRefIdx + 1) top buf)) := by
  have hN : (pathLength b : ℤ) = lastLeft b + 1 + b.predStride := by
    unfold pathLength
    push_cast
    ring
  have hL : (lastLeft b : ℤ) = b.predHSize + b.multiRefIdx := by
    unfold lastLeft
    push_cast
    ring
  have hS : (b.predStride : ℤ) = b.predSize + 1 + b.multiRefIdx := by
    unfold predStride
    push_cast
    ring
  have h₁ := @writes_top b buf (lastLeft b + 1) (pathLength b) (Int.le_refl _) (Int.le_refl _) 0 0
    (b.predSize + b.multiRefIdx + 1) (by omega) (by omega) top
  have h₂ := @writes_left b (fillRef 0 0 (b.predSize + b.multiRefIdx + 1) top buf) 0 (lastLeft b + 1)
    (Int.le_refl _) (Int.le_refl _) b.predStride 0 (b.predHSize + b.multiRefIdx + 1) (by omega) (by omega) left
  have h₁' : Writes b _ val _ _ := h₁.congr fun t ht hS => by
    rw [Set.mem_Ico] at hS
    rw [sub_zero]
    exact htop t (by omega)
  have h₂' : Writes b _ val _ _ := h₂.congr fun t ht hS => by
    rw [Set.mem_Ico] at hS
    rw [← hleft t (by omega)]
    congr 1
    ring
  have hw := h₁'.trans h₂'
  refine ⟨fun t ht _ => hw.written t ht ?_, fun t ht hS => absurd (Set.mem_univ _) hS, hw.frame⟩
  simp only [Set.mem_union, Set.mem_Ico]
  omega

end ECM.Intra.ReferenceSamples
