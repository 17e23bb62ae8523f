import ECM.CommonLib.ContextModelling
import Mathlib.Algebra.BigOperators.Intervals
import Mathlib.Algebra.Order.BigOperators.Group.Finset
import Mathlib.Algebra.Ring.Parity

/-! # Sign bit hiding produces decodable blocks

Whatever the rounding errors are, the level that is changed is one that may be: the
parity of its sub-block changes, and the sign that is hidden does not. -/

namespace ECM.Residual.SignBitHiding
open CommonLib CommonLib.Quant CommonLib.Rom

/-! ## First and last level of a sub-block -/

/-- The levels that are not zero lie between `first` and `last`. -/
structure Span (level : ℕ → ℤ) (size first last : ℕ) : Prop where
  last_lt : last < size
  first_ne : level first ≠ 0
  last_ne : level last ≠ 0
  below : ∀ n < first, level n = 0
  above : ∀ n, last < n → n < size → level n = 0

variable {level level' : ℕ → ℤ} {size first last first' last' n : ℕ}

theorem Span.first_eq (h : Span level size first last) (h' : Span level size first' last') : first = first' := by
  rcases Nat.lt_trichotomy first first' with hlt | heq | hlt
  · exact absurd (h'.below first hlt) h.first_ne
  · exact heq
  · exact absurd (h.below first' hlt) h'.first_ne

theorem Span.first_le (h : Span level size first last) (hn : level n ≠ 0) : first ≤ n := by
  by_contra hlt
  exact hn (h.below n (by omega))

theorem Span.le_last (h : Span level size first last) (hn : level n ≠ 0) (hsize : n < size) : n ≤ last := by
  by_contra hlt
  exact hn (h.above n (by omega) hsize)

theorem Span.congr (h : Span level size first last) (hle : ∀ n < size, level' n = level n) :
    Span level' size first last := by
  have hfirst : first < size := Nat.lt_of_le_of_lt (h.first_le h.last_ne) h.last_lt
  refine ⟨h.last_lt, ?_, ?_, fun n hn => ?_, fun n hn hsize => ?_⟩
  · rw [hle first hfirst]
    exact h.first_ne
  · rw [hle last h.last_lt]
    exact h.last_ne
  · rw [hle n (by omega)]
    exact h.below n hn
  · rw [hle n hsize]
    exact h.above n hn hsize

/-- The sum of the absolute levels. -/
def sumAbs (level : ℕ → ℤ) (size : ℕ) : ℕ := ∑ n ∈ Finset.range size, (level n).natAbs

/-- Where the sign is hidden, it is that of the parity. -/
def Decodable (level : ℕ → ℤ) (size : ℕ) : Prop :=
  ∀ first last : ℕ, Span level size first last → (last : ℤ) - first ≥ SBH_THRESHOLD →
    (level first < 0 ↔ Odd (sumAbs level size))

theorem sumAbs_congr (hle : ∀ n < size, level' n = level n) : sumAbs level' size = sumAbs level size :=
  Finset.sum_congr rfl fun n hn => by rw [hle n (Finset.mem_range.mp hn)]

/-- The parity of a sum does not depend on the signs. -/
theorem sumAbs_emod (level : ℕ → ℤ) (size : ℕ) :
    (sumAbs level size : ℤ) % 2 = (∑ n ∈ Finset.range size, level n) % 2 := by
  unfold sumAbs
  induction size with
  | zero => rfl
  | succ size ih =>
    rw [Finset.sum_range_succ, Finset.sum_range_succ, Nat.cast_add]
    omega

/-- A change by one of one level changes the parity. -/
theorem odd_sumAbs_update (hn : n < size) (hle : ∀ k < size, k ≠ n → level' k = level k)
    (hchange : level' n = level n + 1 ∨ level' n = level n - 1) :
    Odd (sumAbs level' size) ↔ ¬ Odd (sumAbs level size) := by
  have hmem := Finset.mem_range.mpr hn
  have hrest : ∑ k ∈ (Finset.range size).erase n, level' k = ∑ k ∈ (Finset.range size).erase n, level k :=
    Finset.sum_congr rfl fun k hk => hle k (Finset.mem_range.mp (Finset.mem_of_mem_erase hk)) (Finset.ne_of_mem_erase hk)
  have hsum := Finset.add_sum_erase (Finset.range size) level hmem
  have hsum' := Finset.add_sum_erase (Finset.range size) level' hmem
  have hparity := sumAbs_emod level size
  have hparity' := sumAbs_emod level' size
  rw [Nat.odd_iff, Nat.odd_iff]
  omega

variable {g : CodingGroup}

theorem firstNZPosInCG_eq (hfirst : first < g.groupSize) (hne : g.level first ≠ 0) (hbelow : ∀ n < first, g.level n = 0) :
    g.firstNZPosInCG = first := by
  have hfind : (List.range g.groupSize).find? (fun n => g.level n ≠ 0) = some first := by
    rw [List.find?_range_eq_some]
    refine ⟨by simpa using hne, List.mem_range.mpr hfirst, fun n hn => by simp [hbelow n hn]⟩
  rw [CodingGroup.firstNZPosInCG, hfind, Option.getD_some]

theorem exists_first (hne : g.level n ≠ 0) :
    ∃ first ≤ n, g.level first ≠ 0 ∧ ∀ k < first, g.level k = 0 := by
  classical
  have hex : ∃ k, g.level k ≠ 0 := ⟨n, hne⟩
  exact ⟨Nat.find hex, Nat.find_min' hex hne, Nat.find_spec hex, fun k hk => not_not.mp (Nat.find_min hex hk)⟩

theorem lastNZBelow_spec (g : CodingGroup) (m : ℕ) :
    (g.lastNZBelow m = -1 ∧ ∀ n < m, g.level n = 0) ∨
      ∃ last < m, g.lastNZBelow m = last ∧ g.level last ≠ 0 ∧ ∀ n, last < n → n < m → g.level n = 0 := by
  induction m with
  | zero => exact .inl ⟨rfl, fun n hn => absurd hn (Nat.not_lt_zero n)⟩
  | succ m ih =>
    rw [CodingGroup.lastNZBelow]
    split
    case isTrue hne => exact .inr ⟨m, Nat.lt_succ_self m, rfl, hne, fun n hlt hn => by omega⟩
    case isFalse hzero =>
      have hm : g.level m = 0 := not_not.mp hzero
      rcases ih with ⟨hlast, hall⟩ | ⟨last, hlt, hlast, hne, hall⟩
      · refine .inl ⟨hlast, fun n hn => ?_⟩
        rcases Nat.lt_succ_iff_lt_or_eq.mp hn with hn | rfl
        · exact hall n hn
        · exact hm
      · refine .inr ⟨last, Nat.lt_succ_of_lt hlt, hlast, hne, fun n hbelow hn => ?_⟩
        rcases Nat.lt_succ_iff_lt_or_eq.mp hn with hn | rfl
        · exact hall n hbelow hn
        · exact hm

/-- Between its first and its last level a sub-block is spanned by them. -/
theorem span_of_level (hn : n < g.groupSize) (hne : g.level n ≠ 0) :
    ∃ last : ℕ, g.lastNZPosInCG = last ∧ Span g.level g.groupSize g.firstNZPosInCG last := by
  obtain ⟨first, hle, hfirst, hbelow⟩ := exists_first hne
  rcases lastNZBelow_spec g g.groupSize with ⟨-, hall⟩ | ⟨last, hlt, hlast, hlastne, hall⟩
  · exact absurd (hall n hn) hne
  · refine ⟨last, hlast, ?_⟩
    rw [firstNZPosInCG_eq (Nat.lt_of_le_of_lt hle hn) hfirst hbelow]
    exact ⟨hlt, hfirst, hlastne, hbelow, hall⟩

/-- The sub-blocks in which a sign may be hidden. -/
theorem span_of_wide (hwide : g.lastNZPosInCG - g.firstNZPosInCG ≥ SBH_THRESHOLD) :
    ∃ last : ℕ, g.lastNZPosInCG = last ∧ Span g.level g.groupSize g.firstNZPosInCG last := by
  rcases lastNZBelow_spec g g.groupSize with ⟨hlast, -⟩ | ⟨last, hlt, -, hne, -⟩
  · rw [SBH_THRESHOLD, CodingGroup.lastNZPosInCG, hlast] at hwide
    omega
  · exact span_of_level hlt hne

theorem span_first (h : Span g.level g.groupSize first last) :
    g.firstNZPosInCG = first ∧ g.lastNZPosInCG = last := by
  obtain ⟨last', hlast, hspan⟩ := span_of_level h.last_lt h.last_ne
  refine ⟨hspan.first_eq h, ?_⟩
  rw [hlast, Nat.le_antisymm (h.le_last hspan.last_ne hspan.last_lt) (hspan.le_last h.last_ne h.last_lt)]

/-- `absSum` has the parity of the sum of the absolute levels. -/
theorem absSum_emod (h : Span g.level g.groupSize g.firstNZPosInCG last) (hlast : g.lastNZPosInCG = last) :
    g.absSum % 2 = (sumAbs g.level g.groupSize : ℤ) % 2 := by
  have hle := h.first_le h.last_ne
  have hcount : ((last : ℤ) + 1 - g.firstNZPosInCG).toNat = last + 1 - g.firstNZPosInCG := by omega
  have hall : g.absSum = ∑ n ∈ Finset.range g.groupSize, g.level n := by
    rw [CodingGroup.absSum, hlast, hcount, ← Finset.sum_range_add_sum_Ico g.level (Nat.succ_le_of_lt h.last_lt),
      ← Finset.sum_range_add_sum_Ico g.level (Nat.le_succ_of_le hle),
      Finset.sum_eq_zero fun n hn => h.below n (Finset.mem_range.mp hn),
      Finset.sum_eq_zero fun n hn => h.above n (Finset.mem_Ico.mp hn).1 (Finset.mem_Ico.mp hn).2, zero_add, add_zero]
    rfl
  rw [hall, sumAbs_emod]

/-! ## The position that is chosen -/

/-- What may be done to a level: a first level of one is not made zero, and before the
first level only one with the hidden sign appears. -/
def Allowed (g : CodingGroup) (n : ℕ) (change : ℤ) : Prop :=
  (g.level n ≠ 0 ∧ (change = 1 ∨ change = -1 ∧ ¬ (n = g.firstNZPosInCG ∧ (g.level n).natAbs = 1))) ∨
    g.level n = 0 ∧ change = 1 ∧
      (n < g.firstNZPosInCG → (if g.pCoef (g.blockPos n) ≥ 0 then 0 else 1) = g.signbit)

theorem maxValue_not_lt : ¬ Int32.maxValue < Int32.maxValue := by decide

theorem candidate_allowed {curChange : ℤ} (h : (g.candidate n curChange).1 < Int32.maxValue) :
    Allowed g n (g.candidate n curChange).2 := by
  revert h
  unfold CodingGroup.candidate
  dsimp only
  split
  case isTrue hne =>
    split
    · exact fun _ => .inl ⟨hne, .inl rfl⟩
    · split
      · exact fun h => absurd h maxValue_not_lt
      case isFalse hkeep => exact fun _ => .inl ⟨hne, .inr ⟨rfl, hkeep⟩⟩
  case isFalse hzero =>
    have hzero' : g.level n = 0 := not_not.mp hzero
    unfold Allowed
    generalize (if g.pCoef (g.blockPos n) ≥ 0 then 0 else 1 : ℕ) = thisSignBit
    split
    · split
      · exact fun h => absurd h maxValue_not_lt
      case isFalse hsign => exact fun _ => .inr ⟨hzero', rfl, fun _ => not_not.mp hsign⟩
    case isFalse hafter => exact fun _ => .inr ⟨hzero', rfl, fun hlt => absurd hlt hafter⟩

theorem lt_maxValue_of_nonpos {x : Int32} (h : ¬ x > 0) : x < Int32.maxValue := by
  rw [gt_iff_lt, Int32.lt_iff_toInt_lt, Int32.toInt_zero] at h
  rw [Int32.lt_iff_toInt_lt, Int32.toInt_maxValue]
  omega

theorem neg_lt_maxValue {x : Int32} (h : x > 0) : -x < Int32.maxValue := by
  rw [gt_iff_lt, Int32.lt_iff_toInt_lt, Int32.toInt_zero] at h
  have hlt := x.toInt_lt
  rw [Int32.lt_iff_toInt_lt, Int32.toInt_maxValue, Int32.toInt_neg, Int.bmod_eq_of_le (by omega) (by omega)]
  omega

/-- A level after the first one is never ruled out. -/
theorem candidate_after_first (curChange : ℤ) (hne : g.level n ≠ 0) (hafter : n ≠ g.firstNZPosInCG) :
    (g.candidate n curChange).1 < Int32.maxValue := by
  have hne' : g.pQCoef (g.blockPos n) ≠ 0 := hne
  unfold CodingGroup.candidate
  dsimp only
  rw [if_pos hne']
  split
  case isTrue hpos => exact neg_lt_maxValue hpos
  case isFalse hpos =>
    rw [if_neg fun h => hafter h.1]
    exact lt_maxValue_of_nonpos hpos

/-- A position has been chosen. -/
def Found (g : CodingGroup) (s : CodingGroup.Search) : Prop :=
  ∃ n < g.groupSize, s.minPos = g.blockPos n ∧ Allowed g n s.finalChange

variable {s : CodingGroup.Search}

/-- Every cost is below that of a start or not below it at all. -/
theorem lt_maxValue_of_lt {x y : Int32} (h : x < y) : x < Int32.maxValue := by
  rw [Int32.lt_iff_toInt_lt] at h ⊢
  exact lt_of_lt_of_le h y.toInt_le

theorem visit_found (h : Found g s) (hn : n < g.groupSize) : Found g (g.visit n s) := by
  unfold CodingGroup.visit
  dsimp only
  split
  case isTrue hlt => exact ⟨n, hn, rfl, candidate_allowed (lt_maxValue_of_lt hlt)⟩
  case isFalse => exact h

theorem visit_finds (h : s.minCostInc = Int32.maxValue ∨ Found g s) (hn : n < g.groupSize)
    (hcost : (g.candidate n s.curChange).1 < Int32.maxValue) : Found g (g.visit n s) := by
  rcases h with h | h
  · unfold CodingGroup.visit
    dsimp only
    rw [h, if_pos hcost]
    exact ⟨n, hn, rfl, candidate_allowed hcost⟩
  · exact visit_found h hn

theorem visit_open (h : s.minCostInc = Int32.maxValue ∨ Found g s) (hn : n < g.groupSize) :
    (g.visit n s).minCostInc = Int32.maxValue ∨ Found g (g.visit n s) := by
  by_cases hcost : (g.candidate n s.curChange).1 < Int32.maxValue
  · exact .inr (visit_finds h hn hcost)
  · rcases h with h | h
    · left
      unfold CodingGroup.visit
      dsimp only
      rw [h, if_neg hcost]
    · exact .inr (visit_found h hn)

theorem search_found {m : ℕ} (h : Found g s) (hm : m ≤ g.groupSize) : Found g (g.search m s) := by
  induction m generalizing s with
  | zero => exact h
  | succ m ih => exact ih (visit_found h hm) (Nat.le_of_succ_le hm)

/-- The loop chooses a position if it meets a level after the first one. -/
theorem search_finds {m k : ℕ} (hk : k < m) (hm : m ≤ g.groupSize) (hne : g.level k ≠ 0)
    (hafter : k ≠ g.firstNZPosInCG) (h : s.minCostInc = Int32.maxValue ∨ Found g s) : Found g (g.search m s) := by
  induction m generalizing s with
  | zero => exact absurd hk (Nat.not_lt_zero k)
  | succ m ih =>
    rw [CodingGroup.search]
    rcases Nat.lt_succ_iff_lt_or_eq.mp hk with hk | rfl
    · exact ih hk (Nat.le_of_succ_le hm) (visit_open h hm)
    · exact search_found (visit_finds h hm (candidate_after_first _ hne hafter)) (Nat.le_of_succ_le hm)

/-! ## The change of a level -/

/-- The levels between which the quantiser clips. -/
def InRange (r : ℕ) (x : ℤ) : Prop := -2 ^ r ≤ x ∧ x ≤ 2 ^ r - 1

/-- A level has the sign of its coefficient. -/
def Agrees (x coef : ℤ) : Prop := (0 < x → 0 ≤ coef) ∧ (x < 0 → coef < 0)

variable {r : ℕ}

theorem four_le_pow (hr : 2 ≤ r) : (4 : ℤ) ≤ 2 ^ r := by
  have hle : 2 ^ 2 ≤ 2 ^ r := Nat.pow_le_pow_right (by decide) hr
  exact_mod_cast hle

/-- The level `change` writes at a position. -/
def changed (r : ℕ) (x coef finalChange : ℤ) : ℤ :=
  let finalChange := if x = 2 ^ r - 1 ∨ x = -2 ^ r then -1 else finalChange
  if coef ≥ 0 then x + finalChange else x - finalChange

variable {x coef d : ℤ}

theorem changed_step (r : ℕ) (x coef : ℤ) (hd : d = 1 ∨ d = -1) : changed r x coef d = x + 1 ∨ changed r x coef d = x - 1 := by
  unfold changed
  dsimp only
  split_ifs <;> omega

theorem changed_inRange (hr : 2 ≤ r) (hx : InRange r x) (hagrees : Agrees x coef) (hd : d = 1 ∨ d = -1) :
    InRange r (changed r x coef d) := by
  have hpow := four_le_pow hr
  unfold InRange Agrees at *
  unfold changed
  dsimp only
  split_ifs <;> omega

/-- A level keeps its sign where it is not one that is made smaller. -/
theorem changed_sign (hr : 2 ≤ r) (hagrees : Agrees x coef) (hx : x ≠ 0)
    (hd : d = 1 ∨ d = -1 ∧ x.natAbs ≠ 1) : changed r x coef d ≠ 0 ∧ (changed r x coef d < 0 ↔ x < 0) := by
  have hpow := four_le_pow hr
  unfold Agrees at hagrees
  unfold changed
  dsimp only
  split_ifs <;> omega

/-- A new level has the sign of its coefficient. -/
theorem changed_zero (coef : ℤ) (hr : 2 ≤ r) : changed r 0 coef 1 ≠ 0 ∧ (changed r 0 coef 1 < 0 ↔ coef < 0) := by
  have hpow := four_le_pow hr
  unfold changed
  dsimp only
  split_ifs <;> omega

/-- The sub-block differs from what it was in the level `v` at `n`. -/
theorem change_eq (h : Found g s) : ∃ n < g.groupSize, ∃ d, Allowed g n d ∧
    g.change r s = some (Function.update g.pQCoef (g.blockPos n) (changed r (g.level n) (g.pCoef (g.blockPos n)) d)) := by
  obtain ⟨n, hn, hpos, hallowed⟩ := h
  refine ⟨n, hn, s.finalChange, hallowed, ?_⟩
  unfold CodingGroup.change
  rw [hpos, if_neg (by omega), Int.toNat_natCast]
  rfl

theorem allowed_step (h : Allowed g n d) : d = 1 ∨ d = -1 := by
  rcases h with ⟨-, h | ⟨h, -⟩⟩ | ⟨-, h, -⟩
  · exact .inl h
  · exact .inr h
  · exact .inl h

theorem signbit_eq_one (hne : g.level g.firstNZPosInCG ≠ 0) : g.signbit = 1 ↔ g.level g.firstNZPosInCG < 0 := by
  unfold CodingGroup.signbit
  split <;> omega

/-- The first level after the change has the sign that the first level had before. -/
theorem changed_first (hr : 2 ≤ r) (hspan : Span g.level g.groupSize g.firstNZPosInCG last) (hn : n < g.groupSize)
    (hagrees : Agrees (g.level n) (g.pCoef (g.blockPos n))) (hallowed : Allowed g n d)
    (hle : ∀ k < g.groupSize, k ≠ n → level' k = g.level k)
    (hchanged : level' n = changed r (g.level n) (g.pCoef (g.blockPos n)) d)
    (hspan' : Span level' g.groupSize first' last') : level' first' < 0 ↔ g.level g.firstNZPosInCG < 0 := by
  have hfirst : g.firstNZPosInCG < g.groupSize := Nat.lt_of_le_of_lt (hspan.first_le hspan.last_ne) hspan.last_lt
  have hsame : ∀ k, level' k ≠ 0 → (∀ j < k, level' j = 0) → first' = k := by
    intro k hne hbelow
    rcases Nat.lt_trichotomy first' k with hlt | heq | hlt
    · exact absurd (hbelow first' hlt) hspan'.first_ne
    · exact heq
    · exact absurd (hspan'.below k hlt) hne
  rcases Nat.lt_trichotomy n g.firstNZPosInCG with hlt | heq | hlt
  · -- a new first level
    have hzero := hspan.below n hlt
    rcases hallowed with ⟨hne, -⟩ | ⟨-, rfl, hsign⟩
    · exact absurd hzero hne
    rw [hzero] at hchanged
    obtain ⟨hne, hneg⟩ := changed_zero (g.pCoef (g.blockPos n)) hr
    rw [← hchanged] at hne hneg
    rw [hsame n hne fun j hj => (hle j (by omega) (by omega)).trans (hspan.below j (by omega)), hneg,
      ← signbit_eq_one hspan.first_ne, ← hsign hlt]
    split
    case isTrue hcoef => exact ⟨fun h => absurd hcoef (not_le.mpr h), fun h => absurd h Nat.zero_ne_one⟩
    case isFalse hcoef => exact ⟨fun _ => rfl, fun _ => not_le.mp hcoef⟩
  · -- the first level itself
    subst heq
    rcases hallowed with ⟨-, hd⟩ | ⟨hzero, -⟩
    · have hd' : d = 1 ∨ d = -1 ∧ (g.level g.firstNZPosInCG).natAbs ≠ 1 :=
        hd.imp_right fun h => ⟨h.1, fun habs => h.2 ⟨rfl, habs⟩⟩
      obtain ⟨hne, hneg⟩ := changed_sign hr hagrees hspan.first_ne hd'
      rw [← hchanged] at hne hneg
      rw [hsame _ hne fun j hj => (hle j (by omega) (by omega)).trans (hspan.below j hj), hneg]
    · exact absurd hzero hspan.first_ne
  · -- the first level stays
    have heq := hle g.firstNZPosInCG hfirst (by omega)
    rw [hsame g.firstNZPosInCG (heq ▸ hspan.first_ne) fun j hj =>
      (hle j (by omega) (by omega)).trans (hspan.below j hj), heq]

/-! ## A sub-block -/

/-- What the function makes of the levels of a sub-block. -/
structure Hidden (r size : ℕ) (level level' : ℕ → ℤ) : Prop where
  range : ∀ n < size, InRange r (level' n)
  close : ∀ n < size, (level' n - level n).natAbs ≤ 1
  one : ∃ k, ∀ n < size, n ≠ k → level' n = level n
  decodable : Decodable level' size

theorem Hidden.congr {new new' : ℕ → ℤ} (h : Hidden r size level new) (hle : ∀ n < size, level' n = level n)
    (hnew : ∀ n < size, new' n = new n) : Hidden r size level' new' := by
  obtain ⟨k, hone⟩ := h.one
  refine ⟨fun n hn => ?_, fun n hn => ?_, ⟨k, fun n hn hne => ?_⟩, fun first last hspan hwide => ?_⟩
  · rw [hnew n hn]
    exact h.range n hn
  · rw [hnew n hn, hle n hn]
    exact h.close n hn
  · rw [hnew n hn, hle n hn]
    exact hone n hn hne
  · have hspan' := hspan.congr fun n hn => (hnew n hn).symm
    rw [hnew first (Nat.lt_of_le_of_lt (hspan.first_le hspan.last_ne) hspan.last_lt), sumAbs_congr hnew]
    exact h.decodable first last hspan' hwide

theorem hidden_refl (hrange : ∀ n < size, InRange r (level n)) (hdecodable : Decodable level size) :
    Hidden r size level level where
  range := hrange
  close n _ := by simp
  one := ⟨0, fun n _ _ => rfl⟩
  decodable := hdecodable

/-- Only levels of the sub-block differ, and those that do are in range. -/
structure Frame (g : CodingGroup) (r : ℕ) (pQCoef : ℕ → ℤ) : Prop where
  outside : ∀ i, (∀ n < g.groupSize, i ≠ g.blockPos n) → pQCoef i = g.pQCoef i
  range : ∀ i, pQCoef i = g.pQCoef i ∨ InRange r (pQCoef i)

theorem hide_hidden (hr : 2 ≤ r) (lastCG : ℤ) (hinj : ∀ m < g.groupSize, ∀ n < g.groupSize, g.blockPos m = g.blockPos n → m = n)
    (hrange : ∀ n < g.groupSize, InRange r (g.level n))
    (hagrees : ∀ n < g.groupSize, Agrees (g.level n) (g.pCoef (g.blockPos n))) :
    ∃ pQCoef, g.hide r lastCG = some pQCoef ∧ Frame g r pQCoef ∧
      Hidden r g.groupSize g.level (fun n => pQCoef (g.blockPos n)) := by
  have hframe : Frame g r g.pQCoef := ⟨fun _ _ => rfl, fun _ => .inl rfl⟩
  unfold CodingGroup.hide
  split
  case isFalse hnarrow =>
    refine ⟨g.pQCoef, rfl, hframe, hidden_refl hrange fun first last hspan hwide => ?_⟩
    obtain ⟨hfirst, hlast⟩ := span_first hspan
    rw [hfirst, hlast] at hnarrow
    exact absurd hwide hnarrow
  case isTrue hwide =>
    obtain ⟨last, hlast, hspan⟩ := span_of_wide hwide
    have hparity := absSum_emod hspan hlast
    have hsignbit := signbit_eq_one hspan.first_ne
    have hbit : g.signbit = 0 ∨ g.signbit = 1 := by
      unfold CodingGroup.signbit
      split
      · exact .inl rfl
      · exact .inr rfl
    split
    case isFalse hagree =>
      refine ⟨g.pQCoef, rfl, hframe, hidden_refl hrange fun first last' hspan' _ => ?_⟩
      rw [← hspan.first_eq hspan', ← hsignbit, Nat.odd_iff]
      omega
    case isTrue hdiffer =>
      have hfound : Found g (g.search (if lastCG = 1 then g.lastNZPosInCG + 1 else g.groupSize : ℤ).toNat .start) := by
        have hlt := hspan.last_lt
        rw [hlast] at hwide ⊢
        rw [SBH_THRESHOLD] at hwide
        refine search_finds (k := last) ?_ ?_ hspan.last_ne (by omega) (.inl rfl) <;> split_ifs <;> omega
      obtain ⟨n, hn, d, hallowed, hchange⟩ := change_eq (r := r) hfound
      have hother : ∀ k < g.groupSize, k ≠ n → Function.update g.pQCoef (g.blockPos n)
          (changed r (g.level n) (g.pCoef (g.blockPos n)) d) (g.blockPos k) = g.level k :=
        fun k hk hne => Function.update_of_ne (fun heq => hne (hinj k hk n hn heq)) _ _
      have hself : Function.update g.pQCoef (g.blockPos n) (changed r (g.level n) (g.pCoef (g.blockPos n)) d)
          (g.blockPos n) = changed r (g.level n) (g.pCoef (g.blockPos n)) d := Function.update_self _ _ _
      have hstep := changed_step r (g.level n) (g.pCoef (g.blockPos n)) (allowed_step hallowed)
      have hin := changed_inRange hr (hrange n hn) (hagrees n hn) (allowed_step hallowed)
      refine ⟨_, hchange, ⟨fun i hi => Function.update_of_ne (hi n hn) _ _, fun i => ?_⟩,
        fun k hk => ?_, fun k hk => ?_, ⟨n, hother⟩, fun first last' hspan' _ => ?_⟩
      · by_cases hi : i = g.blockPos n
        · subst hi
          rw [hself]
          exact .inr hin
        · exact .inl (Function.update_of_ne hi _ _)
      · by_cases hne : k = n
        · subst hne
          rw [hself]
          exact hin
        · rw [hother k hk hne]
          exact hrange k hk
      · by_cases hne : k = n
        · subst hne
          rw [hself]
          omega
        · rw [hother k hk hne]
          simp
      · rw [changed_first hr hspan hn (hagrees n hn) hallowed hother hself hspan',
          odd_sumAbs_update hn hother (by rw [hself]; exact hstep), ← hsignbit, Nat.odd_iff]
        omega

/-! ## A transform block -/

variable (cctx : CoeffCodingContext) (pCoef : ℕ → ℤ)

/-- The sub-blocks of the block. -/
def subSets : ℕ := cctx.block.width * cctx.block.height / 2 ^ cctx.log2CGSize

/-- A place of a sub-block in the block. -/
def pos (subSet n : ℕ) : ℕ := cctx.blockPos (n + subSet <<< cctx.log2CGSize)

theorem subSets_mul : subSets cctx * 2 ^ cctx.log2CGSize = cctx.block.width * cctx.block.height :=
  Nat.div_mul_cancel ⟨_, (cctx.block.area_eq).trans (Nat.mul_comm _ _)⟩

/-- The loop over the sub-blocks begins with the last one. -/
theorem lastSubSet_eq :
    (cctx.block.width * cctx.block.height - 1) >>> cctx.log2CGSize + 1 = subSets cctx := by
  have hpos : 0 < cctx.block.width * cctx.block.height := Nat.mul_pos (Nat.two_pow_pos _) (Nat.two_pow_pos _)
  have hcg := Nat.two_pow_pos cctx.log2CGSize
  rw [← subSets_mul] at hpos ⊢
  have hsets := Nat.pos_of_mul_pos_right hpos
  rw [Nat.shiftRight_eq_div_pow, Nat.div_eq_of_lt_le]
  · exact Nat.sub_add_cancel hsets
  · rw [Nat.sub_mul]
    omega
  · rw [Nat.sub_add_cancel hsets]
    omega

variable {cctx pCoef} {subSet subSet' m : ℕ}

theorem scanPos_lt (hsub : subSet < subSets cctx) (hn : n < 2 ^ cctx.log2CGSize) :
    n + subSet <<< cctx.log2CGSize < cctx.block.width * cctx.block.height := by
  have hmul := Nat.mul_le_mul_right (2 ^ cctx.log2CGSize) (Nat.succ_le_of_lt hsub)
  rw [subSets_mul, Nat.succ_mul] at hmul
  rw [Nat.shiftLeft_eq]
  omega

theorem pos_inj (hsub : subSet < subSets cctx) (hsub' : subSet' < subSets cctx) (hn : n < 2 ^ cctx.log2CGSize)
    (hm : m < 2 ^ cctx.log2CGSize) (h : pos cctx subSet n = pos cctx subSet' m) : subSet = subSet' ∧ n = m := by
  have hscan := cctx.block.scanGrouped_idx_inj (scanPos_lt hsub hn) (scanPos_lt hsub' hm) h
  rw [Nat.shiftLeft_eq, Nat.shiftLeft_eq] at hscan
  obtain ⟨heq, hsets⟩ := BlockSize.block_inj hn hm hscan
  exact ⟨hsets, heq⟩

theorem pos_lt (hsub : subSet < subSets cctx) (hn : n < 2 ^ cctx.log2CGSize) :
    pos cctx subSet n < cctx.block.width * cctx.block.height :=
  cctx.block.scanGrouped_idx_lt (scanPos_lt hsub hn)

variable {pQCoef : ℕ → ℤ}

/-- The levels of a sub-block are in range and have the signs of their coefficients. -/
def Quantised (cctx : CoeffCodingContext) (r : ℕ) (pCoef pQCoef : ℕ → ℤ) (subSet : ℕ) : Prop :=
  ∀ n < 2 ^ cctx.log2CGSize, InRange r (pQCoef (pos cctx subSet n)) ∧
    Agrees (pQCoef (pos cctx subSet n)) (pCoef (pos cctx subSet n))

theorem hideSubSet_hidden (deltaU : ℕ → Int32) (hr : 2 ≤ r) (hsub : subSet < subSets cctx) {s : TuLevels}
    (hq : Quantised cctx r pCoef s.pQCoef subSet) :
    ∃ s', hideSubSet cctx pCoef deltaU r subSet s = some s' ∧
      (∀ i, (∀ n < 2 ^ cctx.log2CGSize, i ≠ pos cctx subSet n) → s'.pQCoef i = s.pQCoef i) ∧
      (∀ i, s'.pQCoef i = s.pQCoef i ∨ InRange r (s'.pQCoef i)) ∧
      Hidden r (2 ^ cctx.log2CGSize) (fun n => s.pQCoef (pos cctx subSet n)) (fun n => s'.pQCoef (pos cctx subSet n)) := by
  have hsize : (codingGroup cctx pCoef deltaU subSet s.pQCoef).groupSize = 2 ^ cctx.log2CGSize := Nat.one_shiftLeft _
  unfold hideSubSet
  dsimp only
  generalize (if (codingGroup cctx pCoef deltaU subSet s.pQCoef).lastNZPosInCG ≥ 0 ∧ s.lastCG = -1 then 1
    else s.lastCG : ℤ) = lastCG
  obtain ⟨pQCoef, hhide, hframe, hhidden⟩ := hide_hidden (g := codingGroup cctx pCoef deltaU subSet s.pQCoef) hr lastCG
    (fun m hm n hn h => (pos_inj hsub hsub (hsize ▸ hm) (hsize ▸ hn) h).2)
    (fun n hn => (hq n (hsize ▸ hn)).1) (fun n hn => (hq n (hsize ▸ hn)).2)
  rw [hsize] at hhidden
  refine ⟨⟨pQCoef, if lastCG = 1 then 0 else lastCG⟩, by rw [hhide]; rfl, fun i hi => hframe.outside i ?_, hframe.range, hhidden⟩
  rw [hsize]
  exact hi

/-- Each sub-block is changed on its own. -/
theorem hideSubSets_hidden (deltaU : ℕ → Int32) (hr : 2 ≤ r) {k : ℕ} (hk : k ≤ subSets cctx) {s : TuLevels}
    (hq : ∀ j < k, Quantised cctx r pCoef s.pQCoef j) :
    ∃ s', hideSubSets cctx pCoef deltaU r k s = some s' ∧
      (∀ i, (∀ j < k, ∀ n < 2 ^ cctx.log2CGSize, i ≠ pos cctx j n) → s'.pQCoef i = s.pQCoef i) ∧
      (∀ i, s'.pQCoef i = s.pQCoef i ∨ InRange r (s'.pQCoef i)) ∧
      ∀ j < k, Hidden r (2 ^ cctx.log2CGSize) (fun n => s.pQCoef (pos cctx j n)) (fun n => s'.pQCoef (pos cctx j n)) := by
  induction k generalizing s with
  | zero => exact ⟨s, rfl, fun _ _ => rfl, fun _ => .inl rfl, fun j hj => absurd hj (Nat.not_lt_zero j)⟩
  | succ k ih =>
    obtain ⟨s1, hs1, houtside1, hrange1, hhidden1⟩ := hideSubSet_hidden deltaU hr hk (hq k (Nat.lt_succ_self k))
    -- the sub-blocks that follow are as they were
    have hkeep : ∀ j < k, ∀ n < 2 ^ cctx.log2CGSize, s1.pQCoef (pos cctx j n) = s.pQCoef (pos cctx j n) :=
      fun j hj n hn => houtside1 _ fun m hm heq =>
        (Nat.ne_of_lt hj) (pos_inj (hj.trans hk) hk hn hm heq).1
    obtain ⟨s2, hs2, houtside2, hrange2, hhidden2⟩ := ih (Nat.le_of_succ_le hk) fun j hj n hn => by
      rw [hkeep j hj n hn]
      exact hq j (Nat.lt_succ_of_lt hj) n hn
    refine ⟨s2, by rw [hideSubSets, hs1]; exact hs2, fun i hi => ?_, fun i => ?_, fun j hj => ?_⟩
    · rw [houtside2 i fun j hj => hi j (Nat.lt_succ_of_lt hj), houtside1 i (hi k (Nat.lt_succ_self k))]
    · rcases hrange2 i with heq | hin
      · rw [heq]
        exact hrange1 i
      · exact .inr hin
    · rcases Nat.lt_succ_iff_lt_or_eq.mp hj with hj | rfl
      · exact (hhidden2 j hj).congr (fun n hn => (hkeep j hj n hn).symm) fun n hn => rfl
      · exact hhidden1.congr (fun n hn => rfl) fun n hn => houtside2 _ fun i hi m hm heq =>
          (Nat.ne_of_gt hi) (pos_inj hk (hi.trans hk) hn hm heq).1

/-- The quantiser never asks for less. -/
theorem two_le_getMaxLog2TrDynamicRange (flag : Bool) (bitDepth : ℕ) : 2 ≤ getMaxLog2TrDynamicRange flag bitDepth := by
  unfold getMaxLog2TrDynamicRange
  split <;> omega

/-- Every block of levels is made decodable: no index is negative, and each sub-block
keeps all levels but one, by one, within the range. -/
theorem xSignBitHidingHDQ_hidden (cctx : CoeffCodingContext) (pCoef : ℕ → ℤ) (deltaU : ℕ → Int32) (r : ℕ) (hr : 2 ≤ r)
    (pQCoef : ℕ → ℤ) (hrange : ∀ i < cctx.block.width * cctx.block.height, InRange r (pQCoef i))
    (hagrees : ∀ i < cctx.block.width * cctx.block.height, Agrees (pQCoef i) (pCoef i)) :
    ∃ levels, xSignBitHidingHDQ cctx pCoef deltaU r pQCoef = some levels ∧
      (∀ i < cctx.block.width * cctx.block.height, InRange r (levels i)) ∧
      ∀ subSet < subSets cctx, Hidden r (2 ^ cctx.log2CGSize) (fun n => pQCoef (pos cctx subSet n))
        (fun n => levels (pos cctx subSet n)) := by
  obtain ⟨s, hs, -, hin, hhidden⟩ := hideSubSets_hidden deltaU (s := ⟨pQCoef, -1⟩) hr (Nat.le_refl (subSets cctx))
    fun j hj n hn => ⟨hrange _ (pos_lt hj hn), hagrees _ (pos_lt hj hn)⟩
  refine ⟨s.pQCoef, ?_, fun i hi => ?_, hhidden⟩
  · unfold xSignBitHidingHDQ
    dsimp only
    rw [lastSubSet_eq, hs]
    rfl
  · rcases hin i with heq | hin
    · rw [heq]
      exact hrange i hi
    · exact hin

theorem log2_four_le : 2 ≤ 8 := by decide

/-- A block of 4x4. -/
def fourByFour : CoeffCodingContext where
  block := ⟨2, 2, log2_four_le, log2_four_le⟩
  chType := .luma
  signHiding := true
  maxLog2TrDynamicRange := 15
  bSignPredQualified := false
  scanPosLast := 0
  subSetId := 0
  sigCoeffGroupFlag := fun _ => false
  tmplCpSum1 := -1
  tmplCpDiag := -1
  regBinLimit := 0

/-- A level of minus one at two corners. -/
def corners (i : ℕ) : ℤ := if i = 0 ∨ i = 15 then -1 else 0

theorem xSignBitHidingHDQ_hidden_corners :
    ∃ levels, xSignBitHidingHDQ fourByFour corners (fun _ => 0) 15 corners = some levels ∧
      (∀ i < 16, InRange 15 (levels i)) ∧
      ∀ subSet < subSets fourByFour, Hidden 15 (2 ^ fourByFour.log2CGSize) (fun n => corners (pos fourByFour subSet n))
        (fun n => levels (pos fourByFour subSet n)) := by
  refine xSignBitHidingHDQ_hidden fourByFour corners (fun _ => 0) 15 (by decide) corners (fun i _ => ?_) (fun i _ => ?_)
  · unfold InRange corners
    split <;> decide
  · unfold Agrees corners
    split <;> decide

end ECM.Residual.SignBitHiding
