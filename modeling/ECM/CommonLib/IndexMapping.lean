import Mathlib.Order.Lattice
import Mathlib.Data.List.Range
import Mathlib.Data.List.Perm.Subperm
import ECM.Lib.Selection

/-! # Sorting through an index table

`getIndexMappingTableToSortedArray1D` keeps the best values seen so far in a local
array and their positions in the table beside it. The type of the table is a
parameter with its conversion from an array position, the local array starts with
whatever the stack holds. -/

namespace ECM.CommonLib.IndexMapping
open Lib.Selection

variable {InputValueType OutputIndexType : Type} [LinearOrder InputValueType]

/-- The part of `sortedlist` still searched: `subList` is its offset in there. -/
structure SubList where
  subList : ℕ
  subListSize : ℕ
  insertIdx : ℕ

/-- One round of the binary search. -/
def SubList.halve (v : InputValueType) (sortedlist : ℕ → InputValueType) (s : SubList) : SubList :=
  let middleIdx := s.subListSize >>> 1
  if v < sortedlist (s.subList + middleIdx) then
    { s with subListSize := middleIdx }
  else
    { subList := s.subList + middleIdx
      subListSize := s.subListSize - middleIdx
      insertIdx := s.insertIdx + middleIdx }

theorem SubList.halve_lt (v : InputValueType) (sortedlist : ℕ → InputValueType) {s : SubList}
    (h : 1 < s.subListSize) : (s.halve v sortedlist).subListSize < s.subListSize := by
  have hhalf : s.subListSize >>> 1 = s.subListSize / 2 := Nat.shiftRight_eq_div_pow _ 1
  unfold SubList.halve
  dsimp only
  rw [hhalf]
  split
  · exact Nat.div_lt_self (by omega) (by omega)
  · exact Nat.sub_lt (by omega) (by omega)

def SubList.search (v : InputValueType) (sortedlist : ℕ → InputValueType) (s : SubList) : SubList :=
  if h : 1 < s.subListSize then
    have := SubList.halve_lt v sortedlist h
    (s.halve v sortedlist).search v sortedlist
  else s
termination_by s.subListSize

/-- The index at which `v` goes into a list of `numValidInList` values. -/
def findInsertIdx (v : InputValueType) (sortedlist : ℕ → InputValueType) (numValidInList : ℕ) : ℕ :=
  let s := SubList.search v sortedlist ⟨0, numValidInList, 0⟩
  s.insertIdx + (if v < sortedlist s.subList then 0 else 1)

/-- The local array and the table. -/
structure Lists (InputValueType OutputIndexType : Type) where
  sortedlist : ℕ → InputValueType
  tbl : ℕ → OutputIndexType
  numValidInList : ℕ

namespace Lists

def set (s : Lists InputValueType OutputIndexType) (i : ℕ) (v : InputValueType)
    (idx : OutputIndexType) : Lists InputValueType OutputIndexType :=
  { s with sortedlist := Function.update s.sortedlist i v, tbl := Function.update s.tbl i idx }

/-- `for (int i = startIdx; i > insertIdx; --i)` -/
def shift (insertIdx : ℕ) : ℕ → Lists InputValueType OutputIndexType → Lists InputValueType OutputIndexType
  | 0, s => s
  | i + 1, s =>
    if i + 1 > insertIdx then shift insertIdx i (s.set (i + 1) (s.sortedlist i) (s.tbl i)) else s

end Lists

/-- The body of the loop over the input array; `cast` converts to `OutputIndexType`. -/
def insertValue (cast : ℕ → OutputIndexType) (input : ℕ → InputValueType) (outputIndexArraySize : ℕ)
    (s : Lists InputValueType OutputIndexType) (inIdx : ℕ) : Lists InputValueType OutputIndexType :=
  let insertIdx := findInsertIdx (input inIdx) s.sortedlist s.numValidInList
  if insertIdx < outputIndexArraySize then
    let grows := s.numValidInList < outputIndexArraySize
    let startIdx := if grows then s.numValidInList else outputIndexArraySize - 1
    let s := { s with numValidInList := if grows then s.numValidInList + 1 else s.numValidInList }
    (s.shift insertIdx startIdx).set insertIdx (input inIdx) (cast inIdx)
  else s

/-- The table and the number of valid entries are in the state returned. -/
def getIndexMappingTableToSortedArray1D (cast : ℕ → OutputIndexType) (input : ℕ → InputValueType)
    (inputValueArraySize outputIndexArraySize : ℕ) (memory : Lists InputValueType OutputIndexType) :
    Lists InputValueType OutputIndexType :=
  let s := { memory.set 0 (input 0) (cast 0) with numValidInList := 1 }
  (List.range' 1 (inputValueArraySize - 1)).foldl (insertValue cast input outputIndexArraySize) s

/-! ## The binary search -/

/-- The place of `v` lies in the part still searched. -/
structure SubList.Encloses (v : InputValueType) (sortedlist : ℕ → InputValueType) (n : ℕ)
    (s : SubList) : Prop where
  offset : s.subList = s.insertIdx
  pos : 0 < s.subListSize
  inside : s.subList + s.subListSize ≤ n
  below : ∀ j < s.subList, sortedlist j ≤ v
  above : ∀ j < n, s.subList + s.subListSize ≤ j → v < sortedlist j

section
variable {v : InputValueType} {sortedlist : ℕ → InputValueType} {n : ℕ} {s : SubList}

theorem SubList.Encloses.halve (h : s.Encloses v sortedlist n)
    (hs : ∀ i j, i ≤ j → j < n → sortedlist i ≤ sortedlist j) (hsize : 1 < s.subListSize) :
    (s.halve v sortedlist).Encloses v sortedlist n := by
  have hhalf : s.subListSize >>> 1 = s.subListSize / 2 := Nat.shiftRight_eq_div_pow _ 1
  have hin := h.inside
  unfold SubList.halve
  dsimp only
  rw [hhalf]
  split
  case isTrue hlt =>
    refine ⟨h.offset, ?_, ?_, h.below, fun j hj hle => lt_of_lt_of_le hlt (hs _ j hle hj)⟩
    · dsimp only
      omega
    · dsimp only
      omega
  case isFalse hge =>
    refine ⟨congrArg (· + s.subListSize / 2) h.offset, ?_, ?_, fun j hj => ?_, fun j hj hle => ?_⟩
    · dsimp only
      omega
    · dsimp only
      omega
    · dsimp only at hj
      exact le_trans (hs j _ (Nat.le_of_lt hj) (by omega)) (le_of_not_gt hge)
    · dsimp only at hle
      exact h.above j hj (by omega)

theorem SubList.Encloses.search (h : s.Encloses v sortedlist n)
    (hs : ∀ i j, i ≤ j → j < n → sortedlist i ≤ sortedlist j) :
    (s.search v sortedlist).Encloses v sortedlist n ∧ (s.search v sortedlist).subListSize ≤ 1 := by
  induction s using SubList.search.induct v sortedlist with
  | case1 s hsize _ ih =>
    rw [SubList.search, dif_pos hsize]
    exact ih (h.halve hs hsize)
  | case2 s hsize =>
    rw [SubList.search, dif_neg hsize]
    exact ⟨h, Nat.le_of_not_lt hsize⟩

/-- The search ends behind the values not above `v` and in front of the others. -/
theorem findInsertIdx_spec (hn : 0 < n) (hs : ∀ i j, i ≤ j → j < n → sortedlist i ≤ sortedlist j) :
    findInsertIdx v sortedlist n ≤ n ∧ (∀ j < findInsertIdx v sortedlist n, sortedlist j ≤ v) ∧
      ∀ j < n, findInsertIdx v sortedlist n ≤ j → v < sortedlist j := by
  have hstart : SubList.Encloses v sortedlist n ⟨0, n, 0⟩ :=
    ⟨rfl, hn, Nat.le_of_eq (Nat.zero_add n), fun j hj => absurd hj (Nat.not_lt_zero j),
      fun j hj hle => absurd hj (Nat.not_lt.mpr ((Nat.zero_add n).symm.trans_le hle))⟩
  obtain ⟨h, hsize⟩ := hstart.search hs
  unfold findInsertIdx
  dsimp only
  generalize SubList.search v sortedlist ⟨0, n, 0⟩ = s at h hsize
  have hoff := h.offset
  have hpos := h.pos
  have hin := h.inside
  split
  case isTrue hlt =>
    refine ⟨by omega, fun j hj => h.below j (by omega), fun j hj hle => ?_⟩
    exact lt_of_lt_of_le hlt (hs _ j (by omega) hj)
  case isFalse hge =>
    refine ⟨by omega, fun j hj => ?_, fun j hj hle => h.above j hj (by omega)⟩
    exact le_trans (hs j s.subList (by omega) (by omega)) (le_of_not_gt hge)

end

/-! ## One value -/

section
variable {cast : ℕ → OutputIndexType} {input : ℕ → InputValueType} {outputIndexArraySize : ℕ}
  {s : Lists InputValueType OutputIndexType} {positions : List ℕ}

omit [LinearOrder InputValueType] in
theorem Lists.shift_apply (k i : ℕ) (s : Lists InputValueType OutputIndexType) :
    (s.shift k i).numValidInList = s.numValidInList ∧ ∀ j,
      (s.shift k i).sortedlist j = (if k < j ∧ j ≤ i then s.sortedlist (j - 1) else s.sortedlist j) ∧
      (s.shift k i).tbl j = (if k < j ∧ j ≤ i then s.tbl (j - 1) else s.tbl j) := by
  induction i generalizing s with
  | zero =>
    refine ⟨rfl, fun j => ?_⟩
    rw [if_neg (by omega), if_neg (by omega)]
    exact ⟨rfl, rfl⟩
  | succ i ih =>
    unfold Lists.shift
    split
    case isTrue hlt =>
      obtain ⟨hnum, happly⟩ := ih (s.set (i + 1) (s.sortedlist i) (s.tbl i))
      refine ⟨hnum, fun j => ?_⟩
      rw [(happly j).1, (happly j).2]
      dsimp only [Lists.set]
      by_cases hj : j = i + 1
      · subst hj
        rw [if_neg (by omega), if_pos (by omega), if_neg (by omega), if_pos (by omega),
          Function.update_self, Function.update_self]
        exact ⟨rfl, rfl⟩
      have hrange : (k < j ∧ j ≤ i) ↔ k < j ∧ j ≤ i + 1 := by omega
      rw [Function.update_of_ne hj, Function.update_of_ne hj]
      simp only [hrange]
      split
      case isTrue h =>
        rw [Function.update_of_ne (by omega), Function.update_of_ne (by omega)]
        exact ⟨rfl, rfl⟩
      case isFalse => exact ⟨rfl, rfl⟩
    case isFalse hge =>
      refine ⟨rfl, fun j => ?_⟩
      rw [if_neg (by omega), if_neg (by omega)]
      exact ⟨rfl, rfl⟩

/-- Position `p` goes before `q`: a smaller value, or an equal one further to the front. -/
def Before (input : ℕ → InputValueType) (p q : ℕ) : Prop :=
  input p ≤ input q ∧ (input p = input q → p < q)

theorem Before.trans {p q r : ℕ} (hpq : Before input p q) (hqr : Before input q r) :
    Before input p r := by
  refine ⟨le_trans hpq.1 hqr.1, fun heq => ?_⟩
  have hq : input p = input q := le_antisymm hpq.1 (heq ▸ hqr.1)
  exact Nat.lt_trans (hpq.2 hq) (hqr.2 (hq.symm.trans heq))

/-- The two arrays hold the values at these positions and the positions themselves. -/
structure Lists.Holds (cast : ℕ → OutputIndexType) (input : ℕ → InputValueType)
    (s : Lists InputValueType OutputIndexType) (positions : List ℕ) : Prop where
  count : s.numValidInList = positions.length
  entries : ∀ j p, positions[j]? = some p → s.sortedlist j = input p ∧ s.tbl j = cast p

theorem Lists.Holds.sorted (h : s.Holds cast input positions) (ho : positions.Pairwise (Before input)) :
    ∀ i j, i ≤ j → j < s.numValidInList → s.sortedlist i ≤ s.sortedlist j := by
  intro i j hij hj
  rw [h.count] at hj
  rw [(h.entries i _ (List.getElem?_eq_getElem (Nat.lt_of_le_of_lt hij hj))).1,
    (h.entries j _ (List.getElem?_eq_getElem hj)).1]
  rcases Nat.eq_or_lt_of_le hij with rfl | hlt
  · exact le_refl _
  · exact (List.pairwise_iff_getElem.mp ho i j _ hj hlt).1

theorem getElem?_insertAt {k x : ℕ} (hk : k ≤ positions.length) (j : ℕ) :
    (insertAt k x positions)[j]? =
      if j < k then positions[j]? else if j = k then some x else positions[j - 1]? := by
  have hlen : (positions.take k).length = k := List.length_take_of_le hk
  unfold insertAt
  split
  case isTrue hlt => rw [List.getElem?_append_left (by omega), List.getElem?_take_of_lt hlt]
  case isFalse hge =>
    rw [List.getElem?_append_right (by omega), hlen]
    split
    case isTrue heq => rw [heq, Nat.sub_self, List.getElem?_cons_zero]
    case isFalse hne =>
      obtain ⟨d, rfl⟩ : ∃ d, j = k + (d + 1) := ⟨j - k - 1, by omega⟩
      rw [Nat.add_sub_cancel_left, List.getElem?_cons_succ, List.getElem?_drop]
      rfl

/-- Once around the loop a value is put at its place, what stands past the array is lost. -/
theorem insertValue_holds (h : s.Holds cast input positions) (hK : positions.length ≤ outputIndexArraySize)
    {k inIdx : ℕ} (hk : findInsertIdx (input inIdx) s.sortedlist s.numValidInList = k)
    (hle : k ≤ positions.length) :
    (insertValue cast input outputIndexArraySize s inIdx).Holds cast input
      ((insertAt k inIdx positions).take outputIndexArraySize) := by
  unfold insertValue
  dsimp only
  rw [hk, h.count]
  split
  case isTrue hlt =>
    generalize hstart : (if positions.length < outputIndexArraySize then positions.length
      else outputIndexArraySize - 1) = startIdx
    generalize hnum : (if positions.length < outputIndexArraySize then positions.length + 1
      else positions.length) = num
    obtain ⟨hcount, hshift⟩ := Lists.shift_apply k startIdx { s with numValidInList := num }
    refine ⟨?_, fun j p hp => ?_⟩
    · rw [List.length_take, insertAt_length]
      refine hcount.trans ?_
      dsimp only
      split at hnum <;> omega
    rw [List.getElem?_take] at hp
    split at hp
    case isFalse => exact absurd hp nofun
    case isTrue hj =>
    rw [getElem?_insertAt hle] at hp
    dsimp only [Lists.set]
    rcases Nat.lt_trichotomy j k with hjk | rfl | hjk
    · rw [if_pos hjk] at hp
      rw [Function.update_of_ne (Nat.ne_of_lt hjk), Function.update_of_ne (Nat.ne_of_lt hjk),
        (hshift j).1, (hshift j).2, if_neg (by omega), if_neg (by omega)]
      exact h.entries j p hp
    · rw [if_neg (Nat.lt_irrefl j), if_pos rfl] at hp
      obtain rfl := Option.some.inj hp
      rw [Function.update_self, Function.update_self]
      exact ⟨rfl, rfl⟩
    · rw [if_neg (by omega), if_neg (Nat.ne_of_gt hjk)] at hp
      have hlen : j - 1 < positions.length := (List.getElem?_eq_some_iff.mp hp).1
      have hin : k < j ∧ j ≤ startIdx := by
        split at hstart <;> omega
      rw [Function.update_of_ne (Nat.ne_of_gt hjk), Function.update_of_ne (Nat.ne_of_gt hjk),
        (hshift j).1, (hshift j).2, if_pos hin, if_pos hin]
      exact h.entries (j - 1) p hp
  case isFalse hge =>
    have hfull : (insertAt k inIdx positions).take outputIndexArraySize = positions := by
      have hk : positions.length = k := by omega
      have hK : positions.length = outputIndexArraySize := by omega
      rw [insertAt, List.take_of_length_le (Nat.le_of_eq hk), ← hK, List.take_left' rfl]
    rw [hfull]
    exact h

/-- The loop invariant: the table lists the best positions before `inIdx`. -/
structure BestBefore (cast : ℕ → OutputIndexType) (input : ℕ → InputValueType) (limit inIdx : ℕ)
    (s : Lists InputValueType OutputIndexType) (positions : List ℕ) : Prop where
  holds : s.Holds cast input positions
  pos : 0 < positions.length
  selects : Selects (Before input) limit (List.range inIdx).reverse positions

theorem insertValue_best {inIdx : ℕ} (h : BestBefore cast input outputIndexArraySize inIdx s positions) :
    ∃ positions', BestBefore cast input outputIndexArraySize (inIdx + 1)
      (insertValue cast input outputIndexArraySize s inIdx) positions' := by
  have hcount := h.holds.count
  have hbefore : ∀ p ∈ positions, p < inIdx := fun p hp =>
    List.mem_range.mp (List.mem_reverse.mp (h.selects.inside p hp))
  obtain ⟨hle, hlow, hhigh⟩ := findInsertIdx_spec (v := input inIdx) (hcount ▸ h.pos)
    (h.holds.sorted h.selects.ordered)
  generalize hk : findInsertIdx (input inIdx) s.sortedlist s.numValidInList = k at hle hlow hhigh
  rw [hcount] at hle hhigh
  refine ⟨_, insertValue_holds h.holds h.selects.length_le hk hle, ?_, ?_⟩
  · rw [List.length_take, insertAt_length]
    have hlimit := h.selects.length_le
    have hpos := h.pos
    omega
  · rw [List.range_succ, List.reverse_append, List.reverse_singleton, List.singleton_append]
    refine h.selects.insert Before.trans (fun hmem => Nat.lt_irrefl _ (hbefore _ hmem)) ?_ ?_
    · intro p hp
      obtain ⟨j, hj⟩ := List.getElem?_of_mem hp
      rw [List.getElem?_take] at hj
      split at hj
      case isFalse => exact absurd hj nofun
      case isTrue hjk =>
      refine ⟨(h.holds.entries j p hj).1 ▸ hlow j hjk, fun _ => ?_⟩
      exact hbefore p (List.mem_of_mem_take hp)
    · intro p hp
      obtain ⟨j, hj⟩ := List.getElem?_of_mem hp
      rw [List.getElem?_drop] at hj
      have hlt : input inIdx < input p := by
        rw [← (h.holds.entries _ p hj).1]
        exact hhigh _ (List.getElem?_eq_some_iff.mp hj).1 (Nat.le_add_right k j)
      exact ⟨le_of_lt hlt, fun heq => absurd heq (ne_of_lt hlt)⟩

theorem insertValues_best (count start : ℕ) (h : BestBefore cast input outputIndexArraySize start s positions) :
    ∃ positions', BestBefore cast input outputIndexArraySize (start + count)
      ((List.range' start count).foldl (insertValue cast input outputIndexArraySize) s) positions' := by
  induction count generalizing start s positions with
  | zero => exact ⟨positions, h⟩
  | succ count ih =>
    obtain ⟨positions', h'⟩ := insertValue_best h
    rw [List.range'_succ, List.foldl_cons, ← Nat.add_assoc, Nat.add_right_comm]
    exact ih (start + 1) h'

/-- No more positions than there are values, and all of them where the list is not full. -/
theorem selects_length {n limit : ℕ}
    (h : Selects (Before input) limit (List.range n).reverse positions) :
    positions.Nodup ∧ positions.length = min n limit := by
  have hnodup : positions.Nodup := by
    refine h.ordered.imp fun {p q} hpq heq => ?_
    subst heq
    exact Nat.lt_irrefl p (hpq.2 rfl)
  have hle : positions.length ≤ n := by
    have := (hnodup.subperm fun p hp => h.inside p hp).length_le
    rwa [List.length_reverse, List.length_range] at this
  have hlimit := h.length_le
  refine ⟨hnodup, ?_⟩
  by_cases hfull : positions.length < limit
  · have hrange : (List.range n).reverse.Nodup := List.nodup_reverse.mpr List.nodup_range
    have := (hrange.subperm fun q hq => h.all hfull q hq).length_le
    rw [List.length_reverse, List.length_range] at this
    omega
  · omega

end

/-- The table lists the positions of the smallest values in order, an equal value further to
the front first; they are as many as the table or the input array holds. -/
theorem getIndexMappingTableToSortedArray1D_selects (cast : ℕ → OutputIndexType)
    (input : ℕ → InputValueType) (inputValueArraySize outputIndexArraySize : ℕ)
    (memory : Lists InputValueType OutputIndexType)
    (hn : 0 < inputValueArraySize) (hK : 0 < outputIndexArraySize) :
    ∃ positions : List ℕ,
      let s := getIndexMappingTableToSortedArray1D cast input inputValueArraySize
        outputIndexArraySize memory
      s.numValidInList = min inputValueArraySize outputIndexArraySize ∧
      (List.range s.numValidInList).map s.tbl = positions.map cast ∧
      positions.length = min inputValueArraySize outputIndexArraySize ∧
      positions.Nodup ∧
      (∀ p ∈ positions, p < inputValueArraySize) ∧
      positions.Pairwise (fun p q => input p ≤ input q ∧ (input p = input q → p < q)) ∧
      ∀ p ∈ positions, ∀ q < inputValueArraySize, q ∉ positions →
        input p ≤ input q ∧ (input p = input q → p < q) := by
  have hstart : BestBefore cast input outputIndexArraySize 1
      { memory.set 0 (input 0) (cast 0) with numValidInList := 1 } [0] := by
    refine ⟨⟨rfl, fun j p hp => ?_⟩, Nat.one_pos, ⟨?_, List.pairwise_singleton _ _, ?_, hK, ?_⟩⟩
    · obtain ⟨hj, rfl⟩ := List.getElem?_eq_some_iff.mp hp
      obtain rfl : j = 0 := Nat.lt_one_iff.mp hj
      exact ⟨@Function.update_self ℕ (fun _ => InputValueType) _ 0 (input 0) memory.sortedlist,
        @Function.update_self ℕ (fun _ => OutputIndexType) _ 0 (cast 0) memory.tbl⟩
    · exact fun p hp => hp
    · exact fun p hp q hq hnot => absurd hq hnot
    · exact fun _ q hq => hq
  obtain ⟨positions, h⟩ := insertValues_best (inputValueArraySize - 1) 1 hstart
  rw [Nat.add_sub_cancel' hn] at h
  obtain ⟨hnodup, hlength⟩ := selects_length h.selects
  refine ⟨positions, h.holds.count.trans hlength, ?_, hlength, hnodup, fun p hp => ?_,
    h.selects.ordered, fun p hp q hq hnot => ?_⟩
  · refine List.ext_getElem? fun j => ?_
    rw [List.getElem?_map, List.getElem?_map]
    by_cases hj : j < positions.length
    · have hp := List.getElem?_eq_getElem hj
      have hcount := h.holds.count
      rw [hp, List.getElem?_range (hcount.symm ▸ hj)]
      exact congrArg some (h.holds.entries j _ hp).2
    · have hcount := h.holds.count
      rw [List.getElem?_eq_none (Nat.le_of_not_lt hj), List.getElem?_eq_none (by
        rw [List.length_range]
        exact Nat.le_of_not_lt (hcount.symm ▸ hj))]
      rfl
  · exact List.mem_range.mp (List.mem_reverse.mp (h.selects.inside p hp))
  · exact h.selects.best p hp q (List.mem_reverse.mpr (List.mem_range.mpr hq)) hnot

/-- A table of three for five values, two of them twice in the array. -/
theorem getIndexMappingTableToSortedArray1D_selects_three :
    (getIndexMappingTableToSortedArray1D UInt8.ofNat (fun i => [5, 3, 5, 1, 3].getD i 0) 5 3
      ⟨fun _ => 0, fun _ => 0, 0⟩).numValidInList = 3 := by
  obtain ⟨positions, hcount, -⟩ := getIndexMappingTableToSortedArray1D_selects UInt8.ofNat
    (fun i => [5, 3, 5, 1, 3].getD i 0) 5 3 ⟨fun _ => 0, fun _ => 0, 0⟩ (by decide) (by decide)
  exact hcount

end ECM.CommonLib.IndexMapping
