import ECM.CommonLib.RefIdxTables

/-! # Combined reference lists and their index tables

`Indexed` is what a list and a table of positions have to do with each other while entries
are appended and their positions recorded. The lists that are not sorted afterwards stay
in this relation with their tables. -/

namespace ECM.RefPics
open CommonLib CommonLib.RefPicList Lib.Loop Function List

/-! ## Lists with a table of positions -/

section
variable {κ : Type} {D : κ → Prop} {idx : κ → ℤ} {xs : List κ} {k : κ}

/-- The table has the position of each key of the list, and -1 for any other one of `D`. -/
structure Indexed (D : κ → Prop) (idx : κ → ℤ) (xs : List κ) : Prop where
  at_idx : ∀ k ∈ xs, ∃ n : ℕ, idx k = n ∧ xs[n]? = some k
  absent : ∀ k, D k → k ∉ xs → idx k = -1
  nodup : xs.Nodup

theorem indexed_nil (h : ∀ k, D k → idx k = -1) : Indexed D idx [] where
  at_idx _ hk := absurd hk not_mem_nil
  absent k hD _ := h k hD
  nodup := nodup_nil

/-- A new key at the end, with its position. -/
theorem Indexed.push [DecidableEq κ] (h : Indexed D idx xs) (hk : k ∉ xs) :
    Indexed D (update idx k xs.length) (xs ++ [k]) where
  at_idx i hi := by
    rcases mem_append.mp hi with hi | hi
    · obtain ⟨n, hn, hget⟩ := h.at_idx i hi
      have hne : i ≠ k := fun e => hk (e ▸ hi)
      refine ⟨n, by rw [update_of_ne hne, hn], ?_⟩
      rw [List.getElem?_append_left (List.getElem?_eq_some_iff.mp hget).1, hget]
    · obtain rfl := mem_singleton.mp hi
      exact ⟨xs.length, update_self .., by simp⟩
  absent i hD hi := by
    have hxs : i ∉ xs := fun hmem => hi (mem_append_left _ hmem)
    have hne : i ≠ k := fun e => hi (mem_append_right _ (mem_singleton.mpr e))
    rw [update_of_ne hne]
    exact h.absent i hD hxs
  nodup := by
    refine nodup_append.mpr ⟨h.nodup, nodup_singleton k, fun a ha b hb => ?_⟩
    obtain rfl := mem_singleton.mp hb
    exact fun e => hk (e ▸ ha)

end

/-! ## The combined list -/

variable {s : RefSlice} {valid : RefPicList → ℕ → Bool} {c : CombinedLists} {l : RefPicList} {i n : ℕ}

/-- The entries that stand in the combined list themselves: those of list 0, and those of
list 1 with a POC that list 0 has not. -/
def StandsAlone (s : RefSlice) : RefPicList → ℕ → Prop
  | REF_PIC_LIST_0, _ => True
  | REF_PIC_LIST_1, i =>
    ∀ r ∈ s.m_apcRefPicList REF_PIC_LIST_0, r.poc ≠ (s.getRefPic REF_PIC_LIST_1 i).poc

/-- The order in which the entries are pushed. -/
def Before (k k' : RefPicList × ℕ) : Prop :=
  k.2 < k'.2 ∨ (k.2 = k'.2 ∧ k.1 = REF_PIC_LIST_0 ∧ k'.1 = REF_PIC_LIST_1)

/-- The scaled ones of the entries that are pushed come last. -/
def ScaledLast (s : RefSlice) : Prop :=
  ∀ l i l' i', i < s.getNumRefIdx l → StandsAlone s l i → i' < s.getNumRefIdx l' → StandsAlone s l' i' →
    Before (l, i) (l', i') → refCost s l i ≤ refCost s l' i'

def key (e : RefListAndRefIdx) : RefPicList × ℕ := (e.refList, e.refIdx)

/-- The keys of a reference index. -/
def InLists (s : RefSlice) (k : RefPicList × ℕ) : Prop := k.2 < s.getNumRefIdx k.1

theorem setList1IdxToList0Idx_neg_iff : setList1IdxToList0Idx s i < 0 ↔ StandsAlone s REF_PIC_LIST_1 i := by
  rw [setList1IdxToList0Idx]
  cases hfind : (s.m_apcRefPicList REF_PIC_LIST_0).findIdx? fun r =>
      r.poc = (s.getRefPic REF_PIC_LIST_1 i).poc with
  | none =>
    refine iff_of_true (by decide) fun r hr => ?_
    simpa using List.findIdx?_eq_none_iff.mp hfind r hr
  | some j =>
    refine iff_of_false (by simp) fun halone => ?_
    obtain ⟨hj, hpoc, -⟩ := List.findIdx?_eq_some_iff_getElem.mp hfind
    exact halone _ (getElem_mem hj) (by simpa using hpoc)

theorem updateIdx_eq (table : RefPicList → ℕ → ℤ) (v : ℤ) :
    (fun k : RefPicList × ℕ => updateIdx table l i v k.1 k.2) =
      update (fun k : RefPicList × ℕ => table k.1 k.2) (l, i) v := by
  funext ⟨l', i'⟩
  rw [updateIdx]
  by_cases hl : l' = l
  · subst hl
    by_cases hi : i' = i
    · subst hi
      simp
    · have hne : (l', i') ≠ (l', i) := fun h => hi (Prod.mk.inj h).2
      simp [update_of_ne hi, update_of_ne hne]
  · have hne : (l', i') ≠ (l, i) := fun h => hl (Prod.mk.inj h).1
    simp [update_of_ne hl, update_of_ne hne]

/-- The loop has come to the index `n`. -/
structure Progress (s : RefSlice) (done : RefPicList → ℕ → Prop) (c : CombinedLists) : Prop where
  indexed : Indexed (InLists s) (fun k => c.m_iRefIdxOfLC k.1 k.2) (c.m_refPicCombinedList.map key)
  mem : ∀ l i, (l, i) ∈ c.m_refPicCombinedList.map key ↔ done l i
  ordered : (c.m_refPicCombinedList.map key).Pairwise Before
  cost : ∀ e ∈ c.m_refPicCombinedList, e.cost = refCost s e.refList e.refIdx

@[simp] theorem pushAmvpMerge_list (entry : RefListAndRefIdx) :
    (pushAmvpMerge l i entry valid c).m_refPicCombinedList = c.m_refPicCombinedList := by
  rw [pushAmvpMerge]
  split <;> rfl

@[simp] theorem pushAmvpMerge_idx (entry : RefListAndRefIdx) :
    (pushAmvpMerge l i entry valid c).m_iRefIdxOfLC = c.m_iRefIdxOfLC := by
  rw [pushAmvpMerge]
  split <;> rfl

theorem i8_of_lt {n : ℕ} (h : n < 128) : i8 n = n := by
  rw [i8]
  omega

theorem not_before_self {k : RefPicList × ℕ} : ¬Before k k := by
  rintro (hlt | ⟨-, h0, h1⟩)
  · exact absurd hlt (Nat.lt_irrefl _)
  · rw [h0] at h1
    cases h1

theorem Progress.pushRef {done done' : RefPicList → ℕ → Prop} (h : Progress s done c)
    (hbefore : ∀ l' i', done l' i' → Before (l', i') (l, i))
    (hlen : c.m_refPicCombinedList.length < 128)
    (hdone : ∀ l' i', done' l' i' ↔ done l' i' ∨ (l' = l ∧ i' = i)) :
    Progress s done' (pushRef s valid l i c) := by
  have hkey : (l, i) ∉ c.m_refPicCombinedList.map key :=
    fun hmem => not_before_self (hbefore l i ((h.mem l i).mp hmem))
  rw [CommonLib.pushRef]
  refine ⟨?_, fun l' i' => ?_, ?_, fun e he => ?_⟩
  · rw [pushAmvpMerge_list, pushAmvpMerge_idx, updateIdx_eq, i8_of_lt hlen, map_append,
      map_singleton, ← length_map (f := key)]
    exact h.indexed.push hkey
  · rw [pushAmvpMerge_list, map_append, mem_append, h.mem, hdone]
    simp [key]
  · rw [pushAmvpMerge_list, map_append, map_singleton]
    refine pairwise_append.mpr ⟨h.ordered, pairwise_singleton _ _, fun k hk k' hk' => ?_⟩
    obtain rfl := mem_singleton.mp hk'
    exact hbefore k.1 k.2 ((h.mem k.1 k.2).mp hk)
  · rw [pushAmvpMerge_list, mem_append, mem_singleton] at he
    rcases he with he | rfl
    · exact h.cost e he
    · rfl

theorem length_pushRef : (pushRef s valid l i c).m_refPicCombinedList.length =
    c.m_refPicCombinedList.length + 1 := by
  rw [CommonLib.pushRef, pushAmvpMerge_list, length_append, length_singleton]

/-- The entries of the first `n` indices that are pushed. -/
def done (s : RefSlice) (n : ℕ) (l : RefPicList) (i : ℕ) : Prop :=
  i < n ∧ i < s.getNumRefIdx l ∧ StandsAlone s l i

theorem combineRound_progress (h : Progress s (done s n) c)
    (hlen : c.m_refPicCombinedList.length ≤ 2 * n) (hn : n < 63) :
    Progress s (done s (n + 1)) (combineRound s valid c n) ∧
      (combineRound s valid c n).m_refPicCombinedList.length ≤ 2 * (n + 1) := by
  obtain ⟨c₁, hc₁, hprog, hlen₁⟩ : ∃ c₁, c₁ = (if n < s.getNumRefIdx REF_PIC_LIST_0 then
      pushRef s valid REF_PIC_LIST_0 n c else c) ∧
      Progress s (fun l i => done s n l i ∨ (l = REF_PIC_LIST_0 ∧ i = n ∧ n < s.getNumRefIdx l)) c₁ ∧
      c₁.m_refPicCombinedList.length ≤ 2 * n + 1 := by
    refine ⟨_, rfl, ?_⟩
    by_cases h0 : n < s.getNumRefIdx REF_PIC_LIST_0
    · rw [if_pos h0]
      refine ⟨h.pushRef (fun l' i' hd => .inl hd.1) (by omega) fun l i => ?_,
        by rw [length_pushRef]; omega⟩
      refine or_congr_right (and_congr_right ?_)
      rintro rfl
      exact and_iff_left h0
    · rw [if_neg h0]
      refine ⟨⟨h.indexed, fun l i => (h.mem l i).trans (or_iff_left ?_).symm, h.ordered, h.cost⟩,
        by omega⟩
      rintro ⟨rfl, -, hlt⟩
      exact h0 hlt
  rw [combineRound, ← hc₁]
  by_cases h1 : n < s.getNumRefIdx REF_PIC_LIST_1 ∧ setList1IdxToList0Idx s n < 0
  · have halone := setList1IdxToList0Idx_neg_iff.mp h1.2
    rw [if_pos h1]
    refine ⟨hprog.pushRef ?_ (by omega) fun l i => ?_, by rw [length_pushRef]; omega⟩
    · rintro l' i' (hd | ⟨rfl, rfl, -⟩)
      · exact .inl hd.1
      · exact .inr ⟨rfl, rfl, rfl⟩
    · rw [done, done, Nat.lt_succ_iff_lt_or_eq]
      cases l with
      | REF_PIC_LIST_0 =>
        simp only [StandsAlone, reduceCtorEq, false_and, or_false, true_and, and_true]
        constructor
        · rintro ⟨hlt | rfl, hnum⟩
          · exact .inl ⟨hlt, hnum⟩
          · exact .inr ⟨rfl, hnum⟩
        · rintro (⟨hlt, hnum⟩ | ⟨rfl, hnum⟩)
          · exact ⟨.inl hlt, hnum⟩
          · exact ⟨.inr rfl, hnum⟩
      | REF_PIC_LIST_1 =>
        simp only [reduceCtorEq, false_and, or_false, true_and]
        constructor
        · rintro ⟨hlt | rfl, hnum, ha⟩
          · exact .inl ⟨hlt, hnum, ha⟩
          · exact .inr rfl
        · rintro (⟨hlt, hnum, ha⟩ | rfl)
          · exact ⟨.inl hlt, hnum, ha⟩
          · exact ⟨.inr rfl, h1.1, halone⟩
  · rw [if_neg h1]
    refine ⟨⟨hprog.indexed, fun l i => (hprog.mem l i).trans ?_, hprog.ordered, hprog.cost⟩, by omega⟩
    rw [done, done, Nat.lt_succ_iff_lt_or_eq]
    constructor
    · rintro (⟨hlt, hnum, ha⟩ | ⟨rfl, rfl, hnum⟩)
      · exact ⟨.inl hlt, hnum, ha⟩
      · exact ⟨.inr rfl, hnum, trivial⟩
    · rintro ⟨hlt | rfl, hnum, ha⟩
      · exact .inl ⟨hlt, hnum, ha⟩
      · cases l with
        | REF_PIC_LIST_0 => exact .inr ⟨rfl, rfl, hnum⟩
        | REF_PIC_LIST_1 => exact absurd ⟨hnum, setList1IdxToList0Idx_neg_iff.mpr ha⟩ h1

/-- The first loop clears the table at every index of the two lists. -/
theorem resetIdx_ok (table : RefPicList → ℕ → ℤ) (hn : n ≤ MAX_NUM_REF) :
    ∃ table', loop (fun iNumCount table => do
        let table ← writeIdx table REF_PIC_LIST_0 iNumCount (-1)
        writeIdx table REF_PIC_LIST_1 iNumCount (-1)) n table = Except.ok table' ∧
      ∀ l, ∀ i < n, table' l i = -1 := by
  refine loop_total (P := fun n (table : RefPicList → ℕ → ℤ) => ∀ l, ∀ i < n, table l i = -1)
    (fun _ i hi => absurd hi (Nat.not_lt_zero i)) fun i hi table htable => ?_
  refine ⟨updateIdx (updateIdx table REF_PIC_LIST_0 i (-1)) REF_PIC_LIST_1 i (-1), ?_, ?_⟩
  · rw [writeIdx, if_pos (by omega), ok_bind, writeIdx, if_pos (by omega)]
  · intro l j hj
    have heq (table : RefPicList → ℕ → ℤ) (l' : RefPicList) :
        updateIdx table l' i (-1) l j = if (l, j) = (l', i) then -1 else table l j := by
      have h := congrFun (updateIdx_eq (l := l') (i := i) table (-1)) (l, j)
      rwa [update_apply] at h
    rw [heq, heq]
    by_cases hji : j = i
    · cases l <;> simp [hji]
    · rw [if_neg fun h => hji (Prod.mk.inj h).2, if_neg fun h => hji (Prod.mk.inj h).2]
      exact htable l j (by omega)

/-- What the combined list and its table are to the two lists. -/
structure Combines (s : RefSlice) (c : CombinedLists) : Prop where
  own : ∀ l i, i < s.getNumRefIdx l → StandsAlone s l i →
    ∃ k : ℕ, c.m_iRefIdxOfLC l i = k ∧ c.m_refPicCombinedList[k]? = some ⟨l, i, refCost s l i⟩
  shared : ∀ l i, i < s.getNumRefIdx l → ¬StandsAlone s l i → c.m_iRefIdxOfLC l i = -1 ∧
    ∃ j < s.getNumRefIdx REF_PIC_LIST_0, (s.getRefPic REF_PIC_LIST_0 j).poc = (s.getRefPic l i).poc
  only : ∀ e ∈ c.m_refPicCombinedList, e.refIdx < s.getNumRefIdx e.refList ∧
    StandsAlone s e.refList e.refIdx
  once : (c.m_refPicCombinedList.map key).Nodup

theorem Progress.combines (h : Progress s (done s n) c) (hn : ∀ l, s.getNumRefIdx l ≤ n) :
    Combines s c where
  own l i hi halone := by
    obtain ⟨k, hk, hget⟩ := h.indexed.at_idx (l, i) ((h.mem l i).mpr ⟨hi.trans_le (hn l), hi, halone⟩)
    refine ⟨k, hk, ?_⟩
    rw [List.getElem?_map, Option.map_eq_some_iff] at hget
    obtain ⟨⟨l', i', cost⟩, hget, hkey⟩ := hget
    cases hkey
    have hcost := h.cost _ (mem_of_getElem? hget)
    dsimp only at hcost
    rw [hget, hcost]
  shared l i hi halone := by
    refine ⟨h.indexed.absent (l, i) hi fun hmem => halone ((h.mem l i).mp hmem).2.2, ?_⟩
    cases l with
    | REF_PIC_LIST_0 => exact absurd trivial halone
    | REF_PIC_LIST_1 =>
      obtain ⟨r, hr, hpoc⟩ : ∃ r ∈ s.m_apcRefPicList REF_PIC_LIST_0,
          r.poc = (s.getRefPic REF_PIC_LIST_1 i).poc := by
        by_contra hnone
        exact halone fun r hr hpoc => hnone ⟨r, hr, hpoc⟩
      obtain ⟨j, hj, rfl⟩ := getElem_of_mem hr
      refine ⟨j, hj, ?_⟩
      rw [← hpoc, RefSlice.getRefPic, getD_eq_getElem?_getD, List.getElem?_eq_getElem hj]
      rfl
  only e he := ((h.mem e.refList e.refIdx).mp (mem_map_of_mem (f := key) he)).2
  once := h.indexed.nodup

/-- Entries that are pushed in the order of their costs are sorted. -/
theorem Progress.sorted (h : Progress s (done s n) c) (hs : ScaledLast s) :
    c.m_refPicCombinedList.mergeSort (fun l r => l.cost ≤ r.cost) = c.m_refPicCombinedList := by
  refine mergeSort_of_pairwise ((pairwise_map.mp h.ordered).imp_of_mem fun {e e'} he he' hb => ?_)
  obtain ⟨-, hi, ha⟩ := (h.mem e.refList e.refIdx).mp (mem_map_of_mem (f := key) he)
  obtain ⟨-, hi', ha'⟩ := (h.mem e'.refList e'.refIdx).mp (mem_map_of_mem (f := key) he')
  rw [h.cost e he, h.cost e' he']
  exact decide_eq_true (hs _ _ _ _ hi ha hi' ha' hb)

theorem amvpMergeRound_kept :
    (amvpMergeRound s valid c i).m_refPicCombinedList = c.m_refPicCombinedList ∧
      (amvpMergeRound s valid c i).m_iRefIdxOfLC = c.m_iRefIdxOfLC := by
  rw [amvpMergeRound]
  split <;> simp

/-- Two lists that fit the table together are combined when their scaled entries come last. -/
theorem generateCombinedList_combines (hs : s.rprEnabledFlag = true → ScaledLast s)
    (h16 : s.getNumRefIdx REF_PIC_LIST_0 + s.getNumRefIdx REF_PIC_LIST_1 ≤ MAX_NUM_REF) :
    ∃ c', generateCombinedList s valid c = .ok c' ∧ Combines s c' := by
  obtain ⟨table, hreset, htable⟩ := resetIdx_ok c.m_iRefIdxOfLC h16
  have h16' : s.getNumRefIdx REF_PIC_LIST_0 + s.getNumRefIdx REF_PIC_LIST_1 ≤ 16 := h16
  obtain ⟨n, hn⟩ : ∃ n, n = max (s.getNumRefIdx REF_PIC_LIST_0) (s.getNumRefIdx REF_PIC_LIST_1) := ⟨_, rfl⟩
  have hnum : ∀ l, s.getNumRefIdx l ≤ n := fun l => by cases l <;> omega
  obtain ⟨c₁, hc₁⟩ : ∃ c₁, c₁ = (List.range n).foldl (combineRound s valid) { c with
    m_refPicCombinedList := []
    m_refPicCombinedListAmvpMerge := []
    m_iRefIdxOfLC := table
    m_numNonScaledRefPic := 0 } := ⟨_, rfl⟩
  have hprog : Progress s (done s n) c₁ := by
    rw [hc₁]
    refine (foldl_range (P := fun m (c : CombinedLists) => Progress s (done s m) c ∧
      c.m_refPicCombinedList.length ≤ 2 * m)
      ⟨⟨indexed_nil fun k hk => ?_, fun l i => ?_, List.Pairwise.nil, ?_⟩, ?_⟩ ?_).1
    · refine htable k.1 k.2 (Nat.lt_of_lt_of_le hk ?_)
      cases k.1 <;> omega
    · simp [done]
    · exact fun e he => absurd he not_mem_nil
    · exact Nat.le_refl 0
    · exact fun m hm c hc => combineRound_progress hc.1 hc.2 (by omega)
  obtain ⟨c₂, hc₂⟩ : ∃ c₂, c₂ = (List.range (s.getNumRefIdx REF_PIC_LIST_1)).foldl
    (amvpMergeRound s valid) c₁ := ⟨_, rfl⟩
  have hkept : c₂.m_refPicCombinedList = c₁.m_refPicCombinedList ∧ c₂.m_iRefIdxOfLC = c₁.m_iRefIdxOfLC := by
    rw [hc₂]
    refine foldl_range (P := fun _ (c : CombinedLists) => c.m_refPicCombinedList = c₁.m_refPicCombinedList ∧
      c.m_iRefIdxOfLC = c₁.m_iRefIdxOfLC) ⟨rfl, rfl⟩ fun i _ c hc => ?_
    exact ⟨amvpMergeRound_kept.1.trans hc.1, amvpMergeRound_kept.2.trans hc.2⟩
  have hprog₂ : Progress s (done s n) c₂ :=
    ⟨by rw [hkept.1, hkept.2]; exact hprog.indexed, by rw [hkept.1]; exact hprog.mem,
      by rw [hkept.1]; exact hprog.ordered, by rw [hkept.1]; exact hprog.cost⟩
  refine ⟨c₂, ?_, hprog₂.combines hnum⟩
  rw [generateCombinedList]
  dsimp only
  rw [hreset, ok_bind, ← hn, ← hc₁, ← hc₂]
  split
  · next hrpr =>
    rw [hprog₂.sorted (hs hrpr)]
    rfl
  · rfl

/-! ## The list of pairs -/

def pairKey (e : RefPicPair) : ℕ × ℕ := (e.refIdx0, e.refIdx1)

/-- The pairs `done` are in the list, or their pictures are there in the other order. -/
structure PairsDone (s : RefSlice) (done : ℕ → ℕ → Prop) (pairs : List RefPicPair) : Prop where
  nodup : (pairs.map pairKey).Nodup
  mem : ∀ e ∈ pairs, done e.refIdx0 e.refIdx1
  covered : ∀ i j, done i j → (i, j) ∈ pairs.map pairKey ∨
    (s.checkLDC = false ∧ ∃ it ∈ pairs, isDuplicatePair s i j it = true)
  cost : ∀ e ∈ pairs, e.cost = 0

theorem PairsDone.pushPair {done done' : ℕ → ℕ → Prop} {pairs : List RefPicPair} {j : ℕ}
    (h : PairsDone s done pairs) (hnew : ¬done i j)
    (hdone : ∀ i' j', done' i' j' ↔ done i' j' ∨ (i' = i ∧ j' = j)) :
    PairsDone s done' (pushPair s i pairs j) := by
  have hkey : (i, j) ∉ pairs.map pairKey := by
    intro hmem
    obtain ⟨e, he, hek⟩ := mem_map.mp hmem
    cases hek
    exact hnew (h.mem e he)
  rw [CommonLib.pushPair]
  split
  · next hdup =>
    obtain ⟨hldc, hany⟩ := Bool.and_eq_true_iff.mp hdup
    refine ⟨h.nodup, fun e he => (hdone _ _).mpr (.inl (h.mem e he)), fun i' j' hd => ?_, h.cost⟩
    rcases (hdone i' j').mp hd with hd | ⟨rfl, rfl⟩
    · exact h.covered i' j' hd
    · exact .inr ⟨by simpa using hldc, any_eq_true.mp hany⟩
  · refine ⟨?_, fun e he => ?_, fun i' j' hd => ?_, fun e he => ?_⟩
    · rw [map_append, map_singleton]
      refine nodup_append.mpr ⟨h.nodup, nodup_singleton _, fun a ha b hb hab => ?_⟩
      rw [hab, mem_singleton.mp hb] at ha
      exact hkey ha
    · rcases mem_append.mp he with he | he
      · exact (hdone _ _).mpr (.inl (h.mem e he))
      · obtain rfl := mem_singleton.mp he
        exact (hdone _ _).mpr (.inr ⟨rfl, rfl⟩)
    · rw [map_append, mem_append]
      rcases (hdone i' j').mp hd with hd | ⟨rfl, rfl⟩
      · rcases h.covered i' j' hd with hmem | ⟨hldc, it, hit, hpair⟩
        · exact .inl (.inl hmem)
        · exact .inr ⟨hldc, it, mem_append_left _ hit, hpair⟩
      · exact .inl (.inr (mem_singleton.mpr rfl))
    · rcases mem_append.mp he with he | he
      · exact h.cost e he
      · obtain rfl := mem_singleton.mp he
        rfl

theorem length_pushPair {pairs : List RefPicPair} {j : ℕ} :
    (pushPair s i pairs j).length ≤ pairs.length + 1 := by
  rw [CommonLib.pushPair]
  split
  · exact Nat.le_succ _
  · rw [length_append, length_singleton]

/-- Every pair of indices is accounted for. -/
theorem buildPairs_done (s : RefSlice) :
    PairsDone s (fun i j => i < s.getNumRefIdx REF_PIC_LIST_0 ∧ j < s.getNumRefIdx REF_PIC_LIST_1)
      (buildPairs s) ∧
    (buildPairs s).length ≤ s.getNumRefIdx REF_PIC_LIST_0 * s.getNumRefIdx REF_PIC_LIST_1 := by
  refine foldl_range (P := fun n (pairs : List RefPicPair) =>
    PairsDone s (fun i j => i < n ∧ j < s.getNumRefIdx REF_PIC_LIST_1) pairs ∧
      pairs.length ≤ n * s.getNumRefIdx REF_PIC_LIST_1) ⟨⟨nodup_nil, ?_, ?_, ?_⟩, ?_⟩ ?_
  · exact fun e he => absurd he not_mem_nil
  · exact fun i j hij => absurd hij.1 (Nat.not_lt_zero i)
  · exact fun e he => absurd he not_mem_nil
  · exact Nat.zero_le _
  · intro n _ pairs ⟨hpairs, hlen⟩
    have hrow := foldl_range (n := s.getNumRefIdx REF_PIC_LIST_1) (s := pairs) (f := pushPair s n)
      (P := fun m (row : List RefPicPair) =>
        PairsDone s (fun i j => (i < n ∧ j < s.getNumRefIdx REF_PIC_LIST_1) ∨ (i = n ∧ j < m)) row ∧
          row.length ≤ n * s.getNumRefIdx REF_PIC_LIST_1 + m) ⟨?_, hlen⟩ ?_
    · obtain ⟨hdone, hlength⟩ := hrow
      have hall : (fun i j => (i < n ∧ j < s.getNumRefIdx REF_PIC_LIST_1) ∨
          (i = n ∧ j < s.getNumRefIdx REF_PIC_LIST_1)) =
          fun i j => i < n + 1 ∧ j < s.getNumRefIdx REF_PIC_LIST_1 := by
        funext i j
        rw [← or_and_right, Nat.lt_succ_iff_lt_or_eq]
      rw [hall] at hdone
      exact ⟨hdone, by rw [Nat.succ_mul]; exact hlength⟩
    · have hsame : (fun i j => (i < n ∧ j < s.getNumRefIdx REF_PIC_LIST_1) ∨ (i = n ∧ j < 0)) =
          fun i j => i < n ∧ j < s.getNumRefIdx REF_PIC_LIST_1 := by
        funext i j
        simp
      rw [hsame]
      exact hpairs
    · intro m _ row ⟨hdone, hlength⟩
      refine ⟨hdone.pushPair (by omega) fun i j => ?_, length_pushPair.trans (by omega)⟩
      omega

def withCost (s : RefSlice) (e : RefPicPair) : RefPicPair := { e with cost := pairCost s e }

/-- The first `n` pairs have their costs and indices. -/
structure Recorded (s : RefSlice) (pairs : List RefPicPair) (n : ℕ) (p : PairLists) : Prop where
  list : ∀ k, p.m_refPicPairList[k]? = pairs[k]?.map fun e => if k < n then withCost s e else e
  indexed : Indexed (fun _ => True) (fun k : ℕ × ℕ => p.m_iRefPicPairIdx k.1 k.2)
    ((pairs.take n).map pairKey)

theorem recordPair_recorded {p : PairLists} {pairs : List RefPicPair} (h : Recorded s pairs n p)
    (hn : n < pairs.length) (hnodup : (pairs.map pairKey).Nodup) :
    Recorded s pairs (n + 1) (recordPair s p n) := by
  have hget : p.m_refPicPairList[n]? = some pairs[n] := by
    rw [h.list, List.getElem?_eq_getElem hn, Option.map_some, if_neg (Nat.lt_irrefl n)]
  have hkey : pairKey pairs[n] ∉ (pairs.take n).map pairKey := by
    intro hin
    obtain ⟨e, he, hek⟩ := mem_map.mp hin
    obtain ⟨j, hj, rfl⟩ := getElem_of_mem he
    rw [length_take] at hj
    rw [getElem_take] at hek
    have hlength : (pairs.map pairKey).length = pairs.length := length_map ..
    have heq := (@List.Nodup.getElem_inj_iff _ _ hnodup j (by omega) n (by omega)).mp
      (by rw [getElem_map, getElem_map]; exact hek)
    omega
  rw [recordPair, hget]
  refine ⟨fun k => ?_, ?_⟩
  · rw [List.getElem?_set, (List.getElem?_eq_some_iff.mp hget).1 |> fun hlen => if_pos hlen]
    by_cases hk : n = k
    · subst hk
      rw [if_pos rfl, List.getElem?_eq_getElem hn, Option.map_some, if_pos (Nat.lt_succ_self n)]
      rfl
    · have hlt : k < n + 1 ↔ k < n := by omega
      rw [if_neg hk, h.list]
      simp only [hlt]
  · have hpush := h.indexed.push hkey
    rw [length_map, length_take, Nat.min_eq_left hn.le] at hpush
    have hupdate : (fun k : ℕ × ℕ => update p.m_iRefPicPairIdx pairs[n].refIdx0
        (update (p.m_iRefPicPairIdx pairs[n].refIdx0) pairs[n].refIdx1 (n : ℤ)) k.1 k.2) =
          update (fun k : ℕ × ℕ => p.m_iRefPicPairIdx k.1 k.2) (pairKey pairs[n]) n := by
      funext ⟨i', j'⟩
      simp only [update_apply, pairKey, Prod.mk.injEq]
      by_cases hi : i' = pairs[n].refIdx0
      · by_cases hj : j' = pairs[n].refIdx1
        · simp [hi, hj]
        · simp [hi, hj]
      · simp [hi]
    rw [take_succ_eq_append_getElem hn, map_append, map_singleton]
    rw [← hupdate] at hpush
    exact hpush

/-- What the list of pairs and its table are to the two lists. -/
structure PairsIndexed (s : RefSlice) (p : PairLists) : Prop where
  indexed : ∀ i j, i < s.getNumRefIdx REF_PIC_LIST_0 → j < s.getNumRefIdx REF_PIC_LIST_1 →
    (∃ k : ℕ, p.m_iRefPicPairIdx i j = k ∧ (p.m_refPicPairList[k]?).map pairKey = some (i, j)) ∨
      (p.m_iRefPicPairIdx i j = -1 ∧ s.checkLDC = false ∧
        ∃ it ∈ p.m_refPicPairList, isDuplicatePair s i j it = true)
  once : (p.m_refPicPairList.map pairKey).Nodup

/-- The pairs with a scaled picture come last as they are pushed. -/
def ScaledPairsLast (s : RefSlice) : Prop :=
  (buildPairs s).Pairwise fun e e' => pairCost s e ≤ pairCost s e'

/-- A list of pairs that an `int8_t` can count is indexed when its scaled pairs come last. -/
theorem generateRefPicPairList_indexed (hs : s.rprEnabledFlag = true → ScaledPairsLast s)
    (h127 : s.getNumRefIdx REF_PIC_LIST_0 * s.getNumRefIdx REF_PIC_LIST_1 ≤ 127) :
    PairsIndexed s (generateRefPicPairList s) := by
  obtain ⟨hdone, hlength⟩ := buildPairs_done s
  rw [ScaledPairsLast] at hs
  obtain ⟨pairs, hpairs⟩ : ∃ pairs, pairs = buildPairs s := ⟨_, rfl⟩
  rw [← hpairs] at hdone hlength hs
  obtain ⟨p, hp⟩ : ∃ p, p = (List.range (i8 pairs.length).toNat).foldl (recordPair s)
    ⟨pairs, fun _ _ => -1, 0⟩ := ⟨_, rfl⟩
  have hrun : Recorded s pairs pairs.length p := by
    rw [hp, i8_of_lt (by omega), Int.toNat_natCast]
    refine foldl_range (P := fun n (p : PairLists) => Recorded s pairs n p)
      ⟨fun k => by simp, indexed_nil fun _ _ => rfl⟩
      fun n hn p hp => recordPair_recorded hp hn hdone.nodup
  have hlist : p.m_refPicPairList = pairs.map (withCost s) := by
    refine ext_getElem? fun k => ?_
    rw [hrun.list, List.getElem?_map]
    by_cases hk : k < pairs.length
    · simp only [hk, if_true]
    · rw [List.getElem?_eq_none (by omega)]
      rfl
  have hresult : generateRefPicPairList s = p := by
    rw [generateRefPicPairList]
    rw [← hpairs, ← hp]
    split
    · next hrpr =>
      have hsorted : p.m_refPicPairList.mergeSort (fun l r => l.cost ≤ r.cost) = p.m_refPicPairList := by
        rw [hlist]
        refine mergeSort_of_pairwise (pairwise_map.mpr ((hs hrpr).imp fun hle => ?_))
        exact decide_eq_true hle
      rw [hsorted]
    · rfl
  have hkeys : p.m_refPicPairList.map pairKey = pairs.map pairKey := by
    rw [hlist, map_map]
    rfl
  rw [hresult]
  refine ⟨fun i j hi hj => ?_, by rw [hkeys]; exact hdone.nodup⟩
  have hidx := hrun.indexed
  rw [take_length] at hidx
  by_cases hmem : (i, j) ∈ pairs.map pairKey
  · obtain ⟨k, hk, hget⟩ := hidx.at_idx (i, j) hmem
    refine .inl ⟨k, hk, ?_⟩
    rw [← List.getElem?_map, hkeys, hget]
  · refine .inr ⟨hidx.absent (i, j) trivial hmem, ?_⟩
    obtain ⟨hldc, it, hit, hdup⟩ := (hdone.covered i j ⟨hi, hj⟩).resolve_left hmem
    refine ⟨hldc, withCost s it, ?_, hdup⟩
    rw [hlist]
    exact mem_map_of_mem hit

/-! ## Both lists -/

/-- Lists that fit the table together have pairs that an `int8_t` can count. -/
theorem mul_le_of_add_le {a b : ℕ} (h : a + b ≤ MAX_NUM_REF) : a * b ≤ 127 := by
  have h16 : a + b ≤ 16 := h
  have hsmall : ∀ a < 17, a * (16 - a) ≤ 127 := by decide
  exact (Nat.mul_le_mul_left a (by omega : b ≤ 16 - a)).trans (hsmall a (by omega))

/-- Two lists that fit the table together are combined and their pairs are indexed, when nothing
scaled comes before anything that is not. -/
theorem referenceLists_indexed (hlist : s.rprEnabledFlag = true → ScaledLast s)
    (hpairs : s.rprEnabledFlag = true → ScaledPairsLast s)
    (h16 : s.getNumRefIdx REF_PIC_LIST_0 + s.getNumRefIdx REF_PIC_LIST_1 ≤ MAX_NUM_REF) :
    (∃ c', generateCombinedList s valid c = .ok c' ∧ Combines s c') ∧
      PairsIndexed s (generateRefPicPairList s) :=
  ⟨generateCombinedList_combines hlist h16,
    generateRefPicPairList_indexed hpairs (mul_le_of_add_le h16)⟩

/-- A slice with the POCs of its two lists; the scaled pictures have a flag. -/
def sliceOf (rprEnabledFlag : Bool) (refs0 refs1 : List (ℤ × Bool)) : RefSlice where
  poc := 0
  checkLDC := false
  rprEnabledFlag
  m_apcRefPicList
    | REF_PIC_LIST_0 => refs0.map sliceRef
    | REF_PIC_LIST_1 => refs1.map sliceRef
where
  sliceRef (ref : ℤ × Bool) : SliceRef :=
    ⟨ref.1, false, ref.2, ⟨⟨false, 0, 0, 0⟩, ⟨false, 0, 0, 0⟩, ⟨false, 0, 0, 0⟩⟩⟩

def emptyLists : CombinedLists := ⟨[], fun _ _ => 0, 0, [], fun _ _ => 0⟩

def scaledSlice : RefSlice := sliceOf true [(-8, false), (8, true)] [(8, true), (16, true)]

theorem scaledSlice_scaledLast : ScaledLast scaledSlice := by
  have hcost : ∀ l' ∈ [REF_PIC_LIST_0, REF_PIC_LIST_1], ∀ i' < 2,
      (l', i') ≠ (REF_PIC_LIST_0, 0) → refCost scaledSlice l' i' = maxDistortion := by decide
  intro l i l' i' _ _ hi' _ hb
  have hmax : refCost scaledSlice l i ≤ maxDistortion := by
    rw [refCost]
    split
    · exact Nat.zero_le _
    · exact Nat.le_refl _
  rw [hcost l' (by cases l' <;> simp) i' (by cases l' <;> exact hi')]
  · exact hmax
  · intro hfirst
    cases hfirst
    rcases hb with hlt | ⟨-, -, hl⟩
    · exact Nat.not_lt_zero _ hlt
    · cases hl

theorem referenceLists_indexed_scaled :
    (∃ c', generateCombinedList scaledSlice (fun _ _ => true) emptyLists = .ok c' ∧
      Combines scaledSlice c') ∧ PairsIndexed scaledSlice (generateRefPicPairList scaledSlice) :=
  referenceLists_indexed (fun _ => scaledSlice_scaledLast)
    (fun _ => by rw [ScaledPairsLast]; decide) (by decide)

/-- A picture of both lists has no index for list 1, and one that is repeated in list 0
occurs twice; a scaled picture before another one loses its place; and two lists can be too
long for the table. -/
theorem combinedList_repeats :
    (generateCombinedList (sliceOf false [(8, false), (8, false)] [(8, false)]) (fun _ _ => false)
        emptyLists).map (fun c => (c.m_refPicCombinedList.map key, c.m_iRefIdxOfLC REF_PIC_LIST_1 0)) =
      .ok ([(REF_PIC_LIST_0, 0), (REF_PIC_LIST_0, 1)], -1) ∧
    (generateRefPicPairList (sliceOf false [(8, false), (8, false)] [(8, false)])).m_iRefPicPairIdx 1 0
      = -1 ∧
    (generateCombinedList (sliceOf true [(8, true), (16, false)] []) (fun _ _ => false)
        emptyLists).map (fun c => (c.m_refPicCombinedList.map key, c.m_iRefIdxOfLC REF_PIC_LIST_0 0)) =
      .ok ([(REF_PIC_LIST_0, 1), (REF_PIC_LIST_0, 0)], 0) ∧
    (generateCombinedList (sliceOf false (List.replicate 9 (8, false)) (List.replicate 8 (16, false)))
        (fun _ _ => false) emptyLists).toBool = false := by
  refine ⟨by decide +kernel, by decide +kernel, ?_, by decide +kernel⟩
  have hsort : [⟨REF_PIC_LIST_0, 0, maxDistortion⟩, ⟨REF_PIC_LIST_0, 1, 0⟩].mergeSort
      (fun (l r : RefListAndRefIdx) => decide (l.cost ≤ r.cost)) =
      [⟨REF_PIC_LIST_0, 1, 0⟩, ⟨REF_PIC_LIST_0, 0, maxDistortion⟩] := by
    simp [List.mergeSort, List.MergeSort.Internal.splitInTwo, maxDistortion]
  have hlist : ∃ c : CombinedLists,
      generateCombinedList (sliceOf true [(8, true), (16, false)] []) (fun _ _ => false) emptyLists = .ok
        { c with
          m_refPicCombinedList := [⟨REF_PIC_LIST_0, 0, maxDistortion⟩, ⟨REF_PIC_LIST_0, 1, 0⟩].mergeSort
            fun (l r : RefListAndRefIdx) => decide (l.cost ≤ r.cost) } ∧
      c.m_iRefIdxOfLC REF_PIC_LIST_0 0 = 0 := ⟨⟨[], _, _, _, _⟩, rfl, rfl⟩
  obtain ⟨c, hc, hidx⟩ := hlist
  rw [hc, hsort, Except.map, hidx]
  rfl

end ECM.RefPics
