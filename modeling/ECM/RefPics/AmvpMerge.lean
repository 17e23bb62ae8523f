import ECM.CommonLib.RefIdxTables

/-! # Reference indices for the AMVP-merge mode

Each pass marks the indices of its list that have a partner in the other one. What was in
the tables before shines through where the first loop does not reset: in list 1 behind the
length of list 0. -/

namespace ECM.RefPics
open CommonLib CommonLib.RefPicList Lib.Loop

variable {pcSlice : RefSlice} {t : AmvpMergeTables} {l l' : RefPicList} {i : ℕ}

/-- Some picture of the other list makes an admissible pair. -/
def hasPartner (pcSlice : RefSlice) (l : RefPicList) (refIdx : ℕ) : Bool :=
  (List.range (pcSlice.getNumRefIdx l.other)).any (isValidCandPairOf pcSlice l refIdx)

/-- What the flag of a reference index should be. -/
def isAvailableRefIdx (pcSlice : RefSlice) (l : RefPicList) (refIdx : ℕ) : Bool :=
  !pcSlice.checkLDC && hasPartner pcSlice l refIdx

@[simp] theorem setValidCandPair_validRefIdx {a b : ℕ} {v : Bool} :
    (t.setValidCandPair a b v).m_amvpMergeModeValidRefIdx = t.m_amvpMergeModeValidRefIdx := rfl

theorem setValidRefIdx_eq {refIdx : ℕ} {v : Bool} :
    (t.setValidRefIdx l refIdx v).m_amvpMergeModeValidRefIdx l' i =
      if l' = l ∧ i = refIdx then v else t.m_amvpMergeModeValidRefIdx l' i := by
  rw [AmvpMergeTables.setValidRefIdx]
  dsimp only
  by_cases hl : l' = l
  · subst hl
    rw [Function.update_self]
    by_cases hi : i = refIdx
    · rw [hi, Function.update_self, if_pos ⟨rfl, rfl⟩]
    · rw [Function.update_of_ne hi, if_neg fun h => hi h.2]
  · rw [Function.update_of_ne hl, if_neg fun h => hl h.1]

/-! ## The first loop -/

theorem resetAmvpMergeMode_valid :
    (resetAmvpMergeMode pcSlice t).m_amvpMergeModeValidRefIdx l i =
      (!decide (i < pcSlice.getNumRefIdx REF_PIC_LIST_0) && t.m_amvpMergeModeValidRefIdx l i) := by
  refine foldl_range (P := fun n (u : AmvpMergeTables) =>
    u.m_amvpMergeModeValidRefIdx l i = (!decide (i < n) && t.m_amvpMergeModeValidRefIdx l i)) ?_ ?_
  · simp
  · intro n _ u hu
    have hinner : ((List.range (pcSlice.getNumRefIdx REF_PIC_LIST_1)).foldl
        (fun t refIdxInList1 => t.setValidCandPair n refIdxInList1 false) u).m_amvpMergeModeValidRefIdx =
          u.m_amvpMergeModeValidRefIdx :=
      foldl_range (P := fun _ (w : AmvpMergeTables) =>
        w.m_amvpMergeModeValidRefIdx = u.m_amvpMergeModeValidRefIdx) rfl fun _ _ _ hw => hw
    rw [setValidRefIdx_eq, setValidRefIdx_eq, hinner, hu]
    by_cases hi : i = n
    · cases l <;> simp [hi]
    · have hlt : i < n + 1 ↔ i < n := by omega
      simp [hi, hlt]

/-! ## A pass -/

theorem collectCandPairs_spec (pcSlice : RefSlice) (l : RefPicList) (t : AmvpMergeTables) (refIdx : ℕ) :
    (collectCandPairs pcSlice l refIdx t).1 = hasPartner pcSlice l refIdx ∧
      (collectCandPairs pcSlice l refIdx t).2.m_amvpMergeModeValidRefIdx = t.m_amvpMergeModeValidRefIdx := by
  refine foldl_range (P := fun n (c : Bool × AmvpMergeTables) =>
    c.1 = (List.range n).any (isValidCandPairOf pcSlice l refIdx) ∧
      c.2.m_amvpMergeModeValidRefIdx = t.m_amvpMergeModeValidRefIdx) ⟨rfl, rfl⟩ ?_
  rintro n _ ⟨valid, u⟩ ⟨hvalid, hu⟩
  rw [List.range_succ, List.any_append]
  cases hpair : isValidCandPairOf pcSlice l refIdx n with
  | true =>
    refine ⟨by simp [hpair], ?_⟩
    cases l <;> simpa [hpair] using hu
  | false => exact ⟨by simp [hpair, hvalid], by simpa [hpair] using hu⟩

/-- A pass marks the indices of its list that have a partner. -/
theorem collectList_valid :
    (collectList pcSlice l t).m_amvpMergeModeValidRefIdx l' i =
      (t.m_amvpMergeModeValidRefIdx l' i ||
        decide (l' = l ∧ i < pcSlice.getNumRefIdx l) && hasPartner pcSlice l i) := by
  have hpass := foldl_range (n := pcSlice.getNumRefIdx l) (s := (⟨t, -1, 0⟩ : AmvpMergePass))
    (f := collectRefIdx pcSlice l) (P := fun n pass => ∀ l' i,
      pass.tables.m_amvpMergeModeValidRefIdx l' i = (t.m_amvpMergeModeValidRefIdx l' i ||
        decide (l' = l ∧ i < n) && hasPartner pcSlice l i)) (by simp) ?_
  · rw [collectList]
    split
    · exact hpass l' i
    · exact hpass l' i
  · intro n _ pass hprev l' i
    obtain ⟨hvalid, hkept⟩ := collectCandPairs_spec pcSlice l pass.tables n
    rw [collectRefIdx]
    dsimp only
    rw [hvalid]
    by_cases hin : l' = l ∧ i = n
    · obtain ⟨rfl, rfl⟩ := hin
      cases hpartner : hasPartner pcSlice l' i with
      | true => simp [setValidRefIdx_eq]
      | false => simp [hkept, hprev]
    · have hlt : (l' = l ∧ i < n + 1) ↔ (l' = l ∧ i < n) :=
        and_congr_right fun hl => by
          have hne : i ≠ n := fun h => hin ⟨hl, h⟩
          omega
      cases hpartner : hasPartner pcSlice l n with
      | true =>
        rw [if_pos rfl, setValidRefIdx_eq, if_neg hin]
        dsimp only
        rw [hkept, hprev]
        simp only [hlt]
      | false =>
        rw [if_neg (by decide)]
        dsimp only
        rw [hkept, hprev]
        simp only [hlt]

/-! ## The function -/

/-- The flags of the indices of the lists: what was there is only reset at the indices of
list 0. -/
theorem checkAmvpMergeModeAvailability_valid (hi : i < pcSlice.getNumRefIdx l) :
    (checkAmvpMergeModeAvailability pcSlice t).m_amvpMergeModeValidRefIdx l i =
      (!decide (i < pcSlice.getNumRefIdx REF_PIC_LIST_0) && t.m_amvpMergeModeValidRefIdx l i ||
        isAvailableRefIdx pcSlice l i) := by
  rw [checkAmvpMergeModeAvailability, isAvailableRefIdx]
  split
  · next hldc => rw [resetAmvpMergeMode_valid, hldc, Bool.not_true, Bool.false_and, Bool.or_false]
  · next hldc =>
    rw [collectList_valid, collectList_valid, resetAmvpMergeMode_valid]
    cases l with
    | REF_PIC_LIST_0 => simp [hldc, hi]
    | REF_PIC_LIST_1 => simp [hldc, hi]

/-- The flags of all reference indices come from the two lists alone if and only if no
index of list 1 behind the length of list 0 was marked before that should not be now. -/
theorem amvpMerge_independent_iff (pcSlice : RefSlice) (t : AmvpMergeTables) :
    (∀ l i, i < pcSlice.getNumRefIdx l →
      (checkAmvpMergeModeAvailability pcSlice t).m_amvpMergeModeValidRefIdx l i =
        isAvailableRefIdx pcSlice l i) ↔
    ∀ i, pcSlice.getNumRefIdx REF_PIC_LIST_0 ≤ i → i < pcSlice.getNumRefIdx REF_PIC_LIST_1 →
      t.m_amvpMergeModeValidRefIdx REF_PIC_LIST_1 i = true →
        isAvailableRefIdx pcSlice REF_PIC_LIST_1 i = true := by
  constructor
  · intro h i hlow hhigh hold
    have hflag := h REF_PIC_LIST_1 i hhigh
    rw [checkAmvpMergeModeAvailability_valid hhigh, hold, decide_eq_false (Nat.not_lt.mpr hlow)] at hflag
    exact hflag.symm
  · intro h l i hi
    rw [checkAmvpMergeModeAvailability_valid hi]
    by_cases h0 : i < pcSlice.getNumRefIdx REF_PIC_LIST_0
    · rw [decide_eq_true h0, Bool.not_true, Bool.false_and, Bool.false_or]
    · cases l with
      | REF_PIC_LIST_0 => exact absurd hi h0
      | REF_PIC_LIST_1 =>
        cases hold : t.m_amvpMergeModeValidRefIdx REF_PIC_LIST_1 i with
        | false => rw [Bool.and_false, Bool.false_or]
        | true => rw [h i (Nat.not_lt.mp h0) hi hold, Bool.or_true]

/-- A picture without weighted prediction. -/
def plainRef (poc : ℤ) : SliceRef :=
  ⟨poc, false, false, ⟨⟨false, 0, 0, 0⟩, ⟨false, 0, 0, 0⟩, ⟨false, 0, 0, 0⟩⟩⟩

/-- The second picture of list 1 has no partner in list 0, and keeps the mark of an earlier
picture. -/
theorem amvpMerge_stale : ∃ (pcSlice : RefSlice) (t : AmvpMergeTables),
    ¬∀ l i, i < pcSlice.getNumRefIdx l →
      (checkAmvpMergeModeAvailability pcSlice t).m_amvpMergeModeValidRefIdx l i =
        isAvailableRefIdx pcSlice l i := by
  refine ⟨⟨4, false, false, fun l => if l = .REF_PIC_LIST_0 then [plainRef 0] else [plainRef 8, plainRef 2]⟩,
    ⟨true, fun _ => -1, fun _ _ => true, fun _ _ => true⟩, fun h => ?_⟩
  have hflag := h .REF_PIC_LIST_1 1 (by decide)
  rw [checkAmvpMergeModeAvailability_valid (by decide)] at hflag
  exact absurd hflag (by decide)

end ECM.RefPics
