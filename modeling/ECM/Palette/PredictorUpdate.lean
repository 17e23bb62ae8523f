import ECM.CommonLib.Palette

/-! # What the palette predictor becomes

The current palette, then the entries of the old predictor that were not reused, as many as
there is room for, and in all components of the tree the same ones. -/

namespace ECM.Palette
open CommonLib CommonLib.Palette CommonLib.Palette.CodingStructure

variable {prevPLT : PLTBuf} {curPLTSize : ℕ → ℕ} {curPLT : ℕ → ℕ → ℤ} {reuseflag : ℕ → ℕ → Bool}

/-- The calls of the decoder: a joint tree with or without chroma, a luma tree and a chroma tree. -/
inductive Tree where
  | joint
  | jointLuma
  | luma
  | chroma
  deriving DecidableEq, Repr

namespace Tree

def compBegin : Tree → ℕ
  | chroma => 1
  | _ => 0

def numComp : Tree → ℕ
  | joint => 3
  | jointLuma => 1
  | luma => 1
  | chroma => 2

def jointPLT : Tree → Bool
  | joint | jointLuma => true
  | luma | chroma => false

def comps (t : Tree) : List ℕ := List.range' t.compBegin t.numComp

def maxPltSize (t : Tree) : ℕ := if t.jointPLT then MAXPLTSIZE else MAXPLTSIZE_DUALTREE

def maxPredPltSize (t : Tree) : ℕ := if t.jointPLT then MAXPLTPREDSIZE else MAXPLTPREDSIZE_DUALTREE

end Tree

/-- Where an entry of the new predictor comes from. -/
inductive Source where
  | current (i : ℕ)
  | previous (i : ℕ)
  deriving DecidableEq, Repr

def Source.entry (curPLT prevPLT : ℕ → ℤ) : Source → ℤ
  | current i => curPLT i
  | previous i => prevPLT i

/-- The entries of the old predictor that are not reused. -/
def notReused (reuseflag : ℕ → Bool) (size : ℕ) : List ℕ := (List.range size).filter fun i => !reuseflag i

/-- The current palette and behind it the entries that are not reused, cut off at `limit`. -/
def merged (curSize prevSize : ℕ) (reuseflag : ℕ → Bool) (limit : ℕ) : List Source :=
  ((List.range curSize).map Source.current ++ (notReused reuseflag prevSize).map Source.previous).take limit

/-- The predictor of a component with the size of a channel. -/
def entries (buf : PLTBuf) (ch comp : ℕ) : List ℤ := (List.range (buf.curPLTSize ch)).map (buf.curPLT comp)

/-! ## The loop over the old predictor -/

/-- The component is written for the channel. -/
def writes (ch comp : ℕ) : Prop := if ch = 0 then comp = 0 else comp = 1 ∨ comp = 2

instance (ch comp : ℕ) : Decidable (writes ch comp) := by
  unfold writes
  infer_instance

/-- The entries that are taken from the entry `i` on, if there is room for `room`. -/
def taken (reuseflag : ℕ → Bool) (i rounds room : ℕ) : List ℕ :=
  ((List.range' i rounds).filter fun i => !reuseflag i).take room

theorem taken_succ_reused {flags : ℕ → Bool} {i : ℕ} (h : flags i = true) (rounds room : ℕ) :
    taken flags i (rounds + 1) room = taken flags (i + 1) rounds room := by
  rw [taken, taken, List.range'_succ, List.filter_cons_of_neg (by simp [h])]

theorem taken_succ_kept {flags : ℕ → Bool} {i : ℕ} (h : flags i = false) (rounds room : ℕ) :
    taken flags i (rounds + 1) (room + 1) = i :: taken flags (i + 1) rounds room := by
  rw [taken, taken, List.range'_succ, List.filter_cons_of_pos (by simp [h]), List.take_succ_cons]

theorem stuffEntry_stuffedPLT (comID ch i comp k : ℕ) (s : Stuffing) :
    (stuffEntry prevPLT comID ch i s).stuffedPLT comp k =
      if writes ch comp ∧ k = s.tempCurPLTsize comID + s.stuffPLTsize ch then prevPLT.curPLT comp i
      else s.stuffedPLT comp k := by
  by_cases hch : ch = 0
  · simp only [stuffEntry, writes, hch, if_true]
    by_cases hcomp : comp = 0
    · subst hcomp
      by_cases hk : k = s.tempCurPLTsize comID + s.stuffPLTsize 0
      · rw [if_pos ⟨rfl, hk⟩, hk]
        simp
      · rw [if_neg fun h => hk h.2]
        simp [Function.update_of_ne hk]
    · rw [if_neg fun h => hcomp h.1, Function.update_of_ne hcomp]
  · simp only [stuffEntry, writes, hch, if_false]
    by_cases hk : k = s.tempCurPLTsize comID + s.stuffPLTsize ch
    · by_cases h2 : comp = 2
      · simp [h2, hk]
      · by_cases h1 : comp = 1
        · simp [h1, hk]
        · simp [h1, h2]
    · by_cases h2 : comp = 2
      · simp [h2, hk]
      · by_cases h1 : comp = 1
        · simp [h1, hk]
        · simp [h1, h2]

section
variable (prevPLT reuseflag)

/-- What the loop leaves: the entries that are taken stand one behind the other. -/
theorem stuffEntries_spec (maxPredPltSize comID ch rounds i room : ℕ) (s : Stuffing)
    (hroom : s.tempCurPLTsize comID + s.stuffPLTsize ch + room = maxPredPltSize) :
    let t := stuffEntries prevPLT reuseflag maxPredPltSize comID ch rounds i s
    let kept := taken (reuseflag comID) i rounds room
    t.tempCurPLTsize = s.tempCurPLTsize ∧
    t.stuffPLTsize = Function.update s.stuffPLTsize ch (s.stuffPLTsize ch + kept.length) ∧
    (∀ comp k, k < s.tempCurPLTsize comID + s.stuffPLTsize ch → t.stuffedPLT comp k = s.stuffedPLT comp k) ∧
    (∀ comp, writes ch comp → ∀ j (hj : j < kept.length),
      t.stuffedPLT comp (s.tempCurPLTsize comID + s.stuffPLTsize ch + j) = prevPLT.curPLT comp kept[j]) ∧
    ∀ comp, ¬writes ch comp → t.stuffedPLT comp = s.stuffedPLT comp := by
  induction rounds generalizing i room s with
  | zero => simp [stuffEntries, taken]
  | succ rounds ih =>
    dsimp only
    rw [stuffEntries]
    cases room with
    | zero =>
      have hfull : s.tempCurPLTsize comID + s.stuffPLTsize ch ≥ maxPredPltSize := Nat.le_of_eq hroom.symm
      rw [if_pos hfull]
      simp [taken]
    | succ room =>
      rw [if_neg (by omega)]
      cases hflag : reuseflag comID i with
      | true =>
        rw [taken_succ_reused hflag]
        exact ih (i + 1) (room + 1) s hroom
      | false =>
        have hkeep : (!false) = true := rfl
        rw [taken_succ_kept hflag, if_pos hkeep]
        have htemp : (stuffEntry prevPLT comID ch i s).tempCurPLTsize = s.tempCurPLTsize := rfl
        have hsize : (stuffEntry prevPLT comID ch i s).stuffPLTsize ch = s.stuffPLTsize ch + 1 :=
          Function.update_self ..
        obtain ⟨hrtemp, hrsize, hrbelow, hrkept, hrother⟩ :=
          ih (i + 1) room (stuffEntry prevPLT comID ch i s) (by rw [htemp, hsize]; omega)
        rw [htemp, hsize] at hrbelow hrkept
        refine ⟨hrtemp, ?_, fun comp k hk => ?_, fun comp hw j hj => ?_, fun comp hw => ?_⟩
        · rw [hrsize, hsize, List.length_cons]
          funext c
          by_cases hc : c = ch
          · rw [hc, Function.update_self, Function.update_self]
            omega
          · rw [Function.update_of_ne hc, Function.update_of_ne hc]
            exact Function.update_of_ne hc ..
        · rw [hrbelow comp k (by omega), stuffEntry_stuffedPLT, if_neg (by omega)]
        · cases j with
          | zero =>
            have h := hrbelow comp (s.tempCurPLTsize comID + s.stuffPLTsize ch) (by omega)
            rw [stuffEntry_stuffedPLT, if_pos ⟨hw, rfl⟩] at h
            exact h
          | succ j =>
            have h := hrkept comp hw j (by simpa using hj)
            have hpos : s.tempCurPLTsize comID + s.stuffPLTsize ch + (j + 1) =
                s.tempCurPLTsize comID + (s.stuffPLTsize ch + 1) + j := by omega
            rw [hpos]
            exact h
        · rw [hrother comp hw]
          funext k
          rw [stuffEntry_stuffedPLT, if_neg fun h => hw h.1]

/-! ## The three parts of the update -/

section
variable (curPLTSize curPLT)

/-- The current palette has been copied, and nothing has been stuffed. -/
theorem copied (t : Tree) (uninit : Stuffing) :
    let s := t.comps.foldl (copyCurPLT curPLTSize curPLT t.compBegin t.jointPLT) uninit
    s.tempCurPLTsize t.compBegin = curPLTSize t.compBegin ∧ (∀ i ∈ t.comps, s.stuffPLTsize i = 0) ∧
    ∀ i ∈ t.comps, ∀ k < curPLTSize t.compBegin, s.stuffedPLT i k = curPLT i k := by
  cases t <;>
    simp +contextual [Tree.comps, Tree.compBegin, Tree.numComp, Tree.jointPLT, List.range', copyCurPLT, comID, memcpy]

end

/-- One channel, of which nothing has been stuffed before. -/
theorem stuffChannel_spec (t : Tree) {ch : ℕ} (hch : ch ≤ 1) (hcom : comID t.jointPLT t.compBegin ch = t.compBegin)
    (s : Stuffing) (htemp : s.tempCurPLTsize t.compBegin = curPLTSize t.compBegin) (hzero : s.stuffPLTsize ch = 0)
    (hcur : curPLTSize t.compBegin ≤ t.maxPredPltSize) :
    let u := stuffChannel prevPLT reuseflag t.compBegin t.jointPLT t.maxPredPltSize s ch
    let kept := taken (reuseflag t.compBegin) 0 (prevPLT.curPLTSize t.compBegin)
      (t.maxPredPltSize - curPLTSize t.compBegin)
    u.tempCurPLTsize = s.tempCurPLTsize ∧ u.stuffPLTsize = Function.update s.stuffPLTsize ch kept.length ∧
    (∀ comp k, k < curPLTSize t.compBegin → u.stuffedPLT comp k = s.stuffedPLT comp k) ∧
    (∀ comp, writes ch comp → ∀ j (hj : j < kept.length),
      u.stuffedPLT comp (curPLTSize t.compBegin + j) = prevPLT.curPLT comp kept[j]) ∧
    ∀ comp, ¬writes ch comp → u.stuffedPLT comp = s.stuffedPLT comp := by
  have h := stuffEntries_spec prevPLT reuseflag t.maxPredPltSize t.compBegin ch
    (prevPLT.curPLTSize t.compBegin) 0 (t.maxPredPltSize - curPLTSize t.compBegin) s (by rw [htemp, hzero]; omega)
  dsimp only
  rw [stuffChannel, if_neg (Nat.not_lt_of_le hch), hcom]
  simpa only [htemp, hzero, Nat.add_zero, Nat.zero_add] using h

end

/-- All components of the tree hold the current palette and the entries that are taken. -/
structure Stuffed (prevPLT : PLTBuf) (curPLTSize : ℕ → ℕ) (curPLT : ℕ → ℕ → ℤ) (t : Tree) (kept : List ℕ)
    (s : Stuffing) : Prop where
  size : s.stuffPLTsize t.compBegin = kept.length
  current : ∀ i ∈ t.comps, ∀ k < curPLTSize t.compBegin, s.stuffedPLT i k = curPLT i k
  previous : ∀ i ∈ t.comps, ∀ j (hj : j < kept.length),
    s.stuffedPLT i (curPLTSize t.compBegin + j) = prevPLT.curPLT i kept[j]

theorem stuffed (prevPLT : PLTBuf) (curPLT : ℕ → ℕ → ℤ) (reuseflag : ℕ → ℕ → Bool) (t : Tree) (uninit : Stuffing)
    (hcur : curPLTSize t.compBegin ≤ t.maxPredPltSize) :
    Stuffed prevPLT curPLTSize curPLT t
      (taken (reuseflag t.compBegin) 0 (prevPLT.curPLTSize t.compBegin)
        (t.maxPredPltSize - curPLTSize t.compBegin))
      (t.comps.foldl (stuffChannel prevPLT reuseflag t.compBegin t.jointPLT t.maxPredPltSize)
        (t.comps.foldl (copyCurPLT curPLTSize curPLT t.compBegin t.jointPLT) uninit)) := by
  obtain ⟨htemp, hzero, hcopied⟩ := copied curPLTSize curPLT t uninit
  generalize t.comps.foldl (copyCurPLT curPLTSize curPLT t.compBegin t.jointPLT) uninit = s at htemp hzero hcopied
  cases t with
  | joint =>
    -- luma is stuffed first, then both components of chroma, with a counter of their own
    obtain ⟨htemp₁, hsize₁, hbelow₁, hkept₁, -⟩ := stuffChannel_spec prevPLT reuseflag
      .joint (Nat.zero_le 1) rfl s htemp (hzero 0 (by decide)) hcur
    set s₁ := stuffChannel prevPLT reuseflag Tree.joint.compBegin Tree.joint.jointPLT Tree.joint.maxPredPltSize s 0
    have hzero₁ : s₁.stuffPLTsize 1 = 0 := by
      rw [hsize₁, Function.update_of_ne (by decide)]
      exact hzero 1 (by decide)
    obtain ⟨-, hsize₂, hbelow₂, hkept₂, hother₂⟩ := stuffChannel_spec prevPLT reuseflag
      .joint (Nat.le_refl 1) rfl s₁ ((congrFun htemp₁ _).trans htemp) hzero₁ hcur
    refine ⟨?_, fun i hi k hk => ?_, fun i hi j hj => ?_⟩
    · refine (congrFun hsize₂ 0).trans ?_
      rw [Function.update_of_ne (by decide), hsize₁, Function.update_self]
    · refine (hbelow₂ i k hk).trans ((hbelow₁ i k hk).trans ?_)
      exact hcopied i hi k hk
    · by_cases hluma : i = 0
      · subst hluma
        refine (congrFun (hother₂ 0 (by decide)) _).trans ?_
        exact hkept₁ 0 (by decide) j hj
      · have hchroma : writes 1 i := by
          have hi : i ∈ [0, 1, 2] := hi
          simp only [List.mem_cons, List.not_mem_nil, or_false] at hi
          exact hi.resolve_left hluma
        exact hkept₂ i hchroma j hj
  | jointLuma | luma =>
    obtain ⟨-, hsize, hbelow, hkept, -⟩ := stuffChannel_spec prevPLT reuseflag
      _ (Nat.zero_le 1) rfl s htemp (hzero 0 (by decide)) hcur
    refine ⟨?_, fun i hi k hk => (hbelow i k hk).trans (hcopied i hi k hk), fun i hi j hj => ?_⟩
    · exact (congrFun hsize 0).trans (Function.update_self ..)
    · obtain rfl : i = 0 := List.mem_singleton.mp hi
      exact hkept 0 (by decide) j hj
  | chroma =>
    obtain ⟨-, hsize, hbelow, hkept, -⟩ := stuffChannel_spec prevPLT reuseflag
      .chroma (Nat.le_refl 1) rfl s htemp (hzero 1 (by decide)) hcur
    refine ⟨?_, fun i hi k hk => (hbelow i k hk).trans (hcopied i hi k hk), fun i hi j hj => ?_⟩
    · exact (congrFun hsize 1).trans (Function.update_self ..)
    · have hchroma : writes 1 i := by
        have hi : i ∈ [1, 2] := hi
        simp only [List.mem_cons, List.not_mem_nil, or_false] at hi
        exact hi
      exact hkept i hchroma j hj

theorem storeComp_ok {t : Tree} {i size : ℕ} (hcom : comID t.jointPLT t.compBegin i = t.compBegin) (s : Stuffing)
    (prevPLT : PLTBuf) (hsize : curPLTSize t.compBegin + s.stuffPLTsize t.compBegin = size)
    (hfits : size ≤ t.maxPredPltSize) :
    storeComp curPLTSize t.compBegin t.jointPLT t.maxPredPltSize s prevPLT i =
      .ok ⟨Function.update prevPLT.curPLTSize t.compBegin size,
        Function.update prevPLT.curPLT i (memcpy (prevPLT.curPLT i) (s.stuffedPLT i) size)⟩ := by
  simp only [storeComp, hcom, hsize]
  rw [check_ok _ (Nat.not_lt_of_le hfits)]
  rfl

/-- The components are stored one after the other, each with the same size. -/
theorem stored (t : Tree) (s : Stuffing) (prevPLT : PLTBuf) {size : ℕ}
    (hsize : curPLTSize t.compBegin + s.stuffPLTsize t.compBegin = size) (hfits : size ≤ t.maxPredPltSize) :
    t.comps.foldlM (storeComp curPLTSize t.compBegin t.jointPLT t.maxPredPltSize s) prevPLT =
      .ok ⟨Function.update prevPLT.curPLTSize t.compBegin size,
        fun comp => if comp ∈ t.comps then memcpy (prevPLT.curPLT comp) (s.stuffedPLT comp) size
          else prevPLT.curPLT comp⟩ := by
  have hcom : ∀ i ∈ t.comps, comID t.jointPLT t.compBegin i = t.compBegin := by cases t <;> decide
  have hnodup : t.comps.Nodup := List.nodup_range'
  have hne : t.comps ≠ [] := by cases t <;> decide
  -- over any components, of which the first stores the size
  suffices h : ∀ (comps : List ℕ) (buf : PLTBuf), (∀ i ∈ comps, comID t.jointPLT t.compBegin i = t.compBegin) →
      comps.Nodup → comps.foldlM (storeComp curPLTSize t.compBegin t.jointPLT t.maxPredPltSize s) buf =
        .ok ⟨if comps = [] then buf.curPLTSize else Function.update buf.curPLTSize t.compBegin size,
          fun comp => if comp ∈ comps then memcpy (buf.curPLT comp) (s.stuffedPLT comp) size
            else buf.curPLT comp⟩ by
    rw [h t.comps prevPLT hcom hnodup, if_neg hne]
  intro comps
  induction comps with
  | nil => exact fun _ _ _ => rfl
  | cons i comps ih =>
    intro buf hcom hnodup
    obtain ⟨hnot, hnodup⟩ := List.nodup_cons.mp hnodup
    rw [List.foldlM_cons, storeComp_ok (hcom i List.mem_cons_self) s buf hsize hfits, ok_bind,
      ih _ (fun j hj => hcom j (List.mem_cons_of_mem i hj)) hnodup, if_neg (List.cons_ne_nil i comps)]
    congr 2
    · dsimp only
      rw [Function.update_idem, ite_self]
    · funext comp
      dsimp only
      by_cases hi : comp = i
      · subst hi
        rw [if_neg hnot, if_pos List.mem_cons_self, Function.update_self]
      · rw [Function.update_of_ne hi]
        simp only [List.mem_cons, hi, false_or]

/-! ## The new predictor -/

theorem merged_eq {curSize prevSize limit : ℕ} (flags : ℕ → Bool) (h : curSize ≤ limit) :
    merged curSize prevSize flags limit =
      (List.range curSize).map Source.current ++
        (taken flags 0 prevSize (limit - curSize)).map Source.previous := by
  have hrange : List.range prevSize = List.range' 0 prevSize := List.range_eq_range'
  rw [merged, List.take_append, List.take_of_length_le (by simpa using h), List.length_map, List.length_range, taken,
    notReused, hrange, List.map_take]

/-- For every predictor, palette and flags, in the tree that is treated: the call succeeds, in
each component of the tree the predictor is the list `merged`, taken from the palette and the
old predictor of that component, and everything else is as it was. -/
theorem reorderPrevPLT_merged (t : Tree) (prevPLT : PLTBuf) (curPLTSize : ℕ → ℕ) (curPLT : ℕ → ℕ → ℤ)
    (reuseflag : ℕ → ℕ → Bool) (uninit : Stuffing) (hcur : curPLTSize t.compBegin ≤ t.maxPltSize) :
    ∃ buf, reorderPrevPLT prevPLT curPLTSize curPLT reuseflag t.compBegin t.numComp t.jointPLT uninit = .ok buf ∧
      (∀ comp ∈ t.comps, entries buf t.compBegin comp =
        (merged (curPLTSize t.compBegin) (prevPLT.curPLTSize t.compBegin) (reuseflag t.compBegin)
          t.maxPredPltSize).map (Source.entry (curPLT comp) (prevPLT.curPLT comp))) ∧
      (∀ ch, ch ≠ t.compBegin → buf.curPLTSize ch = prevPLT.curPLTSize ch) ∧
      ∀ comp, comp ∉ t.comps → buf.curPLT comp = prevPLT.curPLT comp := by
  have hroom : curPLTSize t.compBegin ≤ t.maxPredPltSize := by
    refine Nat.le_trans hcur ?_
    cases t <;> decide
  have hstuffed := stuffed prevPLT curPLT reuseflag t uninit hroom
  set kept := taken (reuseflag t.compBegin) 0 (prevPLT.curPLTSize t.compBegin)
    (t.maxPredPltSize - curPLTSize t.compBegin) with hkept
  have hfits : curPLTSize t.compBegin + kept.length ≤ t.maxPredPltSize := by
    have hlen : kept.length ≤ t.maxPredPltSize - curPLTSize t.compBegin := List.length_take_le _ _
    omega
  generalize hs : t.comps.foldl (stuffChannel prevPLT reuseflag t.compBegin t.jointPLT t.maxPredPltSize)
    (t.comps.foldl (copyCurPLT curPLTSize curPLT t.compBegin t.jointPLT) uninit) = s at hstuffed
  have hrun : reorderPrevPLT prevPLT curPLTSize curPLT reuseflag t.compBegin t.numComp t.jointPLT uninit =
      t.comps.foldlM (storeComp curPLTSize t.compBegin t.jointPLT t.maxPredPltSize s) prevPLT := by
    rw [← hs]
    rfl
  have hsize : curPLTSize t.compBegin + s.stuffPLTsize t.compBegin = curPLTSize t.compBegin + kept.length := by
    rw [hstuffed.size]
  rw [hrun, stored t s prevPLT hsize hfits]
  refine ⟨_, rfl, fun comp hcomp => ?_, fun ch hch => ?_, fun comp hcomp => if_neg hcomp⟩
  · rw [merged_eq _ hroom, ← hkept, entries]
    dsimp only
    rw [Function.update_self, if_pos hcomp, List.range_add, List.map_append,
      List.map_append, List.map_map, List.map_map, List.map_map]
    congr 1
    · refine List.map_congr_left fun k hk => ?_
      have hk := List.mem_range.mp hk
      rw [memcpy, if_pos (by omega)]
      exact hstuffed.current comp hcomp k hk
    · refine List.ext_getElem (by simp) fun j hj hj' => ?_
      have hj : j < kept.length := by simpa using hj
      simp only [List.getElem_map, List.getElem_range, Function.comp_apply, Source.entry]
      rw [memcpy, if_pos (by omega)]
      exact hstuffed.previous comp hcomp j hj
  · exact Function.update_of_ne hch ..

/-- One new entry, and the second of three entries reused. -/
theorem reorderPrevPLT_merged_joint : ∃ buf,
    reorderPrevPLT ⟨fun _ => 3, fun comp i => 100 * comp + 10 + i⟩ (fun _ => 1) (fun comp _ => 100 * comp + 5)
      (fun _ i => i = 1) 0 3 true ⟨fun _ _ => 0, fun _ => 0, fun _ => 0⟩ = .ok buf ∧
    entries buf 0 0 = [5, 10, 12] ∧ entries buf 0 1 = [105, 110, 112] ∧ entries buf 0 2 = [205, 210, 212] := by
  obtain ⟨buf, hbuf, hentries, -⟩ := reorderPrevPLT_merged .joint ⟨fun _ => 3, fun comp i => 100 * comp + 10 + i⟩
    (fun _ => 1) (fun comp _ => 100 * comp + 5) (fun _ i => i = 1) ⟨fun _ _ => 0, fun _ => 0, fun _ => 0⟩ (by decide)
  exact ⟨buf, hbuf, (hentries 0 (by decide)).trans (by decide), (hentries 1 (by decide)).trans (by decide),
    (hentries 2 (by decide)).trans (by decide)⟩

end ECM.Palette
