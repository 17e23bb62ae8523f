import ECM.CommonLib.MotionLut

/-! # The motion tables over any calls

Each table holds the motions that were last added to it. -/

namespace ECM.Motion.History
open CommonLib.MotionLut Lib.RecencyList

/-! ## Being the same -/

theorem motionInfo_same : Equivalence fun a b : MotionInfo => a.eq b = true where
  refl a := by simp [MotionInfo.eq, MotionInfo.eqList]
  symm := by
    intro a b h
    simp only [MotionInfo.eq, MotionInfo.eqList, Bool.and_eq_true, Bool.or_eq_true, Bool.not_eq_true',
      decide_eq_true_eq] at h ⊢
    obtain ⟨⟨hinter, hibc⟩, h⟩ := h
    refine ⟨⟨hinter.symm, hibc.symm⟩, h.imp (fun h => hinter ▸ h) ?_⟩
    rintro ⟨⟨⟨hslice, hdir⟩, h0⟩, h1⟩
    exact ⟨⟨⟨hslice.symm, hdir.symm⟩, h0.imp (fun h => hdir ▸ h) fun h => ⟨h.1.symm, h.2.symm⟩⟩,
      h1.imp (fun h => hdir ▸ h) fun h => ⟨h.1.symm, h.2.symm⟩⟩
  trans := by
    intro a b c h h'
    simp only [MotionInfo.eq, MotionInfo.eqList, Bool.and_eq_true, Bool.or_eq_true, Bool.not_eq_true',
      decide_eq_true_eq] at h h' ⊢
    obtain ⟨⟨hinter, hibc⟩, h⟩ := h
    obtain ⟨⟨hinter', hibc'⟩, h'⟩ := h'
    refine ⟨⟨hinter.trans hinter', hibc.trans hibc'⟩, ?_⟩
    rcases h with hno | ⟨⟨⟨hslice, hdir⟩, h0⟩, h1⟩
    · exact .inl hno
    rcases h' with hno | ⟨⟨⟨hslice', hdir'⟩, h0'⟩, h1'⟩
    · exact .inl (hinter ▸ hno)
    have hlist {d : ℕ} {p q : Prop} (hp : a.interDir = d ∨ p) (hq : b.interDir = d ∨ q) :
        a.interDir = d ∨ (p ∧ q) := by
      rw [hdir] at hp ⊢
      rcases hp with hd | hp
      · exact .inl hd
      · exact hq.imp_right fun hq => ⟨hp, hq⟩
    refine .inr ⟨⟨⟨hslice.trans hslice', hdir.trans hdir'⟩, (hlist h0 h0').imp_right ?_⟩,
      (hlist h1 h1').imp_right ?_⟩
    · rintro ⟨h, h'⟩
      exact ⟨h.1.trans h'.1, h.2.trans h'.2⟩
    · rintro ⟨h, h'⟩
      exact ⟨h.1.trans h'.1, h.2.trans h'.2⟩

theorem affineMotionInfo_same : Equivalence fun a b : AffineMotionInfo => a.eq b = true where
  refl a := by simp [AffineMotionInfo.eq]
  symm h := by
    simp only [AffineMotionInfo.eq, decide_eq_true_eq] at h ⊢
    exact h.symm
  trans h h' := by
    simp only [AffineMotionInfo.eq, decide_eq_true_eq] at h h' ⊢
    exact h.trans h'

theorem affineInheritInfo_same : Equivalence fun a b : AffineInheritInfo => a.eq b = true where
  refl a := by simp [AffineInheritInfo.eq, AffineInheritInfo.eqList]
  symm := by
    intro a b h
    simp only [AffineInheritInfo.eq, AffineInheritInfo.eqList, Bool.and_eq_true, Bool.or_eq_true,
      decide_eq_true_eq] at h ⊢
    obtain ⟨⟨⟨href0, href1⟩, h0⟩, h1⟩ := h
    exact ⟨⟨⟨href0.symm, href1.symm⟩, h0.imp (fun h => href0 ▸ h) Eq.symm⟩, h1.imp (fun h => href1 ▸ h) Eq.symm⟩
  trans := by
    intro a b c h h'
    simp only [AffineInheritInfo.eq, AffineInheritInfo.eqList, Bool.and_eq_true, Bool.or_eq_true,
      decide_eq_true_eq] at h h' ⊢
    obtain ⟨⟨⟨href0, href1⟩, h0⟩, h1⟩ := h
    obtain ⟨⟨⟨href0', href1'⟩, h0'⟩, h1'⟩ := h'
    refine ⟨⟨⟨href0.trans href0', href1.trans href1'⟩, ?_⟩, ?_⟩
    · rcases h0 with h0 | h0
      · exact .inl h0
      · exact h0'.imp (fun h => href0.trans h) h0.trans
    · rcases h1 with h1 | h1
      · exact .inl h1
      · exact h1'.imp (fun h => href1.trans h) h1.trans

/-! ## What a call adds to a table -/

def toLut : LutCall → List MotionInfo
  | .addMiToLut mi => [mi]
  | _ => []

def toLutIbc : LutCall → List MotionInfo
  | .addMiToLutIBC mi => [mi]
  | _ => []

def toLutAff (idx : Fin (2 * MAX_NUM_AFFHMVP_ENTRIES_ONELIST)) : LutCall → List AffineMotionInfo
  | .addAffMiToLut addMi refIdx =>
    ([⟨0, Nat.zero_lt_two⟩, ⟨1, Nat.one_lt_two⟩].filter fun reflist => affineTarget addMi refIdx reflist = some idx).map addMi
  | _ => []

def toLutAffInherit : LutCall → List AffineInheritInfo
  | .addAffInheritToLut mi => [mi]
  | _ => []

theorem call_lut (s : LutMotionCand) (c : LutCall) : (s.call c).lut = (toLut c).foldl addMiToLut s.lut := by
  cases c <;> rfl

theorem call_lutIbc (s : LutMotionCand) (c : LutCall) :
    (s.call c).lutIbc = (toLutIbc c).foldl addMiToLutIBC s.lutIbc := by
  cases c <;> rfl

theorem call_lutAffInherit (s : LutMotionCand) (c : LutCall) :
    (s.call c).lutAffInherit = (toLutAffInherit c).foldl addAffInheritToLut s.lutAffInherit := by
  cases c <;> rfl

/-- The two reference lists one after the other, seen from one table. -/
theorem call_lutAff (idx : Fin (2 * MAX_NUM_AFFHMVP_ENTRIES_ONELIST)) (s : LutMotionCand) (c : LutCall) :
    (s.call c).lutAff idx =
      (toLutAff idx c).foldl (addRecent MAX_NUM_AFF_HMVP_CANDS AffineMotionInfo.eq) (s.lutAff idx) := by
  cases c with
  | addMiToLut mi => rfl
  | addMiToLutIBC mi => rfl
  | addAffInheritToLut mi => rfl
  | addAffMiToLut addMi refIdx =>
    have hlists : ([⟨0, Nat.zero_lt_two⟩, ⟨1, Nat.one_lt_two⟩] : List (Fin 2)) = [0, 1] := rfl
    simp only [LutMotionCand.call, toLutAff, addAffMiToLut, hlists]
    generalize s.lutAff = lutSet
    generalize ([0, 1] : List (Fin 2)) = reflists
    induction reflists generalizing lutSet with
    | nil => rfl
    | cons reflist reflists ih =>
      rw [List.foldl_cons, ih]
      cases htarget : affineTarget addMi refIdx reflist with
      | none => rw [List.filter_cons_of_neg (by simp [htarget])]
      | some target =>
        by_cases hidx : target = idx
        · subst hidx
          rw [List.filter_cons_of_pos (by simp [htarget]), List.map_cons, List.foldl_cons]
          simp only [Function.update_self]
        · rw [List.filter_cons_of_neg (by simp [htarget, hidx])]
          simp only [Function.update_of_ne (Ne.symm hidx)]

/-! ## Any calls -/

/-- After any calls each table holds what was last added to it: within its capacity, no two
the same, the newest last, and nothing is missing that was not displaced. -/
theorem tables_recent (calls : List LutCall) :
    RecentlyAdded MAX_NUM_HMVP_CANDS MotionInfo.eq (calls.flatMap toLut)
      (calls.foldl LutMotionCand.call .empty).lut ∧
    RecentlyAdded MAX_NUM_HMVP_IBC_CANDS MotionInfo.eq (calls.flatMap toLutIbc)
      (calls.foldl LutMotionCand.call .empty).lutIbc ∧
    (∀ idx, RecentlyAdded MAX_NUM_AFF_HMVP_CANDS AffineMotionInfo.eq (calls.flatMap (toLutAff idx))
      ((calls.foldl LutMotionCand.call .empty).lutAff idx)) ∧
    RecentlyAdded MAX_NUM_AFF_INHERIT_HMVP_CANDS AffineInheritInfo.eq (calls.flatMap toLutAffInherit)
      (calls.foldl LutMotionCand.call .empty).lutAffInherit := by
  refine ⟨?_, ?_, fun idx => ?_, ?_⟩
  · rw [foldl_part LutMotionCand.lut call_lut]
    exact foldl_addRecent motionInfo_same (by decide) _
  · rw [foldl_part LutMotionCand.lutIbc call_lutIbc]
    exact foldl_addRecent motionInfo_same (by decide) _
  · rw [foldl_part (fun s : LutMotionCand => s.lutAff idx) (call_lutAff idx)]
    exact foldl_addRecent affineMotionInfo_same (by decide) _
  · rw [foldl_part LutMotionCand.lutAffInherit call_lutAffInherit]
    exact foldl_addRecent affineInheritInfo_same (by decide) _

end ECM.Motion.History
