import ECM.CommonLib.UnitPartitionerSoundness

/-! # Walks over the tree of splits

`coding_tree` and `transform_tree` visit the areas of a CTU alike: they enter
the split that was decided on, visit its parts one after the other and leave
it. The walk here takes the decisions from a function of the state, which names
every node of the tree by its stack. -/

namespace ECM.Partition
open CommonLib PartSplit Partitioner

/-- `do { visit } while( partitioner.nextPart( cs ) )` over `n` parts. -/
def partsLoop (visit : Partitioner → Checked (List UnitArea × Partitioner)) :
    Nat → Partitioner → Checked (List UnitArea × Partitioner)
  | 0, _ => .error "no part left"
  | n + 1, p => do
    let (areas, p) ← visit p
    let (more, p) ← p.nextPart false
    if more then do
      let (rest, p) ← partsLoop visit n p
      return (areas ++ rest, p)
    else return (areas, p)

/-- The leaf areas of the tree below the current area, at most `depth` splits deep. -/
def codingTree (cs : CodingStructure) (decision : Partitioner → Option PartSplit) :
    Nat → Partitioner → Checked (List UnitArea × Partitioner)
  | 0, _ => .error "coding tree too deep"
  | depth + 1, p =>
    match decision p with
    | none => .ok ([p.currArea], p)
    | some split => do
      let p ← p.splitCurrArea cs split
      let (areas, p) ← partsLoop (codingTree cs decision depth) p.back.parts.length p
      let p ← p.exitCurrSplit
      return (areas, p)

variable {cs : CodingStructure} {p q r : Partitioner} {split : PartSplit}

/-- The partitioner is back at the part it was at. -/
structure Returned (cs : CodingStructure) (p q : Partitioner) : Prop where
  ok : PartitionerOk cs q
  below : q.below = p.below
  chType : q.chType = p.chType
  split : q.back.split = p.back.split
  parts : q.back.parts = p.back.parts
  idx : q.back.idx = p.back.idx

theorem Returned.refl (hp : PartitionerOk cs p) : Returned cs p p := ⟨hp, rfl, rfl, rfl, rfl, rfl⟩

/-- The partitioner is at some level, at any of its parts. -/
structure AtLevel (cs : CodingStructure) (q p : Partitioner) : Prop where
  ok : PartitionerOk cs p
  below : p.below = q.below
  chType : p.chType = q.chType
  split : p.back.split = q.back.split
  parts : p.back.parts = q.back.parts

theorem AtLevel.refl (hp : PartitionerOk cs p) : AtLevel cs p p := ⟨hp, rfl, rfl, rfl, rfl⟩

theorem AtLevel.returned (h : AtLevel cs q p) (hr : Returned cs p r) : AtLevel cs q r :=
  ⟨hr.ok, hr.below.trans h.below, hr.chType.trans h.chType, hr.split.trans h.split, hr.parts.trans h.parts⟩

/-- The next part, after a visit of the current one. -/
theorem AtLevel.nextPart (h : AtLevel cs q p) (hpart : p.back.idx < q.back.parts.length)
    (hbelow : q.below ≠ []) :
    ∃ r, p.nextPart false = .ok (decide (p.back.idx + 1 < q.back.parts.length), r) ∧ AtLevel cs q r ∧
      r.back.idx = p.back.idx + 1 := by
  rw [← h.parts] at hpart
  rw [← h.below] at hbelow
  obtain ⟨r, hr, hok, hbel, hch, hs, hparts, hidx⟩ := nextPart_spec h.ok hpart hbelow
  rw [h.parts] at hr
  exact ⟨r, hr, ⟨hok, hbel.trans h.below, hch.trans h.chType, hs.trans h.split, hparts.trans h.parts⟩, hidx⟩

/-! ## The loop over the parts -/

section Loop
variable {visit : Partitioner → Checked (List UnitArea × Partitioner)}
  {S : UnitArea → List UnitArea → Prop} {areas : List UnitArea}

/-- The loop gathers what the visits of the parts give. -/
theorem partsLoop_spec (hbelow : q.below ≠ [])
    (hvisit : ∀ p areas p', AtLevel cs q p → p.back.idx < q.back.parts.length →
      visit p = .ok (areas, p') → Returned cs p p' ∧ S p.currArea areas) :
    ∀ n {p areas p'}, AtLevel cs q p → p.back.idx + n = q.back.parts.length →
      partsLoop visit n p = .ok (areas, p') →
      AtLevel cs q p' ∧ ∃ g : ℕ → List UnitArea, areas = (List.range n).flatMap g ∧
        ∀ j < n, S (q.back.parts.getD (p.back.idx + j) default) (g j) := by
  intro n
  induction n with
  | zero =>
    intro p areas p' _ _ h
    cases h
  | succ n ih =>
    intro p areas p' hat hn h
    have hpart : p.back.idx < q.back.parts.length := by omega
    rw [partsLoop] at h
    obtain ⟨⟨as, p1⟩, hv, h⟩ := bind_eq_ok h
    obtain ⟨hret, hS⟩ := hvisit p as p1 hat hpart hv
    have hcur : p.currArea = q.back.parts.getD (p.back.idx + 0) default := by
      unfold Partitioner.currArea currPartIdx
      rw [hat.parts]
      rfl
    rw [hcur] at hS
    have hat1 := hat.returned hret
    obtain ⟨p2, hp2, hat2, hidx2⟩ := hat1.nextPart (by rw [hret.idx]; exact hpart) hbelow
    dsimp only at h
    rw [hp2, ok_bind] at h
    dsimp only at h
    rw [hret.idx] at h hidx2
    by_cases hmore : p.back.idx + 1 < q.back.parts.length
    · rw [if_pos (decide_eq_true hmore)] at h
      obtain ⟨⟨rest, p3⟩, hrest, h⟩ := bind_eq_ok h
      obtain ⟨hat3, g, hg, hgS⟩ := ih hat2 (by omega) hrest
      cases h
      refine ⟨hat3, fun j => if j = 0 then as else g (j - 1), ?_, ?_⟩
      · rw [List.range_succ_eq_map, List.flatMap_cons, List.flatMap_map, hg]
        rfl
      · intro j hj
        cases j with
        | zero => exact hS
        | succ j =>
          have hj' := hgS j (by omega)
          rw [hidx2] at hj'
          rw [show p.back.idx + (j + 1) = p.back.idx + 1 + j by omega]
          exact hj'
    · rw [if_neg (by simpa using hmore)] at h
      cases h
      have hn0 : n = 0 := by omega
      subst hn0
      refine ⟨hat2, fun _ => areas, (List.append_nil areas).symm, ?_⟩
      intro j hj
      obtain rfl : j = 0 := by omega
      exact hS

/-- Visits that always succeed make a loop that succeeds. -/
theorem partsLoop_total (hbelow : q.below ≠ [])
    (hvisit : ∀ p, AtLevel cs q p → p.back.idx < q.back.parts.length →
      ∃ areas p', visit p = .ok (areas, p') ∧ Returned cs p p') :
    ∀ n {p}, AtLevel cs q p → p.back.idx + n + 1 = q.back.parts.length →
      ∃ areas p', partsLoop visit (n + 1) p = .ok (areas, p') ∧ AtLevel cs q p' := by
  intro n
  induction n with
  | zero =>
    intro p hat hn
    have hpart : p.back.idx < q.back.parts.length := by omega
    obtain ⟨as, p1, hv, hret⟩ := hvisit p hat hpart
    obtain ⟨p2, hp2, hat2, -⟩ := (hat.returned hret).nextPart (by rw [hret.idx]; exact hpart) hbelow
    rw [hret.idx] at hp2
    refine ⟨as, p2, ?_, hat2⟩
    rw [partsLoop, hv, ok_bind]
    dsimp only
    rw [hp2, ok_bind]
    exact if_neg (by rw [decide_eq_true_eq]; omega)
  | succ n ih =>
    intro p hat hn
    have hpart : p.back.idx < q.back.parts.length := by omega
    obtain ⟨as, p1, hv, hret⟩ := hvisit p hat hpart
    obtain ⟨p2, hp2, hat2, hidx2⟩ := (hat.returned hret).nextPart (by rw [hret.idx]; exact hpart) hbelow
    rw [hret.idx] at hp2 hidx2
    obtain ⟨rest, p3, hrest, hat3⟩ := ih hat2 (by omega)
    refine ⟨as ++ rest, p3, ?_, hat3⟩
    rw [partsLoop, hv, ok_bind]
    dsimp only
    rw [hp2, ok_bind]
    dsimp only
    rw [if_pos (by rw [decide_eq_true_eq]; omega), hrest]
    rfl

end Loop

/-! ## The walk -/

/-- What carries a property of the parts of every level, and one of the leaf
areas found below an area, over a walk. -/
structure TreeRule (cs : CodingStructure) (decision : Partitioner → Option PartSplit)
    (L : PartSplit → List UnitArea → Prop) (S : UnitArea → List UnitArea → Prop) : Prop where
  split : ∀ p split, PartitionerOk cs p → p.back.idx < p.back.parts.length →
    L p.back.split p.back.parts → decision p = some split →
    (split.isCu = true ∨ split.isTu = true) ∧ (split.isCu = true → p.back.split.isTu = false)
  level : ∀ p split parts, PartitionerOk cs p → p.back.idx < p.back.parts.length →
    L p.back.split p.back.parts → decision p = some split → p.admits cs split = true →
    p.splitParts cs split = .ok parts → L split parts
  leaf : ∀ p, PartitionerOk cs p → p.back.idx < p.back.parts.length → L p.back.split p.back.parts →
    decision p = none → S p.currArea [p.currArea]
  node : ∀ p split parts g, PartitionerOk cs p → p.back.idx < p.back.parts.length →
    L p.back.split p.back.parts → decision p = some split → p.admits cs split = true →
    p.splitParts cs split = .ok parts → (∀ j < parts.length, S (parts.getD j default) (g j)) →
    S p.currArea ((List.range parts.length).flatMap g)

variable {decision : Partitioner → Option PartSplit} {L : PartSplit → List UnitArea → Prop}
  {S : UnitArea → List UnitArea → Prop}

/-- Leaving a level that was entered from `p`. -/
theorem exit_returned {parts : List UnitArea} (hE : Entered cs p split parts q) (hat : AtLevel cs q r) :
    ∃ p', r.exitCurrSplit = .ok p' ∧ Returned cs p p' := by
  obtain ⟨p', hexit, hok, hback, hbel, hch⟩ := exitCurrSplit_spec hat.ok (hat.below.trans hE.below)
  refine ⟨p', hexit, hok, hbel, hch.trans (hat.chType.trans hE.chType), ?_, ?_, ?_⟩
  all_goals
    rw [hback]
    rfl

theorem codingTree_spec (hr : TreeRule cs decision L S) (depth : ℕ) : ∀ {p areas p'}, PartitionerOk cs p →
    p.back.idx < p.back.parts.length → L p.back.split p.back.parts →
    codingTree cs decision depth p = .ok (areas, p') → Returned cs p p' ∧ S p.currArea areas := by
  induction depth with
  | zero =>
    intro p areas p' _ _ _ h
    cases h
  | succ depth ih =>
    intro p areas p' hp hpart hL h
    rw [codingTree] at h
    cases hd : decision p with
    | none =>
      rw [hd] at h
      cases h
      exact ⟨Returned.refl hp, hr.leaf p hp hpart hL hd⟩
    | some split =>
      rw [hd] at h
      dsimp only at h
      obtain ⟨hs, hcu⟩ := hr.split p split hp hpart hL hd
      obtain ⟨q, hq, h⟩ := bind_eq_ok h
      obtain ⟨hadm, parts, hparts, hE⟩ := splitCurrArea_ok hp hs hpart hcu hq
      have hL' := hr.level p split parts hp hpart hL hd hadm hparts
      have hok := entered_ok hp hs hpart hcu hadm hparts hE
      obtain ⟨⟨as, r⟩, hloop, h⟩ := bind_eq_ok h
      obtain ⟨hat, g, hg, hgS⟩ := partsLoop_spec (by rw [hE.below]; exact List.cons_ne_nil _ _)
        (fun p1 as1 p1' hat1 hpart1 hv => ih hat1.ok (by rw [hat1.parts]; exact hpart1)
          (by rw [hat1.split, hat1.parts, hE.split, hE.parts]; exact hL') hv)
        _ (AtLevel.refl hok) (by rw [hE.idx, Nat.zero_add]) hloop
      obtain ⟨p'', hexit, hret⟩ := exit_returned hE hat
      dsimp only at h
      rw [hexit] at h
      cases h
      refine ⟨hret, ?_⟩
      rw [hE.parts] at hg hgS
      simp only [hE.idx, Nat.zero_add] at hgS
      rw [hg]
      exact hr.node p split parts g hp hpart hL hd hadm hparts hgS

/-- A walk succeeds where every split decided on is admitted and has parts,
with room for as many splits as the areas can be split. -/
theorem codingTree_total (hr : TreeRule cs decision L S) {rank : UnitArea → ℕ}
    (hstep : ∀ p split, PartitionerOk cs p → p.back.idx < p.back.parts.length →
      L p.back.split p.back.parts → decision p = some split → p.admits cs split = true ∧
      ∃ parts, p.splitParts cs split = .ok parts ∧ parts ≠ [] ∧ ∀ a ∈ parts, rank a < rank p.currArea)
    (depth : ℕ) : ∀ {p}, PartitionerOk cs p → p.back.idx < p.back.parts.length →
    L p.back.split p.back.parts → rank p.currArea < depth →
    ∃ areas p', codingTree cs decision depth p = .ok (areas, p') := by
  induction depth with
  | zero =>
    intro p _ _ _ h
    exact absurd h (Nat.not_lt_zero _)
  | succ depth ih =>
    intro p hp hpart hL hrank
    rw [codingTree]
    cases hd : decision p with
    | none => exact ⟨_, _, rfl⟩
    | some split =>
      dsimp only
      obtain ⟨hs, hcu⟩ := hr.split p split hp hpart hL hd
      obtain ⟨hadm, parts, hparts, hne, hlt⟩ := hstep p split hp hpart hL hd
      obtain ⟨f, hf, hE⟩ := splitCurrArea_eq hp hs hpart hcu hadm
      rw [hparts, ok_bind] at hf
      have hE := hE parts
      have hL' := hr.level p split parts hp hpart hL hd hadm hparts
      have hok := entered_ok hp hs hpart hcu hadm hparts hE
      obtain ⟨n, hn⟩ : ∃ n, parts.length = n + 1 := Nat.exists_eq_succ_of_ne_zero (by simpa using hne)
      have hvisit : ∀ p1, AtLevel cs (f parts) p1 → p1.back.idx < (f parts).back.parts.length →
          ∃ as p1', codingTree cs decision depth p1 = .ok (as, p1') ∧ Returned cs p1 p1' := by
        intro p1 hat1 hpart1
        have hpart1' : p1.back.idx < p1.back.parts.length := by rw [hat1.parts]; exact hpart1
        have hL1 : L p1.back.split p1.back.parts := by
          rw [hat1.split, hat1.parts, hE.split, hE.parts]
          exact hL'
        have hmem : p1.currArea ∈ parts := by
          have hget : p1.currArea = p1.back.parts[p1.back.idx] := (List.getElem_eq_getD default).symm
          rw [hget, ← hE.parts, ← hat1.parts]
          exact List.getElem_mem hpart1'
        obtain ⟨as, p1', h1⟩ := ih hat1.ok hpart1' hL1 (by have := hlt _ hmem; omega)
        exact ⟨as, p1', h1, (codingTree_spec hr depth hat1.ok hpart1' hL1 h1).1⟩
      obtain ⟨as, r, hloop, hat⟩ := partsLoop_total (by rw [hE.below]; exact List.cons_ne_nil _ _) hvisit n
        (AtLevel.refl hok) (by rw [hE.idx, hE.parts, hn, Nat.zero_add])
      obtain ⟨p', hexit, -⟩ := exit_returned hE hat
      refine ⟨as, p', ?_⟩
      rw [hf, ok_bind, hE.parts, hn, hloop, ok_bind]
      dsimp only
      rw [hexit]
      rfl

end ECM.Partition
