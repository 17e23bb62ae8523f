import ECM.Partition.Relinking
import ECM.Partition.UnitRuns

/-! # Luma and chroma units of a dual tree

Without a chroma partitioner `coding_tree` adds the units of one channel, one
after the other. With one it adds the luma and then the chroma units of each
region, and links the list anew at every level, so that a region leaves all its
luma units before all its chroma units. -/

namespace ECM.Partition
open CommonLib Lib.LinkedList PartSplit Partitioner CodingUnits DecoderLib DecoderLib.CodingTreeReader List
open Relinking

variable {σ α β : Type}

/-! ## Runs that end well or in a `CHECK` -/

/-- The result, if there is one, is as described; if there is none a `CHECK` fired. -/
def Yields (x : CodingTreeReader.Tree α) (P : α → Prop) : Prop :=
  match x with
  | .ok a => P a
  | .error (.check _) => True
  | .error _ => False

theorem Yields.bind {x : CodingTreeReader.Tree α} {f : α → CodingTreeReader.Tree β} {Q : α → Prop} {P : β → Prop}
    (h : Yields x Q) (hf : ∀ a, Q a → Yields (f a) P) : Yields (x >>= f) P := by
  cases x with
  | ok a => exact hf a h
  | error e =>
    cases e with
    | check msg => exact trivial
    | nullPointer => exact h.elim
    | unending => exact h.elim

theorem Yields.mono {x : CodingTreeReader.Tree α} {Q P : α → Prop} (h : Yields x Q) (hQ : ∀ a, Q a → P a) : Yields x P := by
  cases x with
  | ok a => exact hQ a h
  | error e => cases e <;> exact h

theorem Yields.lift {x : Checked α} {P : α → Prop} (h : ∀ a, x = .ok a → P a) :
    Yields (DecoderLib.CodingTreeReader.lift x) P := by
  cases x with
  | ok a => exact h a rfl
  | error msg => exact trivial

/-- The result is the one that was computed. -/
theorem Yields.eq {x : CodingTreeReader.Tree α} {P : α → Prop} (h : Yields x P) : Yields x fun a => P a ∧ x = .ok a := by
  cases x with
  | ok a => exact ⟨h, rfl⟩
  | error e => cases e <;> exact h

/-! ## The nodes of the tree -/

/-- A dual tree with chroma, in a picture whose sides are multiples of eight. -/
structure DualReader (r : TreeReader σ) : Prop where
  dual : r.cs.isDualITree = true
  chroma : r.chromaFormat ≠ .chroma400
  width : 8 ∣ r.cs.picWidth
  height : 8 ∣ r.cs.picHeight

/-- The partitioner is at a part of the coding tree. -/
structure NodeOk (r : TreeReader σ) (p : Partitioner) : Prop where
  ok : PartitionerOk r.cs p
  part : p.back.idx < p.back.parts.length
  coding : p.back.split.isTu = false
  units : ∀ a ∈ p.back.parts, CuUnit r.chromaFormat a

variable {r : TreeReader σ} {p q pC : Partitioner} {s : TreeState σ} {split : PartSplit}

theorem NodeOk.unit (h : NodeOk r p) : CuUnit r.chromaFormat p.currArea := h.units _ (currArea_mem h.part)

theorem NodeOk.looked (h : NodeOk r p) : NodeOk r (p.looked r.cs) := ⟨looked_ok h.ok, h.part, h.coding, h.units⟩

theorem returned_looked (h : NodeOk r p) : Returned r.cs p (p.looked r.cs) := ⟨looked_ok h.ok, rfl, rfl, rfl, rfl, rfl⟩

theorem Returned.currArea {cs : CodingStructure} (h : Returned cs p q) : q.currArea = p.currArea := by
  unfold Partitioner.currArea currPartIdx
  rw [h.parts, h.idx]

theorem NodeOk.returned (h : NodeOk r p) (hret : Returned r.cs p q) : NodeOk r q := by
  refine ⟨hret.ok, ?_, ?_, ?_⟩
  · rw [hret.idx, hret.parts]
    exact h.part
  · rw [hret.split]
    exact h.coding
  · rw [hret.parts]
    exact h.units

theorem Returned.of_looked (h : Returned r.cs (p.looked r.cs) q) : Returned r.cs p q :=
  ⟨h.ok, h.below, h.chType, h.split, h.parts, h.idx⟩

/-- A part begins in the picture in both channels, or in none. -/
theorem NodeOk.begins_eq (hr : DualReader r) (h : NodeOk r p) :
    r.begins p = r.cs.picture.contains p.currArea.Y.pos := by
  obtain ⟨⟨w, hw⟩, ⟨v, hv⟩⟩ := And.intro hr.width hr.height
  unfold TreeReader.begins
  rw [h.unit.scaled]
  generalize p.currArea.Y = b
  cases p.chType with
  | luma => rfl
  | chroma =>
    simp only [CodingStructure.area, UnitArea.ofArea, UnitArea.blockOf, UnitArea.Cb, if_neg hr.chroma, headD_cons]
    rw [Bool.eq_iff_iff, CompArea.contains_iff, CompArea.contains_iff]
    simp only [CompArea.recalcLumaToChroma, CodingStructure.picture, CompArea.pos, hw, hv, Int.shiftRight_eq_div_pow,
      Nat.shiftRight_eq_div_pow]
    cases hf : r.chromaFormat
    case chroma400 => exact absurd hf hr.chroma
    all_goals
      simp [getChannelTypeScaleX, getChannelTypeScaleY]
    all_goals omega

/-! ## A level that is entered -/

/-- The parts of a split of the coding tree, at the first of them. -/
structure LevelEntered (r : TreeReader σ) (p : Partitioner) (split : PartSplit) (q : Partitioner) : Prop where
  entered : Entered r.cs p split q.back.parts q
  ok : PartitionerOk r.cs q
  parts : q.back.parts = (List.range (cuParts split)).map fun i => p.currArea.mapBlocks (cuBlock split i)
  coding : split.isTu = false
  units : ∀ a ∈ q.back.parts, CuUnit r.chromaFormat a
  partAt : ∀ j < q.back.parts.length, PartAt p.currArea.Y j (q.back.parts.getD j default).Y

theorem enter_yields (h : NodeOk r p) (hs : split.isCu = true) (hE : Enters r.cs p split) :
    Yields (lift (p.splitCurrAreaNDebug r.cs split)) (LevelEntered r p split) := by
  have hcu : split.isCu = true → p.back.split.isTu = false := fun _ => h.coding
  refine Yields.lift fun q hq => ?_
  obtain ⟨f, hf, hent⟩ := splitCurrAreaNDebug_eq h.ok (Or.inl hs) h.part hcu hE
  rw [hf] at hq
  obtain ⟨parts, hparts, hq⟩ := bind_eq_ok hq
  obtain rfl : f parts = q := Except.ok.inj hq
  have hent := hent parts
  obtain ⟨hpe, hside⟩ := (splitParts_cu hs).mp hparts
  have hsq (hq : split = .cuQuadSplit) : p.currArea.Y.width = p.currArea.Y.height := by
    subst hq
    exact (currPart h.ok h.part h.coding).square (hE.isQt h.ok h.part h.coding)
  have hsides := (cuSplit_sides hs h.unit.sides hsq hside p.currArea.Y mem_cons_self).2
  refine ⟨?_, hE.ok h.ok (Or.inl hs) h.part hcu hparts hent, ?_, isCu_not_isTu hs, fun a ha => ?_, fun j hj => ?_⟩
  · rw [hent.parts]
    exact hent
  · rw [hent.parts, hpe]
  · rw [hent.parts, hpe] at ha
    obtain ⟨i, hi, rfl⟩ := mem_map.mp ha
    exact h.unit.part hs hsq hside (mem_range.mp hi)
  · rw [hent.parts, hpe, length_map, length_range] at hj
    have hget : (f parts).back.parts.getD j default = p.currArea.mapBlocks (cuBlock split j) := by
      rw [hent.parts, hpe, getD_eq_getElem?_getD, List.getElem?_map, List.getElem?_range hj]
      rfl
    rw [hget]
    exact cuBlock_partAt hs (fun i hi => (hsides i hi).1.four_le) (fun i hi => (hsides i hi).2.four_le) hj

/-- At a part of a level that was entered. -/
theorem LevelEntered.node (h : LevelEntered r p split q) (hat : AtLevel r.cs q pC)
    (hpart : pC.back.idx < q.back.parts.length) :
    NodeOk r pC ∧ PartAt p.currArea.Y pC.back.idx pC.currArea.Y ∧ pC.chType = p.chType := by
  refine ⟨⟨hat.ok, by rw [hat.parts]; exact hpart, ?_, by rw [hat.parts]; exact h.units⟩, ?_,
    hat.chType.trans h.entered.chType⟩
  · rw [hat.split, h.entered.split]
    exact h.coding
  · have hcur : pC.currArea = q.back.parts.getD pC.back.idx default := by
      unfold Partitioner.currArea currPartIdx
      rw [hat.parts]
    rw [hcur]
    exact h.partAt _ hpart

/-! ## One channel -/

theorem btt_isCu (b₁ b₂ b₃ : Bool) : (if b₁ then cuVertSplit else if b₂ then cuTriVSplit
    else if b₃ then cuHorzSplit else cuTriHSplit).isCu = true := by
  cases b₁ <;> cases b₂ <;> cases b₃ <;> rfl

theorem splitMode_kind {x : PartSplit × σ} (hx : x.1.isCu = true) (b₁ b₂ : Bool) (s₁ s₂ : σ) :
    (if b₁ then (cuDontSplit, s₁) else if b₂ then (cuQuadSplit, s₂) else x).1 = .cuDontSplit ∨
      (if b₁ then (cuDontSplit, s₁) else if b₂ then (cuQuadSplit, s₂) else x).1.isCu = true := by
  cases b₁ with
  | true => exact Or.inl rfl
  | false =>
    right
    cases b₂ with
    | true => rfl
    | false => exact hx

theorem splitCuMode_kind (dec : SplitBin → σ → Bool × σ) (f : SplitFlags) (s : σ) :
    (splitCuMode dec f s).1 = .cuDontSplit ∨ (splitCuMode dec f s).1.isCu = true :=
  splitMode_kind (show (splitBtt dec f _).1.isCu = true from btt_isCu _ _ _) _ _ _ _

theorem readSplit_yields (h : NodeOk r p) : Yields (r.readSplit p s) fun x =>
    (x.1 ≠ .cuDontSplit → x.1.isCu = true ∧ p.admits r.cs x.1 = true) ∧ x.2.1 = p.looked r.cs ∧
      x.2.2.units = s.units := by
  unfold TreeReader.readSplit
  rw [getImplicitSplit_eq h.ok]
  dsimp only
  have hkind := splitCuMode_kind (r.decodeBin (p.looked r.cs)) ((p.looked r.cs).splitFlags r.cs (p.implicit r.cs)) s.bins
  revert hkind
  generalize splitCuMode (r.decodeBin (p.looked r.cs)) ((p.looked r.cs).splitFlags r.cs (p.implicit r.cs)) s.bins = m
  intro hkind
  have hcan : Yields (lift ((p.looked r.cs).canSplit r.cs m.1)) fun a =>
      a.2 = p.looked r.cs ∧ (m.1 ≠ .cuDontSplit → a.1 = p.admits r.cs m.1) := by
    refine Yields.lift fun a ha => ?_
    rcases hkind with hm | hm
    · rw [hm] at ha ⊢
      unfold canSplit at ha
      rw [looked_looked h.ok] at ha
      obtain rfl := Except.ok.inj ha
      exact ⟨rfl, fun hne => absurd rfl hne⟩
    · rw [canSplit_eq (looked_ok h.ok) (Or.inl hm)] at ha
      obtain rfl := Except.ok.inj ha
      exact ⟨rfl, fun _ => rfl⟩
  refine hcan.bind fun a ha => ?_
  obtain ⟨hp, hadm⟩ := ha
  refine Yields.bind (Yields.lift fun u hu => check_eq_ok hu) fun _ hok => ?_
  refine ⟨fun hne => ⟨hkind.resolve_left hne, ?_⟩, hp, rfl⟩
  rw [← hadm hne]
  simpa using hok

/-- The loop over the parts of a level adds units behind its corner. -/
theorem partsLoop_run (hr : DualReader r) (hlev : LevelEntered r p split q) (hbelow : q.below ≠ [])
    {visit : Partitioner → TreeState σ → CodingTreeReader.Tree (Partitioner × TreeState σ)} {u : CodingUnits}
    (hbegin : r.cs.picture.contains p.currArea.Y.pos = true)
    (hvisit : ∀ p₁ s, AtLevel r.cs q p₁ → p₁.back.idx < q.back.parts.length → r.begins p₁ = true →
      Yields (visit p₁ s) fun x => Returned r.cs p₁ x.1 ∧
        ChannelRun s.units x.2.units p.chType (corner p₁.currArea)) :
    ∀ n {p₁ s}, AtLevel r.cs q p₁ → p₁.back.idx + n = q.back.parts.length → 0 < n →
      (p₁.back.idx = 0 ∧ s.units = u ∨ p₁.back.idx ≠ 0 ∧ ChannelRun u s.units p.chType (corner p.currArea)) →
      Yields (r.partsLoop visit n p₁ s) fun x => AtLevel r.cs q x.1 ∧
        ChannelRun u x.2.units p.chType (corner p.currArea) := by
  intro n
  induction n with
  | zero =>
    intro p₁ s _ _ h
    exact absurd h (Nat.lt_irrefl 0)
  | succ n ih =>
    intro p₁ s hat hn _ hstate
    have hpart : p₁.back.idx < q.back.parts.length := by omega
    obtain ⟨hnode, hpat, -⟩ := hlev.node hat hpart
    obtain ⟨hcfirst, hc1, hc2, hcb⟩ := hpat.corner
    have hstep : Yields (r.visitPart visit p₁ s) fun x => Returned r.cs p₁ x.1 ∧
        ChannelRun u x.2.units p.chType (corner p.currArea) := by
      unfold TreeReader.visitPart
      cases hb : r.begins p₁ with
      | true =>
        rw [if_pos rfl]
        refine (hvisit p₁ s hat hpart hb).mono fun x hx => ⟨hx.1, ?_⟩
        rcases hstate with ⟨hidx, rfl⟩ | ⟨hidx, hrun⟩
        · rw [← hcfirst hidx]
          exact hx.2
        · exact hrun.append hx.2 hc1 hc2 (hcb hidx)
      | false =>
        rw [if_neg Bool.false_ne_true]
        refine ⟨Returned.refl hat.ok, ?_⟩
        rcases hstate with ⟨hidx, rfl⟩ | ⟨-, hrun⟩
        · rw [hnode.begins_eq hr, CompArea.pos, (hpat.first hidx).1, (hpat.first hidx).2] at hb
          exact absurd (hb.symm.trans hbegin) Bool.false_ne_true
        · exact hrun
    rw [TreeReader.partsLoop]
    refine hstep.bind fun x hx => ?_
    obtain ⟨hret, hrun⟩ := hx
    obtain ⟨p₂, hp₂, hat₂, hidx₂⟩ := (hat.returned hret).nextPart (by rw [hret.idx]; exact hpart) hbelow
    rw [hret.idx] at hp₂ hidx₂
    dsimp only
    rw [hp₂]
    show Yields (if decide (p₁.back.idx + 1 < q.back.parts.length) = true then r.partsLoop visit n p₂ x.2
      else .ok (p₂, x.2)) _
    by_cases hmore : p₁.back.idx + 1 < q.back.parts.length
    · rw [if_pos (decide_eq_true hmore)]
      exact ih hat₂ (by omega) (by omega) (Or.inr ⟨by omega, hrun⟩)
    · rw [if_neg (by simpa using hmore)]
      exact ⟨hat₂, hrun⟩

theorem LevelEntered.below_ne_nil (h : LevelEntered r p split q) : q.below ≠ [] := by
  rw [h.entered.below]
  exact cons_ne_nil _ _

theorem LevelEntered.parts_pos (h : LevelEntered r p split q) : 0 < q.back.parts.length := by
  rw [h.parts, length_map, length_range]
  cases split <;> decide

/-- The parts of a quad split have half the sides. -/
theorem LevelEntered.halved (h : LevelEntered r p .cuQuadSplit q) {a : UnitArea} (ha : a ∈ q.back.parts) :
    a.Y.width = p.currArea.Y.width / 2 ∧ a.Y.height = p.currArea.Y.height / 2 := by
  rw [h.parts] at ha
  obtain ⟨i, -, rfl⟩ := mem_map.mp ha
  exact cuBlock_quad p.currArea.Y

/-- The parts of a split add the units of one channel. -/
theorem splitParts_run (hr : DualReader r) (h : NodeOk r p) (hs : split.isCu = true) (hE : Enters r.cs p split)
    (hbegin : r.cs.picture.contains p.currArea.Y.pos = true)
    {visit : Partitioner → TreeState σ → CodingTreeReader.Tree (Partitioner × TreeState σ)}
    (hvisit : ∀ p₁ s, NodeOk r p₁ → r.begins p₁ = true → p₁.chType = p.chType →
      sideSum p₁.currArea < sideSum p.currArea → Yields (visit p₁ s) fun x => Returned r.cs p₁ x.1 ∧
        ChannelRun s.units x.2.units p.chType (corner p₁.currArea)) :
    Yields (r.splitParts visit split p s) fun x => Returned r.cs p x.1 ∧
      ChannelRun s.units x.2.units p.chType (corner p.currArea) := by
  unfold TreeReader.splitParts
  refine (enter_yields h hs hE).bind fun q hlev => ?_
  have hloop : Yields (r.partsLoop visit q.back.parts.length q s) _ := partsLoop_run hr hlev hlev.below_ne_nil hbegin
    (fun p₁ s hat hpart hb => by
      obtain ⟨hnode, hpat, hch⟩ := hlev.node hat hpart
      exact hvisit p₁ s hnode hb hch hpat.smaller)
    q.back.parts.length (AtLevel.refl hlev.ok) (by rw [hlev.entered.idx, Nat.zero_add]) hlev.parts_pos
    (Or.inl ⟨hlev.entered.idx, rfl⟩)
  refine hloop.bind fun x hx => ?_
  obtain ⟨hat, hrun⟩ := hx
  obtain ⟨p', hexit, hret⟩ := exit_returned hlev.entered hat
  dsimp only
  rw [hexit]
  exact ⟨hret, hrun⟩

/-- A unit of the channel of the partitioner. -/
theorem codeUnit_run (hr : DualReader r) (h : NodeOk r p) : Yields (r.codeUnit p s) fun x =>
    ChannelRun s.units x.units p.chType (corner p.currArea) := by
  unfold TreeReader.codeUnit
  refine Yields.bind (Yields.lift fun u hu => addCU_run hr.dual hr.chroma h.unit hu) fun u hu => ?_
  exact Yields.bind (Yields.lift fun _ _ => trivial) fun _ _ => hu

/-- Without a chroma partitioner the units of one channel are added. -/
theorem codingTree_run (hr : DualReader r) (depth : ℕ) : ∀ {p s}, NodeOk r p → r.begins p = true →
    sideSum p.currArea < depth → Yields (r.codingTree depth p s) fun x =>
      Returned r.cs p x.1 ∧ ChannelRun s.units x.2.units p.chType (corner p.currArea) := by
  induction depth with
  | zero =>
    intro p s _ _ hd
    exact absurd hd (Nat.not_lt_zero _)
  | succ depth ih =>
    intro p s h hb hd
    rw [TreeReader.codingTree]
    refine (readSplit_yields h).bind fun x hx => ?_
    obtain ⟨split, p₁, s₁⟩ := x
    obtain ⟨hsplit, hp₁, hs₁⟩ := hx
    dsimp only at hsplit hp₁ hs₁ ⊢
    subst hp₁
    rw [← hs₁]
    by_cases hm : split = .cuDontSplit
    · rw [if_neg (not_not_intro hm)]
      exact (codeUnit_run hr h.looked).bind fun s₂ hs₂ => ⟨returned_looked h, hs₂⟩
    · obtain ⟨hcu, hadm⟩ := hsplit hm
      rw [if_pos hm]
      refine (splitParts_run hr h.looked hcu (Or.inl hadm) ((h.begins_eq hr).symm.trans hb) ?_).mono
        fun x hx => ⟨hx.1.of_looked, hx.2⟩
      intro p₂ s₂ hnode hb₂ hch hsmall
      have hsmall : sideSum p₂.currArea < sideSum p.currArea := hsmall
      refine (ih hnode hb₂ (by omega)).mono fun x hx => ?_
      rw [← hch]
      exact hx

/-! ## Regions of both channels -/

/-- What is added for a region: `new` in the order it is linked begins in luma, has
the units of each channel in the order they were added, and the first of each
at the corner. -/
structure Region (u u' : CodingUnits) (c : ℤ × ℤ) (new : List ℕ) : Prop where
  grows : Grows u u' new c
  nonempty : new ≠ []
  head : ∀ a, new.head? = some a → u'.chTypeAt a = some .luma
  ordered : ∀ ch, ofChannel u' ch new = ofChannel u' ch (List.range' u.cus.length (u'.cus.length - u.cus.length))
  first : ∀ ch a, (ofChannel u' ch new).head? = some a → u'.cuIdx ch c = a + 1

/-- The last unit is a chroma unit. -/
def EndsChroma (u : CodingUnits) (l : List ℕ) : Prop := ∀ a, l.getLast? = some a → u.chTypeAt a = some .chroma

section Region
variable {u u₁ u' : CodingUnits} {new new' l : List ℕ} {c d : ℤ × ℤ} {ch : ChannelType}

theorem ofChannel_congr (h : ∀ a ∈ l, u'.chTypeAt a = u.chTypeAt a) : ofChannel u' ch l = ofChannel u ch l := by
  unfold ofChannel
  exact filter_congr fun a ha => by rw [h a ha]

theorem ofChannel_eq_self (h : AllOf u ch l) : ofChannel u ch l = l :=
  filter_eq_self.mpr fun a ha => decide_eq_true (h a ha)

theorem ofChannel_eq_nil {ch' : ChannelType} (h : AllOf u ch l) (hne : ch ≠ ch') : ofChannel u ch' l = [] := by
  refine filter_eq_nil_iff.mpr fun a ha => ?_
  rw [h a ha]
  simp [hne]

theorem Grows.ofChannel (h : Grows u u' new c) (hl : ∀ a ∈ l, a < u.cus.length) :
    Relinking.ofChannel u' ch l = Relinking.ofChannel u ch l := ofChannel_congr fun a ha => h.chTypeAt (hl a ha)

/-- A region that ends in chroma has units of both channels. -/
theorem Region.head_some (h : Region u u' c new) (he : EndsChroma u' new) (ch : ChannelType) :
    ∃ a, (ofChannel u' ch new).head? = some a := by
  have hmem : ∃ a ∈ new, u'.chTypeAt a = some ch := by
    obtain ⟨x, l, rfl⟩ := exists_cons_of_ne_nil h.nonempty
    cases ch with
    | luma => exact ⟨x, mem_cons_self, h.head x rfl⟩
    | chroma =>
      have hlast : (x :: l).getLast? = some ((x :: l).getLast (cons_ne_nil x l)) := List.getLast?_eq_some_getLast _
      exact ⟨_, getLast_mem _, he _ hlast⟩
  obtain ⟨a, ha, hch⟩ := hmem
  have hin : a ∈ ofChannel u' ch new := mem_filter.mpr ⟨ha, decide_eq_true hch⟩
  cases hl : ofChannel u' ch new with
  | nil =>
    rw [hl] at hin
    cases hin
  | cons b l => exact ⟨b, rfl⟩

/-- A region behind the corner follows one that ends in chroma. -/
theorem Region.append (h : Region u u₁ c new) (he : EndsChroma u₁ new) (h' : Region u₁ u' d new')
    (h1 : c.1 ≤ d.1) (h2 : c.2 ≤ d.2) (hb : Before c d) : Region u u' c (new ++ new') := by
  have hnew (ch : ChannelType) : ofChannel u' ch new = ofChannel u₁ ch new :=
    h'.grows.ofChannel fun a ha => (h.grows.mem.mp ha).2
  refine ⟨h.grows.append h'.grows h1 h2, fun hnil => h.nonempty (append_eq_nil_iff.mp hnil).1, fun a ha => ?_,
    fun ch => ?_, fun ch a ha => ?_⟩
  · obtain ⟨x, l, rfl⟩ := exists_cons_of_ne_nil h.nonempty
    obtain rfl : x = a := Option.some.inj ha
    rw [h'.grows.chTypeAt (h.grows.mem.mp mem_cons_self).2]
    exact h.head x rfl
  · rw [← range'_added h.grows.length h'.grows.length, ofChannel_append, ofChannel_append, h'.ordered ch, hnew,
      h.ordered ch]
    refine congrArg (· ++ _) (h'.grows.ofChannel fun a ha => ?_).symm
    rw [mem_range'_1] at ha
    have hle := h.grows.length
    omega
  · obtain ⟨b, hb'⟩ := h.head_some he ch
    rw [ofChannel_append, hnew, List.head?_append, hb'] at ha
    obtain rfl : b = a := Option.some.inj ha
    rw [h'.grows.cells ch c hb]
    exact h.first ch b hb'

theorem EndsChroma.append (h' : EndsChroma u' new') (hne : new' ≠ []) : EndsChroma u' (new ++ new') := by
  intro a ha
  rw [List.getLast?_append_of_ne_nil _ hne] at ha
  exact h' a ha

theorem ChannelRun.all (h : ChannelRun u u' ch c) :
    AllOf u' ch (List.range' u.cus.length (u'.cus.length - u.cus.length)) := by
  intro a ha
  have hmore := h.more
  rw [mem_range'_1] at ha
  exact h.channel a ha.1 (by omega)

theorem head?_range'_added {n m : ℕ} (h : n < m) : (List.range' n (m - n)).head? = some n := by
  obtain ⟨k, hk⟩ : ∃ k, m - n = k + 1 := ⟨m - n - 1, by omega⟩
  rw [hk]
  rfl

/-- Luma units alone. -/
theorem ChannelRun.region (h : ChannelRun u u' .luma c) :
    Region u u' c (List.range' u.cus.length (u'.cus.length - u.cus.length)) where
  grows := h.grows
  nonempty hnil := by
    have hhead := head?_range'_added h.more
    rw [hnil] at hhead
    cases hhead
  head a ha := by
    rw [head?_range'_added h.more] at ha
    obtain rfl := Option.some.inj ha
    exact h.channel _ (le_refl _) h.more
  ordered _ := rfl
  first ch a ha := by
    cases ch with
    | luma =>
      rw [ofChannel_eq_self h.all, head?_range'_added h.more] at ha
      obtain rfl := Option.some.inj ha
      exact h.first
    | chroma =>
      rw [ofChannel_eq_nil h.all (by decide)] at ha
      cases ha

/-- Luma and chroma units of one region. -/
theorem ChannelRun.both (h : ChannelRun u u₁ .luma c) (h' : ChannelRun u₁ u' .chroma c) :
    ∃ new, Region u u' c new ∧ EndsChroma u' new := by
  have hnew : ofChannel u' .luma (List.range' u.cus.length (u₁.cus.length - u.cus.length)) =
      List.range' u.cus.length (u₁.cus.length - u.cus.length) := by
    rw [h'.grows.ofChannel fun a ha => (h.grows.mem.mp ha).2, ofChannel_eq_self h.all]
  have hnil : ofChannel u' .chroma (List.range' u.cus.length (u₁.cus.length - u.cus.length)) = [] := by
    rw [h'.grows.ofChannel fun a ha => (h.grows.mem.mp ha).2, ofChannel_eq_nil h.all (by decide)]
  refine ⟨List.range' u.cus.length (u₁.cus.length - u.cus.length) ++
    List.range' u₁.cus.length (u'.cus.length - u₁.cus.length), ⟨?_, ?_, fun a ha => ?_, fun ch => ?_, fun ch a ha => ?_⟩, ?_⟩
  · exact h.grows.append h'.grows (le_refl _) (le_refl _)
  · intro hnil
    exact h.region.nonempty (append_eq_nil_iff.mp hnil).1
  · rw [List.head?_append, head?_range'_added h.more] at ha
    obtain rfl : u.cus.length = a := Option.some.inj ha
    rw [h'.grows.chTypeAt h.more]
    exact h.channel _ (le_refl _) h.more
  · rw [range'_added h.more.le h'.more.le]
  · cases ch with
    | luma =>
      rw [ofChannel_append, hnew, List.head?_append, head?_range'_added h.more] at ha
      obtain rfl : u.cus.length = a := Option.some.inj ha
      rw [h'.other .luma (by decide)]
      exact h.first
    | chroma =>
      rw [ofChannel_append, hnil, nil_append, ofChannel_eq_self h'.all, head?_range'_added h'.more] at ha
      obtain rfl := Option.some.inj ha
      exact h'.first
  · intro a ha
    have hne : List.range' u₁.cus.length (u'.cus.length - u₁.cus.length) ≠ [] := by
      intro hnil
      have hhead := head?_range'_added h'.more
      rw [hnil] at hhead
      cases hhead
    rw [List.getLast?_append_of_ne_nil _ hne] at ha
    exact h'.all a (mem_of_getLast? ha)

end Region

/-! ## Re-linking a region -/

/-- All luma units come before all chroma units. -/
def Separated (u : CodingUnits) (l : List ℕ) : Prop := l = ofChannel u .luma l ++ ofChannel u .chroma l

section Relink
variable {u u₁ u' : CodingUnits} {new l : List ℕ} {c : ℤ × ℤ}

theorem ofChannel_ofChannel (u : CodingUnits) (ch ch' : ChannelType) (l : List ℕ) :
    ofChannel u ch (ofChannel u ch' l) = if ch = ch' then ofChannel u ch l else [] := by
  by_cases h : ch = ch'
  · rw [if_pos h, h]
    exact ofChannel_eq_self (ofChannel_all u ch' l)
  · rw [if_neg h]
    exact ofChannel_eq_nil (ofChannel_all u ch' l) fun h' => h h'.symm

theorem perm_separated (h : ∀ a ∈ l, ∃ ch, u.chTypeAt a = some ch) :
    (ofChannel u .luma l ++ ofChannel u .chroma l).Perm l := by
  have hchroma : ofChannel u .chroma l = l.filter fun a => !decide (u.chTypeAt a = some .luma) := by
    refine filter_congr fun a ha => ?_
    obtain ⟨ch, hch⟩ := h a ha
    rw [hch]
    cases ch <;> decide
  rw [hchroma]
  exact filter_append_perm _ l

theorem Grows.units (h : Grows u u' new c) : ∀ a ∈ new, ∃ ch, u'.chTypeAt a = some ch := by
  intro a ha
  obtain ⟨-, hlt⟩ := h.mem.mp ha
  exact ⟨_, by rw [CodingUnits.chTypeAt, List.getElem?_eq_getElem hlt]; rfl⟩

/-- The first luma unit is the first of all, the last chroma unit the last of all. -/
theorem Region.ends (h : Region u u' c new) (he : EndsChroma u' new) :
    (ofChannel u' .luma new).head? = new.head? ∧ (ofChannel u' .chroma new).getLast? = new.getLast? := by
  obtain ⟨hne, hhead⟩ := And.intro h.nonempty h.head
  constructor
  · obtain ⟨x, l, rfl⟩ := exists_cons_of_ne_nil hne
    simp [ofChannel, hhead x rfl]
  · obtain ⟨l, x, rfl⟩ := (eq_nil_or_concat' new).resolve_left hne
    have hx := he x List.getLast?_concat
    rw [ofChannel_append, ofChannel_eq_self (l := [x]) fun a ha => (mem_singleton.mp ha) ▸ hx]
    simp

/-- A region after its list is linked anew. -/
theorem Region.relinked (h : Region u u₁ c new) (he : EndsChroma u₁ new) (hrel : Relinked u₁ u' new)
    (hlinks : Links u'.next (ofChannel u₁ .luma new ++ ofChannel u₁ .chroma new) none) :
    ∃ new', Region u u' c new' ∧ EndsChroma u' new' ∧ Separated u' new' := by
  have hg := h.grows
  have hof (ch : ChannelType) (m : List ℕ) : ofChannel u' ch m = ofChannel u₁ ch m := hrel.ofChannel m
  have hother (a : ℕ) (ha : a < u.cus.length) : a ∉ new := fun hmem => by
    have hle := (hg.mem.mp hmem).1
    omega
  obtain ⟨hfirst, hlast⟩ := h.ends he
  obtain ⟨a, ha⟩ := h.head_some he .luma
  obtain ⟨b, hb⟩ := h.head_some he .chroma
  have hhead : (ofChannel u₁ .luma new ++ ofChannel u₁ .chroma new).head? = new.head? := by
    rw [List.head?_append, ← hfirst, ha]
    rfl
  have hend : (ofChannel u₁ .luma new ++ ofChannel u₁ .chroma new).getLast? = new.getLast? := by
    have hne : ofChannel u₁ .chroma new ≠ [] := fun hnil => by
      rw [hnil] at hb
      cases hb
    rw [List.getLast?_append_of_ne_nil _ hne, hlast]
  have hchannel (ch : ChannelType) :
      ofChannel u₁ ch (ofChannel u₁ .luma new ++ ofChannel u₁ .chroma new) = ofChannel u₁ ch new := by
    rw [ofChannel_append, ofChannel_ofChannel, ofChannel_ofChannel]
    cases ch <;> simp
  refine ⟨ofChannel u₁ .luma new ++ ofChannel u₁ .chroma new,
    ⟨⟨?_, ?_, fun x hx => ?_, fun x hx => ?_, hlinks, fun x hx => ?_, fun ch c' hc => ?_⟩, ?_, fun x hx => ?_,
      fun ch => ?_, fun ch x hx => ?_⟩, fun x hx => ?_, ?_⟩
  · rw [hrel.length]
    exact hg.length
  · rw [hrel.length]
    exact (perm_separated hg.units).trans hg.perm
  · rw [hrel.other x (hother x (by omega)), hg.old x hx]
  · rw [hrel.other x (hother x (by omega)), hg.back x hx, hhead]
  · rw [hend] at hx
    rw [hrel.length]
    exact hg.last x hx
  · rw [hrel.cuIdx, hg.cells ch c' hc]
  · intro hnil
    rw [hnil] at hhead
    exact h.nonempty (List.head?_eq_none_iff.mp hhead.symm)
  · rw [hhead] at hx
    rw [hrel.chType]
    exact h.head x hx
  · rw [hof, hof, hchannel, hrel.length]
    exact h.ordered ch
  · rw [hof, hchannel] at hx
    rw [hrel.cuIdx]
    exact h.first ch x hx
  · rw [hend] at hx
    rw [hrel.chType]
    exact he x hx
  · unfold Separated
    rw [hof, hof, hchannel, hchannel]

end Relink

/-- The units at the corner of an area that begins in the picture. -/
theorem getCU_corner (hr : DualReader r) (h : NodeOk r p) (hbegin : r.cs.picture.contains p.currArea.Y.pos = true)
    {u : CodingUnits} {ch : ChannelType} (hch : p.chType = ch) {a : ℕ}
    (ha : u.cuIdx ch (corner p.currArea) = a + 1) :
    u.getCU (r.cs.area r.chromaFormat) (p.currArea.blockOf ch).pos ch = some a := by
  have hin : ((r.cs.area r.chromaFormat).blockOf ch).contains (p.currArea.blockOf ch).pos = true := by
    rw [← hch]
    exact (h.begins_eq hr).trans hbegin
  have hfmt : (r.cs.area r.chromaFormat).chromaFormat = r.chromaFormat := rfl
  unfold getCU
  rw [if_pos hin, hfmt, h.unit.cell_corner hr.chroma ch, ha]
  exact if_pos (Nat.succ_ne_zero a)

/-- Re-linking what a split into regions added. -/
theorem catChroma_yields (hr : DualReader r) (h : NodeOk r p) (hC : NodeOk r pC)
    (hbegin : r.cs.picture.contains p.currArea.Y.pos = true) (harea : pC.currArea = p.currArea)
    (hch : p.chType = .luma) (hchC : pC.chType = .chroma) {u u₁ : CodingUnits} {new : List ℕ}
    (hreg : Region u u₁ (corner p.currArea) new) (he : EndsChroma u₁ new) :
    Yields (r.catChroma p pC u₁) fun u' => ∃ new', Region u u' (corner p.currArea) new' ∧ EndsChroma u' new' ∧
      Separated u' new' := by
  have hmixed : Mixed u₁ new :=
    ⟨hreg.grows.links, hreg.grows.nodup, hreg.grows.units, hreg.head, he, hreg.nonempty⟩
  have hluma : u₁.getCU (r.cs.area r.chromaFormat) p.currArea.lumaPos .luma = new.head? := by
    obtain ⟨a, ha⟩ := hreg.head_some he .luma
    rw [← (hreg.ends he).1, ha]
    exact getCU_corner hr h hbegin hch (hreg.first .luma a ha)
  have hchroma : u₁.getCU (r.cs.area r.chromaFormat) pC.currArea.chromaPos .chroma =
      (ofChannel u₁ .chroma new).head? := by
    obtain ⟨a, ha⟩ := hreg.head_some he .chroma
    rw [ha]
    refine getCU_corner hr hC (by rw [harea]; exact hbegin) hchC ?_
    rw [harea]
    exact hreg.first .chroma a ha
  obtain ⟨u', hu, hlinks, hrel⟩ := catChroma_spec hmixed hluma hchroma
  rw [hu]
  exact hreg.relinked he hrel hlinks

/-! ## Both channels -/

/-- The chroma partitioner is at the area of the luma partitioner. -/
structure Twins (r : TreeReader σ) (p pC : Partitioner) : Prop where
  luma : NodeOk r p
  chroma : NodeOk r pC
  area : pC.currArea = p.currArea
  lumaType : p.chType = .luma
  chromaType : pC.chType = .chroma
  lumaQt : p.back.split.isQt = true
  chromaQt : pC.back.split.isQt = true

/-- What a visit of a part with both partitioners comes to. -/
def RegionAdded (r : TreeReader σ) (p pC : Partitioner) (u : CodingUnits)
    (x : Partitioner × Partitioner × TreeState σ) : Prop :=
  Returned r.cs p x.1 ∧ Returned r.cs pC x.2.1 ∧
    ∃ new, Region u x.2.2.units (corner p.currArea) new ∧ EndsChroma x.2.2.units new

section Joint
variable {qC : Partitioner} {visit : Partitioner → TreeState σ → CodingTreeReader.Tree (Partitioner × TreeState σ)}
  {visitBoth : Partitioner → Partitioner → TreeState σ → CodingTreeReader.Tree (Partitioner × Partitioner × TreeState σ)}
  {u : CodingUnits}

/-- The two levels of a forced quad split. -/
structure TwinLevels (r : TreeReader σ) (p pC q qC : Partitioner) : Prop where
  twins : Twins r p pC
  luma : LevelEntered r p .cuQuadSplit q
  chroma : LevelEntered r pC .cuQuadSplit qC
  parts : qC.back.parts = q.back.parts

/-- The state of the loop over the parts: at the first of them, or behind a region. -/
def LoopState (p : Partitioner) (idx : ℕ) (u u' : CodingUnits) : Prop :=
  idx = 0 ∧ u' = u ∨ idx ≠ 0 ∧ ∃ new, Region u u' (corner p.currArea) new ∧ EndsChroma u' new

/-- A part that begins in the picture adds a region, another part nothing; the
first part begins where the area does. -/
theorem LoopState.step {idx : ℕ} {part : UnitArea} {u₁ u₂ : CodingUnits} (h : LoopState p idx u u₁)
    (hpat : PartAt p.currArea.Y idx part.Y) (hbegin : r.cs.picture.contains p.currArea.Y.pos = true)
    (hin : r.cs.picture.contains part.Y.pos = true →
      ∃ new, Region u₁ u₂ (corner part) new ∧ EndsChroma u₂ new)
    (hout : r.cs.picture.contains part.Y.pos = false → u₂ = u₁) :
    ∃ new, Region u u₂ (corner p.currArea) new ∧ EndsChroma u₂ new := by
  obtain ⟨hcfirst, hc1, hc2, hcb⟩ := hpat.corner
  cases hb : r.cs.picture.contains part.Y.pos with
  | true =>
    obtain ⟨new, hreg, he⟩ := hin hb
    rcases h with ⟨hidx, rfl⟩ | ⟨hidx, new₀, hreg₀, he₀⟩
    · rw [← hcfirst hidx]
      exact ⟨new, hreg, he⟩
    · exact ⟨new₀ ++ new, hreg₀.append he₀ hreg hc1 hc2 (hcb hidx), he.append hreg.nonempty⟩
  | false =>
    rw [hout hb]
    rcases h with ⟨hidx, rfl⟩ | ⟨-, hreg⟩
    · rw [CompArea.pos, (hpat.first hidx).1, (hpat.first hidx).2] at hb
      exact absurd (hb.symm.trans hbegin) Bool.false_ne_true
    · exact hreg

theorem TwinLevels.node (h : TwinLevels r p pC q qC) {p₁ pC₁ : Partitioner} (hat : AtLevel r.cs q p₁)
    (hatC : AtLevel r.cs qC pC₁) (hidx : pC₁.back.idx = p₁.back.idx) (hpart : p₁.back.idx < q.back.parts.length) :
    Twins r p₁ pC₁ := by
  obtain ⟨hnode, -, hch⟩ := h.luma.node hat hpart
  obtain ⟨hnodeC, -, hchC⟩ := h.chroma.node hatC (by rw [hidx, h.parts]; exact hpart)
  refine ⟨hnode, hnodeC, ?_, hch.trans h.twins.lumaType, hchC.trans h.twins.chromaType, ?_, ?_⟩
  · unfold Partitioner.currArea currPartIdx
    rw [hatC.parts, hat.parts, h.parts, hidx]
  · rw [hat.split, h.luma.entered.split]
    rfl
  · rw [hatC.split, h.chroma.entered.split]
    rfl

/-- A part no larger than luma and chroma may share: its luma units, then its
chroma units. -/
theorem smallPart_run (hr : DualReader r) {p₁ pC₁ : Partitioner} (h : Twins r p₁ pC₁)
    (hvisit : ∀ {p₂ s}, NodeOk r p₂ → r.begins p₂ = true → p₂.currArea = p₁.currArea →
      Yields (visit p₂ s) fun x => Returned r.cs p₂ x.1 ∧
        ChannelRun s.units x.2.units p₂.chType (corner p₂.currArea)) (s : TreeState σ) :
    Yields (r.visitPart visit p₁ s) fun x => Returned r.cs p₁ x.1 ∧
      Yields (r.visitPart visit pC₁ x.2) fun y => Returned r.cs pC₁ y.1 ∧
        (r.cs.picture.contains p₁.currArea.Y.pos = true →
          ∃ new, Region s.units y.2.units (corner p₁.currArea) new ∧ EndsChroma y.2.units new) ∧
        (r.cs.picture.contains p₁.currArea.Y.pos = false → y.2.units = s.units) := by
  have hb := h.luma.begins_eq hr
  have hbC := h.chroma.begins_eq hr
  rw [h.area] at hbC
  cases hin : r.cs.picture.contains p₁.currArea.Y.pos with
  | true =>
    rw [hin] at hb hbC
    have hluma : r.visitPart visit p₁ s = visit p₁ s := if_pos hb
    have hchroma (s : TreeState σ) : r.visitPart visit pC₁ s = visit pC₁ s := if_pos hbC
    simp only [hluma, hchroma]
    refine (hvisit h.luma hb rfl).mono fun x hx => ⟨hx.1, (hvisit h.chroma hbC h.area).mono fun y hy => ⟨hy.1, ?_, ?_⟩⟩
    · intro _
      obtain ⟨-, hx⟩ := hx
      obtain ⟨-, hy⟩ := hy
      rw [h.lumaType] at hx
      rw [h.chromaType, h.area] at hy
      exact hx.both hy
    · intro hf
      cases hf
  | false =>
    rw [hin] at hb hbC
    have hluma : r.visitPart visit p₁ s = .ok (p₁, s) := if_neg (by rw [hb]; decide)
    have hchroma (s : TreeState σ) : r.visitPart visit pC₁ s = .ok (pC₁, s) := if_neg (by rw [hbC]; decide)
    simp only [hluma, hchroma]
    exact ⟨Returned.refl h.luma.ok, Returned.refl h.chroma.ok, fun hf => (by cases hf), fun _ => rfl⟩

theorem lift_ok {x : α} : lift (.ok x) = .ok x := rfl

/-- The loop over the parts of a forced quad split adds a region for each that
begins in the picture. -/
theorem jointLoop_run (hr : DualReader r) (hlev : TwinLevels r p pC q qC)
    (hbegin : r.cs.picture.contains p.currArea.Y.pos = true)
    (hboth : ∀ {p₁ pC₁ s}, Twins r p₁ pC₁ → p₁.back.split = .cuQuadSplit → r.large p₁ = true →
      r.cs.picture.contains p₁.currArea.Y.pos = true → p₁.currArea ∈ q.back.parts →
      sideSum p₁.currArea < sideSum p.currArea → Yields (visitBoth p₁ pC₁ s) (RegionAdded r p₁ pC₁ s.units))
    (hvisit : ∀ {p₁ s}, NodeOk r p₁ → r.begins p₁ = true → sideSum p₁.currArea < sideSum p.currArea →
      Yields (visit p₁ s) fun x => Returned r.cs p₁ x.1 ∧
        ChannelRun s.units x.2.units p₁.chType (corner p₁.currArea)) :
    ∀ n {p₁ pC₁ s}, AtLevel r.cs q p₁ → AtLevel r.cs qC pC₁ → pC₁.back.idx = p₁.back.idx →
      p₁.back.idx + n = q.back.parts.length → 0 < n → LoopState p p₁.back.idx u s.units →
      Yields (r.jointLoop visitBoth visit n p₁ pC₁ s) fun x => AtLevel r.cs q x.1 ∧ AtLevel r.cs qC x.2.1 ∧
        ∃ new, Region u x.2.2.units (corner p.currArea) new ∧ EndsChroma x.2.2.units new := by
  intro n
  induction n with
  | zero =>
    intro p₁ pC₁ s _ _ _ _ h
    exact absurd h (Nat.lt_irrefl 0)
  | succ n ih =>
    intro p₁ pC₁ s hat hatC hidx hn _ hstate
    have hpart : p₁.back.idx < q.back.parts.length := by omega
    have hpartC : pC₁.back.idx < qC.back.parts.length := by rw [hidx, hlev.parts]; exact hpart
    have htwins := hlev.node hat hatC hidx hpart
    obtain ⟨-, hpat, -⟩ := hlev.luma.node hat hpart
    -- what is left to do once the region of this part is added
    have hrest {p₂ pC₂ : Partitioner} {s₂ : TreeState σ} (hat₂ : AtLevel r.cs q p₂) (hatC₂ : AtLevel r.cs qC pC₂)
        (hi : p₂.back.idx = p₁.back.idx + 1) (hiC : pC₂.back.idx = p₁.back.idx + 1)
        (hreg : ∃ new, Region u s₂.units (corner p.currArea) new ∧ EndsChroma s₂.units new) :
        Yields (do
          lift (check (decide (p₁.back.idx + 1 < q.back.parts.length) ≠
            decide (pC₁.back.idx + 1 < qC.back.parts.length)) "luma chroma partition should be matched")
          if decide (p₁.back.idx + 1 < q.back.parts.length) = true then
            r.jointLoop visitBoth visit n p₂ pC₂ s₂ else .ok (p₂, pC₂, s₂))
          fun x => AtLevel r.cs q x.1 ∧ AtLevel r.cs qC x.2.1 ∧
            ∃ new, Region u x.2.2.units (corner p.currArea) new ∧ EndsChroma x.2.2.units new := by
      rw [hidx, hlev.parts, check_ok _ (fun h => h rfl), lift_ok, ok_bind]
      by_cases hmore : p₁.back.idx + 1 < q.back.parts.length
      · rw [if_pos (decide_eq_true hmore)]
        exact ih hat₂ hatC₂ (hiC.trans hi.symm) (by omega) (by omega) (Or.inr ⟨by omega, hreg⟩)
      · rw [if_neg (by simpa using hmore)]
        exact ⟨hat₂, hatC₂, hreg⟩
    rw [TreeReader.jointLoop]
    cases hl : r.large p₁ with
    | true =>
      rw [if_pos rfl]
      have hvisited : Yields (r.visitParts visitBoth p₁ pC₁ s) fun x => Returned r.cs p₁ x.1 ∧
          Returned r.cs pC₁ x.2.1 ∧ (r.cs.picture.contains p₁.currArea.Y.pos = true →
            ∃ new, Region s.units x.2.2.units (corner p₁.currArea) new ∧ EndsChroma x.2.2.units new) ∧
          (r.cs.picture.contains p₁.currArea.Y.pos = false → x.2.2.units = s.units) := by
        unfold TreeReader.visitParts
        have hb := htwins.luma.begins_eq hr
        cases hin : r.cs.picture.contains p₁.currArea.Y.pos with
        | true =>
          rw [hb, hin, if_pos rfl]
          refine (hboth htwins (hat.split.trans hlev.luma.entered.split) hl hin ?_ hpat.smaller).mono
            fun x hx => ⟨hx.1, hx.2.1, fun _ => hx.2.2, fun hf => (by cases hf)⟩
          rw [← hat.parts]
          exact currArea_mem htwins.luma.part
        | false =>
          rw [hb, hin, if_neg Bool.false_ne_true]
          exact ⟨Returned.refl hat.ok, Returned.refl hatC.ok, fun hf => (by cases hf), fun _ => rfl⟩
      refine hvisited.bind fun x hx => ?_
      obtain ⟨hret, hretC, hin, hout⟩ := hx
      obtain ⟨p₂, hp₂, hat₂, hi₂⟩ := (hat.returned hret).nextPart (by rw [hret.idx]; exact hpart) hlev.luma.below_ne_nil
      obtain ⟨pC₂, hpC₂, hatC₂, hiC₂⟩ := (hatC.returned hretC).nextPart (by rw [hretC.idx]; exact hpartC)
        hlev.chroma.below_ne_nil
      rw [hret.idx] at hp₂ hi₂
      rw [hretC.idx] at hpC₂ hiC₂
      dsimp only
      rw [hp₂, lift_ok, ok_bind]
      dsimp only
      rw [hpC₂, lift_ok, ok_bind]
      exact hrest hat₂ hatC₂ hi₂ (hiC₂.trans (congrArg (· + 1) hidx)) (hstate.step hpat hbegin hin hout)
    | false =>
      rw [if_neg Bool.false_ne_true]
      refine (smallPart_run hr htwins (fun hnode hb harea => hvisit hnode hb (by rw [harea]; exact hpat.smaller)) s).bind
        fun x hx => ?_
      obtain ⟨hret, hx⟩ := hx
      obtain ⟨p₂, hp₂, hat₂, hi₂⟩ := (hat.returned hret).nextPart (by rw [hret.idx]; exact hpart) hlev.luma.below_ne_nil
      rw [hret.idx] at hp₂ hi₂
      dsimp only
      rw [hp₂, lift_ok, ok_bind]
      refine hx.bind fun y hy => ?_
      obtain ⟨hretC, hin, hout⟩ := hy
      obtain ⟨pC₂, hpC₂, hatC₂, hiC₂⟩ := (hatC.returned hretC).nextPart (by rw [hretC.idx]; exact hpartC)
        hlev.chroma.below_ne_nil
      rw [hretC.idx] at hpC₂ hiC₂
      dsimp only
      rw [hpC₂, lift_ok, ok_bind]
      dsimp only
      exact hrest hat₂ hatC₂ hi₂ (hiC₂.trans (congrArg (· + 1) hidx)) (hstate.step hpat hbegin hin hout)

end Joint

/-- Below a forced quad split, what is larger than luma and chroma may share is
split again. -/
def ForcedSplits (r : TreeReader σ) : Prop :=
  ∀ p s, p.back.split = .cuQuadSplit → r.large p = true → ∀ p' s', r.readSplit p s ≠ .ok (.cuDontSplit, p', s')

theorem Twins.looked (h : Twins r p pC) : Twins r (p.looked r.cs) pC :=
  ⟨h.luma.looked, h.chroma, h.area, h.lumaType, h.chromaType, h.lumaQt, h.chromaQt⟩

/-- With a chroma partitioner a region is added whose luma units come first; it
ends in chroma unless the area was not split at all. -/
theorem codingTreeJoint_run (hr : DualReader r) {side : ℕ} (hforced : side ≤ 2 * r.maxSize ∨ ForcedSplits r)
    (depth : ℕ) : ∀ {p pC s}, Twins r p pC → r.cs.picture.contains p.currArea.Y.pos = true → r.large p = true →
    p.currArea.Y.width ≤ side → p.currArea.Y.height ≤ side → sideSum p.currArea < depth →
    Yields (r.codingTreeJoint depth p pC s) fun x => Returned r.cs p x.1 ∧ Returned r.cs pC x.2.1 ∧
      ∃ new, Region s.units x.2.2.units (corner p.currArea) new ∧ Separated x.2.2.units new ∧
        (EndsChroma x.2.2.units new ∨ ∃ p' s', r.readSplit p s = .ok (.cuDontSplit, p', s')) := by
  induction depth with
  | zero =>
    intro p pC s _ _ _ _ _ hd
    exact absurd hd (Nat.not_lt_zero _)
  | succ depth ih =>
    intro p pC s h hbegin hlarge hw hh hd
    rw [TreeReader.codingTreeJoint]
    refine (readSplit_yields h.luma).eq.bind fun x hx => ?_
    obtain ⟨split, p₁, s₁⟩ := x
    obtain ⟨⟨-, hp₁, hs₁⟩, hread⟩ := hx
    dsimp only at hp₁ hs₁ ⊢
    subst hp₁
    rw [← hs₁]
    have hlook := h.looked
    by_cases hm : split = .cuDontSplit
    · rw [if_neg (not_not_intro hm)]
      refine (codeUnit_run hr hlook.luma).bind fun s₂ hs₂ => ?_
      rw [hlook.lumaType] at hs₂
      refine ⟨returned_looked h.luma, Returned.refl h.chroma.ok, _, hs₂.region, ?_, Or.inr ⟨_, _, by rw [← hm]; exact hread⟩⟩
      unfold Separated
      rw [ofChannel_eq_self hs₂.all, ofChannel_eq_nil hs₂.all (by decide), append_nil]
    · have hcond : r.cs.isDualITree = true ∧
          ((p.looked r.cs).currArea.Y.width ≥ r.maxSize ∨ (p.looked r.cs).currArea.Y.height ≥ r.maxSize) := by
        refine ⟨hr.dual, ?_⟩
        unfold TreeReader.large at hlarge
        rw [Bool.or_eq_true, decide_eq_true_eq, decide_eq_true_eq] at hlarge
        exact hlarge.imp le_of_lt le_of_lt
      rw [if_pos hm, if_pos hcond]
      refine (enter_yields hlook.luma rfl (Or.inr ⟨rfl, hlook.lumaQt⟩)).bind fun q hlev => ?_
      refine (enter_yields hlook.chroma rfl (Or.inr ⟨rfl, hlook.chromaQt⟩)).bind fun qC hlevC => ?_
      have hlevels : TwinLevels r (p.looked r.cs) pC q qC :=
        ⟨hlook, hlev, hlevC, by rw [hlevC.parts, hlev.parts, hlook.area]⟩
      have hloop : Yields (r.jointLoop (r.codingTreeJoint depth) (r.codingTree depth) q.back.parts.length q qC s₁) _ :=
        jointLoop_run hr hlevels hbegin ?_ ?_ q.back.parts.length (AtLevel.refl hlev.ok) (AtLevel.refl hlevC.ok) (hlevC.entered.idx.trans hlev.entered.idx.symm)
        (by rw [hlev.entered.idx, Nat.zero_add]) hlev.parts_pos (Or.inl ⟨hlev.entered.idx, rfl⟩)
      · refine hloop.bind fun x hx => ?_
        obtain ⟨hat, hatC, new, hreg, he⟩ := hx
        obtain ⟨p', hexit, hret⟩ := exit_returned hlev.entered hat
        obtain ⟨pC', hexitC, hretC⟩ := exit_returned hlevC.entered hatC
        rw [hexit, lift_ok, ok_bind, hexitC, lift_ok, ok_bind]
        have hbegin' : r.cs.picture.contains p'.currArea.Y.pos = true := by
          rw [hret.currArea]
          exact hbegin
        rw [← hret.currArea] at hreg
        refine (catChroma_yields hr (hlook.luma.returned hret) (hlook.chroma.returned hretC) hbegin' ?_
          (hret.chType.trans hlook.lumaType) (hretC.chType.trans hlook.chromaType) hreg he).bind fun u' hu' => ?_
        · rw [hretC.currArea, hret.currArea]
          exact hlook.area
        · obtain ⟨new', hreg', he', hsep⟩ := hu'
          rw [hret.currArea] at hreg'
          exact ⟨hret.of_looked, hretC, new', hreg', hsep, Or.inl he'⟩
      · intro p₁ pC₁ s₂ htw hquad hlarge₁ hbegin₁ hmem hsmall
        obtain ⟨hw₁, hh₁⟩ := hlev.halved hmem
        have hw₁ : p₁.currArea.Y.width = p.currArea.Y.width / 2 := hw₁
        have hh₁ : p₁.currArea.Y.height = p.currArea.Y.height / 2 := hh₁
        have hsmall : sideSum p₁.currArea < sideSum p.currArea := hsmall
        refine (ih htw hbegin₁ hlarge₁ (by omega) (by omega) (by omega)).mono fun x hx => ?_
        obtain ⟨hret, hretC, new, hreg, -, hend⟩ := hx
        refine ⟨hret, hretC, new, hreg, hend.resolve_right ?_⟩
        rintro ⟨p', s', hdont⟩
        rcases hforced with hside | hforced
        · unfold TreeReader.large at hlarge₁
          rw [Bool.or_eq_true, decide_eq_true_eq, decide_eq_true_eq] at hlarge₁
          omega
        · exact hforced p₁ s₂ hquad hlarge₁ p' s' hdont
      · intro p₁ s₂ hnode hb hsmall
        have hsmall : sideSum p₁.currArea < sideSum p.currArea := hsmall
        exact codingTree_run hr depth hnode hb (by omega)

/-! ## The tree of a CTU -/

theorem ctu_node {fmt : ChromaFormat} (hfmt : r.chromaFormat = fmt) {log2CtuSize : ℕ} (h5 : 5 ≤ log2CtuSize)
    (h8 : log2CtuSize ≤ 8) (col row : ℕ) (chType : ChannelType) :
    NodeOk r (initCtu (ctuArea fmt log2CtuSize col row) chType) := by
  refine ⟨initCtu_ok h5 h8 col row chType, Nat.zero_lt_one, rfl, fun a ha => ?_⟩
  have hfit := @ctuArea_sidesFit fmt _ h5 h8 col row a ha
  obtain rfl := mem_singleton.mp ha
  exact ⟨hfit, by rw [hfmt]; rfl⟩

/-- The units that were added, in the order they were parsed. -/
def added (u u' : CodingUnits) : List ℕ := List.range' u.cus.length (u'.cus.length - u.cus.length)

/-- In the dual tree of a CTU that is larger than luma and chroma may share, no
null pointer is read, and from the first luma unit on `next` leads through all
luma units and then through all chroma units, in the order they were parsed, to
the last unit of the list. Splits below the first are forced, or there are none. -/
theorem coding_tree_relinked (hr : DualReader r) {log2CtuSize : ℕ} (h5 : 5 ≤ log2CtuSize) (h8 : log2CtuSize ≤ 8)
    (hmax : r.maxSize < 2 ^ log2CtuSize) (hforced : 2 ^ log2CtuSize ≤ 2 * r.maxSize ∨ ForcedSplits r) (col row : ℕ)
    (hin : r.cs.picture.contains (ctuArea r.chromaFormat log2CtuSize col row).lumaPos = true) {depth : ℕ}
    (hdepth : 2 * 2 ^ log2CtuSize < depth) (s : TreeState σ) :
    Yields (r.codingTreeJoint depth (initCtu (ctuArea r.chromaFormat log2CtuSize col row) .luma)
        (initCtu (ctuArea r.chromaFormat log2CtuSize col row) .chroma) s) fun x =>
      let u := x.2.2.units
      let lumas := ofChannel u .luma (added s.units u)
      let chromas := ofChannel u .chroma (added s.units u)
      (lumas ++ chromas).Perm (added s.units u) ∧
        u.getCU (r.cs.area r.chromaFormat) (ctuArea r.chromaFormat log2CtuSize col row).lumaPos .luma = lumas.head? ∧
        lumas ≠ [] ∧ (∀ n, u.cus.length ≤ n → follow u.next n lumas.head? = lumas ++ chromas) ∧
        ∃ last, (lumas ++ chromas).getLast? = some last ∧ last + 1 = u.cus.length ∧ u.next last = none := by
  have hnode := ctu_node (r := r) rfl h5 h8 col row .luma
  have htwins : Twins r (initCtu (ctuArea r.chromaFormat log2CtuSize col row) .luma)
      (initCtu (ctuArea r.chromaFormat log2CtuSize col row) .chroma) :=
    ⟨hnode, ctu_node rfl h5 h8 col row .chroma, rfl, rfl, rfl, rfl, rfl⟩
  have hlarge : r.large (initCtu (ctuArea r.chromaFormat log2CtuSize col row) .luma) = true := by
    unfold TreeReader.large
    rw [Bool.or_eq_true, decide_eq_true_eq]
    exact Or.inl hmax
  have hsum : sideSum (initCtu (ctuArea r.chromaFormat log2CtuSize col row) .luma).currArea = 2 * 2 ^ log2CtuSize :=
    (Nat.two_mul _).symm
  refine (codingTreeJoint_run hr hforced depth htwins hin hlarge (le_refl _) (le_refl _) (by rw [hsum]; exact hdepth)).mono
    fun x hx => ?_
  obtain ⟨-, -, new, hreg, hsep, -⟩ := hx
  dsimp only
  unfold added
  rw [← hreg.ordered .luma, ← hreg.ordered .chroma, ← hsep]
  have hlumas : ofChannel x.2.2.units .luma new ≠ [] ∧ (ofChannel x.2.2.units .luma new).head? = new.head? := by
    obtain ⟨a, l, hal⟩ := exists_cons_of_ne_nil hreg.nonempty
    have ha := hreg.head a (by rw [hal]; rfl)
    rw [hal]
    simp [ofChannel, ha]
  obtain ⟨hne, hhead⟩ := hlumas
  have hlength : new.length ≤ x.2.2.units.cus.length := by
    rw [hreg.grows.perm.length_eq, length_range']
    exact Nat.sub_le _ _
  refine ⟨hreg.grows.perm, ?_, hne, fun n hn => ?_, ?_⟩
  · obtain ⟨a, l, hal⟩ := exists_cons_of_ne_nil hne
    have ha : (ofChannel x.2.2.units .luma new).head? = some a := by rw [hal]; rfl
    rw [ha]
    exact getCU_corner hr hnode hin rfl (hreg.first .luma a ha)
  · rw [hhead]
    exact hreg.grows.links.follow (hlength.trans hn)
  · have hlast := List.getLast?_eq_some_getLast hreg.nonempty
    exact ⟨_, hlast, hreg.grows.last _ hlast, hreg.grows.links.last hlast⟩

/-- A reader with the sizes of the source, in a picture one and a half CTUs wide. -/
def largeReader : TreeReader (List Bool) where
  cs := { smallConfig with isDualITree := true, picWidth := 384, picHeight := 256 }
  chromaFormat := .chroma420
  maxSize := min MAX_TB_SIZEY MAX_INTRA_SIZE
  decodeBin _ _ s := (s.headD false, s.tail)
  codingUnit _ s := .ok s

/-- The second CTU, with a split of its first luma region; the right half of it
is outside of the picture. -/
def wideRun : CodingTreeReader.Tree (Partitioner × Partitioner × TreeState (List Bool)) :=
  largeReader.codingTreeJoint 513 (initCtu (ctuArea .chroma420 8 1 0) .luma)
    (initCtu (ctuArea .chroma420 8 1 0) .chroma) ⟨[true, true], ⟨[], fun _ _ => 0⟩⟩

theorem coding_tree_relinked_wide :
    (wideRun.toOption.map fun x => follow x.2.2.units.next x.2.2.units.cus.length (some 0)) =
        some [0, 1, 2, 3, 5, 4, 6] ∧
      Yields wideRun fun x => ∃ last, last + 1 = x.2.2.units.cus.length ∧ x.2.2.units.next last = none := by
  refine ⟨by decide +kernel, ?_⟩
  have hr : DualReader largeReader := ⟨rfl, by decide, ⟨48, rfl⟩, ⟨32, rfl⟩⟩
  have hrun := coding_tree_relinked hr (show 5 ≤ 8 by decide) (show 8 ≤ 8 by decide) (by decide) (Or.inl (by decide))
    1 0 (by decide) (show 2 * 2 ^ 8 < 513 by decide) ⟨[true, true], ⟨[], fun _ _ => 0⟩⟩
  refine hrun.mono fun x hx => ?_
  obtain ⟨-, -, -, -, last, -, hlast, hnext⟩ := hx
  exact ⟨last, hlast, hnext⟩

end ECM.Partition
