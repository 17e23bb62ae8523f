import ECM.DecoderLib.CodingTreeReader
import Mathlib.Data.List.Perm.Subperm
import ECM.Lib.LinkedList

/-! # Re-linking a list of luma and chroma units

The list begins with a luma unit, ends with a chroma unit and changes between
them any number of times. The walk re-links behind itself: where it stands, the
units of the channel it is in lead on to what is still to come, and those of the
other channel are linked up to their last one, which waits to be led to the next
unit of its channel. -/

namespace ECM.Partition.Relinking
open CommonLib CodingUnits Lib.LinkedList DecoderLib.CodingTreeReader TreeReader List

/-- The units of one channel, in their order. -/
def ofChannel (u : CodingUnits) (ch : ChannelType) (l : List ℕ) : List ℕ :=
  l.filter fun a => u.chTypeAt a = some ch

/-- Only pointers of the units in `l` are changed. -/
structure Relinked (u u' : CodingUnits) (l : List ℕ) : Prop where
  cuIdx : u'.cuIdx = u.cuIdx
  length : u'.cus.length = u.cus.length
  other : ∀ a ∉ l, u'.cus[a]? = u.cus[a]?
  chType : ∀ a, u'.chTypeAt a = u.chTypeAt a

variable {u u' u'' : CodingUnits} {l A B r : List ℕ} {a x cur : ℕ} {temp : Option ℕ} {ch : ChannelType}

theorem Relinked.refl (u : CodingUnits) (l : List ℕ) : Relinked u u l := ⟨rfl, rfl, fun _ _ => rfl, fun _ => rfl⟩

theorem Relinked.trans (h : Relinked u u' l) (h' : Relinked u' u'' l) : Relinked u u'' l where
  cuIdx := h'.cuIdx.trans h.cuIdx
  length := h'.length.trans h.length
  other a ha := (h'.other a ha).trans (h.other a ha)
  chType a := (h'.chType a).trans (h.chType a)

theorem Relinked.mono {m : List ℕ} (h : Relinked u u' l) (hm : ∀ a ∈ l, a ∈ m) : Relinked u u' m :=
  ⟨h.cuIdx, h.length, fun a ha => h.other a fun hl => ha (hm a hl), h.chType⟩

theorem relinked_setNext (p : Option ℕ) (ha : a ∈ l) : Relinked u (u.setNext a p) l where
  cuIdx := rfl
  length := setNext_length
  other _ hb := setNext_ne fun hba => hb (hba ▸ ha)
  chType _ := setNext_chTypeAt

theorem Relinked.ofChannel (h : Relinked u u' l) (m : List ℕ) :
    Relinking.ofChannel u' ch m = Relinking.ofChannel u ch m := by
  unfold Relinking.ofChannel
  simp only [h.chType]

/-! ## One step of the walk -/

/-- The walk stands at `cur`, at the end of the units `A` of its channel, with
`r` before it; `temp` is the last of the units `B` of the other channel. -/
structure Walking (u : CodingUnits) (A B r : List ℕ) (cur : ℕ) (temp : Option ℕ) : Prop where
  linked : Links u.next (A ++ r) none
  current : A.getLast? = some cur
  last : temp = B.getLast?
  others : ∃ e, Links u.next B e
  nodup : (A ++ B ++ r).Nodup
  valid : ∀ b ∈ B, b < u.cus.length

/-- The pointer the walk reads. -/
theorem Walking.next (h : Walking u A B r cur temp) : u.next cur = r.head? := by
  obtain ⟨hA, -⟩ := links_append.mp h.linked
  rw [hA.last h.current, Option.or_none]

/-- The next unit is of the same channel. -/
theorem Walking.same (h : Walking u A B (x :: r) cur temp) : Walking u (A ++ [x]) B r x temp where
  linked := by
    rw [append_assoc]
    exact h.linked
  current := List.getLast?_concat
  last := h.last
  others := h.others
  nodup := by
    have hperm : (A ++ [x] ++ B ++ r).Perm (A ++ B ++ x :: r) := by
      rw [append_assoc, append_assoc, append_assoc]
      show (A ++ x :: (B ++ r)).Perm (A ++ (B ++ x :: r))
      exact List.Perm.append_left A perm_middle.symm
    exact hperm.nodup_iff.mpr h.nodup
  valid := h.valid

theorem swapNext_relinked (hl : ∀ a, temp = some a → a ∈ l) : Relinked u (swapNext u temp x) l := by
  cases temp with
  | none => exact Relinked.refl u l
  | some a => exact relinked_setNext (some x) (hl a rfl)

theorem swapNext_other (h : temp ≠ some a) : (swapNext u temp x).next a = u.next a := by
  cases temp with
  | none => rfl
  | some b =>
    refine setNext_next_ne fun hab => h ?_
    rw [hab]

/-- The next unit is of the other channel: its last unit now leads here. -/
theorem Walking.swap (h : Walking u A B (x :: r) cur temp) (hA : ∀ a ∈ A, a < u.cus.length) :
    Walking (swapNext u temp x) (B ++ [x]) A r x (some cur) := by
  obtain ⟨hlA, hlr⟩ := links_append.mp h.linked
  obtain ⟨e, hB⟩ := h.others
  obtain ⟨hAB, -, hABr⟩ := nodup_append.mp h.nodup
  obtain ⟨-, hdB, hA'⟩ := nodup_append.mp hAB
  -- no unit but the last of `B` is changed
  have hkeep (a : ℕ) (ha : a ∉ B) : (swapNext u temp x).next a = u.next a := by
    refine swapNext_other fun htemp => ha ?_
    rw [h.last] at htemp
    exact mem_of_getLast? htemp
  have hB' : Links (swapNext u temp x).next B (some x) := by
    refine hB.redirect hdB (fun a ha => ?_) (fun a _ ha => swapNext_other ?_)
    · rw [h.last, ha]
      exact setNext_next_self (h.valid a (mem_of_getLast? ha))
    · rw [h.last]
      exact ha
  have hlength : (swapNext u temp x).cus.length = u.cus.length :=
    (swapNext_relinked (l := B) fun a ha => mem_of_getLast? (h.last ▸ ha)).length
  refine ⟨?_, List.getLast?_concat, h.current.symm, ⟨some x, ?_⟩, ?_, ?_⟩
  · rw [append_assoc]
    refine links_append.mpr ⟨hB', hlr.congr fun a ha => hkeep a fun hb => ?_⟩
    exact hABr a (mem_append_right A hb) a ha rfl
  · exact hlA.congr fun a ha => hkeep a fun hb => hA' a ha a hb rfl
  · have hperm : (B ++ [x] ++ A ++ r).Perm (A ++ B ++ x :: r) := by
      have hmid : (B ++ [x] ++ A ++ r).Perm (A ++ (B ++ [x]) ++ r) := perm_append_comm.append_right r
      refine hmid.trans (List.Perm.of_eq ?_)
      simp
    exact hperm.nodup_iff.mpr h.nodup
  · rw [hlength]
    exact hA

/-! ## The walk -/

/-- Luma units seen and chroma units seen, and which of them the walk is in. -/
def At (u : CodingUnits) (L C r : List ℕ) (cur : ℕ) (tempLuma tempChroma : Option ℕ) : ChannelType → Prop
  | .luma => Walking u L C r cur tempChroma
  | .chroma => Walking u C L r cur tempLuma

/-- What is still to come ends with a chroma unit, or the walk is at one. -/
def EndsInChroma (u : CodingUnits) (r : List ℕ) (ch : ChannelType) : Prop :=
  match r.getLast? with
  | none => ch = .chroma
  | some a => u.chTypeAt a = some .chroma

theorem EndsInChroma.tail (h : EndsInChroma u (x :: r) ch) {ch' : ChannelType} (hx : u.chTypeAt x = some ch') :
    EndsInChroma u r ch' := by
  unfold EndsInChroma at h ⊢
  rw [List.getLast?_cons] at h
  cases hr : r.getLast? with
  | none =>
    rw [hr] at h
    exact Option.some.inj (hx.symm.trans h)
  | some a =>
    rw [hr] at h
    exact h

theorem EndsInChroma.congr (h : EndsInChroma u r ch) (hc : ∀ a, u'.chTypeAt a = u.chTypeAt a) :
    EndsInChroma u' r ch := by
  unfold EndsInChroma at h ⊢
  simpa only [hc] using h

theorem ofChannel_single (hx : u.chTypeAt x = some ch) (ch' : ChannelType) :
    ofChannel u ch' [x] = if ch = ch' then [x] else [] := by
  unfold ofChannel
  rw [filter_singleton, hx]
  simp

theorem ofChannel_append (u : CodingUnits) (ch : ChannelType) (l m : List ℕ) :
    ofChannel u ch (l ++ m) = ofChannel u ch l ++ ofChannel u ch m := filter_append ..

theorem ofChannel_append_cons (u : CodingUnits) (ch : ChannelType) (x : ℕ) (l m : List ℕ) :
    l ++ ofChannel u ch [x] ++ ofChannel u ch m = l ++ ofChannel u ch (x :: m) := by
  rw [append_assoc, ← ofChannel_append]
  rfl

/-- Units that are all of channel `ch`. -/
def AllOf (u : CodingUnits) (ch : ChannelType) (l : List ℕ) : Prop := ∀ a ∈ l, u.chTypeAt a = some ch

theorem AllOf.append {m : List ℕ} (h : AllOf u ch l) (hm : AllOf u ch m) : AllOf u ch (l ++ m) :=
  fun a ha => (mem_append.mp ha).elim (h a) (hm a)

theorem AllOf.lt (h : AllOf u ch l) : ∀ a ∈ l, a < u.cus.length := fun a ha => chTypeAt_lt (h a ha)

theorem AllOf.congr (h : AllOf u ch l) (hc : ∀ a, u'.chTypeAt a = u.chTypeAt a) : AllOf u' ch l :=
  fun a ha => (hc a).trans (h a ha)

theorem ofChannel_all (u : CodingUnits) (ch : ChannelType) (l : List ℕ) : AllOf u ch (ofChannel u ch l) :=
  fun _ ha => of_decide_eq_true (mem_filter.mp ha).2

/-- One step of the walk. -/
theorem catLoop_step (n : ℕ) {L C : List ℕ} {k kx : ChannelType} {tl tc : Option ℕ}
    (hat : At u L C (x :: r) cur tl tc k) (hL : AllOf u .luma L) (hC : AllOf u .chroma C)
    (hx : u.chTypeAt x = some kx) :
    ∃ u₁ tl₁ tc₁, catLoop (n + 1) u cur k tl tc = catLoop n u₁ x kx tl₁ tc₁ ∧
      At u₁ (L ++ ofChannel u .luma [x]) (C ++ ofChannel u .chroma [x]) r x tl₁ tc₁ kx ∧
      Relinked u u₁ (L ++ C ++ x :: r) := by
  obtain ⟨cu, hcu, hkx⟩ := Option.map_eq_some_iff.mp hx
  have hderef : deref u x = .ok cu := by
    unfold deref
    rw [hcu]
  have hnext : u.next cur = some x := by
    cases k with
    | luma => exact Walking.next hat
    | chroma => exact Walking.next hat
  rw [ofChannel_single hx, ofChannel_single hx, catLoop, hnext]
  dsimp only
  rw [hderef, ok_bind, hkx]
  cases k with
  | luma =>
    cases kx with
    | luma =>
      refine ⟨u, tl, tc, rfl, ?_, Relinked.refl u _⟩
      simpa [At] using Walking.same hat
    | chroma =>
      refine ⟨swapNext u tc x, some cur, tc, rfl, ?_, swapNext_relinked fun a ha => ?_⟩
      · simpa [At] using Walking.swap hat hL.lt
      · have ha' : a ∈ C := mem_of_getLast? ((Walking.last hat).symm.trans ha)
        simp [ha']
  | chroma =>
    cases kx with
    | luma =>
      refine ⟨swapNext u tl x, tl, some cur, rfl, ?_, swapNext_relinked fun a ha => ?_⟩
      · simpa [At] using Walking.swap hat hC.lt
      · have ha' : a ∈ L := mem_of_getLast? ((Walking.last hat).symm.trans ha)
        simp [ha']
    | chroma =>
      refine ⟨u, tl, tc, rfl, ?_, Relinked.refl u _⟩
      simpa [At] using Walking.same hat

/-- The walk separates the channels, and leaves the last luma unit. -/
theorem catLoop_spec (n : ℕ) : ∀ {u L C r cur k tl tc}, r.length < n → At u L C r cur tl tc k →
    AllOf u .luma L → AllOf u .chroma C → (∀ a ∈ r, ∃ ch, u.chTypeAt a = some ch) → EndsInChroma u r k →
    ∃ u', catLoop n u cur k tl tc = .ok (u', (L ++ ofChannel u .luma r).getLast?) ∧
      Links u'.next (C ++ ofChannel u .chroma r) none ∧
      (∃ e, Links u'.next (L ++ ofChannel u .luma r) e) ∧ Relinked u u' (L ++ C ++ r) := by
  induction n with
  | zero =>
    intro u L C r cur k tl tc hn
    exact absurd hn (Nat.not_lt_zero _)
  | succ n ih =>
    intro u L C r cur k tl tc hn hat hL hC hr hend
    cases r with
    | nil =>
      obtain rfl : k = .chroma := hend
      have hat : Walking u C L [] cur tl := hat
      refine ⟨u, ?_, ?_, ?_, Relinked.refl u _⟩
      · rw [catLoop, hat.next]
        simp [ofChannel, hat.last]
      · exact hat.linked
      · simpa [ofChannel] using hat.others
    | cons x r =>
      obtain ⟨kx, hx⟩ := hr x mem_cons_self
      obtain ⟨u₁, tl₁, tc₁, hstep, hat₁, hrel⟩ := catLoop_step n hat hL hC hx
      have hc := hrel.chType
      obtain ⟨u', hu, hlc, hll, hrel'⟩ := ih (Nat.lt_of_succ_lt_succ hn) hat₁
        ((hL.append (ofChannel_all u .luma [x])).congr hc) ((hC.append (ofChannel_all u .chroma [x])).congr hc)
        (fun a ha => by rw [hc]; exact hr a (mem_cons_of_mem x ha)) ((hend.tail hx).congr hc)
      rw [hrel.ofChannel] at hu hll
      rw [hrel.ofChannel] at hlc
      rw [ofChannel_append_cons] at hu hlc hll
      refine ⟨u', hstep.trans hu, hlc, hll, hrel.trans (hrel'.mono fun a ha => ?_)⟩
      -- the unit at `x` is one of the units seen
      have hmem (ch : ChannelType) (h : a ∈ ofChannel u ch [x]) : a = x :=
        mem_singleton.mp (mem_filter.mp h).1
      simp only [mem_append, mem_cons] at ha ⊢
      rcases ha with ((ha | ha) | ha | ha) | ha
      · exact Or.inl (Or.inl ha)
      · exact Or.inr (Or.inl (hmem _ ha))
      · exact Or.inl (Or.inr ha)
      · exact Or.inr (Or.inl (hmem _ ha))
      · exact Or.inr (Or.inr ha)

/-! ## The whole list -/

/-- A list of units that begins in luma, and ends in chroma. -/
structure Mixed (u : CodingUnits) (l : List ℕ) : Prop where
  links : Links u.next l none
  nodup : l.Nodup
  units : ∀ a ∈ l, ∃ ch, u.chTypeAt a = some ch
  head : ∀ a, l.head? = some a → u.chTypeAt a = some .luma
  last : ∀ a, l.getLast? = some a → u.chTypeAt a = some .chroma
  nonempty : l ≠ []

variable {σ : Type} {reader : TreeReader σ} {p pC : Partitioner}

/-- Re-linking separates the channels. -/
theorem catChroma_spec (hm : Mixed u l)
    (hluma : u.getCU (reader.cs.area reader.chromaFormat) p.currArea.lumaPos .luma = l.head?)
    (hchroma : u.getCU (reader.cs.area reader.chromaFormat) pC.currArea.chromaPos .chroma =
      (ofChannel u .chroma l).head?) :
    ∃ u', reader.catChroma p pC u = .ok u' ∧
      Links u'.next (ofChannel u .luma l ++ ofChannel u .chroma l) none ∧ Relinked u u' l := by
  obtain ⟨hlinks, hnodup, hunits, hhead, hlast, hne⟩ := hm
  obtain ⟨x, r, rfl⟩ := exists_cons_of_ne_nil hne
  have hx : u.chTypeAt x = some .luma := hhead x rfl
  obtain ⟨cu, hcu, hch⟩ := Option.map_eq_some_iff.mp hx
  have hderef : deref u x = .ok cu := by
    unfold deref
    rw [hcu]
  have hat : At u [x] [] r x none none .luma :=
    ⟨hlinks, rfl, rfl, ⟨none, trivial⟩, hnodup, fun b hb => absurd hb not_mem_nil⟩
  have hend : EndsInChroma u r .luma := by
    unfold EndsInChroma
    cases hr : r.getLast? with
    | none =>
      rw [List.getLast?_eq_none_iff.mp hr] at hlast
      have hx' := hlast x rfl
      rw [hx] at hx'
      cases hx'
    | some a =>
      refine hlast a ?_
      rw [List.getLast?_cons, hr]
      rfl
  have hlength : (x :: r).length ≤ u.cus.length := by
    have hsub : x :: r ⊆ List.range u.cus.length := fun a ha => by
      obtain ⟨ch, hch⟩ := hunits a ha
      exact mem_range.mpr (chTypeAt_lt hch)
    have hle := (subperm_of_subset hnodup hsub).length_le
    rwa [length_range] at hle
  obtain ⟨u', hu, hlc, ⟨e, hll⟩, hrel⟩ := catLoop_spec u.cus.length hlength hat
    (fun a ha => (mem_singleton.mp ha) ▸ hx) (fun a ha => absurd ha not_mem_nil)
    (fun a ha => hunits a (mem_cons_of_mem x ha)) hend
  rw [append_nil] at hrel
  rw [nil_append] at hlc
  have hL := ofChannel_append u .luma [x] r
  have hC := ofChannel_append u .chroma [x] r
  rw [ofChannel_single hx, if_pos rfl] at hL
  rw [ofChannel_single hx, if_neg (by decide), nil_append] at hC
  rw [← hL] at hu hll
  rw [← hC] at hlc
  rw [singleton_append] at hu hlc hll hL hC hrel
  -- the last luma unit leads on to the first chroma unit
  obtain ⟨a, ha⟩ : ∃ a, (ofChannel u .luma (x :: r)).getLast? = some a := by
    rw [hL, singleton_append, List.getLast?_cons]
    exact ⟨_, rfl⟩
  have hmem : a ∈ ofChannel u .luma (x :: r) := mem_of_getLast? ha
  have ha' : a < u'.cus.length := by
    rw [hrel.length]
    exact (ofChannel_all u .luma (x :: r)).lt a hmem
  have hget : u'.getCU (reader.cs.area reader.chromaFormat) pC.currArea.chromaPos .chroma =
      (ofChannel u .chroma (x :: r)).head? := by
    rw [← hchroma]
    unfold getCU
    rw [hrel.cuIdx]
  refine ⟨u'.setNext a (ofChannel u .chroma (x :: r)).head?, ?_, links_append.mpr ⟨?_, ?_⟩, ?_⟩
  · unfold catChroma
    dsimp only
    rw [hluma]
    dsimp only [List.head?_cons]
    rw [hderef, ok_bind, hch, hu, ok_bind, ha]
    dsimp only
    rw [hget]
    rfl
  · refine hll.redirect (hnodup.filter _) (fun b hb => ?_) (fun b _ hb => setNext_next_ne fun hba => hb ?_)
    · obtain rfl := Option.some.inj (hb.symm.trans ha)
      rw [setNext_next_self ha', Option.or_none]
    · rw [hba]
      exact ha
  · refine hlc.congr fun b hb => setNext_next_ne fun hba => ?_
    have hluma := ofChannel_all u .luma (x :: r) a hmem
    rw [← hba, ofChannel_all u .chroma (x :: r) b hb] at hluma
    cases hluma
  · exact hrel.trans (relinked_setNext _ (mem_filter.mp hmem).1)

end ECM.Partition.Relinking
