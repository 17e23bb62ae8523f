import ECM.CommonLib.RefPicMarking
import Mathlib.Data.List.Forall2

/-! # What marking leaves

A picture of the layer stays marked if an entry denotes it, and the first entry that does says
whether it is a long-term picture. -/

namespace ECM.RefPics
open CommonLib List

variable {slice : CurrentSlice} {layerId : ℤ} {e : RefPicEntry} {entries entries' : List RefPicEntry}
  {p q : Picture} {pics pics' pics'' : List Picture}

/-! ## Long-term pictures -/

/-- The entry is for a long-term picture of the layer. -/
def AsksLongterm (e : RefPicEntry) : Prop := e.isLongterm = true ∧ e.isInterLayerRefPic = false

/-- The picture is used for reference and has the POC of the long-term entry. -/
def Matches (slice : CurrentSlice) (e : RefPicEntry) (p : Picture) : Prop :=
  p.referenced = true ∧ samePocLongterm slice e p = .ok true

/-- The picture is as before, or became a long-term one for an entry that had none. -/
def MarkedFor (slice : CurrentSlice) (entries : List RefPicEntry) (pics : List Picture) (p q : Picture) : Prop :=
  q = p ∨ (q = { p with longTerm := true } ∧ ∃ e ∈ entries, AsksLongterm e ∧ Matches slice e p ∧
    ∀ r ∈ pics, Matches slice e r → r.longTerm = false)

/-- What the passes over the lists do. -/
structure Marks (slice : CurrentSlice) (entries : List RefPicEntry) (pics pics' : List Picture) : Prop where
  marked : List.Forall₂ (MarkedFor slice entries pics) pics pics'
  found : ∀ e ∈ entries, AsksLongterm e → (∃ p ∈ pics, Matches slice e p) →
    ∃ q ∈ pics', Matches slice e q ∧ q.longTerm = true

/-- Referenced pictures have been decoded. -/
def Decoded (pics : List Picture) : Prop := ∀ p ∈ pics, p.referenced = true → ∃ bits, p.bitsForPOC = some bits

theorem Marks.refl (hnone : ∀ e ∈ entries, ¬AsksLongterm e) (pics : List Picture) : Marks slice entries pics pics where
  marked := forall₂_same.mpr fun _ _ => .inl rfl
  found e he hasks := absurd hasks (hnone e he)

theorem MarkedFor.fields (h : MarkedFor slice entries pics p q) :
    q.referenced = p.referenced ∧ samePocLongterm slice e q = samePocLongterm slice e p ∧
      q.bitsForPOC = p.bitsForPOC ∧ (p.longTerm = true → q.longTerm = true) := by
  rcases h with rfl | ⟨rfl, -⟩
  · exact ⟨rfl, rfl, rfl, id⟩
  · exact ⟨rfl, samePocLongterm_congr rfl rfl, rfl, fun _ => rfl⟩

theorem MarkedFor.matches_iff (h : MarkedFor slice entries pics p q) : Matches slice e q ↔ Matches slice e p := by
  rw [Matches, Matches, (h.fields (e := e)).1, (h.fields (e := e)).2.1]

theorem Marks.decoded (h : Marks slice entries pics pics') (hd : Decoded pics) : Decoded pics' := by
  intro q hq href
  obtain ⟨p, hp, hpq⟩ := exists_left h.marked hq
  obtain ⟨hpref, -, hbits, -⟩ := hpq.fields (e := ⟨false, 0, false, 0, false⟩)
  rw [hbits]
  exact hd p hp (hpref.symm.trans href)

/-- One pass after another. -/
theorem Marks.trans (h : Marks slice entries pics pics') (h' : Marks slice entries' pics' pics'') :
    Marks slice (entries ++ entries') pics pics'' := by
  have hmarked' : List.Forall₂ (fun p q => MarkedFor slice (entries ++ entries') pics p q) pics' pics'' := by
    refine h'.marked.imp fun q r hqr => ?_
    rcases hqr with rfl | ⟨rfl, e, he, hasks, hmatch, hnone⟩
    · exact .inl rfl
    · refine .inr ⟨rfl, e, mem_append_right _ he, hasks, hmatch, fun p hp hp' => ?_⟩
      obtain ⟨q, hq, hpq⟩ := exists_right h.marked hp
      by_contra hlong
      have hqlong := (hpq.fields (e := e)).2.2.2 (by simpa using hlong)
      rw [hnone q hq (hpq.matches_iff.mpr hp')] at hqlong
      cases hqlong
  refine ⟨?_, fun e he hasks hex => ?_⟩
  · have hcomp : ∀ {l l' l'' : List Picture}, List.Forall₂ (MarkedFor slice entries pics) l l' →
        List.Forall₂ (fun p q => MarkedFor slice (entries ++ entries') pics p q) l' l'' →
        List.Forall₂ (MarkedFor slice (entries ++ entries') pics) l l'' := by
      intro l l' l'' hl hl'
      induction hl generalizing l'' with
      | nil => cases hl'; exact .nil
      | cons hpq _ ih =>
        cases hl' with
        | cons hqr hrest =>
          refine .cons ?_ (ih hrest)
          rcases hpq with rfl | ⟨rfl, e, he, hrest⟩
          · exact hqr
          · refine .inr ⟨?_, e, mem_append_left _ he, hrest⟩
            rcases hqr with rfl | ⟨rfl, -⟩ <;> rfl
    exact hcomp h.marked hmarked'
  · rcases mem_append.mp he with he | he
    · obtain ⟨q, hq, hmatch, hlong⟩ := h.found e he hasks hex
      obtain ⟨r, hr, hqr⟩ := exists_right h'.marked hq
      exact ⟨r, hr, hqr.matches_iff.mpr hmatch, (hqr.fields (e := e)).2.2.2 hlong⟩
    · obtain ⟨p, hp, hmatch⟩ := hex
      obtain ⟨q, hq, hpq⟩ := exists_right h.marked hp
      exact h'.found e he hasks ⟨q, hq, hpq.matches_iff.mpr hmatch⟩

/-- The entry denotes the picture, once the long-term pictures are marked. -/
def Denotes (slice : CurrentSlice) (layerId : ℤ) (e : RefPicEntry) (p : Picture) : Prop :=
  if e.isInterLayerRefPic then p.poc = slice.poc
  else p.layerId = layerId ∧ SamePoc slice e p ∧ (e.isLongterm = true → p.longTerm = true)

/-- The entry is the first one that denotes the picture. -/
def FirstDenotes (slice : CurrentSlice) (layerId : ℤ) (entries : List RefPicEntry) (p : Picture)
    (e : RefPicEntry) : Prop :=
  ∃ before after, entries = before ++ e :: after ∧ Denotes slice layerId e p ∧
    ∀ e' ∈ before, ¬Denotes slice layerId e' p

/-- An inter-layer entry is marked as long-term and has no identifier. -/
def InterLayerEntry (e : RefPicEntry) : Prop :=
  e.isInterLayerRefPic = true → e.isLongterm = true ∧ e.refPicIdentifier = 0

/-- The loop ends with the first entry that denotes the picture. -/
def KeptBy (slice : CurrentSlice) (layerId : ℤ) (entries : List RefPicEntry) (p : Picture) : Option Picture → Prop
  | none => ∀ e ∈ entries, ¬Denotes slice layerId e p
  | some q => ∃ e, FirstDenotes slice layerId entries p e ∧ q = { p with longTerm := e.isLongterm }

theorem KeptBy.here (entries : List RefPicEntry) (h : Denotes slice layerId e p) :
    KeptBy slice layerId (e :: entries) p (some { p with longTerm := e.isLongterm }) :=
  ⟨e, ⟨[], entries, rfl, h, fun _ he => absurd he not_mem_nil⟩, rfl⟩

theorem KeptBy.next {r : Option Picture} (hne : ¬Denotes slice layerId e p) (h : KeptBy slice layerId entries p r) :
    KeptBy slice layerId (e :: entries) p r := by
  cases r with
  | none =>
    intro e' he'
    rcases mem_cons.mp he' with rfl | he'
    · exact hne
    · exact h e' he'
  | some q =>
    obtain ⟨e₁, ⟨before, after, rfl, hdenotes, hbefore⟩, rfl⟩ := h
    refine ⟨e₁, ⟨e :: before, after, rfl, hdenotes, fun e' he' => ?_⟩, rfl⟩
    rcases mem_cons.mp he' with rfl | he'
    · exact hne
    · exact hbefore e' he'

theorem KeptBy.append {r : Option Picture} (hnone : ∀ e ∈ entries, ¬Denotes slice layerId e p)
    (h : KeptBy slice layerId entries' p r) : KeptBy slice layerId (entries ++ entries') p r := by
  induction entries with
  | nil => exact h
  | cons e rest ih =>
    exact (ih fun e' he' => hnone e' (mem_cons_of_mem e he')).next (hnone e mem_cons_self)

theorem FirstDenotes.append (h : FirstDenotes slice layerId entries p e) :
    FirstDenotes slice layerId (entries ++ entries') p e := by
  obtain ⟨before, after, rfl, hdenotes, hbefore⟩ := h
  exact ⟨before, after ++ entries', by simp, hdenotes, hbefore⟩

/-- What becomes of a picture that the passes left as `p`. -/
structure Outcome (slice : CurrentSlice) (layerId : ℤ) (entries : List RefPicEntry) (p q : Picture) : Prop where
  /-- Only the two marks change. -/
  frame : ∃ referenced longTerm, q = { p with
    referenced := referenced
    longTerm := longTerm }
  /-- A picture that is not used for reference is left alone. -/
  unreferenced : p.referenced = false → q = p
  /-- Another picture of the layer stays marked if an entry denotes it. -/
  referenced : p.referenced = true → p.layerId = layerId → p.poc ≠ slice.poc →
    (q.referenced = true ↔ ∃ e ∈ entries, Denotes slice layerId e p)
  /-- It is a long-term picture if the first entry that denotes it is a long-term one. -/
  longTerm : p.referenced = true → p.layerId = layerId → p.poc ≠ slice.poc →
    (q.longTerm = true ↔ ∃ e, FirstDenotes slice layerId entries p e ∧ e.isLongterm = true)
  /-- Pictures of other layers stay as they are, but an inter-layer entry makes those of the
  access unit long-term pictures. -/
  otherLayer : p.layerId ≠ layerId → q = p ∨
    (q = { p with longTerm := true } ∧ p.poc = slice.poc ∧ ∃ e ∈ entries, e.isInterLayerRefPic = true)

theorem Outcome.kept (h : FirstDenotes slice layerId entries p e) (hinter : ∀ e ∈ entries, InterLayerEntry e)
    (href : p.referenced = true) : Outcome slice layerId entries p { p with longTerm := e.isLongterm } where
  frame := ⟨p.referenced, e.isLongterm, rfl⟩
  unreferenced hunref := by
    rw [href] at hunref
    cases hunref
  referenced _ _ _ := by
    obtain ⟨before, after, rfl, hdenotes, -⟩ := h
    exact iff_of_true href ⟨e, by simp, hdenotes⟩
  longTerm _ _ _ := by
    refine ⟨fun hlong => ⟨e, h, hlong⟩, fun ⟨e', h', hlong⟩ => ?_⟩
    obtain ⟨before, after, heq, hdenotes, hbefore⟩ := h
    obtain ⟨before', after', heq', hdenotes', hbefore'⟩ := h'
    have hsame : e = e' := by
      rw [heq] at heq'
      rcases append_eq_append_iff.mp heq' with ⟨l, rfl, hl⟩ | ⟨l, rfl, hl⟩
      · cases l with
        | nil =>
          cases hl
          rfl
        | cons x l =>
          cases hl
          exact absurd hdenotes (hbefore' e (by simp))
      · cases l with
        | nil =>
          cases hl
          rfl
        | cons x l =>
          cases hl
          exact absurd hdenotes' (hbefore e' (by simp))
    rw [hsame]
    exact hlong
  otherLayer hlayer := by
    obtain ⟨before, after, rfl, hdenotes, -⟩ := h
    rw [Denotes] at hdenotes
    split at hdenotes
    · next hil =>
      have hmem : e ∈ before ++ e :: after := by simp
      refine .inr ⟨?_, hdenotes, e, hmem, hil⟩
      rw [(hinter e hmem hil).1]
    · exact absurd hdenotes.1 hlayer

end ECM.RefPics
