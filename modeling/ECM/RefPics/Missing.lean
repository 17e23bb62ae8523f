import ECM.CommonLib.RefPicListSoundness
import ECM.DecoderLib.DecLib
import ECM.Lib.Loop

/-! # Missing reference pictures

A created picture keeps the POC that its buffer had before. So the loop that fills in
missing pictures does what it is for when there is nothing to fill in, and otherwise
only where a buffer that is free still has the POC of the missing picture. -/

namespace ECM.RefPics
open CommonLib DecoderLib DecoderLib.DecodeSlice Lib.Loop

variable {d : DecodeSlice} {pRPL : ReferencePictureList} {n : ℕ} {pics pics' : List Picture}
  {p q : Picture}

/-- What a round of the loop leaves of a picture: the POC, and the reference mark of one
whose buffer is not free. -/
structure Kept (p q : Picture) : Prop where
  poc : q.poc = p.poc
  bitsForPOC : q.bitsForPOC = p.bitsForPOC
  busy : isAvailable p = false →
    isAvailable q = false ∧ q.referenced = p.referenced ∧ (p.longTerm = true → q.longTerm = true)

theorem Kept.refl (p : Picture) : Kept p p := ⟨rfl, rfl, fun h => ⟨h, rfl, id⟩⟩

theorem Kept.trans {r : Picture} (h : Kept p q) (h' : Kept q r) : Kept p r := by
  refine ⟨h'.poc.trans h.poc, h'.bitsForPOC.trans h.bitsForPOC, fun hbusy => ?_⟩
  obtain ⟨hq, href, hlong⟩ := h.busy hbusy
  obtain ⟨hr, href', hlong'⟩ := h'.busy hq
  exact ⟨hr, href'.trans href, fun hlt => hlong' (hlong hlt)⟩

theorem isAvailable_marked (h : Marked p q) : isAvailable q = isAvailable p := by
  obtain ⟨-, -, href, hrec, hout, -⟩ := h.fields
  rw [isAvailable, isAvailable, href, hrec, hout]

theorem Kept.of_marked (h : Marked p q) : Kept p q := by
  obtain ⟨hpoc, hbits, href, -, -, hlong⟩ := h.fields
  exact ⟨hpoc, hbits, fun hbusy => ⟨(isAvailable_marked h).trans hbusy, href, hlong⟩⟩

theorem kept_trans {pics'' : List Picture} (h : List.Forall₂ Kept pics pics')
    (h' : List.Forall₂ Kept pics' pics'') : List.Forall₂ Kept pics pics'' := by
  induction h generalizing pics'' with
  | nil => exact h'
  | cons hpq _ ih =>
    cases h' with
    | cons hqr hrest => exact .cons (hpq.trans hqr) (ih hrest)

/-! ## Created pictures -/

/-- A caller of `xGetNewPicBuffer` that throws for a picture without slices. -/
def NeedsSlices (use : Picture → Checked Picture) : Prop :=
  ∀ p q, use p = .ok q → p.slices ≠ 0 ∧ q.poc = p.poc ∧ q.bitsForPOC = p.bitsForPOC

theorem needsSlices_lost : NeedsSlices lostPicture := by
  intro p q h
  obtain ⟨_, hcheck, h⟩ := bind_eq_ok h
  cases h
  exact ⟨check_eq_ok hcheck, rfl, rfl⟩

theorem needsSlices_unavailable (longTermFlag : Bool) : NeedsSlices (unavailablePicture longTermFlag) := by
  intro p q h
  obtain ⟨_, hcheck, h⟩ := bind_eq_ok h
  cases h
  exact ⟨check_eq_ok hcheck, rfl, rfl⟩

theorem NeedsSlices.reused {use : Picture → Checked Picture} (huse : NeedsSlices use) {layerId : ℤ}
    (h : use (d.reused layerId p) = .ok q) : q.poc = p.poc ∧ q.bitsForPOC = p.bitsForPOC := by
  obtain ⟨hslices, hpoc, hbits⟩ := huse _ _ h
  rw [DecodeSlice.reused] at hslices hpoc hbits
  split at hslices
  · next hfit =>
    rw [if_pos hfit] at hpoc hbits
    exact ⟨hpoc, hbits⟩
  · exact absurd rfl hslices

theorem reuseBuffer_kept {use : Picture → Checked Picture} (huse : NeedsSlices use) {layerId : ℤ}
    (h : d.reuseBuffer layerId use pics = .ok pics') : List.Forall₂ Kept pics pics' := by
  induction pics generalizing pics' with
  | nil =>
    obtain ⟨q, hq, -⟩ := bind_eq_ok h
    exact absurd rfl (huse _ _ hq).1
  | cons p rest ih =>
    rw [DecodeSlice.reuseBuffer] at h
    split at h
    · next havail =>
      obtain ⟨q, hq, h⟩ := bind_eq_ok h
      cases h
      obtain ⟨hpoc, hbits⟩ := huse.reused hq
      refine .cons ⟨hpoc, hbits, fun hbusy => ?_⟩ (List.forall₂_same.mpr fun r _ => .refl r)
      exact absurd havail (Bool.not_eq_true _ ▸ hbusy)
    · obtain ⟨rest', hrest, h⟩ := bind_eq_ok h
      cases h
      exact .cons (.refl p) (ih hrest)

theorem xGetNewPicBuffer_kept {use : Picture → Checked Picture} (huse : NeedsSlices use) {layerId : ℤ}
    (h : d.xGetNewPicBuffer layerId use pics = .ok pics') : List.Forall₂ Kept pics pics' := by
  rw [DecodeSlice.xGetNewPicBuffer] at h
  split at h
  · obtain ⟨q, hq, -⟩ := bind_eq_ok h
    exact absurd rfl (huse _ _ hq).1
  · exact reuseBuffer_kept huse h

theorem createMissing_kept {refPicIndex : ℕ} (h : d.createMissing pRPL refPicIndex pics = .ok pics') :
    List.Forall₂ Kept pics pics' := by
  rw [DecodeSlice.createMissing] at h
  split at h
  · split at h
    · next e _ =>
      split at h
      · cases h
        exact List.forall₂_same.mpr fun p _ => .refl p
      · obtain ⟨layerId, -, h⟩ := bind_eq_ok h
        exact xGetNewPicBuffer_kept (needsSlices_unavailable e.isLongterm) h
    · cases h
  · obtain ⟨layerId, -, h⟩ := bind_eq_ok h
    exact xGetNewPicBuffer_kept needsSlices_lost h

/-! ## The loop -/

theorem check_kept {lostPoc : ℤ} {refPicIndex : ℕ}
    (h : checkThatAllRefPicsAreAvailable d.m_apcSlicePilot pRPL n pics = .ok (lostPoc, refPicIndex, pics')) :
    List.Forall₂ Kept pics pics' := (check_ok_cases h).1.imp fun _ _ => .of_marked

theorem fillMissing_kept (fuel : ℕ) :
    ∀ {pics}, d.fillMissing pRPL n fuel pics = .ok (some pics') → List.Forall₂ Kept pics pics' := by
  induction fuel with
  | zero =>
    intro pics h
    obtain ⟨⟨lostPoc, refPicIndex, pics₁⟩, hcheck, h⟩ := bind_eq_ok h
    dsimp only at h
    split at h
    · cases h
    · cases h
      exact check_kept hcheck
  | succ fuel ih =>
    intro pics h
    obtain ⟨⟨lostPoc, refPicIndex, pics₁⟩, hcheck, h⟩ := bind_eq_ok h
    dsimp only at h
    split at h
    · obtain ⟨pics₂, hcreate, h⟩ := bind_eq_ok h
      exact kept_trans (check_kept hcheck) (kept_trans (createMissing_kept hcreate) (ih h))
    · cases h
      exact check_kept hcheck

/-- The loop ends within as many rounds as there are active entries, and each of these
that is not an inter-layer one has its picture then. -/
def Filled (d : DecodeSlice) (pRPL : ReferencePictureList) (n : ℕ) (pics : List Picture) : Prop :=
  ∃ pics', d.fillMissing pRPL n n pics = .ok (some pics') ∧ AllFound d.m_apcSlicePilot pRPL n pics'

/-- A buffer that is free has the POC of an active entry. -/
def Revivable (d : DecodeSlice) (pRPL : ReferencePictureList) (n : ℕ) (pics : List Picture) : Prop :=
  ∃ e ∈ pRPL.entries.take n, e.isInterLayerRefPic = false ∧
    ∃ p ∈ pics, isAvailable p = true ∧ SamePoc d.m_apcSlicePilot e p

theorem Present.filled (h : Present d.m_apcSlicePilot pRPL n pics) : Filled d pRPL n pics := by
  obtain ⟨pics', hcheck, hall⟩ := h.check
  refine ⟨pics', ?_, hall⟩
  cases n with
  | zero =>
    rw [DecodeSlice.fillMissing, hcheck]
    rfl
  | succ n =>
    rw [DecodeSlice.fillMissing, hcheck]
    rfl

/-- An entry that gets its picture later gets it from a buffer that was free. -/
theorem revivable_of_lacks {e : RefPicEntry} (he : e ∈ pRPL.entries.take n)
    (hinter : e.isInterLayerRefPic = false) (hlacks : Lacks d.m_apcSlicePilot e pics)
    (hkept : List.Forall₂ Kept pics pics') (hall : AllFound d.m_apcSlicePilot pRPL n pics') :
    Revivable d pRPL n pics := by
  obtain ⟨q, hq, hfor⟩ := hall e he hinter
  obtain ⟨p, hp, hpq⟩ := exists_left hkept hq
  have hsame : SamePoc d.m_apcSlicePilot e p := hfor.samePoc.congr hpq.poc.symm hpq.bitsForPOC.symm
  refine ⟨e, he, hinter, p, hp, ?_, hsame⟩
  by_contra hbusy
  rw [Bool.not_eq_true] at hbusy
  obtain ⟨-, href, hlong⟩ := hpq.busy hbusy
  obtain ⟨hshort, hlt⟩ := hlacks p hp (href.symm.trans hfor.referenced) hsame
  have hqlong := hfor.longTerm.symm.trans (hlong hlt)
  exact Bool.false_ne_true (hshort.symm.trans hqlong)

theorem Revivable.of_marked (h : Revivable d pRPL n pics') (hmarked : List.Forall₂ Marked pics pics') :
    Revivable d pRPL n pics := by
  obtain ⟨e, he, hinter, q, hq, havail, hsame⟩ := h
  obtain ⟨p, hp, hpq⟩ := exists_left hmarked hq
  obtain ⟨hpoc, hbits, -⟩ := hpq.fields
  exact ⟨e, he, hinter, p, hp, (isAvailable_marked hpq).symm.trans havail,
    hsame.congr hpoc.symm hbits.symm⟩

/-- The loop succeeds when nothing is missing, and otherwise only by chance. -/
theorem fillMissing_succeeds (d : DecodeSlice) (pRPL : ReferencePictureList) (n : ℕ) (pics : List Picture) :
    (Present d.m_apcSlicePilot pRPL n pics → Filled d pRPL n pics) ∧
      (Filled d pRPL n pics → Present d.m_apcSlicePilot pRPL n pics ∨ Revivable d pRPL n pics) := by
  refine ⟨Present.filled, ?_⟩
  rintro ⟨pics', hrun, hall⟩
  cases n with
  | zero =>
    obtain ⟨⟨lostPoc, refPicIndex, pics₁⟩, hcheck, hrun⟩ := bind_eq_ok hrun
    dsimp only at hrun
    split at hrun
    · cases hrun
    · cases hrun
      exact .inl ((check_ok_cases hcheck).2.2 hall)
  | succ n =>
    obtain ⟨⟨lostPoc, refPicIndex, pics₁⟩, hcheck, hrun⟩ := bind_eq_ok hrun
    obtain ⟨hmarked, hmissing, hpresent⟩ := check_ok_cases hcheck
    dsimp only at hrun
    split at hrun
    · next hlost =>
      obtain ⟨pics₂, hcreate, hrun⟩ := bind_eq_ok hrun
      obtain ⟨e, he, hinter, hlacks⟩ := hmissing hlost
      have hkept := kept_trans (createMissing_kept hcreate) (fillMissing_kept n hrun)
      exact .inr ((revivable_of_lacks he hinter hlacks hkept hall).of_marked hmarked)
    · cases hrun
      exact .inl (hpresent hall)

/-! ## The loop ends -/

/-- A P slice with the POC `poc`, whose list has the picture `delta` before it. -/
def lostSlice (poc : ℤ) : DecodeSlice where
  m_apcSlicePilot := ⟨poc, .CODED_SLICE_TRAIL, some 0⟩
  mixedNaluTypesInPicFlag := false
  idrRefParamListPresent := false
  rplInfoInPhFlag := false
  noOutputBeforeRecoveryFlag := false
  m_iMaxRefPicNum := 5
  sameFormat := fun _ => true

def shorttermList (delta : ℤ) : ReferencePictureList where
  m_numberOfShorttermPictures := 1
  m_numberOfLongtermPictures := 0
  entries := [⟨false, delta, false, 0, false⟩]
  interLayer_longterm := by
    intro e he hinter
    rw [List.mem_singleton.mp he] at hinter
    cases hinter

/-- A picture that was decoded and is used for reference. -/
def decodedPicture (poc : ℤ) : Picture := ⟨poc, 0, 0, false, true, true, false, some 8, 1⟩

/-- The picture 6 is missing, and the one that is made for it has no slices. The picture 0
is missing too, but not reported: the loop ends without it. -/
theorem fillMissing_fails :
    ¬Filled (lostSlice 8) (shorttermList (-2)) 1 [decodedPicture 4] ∧
      ¬Filled (lostSlice 4) (shorttermList (-4)) 1 [decodedPicture 2] := by
  constructor
  · rintro ⟨pics', hrun, -⟩
    have hthrow : (lostSlice 8).fillMissing (shorttermList (-2)) 1 1 [decodedPicture 4] =
        .error "No slices in picture" := rfl
    cases hthrow.symm.trans hrun
  · rintro ⟨pics', hrun, hall⟩
    have hend : (lostSlice 4).fillMissing (shorttermList (-4)) 1 1 [decodedPicture 2] =
        .ok (some [decodedPicture 2]) := rfl
    cases hend.symm.trans hrun
    obtain ⟨p, hp, hfor⟩ := hall ⟨false, -4, false, 0, false⟩ (by decide) rfl
    rw [List.mem_singleton.mp hp] at hfor
    have hpoc : (2 : ℤ) = 4 + -4 := hfor.samePoc
    exact absurd hpoc (by decide)

end ECM.RefPics
