import ECM.CommonLib.RefPicList

/-! # What the search for reference pictures finds

`IsFor` is the test of the search. Looking up the long-term entries only marks
pictures, so that what an entry has found stays found. -/

namespace ECM.CommonLib

variable {slice : CurrentSlice} {e : RefPicEntry} {p q : Picture} {pics pics' : List Picture}

/-- The picture has the POC of the entry. -/
def SamePoc (slice : CurrentSlice) (e : RefPicEntry) (p : Picture) : Prop :=
  if e.isLongterm then samePocLongterm slice e p = .ok true else p.poc = slice.poc + e.refPicIdentifier

/-- The picture is the reference picture of the entry. -/
structure IsFor (slice : CurrentSlice) (e : RefPicEntry) (p : Picture) : Prop where
  referenced : p.referenced = true
  longTerm : p.longTerm = e.isLongterm
  samePoc : SamePoc slice e p

theorem samePocLongterm_congr (hpoc : q.poc = p.poc) (hbits : q.bitsForPOC = p.bitsForPOC) :
    samePocLongterm slice e q = samePocLongterm slice e p := by
  rw [samePocLongterm, samePocLongterm, hbits, hpoc]

theorem SamePoc.congr (h : SamePoc slice e p) (hpoc : q.poc = p.poc)
    (hbits : q.bitsForPOC = p.bitsForPOC) : SamePoc slice e q := by
  rwa [SamePoc, samePocLongterm_congr hpoc hbits, hpoc]

/-- Nothing happened to the picture, or it was marked as long-term. -/
def Marked (p q : Picture) : Prop := q = p ∨ q = { p with longTerm := true }

theorem Marked.trans {r : Picture} (h : Marked p q) (h' : Marked q r) : Marked p r := by
  rcases h' with rfl | rfl
  · exact h
  · rcases h with rfl | rfl
    · exact .inr rfl
    · exact .inr rfl

theorem Marked.fields (h : Marked p q) : q.poc = p.poc ∧ q.bitsForPOC = p.bitsForPOC ∧
    q.referenced = p.referenced ∧ q.reconstructed = p.reconstructed ∧
    q.neededForOutput = p.neededForOutput ∧ (p.longTerm = true → q.longTerm = true) := by
  rcases h with rfl | rfl
  · exact ⟨rfl, rfl, rfl, rfl, rfl, id⟩
  · exact ⟨rfl, rfl, rfl, rfl, rfl, fun _ => rfl⟩

theorem marked_refl (pics : List Picture) : List.Forall₂ Marked pics pics :=
  List.forall₂_same.mpr fun _ _ => .inl rfl

theorem marked_trans {pics'' : List Picture} (h : List.Forall₂ Marked pics pics')
    (h' : List.Forall₂ Marked pics' pics'') : List.Forall₂ Marked pics pics'' := by
  induction h generalizing pics'' with
  | nil => exact h'
  | cons hpq _ ih =>
    cases h' with
    | cons hqr hrest => exact .cons (hpq.trans hqr) (ih hrest)

theorem IsFor.marked (h : IsFor slice e p) (hlong : e.isLongterm = true) (hm : Marked p q) :
    IsFor slice e q := by
  obtain ⟨hpoc, hbits, href, -, -, hlt⟩ := hm.fields
  exact ⟨href.trans h.referenced, (hlt (h.longTerm.trans hlong)).trans hlong.symm, h.samePoc.congr hpoc hbits⟩

/-- An element of the first list has its element of the second. -/
theorem exists_right {α : Type} {R : α → α → Prop} {l l' : List α} (h : List.Forall₂ R l l') {a : α}
    (ha : a ∈ l) : ∃ b ∈ l', R a b := by
  induction h with
  | nil => cases ha
  | cons hab _ ih =>
    rcases List.mem_cons.mp ha with rfl | ha
    · exact ⟨_, List.mem_cons_self, hab⟩
    · obtain ⟨b, hb, hR⟩ := ih ha
      exact ⟨b, List.mem_cons_of_mem _ hb, hR⟩

theorem exists_left {α : Type} {R : α → α → Prop} {l l' : List α} (h : List.Forall₂ R l l') {b : α}
    (hb : b ∈ l') : ∃ a ∈ l, R a b := by
  obtain ⟨a, ha, hR⟩ := exists_right h.flip hb
  exact ⟨a, ha, hR⟩

/-! ## One long-term entry -/

theorem hasLongterm_ok (hlong : e.isLongterm = true) {b : Bool} (h : hasLongterm slice e pics = .ok b) :
    if b then ∃ p ∈ pics, IsFor slice e p
    else ∀ p ∈ pics, p.referenced = true → p.longTerm = true → samePocLongterm slice e p ≠ .ok true := by
  induction pics with
  | nil =>
    cases h
    intro p hp
    cases hp
  | cons p rest ih =>
    obtain ⟨same, hsame, h⟩ := bind_eq_ok h
    split at h
    · next hp =>
      cases h
      rw [Bool.and_eq_true, Bool.and_eq_true] at hp
      refine ⟨p, List.mem_cons_self, hp.2, hp.1.1.trans hlong.symm, ?_⟩
      rw [SamePoc, if_pos hlong, hsame, hp.1.2]
    · next hp =>
      have hrest := ih h
      cases b with
      | true =>
        obtain ⟨q, hq, hfor⟩ := hrest
        exact ⟨q, List.mem_cons_of_mem p hq, hfor⟩
      | false =>
        intro q hq href hlt hq'
        rcases List.mem_cons.mp hq with rfl | hq
        · rw [hsame] at hq'
          cases hq'
          exact hp (by rw [hlt, href]; rfl)
        · exact hrest q hq href hlt hq'

theorem markLongterm_ok (hlong : e.isLongterm = true) {found : Option (List Picture)}
    (h : markLongterm slice e pics = .ok found) :
    match found with
    | some pics' => List.Forall₂ Marked pics pics' ∧ ∃ p ∈ pics', IsFor slice e p
    | none => ∀ p ∈ pics, p.referenced = true → p.longTerm = false → samePocLongterm slice e p ≠ .ok true := by
  induction pics generalizing found with
  | nil =>
    cases h
    intro p hp
    cases hp
  | cons p rest ih =>
    obtain ⟨same, hsame, h⟩ := bind_eq_ok h
    split at h
    · next hp =>
      cases h
      rw [Bool.and_eq_true, Bool.and_eq_true] at hp
      refine ⟨.cons (.inr rfl) (marked_refl rest), _, List.mem_cons_self, hp.2, hlong.symm, ?_⟩
      rw [SamePoc, if_pos hlong]
      exact (samePocLongterm_congr rfl rfl).trans (hsame.trans (by rw [hp.1.2]))
    · next hp =>
      obtain ⟨found', hrest, h⟩ := bind_eq_ok h
      have hrest := ih hrest
      cases h
      cases found' with
      | some rest' =>
        obtain ⟨hmarked, q, hq, hfor⟩ := hrest
        exact ⟨.cons (.inl rfl) hmarked, q, List.mem_cons_of_mem p hq, hfor⟩
      | none =>
        intro q hq href hlt hq'
        rcases List.mem_cons.mp hq with rfl | hq
        · rw [hsame] at hq'
          cases hq'
          exact hp (by rw [hlt, href]; rfl)
        · exact hrest q hq href hlt hq'

theorem lookupLongterm_ok (hlong : e.isLongterm = true) {found : Option (List Picture)}
    (h : lookupLongterm slice e pics = .ok found) :
    match found with
    | some pics' => List.Forall₂ Marked pics pics' ∧ ∃ p ∈ pics', IsFor slice e p
    | none => ∀ p ∈ pics, p.referenced = true → ¬SamePoc slice e p := by
  obtain ⟨b, hb, h⟩ := bind_eq_ok h
  have hfound := hasLongterm_ok hlong hb
  cases b with
  | true =>
    cases h
    exact ⟨marked_refl pics, hfound⟩
  | false =>
    have hmark := markLongterm_ok hlong h
    cases found with
    | some pics' => exact hmark
    | none =>
      intro p hp href hsame
      rw [SamePoc, if_pos hlong] at hsame
      cases hlt : p.longTerm with
      | true => exact hfound p hp href hlt hsame
      | false => exact hmark p hp href hlt hsame

/-! ## All entries -/

theorem checkLongterm_ok {entries : List RefPicEntry} {ii : ℕ} {missing : Option (ℤ × ℕ)}
    (h : checkLongterm slice entries ii pics = .ok (missing, pics')) :
    List.Forall₂ Marked pics pics' ∧
    match missing with
    | none => ∀ e ∈ entries, e.isLongterm = true → e.isInterLayerRefPic = false →
        ∃ p ∈ pics', IsFor slice e p
    | some _ => ∃ e ∈ entries, e.isInterLayerRefPic = false ∧ e.isLongterm = true ∧
        ∀ p ∈ pics', p.referenced = true → ¬SamePoc slice e p := by
  induction entries generalizing ii pics with
  | nil =>
    cases h
    refine ⟨marked_refl _, fun e he => ?_⟩
    cases he
  | cons e rest ih =>
    rw [checkLongterm] at h
    split at h
    · next hskip =>
      rw [Bool.or_eq_true, Bool.not_eq_true'] at hskip
      obtain ⟨hmarked, hrest⟩ := ih h
      refine ⟨hmarked, ?_⟩
      cases missing with
      | none =>
        intro e' he' hlong hinter
        rcases List.mem_cons.mp he' with rfl | he'
        · rw [hlong, hinter] at hskip
          rcases hskip with hskip | hskip
          · cases hskip
          · cases hskip
        · exact hrest e' he' hlong hinter
      | some m =>
        obtain ⟨e', he', hnone⟩ := hrest
        exact ⟨e', List.mem_cons_of_mem e he', hnone⟩
    · next hskip =>
      rw [Bool.not_eq_true, Bool.or_eq_false_iff, Bool.not_eq_false'] at hskip
      obtain ⟨found, hlookup, h⟩ := bind_eq_ok h
      have hfound := lookupLongterm_ok hskip.1 hlookup
      cases found with
      | none =>
        cases h
        exact ⟨marked_refl _, e, List.mem_cons_self, hskip.2, hskip.1, hfound⟩
      | some pics₁ =>
        obtain ⟨hmarked, hrest⟩ := ih h
        refine ⟨marked_trans hfound.1 hmarked, ?_⟩
        cases missing with
        | none =>
          intro e' he' hlong hinter
          rcases List.mem_cons.mp he' with rfl | he'
          · obtain ⟨p, hp, hfor⟩ := hfound.2
            obtain ⟨q, hq, hm⟩ := exists_right hmarked hp
            exact ⟨q, hq, hfor.marked hskip.1 hm⟩
          · exact hrest e' he' hlong hinter
        | some m =>
          obtain ⟨e', he', hnone⟩ := hrest
          exact ⟨e', List.mem_cons_of_mem e he', hnone⟩

theorem hasShortterm_iff (hshort : e.isLongterm = false) :
    hasShortterm slice e pics = true ↔ ∃ p ∈ pics, IsFor slice e p := by
  rw [hasShortterm, List.any_eq_true]
  refine exists_congr fun p => and_congr_right fun _ => ?_
  rw [Bool.and_eq_true, Bool.and_eq_true, Bool.not_eq_true', decide_eq_true_iff]
  constructor
  · rintro ⟨⟨hlt, hpoc⟩, href⟩
    refine ⟨href, hlt.trans hshort.symm, ?_⟩
    rwa [SamePoc, if_neg (by rw [hshort]; exact Bool.false_ne_true)]
  · rintro ⟨href, hlt, hpoc⟩
    rw [SamePoc, if_neg (by rw [hshort]; exact Bool.false_ne_true)] at hpoc
    exact ⟨⟨hlt.trans hshort, hpoc⟩, href⟩

theorem checkShortterm_cases (num : ℕ) (pics : List Picture) (entries : List RefPicEntry) (ii : ℕ) :
    (∃ m, checkShortterm slice num pics entries ii = some m ∧
      ∃ e ∈ entries, e.isLongterm = false ∧ ∀ p ∈ pics, ¬IsFor slice e p) ∨
    checkShortterm slice num pics entries ii = none := by
  induction entries generalizing ii with
  | nil => exact .inr rfl
  | cons e rest ih =>
    have hrest : (∃ m, checkShortterm slice num pics rest (ii + 1) = some m ∧
        ∃ e' ∈ e :: rest, e'.isLongterm = false ∧ ∀ p ∈ pics, ¬IsFor slice e' p) ∨
        checkShortterm slice num pics rest (ii + 1) = none := by
      rcases ih (ii + 1) with ⟨m, hm, e', he', hnone⟩ | hnone
      · exact .inl ⟨m, hm, e', List.mem_cons_of_mem e he', hnone⟩
      · exact .inr hnone
    rw [checkShortterm]
    split
    · exact hrest
    · next hshort =>
      rw [Bool.not_eq_true] at hshort
      split
      · next hmissing =>
        rw [Bool.and_eq_true, Bool.not_eq_true', ← Bool.not_eq_true, hasShortterm_iff hshort] at hmissing
        exact .inl ⟨_, rfl, e, List.mem_cons_self, hshort, fun p hp hfor => hmissing.1 ⟨p, hp, hfor⟩⟩
      · exact hrest

/-! ## The check -/

variable {pRPL : ReferencePictureList} {n : ℕ}

/-- Every active entry that is not an inter-layer one has its picture. -/
def AllFound (slice : CurrentSlice) (pRPL : ReferencePictureList) (n : ℕ) (pics : List Picture) : Prop :=
  ∀ e ∈ pRPL.entries.take n, e.isInterLayerRefPic = false → ∃ p ∈ pics, IsFor slice e p

/-- The buffer has all pictures, once the long-term ones are marked. An IDR slice marks none. -/
def Present (slice : CurrentSlice) (pRPL : ReferencePictureList) (n : ℕ) (pics : List Picture) : Prop :=
  ∃ pics', (if slice.nalUnitType.isIDR then pics' = pics
      else checkAllLongterm slice pRPL n pics = .ok (none, pics')) ∧ AllFound slice pRPL n pics'

/-- No picture that is used for reference will do for the entry. -/
def Lacks (slice : CurrentSlice) (e : RefPicEntry) (pics : List Picture) : Prop :=
  ∀ p ∈ pics, p.referenced = true → SamePoc slice e p → e.isLongterm = false ∧ p.longTerm = true

theorem checkAllLongterm_ok {missing : Option (ℤ × ℕ)}
    (h : checkAllLongterm slice pRPL n pics = .ok (missing, pics')) :
    List.Forall₂ Marked pics pics' ∧ (missing.isSome = true → ∃ e ∈ pRPL.entries.take n,
      e.isInterLayerRefPic = false ∧ Lacks slice e pics') := by
  rw [checkAllLongterm] at h
  split at h
  · obtain ⟨hmarked, hmissing⟩ := checkLongterm_ok h
    refine ⟨hmarked, fun hsome => ?_⟩
    cases missing with
    | none => cases hsome
    | some m =>
      obtain ⟨e, he, hinter, -, hnone⟩ := hmissing
      exact ⟨e, he, hinter, fun p hp href hsame => absurd hsame (hnone p hp href)⟩
  · cases h
    exact ⟨marked_refl _, fun hsome => by cases hsome⟩

theorem Lacks.not_found {entries : List RefPicEntry} {e : RefPicEntry} (he : e ∈ entries)
    (hinter : e.isInterLayerRefPic = false) (h : Lacks slice e pics)
    (hall : ∀ e ∈ entries, e.isInterLayerRefPic = false → ∃ p ∈ pics, IsFor slice e p) : False := by
  obtain ⟨p, hp, hfor⟩ := hall e he hinter
  obtain ⟨hshort, hlong⟩ := h p hp hfor.referenced hfor.samePoc
  exact Bool.false_ne_true (hshort.symm.trans (hfor.longTerm.symm.trans hlong))

theorem not_interLayer {e : RefPicEntry} (he : e ∈ pRPL.entries.take n) (hshort : e.isLongterm = false) :
    e.isInterLayerRefPic = false := by
  by_contra hne
  rw [Bool.not_eq_false] at hne
  have hlong := pRPL.interLayer_longterm e (List.mem_of_mem_take he) hne
  exact Bool.false_ne_true (hshort.symm.trans hlong)

/-- All pictures are there, and the check says so. -/
theorem Present.check (h : Present slice pRPL n pics) : ∃ pics',
    checkThatAllRefPicsAreAvailable slice pRPL n pics = .ok (0, 0, pics') ∧ AllFound slice pRPL n pics' := by
  obtain ⟨pics', hlong, hall⟩ := h
  refine ⟨pics', ?_, hall⟩
  rw [checkThatAllRefPicsAreAvailable]
  split at hlong
  · next hidr => rw [if_pos hidr, hlong]
  · next hidr =>
    rw [if_neg hidr, hlong, ok_bind]
    rcases checkShortterm_cases pRPL.m_numberOfShorttermPictures pics' (pRPL.entries.take n) 0 with
      ⟨m, -, e, he, hshort, hnone⟩ | hnone
    · obtain ⟨p, hp, hfor⟩ := hall e he (not_interLayer he hshort)
      exact absurd hfor (hnone p hp)
    · dsimp only
      rw [hnone]
      rfl

/-- What the check reports is missing; what it does not report may be missing too. -/
theorem check_ok_cases {lostPoc : ℤ} {refPicIndex : ℕ}
    (h : checkThatAllRefPicsAreAvailable slice pRPL n pics = .ok (lostPoc, refPicIndex, pics')) :
    List.Forall₂ Marked pics pics' ∧
    (lostPoc > 0 → ∃ e ∈ pRPL.entries.take n, e.isInterLayerRefPic = false ∧ Lacks slice e pics') ∧
    (AllFound slice pRPL n pics' → Present slice pRPL n pics) := by
  rw [checkThatAllRefPicsAreAvailable] at h
  split at h
  · next hidr =>
    cases h
    exact ⟨marked_refl _, fun hlt => absurd hlt (by decide), fun hall => ⟨_, by rw [if_pos hidr], hall⟩⟩
  · next hidr =>
    obtain ⟨⟨missing, pics₁⟩, hlong, h⟩ := bind_eq_ok h
    obtain ⟨hmarked, hmissing⟩ := checkAllLongterm_ok hlong
    cases missing with
    | some m =>
      cases h
      obtain ⟨e, he, hinter, hlacks⟩ := hmissing rfl
      exact ⟨hmarked, fun _ => ⟨e, he, hinter, hlacks⟩,
        fun hall => (hlacks.not_found he hinter hall).elim⟩
    | none =>
      have hpresent : AllFound slice pRPL n pics₁ → Present slice pRPL n pics :=
        fun hall => ⟨pics₁, by rw [if_neg hidr]; exact hlong, hall⟩
      dsimp only at h
      rcases checkShortterm_cases pRPL.m_numberOfShorttermPictures pics₁ (pRPL.entries.take n) 0 with
        ⟨m, hm, e, he, hshort, hnone⟩ | hnone
      · rw [hm] at h
        cases h
        refine ⟨hmarked, fun _ => ⟨e, he, not_interLayer he hshort, fun p hp href hsame => ⟨hshort, ?_⟩⟩, hpresent⟩
        by_contra hlt
        rw [Bool.not_eq_true] at hlt
        exact hnone p hp ⟨href, hlt.trans hshort.symm, hsame⟩
      · rw [hnone] at h
        cases h
        exact ⟨hmarked, fun hlt => absurd hlt (by decide), hpresent⟩

end ECM.CommonLib
