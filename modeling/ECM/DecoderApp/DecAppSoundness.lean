import ECM.DecoderApp.DecApp
import Mathlib.Data.List.Basic

/-! # What one call of the output functions does

The counters of `xWriteOutput` never fall below what a recount finds, so when the
loop ends either nothing waits or both limits are met; and what was needed for
output is written or still needed. -/

namespace ECM.DecoderApp
open CommonLib List

variable {limits : Limits} {c : Counts} {last last' : ℤ} {p : Picture} {ps l : List Picture}

/-- The pictures that wait. -/
def waiting (last : ℤ) (l : List Picture) : ℕ := l.countP (isWaiting last)

/-- The pictures that take part in the fullness. -/
def fullness (last : ℤ) (l : List Picture) : ℕ := l.countP fun p => isWaiting last p || p.referenced

theorem countPics_eq (last : ℤ) (l : List Picture) : countPics last l = ⟨waiting last l, fullness last l⟩ := by
  have hfold : ∀ (l : List Picture) (c : Counts),
      l.foldl (fun c p =>
        if isWaiting last p then ⟨c.numPicsNotYetDisplayed + 1, c.dpbFullness + 1⟩
        else if p.referenced then { c with dpbFullness := c.dpbFullness + 1 } else c) c =
      ⟨c.numPicsNotYetDisplayed + waiting last l, c.dpbFullness + fullness last l⟩ := by
    intro l
    induction l with
    | nil => exact fun c => rfl
    | cons p l ih =>
      intro c
      rw [foldl_cons, ih]
      unfold waiting fullness
      rw [countP_cons, countP_cons]
      cases hw : isWaiting last p with
      | true => simp [Nat.add_assoc, Nat.add_comm 1]
      | false =>
        cases hr : p.referenced with
        | true => simp [Nat.add_assoc, Nat.add_comm 1]
        | false => simp
  have h := hfold l ⟨0, 0⟩
  rw [Nat.zero_add, Nat.zero_add] at h
  exact h

theorem isWaiting_mono (h : last ≤ last') (hw : isWaiting last' p = true) : isWaiting last p = true := by
  simp only [isWaiting, Bool.and_eq_true, decide_eq_true_eq] at hw ⊢
  exact ⟨hw.1, Int.lt_of_le_of_lt h hw.2⟩

theorem waiting_mono (h : last ≤ last') : waiting last' l ≤ waiting last l :=
  countP_mono_left fun _ _ => isWaiting_mono h

theorem fullness_mono (h : last ≤ last') : fullness last' l ≤ fullness last l := by
  refine countP_mono_left fun p _ hp => ?_
  rw [Bool.or_eq_true] at hp ⊢
  exact hp.imp (isWaiting_mono h) id

@[simp] theorem displayed_neededForOutput : (displayed p).neededForOutput = false := rfl

@[simp] theorem displayed_referenced : (displayed p).referenced = p.referenced := rfl

@[simp] theorem displayed_poc : (displayed p).poc = p.poc := rfl

theorem isWaiting_displayed : isWaiting last (displayed p) = false := rfl

/-! ## The loop -/

/-- The counters after a picture was written. -/
def afterWrite (c : Counts) (p : Picture) : Counts where
  numPicsNotYetDisplayed := c.numPicsNotYetDisplayed - 1
  dpbFullness := if !p.referenced then c.dpbFullness - 1 else c.dpbFullness

theorem writePics_write (hw : isWaiting last p = true) (he : exceeds c limits = true) :
    writePics limits c last (p :: ps) =
      { writePics limits (afterWrite c p) p.poc ps with
        pictures := displayed p :: (writePics limits (afterWrite c p) p.poc ps).pictures
        written := p :: (writePics limits (afterWrite c p) p.poc ps).written } := by
  rw [writePics, if_pos (by rw [hw, he]; rfl)]
  rfl

theorem writePics_keep (h : ¬(isWaiting last p = true ∧ exceeds c limits = true)) :
    writePics limits c last (p :: ps) =
      { writePics limits c last ps with pictures := p :: (writePics limits c last ps).pictures } := by
  rw [writePics, if_neg (by rwa [Bool.and_eq_true])]

/-- The last POC displayed never decreases. -/
theorem writePics_last (limits : Limits) (c : Counts) (last : ℤ) (ps : List Picture) :
    last ≤ (writePics limits c last ps).m_iPOCLastDisplay := by
  induction ps generalizing c last with
  | nil => exact Int.le_refl _
  | cons p ps ih =>
    by_cases h : isWaiting last p = true ∧ exceeds c limits = true
    · rw [writePics_write h.1 h.2]
      have hlt : last < p.poc := by
        have hw := h.1
        simp only [isWaiting, Bool.and_eq_true, decide_eq_true_eq] at hw
        exact hw.2
      exact Int.le_trans (Int.le_of_lt hlt) (ih _ _)
    · rw [writePics_keep h]
      exact ih _ _

/-- Once the limits are met nothing more is written. -/
theorem writePics_met (h : exceeds c limits = false) : writePics limits c last ps = ⟨last, ps, []⟩ := by
  induction ps with
  | nil => rfl
  | cons p ps ih => rw [writePics_keep (by rw [h]; simp), ih]

theorem not_exceeds (h : exceeds c limits = false) :
    c.numPicsNotYetDisplayed ≤ limits.numReorderPics ∧ c.dpbFullness ≤ limits.maxDecPicBuffering := by
  simpa [exceeds] using h

/-- What a picture counts in the fullness if it does not wait. -/
theorem fullness_cons (hw : isWaiting last p = false) :
    fullness last (p :: l) = fullness last l + p.referenced.toNat := by
  unfold fullness
  rw [countP_cons, hw]
  cases p.referenced <;> rfl

theorem fullness_cons_waiting (hw : isWaiting last p = true) : fullness last (p :: l) = fullness last l + 1 := by
  unfold fullness
  rw [countP_cons, hw]
  rfl

theorem waiting_cons (hw : isWaiting last p = false) : waiting last (p :: l) = waiting last l := by
  unfold waiting
  rw [countP_cons, hw]
  rfl

theorem waiting_cons_waiting (hw : isWaiting last p = true) : waiting last (p :: l) = waiting last l + 1 := by
  unfold waiting
  rw [countP_cons, hw]
  rfl

theorem isWaiting_lt (hw : isWaiting last p = true) : last < p.poc := by
  simp only [isWaiting, Bool.and_eq_true, decide_eq_true_eq] at hw
  exact hw.2

theorem isWaiting_needed (hw : isWaiting last p = true) : p.neededForOutput = true := by
  simp only [isWaiting, Bool.and_eq_true] at hw
  exact hw.1

theorem not_waiting_mono (h : last ≤ last') (hw : isWaiting last p = false) : isWaiting last' p = false := by
  cases hw' : isWaiting last' p with
  | false => rfl
  | true => exact hw.symm.trans (isWaiting_mono h hw') |>.symm

/-- At the end nothing waits, or a recount finds both limits met. The pictures before `ps` count for `k` and `m`. -/
theorem writePics_limits {k m : ℕ} (hk : k + waiting last ps ≤ c.numPicsNotYetDisplayed)
    (hm : m + fullness last ps ≤ c.dpbFullness) :
    (∀ q ∈ (writePics limits c last ps).pictures,
        isWaiting (writePics limits c last ps).m_iPOCLastDisplay q = false) ∨
      k + waiting (writePics limits c last ps).m_iPOCLastDisplay (writePics limits c last ps).pictures ≤
          limits.numReorderPics ∧
        m + fullness (writePics limits c last ps).m_iPOCLastDisplay (writePics limits c last ps).pictures ≤
          limits.maxDecPicBuffering := by
  induction ps generalizing c last k m with
  | nil => exact Or.inl fun q hq => absurd hq not_mem_nil
  | cons p ps ih =>
    cases he : exceeds c limits with
    | false =>
      rw [writePics_met he]
      obtain ⟨h1, h2⟩ := not_exceeds he
      exact Or.inr ⟨Nat.le_trans hk h1, Nat.le_trans hm h2⟩
    | true =>
      cases hw : isWaiting last p with
      | true =>
        rw [writePics_write hw he]
        dsimp only
        have hlt := Int.le_of_lt (isWaiting_lt hw)
        rw [waiting_cons_waiting hw] at hk
        rw [fullness_cons_waiting hw] at hm
        have hm1 := waiting_mono (l := ps) hlt
        have hm2 := fullness_mono (l := ps) hlt
        have hk' : k + waiting p.poc ps ≤ (afterWrite c p).numPicsNotYetDisplayed := by
          simp only [afterWrite]
          omega
        have hm' : m + p.referenced.toNat + fullness p.poc ps ≤ (afterWrite c p).dpbFullness := by
          simp only [afterWrite]
          cases p.referenced
          · simp only [Bool.not_false, if_true, Bool.toNat_false]
            omega
          · simp only [Bool.not_true, Bool.false_eq_true, if_false, Bool.toNat_true]
            omega
        rcases ih hk' hm' with hnone | ⟨h1, h2⟩
        · refine Or.inl fun q hq => ?_
          rcases mem_cons.mp hq with rfl | hq
          · exact isWaiting_displayed
          · exact hnone q hq
        · refine Or.inr ⟨?_, ?_⟩
          · rwa [waiting_cons isWaiting_displayed]
          · rw [fullness_cons isWaiting_displayed, displayed_referenced]
            omega
      | false =>
        rw [writePics_keep (by rw [hw]; simp)]
        have hlast := writePics_last limits c last ps
        have hw' := not_waiting_mono hlast hw
        rw [waiting_cons hw] at hk
        rw [fullness_cons hw] at hm
        have hm' : m + p.referenced.toNat + fullness last ps ≤ c.dpbFullness := by omega
        rcases ih hk hm' with hnone | ⟨h1, h2⟩
        · refine Or.inl fun q hq => ?_
          rcases mem_cons.mp hq with rfl | hq
          · exact hw'
          · exact hnone q hq
        · refine Or.inr ⟨?_, ?_⟩
          · rwa [waiting_cons hw']
          · rw [fullness_cons hw']
            omega

/-- After `xWriteOutput` nothing waits, or both limits are met. -/
theorem xWriteOutput_limits (limits : Limits) (last : ℤ) (l : List Picture) :
    (∀ q ∈ (xWriteOutput limits last l).pictures,
        isWaiting (xWriteOutput limits last l).m_iPOCLastDisplay q = false) ∨
      exceeds (countPics (xWriteOutput limits last l).m_iPOCLastDisplay (xWriteOutput limits last l).pictures)
        limits = false := by
  unfold xWriteOutput
  rw [countPics_eq last l]
  rcases @writePics_limits limits ⟨waiting last l, fullness last l⟩ last l 0 0
    (Nat.le_of_eq (Nat.zero_add _)) (Nat.le_of_eq (Nat.zero_add _)) with h | ⟨h1, h2⟩
  · exact Or.inl h
  · refine Or.inr ?_
    rw [countPics_eq]
    rw [Nat.zero_add] at h1 h2
    simp [exceeds, h1, h2]

/-! ## What is written -/

/-- The pictures needed for output. -/
def needed (l : List Picture) : List Picture := l.filter (·.neededForOutput)

/-- A picture needed for output is written or still needed, and no other is written. -/
theorem writePics_perm (limits : Limits) (c : Counts) (last : ℤ) (ps : List Picture) :
    (needed ps).Perm ((writePics limits c last ps).written ++ needed (writePics limits c last ps).pictures) := by
  induction ps generalizing c last with
  | nil => exact List.Perm.refl _
  | cons p ps ih =>
    by_cases h : isWaiting last p = true ∧ exceeds c limits = true
    · rw [writePics_write h.1 h.2]
      have hp : needed (p :: ps) = p :: needed ps := filter_cons_of_pos (isWaiting_needed h.1)
      have hd : ∀ l, needed (displayed p :: l) = needed l := fun l =>
        filter_cons_of_neg (by rw [displayed_neededForOutput]; exact Bool.false_ne_true)
      rw [hp, hd]
      exact (ih _ _).cons p
    · rw [writePics_keep h]
      have ih := ih c last
      cases hn : p.neededForOutput with
      | true =>
        have hp : ∀ l, needed (p :: l) = p :: needed l := fun l => filter_cons_of_pos hn
        rw [hp, hp]
        exact (ih.cons p).trans perm_middle.symm
      | false =>
        have hp : ∀ l, needed (p :: l) = needed l := fun l =>
          filter_cons_of_neg (by rw [hn]; exact Bool.false_ne_true)
        rw [hp, hp]
        exact ih

/-- The last POC displayed is the old one or that of a picture written. -/
theorem writePics_last_eq (limits : Limits) (c : Counts) (last : ℤ) (ps : List Picture) :
    (writePics limits c last ps).m_iPOCLastDisplay = last ∨
      ∃ q ∈ (writePics limits c last ps).written, (writePics limits c last ps).m_iPOCLastDisplay = q.poc := by
  induction ps generalizing c last with
  | nil => exact Or.inl rfl
  | cons p ps ih =>
    by_cases h : isWaiting last p = true ∧ exceeds c limits = true
    · rw [writePics_write h.1 h.2]
      rcases ih (afterWrite c p) p.poc with heq | ⟨q, hq, heq⟩
      · exact Or.inr ⟨p, mem_cons_self, heq⟩
      · exact Or.inr ⟨q, mem_cons_of_mem _ hq, heq⟩
    · rw [writePics_keep h]
      exact ih c last

/-- What a relation says of the pictures it says of all lists with the same values. -/
theorem pairwise_congr {α : Type} {f : Picture → α} {R : α → α → Prop} {l' : List Picture} (h : l'.map f = l.map f)
    (hl : l.Pairwise fun p q => R (f p) (f q)) : l'.Pairwise fun p q => R (f p) (f q) :=
  pairwise_map.mp (h ▸ pairwise_map.mpr hl)

/-- Pictures keep their POC, layer and reference mark. -/
theorem writePics_map {α : Type} (f : Picture → α) (hf : ∀ p, f (displayed p) = f p) (limits : Limits) (c : Counts)
    (last : ℤ) (ps : List Picture) : (writePics limits c last ps).pictures.map f = ps.map f := by
  induction ps generalizing c last with
  | nil => rfl
  | cons p ps ih =>
    by_cases h : isWaiting last p = true ∧ exceeds c limits = true
    · rw [writePics_write h.1 h.2]
      simp only [map_cons, hf, ih]
    · rw [writePics_keep h]
      simp only [map_cons, ih]

/-- Where the pictures needed for output come in order after the last one displayed, the first of them are written. -/
theorem writePics_order (limits : Limits) (c : Counts) (last : ℤ) (ps : List Picture)
    (hsorted : (needed ps).Pairwise fun p q => p.poc < q.poc) (hlast : ∀ p ∈ needed ps, last < p.poc) :
    needed ps = (writePics limits c last ps).written ++ needed (writePics limits c last ps).pictures ∧
      (∀ p ∈ (writePics limits c last ps).written, p.poc ≤ (writePics limits c last ps).m_iPOCLastDisplay) ∧
      ∀ p ∈ needed (writePics limits c last ps).pictures,
        (writePics limits c last ps).m_iPOCLastDisplay < p.poc := by
  induction ps generalizing c last with
  | nil => exact ⟨rfl, fun p hp => absurd hp not_mem_nil, fun p hp => absurd hp not_mem_nil⟩
  | cons p ps ih =>
    cases he : exceeds c limits with
    | false =>
      rw [writePics_met he]
      exact ⟨rfl, fun p hp => absurd hp not_mem_nil, hlast⟩
    | true =>
      cases hn : p.neededForOutput with
      | false =>
        have hp : ∀ l, needed (p :: l) = needed l := fun l =>
          filter_cons_of_neg (by rw [hn]; exact Bool.false_ne_true)
        rw [hp] at hsorted hlast ⊢
        rw [writePics_keep (by simp [isWaiting, hn]), hp]
        exact ih c last hsorted hlast
      | true =>
        have hp : ∀ l, needed (p :: l) = p :: needed l := fun l => filter_cons_of_pos hn
        rw [hp] at hsorted hlast ⊢
        obtain ⟨hfirst, hrest⟩ := pairwise_cons.mp hsorted
        have hw : isWaiting last p = true := by simp [isWaiting, hn, hlast p mem_cons_self]
        have hd : ∀ l, needed (displayed p :: l) = needed l := fun l =>
          filter_cons_of_neg (by rw [displayed_neededForOutput]; exact Bool.false_ne_true)
        rw [writePics_write hw he]
        obtain ⟨h1, h2, h3⟩ := ih (afterWrite c p) p.poc hrest hfirst
        refine ⟨?_, ?_, ?_⟩
        · simp only [hd, cons_append]
          rw [← h1]
        · intro q hq
          rcases mem_cons.mp hq with rfl | hq
          · exact writePics_last _ _ _ _
          · exact h2 q hq
        · simp only [hd]
          exact h3

end ECM.DecoderApp
