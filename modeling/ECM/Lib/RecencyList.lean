import Mathlib.Data.List.Forall2
import Mathlib.Data.List.Induction
import Mathlib.Data.List.Pairwise
import Mathlib.Data.Nat.Notation

/-! # Lists of the most recently added items

`addRecent` moves what is added to the end of a list of bounded length, where it takes the
place of an item that is the same, or of the oldest one. The list is the end of the history
in which only the last of the same items is kept. -/

namespace ECM.Lib.RecencyList

variable {α : Type} {same : α → α → Bool} {capacity : ℕ} {history t front : List α} {x : α}

/-- Adding `x`: an item that is the same goes, or the first one if there is no room. -/
def addRecent (capacity : ℕ) (same : α → α → Bool) (t : List α) (x : α) : List α :=
  match t.findIdx? fun y => same y x with
  | some i => t.eraseIdx i ++ [x]
  | none => if t.length = capacity then t.eraseIdx 0 ++ [x] else t ++ [x]

/-- What has been added, the last of the same items only. -/
def lastAdded (same : α → α → Bool) (history : List α) : List α :=
  history.pwFilter fun a b => ¬same a b = true

/-- `x` was added at the time `i`, and nothing that is the same was added later. -/
def AddedLast (same : α → α → Bool) (history : List α) (i : ℕ) (x : α) : Prop :=
  history[i]? = some x ∧ ∀ j y, i < j → history[j]? = some y → ¬same x y = true

/-- `t` has at most `capacity` items, of which no two are the same, in the order in which they
were last added; and an item is missing only if `capacity` others were added after it. -/
structure RecentlyAdded (capacity : ℕ) (same : α → α → Bool) (history t : List α) : Prop where
  bounded : t.length ≤ capacity
  distinct : t.Pairwise fun a b => ¬same a b = true
  ordered : ∃ times : List ℕ, times.Pairwise (· < ·) ∧ List.Forall₂ (AddedLast same history) times t
  present : ∀ i x, history[i]? = some x → (∃ y ∈ t, same x y = true) ∨
    ∃ later : List α, later.Sublist (history.drop (i + 1)) ∧ later.length = capacity ∧
      later.Pairwise (fun a b => ¬same a b = true) ∧ ∀ y ∈ later, ¬same x y = true

/-- `t` is the end of the history without repetitions, and it is full or it is all of it. -/
def Window (capacity : ℕ) (same : α → α → Bool) (history t : List α) : Prop :=
  ∃ front, lastAdded same history = front ++ t ∧ t.length ≤ capacity ∧ (front = [] ∨ t.length = capacity)

section
variable (hsame : Equivalence fun a b => same a b = true)
include hsame

theorem forall_mem_lastAdded {a : α} (history : List α) :
    (∀ b ∈ lastAdded same history, ¬same a b = true) ↔ ∀ b ∈ history, ¬same a b = true := by
  refine List.forall_mem_pwFilter (fun {x y z} hxz => ?_) a history
  by_contra hboth
  rw [not_or, not_not, not_not] at hboth
  exact hxz (hsame.trans hboth.1 hboth.2)

/-- Everything that was added is there, as the last of the same items. -/
theorem mem_lastAdded (hx : x ∈ history) : ∃ y ∈ lastAdded same history, same x y = true := by
  by_contra hnone
  have hall : ∀ y ∈ lastAdded same history, ¬same x y = true := fun y hy hxy => hnone ⟨y, hy, hxy⟩
  exact (forall_mem_lastAdded hsame history).mp hall x hx (hsame.refl x)

theorem lastAdded_cons (a : α) (history : List α) :
    lastAdded same (a :: history) =
      if ∀ b ∈ history, ¬same a b = true then a :: lastAdded same history else lastAdded same history := by
  by_cases h : ∀ b ∈ history, ¬same a b = true
  · rw [if_pos h]
    exact List.pwFilter_cons_of_pos ((forall_mem_lastAdded hsame history).mpr h)
  · rw [if_neg h]
    exact List.pwFilter_cons_of_neg (mt (forall_mem_lastAdded hsame history).mp h)

/-- One more item removes what is the same and goes to the end. -/
theorem lastAdded_append (history : List α) (x : α) :
    lastAdded same (history ++ [x]) = (lastAdded same history).filter (fun y => !same y x) ++ [x] := by
  induction history with
  | nil => rfl
  | cons a history ih =>
    have hlast : (∀ b ∈ history ++ [x], ¬same a b = true) ↔ (∀ b ∈ history, ¬same a b = true) ∧ ¬same a x = true := by
      rw [List.forall_mem_append, List.forall_mem_singleton]
    rw [List.cons_append, lastAdded_cons hsame, lastAdded_cons hsame, ih]
    by_cases hax : same a x = true
    · rw [if_neg fun h => (hlast.mp h).2 hax]
      split
      · rw [List.filter_cons_of_neg (by simp [hax])]
      · rfl
    · by_cases h : ∀ b ∈ history, ¬same a b = true
      · rw [if_pos h, if_pos (hlast.mpr ⟨h, hax⟩), List.filter_cons_of_pos (by simp [hax]), List.cons_append]
      · rw [if_neg h, if_neg fun hboth => h (hlast.mp hboth).1]

theorem lastAdded_suffix (earlier later : List α) : lastAdded same later <:+ lastAdded same (earlier ++ later) := by
  induction earlier with
  | nil => exact List.suffix_rfl
  | cons a earlier ih =>
    rw [List.cons_append, lastAdded_cons hsame]
    split
    · exact ih.trans (List.suffix_cons _ _)
    · exact ih

/-! ## One step -/

/-- Of items that differ from each other at most one is the same as `x`. -/
theorem eraseP_eq_filter {t : List α} (h : t.Pairwise fun a b => ¬same a b = true) (x : α) :
    t.eraseP (fun y => same y x) = t.filter fun y => !same y x := by
  induction t with
  | nil => rfl
  | cons a t ih =>
    obtain ⟨ha, ht⟩ := List.pairwise_cons.mp h
    by_cases hax : same a x = true
    · rw [List.eraseP_cons_of_pos (p := fun y => same y x) hax, List.filter_cons_of_neg (by simp [hax]), List.filter_eq_self.mpr]
      intro b hb
      simpa using fun hbx => ha b hb (hsame.trans hax (hsame.symm hbx))
    · rw [List.eraseP_cons_of_neg (p := fun y => same y x) hax, List.filter_cons_of_pos (by simp [hax]), ih ht]

theorem addRecent_eq {t : List α} (h : t.Pairwise fun a b => ¬same a b = true) (x : α) :
    addRecent capacity same t x =
      (if (∀ y ∈ t, ¬same y x = true) ∧ t.length = capacity then t.tail
        else t.filter fun y => !same y x) ++ [x] := by
  rw [addRecent, ← eraseP_eq_filter hsame h, List.eraseP_eq_eraseIdx]
  cases hidx : t.findIdx? fun y => same y x with
  | some i =>
    have hmem : ¬∀ y ∈ t, ¬same y x = true := by
      intro hall
      have hnone : t.findIdx? (fun y => same y x) = none := List.findIdx?_eq_none_iff.mpr fun y hy => by
        simpa using hall y hy
      rw [hnone] at hidx
      cases hidx
    dsimp only
    rw [if_neg fun hboth => hmem hboth.1]
  | none =>
    have hall : ∀ y ∈ t, ¬same y x = true := fun y hy => by
      simpa using List.findIdx?_eq_none_iff.mp hidx y hy
    dsimp only
    by_cases hfull : t.length = capacity
    · rw [if_pos hfull, if_pos ⟨hall, hfull⟩, List.eraseIdx_zero]
    · rw [if_neg hfull, if_neg fun hboth => hfull hboth.2]

theorem window_step (hpos : 0 < capacity) (h : Window capacity same history t) (x : α) :
    Window capacity same (history ++ [x]) (addRecent capacity same t x) := by
  obtain ⟨front, hlast, hle, hfull⟩ := h
  have hpair : (front ++ t).Pairwise fun a b => ¬same a b = true := hlast ▸ List.pairwise_pwFilter history
  obtain ⟨-, hdistinct, hcross⟩ := List.pairwise_append.mp hpair
  rw [addRecent_eq hsame hdistinct, Window, lastAdded_append hsame, hlast, List.filter_append]
  by_cases hnew : ∀ y ∈ t, ¬same y x = true
  · have hkeep : t.filter (fun y => !same y x) = t := List.filter_eq_self.mpr fun y hy => by
      simpa using hnew y hy
    rw [hkeep]
    by_cases hcap : t.length = capacity
    · rw [if_pos ⟨hnew, hcap⟩]
      cases t with
      | nil =>
        rw [List.length_nil] at hcap
        omega
      | cons c t =>
        have hlen : (t ++ [x]).length = capacity := by simpa using hcap
        exact ⟨front.filter (fun y => !same y x) ++ [c], by simp, Nat.le_of_eq hlen, .inr hlen⟩
    · rw [if_neg fun hboth => hcap hboth.2]
      obtain rfl : front = [] := hfull.resolve_right hcap
      refine ⟨[], rfl, ?_, .inl rfl⟩
      rw [List.length_append, List.length_singleton]
      omega
  · obtain ⟨y, hy, hyx⟩ : ∃ y ∈ t, same y x = true := by
      by_contra hnone
      exact hnew fun y hy hyx => hnone ⟨y, hy, hyx⟩
    rw [if_neg fun hboth => hnew hboth.1]
    have hfront : front.filter (fun y => !same y x) = front := List.filter_eq_self.mpr fun a ha => by
      simpa using fun hax => hcross a ha y hy (hsame.trans hax (hsame.symm hyx))
    have hlen : (t.filter fun y => !same y x).length + 1 = t.length := by
      rw [← eraseP_eq_filter hsame hdistinct, List.length_eraseP_of_mem hy hyx]
      exact Nat.sub_add_cancel (List.length_pos_of_mem hy)
    rw [hfront]
    refine ⟨front, by rw [List.append_assoc], ?_, hfull.imp_right fun hcap => ?_⟩
    · rw [List.length_append, List.length_singleton, hlen]
      exact hle
    · rw [List.length_append, List.length_singleton, hlen]
      exact hcap

/-! ## What a window shows -/

/-- The times at which the items were last added grow along the list. -/
theorem lastAdded_ordered (history : List α) : ∃ times : List ℕ, times.Pairwise (· < ·) ∧
    List.Forall₂ (AddedLast same history) times (lastAdded same history) := by
  induction history with
  | nil => exact ⟨[], List.Pairwise.nil, List.Forall₂.nil⟩
  | cons a history ih =>
    obtain ⟨times, hincr, hadded⟩ := ih
    have hshift : List.Forall₂ (AddedLast same (a :: history)) (times.map (· + 1)) (lastAdded same history) := by
      rw [List.forall₂_map_left_iff]
      refine hadded.imp fun i x hx => ⟨hx.1, fun j y hij hj => ?_⟩
      obtain ⟨j, rfl⟩ := Nat.exists_eq_add_one_of_ne_zero (Nat.ne_zero_of_lt hij)
      exact hx.2 j y (Nat.lt_of_succ_lt_succ hij) hj
    have hincr' : (times.map (· + 1)).Pairwise (· < ·) :=
      List.pairwise_map.mpr (hincr.imp fun h => Nat.succ_lt_succ h)
    rw [lastAdded_cons hsame]
    split
    · next hnone =>
      refine ⟨0 :: times.map (· + 1), List.pairwise_cons.mpr ⟨fun i hi => ?_, hincr'⟩,
        List.Forall₂.cons ⟨rfl, fun j y hj hy => ?_⟩ hshift⟩
      · obtain ⟨k, -, rfl⟩ := List.mem_map.mp hi
        exact Nat.zero_lt_succ k
      · obtain ⟨j, rfl⟩ := Nat.exists_eq_add_one_of_ne_zero (Nat.ne_zero_of_lt hj)
        exact hnone y (List.mem_of_getElem? hy)
    · exact ⟨_, hincr', hshift⟩

theorem Window.recentlyAdded (h : Window capacity same history t) : RecentlyAdded capacity same history t := by
  obtain ⟨front, hlast, hle, hfull⟩ := h
  have hpair : (front ++ t).Pairwise fun a b => ¬same a b = true := hlast ▸ List.pairwise_pwFilter history
  obtain ⟨-, hdistinct, -⟩ := List.pairwise_append.mp hpair
  refine ⟨hle, hdistinct, ?_, fun i x hx => ?_⟩
  · obtain ⟨times, hincr, hadded⟩ := lastAdded_ordered hsame history
    rw [hlast] at hadded
    refine ⟨times.drop front.length, hincr.sublist (List.drop_sublist _ _), ?_⟩
    have hdrop := List.forall₂_drop front.length hadded
    rwa [List.drop_left] at hdrop
  · by_cases hmem : ∃ y ∈ t, same x y = true
    · exact .inl hmem
    · -- `t` is full, and it stands behind the place of `x`
      have hall : ∀ y ∈ t, ¬same x y = true := fun y hy hxy => hmem ⟨y, hy, hxy⟩
      have hcap : t.length = capacity := by
        refine hfull.resolve_left fun hnil => ?_
        obtain ⟨y, hy, hxy⟩ := mem_lastAdded hsame (List.mem_of_getElem? hx)
        rw [hlast, hnil, List.nil_append] at hy
        exact hall y hy hxy
      have hsplit : history = history.take i ++ x :: history.drop (i + 1) := by
        obtain ⟨hi, rfl⟩ := List.getElem?_eq_some_iff.mp hx
        rw [List.getElem_cons_drop, List.take_append_drop]
      have hsuffix : lastAdded same (x :: history.drop (i + 1)) <:+ lastAdded same history := by
        have h := lastAdded_suffix hsame (history.take i) (x :: history.drop (i + 1))
        rwa [← hsplit] at h
      have htail : t <:+ lastAdded same (x :: history.drop (i + 1)) := by
        refine (List.suffix_or_suffix_of_suffix (hlast ▸ List.suffix_append front t) hsuffix).resolve_right ?_
        intro hinside
        obtain ⟨y, hy, hxy⟩ := mem_lastAdded hsame (List.mem_cons_self : x ∈ x :: history.drop (i + 1))
        exact hall y (hinside.mem hy) hxy
      have hbehind : t <:+ lastAdded same (history.drop (i + 1)) := by
        rw [lastAdded_cons hsame] at htail
        split at htail
        · refine (List.suffix_cons_iff.mp htail).resolve_left fun heq => ?_
          exact hall x (heq ▸ List.mem_cons_self) (hsame.refl x)
        · exact htail
      exact .inr ⟨t, hbehind.sublist.trans (List.pwFilter_sublist _), hcap, hdistinct, hall⟩

/-- Whatever is added to the empty list. -/
theorem foldl_addRecent (hpos : 0 < capacity) (history : List α) :
    RecentlyAdded capacity same history (history.foldl (addRecent capacity same) []) := by
  refine Window.recentlyAdded hsame ?_
  induction history using List.reverseRecOn with
  | nil => exact ⟨[], rfl, Nat.zero_le _, .inl rfl⟩
  | append_singleton history x ih =>
    rw [List.foldl_append]
    exact window_step hsame hpos ih x

end

/-- A part of a state to which every call adds what `adds` says. -/
theorem foldl_part {σ γ β : Type} {step : σ → γ → σ} {adds : γ → List α} {add : β → α → β} (part : σ → β)
    (hstep : ∀ s c, part (step s c) = (adds c).foldl add (part s)) (calls : List γ) (s : σ) :
    part (calls.foldl step s) = (calls.flatMap adds).foldl add (part s) := by
  induction calls generalizing s with
  | nil => rfl
  | cons c calls ih => rw [List.foldl_cons, ih, hstep, List.flatMap_cons, List.foldl_append]

end ECM.Lib.RecencyList
