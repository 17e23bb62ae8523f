import ECM.DecoderApp.DecAppSoundness
import Mathlib.Algebra.Order.Group.Int

/-! # Picture output with several layers

The pictures of an access unit share a POC, and `xWriteOutput` writes only what
comes after the last POC displayed. A picture that is needed for output is blocked
if an earlier picture of the list has its POC, or if its POC was passed before:
only a flush writes it. -/

namespace ECM.Output
open CommonLib ECM.DecoderApp List

/-- The picture `p` that comes after `pre` can be written by a flush only. -/
def isBlocked (last : ℤ) (pre : List Picture) (p : Picture) : Bool :=
  p.neededForOutput && (p.poc ≤ last || pre.any fun q => q.neededForOutput && q.poc = p.poc)

/-- The blocked pictures of a list that continues `pre`. -/
def blockedAfter (last : ℤ) (pre : List Picture) : List Picture → List Picture
  | [] => []
  | p :: ps => (if isBlocked last pre p then [p] else []) ++ blockedAfter last (pre ++ [p]) ps

def blocked (last : ℤ) (l : List Picture) : List Picture := blockedAfter last [] l

/-- Successive calls of `xWriteOutput`. -/
def writeCalls (last : ℤ) (l : List Picture) : List Limits → Written
  | [] => ⟨last, l, []⟩
  | limits :: rest =>
    let w := xWriteOutput limits last l
    let w' := writeCalls w.m_iPOCLastDisplay w.pictures rest
    { w' with written := w.written ++ w'.written }

/-- What successive calls and a flush write. -/
def outputs (last : ℤ) (l : List Picture) (calls : List Limits) : List Picture :=
  let w := writeCalls last l calls
  w.written ++ (xFlushOutput w.m_iPOCLastDisplay w.pictures none).written

/-- After `xWriteOutput` what is still needed is within the reorder limit, or the fullness within its limit. -/
def MeetsLimit (last : ℤ) (l : List Picture) (limits : Limits) : Prop :=
  let w := xWriteOutput limits last l
  (needed w.pictures).length ≤ limits.numReorderPics ∨
    (countPics w.m_iPOCLastDisplay w.pictures).dpbFullness ≤ limits.maxDecPicBuffering

/-- The pictures of each layer are written in increasing POC order. -/
def LayersInOrder (last : ℤ) (l : List Picture) (calls : List Limits) : Prop :=
  ∀ layerId, ((outputs last l calls).filter (·.layerId = layerId)).Pairwise fun p q => p.poc < q.poc

/-- Output works with the layers of the list. -/
def BumpsLayers (last : ℤ) (l : List Picture) : Prop :=
  (∀ limits, MeetsLimit last l limits) ∧ ∀ calls, LayersInOrder last l calls

/-- Two pictures of one layer are of different access units. -/
def OnePerLayer (l : List Picture) : Prop := l.Pairwise fun p q => p.layerId = q.layerId → p.poc ≠ q.poc

variable {last : ℤ} {l ps pre : List Picture} {p q : Picture} {limits : Limits} {c : Counts}

/-! ## What can be written without a flush -/

/-- The pictures that come after the last one displayed, one after another. -/
def unblocked (last : ℤ) : List Picture → List Picture
  | [] => []
  | p :: ps => if isWaiting last p then p :: unblocked p.poc ps else unblocked last ps

theorem unblocked_increasing (last : ℤ) (l : List Picture) :
    (∀ p ∈ unblocked last l, last < p.poc) ∧ (unblocked last l).Pairwise fun p q => p.poc < q.poc := by
  induction l generalizing last with
  | nil => exact ⟨fun p hp => absurd hp not_mem_nil, List.Pairwise.nil⟩
  | cons p l ih =>
    rw [unblocked]
    split
    case isTrue hw =>
      obtain ⟨hlt, hpw⟩ := ih p.poc
      have hp := isWaiting_lt hw
      exact ⟨forall_mem_cons.mpr ⟨hp, fun q hq => Int.lt_trans hp (hlt q hq)⟩, pairwise_cons.mpr ⟨hlt, hpw⟩⟩
    case isFalse => exact ih last

/-- What is written and what can still be written without a flush stays the same. -/
theorem writePics_unblocked (limits : Limits) (c : Counts) (last : ℤ) (l : List Picture) :
    (writePics limits c last l).written ++
      unblocked (writePics limits c last l).m_iPOCLastDisplay (writePics limits c last l).pictures =
    unblocked last l := by
  induction l generalizing c last with
  | nil => rfl
  | cons p l ih =>
    cases hw : isWaiting last p with
    | true =>
      cases he : exceeds c limits with
      | true =>
        rw [writePics_write hw he]
        have ih := ih (afterWrite c p) p.poc
        simp only [unblocked, isWaiting_displayed, hw, Bool.false_eq_true, if_false, if_true, cons_append]
        rw [ih]
      | false => rw [writePics_met he, nil_append]
    | false =>
      rw [writePics_keep (by rw [hw]; simp)]
      have hw' := not_waiting_mono (writePics_last limits c last l) hw
      simp only [unblocked, hw', hw, Bool.false_eq_true, if_false]
      exact ih c last

/-- With no room for reordering, or more reference pictures than buffers, all that can be written is. -/
theorem writePics_all {m : ℕ} (hk : waiting last l ≤ c.numPicsNotYetDisplayed)
    (hm : m + fullness last l ≤ c.dpbFullness)
    (hlim : limits.numReorderPics = 0 ∨ limits.maxDecPicBuffering < m + l.countP (·.referenced)) :
    (writePics limits c last l).written = unblocked last l := by
  induction l generalizing c last m with
  | nil => rfl
  | cons p l ih =>
    have href : ∀ last, l.countP (·.referenced) ≤ fullness last l := fun last =>
      countP_mono_left fun q _ hq => by rw [hq, Bool.or_true]
    cases hw : isWaiting last p with
    | true =>
      rw [waiting_cons_waiting hw] at hk
      rw [fullness_cons_waiting hw] at hm
      rw [countP_cons] at hlim
      have he : exceeds c limits = true := by
        have href := href last
        simp only [exceeds, Bool.or_eq_true, decide_eq_true_eq]
        rcases hlim with h0 | hlim
        · exact Or.inl (by omega)
        · refine Or.inr ?_
          split at hlim <;> omega
      have hlt := Int.le_of_lt (isWaiting_lt hw)
      have hm1 := waiting_mono (l := l) hlt
      have hm2 := fullness_mono (l := l) hlt
      rw [writePics_write hw he]
      simp only [unblocked, hw, if_true]
      refine congrArg (p :: ·) (ih (m := m + p.referenced.toNat) ?_ ?_ ?_)
      · simp only [afterWrite]
        omega
      · simp only [afterWrite]
        cases p.referenced
        · simp only [Bool.not_false, if_true, Bool.toNat_false]
          omega
        · simp only [Bool.not_true, Bool.false_eq_true, if_false, Bool.toNat_true]
          omega
      · refine hlim.imp id fun hlim => ?_
        cases hr : p.referenced
        · simpa [hr] using hlim
        · simp only [hr, if_true, Bool.toNat_true] at hlim ⊢
          omega
    | false =>
      rw [waiting_cons hw] at hk
      rw [fullness_cons hw] at hm
      rw [countP_cons] at hlim
      rw [writePics_keep (by rw [hw]; simp)]
      simp only [unblocked, hw, Bool.false_eq_true, if_false]
      refine ih (m := m + p.referenced.toNat) hk (by omega) ?_
      refine hlim.imp id fun hlim => ?_
      cases hr : p.referenced
      · simpa [hr] using hlim
      · simp only [hr, if_true, Bool.toNat_true] at hlim ⊢
        omega

/-! ## Blocked pictures -/

theorem isBlocked_iff : isBlocked last pre p = true ↔
    p.neededForOutput = true ∧ (p.poc ≤ last ∨ ∃ q ∈ pre, q.neededForOutput = true ∧ q.poc = p.poc) := by
  simp [isBlocked]

/-- What is needed for output is blocked or can be written; `cur` is the POC passed before `l`. -/
theorem needed_perm_after {cur : ℤ} (hsorted : PocSorted (pre ++ l)) (hlast : last ≤ cur)
    (hcur : cur = last ∨ ∃ q ∈ pre, q.neededForOutput = true ∧ q.poc = cur)
    (hpre : ∀ q ∈ pre, q.neededForOutput = true → q.poc ≤ cur) :
    (needed l).Perm (unblocked cur l ++ blockedAfter last pre l) := by
  induction l generalizing pre cur with
  | nil => exact List.Perm.refl _
  | cons p l ih =>
    have hsorted' : PocSorted ((pre ++ [p]) ++ l) := by simpa using hsorted
    have hbefore : ∀ q ∈ pre, q.poc ≤ p.poc := fun q hq =>
      (pairwise_append.mp hsorted).2.2 q hq p mem_cons_self
    have hcur' : cur = last ∨ ∃ q ∈ pre ++ [p], q.neededForOutput = true ∧ q.poc = cur := by
      rcases hcur with heq | ⟨q, hq, h⟩
      · exact .inl heq
      · exact .inr ⟨q, mem_append_left _ hq, h⟩
    cases hn : p.neededForOutput with
    | false =>
      have hp : needed (p :: l) = needed l := filter_cons_of_neg (by rw [hn]; exact Bool.false_ne_true)
      have hw : isWaiting cur p = false := by simp [isWaiting, hn]
      have hb : isBlocked last pre p = false := by simp [isBlocked, hn]
      rw [hp, unblocked, blockedAfter, hw, hb]
      refine ih hsorted' hlast hcur' ?_
      intro q hq hqn
      rcases mem_append.mp hq with hq | hq
      · exact hpre q hq hqn
      · rw [mem_singleton.mp hq, hn] at hqn
        cases hqn
    | true =>
      have hp : needed (p :: l) = p :: needed l := filter_cons_of_pos hn
      rw [hp]
      by_cases hlt : cur < p.poc
      · have hw : isWaiting cur p = true := by simp [isWaiting, hn, hlt]
        have hb : isBlocked last pre p = false := by
          rw [← Bool.not_eq_true, isBlocked_iff]
          rintro ⟨-, h | ⟨q, hq, hqn, heq⟩⟩
          · exact Int.not_le.mpr hlt (Int.le_trans h hlast)
          · exact Int.not_le.mpr hlt (heq ▸ hpre q hq hqn)
        rw [unblocked, blockedAfter, hw, hb]
        refine (@ih (pre ++ [p]) p.poc hsorted' (Int.le_trans hlast (Int.le_of_lt hlt))
          (Or.inr ⟨p, by simp, hn, rfl⟩) ?_).cons p
        intro q hq _
        rcases mem_append.mp hq with hq | hq
        · exact hbefore q hq
        · rw [mem_singleton.mp hq]
      · have hle := Int.not_lt.mp hlt
        have hw : isWaiting cur p = false := by simp [isWaiting, hn, hle]
        have hb : isBlocked last pre p = true := by
          refine isBlocked_iff.mpr ⟨hn, ?_⟩
          rcases hcur with rfl | ⟨q, hq, hqn, heq⟩
          · exact Or.inl hle
          · exact Or.inr ⟨q, hq, hqn, Int.le_antisymm (hbefore q hq) (heq ▸ hle)⟩
        rw [unblocked, blockedAfter, hw, hb]
        refine ((ih hsorted' hlast hcur' ?_).cons p).trans
          perm_middle.symm
        intro q hq hqn
        rcases mem_append.mp hq with hq | hq
        · exact hpre q hq hqn
        · rw [mem_singleton.mp hq]
          exact hle

theorem needed_perm (hsorted : PocSorted l) : (needed l).Perm (unblocked last l ++ blocked last l) :=
  needed_perm_after hsorted (Int.le_refl _) (Or.inl rfl) fun _ hq => absurd hq not_mem_nil

/-! ## Successive calls -/

theorem writeCalls_spec (last : ℤ) (l : List Picture) (calls : List Limits) :
    (writeCalls last l calls).written ++
        unblocked (writeCalls last l calls).m_iPOCLastDisplay (writeCalls last l calls).pictures = unblocked last l ∧
      (needed l).Perm ((writeCalls last l calls).written ++ needed (writeCalls last l calls).pictures) ∧
      (writeCalls last l calls).pictures.map (fun p => (p.layerId, p.poc)) = l.map fun p => (p.layerId, p.poc) := by
  induction calls generalizing last l with
  | nil => exact ⟨rfl, List.Perm.refl _, rfl⟩
  | cons limits calls ih =>
    obtain ⟨h1, h2, h3⟩ := ih (xWriteOutput limits last l).m_iPOCLastDisplay (xWriteOutput limits last l).pictures
    refine ⟨?_, ?_, ?_⟩
    · rw [writeCalls]
      simp only [append_assoc]
      rw [h1]
      exact writePics_unblocked limits _ last l
    · rw [writeCalls]
      simp only [append_assoc]
      exact (writePics_perm limits _ last l).trans (h2.append_left _)
    · rw [writeCalls, h3]
      exact writePics_map (fun p => (p.layerId, p.poc)) (fun _ => rfl) limits _ last l

theorem flushAll_written (last : ℤ) (l : List Picture) : (xFlushOutput last l none).written = needed l := by
  unfold xFlushOutput
  split
  case isTrue hl =>
    rw [hl]
    rfl
  case isFalse => exact filter_congr fun p _ => by simp

theorem OnePerLayer.needed (h : OnePerLayer l) :
    (DecoderApp.needed l).Pairwise fun p q => p.layerId = q.layerId → p.poc ≠ q.poc := h.filter _

/-- A picture that can be written is of another access unit than a blocked one of its layer. -/
theorem unblocked_ne_blocked (hsorted : PocSorted l) (hone : OnePerLayer l) (hp : p ∈ unblocked last l)
    (hq : q ∈ blocked last l) (hlayer : p.layerId = q.layerId) : p.poc ≠ q.poc := by
  have hpw := ((@needed_perm last l hsorted).pairwise_iff fun h heq => (h heq.symm).symm).mp hone.needed
  exact (pairwise_append.mp hpw).2.2 p hp q hq hlayer

/-- In each layer the pictures that come after a blocked one are blocked too. -/
def BlockedToTheEnd (last : ℤ) (l : List Picture) : Prop :=
  ∀ p ∈ blocked last l, ∀ q ∈ needed l, q.layerId = p.layerId → p.poc < q.poc → q ∈ blocked last l

theorem layersInOrder_of_blocked (hsorted : PocSorted l) (hone : OnePerLayer l) (hb : BlockedToTheEnd last l)
    (calls : List Limits) : LayersInOrder last l calls := by
  obtain ⟨hun, hperm, hmap⟩ := writeCalls_spec last l calls
  have hinc := (unblocked_increasing last l).2
  rw [← hun] at hinc
  obtain ⟨hwritten, -, hcross⟩ := pairwise_append.mp hinc
  -- what is left for the flush can still be written or is blocked
  have hleft : (needed (writeCalls last l calls).pictures).Perm
      (unblocked (writeCalls last l calls).m_iPOCLastDisplay (writeCalls last l calls).pictures ++ blocked last l) := by
    have h := hperm.symm.trans (@needed_perm last l hsorted)
    rw [← hun, append_assoc] at h
    exact (perm_append_left_iff _).mp h
  have hsorted' : PocSorted (writeCalls last l calls).pictures :=
    pairwise_congr (R := fun (a b : ℤ × ℤ) => a.2 ≤ b.2) hmap hsorted
  have hone' : OnePerLayer (writeCalls last l calls).pictures :=
    pairwise_congr (R := fun (a b : ℤ × ℤ) => a.1 = b.1 → a.2 ≠ b.2) hmap hone
  intro layerId
  simp only [outputs, flushAll_written, filter_append]
  refine pairwise_append.mpr ⟨hwritten.filter _, ?_, ?_⟩
  · have hle : (needed (writeCalls last l calls).pictures).Pairwise fun p q => p.poc ≤ q.poc := hsorted'.filter _
    refine List.Pairwise.imp_of_mem ?_ ((hle.and hone'.needed).filter _)
    intro p q hp hq hpq
    have hp' := (mem_filter.mp hp).2
    have hq' := (mem_filter.mp hq).2
    simp only [decide_eq_true_eq] at hp' hq'
    exact lt_of_le_of_ne hpq.1 (hpq.2 (hp'.trans hq'.symm))
  · intro p hp q hq
    obtain ⟨hp, hpl⟩ := mem_filter.mp hp
    obtain ⟨hq, hql⟩ := mem_filter.mp hq
    simp only [decide_eq_true_eq] at hpl hql
    have hlayer : p.layerId = q.layerId := hpl.trans hql.symm
    have hpu : p ∈ unblocked last l := hun ▸ mem_append_left _ hp
    rcases mem_append.mp (hleft.mem_iff.mp hq) with hq | hq
    · exact hcross p hp q hq
    · have hne := unblocked_ne_blocked hsorted hone hpu hq hlayer
      by_contra hlt
      have hpn : p ∈ needed l := (needed_perm hsorted).mem_iff.mpr (mem_append_left _ hpu)
      have hpb := hb q hq p hpn hlayer (lt_of_le_of_ne (Int.not_lt.mp hlt) hne.symm)
      exact unblocked_ne_blocked hsorted hone hpu hpb rfl rfl

theorem writeCalls_all (last : ℤ) (l : List Picture) :
    (writeCalls last l [⟨0, 0⟩]).written = unblocked last l := by
  simp only [writeCalls, append_nil, xWriteOutput, countPics_eq]
  exact writePics_all (m := 0) (Nat.le_refl _) (Nat.le_of_eq (Nat.zero_add _)) (Or.inl rfl)

theorem blocked_of_layersInOrder (hsorted : PocSorted l) (h : LayersInOrder last l [⟨0, 0⟩]) :
    BlockedToTheEnd last l := by
  obtain ⟨hun, hperm, -⟩ := writeCalls_spec last l [⟨0, 0⟩]
  have hall := writeCalls_all last l
  have hneeded := @needed_perm last l hsorted
  intro p hp q hq hlayer hlt
  rcases mem_append.mp (hneeded.mem_iff.mp hq) with hqu | hqb
  · -- `q` is written by the call and `p` by the flush
    have hflush : p ∈ needed (writeCalls last l [⟨0, 0⟩]).pictures := by
      have hleft := hperm.symm.trans hneeded
      rw [hall] at hleft
      exact ((perm_append_left_iff _).mp hleft).mem_iff.mpr hp
    have hpw := h p.layerId
    simp only [outputs, flushAll_written, filter_append] at hpw
    have hq' : q ∈ (writeCalls last l [⟨0, 0⟩]).written.filter (·.layerId = p.layerId) := by
      rw [hall]
      exact mem_filter.mpr ⟨hqu, by simp [hlayer]⟩
    have hp' : p ∈ (needed (writeCalls last l [⟨0, 0⟩]).pictures).filter (·.layerId = p.layerId) :=
      mem_filter.mpr ⟨hflush, by simp⟩
    exact absurd ((pairwise_append.mp hpw).2.2 q hq' p hp') (Int.not_lt.mpr (Int.le_of_lt hlt))
  · exact hqb

/-! ## The limits -/

/-- Where nothing waits only the reference pictures count. -/
theorem fullness_referenced (h : ∀ p ∈ l, isWaiting last p = false) : fullness last l = l.countP (·.referenced) :=
  countP_congr fun p hp => by rw [h p hp, Bool.false_or]

theorem written_referenced (limits : Limits) (last : ℤ) (l : List Picture) :
    (xWriteOutput limits last l).pictures.countP (·.referenced) = l.countP (·.referenced) := by
  have hmap := writePics_map Picture.referenced (fun _ => rfl) limits (countPics last l) last l
  have hcount := congrArg (List.countP id) hmap
  rwa [countP_map, countP_map] at hcount

/-- Which limits a call meets: the reference pictures have room, or the blocked pictures need no reordering. -/
theorem meetsLimit_iff (hsorted : PocSorted l) (limits : Limits) :
    MeetsLimit last l limits ↔
      (blocked last l).length ≤ limits.numReorderPics ∨ l.countP (·.referenced) ≤ limits.maxDecPicBuffering := by
  unfold MeetsLimit
  simp only [countPics_eq]
  have href := written_referenced limits last l
  by_cases hr : l.countP (·.referenced) ≤ limits.maxDecPicBuffering
  · refine iff_of_true (Or.inr ?_) (Or.inr hr)
    rcases xWriteOutput_limits limits last l with hnone | hmet
    · rw [fullness_referenced hnone, href]
      exact hr
    · rw [countPics_eq] at hmet
      exact (not_exceeds hmet).2
  · -- the call writes all it can
    have hall : (xWriteOutput limits last l).written = unblocked last l := by
      rw [xWriteOutput, countPics_eq]
      exact writePics_all (m := 0) (Nat.le_refl _) (Nat.le_of_eq (Nat.zero_add _)) (Or.inr (by omega))
    have hleft : (needed (xWriteOutput limits last l).pictures).length = (blocked last l).length := by
      have hperm := (writePics_perm limits (countPics last l) last l).symm.trans (@needed_perm last l hsorted)
      have hlen := hperm.length_eq
      rw [length_append, length_append] at hlen
      have hall' := congrArg List.length hall
      simp only [xWriteOutput] at hall' ⊢
      omega
    have hfull : l.countP (·.referenced) ≤
        fullness (xWriteOutput limits last l).m_iPOCLastDisplay (xWriteOutput limits last l).pictures := by
      rw [← href]
      exact countP_mono_left fun p _ hp => by rw [hp, Bool.or_true]
    rw [hleft, or_iff_left (by omega), or_iff_left hr]

/-- Output works with the layers exactly if nothing is blocked, or there is no reference picture and in each layer
all that comes after a blocked picture is blocked. -/
theorem bumpsLayers_iff (last : ℤ) (l : List Picture) (hsorted : PocSorted l) (hone : OnePerLayer l) :
    BumpsLayers last l ↔
      blocked last l = [] ∨ (∀ p ∈ l, p.referenced = false) ∧ BlockedToTheEnd last l := by
  constructor
  · rintro ⟨hlimits, hcalls⟩
    have hend := blocked_of_layersInOrder hsorted (hcalls [⟨0, 0⟩])
    rcases (meetsLimit_iff hsorted ⟨0, 0⟩).mp (hlimits ⟨0, 0⟩) with h0 | h0
    · exact Or.inl (length_eq_zero_iff.mp (Nat.le_zero.mp h0))
    · refine Or.inr ⟨fun p hp => ?_, hend⟩
      have h := countP_eq_zero.mp (Nat.le_zero.mp h0) p hp
      simpa using h
  · intro h
    refine ⟨fun limits => (meetsLimit_iff hsorted limits).mpr ?_, ?_⟩
    · rcases h with h | ⟨h, -⟩
      · rw [h]
        exact Or.inl (Nat.zero_le _)
      · refine Or.inr (Nat.le_trans (Nat.le_of_eq (countP_eq_zero.mpr fun p hp => ?_)) (Nat.zero_le _))
        rw [h p hp]
        exact Bool.false_ne_true
    · refine layersInOrder_of_blocked hsorted hone ?_
      rcases h with h | ⟨-, h⟩
      · intro p hp
        rw [h] at hp
        exact absurd hp not_mem_nil
      · exact h

/-- Access units in which one layer is output. -/
theorem bumpsLayers_iff_one_output :
    BumpsLayers (-MAX_INT) [⟨0, 0, 0, true, true, true, false, some 8, 1⟩, ⟨0, 1, 1, false, true, true, false, some 8, 1⟩,
      ⟨4, 0, 2, true, true, true, false, some 8, 1⟩, ⟨4, 1, 3, false, true, true, false, some 8, 1⟩] :=
  (bumpsLayers_iff (-MAX_INT) _ (by unfold PocSorted; decide) (by unfold OnePerLayer; decide)).mpr (Or.inl (by decide))

/-- The second picture of an access unit stays, and is written after the next one of its layer. -/
theorem second_picture_blocked :
    (outputs (-MAX_INT) [⟨0, 1, 1, true, true, true, false, some 8, 1⟩, ⟨0, 0, 0, true, true, true, false, some 8, 1⟩,
        ⟨4, 0, 2, true, true, true, false, some 8, 1⟩] [⟨0, 2⟩]).map (fun p => (p.layerId, p.poc)) =
        [(1, 0), (0, 4), (0, 0)] ∧
      ¬BumpsLayers (-MAX_INT) [⟨0, 1, 1, true, true, true, false, some 8, 1⟩,
        ⟨0, 0, 0, true, true, true, false, some 8, 1⟩, ⟨4, 0, 2, true, true, true, false, some 8, 1⟩] := by
  refine ⟨by decide, fun h => ?_⟩
  have hone := h.2 [⟨0, 2⟩] 0
  revert hone
  decide

end ECM.Output
