import ECM.DecoderApp.DecAppSoundness
import ECM.DecoderLib.DecLib
import Mathlib.Data.List.Induction
import Mathlib.Algebra.Order.Group.Int

/-! # Picture output over a run of the decoder application

Pictures of one layer are completed, their reference marks change, `xWriteOutput`
is called with any limits and IDR pictures flush the output. Every picture that is
needed for output is written once; in a coded video sequence, in POC order as long
as no picture comes too late. -/

namespace ECM.Output
open CommonLib DecoderLib ECM.DecoderApp List

structure App where
  m_iPOCLastDisplay : ℤ
  m_cListPic : List Picture
  m_decodingOrderCounter : ℕ

inductive Event where
  /-- A picture is completed. -/
  | complete (c : Completion)
  /-- The reference marks of the pictures change. -/
  | mark (referenced : ℕ → Bool)
  | write (limits : Limits)
  /-- An IDR picture begins. -/
  | flush

/-- One event, and the pictures it writes. -/
def step (layerId : ℤ) (s : App) : Event → App × List Picture
  | .complete c =>
    ({ s with
      m_cListPic := completePicture s.m_cListPic layerId c s.m_decodingOrderCounter
      m_decodingOrderCounter := s.m_decodingOrderCounter + 1 }, [])
  | .mark referenced =>
    ({ s with m_cListPic := s.m_cListPic.map fun p => { p with referenced := referenced p.decodingOrderNumber } }, [])
  | .write limits =>
    let w := xWriteOutput limits s.m_iPOCLastDisplay s.m_cListPic
    ({ s with m_iPOCLastDisplay := w.m_iPOCLastDisplay, m_cListPic := w.pictures }, w.written)
  | .flush =>
    let w := xFlushOutput s.m_iPOCLastDisplay s.m_cListPic (some layerId)
    ({ s with m_iPOCLastDisplay := w.m_iPOCLastDisplay, m_cListPic := w.pictures }, w.written)

def run (layerId : ℤ) : App → List Event → App × List Picture
  | s, [] => (s, [])
  | s, e :: es =>
    let (s1, out) := step layerId s e
    let (s2, outs) := run layerId s1 es
    (s2, out ++ outs)

/-- The application before the first picture. -/
def start (m_iPOCLastDisplay : ℤ) : App := ⟨m_iPOCLastDisplay, [], 0⟩

/-- The pictures the last flush writes. -/
def lastFlush (s : App) : List Picture := (xFlushOutput s.m_iPOCLastDisplay s.m_cListPic none).written

/-- Decoding order number and POC of the pictures completed that are needed for output. -/
def marked : ℕ → List Event → List (ℕ × ℤ)
  | _, [] => []
  | n, .complete c :: es => (if c.picOutputFlag then [(n, c.poc)] else []) ++ marked (n + 1) es
  | n, _ :: es => marked n es

def key (p : Picture) : ℕ × ℤ := (p.decodingOrderNumber, p.poc)

/-- No picture that is needed for output comes with a POC that was already passed or is taken. -/
def InOrder (layerId : ℤ) (s : App) (events : List Event) : Prop :=
  ∀ pre c post, events = pre ++ .complete c :: post → c.picOutputFlag = true →
    s.m_iPOCLastDisplay < c.poc ∧ (∀ q ∈ (run layerId s pre).2, q.poc < c.poc) ∧
      ∀ q ∈ needed (run layerId s pre).1.m_cListPic, q.poc ≠ c.poc

variable {layerId : ℤ} {s : App} {e : Event} {es : List Event} {c : Completion} {n : ℕ} {l : List Picture} {p : Picture}

theorem run_append (layerId : ℤ) (s : App) (es es' : List Event) :
    run layerId s (es ++ es') =
      ((run layerId (run layerId s es).1 es').1, (run layerId s es).2 ++ (run layerId (run layerId s es).1 es').2) := by
  induction es generalizing s with
  | nil => rfl
  | cons e es ih => simp only [cons_append, run, ih, append_assoc]

theorem run_snoc (layerId : ℤ) (s : App) (es : List Event) (e : Event) :
    run layerId s (es ++ [e]) =
      ((step layerId (run layerId s es).1 e).1,
        (run layerId s es).2 ++ (step layerId (run layerId s es).1 e).2) := by
  rw [run_append]
  simp only [run, append_nil]

/-! ## One event -/

theorem needed_cons (p : Picture) (l : List Picture) :
    needed (p :: l) = (if p.neededForOutput then [p] else []) ++ needed l := by
  cases hn : p.neededForOutput with
  | true => simp [needed, hn]
  | false => simp [needed, hn]

theorem needed_append (l l' : List Picture) : needed (l ++ l') = needed l ++ needed l' := filter_append ..

theorem isAvailable_needed (h : isAvailable p = true) : p.neededForOutput = false := by
  cases hn : p.neededForOutput with
  | false => rfl
  | true => simp [isAvailable, hn] at h

/-- A new picture takes the buffer of a picture that is not needed. -/
theorem needed_reuseBuffer (layerId : ℤ) (use : Picture → Picture) (l : List Picture) :
    ∃ buffer, (needed (reuseBuffer layerId use l)).Perm (needed [use buffer] ++ needed l) := by
  induction l with
  | nil => exact ⟨Picture.new layerId, by simp [reuseBuffer, needed]⟩
  | cons p l ih =>
    rw [reuseBuffer]
    split
    case isTrue h =>
      have hp : needed (p :: l) = needed l := by
        rw [needed_cons, isAvailable_needed h]
        rfl
      refine ⟨{ p with neededForOutput := false, reconstructed := false, layerId }, ?_⟩
      rw [hp, ← needed_append]
      exact List.Perm.refl _
    case isFalse =>
      obtain ⟨buffer, ih⟩ := ih
      refine ⟨buffer, ?_⟩
      rw [needed_cons, needed_cons p l]
      refine (ih.append_left _).trans ?_
      rw [← append_assoc, ← append_assoc]
      exact perm_append_comm.append_right _

theorem needed_xGetNewPicBuffer (l : List Picture) (m_iMaxRefPicNum : ℕ) (layerId : ℤ) (use : Picture → Picture) :
    ∃ buffer, (needed (xGetNewPicBuffer l m_iMaxRefPicNum layerId use)).Perm (needed [use buffer] ++ needed l) := by
  unfold xGetNewPicBuffer
  split
  · refine ⟨Picture.new layerId, ?_⟩
    rw [needed_append]
    exact perm_append_comm
  · exact needed_reuseBuffer layerId use l

/-- Completing a picture adds it to those needed for output, if it is. -/
theorem needed_completePicture (l : List Picture) (layerId : ℤ) (c : Completion) (n : ℕ) :
    ∃ buffer, (needed (completePicture l layerId c n)).Perm
      ((if c.picOutputFlag then [c.picture n buffer] else []) ++ needed l) := by
  obtain ⟨buffer, h⟩ := needed_xGetNewPicBuffer l c.m_iMaxRefPicNum layerId (c.picture n)
  refine ⟨buffer, ((sortPicList_perm _).filter _).trans (h.trans (List.Perm.of_eq ?_))⟩
  rw [needed_cons]
  exact congrArg (· ++ needed l) (append_nil _)

theorem needed_mark (referenced : ℕ → Bool) (l : List Picture) :
    needed (l.map fun p => { p with referenced := referenced p.decodingOrderNumber }) =
      (needed l).map fun p => { p with referenced := referenced p.decodingOrderNumber } :=
  filter_map

/-- All pictures of the buffer are of the layer. -/
def OfLayer (layerId : ℤ) (l : List Picture) : Prop := ∀ p ∈ l, p.layerId = layerId

theorem flush_written (h : OfLayer layerId l) (last : ℤ) :
    (xFlushOutput last l (some layerId)).written = needed l ∧ (xFlushOutput last l (some layerId)).pictures = [] := by
  unfold xFlushOutput
  split
  case isTrue hl =>
    rw [hl]
    exact ⟨rfl, rfl⟩
  case isFalse =>
    refine ⟨?_, ?_⟩
    · exact filter_congr fun p hp => by simp [h p hp]
    · exact filter_eq_nil_iff.mpr fun p hp => by simp [h p hp]

theorem lastFlush_eq (s : App) : lastFlush s = needed s.m_cListPic := by
  unfold lastFlush xFlushOutput
  split
  case isTrue hl =>
    rw [hl]
    rfl
  case isFalse => exact filter_congr fun p _ => by simp

theorem ofLayer_reuseBuffer (h : OfLayer layerId l) (use : Picture → Picture) (hu : ∀ p, (use p).layerId = p.layerId) :
    OfLayer layerId (reuseBuffer layerId use l) := by
  induction l with
  | nil =>
    intro q hq
    rw [reuseBuffer] at hq
    rw [mem_singleton.mp hq, hu]
    rfl
  | cons p l ih =>
    intro q hq
    rw [reuseBuffer] at hq
    split at hq
    · rcases mem_cons.mp hq with rfl | hq
      · exact hu _
      · exact h q (mem_cons_of_mem _ hq)
    · rcases mem_cons.mp hq with rfl | hq
      · exact h q mem_cons_self
      · exact ih (fun r hr => h r (mem_cons_of_mem _ hr)) q hq

theorem ofLayer_completePicture (h : OfLayer layerId l) (c : Completion) (n : ℕ) :
    OfLayer layerId (completePicture l layerId c n) := by
  intro q hq
  have hq' := (sortPicList_perm _).mem_iff.mp hq
  rw [xGetNewPicBuffer] at hq'
  split at hq'
  · rcases mem_append.mp hq' with hq' | hq'
    · exact h q hq'
    · rw [mem_singleton.mp hq']
      rfl
  · exact ofLayer_reuseBuffer h (c.picture n) (fun _ => rfl) q hq'

theorem step_ofLayer (h : OfLayer layerId s.m_cListPic) (e : Event) :
    OfLayer layerId (step layerId s e).1.m_cListPic := by
  cases e with
  | complete c => exact ofLayer_completePicture h c _
  | mark referenced =>
    intro q hq
    obtain ⟨p, hp, rfl⟩ := mem_map.mp hq
    exact h p hp
  | write limits =>
    intro q hq
    have hq' : q.layerId ∈ ((xWriteOutput limits s.m_iPOCLastDisplay s.m_cListPic).pictures).map (·.layerId) :=
      mem_map_of_mem hq
    rw [xWriteOutput, writePics_map (·.layerId) fun _ => rfl] at hq'
    obtain ⟨p, hp, heq⟩ := mem_map.mp hq'
    exact heq ▸ h p hp
  | flush =>
    intro q hq
    rw [step] at hq
    simp only [(flush_written h s.m_iPOCLastDisplay).2] at hq
    exact absurd hq not_mem_nil

/-- What an event adds to the pictures that are needed for output. -/
def arrived (n : ℕ) : Event → List (ℕ × ℤ)
  | .complete c => if c.picOutputFlag then [(n, c.poc)] else []
  | _ => []

/-- A picture needed for output is written or still needed, whatever happens. -/
theorem step_needed (h : OfLayer layerId s.m_cListPic) (e : Event) :
    ((step layerId s e).2.map key ++ (needed (step layerId s e).1.m_cListPic).map key).Perm
      (arrived s.m_decodingOrderCounter e ++ (needed s.m_cListPic).map key) := by
  cases e with
  | complete c =>
    obtain ⟨buffer, hperm⟩ := needed_completePicture s.m_cListPic layerId c s.m_decodingOrderCounter
    refine (hperm.map key).trans (List.Perm.of_eq ?_)
    rw [map_append, arrived]
    cases c.picOutputFlag <;> rfl
  | mark referenced =>
    refine List.Perm.of_eq ?_
    simp only [step, arrived, map_nil, nil_append, needed_mark, map_map]
    rfl
  | write limits =>
    have hperm := writePics_perm limits (countPics s.m_iPOCLastDisplay s.m_cListPic) s.m_iPOCLastDisplay s.m_cListPic
    have hkeys := hperm.symm.map key
    rwa [map_append] at hkeys
  | flush =>
    obtain ⟨hw, hp⟩ := flush_written h s.m_iPOCLastDisplay
    refine List.Perm.of_eq ?_
    simp only [step, hw, hp, arrived]
    exact append_nil _

/-! ## A whole run -/

theorem run_needed (h : OfLayer layerId s.m_cListPic) (es : List Event) :
    OfLayer layerId (run layerId s es).1.m_cListPic ∧
      ((run layerId s es).2.map key ++ (needed (run layerId s es).1.m_cListPic).map key).Perm
        (marked s.m_decodingOrderCounter es ++ (needed s.m_cListPic).map key) := by
  induction es generalizing s with
  | nil => exact ⟨h, List.Perm.refl _⟩
  | cons e es ih =>
    obtain ⟨hlayer, hperm⟩ := ih (step_ofLayer h e)
    refine ⟨hlayer, ?_⟩
    have hmarked : marked s.m_decodingOrderCounter (e :: es) =
        arrived s.m_decodingOrderCounter e ++ marked (step layerId s e).1.m_decodingOrderCounter es := by
      cases e <;> rfl
    simp only [run, map_append, append_assoc]
    rw [hmarked]
    -- the later outputs and what is still needed come from what the event left
    refine (hperm.append_left _).trans ?_
    refine (perm_append_comm_assoc _ _ _).trans ?_
    refine ((step_needed h e).append_left _).trans ?_
    rw [append_assoc]
    exact perm_append_comm_assoc _ _ _

theorem marked_lt (es : List Event) (n : ℕ) :
    (∀ k ∈ (marked n es).map Prod.fst, n ≤ k) ∧ ((marked n es).map Prod.fst).Nodup := by
  induction es generalizing n with
  | nil => exact ⟨fun k hk => absurd hk not_mem_nil, nodup_nil⟩
  | cons e es ih =>
    cases e with
    | complete c =>
      obtain ⟨hle, hnd⟩ := ih (n + 1)
      have hle' : ∀ k ∈ (marked (n + 1) es).map Prod.fst, n ≤ k := fun k hk => Nat.le_of_succ_le (hle k hk)
      cases hc : c.picOutputFlag with
      | true =>
        simp only [marked, hc, if_true, cons_append, nil_append, map_cons]
        refine ⟨forall_mem_cons.mpr ⟨Nat.le_refl n, hle'⟩, nodup_cons.mpr ⟨fun hn => ?_, hnd⟩⟩
        exact absurd (hle n hn) (Nat.not_succ_le_self n)
      | false =>
        simp only [marked, hc, Bool.false_eq_true, if_false, nil_append]
        exact ⟨hle', hnd⟩
    | mark referenced => exact ih n
    | write limits => exact ih n
    | flush => exact ih n

/-! ## The order within a coded video sequence -/

/-- The pictures needed for output come in order after those written. -/
structure Ordered (first : ℤ) (s : App) (outs : List Picture) : Prop where
  sorted : PocSorted s.m_cListPic
  inOrder : (needed s.m_cListPic).Pairwise fun p q => p.poc < q.poc
  ahead : ∀ p ∈ needed s.m_cListPic, s.m_iPOCLastDisplay < p.poc
  outOrder : outs.Pairwise fun p q => p.poc < q.poc
  passed : ∀ p ∈ outs, p.poc ≤ s.m_iPOCLastDisplay
  lastDisplay : s.m_iPOCLastDisplay = first ∨ ∃ q ∈ outs, s.m_iPOCLastDisplay = q.poc

variable {first : ℤ} {outs : List Picture}

/-- Sorted pictures with different POCs are in order. -/
theorem PocSorted.strict (h : PocSorted l) (hne : (needed l).Pairwise fun p q => p.poc ≠ q.poc) :
    (needed l).Pairwise fun p q => p.poc < q.poc := by
  have hle : (needed l).Pairwise fun p q => p.poc ≤ q.poc := h.filter _
  exact (hle.and hne).imp fun hpq => lt_of_le_of_ne hpq.1 hpq.2

theorem Ordered.complete (layerId : ℤ) (h : Ordered first s outs) (c : Completion)
    (hc : c.picOutputFlag = true → first < c.poc ∧ (∀ q ∈ outs, q.poc < c.poc) ∧
      ∀ q ∈ needed s.m_cListPic, q.poc ≠ c.poc) :
    Ordered first (step layerId s (.complete c)).1 outs := by
  obtain ⟨buffer, hperm⟩ := needed_completePicture s.m_cListPic layerId c s.m_decodingOrderCounter
  have hne : (needed s.m_cListPic).Pairwise fun p q => p.poc ≠ q.poc := h.inOrder.imp fun hpq => Int.ne_of_lt hpq
  have hsorted : PocSorted (completePicture s.m_cListPic layerId c s.m_decodingOrderCounter) := sortPicList_sorted _
  have hdistinct : ((if c.picOutputFlag then [c.picture s.m_decodingOrderCounter buffer] else []) ++
      needed s.m_cListPic).Pairwise fun p q => p.poc ≠ q.poc := by
    cases hf : c.picOutputFlag with
    | false => exact hne
    | true =>
      obtain ⟨-, -, htaken⟩ := hc hf
      exact pairwise_cons.mpr ⟨fun q hq heq => htaken q hq heq.symm, hne⟩
  refine ⟨hsorted, ?_, ?_, h.outOrder, h.passed, h.lastDisplay⟩
  · exact PocSorted.strict hsorted ((hperm.pairwise_iff fun hpq => hpq.symm).mpr hdistinct)
  · intro p hp
    rcases mem_append.mp (hperm.mem_iff.mp hp) with hp | hp
    · cases hf : c.picOutputFlag with
      | false =>
        rw [hf] at hp
        exact absurd hp not_mem_nil
      | true =>
        rw [hf] at hp
        obtain rfl := mem_singleton.mp hp
        obtain ⟨hfirst, hout, -⟩ := hc hf
        rcases h.lastDisplay with heq | ⟨q, hq, heq⟩
        · exact heq ▸ hfirst
        · exact heq ▸ hout q hq
    · exact h.ahead p hp

theorem Ordered.mark (layerId : ℤ) (h : Ordered first s outs) (referenced : ℕ → Bool) :
    Ordered first (step layerId s (.mark referenced)).1 outs := by
  refine ⟨?_, ?_, ?_, h.outOrder, h.passed, h.lastDisplay⟩
  · exact pairwise_map.mpr h.sorted
  · simp only [step, needed_mark]
    exact pairwise_map.mpr h.inOrder
  · intro p hp
    simp only [step, needed_mark] at hp
    obtain ⟨q, hq, rfl⟩ := mem_map.mp hp
    exact h.ahead q hq

theorem Ordered.write (layerId : ℤ) (h : Ordered first s outs) (limits : Limits) :
    Ordered first (step layerId s (.write limits)).1 (outs ++ (step layerId s (.write limits)).2) := by
  obtain ⟨hsplit, hpassed, hahead⟩ := writePics_order limits (countPics s.m_iPOCLastDisplay s.m_cListPic)
    s.m_iPOCLastDisplay s.m_cListPic h.inOrder h.ahead
  have hlast := writePics_last limits (countPics s.m_iPOCLastDisplay s.m_cListPic) s.m_iPOCLastDisplay s.m_cListPic
  have hin := h.inOrder
  have hnew := h.ahead
  rw [hsplit] at hin hnew
  obtain ⟨hout, hrest, -⟩ := pairwise_append.mp hin
  refine ⟨?_, hrest, hahead, ?_, ?_, ?_⟩
  · have hpoc := writePics_map Picture.poc (fun _ => rfl) limits (countPics s.m_iPOCLastDisplay s.m_cListPic)
      s.m_iPOCLastDisplay s.m_cListPic
    exact pairwise_congr (R := (· ≤ ·)) hpoc h.sorted
  · refine pairwise_append.mpr ⟨h.outOrder, hout, fun p hp q hq => ?_⟩
    exact Int.lt_of_le_of_lt (h.passed p hp) (hnew q (mem_append_left _ hq))
  · intro p hp
    rcases mem_append.mp hp with hp | hp
    · exact Int.le_trans (h.passed p hp) hlast
    · exact hpassed p hp
  · rcases writePics_last_eq limits (countPics s.m_iPOCLastDisplay s.m_cListPic) s.m_iPOCLastDisplay
      s.m_cListPic with heq | ⟨q, hq, heq⟩
    · rcases h.lastDisplay with hfirst | ⟨q, hq, hlast⟩
      · exact Or.inl (heq.trans hfirst)
      · exact Or.inr ⟨q, mem_append_left _ hq, heq.trans hlast⟩
    · exact Or.inr ⟨q, mem_append_right _ hq, heq⟩

/-- The order is kept until the next flush. -/
theorem run_ordered (h : Ordered s.m_iPOCLastDisplay s []) (hflush : Event.flush ∉ es) (hin : InOrder layerId s es) :
    Ordered s.m_iPOCLastDisplay (run layerId s es).1 (run layerId s es).2 := by
  induction es using List.reverseRecOn with
  | nil => exact h
  | append_singleton es e ih =>
    have ih := ih (fun hf => hflush (mem_append_left _ hf))
      fun pre c post heq hc => hin pre c (post ++ [e]) (by simp [heq]) hc
    rw [run_snoc]
    cases e with
    | complete c =>
      simp only [step, append_nil]
      exact Ordered.complete layerId ih c fun hc => hin es c [] rfl hc
    | mark referenced =>
      simp only [step, append_nil]
      exact Ordered.mark layerId ih referenced
    | write limits => exact Ordered.write layerId ih limits
    | flush => exact absurd (mem_append_right _ (mem_singleton_self _)) hflush

/-- A coded video sequence starts with an empty buffer. -/
theorem run_start (layerId last : ℤ) {pre : List Event} (hpre : pre = [] ∨ ∃ pre', pre = pre' ++ [.flush]) :
    (run layerId (start last) pre).1.m_cListPic = [] := by
  rcases hpre with rfl | ⟨pre', rfl⟩
  · rfl
  · have hlayer := (@run_needed layerId (start last) (fun p hp => absurd hp not_mem_nil) pre').1
    rw [run_snoc]
    exact (flush_written hlayer _).2

/-- For every run: each picture needed for output is written exactly once and no other is; after `xWriteOutput`
nothing waits or both limits are met; and a coded video sequence, from an empty buffer to the flush that ends it,
is written in strictly increasing POC order if no picture comes too late. -/
theorem output_run (layerId last : ℤ) (events : List Event) :
    (((run layerId (start last) events).2 ++ lastFlush (run layerId (start last) events).1).map key).Perm
        (marked 0 events) ∧
      ((marked 0 events).map Prod.fst).Nodup ∧
      (∀ pre limits post, events = pre ++ .write limits :: post →
        let s := (step layerId (run layerId (start last) pre).1 (.write limits)).1
        (∀ q ∈ s.m_cListPic, isWaiting s.m_iPOCLastDisplay q = false) ∨
          exceeds (countPics s.m_iPOCLastDisplay s.m_cListPic) limits = false) ∧
      ∀ pre cvs post, events = pre ++ cvs ++ post → (pre = [] ∨ ∃ pre', pre = pre' ++ [.flush]) → .flush ∉ cvs →
        InOrder layerId (run layerId (start last) pre).1 cvs →
        ((run layerId (run layerId (start last) pre).1 (cvs ++ [.flush])).2).Pairwise fun p q => p.poc < q.poc := by
  have hstart : OfLayer layerId (start last).m_cListPic := fun p hp => absurd hp not_mem_nil
  refine ⟨?_, (marked_lt events 0).2, ?_, ?_⟩
  · obtain ⟨-, hperm⟩ := run_needed hstart events
    rw [lastFlush_eq, map_append]
    refine hperm.trans (List.Perm.of_eq ?_)
    exact append_nil _
  · intro pre limits post _
    exact xWriteOutput_limits limits _ _
  · intro pre cvs post _ hpre hflush hin
    have hempty := run_start layerId last hpre
    have hfirst : Ordered (run layerId (start last) pre).1.m_iPOCLastDisplay (run layerId (start last) pre).1 [] := by
      refine ⟨?_, ?_, ?_, List.Pairwise.nil, fun p hp => absurd hp not_mem_nil, Or.inl rfl⟩
      all_goals rw [hempty]
      · exact List.Pairwise.nil
      · exact List.Pairwise.nil
      · exact fun p hp => absurd hp not_mem_nil
    have hord := run_ordered hfirst hflush hin
    have hlayer : OfLayer layerId (run layerId (start last) pre).1.m_cListPic := (run_needed hstart pre).1
    have hlayer' := (run_needed hlayer cvs).1
    rw [run_snoc]
    simp only [step]
    rw [(flush_written hlayer' _).1]
    exact pairwise_append.mpr ⟨hord.outOrder, hord.inOrder,
      fun p hp q hq => Int.lt_of_le_of_lt (hord.passed p hp) (hord.ahead q hq)⟩

/-- Of two waiting pictures of one POC the second is written when the sequence is flushed. -/
theorem equal_pocs_repeat :
    (∀ pre c post, [Event.complete ⟨0, true, true, 8, 1, 4⟩, .complete ⟨0, true, true, 8, 1, 4⟩, .write ⟨1, 4⟩] =
        pre ++ .complete c :: post →
      ∀ q ∈ (run 0 (start (-MAX_INT)) pre).2, ¬c.poc < q.poc) ∧
    ¬((run 0 (start (-MAX_INT)) [.complete ⟨0, true, true, 8, 1, 4⟩, .complete ⟨0, true, true, 8, 1, 4⟩, .write ⟨1, 4⟩,
      .flush]).2).Pairwise fun p q => p.poc < q.poc := by
  refine ⟨?_, by decide⟩
  intro pre c post h
  rcases pre with _ | ⟨e, _ | ⟨e', _ | ⟨e'', pre⟩⟩⟩
  · exact fun q hq => absurd hq not_mem_nil
  · simp only [cons_append, nil_append, List.cons.injEq] at h
    obtain ⟨rfl, -⟩ := h
    exact fun q hq => absurd hq not_mem_nil
  · simp at h
  · simp at h

end ECM.Output
