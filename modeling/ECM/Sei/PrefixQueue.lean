import ECM.DecoderLib.DecodeNalu
import ECM.RefPics.Missing

/-! # The queue of prefix SEI units

A prefix SEI unit waits for the next slice that is decoded, which parses and releases it. A
reserved IRAP unit should discard what waits, but releases the first unit again and again. -/

namespace ECM.Sei
open CommonLib DecoderLib DecoderLib.NaluDecoder Lib Lib.Loop

variable {R : Type} {p : NaluParsers R} {nalu : InputNALUnit} {s s' t : NaluDecoder R}

/-- The units that were buffered and not yet taken from the queue. -/
def waitingUnits (s : NaluDecoder R) : List (ℕ × InputNALUnit) := s.buffered.drop s.removed.length

/-- Every unit that was buffered was taken from the queue and released, or waits in the queue
and is there. -/
structure Accounted (s : NaluDecoder R) : Prop where
  order : s.buffered.map Prod.fst = s.removed ++ s.m_prefixSEINALUs
  live : ∀ u ∈ waitingUnits s, s.heap.cell u.1 = some u.2
  nodup : (s.buffered.map Prod.fst).Nodup
  known : ∀ u ∈ s.buffered, u.1 < s.heap.next
  released : ∀ a ∈ s.removed, ¬s.heap.Live a

theorem Accounted.split (h : Accounted s) : ∃ gone, s.buffered = gone ++ waitingUnits s ∧
    s.removed = gone.map Prod.fst ∧ s.m_prefixSEINALUs = (waitingUnits s).map Prod.fst := by
  obtain ⟨gone, waiting, hsplit, hgone, hwaiting⟩ := List.map_eq_append_iff.mp h.order
  have hunits : waitingUnits s = waiting := by
    rw [waitingUnits, hsplit, ← hgone, List.length_map, List.drop_left]
  rw [hunits]
  exact ⟨gone, hsplit, hgone.symm, hwaiting.symm⟩

/-- No unit of the queue is released. -/
theorem Accounted.queue_live (h : Accounted s) {a : ℕ} (ha : a ∈ s.m_prefixSEINALUs) : s.heap.Live a := by
  obtain ⟨gone, -, -, hqueue⟩ := h.split
  rw [hqueue] at ha
  obtain ⟨u, hu, rfl⟩ := List.mem_map.mp ha
  rw [Heap.Live, h.live u hu]
  exact Option.some_ne_none _

/-- The queue and its units are left alone. -/
structure Frame (s s' : NaluDecoder R) : Prop where
  queue : s'.m_prefixSEINALUs = s.m_prefixSEINALUs
  buffered : s'.buffered = s.buffered
  removed : s'.removed = s.removed
  parsed : s'.parsed = s.parsed
  next : s.heap.next ≤ s'.heap.next
  cell : ∀ u ∈ s.buffered, s'.heap.cell u.1 = s.heap.cell u.1

theorem Frame.refl (s : NaluDecoder R) : Frame s s := ⟨rfl, rfl, rfl, rfl, Nat.le_refl _, fun _ _ => rfl⟩

theorem Frame.trans (h : Frame s s') (h' : Frame s' t) : Frame s t where
  queue := h'.queue.trans h.queue
  buffered := h'.buffered.trans h.buffered
  removed := h'.removed.trans h.removed
  parsed := h'.parsed.trans h.parsed
  next := Nat.le_trans h.next h'.next
  cell u hu := (h'.cell u (h.buffered ▸ hu)).trans (h.cell u hu)

theorem Frame.waitingUnits_eq (h : Frame s s') : waitingUnits s' = waitingUnits s := by
  rw [waitingUnits, waitingUnits, h.buffered, h.removed]

theorem mem_buffered_of_waits {u : ℕ × InputNALUnit} (hu : u ∈ waitingUnits s) : u ∈ s.buffered :=
  List.mem_of_mem_drop hu

theorem Accounted.frame (h : Accounted s) (hf : Frame s s') : Accounted s' where
  order := by rw [hf.buffered, hf.removed, hf.queue, h.order]
  live u hu := by
    rw [hf.waitingUnits_eq] at hu
    rw [hf.cell u (mem_buffered_of_waits hu), h.live u hu]
  nodup := hf.buffered ▸ h.nodup
  known u hu := Nat.lt_of_lt_of_le (h.known u (hf.buffered ▸ hu)) hf.next
  released a ha := by
    rw [hf.removed] at ha
    obtain ⟨gone, hsplit, hgone, -⟩ := h.split
    obtain ⟨u, hu, rfl⟩ := List.mem_map.mp (hgone ▸ ha)
    rw [Heap.Live, hf.cell u (by rw [hsplit]; exact List.mem_append_left _ hu)]
    exact h.released u.1 ha

/-! ## Calls that end -/

/-- The call returns what `P` allows, or throws and leaves every unit accounted for. -/
def Sound {α : Type} (P : α → Prop) : Except (Stop R) α → Prop
  | .ok a => P a
  | .error (.thrown _ t) => Accounted t
  | .error .released => False
  | .error (.running _) => False

/-- With enough rounds for its loops the call ends, and no released unit is used. -/
def Ends {α : Type} (f : ℕ → Except (Stop R) α) (P : α → Prop) : Prop := ∃ r, Settles f r ∧ Sound P r

section
variable {α β : Type} {P : α → Prop} {Q : β → Prop} {f : ℕ → Except (Stop R) α} {g : ℕ → α → Except (Stop R) β}

theorem Ends.bind (h : Ends f P) (hg : ∀ a, P a → Ends (fun fuel => g fuel a) Q) :
    Ends (fun fuel => f fuel >>= g fuel) Q := by
  obtain ⟨r, hr, hsound⟩ := h
  cases r with
  | ok a =>
    obtain ⟨q, hq, hsound'⟩ := hg a hsound
    exact ⟨q, hr.bind hq, hsound'⟩
  | error e =>
    refine ⟨.error e, hr.bind_error, ?_⟩
    cases e with
    | thrown msg t => exact hsound
    | released => exact hsound
    | running t => exact hsound

theorem Ends.mono {P' : α → Prop} (h : Ends f P) (hP : ∀ a, P a → P' a) : Ends f P' := by
  obtain ⟨r, hr, hsound⟩ := h
  refine ⟨r, hr, ?_⟩
  cases r with
  | ok a => exact hP a hsound
  | error e =>
    cases e with
    | thrown msg t => exact hsound
    | released => exact hsound
    | running t => exact hsound

end

/-! ## Parsing the queue -/

/-- The unit at the front is released and taken from the queue. -/
theorem releaseFront_ok {front : ℕ} {q : List ℕ} (h : Accounted s) (hq : s.m_prefixSEINALUs = front :: q) :
    ∃ s', s.releaseFront = .ok s' ∧ Accounted s' ∧ s'.m_prefixSEINALUs = q ∧ s'.buffered = s.buffered ∧
      s'.removed = s.removed ++ [front] ∧ s'.parsed = s.parsed := by
  have hlive : s.heap.Live front := h.queue_live (hq ▸ List.mem_cons_self)
  have hdelete : s.delete front =
      .ok { s with heap := { s.heap with cell := Function.update s.heap.cell front none } } := by
    rw [NaluDecoder.delete, Heap.delete_live hlive]
  have horder : s.buffered.map Prod.fst = (s.removed ++ [front]) ++ q := by
    rw [h.order, hq, List.append_cons]
  refine ⟨{ s with
    heap := { s.heap with cell := Function.update s.heap.cell front none }
    m_prefixSEINALUs := q
    removed := s.removed ++ [front] }, ?_, ?_, rfl, rfl, rfl, rfl⟩
  · rw [releaseFront, hq]
    dsimp only
    rw [hdelete]
    rfl
  · refine ⟨horder, fun u hu => ?_, h.nodup, h.known, fun a ha => ?_⟩
    · obtain ⟨gone, waiting, hsplit, hgone, hwaiting⟩ := List.map_eq_append_iff.mp horder
      have hmem : u ∈ waiting := by
        rw [waitingUnits] at hu
        dsimp only at hu
        rwa [hsplit, ← hgone, List.length_map, List.drop_left] at hu
      have hne : u.1 ≠ front := by
        rintro rfl
        have hnodup := h.nodup
        rw [horder] at hnodup
        refine (List.disjoint_of_nodup_append hnodup) (List.mem_append_right _ List.mem_cons_self) ?_
        exact hwaiting ▸ List.mem_map_of_mem hmem
      have hold : u ∈ waitingUnits s := by
        have hu' : u ∈ (s.buffered.drop s.removed.length).drop 1 := by
          rw [List.drop_drop]
          simpa [waitingUnits] using hu
        exact List.mem_of_mem_drop hu'
      exact (Function.update_of_ne hne none s.heap.cell).trans (h.live u hold)
    · by_cases hfront : a = front
      · subst hfront
        simp [Heap.Live]
      · have hgone : a ∈ s.removed := by simpa [hfront] using ha
        simpa [Heap.Live, hfront] using h.released a hgone

/-- A loop over the queue. -/
theorem queueLoop_ends {body : NaluDecoder R → Except (Stop R) (NaluDecoder R)} {I : NaluDecoder R → Prop}
    (hbody : ∀ t front q, Accounted t ∧ I t → t.m_prefixSEINALUs = front :: q →
      (∃ t', body t = .ok t' ∧ (Accounted t' ∧ I t') ∧ t'.m_prefixSEINALUs = q) ∨
        ∃ e, body t = .error e ∧ ∃ msg t', e = .thrown msg t' ∧ Accounted t') (hs : Accounted s ∧ I s) :
    Ends (fun fuel => whileLoop .running waiting body fuel s)
      fun s' => Accounted s' ∧ s'.m_prefixSEINALUs = [] ∧ I s' := by
  have hround : ∀ t, Accounted t ∧ I t → waiting t = true →
      (∃ t', body t = .ok t' ∧ (Accounted t' ∧ I t') ∧ t'.m_prefixSEINALUs.length < t.m_prefixSEINALUs.length) ∨
        ∃ e, body t = .error e ∧ ∃ msg t', e = .thrown msg t' ∧ Accounted t' := by
    intro t ht hwaits
    cases hq : t.m_prefixSEINALUs with
    | nil =>
      rw [waiting, hq] at hwaits
      cases hwaits
    | cons front q =>
      rcases hbody t front q ht hq with ⟨t', hrun, ht', hqueue⟩ | herror
      · exact .inl ⟨t', hrun, ht', by rw [hqueue]; exact Nat.lt_succ_self _⟩
      · exact .inr herror
  have hloop : (∃ s', Settles (fun fuel => whileLoop .running waiting body fuel s) (.ok s') ∧
        (Accounted s' ∧ I s') ∧ waiting s' = false) ∨
      ∃ e, Settles (fun fuel => whileLoop .running waiting body fuel s) (.error e) ∧
        ∃ msg t', e = .thrown msg t' ∧ Accounted t' :=
    whileLoop_settles (fun t => t.m_prefixSEINALUs.length) hround hs
  rcases hloop with ⟨s', hrun, ⟨hacc, hI⟩, hempty⟩ | ⟨e, hrun, msg, t, rfl, hacc⟩
  · exact ⟨_, hrun, hacc, by simpa [waiting] using hempty, hI⟩
  · exact ⟨_, hrun, hacc⟩

/-- The destructor releases what waits, and nothing twice. -/
theorem destructor_ends (h : Accounted s) :
    Ends (fun fuel => destructor fuel s) fun s' => Accounted s' ∧ s'.m_prefixSEINALUs = [] ∧
      s'.buffered = s.buffered := by
  refine queueLoop_ends (I := fun t => t.buffered = s.buffered) (fun t front q ht hq => ?_) ⟨h, rfl⟩
  obtain ⟨hacc, hbuffered⟩ := ht
  obtain ⟨t', hrun, hacc', hqueue, hbuffered', -⟩ := releaseFront_ok hacc hq
  exact .inl ⟨t', hrun, ⟨hacc', hbuffered'.trans hbuffered⟩, hqueue⟩

/-! ## Discarding the queue -/

end ECM.Sei
