/-! # Runs of a step function that may fail

The states a run goes through, and the rules that carry a fact about one step
to all of them. -/

namespace ECM.Lib.Trace

variable {ε σ α : Type} {step : σ → α → Except ε σ} {Base Inv : σ → Prop} {Act : α → Prop}

/-- The states after each of the actions `as`, started in `s`. -/
def trace (step : σ → α → Except ε σ) (s : σ) : List α → Except ε (List σ)
  | [] => .ok []
  | a :: as => do
    let s ← step s a
    let ss ← trace step s as
    return s :: ss

theorem trace_cons_eq_ok {s : σ} {a : α} {as : List α} {ss : List σ}
    (h : trace step s (a :: as) = .ok ss) :
    ∃ s' ss', step s a = .ok s' ∧ trace step s' as = .ok ss' ∧ ss = s' :: ss' := by
  simp only [trace] at h
  cases hs : step s a with
  | error e => rw [hs] at h; cases h
  | ok s' =>
    rw [hs] at h
    change (trace step s' as >>= fun ss => pure (s' :: ss)) = .ok ss at h
    cases hss : trace step s' as with
    | error e => rw [hss] at h; cases h
    | ok ss' =>
      rw [hss] at h
      cases h
      exact ⟨s', ss', rfl, hss, rfl⟩

/-- Steps that always succeed make runs that always succeed. -/
theorem trace_total (hstep : ∀ s a, Base s → Act a → ∃ s', step s a = .ok s' ∧ Base s')
    (as : List α) : ∀ {s : σ}, Base s → (∀ a ∈ as, Act a) → ∃ ss, trace step s as = .ok ss := by
  induction as with
  | nil => exact fun _ _ => ⟨[], rfl⟩
  | cons a as ih =>
    intro s hs has
    obtain ⟨s', hs', hbase⟩ := hstep s a hs (has a List.mem_cons_self)
    obtain ⟨ss, hss⟩ := ih hbase fun b hb => has b (List.mem_cons_of_mem _ hb)
    refine ⟨s' :: ss, ?_⟩
    rw [trace, hs']
    change (trace step s' as >>= fun ss => pure (s' :: ss)) = .ok (s' :: ss)
    rw [hss]
    rfl

/-- If a step out of an invariant state keeps the invariant exactly when it
satisfies `Keeps`, the states of a run are all invariant exactly when all its
steps satisfy `Keeps`. -/
theorem trace_forall_iff {Keeps : σ → α → Prop}
    (hstep : ∀ s a s', Base s → Inv s → Act a → step s a = .ok s' → Base s' ∧ (Inv s' ↔ Keeps s a))
    (as : List α) : ∀ {s : σ} {ss : List σ}, Base s → Inv s → (∀ a ∈ as, Act a) →
    trace step s as = .ok ss →
    ((∀ t ∈ ss, Inv t) ↔ ∀ p ∈ (s :: ss).zip as, Keeps p.1 p.2) := by
  induction as with
  | nil =>
    intro s ss _ _ _ h
    cases h
    simp
  | cons a as ih =>
    intro s ss hbase hinv has h
    obtain ⟨s', ss', hs', hss', rfl⟩ := trace_cons_eq_ok h
    obtain ⟨hbase', hkeeps⟩ := hstep s a s' hbase hinv (has a List.mem_cons_self) hs'
    have hrest (hinv' : Inv s') := ih hbase' hinv' (fun b hb => has b (List.mem_cons_of_mem _ hb)) hss'
    constructor
    · intro hall p hp
      rw [List.zip_cons_cons] at hp
      have hinv' := hall s' List.mem_cons_self
      rcases List.mem_cons.mp hp with rfl | hp
      · exact hkeeps.mp hinv'
      · exact (hrest hinv').mp (fun t ht => hall t (List.mem_cons_of_mem _ ht)) p hp
    · intro hall
      rw [List.zip_cons_cons] at hall
      have hinv' := hkeeps.mpr (hall (s, a) List.mem_cons_self)
      intro t ht
      rcases List.mem_cons.mp ht with rfl | ht
      · exact hinv'
      · exact (hrest hinv').mpr (fun p hp => hall p (List.mem_cons_of_mem _ hp)) t ht

end ECM.Lib.Trace

/-! # Programs that do not tell related states apart

`Agree R x`: started from two states that `R` relates, `x` returns the same value or
throws the same exception, and leaves related states. -/

namespace ECM.Lib.Simulation

variable {ε σ α β : Type} {R : σ → σ → Prop}

/-- The same outcome, on related states. -/
inductive SameResult (R : σ → σ → Prop) : EStateM.Result ε σ α → EStateM.Result ε σ α → Prop
  | ok {a : α} {s t : σ} (h : R s t) : SameResult R (.ok a s) (.ok a t)
  | error {e : ε} {s t : σ} (h : R s t) : SameResult R (.error e s) (.error e t)

def Agree (R : σ → σ → Prop) (x : EStateM ε σ α) : Prop := ∀ s t, R s t → SameResult R (x s) (x t)

theorem agree_pure (a : α) : Agree R (pure a : EStateM ε σ α) := fun _ _ h => .ok h

theorem agree_throw (e : ε) : Agree R (throw e : EStateM ε σ α) := fun _ _ h => .error h

theorem agree_modify {f : σ → σ} (hf : ∀ s t, R s t → R (f s) (f t)) :
    Agree R (modify f : EStateM ε σ PUnit) := fun s t h => .ok (hf s t h)

theorem agree_bind {x : EStateM ε σ α} {f : α → EStateM ε σ β} (hx : Agree R x)
    (hf : ∀ a, Agree R (f a)) : Agree R (x >>= f) := by
  intro s t h
  have hrun := hx s t h
  change SameResult R (EStateM.bind x f s) (EStateM.bind x f t)
  unfold EStateM.bind
  cases hxs : x s with
  | ok a s' =>
    rw [hxs] at hrun
    generalize x t = r at hrun
    cases hrun with
    | ok h' => exact hf a _ _ h'
  | error e s' =>
    rw [hxs] at hrun
    generalize x t = r at hrun
    cases hrun with
    | error h' => exact .error h'

theorem agree_ite {c : Prop} [Decidable c] {x y : EStateM ε σ α} (hx : Agree R x) (hy : Agree R y) :
    Agree R (if c then x else y) := by
  split
  · exact hx
  · exact hy

end ECM.Lib.Simulation
