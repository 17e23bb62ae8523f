import ECM.DecoderLib.VLCReader
import ECM.Lib.Loop

/-! # Parsing in a monad

`ReadM` carries the bit stream through a syntax reader. `Ensures` says what holds of
the value when the reader comes to its end. -/

namespace ECM.DecoderLib.VLCReader
open CommonLib CommonLib.BitStream Lib.Bits Lib.Loop

abbrev ReadM := StateT InputBitstream (Except String)

def READ_CODE (uiLength : ℕ) : ReadM ℕ := fun s => xReadCode s uiLength

def READ_FLAG : ReadM Bool := fun s => xReadFlag s

def READ_UVLC : ReadM ℕ := fun s => xReadUvlc s

/-- A call that succeeds without reading. -/
theorem liftM_ok_bind {α β : Type} (a : α) (f : α → ReadM β) :
    (liftM (Except.ok a : Checked α) : ReadM α) >>= f = f a := rfl

/-! ## What a stream in order reads -/

/-- The counters of the stream are in order. -/
def InOrder (s : InputBitstream) : Prop := s.numHeldBits < 8 ∧ s.fifoIdx ≤ s.fifo.length

/-- A call of `read` that returns has moved the stream by its bits. -/
theorem read_advances {s s' : InputBitstream} {n v : ℕ} (hs : InOrder s) (h : s.read n = .ok (v, s')) :
    n ≤ 32 ∧ n ≤ s.unread.length ∧ v = ofBits (s.unread.take n) ∧ s.Advances s' n := by
  have hn : n ≤ 32 := by
    obtain ⟨_, hmany, _⟩ := bind_eq_ok h
    exact Nat.le_of_not_gt (check_eq_ok hmany)
  by_cases hlen : n ≤ s.unread.length
  · obtain ⟨t, ht, hadv⟩ := InputBitstream.read_spec hs.1 hn hlen hs.2
    rw [ht] at h
    cases h
    exact ⟨hn, hlen, rfl, hadv⟩
  · rw [InputBitstream.length_unread] at hlen
    have hfew := hs.1
    have hidx := hs.2
    rw [InputBitstream.read, check_ok _ (by omega), ok_bind, if_neg (by omega)] at h
    dsimp only at h
    rw [check_error _ (by rw [Nat.shiftRight_eq_div_pow]; omega)] at h
    cases h

theorem read_inOrder {s s' : InputBitstream} {n v : ℕ} (hs : InOrder s) (h : s.read n = .ok (v, s')) :
    InOrder s' :=
  have hadv := (read_advances hs h).2.2.2
  ⟨hadv.few, hadv.inside⟩

theorem read_bound {s s' : InputBitstream} {n v : ℕ} (hs : InOrder s) (h : s.read n = .ok (v, s')) :
    v < 2 ^ n ∧ InOrder s' := by
  obtain ⟨_, hlen, hv, _⟩ := read_advances hs h
  refine ⟨?_, read_inOrder hs h⟩
  have hlt := ofBits_lt (s.unread.take n)
  rwa [List.length_take, Nat.min_eq_left hlen, ← hv] at hlt

/-- When the reader ends, `Q` holds of its value. -/
def Ensures {α : Type} (x : ReadM α) (Q : α → Prop) : Prop :=
  ∀ s a s', InOrder s → x s = .ok (a, s') → InOrder s' ∧ Q a

section
variable {α β : Type} {x : ReadM α} {f : α → ReadM β} {Q Q' : α → Prop} {R : β → Prop}

theorem ensures_pure {a : α} (h : Q a) : Ensures (pure a : ReadM α) Q := by
  intro s b s' hs hrun
  cases hrun
  exact ⟨hs, h⟩

theorem ensures_bind (hx : Ensures x Q) (hf : ∀ a, Q a → Ensures (f a) R) :
    Ensures (x >>= f) R := by
  intro s b s' hs hrun
  obtain ⟨⟨a, s₁⟩, hx', hrun⟩ := bind_eq_ok hrun
  obtain ⟨hs₁, ha⟩ := hx s a s₁ hs hx'
  exact hf a ha s₁ b s' hs₁ hrun

theorem Ensures.mono (hx : Ensures x Q) (h : ∀ a, Q a → Q' a) : Ensures x Q' := by
  intro s a s' hs hrun
  obtain ⟨hs', ha⟩ := hx s a s' hs hrun
  exact ⟨hs', h a ha⟩

/-- A call that does not read. -/
theorem ensures_lift {c : Checked α} (h : ∀ a, c = .ok a → Q a) : Ensures (liftM c : ReadM α) Q := by
  intro s a s' hs hrun
  obtain ⟨b, hb, hrun⟩ := bind_eq_ok hrun
  cases hrun
  exact ⟨hs, h a hb⟩

theorem ensures_check {c : Prop} [Decidable c] (msg : String) :
    Ensures (liftM (check c msg) : ReadM Unit) fun _ => ¬c :=
  ensures_lift fun _ h => check_eq_ok h

theorem ensures_loop {σ : Type} {n : ℕ} {body : ℕ → σ → ReadM σ} {P : ℕ → σ → Prop} {t : σ}
    (hinit : P 0 t) (hstep : ∀ i < n, ∀ t, P i t → Ensures (body i t) (P (i + 1))) :
    Ensures (loop body n t) (P n) := by
  induction n with
  | zero => exact ensures_pure hinit
  | succ n ih =>
    exact ensures_bind (ih fun i hi => hstep i (Nat.lt_succ_of_lt hi))
      (hstep n (Nat.lt_succ_self n))

end

/-! ## What a reader returns on any stream -/

/-- `Q` holds of every value that the reader gives. -/
def Returns {α : Type} (x : ReadM α) (Q : α → Prop) : Prop := ∀ s a s', x s = .ok (a, s') → Q a

section
variable {α β : Type} {x : ReadM α} {f : α → ReadM β} {Q : α → Prop} {R : β → Prop}

theorem returns_any (x : ReadM α) : Returns x fun _ => True := fun _ _ _ _ => trivial

theorem returns_pure {a : α} (h : Q a) : Returns (pure a : ReadM α) Q := by
  intro s b s' hrun
  cases hrun
  exact h

theorem returns_bind (hx : Returns x Q) (hf : ∀ a, Q a → Returns (f a) R) : Returns (x >>= f) R := by
  intro s b s' hrun
  obtain ⟨⟨a, s₁⟩, hx', hrun⟩ := bind_eq_ok hrun
  exact hf a (hx s a s₁ hx') s₁ b s' hrun

/-- What is read first does not matter. -/
theorem returns_then (hf : ∀ a, Returns (f a) R) : Returns (x >>= f) R :=
  returns_bind (returns_any x) fun a _ => hf a

/-- A call that does not read. -/
theorem returns_lift (c : Checked α) : Returns (liftM c : ReadM α) fun a => c = .ok a := by
  intro s a s' hrun
  obtain ⟨b, hb, hrun⟩ := bind_eq_ok hrun
  cases hrun
  exact hb

theorem returns_rounds {σ : Type} {n : ℕ} {body : ℕ → σ → ReadM σ} {P : ℕ → σ → Prop} {t : σ}
    (hinit : P 0 t) (hstep : ∀ i < n, ∀ t, P i t → Returns (body i t) (P (i + 1))) :
    Returns (loop body n t) (P n) := by
  induction n with
  | zero => exact returns_pure hinit
  | succ n ih =>
    exact returns_bind (ih fun i hi => hstep i (Nat.lt_succ_of_lt hi))
      fun t ht => hstep n (Nat.lt_succ_self n) t ht

theorem returns_loop {σ : Type} {n : ℕ} {body : ℕ → σ → ReadM σ} {P : σ → Prop} {t : σ}
    (hinit : P t) (hstep : ∀ i t, P t → Returns (body i t) P) : Returns (loop body n t) P :=
  @returns_rounds _ _ _ (fun _ => P) _ hinit fun i _ t ht => hstep i t ht

end

theorem ensures_code {n : ℕ} : Ensures (READ_CODE n) fun v => v < 2 ^ n := by
  intro s v s' hs hrun
  obtain ⟨-, -, hread⟩ := bind_eq_ok hrun
  obtain ⟨hv, hs'⟩ := read_bound hs hread
  exact ⟨hs', hv⟩

theorem ensures_flag : Ensures READ_FLAG fun _ => True := by
  intro s b s' hs hrun
  obtain ⟨⟨v, s₁⟩, hread, hrun⟩ := bind_eq_ok hrun
  cases hrun
  exact ⟨(read_bound hs hread).2, trivial⟩

theorem uvlcPrefix_inOrder (fuel : ℕ) : ∀ {s s' : InputBitstream} {uiLength n : ℕ}, InOrder s →
    uvlcPrefix s uiLength fuel = .ok (n, s') → InOrder s' := by
  induction fuel with
  | zero =>
    intro s s' uiLength n _ h
    cases h
  | succ fuel ih =>
    intro s s' uiLength n hs h
    obtain ⟨⟨uiCode, s₁⟩, hread, h⟩ := bind_eq_ok h
    dsimp only at h
    by_cases hzero : uiCode &&& 1 = 0
    · rw [if_pos hzero] at h
      exact ih (read_inOrder hs hread) h
    · rw [if_neg hzero] at h
      cases h
      exact read_inOrder hs hread

theorem ensures_uvlc : Ensures READ_UVLC fun _ => True := by
  intro s v s' hs hrun
  obtain ⟨⟨uiCode, s₁⟩, hread, hrun⟩ := bind_eq_ok hrun
  have hs₁ := read_inOrder hs hread
  dsimp only at hrun
  by_cases hzero : uiCode = 0
  · rw [if_pos hzero] at hrun
    obtain ⟨⟨uiLength, s₂⟩, hprefix, hrun⟩ := bind_eq_ok hrun
    obtain ⟨⟨uiVal, s₃⟩, hval, hrun⟩ := bind_eq_ok hrun
    cases hrun
    exact ⟨read_inOrder (uvlcPrefix_inOrder _ hs₁ hprefix) hval, trivial⟩
  · rw [if_neg hzero] at hrun
    cases hrun
    exact ⟨hs₁, trivial⟩

end ECM.DecoderLib.VLCReader
