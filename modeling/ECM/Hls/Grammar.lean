import ECM.Hls.RoundTrip

/-! # Readers and their languages

`Grammar` says which bits a reader accepts and what it makes of them: each syntax that
fits is read, and whatever is accepted is such a syntax. -/

namespace ECM.Hls
open CommonLib CommonLib.BitStream Lib.Bits Lib.Loop Function
open EncoderLib.VLCWriter DecoderLib.VLCReader

variable {α β κ μ : Type}

/-- The reader takes the bits of every syntax `k` that fits, and of nothing else. -/
structure Grammar (r : ReadM α) (fits : κ → Prop) (bits : κ → List Bool) (value : κ → α) : Prop where
  reads : ∀ k, fits k → Reads r (bits k) (value k)
  parses : ∀ s a s', InOrder s → r s = .ok (a, s') →
    InOrder s' ∧ ∃ k, fits k ∧ s.unread = bits k ++ s'.unread ∧ value k = a

section
variable {r : ReadM α} {fits : κ → Prop} {bits : κ → List Bool} {value : κ → α}

/-- What holds of all results is decided by the bits that are there to be read. -/
theorem Grammar.results_iff (h : Grammar r fits bits value) {s : InputBitstream} (hs : InOrder s)
    (P : α → Prop) : (∀ a s', r s = .ok (a, s') → P a) ↔
      ∀ k rest, fits k → s.unread = bits k ++ rest → P (value k) := by
  constructor
  · intro hP k rest hk hunread
    obtain ⟨s', hs', -⟩ := h.reads k hk s s.fifo s.emulationPreventionByteLocation rest
      ⟨rfl, rfl, hs.1, hs.2, hunread⟩
    exact hP _ s' hs'
  · intro hP a s' hrun
    obtain ⟨-, k, hk, hunread, rfl⟩ := h.parses s a s' hs hrun
    exact hP k s'.unread hk hunread

/-! ## Rules -/

theorem grammar_pure (a : α) :
    Grammar (pure a : ReadM α) (fun _ : Unit => True) (fun _ => []) fun _ => a where
  reads _ _ := reads_pure a
  parses s b s' hs hrun := by
    cases hrun
    exact ⟨hs, (), trivial, rfl, rfl⟩

theorem grammar_bind {f : α → ReadM β} {fits' : κ → μ → Prop} {bits' : κ → μ → List Bool}
    {value' : κ → μ → β} (h : Grammar r fits bits value)
    (hf : ∀ k, fits k → Grammar (f (value k)) (fits' k) (bits' k) (value' k)) :
    Grammar (r >>= f) (fun p : κ × μ => fits p.1 ∧ fits' p.1 p.2) (fun p => bits p.1 ++ bits' p.1 p.2)
      fun p => value' p.1 p.2 where
  reads p hp := reads_bind (h.reads p.1 hp.1) ((hf p.1 hp.1).reads p.2 hp.2)
  parses s b s' hs hrun := by
    obtain ⟨⟨a, s₁⟩, hr, hrun⟩ := bind_eq_ok hrun
    obtain ⟨hs₁, k, hk, hunread, rfl⟩ := h.parses s a s₁ hs hr
    obtain ⟨hs', m, hm, hunread', hvalue⟩ := (hf k hk).parses s₁ b s' hs₁ hrun
    exact ⟨hs', (k, m), ⟨hk, hm⟩, by rw [hunread, hunread', List.append_assoc], hvalue⟩

theorem Grammar.map (h : Grammar r fits bits value) (f : α → β) :
    Grammar (r >>= fun a => pure (f a)) fits bits fun k => f (value k) where
  reads k hk := (h.reads k hk).map f
  parses s b s' hs hrun := by
    obtain ⟨⟨a, s₁⟩, hr, hrun⟩ := bind_eq_ok hrun
    obtain ⟨hs₁, k, hk, hunread, rfl⟩ := h.parses s a s₁ hs hr
    cases hrun
    exact ⟨hs₁, k, hk, hunread, rfl⟩

/-- The same language under another name for its syntax. -/
theorem Grammar.rename {fits' : μ → Prop} {bits' : μ → List Bool} {value' : μ → α}
    (h : Grammar r fits bits value)
    (hto : ∀ m, fits' m → ∃ k, fits k ∧ bits k = bits' m ∧ value k = value' m)
    (hfrom : ∀ k, fits k → ∃ m, fits' m ∧ bits' m = bits k ∧ value' m = value k) :
    Grammar r fits' bits' value' where
  reads m hm := by
    obtain ⟨k, hk, hbits, hvalue⟩ := hto m hm
    rw [← hbits, ← hvalue]
    exact h.reads k hk
  parses s a s' hs hrun := by
    obtain ⟨hs', k, hk, hunread, rfl⟩ := h.parses s a s' hs hrun
    obtain ⟨m, hm, hbits, hvalue⟩ := hfrom k hk
    exact ⟨hs', m, hm, by rw [hunread, hbits], hvalue⟩

/-! ## Loops -/

/-- What the rounds with the syntax `ks` make of `a`. -/
def rounds (step : ℕ → α → κ → α) (a : α) (ks : ℕ → κ) : ℕ → α
  | 0 => a
  | n + 1 => step n (rounds step a ks n) (ks n)

theorem rounds_congr {step : ℕ → α → κ → α} {a : α} {ks ks' : ℕ → κ} {n : ℕ}
    (h : ∀ i < n, ks i = ks' i) : rounds step a ks n = rounds step a ks' n := by
  induction n with
  | zero => rfl
  | succ n ih =>
    rw [rounds, rounds, ih fun i hi => h i (Nat.lt_succ_of_lt hi), h n (Nat.lt_succ_self n)]

/-- Rounds that each store a value leave these values. -/
theorem rounds_update {f : κ → β} {g : ℕ → β} {ks : ℕ → κ} (n : ℕ) (i : ℕ) :
    rounds (fun i g k => update g i (f k)) g ks n i = if i < n then f (ks i) else g i := by
  induction n with
  | zero => rw [if_neg (Nat.not_lt_zero i)]; rfl
  | succ n ih =>
    rw [rounds]
    by_cases hi : i = n
    · rw [hi, update_self, if_pos (Nat.lt_succ_self n)]
    · rw [update_of_ne hi, ih]
      exact if_congr (by omega) rfl rfl

/-- A loop over a language of its own in each round. -/
theorem grammar_loop [Inhabited κ] {f : ℕ → α → ReadM α} {step : ℕ → α → κ → α} (n : ℕ) (a : α)
    (h : ∀ i a, Grammar (f i a) fits bits (step i a)) :
    Grammar (loop f n a) (fun ks : ℕ → κ => ∀ i < n, fits (ks i))
      (fun ks => (List.range n).flatMap fun i => bits (ks i)) fun ks => rounds step a ks n where
  reads ks hks := reads_loop (rounds step a ks) fun i hi => (h i _).reads (ks i) (hks i hi)
  parses := by
    induction n with
    | zero =>
      intro s b s' hs hrun
      cases hrun
      exact ⟨hs, fun _ => default, fun i hi => absurd hi (Nat.not_lt_zero i), rfl, rfl⟩
    | succ n ih =>
      intro s b s' hs hrun
      obtain ⟨⟨c, s₁⟩, hloop, hrun⟩ := bind_eq_ok hrun
      obtain ⟨hs₁, ks, hks, hunread, rfl⟩ := ih s c s₁ hs hloop
      obtain ⟨hs', k, hk, hunread', rfl⟩ := (h n _).parses s₁ b s' hs₁ hrun
      have hsame : ∀ i < n, update ks n k i = ks i := fun i hi =>
        update_of_ne (Nat.ne_of_lt hi) k ks
      refine ⟨hs', update ks n k, fun i hi => ?_, ?_, ?_⟩
      · rcases Nat.lt_succ_iff_lt_or_eq.mp hi with hlt | rfl
        · rw [hsame i hlt]
          exact hks i hlt
        · rw [update_self]
          exact hk
      · rw [hunread, hunread', List.range_succ, List.flatMap_append, List.flatMap_singleton,
          update_self, List.append_assoc]
        congr 1
        exact List.flatMap_congr fun i hi => by rw [hsame i (List.mem_range.mp hi)]
      · rw [rounds, rounds_congr hsame, update_self]

end

/-! ## The codes -/

theorem take_unread {s s' : InputBitstream} {n v : ℕ} (hs : InOrder s) (h : s.read n = .ok (v, s')) :
    InOrder s' ∧ s.unread = toBits n v ++ s'.unread := by
  obtain ⟨-, hlen, hv, hadv⟩ := read_advances hs h
  have hbits := toBits_ofBits (s.unread.take n)
  rw [List.length_take, Nat.min_eq_left hlen, ← hv] at hbits
  exact ⟨⟨hadv.few, hadv.inside⟩, by rw [hbits, hadv.unread_eq, List.take_append_drop]⟩

theorem take_bit {s s' : InputBitstream} {v : ℕ} (hs : InOrder s) (h : s.read 1 = .ok (v, s')) :
    InOrder s' ∧ (v = 0 ∧ s.unread = false :: s'.unread ∨ v = 1 ∧ s.unread = true :: s'.unread) := by
  obtain ⟨hs', hunread⟩ := take_unread hs h
  have hv := (read_bound hs h).1
  obtain rfl | rfl : v = 0 ∨ v = 1 := by omega
  · exact ⟨hs', .inl ⟨rfl, hunread⟩⟩
  · exact ⟨hs', .inr ⟨rfl, hunread⟩⟩

theorem grammar_code {n : ℕ} (h1 : 1 ≤ n) (h32 : n ≤ 32) :
    Grammar (READ_CODE n) (fun v => v < 2 ^ n) (fun v => toBits n v) fun v => v where
  reads v hv := reads_code h1 h32 hv
  parses s v s' hs hrun := by
    obtain ⟨-, -, hread⟩ := bind_eq_ok hrun
    obtain ⟨hs', hunread⟩ := take_unread hs hread
    exact ⟨hs', v, (read_bound hs hread).1, hunread, rfl⟩

theorem grammar_flag : Grammar READ_FLAG (fun _ => True) (fun b => [b]) fun b => b where
  reads b _ := reads_flag b
  parses s b s' hs hrun := by
    obtain ⟨⟨v, s₁⟩, hread, hrun⟩ := bind_eq_ok hrun
    obtain ⟨hs', ⟨rfl, hunread⟩ | ⟨rfl, hunread⟩⟩ := take_bit hs hread
    · cases hrun
      exact ⟨hs', false, trivial, hunread, rfl⟩
    · cases hrun
      exact ⟨hs', true, trivial, hunread, rfl⟩

/-- A flag decides which of two languages follows. -/
theorem grammar_choice {x y : ReadM α} {fits : κ → Prop} {bits : κ → List Bool} {value : κ → α}
    {fits' : μ → Prop} {bits' : μ → List Bool} {value' : μ → α} (hx : Grammar x fits bits value)
    (hy : Grammar y fits' bits' value') :
    Grammar (do let b ← READ_FLAG; if b then x else y) (Sum.elim fits fits')
      (Sum.elim (fun k => true :: bits k) fun m => false :: bits' m) (Sum.elim value value') where
  reads k hk := by
    cases k with
    | inl k => exact reads_bind (reads_flag true) (hx.reads k hk)
    | inr m => exact reads_bind (reads_flag false) (hy.reads m hk)
  parses s a s' hs hrun := by
    obtain ⟨⟨b, s₁⟩, hflag, hrun⟩ := bind_eq_ok hrun
    obtain ⟨hs₁, b, -, hunread, rfl⟩ := grammar_flag.parses s b s₁ hs hflag
    cases b with
    | true =>
      obtain ⟨hs', k, hk, hunread', hvalue⟩ := hx.parses s₁ a s' hs₁ hrun
      exact ⟨hs', .inl k, hk, by rw [hunread, hunread']; rfl, hvalue⟩
    | false =>
      obtain ⟨hs', m, hm, hunread', hvalue⟩ := hy.parses s₁ a s' hs₁ hrun
      exact ⟨hs', .inr m, hm, by rw [hunread, hunread']; rfl, hvalue⟩

/-- An `ue(v)` as it stands in a stream: zeros, a one, and as many bits again. -/
structure UvlcCode where
  zeros : ℕ
  info : ℕ
  deriving DecidableEq, Repr, Inhabited

namespace UvlcCode

def Fits (c : UvlcCode) : Prop := c.zeros ≤ 32 ∧ c.info < 2 ^ c.zeros

def bits (c : UvlcCode) : List Bool := List.replicate c.zeros false ++ true :: toBits c.zeros c.info

/-- `uiVal`, with its 32 bits. -/
def value (c : UvlcCode) : ℕ := u32 (c.info + (1 <<< c.zeros - 1))

end UvlcCode

theorem uvlcPrefix_unread (fuel : ℕ) : ∀ {s s' : InputBitstream} {uiLength n : ℕ}, InOrder s →
    uvlcPrefix s uiLength fuel = .ok (n, s') →
    InOrder s' ∧ ∃ k, n = uiLength + k + 1 ∧ s.unread = List.replicate k false ++ true :: s'.unread := by
  induction fuel with
  | zero =>
    intro s s' uiLength n _ h
    cases h
  | succ fuel ih =>
    intro s s' uiLength n hs h
    obtain ⟨⟨uiCode, s₁⟩, hread, h⟩ := bind_eq_ok h
    dsimp only at h
    obtain ⟨hs₁, ⟨rfl, hunread⟩ | ⟨rfl, hunread⟩⟩ := take_bit hs hread
    · rw [if_pos (by rfl)] at h
      obtain ⟨hs', k, hn, hrest⟩ := ih hs₁ h
      exact ⟨hs', k + 1, by omega, by rw [hunread, hrest]; rfl⟩
    · rw [if_neg (by decide)] at h
      cases h
      exact ⟨hs₁, 0, rfl, hunread⟩

theorem grammar_uvlc : Grammar READ_UVLC UvlcCode.Fits UvlcCode.bits UvlcCode.value where
  reads := by
    intro c hc t fifo locations rest h
    obtain ⟨zeros, info⟩ := c
    cases zeros with
    | zero =>
      obtain rfl : info = 0 := by
        have h := hc.2
        simpa using h
      obtain ⟨t', ht', h'⟩ := InputBitstream.At.read [true] h (by decide)
      refine ⟨t', ?_, h'⟩
      change (t.read [true].length >>= _) = _
      rw [ht', ok_bind]
      rfl
    | succ k =>
      have h : t.At fifo locations ([false] ++ (List.replicate k false ++ true ::
          (toBits (k + 1) info ++ rest))) := by
        simpa [UvlcCode.bits, List.replicate_succ] using h
      obtain ⟨t₁, ht₁, h₁⟩ := h.read [false] (by decide)
      obtain ⟨t₂, ht₂, h₂⟩ := uvlcPrefix_ok k 0 (t₁.unread.length + 1) h₁ (by
        rw [h₁.unread_eq, List.length_append, List.length_replicate]
        omega)
      obtain ⟨t₃, ht₃, h₃⟩ := h₂.read_toBits hc.1 hc.2
      refine ⟨t₃, ?_, h₃⟩
      change (t.read [false].length >>= _) = _
      rw [ht₁, ok_bind]
      change (uvlcPrefix t₁ 0 (t₁.unread.length + 1) >>= _) = _
      rw [ht₂, ok_bind, Nat.zero_add]
      dsimp only
      rw [ht₃]
      rfl
  parses s v s' hs hrun := by
    obtain ⟨⟨uiCode, s₁⟩, hread, hrun⟩ := bind_eq_ok hrun
    dsimp only at hrun
    obtain ⟨hs₁, ⟨rfl, hunread⟩ | ⟨rfl, hunread⟩⟩ := take_bit hs hread
    · rw [if_pos rfl] at hrun
      obtain ⟨⟨uiLength, s₂⟩, hpre, hrun⟩ := bind_eq_ok hrun
      obtain ⟨⟨uiVal, s₃⟩, hval, hrun⟩ := bind_eq_ok hrun
      obtain ⟨hs₂, k, hn, hunread₂⟩ := uvlcPrefix_unread _ hs₁ hpre
      obtain rfl : uiLength = k + 1 := by omega
      obtain ⟨hs₃, hunread₃⟩ := take_unread hs₂ hval
      have hv := (read_bound hs₂ hval).1
      have h32 := (read_advances hs₂ hval).1
      cases hrun
      refine ⟨hs₃, ⟨k + 1, uiVal⟩, ⟨h32, hv⟩, ?_, rfl⟩
      rw [hunread, hunread₂, hunread₃, UvlcCode.bits, List.replicate_succ]
      simp only [List.cons_append, List.append_assoc]
    · rw [if_neg (by decide)] at hrun
      cases hrun
      exact ⟨hs₁, ⟨0, 0⟩, ⟨Nat.zero_le 32, Nat.zero_lt_one⟩, hunread, rfl⟩

end ECM.Hls
