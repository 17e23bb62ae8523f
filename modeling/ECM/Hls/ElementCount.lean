import ECM.Hls.Descriptors

/-! # Counting syntax elements by their bits

Flags and Exp-Golomb codes have an odd number of bits. So the number of bits that a run
of such elements takes has the parity of the number of elements, and is at least as
large. -/

namespace ECM.Hls
open CommonLib CommonLib.BitStream Lib.Bits Lib.Loop
open EncoderLib.VLCWriter DecoderLib.VLCReader

variable {α β : Type}

/-- When the reader ends, it has taken bits as of `m` elements, and `Q` holds of its value
and `m`. -/
def Takes (r : ReadM α) (Q : α → ℕ → Prop) : Prop :=
  ∀ s a s', InOrder s → r s = .ok (a, s') →
    InOrder s' ∧ ∃ m n, s.unread.length = n + s'.unread.length ∧ m ≤ n ∧ n % 2 = m % 2 ∧ Q a m

/-- When the writer returns, it has written bits as of `m` elements. -/
def Puts (w : WriteM α) (Q : α → ℕ → Prop) : Prop :=
  ∀ s a s', s.WF → w s = .ok (a, s') →
    ∃ bits m, Appends s s' bits ∧ bits.length % 2 = m % 2 ∧ Q a m

section
variable {r : ReadM α} {f : α → ReadM β} {Q : α → ℕ → Prop} {R : β → ℕ → Prop}

theorem takes_pure {a : α} (h : Q a 0) : Takes (pure a : ReadM α) Q := by
  intro s b s' hs hrun
  cases hrun
  exact ⟨hs, 0, 0, (Nat.zero_add _).symm, Nat.le_refl 0, rfl, h⟩

theorem takes_bind (hr : Takes r Q) (hf : ∀ a m, Q a m → Takes (f a) fun b n => R b (m + n)) :
    Takes (r >>= f) R := by
  intro s b s' hs hrun
  obtain ⟨⟨a, s₁⟩, h₁, hrun⟩ := bind_eq_ok hrun
  obtain ⟨hs₁, m, n, hlen, hle, hpar, hQ⟩ := hr s a s₁ hs h₁
  obtain ⟨hs', m', n', hlen', hle', hpar', hR⟩ := hf a m hQ s₁ b s' hs₁ hrun
  exact ⟨hs', m + m', n + n', by omega, Nat.add_le_add hle hle', by omega, hR⟩

theorem Takes.mono {Q' : α → ℕ → Prop} (hr : Takes r Q) (h : ∀ a m, Q a m → Q' a m) : Takes r Q' := by
  intro s a s' hs hrun
  obtain ⟨hs', m, n, hlen, hle, hpar, hQ⟩ := hr s a s' hs hrun
  exact ⟨hs', m, n, hlen, hle, hpar, h a m hQ⟩

/-- A call that does not read. -/
theorem takes_lift (c : Checked α) : Takes (liftM c : ReadM α) fun _ m => m = 0 := by
  intro s a s' hs hrun
  obtain ⟨b, _, hrun⟩ := bind_eq_ok hrun
  cases hrun
  exact ⟨hs, 0, 0, (Nat.zero_add _).symm, Nat.le_refl 0, rfl, rfl⟩

/-- A loop, each round of which takes as many elements up to parity. -/
theorem takes_loop {n c : ℕ} {body : ℕ → α → ReadM α} (a : α)
    (h : ∀ i a, Takes (body i a) fun _ m => m % 2 = c % 2) :
    Takes (loop body n a) fun _ m => m % 2 = n * c % 2 := by
  induction n with
  | zero => exact takes_pure (by rw [Nat.zero_mul])
  | succ n ih =>
    refine takes_bind ih fun a m hm => (h n a).mono fun _ k hk => ?_
    rw [Nat.succ_mul]
    omega

theorem takes_flag : Takes READ_FLAG fun _ m => m = 1 := by
  intro s b s' hs hrun
  obtain ⟨⟨v, s₁⟩, hread, hrun⟩ := bind_eq_ok hrun
  cases hrun
  obtain ⟨_, hlen, _, hadv⟩ := read_advances hs hread
  refine ⟨⟨hadv.few, hadv.inside⟩, 1, 1, ?_, Nat.le_refl 1, rfl, rfl⟩
  rw [hadv.unread_eq, List.length_drop]
  omega

theorem uvlcPrefix_takes (fuel : ℕ) : ∀ {s s' : InputBitstream} {uiLength n : ℕ}, InOrder s →
    uvlcPrefix s uiLength fuel = .ok (n, s') →
    InOrder s' ∧ s.unread.length + uiLength = n + s'.unread.length := by
  induction fuel with
  | zero =>
    intro s s' uiLength n _ h
    cases h
  | succ fuel ih =>
    intro s s' uiLength n hs h
    obtain ⟨⟨uiCode, s₁⟩, hread, h⟩ := bind_eq_ok h
    obtain ⟨_, hlen, _, hadv⟩ := read_advances hs hread
    have hs₁ : InOrder s₁ := ⟨hadv.few, hadv.inside⟩
    have hlen₁ : s₁.unread.length = s.unread.length - 1 := by rw [hadv.unread_eq, List.length_drop]
    dsimp only at h
    by_cases hzero : uiCode &&& 1 = 0
    · rw [if_pos hzero] at h
      obtain ⟨hs', heq⟩ := ih hs₁ h
      exact ⟨hs', by omega⟩
    · rw [if_neg hzero] at h
      cases h
      exact ⟨hs₁, by omega⟩

/-- A bit, and where it is zero as many bits in front as behind the next one. -/
theorem takes_expGolomb {g : InputBitstream → Checked (α × InputBitstream)} {value : ℕ → ℕ → α} {a₀ : α}
    (hg : ∀ s, g s = (s.read 1 >>= fun p => if p.1 = 0 then
        uvlcPrefix p.2 0 (p.2.unread.length + 1) >>= fun q =>
          q.2.read q.1 >>= fun r => pure (value q.1 r.1, r.2)
      else pure (a₀, p.2))) :
    Takes (fun s => g s) fun _ m => m = 1 := by
  intro s v s' hs hrun
  dsimp only at hrun
  rw [hg] at hrun
  obtain ⟨⟨uiCode, s₁⟩, hread, hrun⟩ := bind_eq_ok hrun
  obtain ⟨_, hlen, _, hadv⟩ := read_advances hs hread
  have hs₁ : InOrder s₁ := ⟨hadv.few, hadv.inside⟩
  have hlen₁ : s₁.unread.length = s.unread.length - 1 := by rw [hadv.unread_eq, List.length_drop]
  dsimp only at hrun
  by_cases hzero : uiCode = 0
  · rw [if_pos hzero] at hrun
    obtain ⟨⟨uiLength, s₂⟩, hpre, hrun⟩ := bind_eq_ok hrun
    obtain ⟨⟨uiVal, s₃⟩, hval, hrun⟩ := bind_eq_ok hrun
    obtain ⟨hs₂, heq⟩ := uvlcPrefix_takes _ hs₁ hpre
    obtain ⟨_, hlen₂, _, hadv₂⟩ := read_advances hs₂ hval
    have hlen₃ : s₃.unread.length = s₂.unread.length - uiLength := by rw [hadv₂.unread_eq, List.length_drop]
    cases hrun
    refine ⟨⟨hadv₂.few, hadv₂.inside⟩, 1, 1 + uiLength + uiLength, ?_, by omega, by omega, rfl⟩
    dsimp only
    omega
  · rw [if_neg hzero] at hrun
    cases hrun
    exact ⟨hs₁, 1, 1, by omega, Nat.le_refl 1, rfl, rfl⟩

theorem takes_uvlc : Takes READ_UVLC fun _ m => m = 1 :=
  @takes_expGolomb ℕ xReadUvlc (fun n v => u32 (v + (1 <<< n - 1))) 0 fun _ => rfl

theorem takes_svlc : Takes READ_SVLC fun _ m => m = 1 :=
  @takes_expGolomb ℤ xReadSvlc (fun n v => seValue (u32 (v + 1 <<< n))) 0 fun _ => rfl

end

/-- The bits that a reader takes, where they are known. -/
theorem Takes.length {r : ReadM α} {Q : α → ℕ → Prop} {bits : List Bool} {a : α} (hr : Takes r Q)
    (h : Reads r bits a) : ∃ m, m ≤ bits.length ∧ bits.length % 2 = m % 2 ∧ Q a m := by
  obtain ⟨fifo, rest, hat⟩ := exists_stream bits
  obtain ⟨t, ht, hat'⟩ := h _ _ _ _ hat
  obtain ⟨_, _, hfew, hidx, hunread⟩ := hat
  obtain ⟨_, _, _, _, hunread'⟩ := hat'
  obtain ⟨_, m, n, hlen, hle, hpar, hQ⟩ := hr _ _ _ ⟨hfew, hidx⟩ ht
  rw [hunread, hunread', List.length_append] at hlen
  obtain rfl : n = bits.length := by omega
  exact ⟨m, hle, hpar, hQ⟩

section
variable {w : WriteM α} {f : α → WriteM β} {Q : α → ℕ → Prop} {R : β → ℕ → Prop}

theorem puts_pure {a : α} (h : Q a 0) : Puts (pure a : WriteM α) Q := by
  intro s b s' hs hrun
  cases hrun
  exact ⟨[], 0, ⟨hs, (List.append_nil _).symm⟩, rfl, h⟩

theorem puts_bind (hw : Puts w Q) (hf : ∀ a m, Q a m → Puts (f a) fun b n => R b (m + n)) :
    Puts (w >>= f) R := by
  intro s b s' hs hrun
  obtain ⟨⟨a, s₁⟩, h₁, hrun⟩ := bind_eq_ok hrun
  obtain ⟨xs, m, happ, hpar, hQ⟩ := hw s a s₁ hs h₁
  obtain ⟨ys, n, happ', hpar', hR⟩ := hf a m hQ s₁ b s' happ.wf hrun
  refine ⟨xs ++ ys, m + n, happ.trans happ', ?_, hR⟩
  rw [List.length_append]
  omega

theorem Puts.mono {Q' : α → ℕ → Prop} (hw : Puts w Q) (h : ∀ a m, Q a m → Q' a m) : Puts w Q' := by
  intro s a s' hs hrun
  obtain ⟨bits, m, happ, hpar, hQ⟩ := hw s a s' hs hrun
  exact ⟨bits, m, happ, hpar, h a m hQ⟩

/-- A call that does not write. -/
theorem puts_lift (c : Checked α) : Puts (liftM c : WriteM α) fun _ m => m = 0 := by
  intro s a s' hs hrun
  obtain ⟨b, _, hrun⟩ := bind_eq_ok hrun
  cases hrun
  exact ⟨[], 0, ⟨hs, (List.append_nil _).symm⟩, rfl, rfl⟩

/-- What is read back counts for what is written. -/
theorem RoundTrips.puts {strict : Prop} {r : ReadM β} {S : α → β → Prop} (h : RoundTrips strict w r S)
    (hr : Takes r R) : Puts w fun a m => ∃ b, S a b ∧ R b m := by
  intro s a s' hs hrun
  have h := h s hs
  rw [hrun] at h
  obtain ⟨bits, b, happ, hS, hreads⟩ := h
  obtain ⟨m, _, hpar, hR⟩ := hr.length hreads
  exact ⟨bits, m, happ, hpar, b, hS, hR⟩

end

end ECM.Hls
