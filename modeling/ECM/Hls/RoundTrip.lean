import ECM.DecoderLib.ReadM
import ECM.EncoderLib.SEIwrite

/-! # Round trips over bit streams

`Writes` says which bits a syntax writer appends, `Reads` what a reader makes of
bits, whatever follows them. `RoundTrips` puts the two together. -/

namespace ECM.Hls
open CommonLib CommonLib.BitStream Lib.Bits Lib.Loop
open EncoderLib.VLCWriter DecoderLib.VLCReader

variable {α β γ δ : Type}

/-- On every stream in order the writer returns `a` and appends `bits`. -/
def Writes (w : WriteM α) (a : α) (bits : List Bool) : Prop :=
  ∀ s : OutputBitstream, s.WF → ∃ s', w s = .ok (a, s') ∧ Appends s s' bits

/-- Where the stream goes on with `bits`, the reader takes them and returns `b`. -/
def Reads (r : ReadM β) (bits : List Bool) (b : β) : Prop :=
  ∀ (t : InputBitstream) (fifo : List UInt8) (locations : List ℕ) (rest : List Bool),
    t.At fifo locations (bits ++ rest) → ∃ t', r t = .ok (b, t') ∧ t'.At fifo locations rest

/-- When the writer returns, the reader takes the bits that were appended and returns
something that `Q` relates to what the writer returned. A strict round trip has a writer
that always returns. -/
def RoundTrips (strict : Prop) (w : WriteM α) (r : ReadM β) (Q : α → β → Prop) : Prop :=
  ∀ s : OutputBitstream, s.WF → match w s with
    | .error _ => ¬strict
    | .ok (a, s') => ∃ bits b, Appends s s' bits ∧ Q a b ∧ Reads r bits b

/-! ## In sequence -/

theorem writes_pure (a : α) : Writes (pure a) a [] :=
  fun s h => ⟨s, rfl, h, (List.append_nil _).symm⟩

theorem writes_bind {w : WriteM α} {f : α → WriteM β} {a : α} {b : β} {xs ys : List Bool}
    (hw : Writes w a xs) (hf : Writes (f a) b ys) : Writes (w >>= f) b (xs ++ ys) := by
  intro s hs
  obtain ⟨s₁, hs₁, h₁⟩ := hw s hs
  obtain ⟨s₂, hs₂, h₂⟩ := hf s₁ h₁.wf
  refine ⟨s₂, ?_, h₁.trans h₂⟩
  change (w s >>= fun p => f p.1 p.2) = _
  rw [hs₁]
  exact hs₂

/-- A check that passes writes nothing. -/
theorem writes_check {c : Prop} [Decidable c] {msg : String} (h : ¬c) :
    Writes (liftM (check c msg) : WriteM Unit) () [] := by
  rw [check_ok msg h]
  exact writes_pure ()

theorem reads_pure (b : β) : Reads (pure b) [] b := fun t _ _ _ h => ⟨t, rfl, h⟩

theorem reads_bind {r : ReadM α} {f : α → ReadM β} {a : α} {b : β} {xs ys : List Bool}
    (hr : Reads r xs a) (hf : Reads (f a) ys b) : Reads (r >>= f) (xs ++ ys) b := by
  intro t fifo locations rest h
  rw [List.append_assoc] at h
  obtain ⟨t₁, ht₁, h₁⟩ := hr t fifo locations _ h
  obtain ⟨t₂, ht₂, h₂⟩ := hf t₁ fifo locations rest h₁
  refine ⟨t₂, ?_, h₂⟩
  change (r t >>= fun p => f p.1 p.2) = _
  rw [ht₁]
  exact ht₂

/-- Items one after the other. -/
theorem writes_forM {f : α → WriteM Unit} {bits : α → List Bool} {xs : List α}
    (h : ∀ x ∈ xs, Writes (f x) () (bits x)) : Writes (xs.forM f) () (xs.flatMap bits) := by
  induction xs with
  | nil => exact writes_pure ()
  | cons x xs ih =>
    exact writes_bind (h x List.mem_cons_self) (ih fun y hy => h y (List.mem_cons_of_mem _ hy))

theorem reads_mapM {g : β → ReadM δ} {kind : α → β} {bits : α → List Bool} {value : α → δ} {xs : List α}
    (h : ∀ x ∈ xs, Reads (g (kind x)) (bits x) (value x)) :
    Reads ((xs.map kind).mapM g) (xs.flatMap bits) (xs.map value) := by
  induction xs with
  | nil => exact reads_pure []
  | cons x xs ih =>
    have hrest := reads_bind (f := fun ys => pure (value x :: ys))
      (ih fun y hy => h y (List.mem_cons_of_mem _ hy)) (reads_pure (value x :: xs.map value))
    rw [List.append_nil] at hrest
    rw [List.map_cons, List.mapM_cons]
    exact reads_bind (h x List.mem_cons_self) hrest

/-- A loop whose states are known. -/
theorem writes_loop {n : ℕ} {f : ℕ → α → WriteM α} (state : ℕ → α) {bits : ℕ → List Bool}
    (h : ∀ i < n, Writes (f i (state i)) (state (i + 1)) (bits i)) :
    Writes (loop f n (state 0)) (state n) ((List.range n).flatMap bits) := by
  induction n with
  | zero => exact writes_pure _
  | succ n ih =>
    rw [List.range_succ, List.flatMap_append, List.flatMap_singleton]
    exact writes_bind (ih fun i hi => h i (Nat.lt_succ_of_lt hi)) (h n (Nat.lt_succ_self n))

theorem reads_loop {n : ℕ} {f : ℕ → α → ReadM α} (state : ℕ → α) {bits : ℕ → List Bool}
    (h : ∀ i < n, Reads (f i (state i)) (bits i) (state (i + 1))) :
    Reads (loop f n (state 0)) ((List.range n).flatMap bits) (state n) := by
  induction n with
  | zero => exact reads_pure _
  | succ n ih =>
    rw [List.range_succ, List.flatMap_append, List.flatMap_singleton]
    exact reads_bind (ih fun i hi => h i (Nat.lt_succ_of_lt hi)) (h n (Nat.lt_succ_self n))

/-- Nothing is written behind it. -/
theorem Writes.silent {w : WriteM α} {f : α → WriteM β} {a : α} {b : β} {bits : List Bool}
    (hw : Writes w a bits) (hf : Writes (f a) b []) : Writes (w >>= f) b bits := by
  have h := writes_bind hw hf
  rwa [List.append_nil] at h

theorem Writes.map {w : WriteM α} {a : α} {bits : List Bool} (h : Writes w a bits) (f : α → β) :
    Writes (w >>= fun a => pure (f a)) (f a) bits :=
  h.silent (writes_pure (f a))

theorem Reads.silent {r : ReadM α} {f : α → ReadM β} {a : α} {b : β} {bits : List Bool}
    (hr : Reads r bits a) (hf : Reads (f a) [] b) : Reads (r >>= f) bits b := by
  have h := reads_bind hr hf
  rwa [List.append_nil] at h

theorem Reads.map {r : ReadM α} {a : α} {bits : List Bool} (h : Reads r bits a) (f : α → β) :
    Reads (r >>= fun a => pure (f a)) bits (f a) :=
  h.silent (reads_pure (f a))

/-! ## Only one result -/

/-- Every bit string is at the front of some stream. -/
theorem exists_stream (bits : List Bool) :
    ∃ fifo rest, (InputBitstream.ofFifo fifo).At fifo [] (bits ++ rest) := by
  obtain ⟨pad, hpad⟩ : ∃ pad, 8 ∣ (bits ++ List.replicate pad false).length :=
    ⟨8 * bits.length - bits.length, by
      rw [List.length_append, List.length_replicate]
      omega⟩
  obtain ⟨n, hn⟩ := hpad
  have hbytes : ∀ (n : ℕ) (bs : List Bool), bs.length = 8 * n → ∃ fifo, bytesBits fifo = bs := by
    intro n
    induction n with
    | zero => exact fun bs h => ⟨[], (List.length_eq_zero_iff.mp h).symm⟩
    | succ n ih =>
      intro bs h
      obtain ⟨fifo, hfifo⟩ := ih (bs.drop 8) (by rw [List.length_drop]; omega)
      have h8 : (bs.take 8).length = 8 := by rw [List.length_take]; omega
      refine ⟨UInt8.ofNat (ofBits (bs.take 8)) :: fifo, ?_⟩
      have hhead : toBits 8 (ofBits (bs.take 8)) = bs.take 8 := by
        have h := toBits_ofBits (bs.take 8)
        rwa [h8] at h
      rw [bytesBits_cons, byteBits_ofNat, hfifo, hhead, List.take_append_drop]
  obtain ⟨fifo, hfifo⟩ := hbytes n _ hn
  exact ⟨fifo, _, rfl, rfl, Nat.zero_lt_succ 7, Nat.zero_le _, hfifo⟩

theorem Reads.unique {r : ReadM β} {bits : List Bool} {b b' : β} (h : Reads r bits b)
    (h' : Reads r bits b') : b = b' := by
  obtain ⟨fifo, rest, hat⟩ := exists_stream bits
  obtain ⟨t, ht, -⟩ := h _ _ _ _ hat
  obtain ⟨t', ht', -⟩ := h' _ _ _ _ hat
  rw [ht] at ht'
  cases ht'
  rfl

theorem Writes.roundTrips {strict : Prop} {w : WriteM α} {r : ReadM β} {Q : α → β → Prop} {a : α}
    {b : β} {bits : List Bool} (hw : Writes w a bits) (hr : Reads r bits b) (hQ : Q a b) :
    RoundTrips strict w r Q := by
  intro s hs
  obtain ⟨s', hs', happ⟩ := hw s hs
  rw [hs']
  exact ⟨bits, b, happ, hQ, hr⟩

/-- Where the bits and the values are known, the round trip says how the values are related. -/
theorem RoundTrips.rel {strict : Prop} {w : WriteM α} {r : ReadM β} {Q : α → β → Prop} {a : α}
    {b : β} {bits : List Bool} (h : RoundTrips strict w r Q) (hw : Writes w a bits)
    (hr : Reads r bits b) : Q a b := by
  obtain ⟨s', hs', happ⟩ := hw _ OutputBitstream.clear_wf
  have h := h _ OutputBitstream.clear_wf
  rw [hs'] at h
  obtain ⟨bits', b', happ', hQ, hr'⟩ := h
  have hbits : bits' = bits := by
    have heq := happ'.bits_eq.symm.trans happ.bits_eq
    exact List.append_cancel_left heq
  rw [hbits] at hr'
  rw [hr.unique hr']
  exact hQ

/-- Two relations that hold over a round trip hold of the same values. -/
theorem RoundTrips.both {w : WriteM α} {r : ReadM β} {Q R : α → β → Prop} (h : RoundTrips True w r Q)
    (h' : RoundTrips True w r R) : ∃ a b, Q a b ∧ R a b := by
  have h := h _ OutputBitstream.clear_wf
  have h' := h' _ OutputBitstream.clear_wf
  cases hw : w OutputBitstream.clear with
  | error e =>
    rw [hw] at h
    exact absurd trivial h
  | ok p =>
    rw [hw] at h h'
    obtain ⟨bits, b, happ, hQ, hr⟩ := h
    obtain ⟨bits', b', happ', hR, hr'⟩ := h'
    obtain rfl : bits' = bits := List.append_cancel_left (happ'.bits_eq.symm.trans happ.bits_eq)
    obtain rfl := hr.unique hr'
    exact ⟨_, b, hQ, hR⟩

/-! ## Rules for round trips -/

section
variable {strict : Prop} {w : WriteM α} {r : ReadM β} {Q R : α → β → Prop}

theorem RoundTrips.mono (h : RoundTrips strict w r Q) (hQ : ∀ a b, Q a b → R a b) :
    RoundTrips strict w r R := by
  intro s hs
  have h := h s hs
  cases hw : w s with
  | error e =>
    rw [hw] at h
    exact h
  | ok p =>
    rw [hw] at h
    obtain ⟨bits, b, happ, hab, hr⟩ := h
    exact ⟨bits, b, happ, hQ _ _ hab, hr⟩

theorem roundTrips_pure {a : α} {b : β} (h : Q a b) :
    RoundTrips strict (pure a : WriteM α) (pure b : ReadM β) Q :=
  (writes_pure a).roundTrips (reads_pure b) h

theorem roundTrips_bind {f : α → WriteM γ} {g : β → ReadM δ} {S : γ → δ → Prop}
    (h : RoundTrips strict w r Q) (hf : ∀ a b, Q a b → RoundTrips strict (f a) (g b) S) :
    RoundTrips strict (w >>= f) (r >>= g) S := by
  intro s hs
  change match (w s >>= fun p => f p.1 p.2 : Checked (γ × OutputBitstream)) with
    | .error _ => ¬strict
    | .ok (c, s') => ∃ bits d, Appends s s' bits ∧ S c d ∧ Reads (r >>= g) bits d
  have h := h s hs
  cases hw : w s with
  | error e =>
    rw [hw] at h
    exact h
  | ok p =>
    rw [hw] at h
    obtain ⟨xs, b, happ, hab, hr⟩ := h
    have hf := hf p.1 b hab p.2 happ.wf
    rw [ok_bind]
    cases hfp : f p.1 p.2 with
    | error e =>
      rw [hfp] at hf
      exact hf
    | ok q =>
      rw [hfp] at hf
      obtain ⟨ys, d, happ', hcd, hg⟩ := hf
      exact ⟨xs ++ ys, d, happ.trans happ', hcd, reads_bind hr hg⟩

/-- A computation of the writer alone. -/
theorem roundTrips_lift_left {c : Checked α} {f : α → WriteM γ} {g : ReadM δ} {S : γ → δ → Prop}
    (herror : ∀ e, c = .error e → ¬strict) (h : ∀ a, c = .ok a → RoundTrips strict (f a) g S) :
    RoundTrips strict ((liftM c : WriteM α) >>= f) g S := by
  cases hc : c with
  | error e => exact fun s hs => herror e hc
  | ok a => exact h a hc

/-- A check of the writer alone. -/
theorem roundTrips_check {c : Prop} [Decidable c] {msg : String} {f : Unit → WriteM α}
    (hstrict : c → ¬strict) (h : ¬c → RoundTrips strict (f ()) r Q) :
    RoundTrips strict ((liftM (check c msg) : WriteM Unit) >>= f) r Q := by
  refine roundTrips_lift_left (fun e he => hstrict ?_) fun _ ha => h (check_eq_ok ha)
  by_contra hc
  rw [check_ok msg hc] at he
  cases he

/-- What the reader computes without reading. -/
theorem RoundTrips.then_right {g : β → ReadM δ} {S : α → δ → Prop} (h : RoundTrips strict w r Q)
    (hg : ∀ a b, Q a b → ∃ d, g b = pure d ∧ S a d) : RoundTrips strict w (r >>= g) S := by
  intro s hs
  have h := h s hs
  cases hw : w s with
  | error e =>
    rw [hw] at h
    exact h
  | ok p =>
    rw [hw] at h
    obtain ⟨bits, b, happ, hab, hr⟩ := h
    obtain ⟨d, hd, hS⟩ := hg _ b hab
    exact ⟨bits, d, happ, hS, hr.silent (hd ▸ reads_pure d)⟩

/-- What the writer computes without writing. -/
theorem RoundTrips.then_left {f : α → WriteM γ} {S : γ → β → Prop} (h : RoundTrips strict w r Q)
    (hf : ∀ a b, Q a b → ∃ c, f a = pure c ∧ S c b) : RoundTrips strict (w >>= f) r S := by
  have hbind := roundTrips_bind (f := f) (g := fun b => (pure b : ReadM β)) (S := S) h fun a b hab => by
    obtain ⟨c, hc, hS⟩ := hf a b hab
    rw [hc]
    exact roundTrips_pure hS
  rwa [bind_pure] at hbind

/-- A writer that may throw has to be followed only where it does not. -/
theorem roundTrips_of_accepts (h : ∀ s p, w s = .ok p → RoundTrips False w r Q) :
    RoundTrips False w r Q := by
  intro s hs
  cases hw : w s with
  | error e => exact not_false
  | ok p =>
    have h := h s p hw s hs
    rwa [hw] at h

theorem roundTrips_ite {c d : Prop} [Decidable c] [Decidable d] {w' : WriteM α} {r' : ReadM β}
    (hiff : c ↔ d) (h : c → RoundTrips strict w r Q) (h' : ¬c → RoundTrips strict w' r' Q) :
    RoundTrips strict (if c then w else w') (if d then r else r') Q := by
  by_cases hc : c
  · rw [if_pos hc, if_pos (hiff.mp hc)]
    exact h hc
  · rw [if_neg hc, if_neg (mt hiff.mpr hc)]
    exact h' hc

/-- Loops of as many rounds, with an invariant that relates the two states. -/
theorem roundTrips_loop {n : ℕ} {f : ℕ → α → WriteM α} {g : ℕ → β → ReadM β}
    {P : ℕ → α → β → Prop} {a : α} {b : β} (hinit : P 0 a b)
    (hstep : ∀ i < n, ∀ a b, P i a b → RoundTrips strict (f i a) (g i b) (P (i + 1))) :
    RoundTrips strict (loop f n a) (loop g n b) (P n) := by
  induction n with
  | zero => exact roundTrips_pure hinit
  | succ n ih =>
    exact roundTrips_bind (ih fun i hi => hstep i (Nat.lt_succ_of_lt hi))
      (hstep n (Nat.lt_succ_self n))

end

/-! ## The codes -/

/-- A writer without a result. -/
theorem writes_of_appends {w : OutputBitstream → Checked OutputBitstream} {bits : List Bool}
    (h : ∀ s : OutputBitstream, s.WF → ∃ s', w s = .ok s' ∧ Appends s s' bits) :
    Writes (fun s => do let s ← w s; return ((), s)) () bits := by
  intro s hs
  obtain ⟨s', hs', happ⟩ := h s hs
  exact ⟨s', by dsimp only; rw [hs']; rfl, happ⟩

theorem writes_code {v n : ℕ} (h1 : 1 ≤ n) (h32 : n ≤ 32) (hv : v < 2 ^ n) :
    Writes (WRITE_CODE v n) () (toBits n v) :=
  writes_of_appends fun _ hs => xWriteCode_ok hs h1 h32 hv

theorem writes_flag (b : Bool) : Writes (WRITE_FLAG b) () [b] :=
  writes_of_appends fun _ hs => xWriteFlag_ok hs b

theorem writes_uvlc {v : ℕ} (hv : v + 1 < 2 ^ 32) : Writes (WRITE_UVLC v) () (uvlc v) :=
  writes_of_appends fun _ hs => xWriteUvlc_ok hs hv

theorem reads_code {v n : ℕ} (h1 : 1 ≤ n) (h32 : n ≤ 32) (hv : v < 2 ^ n) :
    Reads (READ_CODE n) (toBits n v) v :=
  fun _ _ _ _ h => xReadCode_ok h h1 h32 hv

theorem reads_flag (b : Bool) : Reads READ_FLAG [b] b := fun _ _ _ _ h => xReadFlag_ok h

theorem reads_uvlc {v : ℕ} (hv : v + 1 < 2 ^ 32) : Reads READ_UVLC (uvlc v) v :=
  fun _ _ _ _ h => xReadUvlc_ok h hv

theorem roundTrips_code {strict : Prop} {v n : ℕ} (h1 : 1 ≤ n) (h32 : n ≤ 32) (hv : v < 2 ^ n) :
    RoundTrips strict (WRITE_CODE v n) (READ_CODE n) fun _ u => u = v :=
  (writes_code h1 h32 hv).roundTrips (reads_code h1 h32 hv) rfl

/-- What `write` accepts of an `uint32_t`. -/
theorem write_eq_ok {s s' : OutputBitstream} {v n : ℕ} (hv : v < 2 ^ 32) (h : s.write v n = .ok s') :
    n ≤ 32 ∧ v < 2 ^ n := by
  obtain ⟨_, hle, h⟩ := bind_eq_ok h
  obtain ⟨_, hfit, _⟩ := bind_eq_ok h
  refine ⟨Nat.le_of_not_gt (check_eq_ok hle), ?_⟩
  by_cases h32 : n = 32
  · rwa [h32]
  · have hfit := check_eq_ok hfit
    rw [Nat.shiftRight_eq_div_pow, not_and_or, not_not, not_not] at hfit
    rcases hfit with hfit | hfit
    · exact absurd hfit h32
    · exact (Nat.div_eq_zero_iff_lt (Nat.two_pow_pos n)).mp hfit

/-- A code that the writer accepts. -/
theorem roundTrips_code_accepted {v n : ℕ} (hv : v < 2 ^ 32) :
    RoundTrips False (WRITE_CODE v n) (READ_CODE n) fun _ u => u = v := by
  refine roundTrips_of_accepts fun s p h => ?_
  obtain ⟨s', hs', _⟩ := bind_eq_ok h
  obtain ⟨_, hlen, hwrite⟩ := bind_eq_ok hs'
  obtain ⟨h32, hvn⟩ := write_eq_ok hv hwrite
  exact roundTrips_code (Nat.one_le_iff_ne_zero.mpr (check_eq_ok hlen)) h32 hvn

theorem roundTrips_flag {strict : Prop} (b : Bool) :
    RoundTrips strict (WRITE_FLAG b) READ_FLAG fun _ c => c = b :=
  (writes_flag b).roundTrips (reads_flag b) rfl

theorem roundTrips_uvlc {strict : Prop} {v : ℕ} (hv : v + 1 < 2 ^ 32) :
    RoundTrips strict (WRITE_UVLC v) READ_UVLC fun _ u => u = v :=
  (writes_uvlc hv).roundTrips (reads_uvlc hv) rfl

theorem roundTrips_uvlc_accepted {v : ℕ} (hv : v < 2 ^ 32) :
    RoundTrips False (WRITE_UVLC v) READ_UVLC fun _ u => u = v := by
  refine roundTrips_of_accepts fun s p h => ?_
  obtain ⟨s', hs', _⟩ := bind_eq_ok h
  obtain ⟨_, hzero, _⟩ := bind_eq_ok hs'
  have hzero := check_eq_ok hzero
  refine roundTrips_uvlc (Nat.lt_of_le_of_ne hv fun heq => hzero ?_)
  rw [heq]
  rfl

end ECM.Hls
