import ECM.CommonLib.BitStream

/-! # Looking ahead in a bit stream

`pseudoRead` runs `read` and puts the stream back; the count of the bits read is a
field of its own, which only `read` moves. -/

namespace ECM.CommonLib.BitStream
open Lib.Bits

/-- An `InputBitstream` with `m_numBitsRead`. -/
structure CountingBitstream extends InputBitstream where
  m_numBitsRead : Nat
deriving DecidableEq, Repr

namespace CountingBitstream

def getNumBitsRead (s : CountingBitstream) : Nat := s.m_numBitsRead

def read (s : CountingBitstream) (uiNumberOfBits : Nat) : Checked (Nat × CountingBitstream) := do
  let (ruiBits, t) ← s.toInputBitstream.read uiNumberOfBits
  return (ruiBits, ⟨t, u32 (s.m_numBitsRead + uiNumberOfBits)⟩)

def pseudoRead (s : CountingBitstream) (uiNumberOfBits : Nat) : Checked (Nat × CountingBitstream) := do
  let saved_num_held_bits := s.numHeldBits
  let saved_held_bits := s.heldBits
  let saved_fifo_idx := s.fifoIdx
  let num_bits_to_read := min uiNumberOfBits s.getNumBitsLeft
  let (ruiBits, s) ← s.read num_bits_to_read
  return (u32 (ruiBits <<< (uiNumberOfBits - num_bits_to_read)), { s with
    fifoIdx := saved_fifo_idx
    heldBits := saved_held_bits
    numHeldBits := saved_num_held_bits })

def peekBits (s : CountingBitstream) (uiBits : Nat) : Checked (Nat × CountingBitstream) :=
  s.pseudoRead uiBits

/-- The stream with four zero bytes at its end. -/
def extended (s : CountingBitstream) : CountingBitstream := { s with fifo := s.fifo ++ [0, 0, 0, 0] }

/-- The counters of the stream are in order, the one of the bits read as an `uint32_t`. -/
structure InOrder (s : CountingBitstream) : Prop where
  few : s.numHeldBits < 8
  inside : s.fifoIdx ≤ s.fifo.length
  numBitsRead_lt : s.m_numBitsRead < 2 ^ 32

/-- Nothing that can be observed of the stream is different. -/
structure Untouched (s t : CountingBitstream) : Prop where
  fifoIdx : t.fifoIdx = s.fifoIdx
  heldBits : t.heldBits = s.heldBits
  numHeldBits : t.numHeldBits = s.numHeldBits
  numBitsLeft : t.getNumBitsLeft = s.getNumBitsLeft
  numBitsRead : t.getNumBitsRead = s.getNumBitsRead

/-! ## What a look ahead does -/

variable {s : CountingBitstream} {n : Nat}

theorem getNumBitsLeft_eq (s : CountingBitstream) : s.getNumBitsLeft = u32 s.unread.length := by
  rw [InputBitstream.length_unread, InputBitstream.getNumBitsLeft, Nat.add_comm]

/-- Everything is put back but the count of the bits read. -/
theorem pseudoRead_spec (h : s.InOrder) (hn : n ≤ 32) :
    ∃ m, m = min n s.getNumBitsLeft ∧
      s.pseudoRead n = .ok (ofBits (s.unread.take m) <<< (n - m),
        { s with m_numBitsRead := u32 (s.m_numBitsRead + m) }) := by
  obtain ⟨m, hm⟩ : ∃ m, m = min n s.getNumBitsLeft := ⟨_, rfl⟩
  refine ⟨m, hm, ?_⟩
  have hle : m ≤ n := hm ▸ Nat.min_le_left _ _
  have hleft : m ≤ s.unread.length := by
    refine (hm ▸ Nat.min_le_right _ _ : m ≤ s.getNumBitsLeft).trans ?_
    rw [getNumBitsLeft_eq]
    exact Nat.mod_le _ _
  obtain ⟨t, ht, hadv⟩ := InputBitstream.read_spec h.few (Nat.le_trans hle hn) hleft h.inside
  have hlt : ofBits (s.unread.take m) <<< (n - m) < 2 ^ 32 := by
    have hbits := ofBits_lt (s.unread.take m)
    rw [List.length_take, Nat.min_eq_left hleft] at hbits
    rw [Nat.shiftLeft_eq]
    calc ofBits (s.unread.take m) * 2 ^ (n - m)
        < 2 ^ m * 2 ^ (n - m) := Nat.mul_lt_mul_of_pos_right hbits (Nat.two_pow_pos _)
      _ = 2 ^ n := by rw [← Nat.pow_add, Nat.add_sub_cancel' hle]
      _ ≤ 2 ^ 32 := Nat.pow_le_pow_right (by decide) hn
  have hrun : s.pseudoRead n = .ok (u32 (ofBits (s.unread.take m) <<< (n - m)),
      ⟨{ t with fifoIdx := s.fifoIdx, heldBits := s.heldBits, numHeldBits := s.numHeldBits },
        u32 (s.m_numBitsRead + m)⟩) := by
    rw [pseudoRead, read, ← hm, ht]
    rfl
  have hback : { t with fifoIdx := s.fifoIdx, heldBits := s.heldBits, numHeldBits := s.numHeldBits } =
      s.toInputBitstream := by
    rw [hadv.fifo_eq, hadv.locations_eq]
  rw [hrun, u32_of_lt hlt, hback]

/-- What `read` makes of the extended stream. -/
theorem extended_read (h : s.InOrder) (hn : n ≤ 32) :
    ∃ u, s.extended.read n = .ok (ofBits ((s.unread ++ List.replicate 32 false).take n), u) := by
  have hunread : s.extended.unread = s.unread ++ List.replicate 32 false := by
    have hdrop : (s.fifo ++ [0, 0, 0, 0]).drop s.fifoIdx = s.fifo.drop s.fifoIdx ++ [0, 0, 0, 0] :=
      List.drop_append_of_le_length h.inside
    have hzero : bytesBits [0, 0, 0, 0] = List.replicate 32 false := by decide
    rw [InputBitstream.unread, InputBitstream.unread, extended, hdrop, bytesBits_append, hzero,
      List.append_assoc]
  have hinside : s.extended.fifoIdx ≤ s.extended.fifo.length := by
    have := h.inside
    rw [extended, List.length_append]
    exact Nat.le_add_right_of_le this
  have hlen : n ≤ s.extended.unread.length := by
    rw [hunread, List.length_append, List.length_replicate]
    exact Nat.le_add_left_of_le hn
  obtain ⟨t, ht, -⟩ := @InputBitstream.read_spec s.extended.toInputBitstream h.few n hn hlen hinside
  exact ⟨_, by rw [read, ht, hunread]; rfl⟩

/-- A bit string spells zero if and only if it has no one bit. -/
theorem ofBits_eq_zero_iff (bs : List Bool) : ofBits bs = 0 ↔ ∀ b ∈ bs, b = false := by
  constructor
  · intro h
    have hzero : bs = List.replicate bs.length false :=
      ofBits_inj (List.length_replicate.symm) (h.trans (ofBits_replicate_false _).symm)
    exact fun b hb => List.eq_of_mem_replicate (hzero ▸ hb)
  · intro h
    rw [List.eq_replicate_of_mem h, ofBits_replicate_false]

/-- A look ahead leaves the stream as it was and returns what `read` would, if and only if
it looks at no bit: it is asked for none, or `getNumBitsLeft` is zero and nothing but zero
bits is to come. -/
theorem peekBits_untouched_iff (h : s.InOrder) (hn : n ≤ 32) :
    (∃ v t u, s.peekBits n = .ok (v, t) ∧ s.Untouched t ∧ s.extended.read n = .ok (v, u)) ↔
      n = 0 ∨ s.getNumBitsLeft = 0 ∧ ∀ b ∈ s.unread.take n, b = false := by
  obtain ⟨m, hm, hpeek⟩ := pseudoRead_spec h hn
  obtain ⟨u, hread⟩ := extended_read h hn
  have hcount : u32 (s.m_numBitsRead + m) = s.m_numBitsRead ↔ m = 0 := by
    have hlt := h.numBitsRead_lt
    rw [u32]
    omega
  have hzeros : ofBits ((s.unread ++ List.replicate 32 false).take n) = 0 ↔
      ∀ b ∈ s.unread.take n, b = false := by
    rw [ofBits_eq_zero_iff, List.take_append]
    simp only [List.mem_append, or_imp, forall_and, and_iff_left_iff_imp]
    exact fun _ b hb => List.eq_of_mem_replicate (List.mem_of_mem_take hb)
  constructor
  · rintro ⟨v, t, u', hv, huntouched, hu'⟩
    rw [peekBits, hpeek] at hv
    cases hv
    have hm0 : m = 0 := hcount.mp huntouched.numBitsRead
    rw [hread] at hu'
    have hvalue := congrArg Prod.fst (Except.ok.inj hu')
    rw [hm0, List.take_zero, ofBits_nil, Nat.zero_shiftLeft] at hvalue
    by_cases h0 : n = 0
    · exact Or.inl h0
    · exact Or.inr ⟨by omega, hzeros.mp hvalue⟩
  · intro hcond
    have hm0 : m = 0 := by
      rcases hcond with h0 | ⟨h0, -⟩ <;> omega
    have hvalue : ofBits ((s.unread ++ List.replicate 32 false).take n) = 0 := by
      rcases hcond with rfl | ⟨-, hbits⟩
      · rw [List.take_zero, ofBits_nil]
      · exact hzeros.mpr hbits
    rw [hm0, List.take_zero, ofBits_nil, Nat.zero_shiftLeft] at hpeek
    rw [hvalue] at hread
    exact ⟨0, _, u, hpeek, ⟨rfl, rfl, rfl, rfl, by rw [hm0] at hcount; exact hcount.mpr rfl⟩, hread⟩

/-- The only byte of the stream. -/
def oneByte : CountingBitstream := ⟨.ofFifo [0x80], 0⟩

/-- At the end of the stream a look ahead finds zeros. -/
theorem peekBits_at_end : ∃ v t u, CountingBitstream.peekBits ⟨⟨[0x80], [], 1, 0, 0x80⟩, 8⟩ 4 = .ok (v, t) ∧
    CountingBitstream.Untouched ⟨⟨[0x80], [], 1, 0, 0x80⟩, 8⟩ t ∧
    (CountingBitstream.extended ⟨⟨[0x80], [], 1, 0, 0x80⟩, 8⟩).read 4 = .ok (v, u) :=
  (peekBits_untouched_iff ⟨by decide, by decide, by decide⟩ (by decide)).mpr
    (Or.inr ⟨by decide, by decide⟩)

/-- A look at the first bit counts as one bit read. -/
theorem peekBits_counts : (∃ v t, oneByte.peekBits 1 = .ok (v, t) ∧ oneByte.getNumBitsRead = 0 ∧
      t.getNumBitsRead = 1) ∧
    ¬∃ v t u, oneByte.peekBits 1 = .ok (v, t) ∧ oneByte.Untouched t ∧
      oneByte.extended.read 1 = .ok (v, u) := by
  have hpeek : oneByte.peekBits 1 = .ok (1, ⟨.ofFifo [0x80], 1⟩) := by decide
  refine ⟨⟨_, _, hpeek, rfl, rfl⟩, ?_⟩
  rintro ⟨v, t, u, hv, huntouched, -⟩
  rw [hpeek] at hv
  cases hv
  exact absurd huntouched.numBitsRead (by decide)

end CountingBitstream

end ECM.CommonLib.BitStream
