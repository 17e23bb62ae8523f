import ECM.CommonLib.TypeDef
import ECM.Lib.Bits

/-! # Bit streams

`OutputBitstream` collects bits into bytes, `InputBitstream` hands bytes out.
The bits of an output stream are those of its complete bytes followed by the
held ones (`bits`); `write` appends to them (`write_spec`). -/

namespace ECM.CommonLib.BitStream
open Lib.Bits

/-! ## Output -/

structure OutputBitstream where
  fifo : List UInt8
  numHeldBits : Nat
  /-- The bits not flushed yet, aligned to the most significant bit. -/
  heldBits : UInt8
deriving DecidableEq, Repr

namespace OutputBitstream

def clear : OutputBitstream := ⟨[], 0, 0⟩

/-- The bytes `write` pushes: the low `numBytes` bytes of `writeBits`. -/
def pushedBytes (writeBits numBytes : Nat) : List UInt8 :=
  match numBytes with
  | 4 => [.ofNat (writeBits >>> 24), .ofNat (writeBits >>> 16), .ofNat (writeBits >>> 8),
      .ofNat writeBits]
  | 3 => [.ofNat (writeBits >>> 16), .ofNat (writeBits >>> 8), .ofNat writeBits]
  | 2 => [.ofNat (writeBits >>> 8), .ofNat writeBits]
  | 1 => [.ofNat writeBits]
  | _ => []

def write (s : OutputBitstream) (uiBits uiNumberOfBits : Nat) : Checked OutputBitstream := do
  check (uiNumberOfBits > 32) "Number of bits is exceeds '32'"
  -- `uiBits & (~0 << uiNumberOfBits)`: a bit above the ones to write
  check (uiNumberOfBits ≠ 32 ∧ uiBits >>> uiNumberOfBits ≠ 0) "Unsupported parameters"
  let numTotalBits := uiNumberOfBits + s.numHeldBits
  let nextNumHeldBits := numTotalBits % 8
  let nextHeldBits := UInt8.ofNat (uiBits <<< (8 - nextNumHeldBits))
  if numTotalBits >>> 3 = 0 then
    return { s with heldBits := s.heldBits ||| nextHeldBits, numHeldBits := nextNumHeldBits }
  -- `& ~7` clears the three low bits
  let topword := (uiNumberOfBits - nextNumHeldBits) >>> 3 <<< 3
  let writeBits := u32 (s.heldBits.toNat <<< topword) ||| uiBits >>> nextNumHeldBits
  return { fifo := s.fifo ++ pushedBytes writeBits (numTotalBits >>> 3)
           numHeldBits := nextNumHeldBits
           heldBits := nextHeldBits }

def writeAlignZero (s : OutputBitstream) : OutputBitstream :=
  if s.numHeldBits = 0 then s else { fifo := s.fifo ++ [s.heldBits], numHeldBits := 0, heldBits := 0 }

def writeByteAlignment (s : OutputBitstream) : Checked OutputBitstream := do
  let s ← s.write 1 1
  return s.writeAlignZero

def getNumBitsUntilByteAligned (s : OutputBitstream) : Nat := (8 - s.numHeldBits) % 8

def getNumberOfWrittenBits (s : OutputBitstream) : Nat := u32 (u32 s.fifo.length * 8 + s.numHeldBits)

/-- The loops of `countStartCodeEmulations`: two zero bytes with a third byte
behind them are found, and the search goes on at the third. -/
def emulations : List UInt8 → Nat
  | a :: b :: c :: rbsp =>
    if a = 0 ∧ b = 0 then (if c ≤ 3 then 1 else 0) + emulations (c :: rbsp)
    else emulations (b :: c :: rbsp)
  | _ => 0

def countStartCodeEmulations (s : OutputBitstream) : Nat := emulations s.fifo

/-- The bits written since the last `clear`. -/
def bits (s : OutputBitstream) : List Bool :=
  bytesBits s.fifo ++ toBits s.numHeldBits (s.heldBits.toNat / 2 ^ (8 - s.numHeldBits))

/-- Less than a byte is held, and the unused part of the held byte is zero. -/
structure WF (s : OutputBitstream) : Prop where
  few : s.numHeldBits < 8
  unused : s.heldBits.toNat % 2 ^ (8 - s.numHeldBits) = 0

theorem clear_wf : clear.WF := ⟨by decide, by decide⟩

@[simp] theorem bits_clear : clear.bits = [] := rfl

theorem length_bits (s : OutputBitstream) : s.bits.length = 8 * s.fifo.length + s.numHeldBits := by
  simp [bits]

theorem getNumberOfWrittenBits_eq (s : OutputBitstream) :
    s.getNumberOfWrittenBits = u32 s.bits.length := by
  rw [length_bits, getNumberOfWrittenBits, u32, u32, u32]
  omega

/-- The held byte from its used bits. -/
theorem WF.held {s : OutputBitstream} (h : s.WF) :
    s.heldBits.toNat = 2 ^ (8 - s.numHeldBits) * (s.heldBits.toNat / 2 ^ (8 - s.numHeldBits)) := by
  have := Nat.div_add_mod s.heldBits.toNat (2 ^ (8 - s.numHeldBits))
  rw [h.unused] at this
  omega

theorem WF.held_lt {s : OutputBitstream} (h : s.WF) :
    s.heldBits.toNat / 2 ^ (8 - s.numHeldBits) < 2 ^ s.numHeldBits := by
  rw [Nat.div_lt_iff_lt_mul (Nat.two_pow_pos _), ← Nat.pow_add]
  have h8 : s.numHeldBits + (8 - s.numHeldBits) = 8 := by have := h.few; omega
  rw [h8]
  exact s.heldBits.toNat_lt

theorem bytesBits_pushedBytes (w : Nat) {q : Nat} (hq : q ≤ 4) :
    bytesBits (pushedBytes w q) = toBits (8 * q) w := by
  have h : q = 0 ∨ q = 1 ∨ q = 2 ∨ q = 3 ∨ q = 4 := by omega
  rcases h with rfl | rfl | rfl | rfl | rfl
  · rfl
  · simp [pushedBytes, byteBits_ofNat]
  · simp [pushedBytes, byteBits_ofNat, toBits_add 8 8, Nat.shiftRight_eq_div_pow]
  · simp [pushedBytes, byteBits_ofNat, toBits_add 8 16, toBits_add 8 8, Nat.shiftRight_eq_div_pow]
  · simp [pushedBytes, byteBits_ofNat, toBits_add 8 24, toBits_add 8 16, toBits_add 8 8,
      Nat.shiftRight_eq_div_pow]

/-- The bits a fresh held byte keeps of `v`. -/
theorem toBits_heldByte (v : Nat) {k : Nat} (hk : k < 8) :
    toBits k ((UInt8.ofNat (v <<< (8 - k))).toNat / 2 ^ (8 - k)) = toBits k v := by
  have hp : 2 ^ 8 = 2 ^ (8 - k) * 2 ^ k := by rw [← Nat.pow_add]; congr 1; omega
  rw [UInt8.toNat_ofNat', Nat.shiftLeft_eq, hp, Nat.mul_comm v, Nat.mul_mod_mul_left,
    Nat.mul_div_cancel_left _ (Nat.two_pow_pos _)]
  exact toBits_mod k v

theorem heldByte_unused (v : Nat) {k : Nat} (hk : k < 8) :
    (UInt8.ofNat (v <<< (8 - k))).toNat % 2 ^ (8 - k) = 0 := by
  have hp : 2 ^ 8 = 2 ^ (8 - k) * 2 ^ k := by rw [← Nat.pow_add]; congr 1; omega
  rw [UInt8.toNat_ofNat', Nat.shiftLeft_eq, hp, Nat.mul_comm v, Nat.mul_mod_mul_left]
  exact Nat.mul_mod_right _ _

/-- `write` when the new bits still fit beside the held ones. -/
theorem write_hold {s : OutputBitstream} (hs : s.WF) {v n : Nat} (hv : v < 2 ^ n)
    (hn : n + s.numHeldBits < 8) :
    ∃ s', s.write v n = .ok s' ∧ s'.WF ∧ s'.bits = s.bits ++ toBits n v := by
  obtain ⟨hfew, hunused⟩ := hs
  have hq : (n + s.numHeldBits) >>> 3 = 0 := by rw [Nat.shiftRight_eq_div_pow]; omega
  have hmod : (n + s.numHeldBits) % 8 = n + s.numHeldBits := Nat.mod_eq_of_lt hn
  refine ⟨{ s with heldBits := s.heldBits ||| UInt8.ofNat (v <<< (8 - (n + s.numHeldBits))),
                    numHeldBits := n + s.numHeldBits }, ?_, ?_⟩
  · simp [write, check_ok, show ¬ n > 32 by omega, Nat.shiftRight_eq_div_pow, Nat.div_eq_of_lt hv,
      hmod, Nat.div_eq_of_lt hn, pure, Except.pure]
  -- the held byte is `H` shifted up, so or-ing the new bits below it adds them
  set H := s.heldBits.toNat / 2 ^ (8 - s.numHeldBits) with hH
  have hp : 2 ^ (8 - s.numHeldBits) = 2 ^ n * 2 ^ (8 - (n + s.numHeldBits)) := by
    rw [← Nat.pow_add]; congr 1; omega
  have hnew : v * 2 ^ (8 - (n + s.numHeldBits)) < 2 ^ (8 - s.numHeldBits) := by
    rw [hp]; exact Nat.mul_lt_mul_of_pos_right hv (Nat.two_pow_pos _)
  have hsmall : v * 2 ^ (8 - (n + s.numHeldBits)) < 2 ^ 8 :=
    lt_of_lt_of_le hnew (Nat.pow_le_pow_right (by omega) (by omega))
  have hor : (s.heldBits ||| UInt8.ofNat (v <<< (8 - (n + s.numHeldBits)))).toNat =
      (H * 2 ^ n + v) * 2 ^ (8 - (n + s.numHeldBits)) := by
    rw [UInt8.toNat_or, UInt8.toNat_ofNat', Nat.shiftLeft_eq, Nat.mod_eq_of_lt hsmall,
      WF.held ⟨hfew, hunused⟩, ← Nat.two_pow_add_eq_or_of_lt hnew, ← hH, hp]
    ring
  refine ⟨⟨hn, ?_⟩, ?_⟩
  · show (s.heldBits ||| _).toNat % _ = 0
    rw [hor]
    exact Nat.mul_mod_left _ _
  · simp only [bits]
    rw [hor, Nat.mul_div_cancel _ (Nat.two_pow_pos _), Nat.add_comm n, toBits_add,
      Nat.mul_comm H, Nat.mul_add_div (Nat.two_pow_pos _), Nat.div_eq_of_lt hv, Nat.add_zero,
      List.append_assoc]
    congr 2
    rw [← toBits_mod, Nat.mul_add_mod, toBits_mod]

/-- `write` when at least one byte is complete. -/
theorem write_push {s : OutputBitstream} (hs : s.WF) {v n : Nat} (hn32 : n ≤ 32) (hv : v < 2 ^ n)
    (hn : 8 ≤ n + s.numHeldBits) :
    ∃ s', s.write v n = .ok s' ∧ s'.WF ∧ s'.bits = s.bits ++ toBits n v := by
  have hfew := hs.few
  obtain ⟨q, hq⟩ : ∃ q, q = (n + s.numHeldBits) / 8 := ⟨_, rfl⟩
  obtain ⟨next, hnext⟩ : ∃ k, k = (n + s.numHeldBits) % 8 := ⟨_, rfl⟩
  have hsum : n + s.numHeldBits = 8 * q + next := by omega
  have hk : next < 8 := by omega
  set H := s.heldBits.toNat / 2 ^ (8 - s.numHeldBits) with hH
  have hHlt : H < 2 ^ s.numHeldBits := hs.held_lt
  have hvn : v / 2 ^ next < 2 ^ (8 * q - s.numHeldBits) := by
    rw [Nat.div_lt_iff_lt_mul (Nat.two_pow_pos _), ← Nat.pow_add]
    rwa [show 8 * q - s.numHeldBits + next = n by omega]
  -- the held bits land just above the new ones
  have htop : s.heldBits.toNat <<< ((n - next) >>> 3 <<< 3) = 2 ^ (8 * q - s.numHeldBits) * H := by
    rw [Nat.shiftLeft_eq, hs.held, ← hH]
    by_cases h0 : s.numHeldBits = 0
    · have hH0 : H = 0 := by rw [h0, Nat.pow_zero] at hHlt; exact Nat.lt_one_iff.mp hHlt
      simp [hH0]
    · have ht : (n - next) >>> 3 <<< 3 = 8 * q - 8 := by
        rw [Nat.shiftLeft_eq, Nat.shiftRight_eq_div_pow]; omega
      rw [ht, Nat.mul_right_comm, ← Nat.pow_add]
      congr 2
      omega
  have hlt : 2 ^ (8 * q - s.numHeldBits) * H < 2 ^ 32 := by
    calc 2 ^ (8 * q - s.numHeldBits) * H
        < 2 ^ (8 * q - s.numHeldBits) * 2 ^ s.numHeldBits :=
          Nat.mul_lt_mul_of_pos_left hHlt (Nat.two_pow_pos _)
      _ = 2 ^ (8 * q) := by rw [← Nat.pow_add]; congr 1; omega
      _ ≤ 2 ^ 32 := Nat.pow_le_pow_right (by omega) (by omega)
  refine ⟨{ fifo := s.fifo ++ pushedBytes (2 ^ (8 * q - s.numHeldBits) * H + v / 2 ^ next) q
            numHeldBits := next
            heldBits := UInt8.ofNat (v <<< (8 - next)) }, ?_, ⟨hk, heldByte_unused v hk⟩, ?_⟩
  · have hq3 : (n + s.numHeldBits) >>> 3 = q := by rw [Nat.shiftRight_eq_div_pow]; omega
    have hfit : ¬ (n ≠ 32 ∧ v >>> n ≠ 0) := by
      rw [Nat.shiftRight_eq_div_pow, Nat.div_eq_of_lt hv]; simp
    rw [write, check_ok _ (show ¬ n > 32 by omega), ok_bind, check_ok _ hfit, ok_bind]
    simp only [← hnext, hq3, show q ≠ 0 by omega, if_false, htop, u32_of_lt hlt,
      Nat.shiftRight_eq_div_pow v next, ← Nat.two_pow_add_eq_or_of_lt hvn]
    rfl
  · have hsplit : toBits n v = toBits (8 * q - s.numHeldBits) (v / 2 ^ next) ++ toBits next v := by
      rw [← toBits_add]; congr 1; omega
    have hword : toBits (8 * q) (2 ^ (8 * q - s.numHeldBits) * H + v / 2 ^ next) =
        toBits s.numHeldBits H ++ toBits (8 * q - s.numHeldBits) (v / 2 ^ next) := by
      rw [show 8 * q = s.numHeldBits + (8 * q - s.numHeldBits) by omega, toBits_add]
      rw [show s.numHeldBits + (8 * q - s.numHeldBits) - s.numHeldBits = 8 * q - s.numHeldBits by omega,
        Nat.mul_add_div (Nat.two_pow_pos _), Nat.div_eq_of_lt hvn, Nat.add_zero,
        ← toBits_mod (8 * q - s.numHeldBits), Nat.mul_add_mod, toBits_mod]
    simp only [bits, bytesBits_append, bytesBits_pushedBytes _ (show q ≤ 4 by omega), hword,
      toBits_heldByte v hk, hsplit, List.append_assoc, ← hH]

/-- `write` appends the `n` low bits of `v`, and no `CHECK` fires. -/
theorem write_spec {s : OutputBitstream} (hs : s.WF) {v n : Nat} (hn32 : n ≤ 32) (hv : v < 2 ^ n) :
    ∃ s', s.write v n = .ok s' ∧ s'.WF ∧ s'.bits = s.bits ++ toBits n v := by
  by_cases hn : n + s.numHeldBits < 8
  · exact write_hold hs hv hn
  · exact write_push hs hn32 hv (by omega)

/-- A stream whose bits are whole bytes has them all in its FIFO. -/
theorem WF.fifo_eq {s : OutputBitstream} (h : s.WF) {bs : List UInt8} (hb : s.bits = bytesBits bs) :
    s.numHeldBits = 0 ∧ s.fifo = bs := by
  have hlen := congrArg List.length hb
  rw [length_bits, length_bytesBits] at hlen
  have hfew := h.few
  have hzero : s.numHeldBits = 0 := by omega
  refine ⟨hzero, bytesBits_inj ?_⟩
  rw [← hb, bits, hzero]
  exact (List.append_nil _).symm

/-- Aligning completes the last byte with zero bits. -/
theorem writeAlignZero_spec {s : OutputBitstream} (hs : s.WF) :
    s.writeAlignZero.WF ∧ s.writeAlignZero.numHeldBits = 0 ∧
      s.writeAlignZero.bits = s.bits ++ List.replicate ((8 - s.numHeldBits) % 8) false := by
  by_cases h0 : s.numHeldBits = 0
  · simp [writeAlignZero, h0, hs]
  · have hfew := hs.few
    simp only [writeAlignZero, h0, if_false]
    refine ⟨⟨by simp, by simp⟩, trivial, ?_⟩
    have hpad : (8 - s.numHeldBits) % 8 = 8 - s.numHeldBits := Nat.mod_eq_of_lt (by omega)
    have hbyte : byteBits s.heldBits =
        toBits s.numHeldBits (s.heldBits.toNat / 2 ^ (8 - s.numHeldBits)) ++
          List.replicate (8 - s.numHeldBits) false := by
      have h8 : toBits 8 s.heldBits.toNat =
          toBits (s.numHeldBits + (8 - s.numHeldBits)) s.heldBits.toNat := by congr 1; omega
      rw [byteBits, h8, toBits_add]
      congr 1
      apply ofBits_inj (by simp)
      simp [hs.unused]
    simp [bits, hpad, hbyte, toBits]

/-- The stop bit and the padding. -/
theorem writeByteAlignment_spec {s : OutputBitstream} (hs : s.WF) :
    ∃ s', s.writeByteAlignment = .ok s' ∧ s'.numHeldBits = 0 ∧
      bytesBits s'.fifo = s.bits ++ true :: List.replicate ((7 - s.numHeldBits) % 8) false := by
  obtain ⟨t, ht, hwf, hbits⟩ := write_spec hs (show 1 ≤ 32 by omega) (show 1 < 2 ^ 1 by omega)
  obtain ⟨-, hzero, hpad⟩ := writeAlignZero_spec hwf
  refine ⟨t.writeAlignZero, by rw [writeByteAlignment, ht]; rfl, hzero, ?_⟩
  have hlen : 8 * t.fifo.length + t.numHeldBits = 8 * s.fifo.length + s.numHeldBits + 1 := by
    rw [← length_bits, hbits, List.length_append, length_bits, length_toBits]
  have hfew := hs.few
  have htfew := hwf.few
  have hcount : (8 - t.numHeldBits) % 8 = (7 - s.numHeldBits) % 8 := by omega
  have hall : t.writeAlignZero.bits = bytesBits t.writeAlignZero.fifo := by
    simp [bits, hzero, toBits]
  rw [← hall, hpad, hbits, hcount, List.append_assoc]
  rfl

end OutputBitstream

/-! ## Input -/

structure InputBitstream where
  fifo : List UInt8
  /-- Where `convertPayloadToRBSP` took bytes out of the FIFO. -/
  emulationPreventionByteLocation : List Nat
  fifoIdx : Nat
  numHeldBits : Nat
  /-- The bits not read yet are the low ones; those above are left over. -/
  heldBits : UInt8
deriving DecidableEq, Repr

namespace InputBitstream

def ofFifo (fifo : List UInt8) : InputBitstream := ⟨fifo, [], 0, 0, 0⟩

def readByte (s : InputBitstream) : Checked (UInt8 × InputBitstream) :=
  match s.fifo[s.fifoIdx]? with
  | none => .error "FIFO exceeded"
  | some b => .ok (b, { s with fifoIdx := s.fifoIdx + 1 })

def peekPreviousByte (s : InputBitstream) : Checked UInt8 :=
  if s.fifoIdx = 0 then .error "FIFO empty" else .ok (s.fifo.getD (s.fifoIdx - 1) 0)

def getNumBitsUntilByteAligned (s : InputBitstream) : Nat := s.numHeldBits % 8

def getByteLocation (s : InputBitstream) : Nat := s.fifoIdx

def getNumBitsLeft (s : InputBitstream) : Nat :=
  u32 (8 * (s.fifo.length - s.fifoIdx) + s.numHeldBits)

/-- `m_fifo[m_fifo_idx + i]`. -/
def byteAt (s : InputBitstream) (i : Nat) : Nat := (s.fifo.getD (s.fifoIdx + i) 0).toNat

/-- The `switch` of `read`. -/
def alignedWord (s : InputBitstream) (numBytesToLoad : Nat) : Nat :=
  match numBytesToLoad with
  | 3 => s.byteAt 0 <<< 24 ||| s.byteAt 1 <<< 16 ||| s.byteAt 2 <<< 8 ||| s.byteAt 3
  | 2 => s.byteAt 0 <<< 16 ||| s.byteAt 1 <<< 8 ||| s.byteAt 2
  | 1 => s.byteAt 0 <<< 8 ||| s.byteAt 1
  | _ => s.byteAt 0

def read (s : InputBitstream) (uiNumberOfBits : Nat) : Checked (Nat × InputBitstream) := do
  check (uiNumberOfBits > 32) "Too many bits read"
  if uiNumberOfBits ≤ s.numHeldBits then
    let retval := s.heldBits.toNat >>> (s.numHeldBits - uiNumberOfBits)
    return (retval &&& (0xffffffff ^^^ 0xff <<< uiNumberOfBits),
      { s with numHeldBits := s.numHeldBits - uiNumberOfBits })
  else
    let uiNumberOfBits := uiNumberOfBits - s.numHeldBits
    let retval := u32 ((s.heldBits.toNat &&& (0xffffffff ^^^ 0xff <<< s.numHeldBits)) <<< uiNumberOfBits)
    let numBytesToLoad := (uiNumberOfBits - 1) >>> 3
    check (s.fifoIdx + numBytesToLoad ≥ s.fifo.length) "Exceeded FIFO size"
    let alignedWord := s.alignedWord numBytesToLoad
    let nextNumHeldBits := (32 - uiNumberOfBits) % 8
    return (retval ||| alignedWord >>> nextNumHeldBits,
      { s with fifoIdx := s.fifoIdx + numBytesToLoad + 1, numHeldBits := nextNumHeldBits,
               heldBits := .ofNat alignedWord })

def readByteAlignment (s : InputBitstream) : Checked (Nat × InputBitstream) := do
  let (code, s) ← s.read 1
  check (code ≠ 1) "Code is not '1'"
  let numBits := s.getNumBitsUntilByteAligned
  if numBits ≠ 0 then
    check (numBits > s.getNumBitsLeft) "More bits available than left"
    let (code, s) ← s.read numBits
    check (code ≠ 0) "Code not '0'"
    return (numBits + 1, s)
  else return (numBits + 1, s)

/-- `read( 8, uiByte )`, `n` times. -/
def readBytes (s : InputBitstream) : (n : Nat) → Checked (List UInt8 × InputBitstream)
  | 0 => .ok ([], s)
  | n + 1 => do
    let (uiByte, s) ← s.read 8
    let (buf, s) ← s.readBytes n
    return (.ofNat uiByte :: buf, s)

/-- The whole bytes of `extractSubstream`; an aligned stream that is too short is
filled up with zeros. -/
def extractBytes (s : InputBitstream) (uiNumBytes : Nat) : Checked (List UInt8 × InputBitstream) :=
  if s.numHeldBits = 0 then
    let buf := (s.fifo.drop s.fifoIdx).take uiNumBytes
    .ok (buf ++ List.replicate (uiNumBytes - buf.length) 0, { s with fifoIdx := s.fifoIdx + buf.length })
  else s.readBytes uiNumBytes

def extractSubstream (s : InputBitstream) (uiNumBits : Nat) :
    Checked (InputBitstream × InputBitstream) := do
  let (buf, s) ← s.extractBytes (uiNumBits / 8)
  if uiNumBits &&& 0x7 ≠ 0 then
    let (uiByte, s) ← s.read (uiNumBits &&& 0x7)
    return (ofFifo (buf ++ [.ofNat (uiByte <<< (8 - (uiNumBits &&& 0x7)))]), s)
  else return (ofFifo buf, s)

theorem readByte_ok {s : InputBitstream} (h : s.fifoIdx < s.fifo.length) :
    s.readByte = .ok (s.fifo[s.fifoIdx], { s with fifoIdx := s.fifoIdx + 1 }) := by
  simp [readByte, h]

/-- The bits that a stream has still to hand out. -/
def unread (s : InputBitstream) : List Bool :=
  toBits s.numHeldBits s.heldBits.toNat ++ bytesBits (s.fifo.drop s.fifoIdx)

/-- `s'` is `s` after `n` of its bits have been read. -/
structure Advances (s s' : InputBitstream) (n : Nat) : Prop where
  fifo_eq : s'.fifo = s.fifo
  locations_eq : s'.emulationPreventionByteLocation = s.emulationPreventionByteLocation
  few : s'.numHeldBits < 8
  inside : s'.fifoIdx ≤ s'.fifo.length
  unread_eq : s'.unread = s.unread.drop n

theorem length_unread (s : InputBitstream) :
    s.unread.length = s.numHeldBits + 8 * (s.fifo.length - s.fifoIdx) := by
  simp [unread]

theorem byteAt_eq {s : InputBitstream} {bs : List UInt8} (h : s.fifo.drop s.fifoIdx = bs) {i : Nat}
    (hi : i < bs.length) : s.byteAt i = bs[i].toNat := by
  subst h
  rw [byteAt, List.getElem_drop, List.getD_eq_getElem _ _ (by rw [List.length_drop] at hi; omega)]

/-- The word loaded spells the next bytes. -/
theorem alignedWord_eq {s : InputBitstream} {k : Nat} (hk : k ≤ 3)
    (hlen : s.fifoIdx + k < s.fifo.length) :
    s.alignedWord k = ofBytes ((s.fifo.drop s.fifoIdx).take (k + 1)) := by
  obtain ⟨bs, hbs⟩ : ∃ bs, s.fifo.drop s.fifoIdx = bs := ⟨_, rfl⟩
  have hlen' : k < bs.length := by rw [← hbs, List.length_drop]; omega
  rw [hbs]
  have hor : ∀ x j (b : UInt8), x <<< (j + 8) ||| b.toNat <<< j = (256 * x + b.toNat) <<< j := by
    intro x j b
    have hb : b.toNat * 2 ^ j < 2 ^ (j + 8) := by
      rw [Nat.pow_add, Nat.mul_comm]
      exact Nat.mul_lt_mul_of_pos_left b.toNat_lt (Nat.two_pow_pos j)
    rw [Nat.shiftLeft_eq, Nat.shiftLeft_eq, Nat.shiftLeft_eq, Nat.mul_comm x,
      ← Nat.two_pow_add_eq_or_of_lt hb, Nat.pow_add]
    ring
  have hone : ∀ x (b : UInt8), x <<< 8 ||| b.toNat = 256 * x + b.toNat := fun x b => hor x 0 b
  have : k = 0 ∨ k = 1 ∨ k = 2 ∨ k = 3 := by omega
  rcases this with rfl | rfl | rfl | rfl
  · rcases bs with - | ⟨a, bs⟩
    · simp at hlen'
    · simp [alignedWord, byteAt_eq hbs, ofBytes]
  · rcases bs with - | ⟨a, - | ⟨b, bs⟩⟩
    iterate 2 simp at hlen'
    simp [alignedWord, byteAt_eq hbs, hone, ofBytes]
  · rcases bs with - | ⟨a, - | ⟨b, - | ⟨c, bs⟩⟩⟩
    iterate 3 simp at hlen'
    simp [alignedWord, byteAt_eq hbs, hor _ 8, hone, ofBytes]
  · rcases bs with - | ⟨a, - | ⟨b, - | ⟨c, - | ⟨d, bs⟩⟩⟩⟩
    iterate 4 simp at hlen'
    simp [alignedWord, byteAt_eq hbs, hor _ 16, hor _ 8, hone, ofBytes]

/-- `read` hands out the next `n` bits. -/
theorem read_spec {s : InputBitstream} (hfew : s.numHeldBits < 8) {n : Nat} (hn : n ≤ 32)
    (hlen : n ≤ s.unread.length) (hidx : s.fifoIdx ≤ s.fifo.length) :
    ∃ s', s.read n = .ok (ofBits (s.unread.take n), s') ∧ s.Advances s' n := by
  rw [length_unread] at hlen
  by_cases hheld : n ≤ s.numHeldBits
  · -- the held bits suffice
    have hsplit : toBits s.numHeldBits s.heldBits.toNat =
        toBits n (s.heldBits.toNat / 2 ^ (s.numHeldBits - n)) ++
          toBits (s.numHeldBits - n) s.heldBits.toNat := by
      rw [← toBits_add]
      congr 1
      omega
    refine ⟨{ s with numHeldBits := s.numHeldBits - n }, ?_, rfl, rfl, ?_, hidx, ?_⟩
    · rw [read, check_ok _ (by omega), ok_bind, if_pos hheld]
      dsimp only
      have hsmall : s.heldBits.toNat / 2 ^ (s.numHeldBits - n) < 2 ^ (n + 8) :=
        lt_of_le_of_lt (Nat.div_le_self _ _)
          (lt_of_lt_of_le s.heldBits.toNat_lt (Nat.pow_le_pow_right (by decide) (by omega)))
      rw [Nat.shiftRight_eq_div_pow, and_clear hsmall (by omega), unread, hsplit, List.append_assoc,
        List.take_left' (length_toBits _ _), ofBits_toBits]
      rfl
    · dsimp only; omega
    · rw [unread, unread, hsplit, List.append_assoc, List.drop_left' (length_toBits _ _)]
  · -- `k + 1` more bytes are loaded, and `next` of their bits held
    obtain ⟨m, hm⟩ : ∃ m, m = n - s.numHeldBits := ⟨_, rfl⟩
    obtain ⟨k, hk⟩ : ∃ k, k = (m - 1) / 8 := ⟨_, rfl⟩
    obtain ⟨next, hnext⟩ : ∃ x, x = (32 - m) % 8 := ⟨_, rfl⟩
    have hbytes : 8 * (k + 1) = m + next := by omega
    obtain ⟨bs, hbs⟩ : ∃ bs, bs = (s.fifo.drop s.fifoIdx).take (k + 1) := ⟨_, rfl⟩
    have hbslen : bs.length = k + 1 := by rw [hbs, List.length_take, List.length_drop]; omega
    have hword : s.alignedWord k = ofBytes bs := by rw [alignedWord_eq (by omega) (by omega), hbs]
    have hrest : s.fifo.drop s.fifoIdx = bs ++ s.fifo.drop (s.fifoIdx + k + 1) := by
      rw [hbs, show s.fifoIdx + k + 1 = s.fifoIdx + (k + 1) by omega, ← List.drop_drop,
        List.take_append_drop]
    have hspell : bytesBits bs = toBits m (ofBytes bs / 2 ^ next) ++ toBits next (ofBytes bs) := by
      rw [← toBits_add, ← hbytes, ← hbslen, ← length_bytesBits, ← ofBits_bytesBits, toBits_ofBits]
    have hunread : s.unread = (toBits s.numHeldBits s.heldBits.toNat ++ toBits m (ofBytes bs / 2 ^ next)) ++
        (toBits next (ofBytes bs) ++ bytesBits (s.fifo.drop (s.fifoIdx + k + 1))) := by
      rw [unread, hrest, bytesBits_append, hspell]
      simp only [List.append_assoc]
    have hfront : (toBits s.numHeldBits s.heldBits.toNat ++ toBits m (ofBytes bs / 2 ^ next)).length = n := by
      simp only [List.length_append, length_toBits]
      omega
    have hquot : ofBytes bs / 2 ^ next < 2 ^ m := by
      rw [Nat.div_lt_iff_lt_mul (Nat.two_pow_pos _), ← Nat.pow_add, ← hbytes, ← hbslen]
      exact ofBytes_lt bs
    refine ⟨{ s with fifoIdx := s.fifoIdx + k + 1, numHeldBits := next, heldBits := .ofNat (ofBytes bs) },
      ?_, rfl, rfl, by dsimp only; omega, by dsimp only; omega, ?_⟩
    · have hmask : s.heldBits.toNat &&& (0xffffffff ^^^ 0xff <<< s.numHeldBits) =
          s.heldBits.toNat % 2 ^ s.numHeldBits :=
        and_clear (lt_of_lt_of_le s.heldBits.toNat_lt (Nat.pow_le_pow_right (by decide) (by omega)))
          (by omega)
      have htop : s.heldBits.toNat % 2 ^ s.numHeldBits * 2 ^ m < 2 ^ 32 :=
        calc s.heldBits.toNat % 2 ^ s.numHeldBits * 2 ^ m
            < 2 ^ s.numHeldBits * 2 ^ m :=
              Nat.mul_lt_mul_of_pos_right (Nat.mod_lt _ (Nat.two_pow_pos _)) (Nat.two_pow_pos _)
          _ = 2 ^ n := by rw [← Nat.pow_add]; congr 1; omega
          _ ≤ 2 ^ 32 := Nat.pow_le_pow_right (by decide) hn
      rw [read, check_ok _ (by omega), ok_bind, if_neg hheld]
      dsimp only
      rw [← hm, hmask, Nat.shiftRight_eq_div_pow, show 2 ^ 3 = 8 from rfl, ← hk, ← hnext,
        check_ok _ (by omega), ok_bind, hword, Nat.shiftLeft_eq, u32_of_lt htop,
        Nat.shiftRight_eq_div_pow, Nat.mul_comm _ (2 ^ m), ← Nat.two_pow_add_eq_or_of_lt hquot,
        hunread, List.take_left' hfront, ofBits_append, ofBits_toBits, length_toBits,
        ofBits_toBits_of_lt hquot, Nat.mul_comm (2 ^ m)]
      rfl
    · rw [hunread, List.drop_left' hfront, unread]
      dsimp only
      rw [UInt8.toNat_ofNat', ← toBits_mod next (ofBytes bs % 2 ^ 8), Nat.mod_mod_of_dvd _
        (Nat.pow_dvd_pow 2 (by omega)), toBits_mod]

/-- A stream over `fifo` that has exactly `bits` to hand out. -/
structure At (s : InputBitstream) (fifo : List UInt8) (locations : List Nat) (bits : List Bool) :
    Prop where
  fifo_eq : s.fifo = fifo
  locations_eq : s.emulationPreventionByteLocation = locations
  few : s.numHeldBits < 8
  inside : s.fifoIdx ≤ s.fifo.length
  unread_eq : s.unread = bits

variable {s : InputBitstream} {fifo : List UInt8} {locations : List Nat} {bits : List Bool}

theorem At.read (front : List Bool) (h : s.At fifo locations (front ++ bits))
    (h32 : front.length ≤ 32) :
    ∃ s', s.read front.length = .ok (ofBits front, s') ∧ s'.At fifo locations bits := by
  obtain ⟨hfifo, hloc, hfew, hidx, hunread⟩ := h
  obtain ⟨s', hs', h'⟩ := read_spec hfew h32 (by rw [hunread, List.length_append]; omega) hidx
  rw [hunread, List.take_left' rfl] at hs'
  exact ⟨s', hs', h'.fifo_eq.trans hfifo, h'.locations_eq.trans hloc, h'.few, h'.inside,
    by rw [h'.unread_eq, hunread, List.drop_left' rfl]⟩

/-- Reading back what `write` wrote. -/
theorem At.read_toBits {n v : Nat} (h : s.At fifo locations (toBits n v ++ bits)) (h32 : n ≤ 32)
    (hv : v < 2 ^ n) : ∃ s', s.read n = .ok (v, s') ∧ s'.At fifo locations bits := by
  obtain ⟨s', hs', h'⟩ := h.read (toBits n v) (by rwa [length_toBits])
  rw [length_toBits, ofBits_toBits_of_lt hv] at hs'
  exact ⟨s', hs', h'⟩

/-- The bits held are those that remain of the last byte read. -/
theorem At.numHeldBits_eq (h : s.At fifo locations bits) :
    bits.length = s.numHeldBits + 8 * (fifo.length - s.fifoIdx) := by
  rw [← h.unread_eq, length_unread, h.fifo_eq]

end InputBitstream

end ECM.CommonLib.BitStream
