import ECM.Hls.RoundTrip

/-! # The descriptors of the high-level syntax

Signed codes and the trailing bits, which the other syntax does not need, and the
round trip of any sequence of codes. -/

namespace ECM.EncoderLib.VLCWriter
open CommonLib CommonLib.BitStream Lib.Bits

/-- The shifts are those of a `uint32_t`. -/
def xWriteSvlc (s : OutputBitstream) (iCode : ℤ) : Checked OutputBitstream :=
  xWriteUvlc s (if iCode ≤ 0 then toU32 (-iCode * 2) else toU32 (iCode * 2 - 1))

def xWriteSCode (s : OutputBitstream) (code : ℤ) (length : ℕ) : Checked OutputBitstream := do
  check (¬(length > 0 ∧ length ≤ 32)) "length > 0 && length<=32"
  check (¬(length = 32 ∨ code ≥ -2 ^ (length - 1) ∧ code < 2 ^ (length - 1)))
    "length==32 || (code>=-(1<<(length-1)) && code<(1<<(length-1)))"
  s.write (if length = 32 then toU32 code else toU32 code &&& 1 <<< length - 1) length

def WRITE_SVLC (iCode : ℤ) : WriteM Unit := fun s => do
  let s ← xWriteSvlc s iCode
  return ((), s)

def WRITE_SCODE (code : ℤ) (length : ℕ) : WriteM Unit := fun s => do
  let s ← xWriteSCode s code length
  return ((), s)

end ECM.EncoderLib.VLCWriter

namespace ECM.DecoderLib.VLCReader
open CommonLib CommonLib.BitStream Lib.Bits

def xReadSvlc (s : InputBitstream) : Checked (ℤ × InputBitstream) := do
  let (uiBits, s) ← s.read 1
  if uiBits = 0 then
    let (uiLength, s) ← uvlcPrefix s 0 (s.unread.length + 1)
    let (uiBits, s) ← s.read uiLength
    let uiBits := u32 (uiBits + 1 <<< uiLength)
    return (if uiBits &&& 1 ≠ 0 then -toI32 (uiBits >>> 1) else toI32 (uiBits >>> 1), s)
  else return (0, s)

def xReadSCode (s : InputBitstream) (length : ℕ) : Checked (ℤ × InputBitstream) := do
  check (¬(length > 0 ∧ length ≤ 32)) "length > 0 && length<=32"
  let (val, s) ← s.read length
  -- the sign bit, extended to the left
  let sign := toU32 (-(val &&& 1 <<< (length - 1) : ℕ))
  return (if length ≥ 32 then toI32 val else toI32 (sign ||| val), s)

def READ_SVLC : ReadM ℤ := fun s => xReadSvlc s

def READ_SCODE (length : ℕ) : ReadM ℤ := fun s => xReadSCode s length

/-- The loop of `xReadRbspTrailingBits`; less than a byte is held. -/
def readAlignmentZeros : (rounds cnt : ℕ) → ReadM ℕ
  | 0, cnt => pure cnt
  | rounds + 1, cnt => do
    let s ← get
    if s.getNumBitsUntilByteAligned ≠ 0 then
      let bit ← READ_FLAG
      check (bit ≠ false) "Alignment bit is not '0'"
      readAlignmentZeros rounds (cnt + 1)
    else return cnt

def xReadRbspTrailingBits : ReadM Unit := do
  let bit ← READ_FLAG
  check (bit ≠ true) "Trailing bit not '1'"
  let cnt ← readAlignmentZeros 8 0
  check (cnt ≥ 8) "Read more than '8' trailing bits"

end ECM.DecoderLib.VLCReader

namespace ECM.Hls
open CommonLib CommonLib.BitStream Lib.Bits List
open EncoderLib.VLCWriter DecoderLib.VLCReader

/-! ## Signed Exp-Golomb codes -/

/-- Signed values in the order of their codes: 0, 1, -1, 2, ... -/
def seCode (v : ℤ) : ℕ := if v ≤ 0 then (-v * 2).toNat else (v * 2 - 1).toNat

theorem toU32_of_nonneg {v : ℤ} (h0 : 0 ≤ v) (h : v < 2 ^ 32) : toU32 v = v.toNat := by
  rw [toU32, Int.emod_eq_of_lt h0 h]

theorem toI32_of_lt {v : ℕ} (h : v < 2 ^ 31) : toI32 v = v := if_pos h

theorem seCode_lt {v : ℤ} (hlow : -2 ^ 31 < v) (hhigh : v < 2 ^ 31) : seCode v + 1 < 2 ^ 32 := by
  rw [seCode]
  split <;> omega

theorem writes_svlc {v : ℤ} (hlow : -2 ^ 31 < v) (hhigh : v < 2 ^ 31) :
    Writes (WRITE_SVLC v) () (uvlc (seCode v)) := by
  have hcode : (if v ≤ 0 then toU32 (-v * 2) else toU32 (v * 2 - 1)) = seCode v := by
    rw [seCode]
    split
    · exact toU32_of_nonneg (by omega) (by omega)
    · exact toU32_of_nonneg (by omega) (by omega)
  refine writes_of_appends fun s hs => ?_
  rw [xWriteSvlc, hcode]
  exact xWriteUvlc_ok hs (seCode_lt hlow hhigh)

/-- What `xReadSvlc` makes of the value plus one that `xReadUvlc` reads. -/
def seValue (uiBits : ℕ) : ℤ :=
  if uiBits &&& 1 ≠ 0 then -toI32 (uiBits >>> 1) else toI32 (uiBits >>> 1)

theorem seValue_seCode {v : ℤ} (hlow : -2 ^ 31 < v) (hhigh : v < 2 ^ 31) :
    seValue (seCode v + 1) = v := by
  have hlt := seCode_lt hlow hhigh
  rw [seValue, Nat.shiftRight_eq_div_pow, Nat.and_one_is_mod, Nat.pow_one, toI32_of_lt (by omega)]
  rw [seCode]
  split
  · rw [if_pos (by omega)]
    omega
  · rw [if_neg (by omega)]
    omega

theorem xReadSvlc_of_xReadUvlc {s s' : InputBitstream} {v : ℕ} (h : xReadUvlc s = .ok (v, s'))
    (hv : v + 1 < 2 ^ 32) : xReadSvlc s = .ok (seValue (v + 1), s') := by
  obtain ⟨⟨uiBits, s₁⟩, h₁, h⟩ := bind_eq_ok h
  rw [xReadSvlc, h₁, ok_bind]
  dsimp only at h ⊢
  by_cases h0 : uiBits = 0
  · rw [if_pos h0] at h ⊢
    obtain ⟨⟨uiLength, s₂⟩, h₂, h⟩ := bind_eq_ok h
    obtain ⟨⟨uiVal, s₃⟩, h₃, h⟩ := bind_eq_ok h
    cases h
    rw [h₂, ok_bind]
    dsimp only
    rw [h₃, ok_bind]
    have hpos : 1 ≤ 1 <<< uiLength := by
      rw [Nat.shiftLeft_eq, Nat.one_mul]
      exact Nat.one_le_two_pow
    have hbits : u32 (uiVal + 1 <<< uiLength) = u32 (uiVal + (1 <<< uiLength - 1)) + 1 := by
      simp only [u32] at hv ⊢
      omega
    dsimp only
    rw [hbits]
    rfl
  · rw [if_neg h0] at h ⊢
    cases h
    rfl

theorem reads_svlc {v : ℤ} (hlow : -2 ^ 31 < v) (hhigh : v < 2 ^ 31) :
    Reads READ_SVLC (uvlc (seCode v)) v := by
  intro t fifo locations rest h
  obtain ⟨t', ht', h'⟩ := xReadUvlc_ok h (seCode_lt hlow hhigh)
  refine ⟨t', ?_, h'⟩
  rw [READ_SVLC, xReadSvlc_of_xReadUvlc ht' (seCode_lt hlow hhigh), seValue_seCode hlow hhigh]

theorem roundTrips_svlc {strict : Prop} {v : ℤ} (hlow : -2 ^ 31 < v) (hhigh : v < 2 ^ 31) :
    RoundTrips strict (WRITE_SVLC v) READ_SVLC fun _ u => u = v :=
  (writes_svlc hlow hhigh).roundTrips (reads_svlc hlow hhigh) rfl

/-! ## Signed codes of a fixed length -/

/-- The `n` low bits of a two's complement number. -/
def signedBits (n : ℕ) (v : ℤ) : ℕ := (v % 2 ^ n).toNat

theorem signedBits_lt (n : ℕ) (v : ℤ) : signedBits n v < 2 ^ n := by
  have hpos : (0 : ℤ) < 2 ^ n := by positivity
  have h0 := Int.emod_nonneg v hpos.ne'
  have hlt := Int.emod_lt_of_pos v hpos
  have hcast : ((2 ^ n : ℕ) : ℤ) = 2 ^ n := by push_cast; rfl
  rw [signedBits]
  omega

theorem and_mask_toU32 {n : ℕ} (hn : n ≤ 32) (v : ℤ) : toU32 v &&& 1 <<< n - 1 = signedBits n v := by
  rw [Nat.shiftLeft_eq, Nat.one_mul, Nat.and_two_pow_sub_one_eq_mod]
  have hdvd : (2 ^ n : ℤ) ∣ 2 ^ 32 := pow_dvd_pow 2 hn
  have h0 : 0 ≤ v % 2 ^ 32 := Int.emod_nonneg v (by norm_num)
  have h1 : 0 ≤ v % 2 ^ n := Int.emod_nonneg v (by positivity)
  rw [toU32, signedBits]
  zify
  rw [Int.toNat_of_nonneg h0, Int.toNat_of_nonneg h1, Int.emod_emod_of_dvd v hdvd]

theorem writes_scode {v : ℤ} {n : ℕ} (h1 : 1 ≤ n) (h32 : n ≤ 32) (hlow : -2 ^ (n - 1) ≤ v)
    (hhigh : v < 2 ^ (n - 1)) : Writes (WRITE_SCODE v n) () (toBits n (signedBits n v)) := by
  have hword : (if n = 32 then toU32 v else toU32 v &&& 1 <<< n - 1) = signedBits n v := by
    split
    · next h => rw [h]; rfl
    · exact and_mask_toU32 h32 v
  refine writes_of_appends fun s hs => ?_
  rw [xWriteSCode, check_ok _ (not_not_intro ⟨h1, h32⟩), ok_bind,
    check_ok _ (not_not_intro (Or.inr ⟨hlow, hhigh⟩)), ok_bind, hword]
  exact write_appends hs h32 (signedBits_lt n v)

/-- The sign bit of a negative number, extended to the left. -/
theorem sign_or {k r : ℕ} (hk : k ≤ 31) (hr : r < 2 ^ k) :
    (2 ^ 32 - 2 ^ k) ||| (2 ^ k + r) = 2 ^ 32 - 2 ^ k + r := by
  obtain ⟨m, hm⟩ : ∃ m, m = 2 ^ (31 - k) - 1 := ⟨_, rfl⟩
  have hpow : 2 ^ 32 = 2 ^ k * 2 ^ (31 - k) * 2 := by
    rw [← Nat.pow_add, ← Nat.pow_succ]
    congr 1
    omega
  have hone := Nat.one_le_two_pow (n := 31 - k)
  have hhigh : 2 ^ 32 - 2 ^ k = 2 ^ k * (2 * m + 1) := by
    rw [hpow, hm, Nat.mul_assoc, ← Nat.mul_sub_one]
    congr 1
    omega
  have hodd : (2 * m + 1) ||| 1 = 2 * m + 1 := by
    apply Nat.eq_of_testBit_eq
    intro i
    rw [Nat.testBit_or]
    cases i with
    | zero => simp
    | succ i => simp [Nat.testBit_succ]
  have hlow : 2 ^ k + r = 2 ^ k * 1 ||| r := by rw [← Nat.two_pow_add_eq_or_of_lt hr, Nat.mul_one]
  rw [hhigh, hlow, ← Nat.or_assoc, Nat.mul_comm (2 ^ k), Nat.mul_comm (2 ^ k), ← Nat.shiftLeft_eq,
    ← Nat.shiftLeft_eq, ← Nat.shiftLeft_or_distrib, hodd, Nat.shiftLeft_eq, Nat.mul_comm,
    ← Nat.two_pow_add_eq_or_of_lt hr]

theorem reads_scode {v : ℤ} {n : ℕ} (h1 : 1 ≤ n) (h32 : n ≤ 32) (hlow : -2 ^ (n - 1) ≤ v)
    (hhigh : v < 2 ^ (n - 1)) : Reads (READ_SCODE n) (toBits n (signedBits n v)) v := by
  intro t fifo locations rest h
  obtain ⟨t', ht', h'⟩ := h.read_toBits h32 (signedBits_lt n v)
  refine ⟨t', ?_, h'⟩
  rw [READ_SCODE, xReadSCode, check_ok _ (not_not_intro ⟨h1, h32⟩), ok_bind, ht', ok_bind]
  dsimp only
  obtain ⟨k, rfl⟩ : ∃ k, n = k + 1 := ⟨n - 1, by omega⟩
  rw [Nat.add_sub_cancel] at hlow hhigh ⊢
  have hk : (2 : ℤ) ^ k ≤ 2 ^ 31 := pow_le_pow_right₀ (by norm_num) (by omega)
  have hpk : (0 : ℤ) < 2 ^ k := by positivity
  have hcast : ((2 ^ k : ℕ) : ℤ) = 2 ^ k := by push_cast; rfl
  have hsucc : (2 : ℤ) ^ (k + 1) = 2 * 2 ^ k := by ring
  rcases lt_or_ge v 0 with hneg | hpos
  · -- the bits spell `v + 2 ^ n`, with the sign bit set
    obtain ⟨r, hr⟩ : ∃ r : ℕ, (r : ℤ) = v + 2 ^ k := ⟨(v + 2 ^ k).toNat, by omega⟩
    have hrlt : r < 2 ^ k := by omega
    have hval : signedBits (k + 1) v = 2 ^ k + r := by
      rw [signedBits, ← Int.add_emod_right, Int.emod_eq_of_lt (by omega) (by omega)]
      omega
    have hbit : (2 ^ k + r) &&& 1 <<< k = 2 ^ k := by
      rw [Nat.shiftLeft_eq, Nat.one_mul]
      apply Nat.eq_of_testBit_eq
      intro i
      rw [Nat.testBit_and, Nat.testBit_two_pow]
      by_cases hi : k = i
      · subst hi
        rw [Nat.testBit_two_pow_add_eq, Nat.testBit_lt_two_pow hrlt]
        simp
      · simp [hi]
    have hsign : toU32 (-((2 ^ k : ℕ) : ℤ)) = 2 ^ 32 - 2 ^ k := by
      rw [toU32, ← Int.add_emod_right, Int.emod_eq_of_lt (by omega) (by omega)]
      omega
    rw [hval, hbit, hsign, sign_or (by omega) hrlt]
    congr 2
    split
    · next h =>
      obtain rfl : k = 31 := by omega
      rw [toI32, if_neg (by omega)]
      omega
    · rw [toI32, if_neg (by omega)]
      omega
  · -- a non-negative number has no sign bit
    have hval : signedBits (k + 1) v = v.toNat := by
      rw [signedBits, Int.emod_eq_of_lt hpos (by omega)]
    have hbit : v.toNat &&& 1 <<< k = 0 := by
      rw [Nat.shiftLeft_eq, Nat.one_mul]
      apply Nat.eq_of_testBit_eq
      intro i
      rw [Nat.testBit_and, Nat.testBit_two_pow, Nat.zero_testBit]
      by_cases hi : k = i
      · subst hi
        rw [Nat.testBit_lt_two_pow (by omega), Bool.false_and]
      · simp [hi]
    rw [hval, hbit, show toU32 (-((0 : ℕ) : ℤ)) = 0 from rfl, Nat.zero_or, ite_self,
      toI32_of_lt (by omega)]
    congr 2
    exact Int.toNat_of_nonneg hpos

/-! ## Trailing bits -/

theorem numHeldBits_eq {s : OutputBitstream} (hs : s.WF) : s.numHeldBits = s.bits.length % 8 := by
  have hfew := hs.few
  rw [OutputBitstream.length_bits]
  omega

theorem writeAlignmentZeros_ok (rounds : ℕ) : ∀ {s : OutputBitstream} (cnt : ℕ), s.WF →
    s.getNumBitsUntilByteAligned ≤ rounds → ∃ s',
      writeAlignmentZeros rounds cnt s = .ok (cnt + s.getNumBitsUntilByteAligned, s') ∧
      Appends s s' (List.replicate s.getNumBitsUntilByteAligned false) := by
  induction rounds with
  | zero =>
    intro s cnt hs hk
    rw [Nat.le_zero.mp hk]
    exact ⟨s, rfl, hs, (append_nil _).symm⟩
  | succ rounds ih =>
    intro s cnt hs hk
    by_cases h0 : s.getNumBitsUntilByteAligned = 0
    · refine ⟨s, ?_, hs, by rw [h0]; exact (append_nil _).symm⟩
      change (if s.getNumBitsUntilByteAligned ≠ 0 then _ else pure cnt : WriteM ℕ) s = _
      rw [if_neg (not_not_intro h0), h0]
      rfl
    · obtain ⟨s₁, hs₁, h₁⟩ := writes_flag false s hs
      have hone : s.getNumBitsUntilByteAligned = s₁.getNumBitsUntilByteAligned + 1 := by
        have hlen := congrArg List.length h₁.bits_eq
        rw [length_append, length_singleton] at hlen
        have hheld := numHeldBits_eq hs
        have hheld₁ := numHeldBits_eq h₁.wf
        rw [OutputBitstream.getNumBitsUntilByteAligned] at h0 ⊢
        rw [OutputBitstream.getNumBitsUntilByteAligned]
        omega
      obtain ⟨s₂, hs₂, h₂⟩ := ih (cnt + 1) h₁.wf (by omega)
      refine ⟨s₂, ?_, ?_⟩
      · change (if s.getNumBitsUntilByteAligned ≠ 0 then
          WRITE_FLAG false >>= fun _ => writeAlignmentZeros rounds (cnt + 1) else pure cnt : WriteM ℕ) s = _
        rw [if_pos h0]
        change (WRITE_FLAG false s >>= fun p => writeAlignmentZeros rounds (cnt + 1) p.2) = _
        rw [hs₁, ok_bind, hs₂, hone, Nat.add_assoc, Nat.add_comm 1]
      · rw [hone, replicate_succ]
        exact h₁.trans h₂

/-- A one bit and as many zeros as the last byte has room for. -/
theorem xWriteRbspTrailingBits_ok {s : OutputBitstream} (hs : s.WF) :
    ∃ s', xWriteRbspTrailingBits s = .ok ((), s') ∧ s'.numHeldBits = 0 ∧
      Appends s s' (true :: List.replicate ((7 - s.numHeldBits) % 8) false) := by
  obtain ⟨s₁, hs₁, h₁⟩ := writes_flag true s hs
  have hfew : s₁.getNumBitsUntilByteAligned < 8 := Nat.mod_lt _ (by decide)
  obtain ⟨s₂, hs₂, h₂⟩ := writeAlignmentZeros_ok 8 0 h₁.wf (Nat.le_of_lt hfew)
  have hheld := numHeldBits_eq hs
  have hlen := congrArg List.length h₁.bits_eq
  rw [length_append, length_singleton] at hlen
  have hheld₁ := numHeldBits_eq h₁.wf
  have hzeros : s₁.getNumBitsUntilByteAligned = (7 - s.numHeldBits) % 8 := by
    rw [OutputBitstream.getNumBitsUntilByteAligned]
    omega
  have hlen₂ := congrArg List.length h₂.bits_eq
  rw [length_append, length_replicate] at hlen₂
  have hheld₂ := numHeldBits_eq h₂.wf
  refine ⟨s₂, ?_, by omega, ?_⟩
  · change (WRITE_FLAG true s >>= fun p => writeAlignmentZeros 8 0 p.2 >>= fun q =>
      (liftM (check (q.1 ≥ 8) "More than '8' alignment bytes read") : WriteM Unit) q.2) = _
    rw [hs₁, ok_bind, hs₂, ok_bind, check_ok _ (by omega)]
    rfl
  · rw [← hzeros]
    exact h₁.trans h₂

theorem readAlignmentZeros_ok (rounds : ℕ) : ∀ {t : InputBitstream} {fifo : List UInt8}
    {locations : List ℕ} {rest : List Bool} (k cnt : ℕ), k ≤ rounds → k < 8 → 8 ∣ rest.length →
    t.At fifo locations (List.replicate k false ++ rest) →
    ∃ t', readAlignmentZeros rounds cnt t = .ok (cnt + k, t') ∧ t'.At fifo locations rest := by
  induction rounds with
  | zero =>
    intro t fifo locations rest k cnt hk _ _ h
    obtain rfl := Nat.le_zero.mp hk
    exact ⟨t, rfl, h⟩
  | succ rounds ih =>
    intro t fifo locations rest k cnt hk hk8 hrest h
    have hheld := h.numHeldBits_eq
    have hfew := h.few
    rw [length_append, length_replicate] at hheld
    have haligned : t.getNumBitsUntilByteAligned = k := by
      rw [InputBitstream.getNumBitsUntilByteAligned]
      omega
    cases k with
    | zero =>
      refine ⟨t, ?_, h⟩
      change (if t.getNumBitsUntilByteAligned ≠ 0 then _ else pure cnt : ReadM ℕ) t = _
      rw [if_neg (not_not_intro haligned)]
      rfl
    | succ k =>
      obtain ⟨t₁, ht₁, h₁⟩ := reads_flag false t fifo locations (List.replicate k false ++ rest) h
      obtain ⟨t₂, ht₂, h₂⟩ := ih k (cnt + 1) (by omega) (by omega) hrest h₁
      refine ⟨t₂, ?_, h₂⟩
      change (if t.getNumBitsUntilByteAligned ≠ 0 then READ_FLAG >>= fun bit =>
        (liftM (check (bit ≠ false) "Alignment bit is not '0'") : ReadM Unit) >>= fun _ =>
          readAlignmentZeros rounds (cnt + 1) else pure cnt : ReadM ℕ) t = _
      rw [if_pos (by omega)]
      change (READ_FLAG t >>= fun p =>
        ((liftM (check (p.1 ≠ false) "Alignment bit is not '0'") : ReadM Unit) >>= fun _ =>
          readAlignmentZeros rounds (cnt + 1)) p.2) = _
      rw [ht₁, ok_bind, check_ok _ (by simp)]
      change readAlignmentZeros rounds (cnt + 1) t₁ = _
      rw [ht₂, Nat.add_assoc, Nat.add_comm 1]

/-- The trailing bits are read up to the end of their byte. -/
theorem xReadRbspTrailingBits_ok {t : InputBitstream} {fifo : List UInt8} {locations : List ℕ}
    {rest : List Bool} {k : ℕ} (hk : k < 8) (hrest : 8 ∣ rest.length)
    (h : t.At fifo locations (true :: List.replicate k false ++ rest)) :
    ∃ t', xReadRbspTrailingBits t = .ok ((), t') ∧ t'.At fifo locations rest := by
  obtain ⟨t₁, ht₁, h₁⟩ := reads_flag true t fifo locations (List.replicate k false ++ rest) h
  obtain ⟨t₂, ht₂, h₂⟩ := readAlignmentZeros_ok 8 k 0 (Nat.le_of_lt hk) hk hrest h₁
  refine ⟨t₂, ?_, h₂⟩
  change (READ_FLAG t >>= fun p =>
    ((liftM (check (p.1 ≠ true) "Trailing bit not '1'") : ReadM Unit) >>= fun _ =>
      readAlignmentZeros 8 0 >>= fun cnt =>
        liftM (check (cnt ≥ 8) "Read more than '8' trailing bits")) p.2) = _
  rw [ht₁, ok_bind, check_ok _ (by simp)]
  change (readAlignmentZeros 8 0 t₁ >>= fun q =>
    (liftM (check (q.1 ≥ 8) "Read more than '8' trailing bits") : ReadM Unit) q.2) = _
  rw [ht₂, ok_bind, check_ok _ (by omega)]
  rfl

/-! ## Sequences of descriptors -/

/-- The descriptors of the syntax tables: `u(n)`, `ue(v)`, `se(v)`, `i(n)` and a flag. -/
inductive Descriptor where
  | u (n : ℕ)
  | ue
  | se
  | i (n : ℕ)
  | flag
  deriving DecidableEq, Repr

namespace Descriptor

def Value : Descriptor → Type
  | u _ => ℕ
  | ue => ℕ
  | se => ℤ
  | i _ => ℤ
  | flag => Bool

/-- The values that the descriptor can carry. -/
def Fits : (d : Descriptor) → d.Value → Prop
  | u n, (v : ℕ) => 1 ≤ n ∧ n ≤ 32 ∧ v < 2 ^ n
  | ue, (v : ℕ) => v ≤ 2 ^ 32 - 2
  | se, (v : ℤ) => -2 ^ 31 < v ∧ v < 2 ^ 31
  | i n, (v : ℤ) => 1 ≤ n ∧ n ≤ 32 ∧ -2 ^ (n - 1) ≤ v ∧ v < 2 ^ (n - 1)
  | flag, (_ : Bool) => True

def write : (d : Descriptor) → d.Value → WriteM Unit
  | u n, v => WRITE_CODE v n
  | ue, v => WRITE_UVLC v
  | se, v => WRITE_SVLC v
  | i n, v => WRITE_SCODE v n
  | flag, b => WRITE_FLAG b

def read : (d : Descriptor) → ReadM d.Value
  | u n => READ_CODE n
  | ue => READ_UVLC
  | se => READ_SVLC
  | i n => READ_SCODE n
  | flag => READ_FLAG

def bits : (d : Descriptor) → d.Value → List Bool
  | u n, (v : ℕ) => toBits n v
  | ue, (v : ℕ) => uvlc v
  | se, (v : ℤ) => uvlc (seCode v)
  | i n, (v : ℤ) => toBits n (signedBits n v)
  | flag, (b : Bool) => [b]

/-- How many bits the value takes. -/
def width : (d : Descriptor) → d.Value → ℕ
  | u n, _ => n
  | ue, (v : ℕ) => 2 * (v + 1).log2 + 1
  | se, (v : ℤ) => 2 * (seCode v + 1).log2 + 1
  | i n, _ => n
  | flag, _ => 1

theorem length_uvlc (v : ℕ) : (uvlc v).length = 2 * (v + 1).log2 + 1 := by
  rw [uvlc, List.length_append, List.length_replicate, length_toBits]
  omega

theorem length_bits (d : Descriptor) (v : d.Value) : (d.bits v).length = d.width v := by
  cases d with
  | u n => exact length_toBits n _
  | ue => exact length_uvlc _
  | se => exact length_uvlc _
  | i n => exact length_toBits n _
  | flag => rfl

theorem writes (d : Descriptor) (v : d.Value) (h : d.Fits v) : Writes (d.write v) () (d.bits v) := by
  cases d with
  | u n => exact writes_code h.1 h.2.1 h.2.2
  | ue => exact writes_uvlc (by simp only [Fits] at h; omega)
  | se => exact writes_svlc h.1 h.2
  | i n => exact writes_scode h.1 h.2.1 h.2.2.1 h.2.2.2
  | flag => exact writes_flag v

theorem reads (d : Descriptor) (v : d.Value) (h : d.Fits v) : Reads d.read (d.bits v) v := by
  cases d with
  | u n => exact reads_code h.1 h.2.1 h.2.2
  | ue => exact reads_uvlc (by simp only [Fits] at h; omega)
  | se => exact reads_svlc h.1 h.2
  | i n => exact reads_scode h.1 h.2.1 h.2.2.1 h.2.2.2
  | flag => exact reads_flag v

end Descriptor

/-- A descriptor with the value it carries. -/
abbrev Item := Σ d : Descriptor, d.Value

def writeItems (items : List Item) : WriteM Unit := items.forM fun x => x.1.write x.2

def readItems (kinds : List Descriptor) : ReadM (List Item) :=
  kinds.mapM fun d => do
    let v ← d.read
    return ⟨d, v⟩

def itemBits (items : List Item) : List Bool := items.flatMap fun x => x.1.bits x.2

def itemWidth (items : List Item) : ℕ := (items.map fun x => x.1.width x.2).sum

theorem length_itemBits (items : List Item) : (itemBits items).length = itemWidth items := by
  rw [itemBits, List.length_flatMap, itemWidth]
  congr 1
  exact List.map_congr_left fun x _ => Descriptor.length_bits x.1 x.2

variable {items : List Item}

theorem writes_items (h : ∀ x ∈ items, x.1.Fits x.2) : Writes (writeItems items) () (itemBits items) :=
  writes_forM fun x hx => Descriptor.writes x.1 x.2 (h x hx)

theorem reads_items (h : ∀ x ∈ items, x.1.Fits x.2) :
    Reads (readItems (items.map (·.1))) (itemBits items) items := by
  have hread := reads_mapM (g := fun d : Descriptor => do
      let v ← d.read
      return (⟨d, v⟩ : Item)) fun x hx =>
    (Descriptor.reads x.1 x.2 (h x hx)).map fun v => (⟨x.1, v⟩ : Item)
  rwa [List.map_id'] at hread

/-- A call of `write` that returns counts its bits. -/
theorem write_numberOfWrittenBits {s s' : OutputBitstream} (hs : s.WF) {v n : ℕ} (hv : v < 2 ^ 32)
    (h : s.write v n = .ok s') :
    s'.WF ∧ s'.getNumberOfWrittenBits = u32 (s.getNumberOfWrittenBits + n) := by
  obtain ⟨hn, hvn⟩ := write_eq_ok hv h
  obtain ⟨t, ht, hwf, hbits⟩ := OutputBitstream.write_spec hs hn hvn
  obtain rfl : t = s' := by
    rw [ht] at h
    cases h
    rfl
  refine ⟨hwf, ?_⟩
  rw [OutputBitstream.getNumberOfWrittenBits_eq, OutputBitstream.getNumberOfWrittenBits_eq, hbits,
    List.length_append, length_toBits, u32, u32, u32, Nat.mod_add_mod]

/-- Any sequence of descriptors and the trailing bits come back as they were written. On
the way `getNumberOfWrittenBits` counts the bits: after each call of `write`, after each
descriptor and after the trailing bits. -/
theorem descriptors_roundTrip (items : List Item) (h : ∀ x ∈ items, x.1.Fits x.2) :
    (∃ s t,
      (do writeItems items; xWriteRbspTrailingBits : WriteM Unit) OutputBitstream.clear = .ok ((), s) ∧
      (do
        let values ← readItems (items.map (·.1))
        xReadRbspTrailingBits
        return values : ReadM (List Item)) (.ofFifo s.fifo) = .ok (items, t) ∧
      t.getNumBitsLeft = 0 ∧
      s.getNumberOfWrittenBits = u32 (8 * (itemWidth items / 8 + 1))) ∧
    (∀ done left, items = done ++ left → ∃ s, writeItems done OutputBitstream.clear = .ok ((), s) ∧
      s.getNumberOfWrittenBits = u32 (itemWidth done)) ∧
    ∀ (s s' : OutputBitstream) (v n : ℕ), s.WF → v < 2 ^ 32 → s.write v n = .ok s' →
      s'.WF ∧ s'.getNumberOfWrittenBits = u32 (s.getNumberOfWrittenBits + n) := by
  refine ⟨?_, ?_, fun s s' v n hs hv hw => write_numberOfWrittenBits hs hv hw⟩
  · obtain ⟨s₁, hs₁, h₁⟩ := writes_items h _ OutputBitstream.clear_wf
    obtain ⟨s, hs, hzero, h₂⟩ := xWriteRbspTrailingBits_ok h₁.wf
    obtain ⟨k, hk⟩ : ∃ k, k = (7 - s₁.numHeldBits) % 8 := ⟨_, rfl⟩
    rw [← hk] at h₂
    have hall : s.bits = itemBits items ++ (true :: List.replicate k false) := (h₁.trans h₂).bits_eq
    have hfifo : bytesBits s.fifo = s.bits := by
      rw [OutputBitstream.bits, hzero]
      exact (List.append_nil _).symm
    have hlen : s.bits.length = 8 * (itemWidth items / 8 + 1) := by
      have hheld := numHeldBits_eq h₁.wf
      have hfew := h₁.wf.few
      rw [h₁.bits_eq, OutputBitstream.bits_clear, List.nil_append, length_itemBits] at hheld
      rw [hall, List.length_append, length_itemBits, List.length_cons, List.length_replicate]
      omega
    have hat : (InputBitstream.ofFifo s.fifo).At s.fifo []
        (itemBits items ++ (true :: List.replicate k false)) :=
      ⟨rfl, rfl, Nat.zero_lt_succ 7, Nat.zero_le _, hfifo.trans hall⟩
    obtain ⟨t₁, ht₁, hat₁⟩ := reads_items h _ _ _ _ hat
    have hat₁ : t₁.At s.fifo [] (true :: List.replicate k false ++ []) := by
      rwa [List.append_nil]
    obtain ⟨t, ht, hat₂⟩ := xReadRbspTrailingBits_ok (hk ▸ Nat.mod_lt _ (by decide)) (by simp) hat₁
    refine ⟨s, t, ?_, ?_, ?_, ?_⟩
    · change (writeItems items OutputBitstream.clear >>= fun p => xWriteRbspTrailingBits p.2) = _
      rw [hs₁]
      exact hs
    · change (readItems (items.map (·.1)) (InputBitstream.ofFifo s.fifo) >>= fun p =>
        xReadRbspTrailingBits p.2 >>= fun q => .ok (p.1, q.2)) = _
      rw [ht₁, ok_bind, ht]
      rfl
    · have hleft := hat₂.numHeldBits_eq
      rw [List.length_nil, ← hat₂.fifo_eq] at hleft
      rw [InputBitstream.getNumBitsLeft, Nat.add_comm, ← hleft]
      rfl
    · rw [OutputBitstream.getNumberOfWrittenBits_eq, hlen]
  · rintro done left rfl
    obtain ⟨s, hs, h'⟩ := writes_items (fun x hx => h x (List.mem_append_left left hx)) _
      OutputBitstream.clear_wf
    refine ⟨s, hs, ?_⟩
    rw [OutputBitstream.getNumberOfWrittenBits_eq, h'.bits_eq, OutputBitstream.bits_clear,
      List.nil_append, length_itemBits]

/-- The greatest unsigned, the smallest signed and a negative fixed-length code together. -/
theorem extremes_roundTrip : ∃ s t,
    (do writeItems [⟨.ue, (2 ^ 32 - 2 : ℕ)⟩, ⟨.se, (1 - 2 ^ 31 : ℤ)⟩, ⟨.i 5, (-16 : ℤ)⟩, ⟨.flag, true⟩]
        xWriteRbspTrailingBits : WriteM Unit) OutputBitstream.clear = .ok ((), s) ∧
    (do
      let values ← readItems [.ue, .se, .i 5, .flag]
      xReadRbspTrailingBits
      return values : ReadM (List Item)) (.ofFifo s.fifo) =
        .ok ([⟨.ue, (2 ^ 32 - 2 : ℕ)⟩, ⟨.se, (1 - 2 ^ 31 : ℤ)⟩, ⟨.i 5, (-16 : ℤ)⟩, ⟨.flag, true⟩], t) := by
  obtain ⟨⟨s, t, hs, ht, -⟩, -⟩ := descriptors_roundTrip
    [⟨.ue, (2 ^ 32 - 2 : ℕ)⟩, ⟨.se, (1 - 2 ^ 31 : ℤ)⟩, ⟨.i 5, (-16 : ℤ)⟩, ⟨.flag, true⟩]
    (by simp [Descriptor.Fits])
  exact ⟨s, t, hs, ht⟩

end ECM.Hls
