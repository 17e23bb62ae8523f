import ECM.CommonLib.BinInterval
import ECM.CommonLib.BitStream

/-! # The arithmetic decoder

`BinDecoderBase` and `TBinDecoder`: the register `value` holds 16 bits and up
to eight more that wait for the next byte, counted by `bitsNeeded`. -/

namespace ECM.DecoderLib
open CommonLib CommonLib.BitStream CommonLib.Contexts

structure BinDecoder where
  ctx : CtxStore
  bitstream : InputBitstream
  range : Nat
  value : Nat
  bitsNeeded : Int
deriving Repr

namespace BinDecoder

/-- `init(bitstream)` and `start()`; the operands of the sum are read left to right. -/
def start (ctx : CtxStore) (bitstream : InputBitstream) : Checked BinDecoder := do
  check (bitstream.getNumBitsUntilByteAligned ≠ 0) "Bitstream is not byte aligned."
  let (hi, bitstream) ← bitstream.readByte
  let (lo, bitstream) ← bitstream.readByte
  return { ctx, bitstream, range := 510, value := hi.toNat <<< 8 + lo.toNat, bitsNeeded := -8 }

def finish (d : BinDecoder) : Checked Unit := do
  let lastByte ← d.bitstream.peekPreviousByte
  check ((lastByte.toNat <<< (8 + d.bitsNeeded).toNat) &&& 0xff ≠ 0x80)
    "No proper stop/alignment pattern at end of CABAC stream."

/-- `if( m_bitsNeeded >= 0 ) { m_Value += readByte() << m_bitsNeeded; m_bitsNeeded -= 8; }` -/
def refill (d : BinDecoder) : Checked BinDecoder :=
  if d.bitsNeeded ≥ 0 then do
    let (byte, bitstream) ← d.bitstream.readByte
    return { d with bitstream, value := u32 (d.value + byte.toNat <<< d.bitsNeeded.toNat),
                    bitsNeeded := d.bitsNeeded - 8 }
  else .ok d

/-- The comparison that ends `decodeBinEP`. -/
def decideEP (d : BinDecoder) : Bool × BinDecoder :=
  let sr := u32 (d.range <<< 7)
  if d.value ≥ sr then (true, { d with value := d.value - sr }) else (false, d)

def decodeBinEP (d : BinDecoder) : Checked (Bool × BinDecoder) :=
  let d := { d with value := u32 (d.value + d.value), bitsNeeded := d.bitsNeeded + 1 }
  if d.bitsNeeded ≥ 0 then do
    let (byte, bitstream) ← d.bitstream.readByte
    return decideEP { d with bitstream, value := u32 (d.value + byte.toNat), bitsNeeded := -8 }
  else .ok d.decideEP

/-- The `for` loops of `decodeBinsEP`: one bin for each halving of `sr`. -/
def extractBins : Nat → (value sr bins : Nat) → Nat × Nat
  | 0, value, _, bins => (value, bins)
  | n + 1, value, sr, bins =>
    let bins := u32 (bins + bins)
    let sr := sr >>> 1
    if value ≥ sr then extractBins n (value - sr) sr (u32 (bins + 1)) else extractBins n value sr bins

/-- One pass of the `while( remBins > 8 )` loop. -/
def decodeEightBins (d : BinDecoder) (bins : Nat) : Checked (Nat × BinDecoder) := do
  let (byte, bitstream) ← d.bitstream.readByte
  let value := u32 (u32 (d.value <<< 8) + byte.toNat <<< (8 + d.bitsNeeded).toNat)
  let (value, bins) := extractBins 8 value (u32 (d.range <<< 15)) bins
  return (bins, { d with bitstream, value })

/-- The part of `decodeBinsEP` after that loop. -/
def decodeRestBins (d : BinDecoder) (bins remBins : Nat) : Checked (Nat × BinDecoder) := do
  let d ← refill { d with bitsNeeded := d.bitsNeeded + remBins, value := u32 (d.value <<< remBins) }
  let (value, bins) := extractBins remBins d.value (u32 (d.range <<< (remBins + 7))) bins
  return (bins, { d with value })

def decodeBinsLoop (d : BinDecoder) (bins remBins : Nat) : Checked (Nat × BinDecoder) :=
  if remBins > 8 then do
    let (bins, d) ← d.decodeEightBins bins
    decodeBinsLoop d bins (remBins - 8)
  else d.decodeRestBins bins remBins
termination_by remBins

/-- One pass of the loop of `decodeAlignedBinsEP`. -/
def decodeAlignedBins (d : BinDecoder) (bins binsToRead : Nat) : Checked (Nat × BinDecoder) := do
  let binMask := 1 <<< binsToRead - 1
  let newBins := (d.value >>> (15 - binsToRead)) &&& binMask
  let bins := u32 (bins <<< binsToRead) ||| newBins
  let value := u32 (d.value <<< binsToRead) &&& 0x7FFF
  let bitsNeeded := d.bitsNeeded + binsToRead
  if bitsNeeded ≥ 0 then
    let (byte, bitstream) ← d.bitstream.readByte
    return (bins, { d with bitstream, value := value ||| byte.toNat <<< bitsNeeded.toNat,
                           bitsNeeded := bitsNeeded - 8 })
  else return (bins, { d with value, bitsNeeded })

def decodeAlignedBinsEP (d : BinDecoder) (bins remBins : Nat) : Checked (Nat × BinDecoder) :=
  if remBins = 0 then .ok (bins, d) else do
    let binsToRead := min remBins 8
    let (bins, d) ← d.decodeAlignedBins bins binsToRead
    decodeAlignedBinsEP d bins (remBins - binsToRead)
termination_by remBins

def decodeBinsEP (d : BinDecoder) (numBins : Nat) : Checked (Nat × BinDecoder) :=
  if d.range = 256 then d.decodeAlignedBinsEP 0 numBins else d.decodeBinsLoop 0 numBins

def decodeBinTrm (d : BinDecoder) : Checked (Bool × BinDecoder) :=
  let range := sub32 d.range 2
  let sr := u32 (range <<< 7)
  if d.value ≥ sr then .ok (true, { d with range })
  else if range < 256 then
    let d := { d with range := u32 (range + range), value := u32 (d.value + d.value),
                      bitsNeeded := d.bitsNeeded + 1 }
    if d.bitsNeeded = 0 then do
      let (byte, bitstream) ← d.bitstream.readByte
      return (false, { d with bitstream, value := u32 (d.value + byte.toNat), bitsNeeded := -8 })
    else .ok (false, d)
  else .ok (false, { d with range })

/-- `decodeBin` up to the update of the model. -/
def decodeSplit (d : BinDecoder) (m : BinProbModel) : Checked (Nat × BinDecoder) :=
  let bin := m.mps
  let lps := m.getLPS d.range
  let range := sub32 d.range lps
  let sr := u32 (range <<< 7)
  if d.value < sr then
    if range < 256 then do
      let numBits := BinProbModel.getRenormBitsRange range
      let d ← refill { d with range := u32 (range <<< numBits), value := u32 (d.value <<< numBits),
                              bitsNeeded := d.bitsNeeded + numBits }
      return (bin, d)
    else .ok (bin, { d with range })
  else do
    let numBits := BinProbModel.getRenormBitsLPS lps
    let d ← refill { d with range := u32 (lps <<< numBits), value := u32 ((d.value - sr) <<< numBits),
                            bitsNeeded := d.bitsNeeded + numBits }
    return (1 - bin, d)

def decodeBin (d : BinDecoder) (ctxId : Nat) : Checked (Bool × BinDecoder) := do
  let (bin, d') ← d.decodeSplit (d.ctx.model ctxId)
  return (bin ≠ 0, { d' with ctx := d.ctx.update ctxId (bin ≠ 0) })

end BinDecoder

end ECM.DecoderLib

/-! # The decoder's register holds the codeword's distance from the interval

`Decodes d I bs`: the decoder has read as many bytes of `bs` as the scale of
`I` asks for, and `value` is their distance from the low end of `I`. Every
decoding step returns the bin whose interval contains the codeword and moves
the registers to that interval. -/

namespace ECM.DecoderLib.BinDecoder
open CommonLib CommonLib.BitStream CommonLib.Contexts CommonLib.BinInterval
open Lib.Bits Lib.IntervalCoder

/-- `Decodes` without the range, which the source updates apart. -/
structure Reads (d : BinDecoder) (I : Interval) (bs : List UInt8) : Prop where
  fifo_eq : d.bitstream.fifo = bs
  window : I.Window 9 7 bs d.bitstream.fifoIdx d.value
  bitsNeeded_eq : d.bitsNeeded = 8 + I.shift - 8 * d.bitstream.fifoIdx

structure Decodes (d : BinDecoder) (I : Interval) (bs : List UInt8) : Prop extends Reads d I bs where
  range_eq : d.range = I.range
  ranged : Ranged I

variable {d : BinDecoder} {I : Interval} {bs : List UInt8}

theorem Reads.mem (h : Reads d I bs) : -8 ≤ d.bitsNeeded ∧ d.bitsNeeded < 0 := by
  have hr := h.window.read
  have hu := h.window.unread
  have hb := h.bitsNeeded_eq
  omega

/-- A codeword long enough for the scaled interval still has the byte to read. -/
theorem Reads.inside (h : Reads d I bs) {k : Nat} (hlong : 9 + (I.shift + k) ≤ 8 * bs.length)
    (hneed : 0 ≤ d.bitsNeeded + k) : d.bitstream.fifoIdx < bs.length := by
  have hb := h.bitsNeeded_eq
  omega

theorem Reads.readByte (h : Reads d I bs) (hidx : d.bitstream.fifoIdx < bs.length) :
    d.bitstream.readByte =
      .ok (bs[d.bitstream.fifoIdx], { d.bitstream with fifoIdx := d.bitstream.fifoIdx + 1 }) := by
  obtain ⟨hfifo, -, -⟩ := h
  subst hfifo
  exact InputBitstream.readByte_ok hidx

theorem byte_shift_lt (b : UInt8) {n : Nat} (hn : n ≤ 7) : b.toNat * 2 ^ n ≤ 255 * 2 ^ 7 :=
  Nat.mul_le_mul (by have := b.toNat_lt; omega) (Nat.pow_le_pow_right (by omega) hn)

/-- A register that is scaled and, if need be, refilled belongs to the scaled
interval; `v` and `n` are the registers the source leaves. -/
theorem Reads.scale_read (h : Reads d I bs) {k : Nat} (hk : k ≤ 8)
    (hneed : 0 ≤ d.bitsNeeded + k) (hidx : d.bitstream.fifoIdx < bs.length) {v n r}
    (hvalue : v = d.value * 2 ^ k +
      bs[d.bitstream.fifoIdx].toNat * 2 ^ (d.bitsNeeded + k).toNat)
    (hneeded : n = d.bitsNeeded + k - 8) :
    Reads { d with bitstream := { d.bitstream with fifoIdx := d.bitstream.fifoIdx + 1 },
                   range := r, value := v, bitsNeeded := n } (I.scale k) bs := by
  have hb := h.bitsNeeded_eq
  refine ⟨h.fifo_eq, ?_, by simp only [Interval.scale_shift]; push_cast; omega⟩
  have hw := h.window.scale_refill (k := k) (by omega) hk hidx
  rwa [show 9 + 7 + (I.shift + k) - (8 * d.bitstream.fifoIdx + 8) = (d.bitsNeeded + k).toNat by
    omega, ← hvalue] at hw

theorem Reads.scale_keep (h : Reads d I bs) {k : Nat} (hneed : d.bitsNeeded + k < 0) (range' : Nat) :
    Reads { d with range := range', value := d.value * 2 ^ k, bitsNeeded := d.bitsNeeded + k }
      (I.scale k) bs := by
  have hb := h.bitsNeeded_eq
  exact ⟨h.fifo_eq, h.window.scale (by omega), by simp only [Interval.scale_shift]; push_cast; omega⟩

theorem Reads.refill (h : Reads d I bs) {k : Nat} (hk : k ≤ 8)
    (hlong : 9 + (I.shift + k) ≤ 8 * bs.length) (hvalue : d.value < 2 ^ 16) (range' : Nat) :
    ∃ d', BinDecoder.refill { d with range := range', value := u32 (d.value <<< k),
                                     bitsNeeded := d.bitsNeeded + k } = .ok d' ∧
      Reads d' (I.scale k) bs ∧ d'.range = range' ∧ d'.ctx = d.ctx := by
  obtain ⟨hlo, hhi⟩ := h.mem
  have hk8 : 2 ^ k ≤ 2 ^ 8 := Nat.pow_le_pow_right (by omega) hk
  have hmul : d.value * 2 ^ k ≤ d.value * 2 ^ 8 := Nat.mul_le_mul_left _ hk8
  rw [Nat.shiftLeft_eq, u32_of_lt (show d.value * 2 ^ k < 2 ^ 32 by omega)]
  unfold BinDecoder.refill
  split
  · next hneed =>
    have hidx := h.inside hlong hneed
    have hbyte := byte_shift_lt bs[d.bitstream.fifoIdx] (show (d.bitsNeeded + k).toNat ≤ 7 by omega)
    simp only [h.readByte hidx, ok_bind]
    refine ⟨_, rfl, h.scale_read hk hneed hidx ?_ rfl, rfl, rfl⟩
    rw [Nat.shiftLeft_eq, u32_of_lt (by omega)]
  · next hneed => exact ⟨_, rfl, h.scale_keep (by simpa using hneed) range', rfl, rfl⟩

theorem Reads.narrow (h : Reads d I bs) {a value' : Nat} (ha : a * 2 ^ 7 ≤ d.value) (r range' : Nat)
    (hv : value' = d.value - a * 2 ^ 7) :
    Reads { d with range := range', value := value' } (I.narrow a r) bs :=
  ⟨h.fifo_eq, hv ▸ h.window.narrow ha r, h.bitsNeeded_eq⟩

theorem Decodes.value_lt (h : Decodes d I bs) (hc : I.Contains 9 bs) : d.value < I.range * 2 ^ 7 :=
  h.window.value_lt (by omega) hc

theorem Decodes.value_lt_16 (h : Decodes d I bs) (hc : I.Contains 9 bs) : d.value < 2 ^ 16 := by
  have hv := h.value_lt hc
  have hr := h.ranged.le
  omega

/-! ## Starting -/

theorem start_decodes (ctx : CtxStore) (hlen : 2 ≤ bs.length) :
    ∃ d, BinDecoder.start ctx (.ofFifo bs) = .ok d ∧ Decodes d BinInterval.start bs ∧ d.ctx = ctx := by
  match bs, hlen with
  | a :: b :: rest, _ =>
    have hstart : BinDecoder.start ctx (.ofFifo (a :: b :: rest)) =
        .ok ⟨ctx, ⟨a :: b :: rest, [], 2, 0, 0⟩, 510, a.toNat <<< 8 + b.toNat, -8⟩ := rfl
    refine ⟨_, hstart, ⟨⟨rfl, ⟨?_, ?_, ?_, ?_⟩, rfl⟩, rfl, start_ranged⟩, rfl⟩
    · simp [BinInterval.start]
    · simp [BinInterval.start]
    · simp
    · simp [BinInterval.start, ofBytes, Nat.shiftLeft_eq, Nat.mul_comm]

/-! ## Bypass bins -/

theorem Contains.of_binsEP {v n : Nat} (hv : v < 2 ^ n) (h : (binsEP I v n).Contains 9 bs) :
    I.Contains 9 bs := by
  refine Interval.Contains.of_scale (k := n) (Interval.Contains.of_narrow ?_ h)
  have := Nat.mul_le_mul_left I.range (Nat.succ_le_of_lt hv)
  simpa [Nat.mul_succ] using this

/-- Restoring division, one quotient bit for each halving of the divisor. -/
theorem extractBins_spec (n : Nat) : ∀ {value r bins : Nat}, value < r * 2 ^ n →
    (bins + 1) * 2 ^ n ≤ 2 ^ 32 →
    extractBins n value (r * 2 ^ n) bins = (value % r, bins * 2 ^ n + value / r) := by
  induction n with
  | zero =>
    intro value r bins hv _
    rw [Nat.pow_zero, Nat.mul_one] at hv
    simp [extractBins, Nat.mod_eq_of_lt hv, Nat.div_eq_of_lt hv]
  | succ n ih =>
    intro value r bins hv hbins
    have hpos := Nat.two_pow_pos n
    have hhalf : (r * 2 ^ (n + 1)) >>> 1 = r * 2 ^ n := by
      rw [Nat.shiftRight_eq_div_pow, Nat.pow_succ, ← Nat.mul_assoc]
      exact Nat.mul_div_cancel _ (by omega)
    have htwice : r * (2 ^ n * 2) = r * 2 ^ n + r * 2 ^ n := by ring
    rw [Nat.pow_succ] at hv hbins
    have hdouble : bins * (2 ^ n * 2) = (bins + bins) * 2 ^ n := by ring
    have hbound : (bins + bins + 1 + 1) * 2 ^ n ≤ 2 ^ 32 := by
      rw [show (bins + bins + 1 + 1) * 2 ^ n = (bins + 1) * (2 ^ n * 2) by ring]
      exact hbins
    have hone : (bins + bins + 1) * 2 ^ n ≤ (bins + bins + 1 + 1) * 2 ^ n :=
      Nat.mul_le_mul_right _ (by omega)
    have hle : bins + bins + 1 + 1 ≤ (bins + bins + 1 + 1) * 2 ^ n := Nat.le_mul_of_pos_right _ hpos
    unfold extractBins
    simp only [hhalf, u32_of_lt (show bins + bins < 2 ^ 32 by omega)]
    split
    · next hge =>
      have hr : 0 < r := by
        rcases Nat.eq_zero_or_pos r with h0 | h0
        · subst h0; omega
        · exact h0
      rw [u32_of_lt (by omega), ih (by omega) hbound]
      have hsub : value = (value - r * 2 ^ n) + r * 2 ^ n := by omega
      have hmod : value % r = (value - r * 2 ^ n) % r := by
        conv_lhs => rw [hsub, Nat.add_mul_mod_self_left]
      have hdiv : value / r = (value - r * 2 ^ n) / r + 2 ^ n := by
        conv_lhs => rw [hsub, Nat.add_mul_div_left _ _ hr]
      rw [hmod, hdiv, Nat.pow_succ, hdouble, Nat.add_one_mul (bins + bins)]
      congr 1
      omega
    · next hlt =>
      rw [ih (by omega) (le_trans hone hbound), Nat.pow_succ, hdouble]

/-- The registers after `n` bins were taken off at once. -/
theorem Reads.extract (h : Reads d (I.scale n) bs) {v bins : Nat} (hranged : Ranged I)
    (hc : (binsEP I v n).Contains 9 bs) (hv : v < 2 ^ n) (hbins : (bins + 1) * 2 ^ n ≤ 2 ^ 32) :
    ∃ value', extractBins n d.value (I.range * 2 ^ 7 * 2 ^ n) bins = (value', bins * 2 ^ n + v) ∧
      Reads { d with value := value' } (binsEP I v n) bs := by
  have hge := h.window.le_value (by omega) hc
  have hlt := h.window.lt_value (by omega) hc
  have hpos : 0 < I.range * 2 ^ 7 := Nat.mul_pos (by have := hranged.ge; omega) (by omega)
  have hge' : I.range * 2 ^ 7 * v ≤ d.value := by linarith
  have hlt' : d.value < I.range * 2 ^ 7 * (v + 1) := by linarith
  have hdiv : d.value / (I.range * 2 ^ 7) = v :=
    Nat.div_eq_of_lt_le (by linarith) (by linarith)
  have hmod : d.value % (I.range * 2 ^ 7) = d.value - I.range * v * 2 ^ 7 := by
    have := Nat.div_add_mod d.value (I.range * 2 ^ 7)
    rw [hdiv, show I.range * 2 ^ 7 * v = I.range * v * 2 ^ 7 by ring] at this
    omega
  refine ⟨_, ?_, h.narrow hge I.range d.range rfl⟩
  have hbound : d.value < I.range * 2 ^ 7 * 2 ^ n :=
    lt_of_lt_of_le hlt' (Nat.mul_le_mul_left _ hv)
  rw [extractBins_spec n hbound hbins, hdiv, hmod]

theorem Decodes.decodeEightBins (h : Decodes d I bs) {v bins : Nat} (hv : v < 2 ^ 8)
    (hc : (binsEP I v 8).Contains 9 bs) (hbins : (bins + 1) * 2 ^ 8 ≤ 2 ^ 32) :
    ∃ d', d.decodeEightBins bins = .ok (bins * 2 ^ 8 + v, d') ∧ Decodes d' (binsEP I v 8) bs ∧
      d'.ctx = d.ctx := by
  obtain ⟨hlo, hhi⟩ := h.mem
  have hidx := h.inside (k := 8) hc.long (by omega)
  have hsr : u32 (d.range <<< 15) = I.range * 2 ^ 7 * 2 ^ 8 := by
    have hrange := h.ranged.le
    rw [h.range_eq, Nat.shiftLeft_eq, Nat.mul_assoc, ← Nat.pow_add, u32_of_lt]
    omega
  obtain ⟨s, hs⟩ : ∃ s, s = (8 + d.bitsNeeded).toNat := ⟨_, rfl⟩
  have hval : u32 (u32 (d.value <<< 8) + bs[d.bitstream.fifoIdx].toNat <<< s) =
      d.value * 2 ^ 8 + bs[d.bitstream.fifoIdx].toNat * 2 ^ s := by
    have hbyte := byte_shift_lt bs[d.bitstream.fifoIdx] (show s ≤ 7 by omega)
    have hvalue := h.value_lt_16 (Contains.of_binsEP hv hc)
    rw [Nat.shiftLeft_eq, Nat.shiftLeft_eq, u32_of_lt (show d.value * 2 ^ 8 < 2 ^ 32 by omega),
      u32_of_lt (by omega)]
  have hreads := h.scale_read (k := 8) (n := d.bitsNeeded) (r := d.range) (by omega)
    (by omega) hidx rfl (by omega)
  rw [show (d.bitsNeeded + (8 : ℕ)).toNat = s by omega] at hreads
  obtain ⟨value', hex, hnarrow⟩ := hreads.extract h.ranged hc hv hbins
  refine ⟨_, ?_, ⟨hnarrow, h.range_eq, binsEP_ranged h.ranged v 8⟩, rfl⟩
  simp only [BinDecoder.decodeEightBins, h.readByte hidx, ok_bind, ← hs, hval, hsr]
  simp only [hex]
  rfl

theorem Decodes.decodeRestBins (h : Decodes d I bs) {v n bins : Nat} (hn : n ≤ 8) (hv : v < 2 ^ n)
    (hc : (binsEP I v n).Contains 9 bs) (hbins : (bins + 1) * 2 ^ n ≤ 2 ^ 32) :
    ∃ d', d.decodeRestBins bins n = .ok (bins * 2 ^ n + v, d') ∧ Decodes d' (binsEP I v n) bs ∧
      d'.ctx = d.ctx := by
  have hvalue := h.value_lt_16 (Contains.of_binsEP hv hc)
  obtain ⟨d₁, hd₁, h₁, hrange, hctx⟩ := h.refill hn hc.long hvalue d.range
  obtain ⟨value', hex, hnarrow⟩ := h₁.extract h.ranged hc hv hbins
  have hsr : u32 (d₁.range <<< (n + 7)) = I.range * 2 ^ 7 * 2 ^ n := by
    have h8 : 2 ^ n ≤ 2 ^ 8 := Nat.pow_le_pow_right (by omega) hn
    have hmul : I.range * 2 ^ 7 * 2 ^ n ≤ 510 * 2 ^ 7 * 2 ^ 8 :=
      Nat.mul_le_mul (Nat.mul_le_mul_right _ h.ranged.le) h8
    rw [hrange, h.range_eq, Nat.shiftLeft_eq, Nat.pow_add, Nat.mul_comm (2 ^ n), ← Nat.mul_assoc,
      u32_of_lt (by omega)]
  refine ⟨_, ?_, ⟨hnarrow, hrange.trans h.range_eq, binsEP_ranged h.ranged v n⟩, hctx⟩
  have hd₁' : BinDecoder.refill { d with bitsNeeded := d.bitsNeeded + n, value := u32 (d.value <<< n) } =
      .ok d₁ := hd₁
  simp only [BinDecoder.decodeRestBins, hd₁', ok_bind, hsr, hex]
  rfl

/-- A value splits into its first `k` bins and the rest. -/
theorem splitBins (I : Interval) {v n k : Nat} (hv : v < 2 ^ n) (hk : k ≤ n) :
    v / 2 ^ (n - k) < 2 ^ k ∧ v % 2 ^ (n - k) < 2 ^ (n - k) ∧
      binsEP (binsEP I (v / 2 ^ (n - k)) k) (v % 2 ^ (n - k)) (n - k) = binsEP I v n ∧
      v / 2 ^ (n - k) * 2 ^ (n - k) + v % 2 ^ (n - k) = v := by
  have hp : 2 ^ k * 2 ^ (n - k) = 2 ^ n := by rw [← Nat.pow_add]; congr 1; omega
  have hsum := Nat.div_add_mod' v (2 ^ (n - k))
  refine ⟨?_, Nat.mod_lt _ (Nat.two_pow_pos _), ?_, hsum⟩
  · rw [Nat.div_lt_iff_lt_mul (Nat.two_pow_pos _), hp]
    exact hv
  · rw [binsEP_binsEP, hsum, show k + (n - k) = n by omega]

/-- The accumulated bins stay inside 32 bits when they are read in two portions. -/
theorem splitAcc {bins v n k : Nat} (hbins : (bins + 1) * 2 ^ n ≤ 2 ^ 32) (hv : v < 2 ^ n)
    (hk : k ≤ n) :
    (bins * 2 ^ k + v / 2 ^ (n - k)) * 2 ^ (n - k) + v % 2 ^ (n - k) = bins * 2 ^ n + v ∧
      (bins + 1) * 2 ^ k ≤ 2 ^ 32 ∧
      (bins * 2 ^ k + v / 2 ^ (n - k) + 1) * 2 ^ (n - k) ≤ 2 ^ 32 := by
  obtain ⟨hhead, -, -, hsum⟩ := splitBins ⟨0, 0, 0⟩ hv hk
  have hp : 2 ^ n = 2 ^ k * 2 ^ (n - k) := by rw [← Nat.pow_add]; congr 1; omega
  rw [hp, ← Nat.mul_assoc] at hbins
  refine ⟨?_, le_trans (Nat.le_mul_of_pos_right _ (Nat.two_pow_pos _)) hbins,
    le_trans (Nat.mul_le_mul_right _ ?_) hbins⟩
  · rw [Nat.add_mul, Nat.add_assoc, hsum, Nat.mul_assoc, ← hp]
  · rw [Nat.add_one_mul]
    omega

theorem Decodes.decodeBinsLoop (n : Nat) : ∀ {d : BinDecoder} {I : Interval} {v bins : Nat},
    Decodes d I bs → v < 2 ^ n → (binsEP I v n).Contains 9 bs → (bins + 1) * 2 ^ n ≤ 2 ^ 32 →
    ∃ d', d.decodeBinsLoop bins n = .ok (bins * 2 ^ n + v, d') ∧ Decodes d' (binsEP I v n) bs ∧
      d'.ctx = d.ctx := by
  induction n using Nat.strongRecOn with
  | ind n ih =>
    intro d I v bins h hv hc hbins
    unfold BinDecoder.decodeBinsLoop
    split
    · next hgt =>
      -- the first eight bins are the high part of `v`
      obtain ⟨hhead, hrest, hjoin, hsum⟩ := splitBins I hv (show 8 ≤ n by omega)
      rw [← hjoin] at hc ⊢
      obtain ⟨hacc, hbins', hnext⟩ := splitAcc hbins hv (show 8 ≤ n by omega)
      obtain ⟨d₁, hd₁, h₁, hctx₁⟩ := h.decodeEightBins hhead (Contains.of_binsEP hrest hc) hbins'
      obtain ⟨d₂, hd₂, h₂, hctx₂⟩ := ih (n - 8) (by omega) h₁ hrest hc hnext
      refine ⟨d₂, ?_, h₂, hctx₂.trans hctx₁⟩
      simp only [hd₁, ok_bind, hd₂, hacc]
    · exact h.decodeRestBins (by omega) hv hc hbins

/-- The unread bits of the register are zero. -/
theorem Reads.dvd_value (h : Reads d I bs) :
    ∃ m, d.value = m * 2 ^ (8 + d.bitsNeeded).toNat := by
  have hr := h.window.read
  have hb := h.bitsNeeded_eq
  have hu := h.window.unread
  have hv := h.window.value_eq
  obtain ⟨r, hr'⟩ : ∃ r, r = (8 + d.bitsNeeded).toNat := ⟨_, rfl⟩
  rw [show 9 + 7 + I.shift - 8 * d.bitstream.fifoIdx = r by omega,
    show (7 : Nat) = (7 - r) + r by omega, Nat.pow_add, ← Nat.mul_assoc] at hv
  refine ⟨ofBytes (bs.take d.bitstream.fifoIdx) - I.low * 2 ^ (7 - r), ?_⟩
  rw [← hr', Nat.sub_mul]
  omega

/-- The aligned mode reads its bins off the top of a 15-bit register: `m * a`
are the bits in use, `y` the byte or-ed in below them. -/
theorem aligned_split {a b m y v : Nat} (hab : a * b = 2 ^ 15) (hy : y < a)
    (hge : v * 2 ^ 15 ≤ m * a + y) (hlt : m * a + y < (v + 1) * 2 ^ 15) :
    m * a / 2 ^ 15 = v ∧ m * a % 2 ^ 15 + y = m * a + y - v * 2 ^ 15 := by
  have ha : 0 < a := by omega
  have hdiv : (m * a + y) / 2 ^ 15 = v := Nat.div_eq_of_lt_le hge hlt
  have hq : m * a / 2 ^ 15 = v := by
    rw [← hdiv, ← hab, ← Nat.div_div_eq_div_mul, ← Nat.div_div_eq_div_mul, Nat.mul_div_cancel _ ha,
      Nat.mul_comm m, Nat.mul_add_div ha, Nat.div_eq_of_lt hy, Nat.add_zero]
  have hmod := Nat.div_add_mod (m * a) (2 ^ 15)
  rw [hq] at hmod
  refine ⟨hq, ?_⟩
  omega

/-- What is left of the window after the aligned mode took its bins off. -/
theorem Reads.aligned {d : BinDecoder} {a b m y v n : Nat} (h : Reads d (I.scale n) bs)
    (h256 : I.range = 256) (hranged : Ranged I) (hrange : d.range = I.range)
    (hc : (binsEP I v n).Contains 9 bs) (hab : a * b = 2 ^ 15) (hy : y < a)
    (hvalue : d.value = m * a + y) :
    m * a / 2 ^ 15 = v ∧
      Decodes { d with value := m * a % 2 ^ 15 + y } (binsEP I v n) bs := by
  have hge := h.window.le_value (by omega) hc
  have hlt := h.window.lt_value (by omega) hc
  rw [hvalue, h256] at hge hlt
  have hv15 : 256 * v * 2 ^ 7 = v * 2 ^ 15 := by ring
  have hv15' : (256 * v + 256) * 2 ^ 7 = (v + 1) * 2 ^ 15 := by ring
  rw [hv15] at hge
  rw [hv15'] at hlt
  obtain ⟨hq, hrest⟩ := aligned_split hab hy hge hlt
  refine ⟨hq, h.narrow ?_ I.range d.range ?_, hrange, binsEP_ranged hranged v n⟩
  · rw [hvalue, h256, hv15]
    exact hge
  · rw [hvalue, h256, hv15, hrest]

theorem Decodes.decodeAlignedBins (h : Decodes d I bs) (h256 : I.range = 256) {v n bins : Nat}
    (hn : n ≤ 8) (hv : v < 2 ^ n) (hc : (binsEP I v n).Contains 9 bs)
    (hbins : (bins + 1) * 2 ^ n ≤ 2 ^ 32) :
    ∃ d', d.decodeAlignedBins bins n = .ok (bins * 2 ^ n + v, d') ∧ Decodes d' (binsEP I v n) bs ∧
      d'.ctx = d.ctx := by
  obtain ⟨hlo, hhi⟩ := h.mem
  have hvalue := h.value_lt (Contains.of_binsEP hv hc)
  rw [h256] at hvalue
  obtain ⟨r, hr⟩ : ∃ r, r = (8 + d.bitsNeeded).toNat := ⟨_, rfl⟩
  obtain ⟨m, hm⟩ := h.dvd_value
  rw [← hr] at hm
  obtain ⟨a, ha⟩ : ∃ a, a = 2 ^ (r + n) := ⟨_, rfl⟩
  have hab : a * 2 ^ (15 - (r + n)) = 2 ^ 15 := by rw [ha, ← Nat.pow_add]; congr 1; omega
  have hma : d.value * 2 ^ n = m * a := by rw [hm, Nat.mul_assoc, ← Nat.pow_add, ha]
  have hshl : u32 (d.value <<< n) &&& 0x7FFF = m * a % 2 ^ 15 := by
    have hmul : d.value * 2 ^ n ≤ d.value * 2 ^ 8 :=
      Nat.mul_le_mul_left _ (Nat.pow_le_pow_right (by omega) hn)
    rw [Nat.shiftLeft_eq, u32_of_lt (by omega), hma]
    exact Nat.and_two_pow_sub_one_eq_mod _ 15
  -- the bins are the top of the register
  have hnew : (d.value >>> (15 - n)) &&& (1 <<< n - 1) = m * a / 2 ^ 15 := by
    have hp : 2 ^ 15 = 2 ^ (15 - n) * 2 ^ n := by rw [← Nat.pow_add]; congr 1; omega
    rw [Nat.one_shiftLeft, Nat.and_two_pow_sub_one_eq_mod, Nat.shiftRight_eq_div_pow, ← hma, hp,
      Nat.mul_div_mul_right _ _ (Nat.two_pow_pos n), Nat.mod_eq_of_lt]
    rw [Nat.div_lt_iff_lt_mul (Nat.two_pow_pos _), Nat.mul_comm, ← hp]
    omega
  have hor : u32 (bins <<< n) ||| v = bins * 2 ^ n + v := by
    have hpos := Nat.two_pow_pos n
    rw [Nat.add_one_mul] at hbins
    rw [Nat.shiftLeft_eq, u32_of_lt (by omega), Nat.mul_comm, ← Nat.two_pow_add_eq_or_of_lt hv]
  simp only [BinDecoder.decodeAlignedBins, hshl, hnew]
  split
  · next hneed =>
    have hidx := h.inside hc.long hneed
    obtain ⟨s, hs⟩ : ∃ s, s = (d.bitsNeeded + n).toNat := ⟨_, rfl⟩
    have hbyte : bs[d.bitstream.fifoIdx].toNat * 2 ^ s < a := by
      rw [ha, show r + n = 8 + s by omega, Nat.pow_add]
      exact Nat.mul_lt_mul_of_pos_right bs[d.bitstream.fifoIdx].toNat_lt (Nat.two_pow_pos s)
    have hreads := h.scale_read (r := d.range) hn hneed hidx rfl rfl
    rw [hma, ← hs] at hreads
    obtain ⟨hq, hd⟩ := hreads.aligned h256 h.ranged h.range_eq hc hab hbyte rfl
    have hlow : m * a % 2 ^ 15 ||| bs[d.bitstream.fifoIdx].toNat <<< s =
        m * a % 2 ^ 15 + bs[d.bitstream.fifoIdx].toNat * 2 ^ s := by
      rw [Nat.shiftLeft_eq, ← hab, Nat.mul_comm m, Nat.mul_mod_mul_left]
      rw [ha] at hbyte ⊢
      rw [← Nat.two_pow_add_eq_or_of_lt hbyte]
    simp only [h.readByte hidx, ok_bind, hq, hor, ← hs, hlow]
    exact ⟨_, rfl, hd, rfl⟩
  · next hneed =>
    have hkeep := h.scale_keep (k := n) (by omega) d.range
    rw [hma] at hkeep
    obtain ⟨hq, hd⟩ := hkeep.aligned (y := 0) h256 h.ranged h.range_eq hc hab
      (ha ▸ Nat.two_pow_pos _) rfl
    simp only [hq, hor]
    exact ⟨_, rfl, hd, rfl⟩

theorem Decodes.decodeAlignedBinsEP (n : Nat) : ∀ {d : BinDecoder} {I : Interval} {v bins : Nat},
    Decodes d I bs → I.range = 256 → v < 2 ^ n → (binsEP I v n).Contains 9 bs →
    (bins + 1) * 2 ^ n ≤ 2 ^ 32 →
    ∃ d', d.decodeAlignedBinsEP bins n = .ok (bins * 2 ^ n + v, d') ∧
      Decodes d' (binsEP I v n) bs ∧ d'.ctx = d.ctx := by
  induction n using Nat.strongRecOn with
  | ind n ih =>
    intro d I v bins h h256 hv hc hbins
    unfold BinDecoder.decodeAlignedBinsEP
    split
    · next h0 =>
      subst h0
      rw [Nat.pow_zero, Nat.lt_one_iff] at hv
      subst hv
      exact ⟨d, by simp, by simpa using h, rfl⟩
    · next h0 =>
      obtain ⟨k, hk⟩ : ∃ k, k = min n 8 := ⟨_, rfl⟩
      obtain ⟨hhead, hrest, hjoin, hsum⟩ := splitBins I hv (show k ≤ n by omega)
      rw [← hjoin] at hc ⊢
      obtain ⟨hacc, hbins', hnext⟩ := splitAcc hbins hv (show k ≤ n by omega)
      obtain ⟨d₁, hd₁, h₁, hctx₁⟩ := h.decodeAlignedBins h256 (show k ≤ 8 by omega) hhead
        (Contains.of_binsEP hrest hc) hbins'
      obtain ⟨d₂, hd₂, h₂, hctx₂⟩ := ih (n - k) (by omega) h₁ h256 hrest hc hnext
      refine ⟨d₂, ?_, h₂, hctx₂.trans hctx₁⟩
      simp only [← hk, hd₁, ok_bind, hd₂, hacc]

/-- `decodeBinsEP` returns the value whose part of the interval has the codeword. -/
theorem Decodes.decodeBinsEP (h : Decodes d I bs) {v n : Nat} (hn : n ≤ 32) (hv : v < 2 ^ n)
    (hc : (binsEP I v n).Contains 9 bs) :
    ∃ d', d.decodeBinsEP n = .ok (v, d') ∧ Decodes d' (binsEP I v n) bs ∧ d'.ctx = d.ctx := by
  have hbins : (0 + 1) * 2 ^ n ≤ 2 ^ 32 := by
    simpa using Nat.pow_le_pow_right (show 0 < 2 by omega) hn
  unfold BinDecoder.decodeBinsEP
  split
  · next h256 =>
    simpa using Decodes.decodeAlignedBinsEP n h (h.range_eq.symm.trans h256) hv hc hbins
  · simpa using Decodes.decodeBinsLoop n h hv hc hbins

theorem Decodes.decideEP {d : BinDecoder} (h : Reads d (I.scale 1) bs) (hrange : d.range = I.range)
    (hranged : Ranged I) {b : Bool} (hc : (binEP I b).Contains 9 bs) :
    d.decideEP.1 = b ∧ Decodes d.decideEP.2 (binEP I b) bs ∧ d.decideEP.2.ctx = d.ctx := by
  have hge := h.window.le_value (by omega) hc
  have hlt := h.window.lt_value (by omega) hc
  have hle := hranged.le
  have hsr : u32 (d.range <<< 7) = I.range * 2 ^ 7 := by
    rw [hrange, Nat.shiftLeft_eq, u32_of_lt (by omega)]
  unfold BinDecoder.decideEP
  rw [hsr]
  cases b with
  | true =>
    simp only [Bool.toNat_true, Nat.mul_one] at hge
    rw [if_pos hge]
    exact ⟨rfl, ⟨h.narrow (by simpa using hge) _ _ (by simp), hrange, binsEP_ranged hranged 1 1⟩, rfl⟩
  | false =>
    simp only [Bool.toNat_false, Nat.mul_zero, Nat.zero_add] at hlt
    rw [if_neg (by omega)]
    exact ⟨rfl, ⟨h.narrow (by simp) _ _ (by simp), hrange, binsEP_ranged hranged 0 1⟩, rfl⟩

theorem Decodes.decodeBinEP (h : Decodes d I bs) {b : Bool} (hc : (binEP I b).Contains 9 bs) :
    ∃ d', d.decodeBinEP = .ok (b, d') ∧ Decodes d' (binEP I b) bs ∧ d'.ctx = d.ctx := by
  have hb : b.toNat < 2 ^ 1 := by cases b <;> simp
  have hvalue := h.value_lt_16 (Contains.of_binsEP hb hc)
  have hdouble : u32 (d.value + d.value) = d.value * 2 ^ 1 := by rw [u32_of_lt (by omega)]; omega
  obtain ⟨hlo, hhi⟩ := h.mem
  unfold BinDecoder.decodeBinEP
  simp only [hdouble]
  split
  · next hneed =>
    have hidx := h.inside (k := 1) hc.long (by omega)
    have hread := h.scale_read (k := 1) (n := -8) (r := d.range) (by omega) (by omega)
      hidx rfl (by push_cast; omega)
    rw [show (d.bitsNeeded + (1 : ℕ)).toNat = 0 by push_cast; omega, Nat.pow_zero, Nat.mul_one]
      at hread
    have hbyte := bs[d.bitstream.fifoIdx].toNat_lt
    simp only [h.readByte hidx, ok_bind, u32_of_lt (show d.value * 2 ^ 1 +
      bs[d.bitstream.fifoIdx].toNat < 2 ^ 32 by omega)]
    obtain ⟨hbin, hd, hctx⟩ := Decodes.decideEP hread h.range_eq h.ranged hc
    exact ⟨_, by rw [← hbin]; rfl, hd, hctx⟩
  · next hneed =>
    have hkeep := h.scale_keep (k := 1) (by push_cast; omega) d.range
    obtain ⟨hbin, hd, hctx⟩ := Decodes.decideEP hkeep h.range_eq h.ranged hc
    exact ⟨_, by rw [← hbin]; rfl, hd, hctx⟩

/-! ## Terminating and context bins -/

theorem Decodes.narrow (h : Decodes d I bs) {a r value' : Nat} (ha : a * 2 ^ 7 ≤ d.value)
    (hv : value' = d.value - a * 2 ^ 7) (hranged : Ranged (I.narrow a r)) :
    Decodes { d with range := r, value := value' } (I.narrow a r) bs :=
  ⟨h.toReads.narrow ha r r hv, rfl, hranged⟩

/-- A terminating bin is one exactly when the codeword lies in the last two units. -/
theorem Decodes.decodeBinTrm_true (h : Decodes d I bs)
    (hc : (I.narrow (I.range - 2) 2).Contains 9 bs) :
    d.decodeBinTrm = .ok (true, { d with range := I.range - 2 }) := by
  obtain ⟨h64, h510⟩ := h.ranged
  have hge := h.window.le_value (by omega) hc
  unfold BinDecoder.decodeBinTrm
  simp only [h.range_eq, sub32_of_le (show 2 ≤ I.range by omega) (by omega), Nat.shiftLeft_eq]
  rw [u32_of_lt (by omega), if_pos hge]

theorem Decodes.decodeBinTrm_false (h : Decodes d I bs) (hc : (binTrm I false).Contains 9 bs) :
    ∃ d', d.decodeBinTrm = .ok (false, d') ∧ Decodes d' (binTrm I false) bs ∧ d'.ctx = d.ctx := by
  obtain ⟨h64, h510⟩ := h.ranged
  have hranged := binTrm_ranged h.ranged false
  obtain ⟨hlo, hhi⟩ := h.mem
  unfold BinDecoder.decodeBinTrm
  unfold binTrm at hc hranged ⊢
  simp only [h.range_eq, sub32_of_le (show 2 ≤ I.range by omega) (by omega), Nat.shiftLeft_eq,
    Bool.false_eq_true, if_false] at hc hranged ⊢
  rw [u32_of_lt (by omega)]
  by_cases h256 : I.range - 2 ≥ 256
  · simp only [h256, if_true] at hc hranged ⊢
    have hlt := h.window.lt_value (by omega) hc
    rw [if_neg (by omega), if_neg (by omega)]
    exact ⟨_, rfl, h.narrow (by omega) (by omega) hranged, rfl⟩
  · simp only [h256, if_false] at hc hranged ⊢
    have hlt := h.window.lt_value (by omega) (Interval.Contains.of_scale hc)
    have hlong := hc.long
    rw [if_neg (by omega), if_pos (by omega)]
    have hreads := h.toReads.narrow (a := 0) (by omega) (I.range - 2) (I.range - 2) rfl
    have hdouble : u32 (I.range - 2 + (I.range - 2)) = (I.range - 2) * 2 ^ 1 := by
      rw [u32_of_lt (by omega)]; omega
    have hvalue : u32 (d.value + d.value) = (d.value - 0 * 2 ^ 7) * 2 ^ 1 := by
      rw [u32_of_lt (by omega)]; omega
    simp only [hdouble, hvalue]
    split
    · next hneed =>
      have hidx := h.inside (k := 1) hlong (by omega)
      have hread := hreads.scale_read (k := 1) (n := -8) (r := (I.range - 2) * 2 ^ 1)
        (by omega) (by push_cast; omega) hidx rfl (by push_cast; omega)
      simp only [show (d.bitsNeeded + (1 : ℕ)).toNat = 0 by push_cast; omega, Nat.pow_zero,
        Nat.mul_one] at hread
      have hbyte := bs[d.bitstream.fifoIdx].toNat_lt
      simp only [h.readByte hidx, ok_bind]
      rw [u32_of_lt (by omega)]
      exact ⟨_, rfl, ⟨hread, rfl, hranged⟩, rfl⟩
    · next hneed =>
      have hkeep := hreads.scale_keep (k := 1) (by push_cast; omega) ((I.range - 2) * 2 ^ 1)
      exact ⟨_, rfl, ⟨hkeep, rfl, hranged⟩, rfl⟩

theorem Decodes.decodeSplit (h : Decodes d I bs) {m : BinProbModel} (hm : m.Ok) {b : Bool}
    (hc : (bin I m b).Contains 9 bs) :
    ∃ d', d.decodeSplit m = .ok (b.toNat, d') ∧ Decodes d' (bin I m b) bs ∧ d'.ctx = d.ctx := by
  have hranged := bin_ranged h.ranged hm b
  obtain ⟨h1, h255, hhalf, hlt⟩ := split_mem h.ranged hm
  have h510 := h.ranged.le
  have hmps := hm.mps_le
  unfold BinDecoder.decodeSplit
  unfold bin at hc hranged ⊢
  simp only [h.range_eq, sub32_of_le (Nat.le_of_lt hlt) (show I.range < 2 ^ 32 by omega)]
    at hc hranged ⊢
  generalize m.getLPS I.range = lps at *
  rw [Nat.shiftLeft_eq, u32_of_lt (show (I.range - lps) * 2 ^ 7 < 2 ^ 32 by omega)]
  by_cases hlps : b.toNat ≠ m.mps
  · -- the codeword lies in the less probable part
    rw [if_pos hlps] at hc hranged ⊢
    have hbits := getRenormBitsLPS_le lps
    have hcn := Interval.Contains.of_scale hc
    have hge := h.window.le_value (by omega) hcn
    have hreads := h.toReads.narrow hge lps lps rfl
    have hvalue := hreads.window.value_lt (by omega) hcn
    simp only [Interval.narrow_range] at hvalue
    obtain ⟨d', hd', hr', hrange', hctx'⟩ := hreads.refill (by omega) hc.long
      (show d.value - (I.range - lps) * 2 ^ 7 < 2 ^ 16 by omega)
      (u32 (lps <<< BinProbModel.getRenormBitsLPS lps))
    rw [if_neg (by omega)]
    simp only [hd', ok_bind]
    have hbit : b.toNat = 1 - m.mps := by cases b <;> simp at hlps ⊢ <;> omega
    refine ⟨d', by rw [hbit]; rfl, ⟨hr', ?_, hranged⟩, hctx'⟩
    have hle := hranged.le
    simp only [Interval.scale_range, Interval.narrow_range] at hle
    rw [hrange', Nat.shiftLeft_eq, u32_of_lt (by omega)]
    rfl
  · rw [if_neg hlps] at hc hranged ⊢
    have hbit : b.toNat = m.mps := by omega
    by_cases h256 : I.range - lps < 256
    · simp only [h256, if_true] at hc hranged ⊢
      have hcn := Interval.Contains.of_scale hc
      have hv := h.window.lt_value (by omega) hcn
      have hreads := h.toReads.narrow (a := 0) (by omega) (I.range - lps) (I.range - lps) rfl
      have hbits : BinProbModel.getRenormBitsRange (I.range - lps) = 1 := rfl
      rw [hbits] at hc hranged ⊢
      obtain ⟨d', hd', hr', hrange', hctx'⟩ := hreads.refill (by omega) hc.long
        (show d.value - 0 * 2 ^ 7 < 2 ^ 16 by omega) (u32 ((I.range - lps) <<< 1))
      simp only [Nat.zero_mul, Nat.sub_zero] at hd'
      rw [if_pos (by omega)]
      simp only [hd', ok_bind]
      refine ⟨d', by rw [hbit]; rfl, ⟨hr', ?_, hranged⟩, hctx'⟩
      rw [hrange', Nat.shiftLeft_eq, u32_of_lt (by omega)]
      rfl
    · simp only [h256, if_false] at hc hranged ⊢
      have hv := h.window.lt_value (by omega) hc
      rw [if_pos (by omega)]
      exact ⟨_, by rw [hbit], h.narrow (a := 0) (by omega) (by omega) hranged, rfl⟩

theorem Decodes.decodeBin (h : Decodes d I bs) (hctx : d.ctx.Ok) {b : Bool} {ctxId : Nat}
    (hc : (bin I (d.ctx.model ctxId) b).Contains 9 bs) :
    ∃ d', d.decodeBin ctxId = .ok (b, d') ∧ Decodes d' (bin I (d.ctx.model ctxId) b) bs ∧
      d'.ctx = d.ctx.update ctxId b := by
  obtain ⟨d₁, hd₁, h₁, -⟩ := h.decodeSplit (hctx.model ctxId) hc
  have hb : decide (b.toNat ≠ 0) = b := by cases b <;> rfl
  refine ⟨{ d₁ with ctx := d.ctx.update ctxId b }, ?_, ?_, rfl⟩
  · rw [BinDecoder.decodeBin, hd₁]
    simp only [ok_bind, hb]
    rfl
  · exact ⟨⟨h₁.fifo_eq, h₁.window, h₁.bitsNeeded_eq⟩, h₁.range_eq, h₁.ranged⟩

/-! ## Finishing -/

/-- When the codeword ends in a stop bit and zeros right after bit `9 + I.shift`,
the last byte read is its last byte, and `finish` finds the stop bit there. -/
theorem Decodes.finish (h : Decodes d I bs) {k c : Nat} (hk : k < 8)
    (hlen : 8 * bs.length = 9 + I.shift + k) (hval : ofBytes bs = (c * 2 + 1) * 2 ^ k) (range' : Nat) :
    d.bitstream.fifoIdx = bs.length ∧ BinDecoder.finish { d with range := range' } = .ok () := by
  have hr := h.window.read
  have hu := h.window.unread
  have hb := h.bitsNeeded_eq
  have hidx : d.bitstream.fifoIdx = bs.length := by omega
  refine ⟨hidx, ?_⟩
  have hpos : 0 < bs.length := by omega
  obtain ⟨last, hlast⟩ : ∃ b, b = bs[bs.length - 1] := ⟨_, rfl⟩
  have hpeek : d.bitstream.peekPreviousByte = .ok last := by
    have hfifo := h.fifo_eq
    simp [InputBitstream.peekPreviousByte, hidx, hfifo, hlast, show bs.length ≠ 0 by omega,
      show bs.length - 1 < bs.length by omega]
  have hsplit : ofBytes bs = 256 * ofBytes (bs.take (bs.length - 1)) + last.toNat := by
    have := ofBytes_take_succ bs (show bs.length - 1 < bs.length by omega)
    rwa [show bs.length - 1 + 1 = bs.length by omega, List.take_length, ← hlast] at this
  have hp8 : 2 ^ 8 = 2 ^ (k + 1) * 2 ^ (7 - k) := by rw [← Nat.pow_add]; congr 1; omega
  have hmod : last.toNat % 2 ^ (k + 1) = 2 ^ k := by
    have h1 : ofBytes bs % 2 ^ (k + 1) = 2 ^ k := by
      rw [hval, Nat.pow_succ', Nat.mul_mod_mul_right, show (c * 2 + 1) % 2 = 1 by omega, Nat.one_mul]
    rw [← h1, hsplit, show (256 : Nat) = 2 ^ 8 from rfl, hp8, Nat.mul_assoc, Nat.mul_add_mod]
  have hstop : (last.toNat <<< (8 + d.bitsNeeded).toNat) &&& 0xff = 0x80 := by
    rw [show (8 + d.bitsNeeded).toNat = 7 - k by omega, show (0xff : Nat) = 2 ^ 8 - 1 from rfl,
      Nat.and_two_pow_sub_one_eq_mod, Nat.shiftLeft_eq, hp8, Nat.mul_mod_mul_right, hmod, ← Nat.pow_add,
      show k + (7 - k) = 7 by omega]
  simp only [BinDecoder.finish, hpeek, ok_bind, hstop]
  exact check_ok _ (by simp)

end ECM.DecoderLib.BinDecoder
