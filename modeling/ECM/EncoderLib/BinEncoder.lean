import ECM.CommonLib.BinInterval
import ECM.CommonLib.BitStream
import Mathlib.Tactic.IntervalCases

/-! # The arithmetic encoder

`BinEncoderBase` and `TBinEncoder`: the register `low` with `bitsLeft` counting
its free bits, and the last byte plus a run of 0xff bytes held back until their
carry is known. The bin counters are not modelled; no encoding step reads them. -/

namespace ECM.EncoderLib
open CommonLib CommonLib.BitStream CommonLib.Contexts

structure BinEncoder where
  ctx : CtxStore
  bitstream : OutputBitstream
  low : Nat
  range : Nat
  bufferedByte : Nat
  numBufferedBytes : Nat
  bitsLeft : Int
deriving Repr

namespace BinEncoder

/-- `m_Low >> n` for a signed shift amount. -/
def shr (x : Nat) (n : Int) : Nat := x >>> n.toNat

/-- `m_Low << n` on `uint32_t`. -/
def shl (x n : Nat) : Nat := u32 (x <<< n)

/-- A fresh encoder after `init(bitstream)` and `start()`. -/
def start (ctx : CtxStore) (bitstream : OutputBitstream) : BinEncoder :=
  { ctx, bitstream, low := 0, range := 510, bufferedByte := 0xff, numBufferedBytes := 0, bitsLeft := 23 }

/-- The `while( m_numBufferedBytes > 1 )` loops: one byte for each held 0xff. -/
def writeBuffered (s : OutputBitstream) (byte : Nat) : Nat → Checked OutputBitstream
  | n + 2 => do
    let s ← s.write byte 8
    writeBuffered s byte (n + 1)
  | _ => .ok s

def writeOut (e : BinEncoder) : Checked BinEncoder := do
  let leadByte := shr e.low (24 - e.bitsLeft)
  let bitsLeft := e.bitsLeft + 8
  let low := e.low &&& shr 0xffffffff bitsLeft
  let e := { e with low, bitsLeft }
  if leadByte = 0xff then
    return { e with numBufferedBytes := e.numBufferedBytes + 1 }
  if e.numBufferedBytes > 0 then
    let carry := leadByte >>> 8
    let s ← e.bitstream.write (e.bufferedByte + carry) 8
    let s ← writeBuffered s ((0xff + carry) &&& 0xff) e.numBufferedBytes
    return { e with bitstream := s, bufferedByte := leadByte &&& 0xff,
                    numBufferedBytes := min e.numBufferedBytes 1 }
  return { e with numBufferedBytes := 1, bufferedByte := leadByte }

/-- `if( m_bitsLeft < 12 ) writeOut();`, the end of every coding step. -/
def writeOutIfFull (e : BinEncoder) : Checked BinEncoder :=
  if e.bitsLeft < 12 then e.writeOut else .ok e

def encodeBinEP (e : BinEncoder) (bin : Bool) : Checked BinEncoder :=
  let low := shl e.low 1
  writeOutIfFull { e with low := if bin then u32 (low + e.range) else low, bitsLeft := e.bitsLeft - 1 }

/-- One pass of the loop of `encodeAlignedBinsEP`. -/
def encodeAlignedBins (e : BinEncoder) (newBins binsToCode : Nat) : Checked BinEncoder :=
  writeOutIfFull { e with low := u32 (shl e.low binsToCode + newBins <<< 8),
                          bitsLeft := e.bitsLeft - binsToCode }

def encodeAlignedBinsEP (e : BinEncoder) (bins remBins : Nat) : Checked BinEncoder :=
  if remBins = 0 then .ok e else do
    let binsToCode := min remBins 8
    let binMask := 1 <<< binsToCode - 1
    let newBins := (bins >>> (remBins - binsToCode)) &&& binMask
    let e ← encodeAlignedBins e newBins binsToCode
    encodeAlignedBinsEP e bins (remBins - binsToCode)
termination_by remBins

/-- `m_Low <<= numBins; m_Low += m_Range * pattern;` and the flush. -/
def encodePattern (e : BinEncoder) (pattern numBins : Nat) : Checked BinEncoder :=
  writeOutIfFull { e with low := u32 (shl e.low numBins + u32 (e.range * pattern)),
                          bitsLeft := e.bitsLeft - numBins }

/-- The part of `encodeBinsEP` after the test of the aligned mode. -/
def encodeBinsLoop (e : BinEncoder) (bins numBins : Nat) : Checked BinEncoder :=
  if numBins > 8 then do
    let numBins' := numBins - 8
    let pattern := bins >>> numBins'
    let e ← encodePattern e pattern 8
    encodeBinsLoop e (sub32 bins (pattern <<< numBins')) numBins'
  else encodePattern e bins numBins
termination_by numBins

def encodeBinsEP (e : BinEncoder) (bins numBins : Nat) : Checked BinEncoder :=
  if e.range = 256 then encodeAlignedBinsEP e bins numBins else encodeBinsLoop e bins numBins

def encodeBinTrm (e : BinEncoder) (bin : Bool) : Checked BinEncoder :=
  let range := sub32 e.range 2
  if bin then
    writeOutIfFull { e with low := shl (u32 (e.low + range)) 7, range := 2 <<< 7, bitsLeft := e.bitsLeft - 7 }
  else if range ≥ 256 then .ok { e with range }
  else writeOutIfFull { e with low := shl e.low 1, range := shl range 1, bitsLeft := e.bitsLeft - 1 }

/-- `encodeBin` up to the update of the model. -/
def encodeSplit (e : BinEncoder) (bin : Bool) (m : BinProbModel) : Checked BinEncoder :=
  let lps := m.getLPS e.range
  let range := sub32 e.range lps
  if bin.toNat ≠ m.mps then
    let numBits := BinProbModel.getRenormBitsLPS lps
    writeOutIfFull { e with bitsLeft := e.bitsLeft - numBits, low := shl (u32 (e.low + range)) numBits,
                            range := shl lps numBits }
  else if range < 256 then
    let numBits := BinProbModel.getRenormBitsRange range
    writeOutIfFull { e with bitsLeft := e.bitsLeft - numBits, low := shl e.low numBits,
                            range := shl range numBits }
  else .ok { e with range }

def encodeBin (e : BinEncoder) (bin : Bool) (ctxId : Nat) : Checked BinEncoder := do
  let e' ← e.encodeSplit bin (e.ctx.model ctxId)
  return { e' with ctx := e.ctx.update ctxId bin }

def finish (e : BinEncoder) : Checked BinEncoder := do
  if shr e.low (32 - e.bitsLeft) ≠ 0 then
    let s ← e.bitstream.write (e.bufferedByte + 1) 8
    let s ← writeBuffered s 0x00 e.numBufferedBytes
    let low := sub32 e.low (1 <<< (32 - e.bitsLeft).toNat)
    let s ← s.write (low >>> 8) (24 - e.bitsLeft).toNat
    return { e with bitstream := s, low, numBufferedBytes := min e.numBufferedBytes 1 }
  else
    let s ← if e.numBufferedBytes > 0 then e.bitstream.write e.bufferedByte 8 else .ok e.bitstream
    let s ← writeBuffered s 0xff e.numBufferedBytes
    let s ← s.write (e.low >>> 8) (24 - e.bitsLeft).toNat
    return { e with bitstream := s, numBufferedBytes := min e.numBufferedBytes 1 }

end BinEncoder

end ECM.EncoderLib

/-! # The encoder's registers hold the interval's low end

`Holds e I`: the bytes written, the held-back byte with its run of 0xff, and
the register `low` spell `I.low` together; a carry out of `low` is at most one
and never reaches a held byte that is 0xff. Every coding step moves the
registers as it moves the interval, and `finish` writes out the low end. -/

namespace ECM.EncoderLib.BinEncoder
open CommonLib CommonLib.BitStream CommonLib.Contexts CommonLib.BinInterval
open Lib.Bits Lib.IntervalCoder

/-- The bits of `low` in use. -/
def width (e : BinEncoder) : Nat := (32 - e.bitsLeft).toNat

/-- The bytes that left the register, read as if no carry will come. -/
def emitted (e : BinEncoder) : Nat :=
  if e.numBufferedBytes = 0 then 0
  else (ofBytes e.bitstream.fifo * 256 + e.bufferedByte + 1) * 256 ^ (e.numBufferedBytes - 1) - 1

theorem emitted_one {e : BinEncoder} (h : e.numBufferedBytes = 1) :
    e.emitted = ofBytes e.bitstream.fifo * 256 + e.bufferedByte := by
  simp [emitted, h]

structure Holds (e : BinEncoder) (I : Interval) : Prop where
  wf : e.bitstream.WF
  aligned : e.bitstream.numHeldBits = 0
  range_eq : e.range = I.range
  range_pos : 0 < I.range
  bitsLeft_mem : 4 ≤ e.bitsLeft ∧ e.bitsLeft ≤ 23
  shift_eq : 9 + I.shift = 8 * (e.bitstream.fifo.length + e.numBufferedBytes) + e.width
  low_eq : I.low = e.emitted * 2 ^ e.width + e.low
  -- beyond the register's width there is room for one carry only
  small : 16 * (e.low + I.range) ≤ 17 * 2 ^ e.width
  first : e.numBufferedBytes = 0 →
    e.bitstream.fifo = [] ∧ e.low + I.range ≤ 510 * 2 ^ (e.width - 9)
  buffered : e.numBufferedBytes ≠ 0 → e.bufferedByte ≤ 254

/-- Between two coding steps the register has room for the next one. -/
structure Encodes (e : BinEncoder) (I : Interval) : Prop extends Holds e I where
  room : 12 ≤ e.bitsLeft
  ranged : Ranged I

variable {e : BinEncoder} {I : Interval}

theorem Holds.width_eq (h : Holds e I) : e.bitsLeft = 32 - (e.width : Int) := by
  obtain ⟨h4, h23⟩ := h.bitsLeft_mem
  unfold width
  omega

theorem Holds.low_lt (h : Holds e I) : e.low < 2 ^ 29 := by
  have hw : e.width ≤ 28 := by have := h.width_eq; have := h.bitsLeft_mem; omega
  have hp : 2 ^ e.width ≤ 2 ^ 28 := Nat.pow_le_pow_right (by omega) hw
  have := h.small
  omega

/-! ## The two moves of an interval -/

theorem Holds.narrow (h : Holds e I) {a r : Nat} (hr : a + r ≤ I.range) (hpos : 0 < r) :
    Holds { e with low := e.low + a, range := r } (I.narrow a r) := by
  have hsmall := h.small
  have hfirst := h.first
  refine ⟨h.wf, h.aligned, rfl, hpos, h.bitsLeft_mem, h.shift_eq, ?_, ?_, ?_, h.buffered⟩
  · show I.low + a = e.emitted * 2 ^ e.width + (e.low + a)
    rw [h.low_eq]; omega
  · show 16 * (e.low + a + r) ≤ 17 * 2 ^ e.width
    omega
  · intro h0
    obtain ⟨hnil, hle⟩ := hfirst h0
    refine ⟨hnil, ?_⟩
    show e.low + a + r ≤ 510 * 2 ^ (e.width - 9)
    omega

theorem Holds.scale (h : Holds e I) {k : Nat} (hk : 4 ≤ e.bitsLeft - k) :
    Holds { e with low := e.low * 2 ^ k, range := e.range * 2 ^ k, bitsLeft := e.bitsLeft - k }
      (I.scale k) := by
  have hwidth := h.width_eq
  have hbits := h.bitsLeft_mem
  have hw : width
      { e with low := e.low * 2 ^ k, range := e.range * 2 ^ k, bitsLeft := e.bitsLeft - k } =
      e.width + k := by
    unfold width
    simp only
    omega
  have hpos := h.range_pos
  refine ⟨h.wf, h.aligned, ?_, ?_, ⟨hk, ?_⟩, ?_, ?_, ?_, ?_, h.buffered⟩
  · simp [h.range_eq]
  · simpa using Nat.mul_pos hpos (Nat.two_pow_pos k)
  · show e.bitsLeft - k ≤ 23
    omega
  · rw [hw]
    have := h.shift_eq
    simp only [Interval.scale_shift]
    omega
  · rw [hw]
    show I.low * 2 ^ k = e.emitted * 2 ^ (e.width + k) + e.low * 2 ^ k
    rw [h.low_eq, Nat.pow_add]; ring
  · rw [hw]
    have := Nat.mul_le_mul_right (2 ^ k) h.small
    calc 16 * (e.low * 2 ^ k + I.range * 2 ^ k) = 16 * (e.low + I.range) * 2 ^ k := by ring
      _ ≤ 17 * 2 ^ e.width * 2 ^ k := this
      _ = 17 * 2 ^ (e.width + k) := by rw [Nat.pow_add]; ring
  · intro h0
    obtain ⟨hnil, hle⟩ := h.first h0
    refine ⟨hnil, ?_⟩
    rw [hw, show e.width + k - 9 = (e.width - 9) + k by omega, Nat.pow_add]
    have := Nat.mul_le_mul_right (2 ^ k) hle
    calc e.low * 2 ^ k + I.range * 2 ^ k = (e.low + I.range) * 2 ^ k := by ring
      _ ≤ 510 * 2 ^ (e.width - 9) * 2 ^ k := this
      _ = 510 * (2 ^ (e.width - 9) * 2 ^ k) := by ring

/-! ## Carry and output -/

/-- One byte onto an aligned stream. -/
theorem write_byte {s : OutputBitstream} (hs : s.WF) (ha : s.numHeldBits = 0) {b : Nat}
    (hb : b < 256) :
    ∃ s', s.write b 8 = .ok s' ∧ s'.WF ∧ s'.numHeldBits = 0 ∧
      s'.fifo.length = s.fifo.length + 1 ∧ ofBytes s'.fifo = ofBytes s.fifo * 256 + b := by
  obtain ⟨s', hw, hwf, hbits⟩ := OutputBitstream.write_spec hs (show 8 ≤ 32 by omega)
    (show b < 2 ^ 8 by omega)
  have hlen := congrArg List.length hbits
  rw [List.length_append, OutputBitstream.length_bits, OutputBitstream.length_bits,
    length_toBits] at hlen
  have hfew := hwf.few
  have ha' : s'.numHeldBits = 0 := by omega
  refine ⟨s', hw, hwf, ha', by omega, ?_⟩
  have hval := congrArg ofBits hbits
  have hall : ∀ t : OutputBitstream, t.numHeldBits = 0 → t.bits = bytesBits t.fifo := by
    intro t ht
    simp [OutputBitstream.bits, ht, toBits]
  rwa [hall s ha, hall s' ha', ofBits_append, length_toBits, ofBits_bytesBits, ofBits_bytesBits,
    ofBits_toBits_of_lt (show b < 2 ^ 8 by omega)] at hval

/-- The run of held bytes. -/
theorem writeBuffered_spec {b : Nat} (hb : b < 256) (n : Nat) {s : OutputBitstream} (hs : s.WF)
    (ha : s.numHeldBits = 0) :
    ∃ s', writeBuffered s b (n + 1) = .ok s' ∧ s'.WF ∧ s'.numHeldBits = 0 ∧
      s'.fifo.length = s.fifo.length + n ∧
      255 * ofBytes s'.fifo + b = (255 * ofBytes s.fifo + b) * 256 ^ n := by
  induction n generalizing s with
  | zero => exact ⟨s, rfl, hs, ha, rfl, by simp⟩
  | succ n ih =>
    obtain ⟨t, ht, htwf, hta, htlen, htval⟩ := write_byte hs ha hb
    obtain ⟨s', hs', hwf, ha', hlen, hval⟩ := ih htwf hta
    refine ⟨s', ?_, hwf, ha', by omega, ?_⟩
    · rw [writeBuffered, ht, ok_bind, hs']
    · rw [hval, htval, Nat.pow_succ]; ring

/-- The held-back bytes leave with the carry `c` added to the first of them. -/
theorem flushBuffered (h : Holds e I) (hnb : e.numBufferedBytes ≠ 0) {c : Nat} (hc : c ≤ 1) :
    ∃ s s', e.bitstream.write (e.bufferedByte + c) 8 = .ok s ∧
      writeBuffered s ((0xff + c) &&& 0xff) e.numBufferedBytes = .ok s' ∧ s'.WF ∧
      s'.numHeldBits = 0 ∧
      s'.fifo.length = e.bitstream.fifo.length + e.numBufferedBytes ∧
      ofBytes s'.fifo = e.emitted + c := by
  obtain ⟨n, hn⟩ : ∃ n, e.numBufferedBytes = n + 1 := Nat.exists_eq_succ_of_ne_zero hnb
  have hbuf := h.buffered hnb
  obtain ⟨s, hs, hwf, ha, hlen, hval⟩ := write_byte h.wf h.aligned
    (show e.bufferedByte + c < 256 by omega)
  have hbyte : (0xff + c) &&& 0xff = 255 * (1 - c) := by
    have : c = 0 ∨ c = 1 := by omega
    rcases this with rfl | rfl <;> rfl
  obtain ⟨s', hs', hwf', ha', hlen', hval'⟩ := writeBuffered_spec
    (show 255 * (1 - c) < 256 by omega) n hwf ha
  refine ⟨s, s', hs, by rw [hbyte, hn]; exact hs', hwf', ha', by omega, ?_⟩
  have hpos : 0 < 256 ^ n := Nat.pow_pos (by omega)
  have hem : e.emitted + 1 = (ofBytes e.bitstream.fifo * 256 + e.bufferedByte + 1) * 256 ^ n := by
    have : 0 < (ofBytes e.bitstream.fifo * 256 + e.bufferedByte + 1) * 256 ^ n :=
      Nat.mul_pos (by omega) hpos
    rw [emitted, if_neg hnb, hn, Nat.add_sub_cancel]
    exact Nat.sub_add_cancel this
  rw [hval] at hval'
  have : c = 0 ∨ c = 1 := by omega
  rcases this with rfl | rfl
  · simp only [Nat.sub_zero, Nat.mul_one, Nat.add_zero] at hval' ⊢
    have hv : 255 * (ofBytes s'.fifo + 1) = 255 * (e.emitted + 1) := by
      rw [hem]; linarith
    omega
  · simp only [Nat.sub_self, Nat.mul_zero, Nat.add_zero] at hval'
    have hv : 255 * ofBytes s'.fifo = 255 * (e.emitted + 1) := by
      rw [hem]; linarith
    omega

/-- The lead byte, with its carry. -/
def leadByte (e : BinEncoder) : Nat := e.low / 2 ^ (e.width - 8)

theorem Holds.leadByte_le (h : Holds e I) (hw : 8 ≤ e.width) : e.leadByte ≤ 271 := by
  have hsmall := h.small
  have hpos := h.range_pos
  rw [show e.width = (e.width - 8) + 8 by omega, Nat.pow_add] at hsmall
  have : e.leadByte < 272 := by
    rw [leadByte, Nat.div_lt_iff_lt_mul (Nat.two_pow_pos _)]
    omega
  omega

theorem Holds.leadByte_first (h : Holds e I) (hw : 9 ≤ e.width) (h0 : e.numBufferedBytes = 0) :
    e.leadByte < 255 := by
  obtain ⟨-, hle⟩ := h.first h0
  have hpos := h.range_pos
  rw [leadByte, Nat.div_lt_iff_lt_mul (Nat.two_pow_pos _),
    show e.width - 8 = (e.width - 9) + 1 by omega, Nat.pow_succ]
  omega

/-- An encoder whose lead byte joined the emitted ones holds the same interval. -/
theorem Holds.output {e' : BinEncoder} (h : Holds e I) (hfull : e.bitsLeft < 12)
    (hr : I.range ≤ 510) (hwf : e'.bitstream.WF) (ha : e'.bitstream.numHeldBits = 0)
    (hrange : e'.range = e.range) (hnb : e'.numBufferedBytes ≠ 0) (hbuf : e'.bufferedByte ≤ 254)
    (hlen : e'.bitstream.fifo.length + e'.numBufferedBytes =
      e.bitstream.fifo.length + e.numBufferedBytes + 1)
    (hem : e'.emitted = e.emitted * 256 + e.leadByte)
    (hlow : e'.low = e.low % 2 ^ (e.width - 8)) (hbits : e'.bitsLeft = e.bitsLeft + 8) :
    Holds e' I := by
  have hwidth := h.width_eq
  have hmem := h.bitsLeft_mem
  have hw : e'.width = e.width - 8 := by unfold width at hwidth ⊢; omega
  have hlt : e'.low < 2 ^ (e.width - 8) := hlow ▸ Nat.mod_lt _ (Nat.two_pow_pos _)
  have hbig : 2 ^ 13 ≤ 2 ^ (e.width - 8) := Nat.pow_le_pow_right (by omega) (by omega)
  have hshift := h.shift_eq
  refine ⟨hwf, ha, hrange.trans h.range_eq, h.range_pos, by omega, by omega, ?_, ?_,
    fun h0 => absurd h0 hnb, fun _ => hbuf⟩
  · rw [hw, hem, hlow, h.low_eq]
    have hdiv := Nat.div_add_mod e.low (2 ^ (e.width - 8))
    have hp : 2 ^ e.width = 2 ^ (e.width - 8) * 256 := by
      rw [show (256 : Nat) = 2 ^ 8 from rfl, ← Nat.pow_add]; congr 1; omega
    rw [hp]
    unfold leadByte
    linarith
  · rw [hw]
    omega

/-- `writeOut` keeps the interval and makes room. -/
theorem Holds.writeOut (h : Holds e I) (hfull : e.bitsLeft < 12) (hr : I.range ≤ 510) :
    ∃ e', e.writeOut = .ok e' ∧ Holds e' I ∧ 12 ≤ e'.bitsLeft ∧ e'.ctx = e.ctx := by
  have hwidth := h.width_eq
  have hmem := h.bitsLeft_mem
  have hlead : shr e.low (24 - e.bitsLeft) = e.leadByte := by
    rw [shr, leadByte, Nat.shiftRight_eq_div_pow]
    congr 2
    omega
  have hmask : ∀ w, 21 ≤ w → w ≤ 28 → 0xffffffff >>> (40 - w) = 2 ^ (w - 8) - 1 := by
    intro w h1 h2
    interval_cases w <;> rfl
  have hlow : e.low &&& shr 0xffffffff (e.bitsLeft + 8) = e.low % 2 ^ (e.width - 8) := by
    rw [shr, show (e.bitsLeft + 8).toNat = 40 - e.width by omega,
      hmask _ (by omega) (by omega), Nat.and_two_pow_sub_one_eq_mod]
  have hle := h.leadByte_le (by omega)
  simp only [BinEncoder.writeOut, hlead, hlow]
  by_cases hff : e.leadByte = 0xff
  · -- a byte of ones joins the run
    have hnb : e.numBufferedBytes ≠ 0 := by
      intro h0
      have := h.leadByte_first (by omega) h0
      omega
    obtain ⟨n, hn⟩ : ∃ n, e.numBufferedBytes = n + 1 := Nat.exists_eq_succ_of_ne_zero hnb
    simp only [hff, if_true]
    refine ⟨_, rfl, h.output hfull hr h.wf h.aligned rfl (Nat.succ_ne_zero _) (h.buffered hnb)
      (by simp only; omega) ?_ rfl rfl, by simp only; omega, rfl⟩
    simp only [emitted, if_false, Nat.succ_ne_zero, hn, Nat.add_sub_cancel, hff]
    have : 0 < (ofBytes e.bitstream.fifo * 256 + e.bufferedByte + 1) * 256 ^ n :=
      Nat.mul_pos (by omega) (Nat.pow_pos (by omega))
    rw [Nat.pow_succ, ← Nat.mul_assoc]
    omega
  simp only [hff, if_false]
  have hand : e.leadByte &&& 0xff = e.leadByte % 256 := Nat.and_two_pow_sub_one_eq_mod _ 8
  by_cases hnb : e.numBufferedBytes = 0
  · have hfirst := h.leadByte_first (by omega) hnb
    simp only [hnb, show ¬ (0 > 0) by omega, if_false]
    refine ⟨_, rfl, h.output hfull hr h.wf h.aligned rfl (by simp) (by simp only; omega)
      (by simp only [hnb]) ?_ rfl rfl, by simp only; omega, rfl⟩
    simp [emitted, hnb, (h.first hnb).1]
  · -- the carry reaches the held-back bytes, and the lead byte takes their place
    have hc : e.leadByte >>> 8 ≤ 1 := by rw [Nat.shiftRight_eq_div_pow]; omega
    obtain ⟨s, s', hs, hs', hwf, ha, hlen, hval⟩ := flushBuffered h hnb hc
    simp only [show e.numBufferedBytes > 0 by omega, if_true, hs, ok_bind, hs', hand]
    refine ⟨_, rfl, h.output hfull hr hwf ha rfl (by simp only; omega) (by simp only; omega)
      (by simp only; omega) ?_ rfl rfl, by simp only; omega, rfl⟩
    refine (emitted_one (show min e.numBufferedBytes 1 = 1 by omega)).trans ?_
    rw [Nat.shiftRight_eq_div_pow] at hval
    simp only [hval]
    omega

/-- The flush at the end of a coding step. -/
theorem Holds.writeOutIfFull (h : Holds e I) (hr : Ranged I) :
    ∃ e', e.writeOutIfFull = .ok e' ∧ Encodes e' I ∧ e'.ctx = e.ctx := by
  unfold BinEncoder.writeOutIfFull
  split
  · next hfull =>
    obtain ⟨e', he', hh, hroom, hctx⟩ := h.writeOut hfull hr.le
    exact ⟨e', he', ⟨hh, hroom, hr⟩, hctx⟩
  · exact ⟨e, rfl, ⟨h, by omega, hr⟩, rfl⟩

/-! ## Coding steps -/

theorem start_encodes (ctx : CtxStore) :
    Encodes (BinEncoder.start ctx .clear) BinInterval.start := by
  refine ⟨⟨OutputBitstream.clear_wf, rfl, rfl, by decide, ?_, ?_, ?_, ?_,
    fun _ => ⟨rfl, ?_⟩, fun h => absurd rfl h⟩, ?_, start_ranged⟩ <;>
    simp [width, emitted, BinEncoder.start, BinInterval.start, OutputBitstream.clear]

theorem Encodes.shl_low (h : Encodes e I) {n : Nat} (hn : n ≤ 8) : shl e.low n = e.low * 2 ^ n := by
  have hroom := h.room
  have hsmall := h.small
  have hw : e.width ≤ 20 := by have := h.width_eq; omega
  have h20 : 2 ^ e.width ≤ 2 ^ 20 := Nat.pow_le_pow_right (by omega) hw
  have h8 : 2 ^ n ≤ 2 ^ 8 := Nat.pow_le_pow_right (by omega) hn
  have hmul : e.low * 2 ^ n ≤ e.low * 2 ^ 8 := Nat.mul_le_mul_left _ h8
  rw [shl, Nat.shiftLeft_eq, u32_of_lt (by omega)]

/-- `n` bypass bins of value `v` at once, however the source forms the sum. -/
theorem Encodes.pattern (h : Encodes e I) {v n low' : Nat} (hn : n ≤ 8) (hv : v < 2 ^ n)
    (hlow : low' = u32 (e.low * 2 ^ n + e.range * v)) :
    ∃ e', writeOutIfFull { e with low := low', bitsLeft := e.bitsLeft - n } = .ok e' ∧
      Encodes e' (binsEP I v n) ∧ e'.ctx = e.ctx := by
  have hroom := h.room
  have hfit : I.range * v + I.range ≤ (I.scale n).range := by
    have := Nat.mul_le_mul_left I.range (Nat.succ_le_of_lt hv)
    simpa [Nat.mul_succ] using this
  have hh := (h.scale (k := n) (by omega)).narrow hfit h.range_pos
  rw [h.range_eq, u32_of_lt (lt_trans hh.low_lt (by omega))] at hlow
  have he : { e with low := low', bitsLeft := e.bitsLeft - n } =
      { e with low := e.low * 2 ^ n + I.range * v, range := I.range, bitsLeft := e.bitsLeft - n } := by
    rw [hlow, ← h.range_eq]
  rw [he]
  exact hh.writeOutIfFull (binsEP_ranged h.ranged v n)

theorem Encodes.encodeBinEP (h : Encodes e I) (b : Bool) :
    ∃ e', e.encodeBinEP b = .ok e' ∧ Encodes e' (binEP I b) ∧ e'.ctx = e.ctx := by
  refine h.pattern (n := 1) (v := b.toNat) (by omega) (by cases b <;> simp) ?_
  rw [h.shl_low (by omega)]
  cases b with
  | true => simp
  | false =>
    have := h.low_lt
    simp only [Bool.false_eq_true, if_false, Bool.toNat_false, Nat.mul_zero, Nat.add_zero]
    rw [u32_of_lt (by omega)]

theorem Encodes.encodePattern (h : Encodes e I) {v n : Nat} (hn : n ≤ 8) (hv : v < 2 ^ n) :
    ∃ e', e.encodePattern v n = .ok e' ∧ Encodes e' (binsEP I v n) ∧ e'.ctx = e.ctx := by
  refine h.pattern hn hv ?_
  have h8 : 2 ^ n ≤ 2 ^ 8 := Nat.pow_le_pow_right (by omega) hn
  have hrange : e.range * v ≤ 510 * 2 ^ 8 :=
    Nat.mul_le_mul (h.range_eq ▸ h.ranged.le) (by omega)
  rw [h.shl_low hn, u32_of_lt (show e.range * v < 2 ^ 32 by omega)]

theorem Encodes.encodeAlignedBins (h : Encodes e I) (h256 : e.range = 256) {v n : Nat} (hn : n ≤ 8)
    (hv : v < 2 ^ n) :
    ∃ e', e.encodeAlignedBins v n = .ok e' ∧ Encodes e' (binsEP I v n) ∧ e'.ctx = e.ctx := by
  refine h.pattern hn hv ?_
  rw [h.shl_low hn, Nat.shiftLeft_eq, h256, Nat.mul_comm v]

theorem Encodes.encodeBinsLoop (n : Nat) : ∀ {e : BinEncoder} {I : Interval} {v : Nat},
    Encodes e I → n ≤ 32 → v < 2 ^ n →
    ∃ e', e.encodeBinsLoop v n = .ok e' ∧ Encodes e' (binsEP I v n) ∧ e'.ctx = e.ctx := by
  induction n using Nat.strongRecOn with
  | ind n ih =>
    intro e I v h hn hv
    unfold BinEncoder.encodeBinsLoop
    split
    · next hgt =>
      have hhead : v >>> (n - 8) < 2 ^ 8 := by
        rw [Nat.shiftRight_eq_div_pow, Nat.div_lt_iff_lt_mul (Nat.two_pow_pos _), ← Nat.pow_add]
        rwa [show 8 + (n - 8) = n by omega]
      have hv32 : v < 2 ^ 32 := lt_of_lt_of_le hv (Nat.pow_le_pow_right (by omega) hn)
      have hrest : sub32 v ((v >>> (n - 8)) <<< (n - 8)) = v % 2 ^ (n - 8) := by
        have hdiv := Nat.div_add_mod v (2 ^ (n - 8))
        rw [Nat.shiftLeft_eq, Nat.shiftRight_eq_div_pow, Nat.mul_comm, sub32_of_le (by omega) hv32]
        omega
      obtain ⟨e₁, he₁, h₁, hctx₁⟩ := h.encodePattern (Nat.le_refl 8) hhead
      obtain ⟨e₂, he₂, h₂, hctx₂⟩ := ih (n - 8) (by omega) (v := v % 2 ^ (n - 8)) h₁ (by omega)
        (Nat.mod_lt _ (Nat.two_pow_pos _))
      refine ⟨e₂, by simp only [he₁, ok_bind, hrest, he₂], ?_, hctx₂.trans hctx₁⟩
      rw [binsEP_binsEP, Nat.shiftRight_eq_div_pow, Nat.div_add_mod',
        show 8 + (n - 8) = n by omega] at h₂
      exact h₂
    · exact h.encodePattern (by omega) hv

theorem Encodes.encodeAlignedBinsEP (n : Nat) : ∀ {e : BinEncoder} {I : Interval} (v : Nat),
    Encodes e I → e.range = 256 →
    ∃ e', e.encodeAlignedBinsEP v n = .ok e' ∧ Encodes e' (binsEP I (v % 2 ^ n) n) ∧
      e'.ctx = e.ctx := by
  induction n using Nat.strongRecOn with
  | ind n ih =>
    intro e I v h h256
    unfold BinEncoder.encodeAlignedBinsEP
    split
    · next h0 => subst h0; exact ⟨e, rfl, by simpa [Nat.mod_one] using h, rfl⟩
    · next h0 =>
      obtain ⟨k, hk⟩ : ∃ k, k = min n 8 := ⟨_, rfl⟩
      have hmask : v >>> (n - k) &&& (1 <<< k - 1) = v / 2 ^ (n - k) % 2 ^ k := by
        rw [Nat.one_shiftLeft, Nat.and_two_pow_sub_one_eq_mod, Nat.shiftRight_eq_div_pow]
      obtain ⟨e₁, he₁, h₁, hctx₁⟩ := h.encodeAlignedBins h256 (n := k) (by omega)
        (Nat.mod_lt (v / 2 ^ (n - k)) (Nat.two_pow_pos k))
      obtain ⟨e₂, he₂, h₂, hctx₂⟩ := ih (n - k) (by omega) v h₁
        (h₁.range_eq.trans (h.range_eq.symm.trans h256))
      refine ⟨e₂, ?_, ?_, hctx₂.trans hctx₁⟩
      · simp only [← hk, hmask, he₁, ok_bind, he₂]
      · rw [binsEP_binsEP, show k + (n - k) = n by omega] at h₂
        have hmod : v % 2 ^ n = v / 2 ^ (n - k) % 2 ^ k * 2 ^ (n - k) + v % 2 ^ (n - k) := by
          rw [show n = (n - k) + k by omega, Nat.pow_add, Nat.mod_mul,
            show n - k + k - k = n - k by omega]
          ring
        rwa [hmod]

theorem Encodes.encodeBinsEP (h : Encodes e I) {v n : Nat} (hn : n ≤ 32) (hv : v < 2 ^ n) :
    ∃ e', e.encodeBinsEP v n = .ok e' ∧ Encodes e' (binsEP I v n) ∧ e'.ctx = e.ctx := by
  unfold BinEncoder.encodeBinsEP
  split
  · next h256 =>
    have := Encodes.encodeAlignedBinsEP n v h h256
    rwa [Nat.mod_eq_of_lt hv] at this
  · exact Encodes.encodeBinsLoop n h hn hv

/-- Narrowing and then scaling, with the words of the source reduced. -/
theorem Encodes.narrow_scale (h : Encodes e I) {a r k low' range' : Nat} (hr : a + r ≤ I.range)
    (hpos : 0 < r) (hk : k ≤ 8) (hlow : low' = u32 ((e.low + a) * 2 ^ k))
    (hrange : range' = u32 (r * 2 ^ k)) (hranged : Ranged ((I.narrow a r).scale k)) :
    ∃ e', writeOutIfFull { e with low := low', range := range', bitsLeft := e.bitsLeft - k } = .ok e' ∧
      Encodes e' ((I.narrow a r).scale k) ∧ e'.ctx = e.ctx := by
  have hroom := h.room
  have hh := (h.narrow hr hpos).scale (k := k) (by simp only; omega)
  have hle := hranged.le
  rw [u32_of_lt (lt_trans hh.low_lt (by omega))] at hlow
  rw [u32_of_lt (by simp at hle; omega)] at hrange
  subst hlow hrange
  exact hh.writeOutIfFull hranged

theorem Encodes.encodeBinTrm (h : Encodes e I) (b : Bool) :
    ∃ e', e.encodeBinTrm b = .ok e' ∧ Encodes e' (binTrm I b) ∧ e'.ctx = e.ctx := by
  obtain ⟨h64, h510⟩ := h.ranged
  have hranged := binTrm_ranged h.ranged b
  have hsub : sub32 e.range 2 = I.range - 2 := by
    rw [h.range_eq, sub32_of_le (by omega) (by omega)]
  have hlow := h.low_lt
  unfold BinEncoder.encodeBinTrm binTrm at *
  simp only [hsub]
  cases b with
  | true =>
    refine h.narrow_scale (k := 7) (by omega) (by omega) (by omega) ?_ (by decide) hranged
    rw [shl, Nat.shiftLeft_eq, u32_of_lt (show e.low + (I.range - 2) < 2 ^ 32 by omega)]
  | false =>
    simp only [Bool.false_eq_true, if_false] at hranged ⊢
    split
    · next hge =>
      rw [if_pos hge] at hranged
      exact ⟨_, rfl, ⟨h.narrow (a := 0) (by omega) (by omega), h.room, hranged⟩, rfl⟩
    · next hlt =>
      rw [if_neg hlt] at hranged
      exact h.narrow_scale (k := 1) (by omega) (by omega) (by omega)
        (by rw [shl, Nat.shiftLeft_eq, Nat.add_zero]) (by rw [shl, Nat.shiftLeft_eq]) hranged

theorem Encodes.encodeSplit (h : Encodes e I) {m : BinProbModel} (hm : m.Ok) (b : Bool) :
    ∃ e', e.encodeSplit b m = .ok e' ∧ Encodes e' (bin I m b) ∧ e'.ctx = e.ctx := by
  have hranged := bin_ranged h.ranged hm b
  obtain ⟨h1, h255, hmps, hlt⟩ := split_mem h.ranged hm
  have h510 := h.ranged.le
  have hlow := h.low_lt
  have hsub : sub32 I.range (m.getLPS I.range) = I.range - m.getLPS I.range :=
    sub32_of_le (by omega) (by omega)
  unfold BinEncoder.encodeSplit
  unfold bin at hranged ⊢
  simp only [h.range_eq, hsub] at hranged ⊢
  generalize m.getLPS I.range = lps at *
  split
  · next hlps =>
    rw [if_pos hlps] at hranged
    refine h.narrow_scale (by omega) (by omega) (le_trans (getRenormBitsLPS_le lps) (by omega)) ?_
      (by rw [shl, Nat.shiftLeft_eq]) hranged
    rw [shl, Nat.shiftLeft_eq, u32_of_lt (show e.low + (I.range - lps) < 2 ^ 32 by omega)]
  · next hlps =>
    rw [if_neg hlps] at hranged
    split
    · next h256 =>
      rw [if_pos h256] at hranged
      exact h.narrow_scale (k := BinProbModel.getRenormBitsRange (I.range - lps)) (by omega)
        (by omega) (by simp [BinProbModel.getRenormBitsRange])
        (by rw [shl, Nat.shiftLeft_eq, Nat.add_zero]) (by rw [shl, Nat.shiftLeft_eq]) hranged
    · next h256 =>
      rw [if_neg h256] at hranged
      exact ⟨_, rfl, ⟨h.narrow (a := 0) (by omega) (by omega), h.room, hranged⟩, rfl⟩

theorem Encodes.encodeBin (h : Encodes e I) (hctx : e.ctx.Ok) (b : Bool) (ctxId : Nat) :
    ∃ e', e.encodeBin b ctxId = .ok e' ∧ Encodes e' (bin I (e.ctx.model ctxId) b) ∧
      e'.ctx = e.ctx.update ctxId b := by
  obtain ⟨e₁, he₁, h₁, -⟩ := h.encodeSplit (hctx.model ctxId) b
  refine ⟨{ e₁ with ctx := e.ctx.update ctxId b }, by rw [BinEncoder.encodeBin, he₁]; rfl, ?_, rfl⟩
  exact ⟨⟨h₁.wf, h₁.aligned, h₁.range_eq, h₁.range_pos, h₁.bitsLeft_mem, h₁.shift_eq, h₁.low_eq,
    h₁.small, h₁.first, h₁.buffered⟩, h₁.room, h₁.ranged⟩

/-! ## Finishing -/

/-- Once the held-back bytes are out, with the carry `c` of the register, the
rest of the register completes the low end, its last eight bits dropped. -/
theorem Encodes.writeLow (h : Encodes e I) {c low : Nat} (hlow : e.low = c * 2 ^ e.width + low)
    (hlt : low < 2 ^ e.width) {s : OutputBitstream} (hwf : s.WF) (ha : s.numHeldBits = 0)
    (hlen : s.fifo.length = e.bitstream.fifo.length + e.numBufferedBytes)
    (hval : ofBytes s.fifo = e.emitted + c) :
    ∃ s', s.write (low >>> 8) (24 - e.bitsLeft).toNat = .ok s' ∧ s'.WF ∧
      s'.bits.length = I.shift + 1 ∧ ofBits s'.bits = I.low / 2 ^ 8 := by
  have hroom := h.room
  have hmem := h.bitsLeft_mem
  have hwidth := h.width_eq
  have hshift := h.shift_eq
  have hp : 2 ^ e.width = 2 ^ (e.width - 8) * 2 ^ 8 := by rw [← Nat.pow_add]; congr 1; omega
  have hfit : low >>> 8 < 2 ^ (e.width - 8) := by
    rw [Nat.shiftRight_eq_div_pow, Nat.div_lt_iff_lt_mul (Nat.two_pow_pos _), ← hp]
    exact hlt
  rw [show (24 - e.bitsLeft).toNat = e.width - 8 by omega]
  obtain ⟨s', hs', hwf', hbits⟩ := OutputBitstream.write_spec hwf
    (show e.width - 8 ≤ 32 by omega) hfit
  have hall : s.bits = bytesBits s.fifo := by simp [OutputBitstream.bits, ha, toBits]
  refine ⟨s', hs', hwf', ?_, ?_⟩
  · rw [hbits, hall, List.length_append, length_bytesBits, length_toBits]
    omega
  · rw [hbits, hall, ofBits_append, ofBits_bytesBits, length_toBits, ofBits_toBits_of_lt hfit, hval,
      h.low_eq, hlow, hp, Nat.shiftRight_eq_div_pow]
    rw [show e.emitted * (2 ^ (e.width - 8) * 2 ^ 8) + (c * (2 ^ (e.width - 8) * 2 ^ 8) + low) =
      2 ^ 8 * ((e.emitted + c) * 2 ^ (e.width - 8)) + low by ring,
      Nat.mul_add_div (Nat.two_pow_pos 8)]

/-- `finish` writes the low end, its last eight bits dropped. -/
theorem Encodes.finish (h : Encodes e I) :
    ∃ e', e.finish = .ok e' ∧ e'.bitstream.WF ∧ e'.bitstream.bits.length = I.shift + 1 ∧
      ofBits e'.bitstream.bits = I.low / 2 ^ 8 := by
  have hmem := h.bitsLeft_mem
  have hwidth := h.width_eq
  have hsmall := h.small
  have hpos := h.range_pos
  have hbits : (32 - e.bitsLeft).toNat = e.width := rfl
  have hcarry : shr e.low (32 - e.bitsLeft) = e.low / 2 ^ e.width := by
    rw [shr, Nat.shiftRight_eq_div_pow, hbits]
  have hc1 : e.low / 2 ^ e.width ≤ 1 := by
    have : e.low / 2 ^ e.width < 2 := by
      rw [Nat.div_lt_iff_lt_mul (Nat.two_pow_pos _)]
      omega
    omega
  have hdiv := Nat.div_add_mod' e.low (2 ^ e.width)
  have hmod := Nat.mod_lt e.low (Nat.two_pow_pos e.width)
  unfold BinEncoder.finish
  simp only [hcarry]
  by_cases hnb : e.numBufferedBytes = 0
  · -- nothing was written yet, so there is no carry
    obtain ⟨hnil, hle⟩ := h.first hnb
    have hlt : e.low < 2 ^ e.width := by
      rw [show e.width = (e.width - 9) + 9 by omega, Nat.pow_add]
      omega
    obtain ⟨s', hs', hres⟩ := h.writeLow (c := 0) (by omega) hlt h.wf h.aligned
      (by omega) (by simp [hnil, emitted, hnb])
    simp only [Nat.div_eq_of_lt hlt, ne_eq, not_true_eq_false, if_false, hnb, show ¬ (0 > 0) by omega,
      ok_bind, writeBuffered, hs']
    exact ⟨_, rfl, hres⟩
  · obtain ⟨s, t, hs, ht, hwf, ha, hlen, hval⟩ := flushBuffered h.toHolds hnb hc1
    obtain ⟨s', hs', hres⟩ := h.writeLow hdiv.symm hmod hwf ha hlen hval
    have hc : e.low / 2 ^ e.width = 0 ∨ e.low / 2 ^ e.width = 1 := by omega
    rcases hc with hc | hc
    · rw [hc] at hs ht hdiv
      have hlow : e.low % 2 ^ e.width = e.low := by omega
      rw [hlow] at hs'
      simp only [Nat.add_zero, Nat.and_self] at hs ht
      simp only [hc, ne_eq, not_true_eq_false, if_false, show e.numBufferedBytes > 0 by omega,
        if_true, hs, ok_bind, ht, hs']
      exact ⟨_, rfl, hres⟩
    · rw [hc] at hs ht hdiv
      have hsub : sub32 e.low (1 <<< (32 - e.bitsLeft).toNat) = e.low % 2 ^ e.width := by
        rw [hbits, Nat.one_shiftLeft, sub32_of_le (by omega) (lt_trans h.low_lt (by omega))]
        omega
      have hzero : (0xff + 1) &&& 0xff = 0x00 := rfl
      rw [hzero] at ht
      simp only [hc, ne_eq, one_ne_zero, not_false_eq_true, if_true, hs, ok_bind, ht, hsub, hs']
      exact ⟨_, rfl, hres⟩

end ECM.EncoderLib.BinEncoder
