import ECM.DecoderLib.BinDecoder

/-! # Bypass bins, many at once and one by one

`ahead d n` is the register after `n` shifts, with the bytes that fall due and
nothing taken off. Bins and register are its quotient and remainder by the scaled
range, however many of them a function takes off at a time. -/

namespace ECM.DecoderLib.BinDecoder
open CommonLib CommonLib.BitStream CommonLib.Contexts
open Lib.Bits

/-- `numBins` times `decodeBinEP`. -/
def decodeBinEPs (d : BinDecoder) : (numBins : ℕ) → Checked (List Bool × BinDecoder)
  | 0 => .ok ([], d)
  | numBins + 1 => do
    let (bin, d) ← d.decodeBinEP
    let (bins, d) ← decodeBinEPs d numBins
    return (bin :: bins, d)

/-- The low bits of the register that wait for a byte. -/
def waiting (d : BinDecoder) : ℕ := (8 + d.bitsNeeded).toNat

/-- What bypass decoding starts from and leaves. The range of the coder has nine
bits; `m_Range << 15` keeps seventeen. -/
structure Ready (d : BinDecoder) : Prop where
  range_lt : d.range < 2 ^ 17
  value_lt : d.value < d.range * 2 ^ 7
  bitsNeeded_ge : -8 ≤ d.bitsNeeded
  bitsNeeded_lt : d.bitsNeeded < 0
  waiting_zero : 2 ^ d.waiting ∣ d.value

def ahead (d : BinDecoder) : ℕ → ℕ
  | 0 => d.value
  | n + 1 => 2 * ahead d n +
    if (d.waiting + n) % 8 = 7 then d.bitstream.byteAt ((d.waiting + n) / 8) else 0

/-- `d'` is what `d` becomes when `n` bins, which spell `bins`, are taken off. -/
structure After (d : BinDecoder) (n bins : ℕ) (d' : BinDecoder) : Prop where
  ctx_eq : d'.ctx = d.ctx
  range_eq : d'.range = d.range
  bitstream_eq : d'.bitstream =
    { d.bitstream with fifoIdx := d.bitstream.fifoIdx + (d.waiting + n) / 8 }
  bitsNeeded_eq : d'.bitsNeeded = (d.waiting + n) % 8 - 8
  value_lt : d'.value < d.range * 2 ^ 7
  value_eq : bins * (d.range * 2 ^ 7) + d'.value = d.ahead n

variable {d d' d₁ d₂ : BinDecoder} {m n k bins v : ℕ}

/-! ## The register ahead -/

theorem byteAt_lt (s : InputBitstream) (i : ℕ) : s.byteAt i < 2 ^ 8 := (s.fifo.getD _ 0).toNat_lt

theorem Ready.bitsNeeded_eq (h : Ready d) : d.bitsNeeded = d.waiting - 8 := by
  have hge := h.bitsNeeded_ge
  rw [waiting]
  omega

theorem Ready.waiting_lt (h : Ready d) : d.waiting < 8 := by
  have hneeded := h.bitsNeeded_eq
  have hlt := h.bitsNeeded_lt
  omega

theorem Ready.range_pos (h : Ready d) : 0 < d.range * 2 ^ 7 := Nat.zero_lt_of_lt h.value_lt

theorem ahead_dvd (h : Ready d) : ∀ n, 2 ^ ((d.waiting + n) % 8) ∣ d.ahead n
  | 0 => by
    rw [Nat.add_zero, Nat.mod_eq_of_lt h.waiting_lt]
    exact h.waiting_zero
  | n + 1 => by
    by_cases hlast : (d.waiting + n) % 8 = 7
    · rw [show (d.waiting + (n + 1)) % 8 = 0 by omega]
      exact Nat.one_dvd _
    · rw [ahead, if_neg hlast, show (d.waiting + (n + 1)) % 8 = (d.waiting + n) % 8 + 1 by omega,
        Nat.pow_succ, Nat.mul_comm]
      exact Nat.mul_dvd_mul_left 2 (ahead_dvd h n)

theorem scaledRange_dvd (d : BinDecoder) (n : ℕ) : 2 ^ ((d.waiting + n) % 8) ∣ d.range * 2 ^ 7 :=
  Dvd.dvd.mul_left (Nat.pow_dvd_pow 2 (by omega)) _

/-- The bits still to come cannot carry the register over the scaled range. -/
theorem ahead_add_le (h : Ready d) : ∀ n,
    d.ahead n + 2 ^ ((d.waiting + n) % 8) ≤ d.range * 2 ^ 7 * 2 ^ n
  | 0 => by
    obtain ⟨a, ha⟩ := ahead_dvd h 0
    obtain ⟨b, hb⟩ := scaledRange_dvd d 0
    have hlt := h.value_lt
    change d.ahead 0 < _ at hlt
    rw [Nat.pow_zero, Nat.mul_one, ha, hb, ← Nat.mul_succ]
    rw [ha, hb] at hlt
    exact Nat.mul_le_mul_left _ (Nat.lt_of_mul_lt_mul_left hlt)
  | n + 1 => by
    have hprev := ahead_add_le h n
    have hbyte := byteAt_lt d.bitstream ((d.waiting + n) / 8)
    rw [ahead, pow_succ 2 n, ← Nat.mul_assoc]
    by_cases hlast : (d.waiting + n) % 8 = 7
    · rw [if_pos hlast, show (d.waiting + (n + 1)) % 8 = 0 by omega]
      rw [hlast] at hprev
      omega
    · rw [if_neg hlast, show (d.waiting + (n + 1)) % 8 = (d.waiting + n) % 8 + 1 by omega,
        pow_succ 2 ((d.waiting + n) % 8)]
      omega

theorem ahead_lt (h : Ready d) (n : ℕ) : d.ahead n < d.range * 2 ^ 7 * 2 ^ n := by
  have hpos := Nat.two_pow_pos ((d.waiting + n) % 8)
  have hle := ahead_add_le h n
  omega

theorem ahead_lt_32 (h : Ready d) (hn : n ≤ 8) : d.ahead n < 2 ^ 32 := by
  have hlt := ahead_lt h n
  have hrange := h.range_lt
  have hpow : 2 ^ n ≤ 2 ^ 8 := Nat.pow_le_pow_right (by decide) hn
  have hmul : d.range * 2 ^ 7 * 2 ^ n ≤ d.range * 2 ^ 7 * 2 ^ 8 := Nat.mul_le_mul_left _ hpow
  omega

/-- Within eight shifts one byte at most falls due. -/
theorem ahead_eq (h : Ready d) : ∀ {k}, k ≤ 8 → d.ahead k = d.value * 2 ^ k +
    if 8 ≤ d.waiting + k then d.bitstream.byteAt 0 * 2 ^ (d.waiting + k - 8) else 0
  | 0, _ => by
    rw [if_neg (by have := h.waiting_lt; omega), ahead, Nat.pow_zero, Nat.mul_one, Nat.add_zero]
  | k + 1, hk => by
    have hwait := h.waiting_lt
    rw [ahead, ahead_eq h (by omega)]
    by_cases hlast : d.waiting + k = 7
    · rw [if_neg (by omega), if_pos (by omega), if_pos (by omega), hlast,
        show d.waiting + (k + 1) - 8 = 0 by omega, Nat.pow_succ]
      ring
    · by_cases hpast : 8 ≤ d.waiting + k
      · rw [if_pos hpast, if_neg (by omega), if_pos (by omega),
          show d.waiting + (k + 1) - 8 = d.waiting + k - 8 + 1 by omega, Nat.pow_succ, Nat.pow_succ]
        ring
      · rw [if_neg hpast, if_neg (by omega), if_neg (by omega), Nat.pow_succ]
        ring

/-! ## Taking bins off -/

theorem After.ready (h : After d n bins d') (hd : Ready d) : Ready d' := by
  have hwait : d'.waiting = (d.waiting + n) % 8 := by
    rw [waiting, h.bitsNeeded_eq]
    omega
  have hneeded := h.bitsNeeded_eq
  refine ⟨h.range_eq ▸ hd.range_lt, h.range_eq ▸ h.value_lt, by omega, by omega, ?_⟩
  rw [hwait]
  refine (Nat.dvd_add_right (Dvd.dvd.mul_left (scaledRange_dvd d n) bins)).mp ?_
  rw [h.value_eq]
  exact ahead_dvd hd n

theorem After.waiting_eq (h : After d n bins d') : d'.waiting = (d.waiting + n) % 8 := by
  have hneeded := h.bitsNeeded_eq
  rw [waiting]
  omega

theorem After.bins_lt (h : After d n bins d') (hd : Ready d) : bins < 2 ^ n := by
  have hlt := ahead_lt hd n
  rw [← h.value_eq, Nat.mul_comm bins] at hlt
  exact Nat.lt_of_mul_lt_mul_left (Nat.lt_of_le_of_lt (Nat.le_add_right _ _) hlt)

theorem After.zero (hd : Ready d) : After d 0 0 d := by
  have hwait := hd.waiting_lt
  refine ⟨rfl, rfl, ?_, ?_, hd.value_lt, by rw [Nat.zero_mul, Nat.zero_add, ahead]⟩
  · rw [Nat.add_zero, Nat.div_eq_of_lt hwait, Nat.add_zero]
  · have hneeded := hd.bitsNeeded_eq
    omega

/-- What is ahead after `m` bins is what was ahead of them, less those bins. -/
theorem After.ahead_add (h : After d m bins d₁) : ∀ k,
    d.ahead (m + k) = bins * (d.range * 2 ^ 7) * 2 ^ k + d₁.ahead k
  | 0 => by rw [Nat.add_zero, Nat.pow_zero, Nat.mul_one, ahead, h.value_eq]
  | k + 1 => by
    have hwait := h.waiting_eq
    have hbyte : d₁.bitstream.byteAt ((d₁.waiting + k) / 8) =
        d.bitstream.byteAt ((d.waiting + (m + k)) / 8) := by
      rw [h.bitstream_eq, InputBitstream.byteAt, InputBitstream.byteAt, Nat.add_assoc]
      dsimp only
      rw [show (d.waiting + m) / 8 + (d₁.waiting + k) / 8 = (d.waiting + (m + k)) / 8 by omega]
    rw [← Nat.add_assoc, ahead, ahead_add h k, ahead, hbyte,
      show (d₁.waiting + k) % 8 = (d.waiting + (m + k)) % 8 by omega, Nat.pow_succ]
    ring

theorem After.trans (h₁ : After d m bins d₁) (h₂ : After d₁ k v d₂) :
    After d (m + k) (bins * 2 ^ k + v) d₂ := by
  have hwait := h₁.waiting_eq
  refine ⟨h₂.ctx_eq.trans h₁.ctx_eq, h₂.range_eq.trans h₁.range_eq, ?_, ?_, ?_, ?_⟩
  · rw [h₂.bitstream_eq, h₁.bitstream_eq]
    dsimp only
    rw [Nat.add_assoc, show (d.waiting + m) / 8 + (d₁.waiting + k) / 8 = (d.waiting + (m + k)) / 8 by omega]
  · have hneeded := h₂.bitsNeeded_eq
    omega
  · exact h₁.range_eq ▸ h₂.value_lt
  · have hvalue := h₂.value_eq
    rw [h₁.range_eq] at hvalue
    rw [h₁.ahead_add k, ← hvalue]
    ring

theorem After.unique (h₁ : After d n bins d₁) (h₂ : After d n v d₂) : bins = v ∧ d₁ = d₂ := by
  have hpos : 0 < d.range * 2 ^ 7 := Nat.zero_lt_of_lt h₁.value_lt
  have hdivMod {b : ℕ} {e : BinDecoder} (h : After d n b e) :
      d.ahead n / (d.range * 2 ^ 7) = b ∧ d.ahead n % (d.range * 2 ^ 7) = e.value :=
    (Nat.div_mod_unique hpos).mpr ⟨by rw [← h.value_eq]; ring, h.value_lt⟩
  obtain ⟨hq₁, hr₁⟩ := hdivMod h₁
  obtain ⟨hq₂, hr₂⟩ := hdivMod h₂
  refine ⟨hq₁.symm.trans hq₂, ?_⟩
  cases d₁
  cases d₂
  rw [BinDecoder.mk.injEq]
  exact ⟨h₁.ctx_eq.trans h₂.ctx_eq.symm, h₁.bitstream_eq.trans h₂.bitstream_eq.symm,
    h₁.range_eq.trans h₂.range_eq.symm, hr₁.symm.trans hr₂,
    h₁.bitsNeeded_eq.trans h₂.bitsNeeded_eq.symm⟩

/-- The bytes that are still needed after some bins are there. -/
theorem After.long (h : After d m v d₁)
    (hlong : d.bitstream.fifoIdx + (d.waiting + (m + k)) / 8 ≤ d.bitstream.fifo.length) :
    d₁.bitstream.fifoIdx + (d₁.waiting + k) / 8 ≤ d₁.bitstream.fifo.length := by
  have hwait := h.waiting_eq
  rw [h.bitstream_eq]
  dsimp only
  omega

/-! ## One bin at a time -/

theorem decideEP_after (hd : Ready d) (hvalue : d₁.value = d.ahead 1)
    (hctx : d₁.ctx = d.ctx) (hrange : d₁.range = d.range)
    (hbitstream : d₁.bitstream =
      { d.bitstream with fifoIdx := d.bitstream.fifoIdx + (d.waiting + 1) / 8 })
    (hneeded : d₁.bitsNeeded = (d.waiting + 1) % 8 - 8) :
    ∃ bin d', d₁.decideEP = (bin, d') ∧ After d 1 bin.toNat d' := by
  have hlt := ahead_lt hd 1
  have h17 := hd.range_lt
  have hsr : u32 (d₁.range <<< 7) = d.range * 2 ^ 7 := by
    rw [hrange, Nat.shiftLeft_eq, u32_of_lt]
    omega
  unfold decideEP
  simp only [hsr]
  by_cases hge : d₁.value ≥ d.range * 2 ^ 7
  · rw [if_pos hge]
    refine ⟨true, _, rfl, hctx, hrange, hbitstream, hneeded, ?_, ?_⟩
    · dsimp only
      omega
    · change 1 * _ + (d₁.value - _) = _
      omega
  · rw [if_neg hge]
    refine ⟨false, _, rfl, hctx, hrange, hbitstream, hneeded, Nat.not_le.mp hge, ?_⟩
    rw [hvalue]
    exact (congrArg (· + d.ahead 1) (Nat.zero_mul _)).trans (Nat.zero_add _)

theorem byteAt_zero (h : d.bitstream.fifoIdx < d.bitstream.fifo.length) :
    d.bitstream.byteAt 0 = d.bitstream.fifo[d.bitstream.fifoIdx].toNat := by
  rw [InputBitstream.byteAt, Nat.add_zero, List.getD_eq_getElem?_getD, List.getElem?_eq_getElem h]
  rfl

theorem decodeBinEP_after (hd : Ready d)
    (hlong : d.bitstream.fifoIdx + (d.waiting + 1) / 8 ≤ d.bitstream.fifo.length) :
    ∃ bin d', d.decodeBinEP = .ok (bin, d') ∧ After d 1 bin.toNat d' := by
  have hneeded := hd.bitsNeeded_eq
  have hwait := hd.waiting_lt
  have h32 := ahead_lt_32 hd (show 1 ≤ 8 by decide)
  have hahead := ahead_eq hd (show 1 ≤ 8 by decide)
  rw [hahead] at h32
  unfold decodeBinEP
  by_cases hlast : d.waiting = 7
  · have hidx : d.bitstream.fifoIdx < d.bitstream.fifo.length := by omega
    rw [if_pos (by omega), byteAt_zero hidx, hlast] at hahead h32
    simp only [if_pos (show d.bitsNeeded + 1 ≥ 0 by omega), InputBitstream.readByte_ok hidx, ok_bind]
    have hvalue : u32 (u32 (d.value + d.value) + d.bitstream.fifo[d.bitstream.fifoIdx].toNat) =
        d.ahead 1 := by
      rw [u32_of_lt (show d.value + d.value < 2 ^ 32 by omega), u32_of_lt (by omega), hahead]
      omega
    obtain ⟨bin, d', hdecide, hafter⟩ := @decideEP_after d { d with
      bitstream := { d.bitstream with fifoIdx := d.bitstream.fifoIdx + 1 }
      value := u32 (u32 (d.value + d.value) + d.bitstream.fifo[d.bitstream.fifoIdx].toNat)
      bitsNeeded := -8 } hd hvalue rfl rfl (by rw [hlast]) (by rw [hlast]; rfl)
    exact ⟨bin, d', congrArg Except.ok hdecide, hafter⟩
  · rw [if_neg (by omega), Nat.add_zero] at hahead h32
    simp only [if_neg (show ¬d.bitsNeeded + 1 ≥ 0 by omega)]
    have hvalue : u32 (d.value + d.value) = d.ahead 1 := by
      rw [u32_of_lt (by omega), hahead]
      omega
    obtain ⟨bin, d', hdecide, hafter⟩ := @decideEP_after d { d with
      value := u32 (d.value + d.value), bitsNeeded := d.bitsNeeded + 1 } hd hvalue rfl rfl
      (by rw [Nat.div_eq_of_lt (by omega), Nat.add_zero])
      (by dsimp only; omega)
    exact ⟨bin, d', congrArg Except.ok hdecide, hafter⟩

theorem decodeBinEPs_after (n : ℕ) : ∀ {d : BinDecoder}, Ready d →
    d.bitstream.fifoIdx + (d.waiting + n) / 8 ≤ d.bitstream.fifo.length →
    ∃ bs d', d.decodeBinEPs n = .ok (bs, d') ∧ bs.length = n ∧ After d n (ofBits bs) d' := by
  induction n with
  | zero => exact fun hd _ => ⟨[], _, rfl, rfl, After.zero hd⟩
  | succ n ih =>
    intro d hd hlong
    obtain ⟨bin, d₁, hbin, h₁⟩ := decodeBinEP_after hd (by omega)
    have hlong₁ : d₁.bitstream.fifoIdx + (d₁.waiting + n) / 8 ≤ d₁.bitstream.fifo.length :=
      h₁.long (by omega)
    obtain ⟨bs, d', hbins, hlen, h'⟩ := ih (h₁.ready hd) hlong₁
    refine ⟨bin :: bs, d', ?_, congrArg Nat.succ hlen, ?_⟩
    · simp only [decodeBinEPs, hbin, ok_bind, hbins]
      rfl
    · rw [ofBits_cons, hlen, Nat.add_comm n 1]
      exact h₁.trans h'

/-! ## Eight bins at a time -/

/-- The decoder once `k` bins are taken off what is ahead. -/
def advance (d : BinDecoder) (k : ℕ) : BinDecoder :=
  { d with bitstream := { d.bitstream with fifoIdx := d.bitstream.fifoIdx + (d.waiting + k) / 8 }
           bitsNeeded := (d.waiting + k) % 8 - 8
           value := d.ahead k % (d.range * 2 ^ 7) }

theorem advance_after (hd : Ready d) (k : ℕ) :
    After d k (d.ahead k / (d.range * 2 ^ 7)) (d.advance k) :=
  ⟨rfl, rfl, rfl, rfl, Nat.mod_lt _ hd.range_pos, Nat.div_add_mod' _ _⟩

/-- A byte falls due, or none does. -/
theorem advance_eq {bitstream : InputBitstream} {needed : ℤ} {value : ℕ}
    (hbitstream : bitstream.fifoIdx = d.bitstream.fifoIdx + (d.waiting + k) / 8)
    (hfifo : bitstream = { d.bitstream with fifoIdx := bitstream.fifoIdx })
    (hneeded : needed = (d.waiting + k) % 8 - 8) (hvalue : value = d.ahead k % (d.range * 2 ^ 7)) :
    { d with bitstream, value, bitsNeeded := needed } = d.advance k := by
  rw [hfifo, hbitstream, hneeded, hvalue]
  rfl

theorem scaledRange_eq (hd : Ready d) (hk : k ≤ 8) :
    u32 (d.range <<< (k + 7)) = d.range * 2 ^ 7 * 2 ^ k := by
  have h17 := hd.range_lt
  have hpow : 2 ^ k ≤ 2 ^ 8 := Nat.pow_le_pow_right (by decide) hk
  have hmul : d.range * 2 ^ 7 * 2 ^ k ≤ d.range * 2 ^ 7 * 2 ^ 8 := Nat.mul_le_mul_left _ hpow
  rw [Nat.shiftLeft_eq, pow_add, Nat.mul_comm (2 ^ k), ← Nat.mul_assoc, u32_of_lt]
  omega

theorem decodeEightBins_after (hd : Ready d) (hbins : (bins + 1) * 2 ^ 8 ≤ 2 ^ 32)
    (hlong : d.bitstream.fifoIdx + (d.waiting + 8) / 8 ≤ d.bitstream.fifo.length) :
    ∃ v d', d.decodeEightBins bins = .ok (bins * 2 ^ 8 + v, d') ∧ After d 8 v d' := by
  have hidx : d.bitstream.fifoIdx < d.bitstream.fifo.length := by omega
  have hneeded := hd.bitsNeeded_eq
  have hwait := hd.waiting_lt
  have h32 := ahead_lt_32 hd (Nat.le_refl 8)
  have hahead := ahead_eq hd (Nat.le_refl 8)
  rw [if_pos (by omega), byteAt_zero hidx, Nat.add_sub_cancel] at hahead
  rw [hahead] at h32
  have hvalue : u32 (u32 (d.value <<< 8) +
      d.bitstream.fifo[d.bitstream.fifoIdx].toNat <<< (8 + d.bitsNeeded).toNat) = d.ahead 8 := by
    rw [show (8 + d.bitsNeeded).toNat = d.waiting from rfl, Nat.shiftLeft_eq, Nat.shiftLeft_eq,
      u32_of_lt (Nat.lt_of_le_of_lt (Nat.le_add_right _ _) h32), u32_of_lt h32, hahead]
  have hadvance : { d with bitstream := { d.bitstream with fifoIdx := d.bitstream.fifoIdx + 1 }
                           value := d.ahead 8 % (d.range * 2 ^ 7) } = d.advance 8 :=
    advance_eq (by dsimp only; omega) rfl (by omega) rfl
  refine ⟨_, _, ?_, advance_after hd 8⟩
  simp only [decodeEightBins, InputBitstream.readByte_ok hidx, ok_bind, hvalue,
    scaledRange_eq hd (Nat.le_refl 8), extractBins_spec 8 (ahead_lt hd 8) hbins, ← hadvance]
  rfl

/-- Shifted by `k` and refilled, the register is the one ahead. -/
theorem refill_ahead (hd : Ready d) (hk : k ≤ 8)
    (hlong : d.bitstream.fifoIdx + (d.waiting + k) / 8 ≤ d.bitstream.fifo.length) :
    refill { d with bitsNeeded := d.bitsNeeded + k, value := u32 (d.value <<< k) } =
      .ok { d.advance k with value := d.ahead k } := by
  have hneeded := hd.bitsNeeded_eq
  have hwait := hd.waiting_lt
  have h32 := ahead_lt_32 hd hk
  have hahead := ahead_eq hd hk
  have hshift : u32 (d.value <<< k) = d.value * 2 ^ k := by
    rw [Nat.shiftLeft_eq, u32_of_lt (by omega)]
  unfold refill
  by_cases hlast : 8 ≤ d.waiting + k
  · have hidx : d.bitstream.fifoIdx < d.bitstream.fifo.length := by omega
    rw [if_pos hlast, byteAt_zero hidx] at hahead
    have hneed : (d.bitsNeeded + k).toNat = d.waiting + k - 8 := by omega
    have hpos : d.bitsNeeded + k ≥ 0 := by omega
    simp only [if_pos hpos, InputBitstream.readByte_ok hidx, ok_bind, hshift, hneed,
      Nat.shiftLeft_eq d.bitstream.fifo[d.bitstream.fifoIdx].toNat, ← hahead, u32_of_lt h32, advance]
    rw [show (d.waiting + k) / 8 = 1 by omega,
      show d.bitsNeeded + k - 8 = (d.waiting + k) % 8 - 8 by omega]
    rfl
  · rw [if_neg hlast, Nat.add_zero] at hahead
    have hneg : ¬d.bitsNeeded + k ≥ 0 := by omega
    simp only [if_neg hneg, hshift, ← hahead, advance]
    rw [show (d.waiting + k) / 8 = 0 by omega, Nat.add_zero,
      show d.bitsNeeded + k = (d.waiting + k) % 8 - 8 by omega]

theorem decodeRestBins_after (hd : Ready d) (hk : k ≤ 8) (hbins : (bins + 1) * 2 ^ k ≤ 2 ^ 32)
    (hlong : d.bitstream.fifoIdx + (d.waiting + k) / 8 ≤ d.bitstream.fifo.length) :
    ∃ v d', d.decodeRestBins bins k = .ok (bins * 2 ^ k + v, d') ∧ After d k v d' := by
  have hsr : u32 ((d.advance k).range <<< (k + 7)) = d.range * 2 ^ 7 * 2 ^ k :=
    @scaledRange_eq d k hd hk
  refine ⟨_, _, ?_, advance_after hd k⟩
  simp only [decodeRestBins, refill_ahead hd hk hlong, ok_bind, hsr,
    extractBins_spec k (ahead_lt hd k) hbins]
  rfl

/-- Bins go on as a word while it fits in 32 of them. -/
theorem word_fits (hbins : (bins + 1) * 2 ^ (m + k) ≤ 2 ^ 32) (hv : v < 2 ^ m) :
    (bins + 1) * 2 ^ m ≤ 2 ^ 32 ∧ (bins * 2 ^ m + v + 1) * 2 ^ k ≤ 2 ^ 32 := by
  rw [pow_add, ← Nat.mul_assoc] at hbins
  refine ⟨le_trans (Nat.le_mul_of_pos_right _ (Nat.two_pow_pos k)) hbins,
    le_trans (Nat.mul_le_mul_right _ ?_) hbins⟩
  rw [Nat.add_one_mul]
  omega

/-- Two portions of bins are one. -/
theorem After.join (h₁ : After d m v d₁) (bins : ℕ) {w : ℕ} (h₂ : After d₁ k w d₂) :
    ∃ u, (bins * 2 ^ m + v) * 2 ^ k + w = bins * 2 ^ (m + k) + u ∧ After d (m + k) u d₂ :=
  ⟨v * 2 ^ k + w, by rw [pow_add]; ring, h₁.trans h₂⟩

theorem decodeBinsLoop_after (n : ℕ) : ∀ {d : BinDecoder} {bins : ℕ}, Ready d →
    (bins + 1) * 2 ^ n ≤ 2 ^ 32 →
    d.bitstream.fifoIdx + (d.waiting + n) / 8 ≤ d.bitstream.fifo.length →
    ∃ v d', d.decodeBinsLoop bins n = .ok (bins * 2 ^ n + v, d') ∧ After d n v d' := by
  induction n using Nat.strongRecOn with
  | ind n ih =>
    intro d bins hd hbins hlong
    unfold decodeBinsLoop
    split
    · next hgt =>
      obtain ⟨k, rfl⟩ := Nat.exists_eq_add_of_le (show 8 ≤ n by omega)
      have hfits := (word_fits hbins (Nat.two_pow_pos 8)).1
      obtain ⟨v, d₁, hd₁, h₁⟩ := decodeEightBins_after hd hfits (by omega)
      obtain ⟨w, d₂, hd₂, h₂⟩ := ih k (by omega) (h₁.ready hd) (word_fits hbins (h₁.bins_lt hd)).2
        (h₁.long hlong)
      obtain ⟨u, hu, hafter⟩ := h₁.join bins h₂
      refine ⟨u, d₂, ?_, hafter⟩
      simp only [hd₁, ok_bind, Nat.add_sub_cancel_left, hd₂, hu]
    · next hle => exact decodeRestBins_after hd (by omega) hbins hlong

/-! ## The aligned mode -/

/-- The bins are the top of the register before the byte, and the byte is or-ed in below. -/
theorem ahead_split (hd : Ready d) (h256 : d.range = 256) (hk : k ≤ 8) {y : ℕ}
    (hy : y < 2 ^ (d.waiting + k)) (hahead : d.ahead k = d.value * 2 ^ k + y) :
    d.value * 2 ^ k / 2 ^ 15 = d.ahead k / (d.range * 2 ^ 7) ∧
      d.value * 2 ^ k % 2 ^ 15 ||| y = d.ahead k % (d.range * 2 ^ 7) := by
  have hwait := hd.waiting_lt
  have h15 : d.range * 2 ^ 7 = 2 ^ 15 := by
    rw [h256]
    rfl
  obtain ⟨a, ha⟩ : ∃ a, a = 2 ^ (d.waiting + k) := ⟨_, rfl⟩
  have hab : a * 2 ^ (15 - (d.waiting + k)) = 2 ^ 15 := by
    rw [ha, ← pow_add]
    congr 1
    omega
  obtain ⟨m, hm⟩ := hd.waiting_zero
  have hma : d.value * 2 ^ k = m * a := by
    rw [hm, ha, pow_add]
    ring
  rw [hahead, hma, h15]
  obtain ⟨hdiv, hmod⟩ := aligned_split (v := (m * a + y) / 2 ^ 15) hab (ha ▸ hy)
    (Nat.div_mul_le_self _ _) (by omega)
  refine ⟨hdiv, ?_⟩
  have hlow : m * a % 2 ^ 15 ||| y = m * a % 2 ^ 15 + y := by
    rw [← hab, Nat.mul_comm m, Nat.mul_mod_mul_left, ha, ← Nat.two_pow_add_eq_or_of_lt hy]
  have hsum := Nat.div_add_mod' (m * a + y) (2 ^ 15)
  omega

theorem decodeAlignedBins_after (hd : Ready d) (h256 : d.range = 256) (hk : k ≤ 8)
    (hbins : (bins + 1) * 2 ^ k ≤ 2 ^ 32)
    (hlong : d.bitstream.fifoIdx + (d.waiting + k) / 8 ≤ d.bitstream.fifo.length) :
    ∃ v d', d.decodeAlignedBins bins k = .ok (bins * 2 ^ k + v, d') ∧ After d k v d' := by
  have hneeded := hd.bitsNeeded_eq
  have hwait := hd.waiting_lt
  have h32 := ahead_lt_32 hd hk
  have hahead := ahead_eq hd hk
  have hbinsLt := (advance_after hd k).bins_lt hd
  have hlow : u32 (d.value <<< k) &&& 0x7FFF = d.value * 2 ^ k % 2 ^ 15 := by
    rw [Nat.shiftLeft_eq, u32_of_lt (by omega)]
    exact Nat.and_two_pow_sub_one_eq_mod _ 15
  have hnew : (d.value >>> (15 - k)) &&& (1 <<< k - 1) = d.value * 2 ^ k / 2 ^ 15 := by
    have hvalue := hd.value_lt
    have hp : 2 ^ 15 = 2 ^ (15 - k) * 2 ^ k := by
      rw [← pow_add]
      congr 1
      omega
    rw [Nat.one_shiftLeft, Nat.and_two_pow_sub_one_eq_mod, Nat.shiftRight_eq_div_pow, hp,
      Nat.mul_div_mul_right _ _ (Nat.two_pow_pos k), Nat.mod_eq_of_lt]
    rw [Nat.div_lt_iff_lt_mul (Nat.two_pow_pos _), Nat.mul_comm, ← hp]
    omega
  have hor {v : ℕ} (hv : v < 2 ^ k) : u32 (bins <<< k) ||| v = bins * 2 ^ k + v := by
    rw [Nat.add_one_mul] at hbins
    rw [Nat.shiftLeft_eq, u32_of_lt (by omega), Nat.mul_comm, ← Nat.two_pow_add_eq_or_of_lt hv]
  refine ⟨_, _, ?_, advance_after hd k⟩
  simp only [decodeAlignedBins, hlow, hnew]
  by_cases hlast : 8 ≤ d.waiting + k
  · have hidx : d.bitstream.fifoIdx < d.bitstream.fifo.length := by omega
    obtain ⟨s, hs⟩ : ∃ s, s = d.waiting + k - 8 := ⟨_, rfl⟩
    rw [if_pos hlast, byteAt_zero hidx, ← hs] at hahead
    have hbyte : d.bitstream.fifo[d.bitstream.fifoIdx].toNat * 2 ^ s < 2 ^ (d.waiting + k) := by
      rw [show d.waiting + k = 8 + s by omega, pow_add]
      exact Nat.mul_lt_mul_of_pos_right (UInt8.toNat_lt _) (Nat.two_pow_pos s)
    obtain ⟨hdiv, hmod⟩ := ahead_split hd h256 hk hbyte hahead
    simp only [if_pos (show d.bitsNeeded + k ≥ 0 by omega), InputBitstream.readByte_ok hidx, ok_bind,
      show (d.bitsNeeded + k).toNat = s by omega, Nat.shiftLeft_eq _ s, hdiv, hmod, hor hbinsLt, advance]
    rw [show (d.waiting + k) / 8 = 1 by omega,
      show d.bitsNeeded + k - 8 = (d.waiting + k) % 8 - 8 by omega]
    rfl
  · rw [if_neg hlast] at hahead
    obtain ⟨hdiv, hmod⟩ := ahead_split hd h256 hk (Nat.two_pow_pos _) hahead
    rw [Nat.or_zero] at hmod
    simp only [if_neg (show ¬d.bitsNeeded + k ≥ 0 by omega), hdiv, hmod, hor hbinsLt, advance]
    rw [show (d.waiting + k) / 8 = 0 by omega, Nat.add_zero,
      show d.bitsNeeded + k = (d.waiting + k) % 8 - 8 by omega]
    rfl

theorem decodeAlignedBinsEP_after (n : ℕ) : ∀ {d : BinDecoder} {bins : ℕ}, Ready d → d.range = 256 →
    (bins + 1) * 2 ^ n ≤ 2 ^ 32 →
    d.bitstream.fifoIdx + (d.waiting + n) / 8 ≤ d.bitstream.fifo.length →
    ∃ v d', d.decodeAlignedBinsEP bins n = .ok (bins * 2 ^ n + v, d') ∧ After d n v d' := by
  induction n using Nat.strongRecOn with
  | ind n ih =>
    intro d bins hd h256 hbins hlong
    unfold decodeAlignedBinsEP
    split
    · next hzero =>
      subst hzero
      exact ⟨0, d, by rw [Nat.pow_zero, Nat.mul_one, Nat.add_zero], After.zero hd⟩
    · next hmore =>
      obtain ⟨m, hm⟩ : ∃ m, m = min n 8 := ⟨_, rfl⟩
      obtain ⟨k, rfl⟩ := Nat.exists_eq_add_of_le (show m ≤ n by omega)
      have hfits := (word_fits hbins (Nat.two_pow_pos m)).1
      obtain ⟨v, d₁, hd₁, h₁⟩ := decodeAlignedBins_after hd h256 (show m ≤ 8 by omega) hfits (by omega)
      obtain ⟨w, d₂, hd₂, h₂⟩ := ih k (by omega) (h₁.ready hd) (h₁.range_eq.trans h256)
        (word_fits hbins (h₁.bins_lt hd)).2 (h₁.long hlong)
      obtain ⟨u, hu, hafter⟩ := h₁.join bins h₂
      refine ⟨u, d₂, ?_, hafter⟩
      simp only [← hm, hd₁, ok_bind, Nat.add_sub_cancel_left, hd₂, hu]

/-! ## Both ways of reading -/

theorem decodeBinsEP_after (hd : Ready d) (hn : n ≤ 32)
    (hlong : d.bitstream.fifoIdx + (d.waiting + n) / 8 ≤ d.bitstream.fifo.length) :
    ∃ v d', d.decodeBinsEP n = .ok (v, d') ∧ After d n v d' := by
  have hbins : (0 + 1) * 2 ^ n ≤ 2 ^ 32 := by
    rw [Nat.zero_add, Nat.one_mul]
    exact Nat.pow_le_pow_right (by decide) hn
  unfold decodeBinsEP
  split
  · next h256 =>
    obtain ⟨v, d', hread, hafter⟩ := decodeAlignedBinsEP_after n hd h256 hbins hlong
    exact ⟨v, d', by rw [hread, Nat.zero_mul, Nat.zero_add], hafter⟩
  · obtain ⟨v, d', hread, hafter⟩ := decodeBinsLoop_after n hd hbins hlong
    exact ⟨v, d', by rw [hread, Nat.zero_mul, Nat.zero_add], hafter⟩

/-- `decodeBinsEP( n )` reads the word that `n` times `decodeBinEP` spells, and leaves
the decoder as they do. -/
theorem decodeBinsEP_eq_decodeBinEPs (hd : Ready d) (hn : n ≤ 32)
    (hlong : d.bitstream.fifoIdx + (d.waiting + n) / 8 ≤ d.bitstream.fifo.length) :
    ∃ bs d', d.decodeBinEPs n = .ok (bs, d') ∧ bs.length = n ∧ d.decodeBinsEP n = .ok (ofBits bs, d') := by
  obtain ⟨bs, d₁, hone, hlen, h₁⟩ := decodeBinEPs_after n hd hlong
  obtain ⟨v, d₂, hmany, h₂⟩ := decodeBinsEP_after hd hn hlong
  obtain ⟨hv, rfl⟩ := h₁.unique h₂
  exact ⟨bs, d₁, hone, hlen, hv ▸ hmany⟩

/-- Twenty-one bins with three bits waiting, in the aligned mode and out of it. -/
theorem twentyOneBins_agree :
    (∃ bs d', decodeBinEPs ⟨[], .ofFifo [0xA7, 0x3C, 0x59], 256, 0x4D28, -5⟩ 21 = .ok (bs, d') ∧
      bs.length = 21 ∧
      decodeBinsEP ⟨[], .ofFifo [0xA7, 0x3C, 0x59], 256, 0x4D28, -5⟩ 21 = .ok (ofBits bs, d')) ∧
    ∃ bs d', decodeBinEPs ⟨[], .ofFifo [0xA7, 0x3C, 0x59], 300, 0x4D28, -5⟩ 21 = .ok (bs, d') ∧
      bs.length = 21 ∧
      decodeBinsEP ⟨[], .ofFifo [0xA7, 0x3C, 0x59], 300, 0x4D28, -5⟩ 21 = .ok (ofBits bs, d') :=
  ⟨decodeBinsEP_eq_decodeBinEPs ⟨by decide, by decide, by decide, by decide, by decide⟩ (by decide) (by decide),
    decodeBinsEP_eq_decodeBinEPs ⟨by decide, by decide, by decide, by decide, by decide⟩ (by decide) (by decide)⟩

end ECM.DecoderLib.BinDecoder
