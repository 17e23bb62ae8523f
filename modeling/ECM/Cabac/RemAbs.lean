import ECM.Cabac.Binarization

/-! # Remaining absolute levels

`encodeRemAbsEP` of the encoder and of the bit estimator, and `decodeRemAbsEP`: a
unary prefix up to `cutoff`, an exponential Golomb code above it, and where its
prefix is as long as it may be, a word of `maxLog2TrDynamicRange` bins. -/

namespace ECM.Cabac.RemAbs
open CommonLib CommonLib.Bins ECM.Cabac.Binarization Lib.Bits Lib.Codec

/-! ## The encoder -/

/-- `encodeBinsEP` takes eight bins at a time off a word of 32 bits, so the first shift
is in range up to 39 bins. -/
def encodeWordEP (bins numBins : ℕ) : BinPut Unit := do
  check (numBins > 39 ∨ bins ≥ 2 ^ numBins) "bins out of range"
  Put.emit ((toBits numBins bins).map .ep)

/-- `while( codeValue > ( ( 2 << prefixLength ) - 2 ) ) prefixLength++;` -/
def prefixLengthLoop : (rounds codeValue prefixLength : ℕ) → ℕ
  | 0, _, prefixLength => prefixLength
  | rounds + 1, codeValue, prefixLength =>
    if codeValue > sub32 (u32 (2 <<< prefixLength)) 2 then
      prefixLengthLoop rounds codeValue (prefixLength + 1)
    else prefixLength

def threshold (goRicePar cutoff : ℕ) : ℕ := u32 (cutoff <<< goRicePar)

def bitMask (goRicePar : ℕ) : ℕ := sub32 (u32 (1 <<< goRicePar)) 1

def codeValue (bins goRicePar cutoff : ℕ) : ℕ := sub32 (bins >>> goRicePar) cutoff

/-- `prefixLength` and `suffixLength` of a value that is not below the threshold. -/
def lengths (bins goRicePar cutoff maxLog2TrDynamicRange : ℕ) : ℕ × ℕ :=
  let maxPrefixLength := sub32 (sub32 32 cutoff) maxLog2TrDynamicRange
  if codeValue bins goRicePar cutoff ≥ sub32 (u32 (1 <<< maxPrefixLength)) 1 then
    (maxPrefixLength, maxLog2TrDynamicRange)
  else
    let prefixLength := prefixLengthLoop 32 (codeValue bins goRicePar cutoff) 0
    (prefixLength, prefixLength + goRicePar + 1) -- +1 for the separator bit

def suffix (bins goRicePar cutoff prefixLength : ℕ) : ℕ :=
  u32 (sub32 (codeValue bins goRicePar cutoff) (sub32 (u32 (1 <<< prefixLength)) 1) <<< goRicePar) |||
    (bins &&& bitMask goRicePar)

def encodeRemAbsEP (bins goRicePar cutoff maxLog2TrDynamicRange : ℕ) : BinPut Unit :=
  if bins < threshold goRicePar cutoff then do
    encodeWordEP (sub32 (u32 (1 <<< (bins >>> goRicePar + 1))) 2) (bins >>> goRicePar + 1)
    encodeWordEP (bins &&& bitMask goRicePar) goRicePar
  else do
    let (prefixLength, suffixLength) := lengths bins goRicePar cutoff maxLog2TrDynamicRange
    encodeWordEP (sub32 (u32 (1 <<< (prefixLength + cutoff))) 1) (prefixLength + cutoff)
    encodeWordEP (suffix bins goRicePar cutoff prefixLength) suffixLength

/-! ## The estimator -/

def SCALE_BITS : ℕ := 15

def estFracBitsEP (numBins : ℕ) : ℕ := u32 (numBins <<< SCALE_BITS)

/-- `BitEstimatorBase::encodeRemAbsEP`: what becomes of `m_EstFracBits`. -/
def estimateRemAbsEP (m_EstFracBits bins goRicePar cutoff maxLog2TrDynamicRange : ℕ) : ℕ :=
  if bins < threshold goRicePar cutoff then
    (m_EstFracBits + estFracBitsEP (bins >>> goRicePar + 1 + goRicePar)) % 2 ^ 64
  else
    let (prefixLength, suffixLength) := lengths bins goRicePar cutoff maxLog2TrDynamicRange
    (m_EstFracBits + estFracBitsEP (cutoff + prefixLength + suffixLength)) % 2 ^ 64

/-! ## The decoder -/

/-- The `do` loop: `rounds` is its bound `maxPrefix`. -/
def prefixLoop (maxPrefix : ℕ) : (rounds pre : ℕ) → BinGet ℕ
  | 0, pre => pure pre
  | rounds + 1, pre => do
    let pre := pre + 1
    let codeWord ← decodeBinEP
    if codeWord ∧ pre < maxPrefix then prefixLoop maxPrefix rounds pre
    else return pre - (1 - codeWord.toNat)

def decodeRemAbsEP (goRicePar cutoff maxLog2TrDynamicRange : ℕ) : BinGet ℕ := do
  let maxPrefix := sub32 32 maxLog2TrDynamicRange
  let pre ← prefixLoop maxPrefix maxPrefix 0
  if pre < cutoff then
    let bins ← decodeBinsEP goRicePar
    return u32 (u32 (pre <<< goRicePar) + bins)
  else
    let offset := u32 (sub32 (u32 (1 <<< (pre - cutoff)) + cutoff) 1 <<< goRicePar)
    let length := u32 (goRicePar + if pre = maxPrefix then sub32 maxLog2TrDynamicRange goRicePar else pre - cutoff)
    let bins ← decodeBinsEP length
    return u32 (offset + bins)

/-! ## What is put out and taken back -/

/-- Shifts of 32-bit words are in range, there is a prefix, and the threshold is a word. -/
structure Params (goRicePar cutoff maxLog2TrDynamicRange : ℕ) : Prop where
  goRicePar_lt : goRicePar < 32
  maxLog2TrDynamicRange_pos : 0 < maxLog2TrDynamicRange
  prefix_pos : cutoff + maxLog2TrDynamicRange < 32
  threshold_lt : cutoff * 2 ^ goRicePar < 2 ^ 32

variable {goRicePar cutoff maxLog2TrDynamicRange s w : ℕ}

/-- The first value whose code has `s` ones in front. -/
def offset (goRicePar cutoff s : ℕ) : ℕ :=
  if s < cutoff then s * 2 ^ goRicePar else (2 ^ (s - cutoff) + cutoff - 1) * 2 ^ goRicePar

/-- How many bins come after those ones and their end. -/
def suffixBins (goRicePar cutoff maxLog2TrDynamicRange s : ℕ) : ℕ :=
  if s < cutoff then goRicePar
  else if s = 32 - maxLog2TrDynamicRange then maxLog2TrDynamicRange
  else goRicePar + (s - cutoff)

def code (goRicePar cutoff maxLog2TrDynamicRange s w : ℕ) : List Bool :=
  unary s (32 - maxLog2TrDynamicRange) ++ toBits (suffixBins goRicePar cutoff maxLog2TrDynamicRange s) w

/-! ## Taking back -/

theorem prefixLoop_read {maxPrefix : ℕ} (rest : List Bin) : ∀ (ones : ℕ) {rounds pre : ℕ},
    pre + rounds = maxPrefix → 0 < rounds → ones ≤ rounds →
    prefixLoop maxPrefix rounds pre
      ((List.replicate ones true ++ if pre + ones < maxPrefix then [false] else []).map .ep ++ rest) =
      .ok (pre + ones, rest)
  | _, 0, _, _, hpos, _ => absurd hpos (Nat.lt_irrefl 0)
  | 0, rounds + 1, pre, hmax, _, _ => by
    rw [if_pos (by omega)]
    rfl
  | ones + 1, rounds + 1, pre, hmax, _, hones => by
    rw [show pre + (ones + 1) = pre + 1 + ones by omega]
    change (if true = true ∧ pre + 1 < maxPrefix then prefixLoop maxPrefix rounds (pre + 1)
      else pure (pre + 1 - (1 - true.toNat)) : BinGet ℕ) ((List.replicate ones true ++
        if pre + 1 + ones < maxPrefix then [false] else []).map .ep ++ rest) = _
    by_cases hmore : pre + 1 < maxPrefix
    · rw [if_pos ⟨rfl, hmore⟩]
      exact prefixLoop_read rest ones (by omega) (by omega) (by omega)
    · obtain rfl : ones = 0 := by omega
      rw [if_neg fun h => hmore h.2, if_neg hmore]
      rfl

theorem decodeBinsEP_toBits {n v : ℕ} (hv : v < 2 ^ n) (rest : List Bin) :
    decodeBinsEP n ((toBits n v).map .ep ++ rest) = .ok (v, rest) := by
  have hread := decodeBypass_map (toBits n v) rest
  rw [length_toBits] at hread
  change (decodeBypass n ((toBits n v).map .ep ++ rest) >>= fun p => .ok (ofBits p.1, p.2)) = _
  rw [hread, ok_bind, ofBits_toBits_of_lt hv]

theorem pow_le_of_lt {n : ℕ} (hn : n < 32) : 2 ^ n ≤ 2 ^ 31 := Nat.pow_le_pow_right (by decide) (by omega)

/-- The reader's sum, where it does not wrap. -/
theorem offset_word (h : Params goRicePar cutoff maxLog2TrDynamicRange)
    (hs : s ≤ 32 - maxLog2TrDynamicRange) (hlong : ¬s < cutoff) :
    sub32 (u32 (1 <<< (s - cutoff)) + cutoff) 1 = 2 ^ (s - cutoff) + cutoff - 1 := by
  have hpos := h.maxLog2TrDynamicRange_pos
  have hcutoff := h.prefix_pos
  have hpow := pow_le_of_lt (show s - cutoff < 32 by omega)
  have hone := Nat.two_pow_pos (s - cutoff)
  rw [Nat.one_shiftLeft, u32_of_lt (by omega), sub32_of_le (by omega) (by omega)]

theorem decodeRemAbsEP_code (h : Params goRicePar cutoff maxLog2TrDynamicRange)
    (hs : s ≤ 32 - maxLog2TrDynamicRange)
    (hw : w < 2 ^ suffixBins goRicePar cutoff maxLog2TrDynamicRange s)
    (hfit : offset goRicePar cutoff s + w < 2 ^ 32) (rest : List Bin) :
    decodeRemAbsEP goRicePar cutoff maxLog2TrDynamicRange
      ((code goRicePar cutoff maxLog2TrDynamicRange s w).map .ep ++ rest) =
      .ok (offset goRicePar cutoff s + w, rest) := by
  have hg := h.goRicePar_lt
  have hpos := h.maxLog2TrDynamicRange_pos
  have hcutoff := h.prefix_pos
  have hmax : sub32 32 maxLog2TrDynamicRange = 32 - maxLog2TrDynamicRange :=
    sub32_of_le (by omega) (by decide)
  have hsuffix := decodeBinsEP_toBits hw rest
  have hread := prefixLoop_read
    ((toBits (suffixBins goRicePar cutoff maxLog2TrDynamicRange s) w).map .ep ++ rest) s
    (Nat.zero_add (32 - maxLog2TrDynamicRange)) (by omega) hs
  rw [Nat.zero_add] at hread
  rw [code, unary, List.map_append, List.append_assoc, decodeRemAbsEP, hmax]
  change (prefixLoop _ _ 0 _ >>= _) = _
  rw [hread, ok_bind]
  by_cases hshort : s < cutoff
  · rw [suffixBins, if_pos hshort] at hsuffix ⊢
    rw [offset, if_pos hshort] at hfit ⊢
    simp only [if_pos hshort]
    change (decodeBinsEP goRicePar _ >>= _) = _
    rw [hsuffix, ok_bind, Nat.shiftLeft_eq, u32_of_lt (show s * 2 ^ goRicePar < 2 ^ 32 by omega)]
    change Except.ok (u32 _, rest) = _
    rw [u32_of_lt hfit]
  · have hlength : u32 (goRicePar + if s = 32 - maxLog2TrDynamicRange then
        sub32 maxLog2TrDynamicRange goRicePar else s - cutoff) =
        suffixBins goRicePar cutoff maxLog2TrDynamicRange s := by
      rw [suffixBins, if_neg hshort]
      split
      · rw [sub32, u32, u32]
        omega
      · rw [u32_of_lt (by omega)]
    rw [offset, if_neg hshort] at hfit ⊢
    simp only [if_neg hshort, hlength, offset_word h hs hshort]
    change (decodeBinsEP _ _ >>= _) = _
    rw [hsuffix, ok_bind, Nat.shiftLeft_eq,
      u32_of_lt (show (2 ^ (s - cutoff) + cutoff - 1) * 2 ^ goRicePar < 2 ^ 32 by omega)]
    change Except.ok (u32 _, rest) = _
    rw [u32_of_lt hfit]

/-! ## Putting out -/

variable {bins : ℕ}

theorem encodeWordEP_eq {v m : ℕ} {bs : List Bool} (hm : m ≤ 39) (hv : v < 2 ^ m) (hbs : toBits m v = bs) :
    encodeWordEP v m = Put.emit (bs.map .ep) := by
  rw [encodeWordEP, check_ok _ (by omega), Put.lift_ok_bind, hbs]

theorem emit_then (xs ys : List Bool) : (Put.emit (xs.map .ep) >>= fun _ => Put.emit (ys.map .ep) : BinPut Unit) =
    Put.emit ((xs ++ ys).map .ep) := by
  rw [List.map_append]
  rfl

theorem length_code : (code goRicePar cutoff maxLog2TrDynamicRange s w).length =
    s + (if s < 32 - maxLog2TrDynamicRange then 1 else 0) +
      suffixBins goRicePar cutoff maxLog2TrDynamicRange s := by
  rw [code, unary, List.length_append, List.length_append, List.length_replicate, length_toBits]
  split
  · rfl
  · rfl

theorem threshold_eq (h : Params goRicePar cutoff maxLog2TrDynamicRange) :
    threshold goRicePar cutoff = cutoff * 2 ^ goRicePar := by
  rw [threshold, Nat.shiftLeft_eq, u32_of_lt h.threshold_lt]

theorem ones_eq {n : ℕ} (hn : n < 32) : sub32 (u32 (1 <<< n)) 1 = 2 ^ n - 1 := by
  have hpow := pow_le_of_lt hn
  have hpos := Nat.two_pow_pos n
  rw [Nat.one_shiftLeft, u32_of_lt (by omega), sub32_of_le (by omega) (by omega)]

/-- Below the threshold: a unary code, and the low bins. -/
theorem encodeRemAbsEP_short (h : Params goRicePar cutoff maxLog2TrDynamicRange)
    (hshort : bins < cutoff * 2 ^ goRicePar) :
    encodeRemAbsEP bins goRicePar cutoff maxLog2TrDynamicRange =
      Put.emit ((code goRicePar cutoff maxLog2TrDynamicRange (bins / 2 ^ goRicePar)
        (bins % 2 ^ goRicePar)).map .ep) := by
  have hg := h.goRicePar_lt
  have hcutoff := h.prefix_pos
  have hq : bins / 2 ^ goRicePar < cutoff := (Nat.div_lt_iff_lt_mul (Nat.two_pow_pos _)).mpr hshort
  obtain ⟨q, hq'⟩ : ∃ q, q = bins / 2 ^ goRicePar := ⟨_, rfl⟩
  rw [← hq'] at hq ⊢
  have hpow := pow_le_of_lt (show q + 1 < 32 by omega)
  have hpos := Nat.two_pow_pos q
  have hones : sub32 (u32 (1 <<< (q + 1))) 2 = 2 * (2 ^ q - 1) := by
    rw [Nat.one_shiftLeft, u32_of_lt (by omega), sub32_of_le (by rw [pow_succ]; omega) (by omega), pow_succ]
    omega
  have hunary : encodeWordEP (2 * (2 ^ q - 1)) (q + 1) =
      Put.emit ((List.replicate q true ++ [false]).map .ep) :=
    encodeWordEP_eq (by omega) (by rw [pow_succ]; omega) (toBits_ones_zero q)
  have hlow : encodeWordEP (bins % 2 ^ goRicePar) goRicePar =
      Put.emit ((toBits goRicePar (bins % 2 ^ goRicePar)).map .ep) :=
    encodeWordEP_eq (by omega) (Nat.mod_lt _ (Nat.two_pow_pos _)) rfl
  rw [encodeRemAbsEP, threshold_eq h, if_pos hshort, bitMask, ones_eq h.goRicePar_lt,
    Nat.shiftRight_eq_div_pow, ← hq', hones, hunary, Nat.and_two_pow_sub_one_eq_mod, hlow, code, unary,
    suffixBins, if_pos hq, if_pos (by omega)]
  exact emit_then _ _

/-- The loop ends at the position of the highest bit of `codeValue + 1`. -/
theorem prefixLengthLoop_spec {codeValue maxPrefixLength : ℕ} (hmax : maxPrefixLength < 32)
    (hlt : codeValue < 2 ^ maxPrefixLength - 1) : ∀ (rounds : ℕ) {p : ℕ}, maxPrefixLength ≤ p + rounds →
    2 ^ p - 1 ≤ codeValue → ∃ q, prefixLengthLoop rounds codeValue p = q ∧ q < maxPrefixLength ∧
      2 ^ q - 1 ≤ codeValue ∧ codeValue ≤ 2 ^ (q + 1) - 2
  | rounds, p, hrounds, hge => by
    have hp : p < maxPrefixLength := by
      refine (Nat.pow_lt_pow_iff_right (show 1 < 2 by decide)).mp ?_
      omega
    have hpow := pow_le_of_lt (show p + 1 < 32 by omega)
    have hone := Nat.two_pow_pos p
    have hword : sub32 (u32 (2 <<< p)) 2 = 2 ^ (p + 1) - 2 := by
      rw [Nat.shiftLeft_eq, Nat.mul_comm, ← pow_succ, u32_of_lt (by omega),
        sub32_of_le (by rw [pow_succ]; omega) (by omega)]
    cases rounds with
    | zero => omega
    | succ rounds =>
      rw [prefixLengthLoop, hword]
      split
      · next hmore => exact prefixLengthLoop_spec hmax hlt rounds (by omega) (by omega)
      · next hdone => exact ⟨p, rfl, hp, hge, Nat.not_lt.mp hdone⟩

/-- From the threshold on, the lengths name the part of the code, and the value is in it. -/
theorem lengths_spec (h : Params goRicePar cutoff maxLog2TrDynamicRange) (hbins : bins < 2 ^ 32)
    (hlong : cutoff * 2 ^ goRicePar ≤ bins)
    (hfit : bins < (2 ^ (32 - cutoff - maxLog2TrDynamicRange) - 1 + cutoff) * 2 ^ goRicePar +
      2 ^ maxLog2TrDynamicRange) :
    ∃ p, p + cutoff ≤ 32 - maxLog2TrDynamicRange ∧
      lengths bins goRicePar cutoff maxLog2TrDynamicRange =
        (p, suffixBins goRicePar cutoff maxLog2TrDynamicRange (p + cutoff) +
          if p + cutoff < 32 - maxLog2TrDynamicRange then 1 else 0) ∧
      2 ^ p - 1 + cutoff ≤ bins / 2 ^ goRicePar ∧
      bins < offset goRicePar cutoff (p + cutoff) +
        2 ^ suffixBins goRicePar cutoff maxLog2TrDynamicRange (p + cutoff) := by
  have hcutoff := h.prefix_pos
  have hpos := h.maxLog2TrDynamicRange_pos
  have hmax : sub32 (sub32 32 cutoff) maxLog2TrDynamicRange = 32 - cutoff - maxLog2TrDynamicRange := by
    rw [sub32_of_le (show cutoff ≤ 32 by omega) (by decide), sub32_of_le (by omega) (by omega)]
  have hge : cutoff ≤ bins / 2 ^ goRicePar := (Nat.le_div_iff_mul_le (Nat.two_pow_pos _)).mpr hlong
  have hle : bins / 2 ^ goRicePar ≤ bins := Nat.div_le_self _ _
  obtain ⟨P, hP⟩ : ∃ P, P = 32 - cutoff - maxLog2TrDynamicRange := ⟨_, rfl⟩
  have hpow := Nat.two_pow_pos P
  simp only [lengths, codeValue, hmax, ← hP, Nat.shiftRight_eq_div_pow, sub32_of_le hge (by omega),
    ones_eq (show P < 32 by omega)]
  rw [← hP] at hfit
  split
  · next hescape =>
    refine ⟨P, by omega, ?_, by omega, ?_⟩
    · rw [suffixBins, if_neg (by omega), if_pos (by omega), if_neg (by omega)]
      rfl
    · rw [offset, suffixBins, if_neg (by omega), if_neg (by omega), if_pos (by omega), Nat.add_sub_cancel,
        show 2 ^ P + cutoff - 1 = 2 ^ P - 1 + cutoff by omega]
      exact hfit
  · next hgolomb =>
    obtain ⟨p, hloop, hp, hlo, hhi⟩ := prefixLengthLoop_spec (show P < 32 by omega)
      (Nat.not_le.mp hgolomb) 32 (p := 0) (by omega) (by omega)
    have hsuffix : suffixBins goRicePar cutoff maxLog2TrDynamicRange (p + cutoff) = goRicePar + p := by
      rw [suffixBins, if_neg (by omega), if_neg (by omega), Nat.add_sub_cancel]
    refine ⟨p, by omega, ?_, by omega, ?_⟩
    · rw [hloop, hsuffix, if_pos (by omega), Nat.add_comm p goRicePar]
    · have hone := Nat.two_pow_pos p
      rw [hsuffix, offset, if_neg (by omega), Nat.add_sub_cancel, pow_add, Nat.mul_comm (2 ^ goRicePar),
        ← Nat.add_mul, ← Nat.div_lt_iff_lt_mul (Nat.two_pow_pos _)]
      rw [pow_succ] at hhi
      omega

theorem offset_add (goRicePar cutoff p : ℕ) :
    offset goRicePar cutoff (p + cutoff) = (2 ^ p - 1 + cutoff) * 2 ^ goRicePar := by
  have hpos := Nat.two_pow_pos p
  rw [offset, if_neg (by omega), Nat.add_sub_cancel]
  congr 1
  omega

theorem suffix_eq (h : Params goRicePar cutoff maxLog2TrDynamicRange) (hbins : bins < 2 ^ 32) {p : ℕ}
    (hp : p < 32) (hlo : 2 ^ p - 1 + cutoff ≤ bins / 2 ^ goRicePar) :
    offset goRicePar cutoff (p + cutoff) ≤ bins ∧
      suffix bins goRicePar cutoff p = bins - offset goRicePar cutoff (p + cutoff) := by
  have hle : bins / 2 ^ goRicePar ≤ bins := Nat.div_le_self _ _
  have hsum := Nat.div_add_mod' bins (2 ^ goRicePar)
  obtain ⟨r, hr⟩ : ∃ r, r = bins / 2 ^ goRicePar - cutoff - (2 ^ p - 1) := ⟨_, rfl⟩
  have hquot : bins / 2 ^ goRicePar = r + (2 ^ p - 1 + cutoff) := by omega
  rw [hquot, Nat.add_mul] at hsum
  have hshift : u32 (r <<< goRicePar) = 2 ^ goRicePar * r := by
    rw [Nat.shiftLeft_eq, Nat.mul_comm, u32_of_lt]
    rw [Nat.mul_comm]
    omega
  have hlow := Nat.mod_lt bins (Nat.two_pow_pos goRicePar)
  rw [offset_add]
  refine ⟨by omega, ?_⟩
  rw [suffix, codeValue, bitMask, ones_eq hp, ones_eq h.goRicePar_lt, Nat.shiftRight_eq_div_pow,
    sub32_of_le (show cutoff ≤ bins / 2 ^ goRicePar by omega) (by omega),
    sub32_of_le (show 2 ^ p - 1 ≤ bins / 2 ^ goRicePar - cutoff by omega) (by omega), ← hr, hshift,
    Nat.and_two_pow_sub_one_eq_mod, ← Nat.two_pow_add_eq_or_of_lt hlow, Nat.mul_comm]
  omega

/-- The prefix and the Rice parameter share the bits of the value. -/
theorem prefix_add_le {n p : ℕ} (hbins : bins < 2 ^ n) (hg : goRicePar ≤ n)
    (hlo : 2 ^ p - 1 ≤ bins / 2 ^ goRicePar) : p + goRicePar ≤ n := by
  cases p with
  | zero => omega
  | succ p =>
    have hpos := Nat.two_pow_pos p
    have hhalf : 2 ^ p ≤ bins / 2 ^ goRicePar := by
      rw [pow_succ] at hlo
      omega
    have hmul : 2 ^ (p + goRicePar) ≤ bins := by
      rw [pow_add]
      exact (Nat.le_div_iff_mul_le (Nat.two_pow_pos _)).mp hhalf
    have hlt := (Nat.pow_lt_pow_iff_right (show 1 < 2 by decide)).mp (Nat.lt_of_le_of_lt hmul hbins)
    omega

theorem encodeRemAbsEP_long (h : Params goRicePar cutoff maxLog2TrDynamicRange) (hbins : bins < 2 ^ 32)
    (hlong : cutoff * 2 ^ goRicePar ≤ bins) {p : ℕ} (hp : p + cutoff ≤ 32 - maxLog2TrDynamicRange)
    (hlengths : lengths bins goRicePar cutoff maxLog2TrDynamicRange =
      (p, suffixBins goRicePar cutoff maxLog2TrDynamicRange (p + cutoff) +
        if p + cutoff < 32 - maxLog2TrDynamicRange then 1 else 0))
    (hlo : 2 ^ p - 1 + cutoff ≤ bins / 2 ^ goRicePar)
    (hhi : bins < offset goRicePar cutoff (p + cutoff) +
      2 ^ suffixBins goRicePar cutoff maxLog2TrDynamicRange (p + cutoff)) :
    encodeRemAbsEP bins goRicePar cutoff maxLog2TrDynamicRange =
      Put.emit ((code goRicePar cutoff maxLog2TrDynamicRange (p + cutoff)
        (bins - offset goRicePar cutoff (p + cutoff))).map .ep) := by
  have hg := h.goRicePar_lt
  have hcutoff := h.prefix_pos
  have hM := h.maxLog2TrDynamicRange_pos
  obtain ⟨hoffset, hsuffix⟩ := suffix_eq h hbins (show p < 32 by omega) hlo
  obtain ⟨w, hw⟩ : ∃ w, w = bins - offset goRicePar cutoff (p + cutoff) := ⟨_, rfl⟩
  have hfew := prefix_add_le hbins (show goRicePar ≤ 32 by omega) (le_trans (Nat.le_add_right _ _) hlo)
  have hones := Nat.two_pow_pos (p + cutoff)
  have hprefix : encodeWordEP (2 ^ (p + cutoff) - 1) (p + cutoff) =
      Put.emit ((List.replicate (p + cutoff) true).map .ep) :=
    encodeWordEP_eq (by omega) (by omega) (toBits_ones _ (Nat.le_refl _))
  rw [encodeRemAbsEP, threshold_eq h, if_neg (Nat.not_lt.mpr hlong), hlengths]
  dsimp only
  rw [ones_eq (show p + cutoff < 32 by omega), hprefix, hsuffix, ← hw, code, unary]
  by_cases hgolomb : p + cutoff < 32 - maxLog2TrDynamicRange
  · have hn : suffixBins goRicePar cutoff maxLog2TrDynamicRange (p + cutoff) = goRicePar + p := by
      rw [suffixBins, if_neg (by omega), if_neg (by omega), Nat.add_sub_cancel]
    rw [if_pos hgolomb, if_pos hgolomb, hn]
    rw [hn] at hhi
    have hfits : w < 2 ^ (goRicePar + p) := by omega
    have hword : encodeWordEP w (goRicePar + p + 1) = Put.emit (([false] ++ toBits (goRicePar + p) w).map .ep) := by
      refine encodeWordEP_eq (by omega) (Nat.lt_of_lt_of_le hfits (Nat.pow_le_pow_right (by decide) (by omega))) ?_
      rw [toBits, Nat.testBit_lt_two_pow hfits]
      rfl
    rw [hword, List.append_assoc]
    exact emit_then _ _
  · have hn : suffixBins goRicePar cutoff maxLog2TrDynamicRange (p + cutoff) = maxLog2TrDynamicRange := by
      rw [suffixBins, if_neg (by omega), if_pos (by omega)]
    rw [if_neg hgolomb, if_neg hgolomb, hn, Nat.add_zero, List.append_nil]
    rw [hn] at hhi
    have hword : encodeWordEP w maxLog2TrDynamicRange = Put.emit ((toBits maxLog2TrDynamicRange w).map .ep) :=
      encodeWordEP_eq (by omega) (by omega) rfl
    rw [hword]
    exact emit_then _ _

/-! ## Lengths -/

theorem rice_lt {a n : ℕ} (ha : 0 < a) (hle : a * 2 ^ goRicePar ≤ bins) (hbins : bins < 2 ^ n) :
    goRicePar < n :=
  (Nat.pow_lt_pow_iff_right (show 1 < 2 by decide)).mp
    (Nat.lt_of_le_of_lt (le_trans (Nat.le_mul_of_pos_left _ ha) hle) hbins)

/-- A value of the dynamic range has a code of at most 32 bins. -/
theorem code_length_le (h : Params goRicePar cutoff maxLog2TrDynamicRange)
    (hbins : bins < 2 ^ maxLog2TrDynamicRange) (hs : s ≤ 32 - maxLog2TrDynamicRange)
    (hoffset : offset goRicePar cutoff s ≤ bins) :
    (code goRicePar cutoff maxLog2TrDynamicRange s w).length ≤ 32 := by
  have hg := h.goRicePar_lt
  have hcutoff := h.prefix_pos
  rw [length_code]
  by_cases hshort : s < cutoff
  · rw [offset, if_pos hshort] at hoffset
    rw [suffixBins, if_pos hshort, if_pos (by omega)]
    rcases Nat.eq_zero_or_pos s with hzero | hpos
    · omega
    · have hrice := rice_lt hpos hoffset hbins
      omega
  · obtain ⟨p, rfl⟩ := Nat.exists_eq_add_of_le' (Nat.not_lt.mp hshort)
    by_cases hescape : p + cutoff = 32 - maxLog2TrDynamicRange
    · rw [suffixBins, if_neg hshort, if_pos hescape, if_neg (by omega)]
      omega
    · rw [suffixBins, if_neg hshort, if_neg hescape, if_pos (by omega), Nat.add_sub_cancel]
      rw [offset_add] at hoffset
      rcases Nat.eq_zero_or_pos (2 ^ p - 1 + cutoff) with hzero | hpos
      · have hp : p = 0 := by
          have hlt : 2 ^ p < 2 ^ 1 := by omega
          have hlt' := (Nat.pow_lt_pow_iff_right (show 1 < 2 by decide)).mp hlt
          omega
        omega
      · have hrice := rice_lt hpos hoffset hbins
        have hquot := (Nat.le_div_iff_mul_le (Nat.two_pow_pos goRicePar)).mpr hoffset
        have hshare := prefix_add_le hbins (Nat.le_of_lt hrice) (le_trans (Nat.le_add_right _ _) hquot)
        omega

theorem estFracBitsEP_eq {n : ℕ} (hn : n < 2 ^ 17) : estFracBitsEP n = n * 2 ^ 15 := by
  rw [estFracBitsEP, SCALE_BITS, Nat.shiftLeft_eq, u32_of_lt]
  omega

/-! ## Round trip -/

/-- Some code has the value, is what the encoder puts out, and has the length that the
estimator counts. -/
theorem encodeRemAbsEP_code (h : Params goRicePar cutoff maxLog2TrDynamicRange) (hbins : bins < 2 ^ 32)
    (hfit : bins < (2 ^ (32 - cutoff - maxLog2TrDynamicRange) - 1 + cutoff) * 2 ^ goRicePar +
      2 ^ maxLog2TrDynamicRange) :
    ∃ s w, s ≤ 32 - maxLog2TrDynamicRange ∧ w < 2 ^ suffixBins goRicePar cutoff maxLog2TrDynamicRange s ∧
      offset goRicePar cutoff s + w = bins ∧
      encodeRemAbsEP bins goRicePar cutoff maxLog2TrDynamicRange =
        Put.emit ((code goRicePar cutoff maxLog2TrDynamicRange s w).map .ep) ∧
      ∀ m_EstFracBits, estimateRemAbsEP m_EstFracBits bins goRicePar cutoff maxLog2TrDynamicRange =
        (m_EstFracBits + (code goRicePar cutoff maxLog2TrDynamicRange s w).length * 2 ^ 15) % 2 ^ 64 := by
  have hg := h.goRicePar_lt
  have hcutoff := h.prefix_pos
  by_cases hshort : bins < cutoff * 2 ^ goRicePar
  · have hq : bins / 2 ^ goRicePar < cutoff := (Nat.div_lt_iff_lt_mul (Nat.two_pow_pos _)).mpr hshort
    refine ⟨bins / 2 ^ goRicePar, bins % 2 ^ goRicePar, by omega, ?_, ?_, encodeRemAbsEP_short h hshort, ?_⟩
    · rw [suffixBins, if_pos hq]
      exact Nat.mod_lt _ (Nat.two_pow_pos _)
    · rw [offset, if_pos hq]
      exact Nat.div_add_mod' _ _
    · intro m_EstFracBits
      rw [estimateRemAbsEP, threshold_eq h, if_pos hshort, Nat.shiftRight_eq_div_pow,
        estFracBitsEP_eq (by omega), length_code, suffixBins, if_pos hq, if_pos (by omega)]
  · obtain ⟨p, hp, hlengths, hlo, hhi⟩ := lengths_spec h hbins (Nat.not_lt.mp hshort) hfit
    obtain ⟨hoffset, -⟩ := suffix_eq h hbins
      (show p < 32 by have := h.maxLog2TrDynamicRange_pos; omega) hlo
    refine ⟨p + cutoff, bins - offset goRicePar cutoff (p + cutoff), hp, by omega, by omega,
      encodeRemAbsEP_long h hbins (Nat.not_lt.mp hshort) hp hlengths hlo hhi, ?_⟩
    intro m_EstFracBits
    have hsuffix : suffixBins goRicePar cutoff maxLog2TrDynamicRange (p + cutoff) < 2 ^ 16 := by
      rw [suffixBins]
      split
      · omega
      · split
        · omega
        · omega
    rw [estimateRemAbsEP, threshold_eq h, if_neg hshort, hlengths]
    dsimp only
    rw [estFracBitsEP_eq (by split <;> omega), length_code, Nat.add_comm cutoff p, Nat.add_assoc (p + cutoff),
      Nat.add_comm (suffixBins goRicePar cutoff maxLog2TrDynamicRange (p + cutoff))]

/-- The decoder takes back the value and exactly its bins, the estimator counts them, and
a value of the dynamic range has at most 32. -/
theorem remAbsEP_roundTrip (h : Params goRicePar cutoff maxLog2TrDynamicRange) (hbins : bins < 2 ^ 32)
    (hfit : bins < (2 ^ (32 - cutoff - maxLog2TrDynamicRange) - 1 + cutoff) * 2 ^ goRicePar +
      2 ^ maxLog2TrDynamicRange) :
    ∃ bs : List Bin, encodeRemAbsEP bins goRicePar cutoff maxLog2TrDynamicRange = .ok ((), bs) ∧
      (∀ rest, decodeRemAbsEP goRicePar cutoff maxLog2TrDynamicRange (bs ++ rest) = .ok (bins, rest)) ∧
      (∀ m_EstFracBits, estimateRemAbsEP m_EstFracBits bins goRicePar cutoff maxLog2TrDynamicRange =
        (m_EstFracBits + bs.length * 2 ^ 15) % 2 ^ 64) ∧
      (bins < 2 ^ maxLog2TrDynamicRange → bs.length ≤ 32) := by
  obtain ⟨s, w, hs, hw, hsum, hencode, hestimate⟩ := encodeRemAbsEP_code h hbins hfit
  refine ⟨_, hencode, fun rest => ?_, fun m_EstFracBits => ?_, fun hrange => ?_⟩
  · rw [decodeRemAbsEP_code h hs hw (hsum ▸ hbins), hsum]
  · rw [hestimate, List.length_map]
  · rw [List.length_map]
    exact code_length_le h hrange hs (by omega)

/-- A vector difference of 700, as `mvd_coding` codes it. -/
theorem mvd_roundTrip : ∃ bs : List Bin, encodeRemAbsEP 700 1 0 17 = .ok ((), bs) ∧
    (∀ rest, decodeRemAbsEP 1 0 17 (bs ++ rest) = .ok (700, rest)) ∧
    (∀ m_EstFracBits, estimateRemAbsEP m_EstFracBits 700 1 0 17 =
      (m_EstFracBits + bs.length * 2 ^ 15) % 2 ^ 64) ∧
    (700 < 2 ^ 17 → bs.length ≤ 32) :=
  remAbsEP_roundTrip ⟨by decide, by decide, by decide, by decide⟩ (by decide) (by decide)

/-- Above the dynamic range an exponential Golomb code can be longer than 32 bins. And where
the threshold wraps, even 0 is taken for a value above it, and its suffix is no word. -/
theorem remAbsEP_overlong :
    (65664 < (2 ^ (32 - 5 - 15) - 1 + 5) * 2 ^ 5 + 2 ^ 15 ∧
      ((encodeRemAbsEP 65664 5 5 15).toOption.any fun p => p.2.length == 33) = true) ∧
    (0 < (2 ^ (32 - 2 - 15) - 1 + 2) * 2 ^ 31 + 2 ^ 15 ∧
      (encodeRemAbsEP 0 31 2 15).toOption.isNone = true) := by
  decide +kernel

end ECM.Cabac.RemAbs
