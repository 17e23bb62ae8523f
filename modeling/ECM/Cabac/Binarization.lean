import ECM.DecoderLib.CABACReader
import ECM.EncoderLib.CABACWriter

/-! # Binarizations read back

What a helper of the writer puts out, its counterpart in the reader takes back. -/

namespace ECM.Cabac.Binarization
open CommonLib CommonLib.Bins EncoderLib DecoderLib Lib.Bits Lib.Codec

variable {strict : Prop}

/-! ## Unary codes -/

theorem unarySymbolBins_roundTrips (ctxId0 ctxIdN : CtxId) {s n : ℕ} (hs : s ≤ n) : ∀ (d : ℕ) {k : ℕ},
    k + d = s → RoundTrips strict (CABACWriter.unarySymbolBins s ctxId0 ctxIdN (min (s + 1) n - k) k)
      (CABACReader.unarySymbolBins ctxId0 ctxIdN (n - k) k) fun _ v => v = s
  | 0, k, hk => by
    obtain rfl : k = s := hk
    rcases Nat.lt_or_eq_of_le hs with hlt | rfl
    · rw [show min (k + 1) n - k = 1 by omega, show n - k = (n - k - 1) + 1 by omega]
      refine roundTrips_bind (roundTrips_bin _ _) fun _ b hb => ?_
      rw [decide_eq_false (Nat.lt_irrefl k)] at hb
      rw [hb]
      exact roundTrips_pure rfl
    · rw [show min (k + 1) k - k = 0 by omega, Nat.sub_self]
      exact roundTrips_pure rfl
  | d + 1, k, hk => by
    rw [show min (s + 1) n - k = (min (s + 1) n - (k + 1)) + 1 by omega,
      show n - k = (n - (k + 1)) + 1 by omega]
    refine roundTrips_bind (roundTrips_bin _ _) fun _ b hb => ?_
    rw [decide_eq_true (show s > k by omega)] at hb
    rw [hb]
    exact unarySymbolBins_roundTrips ctxId0 ctxIdN hs d (by omega)

theorem unary_max_symbol_roundTrips (ctxId0 ctxIdN : CtxId) {s n : ℕ} (hs : strict → s ≤ n) :
    RoundTrips strict (CABACWriter.unary_max_symbol s ctxId0 ctxIdN n)
      (CABACReader.unary_max_symbol ctxId0 ctxIdN n) fun _ v => v = s := by
  refine roundTrips_lift_left (fun e he hstrict => ?_) fun _ hc => ?_
  · rw [check_ok _ (Nat.not_lt.mpr (hs hstrict))] at he
    cases he
  · exact unarySymbolBins_roundTrips ctxId0 ctxIdN (Nat.not_lt.mp (check_eq_ok hc)) s (Nat.zero_add s)

theorem unaryOnes_eq (s : ℕ) : ∀ k : ℕ, k + s ≤ 32 →
    CABACWriter.unaryOnes s (2 ^ k - 1) = 2 ^ (k + s) - 1 := by
  induction s with
  | zero => exact fun k _ => rfl
  | succ s ih =>
    intro k hk
    have hpow : 2 ^ (k + 1) ≤ 2 ^ 32 := Nat.pow_le_pow_right (by decide) (by omega)
    have hpos := Nat.two_pow_pos k
    have hstep : u32 ((2 ^ k - 1) <<< 1) + 1 = 2 ^ (k + 1) - 1 := by
      rw [Nat.shiftLeft_eq, u32_of_lt] <;> omega
    rw [CABACWriter.unaryOnes, hstep, ih (k + 1) (by omega), Nat.add_right_comm k 1 s, Nat.add_assoc]

/-- The bins of a unary code. -/
def unary (s n : ℕ) : List Bool := List.replicate s true ++ if s < n then [false] else []

theorem toBits_ones {n : ℕ} : ∀ s : ℕ, s ≤ n → toBits s (2 ^ n - 1) = List.replicate s true
  | 0, _ => rfl
  | s + 1, hs => by
    rw [toBits, Nat.testBit_two_pow_sub_one, decide_eq_true (Nat.lt_of_succ_le hs), toBits_ones s (Nat.le_of_succ_le hs)]
    rfl

theorem encodeBinsEP_eq {v m : ℕ} {bs : List Bool} (hm : m ≤ 32) (hv : v < 2 ^ m) (hbs : toBits m v = bs) :
    encodeBinsEP v m = Put.emit (bs.map .ep) := by
  rw [encodeBinsEP, check_ok _ (by omega), Put.lift_ok_bind, hbs]

theorem toBits_ones_zero (s : ℕ) : toBits (s + 1) (2 * (2 ^ s - 1)) = List.replicate s true ++ [false] := by
  have hlow : toBits 1 (2 * (2 ^ s - 1)) = [false] := by
    rw [toBits, Nat.testBit_zero, Nat.mul_mod_right]
    rfl
  rw [toBits_add, hlow, Nat.pow_one, Nat.mul_div_cancel_left _ (by decide), toBits_ones s (Nat.le_refl s)]

/-- Ones, and a zero. -/
theorem encodeBinsEP_ones {s : ℕ} (h32 : s + 1 ≤ 32) : encodeBinsEP (u32 ((2 ^ s - 1) <<< 1)) (s + 1) =
    Put.emit ((List.replicate s true ++ [false]).map .ep) := by
  have hpow : 2 ^ (s + 1) ≤ 2 ^ 32 := Nat.pow_le_pow_right (by decide) h32
  have hpos := Nat.two_pow_pos s
  have hword : u32 ((2 ^ s - 1) <<< 1) = 2 * (2 ^ s - 1) := by
    rw [Nat.shiftLeft_eq, u32_of_lt] <;> omega
  refine encodeBinsEP_eq h32 (by rw [hword, Nat.pow_succ]; omega) ?_
  rw [hword, toBits_ones_zero]

theorem unary_max_eqprob_bins {s n : ℕ} (hs : s ≤ n) (hn : n ≠ 0) (h32 : min (s + 1) n ≤ 32) :
    CABACWriter.unary_max_eqprob s n = Put.emit ((unary s n).map .ep) := by
  have hones : CABACWriter.unaryOnes s 0 = 2 ^ s - 1 := by
    have honce := unaryOnes_eq s 0 (by omega)
    rwa [Nat.zero_add] at honce
  have hpos := Nat.two_pow_pos s
  rw [CABACWriter.unary_max_eqprob, if_neg hn, hones]
  dsimp only
  by_cases hlast : s < n
  · have hfit : s + 1 ≤ 32 := by omega
    rw [if_pos hlast, if_pos hlast, check_ok _ (not_not.mpr hfit), Put.lift_ok_bind, encodeBinsEP_ones hfit,
      unary, if_pos hlast]
  · have hfit : s ≤ 32 := by omega
    rw [if_neg hlast, if_neg hlast, check_ok _ (not_not.mpr hfit), Put.lift_ok_bind, unary, if_neg hlast,
      List.append_nil]
    exact encodeBinsEP_eq hfit (by omega) (toBits_ones s (Nat.le_refl s))

theorem unaryBins_read (s : ℕ) : ∀ {n : ℕ} (k : ℕ) (rest : List Bin), s ≤ n →
    CABACReader.unaryBins n k ((unary s n).map .ep ++ rest) = .ok (k + s, rest) := by
  induction s with
  | zero =>
    intro n k rest _
    cases n with
    | zero => rfl
    | succ n => rfl
  | succ s ih =>
    intro n k rest hs
    obtain ⟨n, rfl⟩ : ∃ m, n = m + 1 := ⟨n - 1, by omega⟩
    have hrest := ih (k + 1) rest (Nat.le_of_succ_le_succ hs)
    have hunary : unary (s + 1) (n + 1) = true :: unary s n := by
      simp only [unary, List.replicate_succ, List.cons_append, Nat.add_lt_add_iff_right]
    rw [hunary]
    change CABACReader.unaryBins n (k + 1) ((unary s n).map .ep ++ rest) = _
    rw [hrest, Nat.add_right_comm, Nat.add_assoc]

theorem unary_max_eqprob_roundTrips {s n : ℕ} (hs : s ≤ n) (h32 : min (s + 1) n ≤ 32) :
    RoundTrips strict (CABACWriter.unary_max_eqprob s n) (CABACReader.unary_max_eqprob n)
      fun _ v => v = s := by
  by_cases hn : n = 0
  · subst hn
    obtain rfl := Nat.le_zero.mp hs
    exact roundTrips_pure rfl
  · rw [unary_max_eqprob_bins hs hn h32]
    refine ⟨s, rfl, fun rest => ?_⟩
    have hread := unaryBins_read s 0 rest hs
    rwa [Nat.zero_add] at hread

/-! ## Exponential Golomb codes -/

/-- The prefix has one bin for each time the suffix got longer. -/
theorem expGolombPrefix_write : ∀ (rounds : ℕ) {s k m : ℕ}, s < rounds → m ≤ k → s + 2 ^ k < 2 ^ 32 →
    ∃ j s', CABACWriter.expGolombPrefix rounds s k (2 ^ m - 1) m = (2 ^ (m + j) - 1, m + j, s', k + j) ∧
      s + 2 ^ k = s' + 2 ^ (k + j) ∧ s' < 2 ^ (k + j)
  | 0, _, _, _, hrounds, _, _ => absurd hrounds (Nat.not_lt_zero _)
  | rounds + 1, s, k, m, hrounds, hmk, h32 => by
    have hk := Nat.two_pow_pos k
    have hm := Nat.two_pow_pos m
    have hbit : u32 (1 <<< k) = 2 ^ k := by
      rw [Nat.one_shiftLeft, u32_of_lt]
      omega
    rw [CABACWriter.expGolombPrefix, hbit]
    by_cases hlong : s ≥ 2 ^ k
    · have hmk' : 2 ^ m ≤ 2 ^ k := Nat.pow_le_pow_right (by decide) hmk
      have hones : u32 ((2 ^ m - 1) <<< 1) + 1 = 2 ^ (m + 1) - 1 := by
        rw [Nat.shiftLeft_eq, u32_of_lt, Nat.pow_succ] <;> omega
      obtain ⟨j, s', hrun, hsum, hlt⟩ := expGolombPrefix_write rounds (s := s - 2 ^ k) (k := k + 1)
        (m := m + 1) (by omega) (by omega) (by rw [Nat.pow_succ]; omega)
      refine ⟨j + 1, s', ?_, ?_, ?_⟩
      · rw [if_pos hlong, hones, hrun, Nat.add_right_comm m 1 j, Nat.add_right_comm k 1 j]
        rfl
      · rw [Nat.add_right_comm k 1 j, Nat.pow_succ] at hsum
        rw [← Nat.add_assoc k j 1]
        omega
      · rwa [Nat.add_right_comm k 1 j, Nat.add_assoc] at hlt
    · exact ⟨0, s, if_neg hlong, rfl, Nat.not_le.mp hlong⟩

theorem expGolombPrefix_read : ∀ (j : ℕ) {rounds sym k : ℕ} (rest : List Bin), j < rounds →
    sym + 2 ^ (k + j) < 2 ^ 32 + 2 ^ k →
    CABACReader.expGolombPrefix rounds sym k ((List.replicate j true ++ [false]).map .ep ++ rest) =
      .ok ((sym + 2 ^ (k + j) - 2 ^ k, k + j), rest)
  | 0, rounds + 1, sym, k, rest, _, hlt => by
    rw [Nat.add_zero] at hlt
    change Except.ok ((u32 (sym + u32 (false.toNat <<< k)), k), rest) = _
    rw [Bool.toNat_false, Nat.zero_shiftLeft, u32_of_lt (n := 0) (by decide), Nat.add_zero, u32_of_lt (by omega),
      Nat.add_zero, Nat.add_sub_cancel]
  | j + 1, rounds + 1, sym, k, rest, hrounds, hlt => by
    have hpow : 2 ^ (k + 1) ≤ 2 ^ (k + (j + 1)) := Nat.pow_le_pow_right (by decide) (by omega)
    have hk := Nat.two_pow_pos k
    rw [Nat.pow_succ] at hpow
    have hbit : u32 (sym + u32 (true.toNat <<< k)) = sym + 2 ^ k := by
      rw [Bool.toNat_true, Nat.one_shiftLeft, u32_of_lt (n := 2 ^ k) (by omega), u32_of_lt (by omega)]
    have hrest := @expGolombPrefix_read j rounds (sym + 2 ^ k) (k + 1) rest
      (Nat.lt_of_succ_lt_succ hrounds) (by rw [Nat.pow_succ, Nat.add_right_comm k 1 j, Nat.add_assoc k j 1]; omega)
    change CABACReader.expGolombPrefix rounds (u32 (sym + u32 (true.toNat <<< k))) (k + 1)
      ((List.replicate j true ++ [false]).map .ep ++ rest) = _
    rw [hbit, hrest, Nat.add_right_comm k 1 j, Nat.add_assoc k j 1]
    congr 3
    rw [Nat.pow_succ]
    omega

/-- The bins after the prefix, where there are any. -/
theorem suffix_roundTrips {n v base : ℕ} (hn : n < 32) (hv : v < 2 ^ n) (h32 : base + v < 2 ^ 32) :
    RoundTrips strict (encodeBinsEP v n) (do
      if n ≠ 0 then
        let suffix ← decodeBinsEP n
        return u32 (base + suffix)
      else return base) fun _ v' => v' = base + v := by
  by_cases hzero : n = 0
  · rw [if_neg (not_not.mpr hzero)]
    subst hzero
    obtain rfl : v = 0 := by omega
    rw [@encodeBinsEP_eq _ _ [] (by decide) (by decide) rfl]
    exact ⟨base, rfl, fun _ => rfl⟩
  · rw [if_pos hzero]
    refine (roundTrips_binsEP fun _ => ⟨by omega, hv⟩).then_right fun _ v' hv' => ⟨base + v, ?_, rfl⟩
    rw [hv', u32_of_lt h32]

/-- The whole of a code, from the first step of its prefix. -/
theorem expGolombPrefix_code {s k : ℕ} (h32 : s + 2 ^ k < 2 ^ 32) :
    ∃ j s', CABACWriter.expGolombPrefix (s + 1) s k 0 0 = (2 ^ j - 1, j, s', k + j) ∧
      s + 2 ^ k = s' + 2 ^ (k + j) ∧ s' < 2 ^ (k + j) ∧ k + j < 32 ∧ 2 ^ k ≤ 2 ^ (k + j) := by
  have hk := Nat.two_pow_pos k
  obtain ⟨j, s', hcode, hsum, hlt⟩ := expGolombPrefix_write (s + 1) (s := s) (k := k) (m := 0)
    (Nat.lt_succ_self s) (Nat.zero_le k) h32
  rw [Nat.zero_add, Nat.pow_zero, Nat.sub_self] at hcode
  exact ⟨j, s', hcode, by omega, hlt, (Nat.pow_lt_pow_iff_right (show 1 < 2 by decide)).mp (by omega),
    Nat.pow_le_pow_right (by decide) (Nat.le_add_right k j)⟩

theorem exp_golomb_eqprob_roundTrips {s k : ℕ} (h32 : s + 2 ^ k < 2 ^ 32) :
    RoundTrips strict (CABACWriter.exp_golomb_eqprob s k) (CABACReader.exp_golomb_eqprob k)
      fun _ v => v = s := by
  have hk := Nat.two_pow_pos k
  obtain ⟨j, s', hcode, hsum, hlt, hkj, hle⟩ := expGolombPrefix_code h32
  have hones : RoundTrips strict (encodeBinsEP (u32 ((2 ^ j - 1) <<< 1)) (j + 1))
      (CABACReader.expGolombPrefix 32 0 k) fun _ p => p = (2 ^ (k + j) - 2 ^ k, k + j) := by
    rw [encodeBinsEP_ones (by omega)]
    refine ⟨_, rfl, fun rest => ?_⟩
    have hread := @expGolombPrefix_read j 32 0 k rest (by omega)
      (by omega)
    rwa [Nat.zero_add] at hread
  have hwrite : CABACWriter.exp_golomb_eqprob s k = (encodeBinsEP (u32 ((2 ^ j - 1) <<< 1)) (j + 1) >>=
      fun _ => encodeBinsEP s' (k + j)) := by
    rw [CABACWriter.exp_golomb_eqprob, hcode]
  rw [hwrite]
  refine roundTrips_bind hones fun _ p hp => ?_
  rw [hp]
  exact (suffix_roundTrips hkj hlt (by omega)).mono fun _ v hv => by omega

/-! ## Truncated binary codes -/

theorem xTruncBinCode_roundTrips {s n : ℕ} (h31 : strict → n < 2 ^ 31) (hs : strict → s < n) :
    RoundTrips strict (CABACWriter.xWriteTruncBinCode s n) (CABACReader.xReadTruncBinCode n)
      fun _ v => v = s := by
  refine roundTrips_lift_left (fun e he hstrict => ?_) fun thresh hthresh => ?_
  · rw [truncBinThresh_eq (h31 hstrict)] at he
    cases he
  have hsmall : n < 2 ^ 31 := by
    refine Nat.not_le.mp fun hlarge => ?_
    rw [truncBinThresh_error hlarge] at hthresh
    cases hthresh
  refine roundTrips_lift_right hthresh ?_
  rw [truncBinThresh_eq hsmall] at hthresh
  obtain rfl := Except.ok.inj hthresh
  dsimp only
  rw [Nat.one_shiftLeft]
  by_cases hn : n = 0
  · subst hn
    refine roundTrips_lift_left (fun e he hstrict => ?_) fun _ hc => ?_
    · exact absurd (hs hstrict) (Nat.not_lt_zero s)
    · exact absurd (check_eq_ok hc) (by decide)
  have hle : 2 ^ n.log2 ≤ n := Nat.log2_self_le hn
  have hlt : n < 2 ^ (n.log2 + 1) := Nat.lt_log2_self
  have hthresh : n.log2 ≤ 31 := Nat.le_of_lt_succ ((Nat.log2_lt hn).mpr (by omega))
  rw [Nat.pow_succ] at hlt
  refine roundTrips_lift_left (fun e he _ => ?_) fun _ _ => ?_
  · rw [check_ok _ (by omega)] at he
    cases he
  refine roundTrips_lift_left (fun e he hstrict => ?_) fun _ hc => ?_
  · rw [check_ok _ (not_not.mpr (hs hstrict))] at he
    cases he
  have hsn : s < n := not_not.mp (check_eq_ok hc)
  by_cases hshort : s < 2 ^ n.log2 - (n - 2 ^ n.log2)
  · rw [if_pos hshort]
    refine (roundTrips_binsEP fun _ => ⟨by omega, by omega⟩).then_right fun _ v hv => ⟨s, ?_, rfl⟩
    rw [hv, if_neg (Nat.not_le.mpr hshort)]
  · rw [if_neg hshort, encodeBinsEP_succ (by omega) (by rw [Nat.pow_succ]; omega)]
    refine roundTrips_bind (roundTrips_binsEP fun _ => ⟨by omega, by omega⟩) fun _ v hv => ?_
    rw [hv, if_pos (show _ ≥ _ by omega)]
    refine (roundTrips_binEP _).then_right fun _ b hb => ⟨s, ?_, rfl⟩
    have hbit : ((s + (2 ^ n.log2 - (n - 2 ^ n.log2))).testBit 0).toNat =
        (s + (2 ^ n.log2 - (n - 2 ^ n.log2))) % 2 := Nat.toNat_testBit _ 0 |>.trans (by
          rw [Nat.pow_zero, Nat.div_one])
    rw [hb, hbit]
    congr 1
    omega

/-! ## Unary up to a limit, fixed above it -/

theorem code_unary_fixed_roundTrips (ctxId : CtxId) {s n fixed : ℕ} (h32 : s < 2 ^ 32) (hunary : s ≤ n → min (s + 1) n ≤ 32)
    (hfixed : n < s → fixed ≤ 32 ∧ s - n - 1 < 2 ^ fixed) :
    RoundTrips strict (CABACWriter.code_unary_fixed s ctxId n fixed) (CABACReader.code_unary_fixed ctxId n fixed)
      fun _ v => v = s := by
  refine roundTrips_bind (roundTrips_bin _ _) fun _ b hb => ?_
  rw [hb]
  refine roundTrips_ite decide_eq_true_iff.symm (fun hle => ?_) fun hlt => ?_
  · exact unary_max_eqprob_roundTrips hle (hunary hle)
  · have hns : n < s := Nat.not_le.mp hlt
    refine (roundTrips_binsEP fun _ => hfixed hns).then_right fun _ v hv => ⟨s, ?_, rfl⟩
    rw [hv, show n + 1 + (s - n - 1) = s by omega, u32_of_lt h32]

end ECM.Cabac.Binarization
