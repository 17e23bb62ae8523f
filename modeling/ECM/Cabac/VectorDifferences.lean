import ECM.DecoderLib.MvdReader
import ECM.EncoderLib.MvdWriter

/-! # Vector differences read back

A motion vector difference in units of its precision, and a block vector difference,
come back with their signs. -/

namespace ECM.Cabac.VectorDifferences
open CommonLib CommonLib.Bins EncoderLib DecoderLib ECM.Cabac.Binarization ECM.Cabac.RemAbs
open Lib.Bits Lib.Codec

variable {strict : Prop}

/-! ## Signs -/

theorem signBin_roundTrips {v : ℤ} (hv : v.natAbs < 2 ^ 31) :
    RoundTrips strict (encodeBinEP (v < 0)) (CABACReader.signBin v.natAbs) fun _ v' => v' = v := by
  refine (roundTrips_binEP _).then_right fun _ b hb => ⟨v, ?_, rfl⟩
  rw [hb]
  by_cases hneg : v < 0
  · rw [decide_eq_true hneg, if_pos rfl, i32_of_mem (by omega) (by omega)]
    congr 1
    omega
  · rw [decide_eq_false hneg, if_neg Bool.false_ne_true]
    congr 1
    omega

theorem natAbs_of_legal {v : ℤ} (hv : Mv.Legal v) : v.natAbs ≤ 2 ^ 17 := by
  obtain ⟨hmin, hmax⟩ := hv
  rw [MVD_MIN] at hmin
  rw [MVD_MAX] at hmax
  omega

theorem legalMv_eq {hor ver : ℤ} (hhor : Mv.Legal hor) (hver : Mv.Legal ver) (x : String) :
    CABACReader.legalMv hor ver x = .ok ⟨hor, ver⟩ := by
  rw [CABACReader.legalMv, check_ok _ (not_or.mpr ⟨not_not.mpr hhor, not_not.mpr hver⟩)]
  rfl

/-! ## Motion vector differences -/

/-- What of a component comes back: without its sign, its absolute value. -/
def sent (codeSign : Bool) (v : ℤ) : ℤ := if codeSign then v else v.natAbs

/-- The step of a component, in the units that the decoder works in. -/
def unit : ImvMode → ℤ
  | .IMV_OFF => 1
  | .IMV_HPEL => 2
  | .IMV_FPEL => 4
  | .IMV_4PEL => 16

theorem mvdGreater1_roundTrips (v : ℤ) :
    RoundTrips strict (CABACWriter.mvdGreater1 v) (CABACReader.mvdGreater1 (v.natAbs > 0))
      fun _ abs => abs = min (v.natAbs : ℤ) 2 := by
  refine roundTrips_ite decide_eq_true_iff.symm (fun hpos => ?_) fun hzero => roundTrips_pure (by omega)
  refine (roundTrips_bin _ _).then_right fun _ b hb => ⟨_, rfl, ?_⟩
  rw [hb]
  by_cases hone : v.natAbs > 1
  · rw [decide_eq_true hone, Bool.toNat_true]
    omega
  · rw [decide_eq_false hone, Bool.toNat_false]
    omega

/-- A remainder within the dynamic range. -/
theorem remAbs_roundTrips {goRicePar cutoff maxLog2TrDynamicRange bins : ℕ}
    (h : Params goRicePar cutoff maxLog2TrDynamicRange) (hbins : bins < 2 ^ maxLog2TrDynamicRange) :
    RoundTrips strict (encodeRemAbsEP bins goRicePar cutoff maxLog2TrDynamicRange)
      (decodeRemAbsEP goRicePar cutoff maxLog2TrDynamicRange) fun _ v => v = bins := by
  have hpos := h.prefix_pos
  have hpow : 2 ^ maxLog2TrDynamicRange ≤ 2 ^ 32 := Nat.pow_le_pow_right (by decide) (by omega)
  have h32 : bins < 2 ^ 32 := Nat.lt_of_lt_of_le hbins hpow
  obtain ⟨s, w, hs, hw, hsum, hencode, -⟩ :=
    encodeRemAbsEP_code h h32 (Nat.lt_of_lt_of_le hbins (Nat.le_add_left _ _))
  rw [hencode]
  refine ⟨bins, rfl, fun rest => ?_⟩
  rw [decodeRemAbsEP_code h hs hw (hsum ▸ h32), hsum]

theorem mvdAbs_roundTrips {goRicePar cutoff maxLog2TrDynamicRange abs : ℕ}
    (h : Params goRicePar cutoff maxLog2TrDynamicRange) (habs : abs ≤ 2 ^ maxLog2TrDynamicRange)
    (h31 : abs < 2 ^ 31) :
    RoundTrips strict
      (if abs > 1 then encodeRemAbsEP (abs - 2) goRicePar cutoff maxLog2TrDynamicRange else pure ())
      (if min (abs : ℤ) 2 > 1 then do
        let remAbs ← decodeRemAbsEP goRicePar cutoff maxLog2TrDynamicRange
        return i32 (min (abs : ℤ) 2 + remAbs)
      else pure (min (abs : ℤ) 2)) fun _ v => v = abs := by
  refine roundTrips_ite (by omega) (fun hmore => ?_) fun hone => roundTrips_pure (by omega)
  have hrange : abs - 2 < 2 ^ maxLog2TrDynamicRange := by omega
  refine (remAbs_roundTrips h hrange).then_right fun _ remAbs hrem => ⟨_, rfl, ?_⟩
  rw [hrem, i32_of_mem (by omega) (by omega)]
  omega

theorem mvdParams : Params 1 0 (MV_BITS - 1) := ⟨by decide, by decide, by decide, by decide⟩

theorem mvdMinus2_roundTrips {v : ℤ} (hv : v.natAbs ≤ 2 ^ 17) (codeSign : Bool) :
    RoundTrips strict (CABACWriter.mvdMinus2 v codeSign) (CABACReader.mvdMinus2 (min (v.natAbs : ℤ) 2) codeSign)
      fun _ v' => v' = sent codeSign v := by
  refine roundTrips_ite (by omega) (fun hpos => ?_) fun hzero => ?_
  · refine roundTrips_bind (mvdAbs_roundTrips mvdParams hv (by omega)) fun _ abs habs => ?_
    rw [habs]
    cases codeSign with
    | false => exact roundTrips_pure rfl
    | true => exact signBin_roundTrips (by omega)
  · refine roundTrips_pure ?_
    rw [sent]
    split <;> omega

theorem shiftRight_mul {a b : ℤ} {n : ℕ} (h : a = b * 2 ^ n) (mvd : Mv) :
    Mv.shiftRight ⟨mvd.hor * a, mvd.ver * a⟩ n = ⟨mvd.hor * b, mvd.ver * b⟩ := by
  have hshift : ∀ v : ℤ, (v * a) >>> n = v * b := fun v => by
    rw [h, Int.shiftRight_eq_div_pow, ← Int.mul_assoc]
    exact Int.mul_ediv_cancel _ (Int.pow_ne_zero (by decide))
  rw [Mv.shiftRight, hshift, hshift]

theorem mvdPrecision_eq (mvd : Mv) (imv : ImvMode) :
    CABACWriter.mvdPrecision ⟨mvd.hor * unit imv, mvd.ver * unit imv⟩ imv = .ok mvd := by
  have hone : (⟨mvd.hor * 1, mvd.ver * 1⟩ : Mv) = mvd := by rw [Int.mul_one, Int.mul_one]
  rw [CABACWriter.mvdPrecision]
  dsimp only
  cases imv with
  | IMV_OFF => rw [if_pos rfl, unit, hone]
  | IMV_HPEL =>
    rw [if_neg (by decide), unit, check_ok _ (by omega), ok_bind, if_pos rfl,
      shiftRight_mul (b := 1) (by decide), hone]
    rfl
  | IMV_FPEL =>
    rw [if_neg (by decide), unit, check_ok _ (by omega), ok_bind, if_neg (by decide),
      shiftRight_mul (b := 2) (by decide), check_ok _ (by dsimp only; omega), ok_bind, if_pos (by decide),
      shiftRight_mul (b := 1) (by decide), hone]
    rfl
  | IMV_4PEL =>
    rw [if_neg (by decide), unit, check_ok _ (by omega), ok_bind, if_neg (by decide),
      shiftRight_mul (b := 8) (by decide), check_ok _ (by dsimp only; omega), ok_bind, if_neg (by decide),
      shiftRight_mul (b := 4) (by decide), check_ok _ (by dsimp only; omega), ok_bind,
      shiftRight_mul (b := 1) (by decide), hone]
    rfl

theorem mvd_coding_roundTrips {mvd : Mv} (hhor : Mv.Legal mvd.hor) (hver : Mv.Legal mvd.ver) (imv : ImvMode) (codeSign : Bool)
    (hsent : Mv.Legal (sent codeSign mvd.hor) ∧ Mv.Legal (sent codeSign mvd.ver)) :
    RoundTrips strict (CABACWriter.mvd_coding ⟨mvd.hor * unit imv, mvd.ver * unit imv⟩ imv codeSign)
      (CABACReader.mvd_coding codeSign)
      fun _ mvd' => mvd' = ⟨sent codeSign mvd.hor, sent codeSign mvd.ver⟩ := by
  rw [CABACWriter.mvd_coding, mvdPrecision_eq, Put.lift_ok_bind, CABACReader.mvd_coding]
  refine roundTrips_bind (roundTrips_bin _ _) fun _ horGreater0 hhor0 => ?_
  refine roundTrips_bind (roundTrips_bin _ _) fun _ verGreater0 hver0 => ?_
  subst hhor0 hver0
  refine roundTrips_bind (mvdGreater1_roundTrips mvd.hor) fun _ horAbs hhor1 => ?_
  refine roundTrips_bind (mvdGreater1_roundTrips mvd.ver) fun _ verAbs hver1 => ?_
  subst hhor1 hver1
  refine roundTrips_bind (mvdMinus2_roundTrips (natAbs_of_legal hhor) codeSign) fun _ hor hhor2 => ?_
  refine (mvdMinus2_roundTrips (natAbs_of_legal hver) codeSign).then_right fun _ ver hver2 => ⟨_, ?_, rfl⟩
  rw [hhor2, hver2, legalMv_eq hsent.1 hsent.2]
  rfl

/-! ## Block vector differences -/

theorem bvdBin_roundTrips (b : Bool) (ctxT offset idx : ℕ) :
    RoundTrips strict (if idx ≥ ctxT then encodeBinEP b else encodeBin b ⟨.Bvd, offset + idx + 1⟩)
      (if idx ≥ ctxT then decodeBinEP else decodeBin ⟨.Bvd, offset + idx + 1⟩) fun _ b' => b' = b :=
  roundTrips_ite Iff.rfl (fun _ => roundTrips_binEP b) fun _ => roundTrips_bin b _

/-- Ones, a zero, and what the reader has added up by then. -/
theorem bvdBins_roundTrips (ctxT offset : ℕ) : ∀ (d : ℕ) {rounds sym k idx : ℕ}, d < rounds →
    sym + 2 ^ (k + d) < 2 ^ 32 + 2 ^ k →
    RoundTrips strict (CABACWriter.bvdBins ctxT offset (d + 1) (2 * (2 ^ d - 1)) idx)
      (CABACReader.bvdPrefix ctxT offset rounds sym k idx)
      fun _ p => p = (sym + 2 ^ (k + d) - 2 ^ k, k + d)
  | 0, rounds + 1, sym, k, idx, _, hlt => by
    refine roundTrips_bind (bvdBin_roundTrips _ ctxT offset idx) fun _ b hb => ?_
    rw [decide_eq_false (show ¬(2 * (2 ^ 0 - 1)) >>> 0 ≠ 0 by decide)] at hb
    rw [Nat.add_zero] at hlt
    rw [hb, if_neg Bool.false_ne_true, Bool.toNat_false, Nat.zero_shiftLeft, u32_of_lt (n := 0) (by decide),
      Nat.add_zero, u32_of_lt (by omega)]
    exact roundTrips_pure (by simp only [Nat.add_zero, Nat.add_sub_cancel])
  | d + 1, rounds + 1, sym, k, idx, hrounds, hlt => by
    have hpow : 2 ^ (k + 1) ≤ 2 ^ (k + (d + 1)) := Nat.pow_le_pow_right (by decide) (by omega)
    have hk := Nat.two_pow_pos k
    have hd := Nat.two_pow_pos d
    rw [Nat.pow_succ] at hpow
    have hbit : u32 (sym + u32 (true.toNat <<< k)) = sym + 2 ^ k := by
      rw [Bool.toNat_true, Nat.one_shiftLeft, u32_of_lt (n := 2 ^ k) (by omega), u32_of_lt (by omega)]
    have htop : (2 * (2 ^ (d + 1) - 1)) >>> (d + 1) = 1 := by
      rw [Nat.shiftRight_eq_div_pow, Nat.div_eq_iff (Nat.two_pow_pos _), Nat.pow_succ]
      omega
    have hleft : 2 * (2 ^ (d + 1) - 1) - 1 <<< (d + 1) = 2 * (2 ^ d - 1) := by
      rw [Nat.one_shiftLeft, Nat.pow_succ]
      omega
    rw [CABACWriter.bvdBins, CABACReader.bvdPrefix]
    dsimp only
    rw [htop, hleft]
    refine roundTrips_bind (bvdBin_roundTrips _ ctxT offset idx) fun _ b hb => ?_
    rw [decide_eq_true (show 1 ≠ 0 by decide)] at hb
    rw [hb, if_pos rfl, hbit]
    refine (bvdBins_roundTrips ctxT offset d (Nat.lt_of_succ_lt_succ hrounds) ?_).mono fun _ p hp => ?_
    · rw [Nat.pow_succ, Nat.add_right_comm k 1 d, Nat.add_assoc k d 1]
      omega
    · rw [hp, Nat.add_right_comm k 1 d, Nat.add_assoc k d 1]
      congr 1
      rw [Nat.pow_succ]
      omega

theorem xWriteBvdContext_roundTrips (ctxT offset : ℕ) {s k : ℕ} (h32 : s + 2 ^ k < 2 ^ 32) :
    RoundTrips strict (CABACWriter.xWriteBvdContext s ctxT offset k) (CABACReader.xReadBvdContext ctxT offset k)
      fun _ v => v = s := by
  have hk := Nat.two_pow_pos k
  obtain ⟨j, s', hcode, hsum, hlt, hkj, hle⟩ := expGolombPrefix_code h32
  have hword : u32 ((2 ^ j - 1) <<< 1) = 2 * (2 ^ j - 1) := by
    have hj31 : 2 ^ j ≤ 2 ^ 31 := Nat.pow_le_pow_right (by decide) (by omega)
    rw [Nat.shiftLeft_eq, u32_of_lt (by omega), Nat.pow_one, Nat.mul_comm]
  rw [CABACWriter.xWriteBvdContext, hcode]
  dsimp only
  rw [hword]
  refine roundTrips_bind (bvdBins_roundTrips ctxT offset j (show j < 32 by omega) (by omega)) fun _ p hp => ?_
  rw [hp]
  exact (suffix_roundTrips hkj hlt (by omega)).mono fun _ v hv => by omega

theorem bvdComponent_roundTrips {v : ℤ} (hv : v.natAbs ≤ 2 ^ 17) (ctxT offset : ℕ) :
    RoundTrips strict (CABACWriter.bvdComponent v ctxT offset)
      (CABACReader.bvdComponent (v.natAbs > 0) ctxT offset) fun _ v' => v' = v := by
  refine roundTrips_ite decide_eq_true_iff.symm (fun hpos => ?_) fun hzero => roundTrips_pure (by omega)
  have hfit : v.natAbs - 1 + 2 ^ BVD_CODING_GOLOMB_ORDER < 2 ^ 32 := by
    rw [BVD_CODING_GOLOMB_ORDER]
    omega
  refine roundTrips_bind (xWriteBvdContext_roundTrips ctxT offset hfit) fun _ symbol hsymbol => ?_
  have habs : i32 (1 + symbol) = v.natAbs := by
    rw [hsymbol, i32_of_mem (by omega) (by omega)]
    omega
  rw [habs]
  exact signBin_roundTrips (by omega)

theorem bvdCoding_roundTrips {bvd : Mv} (hhor : Mv.Legal bvd.hor) (hver : Mv.Legal bvd.ver) :
    RoundTrips strict (CABACWriter.bvdCoding bvd) CABACReader.bvdCoding fun _ bvd' => bvd' = bvd := by
  rw [CABACWriter.bvdCoding, CABACReader.bvdCoding]
  refine roundTrips_bind (roundTrips_bin _ _) fun _ horGreater0 hhor0 => ?_
  refine roundTrips_bind (roundTrips_bin _ _) fun _ verGreater0 hver0 => ?_
  subst hhor0 hver0
  refine roundTrips_bind (bvdComponent_roundTrips (natAbs_of_legal hhor) _ _) fun _ hor hhor1 => ?_
  refine (bvdComponent_roundTrips (natAbs_of_legal hver) _ _).then_right fun _ ver hver1 => ⟨bvd, ?_, rfl⟩
  rw [hhor1, hver1, legalMv_eq hhor hver]
  rfl

/-! ## All of them -/

/-- Every code whose words the coder takes comes back: truncated binary codes below the
sign bit of the threshold, Golomb codes whose shifts are in range, unary bypass codes of at
most 32 bins, and vector differences, which without their signs come back as absolute values. -/
theorem binarizations_roundTrip :
    (∀ s n, s < n → n < 2 ^ 31 → RoundTrips True (CABACWriter.xWriteTruncBinCode s n)
      (CABACReader.xReadTruncBinCode n) fun _ v => v = s) ∧
    (∀ s k, s + 2 ^ k < 2 ^ 32 → RoundTrips True (CABACWriter.exp_golomb_eqprob s k)
      (CABACReader.exp_golomb_eqprob k) fun _ v => v = s) ∧
    (∀ s n ctxId0 ctxIdN, s ≤ n → RoundTrips True (CABACWriter.unary_max_symbol s ctxId0 ctxIdN n)
      (CABACReader.unary_max_symbol ctxId0 ctxIdN n) fun _ v => v = s) ∧
    (∀ s n, s ≤ n → min (s + 1) n ≤ 32 → RoundTrips True (CABACWriter.unary_max_eqprob s n)
      (CABACReader.unary_max_eqprob n) fun _ v => v = s) ∧
    (∀ (mvd : Mv) imv, Mv.Legal mvd.hor → Mv.Legal mvd.ver →
      RoundTrips True (CABACWriter.mvd_coding ⟨mvd.hor * unit imv, mvd.ver * unit imv⟩ imv true)
        (CABACReader.mvd_coding true) fun _ mvd' => mvd' = mvd) ∧
    (∀ (mvd : Mv) imv, mvd.hor.natAbs ≤ MVD_MAX → mvd.ver.natAbs ≤ MVD_MAX →
      RoundTrips True (CABACWriter.mvd_coding ⟨mvd.hor * unit imv, mvd.ver * unit imv⟩ imv false)
        (CABACReader.mvd_coding false) fun _ mvd' => mvd' = ⟨mvd.hor.natAbs, mvd.ver.natAbs⟩) ∧
    ∀ bvd : Mv, Mv.Legal bvd.hor → Mv.Legal bvd.ver →
      RoundTrips True (CABACWriter.bvdCoding bvd) CABACReader.bvdCoding fun _ bvd' => bvd' = bvd := by
  have hlegal : ∀ v : ℤ, v.natAbs ≤ MVD_MAX → Mv.Legal v ∧ Mv.Legal v.natAbs := fun v hv => by
    unfold Mv.Legal MVD_MIN MVD_MAX at *
    omega
  refine ⟨fun s n hs hn => xTruncBinCode_roundTrips (fun _ => hn) fun _ => hs,
    fun s k h => exp_golomb_eqprob_roundTrips h,
    fun s n ctxId0 ctxIdN hs => unary_max_symbol_roundTrips ctxId0 ctxIdN fun _ => hs,
    fun s n hs h32 => unary_max_eqprob_roundTrips hs h32,
    fun mvd imv hhor hver => mvd_coding_roundTrips hhor hver imv true ⟨hhor, hver⟩,
    fun mvd imv hhor hver => ?_, fun bvd hhor hver => bvdCoding_roundTrips hhor hver⟩
  obtain ⟨hhor, hhorAbs⟩ := hlegal mvd.hor hhor
  obtain ⟨hver, hverAbs⟩ := hlegal mvd.ver hver
  exact mvd_coding_roundTrips hhor hver imv false ⟨hhorAbs, hverAbs⟩

/-- The largest difference, in quarters. -/
theorem binarizations_mvd :
    RoundTrips True (CABACWriter.mvd_coding ⟨-131072 * 4, 131071 * 4⟩ .IMV_FPEL true)
      (CABACReader.mvd_coding true) fun _ mvd => mvd = ⟨-131072, 131071⟩ :=
  binarizations_roundTrip.2.2.2.2.1 ⟨-131072, 131071⟩ .IMV_FPEL (by decide) (by decide)

/-- More than 32 bins, an alphabet beyond the range of `int`, and a sign that is not sent. -/
theorem binarizations_outOfRange :
    ¬RoundTrips True (CABACWriter.unary_max_eqprob 33 40) (CABACReader.unary_max_eqprob 40) (fun _ v => v = 33) ∧
    ¬RoundTrips True (CABACWriter.xWriteTruncBinCode 0 (2 ^ 31)) (CABACReader.xReadTruncBinCode (2 ^ 31))
      (fun _ v => v = 0) ∧
    ¬RoundTrips True (CABACWriter.mvd_coding ⟨-1, 0⟩ .IMV_OFF false) (CABACReader.mvd_coding false)
      fun _ mvd => mvd = ⟨-1, 0⟩ := by
  refine ⟨fun h => ?_, fun h => ?_, fun h => ?_⟩
  · have herror : CABACWriter.unary_max_eqprob 33 40 = .error "Unspecified error" := rfl
    obtain ⟨_, _, hw, -⟩ := h.run
    rw [herror] at hw
    cases hw
  · have herror : CABACWriter.xWriteTruncBinCode 0 (2 ^ 31) = .error "shift out of range" := by
      rw [CABACWriter.xWriteTruncBinCode, truncBinThresh_error (Nat.le_refl _)]
      rfl
    obtain ⟨_, _, hw, -⟩ := h.run
    rw [herror] at hw
    cases hw
  · obtain ⟨_, xs, hw, mvd, hmvd, hread⟩ := h.run
    cases hw
    have hone := hread []
    rw [hmvd] at hone
    cases hone

end ECM.Cabac.VectorDifferences
