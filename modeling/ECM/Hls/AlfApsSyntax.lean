import ECM.DecoderLib.ApsReader
import ECM.EncoderLib.ApsWriter

/-! # The Golomb code of filter coefficients

Each zero of the prefix raises the order by one, and the suffix has as many bits as the
order that the prefix ends with. -/

namespace ECM.Hls.AlfGolomb
open CommonLib CommonLib.BitStream Lib.Bits Lib.Loop ECM.Hls
open EncoderLib EncoderLib.VLCWriter DecoderLib DecoderLib.VLCReader

/-- The shifts of the writer stay in an `int`, and a code without a sign has no sign to lose. -/
def InRange (coeff : ℤ) (k : ℕ) (signed_coeff : Bool) : Prop :=
  coeff.natAbs + 2 ^ k < 2 ^ 31 ∧ (signed_coeff = false → 0 ≤ coeff)

def signBits (coeff : ℤ) (signed_coeff : Bool) : List Bool :=
  if signed_coeff ∧ coeff ≠ 0 then [decide (coeff < 0)] else []

/-! ## What is written -/

/-- The order after the prefix, and what the prefix leaves of the symbol. -/
theorem writes_prefix (fuel symbol k : ℕ) (h : symbol < fuel) :
    ∃ n s, Writes (alfGolombPrefix fuel symbol k) (s, k + n) (List.replicate n false) ∧
      s < 2 ^ (k + n) ∧ symbol + 2 ^ k = 2 ^ (k + n) + s := by
  induction fuel generalizing symbol k with
  | zero => exact absurd h (Nat.not_lt_zero symbol)
  | succ fuel ih =>
    rw [alfGolombPrefix, Nat.one_shiftLeft]
    by_cases hge : symbol ≥ 2 ^ k
    · rw [if_pos hge]
      have hpos := Nat.two_pow_pos k
      obtain ⟨n, s, hw, hs, hsymbol⟩ := ih (symbol - 2 ^ k) (k + 1) (by omega)
      have horder : k + 1 + n = k + (n + 1) := by omega
      rw [horder] at hw hs hsymbol
      refine ⟨n + 1, s, writes_bind (writes_flag false) hw, hs, ?_⟩
      have hdouble : 2 ^ (k + 1) = 2 ^ k * 2 := pow_succ 2 k
      omega
    · rw [if_neg hge]
      exact ⟨0, symbol, writes_pure _, Nat.lt_of_not_ge hge, Nat.add_comm symbol _⟩

theorem writes_suffix {symbol k : ℕ} (h32 : k ≤ 32) (h : symbol < 2 ^ k) :
    Writes (alfGolombSuffix symbol k) () (toBits k symbol) := by
  rw [alfGolombSuffix]
  by_cases hk : k > 0
  · rw [if_pos hk]
    exact writes_code hk h32 h
  · obtain rfl : k = 0 := Nat.eq_zero_of_not_pos hk
    exact writes_pure ()

theorem writes_sign (coeff : ℤ) (signed_coeff : Bool) :
    Writes (VLCWriter.alfGolombSign coeff signed_coeff) () (signBits coeff signed_coeff) := by
  rw [VLCWriter.alfGolombSign, signBits]
  by_cases h : signed_coeff ∧ coeff ≠ 0
  · rw [if_pos h, if_pos h]
    exact writes_flag _
  · rw [if_neg h, if_neg h]
    exact writes_pure ()

/-! ## What is read -/

theorem reads_zeros (n fuel numLeadingBits : ℕ) (h : n < fuel) :
    Reads (alfGolombZeros fuel numLeadingBits) (List.replicate n false ++ [true]) (numLeadingBits + n) := by
  induction n generalizing fuel numLeadingBits with
  | zero =>
    obtain ⟨fuel, rfl⟩ := Nat.exists_eq_add_one_of_ne_zero (Nat.ne_zero_of_lt h)
    exact (reads_flag true).silent (reads_pure numLeadingBits)
  | succ n ih =>
    obtain ⟨fuel, rfl⟩ := Nat.exists_eq_add_one_of_ne_zero (Nat.ne_zero_of_lt h)
    have hrest := ih fuel (numLeadingBits + 1) (Nat.lt_of_succ_lt_succ h)
    rw [Nat.add_right_comm] at hrest
    have hbits : List.replicate (n + 1) false ++ [true] = [false] ++ (List.replicate n false ++ [true]) := rfl
    rw [hbits]
    exact reads_bind (reads_flag false) hrest

theorem reads_bins {symbol k : ℕ} (h32 : k ≤ 32) (h : symbol < 2 ^ k) :
    Reads (alfGolombBins k) (toBits k symbol) symbol := by
  rw [alfGolombBins]
  by_cases hk : k > 0
  · rw [if_pos hk]
    exact reads_code hk h32 h
  · obtain rfl : k = 0 := Nat.eq_zero_of_not_pos hk
    obtain rfl : symbol = 0 := Nat.lt_one_iff.mp h
    exact reads_pure 0

theorem reads_sign {coeff : ℤ} {signed_coeff : Bool} (hsign : signed_coeff = false → 0 ≤ coeff) :
    Reads (VLCReader.alfGolombSign coeff.natAbs signed_coeff) (signBits coeff signed_coeff) coeff := by
  rw [VLCReader.alfGolombSign, signBits]
  by_cases h : signed_coeff ∧ coeff ≠ 0
  · rw [if_pos h, if_pos ⟨h.1, by omega⟩]
    have hread := (reads_flag (decide (coeff < 0))).map fun b => if b then -(coeff.natAbs : ℤ) else coeff.natAbs
    have hvalue : (if decide (coeff < 0) = true then -(coeff.natAbs : ℤ) else coeff.natAbs) = coeff := by
      simp only [decide_eq_true_eq]
      split <;> omega
    rwa [hvalue] at hread
  · have hnonneg : 0 ≤ coeff := by
      cases signed_coeff with
      | false => exact hsign rfl
      | true =>
        by_contra hneg
        exact h ⟨rfl, by omega⟩
    have habs : (coeff.natAbs : ℤ) = coeff := Int.natAbs_of_nonneg hnonneg
    rw [habs, if_neg h, if_neg h]
    exact reads_pure coeff

/-- A reader that looks at the stream first. -/
theorem reads_get {β : Type} {g : InputBitstream → ReadM β} {bits : List Bool} {b : β}
    (h : ∀ s : InputBitstream, bits.length ≤ s.unread.length → Reads (g s) bits b) :
    Reads (get >>= g) bits b := by
  intro t fifo locations rest hat
  refine h t ?_ t fifo locations rest hat
  rw [hat.unread_eq, List.length_append]
  exact Nat.le_add_right _ _

/-! ## Together -/

/-- `alfGolombDecode` undoes `alfGolombEncode`. -/
theorem roundTrips {coeff : ℤ} {k : ℕ} {signed_coeff : Bool} (h : InRange coeff k signed_coeff) :
    RoundTrips True (alfGolombEncode coeff k signed_coeff) (alfGolombDecode k signed_coeff)
      fun _ v => v = coeff := by
  obtain ⟨hrange, hsign⟩ := h
  obtain ⟨n, s, hprefix, hs, hsymbol⟩ := writes_prefix (coeff.natAbs + 1) coeff.natAbs k (Nat.lt_succ_self _)
  have hpow : 2 ^ (k + n) < 2 ^ 31 := by omega
  have h31 : k + n < 31 := (Nat.pow_lt_pow_iff_right (by decide)).mp hpow
  have hwrite := writes_bind (f := fun p => do
      WRITE_FLAG true
      alfGolombSuffix p.1 p.2
      VLCWriter.alfGolombSign coeff signed_coeff) hprefix
    (writes_bind (writes_flag true)
      (writes_bind (writes_suffix (by omega) hs) (writes_sign coeff signed_coeff)))
  have hread : Reads (alfGolombDecode k signed_coeff)
      (List.replicate n false ++ ([true] ++ (toBits (k + n) s ++ signBits coeff signed_coeff))) coeff := by
    refine reads_get fun t ht => ?_
    rw [← List.append_assoc]
    have hlen : n < t.unread.length + 1 := by
      rw [List.length_append, List.length_replicate] at ht
      omega
    refine reads_bind (reads_zeros n _ 0 hlen) ?_
    rw [Nat.zero_add, Nat.add_comm n k]
    refine reads_bind (reads_bins (by omega) hs) ?_
    have hvalue : (1 <<< n - 1) <<< k + s = coeff.natAbs := by
      rw [Nat.one_shiftLeft, Nat.shiftLeft_eq, Nat.sub_mul, ← pow_add, Nat.one_mul, Nat.add_comm n k]
      have hle := Nat.pow_le_pow_right (n := 2) (by decide) (Nat.le_add_right k n)
      omega
    have habs : coeff.natAbs < 2 ^ 31 := Nat.lt_of_le_of_lt (Nat.le_add_right _ _) hrange
    rw [hvalue, u32_of_lt (by omega), toI32_of_lt habs]
    exact reads_sign hsign
  exact hwrite.roundTrips hread rfl

end ECM.Hls.AlfGolomb

/-! # Parameter sets of luma mapping come back

The deltas of the bins that are in use, each as an absolute value and a sign. -/

namespace ECM.Hls.LmcsApsSyntax
open CommonLib CommonLib.BitStream CommonLib.Alf Lib.Bits Lib.Loop ECM.Hls Function
open EncoderLib.VLCWriter DecoderLib.VLCReader

/-- The bins are those of the array, and the absolute values fit the codes they are written with. -/
structure Writable (aps : LmcsAps) : Prop where
  minBin : aps.reshaperModelMinBinIdx < PIC_CODE_CW_BINS
  maxBin : aps.reshaperModelMaxBinIdx < PIC_CODE_CW_BINS
  precision : 1 ≤ aps.maxNbitsNeededDeltaCW ∧ aps.maxNbitsNeededDeltaCW ≤ 32
  deltaCW : ∀ i, aps.reshaperModelMinBinIdx ≤ i → i ≤ aps.reshaperModelMaxBinIdx →
    (aps.reshaperModelBinCWDelta i).natAbs < 2 ^ aps.maxNbitsNeededDeltaCW ∧
      (aps.reshaperModelBinCWDelta i).natAbs < 2 ^ 31
  deltaCRS : aps.chromaPresentFlag = true → aps.chrResScalingOffset.natAbs < 2 ^ 3

/-- A parameter set as it is read back: bins that are not in use have no delta, and without
chroma there is no offset. -/
structure Restored (a b : LmcsAps) : Prop where
  minBin : b.reshaperModelMinBinIdx = a.reshaperModelMinBinIdx
  maxBin : b.reshaperModelMaxBinIdx = a.reshaperModelMaxBinIdx
  precision : b.maxNbitsNeededDeltaCW = a.maxNbitsNeededDeltaCW
  deltaCW : ∀ i < PIC_CODE_CW_BINS, b.reshaperModelBinCWDelta i =
    if a.reshaperModelMinBinIdx ≤ i ∧ i ≤ a.reshaperModelMaxBinIdx then a.reshaperModelBinCWDelta i else 0
  deltaCRS : b.chrResScalingOffset = if a.chromaPresentFlag then a.chrResScalingOffset else 0

/-! ## Absolute values and signs -/

/-- A flag that is read as a code of one bit. -/
theorem reads_bit (b : Bool) : Reads (READ_CODE 1) [b] b.toNat := by
  have hread := reads_code (v := b.toNat) (n := 1) (Nat.le_refl 1) (by decide) (Bool.toNat_lt b)
  have hbits : toBits 1 b.toNat = [b] := by cases b <;> rfl
  rwa [hbits] at hread

theorem sign_roundTrips (v : ℤ) (h31 : v.natAbs < 2 ^ 31) :
    RoundTrips True (if v.natAbs > 0 then WRITE_FLAG (decide (v < 0)) else pure ()) (readSign v.natAbs)
      fun _ sign => (1 - 2 * sign) * (v.natAbs : ℤ) = v := by
  have hpos : v.natAbs > 0 ↔ toI32 v.natAbs > 0 := by rw [toI32_of_lt h31, gt_iff_lt, gt_iff_lt, Int.natCast_pos]
  refine roundTrips_ite hpos (fun _ => ?_) fun hzero => roundTrips_pure ?_
  · refine (writes_flag _).roundTrips (reads_bit _) ?_
    by_cases hneg : v < 0
    · simp only [hneg, decide_true, Bool.toNat_true]
      omega
    · simp only [hneg, decide_false, Bool.toNat_false]
      omega
  · obtain rfl : v = 0 := by omega
    rfl

theorem deltaCW_roundTrips {v : ℤ} {n : ℕ} (h1 : 1 ≤ n) (h32 : n ≤ 32) (hfit : v.natAbs < 2 ^ n)
    (h31 : v.natAbs < 2 ^ 31) : RoundTrips True (codeDeltaCW v n) (readDeltaCW n) fun _ u => u = v := by
  refine roundTrips_bind (roundTrips_code h1 h32 hfit) fun _ code hcode => ?_
  rw [hcode]
  refine (sign_roundTrips v h31).then_right fun _ sign hsign => ⟨_, rfl, ?_⟩
  rw [toI32_of_lt h31]
  exact hsign

theorem deltaCRS_roundTrips {aps : LmcsAps} (h : aps.chromaPresentFlag = true → aps.chrResScalingOffset.natAbs < 2 ^ 3) :
    RoundTrips True (codeDeltaCRS aps) (readDeltaCRS aps.chromaPresentFlag)
      fun _ v => v = if aps.chromaPresentFlag then aps.chrResScalingOffset else 0 := by
  refine roundTrips_ite Iff.rfl (fun hchroma => ?_) fun hchroma => roundTrips_pure ?_
  · rw [if_pos hchroma]
    have hfit := h hchroma
    exact deltaCW_roundTrips (by decide) (by decide) hfit (by omega)
  · rw [if_neg hchroma]

/-! ## The parameter set -/

/-- The loop over the bins that are in use. -/
theorem deltas_roundTrip {aps : LmcsAps} (h : Writable aps) {delta : ℕ → ℤ}
    (hdelta : ∀ i < PIC_CODE_CW_BINS, delta i = 0) :
    RoundTrips True
      (loop (fun r _ => codeDeltaCW (aps.reshaperModelBinCWDelta (aps.reshaperModelMinBinIdx + r))
        aps.maxNbitsNeededDeltaCW) (aps.reshaperModelMaxBinIdx + 1 - aps.reshaperModelMinBinIdx) ())
      (loop (fun r (delta : ℕ → ℤ) => do
        let v ← readDeltaCW aps.maxNbitsNeededDeltaCW
        return update delta (aps.reshaperModelMinBinIdx + r) v)
        (aps.reshaperModelMaxBinIdx + 1 - aps.reshaperModelMinBinIdx) delta)
      fun _ delta => ∀ i < PIC_CODE_CW_BINS, delta i =
        if aps.reshaperModelMinBinIdx ≤ i ∧ i ≤ aps.reshaperModelMaxBinIdx then aps.reshaperModelBinCWDelta i
        else 0 := by
  have hloop := roundTrips_loop (n := aps.reshaperModelMaxBinIdx + 1 - aps.reshaperModelMinBinIdx)
    (f := fun r _ => codeDeltaCW (aps.reshaperModelBinCWDelta (aps.reshaperModelMinBinIdx + r))
      aps.maxNbitsNeededDeltaCW)
    (g := fun r (delta : ℕ → ℤ) => do
      let v ← readDeltaCW aps.maxNbitsNeededDeltaCW
      return update delta (aps.reshaperModelMinBinIdx + r) v)
    (P := fun r _ (delta : ℕ → ℤ) => ∀ i < PIC_CODE_CW_BINS, delta i =
      if aps.reshaperModelMinBinIdx ≤ i ∧ i < aps.reshaperModelMinBinIdx + r then aps.reshaperModelBinCWDelta i
      else 0) (a := ()) (b := delta) (fun i hi => by rw [hdelta i hi, if_neg (by omega)])
    fun r hr _ delta hdelta => by
      obtain ⟨hfit, h31⟩ := h.deltaCW (aps.reshaperModelMinBinIdx + r) (by omega) (by omega)
      refine (deltaCW_roundTrips h.precision.1 h.precision.2 hfit h31).then_right fun _ v hv => ⟨_, rfl, ?_⟩
      intro i hi
      by_cases hbin : i = aps.reshaperModelMinBinIdx + r
      · rw [hbin, update_self, hv, if_pos (by omega)]
      · rw [update_of_ne hbin, hdelta i hi]
        exact if_congr (by omega) rfl rfl
  refine hloop.mono fun _ delta hdelta i hi => ?_
  rw [hdelta i hi]
  exact if_congr (by omega) rfl rfl

theorem roundTrips {aps prior : LmcsAps} (h : Writable aps)
    (hchroma : prior.chromaPresentFlag = aps.chromaPresentFlag) :
    RoundTrips True (codeLmcsAps aps) (parseLmcsAps prior) fun _ b => Restored aps b := by
  have hmin := h.minBin
  have hmax := h.maxBin
  obtain ⟨hprec, hprec32⟩ := h.precision
  rw [PIC_CODE_CW_BINS] at hmin hmax
  have hbins : PIC_CODE_CW_BINS - 1 < 2 ^ 32 := by rw [PIC_CODE_CW_BINS]; omega
  refine roundTrips_bind (roundTrips_uvlc (by omega)) fun _ minBin hminBin => ?_
  rw [hminBin]
  have hlast : sub32 (PIC_CODE_CW_BINS - 1) aps.reshaperModelMaxBinIdx = 15 - aps.reshaperModelMaxBinIdx :=
    sub32_of_le (Nat.le_of_lt_succ hmax) hbins
  refine roundTrips_bind (roundTrips_uvlc (by omega)) fun _ code hcode => ?_
  have hmaxBin : sub32 (PIC_CODE_CW_BINS - 1) code = aps.reshaperModelMaxBinIdx := by
    rw [hcode, hlast, sub32_of_le (by rw [PIC_CODE_CW_BINS]; omega) hbins, PIC_CODE_CW_BINS]
    omega
  rw [hmaxBin]
  dsimp only
  have hbits : sub32 aps.maxNbitsNeededDeltaCW 1 = aps.maxNbitsNeededDeltaCW - 1 := sub32_of_le hprec (by omega)
  rw [hbits]
  refine roundTrips_bind (roundTrips_uvlc (by omega)) fun _ bits hbitsCode => ?_
  have hprecision : bits + 1 = aps.maxNbitsNeededDeltaCW := by omega
  rw [hprecision, hchroma]
  refine roundTrips_bind (deltas_roundTrip h fun i hi => if_pos hi) fun _ delta hdelta => ?_
  refine (deltaCRS_roundTrips h.deltaCRS).then_right fun _ v hv => ⟨_, rfl, ?_⟩
  exact ⟨rfl, rfl, rfl, hdelta, hv⟩

end ECM.Hls.LmcsApsSyntax

/-! # Parameter sets of the adaptive loop filter come back

The filters of every alternative with the map of the classes, and the cross-component
filters. Clipping indices that are not signalled are zero when they are read. -/

namespace ECM.Hls.AlfApsSyntax
open CommonLib CommonLib.BitStream CommonLib.Alf Lib.Bits Lib.Loop ECM.Hls Function
open EncoderLib EncoderLib.VLCWriter DecoderLib DecoderLib.VLCReader

/-! ## What can be written -/

/-- A coefficient is a `short`, and the reader checks those of chroma. -/
def CoeffFits (isChroma : Bool) (v : ℤ) : Prop :=
  if isChroma then -128 ≤ v ∧ v ≤ 127 else -2 ^ 15 ≤ v ∧ v < 2 ^ 15

structure FiltersWritable (isChroma : Bool) (shape : AlfFilterShape) (numFilters : ℕ) (filters : AlfFilters) :
    Prop where
  coeff : ∀ ind < numFilters, ∀ i < shape.numCoeff - 1, CoeffFits isChroma (filters.coeff ind i)
  clipp : filters.nonLinearFlag = true → ∀ ind < numFilters, ∀ i < shape.numCoeff - 1,
    0 ≤ filters.clipp ind i ∧ filters.clipp ind i < 4

/-- Each class has one of the filters. -/
structure LumaWritable (shape : AlfFilterShape) (alt : AlfLumaAlternative) : Prop where
  numLumaFilters : 1 ≤ alt.numLumaFilters ∧ alt.numLumaFilters ≤ MAX_NUM_ALF_CLASSES
  classMap : ∀ i < numClasses alt.lumaClassifierIdx,
    0 ≤ alt.filterCoeffDeltaIdx i ∧ alt.filterCoeffDeltaIdx i < alt.numLumaFilters
  filters : FiltersWritable false shape alt.numLumaFilters alt.toAlfFilters

/-- A coefficient of a cross-component filter is zero or a power of two. -/
structure CcWritable (comp : CcAlfComp) : Prop where
  ccAlfFilterCount : 1 ≤ comp.ccAlfFilterCount ∧ comp.ccAlfFilterCount ≤ MAX_NUM_CC_ALF_FILTERS
  ccAlfCoeff : ∀ filterIdx < comp.ccAlfFilterCount, ∀ i < MAX_NUM_CC_ALF_CHROMA_COEFF - 1,
    comp.ccAlfCoeff filterIdx i = 0 ∨ ∃ k ≤ 6, (comp.ccAlfCoeff filterIdx i).natAbs = 2 ^ k

structure Writable (aps : AlfAps) : Prop where
  signalled : aps.m_alfAPSParam.newFilterFlagLuma = true ∨ aps.m_alfAPSParam.newFilterFlagChroma = true ∨
    (aps.m_ccAlfAPSParam 0).newCcAlfFilter = true ∨ (aps.m_ccAlfAPSParam 1).newCcAlfFilter = true
  chromaPresent : aps.chromaPresentFlag = false → aps.m_alfAPSParam.newFilterFlagChroma = false ∧
    (aps.m_ccAlfAPSParam 0).newCcAlfFilter = false ∧ (aps.m_ccAlfAPSParam 1).newCcAlfFilter = false
  filterTypeLuma : aps.m_alfAPSParam.newFilterFlagLuma = true →
    aps.m_alfAPSParam.filterTypeLuma = .ALF_FILTER_9_EXT ∨ aps.m_alfAPSParam.filterTypeLuma = .ALF_FILTER_EXT
  numAlternativesLuma : aps.m_alfAPSParam.newFilterFlagLuma = true →
    1 ≤ aps.m_alfAPSParam.numAlternativesLuma ∧
      aps.m_alfAPSParam.numAlternativesLuma ≤ MAX_NUM_ALF_ALTERNATIVES_LUMA
  luma : aps.m_alfAPSParam.newFilterFlagLuma = true → ∀ altIdx < aps.m_alfAPSParam.numAlternativesLuma,
    LumaWritable aps.m_alfAPSParam.filterTypeLuma.shape (aps.m_alfAPSParam.luma altIdx)
  filterTypeChroma : aps.m_alfAPSParam.newFilterFlagChroma = true →
    aps.m_alfAPSParam.filterTypeChroma = .ALF_FILTER_9
  numAlternativesChroma : aps.m_alfAPSParam.newFilterFlagChroma = true →
    1 ≤ aps.m_alfAPSParam.numAlternativesChroma ∧
      aps.m_alfAPSParam.numAlternativesChroma ≤ MAX_NUM_ALF_ALTERNATIVES_CHROMA
  chroma : aps.m_alfAPSParam.newFilterFlagChroma = true → ∀ altIdx < aps.m_alfAPSParam.numAlternativesChroma,
    FiltersWritable true aps.m_alfAPSParam.filterTypeChroma.shape 1 (aps.m_alfAPSParam.chroma altIdx)
  ccAlf : ∀ ccIdx < 2, (aps.m_ccAlfAPSParam ccIdx).newCcAlfFilter = true → CcWritable (aps.m_ccAlfAPSParam ccIdx)

/-! ## What comes back -/

structure FiltersRestored (shape : AlfFilterShape) (numFilters : ℕ) (a b : AlfFilters) : Prop where
  nonLinearFlag : b.nonLinearFlag = a.nonLinearFlag
  coeff : ∀ ind < numFilters, ∀ i < shape.numCoeff - 1, b.coeff ind i = a.coeff ind i
  clipp : ∀ ind < numFilters, ∀ i < shape.numCoeff - 1,
    b.clipp ind i = if a.nonLinearFlag then a.clipp ind i else 0

structure LumaRestored (shape : AlfFilterShape) (a b : AlfLumaAlternative) : Prop where
  lumaClassifierIdx : b.lumaClassifierIdx = a.lumaClassifierIdx
  numLumaFilters : b.numLumaFilters = a.numLumaFilters
  classMap : ∀ i < numClasses a.lumaClassifierIdx, b.filterCoeffDeltaIdx i = a.filterCoeffDeltaIdx i
  filters : FiltersRestored shape a.numLumaFilters a.toAlfFilters b.toAlfFilters

structure CcRestored (a b : CcAlfComp) : Prop where
  newCcAlfFilter : b.newCcAlfFilter = a.newCcAlfFilter
  ccAlfFilterCount : a.newCcAlfFilter = true → b.ccAlfFilterCount = a.ccAlfFilterCount
  ccAlfFilterIdxEnabled : a.newCcAlfFilter = true → ∀ filterIdx < MAX_NUM_CC_ALF_FILTERS,
    b.ccAlfFilterIdxEnabled filterIdx = decide (filterIdx < a.ccAlfFilterCount)
  ccAlfCoeff : a.newCcAlfFilter = true → ∀ filterIdx < a.ccAlfFilterCount,
    ∀ i < MAX_NUM_CC_ALF_CHROMA_COEFF - 1, b.ccAlfCoeff filterIdx i = a.ccAlfCoeff filterIdx i

structure ParamRestored (a b : AlfParam) : Prop where
  newFilterFlagLuma : b.newFilterFlagLuma = a.newFilterFlagLuma
  newFilterFlagChroma : b.newFilterFlagChroma = a.newFilterFlagChroma
  filterTypeLuma : a.newFilterFlagLuma = true → b.filterTypeLuma = a.filterTypeLuma
  numAlternativesLuma : a.newFilterFlagLuma = true → b.numAlternativesLuma = a.numAlternativesLuma
  luma : a.newFilterFlagLuma = true → ∀ altIdx < a.numAlternativesLuma,
    LumaRestored a.filterTypeLuma.shape (a.luma altIdx) (b.luma altIdx)
  filterTypeChroma : a.newFilterFlagChroma = true → b.filterTypeChroma = a.filterTypeChroma
  numAlternativesChroma : a.newFilterFlagChroma = true → b.numAlternativesChroma = a.numAlternativesChroma
  chroma : a.newFilterFlagChroma = true → ∀ altIdx < a.numAlternativesChroma,
    FiltersRestored a.filterTypeChroma.shape 1 (a.chroma altIdx) (b.chroma altIdx)

structure Restored (a b : AlfAps) : Prop where
  param : ParamRestored a.m_alfAPSParam b.m_alfAPSParam
  ccAlf : ∀ ccIdx < 2, CcRestored (a.m_ccAlfAPSParam ccIdx) (b.m_ccAlfAPSParam ccIdx)

/-! ## Filters -/

theorem i16_of_range {v : ℤ} (hlow : -2 ^ 15 ≤ v) (hhigh : v < 2 ^ 15) : i16 v = v := by
  rw [i16]
  omega

theorem bestOrder_lt (bits : ℕ → ℕ) : bestOrder bits < 4 := by
  refine foldl_range (P := fun _ (best : ℕ × ℕ) => best.1 < 4) (by decide) fun k hk best hbest => ?_
  split
  · exact hk
  · exact hbest

theorem orders_roundTrip (shape : AlfFilterShape) (numFilters : ℕ) (coeff : ℕ → ℕ → ℤ) :
    RoundTrips True (codeGolombOrders shape numFilters coeff) (readGolombOrders shape)
      fun bestK read => read = bestK ∧ ∀ orderIdx, bestK orderIdx < 4 := by
  refine roundTrips_loop (P := fun _ (bestK read : ℕ → ℕ) => read = bestK ∧ ∀ orderIdx, bestK orderIdx < 4)
    ⟨rfl, fun _ => by decide⟩ fun orderIdx _ bestK read hread => ?_
  obtain ⟨rfl, hlt⟩ := hread
  have horder : golombOrder shape numFilters coeff orderIdx < 4 := bestOrder_lt _
  refine roundTrips_bind (roundTrips_code (by decide) (by decide) horder) fun _ code hcode => ?_
  refine roundTrips_pure ⟨by rw [hcode], fun i => ?_⟩
  by_cases hi : i = orderIdx
  · rw [hi, update_self]
    exact horder
  · rw [update_of_ne hi]
    exact hlt i

theorem coeff_roundTrips {isChroma : Bool} {v : ℤ} (order : ℕ) (h : CoeffFits isChroma v) (horder : order ≤ 7) :
    RoundTrips True (alfGolombEncode v order true) (readAlfCoeff isChroma order) fun _ u => u = v := by
  have hshort : -2 ^ 15 ≤ v ∧ v < 2 ^ 15 := by
    cases isChroma with
    | false => exact h
    | true =>
      have h : -128 ≤ v ∧ v ≤ 127 := h
      omega
  have hpow : 2 ^ order ≤ 2 ^ 7 := Nat.pow_le_pow_right (by decide) horder
  have hrange : AlfGolomb.InRange v order true := ⟨by omega, fun hfalse => by cases hfalse⟩
  refine (AlfGolomb.roundTrips hrange).then_right fun _ u hu => ⟨v, ?_, rfl⟩
  have hpass : ¬(isChroma = true ∧ (i16 v > 127 ∨ i16 v < -128)) := by
    rintro ⟨rfl, hout⟩
    have h : -128 ≤ v ∧ v ≤ 127 := h
    rw [i16_of_range hshort.1 hshort.2] at hout
    omega
  rw [hu, check_ok _ hpass, liftM_ok_bind, i16_of_range hshort.1 hshort.2]

theorem clip_roundTrips {v : ℤ} (h : 0 ≤ v ∧ v < 4) :
    RoundTrips True (WRITE_CODE (toU32 v) 2) readAlfClip fun _ u => u = v := by
  have hcode : toU32 v = v.toNat := toU32_of_nonneg h.1 (by omega)
  rw [hcode]
  refine (roundTrips_code (by decide) (by decide) (by omega)).then_right fun _ u hu => ⟨v, ?_, rfl⟩
  have hvalue : ((u : ℕ) : ℤ) = v := by omega
  rw [hvalue, i16_of_range (by omega) (by omega)]

/-- A table whose entries come back one by one. -/
theorem rows_roundTrip {rows cols : ℕ} {w : ℕ → ℕ → WriteM Unit} {entry : ℕ → ReadM ℤ} (value table : ℕ → ℕ → ℤ)
    (h : ∀ ind < rows, ∀ i < cols, RoundTrips True (w ind i) (entry i) fun _ v => v = value ind i) :
    RoundTrips True (loop (fun ind _ => loop (fun i _ => w ind i) cols ()) rows ())
      (readRows rows cols entry table) fun _ table => ∀ ind < rows, ∀ i < cols, table ind i = value ind i := by
  have hrow : ∀ ind < rows, ∀ row : ℕ → ℤ, RoundTrips True (loop (fun i _ => w ind i) cols ())
      (loop (fun i row => do
        let v ← entry i
        return update row i v) cols row) fun _ row => ∀ i < cols, row i = value ind i := by
    intro ind hind row
    refine roundTrips_loop (P := fun n _ (row : ℕ → ℤ) => ∀ i < n, row i = value ind i)
      (fun i hi => absurd hi (Nat.not_lt_zero i)) fun n hn _ row hrow => ?_
    refine (h ind hind n hn).then_right fun _ v hv => ⟨_, rfl, fun i hi => ?_⟩
    by_cases hin : i = n
    · rw [hin, update_self, hv]
    · rw [update_of_ne hin]
      exact hrow i (by omega)
  refine roundTrips_loop (P := fun n _ (table : ℕ → ℕ → ℤ) => ∀ ind < n, ∀ i < cols, table ind i = value ind i)
    (fun ind hind => absurd hind (Nat.not_lt_zero ind)) fun n hn _ table htable => ?_
  refine (hrow n hn (table n)).then_right fun _ row hrow => ⟨_, rfl, fun ind hind => ?_⟩
  by_cases hin : ind = n
  · rw [hin, update_self]
    exact hrow
  · rw [update_of_ne hin]
    exact htable ind (by omega)

theorem clipp_roundTrips {isChroma : Bool} {shape : AlfFilterShape} {numFilters : ℕ} {filters : AlfFilters}
    (clipp : ℕ → ℕ → ℤ) (h : FiltersWritable isChroma shape numFilters filters) :
    RoundTrips True (codeAlfClipp shape numFilters filters)
      (readAlfClipp shape numFilters filters.nonLinearFlag clipp)
      fun _ clipp => ∀ ind < numFilters, ∀ i < shape.numCoeff - 1,
        clipp ind i = if filters.nonLinearFlag then filters.clipp ind i else 0 := by
  refine roundTrips_ite Iff.rfl (fun hon => ?_) fun hoff => roundTrips_pure fun ind hind i hi => ?_
  · simp only [if_pos hon]
    exact rows_roundTrip filters.clipp clipp fun ind hind i hi => clip_roundTrips (h.clipp hon ind hind i hi)
  · rw [if_pos ⟨hind, by omega⟩, if_neg hoff]

theorem filter_roundTrips {isChroma : Bool} {shape : AlfFilterShape} {numFilters : ℕ} {a b : AlfFilters}
    {order0 order1 : ℕ} (h : FiltersWritable isChroma shape numFilters a)
    (hflag : b.nonLinearFlag = a.nonLinearFlag) (h0 : order0 ≤ 7) (h1 : order1 ≤ 7) :
    RoundTrips True (VLCWriter.alfFilter shape numFilters a order0 order1)
      (VLCReader.alfFilter isChroma shape numFilters b order0 order1)
      fun _ b => FiltersRestored shape numFilters a b := by
  have horder : ∀ i, (if i < shape.indexSecOrder then order0 else order1) ≤ 7 := by
    intro i
    split
    · exact h0
    · exact h1
  have hcoeffs := rows_roundTrip a.coeff b.coeff fun ind hind i hi =>
    coeff_roundTrips (if i < shape.indexSecOrder then order0 else order1) (h.coeff ind hind i hi) (horder i)
  refine roundTrips_bind hcoeffs fun _ coeff hcoeff => ?_
  rw [hflag]
  refine (clipp_roundTrips b.clipp h).then_right fun _ clipp hclipp => ⟨_, rfl, ?_⟩
  exact ⟨rfl, hcoeff, hclipp⟩

theorem shape_offset0 (t : AlfFilterType) : t.shape.offset0 ≤ 4 := by cases t <;> decide

theorem filters_roundTrip {isChroma : Bool} {t : AlfFilterType} {numFilters : ℕ} {a b : AlfFilters}
    (h : FiltersWritable isChroma t.shape numFilters a) (hflag : b.nonLinearFlag = a.nonLinearFlag) :
    RoundTrips True (codeAlfFilters t.shape numFilters a) (readAlfFilters isChroma t.shape numFilters b)
      fun _ b => FiltersRestored t.shape numFilters a b := by
  refine roundTrips_bind (orders_roundTrip t.shape numFilters a.coeff) fun bestK read hread => ?_
  obtain ⟨rfl, hlt⟩ := hread
  have hoffset := shape_offset0 t
  have h0 := hlt 0
  have h1 := hlt 1
  exact filter_roundTrips h hflag (by omega) (by rw [ALF_ORDER]; omega)

/-! ## Alternatives -/

/-- The map of the classes; with one filter only, the reader sets it to zero. -/
theorem classMap_roundTrips {shape : AlfFilterShape} {alt : AlfLumaAlternative} (classMap : ℕ → ℤ)
    (h : LumaWritable shape alt) :
    RoundTrips True (codeClassMap alt) (readClassMap alt.lumaClassifierIdx alt.numLumaFilters classMap)
      fun _ classMap => ∀ i < numClasses alt.lumaClassifierIdx, classMap i = alt.filterCoeffDeltaIdx i := by
  obtain ⟨-, hmany⟩ := h.numLumaFilters
  rw [MAX_NUM_ALF_CLASSES] at hmany
  have hclasses : numClasses alt.lumaClassifierIdx = 25 := by
    rw [numClasses]
    split <;> rfl
  refine roundTrips_ite Iff.rfl (fun hgt => ?_) fun hone => roundTrips_pure fun i hi => ?_
  · have hlog : (alt.numLumaFilters - 1).log2 < 5 := (Nat.log2_lt (by omega)).mpr (by omega)
    have hlength : ceilLog2 alt.numLumaFilters = (alt.numLumaFilters - 1).log2 + 1 := if_neg (by omega)
    have hcover : alt.numLumaFilters - 1 < 2 ^ ((alt.numLumaFilters - 1).log2 + 1) := Nat.lt_log2_self
    refine roundTrips_loop (P := fun n _ (classMap : ℕ → ℤ) => ∀ i < n, classMap i = alt.filterCoeffDeltaIdx i)
      (fun i hi => absurd hi (Nat.not_lt_zero i)) fun n hn _ classMap hmap => ?_
    obtain ⟨hlow, hhigh⟩ := h.classMap n hn
    have hcode : toU32 (alt.filterCoeffDeltaIdx n) = (alt.filterCoeffDeltaIdx n).toNat :=
      toU32_of_nonneg hlow (by omega)
    rw [hcode]
    have hfit : (alt.filterCoeffDeltaIdx n).toNat < 2 ^ ceilLog2 alt.numLumaFilters := by
      rw [hlength]
      omega
    refine (roundTrips_code (by omega) (by omega) hfit).then_right fun _ code hread => ⟨_, rfl, fun i hi => ?_⟩
    by_cases hin : i = n
    · rw [hin, update_self, i16_of_range (by omega) (by omega), hread]
      exact Int.toNat_of_nonneg hlow
    · rw [update_of_ne hin]
      exact hmap i (by omega)
  · have hi25 : i < MAX_NUM_ALF_CLASSES := by rwa [hclasses] at hi
    have hrange := h.classMap i hi
    rw [if_pos hi25]
    omega

theorem lumaAlternative_roundTrips {t : AlfFilterType} {a b : AlfLumaAlternative} (h : LumaWritable t.shape a) :
    RoundTrips True (codeAlfLumaAlternative t.shape a) (parseAlfLumaAlternative t.shape b)
      fun _ b => LumaRestored t.shape a b := by
  obtain ⟨hone, hmany⟩ := h.numLumaFilters
  rw [MAX_NUM_ALF_CLASSES] at hmany
  refine roundTrips_bind (roundTrips_flag _) fun _ classifier hclassifier => ?_
  refine roundTrips_bind (roundTrips_flag _) fun _ nonLinear hnonLinear => ?_
  rw [sub32_of_le hone (by omega)]
  refine roundTrips_bind (roundTrips_uvlc (by omega)) fun _ code hcode => ?_
  have hnum : code + 1 = a.numLumaFilters := by omega
  rw [hclassifier, hnum]
  refine roundTrips_bind (classMap_roundTrips b.filterCoeffDeltaIdx h) fun _ classMap hmap => ?_
  refine (filters_roundTrip h.filters hnonLinear).then_right fun _ filters hfilters => ⟨_, rfl, ?_⟩
  exact ⟨rfl, rfl, hmap, hfilters⟩

theorem chromaAlternative_roundTrips {t : AlfFilterType} {a b : AlfFilters}
    (h : FiltersWritable true t.shape 1 a) :
    RoundTrips True (codeAlfChromaAlternative t.shape a) (parseAlfChromaAlternative t.shape b)
      fun _ b => FiltersRestored t.shape 1 a b := by
  refine roundTrips_bind (roundTrips_flag _) fun _ nonLinear hnonLinear => ?_
  exact filters_roundTrip h hnonLinear

/-- Alternatives that come back one by one. -/
theorem alternatives_roundTrip {α : Type} {num : ℕ} {w : ℕ → WriteM Unit} {r : α → ReadM α} {Q : ℕ → α → Prop}
    (alternatives : ℕ → α) (h : ∀ altIdx < num, ∀ b, RoundTrips True (w altIdx) (r b) fun _ b => Q altIdx b) :
    RoundTrips True (loop (fun altIdx _ => w altIdx) num ())
      (loop (fun altIdx alternatives => do
        let alt ← r (alternatives altIdx)
        return update alternatives altIdx alt) num alternatives)
      fun _ alternatives => ∀ altIdx < num, Q altIdx (alternatives altIdx) := by
  refine roundTrips_loop (P := fun n _ (alternatives : ℕ → α) => ∀ altIdx < n, Q altIdx (alternatives altIdx))
    (fun altIdx hlt => absurd hlt (Nat.not_lt_zero altIdx)) fun n hn _ alternatives halt => ?_
  refine (h n hn (alternatives n)).then_right fun _ alt hQ => ⟨_, rfl, fun altIdx hlt => ?_⟩
  by_cases hin : altIdx = n
  · rw [hin, update_self]
    exact hQ
  · rw [update_of_ne hin]
    exact halt altIdx (by omega)

/-! ## Cross-component filters -/

theorem ccCoeff_roundTrips {v : ℤ} (h : v = 0 ∨ ∃ k ≤ 6, v.natAbs = 2 ^ k) :
    RoundTrips True (codeCcAlfCoeff v) readCcAlfCoeff fun _ u => u = v := by
  rw [codeCcAlfCoeff]
  by_cases hzero : v = 0
  · rw [if_pos hzero]
    refine (roundTrips_code (by decide) (by decide) (by decide)).then_right fun _ code hcode => ⟨0, ?_, hzero.symm⟩
    rw [if_pos hcode]
  · rw [if_neg hzero]
    obtain ⟨k, hk, habs⟩ : ∃ k ≤ 6, v.natAbs = 2 ^ k := h.resolve_left hzero
    have hlog : 1 + v.natAbs.log2 = k + 1 := by rw [habs, Nat.log2_two_pow, Nat.add_comm]
    rw [hlog]
    have hfit : k + 1 < 2 ^ CCALF_BITS_PER_COEFF_LEVEL := by
      rw [CCALF_BITS_PER_COEFF_LEVEL]
      omega
    refine roundTrips_bind (roundTrips_code (by decide) (by decide) hfit) fun _ code hcode => ?_
    rw [hcode, if_neg (Nat.succ_ne_zero k), Nat.add_sub_cancel, Nat.one_shiftLeft, ← habs]
    refine (roundTrips_flag _).then_right fun _ sign hsign => ⟨v, ?_, rfl⟩
    congr 1
    rw [hsign]
    simp only [decide_eq_true_eq]
    split <;> omega

theorem ccAlf_roundTrips {a b : CcAlfComp} (hnew : b.newCcAlfFilter = a.newCcAlfFilter)
    (h : a.newCcAlfFilter = true → CcWritable a) :
    RoundTrips True (codeCcAlf a) (parseCcAlf b) fun _ b => CcRestored a b := by
  refine roundTrips_ite (by rw [hnew]) (fun hon => ?_) fun hoff => roundTrips_pure ?_
  · obtain ⟨hone, hmany⟩ := (h hon).ccAlfFilterCount
    rw [MAX_NUM_CC_ALF_FILTERS] at hmany
    refine roundTrips_check (fun hlarge => absurd hlarge (by rw [MAX_NUM_CC_ALF_FILTERS]; omega)) fun _ => ?_
    refine roundTrips_check (fun hnone => absurd hnone (by omega)) fun _ => ?_
    refine roundTrips_bind (roundTrips_uvlc (by omega)) fun _ code hcode => ?_
    have hcount : (code + 1) % 2 ^ 8 = a.ccAlfFilterCount := by omega
    rw [hcount]
    dsimp only
    refine (rows_roundTrip a.ccAlfCoeff b.ccAlfCoeff fun filterIdx hidx i hi =>
      ccCoeff_roundTrips ((h hon).ccAlfCoeff filterIdx hidx i hi)).then_right fun _ coeff hcoeff => ⟨_, rfl, ?_⟩
    refine ⟨hnew, fun _ => rfl, fun _ filterIdx hidx => ?_, fun _ => hcoeff⟩
    by_cases hlt : filterIdx < a.ccAlfFilterCount
    · simp [hlt]
    · simp [hlt, hidx]
  · exact ⟨hnew, fun hon => absurd hon hoff, fun hon => absurd hon hoff, fun hon => absurd hon hoff⟩

/-! ## The parameter set -/

theorem luma_roundTrips {aps : AlfAps} {param : AlfParam} (h : Writable aps)
    (hflag : param.newFilterFlagLuma = aps.m_alfAPSParam.newFilterFlagLuma) :
    RoundTrips True (codeAlfLuma aps.m_alfAPSParam) (parseAlfLuma param) fun _ b =>
      b.newFilterFlagLuma = param.newFilterFlagLuma ∧ b.newFilterFlagChroma = param.newFilterFlagChroma ∧
      (aps.m_alfAPSParam.newFilterFlagLuma = true →
        b.filterTypeLuma = aps.m_alfAPSParam.filterTypeLuma ∧
        b.numAlternativesLuma = aps.m_alfAPSParam.numAlternativesLuma ∧
        ∀ altIdx < aps.m_alfAPSParam.numAlternativesLuma,
          LumaRestored aps.m_alfAPSParam.filterTypeLuma.shape (aps.m_alfAPSParam.luma altIdx) (b.luma altIdx)) := by
  refine roundTrips_ite (by rw [hflag]) (fun hon => ?_) fun hoff =>
    roundTrips_pure ⟨rfl, rfl, fun hon => absurd hon hoff⟩
  obtain ⟨hone, hmany⟩ := h.numAlternativesLuma hon
  rw [MAX_NUM_ALF_ALTERNATIVES_LUMA] at hmany
  rw [sub32_of_le hone (by omega)]
  refine roundTrips_bind (roundTrips_uvlc (by omega)) fun _ code hcode => ?_
  have hnum : code + 1 = aps.m_alfAPSParam.numAlternativesLuma := by omega
  rw [hnum]
  refine roundTrips_bind (roundTrips_flag _) fun _ ext hext => ?_
  have htype : (if ext = true then AlfFilterType.ALF_FILTER_9_EXT else AlfFilterType.ALF_FILTER_EXT) =
      aps.m_alfAPSParam.filterTypeLuma := by
    rcases h.filterTypeLuma hon with ht | ht <;> rw [hext, ht] <;> rfl
  rw [htype]
  dsimp only
  have halternatives := alternatives_roundTrip param.luma fun altIdx hlt b =>
    lumaAlternative_roundTrips (b := b) (h.luma hon altIdx hlt)
  refine halternatives.then_right fun _ luma hluma => ⟨_, rfl, ?_⟩
  exact ⟨rfl, rfl, fun _ => ⟨rfl, rfl, hluma⟩⟩

theorem chroma_roundTrips {aps : AlfAps} {param : AlfParam} (h : Writable aps)
    (hflag : param.newFilterFlagChroma = aps.m_alfAPSParam.newFilterFlagChroma) :
    RoundTrips True (codeAlfChroma aps.m_alfAPSParam) (parseAlfChroma param) fun _ b =>
      b.newFilterFlagLuma = param.newFilterFlagLuma ∧ b.newFilterFlagChroma = param.newFilterFlagChroma ∧
      b.filterTypeLuma = param.filterTypeLuma ∧ b.numAlternativesLuma = param.numAlternativesLuma ∧
      b.luma = param.luma ∧
      (aps.m_alfAPSParam.newFilterFlagChroma = true →
        b.filterTypeChroma = aps.m_alfAPSParam.filterTypeChroma ∧
        b.numAlternativesChroma = aps.m_alfAPSParam.numAlternativesChroma ∧
        ∀ altIdx < aps.m_alfAPSParam.numAlternativesChroma,
          FiltersRestored aps.m_alfAPSParam.filterTypeChroma.shape 1 (aps.m_alfAPSParam.chroma altIdx)
            (b.chroma altIdx)) := by
  refine roundTrips_ite (by rw [hflag]) (fun hon => ?_) fun hoff =>
    roundTrips_pure ⟨rfl, rfl, rfl, rfl, rfl, fun hon => absurd hon hoff⟩
  obtain ⟨hone, hmany⟩ := h.numAlternativesChroma hon
  rw [MAX_NUM_ALF_ALTERNATIVES_CHROMA] at hmany
  have htype := h.filterTypeChroma hon
  rw [sub32_of_le hone (by omega), htype]
  dsimp only
  refine roundTrips_bind (roundTrips_uvlc (by omega)) fun _ code hcode => ?_
  have hnum : code + 1 = aps.m_alfAPSParam.numAlternativesChroma := by omega
  rw [hnum]
  have halternatives := alternatives_roundTrip param.chroma fun altIdx hlt b =>
    chromaAlternative_roundTrips (b := b) (htype ▸ h.chroma hon altIdx hlt)
  refine halternatives.then_right fun _ chroma hchroma => ⟨_, rfl, ?_⟩
  exact ⟨rfl, rfl, rfl, rfl, rfl, fun _ => ⟨rfl, rfl, hchroma⟩⟩

/-- The flags for chroma come back, as zeros where there is no chroma. -/
theorem chromaFlags_roundTrip {aps : AlfAps} (h : Writable aps) :
    RoundTrips True (codeAlfChromaFlags aps) (parseAlfChromaFlags aps.chromaPresentFlag)
      fun _ flags => flags = (aps.m_alfAPSParam.newFilterFlagChroma, (aps.m_ccAlfAPSParam 0).newCcAlfFilter,
        (aps.m_ccAlfAPSParam 1).newCcAlfFilter) := by
  refine roundTrips_ite Iff.rfl (fun _ => ?_) fun hoff => roundTrips_pure ?_
  · refine roundTrips_bind (roundTrips_flag _) fun _ chroma hchroma => ?_
    refine roundTrips_bind (roundTrips_flag _) fun _ cb hcb => ?_
    refine (roundTrips_flag _).then_right fun _ cr hcr => ⟨_, rfl, ?_⟩
    rw [hchroma, hcb, hcr]
  · obtain ⟨hchroma, hcb, hcr⟩ := h.chromaPresent (Bool.eq_false_of_not_eq_true hoff)
    rw [hchroma, hcb, hcr]

/-- Both components, each with the flag that has been read for it. -/
theorem ccAlfs_roundTrip {aps : AlfAps} (h : Writable aps) (prior : ℕ → CcAlfComp) :
    RoundTrips True (loop (fun ccIdx _ => codeCcAlf (aps.m_ccAlfAPSParam ccIdx)) 2 ())
      (loop (fun ccIdx (ccAlf : ℕ → CcAlfComp) => do
        let comp ← parseCcAlf { ccAlf ccIdx with
          newCcAlfFilter := if ccIdx = 0 then (aps.m_ccAlfAPSParam 0).newCcAlfFilter
            else (aps.m_ccAlfAPSParam 1).newCcAlfFilter }
        return update ccAlf ccIdx comp) 2 prior)
      fun _ ccAlf => ∀ ccIdx < 2, CcRestored (aps.m_ccAlfAPSParam ccIdx) (ccAlf ccIdx) := by
  refine roundTrips_loop
    (P := fun n _ (ccAlf : ℕ → CcAlfComp) => ∀ ccIdx < n, CcRestored (aps.m_ccAlfAPSParam ccIdx) (ccAlf ccIdx))
    (fun ccIdx hlt => absurd hlt (Nat.not_lt_zero ccIdx)) fun n hn _ ccAlf hcc => ?_
  have hflag : (if n = 0 then (aps.m_ccAlfAPSParam 0).newCcAlfFilter else (aps.m_ccAlfAPSParam 1).newCcAlfFilter) =
      (aps.m_ccAlfAPSParam n).newCcAlfFilter := by
    by_cases h0 : n = 0
    · rw [if_pos h0, h0]
    · obtain rfl : n = 1 := by omega
      rfl
  refine (ccAlf_roundTrips hflag (h.ccAlf n hn)).then_right fun _ comp hcomp => ⟨_, rfl, fun ccIdx hlt => ?_⟩
  by_cases hin : ccIdx = n
  · rw [hin, update_self]
    exact hcomp
  · rw [update_of_ne hin]
    exact hcc ccIdx (by omega)

theorem roundTrips {aps prior : AlfAps} (h : Writable aps)
    (hchroma : prior.chromaPresentFlag = aps.chromaPresentFlag) :
    RoundTrips True (codeAlfAps aps) (parseAlfAps prior) fun _ b => Restored aps b := by
  refine roundTrips_bind (roundTrips_flag _) fun _ luma hluma => ?_
  rw [hchroma]
  refine roundTrips_bind (chromaFlags_roundTrip h) fun _ flags hflags => ?_
  subst hluma hflags
  have hsignalled : ¬(aps.m_alfAPSParam.newFilterFlagLuma = false ∧ aps.m_alfAPSParam.newFilterFlagChroma = false ∧
      (aps.m_ccAlfAPSParam 0).newCcAlfFilter = false ∧ (aps.m_ccAlfAPSParam 1).newCcAlfFilter = false) := by
    rintro ⟨h1, h2, h3, h4⟩
    have hsome := h.signalled
    simp [h1, h2, h3, h4] at hsome
  dsimp only
  rw [check_ok _ hsignalled, liftM_ok_bind]
  refine roundTrips_bind (luma_roundTrips h rfl) fun _ p hp => ?_
  obtain ⟨hpluma, hpchroma, hpalt⟩ := hp
  refine roundTrips_bind (chroma_roundTrips h hpchroma) fun _ q hq => ?_
  obtain ⟨hqluma, hqchroma, hqtype, hqnum, hqalt, hqchromaAlt⟩ := hq
  refine (ccAlfs_roundTrip h prior.m_ccAlfAPSParam).then_right fun _ ccAlf hcc => ⟨_, rfl, ?_⟩
  refine ⟨⟨hqluma.trans hpluma, hqchroma.trans hpchroma, fun hon => ?_, fun hon => ?_, fun hon => ?_,
    fun hon => (hqchromaAlt hon).1, fun hon => (hqchromaAlt hon).2.1, fun hon => (hqchromaAlt hon).2.2⟩, hcc⟩
  · exact hqtype.trans (hpalt hon).1
  · exact hqnum.trans (hpalt hon).2.1
  · rw [hqalt]
    exact (hpalt hon).2.2

/-! ## All of it together -/

/-- Coefficients in the range of their code, parameter sets with filters that can be written,
and parameter sets of luma mapping. -/
theorem parameterSets_roundTrip :
    (∀ (coeff : ℤ) (k : ℕ) (signed_coeff : Bool), AlfGolomb.InRange coeff k signed_coeff →
      RoundTrips True (alfGolombEncode coeff k signed_coeff) (alfGolombDecode k signed_coeff)
        fun _ v => v = coeff) ∧
    (∀ aps prior : AlfAps, Writable aps → prior.chromaPresentFlag = aps.chromaPresentFlag →
      RoundTrips True (codeAlfAps aps) (parseAlfAps prior) fun _ b => Restored aps b) ∧
    (∀ aps prior : LmcsAps, LmcsApsSyntax.Writable aps → prior.chromaPresentFlag = aps.chromaPresentFlag →
      RoundTrips True (codeLmcsAps aps) (parseLmcsAps prior) fun _ b => LmcsApsSyntax.Restored aps b) :=
  ⟨fun _ _ _ h => AlfGolomb.roundTrips h, fun _ _ h hchroma => roundTrips h hchroma,
    fun _ _ h hchroma => LmcsApsSyntax.roundTrips h hchroma⟩

/-- Two luma filters with clipping, a chroma filter without, and a cross-component filter. -/
def clippedAps : AlfAps where
  chromaPresentFlag := true
  m_alfAPSParam := { AlfParam.reset with
    newFilterFlagLuma := true
    newFilterFlagChroma := true
    filterTypeLuma := .ALF_FILTER_9_EXT
    filterTypeChroma := .ALF_FILTER_9
    luma := fun _ => ⟨⟨true, fun ind i => 40 * ind - 7 * i, fun _ i => (i % 4 : ℕ)⟩, true, 2,
      fun i => (i % 2 : ℕ)⟩
    chroma := fun _ => ⟨false, fun _ i => i - 3, fun _ _ => 0⟩ }
  m_ccAlfAPSParam ccIdx := { CcAlfComp.reset with
    newCcAlfFilter := ccIdx = 1, ccAlfFilterCount := 1, ccAlfCoeff := fun _ _ => -64 }

theorem clippedAps_writable : Writable clippedAps where
  signalled := .inl rfl
  chromaPresent := fun h => by cases h
  filterTypeLuma := fun _ => .inl rfl
  numAlternativesLuma := fun _ => by decide
  luma := fun _ altIdx _ => by
    refine ⟨by simp [clippedAps, MAX_NUM_ALF_CLASSES], fun i _ => ?_, fun ind hind i hi => ?_, fun _ ind _ i _ => ?_⟩
    · simp only [clippedAps]
      omega
    · simp only [clippedAps, AlfFilterType.shape, MAX_NUM_ALF_LUMA_COEFF, EXT_LENGTH] at hind hi
      simp only [clippedAps, CoeffFits, Bool.false_eq_true, if_false]
      omega
    · simp only [clippedAps]
      omega
  filterTypeChroma := fun _ => rfl
  numAlternativesChroma := fun _ => by decide
  chroma := fun _ altIdx _ => by
    refine ⟨fun ind _ i hi => ?_, fun h => by cases h⟩
    simp only [clippedAps, AlfFilterType.shape] at hi
    simp only [clippedAps, CoeffFits, if_true]
    omega
  ccAlf := fun _ _ _ => ⟨by simp [clippedAps, MAX_NUM_CC_ALF_FILTERS], fun _ _ _ _ => .inr ⟨6, by decide, rfl⟩⟩

/-- Four bins in use, with deltas of both signs. -/
def mappedAps : LmcsAps := ⟨true, 2, 5, fun i => i - 4, 4, -3⟩

theorem mappedAps_writable : LmcsApsSyntax.Writable mappedAps where
  minBin := by decide
  maxBin := by decide
  precision := by decide
  deltaCW := fun i hmin hmax => by
    simp only [mappedAps] at hmin hmax ⊢
    omega
  deltaCRS := fun _ => by decide

theorem parameterSets_roundTrip_clipped :
    RoundTrips True (alfGolombEncode (-5) 2 true) (alfGolombDecode 2 true) (fun _ v => v = -5) ∧
    RoundTrips True (codeAlfAps clippedAps) (parseAlfAps clippedAps) (fun _ b => Restored clippedAps b) ∧
    RoundTrips True (codeLmcsAps mappedAps) (parseLmcsAps mappedAps)
      (fun _ b => LmcsApsSyntax.Restored mappedAps b) :=
  ⟨parameterSets_roundTrip.1 (-5) 2 true ⟨by decide, fun h => by cases h⟩,
    parameterSets_roundTrip.2.1 clippedAps clippedAps clippedAps_writable rfl,
    parameterSets_roundTrip.2.2 mappedAps mappedAps mappedAps_writable rfl⟩

/-! ## What does not come back -/

/-- No new filter of any kind. -/
def quietAps : AlfAps := ⟨false, AlfParam.reset, fun _ => CcAlfComp.reset⟩

/-- A luma filter without clipping, and a clipping index that is not zero. -/
def unclippedAps : AlfAps := { quietAps with
  m_alfAPSParam := { AlfParam.reset with
    newFilterFlagLuma := true
    filterTypeLuma := .ALF_FILTER_EXT
    luma := fun _ => { AlfLumaAlternative.reset with coeff := fun _ _ => 3, clipp := fun _ _ => 1 } } }

theorem unclippedAps_writable : Writable unclippedAps where
  signalled := .inl rfl
  chromaPresent := fun _ => ⟨rfl, rfl, rfl⟩
  filterTypeLuma := fun _ => .inr rfl
  numAlternativesLuma := fun _ => by decide
  luma := fun _ _ _ => by
    refine ⟨?_, fun _ _ => ?_, fun _ _ _ _ => ?_, fun h => by cases h⟩
    · simp [unclippedAps, AlfLumaAlternative.reset, MAX_NUM_ALF_CLASSES]
    · simp [unclippedAps, AlfLumaAlternative.reset]
    · simp [unclippedAps, CoeffFits]
  filterTypeChroma := fun h => by cases h
  numAlternativesChroma := fun h => by cases h
  chroma := fun h => by cases h
  ccAlf := fun _ _ h => by cases h

/-- Only the bin 2 is in use, and the bin 3 has a delta. -/
def strayDeltaAps : LmcsAps := ⟨false, 2, 2, fun i => if i = 3 then 1 else 0, 4, 0⟩

theorem strayDeltaAps_writable : LmcsApsSyntax.Writable strayDeltaAps where
  minBin := by decide
  maxBin := by decide
  precision := by decide
  deltaCW := fun i hmin hmax => by
    obtain rfl : i = 2 := Nat.le_antisymm hmax hmin
    decide
  deltaCRS := fun h => by cases h

/-- The reader throws at a parameter set without any new filter, and it loses a clipping
index where there is no clipping and a delta of a bin that is not in use. -/
theorem parameterSets_lost :
    (¬RoundTrips True (codeAlfAps quietAps) (parseAlfAps quietAps) fun _ _ => True) ∧
    (¬RoundTrips True (codeAlfAps unclippedAps) (parseAlfAps quietAps) fun _ b =>
      (b.m_alfAPSParam.luma 0).clipp 0 0 = (unclippedAps.m_alfAPSParam.luma 0).clipp 0 0) ∧
    ¬RoundTrips True (codeLmcsAps strayDeltaAps) (parseLmcsAps strayDeltaAps) fun _ b =>
      b.reshaperModelBinCWDelta 3 = strayDeltaAps.reshaperModelBinCWDelta 3 := by
  refine ⟨fun h => ?_, fun h => ?_, fun h => ?_⟩
  · have hwrite : Writes (codeAlfAps quietAps) () [false] := (writes_flag false).silent (writes_pure ())
    obtain ⟨s', hs', happ⟩ := hwrite _ OutputBitstream.clear_wf
    have h := h _ OutputBitstream.clear_wf
    rw [hs'] at h
    obtain ⟨bits, b, happ', -, hread⟩ := h
    obtain rfl : bits = [false] := List.append_cancel_left (happ'.bits_eq.symm.trans happ.bits_eq)
    obtain ⟨fifo, rest, hat⟩ := exists_stream [false]
    obtain ⟨t, ht, -⟩ := hread _ _ _ _ hat
    obtain ⟨t', hflag, -⟩ := reads_flag false _ _ _ _ hat
    change (READ_FLAG (InputBitstream.ofFifo fifo) >>= _) = _ at ht
    rw [hflag] at ht
    cases ht
  · obtain ⟨_, b, hb, hclip⟩ := (roundTrips unclippedAps_writable rfl).both h
    have hzero := ((hb.param.luma rfl) 0 (by decide)).filters.clipp 0 (by decide) 0 (by decide)
    rw [hclip] at hzero
    exact absurd hzero (by decide)
  · obtain ⟨_, b, hb, hdelta⟩ := (LmcsApsSyntax.roundTrips strayDeltaAps_writable rfl).both h
    have hzero := hb.deltaCW 3 (by decide)
    rw [hdelta] at hzero
    exact absurd hzero (by decide)

end ECM.Hls.AlfApsSyntax
