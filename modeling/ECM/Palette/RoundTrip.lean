import ECM.Palette.IndexMap
import ECM.Palette.Predictor
import Mathlib.Algebra.Order.Group.Unbundled.Int

/-! # QP differences read back -/

namespace ECM.Palette
open CommonLib CommonLib.Bins CommonLib.Palette EncoderLib DecoderLib
open ECM.Cabac.Binarization Lib.Codec Lib.Loop

variable {strict : Prop}

/-! ## Quantization parameters -/

section Qp
variable {off : ℕ} {qp predQP : ℤ}

/-- The parameters of a sequence with the offset `off` for its bit depth. -/
def QpRange (off : ℕ) (qp : ℤ) : Prop := -(off : ℤ) ≤ qp ∧ qp ≤ 63

theorem wrapDQp_natAbs_lt (off : ℕ) (qp predQP : ℤ) : (CABACWriter.wrapDQp off qp predQP).natAbs < 97 + 2 * off := by
  have hlt := Int.tmod_lt_of_pos
    (qp - predQP + (MAX_QP + 1) + ((MAX_QP + 1) / 2 : ℕ) + off + (off / 2 : ℕ))
    (show (0 : ℤ) < (MAX_QP + 1) + off by rw [MAX_QP]; omega)
  have hgt := Int.lt_tmod_of_pos
    (qp - predQP + (MAX_QP + 1) + ((MAX_QP + 1) / 2 : ℕ) + off + (off / 2 : ℕ))
    (show (0 : ℤ) < (MAX_QP + 1) + off by rw [MAX_QP]; omega)
  rw [CABACWriter.wrapDQp]
  rw [MAX_QP] at *
  omega

/-- The difference is `qp - predQP` up to a multiple of the number of parameters. -/
theorem wrapDQp_spec (hqp : QpRange off qp) (hpred : QpRange off predQP) : ∃ k : ℤ,
    CABACWriter.wrapDQp off qp predQP = qp - predQP + (64 + off) * k ∧
      -(32 + (off / 2 : ℕ) : ℤ) ≤ CABACWriter.wrapDQp off qp predQP := by
  obtain ⟨hqp₀, hqp₁⟩ := hqp
  obtain ⟨hpred₀, hpred₁⟩ := hpred
  have hm : (0 : ℤ) < 64 + off := by omega
  have hx : (0 : ℤ) ≤ qp - predQP + (63 + 1) + 32 + off + (off / 2 : ℕ) := by omega
  have hmod := Int.emod_nonneg (qp - predQP + (63 + 1) + 32 + off + (off / 2 : ℕ)) (ne_of_gt hm)
  have hdiv := Int.emod_add_mul_ediv (qp - predQP + (63 + 1) + 32 + off + (off / 2 : ℕ)) (64 + off)
  have hwrap : CABACWriter.wrapDQp off qp predQP =
      (qp - predQP + (63 + 1) + 32 + off + (off / 2 : ℕ)) % (64 + off) - 32 - (off / 2 : ℕ) := by
    rw [← Int.tmod_eq_emod_of_nonneg hx]
    rfl
  refine ⟨1 - (qp - predQP + (63 + 1) + 32 + off + (off / 2 : ℕ)) / (64 + off), ?_, by omega⟩
  rw [hwrap, Int.mul_sub, Int.mul_one]
  omega

theorem qp_restored (hoff : off ≤ 48) (hqp : QpRange off qp) (hpred : QpRange off predQP) :
    CABACReader.toInt8 (if CABACWriter.wrapDQp off qp predQP ≠ 0 then
      (predQP + CABACWriter.wrapDQp off qp predQP + (MAX_QP + 1) + 2 * off).tmod ((MAX_QP + 1) + off) - off
    else predQP) = qp := by
  obtain ⟨k, hk, hge⟩ := wrapDQp_spec hqp hpred
  obtain ⟨hqp₀, hqp₁⟩ := hqp
  obtain ⟨hpred₀, hpred₁⟩ := hpred
  have hsame : (if CABACWriter.wrapDQp off qp predQP ≠ 0 then
      (predQP + CABACWriter.wrapDQp off qp predQP + (MAX_QP + 1) + 2 * off).tmod ((MAX_QP + 1) + off) - off
    else predQP) = qp := by
    by_cases hzero : CABACWriter.wrapDQp off qp predQP = 0
    · rw [if_neg (not_not.mpr hzero)]
      rw [hk] at hzero
      have hdvd : (64 + off : ℤ) ∣ predQP - qp := ⟨k, by omega⟩
      have heq := Int.eq_zero_of_abs_lt_dvd hdvd (abs_lt.mpr ⟨by omega, by omega⟩)
      omega
    · rw [if_pos hzero]
      have hnonneg : (0 : ℤ) ≤ predQP + CABACWriter.wrapDQp off qp predQP + (63 + 1) + 2 * off := by omega
      have hsum : predQP + CABACWriter.wrapDQp off qp predQP + (63 + 1) + 2 * off =
          (qp + off) + (64 + off) * (k + 1) := by
        rw [hk, Int.mul_add, Int.mul_one]
        omega
      have hmod : (predQP + CABACWriter.wrapDQp off qp predQP + (63 + 1) + 2 * off).tmod (64 + off) = qp + off := by
        rw [Int.tmod_eq_emod_of_nonneg hnonneg, hsum, Int.add_mul_emod_self_left,
          Int.emod_eq_of_lt (by omega) (by omega)]
      change (predQP + CABACWriter.wrapDQp off qp predQP + (63 + 1) + 2 * off).tmod (64 + off) - off = qp
      omega
  rw [hsame, CABACReader.toInt8]
  omega

theorem qpDelta_roundTrips (hoff : off ≤ 48) :
    RoundTrips strict (CABACWriter.cu_qp_delta off predQP qp) (CABACReader.cu_qp_delta off predQP)
      fun _ qp' => QpRange off qp → QpRange off predQP → qp' = qp := by
  rw [CABACWriter.cu_qp_delta, CABACReader.cu_qp_delta]
  have habs := wrapDQp_natAbs_lt off qp predQP
  have hrestored := @qp_restored off qp predQP hoff
  generalize CABACWriter.wrapDQp off qp predQP = DQp at habs hrestored ⊢
  refine roundTrips_bind (unary_max_symbol_roundTrips _ _ fun _ => Nat.min_le_right _ _) fun _ v hv => ?_
  rw [hv]
  have hmore : RoundTrips strict
      (if DQp.natAbs ≥ CU_DQP_TU_CMAX then
        CABACWriter.exp_golomb_eqprob (DQp.natAbs - CU_DQP_TU_CMAX) CU_DQP_EG_k else pure ())
      (if min DQp.natAbs CU_DQP_TU_CMAX ≥ CU_DQP_TU_CMAX then CABACReader.exp_golomb_eqprob CU_DQP_EG_k
        else pure 0) fun _ more => min DQp.natAbs CU_DQP_TU_CMAX + more = DQp.natAbs := by
    refine roundTrips_ite (by omega) (fun hge => ?_) fun hlt => roundTrips_pure (by omega)
    have h32 : DQp.natAbs - CU_DQP_TU_CMAX + 2 ^ CU_DQP_EG_k < 2 ^ 32 := by
      rw [CU_DQP_EG_k]
      omega
    exact (exp_golomb_eqprob_roundTrips h32).mono fun _ more hmore => by omega
  refine roundTrips_bind hmore fun _ more hmore => ?_
  rw [hmore]
  have hsign : RoundTrips strict (if DQp.natAbs > 0 then encodeBinEP (DQp < 0) else pure ())
      (CABACReader.qpDeltaSign DQp.natAbs) fun _ v => v = DQp := by
    refine roundTrips_ite Iff.rfl (fun _ => ?_) fun hzero => roundTrips_pure (by omega)
    refine (roundTrips_binEP _).then_right fun _ b hb => ⟨_, rfl, ?_⟩
    rw [hb]
    by_cases hneg : DQp < 0
    · rw [decide_eq_true hneg, if_pos rfl]
      omega
    · rw [decide_eq_false hneg, if_neg Bool.false_ne_true]
      omega
  refine hsign.then_right fun _ v hv => ⟨_, rfl, fun hqp hpred => ?_⟩
  rw [hv]
  exact hrestored hqp hpred

theorem chromaQpOffset_roundTrips (len qpAdj : ℕ) :
    RoundTrips False (CABACWriter.cu_chroma_qp_offset len qpAdj) (CABACReader.cu_chroma_qp_offset len)
      fun _ v => (1 < len ∨ qpAdj ≤ 1) → v = qpAdj := by
  rw [CABACWriter.cu_chroma_qp_offset, CABACReader.cu_chroma_qp_offset]
  by_cases hzero : qpAdj = 0
  · rw [if_pos hzero]
    refine (roundTrips_bin _ _).then_right fun _ b hb => ⟨0, ?_, fun _ => hzero.symm⟩
    rw [hb, if_neg fun h => Bool.false_ne_true h.1]
    rfl
  · rw [if_neg hzero]
    refine roundTrips_bind (roundTrips_bin _ _) fun _ b hb => ?_
    rw [hb]
    refine roundTrips_ite (by rw [and_iff_right rfl]) (fun hlen => ?_) fun hlen => roundTrips_pure fun h => ?_
    · refine (unary_max_symbol_roundTrips _ _ nofun).then_right fun _ v hv => ⟨_, rfl, fun _ => ?_⟩
      rw [hv, Bool.toNat_true]
      omega
    · rw [Bool.toNat_true]
      omega

end Qp

end ECM.Palette

/-! # Palette coding units read back -/

namespace ECM.Palette
open CommonLib CommonLib.Bins CommonLib.Palette EncoderLib DecoderLib Function
open ECM.Cabac.Binarization Lib.Codec Lib.Loop

variable {ctx : PaletteContext} {asserts : Bool} {cu cu' : PaletteCU} {cuCtx : CUCtx}

/-! ## The palette -/

section Entries
variable {f f' : ℕ → Bool} {n : ℕ}

theorem numReused_congr (h : ∀ k < n, f' k = f k) : numReused f' n = numReused f n := by
  induction n with
  | zero => rfl
  | succ n ih => rw [numReused, numReused, ih fun k hk => h k (Nat.lt_succ_of_lt hk), h n (Nat.lt_succ_self n)]

/-- Where a reused entry goes. -/
theorem reuseEntries_reused (h : ∀ k < n, f' k = f k) (prevPLT curPLT : ℕ → ℕ) {k : ℕ} (hk : k < n)
    (hf : f k = true) : CABACReader.reuseEntries f' prevPLT curPLT n (numReused f k) = prevPLT k := by
  induction n with
  | zero => exact absurd hk (Nat.not_lt_zero k)
  | succ n ih =>
    have hflags : ∀ k < n, f' k = f k := fun k hk => h k (Nat.lt_succ_of_lt hk)
    rw [CABACReader.reuseEntries, h n (Nat.lt_succ_self n), numReused_congr hflags]
    rcases Nat.lt_or_eq_of_le (Nat.le_of_lt_succ hk) with hlt | rfl
    · have hnext : numReused f k < numReused f n := by
        have hmono := numReused_mono (f := f) (show k + 1 ≤ n from hlt)
        rw [numReused, hf, Bool.toNat_true] at hmono
        exact hmono
      split_ifs
      · rw [update_of_ne (Nat.ne_of_lt hnext), ih hflags hlt]
      · exact ih hflags hlt
    · rw [if_pos hf, update_self]

/-- New entries leave the reused ones alone. -/
theorem newEntries_roundTrips (hle : cu.reusePLTSize ≤ cu.curPLTSize) (curPLT : ComponentID → ℕ → ℕ) :
    RoundTrips False (CABACWriter.newEntries ctx cu)
      (CABACReader.newEntries ctx cu.reusePLTSize cu.curPLTSize curPLT)
      fun _ plt => (∀ c ∈ ctx.comps, ∀ k, cu.reusePLTSize ≤ k → k < cu.curPLTSize → plt c k = cu.curPLT c k) ∧
        ∀ c, ∀ k < cu.reusePLTSize, plt c k = curPLT c k := by
  refine roundTrips_foldlM (P := fun d (plt : ComponentID → ℕ → ℕ) =>
    (∀ c ∈ d, ∀ k, cu.reusePLTSize ≤ k → k < cu.curPLTSize → plt c k = cu.curPLT c k) ∧
      ∀ c, ∀ k < cu.reusePLTSize, plt c k = curPLT c k) ⟨nofun, fun _ _ _ => rfl⟩ fun d compID plt _ hplt => ?_
  refine (roundTrips_loop (P := fun i _ (plt' : ComponentID → ℕ → ℕ) =>
    (∀ c, (c ∈ d ∨ c = compID) → ∀ k, cu.reusePLTSize ≤ k → k < cu.curPLTSize →
      (c = compID → k < cu.reusePLTSize + i) → plt' c k = cu.curPLT c k) ∧
      ∀ c, ∀ k < cu.reusePLTSize, plt' c k = curPLT c k) ⟨fun c hc k hk hlt hi => ?_, hplt.2⟩
    fun i hi _ plt' hplt' => ?_).mono fun _ plt' hplt' => ⟨fun c hc k hk hlt => ?_, hplt'.2⟩
  · rcases hc with hc | rfl
    · exact hplt.1 c hc k hk hlt
    · exact absurd (hi rfl) (Nat.not_lt.mpr hk)
  · refine (roundTrips_binsEP False.elim).then_right fun _ entry hentry => ⟨_, rfl, fun c hc k hk hlt hin => ?_,
      fun c k hk => ?_⟩
    · by_cases hcomp : c = compID
      · subst hcomp
        rw [update_self]
        by_cases hlast : k = cu.reusePLTSize + i
        · rw [hlast, update_self, hentry]
        · rw [update_of_ne hlast]
          refine hplt'.1 c hc k hk hlt fun _ => ?_
          have hin := hin rfl
          omega
      · rw [update_of_ne hcomp]
        exact hplt'.1 c hc k hk hlt fun heq => absurd heq hcomp
    · by_cases hcomp : c = compID
      · subst hcomp
        rw [update_self, update_of_ne (by omega)]
        exact hplt'.2 c k hk
      · rw [update_of_ne hcomp]
        exact hplt'.2 c k hk
  · refine hplt'.1 c ?_ k hk hlt fun _ => by omega
    rcases List.mem_append.mp hc with hc | hc
    · exact .inl hc
    · exact .inr (List.mem_singleton.mp hc)

end Entries

/-- What the writer puts out for the palette. -/
def codePalette (ctx : PaletteContext) (cu : PaletteCU) : BinPut Unit := do
  (if cu.lastPLTSize ≠ 0 then CABACWriter.xEncodePLTPredIndicator cu ctx.maxPltSize else pure () : BinPut Unit)
  (if numReused cu.reuseflag cu.lastPLTSize < ctx.maxPltSize then
      CABACWriter.exp_golomb_eqprob (cu.curPLTSize - numReused cu.reuseflag cu.lastPLTSize) 0
    else pure () : BinPut Unit)
  CABACWriter.newEntries ctx cu

theorem codePalette_roundTrips (hcons : Consistent ctx cu asserts) {cu₀ : PaletteCU}
    (hflags : ∀ k, cu₀.reuseflag k = false) :
    RoundTrips False (codePalette ctx cu) (CABACReader.parsePalette ctx cu₀)
      fun _ cu' => (∀ k < cu.lastPLTSize, cu'.reuseflag k = cu.reuseflag k) ∧ cu'.curPLTSize = cu.curPLTSize ∧
        (∀ compID ∈ ctx.comps, ∀ k < cu.lastPLTSize, cu.reuseflag k = true →
          cu'.curPLT compID (numReused cu.reuseflag k) = ctx.prevPLT compID k) ∧
        ∀ compID ∈ ctx.comps, ∀ k, cu.reusePLTSize ≤ k → k < cu.curPLTSize →
          cu'.curPLT compID k = cu.curPLT compID k := by
  have hlast := hcons.lastPLTSize
  have hreuse := hcons.reusePLTSize
  have hle := hcons.reusePLTSize_le
  have hmax := hcons.curPLTSize_le
  have hplt := maxPltSize_le ctx
  rw [codePalette, CABACReader.parsePalette]
  dsimp only
  rw [← hlast]
  have hpred : RoundTrips False
      (if cu.lastPLTSize ≠ 0 then CABACWriter.xEncodePLTPredIndicator cu ctx.maxPltSize else pure ())
      (if cu.lastPLTSize ≠ 0 then CABACReader.xDecodePLTPredIndicator cu.lastPLTSize ctx.maxPltSize cu₀.reuseflag
        else pure cu₀.reuseflag) fun _ f' => ∀ k < cu.lastPLTSize, f' k = cu.reuseflag k := by
    refine roundTrips_ite Iff.rfl (fun _ => ?_) fun hnone => roundTrips_pure fun k hk => ?_
    · exact predIndicator_roundTrips (by omega) (hlast ▸ ctx.prevPLTSize_le) hflags
    · omega
  refine roundTrips_bind hpred fun _ f' hf' => ?_
  rw [numReused_congr hf', ← hreuse]
  have hnum : RoundTrips False
      (if cu.reusePLTSize < ctx.maxPltSize then
        CABACWriter.exp_golomb_eqprob (cu.curPLTSize - cu.reusePLTSize) 0 else pure ())
      (if cu.reusePLTSize < ctx.maxPltSize then CABACReader.exp_golomb_eqprob 0 else pure 0)
      fun _ v => (cu.reusePLTSize + v) % 2 ^ 8 = cu.curPLTSize := by
    refine roundTrips_ite Iff.rfl (fun _ => ?_) fun hfull => roundTrips_pure (by omega)
    have h32 : cu.curPLTSize - cu.reusePLTSize + 2 ^ 0 < 2 ^ 32 := by omega
    exact (exp_golomb_eqprob_roundTrips h32).mono fun _ v hv => by omega
  refine roundTrips_bind hnum fun _ v hv => ?_
  rw [hv]
  refine (newEntries_roundTrips hle _).then_right fun _ plt hnew => ⟨_, rfl, hf', rfl, fun compID hc k hk hf => ?_,
    hnew.1⟩
  have hbelow : numReused cu.reuseflag k < cu.reusePLTSize := by
    have hmono := numReused_mono (f := cu.reuseflag) (show k + 1 ≤ cu.lastPLTSize from hk)
    rw [numReused, hf, Bool.toNat_true] at hmono
    omega
  change plt compID _ = _
  rw [hnew.2 compID _ hbelow, if_pos hc]
  exact reuseEntries_reused hf' _ _ hk hf

/-! ## The unit -/

/-- What the reader makes of the unit: the palette and the flags, the map, and the escape values that are sent. -/
structure Reproduced (ctx : PaletteContext) (cu : PaletteCU) (cuCtx cuCtx₁ : CUCtx) (p : PaletteCU × CUCtx) :
    Prop where
  head : SameHead ctx cu p.1
  curPLTIdx : ∀ n < ctx.total, p.1.curPLTIdx (posOf ctx cu n) = cu.curPLTIdx (posOf ctx cu n)
  runType : 1 < cu.indexMaxSize → ∀ n < ctx.total, p.1.runType (posOf ctx cu n) = cu.runType (posOf ctx cu n)
  escapeValue : ∀ compID ∈ ctx.comps, ∀ n < ctx.total, ∀ pos, Sent ctx cu compID n pos →
    p.1.escapeValue compID pos = cu.escapeValue compID pos
  qp : QpRange ctx.qpBDOffset cu.qp → QpRange ctx.qpBDOffset cuCtx.qp → p.2.qp = cuCtx₁.qp
  isDQPCoded : p.2.isDQPCoded = cuCtx₁.isDQPCoded
  isChromaQpAdjCoded : p.2.isChromaQpAdjCoded = cuCtx₁.isChromaQpAdjCoded

theorem qpBDOffset_le (ctx : PaletteContext) : ctx.qpBDOffset ≤ 48 := by
  have hdepth := ctx.bitDepth_le .luma
  rw [PaletteContext.qpBDOffset]
  omega

theorem codeQpDelta_roundTrips (h : SameHead ctx cu cu') :
    RoundTrips False (CABACWriter.codeQpDelta ctx cu cuCtx) (CABACReader.parseQpDelta ctx cu' cuCtx)
      fun cuCtx₁ p => SameHead ctx cu p.1 ∧ p.2.isDQPCoded = cuCtx₁.isDQPCoded ∧
        p.2.isChromaQpAdjCoded = cuCtx₁.isChromaQpAdjCoded ∧
        (QpRange ctx.qpBDOffset cu.qp → QpRange ctx.qpBDOffset cuCtx.qp → p.2.qp = cuCtx₁.qp) := by
  rw [CABACWriter.codeQpDelta, CABACReader.parseQpDelta, h.useEscape]
  refine roundTrips_ite Iff.rfl (fun _ => ?_) fun _ => roundTrips_pure ⟨h, rfl, rfl, fun _ _ => rfl⟩
  refine roundTrips_bind (qpDelta_roundTrips (qpBDOffset_le ctx)) fun _ qp hqp => roundTrips_pure ?_
  exact ⟨⟨h.reuseflag, h.curPLTSize, h.reused, h.new, rfl, h.useRotation⟩, rfl, rfl, hqp⟩

theorem codeChromaQpOffset_roundTrips {cuCtx₁ cuCtx₂ : CUCtx} (h : SameHead ctx cu cu')
    (hdqp : cuCtx₂.isDQPCoded = cuCtx₁.isDQPCoded) (hadj : cuCtx₂.isChromaQpAdjCoded = cuCtx₁.isChromaQpAdjCoded)
    {P : Prop} (hqp : P → cuCtx₂.qp = cuCtx₁.qp) :
    RoundTrips False (CABACWriter.codeChromaQpOffset ctx cu cuCtx₁) (CABACReader.parseChromaQpOffset ctx cu' cuCtx₂)
      fun c p => SameHead ctx cu p.1 ∧ p.2.isDQPCoded = c.isDQPCoded ∧
        p.2.isChromaQpAdjCoded = c.isChromaQpAdjCoded ∧ (P → p.2.qp = c.qp) := by
  rw [CABACWriter.codeChromaQpOffset, CABACReader.parseChromaQpOffset, h.useEscape, hadj]
  refine roundTrips_ite Iff.rfl (fun _ => ?_) fun _ => roundTrips_pure ⟨h, hdqp, hadj, hqp⟩
  refine roundTrips_bind (chromaQpOffset_roundTrips _ _) fun _ _ _ => roundTrips_pure ?_
  exact ⟨⟨h.reuseflag, h.curPLTSize, h.reused, h.new, rfl, h.useRotation⟩, hdqp, rfl, hqp⟩

/-- Without a palette every sample escapes, and that is not sent. -/
theorem useEscape_roundTrips (hcons : Consistent ctx cu asserts) :
    RoundTrips False (if cu.curPLTSize > 0 then encodeBinEP cu.useEscape else pure ())
      (if cu.curPLTSize > 0 then decodeBinEP else pure true) fun _ b => b = cu.useEscape := by
  refine roundTrips_ite Iff.rfl (fun _ => roundTrips_binEP _) fun hnone => roundTrips_pure ?_
  have hlt := hcons.index_lt 0 (Nat.mul_pos ctx.height_pos ctx.width_pos)
  rw [PaletteCU.indexMaxSize] at hlt
  by_contra hno
  rw [if_neg (Ne.symm hno)] at hlt
  omega

theorem useRotation_roundTrips (hsize : cu'.indexMaxSize = cu.indexMaxSize) :
    RoundTrips False (CABACWriter.codeScanRotationModeFlag cu) (CABACReader.parseScanRotationModeFlag cu')
      fun _ b => b = cu.useRotation := by
  rw [CABACWriter.codeScanRotationModeFlag, CABACReader.parseScanRotationModeFlag, hsize]
  refine roundTrips_ite Iff.rfl (fun _ => roundTrips_bin _ _) fun _ => ?_
  exact roundTrips_lift (fun _ _ => id) fun _ hc => (Bool.not_eq_true _ ▸ check_eq_ok hc).symm

theorem cu_palette_info_eq (ctx : PaletteContext) (cu : PaletteCU) (cuCtx : CUCtx) :
    CABACWriter.cu_palette_info ctx cu cuCtx = (codePalette ctx cu >>= fun _ => do
      (if cu.curPLTSize > 0 then encodeBinEP cu.useEscape else pure () : BinPut Unit)
      CABACWriter.codeScanRotationModeFlag cu
      let cuCtx ← CABACWriter.codeQpDelta ctx cu cuCtx
      let cuCtx ← CABACWriter.codeChromaQpOffset ctx cu cuCtx
      let _ ← loop (CABACWriter.cuPaletteSubblockInfo ctx cu) (((ctx.total - 1) >>> LOG2_PALETTE_CG_SIZE) + 1)
        ⟨0, .PLT_RUN_INDEX, fun _ => Palette.MAX_INT⟩
      check (cu.curPLTSize > ctx.maxPltSize) " Current palette size is larger than maximum palette size"
      return cuCtx) := by
  rw [codePalette, Put.bind_assoc]
  simp only [Put.bind_assoc]
  rfl

theorem cu_palette_info_roundTrips (hcons : Consistent ctx cu asserts) {cu₀ : PaletteCU}
    (hflags : ∀ k, cu₀.reuseflag k = false) :
    RoundTrips False (CABACWriter.cu_palette_info ctx cu cuCtx) (CABACReader.cu_palette_info ctx asserts cu₀ cuCtx)
      fun cuCtx₁ p => Reproduced ctx cu cuCtx cuCtx₁ p := by
  rw [cu_palette_info_eq, CABACReader.cu_palette_info]
  refine roundTrips_bind (codePalette_roundTrips hcons hflags) fun _ cu₁ hcu₁ => ?_
  obtain ⟨hreuse, hsize, hreused, hnew⟩ := hcu₁
  rw [hsize]
  refine roundTrips_bind (useEscape_roundTrips hcons) fun _ b hb => ?_
  rw [hb]
  refine roundTrips_bind (useRotation_roundTrips rfl) fun _ b hb => ?_
  rw [hb]
  refine roundTrips_bind (codeQpDelta_roundTrips ⟨hreuse, rfl, hreused, hnew, rfl, rfl⟩) fun cuCtx₁ p hp => ?_
  obtain ⟨cu₂, cuCtx₂⟩ := p
  obtain ⟨hhead, hdqp, hadj, hqp⟩ := hp
  refine roundTrips_bind (codeChromaQpOffset_roundTrips hhead hdqp hadj
    (fun hrange : QpRange ctx.qpBDOffset cu.qp ∧ QpRange ctx.qpBDOffset cuCtx.qp => hqp hrange.1 hrange.2))
    fun cuCtx₃ p hp => ?_
  obtain ⟨cu₃, cuCtx₄⟩ := p
  obtain ⟨hhead, hdqp, hadj, hqp⟩ := hp
  refine roundTrips_bind (indexMap_roundTrips hcons hhead _) fun _ p hp => ?_
  obtain ⟨st, cu₄⟩ := p
  dsimp only at hp ⊢
  refine roundTrips_lift_left (fun _ _ => id) fun _ _ => ?_
  rw [hp.head.curPLTSize]
  refine roundTrips_lift_right (check_ok _ (Nat.not_lt.mpr hcons.curPLTSize_le)) (roundTrips_pure ?_)
  exact ⟨hp.head, hp.curPLTIdx, hp.runType, fun c hc n hn => hp.escapeValue c n (.inl ⟨hc, hn⟩),
    fun h h' => hqp ⟨h, h'⟩, hdqp, hadj⟩

/-- Whenever the writer returns, the reader takes exactly its bins, each with its context,
from whatever unit without reuse flags it starts. -/
theorem palette_roundTrip (hcons : Consistent ctx cu asserts) {cu₀ : PaletteCU} (hflags : ∀ k, cu₀.reuseflag k = false)
    {cuCtx₁ : CUCtx} {bins : List Bin} (hwrite : CABACWriter.cu_palette_info ctx cu cuCtx = .ok (cuCtx₁, bins)) :
    ∃ p, Reproduced ctx cu cuCtx cuCtx₁ p ∧
      ∀ rest, CABACReader.cu_palette_info ctx asserts cu₀ cuCtx (bins ++ rest) = .ok (p, rest) := by
  have hreads := @cu_palette_info_roundTrips ctx asserts cu cuCtx hcons cu₀ hflags
  rw [hwrite] at hreads
  exact hreads

/-! ### A small unit -/

theorem bitDepth_le_sixteen (_ : ChannelType) : 8 ≤ 16 := by decide

def smallBlock : PaletteContext where
  compBegin := .Y
  numComp := 3
  width := 2
  height := 2
  chType := .luma
  isDualITree := false
  chromaFormatIdc := .chroma420
  bitDepths _ := 8
  useDQP := true
  useChromaQpAdj := false
  chromaQpOffsetListLen := 0
  prevPLTSize := 3
  prevPLT _ k := 10 * k
  width_pos := by decide
  height_pos := by decide
  bitDepth_le := bitDepth_le_sixteen
  prevPLTSize_le := by decide

/-- Two entries are reused and one is new; a new entry, a copy of it, and an escape. -/
def smallUnit : PaletteCU where
  lastPLTSize := 3
  reuseflag k := k = 0 ∨ k = 2
  reusePLTSize := 2
  curPLTSize := 3
  curPLT _ _ := 200
  useEscape := true
  useRotation := false
  runType pos := if pos = ⟨1, 1⟩ then .PLT_RUN_COPY else .PLT_RUN_INDEX
  curPLTIdx pos := if pos = ⟨0, 0⟩ then 0 else if pos = ⟨0, 1⟩ then 3 else 2
  escapeValue _ _ := 17
  qp := 30
  chromaQpAdj := 0

theorem smallUnit_consistent : Consistent smallBlock smallUnit true where
  lastPLTSize := rfl
  reusePLTSize := by decide
  reusePLTSize_le := by decide
  curPLTSize_le := by decide
  index_lt := by decide
  copied := by decide
  escapeValue_le _ _ _ _ _ _ := by
    change 17 ≤ Palette.MAX_INT ∧ (true = true → 17 < 1 <<< (8 + 1))
    decide

theorem smallUnit_written : ((CABACWriter.cu_palette_info smallBlock smallUnit ⟨32, false, false⟩).toOption.any
    fun _ => true) = true := by
  decide +kernel

theorem smallUnit_read : ∃ cuCtx₁ bins p, Reproduced smallBlock smallUnit ⟨32, false, false⟩ cuCtx₁ p ∧
    ∀ rest, CABACReader.cu_palette_info smallBlock true { smallUnit with reuseflag := fun _ => false }
      ⟨32, false, false⟩ (bins ++ rest) = .ok (p, rest) := by
  obtain ⟨⟨cuCtx₁, bins⟩, hwrite, _⟩ := exists_ok_of_any smallUnit_written
  exact ⟨cuCtx₁, bins, palette_roundTrip smallUnit_consistent (fun _ => rfl) hwrite⟩

end ECM.Palette
