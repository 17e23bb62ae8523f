import ECM.Cabac.VectorDifferences
import Mathlib.Tactic.LinearCombination
import Mathlib.Tactic.Positivity

/-! # Predicted signs of motion vector differences

A unit whose signs are predicted sends the absolute values of its differences, then their precision,
then an index with one bit for each sign. The reader starts from absolute values in the precision that
they were sent in, and comes to the contexts of the writer. -/

namespace ECM.Motion.SignPrediction
open CommonLib CommonLib.Bins CommonLib.RefPicList EncoderLib DecoderLib Function List
open ECM.Cabac.Binarization ECM.Cabac.VectorDifferences Lib.Codec

variable {strict : Prop}

/-! ## Precisions -/

/-- Binary digits of the internal precision that are not sent. -/
def amvrShift : Bool → ImvMode → ℕ
  | false, .IMV_OFF => 2
  | false, .IMV_FPEL => 4
  | false, .IMV_4PEL => 6
  | false, .IMV_HPEL => 3
  | true, .IMV_OFF => 2
  | true, .IMV_FPEL => 0
  | true, .IMV_4PEL => 4
  | true, .IMV_HPEL => 0

/-- A vector in units of `2 ^ s`. -/
def sent (s : ℕ) (mv : Mv) : Mv := ⟨mv.hor / 2 ^ s, mv.ver / 2 ^ s⟩

/-- Both components are multiples of `2 ^ s`. -/
def Multiple (s : ℕ) (mv : Mv) : Prop := 2 ^ s ∣ mv.hor ∧ 2 ^ s ∣ mv.ver

/-- The vector without its signs. -/
def absSent (s : ℕ) (mv : Mv) : Mv := (sent s mv).getAbsMv

theorem pow_ne (s : ℕ) : (2 : ℤ) ^ s ≠ 0 := pow_ne_zero s two_ne_zero

theorem shiftRight_add {t r : ℤ} {n : ℕ} (h0 : 0 ≤ r) (hr : r < 2 ^ n) : (t * 2 ^ n + r) >>> n = t := by
  rw [Int.shiftRight_eq_div_pow, Int.add_comm]
  push_cast
  rw [Int.add_mul_ediv_right _ _ (pow_ne n), Int.ediv_eq_zero_of_lt h0 hr, Int.zero_add]

/-- Rounding does nothing to a multiple. -/
theorem changeComponent_down {v : ℤ} {s : ℕ} (hv : 2 ^ s ∣ v) : Mv.changeComponent (-(s : ℤ)) v = v / 2 ^ s := by
  obtain ⟨t, rfl⟩ := hv
  rw [Int.mul_ediv_cancel_left t (pow_ne s), Mv.changeComponent]
  cases s with
  | zero => simp
  | succ k =>
    have hpos : (0 : ℤ) < 2 ^ k := by positivity
    have hdouble : (2 : ℤ) ^ (k + 1) = 2 * 2 ^ k := by rw [pow_succ, mul_comm]
    have hneg : ¬(-((k + 1 : ℕ) : ℤ)) ≥ 0 := by omega
    have hshift : (-(-((k + 1 : ℕ) : ℤ))).toNat = k + 1 := by omega
    rw [if_neg hneg]
    dsimp only
    rw [hshift, Nat.add_sub_cancel, mul_comm ((2 : ℤ) ^ (k + 1)) t]
    split
    · rw [add_sub_assoc]
      exact shiftRight_add (by omega) (by omega)
    · exact shiftRight_add (by omega) (by omega)

theorem changeComponent_up (v : ℤ) (s : ℕ) : Mv.changeComponent (s : ℤ) v = v * 2 ^ s := by
  rw [Mv.changeComponent, if_pos (Int.natCast_nonneg s), Int.toNat_natCast]

/-- What the writer does to a difference before it is sent. -/
theorem internal2Amvr {affine : Bool} {imv : ImvMode} (himv : affine = true → imv ≠ .IMV_HPEL) {mv : Mv}
    (hmv : Multiple (amvrShift affine imv) mv) :
    (if affine then mv.changeAffinePrecInternal2Amvr imv else mv.changeTransPrecInternal2Amvr imv) =
      .ok (sent (amvrShift affine imv) mv) := by
  obtain ⟨hhor, hver⟩ := hmv
  cases affine <;> cases imv <;> first
    | exact absurd rfl (himv rfl)
    | exact congrArg Except.ok (congrArg₂ Mv.mk (changeComponent_down hhor) (changeComponent_down hver))

/-- What the reader does to an absolute value before it looks at its size. -/
theorem amvr2Internal {affine : Bool} {imv : ImvMode} (himv : affine = true → imv ≠ .IMV_HPEL) (mv : Mv) :
    (if affine then mv.changeAffinePrecAmvr2Internal imv else mv.changeTransPrecAmvr2Internal imv) =
      .ok ⟨mv.hor * 2 ^ amvrShift affine imv, mv.ver * 2 ^ amvrShift affine imv⟩ := by
  cases affine <;> cases imv <;> first
    | exact absurd rfl (himv rfl)
    | exact congrArg Except.ok (congrArg₂ Mv.mk (changeComponent_up _ _) (changeComponent_up _ _))

/-! ## The bits of an index -/

/-- The components that have a sign. -/
def numSigns (vs : List ℤ) : ℕ := vs.countP (· ≠ 0)

/-- A component, what the reader has of it, and what it takes for its absolute value in internal precision. -/
def SameSize (v : ℤ) (p : ℤ × ℤ) : Prop := (p.1 = 0 ↔ v = 0) ∧ (v ≠ 0 → p.2 = v.natAbs)

/-- The lowest bit, and the others. -/
theorem emod_two_mul (x : ℤ) {m : ℤ} (hm : 0 < m) : x % (2 * m) = x % 2 + 2 * (x / 2 % m) := by
  have hx : x = x % 2 + 2 * (x / 2 % m) + 2 * m * (x / 2 / m) := by
    have hhalf := Int.emod_add_mul_ediv x 2
    have hrest := Int.emod_add_mul_ediv (x / 2) m
    linear_combination -hhalf - 2 * hrest
  have hlow := Int.emod_nonneg (x / 2) (Int.ne_of_gt hm)
  have hhigh := Int.emod_lt_of_pos (x / 2) hm
  conv_lhs => rw [hx]
  rw [Int.add_mul_emod_self_left, Int.emod_eq_of_lt (by omega) (by omega)]

/-- The reader adds the bits of the index to what it has. -/
theorem mvsdBins_roundTrips (thres : ℤ) (ctxId : ℕ) : ∀ {vs : List ℤ} {ps : List (ℤ × ℤ)} (mvsdIdx : ℤ) (acc shift : ℕ),
    List.Forall₂ SameSize vs ps →
    RoundTrips strict (CABACWriter.mvsdBins thres ctxId vs mvsdIdx) (CABACReader.mvsdBins thres ctxId ps acc shift)
      fun _ idx => (idx : ℤ) = acc + mvsdIdx % 2 ^ numSigns vs * 2 ^ shift
  | [], [], mvsdIdx, acc, shift, _ => roundTrips_pure (by simp [numSigns])
  | v :: vs, (w, abs) :: ps, mvsdIdx, acc, shift, .cons ⟨hzero, habs⟩ hrest => by
    refine roundTrips_ite (not_congr hzero.symm) (fun hv => ?_) fun hv => ?_
    · dsimp only at habs
      rw [habs hv]
      refine roundTrips_bind (roundTrips_bin _ _) fun _ b hb => ?_
      refine (mvsdBins_roundTrips thres ctxId (mvsdIdx >>> (1 : ℕ)) _ _ hrest).mono fun _ idx hidx => ?_
      have hcount : numSigns (v :: vs) = numSigns vs + 1 := by
        rw [numSigns, countP_cons_of_pos (by simpa using hv), numSigns]
      have hbit : (b.toNat : ℤ) = mvsdIdx % 2 := by
        rw [hb]
        rcases Int.emod_two_eq_zero_or_one mvsdIdx with h | h <;> simp [h]
      have hhalf : mvsdIdx >>> (1 : ℕ) = mvsdIdx / 2 := Int.shiftRight_eq_div_pow mvsdIdx 1
      rw [hidx, hcount, hhalf, pow_succ' (2 : ℤ) (numSigns vs), emod_two_mul mvsdIdx (by positivity), Nat.shiftLeft_eq,
        pow_succ]
      push_cast
      rw [hbit]
      ring
    · have hcount : numSigns (v :: vs) = numSigns vs := by
        rw [numSigns, countP_cons_of_neg (by simpa using hv), numSigns]
      rw [hcount]
      exact mvsdBins_roundTrips thres ctxId mvsdIdx acc shift hrest

/-! ## Signs that are sent -/

/-- A difference that the reader takes when only its size is sent. -/
def Fits (s : ℕ) (mv : Mv) : Prop :=
  Multiple s mv ∧ ((sent s mv).hor.natAbs : ℤ) ≤ MVD_MAX ∧ ((sent s mv).ver.natAbs : ℤ) ≤ MVD_MAX

theorem explicitSign_roundTrips {v : ℤ} {s : ℕ} (hdvd : 2 ^ s ∣ v) (hle : ((v / 2 ^ s).natAbs : ℤ) ≤ MVD_MAX) :
    RoundTrips strict (CABACWriter.explicitSign v) (CABACReader.explicitSign (v / 2 ^ s).natAbs)
      fun _ w => w = v / 2 ^ s := by
  obtain ⟨t, rfl⟩ := hdvd
  have hpos : (0 : ℤ) < 2 ^ s := by positivity
  rw [Int.mul_ediv_cancel_left t (pow_ne s)] at hle ⊢
  rw [MVD_MAX] at hle
  refine roundTrips_ite (not_congr ?_) (fun _ => ?_) fun hzero => roundTrips_pure ?_
  · rw [mul_eq_zero, or_iff_right (pow_ne s)]
    omega
  · have hsign : 2 ^ s * t < 0 ↔ t < 0 := by
      rw [mul_neg_iff]
      omega
    rw [decide_eq_decide.mpr hsign]
    exact signBin_roundTrips (by omega)
  · rw [not_not, mul_eq_zero, or_iff_right (pow_ne s)] at hzero
    rw [hzero]
    rfl

theorem explicitSigns_roundTrips {mv : Mv} {s : ℕ} (hmv : Fits s mv) :
    RoundTrips strict (do
      CABACWriter.explicitSign mv.hor
      CABACWriter.explicitSign mv.ver) (CABACReader.explicitSigns (absSent s mv)) fun _ mv' => mv' = sent s mv := by
  obtain ⟨⟨hhor, hver⟩, hhorLe, hverLe⟩ := hmv
  refine roundTrips_bind (explicitSign_roundTrips hhor hhorLe) fun _ hor hhor' => ?_
  refine (explicitSign_roundTrips hver hverLe).then_right fun _ ver hver' => ⟨_, rfl, ?_⟩
  rw [hhor', hver', sent]

/-! ## Units -/

/-- The differences of a list. -/
def diffs (pu : PredictionUnit) (l : RefPicList) : List Mv := if pu.affine then pu.affineMvds l else [pu.mvd l]

/-- The unit predicts from the list, and its differences are sent or follow from those that are. -/
def InUse (flags : MvdFlags) (pu : PredictionUnit) : RefPicList → Prop
  | REF_PIC_LIST_0 => pu.interDir ≠ 2
  | REF_PIC_LIST_1 => pu.interDir ≠ 1 ∧ pu.mvdL1Zero flags = false

/-- The differences of the list follow from those of the other. -/
def Mirrored (pu : PredictionUnit) (l : RefPicList) : Prop := pu.smvdMode ≠ 0 ∧ l = REF_PIC_LIST_1

/-- The signs of list 1 are sent as they are, since list 0 has differences of its own. -/
def Explicit (flags : MvdFlags) (pu : PredictionUnit) (l : RefPicList) : Prop :=
  flags.useARL = true ∧ pu.interDir = 3 ∧ l = REF_PIC_LIST_1 ∧ (diffs pu REF_PIC_LIST_0).any Mv.isNonZero = true

/-- The unit is in merge mode for one of the lists. -/
def AmvpMerge (pu : PredictionUnit) : Prop :=
  pu.amvpMergeModeFlag REF_PIC_LIST_0 = true ∨ pu.amvpMergeModeFlag REF_PIC_LIST_1 = true

/-- A unit whose signs are predicted, and that the syntax can express. -/
structure Sendable (flags : MvdFlags) (pu : PredictionUnit) : Prop where
  applicable : pu.isMvsdApplicable flags = true
  fits : ∀ l, InUse flags pu l → ∀ mv ∈ diffs pu l, Fits (amvrShift pu.affine pu.imv) mv
  affineImv : pu.affine = true → pu.imv ≠ .IMV_HPEL
  /-- A precision that is not sent is the first. -/
  transOff : pu.affine = false → flags.amvrEnabledFlag = false ∨ AmvpMerge pu → pu.imv = .IMV_OFF
  affineOff : pu.affine = true → flags.affineAmvrEnabledFlag = false → pu.imv = .IMV_OFF
  /-- `amvpMerge_mode` -/
  amvpMerge : AmvpMerge pu → pu.interDir = 3 ∧ pu.affine = false ∧ pu.smvdMode = 0
  mergeZero : ∀ l, pu.amvpMergeModeFlag l = true → pu.mvd l = .zero
  amvpZero : ∀ l, pu.amvpMergeModeFlag l.other = true → pu.mvpIdx l < 2 → pu.mvd l = .zero
  /-- `smvd_mode` -/
  smvdMode : pu.smvdMode ≠ 0 → pu.smvdMode = 1 ∧ pu.interDir = 3 ∧ pu.affine = false
  mirrored : pu.smvdMode ≠ 0 → pu.mvd REF_PIC_LIST_1 =
    ⟨-(pu.mvd REF_PIC_LIST_0).hor, -(pu.mvd REF_PIC_LIST_0).ver⟩
  /-- `inter_pred_idc` -/
  unrestricted : pu.interDir = 3 → pu.isBipredRestriction = false
  /-- What the writer checks of an index. -/
  indexed : ∀ l, InUse flags pu l → ¬Mirrored pu l → ¬Explicit flags pu l → (diffs pu l).any Mv.isNonZero = true →
    pu.mvsdIdx l ≠ -1

/-- The unit of the reader, of which everything but the differences is known. -/
def reading (pu : PredictionUnit) (imv : ImvMode) (mvd : RefPicList → Mv) (mvdAffi : RefPicList → ℕ → Mv)
    (mvsdIdx : RefPicList → ℤ) : PredictionUnit :=
  { pu with imv, mvd, mvdAffi, mvsdIdx, numAddHyps := 0, numMergedAddHyps := 0 }

/-- The unit of the reader before the differences are read. -/
def begun (pu : PredictionUnit) : PredictionUnit :=
  reading pu .IMV_OFF (fun _ => .zero) (fun _ _ => .zero) fun _ => -1

section
variable {flags : MvdFlags} {pu : PredictionUnit} {l : RefPicList} {imv : ImvMode} {m : RefPicList → Mv}
  {a : RefPicList → ℕ → Mv} {x : RefPicList → ℤ}

theorem reading_applicable (h : Sendable flags pu) : (reading pu imv m a x).isMvsdApplicable flags = true := by
  have huse : flags.useMVSD = true := (Bool.and_eq_true_iff.mp h.applicable).1
  rw [PredictionUnit.isMvsdApplicable, huse]
  rfl

theorem diffs_affine (haffine : pu.affine = true) :
    diffs (reading pu imv m a x) l = (List.range pu.numControlPoints).map (a l) := if_pos haffine

theorem diffs_trans (haffine : pu.affine = false) : diffs (reading pu imv m a x) l = [m l] :=
  if_neg (by rw [Bool.not_eq_true]; exact haffine)

/-! ## Sizes -/

theorem mvd_roundTrips {mv : Mv} (hmv : Fits (amvrShift pu.affine pu.imv) mv) :
    RoundTrips True (CABACWriter.mvd_coding (sent (amvrShift pu.affine pu.imv) mv) .IMV_OFF false)
      (CABACReader.mvd_coding false) fun _ mv' => mv' = absSent (amvrShift pu.affine pu.imv) mv := by
  obtain ⟨-, hhor, hver⟩ := hmv
  have hlegal : ∀ v : ℤ, (v.natAbs : ℤ) ≤ MVD_MAX → Mv.Legal v ∧ Mv.Legal v.natAbs := fun v hv => by
    unfold Mv.Legal MVD_MIN MVD_MAX at *
    omega
  have hcode := @mvd_coding_roundTrips True (sent (amvrShift pu.affine pu.imv) mv) (hlegal _ hhor).1
    (hlegal _ hver).1 .IMV_OFF false ⟨(hlegal _ hhor).2, (hlegal _ hver).2⟩
  simp only [unit, mul_one] at hcode
  exact hcode

theorem absSent_zero (s : ℕ) : absSent s .zero = .zero := by
  simp only [absSent, sent, Mv.zero, Mv.getAbsMv, Int.zero_ediv]
  rfl

/-- The sizes of a list, and nothing of the other, where it is coded. -/
def HasSizes (pu : PredictionUnit) (l : RefPicList) (m : RefPicList → Mv) (a : RefPicList → ℕ → Mv)
    (x : RefPicList → ℤ) (pu' : PredictionUnit) : Prop :=
  ∃ m' a', pu' = reading pu .IMV_OFF m' a' x ∧
    diffs pu' l = (diffs pu l).map (absSent (amvrShift pu.affine pu.imv)) ∧ m' l.other = m l.other ∧ a' l.other = a l.other

theorem affine_sizes (h : Sendable flags pu) (hl : InUse flags pu l) (haffine : pu.affine = true) :
    RoundTrips True
      ((List.range pu.numControlPoints).forM fun i => (do
        let mvd ← (pu.mvdAffi l i).changeAffinePrecInternal2Amvr pu.imv
        CABACWriter.mvd_coding mvd .IMV_OFF (!pu.isMvsdApplicable flags) : BinPut Unit))
      ((List.range pu.numControlPoints).foldlM (fun pu i => do
        let mvd ← CABACReader.mvd_coding (!pu.isMvsdApplicable flags)
        return pu.setMvdAffi l i mvd) (reading pu .IMV_OFF m a x))
      fun _ pu' => HasSizes pu l m a x pu' := by
  have hother : l.other ≠ l := by cases l <;> decide
  refine (roundTrips_foldlM (P := fun done b => ∃ a', b = reading pu .IMV_OFF m a' x ∧
      (∀ i ∈ done, a' l i = absSent (amvrShift pu.affine pu.imv) (pu.mvdAffi l i)) ∧ a' l.other = a l.other)
    ⟨a, rfl, fun i hi => absurd hi not_mem_nil, rfl⟩ ?_).mono fun _ pu' hpu' => ?_
  · intro done i b hdone hb
    obtain ⟨left, hleft⟩ := hdone
    obtain ⟨a', rfl, ha', hrest⟩ := hb
    have hi : i ∈ List.range pu.numControlPoints := hleft ▸ mem_append_right _ mem_cons_self
    have hmem : pu.mvdAffi l i ∈ diffs pu l := by
      rw [diffs, if_pos haffine]
      exact mem_map_of_mem hi
    have hfits := h.fits l hl _ hmem
    have hdown := internal2Amvr h.affineImv hfits.1
    rw [if_pos haffine] at hdown
    rw [hdown, Put.lift_ok_bind, h.applicable, reading_applicable h]
    refine (mvd_roundTrips hfits).then_right fun _ mv hmv => ⟨_, rfl, _, rfl, fun j hj => ?_, ?_⟩
    · rw [update_self]
      by_cases hji : j = i
      · rw [hji, update_self, hmv]
      · rw [update_of_ne hji]
        exact ha' j ((mem_append.mp hj).resolve_right fun hmem => hji (mem_singleton.mp hmem))
    · rw [update_of_ne hother]
      exact hrest
  · obtain ⟨a', rfl, ha', hrest⟩ := hpu'
    refine ⟨m, a', rfl, ?_, rfl, hrest⟩
    rw [diffs_affine haffine, diffs, if_pos haffine, PredictionUnit.affineMvds, map_map]
    exact map_congr_left ha'

theorem codeMvds_roundTrips (h : Sendable flags pu) (hl : InUse flags pu l) :
    RoundTrips True (CABACWriter.codeMvds flags pu l) (CABACReader.parseMvds flags (reading pu .IMV_OFF m a x) l)
      fun _ pu' => HasSizes pu l m a x pu' := by
  have hother : l.other ≠ l := by cases l <;> decide
  refine roundTrips_ite Iff.rfl (fun haffine => affine_sizes h hl haffine) fun hnot => ?_
  have haffine : pu.affine = false := Bool.eq_false_of_not_eq_true hnot
  have hdiffs : diffs pu l = [pu.mvd l] := if_neg hnot
  refine roundTrips_ite Iff.rfl (fun hmerge => ?_) fun _ => ?_
  · obtain ⟨hflag, hidx⟩ := Bool.and_eq_true_iff.mp hmerge
    have hzero := h.amvpZero l hflag (of_decide_eq_true hidx)
    have hhor : ∀ msg, check (Mv.zero.hor ≠ 0) msg = .ok () := fun msg => check_ok msg (not_not.mpr rfl)
    have hver : ∀ msg, check (Mv.zero.ver ≠ 0) msg = .ok () := fun msg => check_ok msg (not_not.mpr rfl)
    rw [hzero, hhor, Put.lift_ok_bind, hver]
    refine roundTrips_pure ⟨_, _, rfl, ?_, update_of_ne hother _ _, rfl⟩
    rw [hdiffs, hzero, map_singleton, absSent_zero]
    exact (diffs_trans haffine).trans (congrArg (fun mv => [mv]) (update_self ..))
  · have hfits := h.fits l hl (pu.mvd l) (by rw [hdiffs]; exact mem_singleton_self _)
    have hdown := internal2Amvr h.affineImv hfits.1
    rw [if_neg hnot] at hdown
    rw [hdown, Put.lift_ok_bind, h.applicable, reading_applicable h]
    refine (mvd_roundTrips hfits).then_right fun _ mv hmv => ⟨_, rfl, _, _, rfl, ?_, update_of_ne hother _ _, rfl⟩
    rw [hdiffs, map_singleton, ← hmv]
    exact (diffs_trans haffine).trans (congrArg (fun mv => [mv]) (update_self ..))

/-! ## What is known before the precision -/

theorem natAbs_ediv_eq_zero {v : ℤ} {s : ℕ} (hdvd : 2 ^ s ∣ v) : ((v / 2 ^ s).natAbs : ℤ) = 0 ↔ v = 0 := by
  obtain ⟨t, rfl⟩ := hdvd
  rw [Int.mul_ediv_cancel_left t (pow_ne s), mul_eq_zero, or_iff_right (pow_ne s)]
  omega

theorem isNonZero_absSent {s : ℕ} {mv : Mv} (hmv : Multiple s mv) : (absSent s mv).isNonZero = mv.isNonZero := by
  have hhor := not_congr (natAbs_ediv_eq_zero hmv.1)
  have hver := not_congr (natAbs_ediv_eq_zero hmv.2)
  exact congrArg₂ or (decide_eq_decide.mpr hhor) (decide_eq_decide.mpr hver)

theorem isNonZero_neg (mv : Mv) : Mv.isNonZero ⟨-mv.hor, -mv.ver⟩ = mv.isNonZero :=
  congrArg₂ or (decide_eq_decide.mpr (not_congr neg_eq_zero)) (decide_eq_decide.mpr (not_congr neg_eq_zero))

theorem any_absSent {s : ℕ} : ∀ {mvs : List Mv}, (∀ mv ∈ mvs, Multiple s mv) →
    (mvs.map (absSent s)).any Mv.isNonZero = mvs.any Mv.isNonZero
  | [], _ => rfl
  | mv :: mvs, h => by
    rw [map_cons, any_cons, any_cons, isNonZero_absSent (h mv mem_cons_self),
      any_absSent fun mv' hmv' => h mv' (mem_cons_of_mem _ hmv')]

/-- The sizes of the list, where it is in use. -/
def Known (flags : MvdFlags) (pu : PredictionUnit) (l : RefPicList) (pu' : PredictionUnit) : Prop :=
  InUse flags pu l → ¬Mirrored pu l → diffs pu' l = (diffs pu l).map (absSent (amvrShift pu.affine pu.imv))

/-- What the reader has of the differences when their signs are to come. -/
def Magnitudes (flags : MvdFlags) (pu pu' : PredictionUnit) : Prop :=
  ∀ l, Known flags pu l pu' ∧ (InUse flags pu l → (diffs pu' l).any Mv.isNonZero = (diffs pu l).any Mv.isNonZero)

theorem diffs_congr {imv' : ImvMode} {m' : RefPicList → Mv} {a' : RefPicList → ℕ → Mv} {x' : RefPicList → ℤ}
    (hm : m' l = m l) (ha : a' l = a l) : diffs (reading pu imv' m' a' x') l = diffs (reading pu imv m a x) l := by
  cases haffine : pu.affine with
  | false => rw [diffs_trans haffine, diffs_trans haffine, hm]
  | true => rw [diffs_affine haffine, diffs_affine haffine, ha]

/-- Of a list in merge mode there is nothing to know. -/
theorem known_merge (h : Sendable flags pu) (hflag : pu.amvpMergeModeFlag l = true) (hm : m l = .zero) :
    Known flags pu l (reading pu imv m a x) := by
  have hmerge : AmvpMerge pu := by
    cases l with
    | REF_PIC_LIST_0 => exact .inl hflag
    | REF_PIC_LIST_1 => exact .inr hflag
  have haffine := (h.amvpMerge hmerge).2.1
  intro _ _
  rw [diffs_trans haffine, hm, diffs, if_neg (by rw [haffine]; exact Bool.false_ne_true), h.mergeZero l hflag,
    map_singleton, absSent_zero]

theorem list0_roundTrips (h : Sendable flags pu) :
    RoundTrips True
      (if pu.interDir ≠ 2 ∧ pu.amvpMergeModeFlag REF_PIC_LIST_0 = false then
        CABACWriter.codeMvds flags pu REF_PIC_LIST_0 else pure ())
      (if (begun pu).interDir ≠ 2 ∧ (begun pu).amvpMergeModeFlag REF_PIC_LIST_0 = false then
        CABACReader.parseMvds flags (begun pu) REF_PIC_LIST_0 else pure (begun pu))
      fun _ pu' => ∃ m a, pu' = reading pu .IMV_OFF m a (fun _ => -1) ∧ Known flags pu REF_PIC_LIST_0 pu' ∧
        m REF_PIC_LIST_1 = .zero ∧ a REF_PIC_LIST_1 = fun _ => .zero := by
  refine roundTrips_ite Iff.rfl (fun hcoded => ?_) fun hnot => ?_
  · refine (codeMvds_roundTrips (l := REF_PIC_LIST_0) h hcoded.1).mono fun _ pu' hpu' => ?_
    obtain ⟨m, a, rfl, hsizes, hm, ha⟩ := hpu'
    exact ⟨m, a, rfl, fun _ _ => hsizes, hm, ha⟩
  · refine roundTrips_pure ⟨_, _, rfl, fun huse hmirror => ?_, rfl, rfl⟩
    have hflag : pu.amvpMergeModeFlag REF_PIC_LIST_0 = true := by
      by_contra hflag
      exact hnot ⟨huse, Bool.eq_false_of_not_eq_true hflag⟩
    exact known_merge h hflag rfl huse hmirror

theorem list1_roundTrips (h : Sendable flags pu) (hm : m REF_PIC_LIST_1 = .zero) :
    RoundTrips True
      (if pu.interDir ≠ 1 ∧ pu.smvdMode ≠ 1 ∧ pu.amvpMergeModeFlag REF_PIC_LIST_1 = false ∧ pu.mvdL1Zero flags = false
        then CABACWriter.codeMvds flags pu REF_PIC_LIST_1 else pure ())
      (if pu.interDir ≠ 1 ∧ pu.smvdMode ≠ 1 ∧ pu.amvpMergeModeFlag REF_PIC_LIST_1 = false then
        if pu.mvdL1Zero flags then pure (CABACReader.zeroMvds (reading pu .IMV_OFF m a x))
        else CABACReader.parseMvds flags (reading pu .IMV_OFF m a x) REF_PIC_LIST_1
      else pure (reading pu .IMV_OFF m a x))
      fun _ pu' => ∃ m' a', pu' = reading pu .IMV_OFF m' a' x ∧ Known flags pu REF_PIC_LIST_1 pu' ∧
        m' REF_PIC_LIST_0 = m REF_PIC_LIST_0 ∧ a' REF_PIC_LIST_0 = a REF_PIC_LIST_0 := by
  by_cases hsent : pu.interDir ≠ 1 ∧ pu.smvdMode ≠ 1 ∧ pu.amvpMergeModeFlag REF_PIC_LIST_1 = false
  · rw [if_pos hsent]
    cases hzero : pu.mvdL1Zero flags with
    | true =>
      rw [if_neg (by simp), if_pos rfl]
      refine roundTrips_pure ⟨_, _, rfl, fun huse => ?_, rfl, rfl⟩
      rw [huse.2] at hzero
      cases hzero
    | false =>
      rw [if_pos ⟨hsent.1, hsent.2.1, hsent.2.2, rfl⟩, if_neg Bool.false_ne_true]
      refine (codeMvds_roundTrips (l := REF_PIC_LIST_1) h ⟨hsent.1, hzero⟩).mono fun _ pu' hpu' => ?_
      obtain ⟨m', a', rfl, hsizes, hm', ha'⟩ := hpu'
      exact ⟨m', a', rfl, fun _ _ => hsizes, hm', ha'⟩
  · rw [if_neg hsent, if_neg fun hcoded => hsent ⟨hcoded.1, hcoded.2.1, hcoded.2.2.1⟩]
    refine roundTrips_pure ⟨_, _, rfl, fun huse hmirror => ?_, rfl, rfl⟩
    have hflag : pu.amvpMergeModeFlag REF_PIC_LIST_1 = true := by
      by_contra hflag
      refine hsent ⟨huse.1, fun hsmvd => hmirror ⟨?_, rfl⟩, Bool.eq_false_of_not_eq_true hflag⟩
      rw [hsmvd]
      exact one_ne_zero
    exact known_merge h hflag hm huse hmirror

theorem Sendable.multiples (h : Sendable flags pu) (hl : InUse flags pu l) :
    ∀ mv ∈ diffs pu l, Multiple (amvrShift pu.affine pu.imv) mv := fun mv hmv => (h.fits l hl mv hmv).1

/-- Which lists have a difference is known from the sizes. -/
theorem Known.any {pu' : PredictionUnit} (h : Sendable flags pu) (hknown : Known flags pu l pu')
    (hmirror : ¬Mirrored pu l) (huse : InUse flags pu l) :
    (diffs pu' l).any Mv.isNonZero = (diffs pu l).any Mv.isNonZero := by
  rw [hknown huse hmirror, any_absSent (h.multiples huse)]

theorem mirrorMvd_eq (h : Sendable flags pu) (h0 : Known flags pu REF_PIC_LIST_0 (reading pu .IMV_OFF m a x))
    (h1 : Known flags pu REF_PIC_LIST_1 (reading pu .IMV_OFF m a x)) :
    ∃ m', CABACReader.mirrorMvd (reading pu .IMV_OFF m a x) = .ok (reading pu .IMV_OFF m' a x) ∧
      Magnitudes flags pu (reading pu .IMV_OFF m' a x) := by
  have hnot0 : ¬Mirrored pu REF_PIC_LIST_0 := fun hmirror => by cases hmirror.2
  by_cases hsmvd : pu.smvdMode = 0
  · refine ⟨m, if_neg (not_not.mpr hsmvd), fun l => ?_⟩
    cases l with
    | REF_PIC_LIST_0 => exact ⟨h0, h0.any h hnot0⟩
    | REF_PIC_LIST_1 => exact ⟨h1, h1.any h fun hmirror => hmirror.1 hsmvd⟩
  · obtain ⟨hone, hdir, haffine⟩ := h.smvdMode hsmvd
    have huse0 : InUse flags pu REF_PIC_LIST_0 := by
      change pu.interDir ≠ 2
      omega
    have hdiffs : ∀ l, diffs pu l = [pu.mvd l] := fun l => if_neg (by rw [haffine]; exact Bool.false_ne_true)
    have hsize : m REF_PIC_LIST_0 = absSent (amvrShift pu.affine pu.imv) (pu.mvd REF_PIC_LIST_0) := by
      have hknown := h0 huse0 hnot0
      rw [diffs_trans haffine, hdiffs, map_singleton] at hknown
      exact singleton_injective hknown
    obtain ⟨-, hhor, hver⟩ := h.fits _ huse0 (pu.mvd REF_PIC_LIST_0) (by rw [hdiffs]; exact mem_singleton_self _)
    have hlegal : ∀ v : ℤ, (v.natAbs : ℤ) ≤ MVD_MAX → Mv.Legal (-(v.natAbs : ℤ)) := fun v hv => by
      unfold Mv.Legal MVD_MIN MVD_MAX at *
      omega
    have hrun : CABACReader.mirrorMvd (reading pu .IMV_OFF m a x) = .ok ((reading pu .IMV_OFF m a x).setMvd
        REF_PIC_LIST_1 ⟨-(m REF_PIC_LIST_0).hor, -(m REF_PIC_LIST_0).ver⟩) := by
      have hmode : (reading pu .IMV_OFF m a x).smvdMode = 1 := hone
      have hmvd : (reading pu .IMV_OFF m a x).mvd = m := rfl
      rw [CABACReader.mirrorMvd, hmode, if_pos one_ne_zero, if_pos rfl, hmvd]
      dsimp only
      rw [check_ok]
      · rfl
      · rw [hsize]
        exact not_or.mpr ⟨not_not.mpr (hlegal _ hhor), not_not.mpr (hlegal _ hver)⟩
    refine ⟨_, hrun, fun l => ?_⟩
    cases l with
    | REF_PIC_LIST_0 =>
      have hsame : diffs (reading pu .IMV_OFF (update m REF_PIC_LIST_1
          ⟨-(m REF_PIC_LIST_0).hor, -(m REF_PIC_LIST_0).ver⟩) a x) REF_PIC_LIST_0 =
          diffs (reading pu .IMV_OFF m a x) REF_PIC_LIST_0 := diffs_congr rfl rfl
      refine ⟨fun huse hmirror => hsame.trans (h0 huse hmirror), fun huse => ?_⟩
      exact (congrArg (List.any · Mv.isNonZero) hsame).trans (h0.any h hnot0 huse)
    | REF_PIC_LIST_1 =>
      refine ⟨fun _ hmirror => absurd ⟨hsmvd, rfl⟩ hmirror, fun _ => ?_⟩
      have hmultiple := h.multiples huse0 (pu.mvd REF_PIC_LIST_0) (by rw [hdiffs]; exact mem_singleton_self _)
      rw [diffs_trans haffine, hdiffs, h.mirrored hsmvd, update_self, any_cons, any_nil,
        any_cons, any_nil, isNonZero_neg, isNonZero_neg, hsize, isNonZero_absSent hmultiple]

theorem unitMvds_roundTrips (h : Sendable flags pu) :
    RoundTrips True (CABACWriter.unitMvds flags pu) (CABACReader.unitMvds flags (begun pu)) fun _ pu' =>
      ∃ m a, pu' = reading pu .IMV_OFF m a (fun _ => -1) ∧ Magnitudes flags pu pu' := by
  rw [CABACWriter.unitMvds, CABACReader.unitMvds]
  refine roundTrips_bind (list0_roundTrips h) fun _ pu' hpu' => ?_
  obtain ⟨m, a, rfl, h0, hm, ha⟩ := hpu'
  refine (list1_roundTrips h hm).then_right fun _ pu' hpu' => ?_
  obtain ⟨m', a', rfl, h1, hm', ha'⟩ := hpu'
  have h0' : Known flags pu REF_PIC_LIST_0 (reading pu .IMV_OFF m' a' fun _ => -1) := fun huse hmirror =>
    (diffs_congr hm' ha').trans (h0 huse hmirror)
  obtain ⟨m'', hrun, hmagnitudes⟩ := mirrorMvd_eq h h0' h1
  have hrestricted : ¬((reading pu .IMV_OFF m' a' fun _ => -1).interDir = 3 ∧
      (reading pu .IMV_OFF m' a' fun _ => -1).isBipredRestriction = true) := fun hboth => by
    have hfree := h.unrestricted hboth.1
    exact absurd hboth.2 (by rw [show (reading pu .IMV_OFF m' a' fun _ => -1).isBipredRestriction =
      pu.isBipredRestriction from rfl, hfree]; exact Bool.false_ne_true)
  dsimp only
  rw [if_neg hrestricted, hrun]
  exact ⟨_, rfl, m'', a', rfl, hmagnitudes⟩

/-! ## The precision -/

/-- A test of the lists in use. -/
theorem uses_congr {f g : RefPicList → Bool} (hfg : ∀ l, InUse flags pu l → f l = g l) :
    ((pu.interDir ≠ 2 && f REF_PIC_LIST_0) || (pu.interDir ≠ 1 && !pu.mvdL1Zero flags && f REF_PIC_LIST_1)) =
      ((pu.interDir ≠ 2 && g REF_PIC_LIST_0) || (pu.interDir ≠ 1 && !pu.mvdL1Zero flags && g REF_PIC_LIST_1)) := by
  have h0 : (decide (pu.interDir ≠ 2) && f REF_PIC_LIST_0) = (decide (pu.interDir ≠ 2) && g REF_PIC_LIST_0) := by
    by_cases huse : pu.interDir ≠ 2
    · rw [hfg REF_PIC_LIST_0 huse]
    · rw [decide_eq_false huse, Bool.false_and, Bool.false_and]
  have h1 : (decide (pu.interDir ≠ 1) && !pu.mvdL1Zero flags && f REF_PIC_LIST_1) =
      (decide (pu.interDir ≠ 1) && !pu.mvdL1Zero flags && g REF_PIC_LIST_1) := by
    by_cases huse : InUse flags pu REF_PIC_LIST_1
    · rw [hfg REF_PIC_LIST_1 huse]
    · have hfalse : (decide (pu.interDir ≠ 1) && !pu.mvdL1Zero flags) = false := by
        rw [← Bool.not_eq_true, Bool.and_eq_true, decide_eq_true_eq, Bool.not_eq_true']
        exact huse
      rw [hfalse, Bool.false_and, Bool.false_and]
  rw [h0, h1]

theorem diffs_any_trans (haffine : pu.affine = false) : (diffs pu l).any Mv.isNonZero = (pu.mvd l).isNonZero := by
  rw [diffs, if_neg (by rw [haffine]; exact Bool.false_ne_true), any_cons, any_nil, Bool.or_false]

theorem diffs_any_affine (haffine : pu.affine = true) : (diffs pu l).any Mv.isNonZero = pu.isNonZeroAffine l := by
  rw [diffs, if_pos haffine, PredictionUnit.isNonZeroAffine]

theorem hasSubCUNonZeroMVd_eq (hmagnitudes : Magnitudes flags pu (reading pu imv m a x)) (haffine : pu.affine = false) :
    hasSubCUNonZeroMVd flags (reading pu imv m a x) = hasSubCUNonZeroMVd flags pu := by
  refine @uses_congr flags pu (fun l => (m l).isNonZero) (fun l => (pu.mvd l).isNonZero) fun l huse => ?_
  rw [← diffs_any_trans haffine, ← (hmagnitudes l).2 huse]
  exact (@diffs_any_trans (reading pu imv m a x) l haffine).symm

theorem hasSubCUNonZeroAffineMVd_eq (hmagnitudes : Magnitudes flags pu (reading pu imv m a x))
    (haffine : pu.affine = true) :
    hasSubCUNonZeroAffineMVd flags (reading pu imv m a x) = hasSubCUNonZeroAffineMVd flags pu := by
  refine congrArg (pu.affine && ·) (@uses_congr flags pu (reading pu imv m a x).isNonZeroAffine pu.isNonZeroAffine
    fun l huse => ?_)
  rw [← diffs_any_affine haffine, ← (hmagnitudes l).2 huse]
  exact (@diffs_any_affine (reading pu imv m a x) l haffine).symm

/-- No list in use has a difference. -/
def AllZero (flags : MvdFlags) (pu : PredictionUnit) : Prop :=
  ∀ l, InUse flags pu l → (diffs pu l).any Mv.isNonZero = false

theorem allZero_of_uses {f : RefPicList → Bool} (hf : ∀ l, (diffs pu l).any Mv.isNonZero = f l)
    (hnone : ((pu.interDir ≠ 2 && f REF_PIC_LIST_0) ||
      (pu.interDir ≠ 1 && !pu.mvdL1Zero flags && f REF_PIC_LIST_1)) = false) : AllZero flags pu := by
  obtain ⟨h0, h1⟩ := Bool.or_eq_false_iff.mp hnone
  intro l huse
  rw [hf]
  cases l with
  | REF_PIC_LIST_0 =>
    rw [decide_eq_true (show pu.interDir ≠ 2 from huse), Bool.true_and] at h0
    exact h0
  | REF_PIC_LIST_1 =>
    rw [decide_eq_true huse.1, huse.2, Bool.not_false, Bool.true_and, Bool.true_and] at h1
    exact h1

/-- The reader has the precision, or no use for it. -/
def HasImv (flags : MvdFlags) (pu pu' : PredictionUnit) (m : RefPicList → Mv) (a : RefPicList → ℕ → Mv)
    (x : RefPicList → ℤ) : Prop :=
  ∃ imv, pu' = reading pu imv m a x ∧ (imv = pu.imv ∨ imv = .IMV_OFF ∧ AllZero flags pu)

theorem imv_mode_roundTrips (h : Sendable flags pu) (haffine : pu.affine = false)
    (hmagnitudes : Magnitudes flags pu (reading pu .IMV_OFF m a x)) :
    RoundTrips True (CABACWriter.imv_mode flags pu) (CABACReader.imv_mode flags (reading pu .IMV_OFF m a x))
      fun _ pu' => HasImv flags pu pu' m a x := by
  have hoff : ∀ {c : Prop}, (c → flags.amvrEnabledFlag = false ∨ AmvpMerge pu) → c →
      HasImv flags pu (reading pu .IMV_OFF m a x) m a x := fun hc h' =>
    ⟨_, rfl, .inl (h.transOff haffine (hc h')).symm⟩
  have hnot : ¬pu.affine = true := by rw [haffine]; exact Bool.false_ne_true
  have hnot' : ¬(reading pu .IMV_OFF m a x).affine = true := hnot
  rw [CABACWriter.imv_mode, CABACReader.imv_mode, hasSubCUNonZeroMVd_eq hmagnitudes haffine]
  refine roundTrips_ite Iff.rfl (fun hflag => roundTrips_pure (hoff .inl hflag)) fun _ => ?_
  rw [if_neg hnot, if_neg hnot']
  refine roundTrips_ite Iff.rfl (fun hmerge => roundTrips_pure (hoff (fun hm => .inr (Bool.or_eq_true_iff.mp hm)) hmerge))
    fun _ => ?_
  refine roundTrips_ite Iff.rfl (fun hnone => ?_) fun _ => ?_
  · exact roundTrips_pure ⟨_, rfl, .inr ⟨rfl, allZero_of_uses (fun l => diffs_any_trans haffine) hnone⟩⟩
  · have hend : ∀ imv, pu.imv = imv → HasImv flags pu (reading pu imv m a x) m a x := fun imv himv =>
      ⟨imv, rfl, .inl himv.symm⟩
    refine roundTrips_bind (roundTrips_bin _ _) fun _ b hb => ?_
    subst hb
    cases himv : pu.imv with
    | IMV_OFF => exact roundTrips_pure (hend _ himv)
    | IMV_HPEL =>
      refine roundTrips_bind (roundTrips_bin _ _) fun _ b hb => ?_
      subst hb
      exact roundTrips_pure (hend _ himv)
    | IMV_FPEL =>
      refine roundTrips_bind (roundTrips_bin _ _) fun _ b hb => ?_
      subst hb
      exact (roundTrips_bin _ _).then_right fun _ b hb => ⟨_, rfl, by rw [hb]; exact hend _ himv⟩
    | IMV_4PEL =>
      refine roundTrips_bind (roundTrips_bin _ _) fun _ b hb => ?_
      subst hb
      exact (roundTrips_bin _ _).then_right fun _ b hb => ⟨_, rfl, by rw [hb]; exact hend _ himv⟩

theorem affine_amvr_mode_roundTrips (h : Sendable flags pu) (haffine : pu.affine = true)
    (hmagnitudes : Magnitudes flags pu (reading pu .IMV_OFF m a x)) :
    RoundTrips True (CABACWriter.affine_amvr_mode flags pu)
      (CABACReader.affine_amvr_mode flags (reading pu .IMV_OFF m a x)) fun _ pu' => HasImv flags pu pu' m a x := by
  have hsame : (reading pu .IMV_OFF m a x).affine = pu.affine := rfl
  rw [CABACWriter.affine_amvr_mode, CABACReader.affine_amvr_mode, hasSubCUNonZeroAffineMVd_eq hmagnitudes haffine, hsame]
  refine roundTrips_ite Iff.rfl (fun hflag => ?_) fun _ => ?_
  · have henabled : flags.affineAmvrEnabledFlag = false := hflag.resolve_right (by rw [haffine]; exact Bool.noConfusion)
    exact roundTrips_pure ⟨_, rfl, .inl (h.affineOff haffine henabled).symm⟩
  refine roundTrips_ite Iff.rfl (fun hnone => ?_) fun _ => ?_
  · rw [hasSubCUNonZeroAffineMVd, haffine, Bool.true_and] at hnone
    exact roundTrips_pure ⟨_, rfl, .inr ⟨rfl, allZero_of_uses (fun l => diffs_any_affine haffine) hnone⟩⟩
  · have hend : ∀ imv, pu.imv = imv → HasImv flags pu (reading pu imv m a x) m a x := fun imv himv =>
      ⟨imv, rfl, .inl himv.symm⟩
    refine roundTrips_bind (roundTrips_bin _ _) fun _ b hb => ?_
    subst hb
    cases himv : pu.imv with
    | IMV_OFF => exact roundTrips_pure (hend _ himv)
    | IMV_HPEL => exact absurd himv (h.affineImv haffine)
    | IMV_FPEL => exact (roundTrips_bin _ _).then_right fun _ b hb => ⟨_, rfl, by rw [hb]; exact hend _ himv⟩
    | IMV_4PEL => exact (roundTrips_bin _ _).then_right fun _ b hb => ⟨_, rfl, by rw [hb]; exact hend _ himv⟩

end

/-! ## Sizes in internal precision -/

/-- The absolute value of what was read, in internal precision. -/
def scaledUp (s : ℕ) (mv : Mv) : Mv := ⟨mv.getAbsMv.hor * 2 ^ s, mv.getAbsMv.ver * 2 ^ s⟩

theorem sameSize {v : ℤ} {s s' : ℕ} (hdvd : 2 ^ s ∣ v) (hs : v ≠ 0 → s' = s) :
    SameSize v ((v / 2 ^ s).natAbs, ((v / 2 ^ s).natAbs : ℤ).natAbs * 2 ^ s') := by
  refine ⟨natAbs_ediv_eq_zero hdvd, fun hv => ?_⟩
  obtain ⟨t, rfl⟩ := hdvd
  rw [hs hv, Int.mul_ediv_cancel_left t (pow_ne s), Int.natAbs_mul, Int.natAbs_pow, Int.natAbs_natCast]
  push_cast
  exact mul_comm _ _

theorem sameSizes {s s' : ℕ} : ∀ {mvs : List Mv}, (∀ mv ∈ mvs, Multiple s mv) →
    (mvs.any Mv.isNonZero = true → s' = s) →
    List.Forall₂ SameSize (Mv.components mvs)
      ((Mv.components (mvs.map (absSent s))).zip (Mv.components ((mvs.map (absSent s)).map (scaledUp s'))))
  | [], _, _ => .nil
  | mv :: mvs, hmultiple, hs => by
    obtain ⟨hhor, hver⟩ := hmultiple mv mem_cons_self
    have hnz : mv.isNonZero = true → s' = s := fun h => hs (by rw [any_cons, h, Bool.true_or])
    refine .cons (sameSize hhor fun h => hnz ?_) (.cons (sameSize hver fun h => hnz ?_)
      (sameSizes (fun mv' hmv' => hmultiple mv' (mem_cons_of_mem _ hmv')) fun h =>
        hs (by rw [any_cons, h, Bool.or_true])))
    · rw [Mv.isNonZero, decide_eq_true h, Bool.true_or]
    · rw [Mv.isNonZero, decide_eq_true h, Bool.or_true]

theorem mapM_pure {α β : Type} {f : α → BinGet β} {g : α → β} (h : ∀ a, f a = pure (g a)) :
    ∀ xs : List α, xs.mapM f = pure (xs.map g)
  | [] => rfl
  | a :: xs => by
    rw [mapM_cons, h, pure_bind, mapM_pure h xs, pure_bind, map_cons]

/-! ## Signs -/

section
variable {flags : MvdFlags} {pu : PredictionUnit} {l : RefPicList} {imv : ImvMode} {m : RefPicList → Mv}
  {a : RefPicList → ℕ → Mv} {x : RefPicList → ℤ}

/-- The signs of the list are read back, or the index that they are found by. -/
def Recovered (flags : MvdFlags) (pu : PredictionUnit) (l : RefPicList) (pu' : PredictionUnit) : Prop :=
  (Explicit flags pu l → diffs pu' l = (diffs pu l).map (sent (amvrShift pu.affine pu.imv))) ∧
    (¬Explicit flags pu l → pu'.mvsdIdx l = pu.mvsdIdx l % 2 ^ numSigns (Mv.components (diffs pu l)))

/-- The index of a list. -/
theorem index_roundTrips (h : Sendable flags pu) (huse : InUse flags pu l) (hmirror : ¬Mirrored pu l)
    (hindex : ¬Explicit flags pu l) (hknown : Known flags pu l (reading pu imv m a x)) (himv : imv = pu.imv ∨ imv = .IMV_OFF ∧ AllZero flags pu)
    (thres : ℤ) (ctxId : ℕ) (msg : String) :
    RoundTrips True (do
        check ((diffs pu l).any Mv.isNonZero = true ∧ pu.mvsdIdx l = -1) msg
        CABACWriter.mvsdBins thres ctxId (Mv.components (diffs pu l)) (pu.mvsdIdx l) : BinPut Unit)
      (do
        let mvsdIdx ← CABACReader.mvsdBins thres ctxId ((Mv.components (diffs (reading pu imv m a x) l)).zip
          (Mv.components ((diffs (reading pu imv m a x) l).map (scaledUp (amvrShift pu.affine imv))))) 0 0
        return (reading pu imv m a x).setMvsdIdx l mvsdIdx)
      fun _ pu' => ∃ x', pu' = reading pu imv m a x' ∧ x' l.other = x l.other ∧
        x' l = pu.mvsdIdx l % 2 ^ numSigns (Mv.components (diffs pu l)) := by
  have hother : l.other ≠ l := by cases l <;> decide
  have hshift : (diffs pu l).any Mv.isNonZero = true → amvrShift pu.affine imv = amvrShift pu.affine pu.imv := fun hany => by
    rcases himv with heq | ⟨-, hzero⟩
    · rw [heq]
    · rw [hzero l huse] at hany
      cases hany
  rw [check_ok msg fun hboth => h.indexed l huse hmirror hindex hboth.1 hboth.2, Put.lift_ok_bind, hknown huse hmirror]
  refine (mvsdBins_roundTrips thres ctxId (pu.mvsdIdx l) 0 0 (sameSizes (h.multiples huse) hshift)).then_right
    fun _ idx hidx => ⟨_, rfl, _, rfl, update_of_ne hother _ _, ?_⟩
  rw [pow_zero, mul_one, Nat.cast_zero, zero_add] at hidx
  rw [← hidx]
  exact update_self ..

/-- A list in use is not passed over. -/
theorem not_passed (huse : InUse flags pu l) : ¬(pu.mvdL1Zero flags && l = REF_PIC_LIST_1) = true := by
  rw [Bool.and_eq_true, decide_eq_true_eq]
  intro hboth
  obtain ⟨hzero, rfl⟩ := hboth
  rw [huse.2] at hzero
  cases hzero

/-- The test for signs that are sent, on the sizes of list 0. -/
theorem explicit_iff {b : Bool} (hb : pu.interDir = 3 → b = (diffs pu REF_PIC_LIST_0).any Mv.isNonZero) :
    (flags.useARL && (pu.interDir = 3 && (l = REF_PIC_LIST_1 && b))) = true ↔ Explicit flags pu l := by
  rw [Bool.and_eq_true, Bool.and_eq_true, Bool.and_eq_true, decide_eq_true_eq, decide_eq_true_eq, Explicit]
  refine and_congr_right fun _ => and_congr_right fun hdir => ?_
  rw [hb hdir]

/-- What is left of the reader's unit after the signs of a list. -/
def Signed (flags : MvdFlags) (pu : PredictionUnit) (l : RefPicList) (imv : ImvMode) (m : RefPicList → Mv)
    (a : RefPicList → ℕ → Mv) (x : RefPicList → ℤ) (pu' : PredictionUnit) : Prop :=
  ∃ m' a' x', pu' = reading pu imv m' a' x' ∧ (l = REF_PIC_LIST_0 → m' = m ∧ a' = a) ∧
    m' l.other = m l.other ∧ a' l.other = a l.other ∧ x' l.other = x l.other ∧ Recovered flags pu l pu'

theorem size0_eq (hmagnitudes : Magnitudes flags pu (reading pu imv m a x)) (hdir : pu.interDir = 3) :
    (diffs (reading pu imv m a x) REF_PIC_LIST_0).any Mv.isNonZero = (diffs pu REF_PIC_LIST_0).any Mv.isNonZero := by
  refine (hmagnitudes REF_PIC_LIST_0).2 ?_
  change pu.interDir ≠ 2
  rw [hdir]
  decide

/-- The signs of vectors, one vector after the other. -/
theorem components_forM {ι : Type} (f : ℤ → BinPut Unit) (g : ι → Mv) : ∀ is : List ι,
    (Mv.components (is.map g)).forM f = is.forM fun i => (do
      f (g i).hor
      f (g i).ver : BinPut Unit)
  | [] => rfl
  | i :: is => by
    change (f (g i).hor >>= fun _ => f (g i).ver >>= fun _ => (Mv.components (is.map g)).forM f) = _
    rw [components_forM f g is, ← Put.bind_assoc]
    rfl

theorem components_singleton_forM (f : ℤ → BinPut Unit) (mv : Mv) :
    (Mv.components [mv]).forM f = ((do
      f mv.hor
      f mv.ver : BinPut Unit) >>= fun _ => pure ()) :=
  components_forM f (fun _ : Unit => mv) [()]

theorem mvsdIdxFunc_roundTrips (h : Sendable flags pu) (haffine : pu.affine = false) (huse : InUse flags pu l)
    (hmirror : ¬Mirrored pu l) (hmagnitudes : Magnitudes flags pu (reading pu imv m a x))
    (himv : imv = pu.imv ∨ imv = .IMV_OFF ∧ AllZero flags pu) :
    RoundTrips True (CABACWriter.mvsdIdxFunc flags pu l)
      (CABACReader.mvsdIdxFunc flags (reading pu imv m a x) l) (fun _ pu' => Signed flags pu l imv m a x pu') := by
  have hother : l.other ≠ l := by cases l <;> decide
  have hnot : ¬pu.affine = true := by rw [haffine]; exact Bool.false_ne_true
  have hdiffs : diffs pu l = [pu.mvd l] := if_neg hnot
  have hpassed : ¬((reading pu imv m a x).mvdL1Zero flags && l = REF_PIC_LIST_1) = true := @not_passed flags pu l huse
  have hmirrorW : ¬(pu.smvdMode ≠ 0 ∧ l = REF_PIC_LIST_1) := hmirror
  have hmirrorR : ¬((reading pu imv m a x).smvdMode ≠ 0 ∧ l = REF_PIC_LIST_1) := hmirror
  have hno : ¬true = false := Bool.noConfusion
  rw [CABACWriter.mvsdIdxFunc, CABACReader.mvsdIdxFunc, h.applicable, reading_applicable h,
    if_neg hno, if_neg hno, if_neg (not_passed huse), if_neg hpassed, if_neg hmirrorW,
    if_neg hmirrorR]
  have hw := @explicit_iff flags pu l (pu.mvd REF_PIC_LIST_0).isNonZero fun _ => (diffs_any_trans haffine).symm
  have hr := @explicit_iff flags pu l (m REF_PIC_LIST_0).isNonZero fun hdir =>
    (@diffs_any_trans (reading pu imv m a x) _ haffine).symm.trans (size0_eq hmagnitudes hdir)
  refine roundTrips_ite (hw.trans hr.symm) (fun hexplicit => ?_) fun hindex => ?_
  · have hexplicit := hw.mp hexplicit
    have hmvd : m l = absSent (amvrShift pu.affine pu.imv) (pu.mvd l) := by
      have hknown := (hmagnitudes l).1 huse hmirror
      rw [diffs_trans haffine, hdiffs, map_singleton] at hknown
      exact singleton_injective hknown
    have hfits := h.fits l huse (pu.mvd l) (by rw [hdiffs]; exact mem_singleton_self _)
    have hsame : (reading pu imv m a x).mvd l = m l := rfl
    rw [hsame, hmvd, components_singleton_forM]
    refine roundTrips_bind (explicitSigns_roundTrips hfits) fun _ mv hmv => roundTrips_pure ?_
    refine ⟨_, _, _, rfl, fun h0 => ?_, update_of_ne hother _ _, rfl, rfl, fun _ => ?_, fun hnone => ?_⟩
    · rw [hexplicit.2.2.1] at h0
      cases h0
    · rw [hdiffs, map_singleton, ← hmv]
      exact (diffs_trans haffine).trans (congrArg (fun mv => [mv]) (update_self ..))
    · exact absurd hexplicit hnone
  · have hindex := mt hw.mpr hindex
    have hsame : (reading pu imv m a x).mvd l = m l := rfl
    have hup := @amvr2Internal false imv Bool.noConfusion (m l).getAbsMv
    rw [if_neg Bool.false_ne_true] at hup
    have himv' : (reading pu imv m a x).imv = imv := rfl
    rw [hsame, himv', hup]
    have hcode := index_roundTrips h huse hmirror hindex (hmagnitudes l).1 himv THRES_TRANS 0 "mvsdIdx == -1 for transMv"
    rw [hdiffs, diffs_trans haffine, haffine, any_cons, any_nil, Bool.or_false] at hcode
    refine RoundTrips.mono hcode fun _ pu' hpu' => ?_
    obtain ⟨x', rfl, hx', hidx⟩ := hpu'
    exact ⟨m, a, x', rfl, fun _ => ⟨rfl, rfl⟩, rfl, rfl, hx', fun hsent => absurd hsent hindex,
      fun _ => by rw [hdiffs]; exact hidx⟩

/-- The signs of the control points of list 1. -/
theorem affineSigns_roundTrips (h : Sendable flags pu) (haffine : pu.affine = true) (huse : InUse flags pu l)
    (hsizes : ∀ i ∈ List.range pu.numControlPoints, a l i = absSent (amvrShift pu.affine pu.imv) (pu.mvdAffi l i)) :
    RoundTrips True ((Mv.components (pu.affineMvds l)).forM CABACWriter.explicitSign)
      ((List.range pu.numControlPoints).foldlM (fun pu i => do
        let mvd ← CABACReader.explicitSigns (pu.mvdAffi l i)
        return pu.setMvdAffi l i mvd) (reading pu imv m a x)) fun _ pu' =>
      ∃ a', pu' = reading pu imv m a' x ∧ a' l.other = a l.other ∧
        ∀ i ∈ List.range pu.numControlPoints, a' l i = sent (amvrShift pu.affine pu.imv) (pu.mvdAffi l i) := by
  have hother : l.other ≠ l := by cases l <;> decide
  rw [PredictionUnit.affineMvds, components_forM]
  refine (roundTrips_foldlM (P := fun done b => ∃ a', b = reading pu imv m a' x ∧ a' l.other = a l.other ∧
      (∀ i ∈ done, a' l i = sent (amvrShift pu.affine pu.imv) (pu.mvdAffi l i)) ∧ ∀ i ∉ done, a' l i = a l i)
    ⟨a, rfl, rfl, fun i hi => absurd hi not_mem_nil, fun _ _ => rfl⟩ ?_).mono fun _ pu' hpu' => ?_
  · intro done i b hdone hb
    obtain ⟨left, hleft⟩ := hdone
    obtain ⟨a', rfl, hrest, hsigned, hleftover⟩ := hb
    have hi : i ∈ List.range pu.numControlPoints := hleft ▸ mem_append_right _ mem_cons_self
    have hnew : i ∉ done := by
      have hnodup := @nodup_range pu.numControlPoints
      rw [hleft] at hnodup
      exact fun hmem => (disjoint_of_nodup_append hnodup) hmem mem_cons_self
    have hmem : pu.mvdAffi l i ∈ diffs pu l := by
      rw [diffs, if_pos haffine]
      exact mem_map_of_mem hi
    have hsame : (reading pu imv m a' x).mvdAffi l i = a' l i := rfl
    rw [hsame, hleftover i hnew, hsizes i hi]
    refine (explicitSigns_roundTrips (h.fits l huse _ hmem)).then_right fun _ mv hmv => ⟨_, rfl, _, rfl, ?_, ?_, ?_⟩
    · rw [update_of_ne hother]
      exact hrest
    · intro j hj
      rw [update_self]
      by_cases hji : j = i
      · rw [hji, update_self, hmv]
      · rw [update_of_ne hji]
        exact hsigned j ((mem_append.mp hj).resolve_right fun hmem => hji (mem_singleton.mp hmem))
    · intro j hj
      have hji : j ≠ i := fun heq => hj (heq ▸ mem_append_right _ (mem_singleton_self _))
      rw [update_self, update_of_ne hji]
      exact hleftover j fun hmem => hj (mem_append_left _ hmem)
  · obtain ⟨a', rfl, hrest, hsigned, -⟩ := hpu'
    exact ⟨a', rfl, hrest, hsigned⟩

theorem mvsdAffineIdxFunc_roundTrips (h : Sendable flags pu) (haffine : pu.affine = true) (huse : InUse flags pu l)
    (hmagnitudes : Magnitudes flags pu (reading pu imv m a x))
    (himv : imv = pu.imv ∨ imv = .IMV_OFF ∧ AllZero flags pu) :
    RoundTrips True (CABACWriter.mvsdAffineIdxFunc flags pu l)
      (CABACReader.mvsdAffineIdxFunc flags (reading pu imv m a x) l) (fun _ pu' => Signed flags pu l imv m a x pu') := by
  have hno : ¬true = false := Bool.noConfusion
  have hmirror : ¬Mirrored pu l := fun hmirror => by
    have hfalse := (h.smvdMode hmirror.1).2.2
    rw [haffine] at hfalse
    cases hfalse
  have hdiffs : diffs pu l = pu.affineMvds l := if_pos haffine
  have hdiffs' : diffs (reading pu imv m a x) l = (reading pu imv m a x).affineMvds l := if_pos haffine
  have hpassed : ¬((reading pu imv m a x).mvdL1Zero flags && l = REF_PIC_LIST_1) = true := @not_passed flags pu l huse
  have haffine' : (reading pu imv m a x).affine = true := haffine
  rw [CABACWriter.mvsdAffineIdxFunc, CABACReader.mvsdAffineIdxFunc, h.applicable, reading_applicable h, haffine,
    haffine', if_neg hno, if_neg hno, if_neg hno, if_neg hno, if_neg (not_passed huse), if_neg hpassed]
  have hw := @explicit_iff flags pu l (pu.isNonZeroAffine REF_PIC_LIST_0) fun _ => (diffs_any_affine haffine).symm
  have hr := @explicit_iff flags pu l ((reading pu imv m a x).isNonZeroAffine REF_PIC_LIST_0) fun hdir =>
    (@diffs_any_affine (reading pu imv m a x) _ haffine).symm.trans (size0_eq hmagnitudes hdir)
  have hknown := (hmagnitudes l).1 huse hmirror
  refine roundTrips_ite (hw.trans hr.symm) (fun hexplicit => ?_) fun hindex => ?_
  · have hexplicit := hw.mp hexplicit
    have hsizes : ∀ i ∈ List.range pu.numControlPoints,
        a l i = absSent (amvrShift pu.affine pu.imv) (pu.mvdAffi l i) := by
      rw [diffs_affine haffine, hdiffs, PredictionUnit.affineMvds, map_map] at hknown
      exact map_inj_left.mp hknown
    refine RoundTrips.mono (affineSigns_roundTrips h haffine huse hsizes) fun _ pu' hpu' => ?_
    obtain ⟨a', rfl, hrest, hsigned⟩ := hpu'
    refine ⟨m, a', x, rfl, fun h0 => ?_, rfl, hrest, rfl, fun _ => ?_, fun hnone => absurd hexplicit hnone⟩
    · rw [hexplicit.2.2.1] at h0
      cases h0
    · rw [diffs_affine haffine, hdiffs, PredictionUnit.affineMvds, map_map]
      exact map_congr_left hsigned
  · have hindex := mt hw.mpr hindex
    have himv' : (reading pu imv m a x).imv = imv := rfl
    have hnot : true = true → imv ≠ .IMV_HPEL := fun _ => by
      rcases himv with heq | ⟨hoff, -⟩
      · rw [heq]
        exact h.affineImv haffine
      · rw [hoff]
        decide
    have hup : ∀ mv : Mv, (liftM (mv.getAbsMv.changeAffinePrecAmvr2Internal imv) : BinGet Mv) =
        pure (scaledUp (amvrShift true imv) mv) := fun mv => congrArg liftM (amvr2Internal hnot mv.getAbsMv)
    have hcode := index_roundTrips h huse hmirror hindex (hmagnitudes l).1 himv THRES_AFFINE 2 "mvsdIdx == -1 for AffineMv"
    rw [hdiffs, hdiffs', haffine] at hcode
    rw [himv', mapM_pure hup, pure_bind]
    refine RoundTrips.mono hcode fun _ pu' hpu' => ?_
    obtain ⟨x', rfl, hx', hidx⟩ := hpu'
    exact ⟨m, a, x', rfl, fun _ => ⟨rfl, rfl⟩, rfl, rfl, hx', fun hsent => absurd hsent hindex,
      fun _ => by rw [hdiffs]; exact hidx⟩

/-- The signs of a list. -/
theorem signs_roundTrips (h : Sendable flags pu) (huse : InUse flags pu l) (hmirror : ¬Mirrored pu l)
    (hmagnitudes : Magnitudes flags pu (reading pu imv m a x))
    (himv : imv = pu.imv ∨ imv = .IMV_OFF ∧ AllZero flags pu) :
    RoundTrips True
      (if pu.affine then CABACWriter.mvsdAffineIdxFunc flags pu l else CABACWriter.mvsdIdxFunc flags pu l)
      (if (reading pu imv m a x).affine then CABACReader.mvsdAffineIdxFunc flags (reading pu imv m a x) l
        else CABACReader.mvsdIdxFunc flags (reading pu imv m a x) l)
      (fun _ pu' => Signed flags pu l imv m a x pu') :=
  roundTrips_ite Iff.rfl (fun haffine => mvsdAffineIdxFunc_roundTrips h haffine huse hmagnitudes himv) fun hnot =>
    mvsdIdxFunc_roundTrips h (Bool.eq_false_of_not_eq_true hnot) huse hmirror hmagnitudes himv

/-- Differences of list 1 that are not sent have no signs. -/
theorem passed_roundTrips {pu' : PredictionUnit} (hzero : pu.mvdL1Zero flags = true)
    (hzero' : pu'.mvdL1Zero flags = true) {Q : Unit → PredictionUnit → Prop} (hQ : Q () pu') :
    RoundTrips True
      (if pu.affine then CABACWriter.mvsdAffineIdxFunc flags pu REF_PIC_LIST_1
        else CABACWriter.mvsdIdxFunc flags pu REF_PIC_LIST_1)
      (if pu'.affine then CABACReader.mvsdAffineIdxFunc flags pu' REF_PIC_LIST_1
        else CABACReader.mvsdIdxFunc flags pu' REF_PIC_LIST_1) Q := by
  have hpass : ∀ {b : Bool}, b = true → (b && REF_PIC_LIST_1 = REF_PIC_LIST_1) = true := fun hb => by
    rw [hb]
    rfl
  have hw : (if pu.affine then CABACWriter.mvsdAffineIdxFunc flags pu REF_PIC_LIST_1
      else CABACWriter.mvsdIdxFunc flags pu REF_PIC_LIST_1) = pure () := by
    rw [CABACWriter.mvsdAffineIdxFunc, CABACWriter.mvsdIdxFunc, if_pos (hpass hzero), if_pos (hpass hzero)]
    simp only [ite_self]
  have hr : (if pu'.affine then CABACReader.mvsdAffineIdxFunc flags pu' REF_PIC_LIST_1
      else CABACReader.mvsdIdxFunc flags pu' REF_PIC_LIST_1) = pure pu' := by
    rw [CABACReader.mvsdAffineIdxFunc, CABACReader.mvsdIdxFunc, if_pos (hpass hzero'), if_pos (hpass hzero')]
    simp only [ite_self]
  rw [hw, hr]
  exact roundTrips_pure hQ

theorem Recovered.congr0 {m' : RefPicList → Mv} {a' : RefPicList → ℕ → Mv} {x' : RefPicList → ℤ}
    (h : Recovered flags pu REF_PIC_LIST_0 (reading pu imv m a x)) (hx : x' REF_PIC_LIST_0 = x REF_PIC_LIST_0) :
    Recovered flags pu REF_PIC_LIST_0 (reading pu imv m' a' x') :=
  ⟨fun ⟨_, _, hl, _⟩ => RefPicList.noConfusion hl, fun hindex => hx.trans (h.2 hindex)⟩

theorem mvsd_data_roundTrips (h : Sendable flags pu) (hmagnitudes : Magnitudes flags pu (reading pu imv m a x))
    (himv : imv = pu.imv ∨ imv = .IMV_OFF ∧ AllZero flags pu) :
    RoundTrips True (CABACWriter.mvsd_data flags pu) (CABACReader.mvsd_data flags (reading pu imv m a x))
      fun _ pu' => ∀ l, InUse flags pu l → ¬Mirrored pu l → Recovered flags pu l pu' := by
  have hno : ¬true = false := Bool.noConfusion
  have hnot0 : ¬Mirrored pu REF_PIC_LIST_0 := fun hmirror => by cases hmirror.2
  rw [CABACWriter.mvsd_data, CABACReader.mvsd_data, h.applicable, reading_applicable h, if_neg hno, if_neg hno]
  refine roundTrips_bind (Q := fun _ pu' => ∃ x', pu' = reading pu imv m a x' ∧
    (InUse flags pu REF_PIC_LIST_0 → Recovered flags pu REF_PIC_LIST_0 pu')) ?_ fun _ pu' hpu' => ?_
  · refine roundTrips_ite Iff.rfl (fun huse => ?_) fun hnone => roundTrips_pure ⟨x, rfl, fun huse => absurd huse hnone⟩
    refine (signs_roundTrips (l := REF_PIC_LIST_0) h huse hnot0 hmagnitudes himv).mono fun _ pu' hpu' => ?_
    obtain ⟨m', a', x', rfl, hsame, -, -, -, hrecovered⟩ := hpu'
    obtain ⟨rfl, rfl⟩ := hsame rfl
    exact ⟨x', rfl, fun _ => hrecovered⟩
  · obtain ⟨x', rfl, h0⟩ := hpu'
    refine roundTrips_ite Iff.rfl (fun hdir => ?_) fun hnone => ?_
    · cases hzero : pu.mvdL1Zero flags with
      | true =>
        have hzero' : (reading pu imv m a x').mvdL1Zero flags = true := hzero
        refine RoundTrips.mono (passed_roundTrips (Q := fun _ q => q = reading pu imv m a x') hzero hzero' rfl)
          fun _ q hq l huse hmirror => ?_
        rw [hq]
        cases l with
        | REF_PIC_LIST_0 => exact h0 huse
        | REF_PIC_LIST_1 =>
          have hfalse := huse.2
          rw [hzero] at hfalse
          cases hfalse
      | false =>
        have hmirror : ¬Mirrored pu REF_PIC_LIST_1 := fun hmirror => hdir.2 (h.smvdMode hmirror.1).1
        refine (signs_roundTrips (l := REF_PIC_LIST_1) (x := x') h ⟨hdir.1, hzero⟩ hmirror (fun l => hmagnitudes l)
          himv).mono fun _ pu' hpu' => ?_
        obtain ⟨m', a', x'', rfl, -, -, -, hx, hrecovered⟩ := hpu'
        intro l huse _
        cases l with
        | REF_PIC_LIST_0 => exact (h0 huse).congr0 hx
        | REF_PIC_LIST_1 => exact hrecovered
    · refine roundTrips_pure fun l huse hmirror => ?_
      cases l with
      | REF_PIC_LIST_0 => exact h0 huse
      | REF_PIC_LIST_1 =>
        refine absurd ⟨huse.1, fun hone => hmirror ⟨?_, rfl⟩⟩ hnone
        rw [hone]
        exact one_ne_zero

/-- The precision comes back where there is a difference. -/
theorem modes_roundTrips (h : Sendable flags pu) (hmagnitudes : Magnitudes flags pu (reading pu .IMV_OFF m a x)) :
    RoundTrips True (do
        CABACWriter.imv_mode flags pu
        CABACWriter.affine_amvr_mode flags pu : BinPut Unit)
      (do
        let pu' ← CABACReader.imv_mode flags (reading pu .IMV_OFF m a x)
        CABACReader.affine_amvr_mode flags pu') fun _ pu' => HasImv flags pu pu' m a x := by
  cases haffine : pu.affine with
  | false =>
    have hw : CABACWriter.affine_amvr_mode flags pu = pure () := if_pos (.inr haffine)
    rw [hw]
    refine roundTrips_bind (imv_mode_roundTrips h haffine hmagnitudes) fun _ pu' hpu' => ?_
    obtain ⟨imv, rfl, himv⟩ := hpu'
    have hr : CABACReader.affine_amvr_mode flags (reading pu imv m a x) = pure (reading pu imv m a x) :=
      if_pos (.inr haffine)
    rw [hr]
    exact roundTrips_pure ⟨imv, rfl, himv⟩
  | true =>
    have hsame : (reading pu .IMV_OFF m a x).affine = true := haffine
    have hw : CABACWriter.imv_mode flags pu = pure () := by
      rw [CABACWriter.imv_mode, if_pos haffine, ite_self]
    have hr : CABACReader.imv_mode flags (reading pu .IMV_OFF m a x) = pure (reading pu .IMV_OFF m a x) := by
      rw [CABACReader.imv_mode, if_pos hsame, ite_self, ite_self, ite_self]
    rw [hw, hr]
    exact roundTrips_bind (roundTrips_pure (Q := fun _ pu' => pu' = reading pu .IMV_OFF m a x) rfl) fun _ pu' hpu' => by
      rw [hpu']
      exact affine_amvr_mode_roundTrips h haffine hmagnitudes

/-- Every unit whose differences fit comes back with its signs, or with the index that they are found by:
the reader takes the bins that were written, each with the context it was written with. -/
theorem unitDifferences_roundTrips (flags : MvdFlags) (pu : PredictionUnit) (h : Sendable flags pu) :
    RoundTrips True (CABACWriter.unitDifferences flags pu) (CABACReader.unitDifferences flags (begun pu))
      fun _ pu' => ∀ l, InUse flags pu l → ¬Mirrored pu l → Recovered flags pu l pu' := by
  rw [CABACWriter.unitDifferences, CABACReader.unitDifferences]
  refine roundTrips_bind (unitMvds_roundTrips h) fun _ pu' hpu' => ?_
  obtain ⟨m, a, rfl, hmagnitudes⟩ := hpu'
  have hmodes := modes_roundTrips h hmagnitudes
  have hassoc := roundTrips_bind hmodes fun _ pu' hpu' => by
    obtain ⟨imv, rfl, himv⟩ := hpu'
    have hall : Magnitudes flags pu (reading pu imv m a fun _ => -1) := fun l => hmagnitudes l
    exact mvsd_data_roundTrips h hall himv
  rw [Put.bind_assoc, bind_assoc] at hassoc
  exact hassoc

/-- Every unit whose differences fit: all that the reader takes are the bins that were written, each with its
context, and it has the index of every list, or the signs of the list where they are sent. -/
theorem predictedSigns_readBack (flags : MvdFlags) (pu : PredictionUnit) (h : Sendable flags pu) :
    RoundTrips True (CABACWriter.unitDifferences flags pu) (CABACReader.unitDifferences flags (begun pu))
      fun _ pu' => ∀ l, InUse flags pu l → ¬Mirrored pu l → Recovered flags pu l pu' ∧
        (¬Explicit flags pu l → 0 ≤ pu.mvsdIdx l → pu.mvsdIdx l < 2 ^ numSigns (Mv.components (diffs pu l)) →
          pu'.mvsdIdx l = pu.mvsdIdx l) := by
  refine (unitDifferences_roundTrips flags pu h).mono fun _ pu' hpu' l huse hmirror => ?_
  have hrecovered := hpu' l huse hmirror
  refine ⟨hrecovered, fun hindex hnonneg hlt => ?_⟩
  rw [hrecovered.2 hindex, Int.emod_eq_of_lt hnonneg hlt]

end

/-- All tools of the differences are on. -/
def allFlags : MvdFlags := ⟨true, true, false, true, true⟩

/-- Two lists in half samples. -/
def halfUnit : PredictionUnit where
  interDir := 3
  affine := false
  affineType := .AFFINEMODEL_4PARAM
  smvdMode := 0
  imv := .IMV_HPEL
  amvpMergeModeFlag := fun _ => false
  mvpIdx := fun _ => 0
  mvd := fun l => if l = REF_PIC_LIST_0 then ⟨-24, 8⟩ else ⟨0, -16⟩
  mvdAffi := fun _ _ => .zero
  mvsdIdx := fun l => if l = REF_PIC_LIST_0 then 2 else -1
  numAddHyps := 0
  numMergedAddHyps := 0
  isBipredRestriction := false

theorem predictedSigns_halfUnit :
    RoundTrips True (CABACWriter.unitDifferences allFlags halfUnit) (CABACReader.unitDifferences allFlags (begun halfUnit))
      fun _ pu' => ∀ l, InUse allFlags halfUnit l → ¬Mirrored halfUnit l → Recovered allFlags halfUnit l pu' ∧
        (¬Explicit allFlags halfUnit l → 0 ≤ halfUnit.mvsdIdx l →
          halfUnit.mvsdIdx l < 2 ^ numSigns (Mv.components (diffs halfUnit l)) →
          pu'.mvsdIdx l = halfUnit.mvsdIdx l) := by
  refine predictedSigns_readBack allFlags halfUnit
    { applicable := rfl
      fits := fun l _ mv hmv => ?_
      affineImv := fun h => Bool.noConfusion h
      transOff := fun _ h => ?_
      affineOff := fun h => Bool.noConfusion h
      amvpMerge := fun h => ?_
      mergeZero := fun _ h => Bool.noConfusion h
      amvpZero := fun _ h => Bool.noConfusion h
      smvdMode := fun h => absurd rfl h
      mirrored := fun h => absurd rfl h
      unrestricted := fun _ => rfl
      indexed := fun l _ _ hindex _ => ?_ }
  · obtain rfl : mv = halfUnit.mvd l := mem_singleton.mp hmv
    cases l <;> exact ⟨⟨by decide, by decide⟩, by decide, by decide⟩
  · rcases h with h | h | h <;> exact Bool.noConfusion h
  · rcases h with h | h <;> exact Bool.noConfusion h
  · cases l with
    | REF_PIC_LIST_0 => decide
    | REF_PIC_LIST_1 => exact absurd ⟨rfl, rfl, rfl, rfl⟩ hindex

/-- An affine difference in internal precision. -/
def farUnit : PredictionUnit where
  interDir := 1
  affine := true
  affineType := .AFFINEMODEL_4PARAM
  smvdMode := 0
  imv := .IMV_FPEL
  amvpMergeModeFlag := fun _ => false
  mvpIdx := fun _ => 0
  mvd := fun _ => .zero
  mvdAffi := fun _ i => if i = 0 then ⟨-131072, 0⟩ else .zero
  mvsdIdx := fun _ => 0
  numAddHyps := 0
  numMergedAddHyps := 0
  isBipredRestriction := false

/-- The smallest difference that the reader admits has no size that it admits. -/
theorem predictedSigns_farUnit : farUnit.isMvsdApplicable allFlags = true ∧
    (∀ mv ∈ diffs farUnit REF_PIC_LIST_0, Multiple (amvrShift farUnit.affine farUnit.imv) mv ∧
      Mv.Legal mv.hor ∧ Mv.Legal mv.ver) ∧
    ∃ bins, CABACWriter.unitDifferences allFlags farUnit = .ok ((), bins) ∧
      CABACReader.unitDifferences allFlags (begun farUnit) bins = .error "Illegal MVD value" := by
  refine ⟨rfl, fun mv hmv => ?_, _, rfl, rfl⟩
  obtain ⟨i, hi, rfl⟩ := mem_map.mp hmv
  have hi2 : i < 2 := mem_range.mp hi
  match i, hi2 with
  | 0, _ => exact ⟨⟨by decide, by decide⟩, by decide, by decide⟩
  | 1, _ => exact ⟨⟨by decide, by decide⟩, by decide, by decide⟩

end ECM.Motion.SignPrediction
