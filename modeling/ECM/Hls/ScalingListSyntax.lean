import ECM.DecoderLib.HLSyntaxReader
import ECM.EncoderLib.HLSWriter

/-! # Scaling lists come back if their references are there

The bits are read as they were written. A list comes back as far as the list it refers to
is known to the decoder: where the chroma lists are not coded, the encoder may still refer
to them, and the decoder has the default instead. -/

namespace ECM.Hls.ScalingListSyntax
open CommonLib CommonLib.BitStream CommonLib.Rom Lib.Loop ScalingList Function
open EncoderLib.VLCWriter DecoderLib.VLCReader ECM.Hls

variable {chroma : Bool} {sl d d' : ScalingList} {id j : ℕ}

/-! ## Which coefficients are coded -/

/-- The coefficient is not in the quarter that is left out. -/
def CodedAt (id j : ℕ) : Prop :=
  j < coefNum id ∧ ¬(SCALING_LIST_1D_START_64x64 ≤ id ∧ 4 ≤ j % 8 ∧ 4 ≤ j / 8)

theorem skipped_iff (id i : ℕ) : Skipped id (scan id i) ↔ SCALING_LIST_1D_START_64x64 ≤ id ∧
    4 ≤ (scan id i).idx % 8 ∧ 4 ≤ (scan id i).idx / 8 := by
  refine and_congr_right fun h64 => ?_
  have hsize : matrixSize id = 8 := by
    have h64 : 26 ≤ id := h64
    rw [matrixSize, SCALING_LIST_1D_START_4x4, SCALING_LIST_1D_START_8x8, if_neg (by omega), if_neg (by omega)]
  have hx : (scan id i).x = (scan id i).idx - (scan id i).idx / matrixSize id * matrixSize id := rfl
  have hy : (scan id i).y = (scan id i).idx / matrixSize id := rfl
  rw [hx, hy, hsize]
  omega

/-- Each coefficient that is coded is met by the scan. -/
theorem CodedAt.exists_scan (h : CodedAt id j) :
    ∃ i < coefNum id, (scan id i).idx = j ∧ ¬Skipped id (scan id i) := by
  obtain ⟨i, hi, hidx⟩ := exists_scanUngrouped h.1
  refine ⟨i, hi, hidx, ?_⟩
  rw [skipped_iff, show (scan id i).idx = j from hidx]
  exact h.2

/-- What is coded of a list is coded of its reference. -/
theorem CodedAt.of_ref {ref : ℕ} (h : CodedAt id j) (href : RefInside id ref) : CodedAt ref j := by
  refine ⟨?_, fun hskip => h.2 ⟨hskip.1.trans href.le, hskip.2⟩⟩
  rw [coefNum, href.matrixSize_eq]
  exact h.1

theorem codedAt_zero (id : ℕ) : CodedAt id 0 := by
  refine ⟨?_, fun h => absurd h.2.1 (by decide)⟩
  rw [coefNum, matrixSize]
  split_ifs <;> decide

/-! ## Differences -/

theorem delta_roundTrips (v : ℤ) : RoundTrips True (codeDelta v) READ_SVLC fun _ u => u % 256 = v % 256 := by
  have hlow : -128 ≤ i8 ((v + 128) % 256 - 128) ∧ i8 ((v + 128) % 256 - 128) < 128 := by
    rw [i8]
    omega
  refine (roundTrips_svlc (by omega) (by omega)).mono fun _ u hu => ?_
  rw [hu, i8]
  omega

/-- The reader has the sum of the differences up to multiples of 256. -/
theorem coefs_roundTrips (id : ℕ) (delta srcPred : ℕ → ℤ) {nw nr : ℤ} (hnext : nr % 256 = nw % 256) (dst : ℕ → ℤ) :
    RoundTrips True
      (loop (fun i nextCoef => if Skipped id (scan id i) then pure nextCoef else do
        codeDelta (delta i - nextCoef)
        return delta i) (coefNum id) nw)
      (readCoefs id srcPred nr dst) fun _ p => ∀ i < coefNum id,
        ¬Skipped id (scan id i) → p.2 (scan id i).idx = (delta i + srcPred (scan id i).idx) % 256 := by
  have hloop : RoundTrips True _ (readCoefs id srcPred nr dst) _ := roundTrips_loop (n := coefNum id)
    (P := fun n (next : ℤ) (p : ℤ × (ℕ → ℤ)) => p.1 % 256 = next % 256 ∧ ∀ i < n,
      ¬Skipped id (scan id i) → p.2 (scan id i).idx = (delta i + srcPred (scan id i).idx) % 256)
    (f := fun i nextCoef => if Skipped id (scan id i) then pure nextCoef else do
      codeDelta (delta i - nextCoef)
      return delta i)
    ⟨hnext, fun i hi => absurd hi (Nat.not_lt_zero i)⟩ fun n hn next p hp => by
      have hother : ∀ i < n, (scan id i).idx ≠ (scan id n).idx := fun i hi heq =>
        Nat.ne_of_lt hi (scanUngrouped_idx_inj (Nat.lt_trans hi hn) hn heq)
      by_cases hskip : Skipped id (scan id n)
      · rw [if_pos hskip, if_pos hskip]
        refine roundTrips_pure ⟨hp.1, fun i hi hcoded => ?_⟩
        dsimp only
        rcases Nat.lt_succ_iff_lt_or_eq.mp hi with hlt | rfl
        · rw [update_of_ne (hother i hlt)]
          exact hp.2 i hlt hcoded
        · exact absurd hskip hcoded
      · rw [if_neg hskip, if_neg hskip]
        refine roundTrips_bind (delta_roundTrips _) fun _ data hdata => ?_
        refine roundTrips_pure ⟨by omega, fun i hi hcoded => ?_⟩
        dsimp only
        rcases Nat.lt_succ_iff_lt_or_eq.mp hi with hlt | rfl
        · rw [update_of_ne (hother i hlt)]
          exact hp.2 i hlt hcoded
        · rw [update_self]
          omega
  exact hloop.mono fun _ p hp => hp.2

/-! ## One list -/

/-- The list is in the stream. -/
def Transmitted (chroma : Bool) (id : ℕ) : Prop := chroma = true ∨ isLumaScalingList id = true

/-- The list `id` of `d` is what the reader makes of that of `sl` where the lists before
it are those of `d₀`. -/
structure DecodedFrom (chroma : Bool) (sl d₀ d : ScalingList) (id : ℕ) : Prop where
  inferred : ¬Transmitted chroma id →
    (∀ j < coefNum id, d.m_scalingListCoef id j = 16) ∧ (SCALING_LIST_1D_START_16x16 ≤ id → d.m_scalingListDC id = 16)
  copied : Transmitted chroma id → sl.m_scalingListPredModeFlagIsCopy id = true →
    (∀ j < coefNum id, d.m_scalingListCoef id j = d₀.refScalingList id (sl.m_refMatrixId id) j) ∧
      (SCALING_LIST_1D_START_16x16 ≤ id → d.m_scalingListDC id = d₀.refDC id (sl.m_refMatrixId id))
  predicted : Transmitted chroma id → sl.m_scalingListPreditorModeFlag id = true →
    (∀ j, CodedAt id j → d.m_scalingListCoef id j = (sl.m_scalingListCoef id j -
      sl.refScalingList id (sl.m_refMatrixId id) j + d₀.refScalingList id (sl.m_refMatrixId id) j) % 256) ∧
    (SCALING_LIST_1D_START_16x16 ≤ id → d.m_scalingListDC id = (sl.m_scalingListDC id -
      sl.refDC id (sl.m_refMatrixId id) + d₀.refDC id (sl.m_refMatrixId id)) % 256)
  alone : Transmitted chroma id → sl.m_scalingListPredModeFlagIsCopy id = false →
    sl.m_scalingListPreditorModeFlag id = false →
    (∀ j, CodedAt id j → d.m_scalingListCoef id j = sl.m_scalingListCoef id j % 256) ∧
      (SCALING_LIST_1D_START_16x16 ≤ id → d.m_scalingListDC id = sl.m_scalingListDC id % 256)

/-- Only the list `id` has changed. -/
def OnlyAt (id : ℕ) (d d' : ScalingList) : Prop :=
  ∀ k, k ≠ id → d'.m_scalingListCoef k = d.m_scalingListCoef k ∧ d'.m_scalingListDC k = d.m_scalingListDC k

/-- The references of a list are among the lists before it. -/
theorem ref_congr {ref : ℕ} (hle : ref ≤ id) (h : ∀ k < id, d'.m_scalingListCoef k = d.m_scalingListCoef k ∧
    d'.m_scalingListDC k = d.m_scalingListDC k) :
    d'.refScalingList id ref = d.refScalingList id ref ∧ d'.refDC id ref = d.refDC id ref := by
  rcases Nat.lt_or_eq_of_le hle with hlt | rfl
  · obtain ⟨hcoef, hdc⟩ := h ref hlt
    have hlist : d'.refScalingList id ref = d.refScalingList id ref := by
      rw [refScalingList, refScalingList, hcoef]
    rw [refDC, refDC, hlist, hdc]
    exact ⟨rfl, rfl⟩
  · simp [refDC, refScalingList]

theorem DecodedFrom.congr {d₀ d₁ : ScalingList} (h : DecodedFrom chroma sl d₀ d id) (hmode : sl.ModeChosen id)
    (hbelow : ∀ k < id, d₁.m_scalingListCoef k = d₀.m_scalingListCoef k ∧
      d₁.m_scalingListDC k = d₀.m_scalingListDC k)
    (hself : d'.m_scalingListCoef id = d.m_scalingListCoef id ∧ d'.m_scalingListDC id = d.m_scalingListDC id) :
    DecodedFrom chroma sl d₁ d' id := by
  obtain ⟨hinferred, hcopied, hpredicted, halone⟩ := h
  refine ⟨?_, fun hthere hcopy => ?_, fun hthere hpred => ?_, ?_⟩
  · rwa [hself.1, hself.2]
  · obtain ⟨hlist, hdc⟩ := ref_congr (hmode.ref (.inl hcopy)).le hbelow
    rw [hself.1, hself.2, hlist, hdc]
    exact hcopied hthere hcopy
  · obtain ⟨hlist, hdc⟩ := ref_congr (hmode.ref (.inr hpred)).le hbelow
    rw [hself.1, hself.2, hlist, hdc]
    exact hpredicted hthere hpred
  · rwa [hself.1, hself.2]

/-! ## What the reader makes of a mode -/

/-- The mode as it is read. -/
structure ModeRead (id : ℕ) (sl d d' : ScalingList) : Prop where
  coef : d'.m_scalingListCoef = d.m_scalingListCoef
  dc : d'.m_scalingListDC = d.m_scalingListDC
  isCopy : d'.m_scalingListPredModeFlagIsCopy id = sl.m_scalingListPredModeFlagIsCopy id
  isPred : d'.m_scalingListPreditorModeFlag id = sl.m_scalingListPreditorModeFlag id
  ref : sl.m_scalingListPredModeFlagIsCopy id = true ∨ sl.m_scalingListPreditorModeFlag id = true →
    d'.m_refMatrixId id = sl.m_refMatrixId id

theorem mode_roundTrips (hmode : sl.ModeChosen id) (hid : id < 28) (d : ScalingList) :
    RoundTrips True (codeMode sl id) (readMode d id) fun _ d' => ModeRead id sl d d' := by
  have hread : ∀ isCopy isPred ref, isCopy = sl.m_scalingListPredModeFlagIsCopy id →
      isPred = sl.m_scalingListPreditorModeFlag id →
      (sl.m_scalingListPredModeFlagIsCopy id = true ∨ sl.m_scalingListPreditorModeFlag id = true →
        ref = sl.m_refMatrixId id) → ModeRead id sl d (d.setMode id isCopy isPred ref) := by
    intro isCopy isPred ref hcopy hpred href
    exact ⟨rfl, rfl, (update_self ..).trans hcopy, (update_self ..).trans hpred,
      fun h => (update_self ..).trans (href h)⟩
  refine roundTrips_bind (roundTrips_flag _) fun _ isCopy hcopy => ?_
  subst hcopy
  have hflag : RoundTrips True (if sl.m_scalingListPredModeFlagIsCopy id = false then
        WRITE_FLAG (sl.m_scalingListPreditorModeFlag id) else pure ())
      (if sl.m_scalingListPredModeFlagIsCopy id = false then READ_FLAG else pure false)
      fun _ isPred => isPred = sl.m_scalingListPreditorModeFlag id :=
    roundTrips_ite Iff.rfl (fun _ => roundTrips_flag _) fun h => roundTrips_pure
      (hmode.copy (by rwa [Bool.not_eq_false] at h)).1.symm
  refine roundTrips_bind hflag fun _ isPred hpred => ?_
  subst hpred
  have href : RoundTrips True (if (sl.m_scalingListPredModeFlagIsCopy id ∨ sl.m_scalingListPreditorModeFlag id) ∧
        ¬IsStart id then WRITE_UVLC (id - sl.m_refMatrixId id) else pure ())
      (if (sl.m_scalingListPredModeFlagIsCopy id ∨ sl.m_scalingListPreditorModeFlag id) ∧ ¬IsStart id then do
        let code ← READ_UVLC
        return sub32 id code
      else if sl.m_scalingListPredModeFlagIsCopy id ∨ sl.m_scalingListPreditorModeFlag id then pure id
      else pure (d.m_refMatrixId id)) fun _ ref =>
        sl.m_scalingListPredModeFlagIsCopy id = true ∨ sl.m_scalingListPreditorModeFlag id = true →
          ref = sl.m_refMatrixId id := by
    refine roundTrips_ite Iff.rfl (fun h => ?_) fun h => ?_
    · have hle := (hmode.ref h.1).le
      refine (roundTrips_uvlc (by omega)).then_right fun _ code hcode => ⟨_, rfl, fun _ => ?_⟩
      rw [hcode, sub32_of_le (Nat.sub_le _ _) (by omega)]
      omega
    · by_cases hused : sl.m_scalingListPredModeFlagIsCopy id = true ∨ sl.m_scalingListPreditorModeFlag id = true
      · rw [if_pos hused]
        have hstart : IsStart id := by_contra fun hstart => h ⟨hused, hstart⟩
        exact roundTrips_pure fun _ => ((hmode.ref hused).start hstart).symm
      · rw [if_neg hused]
        exact roundTrips_pure fun hyes => absurd hyes hused
  exact href.then_right fun _ ref href => ⟨_, rfl, hread _ _ _ rfl rfl href⟩

theorem refAt_ok {ref : ℕ} (href : RefInside id ref) (hid : id < 28) (d : ScalingList) :
    refAt d id ref = .ok (d.refScalingList id ref) := by
  have hle := href.le
  have hsize := href.matrixSize_eq
  rw [refAt, check_ok _ (by omega)]
  rfl

/-- A copy is the reference as the decoder has it. -/
theorem copyScalingList_ok {ref : ℕ} (href : RefInside id ref) (hid : id < 28) (hd : d.m_refMatrixId id = ref) :
    ∃ d', copyScalingList d id = .ok d' ∧ OnlyAt id d d' ∧
      d'.m_scalingListCoef id = d.refScalingList id ref ∧
      (SCALING_LIST_1D_START_16x16 ≤ id → d'.m_scalingListDC id = d.refDC id ref) := by
  rw [copyScalingList, hd, refAt_ok href hid, ok_bind]
  refine ⟨_, rfl, fun k hk => ⟨?_, ?_⟩, update_self .., fun h16 => ?_⟩
  · refine (update_of_ne hk _ _).trans ?_
    split_ifs <;> rfl
  · by_cases h16 : id ≥ SCALING_LIST_1D_START_16x16
    · simp only [if_pos h16, setScalingListCoef, setScalingListDC]
      exact update_of_ne hk _ _
    · simp only [if_neg h16, setScalingListCoef]
  · simp only [if_pos h16, setScalingListCoef, setScalingListDC, update_self, refDC, refScalingList]
    have h16 : 14 ≤ id := h16
    by_cases hself : id = ref
    · rw [if_pos hself, if_neg (by rw [SCALING_LIST_1D_START_16x16]; omega), if_pos hself]
    · rw [if_neg hself, if_neg hself, if_neg hself]

/-- The DC value and the coefficients that `dcDelta` and `coefDelta` and the predictions give. -/
structure Deltas (id : ℕ) (d' : ScalingList) (dc : ℤ) (coef : ℕ → ℤ) : Prop where
  coef : ∀ i < coefNum id, ¬Skipped id (scan id i) → d'.m_scalingListCoef id (scan id i).idx = coef i % 256
  dc : SCALING_LIST_1D_START_16x16 ≤ id → d'.m_scalingListDC id = dc % 256

theorem deltas_roundTrips (id : ℕ) (dc dcPred nextCoef : ℤ) (coef srcPred : ℕ → ℤ) (d : ScalingList) :
    RoundTrips True (codeDeltas id dc coef nextCoef) (decodeDeltas d id dcPred srcPred nextCoef)
      fun _ d' => OnlyAt id d d' ∧ Deltas id d' (dc + dcPred) fun i => coef i + srcPred (scan id i).idx := by
  have hdc : RoundTrips True
      (if id ≥ SCALING_LIST_1D_START_16x16 then do
        codeDelta (dc - nextCoef)
        return dc
      else pure nextCoef)
      (if id ≥ SCALING_LIST_1D_START_16x16 then do
        let data ← READ_SVLC
        return (nextCoef + data, setScalingListDC d id ((nextCoef + data + dcPred + 256) % 256))
      else pure (nextCoef, d)) fun (next : ℤ) p => p.1 % 256 = next % 256 ∧ OnlyAt id d p.2 ∧
        (SCALING_LIST_1D_START_16x16 ≤ id → p.2.m_scalingListDC id = (dc + dcPred) % 256) := by
    refine roundTrips_ite Iff.rfl (fun _ => ?_) fun h => roundTrips_pure
      ⟨rfl, fun _ _ => ⟨rfl, rfl⟩, fun h16 => absurd h16 h⟩
    refine roundTrips_bind (delta_roundTrips _) fun _ data hdata => ?_
    refine roundTrips_pure ⟨?_, fun k hk => ⟨rfl, update_of_ne hk _ _⟩, fun _ => ?_⟩
    · dsimp only
      omega
    · refine (update_self ..).trans ?_
      omega
  refine roundTrips_bind hdc fun next p hp => ?_
  obtain ⟨hnext, honly, hp⟩ := hp
  refine (coefs_roundTrips id coef srcPred hnext _).then_right fun _ q hq => ⟨_, rfl, fun k hk => ?_, ?_, hp⟩
  · exact ⟨(update_of_ne hk _ _).trans (honly k hk).1, (honly k hk).2⟩
  · intro i hi hcoded
    have hself : (setScalingListCoef p.2 id q.2).m_scalingListCoef id = q.2 := update_self ..
    rw [hself]
    exact hq i hi hcoded

/-- Differences to a reference are added to the reference as the decoder has it. -/
theorem predicted_roundTrips {ref : ℕ} (href : RefInside id ref) (hid : id < 28)
    (hsl : sl.m_refMatrixId id = ref) (hd : d.m_refMatrixId id = ref) :
    RoundTrips True (xCodeScalingList sl id true) (decodeScalingList d id true) fun _ d' => OnlyAt id d d' ∧
      Deltas id d' (sl.m_scalingListDC id - sl.refDC id ref + d.refDC id ref) fun i =>
        sl.m_scalingListCoef id (scan id i).idx - sl.refScalingList id ref (scan id i).idx +
          d.refScalingList id ref (scan id i).idx := by
  obtain ⟨d₁, hd₁⟩ : ∃ d₁, d₁ = if id = ref then setScalingListDC d ref SCALING_LIST_DC else d := ⟨_, rfl⟩
  have hcoef₁ : d₁.m_scalingListCoef = d.m_scalingListCoef := by
    rw [hd₁]
    split_ifs <;> rfl
  have honly₁ : OnlyAt id d d₁ := by
    intro k hk
    rw [hd₁]
    by_cases hself : id = ref
    · rw [if_pos hself]
      exact ⟨rfl, update_of_ne (hself ▸ hk) _ _⟩
    · rw [if_neg hself]
      exact ⟨rfl, rfl⟩
  have hdc₁ : (if ref ≥ SCALING_LIST_1D_START_16x16 then d₁.m_scalingListDC ref
      else d.refScalingList id ref 0) = d.refDC id ref := by
    rw [refDC]
    by_cases h16 : ref ≥ SCALING_LIST_1D_START_16x16
    · rw [if_pos h16, if_neg (Nat.not_lt_of_le h16), hd₁]
      by_cases hself : id = ref
      · rw [if_pos hself, if_pos hself]
        exact update_self ..
      · rw [if_neg hself, if_neg hself]
    · rw [if_neg h16, if_pos (Nat.lt_of_not_ge h16)]
  have hread : decodeScalingList d id true =
      decodeDeltas d₁ id (d.refDC id ref) (d.refScalingList id ref) 0 := by
    have hcheck : ¬((true = true) ∧ ref > id) := fun h => Nat.not_lt_of_le href.le h.2
    rw [decodeScalingList, hd, check_ok _ hcheck, refAt_ok href hid, ← hdc₁, hd₁]
    simp only [true_and]
    rfl
  have hzero : (scan id 0).idx = 0 := by
    simp [scan, scanUngrouped, scanGenerator, ScanElement.ofRaster]
  have hwrite : dcDelta sl id true = sl.m_scalingListDC id - sl.refDC id ref := by
    rw [dcDelta, if_pos rfl, hsl, hzero, refDC]
    by_cases h16 : ref ≥ SCALING_LIST_1D_START_16x16
    · rw [if_pos h16, if_neg (Nat.not_lt_of_le h16)]
    · rw [if_neg h16, if_pos (Nat.lt_of_not_ge h16)]
  have hcoefs : ∀ i, coefDelta sl id true i =
      sl.m_scalingListCoef id (scan id i).idx - sl.refScalingList id ref (scan id i).idx := by
    intro i
    rw [coefDelta, if_pos rfl, hsl]
  rw [hread]
  refine (deltas_roundTrips id _ _ 0 _ _ d₁).then_left fun _ d' hd' => ⟨(), rfl, fun k hk => ?_, ?_⟩
  · exact ⟨(hd'.1 k hk).1.trans (honly₁ k hk).1, (hd'.1 k hk).2.trans (honly₁ k hk).2⟩
  · have hdeltas := hd'.2
    rw [hwrite] at hdeltas
    simp only [hcoefs] at hdeltas
    exact hdeltas

/-- A list by itself. -/
theorem alone_roundTrips (sl d : ScalingList) (id : ℕ) :
    RoundTrips True (xCodeScalingList sl id false) (decodeScalingList d id false) fun _ d' => OnlyAt id d d' ∧
      Deltas id d' (sl.m_scalingListDC id) fun i => sl.m_scalingListCoef id (scan id i).idx := by
  have hread : decodeScalingList d id false = decodeDeltas d id 0 (fun _ => 0) SCALING_LIST_START_VALUE := rfl
  rw [hread]
  refine (deltas_roundTrips id _ 0 _ _ (fun _ => 0) d).then_left fun _ d' hd' => ⟨(), rfl, hd'.1, ?_⟩
  have hdeltas := hd'.2
  simp only [Int.add_zero] at hdeltas
  exact hdeltas

theorem Deltas.at {dc : ℤ} {f : ℕ → ℤ} (h : Deltas id d dc fun i => f (scan id i).idx) (hj : CodedAt id j) :
    d.m_scalingListCoef id j = f j % 256 := by
  obtain ⟨i, hi, rfl, hcoded⟩ := hj.exists_scan
  exact h.coef i hi hcoded

theorem one_roundTrips (hmode : sl.ModeChosen id) (hid : id < 28) (hthere : Transmitted chroma id)
    (d : ScalingList) : RoundTrips True (codeOneScalingList sl id) (readOneScalingList d id)
      fun _ d' => OnlyAt id d d' ∧ DecodedFrom chroma sl d d' id := by
  refine roundTrips_bind (mode_roundTrips hmode hid d) fun _ d₁ hd₁ => ?_
  have honly : ∀ {d'}, OnlyAt id d₁ d' → OnlyAt id d d' := fun h k hk => by
    rw [← hd₁.coef, ← hd₁.dc]
    exact h k hk
  have hrefs : ∀ ref, d₁.refScalingList id ref = d.refScalingList id ref ∧ d₁.refDC id ref = d.refDC id ref :=
    fun ref => by simp only [refDC, refScalingList, hd₁.coef, hd₁.dc, and_self]
  cases hcopy : sl.m_scalingListPredModeFlagIsCopy id with
  | true =>
    obtain ⟨hpred, -⟩ := hmode.copy hcopy
    obtain ⟨d', hd', h, hcoef, hdc⟩ := copyScalingList_ok (hmode.ref (.inl hcopy)) hid (hd₁.ref (.inl hcopy))
    rw [if_neg (by decide), hd₁.isCopy, hcopy, if_pos rfl, hd']
    rw [(hrefs _).1] at hcoef
    rw [(hrefs _).2] at hdc
    refine roundTrips_pure ⟨honly h, fun h => absurd hthere h, fun _ _ => ⟨fun j _ => by rw [hcoef], hdc⟩,
      fun _ h => ?_, fun _ h => ?_⟩
    · exact absurd (hpred.symm.trans h) Bool.false_ne_true
    · exact absurd (h.symm.trans hcopy) Bool.false_ne_true
  | false =>
    rw [if_pos rfl, hd₁.isCopy, hcopy, if_neg Bool.false_ne_true, hd₁.isPred]
    have hnot : sl.m_scalingListPredModeFlagIsCopy id = true → False := fun h =>
      Bool.false_ne_true (hcopy.symm.trans h)
    cases hpred : sl.m_scalingListPreditorModeFlag id with
    | true =>
      refine (predicted_roundTrips (hmode.ref (.inr hpred)) hid rfl (hd₁.ref (.inr hpred))).mono fun _ d' hd' => ?_
      obtain ⟨h, hdeltas⟩ := hd'
      rw [(hrefs _).1, (hrefs _).2] at hdeltas
      refine ⟨honly h, fun h => absurd hthere h, fun _ h => (hnot h).elim, fun _ _ => ⟨fun j hj => ?_, hdeltas.dc⟩,
        fun _ _ h => absurd (h.symm.trans hpred) Bool.false_ne_true⟩
      exact Deltas.at (f := fun j => sl.m_scalingListCoef id j - sl.refScalingList id (sl.m_refMatrixId id) j +
        d.refScalingList id (sl.m_refMatrixId id) j) hdeltas hj
    | false =>
      refine (alone_roundTrips sl d₁ id).mono fun _ d' hd' => ?_
      obtain ⟨h, hdeltas⟩ := hd'
      exact ⟨honly h, fun h => absurd hthere h, fun _ h => (hnot h).elim,
        fun _ h => absurd (hpred.symm.trans h) Bool.false_ne_true,
        fun _ _ _ => ⟨fun j hj => Deltas.at (f := sl.m_scalingListCoef id) hdeltas hj, hdeltas.dc⟩⟩

/-- A list that is not there. -/
theorem infer_ok (hid : id < 28) (hthere : ¬Transmitted chroma id) (sl d : ScalingList) :
    ∃ d', inferScalingList d id = .ok d' ∧ OnlyAt id d d' ∧ DecodedFrom chroma sl d d' id := by
  have hself : RefInside id id := ⟨Nat.le_refl id, rfl, fun _ => rfl⟩
  obtain ⟨d', hd', honly, hcoef, hdc⟩ := copyScalingList_ok hself hid
    (d := { d with
      m_scalingListPredModeFlagIsCopy := update d.m_scalingListPredModeFlagIsCopy id true
      m_refMatrixId := update d.m_refMatrixId id id }) (update_self ..)
  refine ⟨d', hd', honly, fun _ => ⟨fun j hj => ?_, fun h16 => ?_⟩, fun h => absurd h hthere,
    fun h => absurd h hthere, fun h => absurd h hthere⟩
  · rw [hcoef, refScalingList, if_pos rfl, getScalingListDefaultAddress_eq hj]
  · rw [hdc h16, refDC, if_neg (Nat.not_lt_of_le h16), if_pos rfl]

/-! ## All lists -/

theorem lists_roundTrips (hmode : ∀ id < 28, sl.ModeChosen id) (chroma : Bool) (d : ScalingList) :
    RoundTrips True (codeScalingList sl chroma) (parseScalingList d chroma)
      fun _ d' => ∀ id < 28, DecodedFrom chroma sl d' d' id := by
  refine roundTrips_loop (P := fun n _ d' => ∀ id < n, DecodedFrom chroma sl d' d' id)
    (fun id hid => absurd hid (Nat.not_lt_zero id)) fun n hn _ d₀ hd₀ => ?_
  -- the lists before it stay as they are, and so do the references of the list
  have hstep : ∀ d', OnlyAt n d₀ d' ∧ DecodedFrom chroma sl d₀ d' n →
      ∀ id < n + 1, DecodedFrom chroma sl d' d' id := by
    rintro d' ⟨honly, hlast⟩ id hid
    rcases Nat.lt_succ_iff_lt_or_eq.mp hid with hlt | rfl
    · exact (hd₀ id hlt).congr (hmode id (Nat.lt_trans hlt hn))
        (fun k hk => honly k (Nat.ne_of_lt (Nat.lt_trans hk hlt))) (honly id (Nat.ne_of_lt hlt))
    · exact hlast.congr (hmode id hn) (fun k hk => honly k (Nat.ne_of_lt hk)) ⟨rfl, rfl⟩
  refine roundTrips_ite Iff.rfl (fun hthere => ?_) fun hthere => ?_
  · exact (one_roundTrips (hmode n hn) hn hthere d₀).mono fun _ d' hd' => hstep d' hd'
  · obtain ⟨d', hd', h⟩ := infer_ok hn hthere sl d₀
    rw [hd']
    exact roundTrips_pure (hstep d' h)

/-! ## When the lists come back -/

/-- Coefficients and DC values are in 1..255. -/
structure InRange (sl : ScalingList) : Prop where
  coef : ∀ id < 28, ∀ j < coefNum id, 1 ≤ sl.m_scalingListCoef id j ∧ sl.m_scalingListCoef id j ≤ 255
  dc : ∀ id < 28, SCALING_LIST_1D_START_16x16 ≤ id → 1 ≤ sl.m_scalingListDC id ∧ sl.m_scalingListDC id ≤ 255

/-- What is coded of the list is as it was. -/
def Reproduced (sl d : ScalingList) (id : ℕ) : Prop :=
  (∀ j, CodedAt id j → d.m_scalingListCoef id j = sl.m_scalingListCoef id j) ∧
    (SCALING_LIST_1D_START_16x16 ≤ id → d.m_scalingListDC id = sl.m_scalingListDC id)

/-- What is coded of the list `id` has the default for its reference `ref`. -/
def FlatRef (sl : ScalingList) (id ref : ℕ) : Prop :=
  (∀ j, CodedAt id j → sl.m_scalingListCoef ref j = 16) ∧ (SCALING_LIST_1D_START_16x16 ≤ id → sl.refDC id ref = 16)

/-- Lists that are in the stream refer to lists that are there as well, or are like the default. -/
def RefsKnown (chroma : Bool) (sl : ScalingList) : Prop :=
  ∀ id < 28, Transmitted chroma id →
    sl.m_scalingListPredModeFlagIsCopy id = true ∨ sl.m_scalingListPreditorModeFlag id = true →
    ¬Transmitted chroma (sl.m_refMatrixId id) → FlatRef sl id (sl.m_refMatrixId id)

/-- The reference is the same on both sides. -/
theorem ref_eq {ref : ℕ} (href : RefInside id ref) (hid : id < 28) (hthere : Transmitted chroma id)
    (hd : ∀ k < 28, DecodedFrom chroma sl d d k)
    (hflat : ¬Transmitted chroma ref → FlatRef sl id ref)
    (hbefore : ∀ k < id, Transmitted chroma k → Reproduced sl d k) :
    (∀ j, CodedAt id j → d.refScalingList id ref j = sl.refScalingList id ref j) ∧
      (SCALING_LIST_1D_START_16x16 ≤ id → d.refDC id ref = sl.refDC id ref) := by
  rcases Nat.lt_or_eq_of_le href.le with hlt | rfl
  · have hne : id ≠ ref := Nat.ne_of_gt hlt
    have hcoef : ∀ j, CodedAt id j → d.m_scalingListCoef ref j = sl.m_scalingListCoef ref j := by
      intro j hj
      by_cases hknown : Transmitted chroma ref
      · exact (hbefore ref hlt hknown).1 j (hj.of_ref href)
      · rw [((hd ref (Nat.lt_trans hlt hid)).inferred hknown).1 j (hj.of_ref href).1, (hflat hknown).1 j hj]
    refine ⟨fun j hj => ?_, fun h16 => ?_⟩
    · rw [refScalingList, refScalingList, if_neg hne, if_neg hne]
      exact hcoef j hj
    · rw [refDC, refDC, refScalingList, refScalingList, if_neg hne, if_neg hne, if_neg hne, if_neg hne]
      by_cases hdc : ref < SCALING_LIST_1D_START_16x16
      · rw [if_pos hdc, if_pos hdc]
        exact hcoef 0 (codedAt_zero id)
      rw [if_neg hdc, if_neg hdc]
      by_cases hknown : Transmitted chroma ref
      · exact (hbefore ref hlt hknown).2 (Nat.le_of_not_lt hdc)
      · have hdefault := (hflat hknown).2 h16
        rw [refDC, if_neg hdc, if_neg hne] at hdefault
        rw [((hd ref (Nat.lt_trans hlt hid)).inferred hknown).2 (Nat.le_of_not_lt hdc), hdefault]
  · refine ⟨fun j _ => ?_, fun _ => ?_⟩
    · rw [refScalingList, refScalingList, if_pos rfl, if_pos rfl]
    · simp [refDC, refScalingList]

theorem reproduced_of_refsKnown (hmode : ∀ id < 28, sl.ModeChosen id) (hrange : InRange sl)
    (hd : ∀ id < 28, DecodedFrom chroma sl d d id) (hknown : RefsKnown chroma sl) :
    ∀ n ≤ 28, ∀ id < n, Transmitted chroma id → Reproduced sl d id := by
  intro n
  induction n with
  | zero => exact fun _ id hid => absurd hid (Nat.not_lt_zero id)
  | succ n ih =>
    intro hn id hid hthere
    have hbefore := ih (Nat.le_of_succ_le hn)
    rcases Nat.lt_succ_iff_lt_or_eq.mp hid with hlt | rfl
    · exact hbefore id hlt hthere
    have hid : id < 28 := hn
    obtain ⟨-, hcopied, hpredicted, halone⟩ := hd id hid
    have href := fun h => ref_eq ((hmode id hid).ref h) hid hthere hd (hknown id hid hthere h) hbefore
    cases hcopy : sl.m_scalingListPredModeFlagIsCopy id with
    | true =>
      obtain ⟨hcoef, hdc⟩ := hcopied hthere hcopy
      obtain ⟨hrefCoef, hrefDC⟩ := href (.inl hcopy)
      obtain ⟨-, hsame, hsameDC⟩ := (hmode id hid).copy hcopy
      refine ⟨fun j hj => ?_, fun h16 => ?_⟩
      · rw [hcoef j hj.1, hrefCoef j hj, hsame j hj.1]
      · rw [hdc h16, hrefDC h16, hsameDC.resolve_left (Nat.not_lt_of_le h16)]
    | false =>
      cases hpred : sl.m_scalingListPreditorModeFlag id with
      | true =>
        obtain ⟨hcoef, hdc⟩ := hpredicted hthere hpred
        obtain ⟨hrefCoef, hrefDC⟩ := href (.inr hpred)
        refine ⟨fun j hj => ?_, fun h16 => ?_⟩
        · have h := hrange.coef id hid j hj.1
          rw [hcoef j hj, hrefCoef j hj]
          omega
        · have h := hrange.dc id hid h16
          rw [hdc h16, hrefDC h16]
          omega
      | false =>
        obtain ⟨hcoef, hdc⟩ := halone hthere hcopy hpred
        refine ⟨fun j hj => ?_, fun h16 => ?_⟩
        · have h := hrange.coef id hid j hj.1
          rw [hcoef j hj]
          omega
        · have h := hrange.dc id hid h16
          rw [hdc h16]
          omega

/-- A list that comes back from a reference that is not there has a flat reference. -/
theorem flatRef_of_reproduced (hmode : ∀ id < 28, sl.ModeChosen id) (hrange : InRange sl)
    (hd : ∀ id < 28, DecodedFrom chroma sl d d id)
    (hback : ∀ id < 28, Transmitted chroma id → Reproduced sl d id) : RefsKnown chroma sl := by
  intro id hid hthere hused hgone
  obtain ⟨ref, href⟩ : ∃ ref, ref = sl.m_refMatrixId id := ⟨_, rfl⟩
  rw [← href] at hgone ⊢
  have hinside : RefInside id ref := href ▸ (hmode id hid).ref hused
  have hne : id ≠ ref := fun h => hgone (h ▸ hthere)
  have hlt : ref < id := Nat.lt_of_le_of_ne hinside.le (Ne.symm hne)
  obtain ⟨hinferred, hinferredDC⟩ := (hd ref (Nat.lt_trans hlt hid)).inferred hgone
  obtain ⟨hcoefBack, hdcBack⟩ := hback id hid hthere
  -- the decoder's reference is the default
  have hdecoder : ∀ j, CodedAt id j → d.refScalingList id ref j = 16 := by
    intro j hj
    rw [refScalingList, if_neg hne]
    exact hinferred j (hj.of_ref hinside).1
  have hdecoderDC : d.refDC id ref = 16 := by
    rw [refDC, if_neg hne]
    by_cases hdc : ref < SCALING_LIST_1D_START_16x16
    · rw [if_pos hdc]
      exact hdecoder 0 (codedAt_zero id)
    · rw [if_neg hdc]
      exact hinferredDC (Nat.le_of_not_lt hdc)
  have hencoder : ∀ j, sl.refScalingList id ref j = sl.m_scalingListCoef ref j := fun j => by
    rw [refScalingList, if_neg hne]
  have hrangeDC : 1 ≤ sl.refDC id ref ∧ sl.refDC id ref ≤ 255 := by
    rw [refDC, if_neg hne]
    by_cases hdc : ref < SCALING_LIST_1D_START_16x16
    · rw [if_pos hdc, hencoder]
      exact hrange.coef ref (Nat.lt_trans hlt hid) 0 ((codedAt_zero id).of_ref hinside).1
    · rw [if_neg hdc]
      exact hrange.dc ref (Nat.lt_trans hlt hid) (Nat.le_of_not_lt hdc)
  obtain ⟨-, hcopied, hpredicted, -⟩ := hd id hid
  rw [← href] at hcopied hpredicted
  cases hcopy : sl.m_scalingListPredModeFlagIsCopy id with
  | true =>
    obtain ⟨hcoef, hdc⟩ := hcopied hthere hcopy
    obtain ⟨-, hsame, hsameDC⟩ := (hmode id hid).copy hcopy
    rw [← href] at hsame hsameDC
    refine ⟨fun j hj => ?_, fun h16 => ?_⟩
    · rw [← hencoder, ← hsame j hj.1, ← hcoefBack j hj, hcoef j hj.1, hdecoder j hj]
    · rw [← hsameDC.resolve_left (Nat.not_lt_of_le h16), ← hdcBack h16, hdc h16, hdecoderDC]
  | false =>
    obtain ⟨hcoef, hdc⟩ := hpredicted hthere (hused.resolve_left (by rw [hcopy]; exact Bool.false_ne_true))
    refine ⟨fun j hj => ?_, fun h16 => ?_⟩
    · have h := hrange.coef ref (Nat.lt_trans hlt hid) j (hj.of_ref hinside).1
      have hvalue := hcoef j hj
      rw [hcoefBack j hj, hencoder, hdecoder j hj] at hvalue
      omega
    · have hvalue := hdc h16
      rw [hdcBack h16, hdecoderDC] at hvalue
      omega

theorem InRange.modes (h : InRange sl) : InRange sl.checkPredModes := by
  obtain ⟨hcoef, hdc, -⟩ := sl.checkPredModes_spec
  refine ⟨?_, ?_⟩
  · rw [hcoef]
    exact h.coef
  · rw [hdc]
    exact h.dc

theorem reproduced_modes (sl d : ScalingList) (id : ℕ) :
    Reproduced sl.checkPredModes d id ↔ Reproduced sl d id := by
  obtain ⟨hcoef, hdc, -⟩ := sl.checkPredModes_spec
  rw [Reproduced, Reproduced, hcoef, hdc]

/-- The bits of the scaling lists, with the modes that the encoder chooses, are read to
their end, and all lists that are coded come back if and only if those that refer to a list
which is not coded refer to one like the default. -/
theorem scalingLists_reproduced_iff (sl d : ScalingList) (hrange : InRange sl) (chroma : Bool) :
    RoundTrips True (codeScalingList sl.checkPredModes chroma) (parseScalingList d chroma) fun _ d' =>
      (∀ id < 28, Transmitted chroma id → Reproduced sl d' id) ↔ RefsKnown chroma sl.checkPredModes := by
  obtain ⟨-, -, hmode⟩ := sl.checkPredModes_spec
  refine (lists_roundTrips hmode chroma d).mono fun _ d' hd' => ⟨fun hback => ?_, fun hknown => ?_⟩
  · exact flatRef_of_reproduced hmode hrange.modes hd' fun id hid hthere =>
      (reproduced_modes sl d' id).mpr (hback id hid hthere)
  · intro id hid hthere
    exact (reproduced_modes sl d' id).mp
      (reproduced_of_refsKnown hmode hrange.modes hd' hknown 28 (Nat.le_refl 28) id hid hthere)

/-- Where the lists come back, the references are known. -/
theorem refsKnown_of_roundTrips (hrange : InRange sl)
    (h : RoundTrips True (codeScalingList sl.checkPredModes chroma) (parseScalingList d chroma) fun _ d' =>
      ∀ id < 28, Transmitted chroma id → Reproduced sl d' id) : RefsKnown chroma sl.checkPredModes := by
  obtain ⟨-, -, hmode⟩ := sl.checkPredModes_spec
  obtain ⟨_, d', hback, hd'⟩ := h.both (lists_roundTrips hmode chroma d)
  exact flatRef_of_reproduced hmode hrange.modes hd' fun id hid hthere =>
    (reproduced_modes sl d' id).mpr (hback id hid hthere)

/-! ## Two examples -/

/-- No two lists are equal. -/
def steps : ScalingList where
  m_scalingListPredModeFlagIsCopy _ := false
  m_scalingListDC id := id + 1
  m_refMatrixId _ := 0
  m_scalingListPreditorModeFlag _ := false
  m_scalingListCoef id j := id + j + 1
  m_chromaScalingListPresentFlag := true

theorem scalingLists_steps : ∃ chroma, chroma = true ∧ RoundTrips True (codeScalingList steps.checkPredModes chroma)
    (parseScalingList steps chroma) fun _ d' => ∀ id < 28, Reproduced steps d' id := by
  have hrange : InRange steps := by
    refine ⟨fun id hid j hj => ?_, fun id hid _ => ?_⟩
    · have hj : j < 64 := by
        rw [coefNum, matrixSize] at hj
        split_ifs at hj <;> omega
      simp only [steps]
      omega
    · simp only [steps]
      omega
  obtain ⟨chroma, hchroma⟩ : ∃ chroma, chroma = true := ⟨true, rfl⟩
  refine ⟨chroma, hchroma, (scalingLists_reproduced_iff steps steps hrange chroma).mono fun _ d' hd' id hid => ?_⟩
  exact hd'.mpr (fun _ _ _ _ hgone => absurd (.inl hchroma) hgone) id hid (.inl hchroma)

/-- The first 4x4 lists for Cr and for luma of inter blocks are equal. -/
def equalToChroma : ScalingList where
  m_scalingListPredModeFlagIsCopy _ := false
  m_scalingListDC _ := 16
  m_refMatrixId _ := 0
  m_scalingListPreditorModeFlag _ := false
  m_scalingListCoef id _ := if id = 4 ∨ id = 5 then 20 else 16
  m_chromaScalingListPresentFlag := false

/-- Without chroma the luma list is copied from the one for Cr, which the decoder does not
have. -/
theorem scalingLists_lost : ¬∀ (sl d : ScalingList) (chroma : Bool), InRange sl →
    RoundTrips True (codeScalingList sl.checkPredModes chroma) (parseScalingList d chroma) fun _ d' =>
      ∀ id < 28, Transmitted chroma id → Reproduced sl d' id := by
  intro h
  have hrange : InRange equalToChroma := by
    refine ⟨fun id _ j _ => ?_, fun _ _ _ => ?_⟩
    · simp only [equalToChroma]
      split_ifs <;> decide
    · simp only [equalToChroma]
      decide
  have hcopies : equalToChroma.checkPredModes.CopiesFrom 5 4 :=
    equalToChroma.checkPredModes_copies (by decide)
      ⟨⟨by decide, by decide, fun h => absurd h (by decide)⟩, by decide, ⟨fun _ _ => rfl, .inl (by decide)⟩,
        fun k hk hk6 hsame => by
          obtain rfl : k = 5 := by omega
          exact absurd (hsame.1 0 (by decide)) (by decide)⟩
  obtain ⟨hcopy, href⟩ := hcopies
  obtain ⟨hcoef, -, -⟩ := equalToChroma.checkPredModes_spec
  obtain ⟨chroma, hchroma⟩ : ∃ chroma, chroma = false := ⟨false, rfl⟩
  have hflat := refsKnown_of_roundTrips hrange (h equalToChroma equalToChroma chroma hrange) 5 (by decide)
    (.inr (by decide)) (.inl hcopy) (by rw [href, hchroma]; exact fun h => h.elim (by decide) (by decide))
  rw [href, FlatRef, hcoef] at hflat
  exact absurd (hflat.1 0 (codedAt_zero 5)) (by decide)

end ECM.Hls.ScalingListSyntax
