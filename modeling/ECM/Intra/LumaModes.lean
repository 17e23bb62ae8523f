import ECM.Cabac.Binarization
import ECM.Intra.MostProbable
import Mathlib.Tactic.IntervalCases

/-! # Coding of luma intra modes

Since the two lists have each mode once, what the encoder finds in them is what the
decoder looks up, and each index has bins of its own. -/

namespace ECM.Intra.LumaModes
open CommonLib CommonLib.Bins CommonLib.PU EncoderLib DecoderLib Lib.Codec
open ECM.Cabac.Binarization ECM.Intra.MostProbable

variable {strict : Prop} {cu : IntraCu} {p : IntraPrediction} {modes : List ℕ} {count mode : ℕ}

/-! ## Indices in the lists -/

theorem modeIdx_getD (h : CABACWriter.modeIdx modes count mode < count) :
    modes.getD (CABACWriter.modeIdx modes count mode) 0 = mode := by
  unfold CABACWriter.modeIdx at h ⊢
  cases hfind : (List.range count).find? fun idx => mode = modes.getD idx 0 with
  | none =>
    rw [hfind, Option.getD_none] at h
    exact absurd h (Nat.lt_irrefl count)
  | some idx =>
    rw [Option.getD_some]
    exact (of_decide_eq_true (List.find?_range_eq_some.mp hfind).1).symm

theorem modeIdx_lt {idx : ℕ} (hidx : idx < count) (h : modes.getD idx 0 = mode) : CABACWriter.modeIdx modes count mode < count := by
  unfold CABACWriter.modeIdx
  cases hfind : (List.range count).find? fun idx => mode = modes.getD idx 0 with
  | none =>
    have hnone := List.find?_eq_none.mp hfind idx (List.mem_range.mpr hidx)
    exact absurd h.symm (by simpa using hnone)
  | some idx' =>
    rw [Option.getD_some]
    exact List.mem_range.mp (List.find?_range_eq_some.mp hfind).2.1

theorem modeIdx_lt_of_mem (h : mode ∈ modes.take count) : CABACWriter.modeIdx modes count mode < count := by
  obtain ⟨idx, hidx, heq⟩ := List.mem_iff_getElem.mp h
  rw [List.getElem_take] at heq
  rw [List.length_take] at hidx
  have hlt : idx < count := by omega
  exact modeIdx_lt hlt (by rw [List.getD_eq_getElem _ _ (by omega), heq])

theorem getD_of_mem (h : mode ∈ modes) : ∃ idx < modes.length, modes.getD idx 0 = mode := by
  obtain ⟨idx, hidx, heq⟩ := List.mem_iff_getElem.mp h
  exact ⟨idx, hidx, by rw [List.getD_eq_getElem _ _ hidx, heq]⟩

/-! ## Primary modes -/

theorem addBin_roundTrips (ctxId : CtxId) (b : Bool) (ipred_idx : ℕ) :
    RoundTrips strict (encodeBin b ctxId) (CABACReader.addBin ctxId ipred_idx) fun _ v => v = ipred_idx + b.toNat :=
  (roundTrips_bin b ctxId).then_right fun _ b' hb => ⟨_, rfl, by rw [hb]⟩

/-- What has been read of an index `k` when `low + 1` bins at most have told it from the ones below. -/
theorem moreIdx_roundTrips (k low : ℕ) :
    RoundTrips strict (if k > low then encodeBinEP (k > low + 1) else pure ())
      (CABACReader.moreIdx low (min k (low + 1))) fun _ v => v = min k (low + 2) := by
  unfold CABACReader.moreIdx
  refine roundTrips_ite (by omega) (fun hk => ?_) fun hk => roundTrips_pure (by omega)
  refine (roundTrips_binEP (decide (k > low + 1))).then_right fun _ b hb => ⟨_, rfl, ?_⟩
  rw [hb]
  by_cases hmore : k > low + 1
  · rw [decide_eq_true hmore, Bool.toNat_true]
    omega
  · rw [decide_eq_false hmore, Bool.toNat_false]
    omega

theorem primaryMpm_roundTrips {k : ℕ} (hk : k < NUM_PRIMARY_MOST_PROBABLE_MODES) (hline : p.multiRefIdx ≠ 0 → k ≠ 0) :
    RoundTrips strict (CABACWriter.primaryMpm p k) (CABACReader.primaryMpm p.multiRefIdx p.ispMode) fun _ v => v = k := by
  unfold CABACWriter.primaryMpm CABACReader.primaryMpm
  have hplanar : RoundTrips strict
      (if p.multiRefIdx = 0 then encodeBin (k > 0) ⟨.IntraLumaPlanarFlag, CABACWriter.ispCtx p.ispMode⟩ else pure ())
      (if p.multiRefIdx = 0 then CABACReader.addBin ⟨.IntraLumaPlanarFlag, CABACReader.ispCtx p.ispMode⟩ 0 else pure 1)
      fun _ v => v = min k 1 := by
    refine roundTrips_ite Iff.rfl (fun _ => ?_) fun hmulti => roundTrips_pure ?_
    · refine (addBin_roundTrips _ (decide (k > 0)) 0).mono fun _ v hv => ?_
      rw [hv]
      by_cases hpos : k > 0
      · rw [decide_eq_true hpos, Bool.toNat_true]
        omega
      · rw [decide_eq_false hpos, Bool.toNat_false]
        omega
    · have hne := hline hmulti
      omega
  refine roundTrips_bind hplanar fun _ v1 hv1 => roundTrips_bind (Q := fun _ v => v = min k 2) ?_ fun _ v2 hv2 => ?_
  · subst hv1
    refine roundTrips_ite (by omega) (fun hne => ?_) fun hzero => roundTrips_pure (by omega)
    refine (addBin_roundTrips _ (decide (k > 1)) (min k 1)).mono fun _ v hv => ?_
    rw [hv]
    by_cases hmore : k > 1
    · rw [decide_eq_true hmore, Bool.toNat_true]
      omega
    · rw [decide_eq_false hmore, Bool.toNat_false]
      omega
  · subst hv2
    refine roundTrips_bind (moreIdx_roundTrips k 1) fun _ v3 hv3 => ?_
    subst hv3
    refine roundTrips_bind (moreIdx_roundTrips k 2) fun _ v4 hv4 => ?_
    subst hv4
    have hnum : NUM_PRIMARY_MOST_PROBABLE_MODES = 6 := rfl
    exact (moreIdx_roundTrips k 3).mono fun _ v hv => by rw [hv]; omega

/-! ## The mode -/

/-- The lists of a unit have each luma mode once. -/
structure Lists (cu : IntraCu) : Prop where
  complete : Complete cu.intraMPM
  non_mpm : cu.intraNonMPM.length = NUM_NON_MPM_MODES
  all : (cu.intraMPM ++ cu.intraNonMPM).Perm (List.range NUM_LUMA_MODE)

theorem otherMode_roundTrips (hlists : Lists cu) (hmode : p.intraDir < NUM_LUMA_MODE)
    (hother : ¬ CABACWriter.modeIdx cu.intraMPM NUM_PRIMARY_MOST_PROBABLE_MODES p.intraDir < NUM_PRIMARY_MOST_PROBABLE_MODES) :
    RoundTrips strict (CABACWriter.otherMode cu p) (CABACReader.otherMode cu) fun _ v => v = p.intraDir := by
  unfold CABACWriter.otherMode CABACReader.otherMode
  dsimp only
  split
  case isTrue hsecond =>
    have hget := modeIdx_getD hsecond
    rw [List.getD_eq_getElem?_getD, List.getElem?_drop, ← List.getD_eq_getElem?_getD, Nat.add_comm] at hget
    refine roundTrips_bind (roundTrips_bin true _) fun _ b hb => ?_
    subst hb
    exact (roundTrips_binsEP fun _ => ⟨by decide, hsecond⟩).then_right fun _ v hv => ⟨_, rfl, by rw [hv]; exact hget⟩
  case isFalse hthird =>
    -- the mode is in neither part of the first list
    have hrest : p.intraDir ∈ cu.intraNonMPM := by
      have hmem := hlists.all.mem_iff.mpr (List.mem_range.mpr hmode)
      refine (List.mem_append.mp hmem).resolve_left fun hmpm => ?_
      obtain ⟨idx, hidx, heq⟩ := getD_of_mem hmpm
      have hnum : NUM_PRIMARY_MOST_PROBABLE_MODES = 6 := rfl
      have hsecondary : NUM_SECONDARY_MOST_PROBABLE_MODES = 16 := rfl
      have hall : NUM_MOST_PROBABLE_MODES = 22 := rfl
      rw [hlists.complete.length] at hidx
      by_cases hprimary : idx < NUM_PRIMARY_MOST_PROBABLE_MODES
      · exact hother (modeIdx_lt hprimary heq)
      · have hlt : idx - NUM_PRIMARY_MOST_PROBABLE_MODES < NUM_SECONDARY_MOST_PROBABLE_MODES := by omega
        refine hthird (modeIdx_lt hlt ?_)
        rw [List.getD_eq_getElem?_getD, List.getElem?_drop, ← List.getD_eq_getElem?_getD,
          Nat.add_sub_cancel' (Nat.not_lt.mp hprimary)]
        exact heq
    obtain ⟨idx, hidx, heq⟩ := getD_of_mem hrest
    rw [hlists.non_mpm] at hidx
    have hlt := modeIdx_lt hidx heq
    refine roundTrips_bind (roundTrips_bin false _) fun _ b hb => ?_
    subst hb
    exact (xTruncBinCode_roundTrips (fun _ => by decide) fun _ => hlt).then_right fun _ v hv =>
      ⟨_, rfl, by rw [hv]; exact modeIdx_getD hlt⟩

theorem luma_pred_mode_roundTrips (hlists : Lists cu) (hmode : p.intraDir < NUM_LUMA_MODE)
    (hline : p.multiRefIdx ≠ 0 →
      p.intraDir ∈ cu.intraMPM.take NUM_PRIMARY_MOST_PROBABLE_MODES ∧ p.intraDir ≠ PLANAR_IDX) :
    RoundTrips strict (CABACWriter.luma_pred_mode cu p) (CABACReader.luma_pred_mode cu p.multiRefIdx p.ispMode)
      fun _ v => v = p.intraDir := by
  unfold CABACWriter.luma_pred_mode CABACReader.luma_pred_mode
  dsimp only
  have hflag : RoundTrips strict
      (if p.multiRefIdx ≠ 0 then
        liftM (check (CABACWriter.modeIdx cu.intraMPM NUM_PRIMARY_MOST_PROBABLE_MODES p.intraDir ≥
          NUM_PRIMARY_MOST_PROBABLE_MODES) "use of non-MPM")
      else encodeBin (CABACWriter.modeIdx cu.intraMPM NUM_PRIMARY_MOST_PROBABLE_MODES p.intraDir <
        NUM_PRIMARY_MOST_PROBABLE_MODES) ⟨.IntraLumaMpmFlag, 0⟩)
      (if p.multiRefIdx ≠ 0 then pure true else decodeBin ⟨.IntraLumaMpmFlag, 0⟩)
      fun _ b => b = decide (CABACWriter.modeIdx cu.intraMPM NUM_PRIMARY_MOST_PROBABLE_MODES p.intraDir <
        NUM_PRIMARY_MOST_PROBABLE_MODES) := by
    refine roundTrips_ite Iff.rfl (fun hmulti => ?_) fun _ => roundTrips_bin _ _
    have hlt := modeIdx_lt_of_mem (hline hmulti).1
    rw [check_ok _ (Nat.not_le.mpr hlt)]
    exact roundTrips_pure (decide_eq_true hlt).symm
  refine roundTrips_bind hflag fun _ mpmFlag hmpmFlag => ?_
  subst hmpmFlag
  by_cases hprimary : CABACWriter.modeIdx cu.intraMPM NUM_PRIMARY_MOST_PROBABLE_MODES p.intraDir <
      NUM_PRIMARY_MOST_PROBABLE_MODES
  · rw [if_pos hprimary, if_pos (decide_eq_true hprimary)]
    refine (primaryMpm_roundTrips hprimary fun hmulti hzero => ?_).then_right fun _ v hv =>
      ⟨_, rfl, by rw [hv]; exact modeIdx_getD hprimary⟩
    -- the mode with index zero is planar
    have hfirst := modeIdx_getD hprimary
    rw [hzero, hlists.complete.planar] at hfirst
    exact (hline hmulti).2 hfirst.symm
  · rw [if_neg hprimary, if_neg (by rw [decide_eq_false hprimary]; exact Bool.false_ne_true)]
    exact otherMode_roundTrips hlists hmode hprimary

/-! ## The whole syntax -/

/-- The unit codes a luma mode, and the values the decoder is not told are those it takes. -/
structure Codes (cu : IntraCu) (p : IntraPrediction) : Prop where
  valid : cu.valid = true
  bdpcmMode : cu.bdpcmMode = 0
  dimd : cu.dimd = false
  tmpFlag : p.tmpFlag = false
  mipFlag : p.mipFlag = false
  mipTransposedFlag : p.mipTransposedFlag = false
  timd : p.timd = false
  multiRefIdx : ∃ i < 6, p.multiRefIdx = MULTI_REF_LINE_IDX i
  multiRefIdx_eq : cu.codesMRL = false → p.multiRefIdx = 0
  ispMode : p.ispMode ≤ 2
  ispMode_eq : cu.codesISP p.multiRefIdx = false → p.ispMode = NOT_INTRA_SUBPARTITIONS
  intraDir : p.intraDir < NUM_LUMA_MODE
  primary : p.multiRefIdx ≠ 0 →
    p.intraDir ∈ cu.intraMPM.take NUM_PRIMARY_MOST_PROBABLE_MODES ∧ p.intraDir ≠ PLANAR_IDX

/-- A flag that is written where it is coded, and false where it is not. -/
theorem flag_roundTrips (c b : Bool) (ctxId : CtxId) (h : b = false) :
    RoundTrips strict (if c then encodeBin b ctxId else pure ()) (if c then decodeBin ctxId else pure false)
      fun _ b' => b' = false := by
  subst h
  exact roundTrips_ite Iff.rfl (fun _ => roundTrips_bin false ctxId) fun _ => roundTrips_pure rfl

theorem extend_ref_line_roundTrips (h : Codes cu p) :
    RoundTrips strict (CABACWriter.extend_ref_line cu p) (CABACReader.extend_ref_line cu false)
      fun _ v => v = p.multiRefIdx := by
  unfold CABACWriter.extend_ref_line CABACReader.extend_ref_line
  refine roundTrips_ite Iff.rfl (fun _ => ?_) fun hnone =>
    roundTrips_pure (h.multiRefIdx_eq (Bool.eq_false_of_not_eq_true hnone)).symm
  obtain ⟨i, hi, hline⟩ := h.multiRefIdx
  rw [h.timd, hline]
  -- each line has bins of its own
  interval_cases i <;> exact ⟨_, rfl, fun _ => rfl⟩

theorem isp_mode_roundTrips (h : Codes cu p) :
    RoundTrips strict (CABACWriter.isp_mode cu p) (CABACReader.isp_mode cu false p.multiRefIdx)
      fun _ v => v = p.ispMode := by
  unfold CABACWriter.isp_mode CABACReader.isp_mode
  rw [h.timd]
  refine roundTrips_ite Iff.rfl (fun _ => ?_) fun hnone => ?_
  · have hbound := h.ispMode
    generalize p.ispMode = ispMode at hbound
    interval_cases ispMode <;> exact ⟨_, rfl, fun _ => rfl⟩
  · have hzero := h.ispMode_eq (Bool.eq_false_of_not_eq_true hnone)
    rw [check_ok _ (not_not.mpr hzero)]
    exact roundTrips_pure hzero.symm

theorem refLineAndMode_roundTrips (hlists : Lists cu) (h : Codes cu p) :
    RoundTrips strict (CABACWriter.refLineAndMode cu p) (CABACReader.refLineAndMode cu .initData) fun _ p' => p' = p := by
  unfold CABACWriter.refLineAndMode CABACReader.refLineAndMode
  refine roundTrips_bind (flag_roundTrips cu.codesTimd p.timd _ h.timd) fun _ timd htimd => ?_
  subst htimd
  refine roundTrips_bind (extend_ref_line_roundTrips h) fun _ multiRefIdx hmulti => ?_
  subst hmulti
  refine roundTrips_bind (isp_mode_roundTrips h) fun _ ispMode hisp => ?_
  subst hisp
  rw [h.dimd, h.timd]
  refine (luma_pred_mode_roundTrips hlists h.intraDir h.primary).then_right fun _ intraDir hdir => ⟨_, rfl, ?_⟩
  obtain ⟨tmpFlag, mipFlag, mipTransposedFlag, timd, multiRefIdx, ispMode, dir⟩ := p
  have htmp : tmpFlag = false := h.tmpFlag
  have hmip : mipFlag = false := h.mipFlag
  have htransposed : mipTransposedFlag = false := h.mipTransposedFlag
  have htimd : timd = false := h.timd
  rw [hdir, htmp, hmip, htransposed, htimd]
  rfl

theorem intra_luma_pred_modes_roundTrips (hlists : Lists cu) (h : Codes cu p) :
    RoundTrips strict (CABACWriter.intra_luma_pred_modes cu p) (CABACReader.intra_luma_pred_modes cu)
      fun _ p' => p' = p := by
  unfold CABACWriter.intra_luma_pred_modes CABACReader.intra_luma_pred_modes
  have hvalid : ¬ (!true) = true := by decide
  have hbdpcm : ¬ cu.bdpcmMode ≠ 0 := not_not.mpr h.bdpcmMode
  rw [h.valid, if_neg hvalid, if_neg hbdpcm, if_neg hvalid, if_neg hbdpcm]
  have htmp : RoundTrips strict (if cu.tmpSize then CABACWriter.tmp_flag cu p else pure ())
      (if cu.tmpSize then CABACReader.tmp_flag cu else pure false) fun _ b => b = false :=
    roundTrips_ite Iff.rfl (fun _ => flag_roundTrips cu.codesTmp p.tmpFlag _ h.tmpFlag) fun _ => roundTrips_pure rfl
  refine roundTrips_bind htmp fun _ tmpFlag htmpFlag => ?_
  subst htmpFlag
  rw [h.tmpFlag, Bool.and_false, if_neg Bool.false_ne_true, if_neg Bool.false_ne_true]
  refine roundTrips_bind (flag_roundTrips cu.codesMip p.mipFlag _ h.mipFlag) fun _ mipFlag hmipFlag => ?_
  subst hmipFlag
  rw [h.mipFlag, if_neg Bool.false_ne_true, if_neg Bool.false_ne_true]
  exact refLineAndMode_roundTrips hlists h

/-- For every neighbourhood the lists of most probable and of other modes are written within
their arrays and have each luma mode once; and the decoder that is given them returns every
mode that the encoder codes with them, from exactly its bins. -/
theorem intra_luma_modes (pu : IntraUnit) :
    ∃ lists, getIntraMPMs pu = .ok lists ∧ lists.mpm.length = NUM_MOST_PROBABLE_MODES ∧
      lists.non_mpm.length = NUM_NON_MPM_MODES ∧ (lists.mpm ++ lists.non_mpm).Perm (List.range NUM_LUMA_MODE) ∧
      ∀ (cu : IntraCu) (p : IntraPrediction), cu.intraMPM = lists.mpm → cu.intraNonMPM = lists.non_mpm → Codes cu p →
        ∃ bins, CABACWriter.intra_luma_pred_modes cu p = .ok ((), bins) ∧
          ∀ rest, CABACReader.intra_luma_pred_modes cu (bins ++ rest) = .ok (p, rest) := by
  obtain ⟨lists, hlists, hcomplete, hnon, hperm⟩ := getIntraMPMs_complete pu
  refine ⟨lists, hlists, hcomplete.length, hnon, hperm, fun cu p hmpm hnonmpm hcodes => ?_⟩
  have hcu : Lists cu := ⟨hmpm ▸ hcomplete, hnonmpm ▸ hnon, by rw [hmpm, hnonmpm]; exact hperm⟩
  obtain ⟨_, bins, hwrite, p', hp', hread⟩ := (intra_luma_pred_modes_roundTrips hcu hcodes).run
  subst hp'
  exact ⟨bins, hwrite, hread⟩

/-- A unit of 8x8 with the lists of its neighbourhood. -/
def eightByEight (lists : IntraMPMs) : IntraCu where
  valid := true
  lwidth := 8
  lheight := 8
  y := 8
  isIntra := true
  isLuma := true
  bdpcmMode := 0
  dimd := false
  colorTransform := false
  canUseISP := true
  isISlice := true
  getIntraTMPMaxSize := 64
  getUseIntraTMP := true
  getUseMIP := true
  getUseTimd := true
  getUseMRL := true
  getUseISP := true
  getMaxCUWidth := 128
  ctxTmpFlag := 0
  ctxMipFlag := 0
  ctxTimdFlag := 0
  intraMPM := lists.mpm
  intraNonMPM := lists.non_mpm

/-- The vertical mode, with partitions and the nearest reference line. -/
def verticalMode : IntraPrediction := ⟨false, false, false, false, 0, 2, 50⟩

theorem intra_luma_modes_vertical : ∃ lists, getIntraMPMs GeoPartitions.besideVertical = .ok lists ∧
    ∃ bins, CABACWriter.intra_luma_pred_modes (eightByEight lists) verticalMode = .ok ((), bins) ∧
      ∀ rest, CABACReader.intra_luma_pred_modes (eightByEight lists) (bins ++ rest) = .ok (verticalMode, rest) := by
  obtain ⟨lists, hlists, -, -, -, hcodes⟩ := intra_luma_modes GeoPartitions.besideVertical
  refine ⟨lists, hlists, hcodes (eightByEight lists) verticalMode rfl rfl ?_⟩
  refine ⟨rfl, rfl, rfl, rfl, rfl, rfl, rfl, ⟨0, by decide, rfl⟩, fun _ => rfl, by decide, fun h => ?_, by decide, ?_⟩
  · exact absurd (show true = false from h) Bool.noConfusion
  · exact fun h => absurd rfl h

end ECM.Intra.LumaModes
