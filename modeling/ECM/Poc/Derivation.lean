import ECM.DecoderLib.HLSyntaxReader
import ECM.EncoderLib.HLSWriter
import ECM.Lib.SerialNumber
import ECM.ParcatApp.Parcat

/-! # Picture order counts come back

The least significant bits are a serial number. The count that is derived from them is
the nearest one to the previous count of temporal layer 0. -/

namespace ECM.Poc.Derivation
open CommonLib DecoderLib.VLCReader EncoderLib.VLCWriter ECM.Hls Lib.SerialNumber
open ECM.ParcatApp

variable {b lsb : ℕ} {prev p : ℤ}

/-! ## Wrapping arithmetic -/

theorem i32_i32_add (u v : ℤ) : i32 (i32 u + v) = i32 (u + v) := by
  have hwrap : (i32 u + v) % 2 ^ 32 = (u + v) % 2 ^ 32 := by
    rw [i32, toI32, toU32]
    split_ifs <;> omega
  rw [i32, toU32, hwrap]
  rfl

/-! ## The nearest count -/

theorem shiftLeft_cast (b : ℕ) : ((1 <<< b : ℕ) : ℤ) = 2 ^ b := by
  rw [Nat.shiftLeft_eq, Nat.one_mul, Nat.cast_pow]
  rfl

theorem prevPocLsb_eq (hb : b ≤ 32) (prev : ℤ) : (prevPocLsb prev b : ℤ) = prev % 2 ^ b := by
  rw [prevPocLsb, and_mask_toU32 hb, signedBits, Int.toNat_of_nonneg]
  exact Int.emod_nonneg _ (by positivity)

/-- The most significant bits are the turn of the serial number. -/
theorem derivePocMsb_eq (hb : b ≤ 32) (prev : ℤ) (lsb : ℕ) :
    derivePocMsb false none b prev lsb = i32 (turn (2 ^ b) prev lsb) := by
  have hres := prevPocLsb_eq hb prev
  have hpow := shiftLeft_cast b
  have hahead : (lsb < prevPocLsb prev b ∧ prevPocLsb prev b - lsb ≥ 1 <<< b / 2) ↔
      ((lsb : ℤ) < prevPocLsb prev b ∧ ((1 <<< b : ℕ) : ℤ) / 2 ≤ prevPocLsb prev b - lsb) := by omega
  have hbehind : (lsb > prevPocLsb prev b ∧ lsb - prevPocLsb prev b > 1 <<< b / 2) ↔
      ((prevPocLsb prev b : ℤ) < lsb ∧ ((1 <<< b : ℕ) : ℤ) / 2 < lsb - prevPocLsb prev b) := by omega
  rw [derivePocMsb, turn, prevPocMsb, ← hres, ← hpow, if_neg Bool.false_ne_true]
  simp only [hahead, hbehind]
  split_ifs
  · exact i32_i32_add _ _
  · rw [sub_eq_add_neg, i32_i32_add, ← sub_eq_add_neg]
  · rfl

theorem derivePoc_eq_extend (hb : b ≤ 32) (prev : ℤ) (lsb : ℕ) :
    derivePoc false none b prev lsb = i32 (extend (2 ^ b) prev lsb) := by
  rw [derivePoc, derivePocMsb_eq hb, i32_i32_add, extend]

theorem calc_poc_eq_derivePoc (lsb : ℕ) (prev : ℤ) (b nalu_type : ℕ) :
    calc_poc lsb prev b nalu_type = derivePoc false none b prev lsb := by
  rw [calc_poc, derivePoc, derivePocMsb, if_neg Bool.false_ne_true]
  rfl

/-- Less than half a turn from the previous count, the count is found. -/
theorem derivePoc_pocLsb (h1 : 1 ≤ b) (hb : b ≤ 32) (hp : -2 ^ 31 ≤ p ∧ p < 2 ^ 31)
    (hlow : -2 ^ (b - 1) < p - prev) (hhigh : p - prev < 2 ^ (b - 1)) :
    derivePoc false none b prev (signedBits b p) = p := by
  have hpos : (0 : ℤ) < 2 ^ b := by positivity
  have hhalf : (2 : ℤ) ^ b = 2 * 2 ^ (b - 1) := by
    rw [← pow_succ', Nat.sub_add_cancel h1]
  have hwin : InWindow (2 ^ b) prev p := by
    rw [InWindow, hhalf]
    omega
  have hlsb : (signedBits b p : ℤ) = p % 2 ^ b := Int.toNat_of_nonneg (Int.emod_nonneg _ hpos.ne')
  rw [derivePoc_eq_extend hb, hlsb, extend_eq hpos (by omega) hwin, i32_of_mem hp.1 hp.2]

/-- Whatever count less than half a turn from the previous one is written, its least
significant bits are read and the count is derived from them, by the decoder and by the
tool that joins streams. -/
theorem pocLsb_roundTrips (nalu_type : ℕ) (h4 : 4 ≤ b) (h16 : b ≤ 16) (hp : -2 ^ 31 ≤ p ∧ p < 2 ^ 31)
    (hlow : -2 ^ (b - 1) < p - prev) (hhigh : p - prev < 2 ^ (b - 1)) :
    RoundTrips True (codePocLsb p b) (READ_CODE b) fun _ lsb =>
      derivePoc false none b prev lsb = p ∧ calc_poc lsb prev b nalu_type = p := by
  have hmask : toU32 p &&& 1 <<< b - 1 = signedBits b p := and_mask_toU32 (by omega) p
  rw [codePocLsb, hmask]
  refine (roundTrips_code (by omega) (by omega) (signedBits_lt b p)).mono ?_
  rintro _ lsb rfl
  rw [calc_poc_eq_derivePoc, derivePoc_pocLsb (by omega) (by omega) hp hlow hhigh]
  exact ⟨rfl, rfl⟩

/-- A count below zero, across the start of a turn. -/
theorem negativePoc_roundTrips : RoundTrips True (codePocLsb (-2) 4) (READ_CODE 4) fun _ lsb =>
    derivePoc false none 4 5 lsb = -2 ∧ calc_poc lsb 5 4 0 = -2 :=
  pocLsb_roundTrips 0 (by decide) (by decide) (by decide) (by decide) (by decide)

/-! ## In the slice header -/

variable {parameterSetManager : PicHeader.ParameterSetManager} {picHeader old : PicHeader}
  {sps : PicHeader.SPS} {pps : PicHeader.PPS}

theorem activeSPS_eq {ppsId : ℕ} (hpps : parameterSetManager.getPPS ppsId = some pps)
    (hsps : parameterSetManager.getSPS pps.m_SPSId = some sps) :
    activeSPS parameterSetManager ppsId = .ok (pps.m_SPSId, sps) := by
  rw [activeSPS, hpps]
  dsimp only
  rw [hsps]
  rfl

theorem gdr_roundTrips (hgdr : picHeader.m_gdrPicFlag → picHeader.m_gdrOrIrapPicFlag) :
    RoundTrips False (codePictureHeaderGdr picHeader) (parsePictureHeaderGdr old) fun _ picHeader' =>
      picHeader'.m_gdrPicFlag = picHeader.m_gdrPicFlag ∧ sentPocMsb picHeader' = sentPocMsb old := by
  refine roundTrips_bind (roundTrips_flag _) fun _ gdrOrIrap hflag => ?_
  subst hflag
  refine roundTrips_bind (roundTrips_flag _) fun _ _ _ => ?_
  have hgdrFlag : RoundTrips False
      (if picHeader.m_gdrOrIrapPicFlag then WRITE_FLAG picHeader.m_gdrPicFlag else pure ())
      (if picHeader.m_gdrOrIrapPicFlag then READ_FLAG else pure false) fun _ gdr => gdr = picHeader.m_gdrPicFlag :=
    roundTrips_ite Iff.rfl (fun _ => roundTrips_flag _) fun hno => roundTrips_pure
      (Bool.eq_false_iff.mpr fun h => hno (hgdr h)).symm
  exact hgdrFlag.then_right fun _ gdr hg => ⟨_, rfl, hg, rfl⟩

theorem sliceTypes_roundTrips :
    RoundTrips False (codePictureHeaderSliceTypes picHeader) (parsePictureHeaderSliceTypes old)
      fun _ picHeader' => picHeader'.m_gdrPicFlag = old.m_gdrPicFlag ∧ sentPocMsb picHeader' = sentPocMsb old := by
  refine roundTrips_bind (roundTrips_flag _) fun _ inter hflag => ?_
  subst hflag
  have hintra : RoundTrips False
      (if picHeader.m_picInterSliceAllowedFlag then WRITE_FLAG picHeader.m_picIntraSliceAllowedFlag else pure ())
      (if picHeader.m_picInterSliceAllowedFlag then READ_FLAG else pure true)
      fun _ intra => picHeader.m_picInterSliceAllowedFlag = false → intra = true :=
    roundTrips_ite Iff.rfl (fun hyes => (roundTrips_flag _).mono fun _ _ _ hno => absurd (hyes.symm.trans hno) nofun)
      fun _ => roundTrips_pure fun _ => rfl
  refine hintra.then_right fun _ intra hi => ?_
  have hok : ¬(picHeader.m_picInterSliceAllowedFlag = false ∧ intra = false) := by
    rintro ⟨hno, hfalse⟩
    rw [hi hno] at hfalse
    cases hfalse
  rw [check_ok _ hok]
  exact ⟨_, rfl, rfl, rfl⟩

theorem lsb_roundTrips (hpps : parameterSetManager.getPPS picHeader.m_ppsId = some pps)
    (hsps : parameterSetManager.getSPS pps.m_SPSId = some sps) (hid : picHeader.m_ppsId < 2 ^ 32)
    (h1 : 1 ≤ sps.m_uiBitsForPOC) (h32 : sps.m_uiBitsForPOC ≤ 32) :
    RoundTrips False (do WRITE_UVLC picHeader.m_ppsId; codePocLsb p sps.m_uiBitsForPOC)
      (parsePictureHeaderLsb parameterSetManager old) fun _ r => r.2 = sps ∧
        r.1.m_ppsId = picHeader.m_ppsId ∧ r.1.m_pocLsb = signedBits sps.m_uiBitsForPOC p ∧
        r.1.m_gdrPicFlag = old.m_gdrPicFlag ∧ sentPocMsb r.1 = sentPocMsb old := by
  refine roundTrips_bind (roundTrips_uvlc_accepted hid) fun _ id hread => ?_
  subst hread
  rw [activeSPS_eq hpps hsps, liftM_ok_bind, codePocLsb, and_mask_toU32 h32]
  exact (roundTrips_code h1 h32 (signedBits_lt _ p)).then_right fun _ lsb hlsb => ⟨_, rfl, rfl, rfl, hlsb, rfl, rfl⟩

theorem parseExtraBits_eq (h : ∀ present ∈ sps.m_extraPHBitPresentFlag, present = false) :
    parseExtraBits sps = pure () := by
  rw [parseExtraBits]
  generalize sps.m_extraPHBitPresentFlag = present at h
  induction present with
  | nil => rfl
  | cons b bs ih =>
    obtain rfl := h b List.mem_cons_self
    exact ih fun c hc => h c (List.mem_cons_of_mem _ hc)

theorem toU32_lt (v : ℤ) : toU32 v < 2 ^ 32 := by
  rw [toU32]
  omega

theorem recoveryPocCnt_roundTrips (hgdr : old.m_gdrPicFlag = picHeader.m_gdrPicFlag) :
    RoundTrips False (codeRecoveryPocCnt picHeader)
      (if old.m_gdrPicFlag then toI32 <$> READ_UVLC else pure (-1)) fun _ _ => True := by
  refine roundTrips_ite (by rw [hgdr]) (fun _ => ?_) fun _ => roundTrips_pure trivial
  exact (roundTrips_uvlc_accepted (toU32_lt _)).then_right fun _ v _ => ⟨toI32 v, rfl, trivial⟩

theorem pocMsb_roundTrips :
    RoundTrips False (codePocMsb picHeader sps) (parsePocMsb sps old) fun _ picHeader' =>
      picHeader'.m_ppsId = old.m_ppsId ∧ picHeader'.m_pocLsb = old.m_pocLsb ∧
        sentPocMsb picHeader' =
          if sps.m_pocMsbFlag then (sentPocMsb picHeader).map i32 else sentPocMsb old := by
  refine roundTrips_ite Iff.rfl (fun hflag => ?_) fun hflag => roundTrips_pure ⟨rfl, rfl, (if_neg hflag).symm⟩
  refine roundTrips_bind (roundTrips_flag picHeader.m_pocMsbPresentFlag) fun _ present hpresent => ?_
  subst hpresent
  rw [if_pos hflag]
  refine roundTrips_ite Iff.rfl (fun hsent => ?_) fun hsent => roundTrips_pure ⟨rfl, rfl, ?_⟩
  · refine (roundTrips_code_accepted (toU32_lt _)).then_right ?_
    rintro _ v rfl
    refine ⟨_, rfl, rfl, rfl, ?_⟩
    rw [sentPocMsb, sentPocMsb, if_pos hsent, if_pos hsent]
    rfl
  · rw [sentPocMsb, sentPocMsb, if_neg hsent, if_neg hsent]
    rfl

section
variable (hpps : parameterSetManager.getPPS picHeader.m_ppsId = some pps)
  (hsps : parameterSetManager.getSPS pps.m_SPSId = some sps) (hid : picHeader.m_ppsId < 2 ^ 32)
  (hgdr : picHeader.m_gdrPicFlag → picHeader.m_gdrOrIrapPicFlag)
  (hextra : ∀ present ∈ sps.m_extraPHBitPresentFlag, present = false)
include hpps hsps hid hgdr hextra

/-- The picture header comes back, with the bits of the count. -/
theorem pictureHeader_roundTrips (h1 : 1 ≤ sps.m_uiBitsForPOC) (h32 : sps.m_uiBitsForPOC ≤ 32) :
    RoundTrips False (codePictureHeader picHeader sps p) (parsePictureHeader parameterSetManager old)
      fun _ picHeader' => picHeader'.m_ppsId = picHeader.m_ppsId ∧
        picHeader'.m_pocLsb = signedBits sps.m_uiBitsForPOC p ∧ sentPocMsb picHeader' =
          if sps.m_pocMsbFlag then (sentPocMsb picHeader).map i32 else sentPocMsb old := by
  refine roundTrips_bind (gdr_roundTrips hgdr) fun _ ph₁ h₁ => ?_
  refine roundTrips_bind sliceTypes_roundTrips fun _ ph₂ h₂ => ?_
  rw [← bind_assoc]
  refine roundTrips_bind (lsb_roundTrips hpps hsps hid h1 h32) fun _ r h₃ => ?_
  obtain ⟨ph₃, sps'⟩ := r
  obtain ⟨rfl, hid₃, hlsb₃, hgdr₃, hmsb₃⟩ := h₃
  refine roundTrips_bind (recoveryPocCnt_roundTrips (hgdr₃.trans (h₂.1.trans h₁.1))) fun _ cnt _ => ?_
  rw [parseExtraBits_eq hextra, pure_bind]
  refine pocMsb_roundTrips.mono fun _ ph₄ h₄ => ?_
  have hold : sentPocMsb { ph₃ with m_recoveryPocCnt := cnt } = sentPocMsb old :=
    hmsb₃.trans (h₂.2.trans h₁.2)
  rw [hold] at h₄
  exact ⟨h₄.1.trans hid₃, h₄.2.1.trans hlsb₃, h₄.2.2⟩

/-- The count of a slice that holds its picture header, whatever picture header was there. -/
theorem slicePoc_roundTrips (h4 : 4 ≤ sps.m_uiBitsForPOC) (h16 : sps.m_uiBitsForPOC ≤ 16) (hp : -2 ^ 31 ≤ p ∧ p < 2 ^ 31)
    (hlow : -2 ^ (sps.m_uiBitsForPOC - 1) < p - prev) (hhigh : p - prev < 2 ^ (sps.m_uiBitsForPOC - 1))
    (hmsb : (if sps.m_pocMsbFlag then (sentPocMsb picHeader).map i32 else sentPocMsb old) = none) :
    RoundTrips False (do WRITE_FLAG true; codePictureHeader picHeader sps p)
      (parseSliceHeaderPoc parameterSetManager old false prev) fun _ r => r.2 = p := by
  refine roundTrips_bind (roundTrips_flag true) fun _ flag hflag => ?_
  subst hflag
  rw [if_pos rfl, bind_assoc]
  have hheader := @pictureHeader_roundTrips p _ picHeader old sps pps hpps hsps hid hgdr hextra (by omega) (by omega)
  refine hheader.then_right fun _ picHeader' h => ?_
  obtain ⟨hid', hlsb, hmsb'⟩ := h
  refine ⟨({ picHeader' with m_valid := true }, p), ?_, rfl⟩
  have hsent : sentPocMsb { picHeader' with m_valid := true } = none := hmsb'.trans hmsb
  have hpoc := derivePoc_pocLsb (by omega) (by omega) hp hlow hhigh
  have hactive := activeSPS_eq hpps hsps
  rw [← hid'] at hactive
  rw [pure_bind, check_ok _ (by simp), liftM_ok_bind]
  dsimp only
  rw [hactive, liftM_ok_bind, hsent, hlsb, hpoc]

end

end ECM.Poc.Derivation
