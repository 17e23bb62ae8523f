import ECM.Poc.Derivation

/-! # Reading ahead for the picture order count

`getSlicePoc` reads the flags of a picture header in another order than
`parsePictureHeader`, and takes the parameter sets and the most significant bits from
the picture header before. When it ends up with the same count nevertheless. -/

namespace ECM.Poc.LookAhead
open CommonLib CommonLib.BitStream PicHeader DecoderLib.VLCReader Lib.SerialNumber
open ECM.Poc.Derivation

variable {parameterSetManager : ParameterSetManager} {old picHeader picHeader' : PicHeader} {sps : SPS}
  {idrPicFlag : Bool} {prevTid0POC : ℤ} {s t : InputBitstream}

/-- Where the bit stream is at some elements of a picture header. -/
structure Positions where
  /-- At `ph_inter_slice_allowed_flag`. -/
  sliceTypes : InputBitstream
  /-- At `ph_pic_parameter_set_id`. -/
  parameterSets : InputBitstream
  /-- Behind `ph_pic_order_cnt_lsb`. -/
  lsbEnd : InputBitstream

/-- `parsePictureHeader` on `s`, in a slice header, passes `pos`. -/
def ParsesAt (parameterSetManager : ParameterSetManager) (old : PicHeader) (s : InputBitstream)
    (pos : Positions) : Prop :=
  ∃ s₁ ph₁ ph₂ r, READ_FLAG s = .ok (true, s₁) ∧
    parsePictureHeaderGdr old s₁ = .ok (ph₁, pos.sliceTypes) ∧
    parsePictureHeaderSliceTypes ph₁ pos.sliceTypes = .ok (ph₂, pos.parameterSets) ∧
    parsePictureHeaderLsb parameterSetManager ph₂ pos.parameterSets = .ok (r, pos.lsbEnd)

/-- `getSlicePoc` on `s` passes `pos`. -/
def PeeksAt (parameterSetManager : ParameterSetManager) (old : PicHeader) (s : InputBitstream)
    (pos : Positions) : Prop :=
  ∃ s₁ r lsb, READ_FLAG s = .ok (true, s₁) ∧ activeSPS parameterSetManager old.m_ppsId = .ok r ∧
    getSlicePocGdr s₁ = .ok ((), pos.sliceTypes) ∧
    getSlicePocSliceTypes pos.sliceTypes = .ok ((), pos.parameterSets) ∧
    getSlicePocLsb r.2 pos.parameterSets = .ok (lsb, pos.lsbEnd)

/-- The most significant bits of the picture header before count as those of this one. -/
def SameMsb (old picHeader : PicHeader) (idrPicFlag : Bool) (bits : ℕ) (prevTid0POC : ℤ) : Prop :=
  let derived : ℤ := if idrPicFlag then 0 else turn (2 ^ bits) prevTid0POC picHeader.m_pocLsb
  match sentPocMsb old, sentPocMsb picHeader with
  | none, none => True
  | some v, some w => v * 2 ^ bits ≡ w * 2 ^ bits [ZMOD 2 ^ 32]
  | some v, none | none, some v => v * 2 ^ bits ≡ derived [ZMOD 2 ^ 32]

/-- What has to come together for `getSlicePoc` to see the count of the picture. -/
structure Agreeable (parameterSetManager : ParameterSetManager) (old picHeader : PicHeader) (sps : SPS)
    (idrPicFlag : Bool) (prevTid0POC : ℤ) : Prop where
  /-- There is a picture header before. -/
  valid : old.m_valid = true
  /-- As many bits are sent as in its sequence. -/
  bits : ∃ r, activeSPS parameterSetManager old.m_ppsId = .ok r ∧ r.2.m_uiBitsForPOC = sps.m_uiBitsForPOC
  /-- The flag that is taken for `ph_inter_slice_allowed_flag` has its value. -/
  flags : picHeader.m_picInterSliceAllowedFlag =
    if picHeader.m_gdrOrIrapPicFlag then picHeader.m_gdrPicFlag else picHeader.m_nonReferencePictureFlag
  msb : SameMsb old picHeader idrPicFlag sps.m_uiBitsForPOC prevTid0POC

/-! ## How far a code moves the stream -/

theorem flag_advances {b : Bool} (hs : InOrder s) (h : READ_FLAG s = .ok (b, t)) :
    InOrder t ∧ t.unread.length < s.unread.length := by
  obtain ⟨⟨uiCode, s₁⟩, hread, h⟩ := bind_eq_ok h
  cases h
  obtain ⟨_, hlen, _, hadv⟩ := read_advances hs hread
  refine ⟨⟨hadv.few, hadv.inside⟩, ?_⟩
  rw [hadv.unread_eq, List.length_drop]
  omega

/-- Codes of different lengths end at different places. -/
theorem code_length_unique {m n u v : ℕ} (hs : InOrder s) (hm : READ_CODE m s = .ok (u, t))
    (hn : READ_CODE n s = .ok (v, t)) : m = n := by
  obtain ⟨_, _, hm⟩ := bind_eq_ok hm
  obtain ⟨_, _, hn⟩ := bind_eq_ok hn
  obtain ⟨_, hmlen, _, hmadv⟩ := read_advances hs hm
  obtain ⟨_, hnlen, _, hnadv⟩ := read_advances hs hn
  have heq := congrArg List.length (hmadv.unread_eq.symm.trans hnadv.unread_eq)
  rw [List.length_drop, List.length_drop] at heq
  omega

/-! ## The stages of the picture header -/

theorem ok_inj {α : Type} {x : Checked α} {a b : α} (ha : x = .ok a) (hb : x = .ok b) : a = b := by
  rw [ha] at hb
  exact Except.ok.inj hb

theorem parseGdr_spec (h : parsePictureHeaderGdr old s = .ok (picHeader, t)) :
    ∃ s₁ s₂, READ_FLAG s = .ok (picHeader.m_gdrOrIrapPicFlag, s₁) ∧
      READ_FLAG s₁ = .ok (picHeader.m_nonReferencePictureFlag, s₂) ∧
      (if picHeader.m_gdrOrIrapPicFlag then READ_FLAG s₂ = .ok (picHeader.m_gdrPicFlag, t) else t = s₂) ∧
      sentPocMsb picHeader = sentPocMsb old := by
  obtain ⟨⟨gdrOrIrap, s₁⟩, h₁, h⟩ := bind_eq_ok h
  obtain ⟨⟨nonRef, s₂⟩, h₂, h⟩ := bind_eq_ok h
  obtain ⟨⟨gdr, s₃⟩, h₃, h⟩ := bind_eq_ok h
  cases h
  refine ⟨s₁, s₂, h₁, h₂, ?_, rfl⟩
  cases gdrOrIrap with
  | true => exact h₃
  | false =>
    cases h₃
    rfl

theorem parseSliceTypes_spec (h : parsePictureHeaderSliceTypes old s = .ok (picHeader, t)) :
    ∃ s₁ b, READ_FLAG s = .ok (picHeader.m_picInterSliceAllowedFlag, s₁) ∧
      (if picHeader.m_picInterSliceAllowedFlag then READ_FLAG s₁ = .ok (b, t) else t = s₁) ∧
      picHeader.m_gdrOrIrapPicFlag = old.m_gdrOrIrapPicFlag ∧ picHeader.m_gdrPicFlag = old.m_gdrPicFlag ∧
      picHeader.m_nonReferencePictureFlag = old.m_nonReferencePictureFlag ∧
      sentPocMsb picHeader = sentPocMsb old := by
  obtain ⟨⟨inter, s₁⟩, h₁, h⟩ := bind_eq_ok h
  obtain ⟨⟨intra, s₂⟩, h₂, h⟩ := bind_eq_ok h
  obtain ⟨⟨_, s₃⟩, h₃, h⟩ := bind_eq_ok h
  cases h
  refine ⟨s₁, intra, h₁, ?_, rfl, rfl, rfl, rfl⟩
  have hstay : t = s₂ := by
    obtain ⟨_, _, h₃⟩ := bind_eq_ok h₃
    cases h₃
    rfl
  rw [hstay]
  cases inter with
  | true => exact h₂
  | false =>
    cases h₂
    rfl

/-- The two ways through the flags part before `ph_inter_slice_allowed_flag`. -/
theorem peekGdr_ne {t' : InputBitstream} (hs : InOrder s) (h : parsePictureHeaderGdr old s = .ok (picHeader, t))
    (h' : getSlicePocGdr s = .ok ((), t')) : t' ≠ t := by
  obtain ⟨s₁, s₂, h₁, h₂, h₃, _⟩ := parseGdr_spec h
  obtain ⟨⟨gdrOrIrap, s₁'⟩, h₁', h'⟩ := bind_eq_ok h'
  cases ok_inj h₁ h₁'
  obtain ⟨hs₁, _⟩ := flag_advances hs h₁
  obtain ⟨hs₂, hlt₂⟩ := flag_advances hs₁ h₂
  dsimp only at h'
  by_cases hgdr : picHeader.m_gdrOrIrapPicFlag = true
  · rw [if_pos hgdr] at h₃ h'
    obtain ⟨⟨_, s₂'⟩, h₂', h'⟩ := bind_eq_ok h'
    cases h'
    cases ok_inj h₂ h₂'
    obtain ⟨_, hlt⟩ := flag_advances hs₂ h₃
    intro heq
    rw [heq] at hlt
    exact Nat.lt_irrefl _ hlt
  · rw [if_neg hgdr] at h₃ h'
    cases h'
    intro heq
    rw [heq, h₃] at hlt₂
    exact Nat.lt_irrefl _ hlt₂

/-- What `getSlicePoc` does behind the flag that it takes for
`ph_inter_slice_allowed_flag`. -/
def peekRest (ph_inter_slice_allowed_flag : Bool) : ReadM Unit := do
  if ph_inter_slice_allowed_flag then discard READ_FLAG
  discard READ_FLAG

/-- Where `parsePictureHeader` reads the slice types at `s`, the rest of the flags ends at
the same place exactly when the flag was the same. -/
theorem peekRest_iff {inter b v : Bool} {s₁ : InputBitstream} (hs : InOrder s) (h : READ_FLAG s = .ok (inter, s₁))
    (ht : if inter then READ_FLAG s₁ = .ok (b, t) else t = s₁) : peekRest v s = .ok ((), t) ↔ v = inter := by
  obtain ⟨hs₁, _⟩ := flag_advances hs h
  have hshort : peekRest false s = .ok ((), s₁) := by
    change (READ_FLAG s >>= fun p => Except.ok ((), p.2)) = _
    rw [h]
    rfl
  have hlong : peekRest true s = (READ_FLAG s₁ >>= fun p => Except.ok ((), p.2)) := by
    change ((READ_FLAG s >>= fun p => Except.ok ((), p.2)) >>= fun p =>
      READ_FLAG p.2 >>= fun q => Except.ok ((), q.2)) = _
    rw [h]
    rfl
  cases inter with
  | true =>
    obtain ⟨_, hlt⟩ := flag_advances hs₁ ht
    cases v with
    | true =>
      rw [hlong, ht]
      exact iff_of_true rfl rfl
    | false =>
      rw [hshort]
      refine iff_of_false (fun heq => ?_) nofun
      cases heq
      exact Nat.lt_irrefl _ hlt
  | false =>
    obtain rfl : t = s₁ := ht
    cases v with
    | true =>
      rw [hlong]
      refine iff_of_false (fun heq => ?_) nofun
      obtain ⟨⟨_, s₂⟩, h₂, heq⟩ := bind_eq_ok heq
      cases heq
      exact Nat.lt_irrefl _ (flag_advances hs₁ h₂).2
    | false =>
      rw [hshort]
      exact iff_of_true rfl rfl

/-- Where the flags of both end. -/
theorem peekSliceTypes_iff {ph₁ ph₂ : PicHeader} {s₁ s₁' : InputBitstream} (hs : InOrder s)
    (hgdr : parsePictureHeaderGdr old s = .ok (ph₁, s₁))
    (htypes : parsePictureHeaderSliceTypes ph₁ s₁ = .ok (ph₂, t)) (hpeek : getSlicePocGdr s = .ok ((), s₁')) :
    getSlicePocSliceTypes s₁' = .ok ((), t) ↔ ph₂.m_picInterSliceAllowedFlag =
      if ph₂.m_gdrOrIrapPicFlag then ph₂.m_gdrPicFlag else ph₂.m_nonReferencePictureFlag := by
  obtain ⟨a, c, h₁, h₂, h₃, _⟩ := parseGdr_spec hgdr
  obtain ⟨d, b, h₄, h₅, hgi, hg, hnr, _⟩ := parseSliceTypes_spec htypes
  obtain ⟨⟨gdrOrIrap, a'⟩, h₁', hpeek⟩ := bind_eq_ok hpeek
  cases ok_inj h₁ h₁'
  obtain ⟨ha, _⟩ := flag_advances hs h₁
  obtain ⟨hc, _⟩ := flag_advances ha h₂
  have hstep {v : Bool} {u u' : InputBitstream} (h : READ_FLAG u = .ok (v, u')) :
      getSlicePocSliceTypes u = peekRest v u' := by
    change (READ_FLAG u >>= fun p => peekRest p.1 p.2) = _
    rw [h]
    rfl
  dsimp only at hpeek
  rw [hgi, hg, hnr]
  by_cases hflag : ph₁.m_gdrOrIrapPicFlag = true
  · rw [if_pos hflag] at h₃ hpeek ⊢
    obtain ⟨⟨_, c'⟩, h₂', hpeek⟩ := bind_eq_ok hpeek
    cases hpeek
    cases ok_inj h₂ h₂'
    rw [hstep h₃, peekRest_iff (flag_advances hc h₃).1 h₄ h₅, eq_comm]
  · rw [if_neg hflag] at h₃ hpeek ⊢
    cases hpeek
    subst h₃
    rw [hstep h₂, peekRest_iff hc h₄ h₅, eq_comm]

theorem parseLsb_spec {r : PicHeader × SPS} (h : parsePictureHeaderLsb parameterSetManager old s = .ok (r, t)) :
    ∃ s₁ id, READ_UVLC s = .ok (r.1.m_ppsId, s₁) ∧
      activeSPS parameterSetManager r.1.m_ppsId = .ok (id, r.2) ∧
      READ_CODE r.2.m_uiBitsForPOC s₁ = .ok (r.1.m_pocLsb, t) ∧
      r.1 = { old with m_ppsId := r.1.m_ppsId, m_spsId := r.1.m_spsId, m_pocLsb := r.1.m_pocLsb } := by
  obtain ⟨⟨ppsId, s₁⟩, h₁, h⟩ := bind_eq_ok h
  obtain ⟨⟨⟨id, sps⟩, s₂⟩, h₂, h⟩ := bind_eq_ok h
  obtain ⟨⟨lsb, s₃⟩, h₃, h⟩ := bind_eq_ok h
  cases h
  obtain ⟨_, hactive, hstay⟩ := bind_eq_ok h₂
  cases hstay
  exact ⟨s₁, id, h₁, hactive, h₃, rfl⟩

/-- The count is read where it is sent when as many bits are expected. -/
theorem peekLsb_iff {sps' : SPS} {r : PicHeader × SPS} {lsb : ℕ} (hs : InOrder s)
    (h : parsePictureHeaderLsb parameterSetManager old s = .ok (r, t)) :
    getSlicePocLsb sps' s = .ok (lsb, t) ↔ sps'.m_uiBitsForPOC = r.2.m_uiBitsForPOC ∧ lsb = r.1.m_pocLsb := by
  obtain ⟨s₁, id, h₁, _, h₂, _⟩ := parseLsb_spec h
  obtain ⟨hs₁, _⟩ := ensures_uvlc s _ s₁ hs h₁
  have hpeek : getSlicePocLsb sps' s = READ_CODE sps'.m_uiBitsForPOC s₁ := by
    change ((READ_UVLC s >>= fun p => Except.ok ((), p.2)) >>= fun p =>
      READ_CODE sps'.m_uiBitsForPOC p.2) = _
    rw [h₁]
    rfl
  rw [hpeek]
  constructor
  · intro h₂'
    have hbits := code_length_unique hs₁ h₂' h₂
    rw [hbits] at h₂'
    cases ok_inj h₂ h₂'
    exact ⟨hbits, rfl⟩
  · rintro ⟨hbits, rfl⟩
    rw [hbits]
    exact h₂

/-- What is parsed behind the count. -/
theorem parseMsb_spec (h : parsePictureHeaderMsb sps old s = .ok (picHeader, t)) :
    picHeader.m_ppsId = old.m_ppsId ∧ picHeader.m_pocLsb = old.m_pocLsb ∧
      picHeader.m_gdrOrIrapPicFlag = old.m_gdrOrIrapPicFlag ∧ picHeader.m_gdrPicFlag = old.m_gdrPicFlag ∧
      picHeader.m_nonReferencePictureFlag = old.m_nonReferencePictureFlag ∧
      picHeader.m_picInterSliceAllowedFlag = old.m_picInterSliceAllowedFlag := by
  obtain ⟨⟨cnt, s₁⟩, _, h⟩ := bind_eq_ok h
  obtain ⟨⟨_, s₂⟩, _, h⟩ := bind_eq_ok h
  dsimp only [parsePocMsb] at h
  split at h
  · obtain ⟨⟨present, s₃⟩, _, h⟩ := bind_eq_ok h
    cases present with
    | true =>
      obtain ⟨⟨uiCode, s₄⟩, _, h⟩ := bind_eq_ok h
      cases h
      exact ⟨rfl, rfl, rfl, rfl, rfl, rfl⟩
    | false =>
      cases h
      exact ⟨rfl, rfl, rfl, rfl, rfl, rfl⟩
  · cases h
    exact ⟨rfl, rfl, rfl, rfl, rfl, rfl⟩

/-- All that `parseSliceHeader` does up to the count, where the slice has a picture header. -/
theorem parseSlice_spec {s₁ : InputBitstream} {poc : ℤ} (hflag : READ_FLAG s = .ok (true, s₁))
    (h : parseSliceHeaderPoc parameterSetManager old idrPicFlag prevTid0POC s = .ok ((picHeader, poc), t)) :
    ∃ ph₁ ph₂ ph₃ s₂ s₃ s₄ sps, parsePictureHeaderGdr old s₁ = .ok (ph₁, s₂) ∧
      parsePictureHeaderSliceTypes ph₁ s₂ = .ok (ph₂, s₃) ∧
      parsePictureHeaderLsb parameterSetManager ph₂ s₃ = .ok ((ph₃, sps), s₄) ∧
      picHeader.m_ppsId = ph₃.m_ppsId ∧ picHeader.m_pocLsb = ph₃.m_pocLsb ∧
      picHeader.m_gdrOrIrapPicFlag = ph₃.m_gdrOrIrapPicFlag ∧ picHeader.m_gdrPicFlag = ph₃.m_gdrPicFlag ∧
      picHeader.m_nonReferencePictureFlag = ph₃.m_nonReferencePictureFlag ∧
      picHeader.m_picInterSliceAllowedFlag = ph₃.m_picInterSliceAllowedFlag ∧
      poc = derivePoc idrPicFlag (sentPocMsb picHeader) sps.m_uiBitsForPOC prevTid0POC picHeader.m_pocLsb := by
  obtain ⟨⟨_, s₁'⟩, hflag', h⟩ := bind_eq_ok h
  cases ok_inj hflag hflag'
  obtain ⟨⟨ph₅, s₅⟩, hheader, h⟩ := bind_eq_ok h
  obtain ⟨⟨ph₄, s₄⟩, hparse, hvalid⟩ := bind_eq_ok hheader
  obtain ⟨⟨ph₁, s₂⟩, h₁, hparse⟩ := bind_eq_ok hparse
  obtain ⟨⟨ph₂, s₃⟩, h₂, hparse⟩ := bind_eq_ok hparse
  obtain ⟨⟨⟨ph₃, sps⟩, s₄'⟩, h₃, h₄⟩ := bind_eq_ok hparse
  obtain ⟨_, id, _, hactive, _, _⟩ := parseLsb_spec h₃
  have hkeep := parseMsb_spec h₄
  cases hvalid
  dsimp only at h
  rw [check_ok _ (by simp), liftM_ok_bind] at h
  obtain ⟨⟨⟨id', sps'⟩, s₇⟩, hsps, h⟩ := bind_eq_ok h
  obtain ⟨_, hactive', hstay⟩ := bind_eq_ok hsps
  cases h
  cases hstay
  dsimp only at hactive hactive'
  rw [hkeep.1] at hactive'
  cases ok_inj hactive hactive'
  exact ⟨ph₁, ph₂, ph₃, s₂, s₃, s₄', sps, h₁, h₂, h₃, hkeep.1, hkeep.2.1, hkeep.2.2.1, hkeep.2.2.2.1,
    hkeep.2.2.2.2.1, hkeep.2.2.2.2.2, rfl⟩

/-! ## The count -/

theorem i32_modEq (u : ℤ) : i32 u ≡ u [ZMOD 2 ^ 32] := by
  rw [Int.ModEq, i32, toI32, toU32]
  split_ifs <;> omega

theorem i32_eq_iff {u v : ℤ} : i32 u = i32 v ↔ u ≡ v [ZMOD 2 ^ 32] := by
  constructor
  · intro h
    exact (i32_modEq u).symm.trans (h ▸ i32_modEq v)
  · intro h
    rw [i32, i32, toU32, toU32, h]

theorem derivePoc_eq_iff {b lsb : ℕ} {pocMsb pocMsb' : Option ℤ} :
    derivePoc idrPicFlag pocMsb b prevTid0POC lsb = derivePoc idrPicFlag pocMsb' b prevTid0POC lsb ↔
      derivePocMsb idrPicFlag pocMsb b prevTid0POC lsb ≡
        derivePocMsb idrPicFlag pocMsb' b prevTid0POC lsb [ZMOD 2 ^ 32] := by
  rw [derivePoc, derivePoc, i32_eq_iff]
  exact ⟨fun h => Int.ModEq.add_right_cancel' _ h, fun h => h.add_right _⟩

theorem derivePocMsb_some (v : ℤ) (b lsb : ℕ) :
    derivePocMsb idrPicFlag (some v) b prevTid0POC lsb ≡ v * 2 ^ b [ZMOD 2 ^ 32] := by
  rw [derivePocMsb, shiftLeft_cast]
  exact i32_modEq _

theorem derivePocMsb_none {b : ℕ} (hb : b ≤ 32) (lsb : ℕ) :
    derivePocMsb idrPicFlag none b prevTid0POC lsb ≡
      if idrPicFlag then 0 else turn (2 ^ b) prevTid0POC lsb [ZMOD 2 ^ 32] := by
  cases idrPicFlag with
  | true => rfl
  | false =>
    rw [derivePocMsb_eq hb]
    exact i32_modEq _

theorem sameMsb_iff {b : ℕ} (hb : b ≤ 32) :
    derivePoc idrPicFlag (sentPocMsb old) b prevTid0POC picHeader.m_pocLsb =
      derivePoc idrPicFlag (sentPocMsb picHeader) b prevTid0POC picHeader.m_pocLsb ↔
    SameMsb old picHeader idrPicFlag b prevTid0POC := by
  have hnone := @derivePocMsb_none idrPicFlag prevTid0POC b hb picHeader.m_pocLsb
  have hsome := fun v => @derivePocMsb_some idrPicFlag prevTid0POC v b picHeader.m_pocLsb
  rw [derivePoc_eq_iff, SameMsb]
  cases hold : sentPocMsb old with
  | none =>
    cases hnew : sentPocMsb picHeader with
    | none => exact iff_of_true rfl trivial
    | some w => exact ⟨fun h => (hsome w).symm.trans (h.symm.trans hnone), fun h => hnone.trans (h.symm.trans (hsome w).symm)⟩
  | some v =>
    cases hnew : sentPocMsb picHeader with
    | none => exact ⟨fun h => (hsome v).symm.trans (h.trans hnone), fun h => (hsome v).trans (h.trans hnone.symm)⟩
    | some w => exact ⟨fun h => (hsome v).symm.trans (h.trans (hsome w)), fun h => (hsome v).trans (h.trans (hsome w).symm)⟩

/-! ## Both parsers -/

theorem ensures_optionalFlag (present absent : Bool) :
    Ensures (if present then READ_FLAG else pure absent : ReadM Bool) fun _ => True := by
  split
  · exact ensures_flag
  · exact ensures_pure trivial

theorem ensures_gdr : Ensures (parsePictureHeaderGdr old) fun _ => True :=
  ensures_bind ensures_flag fun _ _ => ensures_bind ensures_flag fun _ _ =>
    ensures_bind (ensures_optionalFlag _ _) fun _ _ => ensures_pure trivial

theorem ensures_sliceTypes : Ensures (parsePictureHeaderSliceTypes old) fun _ => True :=
  ensures_bind ensures_flag fun _ _ => ensures_bind (ensures_optionalFlag _ _) fun _ _ =>
    ensures_bind (ensures_check _) fun _ _ => ensures_pure trivial

theorem getSlicePocGdr_ok (h : parsePictureHeaderGdr old s = .ok (picHeader, t)) :
    ∃ t', getSlicePocGdr s = .ok ((), t') := by
  obtain ⟨s₁, s₂, h₁, h₂, _⟩ := parseGdr_spec h
  have hrun : getSlicePocGdr s = (if picHeader.m_gdrOrIrapPicFlag then
      READ_FLAG s₁ >>= fun p => Except.ok ((), p.2) else Except.ok ((), s₁)) := by
    change (READ_FLAG s >>= fun p => (if p.1 then discard READ_FLAG else pure () : ReadM Unit) p.2) = _
    rw [h₁, ok_bind]
    cases picHeader.m_gdrOrIrapPicFlag <;> rfl
  rw [hrun, h₂]
  split
  · exact ⟨_, rfl⟩
  · exact ⟨_, rfl⟩

theorem getSlicePoc_valid {r : ℤ × InputBitstream}
    (h : getSlicePoc parameterSetManager old idrPicFlag prevTid0POC s = .ok r) : old.m_valid = true := by
  obtain ⟨_, hcheck, _⟩ := bind_eq_ok h
  obtain ⟨_, hcheck, _⟩ := bind_eq_ok hcheck
  exact Bool.eq_true_of_not_eq_false (check_eq_ok hcheck)

/-- What `getSlicePoc` returns of the places it passes. -/
theorem getSlicePoc_eq {s₁ s₂ s₃ : InputBitstream} {r : ℕ × SPS} {lsb : ℕ} (hvalid : old.m_valid = true)
    (hactive : activeSPS parameterSetManager old.m_ppsId = .ok r) (hflag : READ_FLAG s = .ok (true, s₁))
    (hgdr : getSlicePocGdr s₁ = .ok ((), s₂)) (htypes : getSlicePocSliceTypes s₂ = .ok ((), s₃))
    (hlsb : getSlicePocLsb r.2 s₃ = .ok (lsb, t)) :
    getSlicePoc parameterSetManager old idrPicFlag prevTid0POC s =
      .ok (derivePoc idrPicFlag (sentPocMsb old) r.2.m_uiBitsForPOC prevTid0POC lsb, t) := by
  have hheader : getSlicePocOfPicHeader r.2 s₁ = .ok (lsb, t) := by
    change (getSlicePocGdr s₁ >>= fun p => getSlicePocSliceTypes p.2 >>= fun q => getSlicePocLsb r.2 q.2) = _
    rw [hgdr, ok_bind]
    dsimp only
    rw [htypes]
    exact hlsb
  rw [getSlicePoc, check_ok _ (by simp [hvalid]), liftM_ok_bind, hactive, liftM_ok_bind]
  change (READ_FLAG s >>= fun p => (if p.1 then getSlicePocOfPicHeader r.2 else pure old.m_pocLsb : ReadM ℕ) p.2 >>=
    fun q => Except.ok (derivePoc idrPicFlag (sentPocMsb old) r.2.m_uiBitsForPOC prevTid0POC q.1, q.2)) = _
  rw [hflag, ok_bind, if_pos rfl, hheader]
  rfl

/-- `getSlicePoc` never reads `ph_inter_slice_allowed_flag` where it is. It gets to the
parameter set and the count, and returns what `parseSliceHeader` derives, exactly when
the flags, the parameter sets and the most significant bits come together. -/
theorem getSlicePoc_agrees_iff {s₁ : InputBitstream} {poc : ℤ} (hs : InOrder s)
    (hflag : READ_FLAG s = .ok (true, s₁))
    (hparse : parseSliceHeaderPoc parameterSetManager old idrPicFlag prevTid0POC s = .ok ((picHeader, poc), t)) :
    ∃ pos id sps, ParsesAt parameterSetManager old s pos ∧
      activeSPS parameterSetManager picHeader.m_ppsId = .ok (id, sps) ∧
      (∀ pos', PeeksAt parameterSetManager old s pos' → pos'.sliceTypes ≠ pos.sliceTypes) ∧
      ((∃ pos', PeeksAt parameterSetManager old s pos' ∧ pos'.parameterSets = pos.parameterSets ∧
          pos'.lsbEnd = pos.lsbEnd ∧
          getSlicePoc parameterSetManager old idrPicFlag prevTid0POC s = .ok (poc, pos.lsbEnd)) ↔
        Agreeable parameterSetManager old picHeader sps idrPicFlag prevTid0POC) := by
  obtain ⟨ph₁, ph₂, ph₃, s₂, s₃, s₄, sps, h₁, h₂, h₃, hid, hlsb, hgi, hg, hnr, hinter, rfl⟩ :=
    parseSlice_spec hflag hparse
  obtain ⟨_, id, huvlc, hactive, hcode, hkeep⟩ := parseLsb_spec h₃
  obtain ⟨hs₁, _⟩ := flag_advances hs hflag
  obtain ⟨hs₂, _⟩ := ensures_gdr _ _ _ hs₁ h₁
  obtain ⟨hs₃, _⟩ := ensures_sliceTypes _ _ _ hs₂ h₂
  obtain ⟨hs₃', _⟩ := ensures_uvlc _ _ _ hs₃ huvlc
  dsimp only at huvlc hactive hcode hkeep
  have hbits : sps.m_uiBitsForPOC ≤ 32 := by
    obtain ⟨_, _, hread⟩ := bind_eq_ok hcode
    exact (read_advances hs₃' hread).1
  rw [← hid] at hactive
  refine ⟨⟨s₂, s₃, s₄⟩, id, sps, ⟨s₁, ph₁, ph₂, _, hflag, h₁, h₂, h₃⟩, hactive, ?_, ?_⟩
  · rintro pos' ⟨_, _, _, hflag', _, hgdr', _⟩
    cases ok_inj hflag hflag'
    exact peekGdr_ne hs₁ h₁ hgdr'
  have hflags {s₂' : InputBitstream} (hgdr' : getSlicePocGdr s₁ = .ok ((), s₂')) :
      getSlicePocSliceTypes s₂' = .ok ((), s₃) ↔ picHeader.m_picInterSliceAllowedFlag =
        if picHeader.m_gdrOrIrapPicFlag then picHeader.m_gdrPicFlag else picHeader.m_nonReferencePictureFlag := by
    rw [peekSliceTypes_iff hs₁ h₁ h₂ hgdr', hgi, hg, hnr, hinter, hkeep]
  constructor
  · rintro ⟨pos', ⟨_, r, lsb, hflag', hactive', hgdr', htypes', hlsb'⟩, hparam, hend, hget⟩
    cases ok_inj hflag hflag'
    rw [hparam] at htypes' hlsb'
    rw [hend] at hlsb'
    have hvalid := getSlicePoc_valid hget
    have hpoc := @getSlicePoc_eq _ _ idrPicFlag prevTid0POC _ _ _ _ _ _ _ hvalid hactive' hflag hgdr' htypes' hlsb'
    obtain ⟨hsame, hread⟩ := (peekLsb_iff hs₃ h₃).mp hlsb'
    refine ⟨hvalid, ⟨r, hactive', hsame⟩, (hflags hgdr').mp htypes', (sameMsb_iff hbits).mp ?_⟩
    have heq := congrArg Prod.fst (ok_inj hpoc hget)
    dsimp only at heq hsame hread
    rw [hsame, hread, ← hlsb] at heq
    exact heq
  · intro h
    obtain ⟨r, hactive', hsame⟩ := h.bits
    obtain ⟨s₂', hgdr'⟩ := getSlicePocGdr_ok h₁
    have htypes' := (hflags hgdr').mpr h.flags
    have hlsb' := (peekLsb_iff hs₃ h₃).mpr ⟨hsame, rfl⟩
    refine ⟨⟨s₂', s₃, s₄⟩, ⟨s₁, r, _, hflag, hactive', hgdr', htypes', hlsb'⟩, rfl, rfl, ?_⟩
    rw [getSlicePoc_eq h.valid hactive' hflag hgdr' htypes' hlsb']
    have hmsb := (sameMsb_iff hbits).mpr h.msb
    dsimp only at hsame ⊢
    rw [hsame, ← hlsb, hmsb]

/-- A store with one set of each kind, and a picture header that refers to it. -/
def oneSet : ParameterSetManager where
  getPPS id := if id = 0 then some ⟨0⟩ else none
  getSPS id := if id = 0 then some ⟨4, false, 1, []⟩ else none

def headerBefore : PicHeader where
  m_valid := true
  m_gdrOrIrapPicFlag := true
  m_nonReferencePictureFlag := false
  m_gdrPicFlag := false
  m_picInterSliceAllowedFlag := false
  m_picIntraSliceAllowedFlag := true
  m_ppsId := 0
  m_spsId := 0
  m_pocLsb := 0
  m_recoveryPocCnt := -1
  m_pocMsbPresentFlag := false
  m_pocMsbVal := 0

/-- Without inter slices the flags come together: both see the count 5. -/
theorem intraPicture_agrees : ∃ u, getSlicePoc oneSet headerBefore false 0 (.ofFifo [0x8A, 0x80]) = .ok (5, u) := by
  obtain ⟨pos, id, sps, _, hactive, _, hiff⟩ := @getSlicePoc_agrees_iff oneSet headerBefore
    { headerBefore with m_gdrOrIrapPicFlag := false, m_pocLsb := 5 } false 0
    (.ofFifo [0x8A, 0x80]) ⟨[0x8A, 0x80], [], 2, 7, 0x80⟩ ⟨[0x8A, 0x80], [], 1, 7, 0x8A⟩ 5 ⟨by decide, by decide⟩ rfl rfl
  cases hactive
  obtain ⟨_, _, _, _, hget⟩ := hiff.mpr ⟨rfl, ⟨_, rfl, rfl⟩, rfl, trivial⟩
  exact ⟨_, hget⟩

/-- With inter and intra slices allowed: the count is 0, and `getSlicePoc` returns 8. -/
theorem interPicture_differs : ∃ picHeader t u,
    parseSliceHeaderPoc oneSet headerBefore false 0 (.ofFifo [0x9C, 0]) = .ok ((picHeader, 0), t) ∧
      getSlicePoc oneSet headerBefore false 0 (.ofFifo [0x9C, 0]) = .ok (8, u) := by
  obtain ⟨⟨⟨picHeader, poc⟩, t⟩, hparse, hpoc⟩ := exists_ok_of_any
    (x := parseSliceHeaderPoc oneSet headerBefore false 0 (.ofFifo [0x9C, 0]))
    (p := fun r => decide (r.1.2 = 0)) (by decide +kernel)
  obtain ⟨⟨seen, u⟩, hget, hseen⟩ := exists_ok_of_any
    (x := getSlicePoc oneSet headerBefore false 0 (.ofFifo [0x9C, 0]))
    (p := fun r => decide (r.1 = 8)) (by decide +kernel)
  obtain rfl : poc = 0 := of_decide_eq_true hpoc
  obtain rfl : seen = 8 := of_decide_eq_true hseen
  exact ⟨picHeader, t, u, hparse, hget⟩

end ECM.Poc.LookAhead
