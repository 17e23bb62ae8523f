import ECM.Cabac.Binarization

/-! # Indices of the in-loop filters read back

Control indices of the cross-component filters, flags and indices of ALF, and the flags
of the bilateral filters. -/

namespace ECM.InLoop
open CommonLib CommonLib.Bins CommonLib.InLoopFilter EncoderLib DecoderLib
open ECM.Cabac.Binarization Lib.Codec Lib.Loop

variable {strict : Prop}

/-! ## Runs of one bin -/

theorem repeatBin_emit (b : Bin) (n : ℕ) :
    CABACWriter.repeatBin (Put.emit [b]) n = Put.emit (List.replicate n b) := by
  induction n with
  | zero => rfl
  | succ n ih =>
    rw [CABACWriter.repeatBin, ih]
    rfl

theorem controlIdcOnes_read (n : ℕ) : ∀ {rounds v count : ℕ} (rest : List Bin), v + n ≤ count → n < rounds →
    CABACReader.controlIdcOnes count rounds v
      (List.replicate n (.ep true) ++ ((if v + n < count then [Bin.ep false] else []) ++ rest)) =
        .ok (v + n, rest) := by
  induction n with
  | zero =>
    intro rounds v count rest hv hrounds
    obtain ⟨rounds, rfl⟩ : ∃ r, rounds = r + 1 := ⟨rounds - 1, by omega⟩
    rw [CABACReader.controlIdcOnes]
    by_cases hlast : v = count
    · rw [if_neg (not_not.mpr hlast), if_neg (by omega)]
      rfl
    · rw [if_pos hlast, if_pos (by omega)]
      rfl
  | succ n ih =>
    intro rounds v count rest hv hrounds
    obtain ⟨rounds, rfl⟩ : ∃ r, rounds = r + 1 := ⟨rounds - 1, by omega⟩
    have hrest := @ih rounds (v + 1) count rest (by omega) (by omega)
    rw [Nat.add_assoc v 1 n, Nat.add_comm 1 n] at hrest
    rw [CABACReader.controlIdcOnes, if_pos (by omega)]
    exact hrest

theorem controlIdcBins_roundTrips {v count : ℕ} (hv : v ≤ count) (ctxId : CtxId) :
    RoundTrips strict (CABACWriter.controlIdcBins v count ctxId) (CABACReader.controlIdcBins count ctxId)
      fun _ v' => v' = v := by
  refine roundTrips_bind (roundTrips_bin _ _) fun _ on hon => ?_
  rw [hon]
  by_cases hzero : v = 0
  · rw [if_neg (by omega), decide_eq_false (not_not.mpr hzero), if_neg Bool.false_ne_true]
    exact roundTrips_pure hzero.symm
  · rw [if_pos (by omega), decide_eq_true hzero, if_pos rfl]
    have hwrite : (CABACWriter.repeatBin (encodeBinEP true) (v - 1) >>= fun _ =>
        if v < count then encodeBinEP false else pure ()) =
        Put.emit (List.replicate (v - 1) (.ep true) ++ if v < count then [Bin.ep false] else []) := by
      rw [encodeBinEP, repeatBin_emit]
      by_cases hlast : v < count
      · rw [if_pos hlast, if_pos hlast]
        rfl
      · rw [if_neg hlast, if_neg hlast]
        rfl
    rw [hwrite]
    refine ⟨v, rfl, fun rest => ?_⟩
    have hsum : 1 + (v - 1) = v := by omega
    have hread := @controlIdcOnes_read (v - 1)
      ((List.replicate (v - 1) (Bin.ep true) ++ ((if v < count then [Bin.ep false] else []) ++ rest)).length + 1)
      1 count rest (by omega) (by rw [List.length_append, List.length_replicate]; omega)
    rw [hsum] at hread
    rw [List.append_assoc]
    exact hread

/-- Ones and a zero, all with the context `ctxId`. -/
theorem ones_roundTrips (ctxId : CtxId) {s n : ℕ} (hs : s ≤ n) : ∀ (d : ℕ) {k : ℕ}, k + d = s →
    RoundTrips strict
      (CABACWriter.repeatBin (encodeBin true ctxId) d >>= fun _ =>
        if s < n then encodeBin false ctxId else pure ())
      (CABACReader.unarySymbolBins ctxId ctxId (n - k) k) fun _ v => v = s
  | 0, k, hk => by
    obtain rfl : k = s := hk
    rw [CABACWriter.repeatBin, Put.pure_bind]
    rcases Nat.lt_or_eq_of_le hs with hlt | rfl
    · rw [if_pos hlt, show n - k = (n - k - 1) + 1 by omega, CABACReader.unarySymbolBins,
        ite_self]
      refine (roundTrips_bin _ _).then_right fun _ b hb => ⟨k, ?_, rfl⟩
      rw [hb]
      rfl
    · rw [if_neg (Nat.lt_irrefl k), Nat.sub_self]
      exact roundTrips_pure rfl
  | d + 1, k, hk => by
    rw [show n - k = (n - (k + 1)) + 1 by omega, CABACWriter.repeatBin, Put.bind_assoc,
      CABACReader.unarySymbolBins, ite_self]
    refine roundTrips_bind (roundTrips_bin _ _) fun _ b hb => ?_
    rw [hb]
    exact ones_roundTrips ctxId hs d (by omega)

theorem alternativeBins_roundTrips {s n : ℕ} (hs : s < n) (ctxId : CtxId) :
    RoundTrips strict (CABACWriter.alternativeBins s n ctxId) (CABACReader.alternativeBins n ctxId)
      fun _ v => v = s := by
  rw [CABACWriter.alternativeBins, check_ok _ (not_not.mpr hs), Put.lift_ok_bind]
  exact ones_roundTrips ctxId (by omega) s (Nat.zero_add s)

/-! ## Filter sets -/

theorem filterSet_roundTrips {s numAps : ℕ} (hs : s < numAps + NUM_FIXED_FILTER_SETS) (hnum : numAps < 2 ^ 31) :
    RoundTrips strict (CABACWriter.alfFilterSetBins s numAps) (CABACReader.readAlfCtuFilterIndex numAps)
      fun _ v => v = s := by
  have hfixed : ∀ {s : ℕ}, s < NUM_FIXED_FILTER_SETS → RoundTrips strict
      (CABACWriter.xWriteTruncBinCode s NUM_FIXED_FILTER_SETS)
      (CABACReader.xReadTruncBinCode NUM_FIXED_FILTER_SETS) fun _ v => v = s :=
    fun hlt => xTruncBinCode_roundTrips (fun _ => by decide) fun _ => hlt
  rw [CABACWriter.alfFilterSetBins, CABACReader.readAlfCtuFilterIndex]
  dsimp only
  refine roundTrips_ite Iff.rfl (fun haps => ?_) fun hnone => ?_
  · refine roundTrips_bind (roundTrips_bin _ _) fun _ use huse => ?_
    rw [huse]
    refine roundTrips_ite Iff.rfl (fun htemporal => ?_) fun hnot => ?_
    · have hge := of_decide_eq_true htemporal
      rw [Nat.add_sub_cancel, check_ok _ (by omega), Put.lift_ok_bind]
      have hindex : RoundTrips strict
          (if numAps > 1 then CABACWriter.xWriteTruncBinCode (s - NUM_FIXED_FILTER_SETS) numAps else pure ())
          (if numAps > 1 then CABACReader.xReadTruncBinCode numAps else pure 0)
          fun _ v => v = s - NUM_FIXED_FILTER_SETS :=
        roundTrips_ite Iff.rfl (fun _ => xTruncBinCode_roundTrips (fun _ => hnum) fun _ => by omega)
          fun _ => roundTrips_pure (by omega)
      refine hindex.then_right fun _ v hv => ⟨s, ?_, rfl⟩
      rw [hv, Nat.sub_add_cancel hge]
    · have hlt : s < NUM_FIXED_FILTER_SETS := Nat.not_le.mp (mt (decide_eq_true (p := s ≥ _)) hnot)
      rw [check_ok _ (Nat.not_le.mpr hlt), Put.lift_ok_bind]
      exact hfixed hlt
  · have hlt : s < NUM_FIXED_FILTER_SETS := by omega
    rw [check_ok _ (Nat.not_le.mpr hlt), Put.lift_ok_bind]
    exact hfixed hlt

/-! ## Cross-component filters -/

variable {cs : InLoopFilter.CodingStructure} {done : List ℕ} {ctuRsAddr : ℕ} {compID : ComponentID} {lumaPos : Position}

theorem neighbourCtx_congr {left above : Bool} {on on' : ℕ → Bool}
    (hleft : left = true → on' (ctuRsAddr - 1) = on (ctuRsAddr - 1))
    (habove : above = true → on' (ctuRsAddr - cs.pcv.widthInCtus) = on (ctuRsAddr - cs.pcv.widthInCtus)) :
    cs.neighbourCtx left above on' ctuRsAddr = cs.neighbourCtx left above on ctuRsAddr := by
  rw [InLoopFilter.CodingStructure.neighbourCtx, InLoopFilter.CodingStructure.neighbourCtx]
  congr 1
  · cases left with
    | false => rfl
    | true => rw [hleft rfl]
  · cases above with
    | false => rfl
    | true => rw [habove rfl]

/-- The reader finds the neighbours that the writer has, and their values are the same. -/
structure SameNeighbours (cs : InLoopFilter.CodingStructure) (done : List ℕ) (ctuRsAddr : ℕ) (on on' : ℕ → Bool) : Prop where
  left : ({ cs with coded := done } : InLoopFilter.CodingStructure).leftAvail (cs.ctuPos ctuRsAddr) =
    cs.leftAvail (cs.ctuPos ctuRsAddr)
  above : ({ cs with coded := done } : InLoopFilter.CodingStructure).aboveAvail (cs.ctuPos ctuRsAddr) cs.pcv.maxCUHeight =
    cs.aboveAvail (cs.ctuPos ctuRsAddr) cs.pcv.maxCUHeight
  left_same : cs.leftAvail (cs.ctuPos ctuRsAddr) = true → on' (ctuRsAddr - 1) = on (ctuRsAddr - 1)
  above_same : cs.aboveAvail (cs.ctuPos ctuRsAddr) cs.pcv.maxCUHeight = true →
    on' (ctuRsAddr - cs.pcv.widthInCtus) = on (ctuRsAddr - cs.pcv.widthInCtus)

theorem SameNeighbours.ctx {on on' : ℕ → Bool} (h : SameNeighbours cs done ctuRsAddr on on') :
    InLoopFilter.CodingStructure.neighbourCtx { cs with coded := done }
      (({ cs with coded := done } : InLoopFilter.CodingStructure).leftAvail (cs.ctuPos ctuRsAddr))
      (({ cs with coded := done } : InLoopFilter.CodingStructure).aboveAvail (cs.ctuPos ctuRsAddr) cs.pcv.maxCUHeight)
      on' ctuRsAddr =
    cs.neighbourCtx (cs.leftAvail (cs.ctuPos ctuRsAddr))
      (cs.aboveAvail (cs.ctuPos ctuRsAddr) cs.pcv.maxCUHeight) on ctuRsAddr := by
  rw [h.left, h.above]
  exact neighbourCtx_congr h.left_same h.above_same

theorem ccSao_roundTrips {control control' : ℕ → ℕ} {v setNum : ℕ} (hv : v ≤ setNum)
    (h : SameNeighbours cs done ctuRsAddr (fun i => control i ≠ 0) fun i => control' i ≠ 0) :
    RoundTrips strict (CABACWriter.codeCcSaoControlIdc cs v compID ctuRsAddr control (cs.ctuPos ctuRsAddr) setNum)
      (CABACReader.ccSaoControlIdc { cs with coded := done } compID ctuRsAddr control'
        (cs.ctuPos ctuRsAddr) setNum) fun _ v' => v' = v := by
  have hctx := h.ctx
  rw [cs.pcv.square] at hctx
  rw [CABACWriter.codeCcSaoControlIdc, check_ok _ (Nat.not_lt.mpr hv), Put.lift_ok_bind,
    CABACReader.ccSaoControlIdc]
  dsimp only
  rw [hctx]
  exact controlIdcBins_roundTrips hv _

/-- The index that is coded first is 1; there is a filter when the index is coded. -/
theorem ccAlf_roundTrips {control control' : ℕ → ℕ} {v filterCount : ℕ} (hv : v ≤ filterCount)
    (hcount : 1 ≤ filterCount)
    (h : SameNeighbours cs done ctuRsAddr (fun i => control i ≠ 1) fun i => control' i ≠ 1) :
    RoundTrips strict
      (CABACWriter.codeCcAlfFilterControlIdc cs v compID ctuRsAddr control (cs.ctuPos ctuRsAddr) filterCount)
      (CABACReader.ccAlfFilterControlIdc { cs with coded := done } compID ctuRsAddr control'
        (cs.ctuPos ctuRsAddr) filterCount) fun _ v' => v' = v := by
  have hctx := h.ctx
  rw [cs.pcv.square] at hctx
  have hmapped : CABACWriter.mappedIdc v ≤ filterCount := by
    rw [CABACWriter.mappedIdc]
    split_ifs <;> omega
  rw [CABACWriter.codeCcAlfFilterControlIdc, check_ok _ (Nat.not_lt.mpr hv), Put.lift_ok_bind,
    CABACReader.ccAlfFilterControlIdc]
  dsimp only
  rw [hctx]
  refine (controlIdcBins_roundTrips hmapped _).then_right fun _ v' hv' => ⟨_, rfl, ?_⟩
  rw [hv', CABACWriter.mappedIdc]
  split_ifs <;> omega

/-! ## Adaptive loop filter -/

/-- Flag and indices of a component that the slice admits. -/
structure AlfAdmitted (cs : InLoopFilter.CodingStructure) (a : AlfCtuControl) (compID : ComponentID) : Prop where
  luma : compID = .Y → a.enableFlag .Y = true →
    a.filterIndex < cs.slice.tileGroupNumAps + NUM_FIXED_FILTER_SETS ∧
    (NUM_FIXED_FILTER_SETS ≤ a.filterIndex → ∃ alfParam,
      cs.slice.alfAPSs (cs.slice.tileGroupApsIdLuma (a.filterIndex - NUM_FIXED_FILTER_SETS)) = some alfParam ∧
        a.alternative .Y < alfParam.numAlternativesLuma)
  chroma : compID ≠ .Y → ∃ alfParam, cs.slice.alfAPSs cs.slice.tileGroupApsIdChroma = some alfParam ∧
    (a.enableFlag compID = true → a.alternative compID < alfParam.numAlternativesChroma)

/-- The flag, and the indices that it asks for. -/
structure SameAlf (a b : AlfCtuControl) (compID : ComponentID) : Prop where
  flag : b.enableFlag compID = a.enableFlag compID
  filterIndex : compID = .Y → a.enableFlag .Y = true → b.filterIndex = a.filterIndex
  alternative : a.enableFlag compID = true → (compID = .Y → NUM_FIXED_FILTER_SETS ≤ a.filterIndex) →
    b.alternative compID = a.alternative compID

/-- What is read for a component changes nothing of the others. -/
structure AlfFrame (b b' : AlfCtuControl) (compID : ComponentID) : Prop where
  enableFlag : ∀ other, other ≠ compID → b'.enableFlag other = b.enableFlag other
  filterIndex : compID ≠ .Y → b'.filterIndex = b.filterIndex
  alternative : ∀ other, other ≠ compID → b'.alternative other = b.alternative other

theorem SameAlf.frame {a b b' : AlfCtuControl} {other : ComponentID} (h : SameAlf a b other)
    (hframe : AlfFrame b b' compID) (hne : other ≠ compID) : SameAlf a b' other where
  flag := (hframe.enableFlag other hne).trans h.flag
  filterIndex hY hflag := (hframe.filterIndex fun hc => hne (hY.trans hc.symm)).trans (h.filterIndex hY hflag)
  alternative hflag hset := (hframe.alternative other hne).trans (h.alternative hflag hset)

variable {a b : AlfCtuControl}

theorem alfLuma_roundTrips (hsps : cs.sps.alfEnabledFlag = true)
    (hslice : cs.slice.tileGroupAlfEnabledFlag .Y = true) (hnum : cs.slice.tileGroupNumAps < 2 ^ 31)
    (hon : a.enableFlag .Y = true) (ha : AlfAdmitted cs a .Y) (hb : b.enableFlag .Y = true) :
    RoundTrips strict (CABACWriter.alfLuma cs a) (CABACReader.alfLuma { cs with coded := done } b)
      fun _ b' => SameAlf a b' .Y ∧ AlfFrame b b' .Y := by
  obtain ⟨hset, halt⟩ := ha.luma rfl hon
  have hwrite : CABACWriter.codeAlfCtuFilterIndex cs a (cs.slice.tileGroupAlfEnabledFlag .Y) =
      CABACWriter.alfFilterSetBins a.filterIndex cs.slice.tileGroupNumAps := by
    rw [CABACWriter.codeAlfCtuFilterIndex, if_neg (by rw [hsps, hslice]; decide),
      if_neg (by rw [hon]; decide)]
  rw [CABACWriter.alfLuma, hwrite]
  refine roundTrips_bind (filterSet_roundTrips hset hnum) fun _ filterIndex hindex => ?_
  subst hindex
  refine roundTrips_ite (and_iff_right hon) (fun ⟨_, hlarge⟩ => ?_) fun hsmall => roundTrips_pure ?_
  · obtain ⟨alfParam, haps, hlt⟩ := halt hlarge
    have hwriter : CABACWriter.alfAPSParam cs
        (cs.slice.tileGroupApsIdLuma (a.filterIndex - NUM_FIXED_FILTER_SETS)) = .ok alfParam := by
      rw [CABACWriter.alfAPSParam, haps]
      rfl
    have hreader : CABACReader.alfAPSParam { cs with coded := done }
        (cs.slice.tileGroupApsIdLuma (a.filterIndex - NUM_FIXED_FILTER_SETS)) = .ok alfParam := by
      rw [CABACReader.alfAPSParam, haps]
      rfl
    rw [hwriter, Put.lift_ok_bind]
    refine roundTrips_lift_right hreader ?_
    rw [CABACWriter.codeAlfCtuAlternativeLuma, if_pos ⟨hsps, hslice⟩, if_pos ⟨hon, hlarge⟩]
    refine (alternativeBins_roundTrips hlt _).then_right fun _ decoded hdecoded => ⟨_, rfl, ?_, ?_⟩
    · have hself : Function.update b.alternative .Y decoded .Y = a.alternative .Y := by
        rw [Function.update_self, hdecoded]
      exact ⟨hb.trans hon.symm, fun _ _ => rfl, fun _ _ => hself⟩
    · exact ⟨fun _ _ => rfl, fun h => absurd rfl h, fun _ hne => Function.update_of_ne hne _ _⟩
  · refine ⟨⟨hb.trans hon.symm, fun _ _ => rfl, fun _ h => absurd ⟨hon, h rfl⟩ hsmall⟩, ?_⟩
    exact ⟨fun _ _ => rfl, fun h => absurd rfl h, fun _ _ => rfl⟩

theorem alfChroma_roundTrips (hsps : cs.sps.alfEnabledFlag = true)
    (hslice : cs.slice.tileGroupAlfEnabledFlag compID = true) (hne : compID ≠ .Y)
    (ha : AlfAdmitted cs a compID) (hb : b.enableFlag compID = a.enableFlag compID) :
    RoundTrips strict
      (if a.enableFlag compID = true then CABACWriter.codeAlfCtuAlternativeChroma cs a compID else pure ())
      (CABACReader.alfChroma { cs with coded := done } b compID)
      fun _ b' => SameAlf a b' compID ∧ AlfFrame b b' compID := by
  obtain ⟨alfParam, haps, hlt⟩ := ha.chroma hne
  have hreader : CABACReader.alfAPSParam { cs with coded := done } cs.slice.tileGroupApsIdChroma =
      .ok alfParam := by
    rw [CABACReader.alfAPSParam, haps]
    rfl
  refine roundTrips_lift_right hreader ?_
  have hdecoded : RoundTrips strict
      (if a.enableFlag compID = true then CABACWriter.codeAlfCtuAlternativeChroma cs a compID else pure ())
      (if b.enableFlag compID = true then
        CABACReader.alternativeBins alfParam.numAlternativesChroma ⟨.ctbAlfAlternative, compID.idx⟩
      else pure 0) fun _ v => a.enableFlag compID = true → v = a.alternative compID := by
    refine roundTrips_ite (by rw [hb]) (fun hon => ?_) fun hoff => roundTrips_pure fun h => absurd h hoff
    have hwriter : CABACWriter.alfAPSParam cs cs.slice.tileGroupApsIdChroma = .ok alfParam := by
      rw [CABACWriter.alfAPSParam, haps]
      rfl
    rw [CABACWriter.codeAlfCtuAlternativeChroma, hwriter, Put.lift_ok_bind, if_pos ⟨hsps, hslice⟩,
      if_pos hon]
    exact (alternativeBins_roundTrips (hlt hon) _).mono fun _ v hv _ => hv
  refine hdecoded.then_right fun _ v hv => ⟨_, rfl, ?_, ?_⟩
  · exact ⟨hb, fun h => absurd h hne, fun hon _ => (Function.update_self _ _ _).trans (hv hon)⟩
  · exact ⟨fun _ _ => rfl, fun _ => rfl, fun _ h => Function.update_of_ne h _ _⟩

/-- A component with ALF on in the slice. -/
theorem alfComponent_roundTrips {pic pic' : PicControl} (hsps : cs.sps.alfEnabledFlag = true)
    (hslice : cs.slice.tileGroupAlfEnabledFlag compID = true) (hnum : cs.slice.tileGroupNumAps < 2 ^ 31)
    (ha : AlfAdmitted cs (pic.ctu ctuRsAddr).alf compID)
    (hsame : SameNeighbours cs done ctuRsAddr (fun i => (pic.ctu i).alf.enableFlag compID)
      fun i => (pic'.ctu i).alf.enableFlag compID) :
    RoundTrips strict (CABACWriter.alfComponent cs pic ctuRsAddr compID)
      (CABACReader.alfEnabledComponent { cs with coded := done } pic' ctuRsAddr b compID)
      fun _ b' => SameAlf (pic.ctu ctuRsAddr).alf b' compID ∧ AlfFrame b b' compID := by
  rw [CABACWriter.alfComponent, if_neg (not_not.mpr hslice), CABACWriter.codeAlfCtuEnableFlag,
    if_pos ⟨hsps, hslice⟩, CABACReader.alfEnabledComponent]
  dsimp only
  have hctx := hsame.ctx
  rw [show InLoopFilter.CodingStructure.ctuPos { cs with coded := done } ctuRsAddr = cs.ctuPos ctuRsAddr from rfl, hctx]
  refine roundTrips_bind (roundTrips_bin _ _) fun _ flag hflag => ?_
  rw [hflag]
  have hbase : ∀ {b' : AlfCtuControl}, AlfFrame
      { b with enableFlag := Function.update b.enableFlag compID ((pic.ctu ctuRsAddr).alf.enableFlag compID) }
      b' compID → AlfFrame b b' compID := fun h =>
    ⟨fun other hne => (h.enableFlag other hne).trans (Function.update_of_ne hne _ _), h.filterIndex, h.alternative⟩
  have hself : Function.update b.enableFlag compID ((pic.ctu ctuRsAddr).alf.enableFlag compID) compID =
      (pic.ctu ctuRsAddr).alf.enableFlag compID := Function.update_self _ _ _
  by_cases hY : compID = .Y
  · subst hY
    rw [if_pos rfl, if_pos rfl]
    by_cases hon : (pic.ctu ctuRsAddr).alf.enableFlag .Y = true
    · rw [if_pos hon]
      refine (alfLuma_roundTrips hsps hslice hnum hon ha ?_).mono fun _ b' hb' => ⟨hb'.1, hbase hb'.2⟩
      exact hself.trans hon
    · rw [if_neg hon, CABACWriter.alfLuma, CABACWriter.codeAlfCtuFilterIndex,
        if_neg (by rw [hsps, hslice]; decide), if_pos hon, Put.pure_bind, if_neg fun h => hon h.1]
      refine roundTrips_pure ⟨⟨hself, fun _ h => absurd h hon, fun h => absurd h hon⟩, ?_⟩
      exact hbase ⟨fun _ _ => rfl, fun _ => rfl, fun _ _ => rfl⟩
  · rw [if_neg hY, if_neg hY]
    exact (alfChroma_roundTrips hsps hslice hY ha hself).mono
      fun _ b' hb' => ⟨hb'.1, hbase hb'.2⟩

end ECM.InLoop
