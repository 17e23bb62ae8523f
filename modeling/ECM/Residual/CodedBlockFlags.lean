import ECM.Partition.TransformParts

/-! # Coded-block flags

The reader takes the flags of a transform tree with the contexts they were written
with, and infers the others from the units it has so far. It ends with the flags of
the writer exactly if the syntax can express them. -/

namespace ECM.Residual.CodedBlockFlags
open CommonLib CommonLib.Bins Lib.Codec ECM.Partition ECM.Partition.TransformParts List

variable {cs : CodingStructure} {cu : TransformCU}

/-! ## One transform unit -/

/-- A unit without its flags. -/
def clear (tu : TransformUnit) : TransformUnit := { tu with cbf := fun _ => 0 }

/-- The flags at the depth of the unit. -/
def flags (tu : TransformUnit) (compID : ComponentID) : Bool := tu.getCbf compID

/-- Chroma of the unit has coefficients. -/
def sigChroma (tu : TransformUnit) : Bool := tu.area.Cb.valid && (flags tu .Cb || flags tu .Cr)

/-- The unit is the half of a sub-block transform that has no residual. -/
def sbtNoResidual (cu : TransformCU) (tu : TransformUnit) : Bool := cu.sbtInfo.isSome && tu.noResidual

/-- The checks of the writer on the luma flag of a unit. -/
structure Passes (cu : TransformCU) (tu : TransformUnit) : Prop where
  inter : cu.chType = .luma → cu.isIntra = false → tu.depth = 0 → sigChroma tu = false → flags tu .Y = true
  noResidual : cu.chType = .luma → sbtNoResidual cu tu = true → flags tu .Y = false
  residual : cu.chType = .luma → cu.sbtInfo.isSome = true → sbtNoResidual cu tu = false → sigChroma tu = false →
    flags tu .Y = true
  act : cu.chType = .luma → cu.lumaCbfIsInferredACT tu.depth (sigChroma tu) = true → flags tu .Y = true

/-- The flags that are read: those that were written, and the inferred ones. `last` says that luma
of the last sub-partition is inferred. -/
def received (cu : TransformCU) (last : Bool) (tu : TransformUnit) (compID : ComponentID) : Bool :=
  match compID with
  | .Y => cu.chType = .luma && (last || flags tu .Y)
  | _ => tu.area.Cb.valid && !sbtNoResidual cu tu && flags tu compID

variable {strict : Prop} {p : TuPart} {tu : TransformUnit}

theorem clear_eq (h : clear tu = p.newUnit cs cu) : tu.area = (p.newUnit cs cu).area ∧
    tu.depth = p.currTrDepth ∧ (p.newUnit cs cu).noResidual = tu.noResidual :=
  ⟨congrArg (·.area) h, congrArg (·.depth) h, (congrArg (·.noResidual) h).symm⟩

/-- Flags of chroma are coded for a unit that has chroma. -/
theorem codesChroma_eq (h : Ok cs cu) (hp : Leaf cs cu p) :
    (decide (p.currArea.chromaFormat ≠ .chroma400) && cu.codesChroma cs p) = (p.newUnit cs cu).area.Cb.valid := by
  have hnew : (p.newUnit cs cu).area = cs.getArea p.currArea cu.chType := rfl
  have hinvalid (l : List CompArea) : (UnitArea.mk p.currArea.chromaFormat p.currArea.Y
      (l.map fun _ => default)).Cb.valid = false := by
    cases l <;> rfl
  rw [hnew, hp.format]
  unfold CodingStructure.getArea TransformCU.codesChroma
  by_cases h4 : cu.area.chromaFormat = .chroma400
  · have hnil := hp.noChroma h4
    have hcb : p.currArea.Cb.valid = false := by
      unfold UnitArea.Cb
      rw [hnil]
      rfl
    cases hd : cs.isDualITree with
    | false => simp [h4, hcb]
    | true =>
      rw [if_pos rfl]
      cases hc : cu.chType with
      | luma => exact (hinvalid _).symm ▸ by simp [h4]
      | chroma => exact absurd h4 (h.chroma hc).2
  · cases hd : cs.isDualITree with
    | false => cases hcb : p.currArea.Cb.valid <;> simp [h4, hcb, Bool.or_comm]
    | true =>
      rw [if_pos rfl]
      cases hc : cu.chType with
      | luma => exact (hinvalid _).symm ▸ by simp
      | chroma =>
        change _ = p.currArea.Cb.valid
        cases hcb : p.currArea.Cb.valid <;> cases hisp : cu.hasIsp <;> simp [h4, hcb]

/-- Where chroma is not coded and luma and chroma share the tree, the unit is a sub-partition. -/
theorem hasIsp_of_noChroma (hp : Leaf cs cu p) (h4 : p.currArea.chromaFormat ≠ .chroma400)
    (hcodes : cu.codesChroma cs p = false) (hdual : cs.isDualITree = false) : cu.hasIsp = true := by
  cases hisp : cu.hasIsp with
  | true => rfl
  | false =>
    have hvalid := hp.chroma hisp (hp.format ▸ h4)
    unfold TransformCU.codesChroma at hcodes
    simp [hvalid, hdual, hisp] at hcodes

theorem depth_ne_zero (hp : Leaf cs cu p) (h : sbtNoResidual cu tu = true) :
    p.currTrDepth ≠ 0 := by
  unfold sbtNoResidual at h
  rw [Bool.and_eq_true] at h
  exact hp.depth (Or.inr h.1)

/-- What the reader makes of the flags of chroma, and whether they count as significant. -/
theorem chroma_roundTrips (h : Ok cs cu) (hp : Leaf cs cu p) (htu : clear tu = p.newUnit cs cu) :
    RoundTrips strict (EncoderLib.CABACWriter.chromaCbfs cs cu tu p)
      (DecoderLib.CABACReader.chromaCbfs cs cu (p.newUnit cs cu) p) fun w r =>
      (r.Cb = received cu false tu .Cb ∧ r.Cr = received cu false tu .Cr) ∧
      (cu.hasIsp = false → w.sigChroma p.currArea.chromaFormat = sigChroma tu) ∧
      (cu.hasIsp = false → sbtNoResidual cu tu = false → r.sigChroma p.currArea.chromaFormat = sigChroma tu) := by
  have hvalid := codesChroma_eq h hp
  obtain ⟨harea, hdepth, hres⟩ := clear_eq htu
  unfold EncoderLib.CABACWriter.chromaCbfs DecoderLib.CABACReader.chromaCbfs
  rw [hvalid, ← harea, hres]
  cases hv : tu.area.Cb.valid with
  | true =>
    rw [← harea, hv, Bool.and_eq_true, decide_eq_true_eq] at hvalid
    have hfmt := hvalid.1
    rw [if_pos hfmt, if_pos hvalid.2, if_pos rfl]
    have hcb : tu.getCbfAtDepth .Cb p.currTrDepth = flags tu .Cb := by rw [← hdepth]; rfl
    have hcr : tu.getCbfAtDepth .Cr p.currTrDepth = flags tu .Cr := by rw [← hdepth]; rfl
    have hsig (c : ChromaCbfs) : c.sigChroma p.currArea.chromaFormat = (c.Cb || c.Cr) := by
      unfold ChromaCbfs.sigChroma
      rw [if_neg hfmt]
    dsimp only
    rw [hcb, hcr]
    cases hnr : cu.sbtInfo.isSome && tu.noResidual with
    | true =>
      have hnr' : sbtNoResidual cu tu = true := hnr
      refine roundTrips_pure ⟨⟨?_, ?_⟩, fun _ => ?_, fun _ hoff => ?_⟩
      · simp [received, hnr']
      · simp [received, hnr']
      · rw [hsig, sigChroma, hv, Bool.true_and]
      · rw [hnr'] at hoff
        cases hoff
    | false =>
      have hnr' : sbtNoResidual cu tu = false := hnr
      refine roundTrips_bind (roundTrips_bin _ _) fun _ cb hcb' => ?_
      subst hcb'
      refine roundTrips_bind (roundTrips_bin _ _) fun _ cr hcr' => ?_
      subst hcr'
      refine roundTrips_pure ⟨⟨?_, ?_⟩, fun _ => ?_, fun _ _ => ?_⟩
      · simp [received, hnr', hv]
      · simp [received, hnr', hv]
      · rw [hsig, sigChroma, hv, Bool.true_and]
      · rw [hsig, sigChroma, hv, Bool.true_and]
  | false =>
    have hread : received cu false tu .Cb = false ∧ received cu false tu .Cr = false := by simp [received, hv]
    have hnone : sigChroma tu = false := by simp [sigChroma, hv]
    have hsig : (ChromaCbfs.mk false false).sigChroma p.currArea.chromaFormat = false := by
      unfold ChromaCbfs.sigChroma
      split <;> rfl
    rw [← harea, hv] at hvalid
    rw [hnone, hread.1, hread.2, if_neg Bool.false_ne_true]
    by_cases h4 : p.currArea.chromaFormat = .chroma400
    · rw [if_neg fun hne => hne h4]
      cases hd : cs.isDualITree with
      | true => exact roundTrips_pure ⟨⟨rfl, rfl⟩, fun _ => hsig, fun _ _ => hsig⟩
      | false =>
        refine roundTrips_pure ⟨⟨rfl, rfl⟩, fun _ => ?_, fun _ _ => hsig⟩
        unfold ChromaCbfs.sigChroma
        rw [if_pos h4]
    · rw [decide_eq_true h4, Bool.true_and] at hvalid
      rw [if_pos h4, hvalid, if_neg Bool.false_ne_true]
      cases hd : cs.isDualITree with
      | true => exact roundTrips_pure ⟨⟨rfl, rfl⟩, fun _ => hsig, fun _ _ => hsig⟩
      | false =>
        have hisp := hasIsp_of_noChroma hp h4 hvalid hd
        refine roundTrips_pure ⟨⟨rfl, rfl⟩, fun hoff => ?_, fun _ _ => hsig⟩
        rw [hisp] at hoff
        cases hoff

/-- A flag that is coded unless it is inferred to be set, by the color transform or otherwise. -/
theorem inferred_roundTrips {act last cbf : Bool} {c : Prop} [Decidable c] {msg : String} {ctxId : CtxId}
    (hc : c ↔ act = true ∧ cbf = false) (hlast : act = true → last = true)
    (hcheck : strict → act = true → cbf = true) :
    RoundTrips strict (do check c msg; if !last then encodeBin cbf ctxId : BinPut Unit)
      (if last then pure true else decodeBin ctxId) fun _ b => b = ((last && !act) || cbf) := by
  refine roundTrips_lift_left (fun e he hs => ?_) fun _ hok => ?_
  · rw [check_ok] at he
    · cases he
    · intro hbad
      obtain ⟨hact, hcbf⟩ := hc.mp hbad
      rw [hcheck hs hact] at hcbf
      cases hcbf
  · have hpassed := mt hc.mpr (check_eq_ok hok)
    cases last with
    | true =>
      refine roundTrips_pure ?_
      cases act <;> cases cbf <;> simp at hpassed ⊢
    | false =>
      cases act with
      | true => cases hlast rfl
      | false => exact roundTrips_bin cbf ctxId

/-- A flag that is inferred, which the writer checks. -/
theorem checked_roundTrips {cbf b : Bool} {c : Prop} [Decidable c] {msg : String} (hc : c ↔ cbf ≠ b)
    (hpass : strict → cbf = b) :
    RoundTrips strict (liftM (check c msg) : BinPut Unit) (pure b) fun _ b' => b' = cbf := by
  refine roundTrips_lift (fun e he hs => ?_) fun _ hok => ?_
  · rw [check_ok _ fun h => hc.mp h (hpass hs)] at he
    cases he
  · exact (not_not.mp (mt hc.mpr (check_eq_ok hok))).symm

/-- What the two sides infer for luma from the units before. -/
def writerInfers (cu : TransformCU) (earlier : List TransformUnit) (tu : TransformUnit) (p : TuPart)
    (sub : Option ℕ) (act : Bool) : Bool × Bool :=
  cu.inferLumaCbf tu sub act ((earlier.take (sub.getD 0)).any fun tu => tu.getCbfAtDepth .Y p.currTrDepth)
    (getPrevTuCbfAtDepth earlier .Y p.currTrDepth)

def readerInfers (cu : TransformCU) (done : List TransformUnit) (tu : TransformUnit) (p : TuPart)
    (sub : Option ℕ) (act : Bool) : Bool × Bool :=
  cu.inferLumaCbf tu sub act (((done ++ [tu]).take (cu.nTus tu - 1)).any fun tu => tu.getCbfAtDepth .Y p.currTrDepth)
    (getPrevTuCbfAtDepth done .Y p.currTrDepth)

variable {earlier done : List TransformUnit} {sub : Option ℕ} {last prev : Bool}

/-- Luma of a sub-partition. -/
theorem luma_isp (h : Ok cs cu) (hp : Leaf cs cu p) (hisp : cu.hasIsp = true) (htu : clear tu = p.newUnit cs cu)
    (hw : writerInfers cu earlier tu p sub false = (last, prev))
    (hr : readerInfers cu done (p.newUnit cs cu) p sub false = (last, prev)) (sw sr : Bool) :
    RoundTrips strict (EncoderLib.CABACWriter.lumaCbf cu earlier tu p sub sw)
      (DecoderLib.CABACReader.lumaCbf cu done (p.newUnit cs cu) p sub sr) fun _ b => b = (last || flags tu .Y) := by
  have hdepth := hp.depth (Or.inl hisp)
  have hact (s : Bool) : cu.lumaCbfIsInferredACT p.currTrDepth s = false := by
    simp [TransformCU.lumaCbfIsInferredACT, hdepth]
  have hcbf : tu.getCbfAtDepth .Y p.currTrDepth = flags tu .Y := by
    rw [← (clear_eq htu).2.1]
    rfl
  unfold writerInfers at hw
  unfold readerInfers at hr
  unfold EncoderLib.CABACWriter.lumaCbf DecoderLib.CABACReader.lumaCbf
  simp only [(h.isp hisp).1, sbtInfo_none h hisp, hact, hw, hr, hcbf, Bool.not_true, Bool.false_and,
    Option.isSome_none, Bool.false_eq_true, if_false]
  refine (@inferred_roundTrips strict false last _ _ _ _ _ (by simp) Bool.noConfusion fun _ => Bool.noConfusion).mono
    fun _ b hb => ?_
  rw [hb, Bool.not_false, Bool.and_true]

/-- Luma of any other unit. -/
theorem luma_noIsp (hp : Leaf cs cu p) (hisp : cu.hasIsp = false) (hluma : cu.chType = .luma)
    (htu : clear tu = p.newUnit cs cu) {sw sr : Bool} (hsw : sw = sigChroma tu)
    (hsr : sbtNoResidual cu tu = false → sr = sigChroma tu) (hpass : strict → Passes cu tu) :
    RoundTrips strict (EncoderLib.CABACWriter.lumaCbf cu earlier tu p sub sw)
      (DecoderLib.CABACReader.lumaCbf cu done (p.newUnit cs cu) p sub sr) fun _ b => b = flags tu .Y := by
  obtain ⟨-, hdepth, hres⟩ := clear_eq htu
  have hcbf : tu.getCbfAtDepth .Y p.currTrDepth = flags tu .Y := by
    rw [← hdepth]
    rfl
  have hinfer (tu' : TransformUnit) (act root prev : Bool) : cu.inferLumaCbf tu' sub act root prev = (act, false) := by
    unfold TransformCU.inferLumaCbf
    rw [hisp]
    rfl
  unfold EncoderLib.CABACWriter.lumaCbf DecoderLib.CABACReader.lumaCbf
  simp only [hcbf, hinfer, hres, hsw]
  cases hnr : sbtNoResidual cu tu with
  | true =>
    have hzero := depth_ne_zero hp hnr
    have hnr' : (cu.sbtInfo.isSome && tu.noResidual) = true := hnr
    simp only [hzero, decide_false, Bool.and_false, Bool.false_and, Bool.false_eq_true, if_false, hnr', if_true]
    exact checked_roundTrips (by simp) fun hs => (hpass hs).noResidual hluma hnr
  | false =>
    have hnr' : (cu.sbtInfo.isSome && tu.noResidual) = false := hnr
    simp only [hsr hnr, hnr', Bool.false_eq_true, if_false]
    refine roundTrips_ite Iff.rfl (fun hinter => ?_) fun _ => roundTrips_ite Iff.rfl (fun hsbt => ?_) fun _ => ?_
    · simp only [Bool.and_eq_true, Bool.not_eq_true', decide_eq_true_eq] at hinter
      exact checked_roundTrips (by simp) fun hs => (hpass hs).inter hluma hinter.1.1 (hdepth.trans hinter.1.2) hinter.2
    · rw [Bool.and_eq_true, Bool.not_eq_true'] at hsbt
      exact checked_roundTrips (by simp) fun hs => (hpass hs).residual hluma hsbt.1 hnr hsbt.2
    · refine (inferred_roundTrips (by simp) id fun hs hact => ?_).mono fun _ b hb => ?_
      · exact (hpass hs).act hluma (hdepth ▸ hact)
      · rw [hb, Bool.and_not_self, Bool.false_or]

theorem flags_set {tu : TransformUnit} {d : ℕ} (hd : d = tu.depth) (c c' : ComponentID) (b : Bool) :
    flags (tu.setCbfAtDepth c d b) c' = if c' = c then b else flags tu c' := by
  subst hd
  unfold flags TransformUnit.getCbf
  rw [TransformUnit.depth_setCbfAtDepth, TransformUnit.getCbfAtDepth_set]
  simp

/-- The flags of a unit whose flags of chroma are set, where nothing is set if there is no chroma. -/
theorem setChromaCbfs_spec (tu₀ : TransformUnit) {r : ChromaCbfs} (hp : p.currTrDepth = tu₀.depth)
    (hzero : flags tu₀ .Cb = false ∧ flags tu₀ .Cr = false)
    (hr : p.currArea.chromaFormat = .chroma400 ∨ cu.hasIsp = true ∧ p.currArea.Cb.valid = false →
      r.Cb = false ∧ r.Cr = false) :
    clear (DecoderLib.CABACReader.setChromaCbfs cu tu₀ p r) = clear tu₀ ∧
      flags (DecoderLib.CABACReader.setChromaCbfs cu tu₀ p r) .Y = flags tu₀ .Y ∧
      flags (DecoderLib.CABACReader.setChromaCbfs cu tu₀ p r) .Cb = r.Cb ∧
      flags (DecoderLib.CABACReader.setChromaCbfs cu tu₀ p r) .Cr = r.Cr := by
  unfold DecoderLib.CABACReader.setChromaCbfs
  dsimp only
  split
  · have hset (c : ComponentID) := @flags_set (tu₀.setCbfAtDepth .Cb p.currTrDepth r.Cb) _ hp .Cr c r.Cr
    refine ⟨rfl, ?_, ?_, ?_⟩
    · rw [hset, flags_set hp]
      simp
    · rw [hset, flags_set hp]
      simp
    · rw [hset, if_pos rfl]
  · rename_i hoff
    obtain ⟨hcb, hcr⟩ := hr (by
      by_cases h4 : p.currArea.chromaFormat = .chroma400
      · exact Or.inl h4
      · refine Or.inr ?_
        cases hisp : cu.hasIsp <;> cases hv : p.currArea.Cb.valid <;> simp [h4, hisp, hv] at hoff ⊢)
    exact ⟨rfl, rfl, hzero.1.trans hcb.symm, hzero.2.trans hcr.symm⟩

theorem flags_newUnit (cs : CodingStructure) (cu : TransformCU) (p : TuPart) (c : ComponentID) :
    flags (p.newUnit cs cu) c = false := Nat.zero_testBit _

/-- A transform unit: its flags are coded with the same contexts, or inferred. -/
theorem unit_roundTrips (h : Ok cs cu) (hp : Leaf cs cu p) (htu : clear tu = p.newUnit cs cu)
    (hpass : strict → Passes cu tu) (hlast : cu.hasIsp = false → last = false)
    (hinfer : cu.hasIsp = true → ∃ prev, writerInfers cu earlier tu p sub false = (last, prev) ∧
      readerInfers cu done (p.newUnit cs cu) p sub false = (last, prev)) :
    RoundTrips strict (EncoderLib.CABACWriter.transform_unit cs cu earlier tu p sub)
      (DecoderLib.CABACReader.transform_unit cs cu done (p.newUnit cs cu) p sub) fun _ tu' =>
      clear tu' = p.newUnit cs cu ∧ flags tu' = received cu last tu := by
  obtain ⟨harea, hdepth, -⟩ := clear_eq htu
  -- chroma that is not coded is read as clear
  have hnone {r : ChromaCbfs} (hr : r.Cb = received cu false tu .Cb ∧ r.Cr = received cu false tu .Cr)
      (hoff : p.currArea.chromaFormat = .chroma400 ∨ cu.hasIsp = true ∧ p.currArea.Cb.valid = false) :
      r.Cb = false ∧ r.Cr = false := by
    have hvalid := codesChroma_eq h hp
    have hv : tu.area.Cb.valid = false := by
      rw [harea, ← hvalid]
      rcases hoff with h4 | ⟨-, hcb⟩
      · simp [h4]
      · simp [TransformCU.codesChroma, hcb]
    rw [hr.1, hr.2]
    simp [received, hv]
  have hflags {tu' : TransformUnit} {r : ChromaCbfs} (hY : flags tu' .Y = received cu last tu .Y)
      (hCb : flags tu' .Cb = r.Cb) (hCr : flags tu' .Cr = r.Cr)
      (hr : r.Cb = received cu false tu .Cb ∧ r.Cr = received cu false tu .Cr) :
      flags tu' = received cu last tu := by
    funext c
    cases c with
    | Y => exact hY
    | Cb => exact hCb.trans hr.1
    | Cr => exact hCr.trans hr.2
  unfold EncoderLib.CABACWriter.transform_unit DecoderLib.CABACReader.transform_unit
  rw [check_ok _ (by rw [hdepth]; exact fun hne => hne rfl), Put.lift_ok_bind]
  refine roundTrips_bind (chroma_roundTrips h hp htu) fun w r ⟨hr, hsw, hsr⟩ => ?_
  cases hc : cu.chType with
  | chroma =>
    rw [if_neg ChannelType.noConfusion, if_neg ChannelType.noConfusion]
    obtain ⟨hclear, hY, hCb, hCr⟩ := setChromaCbfs_spec (p.newUnit cs cu) rfl
      ⟨flags_newUnit cs cu p .Cb, flags_newUnit cs cu p .Cr⟩ (hnone hr)
    refine roundTrips_pure ⟨hclear, hflags (hY.trans ?_) hCb hCr hr⟩
    rw [flags_newUnit]
    simp [received, hc]
  | luma =>
    rw [if_pos rfl, if_pos rfl]
    have hread : RoundTrips strict
        (EncoderLib.CABACWriter.lumaCbf cu earlier tu p sub (w.sigChroma p.currArea.chromaFormat))
        (DecoderLib.CABACReader.lumaCbf cu done (p.newUnit cs cu) p sub (r.sigChroma p.currArea.chromaFormat))
        fun _ b => b = (last || flags tu .Y) := by
      cases hisp : cu.hasIsp with
      | true =>
        obtain ⟨prev, hwi, hri⟩ := hinfer hisp
        exact luma_isp h hp hisp htu hwi hri _ _
      | false =>
        rw [hlast hisp, Bool.false_or]
        exact luma_noIsp hp hisp hc htu (hsw hisp) (hsr hisp) hpass
    refine hread.then_right fun _ b hb => ⟨_, rfl, ?_⟩
    have hset (c : ComponentID) := @flags_set (p.newUnit cs cu) p.currTrDepth rfl .Y c b
    have hzero (c : ComponentID) (hne : c ≠ .Y) :
        flags ((p.newUnit cs cu).setCbfAtDepth .Y p.currTrDepth b) c = false := by
      rw [hset, if_neg hne, flags_newUnit]
    obtain ⟨hclear, hY, hCb, hCr⟩ := setChromaCbfs_spec ((p.newUnit cs cu).setCbfAtDepth .Y p.currTrDepth b) rfl
      ⟨hzero .Cb ComponentID.noConfusion, hzero .Cr ComponentID.noConfusion⟩ (hnone hr)
    refine ⟨hclear, hflags (hY.trans ?_) hCb hCr hr⟩
    rw [hset, if_pos rfl, hb]
    simp [received, hc]

/-! ## What is inferred from the units before -/

/-- What a unit shows to the units after it. -/
def lumaView (tu : TransformUnit) : TransformUnit × Bool := (clear tu, flags tu .Y)

theorem getCbf_of_depth {d : ℕ} (hd : tu.depth = d) (c : ComponentID) : tu.getCbfAtDepth c d = flags tu c := by
  rw [← hd]
  rfl

theorem any_getCbf {l : List TransformUnit} {d : ℕ} (hl : ∀ tu ∈ l, tu.depth = d) :
    (l.any fun tu => tu.getCbfAtDepth .Y d) = l.any fun tu => flags tu .Y := by
  rw [Bool.eq_iff_iff, any_eq_true, any_eq_true]
  exact exists_congr fun tu => and_congr_right fun htu => by rw [getCbf_of_depth (hl tu htu)]

/-- The units that were read show what those that were written show. -/
theorem any_lumaView {d : ℕ} (hview : done.map lumaView = earlier.map lumaView)
    (hdepth : ∀ tu ∈ earlier, tu.depth = d) :
    (done.any fun tu => tu.getCbfAtDepth .Y d) = (earlier.any fun tu => tu.getCbfAtDepth .Y d) ∧
      getPrevTuCbfAtDepth done .Y d = getPrevTuCbfAtDepth earlier .Y d := by
  have hdone : ∀ tu ∈ done, tu.depth = d := by
    intro tu htu
    have hmem : lumaView tu ∈ earlier.map lumaView := hview ▸ mem_map_of_mem htu
    obtain ⟨tu', htu', heq⟩ := mem_map.mp hmem
    have hclear : clear tu' = clear tu := congrArg Prod.fst heq
    exact (congrArg (·.depth) hclear).symm.trans (hdepth tu' htu')
  have hany {l : List TransformUnit} (hl : ∀ tu ∈ l, tu.depth = d) :
      (l.any fun tu => tu.getCbfAtDepth .Y d) = (l.map lumaView).any fun v => v.2 := by
    rw [any_getCbf hl, any_map]
    rfl
  have hprev {l : List TransformUnit} (hl : ∀ tu ∈ l, tu.depth = d) :
      getPrevTuCbfAtDepth l .Y d = (l.map lumaView).getLast?.any fun v => v.1.area.Y.valid && v.2 := by
    unfold getPrevTuCbfAtDepth
    rw [List.getLast?_map]
    cases hlast : l.getLast? with
    | none => rfl
    | some tu =>
      have hdtu := hl tu (mem_of_getLast? hlast)
      change (tu.area.Y.valid && tu.getCbfAtDepth .Y d) = (tu.area.Y.valid && flags tu .Y)
      rw [getCbf_of_depth hdtu]
  rw [hany hdone, hany hdepth, hprev hdone, hprev hdepth, hview]
  exact ⟨rfl, rfl⟩

/-- Both sides infer the same for sub-partition `k`: the last one has a luma flag if no other has. -/
theorem infers_eq {k n : ℕ} (hisp : cu.hasIsp = true) (hlen : earlier.length = k)
    (hview : done.map lumaView = earlier.map lumaView) (hdepth : ∀ tu ∈ earlier, tu.depth = p.currTrDepth)
    {new : TransformUnit} (harea : tu.area = new.area) (hn : cu.nTus new = n) (hk : k < n) :
    ∃ prev, writerInfers cu earlier tu p (some k) false =
        (decide (k + 1 = n) && !earlier.any fun tu => flags tu .Y, prev) ∧
      readerInfers cu done new p (some k) false =
        (decide (k + 1 = n) && !earlier.any fun tu => flags tu .Y, prev) := by
  obtain ⟨hany, hprev⟩ := any_lumaView hview hdepth
  have hntu : cu.nTus tu = n := by
    rw [← hn]
    unfold TransformCU.nTus
    rw [harea]
  have hflags := any_getCbf hdepth
  have hdone : done.length = k := by
    have hl := congrArg List.length hview
    rw [length_map, length_map, hlen] at hl
    exact hl
  unfold writerInfers readerInfers TransformCU.inferLumaCbf
  rw [hisp, if_pos rfl, if_pos rfl, hntu, hn, hprev, Option.getD_some, ← hlen, take_length, hflags]
  by_cases hlast : k + 1 = n
  · have hsub : n - 1 = done.length := by omega
    have hkn : (some earlier.length = some (n - 1)) := by rw [hlen]; congr 1; omega
    rw [hsub, take_left, hany, hflags, ← hsub]
    generalize (earlier.any fun tu => flags tu .Y) = root
    simp [hkn, hlen ▸ hlast]
  · have hkn : ¬(some earlier.length = some (n - 1)) := by
      rw [hlen, Option.some.injEq]
      omega
    have hlast' : ¬earlier.length + 1 = n := by rwa [hlen]
    simp [hkn, hlast']

/-! ## Transform trees -/

/-- The parts at which the units of a coding unit are. -/
def unitParts (cs : CodingStructure) (cu : TransformCU) (idx : ℕ) : Checked (List TuPart) := do
  if ← DecoderLib.CABACReader.canSplit cs cu (root cu idx) then
    let areas ← (root cu idx).split cs cu
    return (root cu idx).parts areas
  else return [root cu idx]

/-- `units` are the transform units of a coding unit, with any flags. -/
def UnitsOf (cs : CodingStructure) (cu : TransformCU) (idx : ℕ) (units : List TransformUnit) : Prop :=
  ∃ parts, unitParts cs cu idx = .ok parts ∧ units.map clear = parts.map (TuPart.newUnit cs cu)

/-- The flags that the syntax can express. -/
structure Representable (cu : TransformCU) (units : List TransformUnit) : Prop where
  /-- one of the sub-partitions has a luma flag -/
  isp : cu.hasIsp = true → ∃ tu ∈ units, flags tu .Y = true
  /-- the half without residual has no chroma flags -/
  noResidual : ∀ tu ∈ units, sbtNoResidual cu tu = true → flags tu .Cb = false ∧ flags tu .Cr = false
  /-- a component of which the unit has no block has no flag -/
  noBlock : ∀ tu ∈ units, ∀ c : ComponentID, (tu.area.blockOf c.toChannelType).valid = false → flags tu c = false

variable {units : List TransformUnit} {idx : ℕ}

/-- Luma of sub-partition `k` is inferred. -/
def lastInferred (cu : TransformCU) (units : List TransformUnit) (k : ℕ) : Bool :=
  cu.hasIsp && (decide (k + 1 = units.length) && !(units.take k).any fun tu => flags tu .Y)

theorem reader_leaf (hp : Leaf cs cu p) : DecoderLib.CABACReader.canSplit cs cu p = .ok false := by
  unfold DecoderLib.CABACReader.canSplit
  rw [hp.maxTr, hp.sbt, ok_bind, ok_bind]
  cases hisp : cu.hasIsp with
  | true => exact hp.isp hisp
  | false => rfl

theorem writer_leaf (hp : Leaf cs cu p) : EncoderLib.CABACWriter.checkSplit cs cu p false = .ok () := by
  unfold EncoderLib.CABACWriter.checkSplit
  rw [hp.maxTr, hp.sbt, ok_bind, ok_bind]
  rfl

/-- The tree at a part that is not split. -/
theorem leaf_roundTrips (h : Ok cs cu) (hp : Leaf cs cu p) (levels : ℕ)
    (hget : EncoderLib.CABACWriter.getTU cu units (p.currArea.blockOf cu.chType).pos sub = some (earlier, tu))
    (htu : clear tu = p.newUnit cs cu) (hpass : strict → Passes cu tu) (hlast : cu.hasIsp = false → last = false)
    (hinfer : cu.hasIsp = true → ∃ prev, writerInfers cu earlier tu p sub false = (last, prev) ∧
      readerInfers cu done (p.newUnit cs cu) p sub false = (last, prev)) :
    RoundTrips strict (EncoderLib.CABACWriter.transform_tree cs cu units (levels + 1) p sub)
      (DecoderLib.CABACReader.transform_tree cs cu (levels + 1) p sub done) fun _ us =>
      ∃ tu', us = done ++ [tu'] ∧ clear tu' = p.newUnit cs cu ∧ flags tu' = received cu last tu := by
  rw [EncoderLib.CABACWriter.transform_tree, DecoderLib.CABACReader.transform_tree, hget]
  have hsplit : decide (tu.depth > p.currTrDepth) = false := by
    rw [(clear_eq htu).2.1]
    exact decide_eq_false (Nat.lt_irrefl _)
  dsimp only
  rw [hsplit, writer_leaf hp, Put.lift_ok_bind, if_neg Bool.false_ne_true]
  refine roundTrips_lift_right (reader_leaf hp) ?_
  rw [if_neg Bool.false_ne_true]
  exact (unit_roundTrips h hp htu hpass hlast hinfer).then_right fun _ tu' htu' => ⟨_, rfl, tu', rfl, htu'⟩

theorem blockOf_getArea (cs : CodingStructure) (a : UnitArea) (ch : ChannelType) :
    (cs.getArea a ch).blockOf ch = a.blockOf ch := by
  unfold CodingStructure.getArea
  split
  · cases ch <;> rfl
  · rfl

/-- A valid block contains its position. -/
theorem pos_mem {b : CompArea} (hv : b.valid = true) : (b.x, b.y) ∈ samples b := by
  unfold CompArea.valid at hv
  rw [Bool.and_eq_true, bne_iff_ne, bne_iff_ne] at hv
  rw [mem_samples, CompArea.contains_iff]
  dsimp only
  omega

theorem contains_iff_mem {b : CompArea} {q : Position} : b.contains q = true ↔ (q.x, q.y) ∈ samples b := by
  rw [mem_samples]

/-- The block by which a unit is found. -/
theorem valid_blockOf (h : Ok cs cu) (hisp : cu.hasIsp = false) (hp : Leaf cs cu p) :
    (p.currArea.blockOf cu.chType).valid = true := by
  cases hc : cu.chType with
  | luma => exact hp.luma
  | chroma => exact hp.chroma hisp (h.chroma hc).2

/-- The units of a coding unit that is cut. -/
theorem unit_eq {areas : List UnitArea} (hunits : units.map clear = ((root cu idx).parts areas).map (TuPart.newUnit cs cu)) :
    units.length = areas.length ∧
      ∀ k (hk : k < areas.length) (hk' : k < units.length),
        clear units[k] = TuPart.newUnit cs cu ⟨areas[k], 1, k⟩ := by
  have hlen : units.length = areas.length := by
    have hl := congrArg List.length hunits
    simpa [TuPart.parts] using hl
  refine ⟨hlen, fun k hk hk' => ?_⟩
  have hget := congrArg (·[k]?) hunits
  simpa [TuPart.parts, hk, hk', root] using hget

/-- `getTU` finds the unit of a part. -/
theorem getTU_part (h : Ok cs cu) {areas : List UnitArea} (hcut : Cut cs cu idx areas)
    (hunits : units.map clear = ((root cu idx).parts areas).map (TuPart.newUnit cs cu)) {k : ℕ} (hk : k < areas.length)
    (hk' : k < units.length) :
    EncoderLib.CABACWriter.getTU cu units (areas[k].blockOf cu.chType).pos (cu.subTuIdx.map (· + k)) =
      some (units.take k, units[k]) := by
  obtain ⟨hlen, hunit⟩ := unit_eq hunits
  unfold EncoderLib.CABACWriter.getTU TransformCU.subTuIdx
  rw [usesIsp_eq h]
  cases hisp : cu.hasIsp with
  | true => simp [hk']
  | false =>
    have hblock (j : ℕ) (hj : j < areas.length) (hj' : j < units.length) :
        units[j].area.blockOf cu.chType = areas[j].blockOf cu.chType := by
      have harea : units[j].area = cs.getArea areas[j] cu.chType := congrArg (·.area) (hunit j hj hj')
      rw [harea, blockOf_getArea]
    have hmem := pos_mem (valid_blockOf h hisp (hcut.leaf k hk))
    have hfind : (units.findIdx? fun tu => (tu.area.blockOf cu.chType).contains
        (areas[k].blockOf cu.chType).pos) = some k := by
      rw [List.findIdx?_eq_some_iff_getElem]
      refine ⟨hk', ?_, fun j hj => ?_⟩
      · rw [hblock k hk hk', contains_iff_mem]
        exact hmem
      · have hj' : j < units.length := hj.trans hk'
        rw [hblock j (by omega) hj', contains_iff_mem]
        have hdisj := pairwise_iff_getElem.mp (hcut.tiles hisp).disjoint j k (by simp; omega) (by simpa using hk) hj
        rw [getElem_map, getElem_map] at hdisj
        exact fun hin => Set.disjoint_left.mp hdisj hin hmem
    simp [hfind, hk']

/-- The unit with which a cut begins is deeper than the tree. -/
theorem getTU_cut (h : Ok cs cu) {areas : List UnitArea} (hcut : Cut cs cu idx areas)
    (hunits : units.map clear = ((root cu idx).parts areas).map (TuPart.newUnit cs cu)) :
    ∃ earlier tu, EncoderLib.CABACWriter.getTU cu units (cu.area.blockOf cu.chType).pos cu.subTuIdx =
      some (earlier, tu) ∧ tu.depth = 1 := by
  obtain ⟨hlen, hunit⟩ := unit_eq hunits
  have hdepth (k : ℕ) (hk : k < units.length) : units[k].depth = 1 := (clear_eq (hunit k (hlen ▸ hk) hk)).2.1
  unfold EncoderLib.CABACWriter.getTU TransformCU.subTuIdx
  rw [usesIsp_eq h]
  cases hisp : cu.hasIsp with
  | true =>
    have hpos : 0 < units.length := hlen ▸ hcut.nonempty
    exact ⟨units.take 0, units[0], by simp [hpos], hdepth 0 hpos⟩
  | false =>
    have hvalid : (cu.area.blockOf cu.chType).valid = true := by
      have hb : cu.area.blockOf cu.chType ∈ cu.area.blocks := by
        have hne : cu.chType = .chroma → cu.area.chroma ≠ [] := by
          intro hc hnil
          have hl := h.format
          rw [if_neg (h.chroma hc).2, hnil] at hl
          cases hl
        obtain ⟨c, hc, hblock⟩ := block_blockOf hne
        rw [hblock _ rfl]
        exact block_mem hc
      exact valid_of_sides (h.sides.tuSide _ hb).1 (h.sides.tuSide _ hb).2
    obtain ⟨s, hs, hin⟩ := ((hcut.tiles hisp).cover _).mp (pos_mem hvalid)
    obtain ⟨a, ha, rfl⟩ := mem_map.mp hs
    obtain ⟨j, hj, rfl⟩ := getElem_of_mem ha
    have hj' : j < units.length := hlen ▸ hj
    have harea : units[j].area = cs.getArea areas[j] cu.chType := congrArg (·.area) (hunit j hj hj')
    have hsome : (units.findIdx? fun tu => (tu.area.blockOf cu.chType).contains
        (cu.area.blockOf cu.chType).pos).isSome = true := by
      rw [List.findIdx?_isSome, any_eq_true]
      refine ⟨units[j], getElem_mem hj', ?_⟩
      rw [harea, blockOf_getArea, contains_iff_mem]
      exact hin
    obtain ⟨k, hk⟩ := Option.isSome_iff_exists.mp hsome
    have hk' : k < units.length := (List.findIdx?_eq_some_iff_getElem.mp hk).1
    exact ⟨units.take k, units[k], by simp [hk, hk'], hdepth k hk'⟩

/-- A unit without and with its flags. -/
def view (tu : TransformUnit) : TransformUnit × (ComponentID → Bool) := (clear tu, flags tu)

/-- What is read of unit `k`. -/
def readView (cu : TransformCU) (units : List TransformUnit) (k : ℕ) (tu : TransformUnit) :
    TransformUnit × (ComponentID → Bool) := (clear tu, received cu (lastInferred cu units k) tu)

/-- Before the last sub-partition, luma is read as it was written. -/
theorem lumaView_take (h : Ok cs cu) (hisp : cu.hasIsp = true) {k : ℕ} (hk : k < units.length)
    (hdone : done.map view = (units.mapIdx (readView cu units)).take k) :
    done.map lumaView = (units.take k).map lumaView := by
  have hluma := (h.isp hisp).2.1
  have hmap : done.map lumaView = (done.map view).map fun v => (v.1, v.2 .Y) := by
    rw [map_map]
    rfl
  rw [hmap, hdone]
  refine ext_getElem (by simp) fun j hj hj' => ?_
  have hjk : j < k := by
    simp only [length_map, length_take] at hj'
    omega
  have hnot : lastInferred cu units j = false := by
    simp [lastInferred, show ¬j + 1 = units.length by omega]
  simp [readView, lumaView, received, hluma, hnot]

/-- The loop over the parts of a cut. -/
theorem cut_roundTrips (h : Ok cs cu) {areas : List UnitArea} (hcut : Cut cs cu idx areas)
    (hunits : units.map clear = ((root cu idx).parts areas).map (TuPart.newUnit cs cu)) (levels : ℕ)
    (hpass : strict → ∀ tu ∈ units, Passes cu tu) :
    RoundTrips strict (EncoderLib.CABACWriter.transform_tree cs cu units (levels + 2) (root cu idx) cu.subTuIdx)
      (DecoderLib.CABACReader.transform_tree cs cu (levels + 2) (root cu idx) cu.subTuIdx []) fun _ us =>
      us.map view = units.mapIdx (readView cu units) := by
  obtain ⟨hlen, hunit⟩ := unit_eq hunits
  obtain ⟨earlier, tu, hget, hdepth⟩ := getTU_cut h hcut hunits
  have hall : (units.mapIdx (readView cu units)).take ((root cu idx).parts areas).length =
      units.mapIdx (readView cu units) := take_of_length_le (by simp [TuPart.parts, hlen])
  rw [EncoderLib.CABACWriter.transform_tree, DecoderLib.CABACReader.transform_tree]
  have hget' : EncoderLib.CABACWriter.getTU cu units ((root cu idx).currArea.blockOf cu.chType).pos cu.subTuIdx =
      some (earlier, tu) := hget
  rw [hget']
  have hsplit : decide (tu.depth > (root cu idx).currTrDepth) = true := by
    rw [hdepth]
    rfl
  dsimp only
  rw [hsplit, hcut.writer, Put.lift_ok_bind, if_pos rfl, hcut.split, Put.lift_ok_bind]
  refine roundTrips_lift_right hcut.reader ?_
  rw [if_pos rfl]
  refine roundTrips_lift_right rfl ?_
  refine RoundTrips.mono (roundTrips_foldlM
    (P := fun doneParts us => us.map view = (units.mapIdx (readView cu units)).take doneParts.length) rfl
    fun doneParts child us hmem hus => ?_) fun _ us hus => hus.trans hall
  obtain ⟨left, hleft⟩ := hmem
  -- the part is number `k`
  have hk : doneParts.length < areas.length := by
    have hl := congrArg List.length hleft
    simp only [TuPart.parts, length_mapIdx, length_append, length_cons] at hl
    omega
  generalize hkdef : doneParts.length = k at hk hus
  have hchild : child = ⟨areas[k], 1, k⟩ := by
    have hget := congrArg (·[k]?) hleft
    simp only [TuPart.parts, List.getElem?_mapIdx, List.getElem?_eq_getElem hk, Option.map_some,
      List.getElem?_append_right (Nat.le_of_eq hkdef), hkdef, Nat.sub_self, List.getElem?_cons_zero,
      Option.some.injEq] at hget
    exact hget.symm
  subst hchild
  have hk' : k < units.length := hlen ▸ hk
  have hinfer : cu.hasIsp = true → ∃ prev,
      writerInfers cu (units.take k) units[k] ⟨areas[k], 1, k⟩ (cu.subTuIdx.map (· + k)) false =
          (lastInferred cu units k, prev) ∧
        readerInfers cu us (TuPart.newUnit cs cu ⟨areas[k], 1, k⟩) ⟨areas[k], 1, k⟩ (cu.subTuIdx.map (· + k)) false =
          (lastInferred cu units k, prev) := by
    intro hisp
    have hsub : cu.subTuIdx.map (· + k) = some k := by
      simp [TransformCU.subTuIdx, usesIsp_eq h, hisp]
    have hdepths : ∀ tu ∈ units.take k, tu.depth = 1 := by
      intro tu htu
      obtain ⟨j, hj, rfl⟩ := getElem_of_mem (mem_of_mem_take htu)
      exact (clear_eq (hunit j (hlen ▸ hj) hj)).2.1
    have hn := hcut.nTus hisp _ (getElem_mem hk) 1 (fun _ => 0)
    rw [hsub, lastInferred, hisp, Bool.true_and]
    exact infers_eq hisp (by rw [length_take]; omega) (lumaView_take h hisp hk' hus) hdepths
      (clear_eq (hunit k hk hk')).1 ((hn _).trans hlen.symm) hk'
  have hlast (hisp : cu.hasIsp = false) : lastInferred cu units k = false := by
    rw [lastInferred, hisp, Bool.false_and]
  refine (leaf_roundTrips h (hcut.leaf k hk) levels (getTU_part h hcut hunits hk hk') (hunit k hk hk')
    (fun hs => hpass hs _ (getElem_mem hk')) hlast hinfer).mono fun _ us' hus' => ?_
  obtain ⟨tu', rfl, hclear, hflags⟩ := hus'
  have hview : view tu' = readView cu units k units[k] := Prod.ext (hclear.trans (hunit k hk hk').symm) hflags
  rw [map_append, hus, length_append, hkdef, length_singleton, take_add_one, map_singleton, hview]
  simp [hk']

/-- A coding unit that is one transform unit. -/
theorem single_roundTrips (h : Ok cs cu) (hp : Leaf cs cu (root cu idx))
    (hunits : units.map clear = [root cu idx].map (TuPart.newUnit cs cu)) (levels : ℕ)
    (hpass : strict → ∀ tu ∈ units, Passes cu tu) :
    RoundTrips strict (EncoderLib.CABACWriter.transform_tree cs cu units (levels + 1) (root cu idx) cu.subTuIdx)
      (DecoderLib.CABACReader.transform_tree cs cu (levels + 1) (root cu idx) cu.subTuIdx []) fun _ us =>
      us.map view = units.mapIdx (readView cu units) := by
  have hisp : cu.hasIsp = false := by
    cases hon : cu.hasIsp with
    | false => rfl
    | true => exact absurd rfl (hp.depth (Or.inl hon))
  obtain ⟨tu, rfl⟩ : ∃ tu, units = [tu] := by
    have hl := congrArg List.length hunits
    exact length_eq_one_iff.mp (by simpa using hl)
  have htu : clear tu = (root cu idx).newUnit cs cu := singleton_inj.mp hunits
  have hget : EncoderLib.CABACWriter.getTU cu [tu] ((root cu idx).currArea.blockOf cu.chType).pos cu.subTuIdx =
      some ([], tu) := by
    have hblock : tu.area.blockOf cu.chType = (root cu idx).currArea.blockOf cu.chType := by
      rw [(clear_eq htu).1]
      exact blockOf_getArea cs _ _
    have hin : ((root cu idx).currArea.blockOf cu.chType).contains
        ((root cu idx).currArea.blockOf cu.chType).pos = true :=
      contains_iff_mem.mpr (pos_mem (valid_blockOf h hisp hp))
    unfold EncoderLib.CABACWriter.getTU
    rw [usesIsp_eq h, hisp]
    simp only [Bool.false_eq_true, if_false, List.findIdx?_cons, hblock, hin]
    rfl
  have hlast : lastInferred cu [tu] 0 = false := by
    rw [lastInferred, hisp, Bool.false_and]
  refine (leaf_roundTrips h hp levels hget htu (fun hs => hpass hs tu mem_cons_self) (fun _ => rfl) fun hon => ?_).mono
    fun _ us hus => ?_
  · rw [hisp] at hon
    cases hon
  · obtain ⟨tu', rfl, hclear, hflags⟩ := hus
    have hview : view tu' = readView cu [tu] 0 tu :=
      Prod.ext (hclear.trans htu.symm) (hflags.trans (by rw [readView, hlast]))
    change [view tu'] = [readView cu [tu] 0 tu]
    rw [hview]

/-- The tree reads back what `readView` says. -/
theorem tree_roundTrips (h : Ok cs cu) (hunits : UnitsOf cs cu idx units) (levels : ℕ)
    (hpass : strict → ∀ tu ∈ units, Passes cu tu) :
    RoundTrips strict (EncoderLib.CABACWriter.transform_tree cs cu units (levels + 2) (root cu idx) cu.subTuIdx)
      (DecoderLib.CABACReader.transform_tree cs cu (levels + 2) (root cu idx) cu.subTuIdx []) fun _ us =>
      us.map view = units.mapIdx (readView cu units) := by
  obtain ⟨parts, hparts, hunits⟩ := hunits
  rcases leaf_or_cut h idx with hleaf | ⟨areas, hcut⟩
  · unfold unitParts at hparts
    rw [reader_leaf hleaf, ok_bind, if_neg Bool.false_ne_true] at hparts
    cases hparts
    exact single_roundTrips h hleaf hunits (levels + 1) hpass
  · unfold unitParts at hparts
    rw [hcut.reader, ok_bind, if_pos rfl, hcut.split, ok_bind] at hparts
    cases hparts
    exact cut_roundTrips h hcut hunits levels hpass

/-! ## Which flags are read back -/

/-- Every unit is at a part that is not split, and there is one. -/
theorem units_leaf (h : Ok cs cu) (hunits : UnitsOf cs cu idx units) :
    0 < units.length ∧ ∀ tu ∈ units, ∃ p, Leaf cs cu p ∧ clear tu = p.newUnit cs cu := by
  obtain ⟨parts, hparts, hunits⟩ := hunits
  have hleaf : 0 < parts.length ∧ ∀ p ∈ parts, Leaf cs cu p := by
    unfold unitParts at hparts
    rcases leaf_or_cut h idx with hleaf | ⟨areas, hcut⟩
    · rw [reader_leaf hleaf, ok_bind, if_neg Bool.false_ne_true] at hparts
      cases hparts
      exact ⟨Nat.zero_lt_one, fun p hp => mem_singleton.mp hp ▸ hleaf⟩
    · rw [hcut.reader, ok_bind, if_pos rfl, hcut.split, ok_bind] at hparts
      cases hparts
      refine ⟨by simpa [TuPart.parts] using hcut.nonempty, fun p hp => ?_⟩
      obtain ⟨k, hk, rfl⟩ := getElem_of_mem hp
      simp only [TuPart.parts, length_mapIdx] at hk
      simpa [TuPart.parts, root] using hcut.leaf k hk
  have hlen : units.length = parts.length := by
    have hl := congrArg List.length hunits
    simpa using hl
  refine ⟨hlen ▸ hleaf.1, fun tu htu => ?_⟩
  have hmem : clear tu ∈ parts.map (TuPart.newUnit cs cu) := hunits ▸ mem_map_of_mem htu
  obtain ⟨p, hp, heq⟩ := mem_map.mp hmem
  exact ⟨p, hleaf.2 p hp, heq.symm⟩

/-- Units of a luma tree have a luma block, those of a chroma tree have none. -/
theorem validY (h : Ok cs cu) (hp : Leaf cs cu p) (htu : clear tu = p.newUnit cs cu) :
    tu.area.Y.valid = decide (cu.chType = .luma) := by
  rw [(clear_eq htu).1]
  change (cs.getArea p.currArea cu.chType).Y.valid = _
  unfold CodingStructure.getArea
  cases hc : cu.chType with
  | luma => split <;> exact hp.luma
  | chroma =>
    rw [if_pos (h.chroma hc).1]
    rfl

theorem received_iff (h : Ok cs cu) (hunits : UnitsOf cs cu idx units) :
    (∀ k (hk : k < units.length), received cu (lastInferred cu units k) units[k] = flags units[k]) ↔
      Representable cu units := by
  obtain ⟨hpos, hleaf⟩ := units_leaf h hunits
  constructor
  · intro hsame
    refine ⟨fun hisp => ?_, fun tu htu hnr => ?_, fun tu htu c hc => ?_⟩
    · obtain ⟨k, hk⟩ := Nat.exists_eq_succ_of_ne_zero (Nat.ne_of_gt hpos)
      have hY := congrFun (hsame k (by omega)) .Y
      cases hany : (units.take k).any fun tu => flags tu .Y with
      | true =>
        obtain ⟨tu, htu, hflag⟩ := any_eq_true.mp hany
        exact ⟨tu, mem_of_mem_take htu, hflag⟩
      | false =>
        refine ⟨units[k], getElem_mem _, ?_⟩
        rw [← hY]
        simp [received, lastInferred, hisp, hany, hk, (h.isp hisp).2.1]
    · obtain ⟨k, hk, rfl⟩ := getElem_of_mem htu
      rw [← hsame k hk]
      simp [received, hnr]
    · obtain ⟨k, hk, rfl⟩ := getElem_of_mem htu
      obtain ⟨p, hp, heq⟩ := hleaf _ htu
      rw [← hsame k hk]
      cases c with
      | Y =>
        have hluma := (validY h hp heq).symm.trans hc
        unfold received
        rw [hluma, Bool.false_and]
      | Cb =>
        have hcb : units[k].area.Cb.valid = false := hc
        simp [received, hcb]
      | Cr =>
        have hcb : units[k].area.Cb.valid = false := hc
        simp [received, hcb]
  · intro hrep k hk
    have hmem : units[k] ∈ units := getElem_mem hk
    obtain ⟨p, hp, heq⟩ := hleaf _ hmem
    have hchroma (c : ComponentID) (hc : c = .Cb ∨ c = .Cr) :
        (units[k].area.Cb.valid && !sbtNoResidual cu units[k] && flags units[k] c) = flags units[k] c := by
      cases hv : units[k].area.Cb.valid with
      | false => rw [hrep.noBlock _ hmem c (by rcases hc with rfl | rfl <;> exact hv)]; rfl
      | true =>
        cases hnr : sbtNoResidual cu units[k] with
        | false => rfl
        | true =>
          obtain ⟨hcb, hcr⟩ := hrep.noResidual _ hmem hnr
          rcases hc with rfl | rfl
          · rw [hcb]; rfl
          · rw [hcr]; rfl
    funext c
    cases c with
    | Cb => exact hchroma .Cb (Or.inl rfl)
    | Cr => exact hchroma .Cr (Or.inr rfl)
    | Y =>
      change (decide (cu.chType = .luma) && (lastInferred cu units k || flags units[k] .Y)) = _
      rw [← validY h hp heq]
      cases hv : units[k].area.Y.valid with
      | false => rw [hrep.noBlock _ hmem .Y hv]; rfl
      | true =>
        cases hlast : lastInferred cu units k with
        | false => rfl
        | true =>
          -- no other sub-partition has a flag
          unfold lastInferred at hlast
          rw [Bool.and_eq_true, Bool.and_eq_true, decide_eq_true_eq, Bool.not_eq_true'] at hlast
          obtain ⟨hisp, hk1, hany⟩ := hlast
          obtain ⟨tu, htu, hflag⟩ := hrep.isp hisp
          obtain ⟨j, hj, rfl⟩ := getElem_of_mem htu
          by_cases hjk : j < k
          · have hin : units[j] ∈ units.take k := by
              rw [mem_take_iff_getElem]
              exact ⟨j, by omega, rfl⟩
            rw [any_eq_false] at hany
            exact absurd hflag (hany _ hin)
          · obtain rfl : j = k := by omega
            rw [hflag]
            rfl

/-- The coded-block flags of a transform tree: the reader takes the bins of the writer, each with its
context, makes the same units, and ends with the same flags exactly if the syntax can express them.
The writer returns whenever the flags pass its checks. -/
theorem transform_tree_flags (h : Ok cs cu) (hunits : UnitsOf cs cu idx units) {levels : ℕ} (hlevels : 2 ≤ levels) :
    RoundTrips (∀ tu ∈ units, Passes cu tu)
      (EncoderLib.CABACWriter.transform_tree cs cu units levels (root cu idx) cu.subTuIdx)
      (DecoderLib.CABACReader.transform_tree cs cu levels (root cu idx) cu.subTuIdx []) fun _ us =>
      us.map clear = units.map clear ∧ (us.map flags = units.map flags ↔ Representable cu units) := by
  obtain ⟨levels, rfl⟩ := Nat.exists_eq_add_of_le' hlevels
  refine (tree_roundTrips h hunits levels id).mono fun _ us hus => ?_
  have hclear : us.map clear = (us.map view).map Prod.fst := by
    rw [map_map]
    rfl
  have hflags : us.map flags = (us.map view).map Prod.snd := by
    rw [map_map]
    rfl
  rw [hclear, hflags, hus, ← received_iff h hunits]
  refine ⟨ext_getElem (by simp) fun k _ _ => by simp [readView], fun heq k hk => ?_, fun hsame => ?_⟩
  · have hget := congrArg (·[k]?) heq
    simpa [readView, hk] using hget
  · exact ext_getElem (by simp) fun k hk _ => by simpa [readView] using hsame k (by simpa using hk)

/-! ### A unit of four sub-partitions -/

/-- A single tree with transforms of up to 64 samples. -/
def singleTree : CodingStructure :=
  ⟨64, 64, false, fun _ => 0, fun _ => 8, fun _ => 4, fun _ => 8, fun _ => 4, fun _ => 8, 64, 0, 0⟩

/-- An intra unit of eight by eight samples in four rows. -/
def fourRows : TransformCU :=
  ⟨.ofArea .chroma420 ⟨0, 0, 8, 8⟩, .luma, .intra, .horIntraSubpartitions, none, false, false, false⟩

theorem fourRows_ok : Ok singleTree fourRows where
  maxTb := ⟨1, rfl⟩
  sides := by
    intro b hb
    have hside (b : ℕ) (h : b = 8 ∨ 2 * b = 8) : CuSide 8 b := ⟨by decide, 1, rfl, h⟩
    have hb : b ∈ [(⟨0, 0, 8, 8⟩ : CompArea), ⟨0, 0, 4, 4⟩, ⟨0, 0, 4, 4⟩] := hb
    simp only [mem_cons, not_mem_nil, or_false] at hb
    rcases hb with rfl | rfl | rfl
    · exact ⟨hside 8 (Or.inl rfl), hside 8 (Or.inl rfl)⟩
    · exact ⟨hside 4 (Or.inr rfl), hside 4 (Or.inr rfl)⟩
    · exact ⟨hside 4 (Or.inr rfl), hside 4 (Or.inr rfl)⟩
  format := rfl
  chroma := ChannelType.noConfusion
  isp _ := ⟨rfl, rfl, by decide⟩
  sbt _ h := by cases h

/-- Its units, where the last one has the luma flag `last`. -/
def fourRowUnits (last : Bool) : List TransformUnit :=
  (List.range 4).map fun i => {
    area := {
      chromaFormat := .chroma420
      Y := ⟨0, (2 * i : ℕ), 8, 2⟩
      chroma := if i = 3 then [⟨0, 0, 4, 4⟩, ⟨0, 0, 4, 4⟩] else [default, default] }
    depth := 1
    cbf := fun c => if i = 3 ∧ c = .Y then last.toNat <<< 1 else 0
    noResidual := false }

theorem fourRowUnits_unitsOf (last : Bool) : UnitsOf singleTree fourRows 0 (fourRowUnits last) := ⟨_, rfl, rfl⟩

theorem transform_tree_flags_fourRows :
    RoundTrips (∀ tu ∈ fourRowUnits true, Passes fourRows tu)
      (EncoderLib.CABACWriter.transform_tree singleTree fourRows (fourRowUnits true) 2 (root fourRows 0) fourRows.subTuIdx)
      (DecoderLib.CABACReader.transform_tree singleTree fourRows 2 (root fourRows 0) fourRows.subTuIdx []) fun _ us =>
      us.map clear = (fourRowUnits true).map clear ∧
        (us.map flags = (fourRowUnits true).map flags ↔ Representable fourRows (fourRowUnits true)) :=
  transform_tree_flags fourRows_ok (fourRowUnits_unitsOf true) (Nat.le_refl 2)

theorem fourRows_passes (tu : TransformUnit) : Passes fourRows tu where
  inter _ h := Bool.noConfusion h
  noResidual _ h := Bool.noConfusion h
  residual _ h := Bool.noConfusion h
  act _ h := Bool.noConfusion h

/-- Without any luma flag no check fires, and the reader infers the flag of the last row. -/
theorem fourRows_inferred : Ok singleTree fourRows ∧ UnitsOf singleTree fourRows 0 (fourRowUnits false) ∧
    (∀ tu ∈ fourRowUnits false, Passes fourRows tu) ∧ ∃ bins us,
    EncoderLib.CABACWriter.transform_tree singleTree fourRows (fourRowUnits false) 2 (root fourRows 0) fourRows.subTuIdx =
      .ok ((), bins) ∧
    DecoderLib.CABACReader.transform_tree singleTree fourRows 2 (root fourRows 0) fourRows.subTuIdx [] bins =
      .ok (us, []) ∧
    us.map (flags · .Y) = [false, false, false, true] ∧
    (fourRowUnits false).map (flags · .Y) = [false, false, false, false] := by
  obtain ⟨⟨_, bins⟩, hbins, hrun⟩ := exists_ok_of_any
    (x := EncoderLib.CABACWriter.transform_tree singleTree fourRows (fourRowUnits false) 2 (root fourRows 0)
      fourRows.subTuIdx)
    (p := fun q => (DecoderLib.CABACReader.transform_tree singleTree fourRows 2 (root fourRows 0) fourRows.subTuIdx []
      q.2).toOption.any fun r => r.2 == [] && r.1.map (flags · .Y) == [false, false, false, true]) (by decide +kernel)
  obtain ⟨⟨us, rest⟩, hus, hread⟩ := exists_ok_of_any hrun
  obtain ⟨hnil, hflags⟩ := Bool.and_eq_true_iff.mp hread
  obtain rfl := eq_of_beq hnil
  exact ⟨fourRows_ok, fourRowUnits_unitsOf false, fun tu _ => fourRows_passes tu, bins, us, hbins, hus,
    eq_of_beq hflags, rfl⟩

end ECM.Residual.CodedBlockFlags
