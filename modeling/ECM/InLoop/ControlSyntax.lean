import ECM.InLoop.ControlIndices
import ECM.InLoop.Sao

/-! # The control syntax of a CTU read back -/

namespace ECM.InLoop
open CommonLib CommonLib.Bins CommonLib.InLoopFilter EncoderLib DecoderLib
open Lib.Codec Lib.Loop

/-! ## Bilateral filters -/

/-- The flags of `numBlocks` blocks, where those that are not coded are as the others say. -/
structure BifAdmitted (numBlocks : ℕ) (a : BifFlags) : Prop where
  all : a.allCtuOn = true → ∀ i < numBlocks, a.ctuOn i = true
  none : a.allCtuOn = false → a.frmOn = false → ∀ i < numBlocks, a.ctuOn i = false

structure SameBif (numBlocks : ℕ) (a b : BifFlags) : Prop where
  allCtuOn : b.allCtuOn = a.allCtuOn
  frmOn : a.allCtuOn = false → b.frmOn = a.frmOn
  ctuOn : ∀ i < numBlocks, b.ctuOn i = a.ctuOn i

variable {a b : BifFlags} {numBlocks : ℕ} {ctxId : CtxId}

/-- The flags of the picture come before the first block. -/
theorem bifFirstBlock_roundTrips (a b : BifFlags) :
    RoundTrips True
      (encodeBinEP a.allCtuOn >>= fun _ =>
        if ¬a.allCtuOn = true then encodeBinEP a.frmOn else pure ())
      (CABACReader.bifFirstBlock b)
      fun _ b' => b'.allCtuOn = a.allCtuOn ∧ (a.allCtuOn = false → b'.frmOn = a.frmOn) := by
  refine roundTrips_bind (roundTrips_binEP _) fun _ allCtuOn hall => ?_
  rw [hall]
  refine roundTrips_ite Iff.rfl (fun _ => ?_) fun hon => ?_
  · exact (roundTrips_binEP _).then_right fun _ frmOn hfrm => ⟨_, rfl, rfl, fun _ => hfrm⟩
  · exact roundTrips_pure ⟨rfl, fun h => absurd (by rw [h]; decide) hon⟩

theorem bifCtuOn_roundTrips (ha : BifAdmitted numBlocks a) {i : ℕ} (hi : i < numBlocks)
    (hall : b.allCtuOn = a.allCtuOn) (hfrm : a.allCtuOn = false → b.frmOn = a.frmOn) :
    RoundTrips True
      (if ¬a.allCtuOn = true ∧ a.frmOn = true then encodeBin (a.ctuOn i) ctxId else pure ())
      (CABACReader.bifCtuOn ctxId b) fun _ on => on = a.ctuOn i := by
  rw [CABACReader.bifCtuOn, hall]
  cases hallOn : a.allCtuOn with
  | true =>
    rw [if_neg fun h => h.1 rfl, if_pos rfl]
    exact roundTrips_pure (ha.all hallOn i hi).symm
  | false =>
    rw [if_neg Bool.false_ne_true, hfrm hallOn]
    refine roundTrips_ite (and_iff_right (by decide)) (fun _ => roundTrips_bin _ _) fun hoff => ?_
    have hfrmOff : a.frmOn = false := Bool.eq_false_iff.mpr fun h => hoff ⟨by decide, h⟩
    exact roundTrips_pure (ha.none hallOn hfrmOff i hi).symm

/-- The flags of all blocks of a picture. -/
theorem bif_roundTrips (ha : BifAdmitted numBlocks a) (hpos : 0 < numBlocks) :
    RoundTrips True (forRange 0 numBlocks (CABACWriter.bifBlock true ctxId a))
      (loop (CABACReader.bifBlock true ctxId) numBlocks b) fun _ b' => SameBif numBlocks a b' := by
  rw [forRange, Nat.sub_zero]
  refine (roundTrips_loop (P := fun i _ b' => (i ≠ 0 → b'.allCtuOn = a.allCtuOn ∧
    (a.allCtuOn = false → b'.frmOn = a.frmOn)) ∧ ∀ j < i, b'.ctuOn j = a.ctuOn j)
    ⟨fun h => absurd rfl h, fun j hj => absurd hj (Nat.not_lt_zero j)⟩ ?_).mono ?_
  · intro i hi _ b' ⟨hflags, hdone⟩
    rw [Nat.zero_add, CABACWriter.bifBlock, CABACReader.bifBlock,
      if_neg (not_not.mpr (rfl : true = true)), if_neg (not_not.mpr (rfl : true = true))]
    have hfirst : RoundTrips True
        (if i = 0 then encodeBinEP a.allCtuOn >>= fun _ =>
          if ¬a.allCtuOn = true then encodeBinEP a.frmOn else pure () else pure ())
        (if i = 0 then CABACReader.bifFirstBlock { b' with ctuOn := fun _ => false } else pure b')
        fun _ c => (c.allCtuOn = a.allCtuOn ∧ (a.allCtuOn = false → c.frmOn = a.frmOn)) ∧
          (i ≠ 0 → c = b') := by
      refine roundTrips_ite Iff.rfl (fun hzero => ?_) fun hne => roundTrips_pure ⟨hflags hne, fun _ => rfl⟩
      exact (bifFirstBlock_roundTrips a _).mono fun _ c hc => ⟨hc, fun hne => absurd hzero hne⟩
    refine roundTrips_bind hfirst fun _ c ⟨hc, hsame⟩ => ?_
    refine (bifCtuOn_roundTrips ha hi hc.1 hc.2).then_right fun _ on hon => ⟨_, rfl, fun _ => hc, ?_⟩
    intro j hj
    rcases Nat.lt_or_eq_of_le (Nat.le_of_lt_succ hj) with hlt | rfl
    · have hne : i ≠ 0 := by omega
      rw [hsame hne]
      exact (Function.update_of_ne (Nat.ne_of_lt hlt) _ _).trans (hdone j hlt)
    · exact (Function.update_self _ _ _).trans hon
  · intro _ b' ⟨hflags, hdone⟩
    obtain ⟨hall, hfrm⟩ := hflags (Nat.ne_of_gt hpos)
    exact ⟨hall, hfrm, hdone⟩

theorem numBifBlocks_pos (pcv : PreCalcValues) : 0 < CABACReader.numBifBlocks pcv := by
  have hblocks : ∀ {n m : ℕ}, 0 < n → 0 < m → 0 < n / m + if n % m ≠ 0 then 1 else 0 := by
    intro n m hn hm
    by_cases hmod : n % m ≠ 0
    · rw [if_pos hmod]
      exact Nat.succ_pos _
    · rw [if_neg hmod, Nat.add_zero]
      exact Nat.div_pos (Nat.le_of_dvd hn (Nat.dvd_of_mod_eq_zero (not_not.mp hmod))) hm
  exact Nat.mul_pos (hblocks pcv.lumaWidth_pos pcv.maxCUWidth_pos)
    (hblocks pcv.lumaHeight_pos (by rw [pcv.square]; exact pcv.maxCUWidth_pos))

/-- Nothing is coded where the filter is off. -/
theorem bif_off (n m : ℕ) : RoundTrips True (forRange 0 n (CABACWriter.bifBlock false ctxId a))
    (loop (CABACReader.bifBlock false ctxId) m b) fun _ b' => b' = b := by
  have hwrite : ∀ n, loop (fun k (_ : Unit) => CABACWriter.bifBlock false ctxId a (0 + k)) n () = pure () := by
    intro n
    induction n with
    | zero => rfl
    | succ n ih =>
      rw [loop, ih, Put.pure_bind]
      rfl
  have hread : loop (CABACReader.bifBlock false ctxId) m b = pure b := by
    induction m with
    | zero => rfl
    | succ m ih =>
      rw [loop, ih, pure_bind]
      rfl
  rw [forRange, hwrite, hread]
  exact roundTrips_pure rfl

/-! ## A CTU -/

/-- What slices are made of: a filter is on in a slice only if it is on in the sequence,
ALF of chroma only with that of luma, and there is a filter for each that is on. -/
structure SliceAdmitted (sps : SPS) (slice : Slice) : Prop where
  ccSao : ∀ compID, slice.ccSaoEnabled compID = true → sps.ccsaoEnabledFlag = true
  alf : ∀ compID, slice.tileGroupAlfEnabledFlag compID = true →
    sps.alfEnabledFlag = true ∧ slice.tileGroupAlfEnabledFlag .Y = true
  numAps : slice.tileGroupNumAps < 2 ^ 31
  ccAlf : ∀ compID, slice.ccAlfFilterEnabled compID = true →
    sps.ccalfEnabledFlag = true ∧ 1 ≤ slice.ccAlfFilterCount compID

/-- The parameters of a CTU that its slice admits. -/
structure CtuAdmitted (cs : InLoopFilter.CodingStructure) (ctuRsAddr : ℕ) (a : CtuControl) : Prop where
  sao : cs.sps.saoEnabledFlag = true → Sao.Admitted cs ctuRsAddr a.sao
  ccSao : ∀ compID, cs.slice.ccSaoEnabled compID = true → a.ccSaoControl compID ≤ cs.slice.ccSaoSetNum compID
  alf : ∀ compID, cs.slice.tileGroupAlfEnabledFlag compID = true → AlfAdmitted cs a.alf compID
  ccAlf : ∀ compID, cs.slice.ccAlfFilterEnabled compID = true →
    a.ccAlfFilterControl compID ≤ cs.slice.ccAlfFilterCount compID

/-- The parameters of a CTU that are coded. -/
structure SameCtu (cs : InLoopFilter.CodingStructure) (a b : CtuControl) : Prop where
  sao : cs.sps.saoEnabledFlag = true → Sao.SameCtu cs a.sao b.sao
  ccSao : ∀ compID ∈ validComponents cs.pcv.chrFormat, cs.slice.ccSaoEnabled compID = true →
    b.ccSaoControl compID = a.ccSaoControl compID
  alf : ∀ compID, cs.slice.tileGroupAlfEnabledFlag compID = true → SameAlf a.alf b.alf compID
  ccAlf : ∀ compID ∈ (validComponents cs.pcv.chrFormat).drop 1, cs.slice.ccAlfFilterEnabled compID = true →
    b.ccAlfFilterControl compID = a.ccAlfFilterControl compID

/-- What the reader has of the neighbours of a CTU. -/
structure Neighbours (cs : InLoopFilter.CodingStructure) (done : List ℕ) (ctuRsAddr : ℕ) (pic pic' : PicControl) : Prop where
  left : ({ cs with coded := done } : InLoopFilter.CodingStructure).leftAvail (cs.ctuPos ctuRsAddr) =
    cs.leftAvail (cs.ctuPos ctuRsAddr)
  above : ({ cs with coded := done } : InLoopFilter.CodingStructure).aboveAvail (cs.ctuPos ctuRsAddr) cs.pcv.maxCUHeight =
    cs.aboveAvail (cs.ctuPos ctuRsAddr) cs.pcv.maxCUHeight
  left_same : cs.leftAvail (cs.ctuPos ctuRsAddr) = true →
    SameCtu cs (pic.ctu (ctuRsAddr - 1)) (pic'.ctu (ctuRsAddr - 1))
  above_same : cs.aboveAvail (cs.ctuPos ctuRsAddr) cs.pcv.maxCUHeight = true →
    SameCtu cs (pic.ctu (ctuRsAddr - cs.pcv.widthInCtus)) (pic'.ctu (ctuRsAddr - cs.pcv.widthInCtus))

variable {cs : InLoopFilter.CodingStructure} {done : List ℕ} {ctuRsAddr : ℕ} {pic pic' : PicControl}

/-- A value that is the same in CTUs with the same parameters. -/
theorem Neighbours.same (h : Neighbours cs done ctuRsAddr pic pic') (on : CtuControl → Bool)
    (hon : ∀ {a b : CtuControl}, SameCtu cs a b → on b = on a) :
    SameNeighbours cs done ctuRsAddr (fun i => on (pic.ctu i)) fun i => on (pic'.ctu i) where
  left := h.left
  above := h.above
  left_same havail := hon (h.left_same havail)
  above_same havail := hon (h.above_same havail)

/-- A loop over components that reads a value for those that are on. -/
theorem components_roundTrips {comps : List ComponentID} {on : ComponentID → Bool} {f : ComponentID → BinPut Unit}
    {g : ComponentID → BinGet ℕ} {control : ComponentID → ℕ} (value : ComponentID → ℕ)
    (h : ∀ compID ∈ comps, on compID = true → RoundTrips True (f compID) (g compID) fun _ v => v = value compID) :
    RoundTrips True (comps.forM fun compID => if on compID = true then f compID else pure ())
      (comps.foldlM (fun control compID =>
        if on compID = true then (g compID >>= fun v => pure (Function.update control compID v))
        else pure control) control)
      fun _ control' => ∀ compID ∈ comps, on compID = true → control' compID = value compID := by
  refine roundTrips_foldlM (P := fun done (control : ComponentID → ℕ) => ∀ compID ∈ done, on compID = true →
    control compID = value compID) (fun _ hmem => absurd hmem List.not_mem_nil) ?_
  intro done x control ⟨left, hsplit⟩ hdone
  refine roundTrips_ite Iff.rfl (fun hon => ?_) fun hoff => roundTrips_pure fun compID hmem hcomp => ?_
  · have hx : x ∈ comps := by
      rw [hsplit]
      exact List.mem_append_right _ List.mem_cons_self
    refine (h x hx hon).then_right fun _ v hv => ⟨_, rfl, fun compID hmem hcomp => ?_⟩
    by_cases heq : compID = x
    · rw [heq, Function.update_self, hv]
    · rw [Function.update_of_ne heq]
      refine hdone compID ((List.mem_append.mp hmem).resolve_right fun hlast => heq ?_) hcomp
      exact List.mem_singleton.mp hlast
  · refine hdone compID ((List.mem_append.mp hmem).resolve_right fun hlast => hoff ?_) hcomp
    rwa [← List.mem_singleton.mp hlast]

theorem ccSaoCtu_roundTrips (hs : SliceAdmitted cs.sps cs.slice) (ha : CtuAdmitted cs ctuRsAddr (pic.ctu ctuRsAddr))
    (h : Neighbours cs done ctuRsAddr pic pic') :
    RoundTrips True ((validComponents cs.pcv.chrFormat).forM (CABACWriter.ccSaoComponent cs pic ctuRsAddr))
      (CABACReader.ccSaoCtu { cs with coded := done } pic' ctuRsAddr)
      fun _ control => ∀ compID ∈ validComponents cs.pcv.chrFormat, cs.slice.ccSaoEnabled compID = true →
        control compID = (pic.ctu ctuRsAddr).ccSaoControl compID := by
  rw [CABACReader.ccSaoCtu]
  by_cases hsps : cs.sps.ccsaoEnabledFlag = true
  · rw [if_pos hsps]
    refine components_roundTrips (pic.ctu ctuRsAddr).ccSaoControl fun compID hmem hon => ?_
    refine ccSao_roundTrips (ha.ccSao compID hon) (h.same (fun c => c.ccSaoControl compID ≠ 0) fun hsame => ?_)
    rw [hsame.ccSao compID hmem hon]
  · have hoff : ∀ compID, ¬cs.slice.ccSaoEnabled compID = true := fun compID => mt (hs.ccSao compID) hsps
    rw [if_neg hsps, Put.forM_eq_pure (f := CABACWriter.ccSaoComponent cs pic ctuRsAddr)
      fun compID _ => if_neg (hoff compID)]
    exact roundTrips_pure fun compID _ hon => absurd hon (hoff compID)

theorem ccAlfCtu_roundTrips (hs : SliceAdmitted cs.sps cs.slice) (ha : CtuAdmitted cs ctuRsAddr (pic.ctu ctuRsAddr))
    (h : Neighbours cs done ctuRsAddr pic pic') :
    RoundTrips True
      (((validComponents cs.pcv.chrFormat).drop 1).forM (CABACWriter.ccAlfComponent cs pic ctuRsAddr))
      (CABACReader.ccAlfCtu { cs with coded := done } pic' ctuRsAddr)
      fun _ control => ∀ compID ∈ (validComponents cs.pcv.chrFormat).drop 1,
        cs.slice.ccAlfFilterEnabled compID = true →
          control compID = (pic.ctu ctuRsAddr).ccAlfFilterControl compID := by
  rw [CABACReader.ccAlfCtu]
  by_cases hsps : cs.sps.ccalfEnabledFlag = true
  · rw [if_pos hsps]
    refine components_roundTrips (pic.ctu ctuRsAddr).ccAlfFilterControl fun compID hmem hon => ?_
    refine ccAlf_roundTrips (ha.ccAlf compID hon) (hs.ccAlf compID hon).2
      (h.same (fun c => c.ccAlfFilterControl compID ≠ 1) fun hsame => ?_)
    rw [hsame.ccAlf compID hmem hon]
  · have hoff : ∀ compID, ¬cs.slice.ccAlfFilterEnabled compID = true :=
      fun compID hon => hsps (hs.ccAlf compID hon).1
    rw [if_neg hsps, Put.forM_eq_pure (f := CABACWriter.ccAlfComponent cs pic ctuRsAddr)
      fun compID _ => if_neg (hoff compID)]
    exact roundTrips_pure fun compID _ hon => absurd hon (hoff compID)

theorem alfCtu_roundTrips (hs : SliceAdmitted cs.sps cs.slice) (ha : CtuAdmitted cs ctuRsAddr (pic.ctu ctuRsAddr))
    (h : Neighbours cs done ctuRsAddr pic pic') :
    RoundTrips True (ComponentID.all.forM (CABACWriter.alfComponent cs pic ctuRsAddr))
      (CABACReader.alfCtu { cs with coded := done } pic' ctuRsAddr)
      fun _ alf => ∀ compID, cs.slice.tileGroupAlfEnabledFlag compID = true →
        SameAlf (pic.ctu ctuRsAddr).alf alf compID := by
  rw [CABACReader.alfCtu]
  by_cases hY : cs.slice.tileGroupAlfEnabledFlag .Y = true
  · have hsps := (hs.alf .Y hY).1
    rw [if_pos ⟨hsps, hY⟩]
    refine (roundTrips_foldlM (P := fun comps alf => ∀ compID ∈ comps,
      cs.slice.tileGroupAlfEnabledFlag compID = true → SameAlf (pic.ctu ctuRsAddr).alf alf compID)
      (fun _ hmem => absurd hmem List.not_mem_nil) ?_).mono fun _ alf hall compID => ?_
    · intro comps x alf _ hdone
      rw [CABACReader.alfComponent]
      by_cases hon : cs.slice.tileGroupAlfEnabledFlag x = true
      · rw [if_pos hon]
        refine (alfComponent_roundTrips hsps hon hs.numAps (ha.alf x hon)
          (h.same (fun c => c.alf.enableFlag x) fun hsame => (hsame.alf x hon).flag)).mono ?_
        intro _ alf' ⟨hsame, hframe⟩ compID hmem hcomp
        by_cases heq : compID = x
        · rwa [heq]
        · refine (hdone compID ((List.mem_append.mp hmem).resolve_right fun hlast => heq ?_) hcomp).frame hframe heq
          exact List.mem_singleton.mp hlast
      · rw [CABACWriter.alfComponent, if_pos hon, if_neg hon]
        refine roundTrips_pure fun compID hmem hcomp => ?_
        refine hdone compID ((List.mem_append.mp hmem).resolve_right fun hlast => hon ?_) hcomp
        rwa [← List.mem_singleton.mp hlast]
    · cases compID with
      | Y => exact hall .Y (by decide)
      | Cb => exact hall .Cb (by decide)
      | Cr => exact hall .Cr (by decide)
  · have hoff : ∀ compID, ¬cs.slice.tileGroupAlfEnabledFlag compID = true := fun compID hon => hY (hs.alf compID hon).2
    rw [if_neg fun hon => hY hon.2, Put.forM_eq_pure (f := CABACWriter.alfComponent cs pic ctuRsAddr)
      fun compID _ => if_pos (hoff compID)]
    exact roundTrips_pure fun compID hon => absurd hon (hoff compID)

/-- The parameters of a CTU are read back, and those of other CTUs stay. -/
theorem codingTreeUnit_roundTrips (hs : SliceAdmitted cs.sps cs.slice)
    (ha : CtuAdmitted cs ctuRsAddr (pic.ctu ctuRsAddr)) (h : Neighbours cs done ctuRsAddr pic pic') :
    RoundTrips True (CABACWriter.coding_tree_unit cs pic ctuRsAddr)
      (CABACReader.coding_tree_unit { cs with coded := done } pic' ctuRsAddr)
      fun _ pic'' => ∃ b, SameCtu cs (pic.ctu ctuRsAddr) b ∧
        pic'' = { pic' with ctu := Function.update pic'.ctu ctuRsAddr b } := by
  refine roundTrips_bind (Sao.sao_roundTrips ha.sao h.left h.above) fun _ sao hsao => ?_
  refine roundTrips_bind (ccSaoCtu_roundTrips hs ha h) fun _ ccSao hccSao => ?_
  refine roundTrips_bind (alfCtu_roundTrips hs ha h) fun _ alf half => ?_
  exact (ccAlfCtu_roundTrips hs ha h).then_right
    fun _ ccAlf hccAlf => ⟨_, rfl, ⟨sao, ccSao, alf, ccAlf⟩, ⟨hsao, hccSao, half, hccAlf⟩, rfl⟩

end ECM.InLoop
