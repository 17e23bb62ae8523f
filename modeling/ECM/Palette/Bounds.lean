import ECM.DecoderLib.PaletteAccess
import ECM.Palette.Scan

/-! # Palette reading inside its arrays

When the checked reader of palette units throws for an access: never for the index map, and for the
palette exactly when the runs of reuse flags or the new entries leave their arrays. -/

namespace ECM.Palette.Bounds
open CommonLib CommonLib.Bins CommonLib.Palette DecoderLib DecoderLib.PaletteAccess
open Lib.Codec Lib.Guarded Lib.Loop

variable {ctx : PaletteContext} {asserts : Bool}

/-! ## The checked reader is the reader -/

theorem predFlags_guards (lastPLTSize maxPLTSize rounds idx numPltPredicted symbol : ℕ) (reuseflag : ℕ → Bool) :
    Guards outside (predFlags lastPLTSize maxPLTSize rounds idx numPltPredicted symbol reuseflag)
      (CABACReader.predFlags lastPLTSize maxPLTSize rounds idx numPltPredicted symbol reuseflag) := by
  induction rounds generalizing idx numPltPredicted symbol reuseflag with
  | zero => exact guards_refl _ _
  | succ rounds ih =>
    rw [predFlags, CABACReader.predFlags]
    refine guards_ite (guards_bind (guards_refl _ _) fun symbol => ?_) (guards_refl _ _)
    exact guards_ite (guards_refl _ _) (guards_allowed (ih _ _ _ _))

theorem parsePalette_guards (cu : PaletteCU) :
    Guards outside (parsePalette ctx cu) (CABACReader.parsePalette ctx cu) := by
  unfold parsePalette CABACReader.parsePalette
  refine guards_bind (guards_ite ?_ (guards_refl _ _)) fun reuseflag => ?_
  · refine guards_bind (guards_refl _ _) fun symbol => ?_
    exact guards_ite (predFlags_guards _ _ _ _ _ _ _) (guards_refl _ _)
  · refine guards_allowed (guards_bind (guards_refl _ _) fun num => guards_bind ?_ fun _ => guards_refl _ _)
    refine guards_foldlM (fun curPLT compID => guards_loop (fun i curPLT => ?_) _) _ _
    exact guards_bind (guards_refl _ _) fun entry => guards_allowed (guards_refl _ _)

theorem subblock_guards (subSetId : ℕ) (p : RunState × PaletteCU) :
    Guards outside (cuPaletteSubblockInfo ctx asserts subSetId p)
      (CABACReader.cuPaletteSubblockInfo ctx asserts subSetId p) := by
  refine guards_bind (guards_ite ?_ ?_) fun q => guards_bind (guards_foldlM ?_ _ _) fun _ => guards_refl _ _
  · refine guards_bind (guards_loop (fun i q => guards_allowed (guards_refl _ _)) _) fun q => ?_
    exact guards_bind (guards_loop (fun i cu => guards_allowed (guards_refl _ _)) _) fun _ => guards_refl _ _
  · exact guards_bind (guards_loop (fun i cu => guards_allowed (guards_refl _ _)) _) fun _ => guards_refl _ _
  · exact fun cu compID => guards_loop (fun i cu => guards_allowed (guards_refl _ _)) _

theorem cu_palette_info_guards (cu : PaletteCU) (cuCtx : CUCtx) :
    Guards outside (cu_palette_info ctx asserts cu cuCtx) (CABACReader.cu_palette_info ctx asserts cu cuCtx) := by
  refine guards_bind (parsePalette_guards cu) fun cu => guards_bind (guards_refl _ _) fun useEscape => ?_
  refine guards_bind (guards_refl _ _) fun useRotation => guards_bind (guards_refl _ _) fun q => ?_
  refine guards_bind (guards_refl _ _) fun q' => guards_bind (guards_loop ?_ _) fun _ => guards_refl _ _
  exact fun subSetId p => subblock_guards subSetId p

/-! ## Bins -/

theorem avoids_decodeBin (ctxId : CtxId) : Avoids outside (decodeBin ctxId) fun _ => True := by
  refine ⟨fun bins => ?_, Get.returns_any _⟩
  unfold decodeBin
  split
  · split
    · exact nofun
    · exact fun h => absurd (Except.error.inj h) (by decide)
  · exact fun h => absurd (Except.error.inj h) (by decide)

theorem avoids_decodeBinEP : Avoids outside decodeBinEP fun _ => True := by
  refine ⟨fun bins => ?_, Get.returns_any _⟩
  unfold decodeBinEP
  split
  · exact nofun
  · exact fun h => absurd (Except.error.inj h) (by decide)

theorem avoids_decodeBypass (numBins : ℕ) : Avoids outside (decodeBypass numBins) fun _ => True := by
  induction numBins with
  | zero => exact avoids_pure trivial
  | succ numBins ih =>
    exact avoids_bind avoids_decodeBinEP fun _ _ => avoids_bind ih fun _ _ => avoids_pure trivial

theorem avoids_decodeBinsEP (numBins : ℕ) : Avoids outside (decodeBinsEP numBins) fun _ => True :=
  avoids_bind (avoids_decodeBypass numBins) fun _ _ => avoids_pure trivial

theorem avoids_expGolombPrefix (rounds symbol count : ℕ) :
    Avoids outside (CABACReader.expGolombPrefix rounds symbol count) fun _ => True := by
  induction rounds generalizing symbol count with
  | zero => exact avoids_throw (by decide)
  | succ rounds ih =>
    exact avoids_bind avoids_decodeBinEP fun _ _ => avoids_ite (fun _ => ih _ _) fun _ => avoids_pure trivial

theorem avoids_exp_golomb (count : ℕ) : Avoids outside (CABACReader.exp_golomb_eqprob count) fun _ => True := by
  refine avoids_bind (avoids_expGolombPrefix 32 0 count) fun p _ => avoids_ite (fun _ => ?_) fun _ => avoids_pure trivial
  exact avoids_bind (avoids_decodeBinsEP _) fun _ _ => avoids_pure trivial

theorem avoids_check {p : Prop} [Decidable p] {x : String} (hx : x ≠ outside) :
    Avoids outside (liftM (check p x) : BinGet Unit) fun _ => True := by
  refine avoids_lift (fun e' he => ?_) fun _ _ => trivial
  rw [check] at he
  split_ifs at he
  cases he
  exact hx

theorem avoids_truncBinCode (maxSymbol : ℕ) :
    Avoids outside (CABACReader.xReadTruncBinCode maxSymbol) fun _ => True := by
  refine avoids_bind (avoids_lift (Q := fun _ => True) (fun e' he => ?_) fun _ _ => trivial) fun thresh _ => ?_
  · rcases Nat.lt_or_ge maxSymbol (2 ^ 31) with hlt | hge
    · rw [truncBinThresh_eq hlt] at he
      cases he
    · rw [truncBinThresh_error hge] at he
      cases he
      decide
  · refine avoids_bind (avoids_decodeBinsEP _) fun symbol _ => avoids_ite (fun _ => ?_) fun _ => avoids_pure trivial
    exact avoids_bind avoids_decodeBinEP fun _ _ => avoids_pure trivial

theorem avoids_unarySymbol (ctxId0 ctxIdN : CtxId) (left onesRead : ℕ) :
    Avoids outside (CABACReader.unarySymbolBins ctxId0 ctxIdN left onesRead) fun _ => True := by
  induction left generalizing onesRead with
  | zero => exact avoids_pure trivial
  | succ left ih =>
    exact avoids_bind (avoids_decodeBin _) fun _ _ => avoids_ite (fun _ => ih _) fun _ => avoids_pure trivial

theorem avoids_qpDelta (cu : PaletteCU) (cuCtx : CUCtx) :
    Avoids outside (CABACReader.parseQpDelta ctx cu cuCtx) fun p =>
      p.1.useRotation = cu.useRotation ∧ p.1.curPLTSize = cu.curPLTSize := by
  refine avoids_ite (fun _ => ?_) fun _ => avoids_pure ⟨rfl, rfl⟩
  refine avoids_bind (Q := fun _ => True) ?_ fun qp _ => avoids_pure ⟨rfl, rfl⟩
  refine avoids_bind (avoids_unarySymbol _ _ _ _) fun DQp _ => avoids_bind (Q := fun _ => True) ?_ fun more _ => ?_
  · exact avoids_ite (fun _ => avoids_exp_golomb _) fun _ => avoids_pure trivial
  · refine avoids_bind (Q := fun _ => True) ?_ fun DQp _ => avoids_pure trivial
    refine avoids_ite (fun _ => ?_) fun _ => avoids_pure trivial
    exact avoids_bind avoids_decodeBinEP fun _ _ => avoids_pure trivial

theorem avoids_chromaQpOffset (cu : PaletteCU) (cuCtx : CUCtx) :
    Avoids outside (CABACReader.parseChromaQpOffset ctx cu cuCtx) fun p =>
      p.1.useRotation = cu.useRotation ∧ p.1.curPLTSize = cu.curPLTSize := by
  refine avoids_ite (fun _ => ?_) fun _ => avoids_pure ⟨rfl, rfl⟩
  refine avoids_bind (Q := fun _ => True) ?_ fun adj _ => avoids_pure ⟨rfl, rfl⟩
  refine avoids_bind (avoids_decodeBin _) fun qpAdj _ => avoids_ite (fun _ => ?_) fun _ => avoids_pure trivial
  exact avoids_bind (avoids_unarySymbol _ _ _ _) fun idc _ => avoids_pure trivial

/-! ## Positions -/

variable {useRotation : Bool} {n : ℕ}

theorem scan_inside (h : n < ctx.total) : Inside ctx (posOf (ctx.scan useRotation n)) := by
  rw [PaletteContext.total] at h
  cases useRotation with
  | false =>
    have hscan : ctx.scan false n = ⟨snake ctx.width n, n / ctx.width⟩ := scanOrder_hor ctx.height ctx.width_pos
    have hline : n / ctx.width < ctx.height := Nat.div_lt_of_lt_mul (by rwa [Nat.mul_comm])
    have hplace := snake_lt (n := n) ctx.width_pos
    rw [hscan, Inside, posOf]
    dsimp only
    exact ⟨⟨Int.natCast_nonneg _, by exact_mod_cast hplace⟩, Int.natCast_nonneg _, by exact_mod_cast hline⟩
  | true =>
    have hscan : ctx.scan true n = ⟨n / ctx.height, snake ctx.height n⟩ := scanOrder_ver ctx.width ctx.height_pos
    have hline : n / ctx.height < ctx.width := Nat.div_lt_of_lt_mul h
    have hplace := snake_lt (n := n) ctx.height_pos
    rw [hscan, Inside, posOf]
    dsimp only
    exact ⟨⟨Int.natCast_nonneg _, by exact_mod_cast hline⟩, Int.natCast_nonneg _, by exact_mod_cast hplace⟩

theorem scanPrev_inside (h : n < ctx.total) : Inside ctx (posOf (ctx.scanPrev useRotation n)) := by
  rw [PaletteContext.scanPrev]
  split_ifs with hzero
  · rw [← scan_zero ctx useRotation, ← hzero]
    exact scan_inside h
  · exact scan_inside (by omega)

/-- Something is above a position that is not in the first line. -/
theorem above_inside (h : n < ctx.total) (hline : (ctx.scan useRotation n).firstLine useRotation = false) :
    Inside ctx (posAbove useRotation (ctx.scan useRotation n)) := by
  have hin := @scan_inside ctx useRotation n h
  rw [Inside, posOf] at hin
  cases useRotation with
  | false =>
    have hy : (ctx.scan false n).y ≠ 0 := by simpa [ScanElement.firstLine] using hline
    rw [Inside, posAbove]
    simp only [Bool.false_eq_true, if_false]
    omega
  | true =>
    have hx : (ctx.scan true n).x ≠ 0 := by simpa [ScanElement.firstLine] using hline
    rw [Inside, posAbove]
    simp only [if_true]
    omega

/-! ## Run types -/

/-- In the first line, of what is scanned before `n`, no run copies from above. -/
def FirstLineIndexed (ctx : PaletteContext) (useRotation : Bool) (n : ℕ) (cu : PaletteCU) : Prop :=
  cu.useRotation = useRotation ∧ ∀ m < n, (ctx.scan useRotation m).firstLine useRotation = true →
    cu.runType (ctx.scan useRotation m) = .PLT_RUN_INDEX

theorem FirstLineIndexed.next {cu : PaletteCU} {runType : PLTRunMode} (h : FirstLineIndexed ctx useRotation n cu)
    (hrun : (ctx.scan useRotation n).firstLine useRotation = true → runType = .PLT_RUN_INDEX) :
    FirstLineIndexed ctx useRotation (n + 1)
      { cu with runType := Function.update cu.runType (ctx.scan useRotation n) runType } := by
  refine ⟨h.1, fun m hm hline => ?_⟩
  dsimp only
  by_cases hsame : ctx.scan useRotation m = ctx.scan useRotation n
  · rw [hsame, Function.update_self]
    exact hrun (hsame ▸ hline)
  · rw [Function.update_of_ne hsame]
    refine h.2 m ?_ hline
    rcases Nat.lt_succ_iff_lt_or_eq.mp hm with hlt | rfl
    · exact hlt
    · exact absurd rfl hsame

theorem avoids_runTypeFlag (cu : PaletteCU) (curPos : ℕ) :
    Avoids outside (CABACReader.runTypeFlag ctx cu curPos) fun runType =>
      (ctx.scan cu.useRotation curPos).firstLine cu.useRotation = true → runType = .PLT_RUN_INDEX := by
  refine avoids_ite (fun _ => avoids_pure fun _ => rfl) fun hline => ?_
  refine avoids_ite (fun _ => avoids_pure fun _ => rfl) fun _ => ?_
  exact avoids_bind (avoids_decodeBin _) fun copy _ => avoids_pure fun hfirst => absurd hfirst hline

theorem avoids_runCopyFlag (minSubPos curPos : ℕ) (st : RunState) :
    Avoids outside (CABACReader.runCopyFlag minSubPos curPos st) fun _ => True := by
  refine avoids_ite (fun _ => ?_) fun _ => avoids_pure trivial
  exact avoids_bind (avoids_decodeBin _) fun _ _ => avoids_pure trivial

theorem avoids_runPosition {minSubPos : ℕ} {p : RunState × PaletteCU} (hn : n < ctx.total)
    (h : FirstLineIndexed ctx useRotation n p.2) :
    Avoids outside (insideAll ctx (runAccesses ctx p.2 n) >>= fun _ =>
      CABACReader.runPosition ctx minSubPos n p.1 p.2) fun q => FirstLineIndexed ctx useRotation (n + 1) q.2 := by
  obtain ⟨st, cu⟩ := p
  obtain ⟨rfl, hindexed⟩ := h
  refine avoids_bind (avoids_allowed fun q hq => ?_) fun _ _ => ?_
  · rcases List.mem_pair.mp hq with rfl | rfl
    · exact scan_inside hn
    · exact scanPrev_inside hn
  refine avoids_bind (avoids_runCopyFlag minSubPos n st) fun q _ => avoids_ite (fun _ => ?_) fun hcont => ?_
  · refine avoids_bind (avoids_runTypeFlag cu n) fun runType hrun => avoids_pure ?_
    exact FirstLineIndexed.next ⟨rfl, hindexed⟩ hrun
  · -- the run goes on, from a position that is in the first line too
    refine avoids_pure (FirstLineIndexed.next ⟨rfl, hindexed⟩ fun hline => ?_)
    obtain ⟨m, rfl⟩ : ∃ m, n = m + 1 := Nat.exists_eq_succ_of_ne_zero fun hzero => hcont (.inr hzero)
    exact hindexed m (Nat.lt_succ_self m) (firstLine_prev hline)

/-! ## Indices -/

theorem adjust_inside {cu : PaletteCU} {k : ℕ} (hn : n < k) (hk : k ≤ ctx.total)
    (h : FirstLineIndexed ctx cu.useRotation k cu) :
    ∀ q ∈ adjustAccesses ctx cu n, Inside ctx q := by
  intro q hq
  rw [adjustAccesses] at hq
  split_ifs at hq with hpos hrun
  · rw [List.mem_pair, or_self] at hq
    rw [hq]
    exact scan_inside (by omega)
  · rcases List.mem_pair.mp hq with rfl | rfl
    · exact scan_inside (by omega)
    · -- what comes behind a copied run is not in the first line either
      obtain ⟨m, rfl⟩ := Nat.exists_eq_succ_of_ne_zero hpos
      refine above_inside (Nat.lt_of_lt_of_le hn hk) (Bool.eq_false_iff.mpr fun hline => hrun ?_)
      exact h.2 m (by omega) (firstLine_prev hline)
  · cases hq

theorem index_inside {minSubPos : ℕ} {st : RunState} {cu : PaletteCU} {k : ℕ} (hn : n < k)
    (hk : k ≤ ctx.total) (h : FirstLineIndexed ctx cu.useRotation k cu) :
    ∀ q ∈ indexAccesses ctx minSubPos n st cu, Inside ctx q := by
  intro q hq
  rw [indexAccesses] at hq
  rcases List.mem_cons.mp hq with rfl | hq
  · exact scan_inside (by omega)
  · split_ifs at hq with hcoded hrun
    · exact adjust_inside hn hk h q hq
    · rw [List.mem_singleton.mp hq]
      exact scanPrev_inside (by omega)
    · rw [List.mem_singleton.mp hq]
      exact above_inside (Nat.lt_of_lt_of_le hn hk) (Bool.eq_false_iff.mpr fun hline => hrun (h.2 n hn hline))

theorem avoids_indexPosition {minSubPos k : ℕ} {st : RunState} {cu : PaletteCU} (hn : n < k) (hk : k ≤ ctx.total)
    (h : FirstLineIndexed ctx useRotation k cu) :
    Avoids outside (insideAll ctx (indexAccesses ctx minSubPos n st cu) >>= fun _ =>
      CABACReader.indexPosition ctx asserts minSubPos n st cu) (FirstLineIndexed ctx useRotation k) := by
  obtain ⟨rfl, hindexed⟩ := h
  refine avoids_bind (avoids_allowed (index_inside hn hk ⟨rfl, hindexed⟩)) fun _ _ => avoids_ite (fun _ => ?_) fun _ => ?_
  · refine avoids_bind (avoids_truncBinCode _) fun symbol _ => avoids_bind (Q := fun _ => True) ?_ fun index _ =>
      avoids_pure ⟨rfl, hindexed⟩
    refine avoids_lift (fun e' he => ?_) fun _ _ => trivial
    unfold CABACReader.xAdjustPLTIndex CABACReader.assertPrevPos CABACReader.refLevel check at he
    dsimp only at he
    split_ifs at he <;> cases he <;> decide
  · exact avoids_pure ⟨rfl, hindexed⟩

theorem avoids_readEscape (compID : ComponentID) (pos : ScanElement) (cu : PaletteCU) :
    Avoids outside (CABACReader.readEscape ctx asserts compID pos cu) fun cu' =>
      cu'.useRotation = cu.useRotation ∧ cu'.runType = cu.runType := by
  refine avoids_bind (avoids_exp_golomb 5) fun value _ => avoids_bind (avoids_check (by decide)) fun _ _ => ?_
  exact avoids_pure ⟨rfl, rfl⟩

theorem avoids_escapePosition {compID : ComponentID} {cu : PaletteCU} {k : ℕ} (hn : n < ctx.total)
    (h : FirstLineIndexed ctx useRotation k cu) :
    Avoids outside (insideAll ctx [posOf (ctx.scan cu.useRotation n)] >>= fun _ =>
      CABACReader.escapePosition ctx asserts compID n cu) (FirstLineIndexed ctx useRotation k) := by
  have hkeep : ∀ {cu' : PaletteCU}, cu'.useRotation = cu.useRotation ∧ cu'.runType = cu.runType →
      FirstLineIndexed ctx useRotation k cu' := by
    rintro cu' ⟨hrot, hrun⟩
    exact ⟨hrot.trans h.1, fun m hm hline => by rw [hrun]; exact h.2 m hm hline⟩
  refine avoids_bind (avoids_allowed fun q hq => ?_) fun _ _ => avoids_ite (fun _ => ?_) fun _ => avoids_pure h
  · rw [List.mem_singleton.mp hq]
    exact scan_inside hn
  refine avoids_bind (avoids_ite (fun _ => avoids_readEscape compID _ cu) fun _ => avoids_pure ⟨rfl, rfl⟩)
    fun cu' hcu' => avoids_ite (fun _ => ?_) fun _ => avoids_pure (hkeep hcu')
  refine (avoids_readEscape compID _ cu').mono fun cu'' hcu'' => hkeep ?_
  exact ⟨hcu''.1.trans hcu'.1, hcu''.2.trans hcu'.2⟩

/-! ## Groups of positions -/

theorem avoids_runsAndIndices {first last : ℕ} {st : RunState} {cu : PaletteCU} (hlast : last ≤ ctx.total)
    (hle : first ≤ last) (h : FirstLineIndexed ctx useRotation first cu) :
    Avoids outside (runsAndIndices ctx asserts first last st cu) fun p =>
      FirstLineIndexed ctx useRotation last p.2 := by
  have hend : first + (last - first) = last := Nat.add_sub_cancel' hle
  refine avoids_ite (fun _ => ?_) fun _ => ?_
  · refine avoids_bind (Q := fun p => FirstLineIndexed ctx useRotation last p.2) ?_ fun p hp =>
      avoids_bind (Q := FirstLineIndexed ctx useRotation last) ?_ fun cu hcu => avoids_pure hcu
    · have hloop := avoids_loop (e := outside) (n := last - first)
        (g := fun i (p : RunState × PaletteCU) => insideAll ctx (runAccesses ctx p.2 (first + i)) >>= fun _ =>
          CABACReader.runPosition ctx first (first + i) p.1 p.2)
        (P := fun i p => FirstLineIndexed ctx useRotation (first + i) p.2) (a := (st, cu)) h
        fun i hi p hp => avoids_runPosition (by omega) hp
      rwa [hend] at hloop
    · exact avoids_loop (P := fun _ => FirstLineIndexed ctx useRotation last) hp fun i hi cu hcu =>
        avoids_indexPosition (by omega) hlast hcu
  · refine avoids_bind (Q := FirstLineIndexed ctx useRotation last) ?_ fun cu hcu => avoids_pure hcu
    have hloop := avoids_loop (e := outside) (n := last - first)
      (g := fun i (cu : PaletteCU) => insideAll ctx (runAccesses ctx cu (first + i)) >>= fun _ =>
        pure (CABACReader.singlePosition ctx first (first + i) st cu))
      (P := fun i cu => FirstLineIndexed ctx useRotation (first + i) cu) (a := cu) h fun i hi cu hcu => by
        obtain ⟨rfl, hindexed⟩ := hcu
        refine avoids_bind (avoids_allowed fun q hq => ?_) fun _ _ => avoids_pure ?_
        · rcases List.mem_pair.mp hq with rfl | rfl
          · exact scan_inside (by omega)
          · exact scanPrev_inside (by omega)
        · exact FirstLineIndexed.next ⟨rfl, hindexed⟩ fun _ => rfl
    rwa [hend] at hloop

theorem avoids_subblock {subSetId : ℕ} {p : RunState × PaletteCU} (hin : 16 * subSetId < ctx.total)
    (h : FirstLineIndexed ctx useRotation (16 * subSetId) p.2) :
    Avoids outside (cuPaletteSubblockInfo ctx asserts subSetId p) fun q =>
      FirstLineIndexed ctx useRotation (min (16 * (subSetId + 1)) ctx.total) q.2 := by
  have hfirst : subSetId <<< LOG2_PALETTE_CG_SIZE = 16 * subSetId := by
    rw [Nat.shiftLeft_eq, LOG2_PALETTE_CG_SIZE, Nat.mul_comm]
  have hlast : min (subSetId <<< LOG2_PALETTE_CG_SIZE + 1 <<< LOG2_PALETTE_CG_SIZE) ctx.total =
      min (16 * (subSetId + 1)) ctx.total := by
    rw [hfirst]
    rfl
  unfold cuPaletteSubblockInfo
  dsimp only
  rw [hlast, hfirst]
  refine avoids_bind (avoids_runsAndIndices (Nat.min_le_right _ _) (by omega) h) fun q hq => ?_
  refine avoids_bind (avoids_foldlM hq fun compID _ cu hcu => ?_) fun cu hcu => avoids_pure hcu
  exact avoids_loop (P := fun _ => FirstLineIndexed ctx useRotation (min (16 * (subSetId + 1)) ctx.total)) hcu
    fun i hi cu hcu => avoids_escapePosition (by omega) hcu

/-- Behind the palette no access is outside, whatever is read. -/
theorem avoids_parseIndexMap (cuCtx : CUCtx) (cu : PaletteCU) :
    Avoids outside (parseIndexMap ctx asserts cuCtx cu) fun _ => True := by
  have htotal : 0 < ctx.total := Nat.mul_pos ctx.height_pos ctx.width_pos
  refine avoids_bind (Q := fun _ => True) ?_ fun useEscape _ => avoids_bind (Q := fun _ => True) ?_ fun useRotation _ => ?_
  · exact avoids_ite (fun _ => avoids_decodeBinEP) fun _ => avoids_pure trivial
  · exact avoids_ite (fun _ => avoids_decodeBin _) fun _ => avoids_pure trivial
  refine avoids_bind (avoids_qpDelta _ cuCtx) fun p hp => avoids_bind (avoids_chromaQpOffset p.1 p.2) fun q hq => ?_
  have hrot : q.1.useRotation = useRotation := hq.1.trans hp.1
  refine avoids_bind (avoids_loop (P := fun i (p : RunState × PaletteCU) =>
    FirstLineIndexed ctx useRotation (min (16 * i) ctx.total) p.2) ⟨hrot, fun m hm _ => ?_⟩ fun i hi p hp => ?_)
    fun _ _ => avoids_bind (avoids_check (by decide)) fun _ _ => avoids_pure trivial
  · rw [Nat.mul_zero, Nat.zero_min] at hm
    exact absurd hm (Nat.not_lt_zero m)
  · have hin : 16 * i < ctx.total := by
      rw [LOG2_PALETTE_CG_SIZE, Nat.shiftRight_eq_div_pow] at hi
      omega
    rw [Nat.min_eq_left (Nat.le_of_lt hin)] at hp
    exact avoids_subblock hin hp

end ECM.Palette.Bounds
