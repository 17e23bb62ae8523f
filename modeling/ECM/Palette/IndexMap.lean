import ECM.Cabac.Binarization
import ECM.DecoderLib.PaletteReader
import ECM.EncoderLib.PaletteWriter
import ECM.Palette.Scan

/-! # The index map read back

Positions are read in scan order. What is known of the unit of the reader is that it
agrees with the unit of the writer on the positions read so far. -/

namespace ECM.Palette
open CommonLib CommonLib.Bins CommonLib.Palette EncoderLib DecoderLib Function
open ECM.Cabac.Binarization Lib.Codec Lib.Loop

/-! ## Agreement -/

section Agreement
variable (ctx : PaletteContext) (cu : PaletteCU)

/-- Position `n` of the scan of the unit. -/
def posOf (n : ℕ) : ScanElement := ctx.scan cu.useRotation n

/-- The escape value of position `n` is sent for `compID`, and stored at `pos`. -/
def Sent (compID : ComponentID) (n : ℕ) (pos : ScanElement) : Prop :=
  cu.curPLTIdx (posOf ctx cu n) = cu.curPLTSize ∧
    ((compID = .Y ∨ ctx.compBegin ≠ .Y) ∧ pos = posOf ctx cu n ∨
      (ctx.compBegin = .Y ∧ compID ≠ .Y ∧
          (posOf ctx cu n).y % 2 ^ getChannelTypeScaleY .chroma ctx.chromaFormatIdc = 0 ∧
          (posOf ctx cu n).x % 2 ^ getChannelTypeScaleX .chroma ctx.chromaFormatIdc = 0) ∧
        pos = ⟨(posOf ctx cu n).x >>> getChannelTypeScaleX .chroma ctx.chromaFormatIdc,
          (posOf ctx cu n).y >>> getChannelTypeScaleY .chroma ctx.chromaFormatIdc⟩)

/-- What the unit of the writer satisfies. `asserts` is that of the reader. -/
structure Consistent (asserts : Bool) : Prop where
  lastPLTSize : cu.lastPLTSize = ctx.prevPLTSize
  reusePLTSize : cu.reusePLTSize = numReused cu.reuseflag cu.lastPLTSize
  reusePLTSize_le : cu.reusePLTSize ≤ cu.curPLTSize
  curPLTSize_le : cu.curPLTSize ≤ ctx.maxPltSize
  index_lt : ∀ n < ctx.total, cu.curPLTIdx (posOf ctx cu n) < cu.indexMaxSize
  copied : ∀ n < ctx.total, 1 < cu.indexMaxSize → cu.runType (posOf ctx cu n) = .PLT_RUN_COPY →
    cu.curPLTIdx (posOf ctx cu n) = cu.curPLTIdx ((posOf ctx cu n).above cu.useRotation)
  escapeValue_le : ∀ compID ∈ ctx.comps, ∀ n < ctx.total, ∀ pos, Sent ctx cu compID n pos →
    cu.escapeValue compID pos ≤ Palette.MAX_INT ∧
      (asserts = true → cu.escapeValue compID pos < 1 <<< (ctx.bitDepths compID.toChannelType + 1))

/-- The palette and the flags of the unit, without the map. -/
structure SameHead (cu' : PaletteCU) : Prop where
  reuseflag : ∀ k < cu.lastPLTSize, cu'.reuseflag k = cu.reuseflag k
  curPLTSize : cu'.curPLTSize = cu.curPLTSize
  reused : ∀ compID ∈ ctx.comps, ∀ k < cu.lastPLTSize, cu.reuseflag k = true →
    cu'.curPLT compID (numReused cu.reuseflag k) = ctx.prevPLT compID k
  new : ∀ compID ∈ ctx.comps, ∀ k, cu.reusePLTSize ≤ k → k < cu.curPLTSize →
    cu'.curPLT compID k = cu.curPLT compID k
  useEscape : cu'.useEscape = cu.useEscape
  useRotation : cu'.useRotation = cu.useRotation

/-- The run types below `runs`, the indices below `indices` and the escape values of `sent`. -/
structure SameMap (runs indices : ℕ) (sent : ComponentID → ℕ → Prop) (cu' : PaletteCU) : Prop where
  head : SameHead ctx cu cu'
  runType : 1 < cu.indexMaxSize → ∀ n < runs, cu'.runType (posOf ctx cu n) = cu.runType (posOf ctx cu n)
  curPLTIdx : ∀ n < indices, cu'.curPLTIdx (posOf ctx cu n) = cu.curPLTIdx (posOf ctx cu n)
  escapeValue : ∀ compID n, sent compID n → ∀ pos, Sent ctx cu compID n pos →
    cu'.escapeValue compID pos = cu.escapeValue compID pos

/-- A copied position is not in the first line. -/
def CopyBelow (runs : ℕ) : Prop :=
  ∀ n < runs, cu.runType (posOf ctx cu n) = .PLT_RUN_COPY → (posOf ctx cu n).firstLine cu.useRotation = false

end Agreement

variable {ctx : PaletteContext} {asserts : Bool} {cu cu' : PaletteCU} {runs indices n : ℕ}
  {sent : ComponentID → ℕ → Prop}

theorem SameHead.indexMaxSize_eq (h : SameHead ctx cu cu') : cu'.indexMaxSize = cu.indexMaxSize := by
  rw [PaletteCU.indexMaxSize, PaletteCU.indexMaxSize, h.useEscape, h.curPLTSize]

theorem SameHead.scan_eq (h : SameHead ctx cu cu') (n : ℕ) : ctx.scan cu'.useRotation n = posOf ctx cu n := by
  rw [h.useRotation, posOf]

/-- The map does not matter to the palette and the flags. -/
theorem SameHead.setMap (h : SameHead ctx cu cu') (runType : ScanElement → PLTRunMode) (curPLTIdx : ScanElement → ℕ)
    (escapeValue : ComponentID → ScanElement → ℕ) :
    SameHead ctx cu { cu' with runType, curPLTIdx, escapeValue } :=
  ⟨h.reuseflag, h.curPLTSize, h.reused, h.new, h.useEscape, h.useRotation⟩

theorem scanPrev_succ (useRotation : Bool) (n : ℕ) :
    ctx.scanPrev useRotation (n + 1) = ctx.scan useRotation n := if_neg (Nat.succ_ne_zero n)

/-- The index of the next position. -/
theorem SameMap.setIdx (h : SameMap ctx cu runs n sent cu') {idx : ℕ} (hidx : idx = cu.curPLTIdx (posOf ctx cu n)) :
    SameMap ctx cu runs (n + 1) sent
      { cu' with curPLTIdx := update cu'.curPLTIdx (posOf ctx cu n) idx } := by
  refine ⟨h.head.setMap _ _ _, h.runType, fun m hm => ?_, h.escapeValue⟩
  change update cu'.curPLTIdx (posOf ctx cu n) idx (posOf ctx cu m) = _
  by_cases hsame : posOf ctx cu m = posOf ctx cu n
  · rw [hsame, update_self, hidx]
  · rw [update_of_ne hsame]
    refine h.curPLTIdx m (Nat.lt_of_le_of_ne (Nat.le_of_lt_succ hm) ?_)
    rintro rfl
    exact hsame rfl

/-- The run type of the next position. -/
theorem SameMap.setRunType (h : SameMap ctx cu n indices sent cu') {runType : PLTRunMode}
    (hrun : 1 < cu.indexMaxSize → runType = cu.runType (posOf ctx cu n)) :
    SameMap ctx cu (n + 1) indices sent
      { cu' with runType := update cu'.runType (posOf ctx cu n) runType } := by
  refine ⟨h.head.setMap _ _ _, fun hone m hm => ?_, h.curPLTIdx, h.escapeValue⟩
  change update cu'.runType (posOf ctx cu n) runType (posOf ctx cu m) = _
  by_cases hsame : posOf ctx cu m = posOf ctx cu n
  · rw [hsame, update_self, hrun hone]
  · rw [update_of_ne hsame]
    refine h.runType hone m (Nat.lt_of_le_of_ne (Nat.le_of_lt_succ hm) ?_)
    rintro rfl
    exact hsame rfl

/-! ## Runs -/

section Runs
variable {minSubPos : ℕ} {st : RunState}

/-- The copy flags of a group, below position `n`. -/
structure FlagsSet (ctx : PaletteContext) (cu : PaletteCU) (minSubPos n : ℕ) (st : RunState) : Prop where
  first : minSubPos = 0 → st.runCopyFlag 0 = 0
  flag : ∀ m, minSubPos ≤ m → m < n → 0 < m →
    st.runCopyFlag (m - minSubPos) = (CABACWriter.identityFlag ctx cu m).toNat

theorem identity_spec (h : CABACWriter.identityFlag ctx cu (n + 1) = true) :
    cu.runType (posOf ctx cu (n + 1)) = cu.runType (posOf ctx cu n) ∧
      (cu.runType (posOf ctx cu (n + 1)) = .PLT_RUN_INDEX →
        cu.curPLTIdx (posOf ctx cu (n + 1)) = cu.curPLTIdx (posOf ctx cu n)) := by
  have hsame := of_decide_eq_true h
  rw [scanPrev_succ, not_or, not_and, not_not] at hsame
  exact ⟨hsame.1, fun hrun => not_not.mp (hsame.2 hrun)⟩

theorem flagsSet_init (ctx : PaletteContext) (cu : PaletteCU) (minSubPos : ℕ) (st : RunState) :
    FlagsSet ctx cu minSubPos minSubPos { st with runCopyFlag := initRunCopyFlag minSubPos } :=
  ⟨fun hzero => if_pos ⟨hzero, rfl⟩, fun _ hle hlt => absurd hlt (Nat.not_lt.mpr hle)⟩

theorem runCopyFlag_roundTrips (hmin : minSubPos ≤ n) (hflags : FlagsSet ctx cu minSubPos n st) :
    RoundTrips False (CABACWriter.runCopyFlag ctx cu minSubPos n st) (CABACReader.runCopyFlag minSubPos n st)
      fun st' p => p.2 = st' ∧ (0 < n → p.1 = CABACWriter.identityFlag ctx cu n) ∧
        FlagsSet ctx cu minSubPos (n + 1) st' := by
  refine roundTrips_ite Iff.rfl (fun hpos => ?_) fun hzero => roundTrips_pure ⟨rfl, fun h => absurd h hzero, ?_⟩
  · refine roundTrips_bind (roundTrips_bin _ _) fun _ b hb => ?_
    rw [hb]
    refine roundTrips_pure ⟨rfl, fun _ => rfl, fun hmin₀ => ?_, fun m hle hlt hm => ?_⟩
    · change update st.runCopyFlag (n - minSubPos) _ 0 = 0
      rw [update_of_ne (by omega), hflags.first hmin₀]
    · change update st.runCopyFlag (n - minSubPos) _ (m - minSubPos) = _
      by_cases hsame : m = n
      · rw [hsame, update_self]
      · rw [update_of_ne (by omega), hflags.flag m hle (by omega) hm]
  · exact ⟨hflags.first, fun m hle hlt hm => hflags.flag m hle (by omega) hm⟩

/-- A run begins. -/
theorem runTypeFlag_roundTrips (hsize : 1 < cu.indexMaxSize) (h : SameMap ctx cu n indices sent cu') :
    RoundTrips False (CABACWriter.runTypeFlag ctx cu n) (CABACReader.runTypeFlag ctx cu' n)
      fun _ runType => runType = cu.runType (posOf ctx cu n) ∧
        (cu.runType (posOf ctx cu n) = .PLT_RUN_COPY → (posOf ctx cu n).firstLine cu.useRotation = false) := by
  have hprev : n ≠ 0 ∧ cu.runType (ctx.scanPrev cu.useRotation n) = .PLT_RUN_COPY ↔
      n ≠ 0 ∧ cu'.runType (ctx.scanPrev cu.useRotation n) = .PLT_RUN_COPY := by
    refine and_congr_right fun hn => ?_
    obtain ⟨m, rfl⟩ := Nat.exists_eq_succ_of_ne_zero hn
    have hsame := h.runType hsize m (Nat.lt_succ_self m)
    rw [Nat.succ_eq_add_one, scanPrev_succ]
    rw [posOf] at hsame
    rw [hsame]
  have hindex : ∀ {msg : String} {a : Unit}, check (cu.runType (posOf ctx cu n) ≠ .PLT_RUN_INDEX) msg = .ok a →
      PLTRunMode.PLT_RUN_INDEX = cu.runType (posOf ctx cu n) ∧
        (cu.runType (posOf ctx cu n) = .PLT_RUN_COPY → (posOf ctx cu n).firstLine cu.useRotation = false) := by
    intro msg a hc
    have hindex := not_not.mp (check_eq_ok hc)
    exact ⟨hindex.symm, fun hcopy => nomatch hindex.symm.trans hcopy⟩
  rw [CABACWriter.runTypeFlag, CABACReader.runTypeFlag, h.head.useRotation]
  refine roundTrips_ite Iff.rfl (fun _ => ?_) fun hline => roundTrips_ite hprev (fun _ => ?_) fun _ => ?_
  · exact roundTrips_lift (fun _ _ => id) fun _ hc => hindex hc
  · exact roundTrips_lift (fun _ _ => id) fun _ hc => hindex hc
  · refine (roundTrips_bin _ _).then_right fun _ b hb => ⟨_, rfl, ?_, fun _ => Bool.eq_false_iff.mpr hline⟩
    rw [hb]
    change (if decide (cu.runType (posOf ctx cu n) = .PLT_RUN_COPY) = true then _ else _) = _
    cases cu.runType (posOf ctx cu n) with
    | PLT_RUN_INDEX => rfl
    | PLT_RUN_COPY => rfl

/-- One position: a run begins, or goes on. -/
theorem runPosition_roundTrips (hsize : 1 < cu.indexMaxSize) (hmin : minSubPos ≤ n)
    (hflags : FlagsSet ctx cu minSubPos n st) (hcopy : CopyBelow ctx cu n)
    (h : SameMap ctx cu n indices sent cu') :
    RoundTrips False (CABACWriter.runPosition ctx cu minSubPos n st)
      (CABACReader.runPosition ctx minSubPos n st cu')
      fun st' p => p.1 = st' ∧ FlagsSet ctx cu minSubPos (n + 1) st' ∧ CopyBelow ctx cu (n + 1) ∧
        SameMap ctx cu (n + 1) indices sent p.2 := by
  have hcopies : (cu.runType (posOf ctx cu n) = .PLT_RUN_COPY →
      (posOf ctx cu n).firstLine cu.useRotation = false) → CopyBelow ctx cu (n + 1) := by
    intro hline m hm hrun
    rcases Nat.lt_or_eq_of_le (Nat.le_of_lt_succ hm) with hlt | rfl
    · exact hcopy m hlt hrun
    · exact hline hrun
  rw [CABACWriter.runPosition, CABACReader.runPosition]
  refine roundTrips_bind (runCopyFlag_roundTrips hmin hflags) fun st' p hp => ?_
  obtain ⟨rfl, hident, hflags'⟩ := hp
  obtain ⟨identityFlag, st'⟩ := p
  dsimp only at hident hflags' ⊢
  rw [h.head.scan_eq]
  have hbegin : ¬CABACWriter.identityFlag ctx cu n = true ∨ n = 0 ↔ identityFlag = false ∨ n = 0 := by
    rcases Nat.eq_zero_or_pos n with hn | hn
    · exact ⟨fun _ => .inr hn, fun _ => .inr hn⟩
    · rw [hident hn, Bool.not_eq_true]
  refine roundTrips_ite hbegin (fun _ => ?_) fun hgoes => roundTrips_pure ?_
  · refine roundTrips_bind (runTypeFlag_roundTrips hsize h) fun _ runType hrun => roundTrips_pure ?_
    obtain ⟨rfl, hline⟩ := hrun
    exact ⟨rfl, ⟨hflags'.first, hflags'.flag⟩, hcopies hline, h.setRunType fun _ => rfl⟩
  · rw [not_or, not_not] at hgoes
    obtain ⟨m, rfl⟩ := Nat.exists_eq_succ_of_ne_zero hgoes.2
    obtain ⟨hrun, _⟩ := identity_spec hgoes.1
    refine ⟨rfl, hflags', hcopies fun hcopied => ?_, h.setRunType fun _ => ?_⟩
    · have hline := hcopy m (Nat.lt_succ_self m) (hrun.symm.trans hcopied)
      exact Bool.eq_false_iff.mpr fun hfirst => Bool.eq_false_iff.mp hline (firstLine_prev hfirst)
    · rw [Nat.succ_eq_add_one, scanPrev_succ, h.head.scan_eq, h.runType hsize m (Nat.lt_succ_self m)]
      exact hrun.symm

end Runs

/-! ## Indices -/

section Indices
variable {minSubPos maxSymbol : ℕ} {st : RunState}

theorem indexMaxSize_le (cu : PaletteCU) : cu.curPLTSize ≤ cu.indexMaxSize ∧ cu.indexMaxSize ≤ cu.curPLTSize + 1 := by
  rw [PaletteCU.indexMaxSize]
  split_ifs <;> omega

theorem maxPltSize_le (ctx : PaletteContext) : ctx.maxPltSize ≤ 31 := by
  rw [PaletteContext.maxPltSize]
  split_ifs <;> decide

/-- The escape index is the last one anyway. -/
theorem indexLevel_eq (hlt : cu.curPLTIdx (posOf ctx cu n) < cu.indexMaxSize) :
    CABACWriter.indexLevel cu cu.indexMaxSize (posOf ctx cu n) = cu.curPLTIdx (posOf ctx cu n) := by
  obtain ⟨hle, hge⟩ := indexMaxSize_le cu
  rw [CABACWriter.indexLevel]
  split_ifs <;> omega

/-- An alphabet of one index takes no bins. -/
theorem truncBin_roundTrips {level : ℕ} (hlevel : level < maxSymbol) :
    RoundTrips False (if maxSymbol > 1 then CABACWriter.xWriteTruncBinCode level maxSymbol else pure ())
      (CABACReader.xReadTruncBinCode maxSymbol) fun _ v => v = level := by
  by_cases hone : maxSymbol > 1
  · rw [if_pos hone]
    exact xTruncBinCode_roundTrips False.elim False.elim
  · rw [if_neg hone]
    obtain rfl : maxSymbol = 1 := by omega
    obtain rfl : level = 0 := by omega
    exact ⟨0, rfl, fun _ => rfl⟩

theorem SameMap.above (h : SameMap ctx cu runs n sent cu')
    (hline : (posOf ctx cu n).firstLine cu.useRotation = false) :
    cu'.curPLTIdx ((posOf ctx cu n).above cu.useRotation) = cu.curPLTIdx ((posOf ctx cu n).above cu.useRotation) := by
  obtain ⟨m, hm, habove⟩ := scan_above hline
  have hsame := h.curPLTIdx m hm
  rwa [posOf, habove] at hsame

/-- The index that the neighbour of position `n + 1` excludes. -/
def refLevel (ctx : PaletteContext) (cu : PaletteCU) (maxSymbol n : ℕ) : ℕ :=
  CABACWriter.indexLevel cu maxSymbol
    (if cu.runType (posOf ctx cu n) = .PLT_RUN_INDEX then posOf ctx cu n
      else (posOf ctx cu (n + 1)).above cu.useRotation)

theorem adjust_eq (hsize : 1 < cu.indexMaxSize) (hruns : n < runs) (h : SameMap ctx cu runs (n + 1) sent cu')
    (hline : ¬(cu.runType (posOf ctx cu n) ≠ .PLT_RUN_INDEX ∧ (posOf ctx cu n).firstLine cu.useRotation = true))
    (level : ℕ) : CABACReader.xAdjustPLTIndex ctx asserts cu' level (n + 1) maxSymbol =
      .ok (if level ≥ refLevel ctx cu maxSymbol n then level + 1 else level) := by
  have hrun := h.runType hsize n hruns
  have hscan : ∀ k, ctx.scan cu.useRotation k = posOf ctx cu k := fun _ => rfl
  have hassert : CABACReader.assertPrevPos ctx asserts cu' (n + 1) = .ok () := by
    rw [CABACReader.assertPrevPos, h.head.useRotation, Nat.add_sub_cancel, hscan, hrun]
    exact check_ok _ fun hfail => hline hfail.2.2
  have href : CABACReader.refLevel ctx cu' (n + 1) maxSymbol = .ok (refLevel ctx cu maxSymbol n) := by
    rw [CABACReader.refLevel, if_pos (Nat.succ_ne_zero n), refLevel, CABACWriter.indexLevel, h.head.useRotation,
      Nat.add_sub_cancel, hscan, hscan]
    dsimp only
    rw [hrun, h.head.curPLTSize]
    by_cases hindex : cu.runType (posOf ctx cu n) = .PLT_RUN_INDEX
    · rw [if_pos hindex, h.curPLTIdx n (Nat.lt_succ_self n)]
      rfl
    · have hnext : (posOf ctx cu (n + 1)).firstLine cu.useRotation = false :=
        Bool.eq_false_iff.mpr fun hfirst => hline ⟨hindex, firstLine_prev hfirst⟩
      rw [if_neg hindex, h.above hnext]
      rfl
  rw [CABACReader.xAdjustPLTIndex, hassert, ok_bind, href]
  rfl

/-- An index without the one that is excluded, and with it again. -/
theorem level_restored {level ref : ℕ} (hne : ref ≠ level) :
    (if (if level > ref then level - 1 else level) ≥ ref then (if level > ref then level - 1 else level) + 1
      else if level > ref then level - 1 else level) = level := by
  split_ifs <;> omega

/-- An index that is sent, and what the reader makes of it. -/
theorem writePLTIndex_roundTrips (hcons : Consistent ctx cu asserts) (hsize : 1 < cu.indexMaxSize)
    (hn : n < ctx.total) (hruns : n < runs) (h : SameMap ctx cu runs n sent cu') {g : ℕ → PaletteCU} :
    RoundTrips False (CABACWriter.writePLTIndex ctx cu n cu.indexMaxSize)
      (CABACReader.xReadTruncBinCode (cu.indexMaxSize - if n > 0 then 1 else 0) >>= fun symbol =>
        liftM (CABACReader.xAdjustPLTIndex ctx asserts cu' symbol n cu.indexMaxSize) >>= fun index => pure (g index))
      fun _ cu'' => cu'' = g (cu.curPLTIdx (posOf ctx cu n)) := by
  have hlt := hcons.index_lt n hn
  have hmax : cu.indexMaxSize ≤ 32 := by
    have hle := (indexMaxSize_le cu).2
    have hsize := hcons.curPLTSize_le
    have hplt := maxPltSize_le ctx
    omega
  have hlevel : CABACWriter.indexLevel cu cu.indexMaxSize (ctx.scan cu.useRotation n) =
      cu.curPLTIdx (posOf ctx cu n) := indexLevel_eq hlt
  rw [CABACWriter.writePLTIndex, CABACWriter.removeRedundancy, hlevel]
  cases n with
  | zero =>
    rw [if_neg (not_not.mpr rfl), if_neg (Nat.lt_irrefl 0), Nat.sub_zero]
    refine roundTrips_lift_left (fun _ _ => id) fun p hp => ?_
    cases hp
    refine roundTrips_lift_left (fun _ _ => id) fun _ _ => roundTrips_lift_left (fun _ _ => id) fun _ _ => ?_
    refine (truncBin_roundTrips hlt).then_right fun _ v hv => ⟨_, ?_, rfl⟩
    have hint : ¬cu.curPLTIdx (posOf ctx cu 0) ≥ Palette.MAX_INT := by
      rw [Palette.MAX_INT]
      omega
    have hadjust : CABACReader.xAdjustPLTIndex ctx asserts cu' v 0 cu.indexMaxSize = .ok v := by
      rw [CABACReader.xAdjustPLTIndex, CABACReader.assertPrevPos, check_ok _ (fun hfail => hfail.2.1 rfl), ok_bind,
        CABACReader.refLevel, if_neg (not_not.mpr rfl), hv]
      change Except.ok (if _ ≥ Palette.MAX_INT then _ else _) = _
      rw [if_neg hint]
    rw [hadjust, hv]
    rfl
  | succ n =>
    rw [if_pos (Nat.succ_ne_zero n), if_pos (Nat.succ_pos n)]
    refine roundTrips_lift_left (fun _ _ => id) fun p hp => ?_
    obtain ⟨_, hline, hp⟩ := bind_eq_ok hp
    obtain ⟨_, hne, hp⟩ := bind_eq_ok hp
    have hline := check_eq_ok hline
    have hne : refLevel ctx cu cu.indexMaxSize n ≠ cu.curPLTIdx (posOf ctx cu (n + 1)) := check_eq_ok hne
    cases hp
    refine roundTrips_lift_left (fun _ _ => id) fun _ _ => roundTrips_lift_left (fun _ _ => id) fun _ hfit => ?_
    have hfit := not_not.mp (check_eq_ok hfit)
    refine (truncBin_roundTrips hfit).then_right fun _ v hv => ⟨_, ?_, rfl⟩
    rw [adjust_eq hsize (Nat.lt_of_succ_lt hruns) h hline, hv]
    exact congrArg (fun level => (pure (g level) : BinGet PaletteCU)) (level_restored hne)

/-- One position: an index is read, or taken from a neighbour. -/
theorem indexPosition_roundTrips (hcons : Consistent ctx cu asserts) (hsize : 1 < cu.indexMaxSize)
    (hn : n < ctx.total) (hmin : minSubPos ≤ n) (hruns : n < runs) (hflags : FlagsSet ctx cu minSubPos runs st)
    (hcopy : CopyBelow ctx cu runs) (h : SameMap ctx cu runs n sent cu') :
    RoundTrips False (CABACWriter.indexPosition ctx cu minSubPos n st)
      (CABACReader.indexPosition ctx asserts minSubPos n st cu')
      fun _ cu'' => SameMap ctx cu runs (n + 1) sent cu'' := by
  have hrun := h.runType hsize n hruns
  have hprev : ctx.scanPrev cu'.useRotation n = ctx.scanPrev cu.useRotation n := by rw [h.head.useRotation]
  have habove : (posOf ctx cu n).above cu'.useRotation = (posOf ctx cu n).above cu.useRotation := by
    rw [h.head.useRotation]
  rw [CABACWriter.indexPosition, CABACReader.indexPosition, h.head.scan_eq, h.head.indexMaxSize_eq, hprev]
  dsimp only
  rw [hrun, habove]
  refine roundTrips_ite Iff.rfl (fun _ => ?_) fun hnot => roundTrips_pure ?_
  · exact (writePLTIndex_roundTrips hcons hsize hn hruns h).mono fun _ cu'' hcu => by
      rw [hcu]
      exact h.setIdx rfl
  · by_cases hindex : cu.runType (posOf ctx cu n) = .PLT_RUN_INDEX
    · rw [if_pos hindex]
      have hflag : st.runCopyFlag (n - minSubPos) ≠ 0 := fun hzero => hnot ⟨hzero, hindex⟩
      cases n with
      | zero =>
        obtain rfl := Nat.le_zero.mp hmin
        exact absurd (hflags.first rfl) hflag
      | succ n =>
        rw [hflags.flag (n + 1) hmin hruns (Nat.succ_pos n)] at hflag
        have hident : CABACWriter.identityFlag ctx cu (n + 1) = true := by
          by_contra hfalse
          rw [Bool.not_eq_true] at hfalse
          rw [hfalse] at hflag
          exact hflag rfl
        rw [scanPrev_succ]
        refine h.setIdx ?_
        rw [show ctx.scan cu.useRotation n = posOf ctx cu n from rfl, h.curPLTIdx n (Nat.lt_succ_self n)]
        exact ((identity_spec hident).2 hindex).symm
    · rw [if_neg hindex]
      have hcopied : cu.runType (posOf ctx cu n) = .PLT_RUN_COPY := by
        cases hrunType : cu.runType (posOf ctx cu n) with
        | PLT_RUN_INDEX => exact absurd hrunType hindex
        | PLT_RUN_COPY => rfl
      refine h.setIdx ?_
      rw [h.above (hcopy n hruns hcopied)]
      exact (hcons.copied n hn hsize hcopied).symm

/-- A map with one index. -/
theorem singlePosition_same (hcons : Consistent ctx cu asserts) (hsize : ¬1 < cu.indexMaxSize) (hn : n < ctx.total)
    (hmin : minSubPos ≤ n) (h : SameMap ctx cu runs n sent cu') :
    SameMap ctx cu runs (n + 1) sent (CABACReader.singlePosition ctx minSubPos n
      { st with runCopyFlag := initRunCopyFlag minSubPos } cu') := by
  have hzero : ∀ m < ctx.total, cu.curPLTIdx (posOf ctx cu m) = 0 := fun m hm => by
    have hlt := hcons.index_lt m hm
    omega
  have hidx : (if initRunCopyFlag minSubPos (n - minSubPos) = 0 then 0
      else cu'.curPLTIdx (ctx.scanPrev cu'.useRotation n)) = cu.curPLTIdx (posOf ctx cu n) := by
    rw [hzero n hn]
    split_ifs with hflag
    · rfl
    · cases n with
      | zero =>
        obtain rfl := Nat.le_zero.mp hmin
        exact absurd rfl hflag
      | succ n => rw [scanPrev_succ, h.head.scan_eq, h.curPLTIdx n (Nat.lt_succ_self n), hzero n (by omega)]
  rw [CABACReader.singlePosition, h.head.scan_eq]
  have hset := h.setIdx hidx
  exact ⟨h.head.setMap _ _ _, fun hone => absurd hone hsize, hset.curPLTIdx, hset.escapeValue⟩

end Indices

/-! ## Groups -/

section Groups
variable {minSubPos maxSubPos : ℕ} {st : RunState}

/-- All that is known when the groups below position `n` are read. -/
structure Done (ctx : PaletteContext) (cu : PaletteCU) (n : ℕ) (sent : ComponentID → ℕ → Prop) (cu' : PaletteCU) :
    Prop extends SameMap ctx cu n n sent cu' where
  copyBelow : 1 < cu.indexMaxSize → CopyBelow ctx cu n

theorem runsAndIndices_roundTrips (hcons : Consistent ctx cu asserts) (hle : minSubPos ≤ maxSubPos)
    (hmax : maxSubPos ≤ ctx.total) (h : Done ctx cu minSubPos sent cu') :
    RoundTrips False
      (CABACWriter.runsAndIndices ctx cu minSubPos maxSubPos { st with runCopyFlag := initRunCopyFlag minSubPos })
      (CABACReader.runsAndIndices ctx asserts minSubPos maxSubPos
        { st with runCopyFlag := initRunCopyFlag minSubPos } cu')
      fun st' p => p.1 = st' ∧ Done ctx cu maxSubPos sent p.2 := by
  have hend : minSubPos + (maxSubPos - minSubPos) = maxSubPos := Nat.add_sub_cancel' hle
  rw [CABACWriter.runsAndIndices, CABACReader.runsAndIndices, h.head.indexMaxSize_eq]
  by_cases hsize : cu.indexMaxSize > 1
  · rw [if_pos hsize, if_pos hsize]
    refine roundTrips_bind (roundTrips_loop
      (P := fun i st' p => p.1 = st' ∧ FlagsSet ctx cu minSubPos (minSubPos + i) st' ∧
        CopyBelow ctx cu (minSubPos + i) ∧ SameMap ctx cu (minSubPos + i) minSubPos sent p.2)
      ⟨rfl, flagsSet_init ctx cu minSubPos st, h.copyBelow hsize, h.toSameMap⟩
      fun i _ st₁ p hp => ?_) fun st₁ p hp => ?_
    · obtain ⟨rfl, hflags, hcopy, hsame⟩ := hp
      exact runPosition_roundTrips hsize (Nat.le_add_right _ _) hflags hcopy hsame
    · obtain ⟨rfl, hflags, hcopy, hsame⟩ := hp
      rw [hend] at hflags hcopy hsame
      refine roundTrips_bind (Q := fun _ cu'' => SameMap ctx cu maxSubPos maxSubPos sent cu'') ?_ fun _ cu'' hcu =>
        roundTrips_pure ⟨rfl, hcu, fun _ => hcopy⟩
      refine (roundTrips_loop (P := fun i _ cu'' => SameMap ctx cu maxSubPos (minSubPos + i) sent cu'') hsame
        fun i hi _ cu'' hcu => ?_).mono fun _ cu'' hcu => by rwa [hend] at hcu
      exact indexPosition_roundTrips hcons hsize (by omega) (Nat.le_add_right _ _) (by omega) hflags hcopy hcu
  · rw [if_neg hsize, if_neg hsize]
    obtain ⟨cu'', hloop, hcu⟩ := loop_pure (m := BinGet) (n := maxSubPos - minSubPos)
      (f := fun i cu => CABACReader.singlePosition ctx minSubPos (minSubPos + i)
        { st with runCopyFlag := initRunCopyFlag minSubPos } cu)
      (P := fun i cu'' => SameMap ctx cu minSubPos (minSubPos + i) sent cu'') h.toSameMap
      fun i hi t ht => singlePosition_same hcons hsize (show minSubPos + i < ctx.total by omega)
        (Nat.le_add_right _ _) ht
    rw [hloop, pure_bind]
    rw [hend] at hcu
    exact roundTrips_pure ⟨rfl, ⟨hcu.head, fun hone => absurd hone hsize, hcu.curPLTIdx, hcu.escapeValue⟩,
      fun hone => absurd hone hsize⟩

/-! ### Escape values -/

variable {compID : ComponentID}

theorem SameMap.setEscape (h : SameMap ctx cu runs indices sent cu') {pos : ScanElement}
    {sent' : ComponentID → ℕ → Prop} (hsent : ∀ c m, sent' c m → sent c m ∨ c = compID ∧ ∀ p, Sent ctx cu c m p → p = pos) :
    SameMap ctx cu runs indices sent'
      { cu' with
        escapeValue := update cu'.escapeValue compID
          (update (cu'.escapeValue compID) pos (cu.escapeValue compID pos)) } := by
  refine ⟨h.head.setMap _ _ _, h.runType, h.curPLTIdx, fun c m hm p hp => ?_⟩
  change update cu'.escapeValue compID
    (update (cu'.escapeValue compID) pos (cu.escapeValue compID pos)) c p = _
  by_cases hc : c = compID
  · subst hc
    rw [update_self]
    by_cases hpos : p = pos
    · rw [hpos, update_self]
    · rw [update_of_ne hpos]
      rcases hsent c m hm with hold | ⟨_, hnew⟩
      · exact h.escapeValue c m hold p hp
      · exact absurd (hnew p hp) hpos
  · rw [update_of_ne hc]
    rcases hsent c m hm with hold | ⟨heq, _⟩
    · exact h.escapeValue c m hold p hp
    · exact absurd heq hc

theorem readEscape_roundTrips (hcons : Consistent ctx cu asserts) (hcomp : compID ∈ ctx.comps) (hn : n < ctx.total)
    {pos : ScanElement} (hpos : Sent ctx cu compID n pos) (cu' : PaletteCU) :
    RoundTrips False (CABACWriter.exp_golomb_eqprob (cu.escapeValue compID pos) 5)
      (CABACReader.readEscape ctx asserts compID pos cu')
      fun _ cu'' => cu'' =
        { cu' with
          escapeValue := update cu'.escapeValue compID
            (update (cu'.escapeValue compID) pos (cu.escapeValue compID pos)) } := by
  obtain ⟨hint, hassert⟩ := hcons.escapeValue_le compID hcomp n hn pos hpos
  have h32 : cu.escapeValue compID pos + 2 ^ 5 < 2 ^ 32 := by
    rw [Palette.MAX_INT] at hint
    omega
  refine (exp_golomb_eqprob_roundTrips h32).then_right fun _ v hv => ⟨_, ?_, rfl⟩
  rw [hv, check_ok _ fun hfail => hfail.2 (hassert hfail.1)]
  rfl

theorem escapePosition_roundTrips (hcons : Consistent ctx cu asserts) (hcomp : compID ∈ ctx.comps)
    (hn : n < ctx.total) (hindices : n < indices) (h : SameMap ctx cu runs indices sent cu') :
    RoundTrips False (CABACWriter.escapePosition ctx cu compID n)
      (CABACReader.escapePosition ctx asserts compID n cu')
      fun _ cu'' => SameMap ctx cu runs indices (fun c m => sent c m ∨ c = compID ∧ m = n) cu'' := by
  rw [CABACWriter.escapePosition, CABACReader.escapePosition, h.head.scan_eq, h.curPLTIdx n hindices, h.head.curPLTSize]
  refine roundTrips_ite Iff.rfl (fun hescape => ?_) fun hnot => roundTrips_pure ?_
  · refine roundTrips_bind (Q := fun _ cu'' => SameMap ctx cu runs indices
      (fun c m => sent c m ∨ (c = compID ∧ m = n) ∧ (compID = .Y ∨ ctx.compBegin ≠ .Y)) cu'') ?_
      fun _ cu'' hcu => ?_
    · refine roundTrips_ite Iff.rfl (fun hluma => ?_) fun hnot => roundTrips_pure ?_
      · refine (readEscape_roundTrips hcons hcomp hn ⟨hescape, .inl ⟨hluma, rfl⟩⟩ cu').mono fun _ cu'' hcu => ?_
        rw [hcu]
        refine h.setEscape fun c m hm => hm.imp_right ?_
        rintro ⟨⟨rfl, rfl⟩, _⟩
        refine ⟨rfl, fun p hp => hp.2.elim And.right fun hchroma => ?_⟩
        exact absurd hluma (not_or.mpr ⟨hchroma.1.2.1, not_not.mpr hchroma.1.1⟩)
      · exact ⟨h.head, h.runType, h.curPLTIdx, fun c m hm => h.escapeValue c m (hm.resolve_right fun hn => hnot hn.2)⟩
    · refine roundTrips_ite Iff.rfl (fun hchroma => ?_) fun hnot => roundTrips_pure ?_
      · refine (readEscape_roundTrips hcons hcomp hn ⟨hescape, .inr ⟨hchroma, rfl⟩⟩ cu'').mono fun _ cu''' hcu' => ?_
        rw [hcu']
        refine hcu.setEscape fun c m hm => hm.imp .inl ?_
        rintro ⟨rfl, rfl⟩
        refine ⟨rfl, fun p hp => hp.2.elim (fun hluma => ?_) And.right⟩
        exact absurd hluma.1 (not_or.mpr ⟨hchroma.2.1, not_not.mpr hchroma.1⟩)
      · refine ⟨hcu.head, hcu.runType, hcu.curPLTIdx, fun c m hm p hp => ?_⟩
        rcases hm with hold | ⟨rfl, rfl⟩
        · exact hcu.escapeValue c m (.inl hold) p hp
        · rcases hp.2 with hluma | hchroma
          · exact hcu.escapeValue c m (.inr ⟨⟨rfl, rfl⟩, hluma.1⟩) p hp
          · exact absurd hchroma.1 hnot
  · refine ⟨h.head, h.runType, h.curPLTIdx, fun c m hm p hp => ?_⟩
    rcases hm with hold | ⟨rfl, rfl⟩
    · exact h.escapeValue c m hold p hp
    · exact absurd hp.1 hnot

/-- The escape values below position `n`, and those of `done` below `m`. -/
def escapesSent (ctx : PaletteContext) (n m : ℕ) (done : List ComponentID) : ComponentID → ℕ → Prop :=
  fun c k => c ∈ ctx.comps ∧ k < n ∨ c ∈ done ∧ k < m

theorem escapes_roundTrips (hcons : Consistent ctx cu asserts) (hle : minSubPos ≤ maxSubPos)
    (hmax : maxSubPos ≤ ctx.total)
    (h : SameMap ctx cu maxSubPos maxSubPos (escapesSent ctx minSubPos maxSubPos []) cu') :
    RoundTrips False
      (ctx.comps.forM fun compID => forRange minSubPos maxSubPos fun curPos =>
        CABACWriter.escapePosition ctx cu compID curPos)
      (ctx.comps.foldlM (fun cu compID => loop (fun i cu =>
        CABACReader.escapePosition ctx asserts compID (minSubPos + i) cu) (maxSubPos - minSubPos) cu) cu')
      fun _ cu'' => SameMap ctx cu maxSubPos maxSubPos (escapesSent ctx minSubPos maxSubPos ctx.comps) cu'' := by
  have hend : minSubPos + (maxSubPos - minSubPos) = maxSubPos := Nat.add_sub_cancel' hle
  refine roundTrips_foldlM (P := fun d cu'' =>
    SameMap ctx cu maxSubPos maxSubPos (escapesSent ctx minSubPos maxSubPos d) cu'') h fun d compID cu'' hd hcu => ?_
  obtain ⟨left, hleft⟩ := hd
  have hcomp : compID ∈ ctx.comps := by
    rw [hleft]
    exact List.mem_append_right _ List.mem_cons_self
  refine (roundTrips_loop (P := fun i _ cu''' => SameMap ctx cu maxSubPos maxSubPos (fun c m =>
    escapesSent ctx minSubPos maxSubPos d c m ∨ c = compID ∧ m < minSubPos + i) cu''') ?_
    fun i hi _ cu''' hcu' => ?_).mono fun _ cu''' hcu' => ?_
  · refine ⟨hcu.head, hcu.runType, hcu.curPLTIdx, fun c m hm => hcu.escapeValue c m (hm.elim id ?_)⟩
    rintro ⟨rfl, hlt⟩
    exact .inl ⟨hcomp, hlt⟩
  · refine (escapePosition_roundTrips hcons hcomp (show minSubPos + i < ctx.total by omega)
      (show minSubPos + i < maxSubPos by omega) hcu').mono fun _ cu₄ hcu₄ => ?_
    refine ⟨hcu₄.head, hcu₄.runType, hcu₄.curPLTIdx, fun c m hm => hcu₄.escapeValue c m ?_⟩
    rcases hm with hold | ⟨rfl, hm⟩
    · exact .inl (.inl hold)
    · rcases Nat.lt_or_eq_of_le (Nat.le_of_lt_succ hm) with hlt | heq
      · exact .inl (.inr ⟨rfl, hlt⟩)
      · exact .inr ⟨rfl, heq⟩
  · refine ⟨hcu'.head, hcu'.runType, hcu'.curPLTIdx, fun c m hm => hcu'.escapeValue c m ?_⟩
    rw [hend]
    rcases hm with hold | ⟨hmem, hm⟩
    · exact .inl (.inl hold)
    · rcases List.mem_append.mp hmem with hmem | hmem
      · exact .inl (.inr ⟨hmem, hm⟩)
      · exact .inr ⟨List.mem_singleton.mp hmem, hm⟩

/-- The positions of the groups below `subSetId`. -/
def groupsEnd (ctx : PaletteContext) (subSetId : ℕ) : ℕ := min (subSetId <<< LOG2_PALETTE_CG_SIZE) ctx.total

theorem group_roundTrips (hcons : Consistent ctx cu asserts) {subSetId : ℕ}
    (hgroup : subSetId ≤ (ctx.total - 1) >>> LOG2_PALETTE_CG_SIZE)
    (h : Done ctx cu (groupsEnd ctx subSetId) (escapesSent ctx (groupsEnd ctx subSetId) 0 []) cu') :
    RoundTrips False (CABACWriter.cuPaletteSubblockInfo ctx cu subSetId st)
      (CABACReader.cuPaletteSubblockInfo ctx asserts subSetId (st, cu'))
      fun st' p => p.1 = st' ∧ Done ctx cu (groupsEnd ctx (subSetId + 1))
        (escapesSent ctx (groupsEnd ctx (subSetId + 1)) 0 []) p.2 := by
  have htotal : 0 < ctx.total := Nat.mul_pos ctx.height_pos ctx.width_pos
  have hmin : groupsEnd ctx subSetId = subSetId <<< LOG2_PALETTE_CG_SIZE := by
    rw [LOG2_PALETTE_CG_SIZE, Nat.shiftRight_eq_div_pow] at hgroup
    rw [groupsEnd, LOG2_PALETTE_CG_SIZE, Nat.shiftLeft_eq]
    omega
  have hmax : groupsEnd ctx (subSetId + 1) =
      min (subSetId <<< LOG2_PALETTE_CG_SIZE + (1 <<< LOG2_PALETTE_CG_SIZE)) ctx.total := by
    rw [groupsEnd, LOG2_PALETTE_CG_SIZE, Nat.shiftLeft_eq, Nat.shiftLeft_eq, Nat.shiftLeft_eq]
    omega
  have hle : groupsEnd ctx subSetId ≤ groupsEnd ctx (subSetId + 1) := by
    rw [hmax, ← hmin]
    exact Nat.le_min.mpr ⟨Nat.le_add_right _ _, Nat.min_le_right _ _⟩
  have htop : groupsEnd ctx (subSetId + 1) ≤ ctx.total := Nat.min_le_right _ _
  rw [CABACWriter.cuPaletteSubblockInfo, CABACReader.cuPaletteSubblockInfo]
  dsimp only
  rw [← hmax, ← hmin]
  refine roundTrips_bind (runsAndIndices_roundTrips hcons hle htop h) fun st' p hp => ?_
  obtain ⟨rfl, hdone⟩ := hp
  obtain ⟨st', cu''⟩ := p
  dsimp only at hdone ⊢
  have hsent : SameMap ctx cu (groupsEnd ctx (subSetId + 1)) (groupsEnd ctx (subSetId + 1))
      (escapesSent ctx (groupsEnd ctx subSetId) (groupsEnd ctx (subSetId + 1)) []) cu'' :=
    ⟨hdone.head, hdone.runType, hdone.curPLTIdx, fun c m hm => hdone.escapeValue c m
      (.inl (hm.resolve_right fun hnone => List.not_mem_nil hnone.1))⟩
  refine roundTrips_bind (escapes_roundTrips hcons hle htop hsent) fun _ cu''' hcu => roundTrips_pure ⟨rfl, ?_⟩
  refine ⟨⟨hcu.head, hcu.runType, hcu.curPLTIdx, fun c m hm => hcu.escapeValue c m ?_⟩, hdone.copyBelow⟩
  exact .inr (hm.resolve_right fun hnone => List.not_mem_nil hnone.1)

/-- The whole map. -/
theorem indexMap_roundTrips (hcons : Consistent ctx cu asserts) (h : SameHead ctx cu cu') (st : RunState) :
    RoundTrips False
      (loop (CABACWriter.cuPaletteSubblockInfo ctx cu) (((ctx.total - 1) >>> LOG2_PALETTE_CG_SIZE) + 1) st)
      (loop (CABACReader.cuPaletteSubblockInfo ctx asserts) (((ctx.total - 1) >>> LOG2_PALETTE_CG_SIZE) + 1) (st, cu'))
      fun _ p => Done ctx cu ctx.total (escapesSent ctx ctx.total 0 []) p.2 := by
  have hend : groupsEnd ctx (((ctx.total - 1) >>> LOG2_PALETTE_CG_SIZE) + 1) = ctx.total := by
    rw [groupsEnd, LOG2_PALETTE_CG_SIZE, Nat.shiftRight_eq_div_pow, Nat.shiftLeft_eq]
    omega
  refine (roundTrips_loop (P := fun i st' p => p.1 = st' ∧ Done ctx cu (groupsEnd ctx i)
    (escapesSent ctx (groupsEnd ctx i) 0 []) p.2) ⟨rfl, ?_⟩ fun i hi st' p hp => ?_).mono fun _ p hp => ?_
  · have hstart : groupsEnd ctx 0 = 0 := by
      rw [groupsEnd, Nat.zero_shiftLeft, Nat.zero_min]
    rw [hstart]
    refine ⟨⟨h, fun _ m hm => absurd hm (Nat.not_lt_zero m), fun m hm => absurd hm (Nat.not_lt_zero m),
      fun c m hm => ?_⟩, fun _ m hm => absurd hm (Nat.not_lt_zero m)⟩
    rcases hm with ⟨_, hm⟩ | ⟨_, hm⟩
    · exact absurd hm (Nat.not_lt_zero m)
    · exact absurd hm (Nat.not_lt_zero m)
  · obtain ⟨rfl, hdone⟩ := hp
    exact group_roundTrips hcons (Nat.le_of_lt_succ hi) hdone
  · rw [hend] at hp
    exact hp.2

end Groups

end ECM.Palette
