import ECM.Palette.Bounds
import ECM.Palette.Predictor
import Mathlib.Data.Finset.Card
import Mathlib.Data.Finset.Dedup

/-! # Runs and entries without limit

When a palette leaves its arrays: the runs of reuse flags have to stay in the predictor, and the new
entries have to have a place in the palette, or the bins have to end before the first one without. -/

namespace ECM.Palette.Overruns
open CommonLib CommonLib.Bins CommonLib.Palette DecoderLib DecoderLib.PaletteAccess
open Lib.Codec Lib.Guarded Lib.Loop ECM.Palette.Bounds

variable {ctx : PaletteContext} {last : ℕ}

/-! ## What the bins ask for -/

/-- The entry `p` that a run ends at, and what comes behind it if there is such an entry. -/
def runTo (last p : ℕ) (behind : List ℕ × Option (List Bin)) : List ℕ × Option (List Bin) :=
  if p < last then (p :: behind.1, behind.2) else ([p], none)

/-- The entries that the runs from `idx` on end at, as far as they are read, and the bins behind them,
unless there are none. -/
def reuseRuns (last : ℕ) : (rounds idx : ℕ) → List Bin → List ℕ × Option (List Bin)
  | 0, _, bins => ([], some bins)
  | rounds + 1, idx, bins =>
    if idx < last then
      match CABACReader.exp_golomb_eqprob 0 bins with
      | .error _ => ([], none)
      | .ok (symbol, rest) =>
        if symbol = 1 then ([], some rest)
        else
          let p := if symbol ≠ 0 then u32 (idx + (symbol - 1)) else idx
          runTo last p (reuseRuns last rounds (p + 1) rest)
    else ([], some bins)

/-- The number of bypass bins that come first. -/
def bypassBins : List Bin → ℕ
  | .ep _ :: bins => bypassBins bins + 1
  | _ => 0

/-- The runs of reuse flags that a unit begins with. -/
def unitRuns (ctx : PaletteContext) (bins : List Bin) : List ℕ × Option (List Bin) :=
  reuseRuns ctx.prevPLTSize ctx.maxPltSize 0 bins

/-- The number of entries that the runs end at. -/
def reusedBy (ctx : PaletteContext) (bins : List Bin) : ℕ := (unitRuns ctx bins).1.toFinset.card

/-- Behind the number of new entries, `size` entries have their places in the palette, or the bins of the
first component end before the first entry that has none. -/
def EntriesFit (ctx : PaletteContext) (reused size : ℕ) (rest : List Bin) : Prop :=
  ∀ compID, ctx.comps.head? = some compID → size ≤ ctx.maxPltSize ∨
    bypassBins rest < (ctx.maxPltSize + 1 - reused) * ctx.bitDepths compID.toChannelType

structure PaletteFits (ctx : PaletteContext) (bins : List Bin) : Prop where
  runs : ∀ p ∈ (unitRuns ctx bins).1, p < ctx.prevPLTSize
  entries : ∀ rest, (unitRuns ctx bins).2 = some rest → reusedBy ctx bins < ctx.maxPltSize →
    ∀ num rest', CABACReader.exp_golomb_eqprob 0 rest = .ok (num, rest') →
      EntriesFit ctx (reusedBy ctx bins) ((reusedBy ctx bins + num) % 2 ^ 8) rest'

/-! ## Runs -/

/-- What reading the flags gives, by the runs. -/
def ReuseOutcome (last : ℕ) (reuseflag : ℕ → Bool) (runs : List ℕ × Option (List Bin))
    (out : Except String ((ℕ → Bool) × List Bin)) : Prop :=
  (∃ p ∈ runs.1, last ≤ p) ∧ out = .error outside ∨ (∀ p ∈ runs.1, p < last) ∧
    match runs.2 with
    | none => ∃ e, e ≠ outside ∧ out = .error e
    | some rest => out = .ok (fun i => reuseflag i || decide (i ∈ runs.1), rest)

theorem outcome_runTo {reuseflag : ℕ → Bool} {p : ℕ} {behind : List ℕ × Option (List Bin)} {rest : List Bin}
    {next : BinGet (ℕ → Bool)}
    (h : p < last → ReuseOutcome last (Function.update reuseflag p true) behind (next rest)) :
    ReuseOutcome last reuseflag (runTo last p behind) ((access (p < last) >>= fun _ => next) rest) := by
  rw [runTo, access, bind_apply, allowed]
  by_cases hp : p < last
  · rw [if_pos hp, if_pos hp]
    rcases h hp with ⟨⟨q, hq, hle⟩, hout⟩ | ⟨hall, hout⟩
    · exact .inl ⟨⟨q, List.mem_cons_of_mem p hq, hle⟩, hout⟩
    · refine .inr ⟨List.forall_mem_cons.mpr ⟨hp, hall⟩, ?_⟩
      dsimp only
      cases hbehind : behind.2 with
      | none =>
        rw [hbehind] at hout
        exact hout
      | some rest' =>
        rw [hbehind] at hout
        refine Eq.trans hout (congrArg (fun f => Except.ok (f, rest')) (funext fun i => ?_))
        by_cases hi : i = p
        · simp [hi]
        · simp [hi]
  · rw [if_neg hp, if_neg hp]
    exact .inl ⟨⟨p, List.mem_singleton_self p, Nat.le_of_not_lt hp⟩, rfl⟩

theorem exp_golomb_ne_outside {bins : List Bin} {e : String} (h : CABACReader.exp_golomb_eqprob 0 bins = .error e) :
    e ≠ outside :=
  fun he => (avoids_exp_golomb 0).ne_error bins (he ▸ h)

theorem none_passed : ∀ p ∈ ([] : List ℕ), p < last := fun _ hp => absurd hp List.not_mem_nil

theorem outcome_unread {reuseflag : ℕ → Bool} (rest : List Bin) :
    ReuseOutcome last reuseflag ([], some rest) (.ok (reuseflag, rest)) := by
  refine .inr ⟨none_passed, congrArg (fun f => Except.ok (f, rest)) (funext fun i => ?_)⟩
  simp

/-- From an entry that is not the first on: with `rounds` entries left to reuse, one round more than these. -/
theorem predFlags_outcome {maxPLTSize : ℕ} (hlast : last < 2 ^ 32) (rounds idx : ℕ) {count symbol : ℕ}
    {reuseflag : ℕ → Bool} {bins : List Bin} (hcount : count + rounds = maxPLTSize) (hidx : 0 < idx) :
    ReuseOutcome last reuseflag (reuseRuns last rounds idx bins)
      (predFlags last maxPLTSize (rounds + 1) idx count symbol reuseflag bins) := by
  induction rounds generalizing idx count symbol reuseflag bins with
  | zero =>
    rw [predFlags, if_neg (by omega), reuseRuns]
    exact outcome_unread bins
  | succ rounds ih =>
    rw [predFlags, reuseRuns]
    by_cases hmore : idx < last
    · rw [if_pos hmore, if_pos ⟨hmore, by omega⟩, if_pos hidx, bind_apply]
      cases hread : CABACReader.exp_golomb_eqprob 0 bins with
      | error e => exact .inr ⟨none_passed, e, exp_golomb_ne_outside hread, rfl⟩
      | ok p =>
        obtain ⟨symbol, rest⟩ := p
        rw [ok_bind]
        dsimp only
        by_cases hone : symbol = 1
        · rw [if_pos hone, if_pos hone]
          exact outcome_unread rest
        · rw [if_neg hone, if_neg hone]
          refine outcome_runTo fun hp => ?_
          rw [u32_of_lt (Nat.lt_of_le_of_lt hp hlast)]
          exact ih _ (by omega) (Nat.succ_pos _)
    · rw [if_neg hmore, if_neg fun h => hmore h.1]
      exact outcome_unread bins

theorem predIndicator_outcome {maxPLTSize : ℕ} {reuseflag : ℕ → Bool} (hmax : 0 < maxPLTSize) (hpos : 0 < last)
    (hlast : last < 2 ^ 32) (bins : List Bin) :
    ReuseOutcome last reuseflag (reuseRuns last maxPLTSize 0 bins)
      (xDecodePLTPredIndicator last maxPLTSize reuseflag bins) := by
  obtain ⟨rounds, rfl⟩ := Nat.exists_eq_succ_of_ne_zero (Nat.ne_of_gt hmax)
  rw [xDecodePLTPredIndicator, reuseRuns, if_pos hpos, bind_apply]
  cases hread : CABACReader.exp_golomb_eqprob 0 bins with
  | error e => exact .inr ⟨none_passed, e, exp_golomb_ne_outside hread, rfl⟩
  | ok p =>
    obtain ⟨symbol, rest⟩ := p
    rw [ok_bind]
    dsimp only
    by_cases hone : symbol = 1
    · rw [if_pos hone, if_neg (not_not.mpr hone)]
      exact outcome_unread rest
    · rw [if_neg hone, if_pos hone, predFlags, if_pos (show 0 < last ∧ 0 < rounds.succ from ⟨hpos, hmax⟩),
        if_neg (Nat.lt_irrefl 0), pure_bind, if_neg hone]
      refine outcome_runTo fun hp => ?_
      rw [u32_of_lt (Nat.lt_of_le_of_lt hp hlast)]
      exact predFlags_outcome hlast rounds _ (Nat.add_comm _ _) (Nat.succ_pos _)

theorem length_reuseRuns_le (rounds idx : ℕ) (bins : List Bin) (h : ∀ p ∈ (reuseRuns last rounds idx bins).1, p < last) :
    (reuseRuns last rounds idx bins).1.length ≤ rounds := by
  induction rounds generalizing idx bins with
  | zero => exact Nat.le_refl 0
  | succ rounds ih =>
    rw [reuseRuns] at h ⊢
    split_ifs at h ⊢ with hidx
    · cases hread : CABACReader.exp_golomb_eqprob 0 bins with
      | error e => exact Nat.zero_le _
      | ok p =>
        obtain ⟨symbol, rest⟩ := p
        rw [hread] at h
        dsimp only at h ⊢
        by_cases hone : symbol = 1
        · rw [if_pos hone]
          exact Nat.zero_le _
        · rw [if_neg hone] at h ⊢
          generalize (if symbol ≠ 0 then u32 (idx + (symbol - 1)) else idx) = p at h ⊢
          rw [runTo] at h ⊢
          split_ifs at h ⊢ with hp
          · exact Nat.succ_le_succ (ih _ _ fun q hq => h q (List.mem_cons_of_mem _ hq))
          · exact absurd (h _ (List.mem_singleton_self _)) hp
    · exact Nat.zero_le _

/-! ## Entries -/

theorem bypassBins_drop {n : ℕ} {bins : List Bin} (h : n ≤ bypassBins bins) :
    bypassBins (bins.drop n) = bypassBins bins - n := by
  induction n generalizing bins with
  | zero => rfl
  | succ n ih =>
    match bins with
    | .ep b :: bins =>
      rw [bypassBins] at h ⊢
      rw [List.drop_succ_cons, ih (Nat.le_of_succ_le_succ h), Nat.succ_sub_succ]
    | [] => exact absurd h (Nat.not_succ_le_zero n)
    | .ctx _ _ :: _ => exact absurd h (Nat.not_succ_le_zero n)

theorem decodeBypass_of_le {n : ℕ} {bins : List Bin} (h : n ≤ bypassBins bins) :
    ∃ bs, decodeBypass n bins = .ok (bs, bins.drop n) := by
  induction n generalizing bins with
  | zero => exact ⟨[], rfl⟩
  | succ n ih =>
    match bins with
    | .ep b :: bins =>
      obtain ⟨bs, hbs⟩ := ih (Nat.le_of_succ_le_succ h)
      refine ⟨b :: bs, ?_⟩
      change (decodeBypass n bins >>= fun p => .ok (b :: p.1, p.2)) = _
      rw [hbs]
      rfl
    | [] => exact absurd h (Nat.not_succ_le_zero n)
    | .ctx _ _ :: _ => exact absurd h (Nat.not_succ_le_zero n)

theorem decodeBypass_of_gt {n : ℕ} {bins : List Bin} (h : bypassBins bins < n) :
    decodeBypass n bins = .error "no bypass bin" := by
  induction n generalizing bins with
  | zero => exact absurd h (Nat.not_lt_zero _)
  | succ n ih =>
    match bins with
    | .ep b :: bins =>
      change (decodeBypass n bins >>= fun p => .ok (b :: p.1, p.2)) = _
      rw [ih (Nat.lt_of_succ_lt_succ h)]
      rfl
    | [] => rfl
    | .ctx _ _ :: _ => rfl

variable {compID : ComponentID} {curPLTidx : ℕ} {curPLT : ComponentID → ℕ → ℕ} {bins : List Bin}

/-- One new entry of a component. -/
def newEntry (ctx : PaletteContext) (compID : ComponentID) (curPLTidx i : ℕ) (curPLT : ComponentID → ℕ → ℕ) :
    BinGet (ComponentID → ℕ → ℕ) := do
  let entry ← decodeBinsEP (ctx.bitDepths compID.toChannelType)
  access (curPLTidx + i < ctx.maxPltSize)
  return Function.update curPLT compID (Function.update (curPLT compID) (curPLTidx + i) entry)

theorem newEntry_of_gt {i : ℕ} (h : bypassBins bins < ctx.bitDepths compID.toChannelType) :
    newEntry ctx compID curPLTidx i curPLT bins = .error "no bypass bin" := by
  rw [newEntry, bind_apply, decodeBinsEP, bind_apply, decodeBypass_of_gt h]
  rfl

/-- A new entry whose bins are there. -/
theorem newEntry_of_le (i : ℕ) (curPLT : ComponentID → ℕ → ℕ) (h : ctx.bitDepths compID.toChannelType ≤ bypassBins bins) :
    ∃ entry, newEntry ctx compID curPLTidx i curPLT bins = (access (curPLTidx + i < ctx.maxPltSize) >>= fun _ =>
      pure (Function.update curPLT compID (Function.update (curPLT compID) (curPLTidx + i) entry)))
      (bins.drop (ctx.bitDepths compID.toChannelType)) := by
  obtain ⟨bs, hbs⟩ := decodeBypass_of_le h
  refine ⟨Lib.Bits.ofBits bs, ?_⟩
  rw [newEntry, bind_apply, decodeBinsEP, bind_apply, hbs]
  rfl

theorem newEntry_inside {i : ℕ} (curPLT : ComponentID → ℕ → ℕ)
    (h : ctx.bitDepths compID.toChannelType ≤ bypassBins bins) (hin : curPLTidx + i < ctx.maxPltSize) :
    ∃ curPLT', newEntry ctx compID curPLTidx i curPLT bins =
      .ok (curPLT', bins.drop (ctx.bitDepths compID.toChannelType)) := by
  obtain ⟨entry, hentry⟩ := @newEntry_of_le ctx compID curPLTidx bins i curPLT h
  refine ⟨Function.update curPLT compID (Function.update (curPLT compID) (curPLTidx + i) entry), ?_⟩
  rw [hentry, bind_apply, access, allowed, if_pos hin]
  rfl

theorem newEntry_outside {i : ℕ} (h : ctx.bitDepths compID.toChannelType ≤ bypassBins bins)
    (hout : ctx.maxPltSize ≤ curPLTidx + i) : newEntry ctx compID curPLTidx i curPLT bins = .error outside := by
  obtain ⟨entry, hentry⟩ := @newEntry_of_le ctx compID curPLTidx bins i curPLT h
  rw [hentry, bind_apply, access, allowed, if_neg (Nat.not_lt.mpr hout)]
  rfl

/-- As many entries as have places in the palette. -/
theorem entries_of_le {m : ℕ} (curPLT : ComponentID → ℕ → ℕ) (hroom : curPLTidx + m ≤ ctx.maxPltSize)
    (h : m * ctx.bitDepths compID.toChannelType ≤ bypassBins bins) :
    ∃ curPLT', loop (newEntry ctx compID curPLTidx) m curPLT bins =
      .ok (curPLT', bins.drop (m * ctx.bitDepths compID.toChannelType)) := by
  induction m with
  | zero => exact ⟨curPLT, by rw [Nat.zero_mul]; rfl⟩
  | succ m ih =>
    rw [Nat.succ_mul] at h
    obtain ⟨curPLT', hloop⟩ := ih (by omega) (by omega)
    have hleft := bypassBins_drop (Nat.le_of_add_right_le h)
    obtain ⟨curPLT'', hentry⟩ := @newEntry_inside ctx compID curPLTidx _ m curPLT'
      (by rw [hleft]; omega) (show curPLTidx + m < ctx.maxPltSize by omega)
    refine ⟨curPLT'', ?_⟩
    rw [loop, bind_apply, hloop, ok_bind, hentry, List.drop_drop, Nat.succ_mul]

theorem entries_of_gt {m : ℕ} (curPLT : ComponentID → ℕ → ℕ) (hroom : curPLTidx + m ≤ ctx.maxPltSize + 1)
    (h : bypassBins bins < m * ctx.bitDepths compID.toChannelType) :
    loop (newEntry ctx compID curPLTidx) m curPLT bins = .error "no bypass bin" := by
  induction m with
  | zero => exact absurd h (by omega)
  | succ m ih =>
    rw [loop, bind_apply]
    by_cases hm : bypassBins bins < m * ctx.bitDepths compID.toChannelType
    · rw [ih (by omega) hm]
      rfl
    · rw [Nat.succ_mul] at h
      obtain ⟨curPLT', hloop⟩ := entries_of_le curPLT (show curPLTidx + m ≤ ctx.maxPltSize by omega)
        (Nat.le_of_not_lt hm)
      rw [hloop, ok_bind, newEntry_of_gt (by rw [bypassBins_drop (Nat.le_of_not_lt hm)]; omega)]

theorem entries_outside {m : ℕ} (curPLT : ComponentID → ℕ → ℕ) (hroom : curPLTidx + m = ctx.maxPltSize)
    (h : (m + 1) * ctx.bitDepths compID.toChannelType ≤ bypassBins bins) :
    loop (newEntry ctx compID curPLTidx) (m + 1) curPLT bins = .error outside := by
  rw [Nat.succ_mul] at h
  obtain ⟨curPLT', hloop⟩ := entries_of_le curPLT (Nat.le_of_eq hroom) (Nat.le_of_add_right_le h)
  have hleft := bypassBins_drop (Nat.le_of_add_right_le h)
  rw [loop, bind_apply, hloop, ok_bind, newEntry_outside (by rw [hleft]; omega) (Nat.le_of_eq hroom.symm)]

theorem newEntries_outside_iff {curPLTSize : ℕ} (hroom : curPLTidx ≤ ctx.maxPltSize) :
    newEntries ctx curPLTidx curPLTSize curPLT bins = .error outside ↔
      ¬EntriesFit ctx curPLTidx curPLTSize bins := by
  change (ctx.comps.foldlM (fun curPLT compID =>
    loop (newEntry ctx compID curPLTidx) (curPLTSize - curPLTidx) curPLT) curPLT) bins = _ ↔ _
  rcases Nat.lt_or_ge ctx.maxPltSize curPLTSize with hmany | hfit
  · rw [EntriesFit]
    cases ctx.comps with
    | nil => exact iff_of_false nofun (not_not.mpr nofun)
    | cons compID comps =>
      obtain ⟨m, hm⟩ := Nat.exists_eq_add_of_le hroom
      have hplaces : ctx.maxPltSize + 1 - curPLTidx = m + 1 := by omega
      rw [List.foldlM_cons, bind_apply, hplaces]
      rcases Nat.lt_or_ge (bypassBins bins) ((m + 1) * ctx.bitDepths compID.toChannelType) with hends | hmore
      · have herror := loop_eq_error (n := curPLTSize - curPLTidx)
          (entries_of_gt curPLT (show curPLTidx + (m + 1) ≤ ctx.maxPltSize + 1 by omega) hends) (by omega)
        rw [herror]
        refine iff_of_false (fun h => absurd (Except.error.inj h) (by decide)) (not_not.mpr ?_)
        rintro _ ⟨⟩
        exact .inr hends
      · have herror := loop_eq_error (n := curPLTSize - curPLTidx)
          (entries_outside curPLT hm.symm hmore) (by omega)
        rw [herror]
        refine iff_of_true rfl fun hall => ?_
        rcases hall compID rfl with hle | hlt
        · exact absurd hle (Nat.not_le.mpr hmany)
        · exact absurd hlt (Nat.not_lt.mpr hmore)
  · refine iff_of_false ?_ (not_not.mpr fun _ _ => .inl hfit)
    refine (avoids_foldlM (P := fun _ => True) trivial fun compID _ b _ => ?_).ne_error bins
    refine avoids_loop (P := fun _ _ => True) trivial fun i hi a _ => avoids_bind (avoids_decodeBinsEP _) fun _ _ => ?_
    exact avoids_bind (avoids_allowed (by omega)) fun _ _ => avoids_pure trivial

/-! ## Reused entries -/

theorem numReused_eq_card (f : ℕ → Bool) (n : ℕ) :
    numReused f n = ((Finset.range n).filter fun i => f i = true).card := by
  induction n with
  | zero => rfl
  | succ n ih =>
    rw [numReused, ih, Finset.range_add_one, Finset.filter_insert]
    cases hf : f n with
    | false => rw [if_neg (by decide), Bool.toNat_false, Nat.add_zero]
    | true =>
      rw [if_pos rfl, Finset.card_insert_of_notMem, Bool.toNat_true]
      exact fun hmem => Finset.notMem_range_self (Finset.mem_of_mem_filter n hmem)

theorem numReused_mem {ps : List ℕ} (h : ∀ p ∈ ps, p < last) :
    numReused (fun i => decide (i ∈ ps)) last = ps.toFinset.card := by
  rw [numReused_eq_card]
  congr 1
  ext i
  rw [Finset.mem_filter, Finset.mem_range, List.mem_toFinset, decide_eq_true_iff]
  exact ⟨fun hi => hi.2, fun hi => ⟨h i hi, hi⟩⟩

/-- There is a place for each reused entry. -/
theorem reuseAccess_ok {reuseflag : ℕ → Bool} (h : numReused reuseflag last ≤ ctx.maxPltSize) (rest : List Bin) :
    reuseAccess ctx reuseflag last rest = .ok ((), rest) := by
  rw [reuseAccess, access, allowed]
  refine if_pos fun idx hidx hset _ _ => ?_
  have hnext := numReused_mono (f := reuseflag) (Nat.succ_le_of_lt hidx)
  rw [numReused, hset, Bool.toNat_true] at hnext
  omega

/-! ## The palette -/

variable {cu : PaletteCU}

/-- The flags of a unit. -/
def unitFlags (ctx : PaletteContext) (cu : PaletteCU) : BinGet (ℕ → Bool) :=
  if ctx.prevPLTSize ≠ 0 then xDecodePLTPredIndicator ctx.prevPLTSize ctx.maxPltSize cu.reuseflag
  else pure cu.reuseflag

/-- The entries of a unit, behind the flags. -/
def unitEntries (ctx : PaletteContext) (cu : PaletteCU) (reuseflag : ℕ → Bool) : BinGet PaletteCU := do
  let curPLTidx := numReused reuseflag ctx.prevPLTSize
  reuseAccess ctx reuseflag ctx.prevPLTSize
  let curPLT := fun compID => if compID ∈ ctx.comps then
      CABACReader.reuseEntries reuseflag (ctx.prevPLT compID) (cu.curPLT compID) ctx.prevPLTSize
    else cu.curPLT compID
  let recievedPLTnum ← (if curPLTidx < ctx.maxPltSize then CABACReader.exp_golomb_eqprob 0 else pure 0 : BinGet ℕ)
  let curPLTSize := (curPLTidx + recievedPLTnum) % 2 ^ 8
  let curPLT ← newEntries ctx curPLTidx curPLTSize curPLT
  return { cu with lastPLTSize := ctx.prevPLTSize, reuseflag, curPLTSize, curPLT }

theorem parsePalette_eq : parsePalette ctx cu = unitFlags ctx cu >>= unitEntries ctx cu := rfl

theorem maxPltSize_bounds (ctx : PaletteContext) : 0 < ctx.maxPltSize ∧ ctx.maxPltSize < 2 ^ 8 := by
  rw [PaletteContext.maxPltSize]
  split_ifs
  · decide
  · decide

theorem unitFlags_outcome (hflags : ∀ k, cu.reuseflag k = false) (bins : List Bin) :
    ReuseOutcome ctx.prevPLTSize (fun _ => false) (unitRuns ctx bins) (unitFlags ctx cu bins) := by
  have hnone : cu.reuseflag = fun _ => false := funext hflags
  have hsmall : ctx.prevPLTSize < 2 ^ 32 := Nat.lt_of_le_of_lt ctx.prevPLTSize_le (by decide)
  rw [unitFlags, unitRuns, ← hnone]
  by_cases hempty : ctx.prevPLTSize = 0
  · obtain ⟨rounds, hrounds⟩ := Nat.exists_eq_succ_of_ne_zero (Nat.ne_of_gt (maxPltSize_bounds ctx).1)
    rw [if_neg (not_not.mpr hempty), hrounds, reuseRuns, if_neg (by omega)]
    exact outcome_unread bins
  · rw [if_pos hempty]
    exact predIndicator_outcome (maxPltSize_bounds ctx).1 (Nat.pos_of_ne_zero hempty) hsmall bins

theorem reusedBy_le (h : ∀ p ∈ (unitRuns ctx bins).1, p < ctx.prevPLTSize) : reusedBy ctx bins ≤ ctx.maxPltSize :=
  Nat.le_trans (List.toFinset_card_le _) (length_reuseRuns_le _ _ bins h)

theorem map_outside_iff {α β : Type} {r : BinGet α} (f : α → β) (bins : List Bin) :
    (r >>= fun a => pure (f a)) bins = .error outside ↔ r bins = .error outside :=
  bind_eq_error_iff (fun _ => avoids_pure trivial) (S := fun _ => True) bins

/-- With `reused` entries from the predictor. -/
theorem unitEntries_outside_iff {reuseflag : ℕ → Bool} {reused : ℕ} {rest : List Bin}
    (hreused : numReused reuseflag ctx.prevPLTSize = reused) (hroom : reused ≤ ctx.maxPltSize) :
    unitEntries ctx cu reuseflag rest = .error outside ↔
      ¬(reused < ctx.maxPltSize → ∀ num rest', CABACReader.exp_golomb_eqprob 0 rest = .ok (num, rest') →
        EntriesFit ctx reused ((reused + num) % 2 ^ 8) rest') := by
  rw [unitEntries]
  dsimp only
  rw [bind_apply, reuseAccess_ok (by rwa [hreused]), ok_bind, hreused]
  dsimp only
  by_cases hmore : reused < ctx.maxPltSize
  · rw [if_pos hmore, bind_apply]
    cases hread : CABACReader.exp_golomb_eqprob 0 rest with
    | error e =>
      refine iff_of_false (fun h => exp_golomb_ne_outside hread (Except.error.inj h)) (not_not.mpr ?_)
      exact fun _ _ _ h => nomatch h
    | ok p =>
      obtain ⟨num, rest'⟩ := p
      rw [ok_bind]
      dsimp only
      rw [map_outside_iff, newEntries_outside_iff hroom]
      refine not_congr ⟨fun hfit _ _ _ h => ?_, fun hall => hall hmore num rest' rfl⟩
      cases h
      exact hfit
  · have hfull : reused = ctx.maxPltSize := Nat.le_antisymm hroom (Nat.le_of_not_lt hmore)
    have hsize : reused + 0 < 2 ^ 8 := by
      have := (maxPltSize_bounds ctx).2
      omega
    rw [if_neg hmore, pure_bind, map_outside_iff, newEntries_outside_iff hroom, Nat.mod_eq_of_lt hsize]
    exact not_congr (iff_of_true (fun _ _ => .inl hroom) fun h => absurd h hmore)

theorem parsePalette_outside_iff (hflags : ∀ k, cu.reuseflag k = false) (bins : List Bin) :
    parsePalette ctx cu bins = .error outside ↔ ¬PaletteFits ctx bins := by
  rw [parsePalette_eq, bind_apply]
  rcases @unitFlags_outcome ctx cu hflags bins with ⟨⟨p, hp, hle⟩, hout⟩ | ⟨hruns, hout⟩
  · rw [hout]
    exact iff_of_true rfl fun h => absurd (h.runs p hp) (Nat.not_lt.mpr hle)
  · cases hbehind : (unitRuns ctx bins).2 with
    | none =>
      rw [hbehind] at hout
      obtain ⟨e, he, hout⟩ := hout
      rw [hout]
      refine iff_of_false (fun h => he (Except.error.inj h)) (not_not.mpr ⟨hruns, fun rest hrest => ?_⟩)
      rw [hbehind] at hrest
      cases hrest
    | some rest =>
      rw [hbehind] at hout
      have hflags : (fun i => false || decide (i ∈ (unitRuns ctx bins).1)) =
          fun i => decide (i ∈ (unitRuns ctx bins).1) := funext fun _ => Bool.false_or _
      rw [hout, ok_bind, hflags]
      dsimp only
      rw [unitEntries_outside_iff (numReused_mem hruns) (reusedBy_le hruns)]
      refine not_congr ⟨fun hfit => ⟨hruns, fun rest' hrest => ?_⟩, fun hfit => hfit.entries rest hbehind⟩
      rw [hbehind] at hrest
      cases hrest
      exact hfit

/-! ## The unit -/

/-- A unit leaves an array exactly when its palette does not fit, and otherwise checking each access changes
nothing. -/
theorem cu_palette_info_outside_iff (ctx : PaletteContext) (asserts : Bool) (cu : PaletteCU) (cuCtx : CUCtx)
    (bins : List Bin) (hflags : ∀ k, cu.reuseflag k = false) :
    (cu_palette_info ctx asserts cu cuCtx bins ≠ .error outside ↔ PaletteFits ctx bins) ∧
      (PaletteFits ctx bins →
        cu_palette_info ctx asserts cu cuCtx bins = CABACReader.cu_palette_info ctx asserts cu cuCtx bins) := by
  have hiff : cu_palette_info ctx asserts cu cuCtx bins ≠ .error outside ↔ PaletteFits ctx bins := by
    rw [Ne, cu_palette_info, bind_eq_error_iff (avoids_parseIndexMap cuCtx), parsePalette_outside_iff hflags, not_not]
  exact ⟨hiff, fun hfit => cu_palette_info_guards cu cuCtx bins (hiff.mpr hfit)⟩

/-! ### A run past the predictor -/

/-- With a predictor of `n` entries. -/
def blockOf (n : ℕ) (h : n ≤ MAXPLTPREDSIZE) : PaletteContext where
  compBegin := .Y
  numComp := 3
  width := 4
  height := 4
  chType := .luma
  isDualITree := false
  chromaFormatIdc := .chroma420
  bitDepths _ := 8
  useDQP := false
  useChromaQpAdj := false
  chromaQpOffsetListLen := 0
  prevPLTSize := n
  prevPLT _ k := k
  width_pos := by decide
  height_pos := by decide
  bitDepth_le _ := by decide
  prevPLTSize_le := h

def emptyUnit : PaletteCU where
  lastPLTSize := 0
  reuseflag _ := false
  reusePLTSize := 0
  curPLTSize := 0
  curPLT _ _ := 0
  useEscape := false
  useRotation := false
  runType _ := .PLT_RUN_INDEX
  curPLTIdx _ := 0
  escapeValue _ _ := 0
  qp := 0
  chromaQpAdj := 0

/-- The code of 4: a run over three entries. -/
def longRun : List Bin := [.ep true, .ep true, .ep false, .ep false, .ep true]

/-- The code of 40, and the bins of 32 entries. -/
def manyEntries : List Bin :=
  [.ep true, .ep true, .ep true, .ep true, .ep true, .ep false, .ep false, .ep true, .ep false, .ep false, .ep true] ++
    List.replicate 256 (.ep false)

/-- The run ends before the predictor does when this has four entries, and the reader then asks for more bins. -/
theorem cu_palette_info_fourEntries :
    cu_palette_info (blockOf 4 (by decide)) true emptyUnit ⟨32, false, false⟩ longRun ≠ .error outside ∧
      PaletteFits (blockOf 4 (by decide)) longRun := by
  have hbound := cu_palette_info_outside_iff (blockOf 4 (by decide)) true emptyUnit ⟨32, false, false⟩ longRun
    fun _ => rfl
  have hruns : unitRuns (blockOf 4 (by decide)) longRun = ([3], some []) := by decide +kernel
  have hfit : PaletteFits (blockOf 4 (by decide)) longRun := by
    refine ⟨?_, ?_⟩
    · rw [hruns]
      decide
    · rw [hruns]
      rintro rest ⟨⟩ _ num rest' hread
      cases hread
  exact ⟨hbound.1.mpr hfit, hfit⟩

/-- The flag of entry 3 of two is set, and 32 entries are stored where 31 have places. -/
theorem cu_palette_info_overruns :
    cu_palette_info (blockOf 2 (by decide)) true emptyUnit ⟨32, false, false⟩ longRun = .error outside ∧
      cu_palette_info (blockOf 0 (by decide)) true emptyUnit ⟨32, false, false⟩ manyEntries = .error outside := by
  refine ⟨rfl, ?_⟩
  have hread : parsePalette (blockOf 0 (by decide)) emptyUnit manyEntries = .error outside := by
    rw [parsePalette_outside_iff fun _ => rfl]
    intro hfit
    have hruns : unitRuns (blockOf 0 (by decide)) manyEntries = ([], some manyEntries) := by decide +kernel
    have hnum : CABACReader.exp_golomb_eqprob 0 manyEntries = .ok (40, List.replicate 256 (.ep false)) := rfl
    have hnone : reusedBy (blockOf 0 (by decide)) manyEntries = 0 := by rw [reusedBy, hruns]; rfl
    have hentries := hfit.entries manyEntries (by rw [hruns]) (by rw [hnone]; decide) 40 _ hnum .Y rfl
    rw [hnone] at hentries
    exact absurd hentries (by decide +kernel)
  rw [cu_palette_info, bind_apply, hread]
  rfl

end ECM.Palette.Overruns
