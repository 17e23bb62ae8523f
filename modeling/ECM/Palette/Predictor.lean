import ECM.Cabac.Binarization
import ECM.DecoderLib.PaletteReader
import ECM.EncoderLib.PaletteWriter

/-! # Palette prediction read back

Reuse flags are coded as runs of entries that are not reused. The last run has no end
of its own when the flags are used up or the palette is full. -/

namespace ECM.Palette
open CommonLib CommonLib.Bins CommonLib.Palette EncoderLib DecoderLib
open ECM.Cabac.Binarization Lib.Codec Lib.Loop

variable {strict : Prop} {f : ℕ → Bool} {n : ℕ}

/-! ## The last reused entry -/

/-- The index behind the last reused entry below `n`. -/
def predEnd (f : ℕ → Bool) : ℕ → ℕ
  | 0 => 0
  | n + 1 => if f n then n + 1 else predEnd f n

theorem lastPredIdx_eq (f : ℕ → Bool) (n : ℕ) : CABACWriter.lastPredIdx f n + 1 = predEnd f n := by
  induction n with
  | zero => rfl
  | succ n ih =>
    rw [CABACWriter.lastPredIdx, predEnd]
    split_ifs
    · rfl
    · exact ih

theorem predEnd_le (f : ℕ → Bool) (n : ℕ) : predEnd f n ≤ n := by
  induction n with
  | zero => exact Nat.le_refl 0
  | succ n ih =>
    rw [predEnd]
    split_ifs
    · exact Nat.le_refl _
    · exact Nat.le_succ_of_le ih

theorem not_reused {k : ℕ} (hk : predEnd f n ≤ k) (hkn : k < n) : f k = false := by
  induction n with
  | zero => exact absurd hkn (Nat.not_lt_zero k)
  | succ n ih =>
    rw [predEnd] at hk
    split_ifs at hk with hn
    · omega
    · rcases Nat.lt_or_eq_of_le (Nat.le_of_lt_succ hkn) with hlt | rfl
      · exact ih hk hlt
      · exact Bool.eq_false_iff.mpr hn

theorem reused_last {e : ℕ} (he : predEnd f n = e + 1) : f e = true := by
  induction n with
  | zero => exact absurd he (Nat.zero_ne_add_one e)
  | succ n ih =>
    rw [predEnd] at he
    split_ifs at he with hn
    · rwa [← Nat.succ.inj he]
    · exact ih he

theorem numReused_of_not {i : ℕ} : ∀ run : ℕ, (∀ k, i ≤ k → k < i + run → f k = false) →
    numReused f (i + run) = numReused f i
  | 0, _ => rfl
  | run + 1, h => by
    rw [← Nat.add_assoc, numReused, h (i + run) (Nat.le_add_right _ _) (by omega),
      numReused_of_not run fun k hk hlt => h k hk (by omega)]
    rfl

theorem numReused_mono {m : ℕ} (h : m ≤ n) : numReused f m ≤ numReused f n := by
  induction n with
  | zero =>
    obtain rfl := Nat.le_zero.mp h
    exact Nat.le_refl _
  | succ n ih =>
    rcases Nat.lt_or_eq_of_le h with hlt | rfl
    · exact Nat.le_trans (ih (Nat.le_of_lt_succ hlt)) (Nat.le_add_right _ _)
    · exact Nat.le_refl _

theorem numReused_predEnd (f : ℕ → Bool) (n : ℕ) : numReused f (predEnd f n) = numReused f n := by
  have hall := numReused_of_not (f := f) (i := predEnd f n) (n - predEnd f n)
    fun k hk hlt => not_reused (n := n) hk (by have := predEnd_le f n; omega)
  rw [Nat.add_sub_cancel' (predEnd_le f n)] at hall
  exact hall.symm

/-! ## Runs -/

/-- What is written behind the last run. -/
def predTail (f : ℕ → Bool) (n maxPLTSize : ℕ) : BinPut Unit :=
  if numReused f n < maxPLTSize ∧ CABACWriter.lastPredIdx f n + 1 < n ∨ numReused f n = 0 then
    CABACWriter.exp_golomb_eqprob 1 0
  else pure ()

/-- The symbol of a run and of the reused entry behind it is not 1. -/
theorem run_symbol (idx run : ℕ) (hrun : idx + run < 2 ^ 32) :
    ∃ symbol, (if run ≠ 0 then run + 1 else run) = symbol ∧ symbol ≠ 1 ∧
      symbol ≤ run + 1 ∧ (if symbol ≠ 0 then u32 (idx + (symbol - 1)) else idx) = idx + run := by
  refine ⟨_, rfl, ?_⟩
  by_cases hzero : run = 0
  · rw [if_neg (not_not.mpr hzero), hzero]
    exact ⟨by decide, by decide, by rw [if_neg (by decide), Nat.add_zero]⟩
  · rw [if_pos hzero, if_pos (Nat.succ_ne_zero run), Nat.add_sub_cancel, u32_of_lt hrun]
    exact ⟨by omega, Nat.le_refl _, rfl⟩

theorem flags_update {flags : ℕ → Bool} {idx run : ℕ} (hflags : ∀ k < n, flags k = (decide (k < idx) && f k))
    (hrun : ∀ k, idx ≤ k → k < idx + run → f k = false) (hf : f (idx + run) = true) :
    ∀ k < n, Function.update flags (idx + run) true k = (decide (k < idx + run + 1) && f k) := by
  intro k hk
  by_cases heq : k = idx + run
  · rw [heq, Function.update_self, hf, decide_eq_true (Nat.lt_succ_self _)]
    rfl
  · rw [Function.update_of_ne heq, hflags k hk]
    by_cases hlt : k < idx
    · rw [decide_eq_true hlt, decide_eq_true (by omega)]
    · by_cases hin : k < idx + run
      · rw [hrun k (by omega) hin, Bool.and_false, Bool.and_false]
      · rw [decide_eq_false hlt, decide_eq_false (by omega)]

variable {maxPLTSize : ℕ}

/-- The reader waits for the run that begins at `idx`; the writer is `run` entries on. -/
theorem predFlags_roundTrips (hmax : numReused f n ≤ maxPLTSize) (hn : n ≤ MAXPLTPREDSIZE) :
    ∀ (left idx run : ℕ) {rounds symbol : ℕ} {flags : ℕ → Bool}, left + (idx + run) = predEnd f n → 0 < idx →
      (∀ k, idx ≤ k → k < idx + run → f k = false) → (∀ k < n, flags k = (decide (k < idx) && f k)) →
      maxPLTSize < numReused f idx + rounds →
      RoundTrips strict (CABACWriter.predRuns f left (idx + run) run >>= fun _ => predTail f n maxPLTSize)
        (CABACReader.predFlags n maxPLTSize rounds idx (numReused f idx) symbol flags)
        fun _ flags' => ∀ k < n, flags' k = f k
  | 0, idx, run, rounds, _, flags, hend, _, hrun, hflags, hfuel => by
    have hle := predEnd_le f n
    have hroom := Nat.le_trans (numReused_mono (f := f) (show idx ≤ n by omega)) hmax
    obtain ⟨rounds, rfl⟩ : ∃ r, rounds = r + 1 := ⟨rounds - 1, by omega⟩
    obtain ⟨e, he⟩ : ∃ e, predEnd f n = e + 1 := ⟨predEnd f n - 1, by omega⟩
    have hlast := reused_last he
    have hzero : run = 0 := by
      by_contra hne
      rw [hrun e (by omega) (by omega)] at hlast
      cases hlast
    subst hzero
    have hidx : idx = predEnd f n := by omega
    have hsome : numReused f n ≠ 0 := by
      rw [← numReused_predEnd, he, numReused, hlast, Bool.toNat_true]
      exact Nat.succ_ne_zero _
    have hdone : ∀ k < n, flags k = f k := by
      intro k hk
      rw [hflags k hk]
      by_cases hlt : k < idx
      · rw [decide_eq_true hlt, Bool.true_and]
      · rw [not_reused (f := f) (n := n) (by omega) hk, Bool.and_false]
    rw [CABACWriter.predRuns, Put.pure_bind, predTail, CABACReader.predFlags, lastPredIdx_eq, hidx,
      numReused_predEnd]
    refine roundTrips_ite (by omega) (fun _ => ?_) fun _ => roundTrips_pure hdone
    rw [if_pos (by omega)]
    refine (exp_golomb_eqprob_roundTrips (by decide)).then_right fun _ v hv => ⟨flags, ?_, hdone⟩
    rw [hv, if_pos rfl]
  | left + 1, idx, run, rounds, _, _, hend, hpos, hrun, hflags, hfuel => by
    have hle := predEnd_le f n
    rw [CABACWriter.predRuns]
    by_cases hf : f (idx + run) = true
    · have hnum : numReused f (idx + run + 1) = numReused f idx + 1 := by
        rw [numReused, hf, numReused_of_not run hrun, Bool.toNat_true]
      have hroom : numReused f idx < maxPLTSize := by
        have hmono := numReused_mono (f := f) (show idx + run + 1 ≤ n by omega)
        omega
      obtain ⟨rounds, rfl⟩ : ∃ r, rounds = r + 1 := ⟨rounds - 1, by omega⟩
      have hword : idx + run + 1 < 2 ^ 32 := by
        rw [MAXPLTPREDSIZE] at hn
        omega
      obtain ⟨s, hs, hone, hsle, hnext⟩ := run_symbol idx run (Nat.lt_of_succ_lt hword)
      rw [if_pos hf, hs, Put.bind_assoc, CABACReader.predFlags,
        if_pos (show idx < n ∧ numReused f idx < maxPLTSize from ⟨by omega, hroom⟩), if_pos hpos]
      have h32 : s + 2 ^ 0 < 2 ^ 32 := by
        rw [MAXPLTPREDSIZE] at hn
        omega
      refine roundTrips_bind (exp_golomb_eqprob_roundTrips h32) fun _ v hv => ?_
      rw [hv, if_neg hone]
      dsimp only
      rw [hnext, u32_of_lt hword, ← hnum]
      exact predFlags_roundTrips hmax hn left (idx + run + 1) 0 (by omega) (by omega)
        (fun k hk hlt => absurd hlt (Nat.not_lt.mpr hk)) (flags_update hflags hrun hf) (by omega)
    · rw [if_neg hf]
      refine predFlags_roundTrips hmax hn left idx (run + 1) (by omega) hpos (fun k hk hlt => ?_) hflags hfuel
      by_cases heq : k = idx + run
      · rw [heq]
        exact Bool.eq_false_iff.mpr hf
      · exact hrun k hk (by omega)

/-- The first symbol is read before the loop, and a 1 says that nothing is reused. -/
theorem firstRun_roundTrips (hmax : numReused f n ≤ maxPLTSize) (hn : n ≤ MAXPLTPREDSIZE) {flags : ℕ → Bool}
    (hflags : ∀ k, flags k = false) : ∀ left run : ℕ, left + run = predEnd f n →
      (∀ k < run, f k = false) →
      RoundTrips strict (CABACWriter.predRuns f left run run >>= fun _ => predTail f n maxPLTSize)
        (CABACReader.xDecodePLTPredIndicator n maxPLTSize flags) fun _ flags' => ∀ k < n, flags' k = f k
  | 0, run, hend, hrun => by
    have hzero : run = 0 := by
      by_contra hne
      obtain ⟨e, rfl⟩ := Nat.exists_eq_succ_of_ne_zero hne
      have hlast := reused_last (f := f) (n := n) (e := e) (by omega)
      rw [hrun e (Nat.lt_succ_self e)] at hlast
      cases hlast
    subst hzero
    have hpredEnd : predEnd f n = 0 := by omega
    have hnone : numReused f n = 0 := by
      rw [← numReused_predEnd, hpredEnd]
      rfl
    rw [CABACWriter.predRuns, Put.pure_bind, predTail, if_pos (.inr hnone), CABACReader.xDecodePLTPredIndicator]
    refine (exp_golomb_eqprob_roundTrips (by decide)).then_right fun _ v hv => ⟨flags, ?_, fun k hk => ?_⟩
    · rw [hv, if_neg (not_not.mpr rfl)]
    · rw [hflags, not_reused (f := f) (n := n) (by omega) hk]
  | left + 1, run, hend, hrun => by
    have hle := predEnd_le f n
    rw [CABACWriter.predRuns]
    by_cases hf : f run = true
    · have hword : run + 1 < 2 ^ 32 := by
        rw [MAXPLTPREDSIZE] at hn
        omega
      obtain ⟨s, hs, hone, hsle, hnext⟩ := run_symbol 0 run (by omega)
      rw [Nat.zero_add run] at hnext
      have hnum : numReused f (run + 1) = 1 := by
        have hnot := numReused_of_not (f := f) (i := 0) run fun k _ hlt => hrun k (by omega)
        rw [Nat.zero_add] at hnot
        rw [numReused, hf, hnot]
        rfl
      have hroom : 0 < maxPLTSize := by
        have hmono := numReused_mono (f := f) (show run + 1 ≤ n by omega)
        omega
      have h32 : s + 2 ^ 0 < 2 ^ 32 := by
        rw [MAXPLTPREDSIZE] at hn
        omega
      rw [if_pos hf, Put.bind_assoc, CABACReader.xDecodePLTPredIndicator, hs]
      refine roundTrips_bind (exp_golomb_eqprob_roundTrips h32) fun _ v hv => ?_
      rw [hv, if_pos hone, CABACReader.predFlags, if_pos (show 0 < n ∧ 0 < maxPLTSize from ⟨by omega, hroom⟩),
        if_neg (Nat.lt_irrefl 0), pure_bind, if_neg hone]
      dsimp only
      rw [hnext, u32_of_lt hword]
      have hupdate := @flags_update f n flags 0 run
        (fun k _ => by rw [hflags, decide_eq_false (Nat.not_lt_zero k), Bool.false_and])
        (fun k _ hlt => hrun k (by omega)) (by rwa [Nat.zero_add])
      rw [Nat.zero_add] at hupdate
      have hrest := @predFlags_roundTrips strict f n maxPLTSize hmax hn left (run + 1) 0 maxPLTSize s _ (by omega)
        (Nat.succ_pos run) (fun k hk hlt => absurd hlt (Nat.not_lt.mpr hk)) hupdate (by omega)
      rwa [hnum] at hrest
    · rw [if_neg hf]
      refine firstRun_roundTrips hmax hn hflags left (run + 1) (by omega) fun k hk => ?_
      by_cases heq : k = run
      · rw [heq]
        exact Bool.eq_false_iff.mpr hf
      · exact hrun k (by omega)

theorem predIndicator_roundTrips {cu : PaletteCU} (hmax : numReused cu.reuseflag cu.lastPLTSize ≤ maxPLTSize)
    (hn : cu.lastPLTSize ≤ MAXPLTPREDSIZE) {flags : ℕ → Bool} (hflags : ∀ k, flags k = false) :
    RoundTrips strict (CABACWriter.xEncodePLTPredIndicator cu maxPLTSize)
      (CABACReader.xDecodePLTPredIndicator cu.lastPLTSize maxPLTSize flags)
      fun _ flags' => ∀ k < cu.lastPLTSize, flags' k = cu.reuseflag k := by
  have hend : (CABACWriter.lastPredIdx cu.reuseflag cu.lastPLTSize + 1).toNat =
      predEnd cu.reuseflag cu.lastPLTSize := by
    rw [lastPredIdx_eq, Int.toNat_natCast]
  rw [CABACWriter.xEncodePLTPredIndicator, hend]
  exact firstRun_roundTrips hmax hn hflags _ 0 (Nat.add_zero _) fun k hk => absurd hk (Nat.not_lt_zero k)

end ECM.Palette
