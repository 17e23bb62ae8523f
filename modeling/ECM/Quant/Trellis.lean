import Mathlib.Algebra.Order.BigOperators.Group.List
import Mathlib.Tactic.Ring
import ECM.Lib.Loop
import ECM.CommonLib.DepQuantSoundness

/-! # The path of the trellis search

A path lists decisions from the lowest scan position on; the state machine of
the decoder runs over it from its end. -/

namespace ECM.DepQuant
open CommonLib

section Path
variable (T : Trellis) (est : RateEstimator) (tu : TransformUnit)

/-- The state of the decoder after the levels of a path. -/
def stateAfter : List Decision → ℕ
  | [] => 0
  | d :: rest => T.next (stateAfter rest) d.absLevel

/-- Cost of the decision before. -/
def costBefore : List Decision → ℤ
  | [] => 0
  | d :: _ => d.rdCost

/-- Change of distortion at a scan position. -/
def TransformUnit.deltaDist (scanIdx : ℕ) : ℤ → ℤ :=
  (tu.quantizer scanIdx).deltaDist (tu.absCoeff scanIdx) (tu.quanCoeff scanIdx)

/-- Rate of a level above zero: with no decision before it is the last one. -/
def levelRate (scanIdx : ℕ) (level : ℤ) (rest : List Decision) : ℕ :=
  match rest with
  | [] => est.lastOffset scanIdx + est.startRates.levelBits level
  | _ :: _ =>
    (est.rates (scanIdx + 1) (stateAfter T rest)).nonZeroBits (tu.tuPars.spt scanIdx) level

/-- The highest position of a sub-block. -/
def TUParameters.top (tuPars : TUParameters) (scanIdx : ℕ) : Prop :=
  tuPars.insidePos scanIdx = tuPars.sbbSize - 1

/-- A decision follows the decisions `rest` of the higher positions. -/
structure Entry (scanIdx : ℕ) (d : Decision) (rest : List Decision) : Prop where
  nonneg : 0 ≤ d.absLevel
  start : d.prevId = -1 ∧ rest = [] ∧ 1 ≤ d.absLevel ∨ 0 ≤ d.prevId ∧ rest ≠ []
  state : d.prevId < T.numStates ∨ tu.tuPars.top scanIdx →
    (stateAfter T rest : ℤ) = if d.prevId < 0 then 0 else d.prevId % T.numStates
  skipped : (T.numStates : ℤ) ≤ d.prevId → d.absLevel = 0
  together : ¬tu.tuPars.top scanIdx → ∀ e ∈ rest.head?,
    (T.numStates : ℤ) ≤ d.prevId ∨ (T.numStates : ℤ) ≤ e.prevId → d.prevId = e.prevId
  cost : d.absLevel ≠ 0 → d.rdCost = costBefore rest
    + tu.deltaDist scanIdx (2 * d.absLevel - stateAfter T rest % 2)
    + levelRate T est tu scanIdx d.absLevel rest

def Sound : ℕ → List Decision → Prop
  | _, [] => True
  | scanIdx, d :: rest => Entry T est tu scanIdx d rest ∧ Sound (scanIdx + 1) rest

/-- What is found when a path is followed back from one entry of a stage. -/
structure Followed (scanIdx : ℕ) (stages : List (List Decision)) (id state : ℕ) (path : List Decision) :
    Prop where
  backtrack : backtrack stages id = .ok path
  nonempty : path ≠ []
  sound : Sound T est tu scanIdx path
  state : stateAfter T path = state
  length : path.length ≤ stages.length

variable {T est tu}

theorem backtrack_neg (stages : List (List Decision)) {prevId : ℤ} (h : prevId < 0) :
    backtrack stages prevId = .ok [] := by
  cases stages with
  | nil =>
    unfold backtrack
    rw [check_ok _ (Int.not_le.mpr h)]
    rfl
  | cons stage rest =>
    unfold backtrack
    exact if_neg (Int.not_le.mpr h)

theorem backtrack_cons {stage : List Decision} {rest : List (List Decision)} {path : List Decision} {id : ℕ}
    (h : backtrack rest (stage.getD id default).prevId = .ok path) :
    backtrack (stage :: rest) id = .ok (stage.getD id default :: path) := by
  unfold backtrack
  rw [if_pos (Int.natCast_nonneg id), Int.toNat_natCast]
  dsimp only
  rw [h]
  rfl

/-- What lies behind the end of a path is not read. -/
theorem backtrack_append {stages : List (List Decision)} (stale : List (List Decision)) {id : ℤ}
    {path : List Decision} (h : backtrack stages id = .ok path) :
    backtrack (stages ++ stale) id = .ok path := by
  induction stages generalizing id path with
  | nil =>
    unfold backtrack at h
    obtain ⟨u, hu, hp⟩ := bind_eq_ok h
    cases hp
    rw [List.nil_append]
    exact backtrack_neg stale (Int.not_le.mp (check_eq_ok hu))
  | cons stage rest ih =>
    unfold backtrack at h
    rw [List.cons_append]
    unfold backtrack
    split at h
    · next hid =>
      rw [if_pos hid]
      obtain ⟨path', hp', h⟩ := bind_eq_ok h
      cases h
      dsimp only
      rw [ih hp']
      rfl
    · next hid =>
      cases h
      exact if_neg hid

theorem Followed.cons {scanIdx : ℕ} {stage : List Decision} {rest : List (List Decision)} {id p state : ℕ}
    {path : List Decision} {d : Decision} (h : Followed T est tu (scanIdx + 1) rest p state path)
    (hd : stage.getD id default = d) (hp : d.prevId = p) (he : Entry T est tu scanIdx d path) :
    Followed T est tu scanIdx (stage :: rest) id (T.next state d.absLevel) (d :: path) := by
  refine ⟨?_, List.cons_ne_nil d path, ⟨he, h.sound⟩, ?_, ?_⟩
  · rw [← hd]
    refine backtrack_cons ?_
    rw [hd, hp]
    exact h.backtrack
  · rw [← h.state]
    rfl
  · exact Nat.succ_le_succ h.length

theorem Followed.start {scanIdx : ℕ} {stage : List Decision} {rest : List (List Decision)} {id : ℕ}
    {d : Decision} (hd : stage.getD id default = d) (hp : d.prevId = -1) (he : Entry T est tu scanIdx d []) :
    Followed T est tu scanIdx (stage :: rest) id (T.next 0 d.absLevel) [d] := by
  refine ⟨?_, List.cons_ne_nil d [], ⟨he, trivial⟩, rfl, ?_⟩
  · rw [← hd]
    refine backtrack_cons (backtrack_neg rest ?_)
    rw [hd, hp]
    decide
  · simp

end Path

/-! ## Positions in a sub-block -/

namespace TUParameters
variable (tuPars : TUParameters)

theorem sbbSize_pos : 0 < tuPars.sbbSize := by
  unfold sbbSize
  rw [Nat.one_shiftLeft]
  exact Nat.two_pow_pos _

theorem four_dvd_sbbSize (h : 2 ≤ tuPars.log2SbbSize) : 4 ∣ tuPars.sbbSize := by
  unfold sbbSize
  rw [Nat.one_shiftLeft]
  exact pow_dvd_pow 2 h

theorem insidePos_lt (scanIdx : ℕ) : tuPars.insidePos scanIdx < tuPars.sbbSize :=
  Nat.mod_lt _ tuPars.sbbSize_pos

theorem eosbb_succ_of_top {scanIdx : ℕ} (h : tuPars.top scanIdx) : tuPars.eosbb (scanIdx + 1) := by
  unfold top at h
  have hpos := tuPars.sbbSize_pos
  unfold eosbb
  unfold insidePos at h ⊢
  rw [Nat.add_mod, h]
  rcases Nat.lt_or_ge 1 tuPars.sbbSize with h1 | h1
  · rw [Nat.mod_eq_of_lt h1, Nat.sub_add_cancel hpos, Nat.mod_self]
  · rw [(by omega : tuPars.sbbSize = 1), Nat.mod_one]

theorem insidePos_succ {scanIdx : ℕ} (h : ¬tuPars.top scanIdx) :
    tuPars.insidePos (scanIdx + 1) = tuPars.insidePos scanIdx + 1 := by
  have hlt := tuPars.insidePos_lt scanIdx
  unfold top at h
  unfold insidePos at h hlt ⊢
  rw [Nat.add_mod]
  rcases Nat.lt_or_ge 1 tuPars.sbbSize with h1 | h1
  · rw [Nat.mod_eq_of_lt h1, Nat.mod_eq_of_lt (by omega)]
  · omega

theorem not_eosbb_succ {scanIdx : ℕ} (h : ¬tuPars.top scanIdx) : ¬tuPars.eosbb (scanIdx + 1) := by
  unfold eosbb
  rw [tuPars.insidePos_succ h]
  exact Nat.succ_ne_zero _

/-- The levels of zero since the last end of a sub-block. -/
def zerosAt (scanIdx : ℕ) : ℕ :=
  if tuPars.eosbb scanIdx then 0 else tuPars.sbbSize - tuPars.insidePos scanIdx

theorem zerosAt_succ {scanIdx : ℕ} (h : ¬tuPars.eosbb scanIdx) :
    tuPars.zerosAt scanIdx = tuPars.zerosAt (scanIdx + 1) + 1 := by
  have hlt := tuPars.insidePos_lt scanIdx
  unfold zerosAt
  rw [if_neg h]
  by_cases ht : tuPars.top scanIdx
  · rw [if_pos (tuPars.eosbb_succ_of_top ht)]
    unfold top at ht
    omega
  · rw [if_neg (tuPars.not_eosbb_succ ht), tuPars.insidePos_succ ht]
    unfold top at ht
    omega

theorem zerosAt_succ_eosbb {scanIdx : ℕ} (h : tuPars.eosbb scanIdx) (h2 : 2 ≤ tuPars.sbbSize) :
    ¬tuPars.eosbb (scanIdx + 1) ∧ tuPars.zerosAt (scanIdx + 1) + 1 = tuPars.sbbSize := by
  have hins : tuPars.insidePos scanIdx = 0 := h
  have hsucc : tuPars.insidePos (scanIdx + 1) = 1 := by
    rw [tuPars.insidePos_succ, hins]
    unfold top
    omega
  have hne : ¬tuPars.eosbb (scanIdx + 1) := by
    unfold eosbb
    rw [hsucc]
    omega
  refine ⟨hne, ?_⟩
  unfold zerosAt
  rw [if_neg hne, hsucc]
  omega

end TUParameters

/-! ## Costs that no path from the start can have -/

/-- The reductions of distortion of the positions below `n`, at most. -/
def gainBelow (tu : TransformUnit) : ℕ → ℤ
  | 0 => 0
  | n + 1 => gainBelow tu n + gain (tu.pqData n)

/-- The least cost at `scanIdx` of a sequence of decisions that does not begin at the start. -/
def costFloor (tu : TransformUnit) (firstTestPos scanIdx : ℕ) : ℤ :=
  maxCost >>> (2 : ℕ) - (gainBelow tu (firstTestPos + 1) - gainBelow tu scanIdx)

theorem gainBelow_mono (tu : TransformUnit) {m n : ℕ} (h : m ≤ n) : gainBelow tu m ≤ gainBelow tu n := by
  induction n, h using Nat.le_induction with
  | base => exact le_refl _
  | succ n _ ih => exact le_trans ih (Int.le_add_of_nonneg_right (gain_nonneg _))

theorem costFloor_succ (tu : TransformUnit) (firstTestPos scanIdx : ℕ) :
    costFloor tu firstTestPos scanIdx = costFloor tu firstTestPos (scanIdx + 1) - gain (tu.pqData scanIdx) := by
  have h : gainBelow tu (scanIdx + 1) = gainBelow tu scanIdx + gain (tu.pqData scanIdx) := rfl
  unfold costFloor
  rw [h]
  ring

theorem costFloor_le_succ (tu : TransformUnit) (firstTestPos scanIdx : ℕ) :
    costFloor tu firstTestPos scanIdx ≤ costFloor tu firstTestPos (scanIdx + 1) := by
  rw [costFloor_succ]
  exact Int.sub_le_self _ (gain_nonneg _)

theorem costFloor_le (tu : TransformUnit) {firstTestPos scanIdx : ℕ} (h : scanIdx ≤ firstTestPos + 1) :
    costFloor tu firstTestPos scanIdx ≤ maxCost >>> (2 : ℕ) := by
  unfold costFloor
  exact Int.sub_le_self _ (Int.sub_nonneg_of_le (gainBelow_mono tu h))

/-! ## The invariant of the search -/

section Search
variable (T : Trellis) (est : RateEstimator) (tu : TransformUnit) (firstTestPos : ℕ)

/-- What holds of a state `k` after `scanIdx`: the path that its decision ends
leads the decoder to the same state, or its cost is too high to be chosen. -/
def Lower (scanIdx : ℕ) (stages : List (List Decision)) (s : State) (k : ℕ) : Prop :=
  (∃ path, Followed T est tu scanIdx stages k k path ∧ costBefore path = s.rdCost
      ∧ s.rates = est.rates scanIdx k
      ∧ (¬tu.tuPars.eosbb scanIdx → ∀ e ∈ path.head?, e.prevId < T.numStates))
    ∨ costFloor tu firstTestPos scanIdx ≤ s.rdCost

/-- The same for the entry that continues a skipped sub-block. -/
def Upper (scanIdx : ℕ) (stages : List (List Decision)) (s : State) (k : ℕ) : Prop :=
  (∃ path, Followed T est tu scanIdx stages (T.numStates + k) (T.zeroRun (tu.tuPars.zerosAt scanIdx) k) path
      ∧ (¬tu.tuPars.eosbb scanIdx → ∀ e ∈ path.head?, e.prevId = (T.numStates + k : ℕ)))
    ∨ costFloor tu firstTestPos scanIdx ≤ s.rdCost

/-- The state from which a sub-block that begins or has begun would be skipped. -/
def pending (s : Search) (scanIdx k : ℕ) : State :=
  if tu.tuPars.eosbb scanIdx then s.currStates.getD k default else s.skipStates.getD k default

structure Inv (n : ℕ) (s : Search) : Prop where
  le : n ≤ firstTestPos + 1
  length : s.trellis.length = firstTestPos + 1 - n
  lower : ∀ k < T.numStates, Lower T est tu firstTestPos n s.trellis (s.currStates.getD k default) k
  upper : tu.tuPars.sbbSize ≤ n → ∀ k < T.numStates,
    Upper T est tu firstTestPos n s.trellis (pending tu s n k) k
  last : tu.tuPars.numCoeff ≤ n → ∀ k < T.numStates,
    maxCost >>> (2 : ℕ) ≤ (s.skipStates.getD k default).rdCost

variable {T est tu firstTestPos}

/-- The decisions that `xDecide` makes at `scanIdx`. -/
abbrev decisionsAt (T : Trellis) (est : RateEstimator) (tu : TransformUnit) (scanIdx : ℕ) (s : Search) :
    List Decision :=
  xDecide est T.numStates s.currStates s.skipStates (tu.tuPars.spt scanIdx) (tu.pqData scanIdx)
    (est.lastOffset scanIdx)

theorem tableAt_decisionsAt (scanIdx : ℕ) (s : Search) :
    TableAt T est (tu.tuPars.spt scanIdx) (est.lastOffset scanIdx) (tu.quantizer scanIdx)
      (tu.absCoeff scanIdx) (tu.quanCoeff scanIdx) s.currStates s.skipStates (decisionsAt T est tu scanIdx s) :=
  tableAt_xDecide _ _ _ _ _ _ _ _ _

theorem eosbb_of_spt {tuPars : TUParameters} {scanIdx : ℕ} (h : tuPars.spt scanIdx = .eocsbb) :
    tuPars.eosbb scanIdx ∧ 0 < scanIdx := by
  unfold TUParameters.spt at h
  split at h
  · cases h
  · split at h
    · next hc => exact ⟨hc.1, hc.2.1⟩
    · cases h

theorem sbbSize_le_of_eosbb {tuPars : TUParameters} {scanIdx : ℕ} (h : tuPars.eosbb scanIdx)
    (h0 : 0 < scanIdx) : tuPars.sbbSize ≤ scanIdx :=
  Nat.le_of_dvd h0 (Nat.dvd_of_mod_eq_zero h)

/-- A decision from a state of the position before. -/
theorem entry_of_prev {scanIdx p : ℕ} {d : Decision} {stages : List (List Decision)} {path : List Decision}
    (hp : p < T.numStates) (hd : d.prevId = p) (hl : 0 ≤ d.absLevel)
    (h : Followed T est tu (scanIdx + 1) stages p p path)
    (hhead : ¬tu.tuPars.eosbb (scanIdx + 1) → ∀ e ∈ path.head?, e.prevId < T.numStates)
    (hcost : d.absLevel ≠ 0 → d.rdCost = costBefore path
      + tu.deltaDist scanIdx (2 * d.absLevel - p % 2)
      + (est.rates (scanIdx + 1) p).nonZeroBits (tu.tuPars.spt scanIdx) d.absLevel) :
    Entry T est tu scanIdx d path := by
  have hlt : d.prevId < T.numStates := by
    rw [hd]
    exact Int.ofNat_lt.mpr hp
  refine ⟨hl, Or.inr ⟨?_, h.nonempty⟩, ?_, fun hle => absurd hlt (Int.not_lt.mpr hle), ?_, ?_⟩
  · rw [hd]
    exact Int.natCast_nonneg p
  · intro _
    rw [h.state, if_neg (by omega), Int.emod_eq_of_lt (by omega) hlt, hd]
  · intro htop e he hor
    have := hhead (tu.tuPars.not_eosbb_succ htop) e he
    omega
  · intro hne
    rw [hcost hne, h.state]
    cases path with
    | nil => exact absurd rfl h.nonempty
    | cons e rest =>
      unfold levelRate
      rw [h.state]

/-- A decision that skips the sub-block below the states `skip`. -/
theorem entry_of_skip {scanIdx k state : ℕ} {d : Decision} {stages : List (List Decision)} {path : List Decision}
    (hk : k < T.numStates) (hd : d.prevId = (T.numStates + k : ℕ)) (hl : d.absLevel = 0)
    (h : Followed T est tu (scanIdx + 1) stages (T.numStates + k) state path)
    (hhead : ¬tu.tuPars.eosbb (scanIdx + 1) → ∀ e ∈ path.head?, e.prevId = (T.numStates + k : ℕ))
    (htop : tu.tuPars.top scanIdx → state = k) :
    Entry T est tu scanIdx d path := by
  have hge : (T.numStates : ℤ) ≤ d.prevId := by omega
  refine ⟨Int.le_of_eq hl.symm, Or.inr ⟨by omega, h.nonempty⟩, ?_, fun _ => hl, ?_, fun hne => absurd hl hne⟩
  · intro hor
    have ht : tu.tuPars.top scanIdx := hor.resolve_left (Int.not_lt.mpr hge)
    rw [h.state, htop ht, if_neg (by omega), hd, Int.natCast_add, Int.add_emod_left,
      Int.emod_eq_of_lt (Int.natCast_nonneg k) (Int.ofNat_lt.mpr hk)]
  · intro ht e he _
    rw [hd, hhead (tu.tuPars.not_eosbb_succ ht) e he]

section Step
variable {scanIdx : ℕ} {s : Search}

/-- Every decision continues a path, skips a sub-block, or costs too much. -/
theorem lower_step (hs : Inv T est tu firstTestPos (scanIdx + 1) s) (h2 : 2 ≤ tu.tuPars.log2SbbSize)
    {k : ℕ} (hk : k < T.numStates) {stage : List Decision} {d : Decision}
    (hd : DecidedAt T est (tu.tuPars.spt scanIdx) (est.lastOffset scanIdx) (tu.quantizer scanIdx)
      (tu.absCoeff scanIdx) (tu.quanCoeff scanIdx) s.currStates s.skipStates k d)
    (hget : stage.getD k default = d) {σ : State} (hcost : σ.rdCost = d.rdCost)
    (hrates : d.prevId > -2 → σ.rates = est.rates scanIdx k) :
    Lower T est tu firstTestPos scanIdx (stage :: s.trellis) σ k := by
  have hfloor := costFloor_le_succ tu firstTestPos scanIdx
  have hn : (0 : ℤ) < T.numStates := Int.ofNat_lt.mpr T.numStates_pos
  unfold Lower
  rw [hcost]
  cases hd with
  | unset => exact Or.inr (costFloor_le tu (Nat.le_of_succ_le hs.le))
  | zero p bits hp hkp =>
    rcases hs.lower p hp with ⟨path, hpath, -, -, hhead⟩ | hle
    · have hentry : Entry T est tu scanIdx ⟨(s.currStates.getD p default).rdCost + bits, 0, p⟩ path :=
        entry_of_prev hp rfl (le_refl 0) hpath hhead (fun hne => absurd rfl hne)
      have hf := hpath.cons hget rfl hentry
      rw [hkp] at hf
      exact Or.inl ⟨_, hf, rfl, hrates (by dsimp only; omega), fun _ e he => by
        cases he
        exact Int.ofNat_lt.mpr hp⟩
    · refine Or.inr ?_
      dsimp only
      omega
  | level p level hp hl hkp hg =>
    rcases hs.lower p hp with ⟨path, hpath, hc, hr, hhead⟩ | hle
    · have hentry : Entry T est tu scanIdx _ path :=
        entry_of_prev (d := ⟨(s.currStates.getD p default).rdCost
            + tu.deltaDist scanIdx (2 * level - p % 2)
            + (s.currStates.getD p default).rates.nonZeroBits (tu.tuPars.spt scanIdx) level, level, p⟩)
          hp rfl (le_trans Int.one_nonneg hl) hpath hhead (fun _ => by rw [hc, hr])
      have hf := hpath.cons hget rfl hentry
      dsimp only at hf
      rw [hkp] at hf
      exact Or.inl ⟨_, hf, rfl, hrates (by dsimp only; omega), fun _ e he => by
        cases he
        exact Int.ofNat_lt.mpr hp⟩
    · refine Or.inr ?_
      rw [costFloor_succ]
      have hgain : -gain (tu.pqData scanIdx) ≤ (tu.quantizer scanIdx).deltaDist (tu.absCoeff scanIdx)
        (tu.quanCoeff scanIdx) (2 * level - p % 2) := hg
      dsimp only
      omega
  | skip hspt =>
    obtain ⟨heos, h0⟩ := eosbb_of_spt hspt
    have h4 := Nat.le_of_dvd tu.tuPars.sbbSize_pos (tu.tuPars.four_dvd_sbbSize h2)
    obtain ⟨hne, hzeros⟩ := tu.tuPars.zerosAt_succ_eosbb heos (by omega)
    have hup := hs.upper (Nat.le_succ_of_le (sbbSize_le_of_eosbb heos h0)) k hk
    unfold pending at hup
    rw [if_neg hne] at hup
    rcases hup with ⟨path, hpath, hhead⟩ | hle
    · have hentry : Entry T est tu scanIdx ⟨(s.skipStates.getD k default).rdCost
          + (s.skipStates.getD k default).rates.sbbFracBits.1, 0, (T.numStates + k : ℕ)⟩ path :=
        entry_of_skip hk rfl rfl hpath hhead (fun ht => absurd (tu.tuPars.eosbb_succ_of_top ht) hne)
      have hf := hpath.cons hget rfl hentry
      dsimp only at hf
      rw [← T.zeroRun_succ, hzeros, T.zeroRun_of_four_dvd (tu.tuPars.four_dvd_sbbSize h2) hk] at hf
      exact Or.inl ⟨_, hf, rfl, hrates (by dsimp only; omega), fun h => absurd heos h⟩
    · refine Or.inr ?_
      dsimp only
      omega
  | start level hl hkp =>
    have hentry : Entry T est tu scanIdx ⟨tu.deltaDist scanIdx (2 * level) + est.lastOffset scanIdx
        + est.startRates.levelBits level, level, -1⟩ [] := by
      refine ⟨le_trans Int.one_nonneg hl, Or.inl ⟨rfl, rfl, hl⟩, fun _ => rfl, ?_, ?_, ?_⟩
      · intro hle
        dsimp only at hle
        omega
      · intro _ e he
        cases he
      · intro _
        have hidx : 2 * level - ((0 : ℕ) : ℤ) % 2 = 2 * level := by omega
        unfold costBefore levelRate stateAfter
        dsimp only
        rw [hidx, Int.natCast_add, Int.zero_add, Int.add_assoc]
    have hf : Followed T est tu scanIdx (stage :: s.trellis) k _ _ := Followed.start hget rfl hentry
    dsimp only at hf
    rw [hkp] at hf
    exact Or.inl ⟨_, hf, rfl, hrates (by dsimp only; omega), fun _ e he => by
      cases he
      dsimp only
      omega⟩

/-- At the end of a sub-block its states are those from which the next one is skipped. -/
theorem upper_eosbb {stage : List Decision} {stages : List (List Decision)} {σ : State} {k : ℕ}
    (heos : tu.tuPars.eosbb scanIdx)
    (hcopy : stage.getD (T.numStates + k) default = stage.getD k default)
    (h : Lower T est tu firstTestPos scanIdx (stage :: stages) σ k) :
    Upper T est tu firstTestPos scanIdx (stage :: stages) σ k := by
  unfold Upper
  rcases h with ⟨path, hpath, -⟩ | hle
  · refine Or.inl ⟨path, ⟨?_, hpath.nonempty, hpath.sound, ?_, hpath.length⟩, fun h => absurd heos h⟩
    · rw [← hpath.backtrack]
      unfold backtrack
      rw [if_pos (Int.natCast_nonneg _), if_pos (Int.natCast_nonneg _), Int.toNat_natCast,
        Int.toNat_natCast, hcopy]
    · unfold TUParameters.zerosAt
      rw [if_pos heos]
      exact hpath.state
  · exact Or.inr hle

/-- Inside a sub-block the skip goes on. -/
theorem upper_inside {stage : List Decision} {stages : List (List Decision)} {σ : State} {k : ℕ}
    (hk : k < T.numStates) (heos : ¬tu.tuPars.eosbb scanIdx)
    (hstage : stage.getD (T.numStates + k) default = ⟨maxCost >>> (2 : ℕ), 0, (T.numStates + k : ℕ)⟩)
    (h : Upper T est tu firstTestPos (scanIdx + 1) stages σ k) :
    Upper T est tu firstTestPos scanIdx (stage :: stages) σ k := by
  unfold Upper
  rcases h with ⟨path, hpath, hhead⟩ | hle
  · have hentry : Entry T est tu scanIdx ⟨maxCost >>> (2 : ℕ), 0, (T.numStates + k : ℕ)⟩ path := by
      refine entry_of_skip hk rfl rfl hpath hhead ?_
      intro ht
      unfold TUParameters.zerosAt
      rw [if_pos (tu.tuPars.eosbb_succ_of_top ht)]
      exact T.zeroRun_zero k
    have hf := hpath.cons hstage rfl hentry
    dsimp only at hf
    rw [← T.zeroRun_succ, ← tu.tuPars.zerosAt_succ heos] at hf
    refine Or.inl ⟨_, hf, fun _ e he => ?_⟩
    cases he
    rfl
  · exact Or.inr (le_trans (costFloor_le_succ tu firstTestPos scanIdx) hle)

end Step

/-! ## Updates of the states -/

theorem updateStates_ok {numStates : ℕ} (hn : numStates ≤ 8) {f : ℕ → State → Checked State}
    {g : ℕ → State → State} {states : List State} (h : ∀ k < numStates, ∀ s, f k s = .ok (g k s)) :
    ∃ states', updateStates numStates f states = .ok states'
      ∧ ∀ k < numStates, states'.getD k default = g k (states.getD k default) := by
  refine ⟨_, @Lib.Loop.mapM_ok _ _ _ _ (fun k =>
    if k < numStates then g k (states.getD k default) else states.getD k default) _ ?_, ?_⟩
  · intro k _
    split
    · next hk => exact h k hk _
    · rfl
  · intro k hk
    rw [List.getD_eq_getElem?_getD, List.getElem?_map, List.getElem?_range (Nat.lt_of_lt_of_le hk hn),
      Option.map_some, Option.getD_some, if_pos hk]

theorem numStates_le (T : Trellis) : T.numStates ≤ 8 := by
  obtain ⟨idc, rfl | rfl⟩ := T <;> decide

/-- Only a skip has an index in the upper half, and its level is zero. -/
theorem updateStateEOS_ok {P : List PQData} {dist : ℤ → ℤ} {spt : ScanPosType} {lastOffset k scanIdx : ℕ}
    {prev skip : ℕ → State} {d : Decision} (h : Decided T est spt lastOffset P dist prev skip k d) (s : State) :
    s.updateStateEOS est scanIdx T.numStates k d = .ok (s.updateState est scanIdx k d) := by
  unfold State.updateStateEOS
  have hcheck : ¬(d.prevId ≥ T.numStates ∧ d.absLevel ≠ 0) := by
    rintro ⟨hge, hne⟩
    cases h with
    | unset =>
      have := T.numStates_pos
      dsimp only at hge
      omega
    | zero p bits hp => exact hne rfl
    | level p level hp =>
      dsimp only at hge
      omega
    | skip => exact hne rfl
    | start level =>
      have := T.numStates_pos
      dsimp only at hge
      omega
  by_cases h1 : d.prevId > -2
  · rw [if_pos h1]
    by_cases h2 : d.prevId ≥ T.numStates
    · rw [if_pos h2, check_ok _ (fun hne => hcheck ⟨h2, hne⟩)]
      rfl
    · rw [if_neg h2]
      rfl
  · rw [if_neg h1]
    rfl

theorem updateState_rates {d : Decision} (s : State) (scanIdx k : ℕ) (h : d.prevId > -2) :
    (s.updateState est scanIdx k d).rates = est.rates scanIdx k := if_pos h

theorem getD_copy {decisions : List Decision} {n k : ℕ} (hl : decisions.length = n + n) (hk : k < n) :
    (decisions.take n ++ decisions.take n).getD k default = decisions.getD k default
      ∧ (decisions.take n ++ decisions.take n).getD (n + k) default = decisions.getD k default := by
  have htake : (decisions.take n).length = n := by
    rw [List.length_take, hl]
    omega
  have hget : (decisions.take n).getD k default = decisions.getD k default := by
    rw [List.getD_eq_getElem?_getD, List.getElem?_take, if_pos hk, ← List.getD_eq_getElem?_getD]
  constructor
  · rw [List.getD_append _ _ _ _ (by omega), hget]
  · rw [List.getD_append_right _ _ _ _ (by omega), htake, Nat.add_sub_cancel_left, hget]

/-- A position at the top of a sub-block that is not signalled is the first of the scan. -/
theorem le_of_top_of_spt_ne {scanIdx : ℕ} (ht : tu.tuPars.top scanIdx) (hle : tu.tuPars.sbbSize ≤ scanIdx)
    (h4 : 2 ≤ tu.tuPars.sbbSize) (hspt : tu.tuPars.spt scanIdx ≠ .socsbb) :
    tu.tuPars.numCoeff ≤ scanIdx + 1 := by
  by_contra hlt
  apply hspt
  have hne : scanIdx ≠ tu.tuPars.sbbSize := by
    rintro h
    unfold TUParameters.top TUParameters.insidePos at ht
    rw [h, Nat.mod_self] at ht
    omega
  unfold TUParameters.spt
  exact if_pos ⟨ht, by omega, by omega⟩

/-- The stages when the lowest position has been decided. -/
def Decided0 (T : Trellis) (est : RateEstimator) (tu : TransformUnit) (firstTestPos : ℕ) (s : Search) : Prop :=
  s.trellis.length = firstTestPos + 1 ∧ ∀ k < T.numStates,
    Lower T est tu firstTestPos 0 s.trellis
      ⟨((s.trellis.headD []).getD k default).rdCost, est.rates 0 k⟩ k

theorem decided0_xDecideAndUpdate {s : Search} (hs : Inv T est tu firstTestPos 1 s)
    (h2 : 2 ≤ tu.tuPars.log2SbbSize) :
    ∃ s', xDecideAndUpdate est tu.tuPars T.numStates (tu.pqData 0) 0 s = .ok s'
      ∧ Decided0 T est tu firstTestPos s' := by
  have htable := @tableAt_decisionsAt T est tu 0 s
  refine ⟨⟨s.prevStates, s.currStates, s.skipStates, decisionsAt T est tu 0 s :: s.trellis⟩, rfl, ?_, ?_⟩
  · rw [List.length_cons, hs.length]
    have := hs.le
    omega
  · intro k hk
    exact lower_step hs h2 hk (htable.lower k hk) rfl rfl fun _ => rfl

/-- One position of the loop, the lowest apart. -/
theorem inv_xDecideAndUpdate {scanIdx : ℕ} {s : Search} (hs : Inv T est tu firstTestPos (scanIdx + 1) s)
    (h2 : 2 ≤ tu.tuPars.log2SbbSize) (hlt : scanIdx < tu.tuPars.numCoeff) (h0 : scanIdx ≠ 0) :
    ∃ s', xDecideAndUpdate est tu.tuPars T.numStates (tu.pqData scanIdx) scanIdx s = .ok s'
      ∧ Inv T est tu firstTestPos scanIdx s' := by
  have htable := @tableAt_decisionsAt T est tu scanIdx s
  have hle := hs.le
  have hlen : s.trellis.length + 1 = firstTestPos + 1 - scanIdx := by
    rw [hs.length]
    omega
  have h4 := Nat.le_of_dvd tu.tuPars.sbbSize_pos (tu.tuPars.four_dvd_sbbSize h2)
  have hlast : ∀ {P : Prop}, tu.tuPars.numCoeff ≤ scanIdx → P := fun h => absurd hlt (Nat.not_lt.mpr h)
  unfold xDecideAndUpdate
  dsimp only
  rw [if_neg h0]
  by_cases heos : tu.tuPars.eosbb scanIdx
  · obtain ⟨curr', hcurr', hget⟩ := @updateStates_ok T.numStates (numStates_le T)
      (fun k => State.updateStateEOS est scanIdx T.numStates k
        ((decisionsAt T est tu scanIdx s).getD k default))
      (fun k σ => σ.updateState est scanIdx k ((decisionsAt T est tu scanIdx s).getD k default)) s.prevStates
      (fun k hk σ => updateStateEOS_ok (htable.lower k hk) σ)
    have hlower : ∀ k < T.numStates, Lower T est tu firstTestPos scanIdx
        (((decisionsAt T est tu scanIdx s).take T.numStates
          ++ (decisionsAt T est tu scanIdx s).take T.numStates) :: s.trellis) (curr'.getD k default) k := by
      intro k hk
      refine lower_step hs h2 hk (htable.lower k hk) (getD_copy htable.length hk).1 ?_ ?_
      · rw [hget k hk]
        rfl
      · intro hp
        rw [hget k hk]
        exact updateState_rates _ scanIdx k hp
    rw [if_pos heos, hcurr']
    refine ⟨_, rfl, ⟨Nat.le_of_succ_le hle, hlen, hlower, ?_, fun h => hlast h⟩⟩
    intro _ k hk
    unfold pending
    rw [if_pos heos]
    exact upper_eosbb heos (by
      rw [(getD_copy htable.length hk).1, (getD_copy htable.length hk).2]) (hlower k hk)
  · obtain ⟨curr', hcurr', hget⟩ := @updateStates_ok T.numStates (numStates_le T)
      (fun k σ => .ok (σ.updateState est scanIdx k ((decisionsAt T est tu scanIdx s).getD k default)))
      (fun k σ => σ.updateState est scanIdx k ((decisionsAt T est tu scanIdx s).getD k default)) s.prevStates
      (fun _ _ _ => rfl)
    have hlower : ∀ k < T.numStates, Lower T est tu firstTestPos scanIdx
        (decisionsAt T est tu scanIdx s :: s.trellis) (curr'.getD k default) k := by
      intro k hk
      refine lower_step hs h2 hk (htable.lower k hk) rfl ?_ ?_
      · rw [hget k hk]
        rfl
      · intro hp
        rw [hget k hk]
        exact updateState_rates _ scanIdx k hp
    have hskip : ∀ k < T.numStates, (decisionsAt T est tu scanIdx s).getD (T.numStates + k) default
        = ⟨maxCost >>> (2 : ℕ), 0, (T.numStates + k : ℕ)⟩ :=
      htable.upper fun hspt => heos (eosbb_of_spt hspt).1
    rw [if_neg heos, hcurr']
    dsimp only [ok_bind]
    by_cases hspt : tu.tuPars.spt scanIdx = .socsbb
    · rw [if_pos hspt]
      refine ⟨_, rfl, ⟨Nat.le_of_succ_le hle, hlen, hlower, ?_, fun h => hlast h⟩⟩
      intro hsbb k hk
      have hup := hs.upper (Nat.le_succ_of_le hsbb) k hk
      have htop : tu.tuPars.top scanIdx := by
        unfold TUParameters.spt at hspt
        split at hspt
        · next h => exact h.1
        · split at hspt <;> cases hspt
      unfold pending at hup ⊢
      rw [if_pos (tu.tuPars.eosbb_succ_of_top htop)] at hup
      rw [if_neg heos]
      exact upper_inside hk heos (hskip k hk) hup
    · rw [if_neg hspt]
      refine ⟨_, rfl, ⟨Nat.le_of_succ_le hle, hlen, hlower, ?_, fun h => hlast h⟩⟩
      intro hsbb k hk
      unfold pending
      rw [if_neg heos]
      by_cases htop : tu.tuPars.top scanIdx
      · have hend := le_of_top_of_spt_ne htop hsbb (by omega) hspt
        exact Or.inr (le_trans (costFloor_le tu (Nat.le_of_succ_le hle)) (hs.last hend k hk))
      · have hup := hs.upper (Nat.le_succ_of_le hsbb) k hk
        unfold pending at hup
        rw [if_neg (tu.tuPars.not_eosbb_succ htop)] at hup
        exact upper_inside hk heos (hskip k hk) hup

/-- The loop over the positions below `n`. -/
theorem decided0_populate (h2 : 2 ≤ tu.tuPars.log2SbbSize) {n : ℕ} (hn : n + 1 ≤ tu.tuPars.numCoeff) {s : Search}
    (hs : Inv T est tu firstTestPos (n + 1) s) :
    ∃ s', populate est tu.tuPars T.numStates tu.pqData (n + 1) s = .ok s'
      ∧ Decided0 T est tu firstTestPos s' := by
  induction n generalizing s with
  | zero =>
    obtain ⟨s', hok, hd⟩ := decided0_xDecideAndUpdate hs h2
    refine ⟨s', ?_, hd⟩
    unfold populate
    rw [hok]
    rfl
  | succ n ih =>
    obtain ⟨s1, hok, hs1⟩ := inv_xDecideAndUpdate hs h2 (Nat.lt_of_succ_le hn) (Nat.succ_ne_zero n)
    obtain ⟨s', hrest, hd⟩ := ih (Nat.le_of_succ_le hn) hs1
    refine ⟨s', ?_, hd⟩
    unfold populate
    rw [hok]
    exact hrest

theorem initStates_rdCost {base k : ℕ} (hk : k < T.numStates) (states : List State) :
    ((initStates est T.numStates base states).getD k default).rdCost = maxCost >>> (1 : ℕ) := by
  unfold initStates
  rw [List.getD_eq_getElem?_getD, List.getElem?_map,
    List.getElem?_range (Nat.lt_of_lt_of_le hk (numStates_le T)), Option.map_some, Option.getD_some, if_pos hk]

theorem inv_init (curr prev skip : List State) :
    Inv T est tu firstTestPos (firstTestPos + 1)
      ⟨initStates est T.numStates 0 curr, initStates est T.numStates 8 prev,
        initStates est T.numStates 16 skip, []⟩ := by
  have hcost : maxCost >>> (2 : ℕ) ≤ maxCost >>> (1 : ℕ) := by decide
  have hfloor := costFloor_le tu (le_refl (firstTestPos + 1))
  refine ⟨le_refl _, by simp, ?_, ?_, ?_⟩
  · intro k hk
    refine Or.inr ?_
    rw [initStates_rdCost hk]
    exact le_trans hfloor hcost
  · intro _ k hk
    refine Or.inr ?_
    unfold pending
    split
    · rw [initStates_rdCost hk]
      exact le_trans hfloor hcost
    · rw [initStates_rdCost hk]
      exact le_trans hfloor hcost
  · intro _ k hk
    rw [initStates_rdCost hk]
    exact hcost

end Search

/-! ## The best path -/

/-- A state is chosen only at a cost below zero. -/
theorem bestState_spec (stage : List Decision) (numStates : ℕ) :
    bestState stage numStates = -2 ∨ ∃ k < numStates, bestState stage numStates = k
      ∧ (stage.getD k default).rdCost < 0 := by
  have hfold : ∀ (l : List ℕ) (best : ℤ × ℤ), (∀ k ∈ l, k < numStates) → best.2 ≤ 0 →
      (best.1 = -2 ∨ ∃ k < numStates, best.1 = k ∧ (stage.getD k default).rdCost < 0) →
      let best' := l.foldl (fun (best : ℤ × ℤ) stateId =>
        let pathCost := (stage.getD stateId default).rdCost
        if pathCost < best.2 then ((stateId : ℤ), pathCost) else best) best
      best'.1 = -2 ∨ ∃ k < numStates, best'.1 = k ∧ (stage.getD k default).rdCost < 0 := by
    intro l
    induction l with
    | nil =>
      intro best _ _ h
      exact h
    | cons k l ih =>
      intro best hl h0 h
      rw [List.foldl_cons]
      have hl' : ∀ k ∈ l, k < numStates := fun j hj => hl j (List.mem_cons_of_mem k hj)
      dsimp only
      split
      · next hlt =>
        refine ih _ hl' (le_trans (le_of_lt hlt) h0) (Or.inr ⟨k, hl k List.mem_cons_self, rfl, ?_⟩)
        exact lt_of_lt_of_le hlt h0
      · exact ih best hl' h0 h
  exact hfold (List.range numStates) (-2, 0) (fun k hk => List.mem_range.mp hk) (le_refl 0) (Or.inl rfl)

theorem highest_some {p : ℕ → Prop} [DecidablePred p] {n m : ℕ} (h : highest p n = some m) :
    m < n ∧ p m ∧ ∀ j, m < j → j < n → ¬p j := by
  induction n with
  | zero => cases h
  | succ n ih =>
    unfold highest at h
    split at h
    · next hp =>
      cases h
      exact ⟨Nat.lt_succ_self _, hp, fun j hj hjn => absurd hjn (by omega)⟩
    · next hp =>
      obtain ⟨hlt, hpm, hall⟩ := ih h
      refine ⟨Nat.lt_succ_of_lt hlt, hpm, ?_⟩
      intro j hj hjn
      rcases Nat.lt_succ_iff_lt_or_eq.mp hjn with hjn | rfl
      · exact hall j hj hjn
      · exact hp

theorem highest_eq_some {p : ℕ → Prop} [DecidablePred p] {n m : ℕ} (hm : m < n) (hp : p m)
    (hall : ∀ j, m < j → j < n → ¬p j) : highest p n = some m := by
  induction n with
  | zero => omega
  | succ n ih =>
    unfold highest
    rcases Nat.lt_succ_iff_lt_or_eq.mp hm with hlt | rfl
    · rw [if_neg (hall n hlt (Nat.lt_succ_self n))]
      exact ih hlt fun j hj hjn => hall j hj (Nat.lt_succ_of_lt hjn)
    · exact if_pos hp

section Levels
variable {tuPars : TUParameters} (tCoeff : ℕ → ℤ)

/-- The level that is written for a decision. -/
def signedLevel (blkpos : ℕ) (d : Decision) : ℤ :=
  if tCoeff blkpos < 0 then -d.absLevel else d.absLevel

theorem writeLevels_spec (path : List Decision) (scanIdx : ℕ) (qCoeff : ℕ → ℤ)
    (hlen : scanIdx + path.length ≤ tuPars.numCoeff) {i : ℕ} (hi : i < tuPars.numCoeff) :
    writeLevels tuPars.scanId2BlkPos tCoeff scanIdx path qCoeff (tuPars.scanId2BlkPos i)
      = if scanIdx ≤ i then match path[i - scanIdx]? with
          | some d => signedLevel tCoeff (tuPars.scanId2BlkPos i) d
          | none => qCoeff (tuPars.scanId2BlkPos i)
        else qCoeff (tuPars.scanId2BlkPos i) := by
  induction path generalizing scanIdx qCoeff with
  | nil =>
    unfold writeLevels
    split <;> rfl
  | cons d path ih =>
    rw [List.length_cons] at hlen
    unfold writeLevels
    dsimp only
    rw [ih (scanIdx + 1) _ (by omega)]
    rcases Nat.lt_trichotomy i scanIdx with hlt | rfl | hgt
    · have hne : tuPars.scanId2BlkPos i ≠ tuPars.scanId2BlkPos scanIdx := fun h =>
        absurd (tuPars.injective i hi scanIdx (by omega) h) (by omega)
      rw [if_neg (by omega : ¬scanIdx + 1 ≤ i), if_neg (by omega : ¬scanIdx ≤ i),
        Function.update_of_ne hne]
    · rw [if_neg (by omega : ¬i + 1 ≤ i), if_pos (le_refl i), Nat.sub_self, Function.update_self]
      rfl
    · have hne : tuPars.scanId2BlkPos i ≠ tuPars.scanId2BlkPos scanIdx := fun h =>
        absurd (tuPars.injective i hi scanIdx (by omega) h) (by omega)
      obtain ⟨j, rfl⟩ : ∃ j, i = scanIdx + 1 + j := ⟨i - (scanIdx + 1), by omega⟩
      rw [if_pos (by omega : scanIdx + 1 ≤ scanIdx + 1 + j), if_pos (by omega : scanIdx ≤ scanIdx + 1 + j),
        Function.update_of_ne hne, Nat.add_sub_cancel_left,
        (by omega : scanIdx + 1 + j - scanIdx = j + 1), List.getElem?_cons_succ]

end Levels

end ECM.DepQuant
