import ECM.Quant.Trellis

/-! # Trellis quantisation and the decoder agree on the states

`quant` and `dequantBlock` see the same state at each position of the chosen
path, and a sub-block that is skipped leaves the state of its zeros. -/

namespace ECM.DepQuant
open CommonLib

section Quant
variable {est : RateEstimator} {tu : TransformUnit}

/-- The setting that `tu` uses. -/
def TransformUnit.trellis (tu : TransformUnit)
    (hidc : tu.depQuantEnabledIdc = 1 ∨ tu.depQuantEnabledIdc = 2) : Trellis := ⟨tu.depQuantEnabledIdc, hidc⟩

/-- The costs of a path from the start stay below those that begin elsewhere. -/
def CostsInRange (tu : TransformUnit) : Prop :=
  ∀ firstTestPos, tu.firstTestPos = some firstTestPos → gainBelow tu (firstTestPos + 1) ≤ maxCost >>> (2 : ℕ)

theorem quant_sound (m : Memory) (hidc : tu.depQuantEnabledIdc = 1 ∨ tu.depQuantEnabledIdc = 2)
    (h2 : 2 ≤ tu.tuPars.log2SbbSize) (hcosts : CostsInRange tu) :
    ∃ r, quant est tu m = .ok r ∧ Sound (tu.trellis hidc) est tu 0 r.path
      ∧ r.path.length ≤ tu.tuPars.numCoeff
      ∧ r.qCoeff = writeLevels tu.tuPars.scanId2BlkPos tu.tCoeff 0 r.path fun _ => 0 := by
  unfold quant
  cases hfirst : tu.firstTestPos with
  | none => exact ⟨_, rfl, trivial, Nat.zero_le _, rfl⟩
  | some f =>
    have hlt : f < tu.tuPars.numCoeff :=
      Nat.lt_of_lt_of_le (highest_some hfirst).1 tu.lfnstMatrixDim_le
    obtain ⟨s, hs, hlen, hlower⟩ := decided0_populate h2 (Nat.succ_le_of_lt hlt)
      (@inv_init (tu.trellis hidc) est tu f m.currStates m.prevStates m.skipStates)
    have hok : populated est tu m f = .ok s := hs
    dsimp only
    rw [hok]
    dsimp only [ok_bind]
    rcases bestState_spec (s.trellis.headD []) tu.numStates with hnone | ⟨k, hk, hbest, hneg⟩
    · rw [hnone, backtrack_neg _ (by decide)]
      exact ⟨_, rfl, trivial, Nat.zero_le _, rfl⟩
    · rcases hlower k hk with ⟨path, hpath, -⟩ | hle
      · rw [hbest, backtrack_append _ hpath.backtrack]
        refine ⟨_, rfl, hpath.sound, ?_, rfl⟩
        have := hpath.length
        dsimp only
        omega
      · -- a sequence that does not begin at the start is never cheap enough
        exfalso
        have hc := hcosts f hfirst
        have h0 : gainBelow tu 0 = 0 := rfl
        unfold costFloor at hle
        dsimp only at hle
        omega

theorem sound_entry {T : Trellis} {path : List Decision} {scanIdx i : ℕ} {d : Decision}
    (h : Sound T est tu scanIdx path) (hd : path[i]? = some d) :
    Entry T est tu (scanIdx + i) d (path.drop (i + 1)) := by
  induction path generalizing scanIdx i with
  | nil => cases hd
  | cons e path ih =>
    cases i with
    | zero =>
      cases hd
      exact h.1
    | succ i =>
      have := ih h.2 hd
      rwa [Nat.add_assoc, Nat.add_comm 1 i] at this

end Quant

/-! ## `dequantBlock` on the levels of a path -/

section Dequant
variable {T : Trellis} {est : RateEstimator} {tu : TransformUnit} {path : List Decision} {qCoeff : ℕ → ℤ}

/-- `qCoeff` holds the levels of `path`, and zeros above. -/
def Holds (tu : TransformUnit) (path : List Decision) (qCoeff : ℕ → ℤ) : Prop :=
  ∀ i < tu.tuPars.numCoeff, qCoeff (tu.tuPars.scanId2BlkPos i) = match path[i]? with
    | some d => signedLevel tu.tCoeff (tu.tuPars.scanId2BlkPos i) d
    | none => 0

theorem holds_writeLevels (hlen : path.length ≤ tu.tuPars.numCoeff) :
    Holds tu path (writeLevels tu.tuPars.scanId2BlkPos tu.tCoeff 0 path fun _ => 0) := by
  intro i hi
  exact (writeLevels_spec tu.tCoeff path 0 _ (by omega) hi).trans (if_pos (Nat.zero_le i))

theorem next_signedLevel (state blkpos : ℕ) (d : Decision) :
    T.next state (signedLevel tu.tCoeff blkpos d) = T.next state d.absLevel := by
  unfold signedLevel
  split
  · exact T.next_neg state d.absLevel
  · rfl

theorem signedLevel_ne_zero (blkpos : ℕ) {d : Decision} (h : 1 ≤ d.absLevel) :
    signedLevel tu.tCoeff blkpos d ≠ 0 := by
  unfold signedLevel
  split
  · intro h0
    omega
  · intro h0
    omega

/-- The first decision of a path, at its end, has a level above zero. -/
theorem lastScanIdx_path (hs : Sound T est tu 0 path) (hlen : path.length ≤ tu.tuPars.numCoeff)
    (hq : Holds tu path qCoeff) (hne : 0 < path.length) :
    lastScanIdx tu.tuPars qCoeff = some (path.length - 1) := by
  have hlt : path.length - 1 < path.length := Nat.sub_lt hne Nat.one_pos
  have hget : path[path.length - 1]? = some path[path.length - 1] := List.getElem?_eq_getElem hlt
  have he := sound_entry hs hget
  rw [Nat.sub_add_cancel hne, List.drop_length] at he
  have hlevel : 1 ≤ path[path.length - 1].absLevel := by
    rcases he.start with ⟨-, -, h⟩ | ⟨-, h⟩
    · exact h
    · exact absurd rfl h
  refine highest_eq_some (Nat.lt_of_lt_of_le hlt hlen) ?_ ?_
  · rw [hq _ (Nat.lt_of_lt_of_le hlt hlen), hget]
    exact signedLevel_ne_zero _ hlevel
  · intro j hj hjn
    rw [hq j hjn, List.getElem?_eq_none (by omega)]
    exact not_not.mpr rfl

theorem dequantStep_state (p : DequantParameters) (tuPars : TUParameters) (last scanIdx : ℕ) (s : DequantState) :
    (dequantStep p tuPars (g_stateTransTab.getD T.idc 0) qCoeff last scanIdx s).state
      = T.next s.state (qCoeff (tuPars.scanId2BlkPos scanIdx)) := by
  unfold dequantStep
  dsimp only
  split
  · rfl
  · rfl

theorem dequantLoop_state (p : DequantParameters) (hlen : path.length ≤ tu.tuPars.numCoeff)
    (hq : Holds tu path qCoeff) {n : ℕ} (hn : n ≤ path.length) :
    (dequantLoop p tu.tuPars (g_stateTransTab.getD T.idc 0) qCoeff (path.length - 1) n).state
      = stateAfter T (path.drop (path.length - n)) := by
  induction n with
  | zero =>
    rw [Nat.sub_zero, List.drop_length]
    rfl
  | succ n ih =>
    have hidx : path.length - 1 - n < path.length := by omega
    have hdrop : path.drop (path.length - (n + 1))
        = path[path.length - 1 - n] :: path.drop (path.length - n) := by
      rw [(by omega : path.length - (n + 1) = path.length - 1 - n), List.drop_eq_getElem_cons hidx,
        (by omega : path.length - 1 - n + 1 = path.length - n)]
    unfold dequantLoop
    rw [dequantStep_state, ih (Nat.le_of_succ_le hn), hdrop, hq _ (Nat.lt_of_lt_of_le hidx hlen),
      List.getElem?_eq_getElem hidx]
    exact next_signedLevel _ _ _

/-- The decoder's state when it comes to a position of the path. -/
theorem dequantStateAt_path (p : DequantParameters) (hs : Sound T est tu 0 path)
    (hlen : path.length ≤ tu.tuPars.numCoeff) (hq : Holds tu path qCoeff) {i : ℕ} (hi : i < path.length) :
    dequantStateAt p tu.tuPars (g_stateTransTab.getD T.idc 0) qCoeff i
      = stateAfter T (path.drop (i + 1)) := by
  unfold dequantStateAt
  rw [lastScanIdx_path hs hlen hq (Nat.zero_lt_of_lt hi)]
  dsimp only
  rw [dequantLoop_state p hlen hq (by omega)]
  congr 2
  omega

theorem reconstructionIndex_natAbs (blkpos state : ℕ) {d : Decision} (h : 1 ≤ d.absLevel) :
    ((reconstructionIndex (signedLevel tu.tCoeff blkpos d) state).natAbs : ℤ)
      = 2 * d.absLevel - state % 2 := by
  have hshift : ∀ level : ℤ, level <<< (1 : ℕ) = level * 2 := fun level => Int.shiftLeft_eq level 1
  unfold reconstructionIndex signedLevel
  rw [hshift, Nat.and_one_is_mod]
  split
  · rw [if_neg (by omega)]
    omega
  · rw [if_pos (by omega)]
    omega

end Dequant

/-! ## Agreement -/

/-- The state that an index into a stage stands for. -/
def pathState (numStates : ℕ) (prevId : ℤ) : ℤ := if prevId < 0 then 0 else prevId % numStates

/-- At each position of its path `quant` is in the state of `dequantBlock`. -/
def VisitsStates (est : RateEstimator) (tu : TransformUnit) (m : Memory) (p : DequantParameters) : Prop :=
  ∃ r, quant est tu m = .ok r ∧ ∀ i d, r.path[i]? = some d →
    (dequantStateAt p tu.tuPars (g_stateTransTab.getD tu.depQuantEnabledIdc 0) r.qCoeff i : ℤ)
      = pathState tu.numStates d.prevId

/-- What the decision of a scan position and `dequantBlock` have in common,
`dequantState` being the state of `dequantBlock` there and `before` the decision
of the next higher position. -/
structure Agrees (est : RateEstimator) (tu : TransformUnit) (qCoeff : ℕ → ℤ) (scanIdx dequantState : ℕ)
    (d : Decision) (before : Option Decision) : Prop where
  level : qCoeff (tu.tuPars.scanId2BlkPos scanIdx)
    = signedLevel tu.tCoeff (tu.tuPars.scanId2BlkPos scanIdx) d
  state : d.prevId < tu.numStates ∨ tu.tuPars.top scanIdx → (dequantState : ℤ) = pathState tu.numStates d.prevId
  skipped : (tu.numStates : ℤ) ≤ d.prevId → d.absLevel = 0
  together : ¬tu.tuPars.top scanIdx → ∀ e ∈ before,
    (tu.numStates : ℤ) ≤ d.prevId ∨ (tu.numStates : ℤ) ≤ e.prevId → d.prevId = e.prevId
  cost : d.absLevel ≠ 0 → d.rdCost = (before.map Decision.rdCost).getD 0
    + tu.deltaDist scanIdx
      (reconstructionIndex (qCoeff (tu.tuPars.scanId2BlkPos scanIdx)) dequantState).natAbs
    + match before with
      | none => (est.lastOffset scanIdx + est.startRates.levelBits d.absLevel : ℕ)
      | some _ => ((est.rates (scanIdx + 1) dequantState).nonZeroBits (tu.tuPars.spt scanIdx) d.absLevel : ℤ)

theorem agrees_of_entry {T : Trellis} {est : RateEstimator} {tu : TransformUnit} {qCoeff : ℕ → ℤ} {i : ℕ}
    {d : Decision} {rest : List Decision} (hT : T.numStates = tu.numStates) (he : Entry T est tu i d rest)
    (hq : qCoeff (tu.tuPars.scanId2BlkPos i) = signedLevel tu.tCoeff (tu.tuPars.scanId2BlkPos i) d) :
    Agrees est tu qCoeff i (stateAfter T rest) d rest.head? := by
  refine ⟨hq, ?_, ?_, ?_, ?_⟩
  · rw [← hT]
    exact he.state
  · rw [← hT]
    exact he.skipped
  · rw [← hT]
    exact he.together
  · intro hne
    have hpos : 1 ≤ d.absLevel := by
      have := he.nonneg
      omega
    rw [he.cost hne, hq, reconstructionIndex_natAbs _ _ hpos]
    cases rest with
    | nil => rfl
    | cons e rest => rfl

/-- For both settings and sub-blocks of 4, 8, 16 or more coefficients: each
decision of the path agrees with `dequantBlock`, inside a skipped sub-block at
its border; no level lies off the path; and a skipped sub-block leaves the state
that its zeros lead to. -/
theorem quant_agrees (est : RateEstimator) (tu : TransformUnit) (m : Memory) (p : DequantParameters)
    (hidc : tu.depQuantEnabledIdc = 1 ∨ tu.depQuantEnabledIdc = 2) (hsbb : 2 ≤ tu.tuPars.log2SbbSize)
    (hcosts : CostsInRange tu) :
    (∃ r, quant est tu m = .ok r
      ∧ (∀ i d, r.path[i]? = some d → Agrees est tu r.qCoeff i
          (dequantStateAt p tu.tuPars (g_stateTransTab.getD tu.depQuantEnabledIdc 0) r.qCoeff i) d
          r.path[i + 1]?)
      ∧ ∀ i < tu.tuPars.numCoeff, r.path[i]? = none → r.qCoeff (tu.tuPars.scanId2BlkPos i) = 0)
    ∧ ∀ state < tu.numStates,
      codeSubblock (g_stateTransTab.getD tu.depQuantEnabledIdc 0) false
          (List.replicate tu.tuPars.sbbSize 0) state
        = codeSubblock (g_stateTransTab.getD tu.depQuantEnabledIdc 0) true
          (List.replicate tu.tuPars.sbbSize 0) state := by
  obtain ⟨r, hok, hs, hlen, hw⟩ := @quant_sound est tu m hidc hsbb hcosts
  have hq : Holds tu r.path r.qCoeff := hw ▸ holds_writeLevels hlen
  refine ⟨⟨r, hok, ?_, ?_⟩, ?_⟩
  · intro i d hd
    have hi : i < r.path.length := (List.getElem?_eq_some_iff.mp hd).1
    have he := sound_entry hs hd
    rw [Nat.zero_add] at he
    have hlevel := hq i (Nat.lt_of_lt_of_le hi hlen)
    rw [hd] at hlevel
    have hstate := dequantStateAt_path p hs hlen hq hi
    have hagrees := agrees_of_entry rfl he hlevel
    rw [List.head?_drop, ← hstate] at hagrees
    exact hagrees
  · intro i hi hnone
    rw [hq i hi, hnone]
  · intro state hstate
    have hrun : ∀ n, (List.replicate n (0 : ℤ)).foldl (tu.trellis hidc).next state
        = (tu.trellis hidc).zeroRun n state := by
      intro n
      induction n with
      | zero => rfl
      | succ n ih =>
        rw [List.replicate_succ', List.foldl_append, ih, Trellis.zeroRun_succ]
        rfl
    have hz := (tu.trellis hidc).zeroRun_of_four_dvd (tu.tuPars.four_dvd_sbbSize hsbb) hstate
    exact (hz.symm.trans (hrun tu.tuPars.sbbSize).symm)

/-! ## Blocks on which the agreement is narrower -/

/-- Free bits, and a flag of one bit for a coded sub-block. -/
def flagRates : Rates := ⟨0, 4, 0, 0, (0, 1), (0, 0), [0, 0, 0, 0, 0, 0]⟩

def flagEstimator : RateEstimator := ⟨fun _ _ => flagRates, fun _ => flagRates, flagRates, fun _ => 0⟩

/-- An 8x8 block with one coefficient, the first of its last sub-block: the two
sub-blocks in the middle are skipped in state 2. -/
def skippingBlock : TransformUnit where
  tuPars := ⟨64, 4, id, fun _ _ _ _ h => h⟩
  tCoeff := fun blkpos => if blkpos = 48 then 400 else 0
  depQuantEnabledIdc := 2
  lfnstMatrixDim := none
  lfnstMatrixDim_le := Nat.le_refl _
  enableScalingLists := false
  quantCoeff := fun _ => 0
  initQuantBlock := fun _ =>
    ⟨22, -6291456, 23302, 32764, 16777216, 30, 536870912, 89058063727115, 42466194⟩

/-- A 4x4 block quantised with a scaling list and a lambda near `2^-26`: the
costs of its coefficients exceed `maxCost >> 2`. -/
def costlyBlock : TransformUnit where
  tuPars := ⟨16, 4, id, fun _ _ _ _ h => h⟩
  tCoeff := fun blkpos => [20878, 27082, 26676, 24282, 20345, 2451].getD blkpos 0
  depQuantEnabledIdc := 2
  lfnstMatrixDim := none
  lfnstMatrixDim_le := Nat.le_refl _
  enableScalingLists := true
  quantCoeff := fun blkpos => [6452, 10229, 6168, 6553, 7108, 59917].getD blkpos 26214
  initQuantBlock := fun gValue =>
    let qScale := if gValue = -1 then 26214 else gValue
    ⟨27, -201326592, 26214, 32764, 536870912, 0, 0, 350941564146415000 * 2 ^ 27 / (qScale * qScale),
      350941564146415000 * 2 / (qScale * qScale)⟩

def noParameters : DequantParameters := ⟨false, fun _ => 0, 0, 0, 0, 0⟩

/-- Index into the stage and state of the decoder at one position. -/
def statesAt (tu : TransformUnit) (scanIdx : ℕ) : Option (Option ℤ × ℕ) :=
  match quant flagEstimator tu ⟨[], [], [], []⟩ with
  | .ok r => some (r.path[scanIdx]?.map Decision.prevId, dequantStateAt noParameters tu.tuPars
      (g_stateTransTab.getD tu.depQuantEnabledIdc 0) r.qCoeff scanIdx)
  | .error _ => none

theorem not_visitsStates {tu : TransformUnit} {scanIdx state : ℕ} {prevId : ℤ}
    (h : statesAt tu scanIdx = some (some prevId, state)) (hne : (state : ℤ) ≠ pathState tu.numStates prevId) :
    ¬VisitsStates flagEstimator tu ⟨[], [], [], []⟩ noParameters := by
  rintro ⟨r, hok, hall⟩
  unfold statesAt at h
  rw [hok] at h
  obtain ⟨hprev, hstate⟩ := Prod.mk.inj (Option.some.inj h)
  obtain ⟨d, hd, rfl⟩ := Option.map_eq_some_iff.mp hprev
  apply hne
  rw [← hstate]
  exact hall scanIdx d hd

theorem states_differ :
    ¬VisitsStates flagEstimator skippingBlock ⟨[], [], [], []⟩ noParameters
      ∧ ¬VisitsStates flagEstimator costlyBlock ⟨[], [], [], []⟩ noParameters :=
  ⟨@not_visitsStates skippingBlock 17 5 10 (by decide +kernel) (by decide),
    @not_visitsStates costlyBlock 4 2 1 (by decide +kernel) (by decide)⟩

theorem quant_agrees_skipping :
    (∃ r, quant flagEstimator skippingBlock ⟨[], [], [], []⟩ = .ok r
      ∧ (∀ i d, r.path[i]? = some d → Agrees flagEstimator skippingBlock r.qCoeff i
          (dequantStateAt noParameters skippingBlock.tuPars (g_stateTransTab.getD 2 0) r.qCoeff i) d
          r.path[i + 1]?)
      ∧ ∀ i < 64, r.path[i]? = none → r.qCoeff i = 0)
    ∧ ∀ state < 8,
      codeSubblock (g_stateTransTab.getD 2 0) false (List.replicate 16 0) state
        = codeSubblock (g_stateTransTab.getD 2 0) true (List.replicate 16 0) state :=
  quant_agrees flagEstimator skippingBlock ⟨[], [], [], []⟩ noParameters (Or.inr rfl) (by decide) (by
    intro f hf
    have h48 : skippingBlock.firstTestPos = some 48 := by decide +kernel
    rw [h48] at hf
    cases hf
    decide +kernel)

end ECM.DepQuant
