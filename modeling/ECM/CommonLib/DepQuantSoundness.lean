import Mathlib.Data.List.GetD
import Mathlib.Algebra.Order.Group.Int
import Mathlib.Algebra.Ring.Int.Defs
import Mathlib.Algebra.Ring.Parity
import Mathlib.Logic.Function.Iterate
import ECM.CommonLib.DepQuant

/-! # What one position of the trellis decides

The connections of the trellis and the state transition table are the same
machine; a decision comes from a state below, from a skipped sub-block, from the
start, or is none. -/

namespace ECM.DepQuant
open CommonLib

/-! ## The state machine -/

/-- A setting of dependent quantisation: four or eight states. -/
structure Trellis where
  idc : ℕ
  enabled : idc = 1 ∨ idc = 2

namespace Trellis
variable (T : Trellis)

def numStates : ℕ := 2 <<< T.idc

def next (state : ℕ) (level : ℤ) : ℕ := transition (g_stateTransTab.getD T.idc 0) state level

theorem next_parity (state : ℕ) (level : ℤ) : T.next state (level % 2) = T.next state level := by
  unfold next transition
  rw [Int.emod_emod_of_dvd level (dvd_refl 2)]

theorem next_even (state : ℕ) {level : ℤ} (h : level % 2 = 0) : T.next state level = T.next state 0 := by
  rw [← T.next_parity, h]

theorem next_odd (state : ℕ) {level : ℤ} (h : level % 2 = 1) : T.next state level = T.next state 1 := by
  rw [← T.next_parity, h]

theorem next_neg (state : ℕ) (level : ℤ) : T.next state (-level) = T.next state level := by
  rw [← T.next_parity, ← T.next_parity state level]
  congr 1
  omega

theorem numStates_pos : 0 < T.numStates := by
  obtain ⟨idc, rfl | rfl⟩ := T <;> decide

/-- Each call of `checkRdCosts` follows the table: level parities are those of
the residues of the indices, odd residues belong to odd states. -/
theorem connections_next : ∀ c ∈ connections T.numStates,
    c.prevId < T.numStates ∧ c.pqA < 4 ∧ c.pqB < 4 ∧ c.decA < T.numStates ∧ c.decB < T.numStates
      ∧ T.next c.prevId 0 = c.decA ∧ T.next c.prevId 1 = c.decB
      ∧ c.pqA = 3 * (c.prevId % 2) ∧ c.pqB = 2 - c.prevId % 2 := by
  obtain ⟨idc, rfl | rfl⟩ := T <;> decide

theorem start_next : T.next 0 0 = 0 ∧ T.next 0 1 = if T.numStates > 4 then 2 else 1 := by
  obtain ⟨idc, rfl | rfl⟩ := T <;> decide

theorem start_lt : (if T.numStates > 4 then 2 else 1) < T.numStates := by
  obtain ⟨idc, rfl | rfl⟩ := T <;> decide

/-- The states that `n` levels of zero lead to. -/
def zeroRun (n state : ℕ) : ℕ := (fun s => T.next s 0)^[n] state

@[simp] theorem zeroRun_zero (state : ℕ) : T.zeroRun 0 state = state := rfl

theorem zeroRun_succ (n state : ℕ) : T.zeroRun (n + 1) state = T.next (T.zeroRun n state) 0 :=
  Function.iterate_succ_apply' _ n state

theorem zeroRun_four : ∀ state < T.numStates, T.zeroRun 4 state = state := by
  obtain ⟨idc, rfl | rfl⟩ := T <;> decide

/-- Four zeros lead back to the same state, and so does every multiple of four. -/
theorem zeroRun_of_four_dvd {n : ℕ} (hn : 4 ∣ n) {state : ℕ} (hs : state < T.numStates) :
    T.zeroRun n state = state := by
  obtain ⟨m, rfl⟩ := hn
  unfold zeroRun
  rw [Function.iterate_mul]
  exact Function.iterate_fixed (T.zeroRun_four state hs) m

end Trellis

/-! ## Entries of a list -/

theorem getD_set {α : Type} (l : List α) (i j : ℕ) (a d : α) :
    (l.set i a).getD j d = if i = j ∧ j < l.length then a else l.getD j d := by
  rw [List.getD_eq_getElem?_getD, List.getElem?_set, List.getD_eq_getElem?_getD]
  by_cases hij : i = j
  · subst hij
    by_cases hi : i < l.length
    · rw [if_pos rfl, if_pos hi, if_pos ⟨rfl, hi⟩, Option.getD_some]
    · rw [if_pos rfl, if_neg hi, if_neg (fun h => hi h.2), List.getElem?_eq_none (Nat.not_lt.mp hi)]
  · rw [if_neg hij, if_neg (fun h => hij h.1)]

theorem getD_modify {α : Type} (l : List α) (i j : ℕ) (f : α → α) (d : α) :
    (l.modify i f).getD j d = if i = j ∧ j < l.length then f (l.getD j d) else l.getD j d := by
  rw [List.getD_eq_getElem?_getD, List.getElem?_modify, List.getD_eq_getElem?_getD]
  by_cases hj : j < l.length
  · rw [List.getElem?_eq_getElem hj]
    by_cases hij : i = j <;> simp [hij, hj]
  · rw [List.getElem?_eq_none (Nat.not_lt.mp hj), if_neg (fun h => hj h.2)]
    rfl

/-! ## Pre-quantiser -/

namespace Quantizer
variable (q : Quantizer)

theorem firstQIdx_pos (scaledOrg : ℤ) : 1 ≤ q.firstQIdx scaledOrg := le_max_left _ _

/-- The entry of residue `r` is that of an index of this residue. -/
theorem preQuantCoeff_entry (absCoeff quanCoeff : ℤ) {r : ℕ} (hr : r < 4) :
    ∃ qIdx : ℤ, 1 ≤ qIdx ∧ qIdx % 4 = r
      ∧ (q.preQuantCoeff absCoeff quanCoeff).getD r default = q.pqEntry (absCoeff * quanCoeff) qIdx := by
  have h1 := q.firstQIdx_pos (absCoeff * quanCoeff)
  dsimp only [preQuantCoeff]
  generalize q.firstQIdx (absCoeff * quanCoeff) = q0 at h1 ⊢
  have hcases : r = ((q0 + 3) % 4).toNat ∨ r = ((q0 + 2) % 4).toNat ∨ r = ((q0 + 1) % 4).toNat
      ∨ r = (q0 % 4).toNat := by omega
  rcases hcases with h | h | h | h
  · refine ⟨q0 + 3, by omega, by omega, ?_⟩
    rw [getD_set, if_pos ⟨h.symm, by simp; omega⟩]
  · refine ⟨q0 + 2, by omega, by omega, ?_⟩
    rw [getD_set, if_neg (by omega), getD_set, if_pos ⟨h.symm, by simp; omega⟩]
  · refine ⟨q0 + 1, by omega, by omega, ?_⟩
    rw [getD_set, if_neg (by omega), getD_set, if_neg (by omega), getD_set,
      if_pos ⟨h.symm, by simp; omega⟩]
  · refine ⟨q0, h1, by omega, ?_⟩
    rw [getD_set, if_neg (by omega), getD_set, if_neg (by omega), getD_set, if_neg (by omega),
      getD_set, if_pos ⟨h.symm, by simp; omega⟩]

/-- The change of distortion at a quantisation index. -/
def deltaDist (absCoeff quanCoeff qIdx : ℤ) : ℤ := (q.pqEntry (absCoeff * quanCoeff) qIdx).deltaDist

/-- The level of residue `r` has the parity that belongs to `r`, and its
distortion is that of the index which the parity of the state selects. -/
theorem preQuantCoeff_spec (absCoeff quanCoeff : ℤ) {r : ℕ} (hr : r < 4) :
    ∃ level : ℤ, (q.preQuantCoeff absCoeff quanCoeff).getD r default
        = ⟨level, q.deltaDist absCoeff quanCoeff (2 * level - r % 2)⟩
      ∧ 1 ≤ level ∧ level % 2 = if r = 1 ∨ r = 2 then 1 else 0 := by
  obtain ⟨qIdx, h1, hres, hget⟩ := q.preQuantCoeff_entry absCoeff quanCoeff hr
  have hlevel : (qIdx + 1) >>> (1 : ℕ) = (qIdx + 1) / 2 := Int.shiftRight_eq_div_pow (qIdx + 1) 1
  have hindex : 2 * ((qIdx + 1) / 2) - (r : ℤ) % 2 = qIdx := by omega
  refine ⟨(qIdx + 1) / 2, ?_, by omega, ?_⟩
  · rw [hget, hindex, deltaDist, pqEntry, hlevel]
  · rcases (by omega : r = 0 ∨ r = 1 ∨ r = 2 ∨ r = 3) with rfl | rfl | rfl | rfl
    · rw [if_neg (by omega)]
      omega
    · rw [if_pos (by omega)]
      omega
    · rw [if_pos (by omega)]
      omega
    · rw [if_neg (by omega)]
      omega

end Quantizer

/-- The largest reduction of distortion among the four levels that are tried. -/
def gain (pqData : List PQData) : ℤ := pqData.foldl (fun g d => max g (-d.deltaDist)) 0

theorem le_foldl_gain (pqData : List PQData) (g : ℤ) :
    g ≤ pqData.foldl (fun g d => max g (-d.deltaDist)) g := by
  induction pqData generalizing g with
  | nil => exact Int.le_refl g
  | cons d pqData ih => exact le_trans (le_max_left g (-d.deltaDist)) (ih _)

theorem gain_nonneg (pqData : List PQData) : 0 ≤ gain pqData := le_foldl_gain pqData 0

theorem mem_le_foldl_gain {pqData : List PQData} {d : PQData} (h : d ∈ pqData) (g : ℤ) :
    -d.deltaDist ≤ pqData.foldl (fun g d => max g (-d.deltaDist)) g := by
  induction pqData generalizing g with
  | nil => cases h
  | cons e pqData ih =>
    rcases List.mem_cons.mp h with rfl | h
    · exact le_trans (le_max_right g _) (le_foldl_gain pqData _)
    · exact ih h _

theorem neg_gain_le (pqData : List PQData) (r : ℕ) : -gain pqData ≤ (pqData.getD r default).deltaDist := by
  rw [List.getD_eq_getElem?_getD]
  cases hget : pqData[r]? with
  | none => exact Int.neg_nonpos_of_nonneg (gain_nonneg pqData)
  | some d =>
    have h := mem_le_foldl_gain (List.mem_of_getElem? hget) 0
    exact Int.neg_le_of_neg_le h

/-! ## Decisions -/

/-- Where a decision for the state `k` comes from. -/
inductive Decided (T : Trellis) (est : RateEstimator) (spt : ScanPosType) (lastOffset : ℕ)
    (pqData : List PQData) (dist : ℤ → ℤ) (prev skip : ℕ → State) (k : ℕ) : Decision → Prop
  | unset : Decided T est spt lastOffset pqData dist prev skip k ⟨maxCost >>> (2 : ℕ), -1, -2⟩
  | zero (p bits : ℕ) (hp : p < T.numStates) (hk : T.next p 0 = k) :
    Decided T est spt lastOffset pqData dist prev skip k ⟨(prev p).rdCost + bits, 0, p⟩
  | level (p : ℕ) (level : ℤ) (hp : p < T.numStates) (hl : 1 ≤ level) (hk : T.next p level = k)
    (hg : -gain pqData ≤ dist (2 * level - p % 2)) :
    Decided T est spt lastOffset pqData dist prev skip k
      ⟨(prev p).rdCost + dist (2 * level - p % 2) + (prev p).rates.nonZeroBits spt level, level, p⟩
  | skip (h : spt = .eocsbb) :
    Decided T est spt lastOffset pqData dist prev skip k
      ⟨(skip k).rdCost + (skip k).rates.sbbFracBits.1, 0, (T.numStates + k : ℕ)⟩
  | start (level : ℤ) (hl : 1 ≤ level) (hk : T.next 0 level = k) :
    Decided T est spt lastOffset pqData dist prev skip k
      ⟨dist (2 * level) + lastOffset + est.startRates.levelBits level, level, -1⟩

theorem better_of {P : Decision → Prop} {new decision : Decision} (hn : P new) (hd : P decision) :
    P (better new decision) := by
  unfold better
  split
  · exact hn
  · exact hd

theorem better_le (new decision : Decision) : (better new decision).rdCost ≤ decision.rdCost := by
  unfold better
  split
  · next h => exact le_of_lt h
  · exact le_refl _

theorem better_of_not_lt {new decision : Decision} (h : decision.rdCost ≤ new.rdCost) :
    better new decision = decision := if_neg (not_lt.mpr h)

/-- The list of decisions while `xDecide` improves them. -/
structure Table (P : ℕ → Decision → Prop) (numStates : ℕ) (keepsUpper : Prop) (decisions : List Decision) :
    Prop where
  length : decisions.length = numStates + numStates
  lower : ∀ k < numStates, P k (decisions.getD k default)
  upper : keepsUpper → ∀ k < numStates,
    decisions.getD (numStates + k) default = ⟨maxCost >>> (2 : ℕ), 0, (numStates + k : ℕ)⟩

theorem Table.modify {P : ℕ → Decision → Prop} {numStates : ℕ} {keepsUpper : Prop} {decisions : List Decision}
    (h : Table P numStates keepsUpper decisions) {i : ℕ} {f : Decision → Decision}
    (hf : i < numStates → P i (decisions.getD i default) → P i (f (decisions.getD i default)))
    (hi : numStates ≤ i → ¬keepsUpper) : Table P numStates keepsUpper (decisions.modify i f) := by
  refine ⟨by rw [List.length_modify, h.length], ?_, ?_⟩
  · intro k hk
    rw [getD_modify]
    split
    · next hik =>
      obtain ⟨rfl, _⟩ := hik
      exact hf hk (h.lower i hk)
    · exact h.lower k hk
  · intro hu k hk
    rw [getD_modify, if_neg (fun hik => hi (by omega) hu)]
    exact h.upper hu k hk

theorem Table.foldl {α : Type} {P : ℕ → Decision → Prop} {numStates : ℕ} {keepsUpper : Prop}
    {f : List Decision → α → List Decision} {l : List α}
    (hf : ∀ a ∈ l, ∀ ds, Table P numStates keepsUpper ds → Table P numStates keepsUpper (f ds a))
    {decisions : List Decision} (h : Table P numStates keepsUpper decisions) :
    Table P numStates keepsUpper (l.foldl f decisions) := by
  induction l generalizing decisions with
  | nil => exact h
  | cons a l ih =>
    rw [List.foldl_cons]
    exact ih (fun b hb => hf b (List.mem_cons_of_mem a hb)) (hf a List.mem_cons_self decisions h)

section Position
variable (T : Trellis) (est : RateEstimator) (spt : ScanPosType) (lastOffset : ℕ)
  (q : Quantizer) (absCoeff quanCoeff : ℤ) (prevStates skipStates : List State)

/-- The decisions of one position of the scan. -/
abbrev DecidedAt (k : ℕ) (d : Decision) : Prop :=
  Decided T est spt lastOffset (q.preQuantCoeff absCoeff quanCoeff) (q.deltaDist absCoeff quanCoeff)
    (fun p => prevStates.getD p default) (fun p => skipStates.getD p default) k d

abbrev TableAt (decisions : List Decision) : Prop :=
  Table (DecidedAt T est spt lastOffset q absCoeff quanCoeff prevStates skipStates) T.numStates
    (spt ≠ .eocsbb) decisions

theorem tableAt_startDec :
    TableAt T est spt lastOffset q absCoeff quanCoeff prevStates skipStates (startDec T.numStates) := by
  unfold startDec
  refine ⟨by simp, ?_, ?_⟩
  · intro k hk
    rw [List.getD_append _ _ _ _ (by simpa using hk), List.getD_eq_getElem _ _ (by simpa using hk), List.getElem_replicate]
    exact .unset
  · intro _ k hk
    rw [List.getD_append_right _ _ _ _ (by simp), List.length_replicate, Nat.add_sub_cancel_left,
      List.getD_eq_getElem?_getD, List.getElem?_map, List.getElem?_range hk]
    rfl

theorem decidedAt_checkRdCostsA {c : Connection} (hc : c ∈ connections T.numStates) {d : Decision}
    (hd : DecidedAt T est spt lastOffset q absCoeff quanCoeff prevStates skipStates c.decA d) :
    DecidedAt T est spt lastOffset q absCoeff quanCoeff prevStates skipStates c.decA
      ((prevStates.getD c.prevId default).checkRdCostsA c.prevId spt
        ((q.preQuantCoeff absCoeff quanCoeff).getD c.pqA default) d) := by
  obtain ⟨hp, hA, -, -, -, hnext, -, hpq, -⟩ := T.connections_next c hc
  obtain ⟨level, hget, hl, hpar⟩ := q.preQuantCoeff_spec absCoeff quanCoeff hA
  have hg := neg_gain_le (q.preQuantCoeff absCoeff quanCoeff) c.pqA
  have hidx : (2 * level - (c.pqA : ℤ) % 2) = 2 * level - c.prevId % 2 := by omega
  rw [hget, hidx] at hg
  have hlevel : DecidedAt T est spt lastOffset q absCoeff quanCoeff prevStates skipStates c.decA _ :=
    .level c.prevId level hp hl ((T.next_even c.prevId (by
      rw [hpar, if_neg (by omega)])).trans hnext) hg
  unfold State.checkRdCostsA
  rw [hget, hidx]
  cases hz : (prevStates.getD c.prevId default).rates.zeroBits spt with
  | some bits => exact better_of (.zero c.prevId bits hp hnext) (better_of hlevel hd)
  | none =>
    -- the zero is offered at the cost that the decision had, never below
    dsimp only
    rw [@better_of_not_lt ⟨d.rdCost, 0, c.prevId⟩ _ (better_le _ d)]
    exact better_of hlevel hd

theorem decidedAt_checkRdCostsB {c : Connection} (hc : c ∈ connections T.numStates) {d : Decision}
    (hd : DecidedAt T est spt lastOffset q absCoeff quanCoeff prevStates skipStates c.decB d) :
    DecidedAt T est spt lastOffset q absCoeff quanCoeff prevStates skipStates c.decB
      ((prevStates.getD c.prevId default).checkRdCostsB c.prevId spt
        ((q.preQuantCoeff absCoeff quanCoeff).getD c.pqB default) d) := by
  obtain ⟨hp, -, hB, -, -, -, hnext, -, hpq⟩ := T.connections_next c hc
  obtain ⟨level, hget, hl, hpar⟩ := q.preQuantCoeff_spec absCoeff quanCoeff hB
  have hg := neg_gain_le (q.preQuantCoeff absCoeff quanCoeff) c.pqB
  have hidx : (2 * level - (c.pqB : ℤ) % 2) = 2 * level - c.prevId % 2 := by omega
  rw [hget, hidx] at hg
  have hlevel : DecidedAt T est spt lastOffset q absCoeff quanCoeff prevStates skipStates c.decB _ :=
    .level c.prevId level hp hl ((T.next_odd c.prevId (by
      rw [hpar, if_pos (by omega)])).trans hnext) hg
  unfold State.checkRdCostsB
  rw [hget, hidx]
  exact better_of hlevel hd

theorem tableAt_checkRdCosts {c : Connection} (hc : c ∈ connections T.numStates) {decisions : List Decision}
    (h : TableAt T est spt lastOffset q absCoeff quanCoeff prevStates skipStates decisions) :
    TableAt T est spt lastOffset q absCoeff quanCoeff prevStates skipStates
      (c.checkRdCosts prevStates spt (q.preQuantCoeff absCoeff quanCoeff) decisions) := by
  obtain ⟨-, -, -, hA, hB, -⟩ := T.connections_next c hc
  unfold Connection.checkRdCosts
  refine Table.modify (Table.modify h ?_ fun hle => absurd hA (Nat.not_lt.mpr hle)) ?_
    fun hle => absurd hB (Nat.not_lt.mpr hle)
  · intro _ hd
    exact decidedAt_checkRdCostsA T est spt lastOffset q absCoeff quanCoeff prevStates skipStates hc hd
  · intro _ hd
    exact decidedAt_checkRdCostsB T est spt lastOffset q absCoeff quanCoeff prevStates skipStates hc hd

/-- A start takes a level of residue 0 or 2, as state 0 does. -/
theorem decidedAt_checkRdCostStart {r k : ℕ} (hr : r = 0 ∨ r = 2) (hk : T.next 0 (r / 2 : ℕ) = k) {d : Decision}
    (hd : DecidedAt T est spt lastOffset q absCoeff quanCoeff prevStates skipStates k d) :
    DecidedAt T est spt lastOffset q absCoeff quanCoeff prevStates skipStates k
      (checkRdCostStart est lastOffset ((q.preQuantCoeff absCoeff quanCoeff).getD r default) d) := by
  obtain ⟨level, hget, hl, hpar⟩ := q.preQuantCoeff_spec absCoeff quanCoeff (by omega : r < 4)
  have hidx : 2 * level - (r : ℤ) % 2 = 2 * level := by omega
  have hnext : T.next 0 level = k := by
    rw [← hk, ← T.next_parity, hpar]
    rcases hr with rfl | rfl
    · rfl
    · rfl
  unfold checkRdCostStart
  rw [hget, hidx]
  exact better_of (.start level hl hnext) hd

theorem tableAt_xDecide :
    TableAt T est spt lastOffset q absCoeff quanCoeff prevStates skipStates
      (xDecide est T.numStates prevStates skipStates spt (q.preQuantCoeff absCoeff quanCoeff) lastOffset) := by
  unfold xDecide
  have hconn := Table.foldl
    (fun c hc ds h => tableAt_checkRdCosts T est spt lastOffset q absCoeff quanCoeff prevStates skipStates hc h)
    (tableAt_startDec T est spt lastOffset q absCoeff quanCoeff prevStates skipStates)
  have hlt := T.start_lt
  refine Table.modify (Table.modify ?_ ?_ fun hle => absurd T.numStates_pos (Nat.not_lt.mpr hle)) ?_
    fun hle => absurd hlt (Nat.not_lt.mpr hle)
  · split
    · next hspt =>
      refine Table.foldl (fun k _ ds h => Table.modify h ?_ fun _ hne => hne hspt) hconn
      intro _ hd
      exact better_of (.skip hspt) hd
    · exact hconn
  · intro _ hd
    exact decidedAt_checkRdCostStart T est spt lastOffset q absCoeff quanCoeff prevStates skipStates
      (Or.inl rfl) T.start_next.1 hd
  · intro _ hd
    exact decidedAt_checkRdCostStart T est spt lastOffset q absCoeff quanCoeff prevStates skipStates
      (Or.inr rfl) T.start_next.2 hd

end Position

end ECM.DepQuant
