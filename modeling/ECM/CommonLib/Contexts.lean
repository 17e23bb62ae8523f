import ECM.CommonLib.TypeDef
import Mathlib.Data.Int.Bitwise
import Mathlib.Data.Nat.Bitwise

/-! # Probability models

`BinProbModel_Std` with the high-precision estimate and the temporal window
weights (`EC_HIGH_PRECISION`, `JVET_Z0135_TEMP_CABAC_WIN_WEIGHT`): two adaptive
states of 15 bits, the two states of the last window-adjusted step, and the
weights that mix these into one probability. -/

namespace ECM.CommonLib.Contexts

/-- `MASK_0` and `MASK_1`: both estimates keep all 15 bits. -/
def mask : Nat := 0x7fff

/-- `ADJUSTMENT_RANGE`. -/
def adjustmentRange : Int := 7

def weightedAdaptRate : List Nat := [10, 12, 16, 20, 22]

/-- `m_RenormTable_32`. -/
def renormTable32 : List Nat :=
  [6, 5, 4, 4, 3, 3, 3, 3, 2, 2, 2, 2, 2, 2, 2, 2, 1, 1, 1, 1, 1, 1, 1, 1, 1, 1, 1, 1, 1, 1, 1, 1]

structure BinProbModel where
  state0 : Nat
  state1 : Nat
  rate : Nat
  stateUsed0 : Nat
  stateUsed1 : Nat
  /-- `m_rateOffset[0]` and `m_rateOffset[1]`. -/
  rateOffset0 : Nat
  rateOffset1 : Nat
  weight : Nat
deriving DecidableEq, Repr

namespace BinProbModel

/-- `BinProbModel_Std()` with `DWS`, `DWE` and `DWO`. -/
def new : BinProbModel := ⟨2 ^ 14, 2 ^ 14, 8, 2 ^ 14, 2 ^ 14, 119, 119, 18⟩

instance : Inhabited BinProbModel := ⟨new⟩

/-- One adaptation step of a 15-bit state with window `rate`. -/
def adapt (state rate : Nat) (bin : Bool) : Nat :=
  (state - ((state >>> rate) &&& mask) + if bin then (0x7fff >>> rate) &&& mask else 0) % 2 ^ 16

/-- `std::max(2, rate + offset - ADJUSTMENT_RANGE)`. -/
def rateUsed (rate offset : Nat) : Nat := (max 2 ((rate : Int) + offset - adjustmentRange)).toNat

def update (m : BinProbModel) (bin : Bool) : BinProbModel :=
  let rate0 := m.rate >>> 4
  let rate1 := m.rate &&& 15
  let ws := if bin then m.rateOffset1 else m.rateOffset0
  { m with
    stateUsed0 := adapt m.state0 (rateUsed rate0 (ws >>> 4)) bin
    stateUsed1 := adapt m.state1 (rateUsed rate1 (ws &&& 15)) bin
    state0 := adapt m.state0 rate0 bin
    state1 := adapt m.state1 rate1 bin }

/-- The weights of the two estimates. -/
def weight0 (m : BinProbModel) : Nat := weightedAdaptRate.getD (m.weight >>> 3) 0
def weight1 (m : BinProbModel) : Nat := weightedAdaptRate.getD (m.weight &&& 7) 0

def state (m : BinProbModel) : Nat :=
  let pd := m.stateUsed0 * m.weight0 + m.stateUsed1 * m.weight1
  (if m.weight0 + m.weight1 ≤ 32 then pd >>> 5 else pd >>> 6) % 2 ^ 16

/-- The index into `m_binFracBits`. -/
def state_est (m : BinProbModel) : Nat :=
  let pd := m.stateUsed0 * m.weight0 + m.stateUsed1 * m.weight1
  (if m.weight0 + m.weight1 ≤ 32 then pd >>> 11 else pd >>> 12) % 2 ^ 16

/-- `state() >> 14`; a bin of the more probable value. -/
def mps (m : BinProbModel) : Nat := m.state >>> 14

def getLPS (m : BinProbModel) (range : Nat) : Nat :=
  let q := if m.state &&& 0x4000 ≠ 0 then m.state ^^^ 0x7fff else m.state
  (((range * (q >>> 6)) >>> 9) + 1) % 2 ^ 8

def getRenormBitsLPS (lps : Nat) : Nat := renormTable32.getD (lps >>> 3) 0

def getRenormBitsRange (_range : Nat) : Nat := 1

def setLog2WindowSize (m : BinProbModel) (log2WindowSize : Nat) : Checked BinProbModel := do
  let rate0 := 2 + ((log2WindowSize >>> 2) &&& 3)
  let rate1 := 3 + rate0 + (log2WindowSize &&& 3)
  let m := { m with rate := 16 * rate0 + rate1 }
  check (rate1 > 9) "Second window size is too large!"
  return m

def setAdaptRateWeight (m : BinProbModel) (weight : Nat) : BinProbModel := { m with weight }

def setAdaptRateOffset (m : BinProbModel) (rateOffset : Nat) (bin : Bool) : BinProbModel :=
  if bin then { m with rateOffset1 := rateOffset } else { m with rateOffset0 := rateOffset }

def getState (m : BinProbModel) : Nat × Nat := (m.state0, m.state1)

def setState (m : BinProbModel) (pState : Nat × Nat) : BinProbModel :=
  { m with state0 := pState.1, state1 := pState.2, stateUsed0 := pState.1, stateUsed1 := pState.2 }

def init (m : BinProbModel) (qp : Int) (initId : Nat) : BinProbModel :=
  let slope : Int := (initId >>> 3 : Nat) - 4
  let offset : Int := ((initId &&& 7) * 18 : Nat) + 1
  let inistate := ((slope * (qp - 16)) >>> 1) + offset
  let stateClip := if inistate < 1 then 1 else if inistate > 127 then 127 else inistate
  let p1 := stateClip.toNat <<< 8
  { m with state0 := p1 &&& mask, state1 := p1 &&& mask,
           stateUsed0 := p1 &&& mask, stateUsed1 := p1 &&& mask }

/-! ## The state invariant -/

/-- States are 15-bit and the weight indices lie in the rate table. -/
structure Ok (m : BinProbModel) : Prop where
  state0_le : m.state0 ≤ 0x7fff
  state1_le : m.state1 ≤ 0x7fff
  stateUsed0_le : m.stateUsed0 ≤ 0x7fff
  stateUsed1_le : m.stateUsed1 ≤ 0x7fff
  weight0_le : m.weight >>> 3 ≤ 4
  weight1_le : m.weight &&& 7 ≤ 4

theorem adapt_le {state : Nat} (h : state ≤ 0x7fff) (rate : Nat) (bin : Bool) :
    adapt state rate bin ≤ 0x7fff := by
  have hmask : ∀ x, x ≤ 0x7fff → x &&& mask = x := by
    intro x hx
    rw [mask, show (0x7fff : Nat) = 2 ^ 15 - 1 from rfl, Nat.and_two_pow_sub_one_eq_mod]
    omega
  simp only [adapt, Nat.shiftRight_eq_div_pow]
  rw [hmask _ (Nat.le_trans (Nat.div_le_self _ _) h), hmask _ (Nat.div_le_self _ _)]
  have hmono : state / 2 ^ rate ≤ 0x7fff / 2 ^ rate := Nat.div_le_div_right h
  -- moving the state up to its bound adds at least as much as the quotient grows
  have hgap : 0x7fff / 2 ^ rate ≤ state / 2 ^ rate + (0x7fff - state) := by
    calc 0x7fff / 2 ^ rate = (state + (0x7fff - state)) / 2 ^ rate := by congr 1; omega
      _ ≤ (state + (0x7fff - state) * 2 ^ rate) / 2 ^ rate :=
          Nat.div_le_div_right
            (Nat.add_le_add_left (Nat.le_mul_of_pos_right _ (Nat.two_pow_pos rate)) _)
      _ = state / 2 ^ rate + (0x7fff - state) := Nat.add_mul_div_right _ _ (Nat.two_pow_pos _)
  have hle := Nat.div_le_self state (2 ^ rate)
  generalize state / 2 ^ rate = d at hmono hgap hle ⊢
  generalize 0x7fff / 2 ^ rate = e at hmono hgap ⊢
  cases bin <;> simp <;> omega

theorem Ok.update {m : BinProbModel} (h : m.Ok) (bin : Bool) : (m.update bin).Ok :=
  ⟨adapt_le h.state0_le _ _, adapt_le h.state1_le _ _, adapt_le h.state0_le _ _,
    adapt_le h.state1_le _ _, h.weight0_le, h.weight1_le⟩

theorem new_ok : new.Ok := by constructor <;> decide

theorem weightedAdaptRate_mem {i : Nat} (h : i ≤ 4) :
    10 ≤ weightedAdaptRate.getD i 0 ∧ weightedAdaptRate.getD i 0 ≤ 22 := by
  have : i = 0 ∨ i = 1 ∨ i = 2 ∨ i = 3 ∨ i = 4 := by omega
  rcases this with rfl | rfl | rfl | rfl | rfl <;> decide

/-- The weighted sum of the estimates, whichever side of 32 the weights add up to. -/
theorem Ok.mix_le {m : BinProbModel} (h : m.Ok) :
    m.stateUsed0 * m.weight0 + m.stateUsed1 * m.weight1 ≤ 0x7fff * (m.weight0 + m.weight1) ∧
      m.weight0 + m.weight1 ≤ 44 := by
  obtain ⟨-, hw0⟩ := weightedAdaptRate_mem h.weight0_le
  obtain ⟨-, hw1⟩ := weightedAdaptRate_mem h.weight1_le
  refine ⟨?_, Nat.add_le_add hw0 hw1⟩
  rw [Nat.mul_add]
  exact Nat.add_le_add (Nat.mul_le_mul_right _ h.stateUsed0_le)
    (Nat.mul_le_mul_right _ h.stateUsed1_le)

/-- The mixed probability stays a 15-bit number. -/
theorem Ok.state_le {m : BinProbModel} (h : m.Ok) : m.state ≤ 0x7fff := by
  obtain ⟨hpd, hweights⟩ := h.mix_le
  simp only [state, Nat.shiftRight_eq_div_pow]
  split <;> omega

theorem Ok.state_est_lt {m : BinProbModel} (h : m.Ok) : m.state_est < 512 := by
  obtain ⟨hpd, hweights⟩ := h.mix_le
  simp only [state_est, Nat.shiftRight_eq_div_pow]
  split <;> omega

theorem Ok.mps_le {m : BinProbModel} (h : m.Ok) : m.mps ≤ 1 := by
  have := h.state_le
  rw [mps, Nat.shiftRight_eq_div_pow]
  omega

/-- Flipping all bits of a 15-bit number. -/
theorem xor_0x7fff {x : Nat} (h : x ≤ 0x7fff) : x ^^^ 0x7fff = 0x7fff - x := by
  apply Nat.eq_of_testBit_eq
  intro i
  rw [show 0x7fff - x = 2 ^ 15 - (x + 1) by omega, Nat.testBit_two_pow_sub_succ (by omega),
    Nat.testBit_xor, show (0x7fff : Nat) = 2 ^ 15 - 1 from rfl, Nat.testBit_two_pow_sub_one]
  by_cases hi : i < 15
  · simp [hi]
  · have hx : x.testBit i = false :=
      Nat.testBit_lt_two_pow (lt_of_lt_of_le (show x < 2 ^ 15 by omega)
        (Nat.pow_le_pow_right (by omega) (by omega)))
    simp [hi, hx]

/-- The probability of the less probable value, in units of 1/512. -/
def lpsShare (m : BinProbModel) : Nat :=
  (if m.state &&& 0x4000 ≠ 0 then m.state ^^^ 0x7fff else m.state) >>> 6

theorem getLPS_eq (m : BinProbModel) (range : Nat) :
    m.getLPS range = (range * m.lpsShare / 512 + 1) % 256 := by
  rw [getLPS, Nat.shiftRight_eq_div_pow _ 9]
  rfl

theorem Ok.lpsShare_le {m : BinProbModel} (h : m.Ok) : m.lpsShare ≤ 255 := by
  have hs := h.state_le
  have hbit : m.state &&& 0x4000 = 2 ^ 14 * (m.state / 2 ^ 14 % 2) := by
    rw [show (0x4000 : Nat) = 2 ^ 14 from rfl, Nat.and_two_pow, Nat.toNat_testBit, Nat.mul_comm]
  rw [lpsShare, Nat.shiftRight_eq_div_pow, hbit, xor_0x7fff hs]
  split <;> omega

/-- The less probable part is never empty and leaves at least half of the
range, rounded down to even, to the other. -/
theorem Ok.getLPS_mem {m : BinProbModel} (h : m.Ok) {range : Nat} (h2 : 2 ≤ range)
    (h510 : range ≤ 510) : 1 ≤ m.getLPS range ∧ 2 * m.getLPS range ≤ range + 1 := by
  rw [getLPS_eq]
  have hmul : range * m.lpsShare ≤ range * 255 := Nat.mul_le_mul_left _ h.lpsShare_le
  omega

/-- The six bits that renormalise the narrowest parts suffice from width 4 on. -/
theorem Ok.four_le_getLPS_iff {m : BinProbModel} (h : m.Ok) {range : Nat} (h510 : range ≤ 510) :
    4 ≤ m.getLPS range ↔ 3 * 512 ≤ range * m.lpsShare := by
  rw [getLPS_eq]
  have hmul : range * m.lpsShare ≤ 510 * 255 := Nat.mul_le_mul h510 h.lpsShare_le
  omega

end BinProbModel

/-! ## Context stores -/

/-- `m_CtxBuffer`. -/
abbrev CtxStore := List BinProbModel

namespace CtxStore

/-- `m_Ctx[ctxId]`. -/
def model (s : CtxStore) (ctxId : Nat) : BinProbModel := s.getD ctxId .new

/-- `m_Ctx[ctxId].update(bin)`. -/
def update (s : CtxStore) (ctxId : Nat) (bin : Bool) : CtxStore :=
  s.set ctxId ((s.model ctxId).update bin)

def Ok (s : CtxStore) : Prop := ∀ m ∈ s, m.Ok

theorem Ok.model {s : CtxStore} (h : s.Ok) (ctxId : Nat) : (s.model ctxId).Ok := by
  unfold CtxStore.model
  rw [List.getD_eq_getElem?_getD]
  cases hg : s[ctxId]? with
  | none => exact BinProbModel.new_ok
  | some m => exact h m (List.mem_of_getElem? hg)

theorem Ok.update {s : CtxStore} (h : s.Ok) (ctxId : Nat) (bin : Bool) :
    (s.update ctxId bin).Ok := by
  intro m hm
  rcases List.mem_or_eq_of_mem_set hm with hm | rfl
  · exact h m hm
  · exact (h.model ctxId).update bin

end CtxStore

end ECM.CommonLib.Contexts
