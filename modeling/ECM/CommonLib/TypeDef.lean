import Mathlib.Algebra.Group.Nat.Defs
import Mathlib.Algebra.Group.Int.Defs

/-! # Checked computations and machine words

`CHECK(c, x)` of the source throws with message `x` when `c` holds; a function
that may throw returns `Checked`. Unsigned words are numbers, reduced where the
source can wrap. -/

namespace ECM.CommonLib

abbrev Checked := Except String

/-- `CHECK(c, x)`. -/
def check (c : Prop) [Decidable c] (x : String) : Checked Unit :=
  if c then .error x else .ok ()

theorem check_ok {c : Prop} [Decidable c] (x : String) (h : ¬c) : check c x = .ok () := if_neg h

theorem check_error {c : Prop} [Decidable c] (x : String) (h : c) : check c x = .error x := if_pos h

theorem check_eq_ok {c : Prop} [Decidable c] {x : String} {u : Unit} (h : check c x = .ok u) : ¬c := by
  intro hc
  rw [check_error x hc] at h
  cases h

@[simp] theorem ok_bind {ε α β : Type} (a : α) (f : α → Except ε β) :
    ((Except.ok a : Except ε α) >>= f) = f a := rfl

@[simp] theorem error_bind {ε α β : Type} (e : ε) (f : α → Except ε β) :
    ((Except.error e : Except ε α) >>= f) = .error e := rfl

/-- A computation in sequence returns only if both parts do. -/
theorem bind_eq_ok {ε α β : Type} {x : Except ε α} {f : α → Except ε β} {b : β}
    (h : x >>= f = .ok b) : ∃ a, x = .ok a ∧ f a = .ok b := by
  cases x with
  | error e => cases h
  | ok a => exact ⟨a, rfl, h⟩

theorem exists_ok_of_any {α : Type} {x : Checked α} {p : α → Bool}
    (h : x.toOption.any p = true) : ∃ a, x = .ok a ∧ p a = true := by
  cases x with
  | ok a => exact ⟨a, rfl, h⟩
  | error msg => cases h

/-- Reduction to a `uint32_t`. -/
def u32 (n : ℕ) : ℕ := n % 2 ^ 32

theorem u32_of_lt {n : ℕ} (h : n < 2 ^ 32) : u32 n = n := Nat.mod_eq_of_lt h

/-- `a - b` on `uint32_t`. -/
def sub32 (a b : ℕ) : ℕ := u32 (a + 2 ^ 32 - b)

theorem sub32_of_le {a b : ℕ} (h : b ≤ a) (ha : a < 2 ^ 32) : sub32 a b = a - b := by
  unfold sub32 u32
  omega

/-! ## Signed words

What the language leaves undefined is an error here: a result that does not fit into an
`int`, and a shift by less than nothing or by the whole word. -/

/-- The result of an operation on `int`. -/
def int32 (v : ℤ) : Checked ℤ := do
  check (v < -2 ^ 31 ∨ 2 ^ 31 ≤ v) "signed integer overflow"
  return v

theorem int32_ok {v : ℤ} (h : -2 ^ 31 ≤ v ∧ v < 2 ^ 31) : int32 v = .ok v := by
  unfold int32
  rw [check_ok _ (by omega)]
  rfl

/-- `a << n` -/
def shiftLeft32 (a n : ℤ) : Checked ℤ := do
  check (n < 0 ∨ 32 ≤ n) "shift amount out of range"
  int32 (a * 2 ^ n.toNat)

theorem shiftLeft32_ok {a n : ℤ} (hn : 0 ≤ n ∧ n < 32)
    (h : -2 ^ 31 ≤ a * 2 ^ n.toNat ∧ a * 2 ^ n.toNat < 2 ^ 31) :
    shiftLeft32 a n = .ok (a * 2 ^ n.toNat) := by
  unfold shiftLeft32
  rw [check_ok _ (by omega), ok_bind, int32_ok h]

/-- `a >> n` -/
def shiftRight32 (a n : ℤ) : Checked ℤ := do
  check (n < 0 ∨ 32 ≤ n) "shift amount out of range"
  return a >>> n.toNat

theorem shiftRight32_ok {a n : ℤ} (hn : 0 ≤ n ∧ n < 32) : shiftRight32 a n = .ok (a >>> n.toNat) := by
  unfold shiftRight32
  rw [check_ok _ (by omega)]
  rfl

end ECM.CommonLib

/-! # NAL unit types -/

namespace ECM.CommonLib

/-- The maximum of a signed 32-bit integer. -/
def MAX_INT : ℤ := 2147483647

inductive NalUnitType where
  | CODED_SLICE_TRAIL | CODED_SLICE_STSA | CODED_SLICE_RADL | CODED_SLICE_RASL
  | RESERVED_VCL_4 | RESERVED_VCL_5 | RESERVED_VCL_6
  | CODED_SLICE_IDR_W_RADL | CODED_SLICE_IDR_N_LP | CODED_SLICE_CRA | CODED_SLICE_GDR
  | RESERVED_IRAP_VCL_11 | RESERVED_IRAP_VCL_12
  | DCI | VPS | SPS | PPS | PREFIX_APS | SUFFIX_APS | PH | ACCESS_UNIT_DELIMITER | EOS | EOB
  | PREFIX_SEI | SUFFIX_SEI | FD
  | RESERVED_NVCL_26 | RESERVED_NVCL_27
  | UNSPECIFIED_28 | UNSPECIFIED_29 | UNSPECIFIED_30 | UNSPECIFIED_31 | INVALID
  deriving DecidableEq, Repr

namespace NalUnitType

/-- `NAL_UNIT_CODED_SLICE_IDR_W_RADL` or `NAL_UNIT_CODED_SLICE_IDR_N_LP`. -/
def isIDR (t : NalUnitType) : Bool := t = CODED_SLICE_IDR_W_RADL || t = CODED_SLICE_IDR_N_LP

end NalUnitType

end ECM.CommonLib
