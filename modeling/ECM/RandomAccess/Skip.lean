import ECM.DecoderLib.DecLib
import Mathlib.Algebra.GroupWithZero.Nat
import Mathlib.Data.List.Induction
import Mathlib.Algebra.BigOperators.Group.List.Basic
import Mathlib.Algebra.Order.BigOperators.Group.List
import Mathlib.Algebra.Order.Group.Int

/-! # Which pictures random access skips

Per picture, the count skips the first ones, then all before the first IDR or
CRA picture, and after a CRA picture the RASL pictures that precede it in output
order until an IDR picture comes. The counter is decremented for each slice, so
this is what happens exactly if the counted pictures have no more slices than the
count. -/

namespace ECM.RandomAccess
open CommonLib DecoderLib List

/-- Decoding can start here. -/
def IsStart (p : CodedPicture) : Prop := p.nalUnitType.isIDR = true ∨ p.nalUnitType = .CODED_SLICE_CRA

/-- The state the decoder starts in. -/
def start (N : ℕ) : SkipState := ⟨N, MAX_INT, false⟩

/-- `MAX_INT` and what is below `-MAX_INT` are no POCs for the pictures that they would be mistaken for. -/
def PocOk (p : SlicePilot) : Prop :=
  (p.nalUnitType = .CODED_SLICE_CRA → p.poc ≠ MAX_INT) ∧ (p.nalUnitType = .CODED_SLICE_RASL → -MAX_INT ≤ p.poc)

instance (p : SlicePilot) : Decidable (PocOk p) := inferInstanceAs (Decidable ((_ → _) ∧ (_ → _)))

variable {iPOCLastDisplay : ℤ} {s : SkipState} {p : CodedPicture} {pilot : SlicePilot} {n k N : ℕ}

/-! ## While the count lasts -/

/-- `m_pocRandomAccess` after a slice. -/
def nextStart (r : ℤ) (pilot : SlicePilot) : ℤ :=
  if pilot.nalUnitType.isIDR then -MAX_INT
  else if r = MAX_INT ∧ pilot.nalUnitType = .CODED_SLICE_CRA then pilot.poc
  else r

/-- The answer for a slice. -/
def SkippedAt (r : ℤ) (pilot : SlicePilot) : Prop :=
  pilot.nalUnitType.isIDR = false ∧
    (r = MAX_INT ∧ pilot.nalUnitType ≠ .CODED_SLICE_CRA ∨
      r ≠ MAX_INT ∧ pilot.poc < r ∧ pilot.nalUnitType = .CODED_SLICE_RASL)

/-- A second slice finds what the first one found. -/
theorem SkippedAt.next {r : ℤ} (hp : PocOk pilot) :
    (SkippedAt (nextStart r pilot) pilot ↔ SkippedAt r pilot) ∧
      nextStart (nextStart r pilot) pilot = nextStart r pilot := by
  unfold SkippedAt nextStart
  cases hidr : pilot.nalUnitType.isIDR with
  | true => simp
  | false =>
    by_cases hr : r = MAX_INT ∧ pilot.nalUnitType = .CODED_SLICE_CRA
    · simp [hr, hp.1 hr.2]
    · simp [hr]

end ECM.RandomAccess
