import ECM.CommonLib.Contexts
import ECM.Lib.IntervalCoder

/-! # What a bin does to the coding interval

The exact intervals behind the registers of both arithmetic coders: a context
bin splits the range by `getLPS`, a bypass bin halves it, `n` bypass bins cut
it into `2 ^ n` equal parts, and a terminating bin splits off the last two
units. The register width is 9 bits at shift 0, a decoder keeps 7 guard bits. -/

namespace ECM.CommonLib.BinInterval
open Lib.IntervalCoder CommonLib.Contexts

/-- `m_Range = 510` before the first bin. -/
def start : Interval := ⟨0, 510, 0⟩

def binsEP (I : Interval) (bins numBins : Nat) : Interval :=
  (I.scale numBins).narrow (I.range * bins) I.range

def binEP (I : Interval) (bin : Bool) : Interval := binsEP I bin.toNat 1

def bin (I : Interval) (m : BinProbModel) (b : Bool) : Interval :=
  let lps := m.getLPS I.range
  let range := I.range - lps
  if b.toNat ≠ m.mps then (I.narrow range lps).scale (BinProbModel.getRenormBitsLPS lps)
  else if range < 256 then (I.narrow 0 range).scale (BinProbModel.getRenormBitsRange range)
  else I.narrow 0 range

def binTrm (I : Interval) (b : Bool) : Interval :=
  if b then (I.narrow (I.range - 2) 2).scale 7
  else if I.range - 2 ≥ 256 then I.narrow 0 (I.range - 2)
  else (I.narrow 0 (I.range - 2)).scale 1

/-- Bypass bins in two portions are bypass bins at once. -/
theorem binsEP_binsEP (I : Interval) (a b m n : Nat) :
    binsEP (binsEP I a m) b n = binsEP I (a * 2 ^ n + b) (m + n) := by
  simp only [binsEP, Interval.scale, Interval.narrow, Nat.pow_add, Nat.add_assoc, Interval.mk.injEq]
  refine ⟨?_, trivial, trivial⟩
  ring

@[simp] theorem binsEP_zero (I : Interval) : binsEP I 0 0 = I := by
  simp [binsEP, Interval.narrow]

@[simp] theorem binsEP_range (I : Interval) (v n : Nat) : (binsEP I v n).range = I.range := rfl
@[simp] theorem binsEP_shift (I : Interval) (v n : Nat) : (binsEP I v n).shift = I.shift + n := rfl

/-! ## Ranges

The range never leaves `[64, 510]`. It can fall below 256: the six bits that
`m_RenormTable_32` gives the narrowest parts lift a part of width 1 to 64. -/

structure Ranged (I : Interval) : Prop where
  ge : 64 ≤ I.range
  le : I.range ≤ 510

theorem start_ranged : Ranged start := ⟨by decide, by decide⟩

theorem getRenormBitsLPS_le (lps : Nat) : BinProbModel.getRenormBitsLPS lps ≤ 6 := by
  unfold BinProbModel.getRenormBitsLPS
  by_cases h : lps >>> 3 < 32
  · have : ∀ i, i < 32 → renormTable32.getD i 0 ≤ 6 := by decide
    exact this _ h
  · rw [List.getD_eq_default _ _ (by simpa [renormTable32] using h)]
    omega

theorem renormLPS_mem {lps : Nat} (h1 : 1 ≤ lps) (h255 : lps ≤ 255) :
    64 ≤ lps * 2 ^ BinProbModel.getRenormBitsLPS lps ∧
      lps * 2 ^ BinProbModel.getRenormBitsLPS lps ≤ 510 ∧
      (256 ≤ lps * 2 ^ BinProbModel.getRenormBitsLPS lps ↔ 4 ≤ lps) := by
  have : ∀ l, l < 256 → 1 ≤ l → 64 ≤ l * 2 ^ BinProbModel.getRenormBitsLPS l ∧
      l * 2 ^ BinProbModel.getRenormBitsLPS l ≤ 510 ∧
      (256 ≤ l * 2 ^ BinProbModel.getRenormBitsLPS l ↔ 4 ≤ l) := by decide +kernel
  exact this lps (by omega) h1

variable {I : Interval} {m : BinProbModel}

/-- The two parts of the range a context bin splits. -/
theorem split_mem (hI : Ranged I) (hm : m.Ok) :
    1 ≤ m.getLPS I.range ∧ m.getLPS I.range ≤ 255 ∧
      64 ≤ 2 * (I.range - m.getLPS I.range) ∧ m.getLPS I.range < I.range := by
  obtain ⟨h64, h510⟩ := hI
  obtain ⟨h1, h2⟩ := hm.getLPS_mem (show 2 ≤ I.range by omega) h510
  have he := m.getLPS_eq I.range
  omega

theorem bin_ranged (hI : Ranged I) (hm : m.Ok) (b : Bool) : Ranged (bin I m b) := by
  obtain ⟨h1, h255, hmps, hlt⟩ := split_mem hI hm
  obtain ⟨h64, h510, -⟩ := renormLPS_mem h1 h255
  have hle := hI.le
  simp only [bin]
  split
  · exact ⟨h64, h510⟩
  · split
    · simp only [BinProbModel.getRenormBitsRange]
      exact ⟨by simp; omega, by simp; omega⟩
    · exact ⟨by simp; omega, by simp; omega⟩

theorem binsEP_ranged (hI : Ranged I) (v n : Nat) : Ranged (binsEP I v n) := ⟨hI.ge, hI.le⟩

theorem binTrm_ranged (hI : Ranged I) (b : Bool) : Ranged (binTrm I b) := by
  obtain ⟨h64, h510⟩ := hI
  simp only [binTrm]
  split
  · exact ⟨by simp, by simp⟩
  · split
    · exact ⟨by simp; omega, by simp; omega⟩
    · exact ⟨by simp; omega, by simp; omega⟩

end ECM.CommonLib.BinInterval
