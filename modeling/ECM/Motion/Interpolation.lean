import ECM.CommonLib.InterpolationFilter
import Mathlib.Tactic.IntervalCases
import Mathlib.Tactic.Linarith

/-! # Interpolation in 16 bits

The values of both passes from the gain of the filters: the taps that are not negative add up to the
gain, and all of them to 256. -/

namespace ECM.Motion.Interpolation
open CommonLib CommonLib.InterpolationFilter
open CommonLib.Lmcs (toPel)
open CommonLib.LoopFilter (ClpRng)

/-! ## Gains -/

/-- The sum of the positive taps. -/
def gain (coeff : List ℤ) : ℤ := (coeff.map (max 0)).sum

theorem gain_cons (c : ℤ) (cs : List ℤ) : gain (c :: cs) = max 0 c + gain cs := rfl

variable {lo hi q v : ℤ} {coeff : List ℤ} {x : ℕ → ℤ}

/-- A sum of taps is greatest with the highest value under each positive tap and the lowest under the others. -/
theorem tapSum_le (coeff : List ℤ) (hx : ∀ i, lo ≤ x i ∧ x i ≤ hi) : tapSum coeff x ≤ gain coeff * (hi - lo) + coeff.sum * lo := by
  induction coeff generalizing x with
  | nil => simp [tapSum, gain]
  | cons c cs ih =>
    have hrest := ih (x := fun i => x (i + 1)) fun i => hx (i + 1)
    have hfirst : x 0 * c ≤ max 0 c * (hi - lo) + c * lo := by
      obtain ⟨hlow, hhigh⟩ := hx 0
      rcases le_total 0 c with hc | hc
      · rw [max_eq_right hc]
        nlinarith
      · rw [max_eq_left hc]
        nlinarith
    rw [tapSum, gain_cons, List.sum_cons]
    linarith

theorem le_tapSum (coeff : List ℤ) (hx : ∀ i, lo ≤ x i ∧ x i ≤ hi) : coeff.sum * hi - gain coeff * (hi - lo) ≤ tapSum coeff x := by
  induction coeff generalizing x with
  | nil => simp [tapSum, gain]
  | cons c cs ih =>
    have hrest := ih (x := fun i => x (i + 1)) fun i => hx (i + 1)
    have hfirst : c * hi - max 0 c * (hi - lo) ≤ x 0 * c := by
      obtain ⟨hlow, hhigh⟩ := hx 0
      rcases le_total 0 c with hc | hc
      · rw [max_eq_right hc]
        nlinarith
      · rw [max_eq_left hc]
        nlinarith
    rw [tapSum, gain_cons, List.sum_cons]
    linarith

/-- The taps add up to 256, the positive ones to `q` at most. -/
def HasGain (q : ℤ) (f : Filter) : Prop :=
  match f with
  | .copy => True
  | .taps coeff => coeff.sum = 256 ∧ gain coeff ≤ q

theorem tapSum_mem (hf : HasGain q (.taps coeff)) (hx : ∀ i, lo ≤ x i ∧ x i ≤ hi) :
    256 * hi - q * (hi - lo) ≤ tapSum coeff x ∧ tapSum coeff x ≤ q * (hi - lo) + 256 * lo := by
  obtain ⟨hsum, hgain⟩ := hf
  have hlow := le_tapSum coeff hx
  have hhigh := tapSum_le coeff hx
  have hwidth : 0 ≤ hi - lo := by
    have := hx 0
    omega
  have hmul := mul_le_mul_of_nonneg_right hgain hwidth
  rw [hsum] at hlow hhigh
  constructor <;> linarith

/-! ## Words -/

/-- The values of a `Pel`. -/
def InPel (v : ℤ) : Prop := -32768 ≤ v ∧ v ≤ 32767

theorem toPel_eq_iff : toPel v = v ↔ InPel v := by
  rw [toPel, InPel]
  constructor
  · intro h
    have hlow := Int.le_bmod (x := v) (m := 2 ^ 16) (by decide)
    have hhigh := Int.bmod_lt (x := v) (m := 2 ^ 16) (by decide)
    rw [h] at hlow hhigh
    omega
  · rintro ⟨hlow, hhigh⟩
    exact Int.bmod_eq_of_le (by omega) (by omega)

/-! ## Passes -/

variable {bd : ℕ} {f : Filter} {src : Block} {isVertical : Bool}

/-- The bit depths of which the headroom fills up 14 bits. -/
def Depth (bd : ℕ) : Prop := 8 ≤ bd ∧ bd ≤ 12

def Samples (bd : ℕ) (src : Block) : Prop := ∀ row col, 0 ≤ src row col ∧ src row col ≤ 2 ^ bd - 1

theorem window_mem (isVertical : Bool) (taps : ℕ) (hsrc : ∀ row col, lo ≤ src row col ∧ src row col ≤ hi) (row col : ℤ) (i : ℕ) :
    lo ≤ window isVertical taps src row col i ∧ window isVertical taps src row col i ≤ hi := by
  rw [window]
  split
  · exact hsrc _ _
  · exact hsrc _ _

/-- What the first of two passes leaves. -/
theorem firstPass_mem (isVertical : Bool) (hbd : Depth bd) (hq : 256 ≤ q) (hf : HasGain q f) (hsrc : Samples bd src) (row col : ℤ) :
    -(q - 256) * 64 - 8192 ≤ passVal id f isVertical true false bd src row col ∧
      passVal id f isVertical true false bd src row col ≤ q * 64 - 8193 := by
  obtain ⟨hlow, hhigh⟩ := hbd
  cases f with
  | copy =>
    have hx := hsrc row col
    dsimp only [passVal, copyVal, IF_INTERNAL_FRAC_BITS, IF_INTERNAL_PREC, IF_INTERNAL_OFFS, id]
    rw [if_neg (by decide), if_pos rfl]
    interval_cases bd <;> simp only [Int.shiftLeft_eq] at * <;> norm_num at * <;> omega
  | taps coeff =>
    have hsum := tapSum_mem hf (window_mem isVertical coeff.length hsrc row col)
    dsimp only [passVal, filterVal, IF_INTERNAL_FRAC_BITS, IF_INTERNAL_PREC, IF_INTERNAL_OFFS, IF_FILTER_PREC, id]
    generalize tapSum coeff _ = s at hsum
    rw [Int.shiftRight_eq_div_pow]
    interval_cases bd <;> simp [Int.shiftLeft_eq] at * <;> omega

/-- What the only pass computes. -/
theorem onlyPass_mem (isVertical : Bool) (hbd : Depth bd) (hq : 256 ≤ q) (hf : HasGain q f) (hsrc : Samples bd src) (row col : ℤ) :
    -(q - 256) * 16 ≤ passVal id f isVertical true true bd src row col ∧
      passVal id f isVertical true true bd src row col ≤ q * 16 := by
  obtain ⟨hlow, hhigh⟩ := hbd
  cases f with
  | copy =>
    have hx := hsrc row col
    dsimp only [passVal, copyVal]
    rw [if_pos rfl]
    interval_cases bd <;> norm_num at hx <;> omega
  | taps coeff =>
    have hsum := tapSum_mem hf (window_mem isVertical coeff.length hsrc row col)
    dsimp only [passVal, filterVal, IF_FILTER_PREC, id]
    generalize tapSum coeff _ = s at hsum
    rw [Int.shiftRight_eq_div_pow]
    interval_cases bd <;> simp [Int.shiftLeft_eq] at * <;> omega

variable {m M : ℤ}

/-- The second of two passes, from what the first one leaves. -/
theorem secondPass_mem (hf : HasGain q f) (hm : m ≤ 0) (hM : 0 ≤ M) (hq : 256 ≤ q)
    (hsrc : ∀ row col, m ≤ src row col ∧ src row col ≤ M) (row col : ℤ) :
    (256 * M - q * (M - m)) / 256 ≤ passVal id f isVertical false false bd src row col ∧
      passVal id f isVertical false false bd src row col ≤ (q * (M - m) + 256 * m) / 256 := by
  cases f with
  | copy =>
    obtain ⟨hlow, hhigh⟩ := hsrc row col
    dsimp only [passVal, copyVal]
    rw [if_pos rfl]
    have hwidth := mul_le_mul_of_nonneg_right hq (show 0 ≤ M - m by omega)
    omega
  | taps coeff =>
    have hsum := tapSum_mem hf (window_mem isVertical coeff.length hsrc row col)
    dsimp only [passVal, filterVal, IF_FILTER_PREC, id]
    generalize tapSum coeff _ = s at hsum
    generalize q * (M - m) = w at hsum ⊢
    rw [Int.shiftRight_eq_div_pow]
    simp
    omega

theorem lastPass_mem (hbd : Depth bd) (hf : HasGain q f) (hm : -16600 ≤ m ∧ m ≤ 0) (hM : 0 ≤ M ∧ M ≤ 16600)
    (hq : 256 ≤ q ∧ q ≤ 400) (hsrc : ∀ row col, m ≤ src row col ∧ src row col ≤ M) (row col : ℤ) :
    InPel (passVal id f isVertical false true bd src row col) := by
  obtain ⟨hlow, hhigh⟩ := hbd
  rw [InPel]
  cases f with
  | copy =>
    have hx := hsrc row col
    dsimp only [passVal, copyVal, IF_INTERNAL_FRAC_BITS, IF_INTERNAL_PREC, IF_INTERNAL_OFFS, id]
    rw [if_neg (by decide), if_neg (by decide), Int.shiftRight_eq_div_pow]
    interval_cases bd <;> simp [Int.shiftLeft_eq] <;> omega
  | taps coeff =>
    have hsum := tapSum_mem hf (window_mem isVertical coeff.length hsrc row col)
    have hwidth : q * (M - m) ≤ 400 * (M - m) := mul_le_mul_of_nonneg_right hq.2 (by omega)
    dsimp only [passVal, filterVal, IF_INTERNAL_FRAC_BITS, IF_INTERNAL_PREC, IF_INTERNAL_OFFS, IF_FILTER_PREC, id]
    generalize tapSum coeff _ = s at hsum
    rw [Int.shiftRight_eq_div_pow]
    interval_cases bd <;> simp [Int.shiftLeft_eq] <;> omega

/-! ## Tables -/

/-- The twelve taps of a position. -/
def taps12 (frac : ℕ) : Filter := .taps (m_lumaFilter12.getD frac [])

/-- The filters of luma; `m_lumaFilter` are the eight taps that the source keeps for affine blocks. -/
def IsLuma (f : Filter) : Prop :=
  (∃ frac nFilterIdx useAltHpelIf, lumaFilter frac nFilterIdx useAltHpelIf = .ok f) ∨ ∃ coeff ∈ m_lumaFilter, f = .taps coeff

def IsChroma (f : Filter) : Prop := ∃ frac cs nFilterIdx, chromaFilter frac cs nFilterIdx = .ok f

/-- Every row of a table adds up to 256 and has at most the gain. -/
def GainTable (q : ℤ) (table : List (List ℤ)) : Prop := ∀ coeff ∈ table, coeff.sum = 256 ∧ gain coeff ≤ q

instance (q : ℤ) (table : List (List ℤ)) : Decidable (GainTable q table) :=
  inferInstanceAs (Decidable (∀ coeff ∈ table, coeff.sum = 256 ∧ gain coeff ≤ q))

theorem GainTable.hasGain {table : List (List ℤ)} (h : GainTable q table) {i : ℕ} (hi : i < table.length) :
    HasGain q (.taps (table.getD i [])) := by
  rw [List.getD_eq_getElem?_getD, List.getElem?_eq_getElem hi, Option.getD_some]
  exact h _ (List.getElem_mem hi)

theorem taps12_gain {frac : ℕ} (hfrac : frac < 16) : HasGain 378 (taps12 frac) ∨ frac = 7 ∨ frac = 8 ∨ frac = 9 := by
  have hrows : ∀ i < 16, (m_lumaFilter12.getD i []).sum = 256 ∧
      (gain (m_lumaFilter12.getD i []) ≤ 378 ∨ i = 7 ∨ i = 8 ∨ i = 9) := by decide +kernel
  obtain ⟨hsum, hgain⟩ := hrows frac hfrac
  exact hgain.imp_left fun h => ⟨hsum, h⟩

theorem taps12_gain_seven : HasGain 384 (taps12 7) := by
  constructor
  · rfl
  · decide

theorem taps12_gain_eight : HasGain 386 (taps12 8) := by
  constructor
  · rfl
  · decide

theorem taps12_gain_nine : HasGain 384 (taps12 9) := by
  constructor
  · rfl
  · decide

theorem lumaFilter_gain {frac nFilterIdx : ℕ} {alt : Bool} (h : lumaFilter frac nFilterIdx alt = .ok f) :
    HasGain 378 f ∨ ∃ i, (i = 7 ∨ i = 8 ∨ i = 9) ∧ f = taps12 i := by
  rw [lumaFilter] at h
  split at h
  · cases h
    exact .inl trivial
  · obtain ⟨u, hcheck, h⟩ := bind_eq_ok h
    have hfrac : frac < 16 := Nat.lt_of_not_le (check_eq_ok hcheck)
    cases h
    split_ifs
    · exact .inl ((by decide +kernel : GainTable 378 m_bilinearFilter).hasGain hfrac)
    · exact .inl ((by decide +kernel : GainTable 378 m_lumaFilter4x4).hasGain hfrac)
    · exact .inl ((by decide +kernel : GainTable 378 m_lumaFilterRPR1).hasGain hfrac)
    · exact .inl ((by decide +kernel : GainTable 378 m_lumaFilterRPR2).hasGain hfrac)
    · exact .inl ((by decide +kernel : GainTable 378 m_affineLumaFilterRPR1).hasGain hfrac)
    · exact .inl ((by decide +kernel : GainTable 378 m_affineLumaFilterRPR2).hasGain hfrac)
    · exact .inl ⟨rfl, by decide⟩
    · exact (taps12_gain hfrac).imp_right fun h => ⟨frac, h, rfl⟩

theorem IsLuma.gain (h : IsLuma f) : HasGain 378 f ∨ ∃ i, (i = 7 ∨ i = 8 ∨ i = 9) ∧ f = taps12 i := by
  rcases h with ⟨frac, nFilterIdx, alt, hf⟩ | ⟨coeff, hmem, rfl⟩
  · exact lumaFilter_gain hf
  · exact .inl ((by decide +kernel : GainTable 378 m_lumaFilter) coeff hmem)

theorem IsChroma.gain (h : IsChroma f) : HasGain 378 f := by
  obtain ⟨frac, cs, nFilterIdx, hf⟩ := h
  rw [chromaFilter] at hf
  split at hf
  · cases hf
    trivial
  · obtain ⟨u, hcheck, h⟩ := bind_eq_ok hf
    have hfrac : frac <<< (1 - cs) < 32 := by
      have hno := check_eq_ok hcheck
      rw [not_or] at hno
      exact Nat.lt_of_not_le hno.2
    cases h
    split_ifs
    · exact (by decide +kernel : GainTable 378 m_chromaFilterRPR1).hasGain hfrac
    · exact (by decide +kernel : GainTable 378 m_chromaFilterRPR2).hasGain hfrac
    · exact (by decide +kernel : GainTable 378 m_chromaFilter).hasGain hfrac

/-! ## Exact passes -/

/-- All values that become a `Pel` are what they are without the conversion: of a pass that is the only one,
in each direction, of the first of two passes, and of the second on what the first has stored. -/
def ExactPasses (bd : ℕ) (clpRng : ClpRng) (hor ver : Filter) (isLast : Bool) : Prop :=
  ∀ src, Samples bd src → ∀ row col,
    passVal toPel hor false true isLast bd src row col = passVal id hor false true isLast bd src row col ∧
    passVal toPel ver true true isLast bd src row col = passVal id ver true true isLast bd src row col ∧
    passVal toPel hor false true false bd src row col = passVal id hor false true false bd src row col ∧
    passVal toPel ver true false isLast bd (pass toPel hor false true false bd clpRng src) row col =
      passVal id ver true false isLast bd (pass id hor false true false bd clpRng src) row col

/-- The pairs of positions whose gains multiply to too much. -/
def steepPairs : List (ℕ × ℕ) := [(7, 8), (8, 7), (8, 8), (8, 9), (9, 8)]

/-- The twelve taps of such positions, in passes after which there is more to add. -/
def TooSteep (hor ver : Filter) (isLast : Bool) : Prop :=
  isLast = false ∧ ∃ p ∈ steepPairs, hor = taps12 p.1 ∧ ver = taps12 p.2

theorem passVal_toPel {isFirst isLast : Bool} {row col : ℤ} (h : InPel (passVal id f isVertical isFirst isLast bd src row col))
    (hcopy : isFirst = true → isLast = false → Samples bd src ∧ Depth bd) :
    passVal toPel f isVertical isFirst isLast bd src row col = passVal id f isVertical isFirst isLast bd src row col := by
  cases f with
  | taps coeff => exact toPel_eq_iff.mpr h
  | copy =>
    dsimp only [passVal, copyVal] at h ⊢
    split_ifs with hsame hfirst
    · rfl
    · rw [if_neg hsame, if_pos hfirst] at h
      have hlast : isLast = false := by
        cases isLast with
        | true => exact absurd hfirst hsame
        | false => rfl
      obtain ⟨hsrc, hlow, hhigh⟩ := hcopy hfirst hlast
      have hx := hsrc row col
      have hoffs : toPel IF_INTERNAL_OFFS = IF_INTERNAL_OFFS := rfl
      have hshift : toPel (src row col <<< IF_INTERNAL_FRAC_BITS bd) = src row col <<< IF_INTERNAL_FRAC_BITS bd := by
        rw [toPel_eq_iff, InPel, IF_INTERNAL_FRAC_BITS, IF_INTERNAL_PREC, Int.shiftLeft_eq]
        interval_cases bd <;> norm_num at hx ⊢ <;> omega
      rw [hoffs, hshift]
      exact toPel_eq_iff.mpr h
    · rw [if_neg hsame, if_neg hfirst] at h
      exact toPel_eq_iff.mpr h

/-- Gains of the two passes that 16 bits have room for. -/
def Fits (q r : ℤ) (isLast : Bool) : Prop :=
  (256 ≤ q ∧ q ≤ 386) ∧ (256 ≤ r ∧ r ≤ 386) ∧ (isLast = true ∨ q ≤ 384 ∧ r ≤ 384 ∨ r ≤ 378 ∨ q ≤ 378)

/-- The first of two passes does not clip. -/
theorem pass_first (pel : ℤ → ℤ) (clpRng : ClpRng) :
    pass pel f isVertical true false bd clpRng src = passVal pel f isVertical true false bd src := by
  cases f <;> rfl

variable {r : ℤ} {hor ver : Filter} {clpRng : ClpRng} {isLast : Bool}

theorem secondPass_fits (hbd : Depth bd) (hfits : Fits q r isLast) (hver : HasGain r ver)
    (hsrc : ∀ row col, -(q - 256) * 64 - 8192 ≤ src row col ∧ src row col ≤ q * 64 - 8193) (row col : ℤ) :
    InPel (passVal id ver isVertical false isLast bd src row col) := by
  obtain ⟨hq, hr, hcases⟩ := hfits
  cases isLast with
  | true => exact lastPass_mem hbd hver (by omega) (by omega) (by omega) hsrc row col
  | false =>
    obtain ⟨hlow, hhigh⟩ := secondPass_mem hver (by omega) (by omega) hr.1 hsrc row col
    generalize passVal id ver isVertical false false bd src row col = v at hlow hhigh
    have hwidth : ∀ r', r ≤ r' → r * (q * 64 - 8193 - (-(q - 256) * 64 - 8192)) ≤ r' * (128 * q - 16385) := by
      intro r' hle
      rw [show q * 64 - 8193 - (-(q - 256) * 64 - 8192) = 128 * q - 16385 by omega]
      exact mul_le_mul_of_nonneg_right hle (by omega)
    rw [InPel]
    rcases hcases with hlast | ⟨hq', hr'⟩ | hr' | hq'
    · exact absurd hlast Bool.noConfusion
    · have hle := hwidth _ hr'
      omega
    · have hle := hwidth _ hr'
      omega
    · have hle := hwidth _ hr.2
      omega

theorem exactPasses (hbd : Depth bd) (hfits : Fits q r isLast) (hhor : HasGain q hor) (hver : HasGain r ver) :
    ExactPasses bd clpRng hor ver isLast := by
  obtain ⟨hq, hr, hcases⟩ := hfits
  intro src hsrc row col
  have hfirst := firstPass_mem false hbd hq.1 hhor hsrc
  have hfirstEq : ∀ row col,
      passVal toPel hor false true false bd src row col = passVal id hor false true false bd src row col := by
    intro row col
    refine passVal_toPel ?_ fun _ _ => ⟨hsrc, hbd⟩
    have hmem := hfirst row col
    rw [InPel]
    omega
  refine ⟨?_, ?_, hfirstEq row col, ?_⟩
  · cases isLast with
    | true =>
      refine passVal_toPel ?_ fun _ _ => ⟨hsrc, hbd⟩
      have hmem := onlyPass_mem false hbd hq.1 hhor hsrc row col
      rw [InPel]
      omega
    | false => exact hfirstEq row col
  · refine passVal_toPel ?_ fun _ _ => ⟨hsrc, hbd⟩
    rw [InPel]
    cases isLast with
    | true =>
      have hmem := onlyPass_mem true hbd hr.1 hver hsrc row col
      omega
    | false =>
      have hmem := firstPass_mem true hbd hr.1 hver hsrc row col
      omega
  · rw [pass_first, pass_first, funext fun row => funext (hfirstEq row)]
    exact passVal_toPel (secondPass_fits hbd ⟨hq, hr, hcases⟩ hver hfirst row col) fun h => absurd h Bool.noConfusion

/-! ## Steep pairs -/

/-- The samples that are highest where the taps of both directions have one sign, and zero elsewhere. -/
def checkered (bd : ℕ) (hor ver : ℕ) : Block := fun row col =>
  if (0 < (m_lumaFilter12.getD ver []).getD (row + 5).toNat 0) = (0 < (m_lumaFilter12.getD hor []).getD (col + 5).toNat 0)
  then 2 ^ bd - 1 else 0

theorem checkered_samples (bd hor ver : ℕ) : Samples bd (checkered bd hor ver) := by
  intro row col
  have hpos : (0 : ℤ) < 2 ^ bd := Int.pow_pos (by decide)
  rw [checkered]
  split <;> omega

theorem checkered_overflows : ∀ bd ∈ [8, 9, 10, 11, 12], ∀ p ∈ steepPairs,
    passVal toPel (taps12 p.2) true false false bd (passVal toPel (taps12 p.1) false true false bd (checkered bd p.1 p.2)) 0 0
      ≠ passVal id (taps12 p.2) true false false bd
          (passVal id (taps12 p.1) false true false bd (checkered bd p.1 p.2)) 0 0 := by
  intro bd hbd
  simp only [List.mem_cons, List.not_mem_nil, or_false] at hbd
  rcases hbd with rfl | rfl | rfl | rfl | rfl <;> decide +kernel

theorem not_exactPasses (hbd : Depth bd) (h : TooSteep hor ver isLast) : ¬ExactPasses bd clpRng hor ver isLast := by
  obtain ⟨rfl, p, hp, rfl, rfl⟩ := h
  intro hexact
  have hmem : bd ∈ [8, 9, 10, 11, 12] := by
    obtain ⟨hlow, hhigh⟩ := hbd
    interval_cases bd <;> simp
  refine checkered_overflows bd hmem p hp ?_
  have hsecond := (hexact _ (checkered_samples bd p.1 p.2) 0 0).2.2.2
  rw [pass_first, pass_first] at hsecond
  exact hsecond

/-! ## Every pair of positions -/

theorem steep_gain {i : ℕ} (hi : i = 7 ∨ i = 8 ∨ i = 9) : HasGain (if i = 8 then 386 else 384) (taps12 i) := by
  rcases hi with rfl | rfl | rfl
  · exact taps12_gain_seven
  · exact taps12_gain_eight
  · exact taps12_gain_nine

theorem fits_of_gain (hhor : HasGain 378 hor ∨ ∃ i, (i = 7 ∨ i = 8 ∨ i = 9) ∧ hor = taps12 i)
    (hver : HasGain 378 ver ∨ ∃ i, (i = 7 ∨ i = 8 ∨ i = 9) ∧ ver = taps12 i) (hsteep : ¬TooSteep hor ver isLast) :
    ∃ q r, Fits q r isLast ∧ HasGain q hor ∧ HasGain r ver := by
  rcases hhor with hhor | ⟨i, hi, rfl⟩
  · rcases hver with hver | ⟨j, hj, rfl⟩
    · exact ⟨378, 378, ⟨by decide, by decide, .inr (.inr (.inl (by decide)))⟩, hhor, hver⟩
    · refine ⟨378, _, ⟨by decide, ?_, .inr (.inr (.inr (by decide)))⟩, hhor, steep_gain hj⟩
      split <;> decide
  · rcases hver with hver | ⟨j, hj, rfl⟩
    · refine ⟨_, 378, ⟨?_, by decide, .inr (.inr (.inl (by decide)))⟩, steep_gain hi, hver⟩
      split <;> decide
    · refine ⟨_, _, ⟨by split <;> decide, by split <;> decide, ?_⟩, steep_gain hi, steep_gain hj⟩
      cases isLast with
      | true => exact .inl rfl
      | false =>
        have hpair : (i, j) ∉ steepPairs := fun hmem => hsteep ⟨rfl, (i, j), hmem, rfl, rfl⟩
        refine .inr (.inl ?_)
        rcases hi with rfl | rfl | rfl <;> rcases hj with rfl | rfl | rfl <;> revert hpair <;> decide

/-- Interpolation is exact but for the twelve taps of some pairs of positions around the half sample, when
the second pass keeps all bits. -/
theorem exactPasses_iff (hbd : Depth bd) (hfilters : IsLuma hor ∧ IsLuma ver ∨ IsChroma hor ∧ IsChroma ver) :
    ExactPasses bd clpRng hor ver isLast ↔ ¬TooSteep hor ver isLast := by
  constructor
  · exact fun hexact hsteep => not_exactPasses hbd hsteep hexact
  · intro hsteep
    have hgains : (HasGain 378 hor ∨ ∃ i, (i = 7 ∨ i = 8 ∨ i = 9) ∧ hor = taps12 i) ∧
        (HasGain 378 ver ∨ ∃ i, (i = 7 ∨ i = 8 ∨ i = 9) ∧ ver = taps12 i) := by
      rcases hfilters with ⟨hhor, hver⟩ | ⟨hhor, hver⟩
      · exact ⟨hhor.gain, hver.gain⟩
      · exact ⟨.inl hhor.gain, .inl hver.gain⟩
    obtain ⟨q, r, hfits, hhor, hver⟩ := fits_of_gain hgains.1 hgains.2 hsteep
    exact exactPasses hbd hfits hhor hver

theorem isLuma_taps12 {frac : ℕ} (hpos : 0 < frac) (hlt : frac < 16) : IsLuma (taps12 frac) := by
  refine .inl ⟨frac, 0, false, ?_⟩
  have hcheck : check (frac ≥ LUMA_INTERPOLATION_FILTER_SUB_SAMPLE_POSITIONS) "Invalid fraction" = .ok () :=
    check_ok _ (Nat.not_le.mpr hlt)
  have hcopy : ¬(frac = 0 ∧ 0 < 2) := by omega
  have halt : ¬(frac = 8 ∧ false = true) := fun h => Bool.noConfusion h.2
  rw [lumaFilter, if_neg hcopy, hcheck, ok_bind, if_neg halt]
  rfl

/-- Quarter samples in ten bits. -/
theorem exactPasses_quarter : Depth 10 ∧ (ExactPasses 10 ⟨0, 1023⟩ (taps12 4) (taps12 12) false ↔
    ¬TooSteep (taps12 4) (taps12 12) false) :=
  ⟨⟨by decide, by decide⟩, exactPasses_iff ⟨by decide, by decide⟩
    (.inl ⟨isLuma_taps12 (by decide) (by decide), isLuma_taps12 (by decide) (by decide)⟩)⟩

/-- At the half sample in both directions, in ten bits: the second pass stores -32296 for 33240. -/
theorem halfSample_overflows :
    Samples 10 (checkered 10 8 8) ∧
      pass id (taps12 8) true false false 10 ⟨0, 1023⟩
          (pass id (taps12 8) false true false 10 ⟨0, 1023⟩ (checkered 10 8 8)) 0 0 = 33240 ∧
      pass toPel (taps12 8) true false false 10 ⟨0, 1023⟩
          (pass toPel (taps12 8) false true false 10 ⟨0, 1023⟩ (checkered 10 8 8)) 0 0 = -32296 :=
  ⟨checkered_samples 10 8 8, by decide +kernel, by decide +kernel⟩

end ECM.Motion.Interpolation
