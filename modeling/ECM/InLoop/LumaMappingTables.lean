import ECM.CommonLib.Reshape
import ECM.Hls.Descriptors
import ECM.Lib.PiecewiseLinear

/-! # What the luma mapping tables hold

The tables that `constructReshaper` makes of a parameter set, and when it makes them: the entries are
those of the piecewise linear map with the code words of the bins, narrowed to samples. -/

namespace ECM.InLoop.LumaMapping
open CommonLib CommonLib.Alf CommonLib.Lmcs CommonLib.WeightPrediction Function
open Lib.Loop Lib.FixedPoint Lib.PiecewiseLinear ECM.Hls

/-! ## Code words -/

/-- The code words of the bin `i`. -/
def codeWords (info : SliceReshapeInfo) (initCW i : ℕ) : ℕ :=
  if info.reshaperModelMinBinIdx ≤ i ∧ i ≤ info.reshaperModelMaxBinIdx then
    toU16 (info.reshaperModelBinCWDelta.getD i 0 + initCW)
  else 0

theorem codeWords_lt (info : SliceReshapeInfo) (initCW i : ℕ) : codeWords info initCW i < 2 ^ 16 := by
  rw [codeWords, toU16]
  split
  · omega
  · omega

theorem readAt_delta (info : SliceReshapeInfo) {i : ℕ} (hi : i < 16) :
    readAt info.reshaperModelBinCWDelta i = .ok (info.reshaperModelBinCWDelta.getD i 0) := by
  have hlt : i < info.reshaperModelBinCWDelta.length := by
    rw [info.length_delta, PIC_CODE_CW_BINS]
    exact hi
  refine readAt_ok ?_
  rw [List.getD_eq_getElem?_getD, List.getElem?_eq_getElem hlt, Option.getD_some]

theorem setBinCW_ok {info : SliceReshapeInfo} {initCW : ℕ} {binCW : List ℕ}
    (hmin : info.reshaperModelMinBinIdx ≤ 16) (hmax : info.reshaperModelMaxBinIdx ≤ 15)
    (hlen : binCW.length = 16) : setBinCW info initCW binCW = .ok (tab 16 (codeWords info initCW)) := by
  obtain ⟨f, rfl⟩ := exists_tab hlen
  have hfirst : toI32 (u32 (info.reshaperModelMaxBinIdx + 1)) = (info.reshaperModelMaxBinIdx + 1 : ℕ) := by
    rw [u32_of_lt (by omega), toI32_of_lt (by omega)]
  have hcount : ((PIC_CODE_CW_BINS : ℤ) - (info.reshaperModelMaxBinIdx + 1 : ℕ)).toNat =
      16 - (info.reshaperModelMaxBinIdx + 1) := by
    rw [PIC_CODE_CW_BINS]
    omega
  unfold setBinCW
  rw [loop_fill (s := 0) (v := fun _ => 0) f (by omega) fun k _ xs => by rw [Nat.zero_add], ok_bind]
  dsimp only
  rw [hfirst, hcount, loop_fill (s := info.reshaperModelMaxBinIdx + 1) (v := fun _ => 0) _ (by omega)
    fun k _ xs => by rw [← Nat.cast_add, index_natCast, ok_bind], ok_bind]
  rw [loop_fill (s := info.reshaperModelMinBinIdx)
    (v := fun i => toU16 (info.reshaperModelBinCWDelta.getD i 0 + initCW)) _ (by omega) fun k hk xs => by
      rw [toI32_of_lt (by omega), index_natCast, ok_bind, readAt_delta info (by omega), ok_bind]]
  refine congrArg Except.ok (tab_congr fun i hi => ?_)
  rw [codeWords]
  by_cases hbin : info.reshaperModelMinBinIdx ≤ i ∧ i ≤ info.reshaperModelMaxBinIdx
  · rw [if_pos (by omega), if_pos hbin]
  · rw [if_neg (by omega), if_neg hbin]
    split_ifs <;> omega

/-- Code words are only written in their place. -/
theorem setBinCW_eq_ok {info : SliceReshapeInfo} {initCW : ℕ} {binCW b : List ℕ} (hlen : binCW.length = 16)
    (h : setBinCW info initCW binCW = .ok b) :
    info.reshaperModelMinBinIdx ≤ 16 ∧ info.reshaperModelMaxBinIdx ≤ 15 := by
  have hwrite : ∀ {xs ys : List ℕ} {i a : ℕ}, xs.length = 16 → writeAt xs i a = .ok ys →
      ys.length = 16 ∧ i < 16 := by
    intro xs ys i a hxs hok
    rw [writeAt] at hok
    split_ifs at hok with hi
    cases hok
    exact ⟨by rw [List.length_set, hxs], hxs ▸ hi⟩
  obtain ⟨b₁, hfst, h⟩ := bind_eq_ok h
  obtain ⟨b₂, hsnd, hthird⟩ := bind_eq_ok h
  have hmin : info.reshaperModelMinBinIdx ≤ 16 := by
    by_contra hgt
    obtain ⟨t, t', ht, hok⟩ := loop_rounds (P := fun _ xs => xs.length = 16) hlen
      (fun i _ t t' ht hok => (hwrite ht hok).1) hfst 16 (by omega)
    exact absurd (hwrite ht hok).2 (by omega)
  refine ⟨hmin, ?_⟩
  have hlen₁ : b₁.length = 16 := loop_ok (P := fun _ xs => xs.length = 16) hlen
    (fun i _ t t' ht hok => (hwrite ht hok).1) hfst
  have hlen₂ : b₂.length = 16 := loop_ok (P := fun _ xs => xs.length = 16) hlen₁ (fun i _ t t' ht hok => by
    obtain ⟨j, -, hok⟩ := bind_eq_ok hok
    exact (hwrite ht hok).1) hsnd
  by_contra hgt
  -- the round of the bin 16 writes outside
  obtain ⟨t, t', ht, hok⟩ := loop_rounds (P := fun _ xs => xs.length = 16) hlen₂ (fun i _ t t' ht hok => by
    obtain ⟨j, -, hok⟩ := bind_eq_ok hok
    obtain ⟨d, -, hok⟩ := bind_eq_ok hok
    exact (hwrite ht hok).1) hthird (16 - info.reshaperModelMinBinIdx) (by omega)
  rw [show info.reshaperModelMinBinIdx + (16 - info.reshaperModelMinBinIdx) = 16 by omega,
    toI32_of_lt (by omega), index_natCast, ok_bind] at hok
  obtain ⟨d, -, hok⟩ := bind_eq_ok hok
  exact absurd (hwrite ht hok).2 (by omega)

/-! ## Scales -/

/-- The scale of a bin of `l` samples. -/
def fwdScale (l binCW : ℕ) : ℤ := (binCW * 2 ^ FP_PREC + 2 ^ (l.log2 - 1)) >>> l.log2

/-- Its scale back. -/
def invScale (l binCW : ℕ) : ℤ := if binCW = 0 then 0 else (l * 2 ^ FP_PREC : ℤ).tdiv binCW

/-- Half a unit of the scales. -/
def half : ℤ := 2 ^ (FP_PREC - 1)

theorem half_pos : 0 < half := by decide

theorem two_half : 2 * half = 2 ^ FP_PREC := by decide

/-- The scale of a bin is exact. -/
theorem fwdScale_mul {k : ℕ} (hk : 1 ≤ k) (hprec : k ≤ FP_PREC) (c : ℕ) :
    fwdScale (2 ^ k) c * (2 ^ k : ℕ) = 2 * half * c := by
  have hpow : (2 : ℤ) ^ FP_PREC = 2 ^ (FP_PREC - k) * 2 ^ k := by
    rw [← pow_add, Nat.sub_add_cancel hprec]
  have hlt : (2 : ℤ) ^ (k - 1) < 2 ^ k := pow_lt_pow_right₀ (by decide) (by omega)
  have hscale : fwdScale (2 ^ k) c = c * 2 ^ (FP_PREC - k) := by
    rw [fwdScale, Nat.log2_two_pow, Nat.shiftRight_eq_div_pow]
    push_cast
    rw [hpow, ← mul_assoc, add_comm, Int.add_mul_ediv_right _ _ (by positivity),
      Int.ediv_eq_zero_of_lt (by positivity) hlt, zero_add]
  rw [hscale, two_half, hpow]
  push_cast
  ring

theorem invScale_nonneg (l c : ℕ) : 0 ≤ invScale l c := by
  rw [invScale]
  split
  · exact le_rfl
  · exact Int.tdiv_nonneg (by positivity) (by positivity)

/-- The scale back is rounded down. -/
theorem invScale_mul (l : ℕ) {c : ℕ} (hc : c ≠ 0) :
    invScale l c * c ≤ 2 * half * l ∧ 2 * half * l < invScale l c * c + c := by
  have hpos : (0 : ℤ) < c := by omega
  rw [invScale, if_neg hc, Int.tdiv_eq_ediv_of_nonneg (by positivity), two_half, mul_comm (2 ^ FP_PREC : ℤ)]
  exact ⟨Int.ediv_mul_le _ hpos.ne', Int.lt_ediv_add_one_mul_self _ hpos |>.trans_eq (by ring)⟩

theorem invScale_mul_le (l c : ℕ) : invScale l c * c ≤ 2 * half * l := by
  by_cases hc : c = 0
  · rw [hc, Nat.cast_zero, mul_zero]
    exact mul_nonneg (by decide) (by omega)
  · exact (invScale_mul l hc).1

/-- A bin with code words has at least one. -/
theorem invScale_le (l c : ℕ) : invScale l c ≤ 2 * half * l := by
  by_cases hc : c = 0
  · rw [hc, invScale, if_pos rfl]
    exact mul_nonneg (by decide) (by omega)
  · exact (le_mul_of_one_le_right (invScale_nonneg l c) (by omega)).trans (invScale_mul_le l c)

/-! ## Bins -/

/-- The tables of the bins before `i` are made. -/
def BinsDone (c : ℕ → ℕ) (l : ℕ) (r₀ : Reshape) (i : ℕ) (r : Reshape) : Prop :=
  ∃ reshapePivot inputPivot fwdCoef invCoef chroma : ℕ → ℤ,
    r = { r₀ with
      m_reshapePivot := tab 17 reshapePivot
      m_inputPivot := tab 17 inputPivot
      m_fwdScaleCoef := tab 16 fwdCoef
      m_invScaleCoef := tab 16 invCoef
      m_chromaAdjHelpLUT := tab 16 chroma } ∧
    (∀ j ≤ i, reshapePivot j = toPel (pivot c j) ∧ inputPivot j = toPel (j * l : ℕ)) ∧
    ∀ j < i, fwdCoef j = fwdScale l (c j) ∧ invCoef j = invScale l (c j)

theorem toPel_add (v w : ℤ) : toPel (toPel v + w) = toPel (v + w) := Int.bmod_add_bmod

theorem setInvScale_ok {l : ℕ} {off : ℤ} {cw i : ℕ} {f g : ℕ → ℤ} (hi : i < 16) (hoff : cw ≠ 0 → (cw : ℤ) + off ≠ 0) :
    ∃ chroma, setInvScale l off cw i (tab 16 f) (tab 16 g) =
      .ok (tab 16 (update f i (invScale l cw)), tab 16 (update g i chroma)) := by
  by_cases hcw : cw = 0
  · refine ⟨2 ^ CSCALE_FP_PREC, ?_⟩
    rw [setInvScale, if_pos hcw, writeAt_tab hi, ok_bind, writeAt_tab hi, ok_bind, invScale, if_pos hcw]
    rfl
  · refine ⟨(l * 2 ^ FP_PREC : ℤ).tdiv (cw + off), ?_⟩
    rw [setInvScale, if_neg hcw, divide, if_neg (by omega), ok_bind, writeAt_tab hi, ok_bind, divide,
      if_neg (hoff hcw), ok_bind, writeAt_tab hi, ok_bind, invScale, if_neg hcw]
    rfl

/-- The divisor of the chroma scale is checked by no one. -/
theorem setInvScale_eq_ok {l : ℕ} {off : ℤ} {cw i : ℕ} {f g : ℕ → ℤ} {tables : List ℤ × List ℤ} (hi : i < 16)
    (h : setInvScale l off cw i (tab 16 f) (tab 16 g) = .ok tables) : cw ≠ 0 → (cw : ℤ) + off ≠ 0 := by
  intro hcw hzero
  rw [setInvScale, if_neg hcw, divide, if_neg (by omega), ok_bind, writeAt_tab hi, ok_bind, divide,
    if_pos hzero] at h
  cases h

variable {c : ℕ → ℕ} {l i : ℕ} {r₀ r₁ r r' : Reshape}

theorem setBin_ok (hcw : r₀.m_binCW = tab 16 c) (hl : r₀.m_initCW = l) (hi : i < 16) (h : BinsDone c l r₀ i r)
    (hoff : c i ≠ 0 → (c i : ℤ) + r₀.m_sliceReshapeInfo.chrResScalingOffset ≠ 0) :
    ∃ r', setBin l i r = .ok r' ∧ BinsDone c l r₀ (i + 1) r' := by
  obtain ⟨info, invLUT, fwdLUT, chroma₀, binCW, initCW, P₀, I₀, F₀, V₀, bd, size⟩ := r₀
  dsimp only at hcw hl hoff
  subst hcw hl
  obtain ⟨P, I, F, V, C, rfl, hpivot, hscale⟩ := h
  obtain ⟨chroma, hinv⟩ := setInvScale_ok (l := initCW) (f := V) (g := C) hi hoff
  unfold setBin
  rw [readAt_tab hi, ok_bind, readAt_tab (by omega), ok_bind, writeAt_tab (by omega), ok_bind,
    readAt_tab (by omega), ok_bind, writeAt_tab (by omega), ok_bind]
  dsimp only
  rw [writeAt_tab hi, ok_bind, hinv, ok_bind]
  refine ⟨_, rfl, _, _, _, _, _, rfl, fun j hj => ?_, fun j hj => ?_⟩
  · by_cases hlast : j = i + 1
    · rw [hlast, update_self, update_self, (hpivot i le_rfl).1, (hpivot i le_rfl).2,
        toPel_add, toPel_add, pivot_succ, Nat.succ_mul, Nat.cast_add, Nat.cast_add]
      exact ⟨rfl, rfl⟩
    · rw [update_of_ne hlast, update_of_ne hlast]
      exact hpivot j (by omega)
  · by_cases hlast : j = i
    · rw [hlast, update_self, update_self]
      exact ⟨rfl, rfl⟩
    · rw [update_of_ne hlast, update_of_ne hlast]
      exact hscale j (by omega)

theorem setBin_eq_ok (hcw : r₀.m_binCW = tab 16 c) (hl : r₀.m_initCW = l) (hi : i < 16) (h : BinsDone c l r₀ i r)
    (hok : setBin l i r = .ok r') : BinsDone c l r₀ (i + 1) r' ∧
      (c i ≠ 0 → (c i : ℤ) + r₀.m_sliceReshapeInfo.chrResScalingOffset ≠ 0) := by
  have hoff : c i ≠ 0 → (c i : ℤ) + r₀.m_sliceReshapeInfo.chrResScalingOffset ≠ 0 := by
    obtain ⟨P, I, F, V, C, rfl, -, -⟩ := h
    unfold setBin at hok
    rw [hcw, readAt_tab hi, ok_bind, readAt_tab (by omega), ok_bind, writeAt_tab (by omega), ok_bind,
      readAt_tab (by omega), ok_bind, writeAt_tab (by omega), ok_bind] at hok
    dsimp only at hok
    rw [writeAt_tab hi, ok_bind] at hok
    obtain ⟨tables, hinv, -⟩ := bind_eq_ok hok
    exact setInvScale_eq_ok hi hinv
  obtain ⟨t, ht, hdone⟩ := setBin_ok hcw hl hi h hoff
  rw [ht] at hok
  cases hok
  exact ⟨hdone, hoff⟩

/-! ## Inverse lookup -/

theorem scanBins_ok (P : ℕ → ℤ) (y : ℤ) (n idxS : ℕ) (h : idxS + n ≤ 16) :
    ∃ j, scanBins (tab 17 P) y n idxS = .ok j ∧ idxS ≤ j ∧ j ≤ idxS + n ∧
      (∀ m, idxS ≤ m → m < j → P (m + 1) ≤ y) ∧ (j < idxS + n → y < P (j + 1)) := by
  induction n generalizing idxS with
  | zero => exact ⟨idxS, rfl, le_rfl, le_rfl, fun m hle hlt => by omega, fun hlt => by omega⟩
  | succ n ih =>
    rw [scanBins, readAt_tab (by omega), ok_bind]
    by_cases hy : y < P (idxS + 1)
    · rw [if_pos hy]
      exact ⟨idxS, rfl, le_rfl, by omega, fun m hle hlt => by omega, fun _ => hy⟩
    · rw [if_neg hy]
      obtain ⟨j, hj, hle, hlast, hpassed, hin⟩ := ih (idxS + 1) (by omega)
      refine ⟨j, hj, by omega, by omega, fun m hm hmj => ?_, fun hlt => hin (by omega)⟩
      rcases Nat.eq_or_lt_of_le hm with rfl | hgt
      · exact not_lt.mp hy
      · exact hpassed m hgt hmj

/-- The first bin that the lookup may give. -/
def firstBin (info : SliceReshapeInfo) : ℕ := min info.reshaperModelMinBinIdx 15

/-- The last one, which may be the one behind the last bin in use. -/
def lastBin (info : SliceReshapeInfo) : ℕ :=
  min (max info.reshaperModelMinBinIdx (info.reshaperModelMaxBinIdx + 1)) 15

theorem toPel_of_lt {n : ℕ} (h : n < 2 ^ 15) : toPel n = n := Int.bmod_eq_of_le (by omega) (by omega)

theorem getPWLIdxInv_ok {P : ℕ → ℤ} (hmin : r.m_sliceReshapeInfo.reshaperModelMinBinIdx ≤ 16)
    (hmax : r.m_sliceReshapeInfo.reshaperModelMaxBinIdx ≤ 15) (hpivots : r.m_reshapePivot = tab 17 P)
    (hpivot : ∀ j ≤ 16, P j = toPel (pivot c j)) (y : ℕ) :
    ∃ i ≤ 15, getPWLIdxInv r y = .ok i ∧ (pivot c 15 < 2 ^ 15 →
      InSegment c (firstBin r.m_sliceReshapeInfo) (lastBin r.m_sliceReshapeInfo) y i) := by
  obtain ⟨j, hj, hle, hlast, hpassed, hin⟩ := scanBins_ok P y
    (r.m_sliceReshapeInfo.reshaperModelMaxBinIdx + 1 - r.m_sliceReshapeInfo.reshaperModelMinBinIdx)
    r.m_sliceReshapeInfo.reshaperModelMinBinIdx (by omega)
  refine ⟨min j 15, Nat.min_le_right _ _, ?_, fun hwidth => ?_⟩
  · unfold getPWLIdxInv
    dsimp only
    rw [toI32_of_lt (by omega), index_natCast, ok_bind, hpivots, hj, ok_bind]
    rfl
  · have hexact : ∀ m ≤ 15, P m = pivot c m := fun m hm => by
      rw [hpivot m (by omega), toPel_of_lt (Nat.lt_of_le_of_lt (pivot_mono c hm) hwidth)]
    rw [firstBin, lastBin]
    refine ⟨by omega, by omega, fun hlt => ?_, fun hlt => ?_⟩
    · have hreached := hpassed (min j 15 - 1) (by omega) (by omega)
      rw [Nat.sub_add_cancel (by omega), hexact _ (by omega)] at hreached
      exact_mod_cast hreached
    · have hbelow := hin (by omega)
      rw [hexact _ (by omega)] at hbelow
      rw [min_eq_left (by omega)]
      exact_mod_cast hbelow

/-! ## Samples -/

/-- The entry of the sample `x` on the way there. -/
def fwdEntry (bd : ℕ) (c : ℕ → ℕ) (l x : ℕ) : ℤ :=
  clipped (2 ^ 15) (2 ^ bd - 1) (forward half l c (fun i => fwdScale l (c i)) x)

/-- The entry of the value `y` on the way back, in the bin `i`. -/
def invEntry (bd : ℕ) (c : ℕ → ℕ) (l i y : ℕ) : ℤ :=
  Clip3 0 (2 ^ bd - 1) (toPel (scaled (invScale l (c i)) (toPel (i * l : ℕ)) y (toPel (pivot c i))))

theorem clip3_toPel (bd : ℕ) (v : ℤ) : Clip3 0 (2 ^ bd - 1) (toPel v) = clipped (2 ^ 15) (2 ^ bd - 1) v := rfl

theorem scaled_eq {coef base v origin : ℤ} (hnonneg : 0 ≤ coef * (v - origin))
    (hlt : coef * (v - origin) < 2 ^ 30) (hbase : -2 ^ 15 ≤ base) (hbase' : base < 2 ^ 15) :
    scaled coef base v origin = base + rounded half (coef * (v - origin)) := by
  have hround : (coef * (v - origin) + 2 ^ (FP_PREC - 1)) >>> FP_PREC = rounded half (coef * (v - origin)) := by
    rw [Int.shiftRight_eq_div_pow]
    rfl
  have hlow := rounded_nonneg half_pos hnonneg
  have hhigh := mul_rounded_le half (coef * (v - origin)) half_pos
  rw [half, FP_PREC] at hhigh
  rw [scaled, i32_of_mem (v := coef * (v - origin) + _) (by rw [FP_PREC]; omega) (by rw [FP_PREC]; omega), hround,
    i32_of_mem (by omega) (by rw [half, FP_PREC] at *; omega)]

theorem toPel_mem (v : ℤ) : -2 ^ 15 ≤ toPel v ∧ toPel v < 2 ^ 15 :=
  ⟨Int.le_bmod (by decide), Int.bmod_lt (by decide)⟩

/-- The bit depths whose samples are not negative as a `Pel`, and the length of their bins. -/
structure Depth (bd l : ℕ) : Prop where
  low : 8 ≤ bd
  high : bd ≤ 15
  binLen : l = 2 ^ (bd - 4)

variable {bd : ℕ}

theorem Depth.bounds (h : Depth bd l) : 16 ≤ l ∧ l ≤ 2 ^ 11 ∧ 2 ^ bd = 16 * l := by
  have hlow := h.low
  have hhigh := h.high
  rw [h.binLen]
  refine ⟨?_, Nat.pow_le_pow_right (by decide) (by omega), ?_⟩
  · exact (Nat.pow_le_pow_right (by decide) (by omega) : 2 ^ 4 ≤ 2 ^ (bd - 4))
  · rw [← Nat.pow_add 2 4, Nat.add_sub_cancel' (by omega)]

theorem Depth.slope (h : Depth bd l) (n : ℕ) : fwdScale l n * l = 2 * half * n := by
  have hlow := h.low
  have hhigh := h.high
  rw [h.binLen]
  exact fwdScale_mul (by omega) (by rw [FP_PREC]; omega) n

theorem Depth.maxVal (h : Depth bd l) : toPel (2 ^ bd - 1) = 2 ^ bd - 1 := by
  obtain ⟨-, hl, hsize⟩ := h.bounds
  have hpos := Nat.two_pow_pos bd
  have hcast : ((2 : ℤ) ^ bd - 1) = (2 ^ bd - 1 : ℕ) := by
    rw [Nat.cast_sub hpos]
    push_cast
    rfl
  rw [hcast, toPel_of_lt (by omega)]

theorem Depth.fwdEntry_eq (h : Depth bd l) (hc : ∀ i, c i < 2 ^ 16) {x : ℕ} (hx : x < 2 ^ bd) :
    Clip3 0 (2 ^ bd - 1) (toPel (scaled (fwdScale l (c (x / l))) (toPel (pivot c (x / l))) x
      (toPel (x / l * l : ℕ)))) = fwdEntry bd c l x := by
  obtain ⟨hl, hl', hsize⟩ := h.bounds
  have hpos : 0 < l := by omega
  have hsplit := Nat.div_add_mod' x l
  have hmod := Nat.mod_lt x hpos
  have hslope := h.slope (c (x / l))
  have hnonneg : 0 ≤ fwdScale l (c (x / l)) := slope_nonneg half_pos hpos (fun i => h.slope (c i)) (x / l)
  have hdist : (x : ℤ) - toPel (x / l * l : ℕ) = (x % l : ℕ) := by
    rw [toPel_of_lt (by omega)]
    omega
  have hprod : fwdScale l (c (x / l)) * (x % l : ℕ) < 2 ^ 30 := by
    have hle : fwdScale l (c (x / l)) * (x % l : ℕ) ≤ fwdScale l (c (x / l)) * l :=
      mul_le_mul_of_nonneg_left (by omega) hnonneg
    have hcw := hc (x / l)
    rw [hslope, two_half, FP_PREC] at hle
    omega
  rw [scaled_eq (by rw [hdist]; exact mul_nonneg hnonneg (Int.natCast_nonneg _)) (by rw [hdist]; exact hprod) (toPel_mem _).1 (toPel_mem _).2,
    toPel_add, clip3_toPel, hdist]
  rfl

/-- The entries of the samples before `x` are made. -/
def SamplesDone (bd : ℕ) (c : ℕ → ℕ) (l n n' : ℕ) (r₁ : Reshape) (x : ℕ) (r : Reshape) : Prop :=
  ∃ fwd inv : ℕ → ℤ, r = { r₁ with m_fwdLUT := tab n fwd, m_invLUT := tab n' inv } ∧
    ∀ y < x, fwd y = fwdEntry bd c l y ∧ ∃ i ≤ 15, inv y = invEntry bd c l i y ∧
      (pivot c 15 < 2 ^ 15 →
        InSegment c (firstBin r₁.m_sliceReshapeInfo) (lastBin r₁.m_sliceReshapeInfo) y i)

theorem setSample_ok {n n' x : ℕ} (h : Depth bd l) (hc : ∀ i, c i < 2 ^ 16) (hbins : BinsDone c l r₀ 16 r₁)
    (hbd : r₀.m_lumaBD = bd) (hl : r₀.m_initCW = l)
    (hmin : r₀.m_sliceReshapeInfo.reshaperModelMinBinIdx ≤ 16)
    (hmax : r₀.m_sliceReshapeInfo.reshaperModelMaxBinIdx ≤ 15)
    (hn : 2 ^ bd ≤ n) (hn' : 2 ^ bd ≤ n') (hx : x < 2 ^ bd) (hr : SamplesDone bd c l n n' r₁ x r) :
    ∃ r', setSample x r = .ok r' ∧ SamplesDone bd c l n n' r₁ (x + 1) r' := by
  obtain ⟨info, invLUT, fwdLUT, chroma₀, binCW, initCW, P₀, I₀, F₀, V₀, depth, size⟩ := r₀
  dsimp only at hbd hl hmin hmax
  subst hbd hl
  obtain ⟨P, I, F, V, C, rfl, hpivot, hscale⟩ := hbins
  obtain ⟨fwd, inv, rfl, hdone⟩ := hr
  obtain ⟨hlow, -, hsize⟩ := h.bounds
  have hbin : x / initCW < 16 := Nat.div_lt_of_lt_mul (by rw [Nat.mul_comm, ← hsize]; exact hx)
  have hdiv : divide x initCW = .ok ((x / initCW : ℕ) : ℤ) := by
    rw [divide, if_neg (by omega), Int.ofNat_tdiv]
  obtain ⟨i, hi, hlookup, hseg⟩ := getPWLIdxInv_ok (c := c) (P := P)
    (r := ⟨info, tab n' inv, tab n fwd, tab 16 C, binCW, initCW, tab 17 P, tab 17 I, tab 16 F, tab 16 V, depth, size⟩)
    hmin hmax rfl (fun j hj => (hpivot j hj).1) x
  unfold setSample
  dsimp only at hlookup ⊢
  rw [h.maxVal, hdiv, ok_bind, index_natCast, ok_bind, readAt_tab (by omega), ok_bind,
    readAt_tab hbin, ok_bind, readAt_tab (by omega), ok_bind, writeAt_tab (by omega), ok_bind, hlookup, ok_bind,
    readAt_tab (by omega), ok_bind, readAt_tab (by omega), ok_bind, readAt_tab (by omega), ok_bind,
    writeAt_tab (by omega), ok_bind, (hpivot _ (Nat.le_of_lt hbin)).1, (hpivot _ (Nat.le_of_lt hbin)).2,
    (hscale _ hbin).1, h.fwdEntry_eq hc hx, (hpivot i (by omega)).1, (hpivot i (by omega)).2, (hscale i (by omega)).2]
  refine ⟨_, rfl, _, _, rfl, fun y hy => ?_⟩
  by_cases hlast : y = x
  · rw [hlast, update_self, update_self]
    exact ⟨rfl, i, hi, rfl, hseg⟩
  · rw [update_of_ne hlast, update_of_ne hlast]
    exact hdone y (by omega)

/-! ## Construction -/

/-- A `Reshape` of the bit depth whose tables are large enough. -/
structure Created (bd : ℕ) (r : Reshape) : Prop where
  lumaBD : r.m_lumaBD = bd
  lutSize : r.m_reshapeLUTSize = 2 ^ bd
  initCW : r.m_initCW = 2 ^ (bd - 4)
  binCW : r.m_binCW.length = 16
  fwdScaleCoef : r.m_fwdScaleCoef.length = 16
  invScaleCoef : r.m_invScaleCoef.length = 16
  chromaAdjHelpLUT : r.m_chromaAdjHelpLUT.length = 16
  reshapePivot : r.m_reshapePivot.length = 17 ∧ r.m_reshapePivot[0]? = some 0
  inputPivot : r.m_inputPivot.length = 17 ∧ r.m_inputPivot[0]? = some 0
  fwdLUT : 2 ^ bd ≤ r.m_fwdLUT.length
  invLUT : 2 ^ bd ≤ r.m_invLUT.length

/-- The parameter sets for which the tables are made: the bins are among the sixteen ones, and no
divisor of a chroma scale is zero. -/
structure Mappable (r : Reshape) : Prop where
  minBin : r.m_sliceReshapeInfo.reshaperModelMinBinIdx ≤ 16
  maxBin : r.m_sliceReshapeInfo.reshaperModelMaxBinIdx ≤ 15
  divisor : ∀ i < 16, codeWords r.m_sliceReshapeInfo r.m_initCW i ≠ 0 →
    (codeWords r.m_sliceReshapeInfo r.m_initCW i : ℤ) + r.m_sliceReshapeInfo.chrResScalingOffset ≠ 0

/-- What the tables hold. -/
structure Constructed (bd : ℕ) (c : ℕ → ℕ) (l : ℕ) (info : SliceReshapeInfo) (r : Reshape) : Prop where
  fwd : ∀ x < 2 ^ bd, r.m_fwdLUT[x]? = some (fwdEntry bd c l x)
  inv : ∀ y < 2 ^ bd, ∃ i ≤ 15, r.m_invLUT[y]? = some (invEntry bd c l i y) ∧
    (pivot c 15 < 2 ^ 15 → InSegment c (firstBin info) (lastBin info) y i)

theorem Created.binsInit (h : Created bd r) (c : ℕ → ℕ) : BinsDone c l { r with m_binCW := tab 16 c } 0
    { r with m_binCW := tab 16 c } := by
  obtain ⟨P, hP⟩ := exists_tab h.reshapePivot.1
  obtain ⟨I, hI⟩ := exists_tab h.inputPivot.1
  obtain ⟨F, hF⟩ := exists_tab h.fwdScaleCoef
  obtain ⟨V, hV⟩ := exists_tab h.invScaleCoef
  obtain ⟨C, hC⟩ := exists_tab h.chromaAdjHelpLUT
  have hfirst := h.reshapePivot.2
  have hfirst' := h.inputPivot.2
  rw [hP, getElem?_tab (by decide)] at hfirst
  rw [hI, getElem?_tab (by decide)] at hfirst'
  refine ⟨P, I, F, V, C, by rw [← hP, ← hI, ← hF, ← hV, ← hC], fun j hj => ?_, fun j hj => absurd hj (Nat.not_lt_zero j)⟩
  have hzero : toPel (0 : ℕ) = 0 := toPel_of_lt (by decide)
  rw [Nat.le_zero.mp hj, Option.some.inj hfirst, Option.some.inj hfirst', Nat.zero_mul, pivot_zero]
  exact ⟨hzero.symm, hzero.symm⟩

theorem samplesInit (bd : ℕ) (c : ℕ → ℕ) (l : ℕ) (r₁ : Reshape) :
    SamplesDone bd c l r₁.m_fwdLUT.length r₁.m_invLUT.length r₁ 0 r₁ := by
  obtain ⟨fwd, hfwd⟩ := exists_tab (rfl : r₁.m_fwdLUT.length = _)
  obtain ⟨inv, hinv⟩ := exists_tab (rfl : r₁.m_invLUT.length = _)
  refine ⟨fwd, inv, ?_, fun y hy => absurd hy (Nat.not_lt_zero y)⟩
  rw [← hfwd, ← hinv]

theorem Created.binLen (h : Created bd r) (hdepth : Depth bd r.m_initCW) :
    r.m_reshapeLUTSize / PIC_CODE_CW_BINS = r.m_initCW := by
  obtain ⟨-, -, hsize⟩ := hdepth.bounds
  rw [h.lutSize, hsize, PIC_CODE_CW_BINS, Nat.mul_div_cancel_left _ (by decide)]

theorem constructReshaper_ok (h : Created bd r) (hdepth : Depth bd r.m_initCW) (hmap : Mappable r) :
    ∃ r', constructReshaper r = .ok r' ∧ Created bd r' ∧ r'.m_sliceReshapeInfo = r.m_sliceReshapeInfo ∧
      Constructed bd (codeWords r.m_sliceReshapeInfo r.m_initCW) r.m_initCW r.m_sliceReshapeInfo r' := by
  have hinit := h.binsInit (l := r.m_initCW) (codeWords r.m_sliceReshapeInfo r.m_initCW)
  have hwords := codeWords_lt r.m_sliceReshapeInfo r.m_initCW
  have hdivisor := hmap.divisor
  generalize hc : codeWords r.m_sliceReshapeInfo r.m_initCW = c at hinit hwords hdivisor ⊢
  obtain ⟨r₁, hbins, hdone⟩ := loop_total (P := BinsDone c r.m_initCW { r with m_binCW := tab 16 c })
    (b := setBin r.m_initCW) (n := PIC_CODE_CW_BINS) hinit fun i hi t ht => setBin_ok rfl rfl hi ht (hdivisor i hi)
  obtain ⟨r₂, hloop, hsamples⟩ := loop_total
    (P := SamplesDone bd c r.m_initCW r₁.m_fwdLUT.length r₁.m_invLUT.length r₁) (b := setSample)
    (n := r.m_reshapeLUTSize) (samplesInit bd c r.m_initCW r₁) fun x hx t ht => by
      have hluts : r₁.m_fwdLUT = r.m_fwdLUT ∧ r₁.m_invLUT = r.m_invLUT := by
        obtain ⟨P, I, F, V, C, rfl, -, -⟩ := hdone
        exact ⟨rfl, rfl⟩
      refine setSample_ok hdepth hwords hdone h.lumaBD rfl hmap.minBin hmap.maxBin ?_ ?_ (h.lutSize ▸ hx) ht
      · rw [hluts.1]
        exact h.fwdLUT
      · rw [hluts.2]
        exact h.invLUT
  refine ⟨r₂, ?_, ?_⟩
  · unfold constructReshaper
    dsimp only
    rw [setBinCW_ok hmap.minBin hmap.maxBin h.binCW, ok_bind, h.binLen hdepth, hc, hbins, ok_bind]
    have hsize : r₁.m_reshapeLUTSize = r.m_reshapeLUTSize := by
      obtain ⟨P, I, F, V, C, rfl, -, -⟩ := hdone
      rfl
    rw [hsize]
    exact hloop
  · obtain ⟨P, I, F, V, C, rfl, hpivot, -⟩ := hdone
    obtain ⟨fwd, inv, rfl, hentries⟩ := hsamples
    have hzero : toPel (0 : ℕ) = 0 := toPel_of_lt (by decide)
    have hfirst : P 0 = 0 ∧ I 0 = 0 := by
      obtain ⟨hP, hI⟩ := hpivot 0 (by omega)
      rw [hP, hI, pivot_zero, Nat.zero_mul]
      exact ⟨hzero, hzero⟩
    rw [h.lutSize] at hentries
    refine ⟨⟨h.lumaBD, h.lutSize, h.initCW, length_tab _ _, length_tab _ _, length_tab _ _, length_tab _ _,
      ⟨length_tab _ _, ?_⟩, ⟨length_tab _ _, ?_⟩, ?_, ?_⟩, rfl, ⟨fun x hx => ?_, fun y hy => ?_⟩⟩
    · rw [← hfirst.1]
      exact getElem?_tab (by decide)
    · rw [← hfirst.2]
      exact getElem?_tab (by decide)
    · rw [length_tab]
      exact h.fwdLUT
    · rw [length_tab]
      exact h.invLUT
    · rw [← (hentries x hx).1]
      exact getElem?_tab (Nat.lt_of_lt_of_le hx h.fwdLUT)
    · obtain ⟨-, i, hi, hentry, hseg⟩ := hentries y hy
      refine ⟨i, hi, ?_, hseg⟩
      rw [← hentry]
      exact getElem?_tab (Nat.lt_of_lt_of_le hy h.invLUT)

theorem constructReshaper_eq_ok (h : Created bd r) (hdepth : Depth bd r.m_initCW)
    (hok : constructReshaper r = .ok r') : Mappable r := by
  obtain ⟨binCW, hset, hok⟩ := bind_eq_ok hok
  obtain ⟨hmin, hmax⟩ := setBinCW_eq_ok h.binCW hset
  rw [setBinCW_ok hmin hmax h.binCW] at hset
  cases hset
  obtain ⟨r₁, hbins, -⟩ := bind_eq_ok hok
  rw [h.binLen hdepth] at hbins
  refine ⟨hmin, hmax, fun i hi => ?_⟩
  obtain ⟨t, t', ht, hround⟩ := loop_rounds
    (P := BinsDone (codeWords r.m_sliceReshapeInfo r.m_initCW) r.m_initCW
      { r with m_binCW := tab 16 (codeWords r.m_sliceReshapeInfo r.m_initCW) }) (h.binsInit _)
    (fun i hi t t' ht hround => (setBin_eq_ok rfl rfl hi ht hround).1) hbins i hi
  exact (setBin_eq_ok rfl rfl hi ht hround).2

end ECM.InLoop.LumaMapping
