import ECM.DecoderLib.ApsReader
import ECM.InLoop.LumaMappingTables

/-! # Luma mapping tables are well formed

When `constructReshaper` ends, that its tables keep the order of the samples, and how far a sample is
from what comes back for its value. -/

namespace ECM.InLoop.LumaMapping
open CommonLib CommonLib.Alf CommonLib.Lmcs CommonLib.WeightPrediction
open CommonLib.BitStream
open Lib.FixedPoint Lib.PiecewiseLinear DecoderLib.VLCReader

/-! ## States of a reshaper -/

/-- A `Reshape` is created, given parameter sets and constructed, again and again, at one bit depth. -/
inductive Reached (bd : ℕ) : Reshape → Prop where
  | create (info : SliceReshapeInfo) : Reached bd (createDec bd (Reshape.new info))
  | again {r : Reshape} : Reached bd r → Reached bd (createDec bd r)
  | info {r : Reshape} (info : SliceReshapeInfo) : Reached bd r → Reached bd { r with m_sliceReshapeInfo := info }
  | construct {r r' : Reshape} : Reached bd r → constructReshaper r = .ok r' → Reached bd r'

theorem resizeEmpty_nil {α : Type} (n : ℕ) (a : α) : resizeEmpty [] n a = List.replicate n a := by
  simp [resizeEmpty, resize]

theorem resizeEmpty_of_length {α : Type} {xs : List α} {k n : ℕ} {a : α} (h : xs.length = k) (hk : 0 < k) :
    resizeEmpty xs n a = xs := by
  rw [resizeEmpty, if_neg (by rw [List.isEmpty_iff]; exact List.ne_nil_of_length_pos (h ▸ hk))]

variable {bd : ℕ} {r r' : Reshape}

theorem initCW_eq (hlow : 8 ≤ bd) (hhigh : bd ≤ 15) : toU16 (2 ^ bd / PIC_CODE_CW_BINS : ℕ) = 2 ^ (bd - 4) := by
  have hpow : 2 ^ bd = 2 ^ (bd - 4) * 16 := by rw [← Nat.pow_add _ _ 4, Nat.sub_add_cancel (by omega)]
  have hlt : 2 ^ (bd - 4) ≤ 2 ^ 11 := Nat.pow_le_pow_right (by decide) (by omega)
  rw [hpow, PIC_CODE_CW_BINS, Nat.mul_div_cancel _ (by decide), toU16]
  omega

theorem Reached.created (hlow : 8 ≤ bd) (hhigh : bd ≤ 15) (h : Reached bd r) : Created bd r := by
  induction h with
  | create info =>
    refine ⟨rfl, rfl, initCW_eq hlow hhigh, ?_, ?_, ?_, ?_, ⟨?_, rfl⟩, ⟨?_, rfl⟩, ?_, ?_⟩
    all_goals
      simp only [createDec, Reshape.new, resizeEmpty_nil, List.length_replicate, PIC_CODE_CW_BINS, le_refl]
  | again _ ih =>
    have hpos := Nat.two_pow_pos bd
    have hfwd := ih.fwdLUT
    have hinv := ih.invLUT
    unfold createDec
    dsimp only
    rw [resizeEmpty_of_length ih.binCW (by decide), resizeEmpty_of_length ih.inputPivot.1 (by decide),
      resizeEmpty_of_length ih.fwdScaleCoef (by decide), resizeEmpty_of_length ih.invScaleCoef (by decide),
      resizeEmpty_of_length ih.reshapePivot.1 (by decide), resizeEmpty_of_length ih.chromaAdjHelpLUT (by decide),
      resizeEmpty_of_length (rfl : _ = _) (Nat.lt_of_lt_of_le hpos hfwd),
      resizeEmpty_of_length (rfl : _ = _) (Nat.lt_of_lt_of_le hpos hinv)]
    exact { ih with lumaBD := rfl, lutSize := rfl, initCW := initCW_eq hlow hhigh }
  | info _ _ ih => exact { ih with }
  | construct _ hok ih =>
    have hdepth : Depth bd _ := ⟨hlow, hhigh, ih.initCW⟩
    obtain ⟨r', hr', hcreated, -⟩ := constructReshaper_ok ih hdepth (constructReshaper_eq_ok ih hdepth hok)
    rw [hok] at hr'
    cases hr'
    exact hcreated

/-! ## The maps behind the entries -/

variable {c : ℕ → ℕ} {l : ℕ} {info : SliceReshapeInfo}

theorem pivot_firstBin (info : SliceReshapeInfo) (l : ℕ) : pivot (codeWords info l) (firstBin info) = 0 := by
  rw [pivot_eq_of_zero (Nat.zero_le _) fun k _ hk => ?_, pivot_zero]
  rw [firstBin] at hk
  rw [codeWords, if_neg (by omega)]

theorem firstBin_le_lastBin (info : SliceReshapeInfo) : firstBin info ≤ lastBin info := by
  rw [firstBin, lastBin]
  omega

theorem lastBin_le (info : SliceReshapeInfo) : lastBin info ≤ 15 := Nat.min_le_right _ _

/-- The map of the samples to their values. -/
def toValue (c : ℕ → ℕ) (l x : ℕ) : ℤ := forward half l c (fun i => fwdScale l (c i)) x

/-- The map of the values of the bin `i` back to samples. -/
def toSample (c : ℕ → ℕ) (l i y : ℕ) : ℤ := inverse half l c (fun i => invScale l (c i)) i y

theorem pivot_le_of_inSegment {y i : ℕ} (h : InSegment (codeWords info l) (firstBin info) (lastBin info) y i) :
    pivot (codeWords info l) i ≤ y := by
  rcases Nat.eq_or_lt_of_le h.lo_le with hfirst | hlt
  · rw [← hfirst, pivot_firstBin]
    exact Nat.zero_le y
  · exact h.reached hlt

theorem invEntry_eq (hdepth : Depth bd l) {i y : ℕ} (hi : i ≤ 15) (hwidth : pivot c 15 < 2 ^ 15)
    (hy : pivot c i ≤ y) (hlt : toSample c l i y < 2 ^ 16) :
    invEntry bd c l i y = clipped (2 ^ 15) (2 ^ bd - 1) (toSample c l i y) := by
  obtain ⟨-, hl, -⟩ := hdepth.bounds
  have hpivot : toPel (pivot c i) = pivot c i := toPel_of_lt (Nat.lt_of_le_of_lt (pivot_mono c hi) hwidth)
  have hsamples : i * l ≤ 15 * 2 ^ 11 := Nat.mul_le_mul hi hl
  have horigin : toPel (i * l : ℕ) = (i * l : ℕ) := toPel_of_lt (by omega)
  have hnonneg : 0 ≤ invScale l (c i) * ((y : ℤ) - pivot c i) :=
    mul_nonneg (invScale_nonneg l (c i)) (by omega)
  have hround := lt_mul_rounded half (invScale l (c i) * ((y : ℤ) - pivot c i)) half_pos
  rw [toSample, inverse] at hlt
  have hvalue : rounded half (invScale l (c i) * ((y : ℤ) - pivot c i)) < 2 ^ 16 := by
    have hbase : (0 : ℤ) ≤ (i : ℤ) * l := mul_nonneg (Int.natCast_nonneg i) (Int.natCast_nonneg l)
    omega
  rw [half, FP_PREC] at hround hvalue
  rw [invEntry, hpivot, horigin, scaled_eq hnonneg (by omega) (by omega) (by omega), clip3_toPel, toSample, inverse,
    Nat.cast_mul]

theorem toSample_nonneg {i y : ℕ} (hy : pivot c i ≤ y) : 0 ≤ toSample c l i y :=
  (show (0 : ℤ) ≤ (i : ℤ) * l by positivity).trans
    (le_inverse (g := fun i => invScale l (c i)) half_pos (invScale_nonneg l (c i)) hy)

/-- Below the last bin the samples are below the last bin too. -/
theorem toSample_le {i y : ℕ} (hi : i < 15) (hy : y < pivot c (i + 1)) : toSample c l i y ≤ 15 * l := by
  have hle := inverse_le (l := l) (g := fun i => invScale l (c i)) half_pos (invScale_nonneg l (c i))
    (invScale_mul_le l (c i)) (Nat.le_of_lt hy)
  have hbin : ((i : ℤ) + 1) * l ≤ 15 * l := mul_le_mul_of_nonneg_right (by omega) (Int.natCast_nonneg l)
  exact hle.trans hbin

theorem Depth.top_pos (hdepth : Depth bd l) : (0 : ℤ) < 2 ^ bd - 1 := by
  obtain ⟨hl, -, hsize⟩ := hdepth.bounds
  have hcast : (2 : ℤ) ^ bd = (2 ^ bd : ℕ) := by push_cast; rfl
  rw [hcast, hsize]
  omega

/-! ## Order -/

theorem toValue_step (hdepth : Depth bd l) (hc : ∀ i, c i < 2 ^ 16) (x : ℕ) :
    toValue c l (x + 1) ≤ toValue c l x + 2 ^ 12 := by
  obtain ⟨hl, -, -⟩ := hdepth.bounds
  refine forward_step half_pos (by omega) (fun i => hdepth.slope (c i)) ?_
  have hcw := hc (x / l)
  omega

theorem toValue_mono (hdepth : Depth bd l) : Monotone (toValue c l) :=
  forward_mono half_pos (by have := hdepth.bounds; omega) fun i => hdepth.slope (c i)

theorem toValue_zero (c : ℕ → ℕ) (l : ℕ) : toValue c l 0 = 0 := forward_zero half_pos

/-- The forward table is in order if and only if no value is beyond the range of a `Pel`. -/
theorem fwd_ordered_iff (hdepth : Depth bd l) (hc : ∀ i, c i < 2 ^ 16) :
    (∀ x y, x ≤ y → y < 2 ^ bd → fwdEntry bd c l x ≤ fwdEntry bd c l y) ↔ toValue c l (2 ^ bd - 1) < 2 ^ 15 := by
  obtain ⟨hl, hl', hsize⟩ := hdepth.bounds
  refine (clipped_monotone_iff (m := 2 ^ 15) (t := toValue c l) (e := fwdEntry bd c l) hdepth.top_pos (toValue_mono hdepth)
    (toValue_zero c l).ge (by rw [toValue_zero]; decide) (fun x hx hx' => ?_) fun x _ _ => rfl).trans ?_
  · have hstep := toValue_step hdepth hc x
    push_cast at hx hx' ⊢
    omega
  · constructor
    · intro h
      exact_mod_cast h (2 ^ bd - 1) (by omega)
    · intro h x hx
      have hle := toValue_mono (c := c) hdepth (show x ≤ 2 ^ bd - 1 by omega)
      push_cast
      omega

/-- The bin of a value. -/
noncomputable def binOf (info : SliceReshapeInfo) (l y : ℕ) : ℕ :=
  (exists_inSegment (codeWords info l) y (firstBin_le_lastBin info)).choose

theorem binOf_spec (info : SliceReshapeInfo) (l y : ℕ) :
    InSegment (codeWords info l) (firstBin info) (lastBin info) y (binOf info l y) :=
  (exists_inSegment (codeWords info l) y (firstBin_le_lastBin info)).choose_spec

/-- The way back as a map of all values. -/
noncomputable def toSampleOf (info : SliceReshapeInfo) (l y : ℕ) : ℤ :=
  toSample (codeWords info l) l (binOf info l y) y

theorem toSampleOf_mono (info : SliceReshapeInfo) (l : ℕ) : Monotone (toSampleOf info l) :=
  monotone_nat_of_le_succ fun y => inverse_next (g := fun i => invScale l (codeWords info l i)) half_pos
    (invScale_nonneg l _) (invScale_mul_le l _) (binOf_spec info l y) (binOf_spec info l (y + 1))

/-- No step of the way back goes over the negative words. -/
theorem toSampleOf_cross (hdepth : Depth bd l) (info : SliceReshapeInfo) (y : ℕ)
    (hbelow : toSampleOf info l y < 2 ^ 15) (habove : 2 ^ 15 ≤ toSampleOf info l (y + 1)) :
    0 < toSampleOf info l y ∧ toSampleOf info l (y + 1) < 2 * 2 ^ 15 := by
  obtain ⟨-, hl, -⟩ := hdepth.bounds
  rcases (binOf_spec info l y).next (binOf_spec info l (y + 1)) with hsame | ⟨-, -, hpivot⟩
  · have hnext : toSampleOf info l (y + 1) = toSample (codeWords info l) l (binOf info l y) (y + 1) := by
      rw [toSampleOf, hsame]
    have hstep := (inverse_step (l := l) (c := codeWords info l) (y := y)
      (g := fun i => invScale l (codeWords info l i)) (i := binOf info l y) half_pos (invScale_nonneg l _)
      (invScale_le l _)).2
    rw [← toSample, ← toSample, ← toSampleOf, ← hnext] at hstep
    omega
  · have hlast := (binOf_spec info l (y + 1)).le_hi.trans (lastBin_le info)
    have hsamples : binOf info l (y + 1) * l ≤ 15 * 2 ^ 11 := Nat.mul_le_mul hlast hl
    have hbegin := inverse_pivot (l := l) (c := codeWords info l) (g := fun i => invScale l (codeWords info l i))
      half_pos (binOf info l (y + 1))
    rw [hpivot, ← toSample, ← toSampleOf] at hbegin
    rw [hbegin] at habove
    have hcast : (binOf info l (y + 1) : ℤ) * l ≤ 15 * 2 ^ 11 := by exact_mod_cast hsamples
    omega

theorem toSampleOf_zero (hdepth : Depth bd l) (info : SliceReshapeInfo) :
    0 ≤ toSampleOf info l 0 ∧ toSampleOf info l 0 < 2 ^ 15 := by
  obtain ⟨-, hl, -⟩ := hdepth.bounds
  have hspec := binOf_spec info l 0
  have hpivot := pivot_le_of_inSegment hspec
  have hsamples : binOf info l 0 * l ≤ 15 * 2 ^ 11 := Nat.mul_le_mul (hspec.le_hi.trans (lastBin_le info)) hl
  have hbegin := inverse_pivot (l := l) (c := codeWords info l) (g := fun i => invScale l (codeWords info l i))
    half_pos (binOf info l 0)
  rw [Nat.le_zero.mp hpivot, ← toSample, ← toSampleOf] at hbegin
  have hcast : (binOf info l 0 : ℤ) * l ≤ 15 * 2 ^ 11 := by exact_mod_cast hsamples
  rw [hbegin]
  exact ⟨mul_nonneg (Int.natCast_nonneg _) (Int.natCast_nonneg l), by omega⟩

/-- The values that the last bin would send beyond the range of a `Pel`. -/
theorem toSampleOf_lt_iff (hdepth : Depth bd l) (hmax : info.reshaperModelMaxBinIdx ≤ 15) (y : ℕ) :
    toSampleOf info l y < 2 ^ 15 ↔
      info.reshaperModelMaxBinIdx < 15 ∨ toSample (codeWords info l) l 15 y < 2 ^ 15 := by
  obtain ⟨-, hl, -⟩ := hdepth.bounds
  have hspec := binOf_spec info l y
  have hlast := hspec.le_hi
  have hbins : (15 : ℤ) * l < 2 ^ 15 := by omega
  rcases Nat.lt_or_ge (binOf info l y) (lastBin info) with hlt | hge
  · -- inside a bin that is not the last one
    have hin := hspec.inside hlt
    have hbin : binOf info l y < 15 := Nat.lt_of_lt_of_le hlt (lastBin_le info)
    have hle := toSample_le (l := l) hbin hin
    refine iff_of_true (hle.trans_lt hbins) (.inr ?_)
    have hneg : invScale l (codeWords info l 15) * ((y : ℤ) - pivot (codeWords info l) 15) ≤ 2 * half * 0 := by
      have hpivot := pivot_mono (codeWords info l) (show binOf info l y + 1 ≤ 15 by omega)
      rw [mul_zero]
      exact mul_nonpos_of_nonneg_of_nonpos (invScale_nonneg l _) (by omega)
    have hround := rounded_le half_pos hneg
    rw [toSample, inverse]
    push_cast
    omega
  · have heq : binOf info l y = lastBin info := Nat.le_antisymm hlast hge
    rcases hmax.lt_or_eq with hlt | hfull
    · -- the bin behind those in use has no code words
      refine iff_of_true ?_ (.inl hlt)
      have hempty : codeWords info l (lastBin info) = 0 := by
        rw [codeWords, if_neg]
        rw [lastBin]
        omega
      rw [toSampleOf, heq, toSample, inverse, hempty, invScale, if_pos rfl, zero_mul, rounded_zero half_pos, add_zero]
      have hsamples : lastBin info * l ≤ 15 * 2 ^ 11 := Nat.mul_le_mul (lastBin_le info) hl
      have hcast : (lastBin info : ℤ) * l ≤ 15 * 2 ^ 11 := by exact_mod_cast hsamples
      omega
    · have hfifteen : lastBin info = 15 := by
        rw [lastBin]
        omega
      rw [toSampleOf, heq, hfifteen, hfull]
      simp

/-! ## The tables -/

/-- `m_fwdLUT[x]`. -/
def fwdAt (r : Reshape) (x : ℕ) : ℤ := r.m_fwdLUT.getD x 0

/-- `m_invLUT[y]`. -/
def invAt (r : Reshape) (y : ℕ) : ℤ := r.m_invLUT.getD y 0

theorem Constructed.fwdAt_eq (h : Constructed bd c l info r) {x : ℕ} (hx : x < 2 ^ bd) :
    fwdAt r x = fwdEntry bd c l x := by
  rw [fwdAt, List.getD_eq_getElem?_getD, h.fwd x hx, Option.getD_some]

theorem Constructed.invAt_mem (h : Constructed bd c l info r) {y : ℕ} (hdepth : Depth bd l) (hy : y < 2 ^ bd) :
    0 ≤ invAt r y ∧ invAt r y ≤ 2 ^ bd - 1 := by
  obtain ⟨i, -, hentry, -⟩ := h.inv y hy
  rw [invAt, List.getD_eq_getElem?_getD, hentry, Option.getD_some, invEntry, clip3_toPel]
  exact clipped_mem hdepth.top_pos.le _

theorem Constructed.fwdAt_mem (h : Constructed bd c l info r) {x : ℕ} (hdepth : Depth bd l) (hx : x < 2 ^ bd) :
    0 ≤ fwdAt r x ∧ fwdAt r x ≤ 2 ^ bd - 1 := by
  rw [h.fwdAt_eq hx, fwdEntry]
  exact clipped_mem hdepth.top_pos.le _

theorem Constructed.invAt_eq (h : Constructed bd (codeWords info l) l info r) (hdepth : Depth bd l)
    (hwidth : pivot (codeWords info l) 15 < 2 ^ 15) {y : ℕ} (hy : y < 2 ^ bd) (hlt : toSampleOf info l y < 2 ^ 16) :
    invAt r y = clipped (2 ^ 15) (2 ^ bd - 1) (toSampleOf info l y) := by
  obtain ⟨i, hi, hentry, hseg⟩ := h.inv y hy
  rw [invAt, List.getD_eq_getElem?_getD, hentry, Option.getD_some, (hseg hwidth).unique (binOf_spec info l y)]
  exact invEntry_eq hdepth ((binOf_spec info l y).le_hi.trans (lastBin_le info)) hwidth
    (pivot_le_of_inSegment (binOf_spec info l y)) hlt

/-- The inverse table is in order if and only if the last bin does not go beyond the range of a `Pel`. -/
theorem Constructed.inv_ordered_iff (h : Constructed bd (codeWords info l) l info r) (hdepth : Depth bd l)
    (hmax : info.reshaperModelMaxBinIdx ≤ 15) (hwidth : pivot (codeWords info l) 15 < 2 ^ 15) :
    (∀ x y, x ≤ y → y < 2 ^ bd → invAt r x ≤ invAt r y) ↔
      info.reshaperModelMaxBinIdx < 15 ∨ toSample (codeWords info l) l 15 (2 ^ bd - 1) < 2 ^ 15 := by
  obtain ⟨hnonneg, hfirst⟩ := toSampleOf_zero hdepth info
  have hpos := Nat.two_pow_pos bd
  rw [← toSampleOf_lt_iff hdepth hmax]
  refine (clipped_monotone_iff (m := 2 ^ 15) (t := toSampleOf info l) (e := invAt r) hdepth.top_pos
    (toSampleOf_mono info l) hnonneg (by exact_mod_cast hfirst) (fun y hy hy' => ?_) fun y hy hlt => ?_).trans ?_
  · push_cast at hy hy' ⊢
    exact toSampleOf_cross hdepth info y hy hy'
  · exact h.invAt_eq hdepth hwidth hy (by push_cast at hlt; omega)
  · constructor
    · intro h
      exact_mod_cast h (2 ^ bd - 1) (by omega)
    · intro h y hy
      have hle := toSampleOf_mono info l (show y ≤ 2 ^ bd - 1 by omega)
      push_cast
      omega

/-- A sample in a bin with at least its own number of code words comes back from its value. -/
theorem Constructed.inv_fwd (h : Constructed bd (codeWords info l) l info r) (hdepth : Depth bd l)
    (hmax : info.reshaperModelMaxBinIdx ≤ 15) (hwidth : pivot (codeWords info l) 15 < 2 ^ 15) {x : ℕ}
    (hx : x < 2 ^ bd) (hwords : l ≤ codeWords info l (x / l))
    (hend : pivot (codeWords info l) (x / l + 1) ≤ 2 ^ bd) :
    invAt r (fwdAt r x).toNat ≤ x ∧
      x ≤ invAt r (fwdAt r x).toNat + 1 + (codeWords info l (x / l) - 1 : ℤ) / 2 ^ FP_PREC := by
  obtain ⟨hl, hl', hsize⟩ := hdepth.bounds
  obtain ⟨hg, hg'⟩ := invScale_mul l (c := codeWords info l (x / l)) (by omega)
  obtain ⟨y, hfwd, hreached, hin, hle, hge⟩ := inverse_forward (f := fun i => fwdScale l (codeWords info l i))
    (g := fun i => invScale l (codeWords info l i)) half_pos (fun i => hdepth.slope _) rfl hwords (by omega) hg hg'
  have hused : info.reshaperModelMinBinIdx ≤ x / l ∧ x / l ≤ info.reshaperModelMaxBinIdx := by
    by_contra hout
    rw [codeWords, if_neg hout] at hwords
    omega
  have htop : 2 ^ bd ≤ 2 ^ 15 := Nat.pow_le_pow_right (by decide) hdepth.high
  have hvalue : fwdAt r x = y := by
    rw [h.fwdAt_eq hx, fwdEntry, hfwd, clipped_of_lt (by omega) (by push_cast; omega)]
    refine min_eq_left ?_
    have hcast : (2 : ℤ) ^ bd = (2 ^ bd : ℕ) := by push_cast; rfl
    omega
  have hseg : InSegment (codeWords info l) (firstBin info) (lastBin info) y (x / l) :=
    ⟨by rw [firstBin]; omega, by rw [lastBin]; omega, fun _ => hreached, fun _ => hin⟩
  have hback : toSampleOf info l y = toSample (codeWords info l) l (x / l) y := by
    rw [toSampleOf, (binOf_spec info l y).unique hseg]
  rw [← toSample, ← hback] at hle hge
  have hentry := h.invAt_eq hdepth hwidth (y := y) (by omega) (by omega)
  have hsample : 0 ≤ toSampleOf info l y := hback ▸ toSample_nonneg hreached
  rw [hvalue, Int.toNat_natCast, hentry, clipped_of_lt hsample (by push_cast; omega), min_eq_left, ← two_half]
  · exact ⟨hle, hge⟩
  · have hcast : (2 : ℤ) ^ bd = (2 ^ bd : ℕ) := by push_cast; rfl
    omega

/-! ## Well-formed tables -/

/-- What holds of the tables `r` of the bit depth `bd` that are made for bins of `l` samples with the
code words `c`. -/
structure WellFormed (bd : ℕ) (c : ℕ → ℕ) (l : ℕ) (info : SliceReshapeInfo) (r : Reshape) : Prop where
  fwd_mem : ∀ x < 2 ^ bd, 0 ≤ fwdAt r x ∧ fwdAt r x ≤ 2 ^ bd - 1
  inv_mem : ∀ y < 2 ^ bd, 0 ≤ invAt r y ∧ invAt r y ≤ 2 ^ bd - 1
  /-- The forward table is in order where the last value fits into a `Pel`, and only there. -/
  fwd_ordered : (∀ x y, x ≤ y → y < 2 ^ bd → fwdAt r x ≤ fwdAt r y) ↔ toValue c l (2 ^ bd - 1) < 2 ^ 15
  /-- And the inverse table where the last bin is not in use, or does not go beyond a `Pel` itself. -/
  inv_ordered : toValue c l (2 ^ bd - 1) < 2 ^ 15 →
    ((∀ x y, x ≤ y → y < 2 ^ bd → invAt r x ≤ invAt r y) ↔
      info.reshaperModelMaxBinIdx < 15 ∨ toSample c l 15 (2 ^ bd - 1) < 2 ^ 15)
  /-- A bin with at least its own number of code words, which end in the range of the samples. -/
  inv_fwd : toValue c l (2 ^ bd - 1) < 2 ^ 15 → ∀ x < 2 ^ bd, l ≤ c (x / l) → pivot c (x / l + 1) ≤ 2 ^ bd →
    invAt r (fwdAt r x).toNat ≤ x ∧
      x ≤ invAt r (fwdAt r x).toNat + 1 + (c (x / l) - 1 : ℤ) / 2 ^ FP_PREC

theorem Constructed.wellFormed (h : Constructed bd (codeWords info l) l info r) (hdepth : Depth bd l)
    (hmax : info.reshaperModelMaxBinIdx ≤ 15) : WellFormed bd (codeWords info l) l info r := by
  obtain ⟨hl, -, hsize⟩ := hdepth.bounds
  have hwidth : toValue (codeWords info l) l (2 ^ bd - 1) < 2 ^ 15 → pivot (codeWords info l) 15 < 2 ^ 15 := by
    intro hlt
    have hbin : (2 ^ bd - 1) / l = 15 := Nat.div_eq_of_lt_le (by omega) (by omega)
    have hle := pivot_le_forward half_pos (by omega) (fun i => hdepth.slope (codeWords info l i)) (2 ^ bd - 1)
    rw [hbin, ← toValue] at hle
    omega
  refine ⟨fun x hx => h.fwdAt_mem hdepth hx, fun y hy => h.invAt_mem hdepth hy, ?_,
    fun hlt => h.inv_ordered_iff hdepth hmax (hwidth hlt),
    fun hlt x hx => h.inv_fwd hdepth hmax (hwidth hlt) hx⟩
  rw [← fwd_ordered_iff hdepth (codeWords_lt info l)]
  constructor
  · intro hmono x y hxy hy
    rw [← h.fwdAt_eq hy, ← h.fwdAt_eq (Nat.lt_of_le_of_lt hxy hy)]
    exact hmono x y hxy hy
  · intro hmono x y hxy hy
    rw [h.fwdAt_eq hy, h.fwdAt_eq (Nat.lt_of_le_of_lt hxy hy)]
    exact hmono x y hxy hy

/-- The tables are made without an index out of range or a division by zero for exactly the parameter
sets that can be mapped, and they are well formed. -/
theorem constructReshaper_wellFormed (hlow : 8 ≤ bd) (hhigh : bd ≤ 15) (hr : Reached bd r) :
    ((∃ r', constructReshaper r = .ok r') ↔ Mappable r) ∧
      ∀ r', constructReshaper r = .ok r' →
        WellFormed bd (codeWords r.m_sliceReshapeInfo r.m_initCW) r.m_initCW r.m_sliceReshapeInfo r' := by
  have h := hr.created hlow hhigh
  have hdepth : Depth bd r.m_initCW := ⟨hlow, hhigh, h.initCW⟩
  refine ⟨⟨fun ⟨r', hr'⟩ => constructReshaper_eq_ok h hdepth hr', fun hmap => ?_⟩, fun r' hr' => ?_⟩
  · obtain ⟨r', hr', -⟩ := constructReshaper_ok h hdepth hmap
    exact ⟨r', hr'⟩
  · have hmap := constructReshaper_eq_ok h hdepth hr'
    obtain ⟨r'', hr'', -, -, hconstructed⟩ := constructReshaper_ok h hdepth hmap
    rw [hr'] at hr''
    cases hr''
    exact hconstructed.wellFormed hdepth hmap.maxBin

/-- Twelve bins in use, with more code words from bin to bin. -/
def slopedInfo : SliceReshapeInfo where
  reshaperModelMinBinIdx := 2
  reshaperModelMaxBinIdx := 13
  reshaperModelBinCWDelta := tab 16 fun i => 4 * i - 8
  chrResScalingOffset := -3
  length_delta := length_tab _ _

theorem constructReshaper_sloped : ∃ r', constructReshaper (createDec 10 (Reshape.new slopedInfo)) = .ok r' ∧
    WellFormed 10 (codeWords slopedInfo 64) 64 slopedInfo r' := by
  obtain ⟨hrun, hformed⟩ := constructReshaper_wellFormed (show 8 ≤ 10 by decide) (by decide)
    (Reached.create slopedInfo)
  obtain ⟨r', hr'⟩ := hrun.mpr ⟨by decide, by decide, by decide +kernel⟩
  exact ⟨r', hr', hformed r' hr'⟩

/-- An adaptation parameter set with chroma, before it is parsed. -/
def blankAps : LmcsAps := ⟨true, 0, 0, fun _ => 0, 0, 0⟩

/-- The bytes are parsed, and the construction for eight bits then throws `msg`. -/
def failsWith (msg : String) (fifo : List UInt8) : Bool :=
  match parseLmcsAps blankAps (.ofFifo fifo) with
  | .ok (aps, _) =>
    match constructReshaper (createDec 8 (Reshape.new (getReshaperAPSInfo aps))) with
    | .ok _ => false
    | .error e => e == msg
  | .error _ => false

theorem exists_of_failsWith {msg : String} {fifo : List UInt8} (h : failsWith msg fifo = true) :
    ∃ aps s, parseLmcsAps blankAps (.ofFifo fifo) = .ok (aps, s) ∧
      constructReshaper (createDec 8 (Reshape.new (getReshaperAPSInfo aps))) = .error msg := by
  unfold failsWith at h
  split at h
  · next aps s hparse =>
    split at h
    · cases h
    · next e hfail =>
      rw [beq_iff_eq] at h
      exact ⟨aps, s, hparse, by rw [hfail, h]⟩
  · cases h

/-- A parameter set with one code word in its first bin and the chroma offset -1, and one whose first bin
is the bin 17: both are accepted, and no tables can be made of them. -/
theorem constructReshaper_fails :
    (∃ aps s, parseLmcsAps blankAps (.ofFifo [0x84, 0x09, 0xf3]) = .ok (aps, s) ∧
      constructReshaper (createDec 8 (Reshape.new (getReshaperAPSInfo aps))) = .error divisionByZero) ∧
    ∃ aps s, parseLmcsAps blankAps (.ofFifo [0x09, 0x60]) = .ok (aps, s) ∧
      constructReshaper (createDec 8 (Reshape.new (getReshaperAPSInfo aps))) = .error outOfRange :=
  ⟨exists_of_failsWith (by decide +kernel), exists_of_failsWith (by decide +kernel)⟩

end ECM.InLoop.LumaMapping
