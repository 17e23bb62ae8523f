import ECM.CommonLib.Slice
import Mathlib.Algebra.Order.Group.Unbundled.Int

/-! # Deblocking of one line

A line of samples across an edge, as its two sides: `P pos` is `piSrc[-iOffset * (pos + 1)]` and
`Q pos` is `piSrc[iOffset * pos]`, so that both are counted from the edge. With the `tc` of the
tables no sum here leaves the range of an `int`. -/

namespace ECM.CommonLib.LoopFilter
open WeightPrediction Function

structure ClpRng where
  min : ℤ
  max : ℤ

def ClipPel (a : ℤ) (clpRng : ClpRng) : ℤ := min (max clpRng.min a) clpRng.max

structure Line where
  P : ℕ → ℤ
  Q : ℕ → ℤ

/-! ## Long filters -/

/-- `tcP` and `tcQ`, as a function of the number of samples. -/
def tcTable (numberSide : ℕ) : List ℤ := if numberSide = 3 then [6, 4, 2] else [6, 5, 4, 3, 2, 1, 1]

/-- `dbCoeffsP` and `dbCoeffsQ`. -/
def dbCoeffs (numberSide : ℕ) : List ℤ :=
  if numberSide = 7 then [59, 50, 41, 32, 23, 14, 5]
  else if numberSide = 5 then [58, 45, 32, 19, 6]
  else [53, 32, 11]

/-- One of the two loops of `xBilinearFilter`. -/
def xBilinearSide (refMiddle ref : ℤ) (numberSide : ℕ) (dbCoeffs : List ℤ) (tc : ℤ) (side : ℕ → ℤ) : ℕ → ℤ :=
  (List.range numberSide).foldl (fun side pos =>
    let src := side pos
    let cvalue := (tc * (tcTable numberSide).getD pos 0) >>> (1 : ℕ)
    update side pos (Clip3 (src - cvalue) (src + cvalue)
      ((refMiddle * dbCoeffs.getD pos 0 + ref * (64 - dbCoeffs.getD pos 0) + 32) >>> (6 : ℕ)))) side

def xBilinearFilter (refMiddle refP refQ : ℤ) (numberPSide numberQSide : ℕ) (dbCoeffsP dbCoeffsQ : List ℤ) (tc : ℤ)
    (src : Line) : Line where
  P := xBilinearSide refMiddle refP numberPSide dbCoeffsP tc src.P
  Q := xBilinearSide refMiddle refQ numberQSide dbCoeffsQ tc src.Q

/-- `refP` and `refQ`, zero where the switch has no case. -/
def refSide (numberSide : ℕ) (side : ℕ → ℤ) : ℤ :=
  match numberSide with
  | 7 => (side 6 + side 7 + 1) >>> (1 : ℕ)
  | 3 => (side 2 + side 3 + 1) >>> (1 : ℕ)
  | 5 => (side 4 + side 5 + 1) >>> (1 : ℕ)
  | _ => 0

def refMiddle (numberPSide numberQSide : ℕ) (P Q : ℕ → ℤ) : ℤ :=
  if numberPSide = numberQSide then
    if numberPSide = 5 then
      (2 * (P 0 + Q 0 + P 1 + Q 1 + P 2 + Q 2) + P 3 + Q 3 + P 4 + Q 4 + 8) >>> (4 : ℕ)
    else
      (2 * (P 0 + Q 0) + P 1 + Q 1 + P 2 + Q 2 + P 3 + Q 3 + P 4 + Q 4 + P 5 + Q 5 + P 6 + Q 6 + 8) >>> (4 : ℕ)
  else
    let (Pt, Qt) := if numberQSide > numberPSide then (Q, P) else (P, Q)
    let (newNumberPSide, newNumberQSide) :=
      if numberQSide > numberPSide then (numberQSide, numberPSide) else (numberPSide, numberQSide)
    if newNumberPSide = 7 ∧ newNumberQSide = 5 then
      (2 * (P 0 + Q 0 + P 1 + Q 1) + P 2 + Q 2 + P 3 + Q 3 + P 4 + Q 4 + P 5 + Q 5 + 8) >>> (4 : ℕ)
    else if newNumberPSide = 7 ∧ newNumberQSide = 3 then
      (2 * (Pt 0 + Qt 0) + Qt 0 + 2 * (Qt 1 + Qt 2) + Pt 1 + Qt 1 + Pt 2 + Pt 3 + Pt 4 + Pt 5 + Pt 6 + 8) >>> (4 : ℕ)
    else
      (P 0 + Q 0 + P 1 + Q 1 + P 2 + Q 2 + P 3 + Q 3 + 4) >>> (3 : ℕ)

def xFilteringPandQ (src : Line) (numberPSide numberQSide : ℕ) (tc : ℤ) : Checked Line := do
  check (numberPSide ≤ 3 ∧ numberQSide ≤ 3) "Short filtering in long filtering function"
  return xBilinearFilter (refMiddle numberPSide numberQSide src.P src.Q) (refSide numberPSide src.P)
    (refSide numberQSide src.Q) numberPSide numberQSide (dbCoeffs numberPSide) (dbCoeffs numberQSide) tc src

/-! ## Luma -/

/-- The first samples of a side are set back to the ones of `m`. -/
def restore (noFilter : Bool) (count : ℕ) (m side : ℕ → ℤ) : ℕ → ℤ :=
  if noFilter then fun pos => if pos < count then m pos else side pos else side

/-- The strong filter of three samples on each side. -/
def strongLuma (src : Line) (tc : ℤ) : Line :=
  let P := src.P
  let Q := src.Q
  let m0 := P 3; let m1 := P 2; let m2 := P 1; let m3 := P 0
  let m4 := Q 0; let m5 := Q 1; let m6 := Q 2; let m7 := Q 3
  let P := update P 0 (Clip3 (m3 - 3 * tc) (m3 + 3 * tc) ((m1 + 2 * m2 + 2 * m3 + 2 * m4 + m5 + 4) >>> (3 : ℕ)))
  let Q := update Q 0 (Clip3 (m4 - 3 * tc) (m4 + 3 * tc) ((m2 + 2 * m3 + 2 * m4 + 2 * m5 + m6 + 4) >>> (3 : ℕ)))
  let P := update P 1 (Clip3 (m2 - 2 * tc) (m2 + 2 * tc) ((m1 + m2 + m3 + m4 + 2) >>> (2 : ℕ)))
  let Q := update Q 1 (Clip3 (m5 - 2 * tc) (m5 + 2 * tc) ((m3 + m4 + m5 + m6 + 2) >>> (2 : ℕ)))
  let P := update P 2 (Clip3 (m1 - 1 * tc) (m1 + 1 * tc) ((2 * m0 + 3 * m1 + m2 + m3 + m4 + 4) >>> (3 : ℕ)))
  let Q := update Q 2 (Clip3 (m6 - 1 * tc) (m6 + 1 * tc) ((m3 + m4 + m5 + 3 * m6 + 2 * m7 + 4) >>> (3 : ℕ)))
  ⟨P, Q⟩

/-- The branches with `sw`. -/
def strongOrLongLuma (src : Line) (tc : ℤ) (sidePisLarge sideQisLarge : Bool) (maxFilterLengthP maxFilterLengthQ : ℕ) :
    Checked Line :=
  if sidePisLarge || sideQisLarge then
    xFilteringPandQ src (if sidePisLarge then maxFilterLengthP else 3) (if sideQisLarge then maxFilterLengthQ else 3) tc
  else .ok (strongLuma src tc)

def weakLuma (src : Line) (tc iThrCut : ℤ) (bFilterSecondP bFilterSecondQ : Bool) (clpRng : ClpRng) : Line :=
  let P := src.P
  let Q := src.Q
  let m1 := P 2; let m2 := P 1; let m3 := P 0
  let m4 := Q 0; let m5 := Q 1; let m6 := Q 2
  let delta := (9 * (m4 - m3) - 3 * (m5 - m2) + 8) >>> (4 : ℕ)
  if |delta| < iThrCut then
    let delta := Clip3 (-tc) tc delta
    let P := update P 0 (ClipPel (m3 + delta) clpRng)
    let Q := update Q 0 (ClipPel (m4 - delta) clpRng)
    let tc2 := tc >>> (1 : ℕ)
    let delta1 := Clip3 (-tc2) tc2 ((((m1 + m3 + 1) >>> (1 : ℕ)) - m2 + delta) >>> (1 : ℕ))
    let P := if bFilterSecondP then update P 1 (ClipPel (m2 + delta1) clpRng) else P
    let delta2 := Clip3 (-tc2) tc2 ((((m6 + m4 + 1) >>> (1 : ℕ)) - m5 - delta) >>> (1 : ℕ))
    let Q := if bFilterSecondQ then update Q 1 (ClipPel (m5 + delta2) clpRng) else Q
    ⟨P, Q⟩
  else src

def xPelFilterLuma (piSrc : Line) (tc : ℤ) (sw bPartPNoFilter bPartQNoFilter : Bool) (iThrCut : ℤ)
    (bFilterSecondP bFilterSecondQ : Bool) (clpRng : ClpRng) (sidePisLarge sideQisLarge : Bool)
    (maxFilterLengthP maxFilterLengthQ : ℕ) : Checked Line := do
  let src ←
    if sw then strongOrLongLuma piSrc tc sidePisLarge sideQisLarge maxFilterLengthP maxFilterLengthQ
    else pure (weakLuma piSrc tc iThrCut bFilterSecondP bFilterSecondQ clpRng)
  return {
    P := restore bPartPNoFilter (if sidePisLarge then 7 else 3) piSrc.P src.P
    Q := restore bPartQNoFilter (if sideQisLarge then 7 else 3) piSrc.Q src.Q }

/-! ## Chroma -/

def strongChroma (src : Line) (tc : ℤ) (isChromaHorCTBBoundary : Bool) : Line :=
  let P := src.P
  let Q := src.Q
  let m0 := P 3; let m1 := P 2; let m2 := P 1; let m3 := P 0
  let m4 := Q 0; let m5 := Q 1; let m6 := Q 2; let m7 := Q 3
  if isChromaHorCTBBoundary then
    let P := update P 0 (Clip3 (m3 - tc) (m3 + tc) ((3 * m2 + 2 * m3 + m4 + m5 + m6 + 4) >>> (3 : ℕ)))
    let Q := update Q 0 (Clip3 (m4 - tc) (m4 + tc) ((2 * m2 + m3 + 2 * m4 + m5 + m6 + m7 + 4) >>> (3 : ℕ)))
    let Q := update Q 1 (Clip3 (m5 - tc) (m5 + tc) ((m2 + m3 + m4 + 2 * m5 + m6 + 2 * m7 + 4) >>> (3 : ℕ)))
    let Q := update Q 2 (Clip3 (m6 - tc) (m6 + tc) ((m3 + m4 + m5 + 2 * m6 + 3 * m7 + 4) >>> (3 : ℕ)))
    ⟨P, Q⟩
  else
    let P := update P 2 (Clip3 (m1 - tc) (m1 + tc) ((3 * m0 + 2 * m1 + m2 + m3 + m4 + 4) >>> (3 : ℕ)))
    let P := update P 1 (Clip3 (m2 - tc) (m2 + tc) ((2 * m0 + m1 + 2 * m2 + m3 + m4 + m5 + 4) >>> (3 : ℕ)))
    let P := update P 0 (Clip3 (m3 - tc) (m3 + tc) ((m0 + m1 + m2 + 2 * m3 + m4 + m5 + m6 + 4) >>> (3 : ℕ)))
    let Q := update Q 0 (Clip3 (m4 - tc) (m4 + tc) ((m1 + m2 + m3 + 2 * m4 + m5 + m6 + m7 + 4) >>> (3 : ℕ)))
    let Q := update Q 1 (Clip3 (m5 - tc) (m5 + tc) ((m2 + m3 + m4 + 2 * m5 + m6 + 2 * m7 + 4) >>> (3 : ℕ)))
    let Q := update Q 2 (Clip3 (m6 - tc) (m6 + tc) ((m3 + m4 + m5 + 2 * m6 + 3 * m7 + 4) >>> (3 : ℕ)))
    ⟨P, Q⟩

def weakChroma (src : Line) (tc : ℤ) (clpRng : ClpRng) : Line :=
  let m2 := src.P 1; let m3 := src.P 0
  let m4 := src.Q 0; let m5 := src.Q 1
  let delta := Clip3 (-tc) tc ((((m4 - m3) <<< (2 : ℕ)) + m2 - m5 + 4) >>> (3 : ℕ))
  ⟨update src.P 0 (ClipPel (m3 + delta) clpRng), update src.Q 0 (ClipPel (m4 - delta) clpRng)⟩

def xPelFilterChroma (piSrc : Line) (tc : ℤ) (sw bPartPNoFilter bPartQNoFilter : Bool) (clpRng : ClpRng)
    (largeBoundary isChromaHorCTBBoundary : Bool) : Line :=
  let src := if sw then strongChroma piSrc tc isChromaHorCTBBoundary else weakChroma piSrc tc clpRng
  { P := restore bPartPNoFilter (if largeBoundary then 3 else 1) piSrc.P src.P
    Q := restore bPartQNoFilter (if largeBoundary then 3 else 1) piSrc.Q src.Q }

end ECM.CommonLib.LoopFilter
