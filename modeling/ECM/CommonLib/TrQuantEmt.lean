import ECM.CommonLib.LoopFilter
import ECM.CommonLib.RomTr
import ECM.Lib.EvenOdd

/-! # The transforms of a block

A function transforms the lines of a block one by one. What it writes for a line is given as numbers of
entries with their values, in the order of the source; `finish` is the rounding behind a sum. Sums of
products that the source writes out are `products` along a row of a matrix and `taps` along a column. -/

namespace ECM.CommonLib.TrQuantEmt
open RomTr WeightPrediction Lib.EvenOdd

abbrev TCoeffs := ℕ → ℤ

/-! ## Arrays -/

/-- `memset` of `count` entries to zero. -/
def clear (dst : TCoeffs) (start count : ℕ) : TCoeffs := fun i => if start ≤ i ∧ i < start + count then 0 else dst i

def store (place : ℕ → ℕ) (values : List (ℕ × ℤ)) (dst : TCoeffs) : TCoeffs :=
  values.foldl (fun dst e => Function.update dst (place e.1) e.2) dst

/-- `iT[base] * v[0] + ... + iT[base + n - 1] * v[n - 1]` -/
def products (n : ℕ) (iT : ℕ → ℤ) (base : ℕ) (v : ℕ → ℤ) : ℤ := ∑ k ∈ Finset.range n, iT (base + k) * v k

/-- Column `k` of the given rows. -/
def taps (uiTrSize : ℕ) (iT : ℕ → ℤ) (k : ℕ) (rows : List ℕ) (src : TCoeffs) : ℤ :=
  (rows.map fun i => iT (i * uiTrSize + k) * src i).sum

/-! ## Loops over the lines -/

section
variable (uiTrSize : ℕ) (values : TCoeffs → List (ℕ × ℤ)) (src dst : TCoeffs) (line iSkipLine iSkipLine2 : ℕ)

def forwardLines (reducedLine : ℕ) : TCoeffs :=
  (List.range reducedLine).foldl (fun dst j =>
    store (fun k => k * line + j) (values fun k => src (j * uiTrSize + k)) dst) dst

/-- The skipped lines of `count` frequencies. -/
def clearLines (count : ℕ) (dst : TCoeffs) : TCoeffs :=
  (List.range count).foldl (fun dst j => clear dst (line - iSkipLine + j * line) iSkipLine) dst

/-- Functions that do not look at `iSkipLine2`. -/
def forwardAll : TCoeffs :=
  clearLines line iSkipLine uiTrSize (forwardLines uiTrSize values src dst line (line - iSkipLine))

/-- Functions that clear the skipped frequencies. -/
def forwardCutoff : TCoeffs :=
  let cutoff := uiTrSize - iSkipLine2
  let dst := clearLines line iSkipLine cutoff (forwardLines uiTrSize values src dst line (line - iSkipLine))
  clear dst (line * cutoff) (line * iSkipLine2)

def inverseLines : TCoeffs :=
  let reducedLine := line - iSkipLine
  let dst := (List.range reducedLine).foldl (fun dst j =>
    store (fun n => j * uiTrSize + n) (values fun k => src (k * line + j)) dst) dst
  clear dst (reducedLine * uiTrSize) (iSkipLine * uiTrSize)

end

/-! ## Rounding -/

/-- `(shift > 0) ? (1 << (shift - 1)) : 0` -/
def roundAdd (shift : ℕ) : ℤ := if 0 < shift then 1 <<< (shift - 1) else 0

def roundShift (add : ℤ) (shift : ℕ) (v : ℤ) : ℤ := (v + add) >>> shift

def roundClip (add : ℤ) (shift : ℕ) (outputMinimum outputMaximum v : ℤ) : ℤ :=
  Clip3 outputMinimum outputMaximum ((v + add) >>> shift)

/-! ## Matrix multiplication -/

def forwardMMLine (uiTrSize cutoff : ℕ) (tc : ℕ → ℤ) (finish : ℤ → ℤ) (src : TCoeffs) : List (ℕ × ℤ) :=
  (List.range cutoff).map fun j => (j, finish (∑ k ∈ Finset.range uiTrSize, src k * tc (j * uiTrSize + k)))

def inverseMMLine (uiTrSize cutoff : ℕ) (iT : ℕ → ℤ) (finish : ℤ → ℤ) (src : TCoeffs) : List (ℕ × ℤ) :=
  (List.range uiTrSize).map fun j => (j, finish (∑ k ∈ Finset.range cutoff, src k * iT (k * uiTrSize + j)))

def fastForwardMM (uiTrSize : ℕ) (tc : ℕ → ℤ) (src dst : TCoeffs) (shift line iSkipLine iSkipLine2 : ℕ) : TCoeffs :=
  forwardCutoff uiTrSize (forwardMMLine uiTrSize (uiTrSize - iSkipLine2) tc (roundShift (1 <<< (shift - 1)) shift))
    src dst line iSkipLine iSkipLine2

def fastInverseMM (uiTrSize : ℕ) (iT : ℕ → ℤ) (src dst : TCoeffs) (shift line iSkipLine iSkipLine2 : ℕ)
    (outputMinimum outputMaximum : ℤ) : TCoeffs :=
  inverseLines uiTrSize (inverseMMLine uiTrSize (uiTrSize - iSkipLine2) iT
    (roundClip (1 <<< (shift - 1)) shift outputMinimum outputMaximum)) src dst line iSkipLine

section
variable (iT : ℕ → ℤ) (finish : ℤ → ℤ) (src : TCoeffs)

/-! ## Lines of the forward DCT-II -/

def forwardDCT2_B2Line : List (ℕ × ℤ) :=
  let E := src 0 + src 1
  let O := src 0 - src 1
  [(0, finish (iT 0 * E)), (1, finish (iT 2 * O))]

def forwardDCT2_B4Line : List (ℕ × ℤ) :=
  let E := fun k => src k + src (3 - k)
  let O := fun k => src k - src (3 - k)
  [(0, finish (products 2 iT 0 E)), (2, finish (products 2 iT 8 E)),
   (1, finish (products 2 iT 4 O)), (3, finish (products 2 iT 12 O))]

def forwardDCT2_B8Line : List (ℕ × ℤ) :=
  let E := fun k => src k + src (7 - k)
  let O := fun k => src k - src (7 - k)
  let EE := fun k => E k + E (3 - k)
  let EO := fun k => E k - E (3 - k)
  [(0, finish (products 2 iT 0 EE)), (4, finish (products 2 iT 32 EE)),
   (2, finish (products 2 iT 16 EO)), (6, finish (products 2 iT 48 EO)),
   (1, finish (products 4 iT 8 O)), (3, finish (products 4 iT 24 O)),
   (5, finish (products 4 iT 40 O)), (7, finish (products 4 iT 56 O))]

def forwardDCT2_B16Line : List (ℕ × ℤ) :=
  let E := fun k => src k + src (15 - k)
  let O := fun k => src k - src (15 - k)
  let EE := fun k => E k + E (7 - k)
  let EO := fun k => E k - E (7 - k)
  let EEE := fun k => EE k + EE (3 - k)
  let EEO := fun k => EE k - EE (3 - k)
  [(0, finish (products 2 iT 0 EEE)), (8, finish (products 2 iT (8 * 16) EEE)),
   (4, finish (products 2 iT (4 * 16) EEO)), (12, finish (products 2 iT (12 * 16) EEO))] ++
    (List.range' 2 4 4).map (fun k => (k, finish (products 4 iT (k * 16) EO))) ++
    (List.range' 1 8 2).map fun k => (k, finish (products 8 iT (k * 16) O))

def forwardDCT2_B32Line : List (ℕ × ℤ) :=
  let E := fun k => src k + src (31 - k)
  let O := fun k => src k - src (31 - k)
  let EE := fun k => E k + E (15 - k)
  let EO := fun k => E k - E (15 - k)
  let EEE := fun k => EE k + EE (7 - k)
  let EEO := fun k => EE k - EE (7 - k)
  let EEEE := fun k => EEE k + EEE (3 - k)
  let EEEO := fun k => EEE k - EEE (3 - k)
  [(0, finish (products 2 iT (0 * 32) EEEE)), (16, finish (products 2 iT (16 * 32) EEEE)),
   (8, finish (products 2 iT (8 * 32) EEEO)), (24, finish (products 2 iT (24 * 32) EEEO))] ++
    (List.range' 4 4 8).map (fun k => (k, finish (products 4 iT (k * 32) EEO))) ++
    (List.range' 2 8 4).map (fun k => (k, finish (products 8 iT (k * 32) EO))) ++
    (List.range' 1 16 2).map fun k => (k, finish (products 16 iT (k * 32) O))

def forwardDCT2_B64Line (zo : Bool) : List (ℕ × ℤ) :=
  let E := fun k => src k + src (63 - k)
  let O := fun k => src k - src (63 - k)
  let EE := fun k => E k + E (31 - k)
  let EO := fun k => E k - E (31 - k)
  let EEE := fun k => EE k + EE (15 - k)
  let EEO := fun k => EE k - EE (15 - k)
  let EEEE := fun k => EEE k + EEE (7 - k)
  let EEEO := fun k => EEE k - EEE (7 - k)
  let EEEEE := fun k => EEEE k + EEEE (3 - k)
  let EEEEO := fun k => EEEE k - EEEE (3 - k)
  [(0, finish (products 2 iT (0 * 64) EEEEE)), (16, finish (products 2 iT (16 * 64) EEEEO))] ++
    (if zo then []
    else [(32, finish (products 2 iT (32 * 64) EEEEE)), (48, finish (products 2 iT (48 * 64) EEEEO))]) ++
    (List.range' 8 (if zo then 2 else 4) 16).map (fun k => (k, finish (products 4 iT (k * 64) EEEO))) ++
    (List.range' 4 (if zo then 4 else 8) 8).map (fun k => (k, finish (products 8 iT (k * 64) EEO))) ++
    (List.range' 2 (if zo then 8 else 16) 4).map (fun k => (k, finish (products 16 iT (k * 64) EO))) ++
    (List.range' 1 (if zo then 16 else 32) 2).map fun k => (k, finish (products 32 iT (k * 64) O))

/-! ## Lines of the inverse DCT-II -/

/-- The last loop of a line: `E[k] + O[k]` and, from the end, `E[m - 1 - k] - O[m - 1 - k]`. -/
def halves (m : ℕ) (E O : ℕ → ℤ) : List (ℕ × ℤ) :=
  (List.range m).flatMap fun k => [(k, finish (E k + O k)), (k + m, finish (E (m - 1 - k) - O (m - 1 - k)))]

def inverseDCT2_B2Line : List (ℕ × ℤ) :=
  let E := iT 0 * (src 0 + src 1)
  let O := iT 2 * (src 0 - src 1)
  [(0, finish E), (1, finish O)]

def inverseDCT2_B4Line : List (ℕ × ℤ) :=
  let O := fun k => taps 4 iT k [1, 3] src
  let E := fun k => taps 4 iT k [0, 2] src
  [(0, finish (E 0 + O 0)), (1, finish (E 1 + O 1)), (2, finish (E 1 - O 1)), (3, finish (E 0 - O 0))]

def inverseDCT2_B8Line : List (ℕ × ℤ) :=
  let O := fun k => taps 8 iT k [1, 3, 5, 7] src
  let EO := fun k => taps 8 iT k [2, 6] src
  let EE := fun k => taps 8 iT k [0, 4] src
  let E := mirrored 2 EE EO
  halves finish 4 E O

def inverseDCT2_B16Line : List (ℕ × ℤ) :=
  let O := fun k => taps 16 iT k (List.range' 1 8 2) src
  let EO := fun k => taps 16 iT k (List.range' 2 4 4) src
  let EEO := fun k => taps 16 iT k [4, 12] src
  let EEE := fun k => taps 16 iT k [0, 8] src
  let EE := mirrored 2 EEE EEO
  let E := mirrored 4 EE EO
  halves finish 8 E O

def inverseDCT2_B32Line : List (ℕ × ℤ) :=
  let O := fun k => taps 32 iT k (List.range' 1 16 2) src
  let EO := fun k => taps 32 iT k (List.range' 2 8 4) src
  let EEO := fun k => taps 32 iT k (List.range' 4 4 8) src
  let EEEO := fun k => taps 32 iT k [8, 24] src
  let EEEE := fun k => taps 32 iT k [0, 16] src
  let EEE := mirrored 2 EEEE EEEO
  let EE := mirrored 4 EEE EEO
  let E := mirrored 8 EE EO
  halves finish 16 E O

def inverseDCT2_B64Line (zo : Bool) : List (ℕ × ℤ) :=
  let O := fun k => taps 64 iT k (List.range' 1 16 2) src +
    if zo then 0 else taps 64 iT k (List.range' 33 16 2) src
  let EO := fun k => taps 64 iT k (List.range' 2 8 4) src + if zo then 0 else taps 64 iT k (List.range' 34 8 4) src
  let EEO := fun k => taps 64 iT k (List.range' 4 4 8) src + if zo then 0 else taps 64 iT k (List.range' 36 4 8) src
  let EEEO := fun k => taps 64 iT k [8, 24] src + if zo then 0 else taps 64 iT k [40, 56] src
  let EEEEO := fun k => taps 64 iT k [16] src + if zo then 0 else taps 64 iT k [48] src
  let EEEEE := fun k => taps 64 iT k [0] src + if zo then 0 else taps 64 iT k [32] src
  let EEEE := mirrored 2 EEEEE EEEEO
  let EEE := mirrored 4 EEEE EEEO
  let EE := mirrored 8 EEE EEO
  let E := mirrored 16 EE EO
  halves finish 32 E O

/-! ## Lines of the DST-VII -/

def forwardDST7_B4Line : List (ℕ × ℤ) :=
  let c0 := src 0 + src 3
  let c1 := src 1 + src 3
  let c2 := src 0 - src 1
  let c3 := iT 2 * src 2
  [(0, finish (iT 0 * c0 + iT 1 * c1 + c3)), (1, finish (iT 2 * (src 0 + src 1 - src 3))),
   (2, finish (iT 0 * c2 + iT 1 * c0 - c3)), (3, finish (iT 1 * c2 - iT 0 * c1 + c3))]

def inverseDST7_B4Line : List (ℕ × ℤ) :=
  let c0 := src 0 + src 2
  let c1 := src 2 + src 3
  let c2 := src 0 - src 3
  let c3 := iT 2 * src 1
  [(0, finish (iT 0 * c0 + iT 1 * c1 + c3)), (1, finish (iT 1 * c2 - iT 0 * c1 + c3)),
   (2, finish (iT 2 * (src 0 - src 2 + src 3))), (3, finish (iT 1 * c0 + iT 0 * c2 - c3))]

def forwardDST7_B16Line : List (ℕ × ℤ) :=
  let a := fun k => src k + src (11 + k)
  let b := fun k => src (9 - k) + src (11 + k)
  let c := fun k => src k - src (9 - k)
  let d := fun k => src k + src (9 - k) - src (11 + k)
  let t := iT 10 * src 10
  [(1, finish (iT 2 * d 0 + iT 5 * d 1 + iT 8 * d 2 + iT 11 * d 3 + iT 14 * d 4)),
   (4, finish (iT 8 * d 0 + iT 14 * d 1 + iT 5 * d 2 - iT 2 * d 3 - iT 11 * d 4)),
   (7, finish (iT 14 * d 0 + iT 2 * d 1 - iT 11 * d 2 - iT 5 * d 3 + iT 8 * d 4)),
   (10, finish (iT 11 * d 0 - iT 8 * d 1 - iT 2 * d 2 + iT 14 * d 3 - iT 5 * d 4)),
   (13, finish (iT 5 * d 0 - iT 11 * d 1 + iT 14 * d 2 - iT 8 * d 3 + iT 2 * d 4)),
   (5, finish (iT 10 * (src 0 + src 1 - src 3 - src 4 + src 6 + src 7 - src 9 - src 10 + src 12 + src 13 -
     src 15))),
   (0, finish (iT 0 * a 0 + iT 9 * b 0 + iT 1 * a 1 + iT 8 * b 1 + iT 2 * a 2 + iT 7 * b 2 + iT 3 * a 3 +
     iT 6 * b 3 + iT 4 * a 4 + iT 5 * b 4 + t)),
   (2, finish (iT 4 * c 0 - iT 5 * b 0 + iT 9 * c 1 - iT 0 * b 1 + iT 6 * c 2 + iT 3 * a 2 + iT 1 * c 3 +
     iT 8 * a 3 + iT 7 * a 4 + iT 2 * b 4 - t)),
   (3, finish (iT 6 * a 0 + iT 3 * b 0 + iT 2 * c 1 + iT 7 * a 1 + iT 9 * c 2 + iT 0 * a 2 + iT 4 * c 3 -
     iT 5 * b 3 - iT 1 * a 4 - iT 8 * b 4 + t)),
   (6, finish (iT 8 * a 0 + iT 1 * c 0 + iT 6 * c 1 - iT 3 * b 1 - iT 5 * a 2 - iT 4 * b 2 - iT 7 * c 3 -
     iT 2 * a 3 - iT 0 * c 4 + iT 9 * b 4 + t)),
   (8, finish (iT 4 * c 0 + iT 5 * a 0 - iT 0 * c 1 + iT 9 * b 1 - iT 3 * c 2 - iT 6 * a 2 + iT 1 * c 3 -
     iT 8 * b 3 + iT 2 * c 4 + iT 7 * a 4 - t)),
   (9, finish (iT 7 * c 0 + iT 2 * a 0 - iT 4 * a 1 - iT 5 * b 1 - iT 8 * c 2 + iT 1 * b 2 + iT 9 * a 3 +
     iT 0 * b 3 + iT 3 * c 4 - iT 6 * b 4 + t)),
   (11, finish (iT 9 * a 0 + iT 0 * b 0 - iT 8 * c 1 - iT 1 * a 1 + iT 2 * c 2 - iT 7 * b 2 + iT 6 * a 3 +
     iT 3 * b 3 - iT 5 * c 4 - iT 4 * a 4 - t)),
   (12, finish (iT 7 * c 0 - iT 2 * b 0 - iT 5 * c 1 - iT 4 * a 1 + iT 8 * a 2 + iT 1 * b 2 - iT 0 * a 3 -
     iT 9 * b 3 - iT 6 * c 4 + iT 3 * b 4 + t)),
   (14, finish (iT 3 * a 0 + iT 6 * b 0 - iT 7 * a 1 - iT 2 * b 1 + iT 0 * c 2 + iT 9 * a 2 - iT 4 * c 3 -
     iT 5 * a 3 + iT 8 * c 4 + iT 1 * a 4 - t)),
   (15, finish (iT 1 * c 0 - iT 8 * b 0 - iT 3 * c 1 + iT 6 * b 1 + iT 5 * c 2 - iT 4 * b 2 - iT 7 * c 3 +
     iT 2 * b 3 + iT 9 * c 4 - iT 0 * b 4 + t))]

def inverseDST7_B16Line : List (ℕ × ℤ) :=
  let a := fun k => src k + src (10 - k)
  let b := fun k => src (11 + k) + src (10 - k)
  let c := fun k => src k - src (11 + k)
  let d := fun k => src k + src (11 + k) - src (10 - k)
  let t := iT 10 * src 5
  [(2, finish (iT 2 * d 0 + iT 8 * d 1 + iT 14 * d 2 + iT 11 * d 3 + iT 5 * d 4)),
   (5, finish (iT 5 * d 0 + iT 14 * d 1 + iT 2 * d 2 - iT 8 * d 3 - iT 11 * d 4)),
   (8, finish (iT 8 * d 0 + iT 5 * d 1 - iT 11 * d 2 - iT 2 * d 3 + iT 14 * d 4)),
   (11, finish (iT 11 * d 0 - iT 2 * d 1 - iT 5 * d 2 + iT 14 * d 3 - iT 8 * d 4)),
   (14, finish (iT 14 * d 0 - iT 11 * d 1 + iT 8 * d 2 - iT 5 * d 3 + iT 2 * d 4)),
   (10, finish (iT 10 * (src 0 - src 2 + src 3 - src 5 + src 6 - src 8 + src 9 - src 11 + src 12 - src 14 +
     src 15))),
   (0, finish (iT 0 * a 0 + iT 9 * b 0 + iT 2 * a 1 + iT 7 * b 1 + iT 4 * a 2 + iT 5 * b 2 + iT 6 * a 3 +
     iT 3 * b 3 + iT 8 * a 4 + iT 1 * b 4 + t)),
   (1, finish (iT 1 * c 0 - iT 8 * b 0 + iT 5 * c 1 - iT 4 * b 1 + iT 9 * c 2 - iT 0 * b 2 + iT 2 * a 3 +
     iT 7 * c 3 + iT 6 * a 4 + iT 3 * c 4 + t)),
   (3, finish (iT 3 * a 0 + iT 6 * b 0 + iT 0 * c 1 + iT 9 * a 1 + iT 1 * a 2 + iT 8 * c 2 + iT 4 * c 3 -
     iT 5 * b 3 - iT 2 * a 4 - iT 7 * b 4 - t)),
   (4, finish (iT 4 * c 0 - iT 5 * b 0 + iT 6 * c 1 + iT 3 * a 1 + iT 7 * a 2 + iT 2 * b 2 - iT 1 * c 3 +
     iT 8 * b 3 - iT 9 * c 4 - iT 0 * a 4 - t)),
   (6, finish (iT 6 * a 0 + iT 3 * b 0 + iT 9 * c 1 + iT 0 * a 1 - iT 1 * a 2 - iT 8 * b 2 - iT 4 * c 3 -
     iT 5 * a 3 - iT 2 * c 4 + iT 7 * b 4 + t)),
   (7, finish (iT 7 * c 0 - iT 2 * b 0 + iT 8 * a 1 + iT 1 * b 1 - iT 6 * c 2 + iT 3 * b 2 - iT 9 * a 3 -
     iT 0 * b 3 + iT 5 * c 4 - iT 4 * b 4 + t)),
   (9, finish (iT 9 * a 0 + iT 0 * b 0 + iT 2 * c 1 - iT 7 * b 1 - iT 5 * c 2 - iT 4 * a 2 + iT 3 * a 3 +
     iT 6 * b 3 + iT 8 * c 4 - iT 1 * b 4 - t)),
   (12, finish (iT 1 * c 0 + iT 8 * a 0 - iT 5 * a 1 - iT 4 * b 1 - iT 0 * c 2 + iT 9 * b 2 + iT 7 * c 3 -
     iT 2 * b 3 - iT 6 * c 4 - iT 3 * a 4 + t)),
   (13, finish (iT 7 * c 0 + iT 2 * a 0 - iT 8 * c 1 + iT 1 * b 1 + iT 3 * c 2 - iT 6 * b 2 + iT 0 * a 3 +
     iT 9 * b 3 - iT 5 * a 4 - iT 4 * b 4 + t)),
   (15, finish (iT 4 * c 0 + iT 5 * a 0 - iT 3 * c 1 - iT 6 * a 1 + iT 2 * c 2 + iT 7 * a 2 - iT 1 * c 3 -
     iT 8 * a 3 + iT 0 * c 4 + iT 9 * a 4 - t))]

end

/-! ## The functions -/

section
variable (src dst : TCoeffs) (shift line iSkipLine iSkipLine2 : ℕ)

def fastForwardDCT2_B2 : TCoeffs :=
  forwardAll 2 (forwardDCT2_B2Line (rowMajor g_trCoreDCT2P2) (roundShift (roundAdd shift) shift)) src dst line iSkipLine

def fastForwardDCT2_B4 : TCoeffs :=
  forwardAll 4 (forwardDCT2_B4Line (rowMajor g_trCoreDCT2P4) (roundShift (roundAdd shift) shift)) src dst line iSkipLine

def fastForwardDCT2_B8 : TCoeffs :=
  forwardAll 8 (forwardDCT2_B8Line (rowMajor g_trCoreDCT2P8) (roundShift (roundAdd shift) shift)) src dst line iSkipLine

def fastForwardDCT2_B16 : TCoeffs :=
  forwardAll 16 (forwardDCT2_B16Line (rowMajor g_trCoreDCT2P16) (roundShift (roundAdd shift) shift)) src dst line iSkipLine

def fastForwardDCT2_B32 : TCoeffs :=
  forwardAll 32 (forwardDCT2_B32Line (rowMajor g_trCoreDCT2P32) (roundShift (roundAdd shift) shift)) src dst line iSkipLine

def fastForwardDCT2_B64 : TCoeffs :=
  let zo : Bool := iSkipLine2 ≠ 0
  forwardCutoff 64 (fun src => forwardDCT2_B64Line (rowMajor g_trCoreDCT2P64)
    (roundShift (1 <<< (shift - 1)) shift) src zo) src dst line iSkipLine iSkipLine2

def fastForwardDST7_B4 : TCoeffs :=
  forwardAll 4 (forwardDST7_B4Line (rowMajor g_trCoreDST7P4) (roundShift (roundAdd shift) shift)) src dst line iSkipLine

def fastForwardDST7_B16 : TCoeffs :=
  forwardCutoff 16 (forwardDST7_B16Line (rowMajor g_trCoreDST7P16) (roundShift (roundAdd shift) shift)) src dst
    line iSkipLine iSkipLine2

variable (outputMinimum outputMaximum : ℤ)

def fastInverseDCT2_B2 : TCoeffs :=
  inverseLines 2 (inverseDCT2_B2Line (rowMajor g_trCoreDCT2P2)
    (roundClip (1 <<< (shift - 1)) shift outputMinimum outputMaximum)) src dst line iSkipLine

def fastInverseDCT2_B4 : TCoeffs :=
  inverseLines 4 (inverseDCT2_B4Line (rowMajor g_trCoreDCT2P4)
    (roundClip (1 <<< (shift - 1)) shift outputMinimum outputMaximum)) src dst line iSkipLine

def fastInverseDCT2_B8 : TCoeffs :=
  inverseLines 8 (inverseDCT2_B8Line (rowMajor g_trCoreDCT2P8)
    (roundClip (1 <<< (shift - 1)) shift outputMinimum outputMaximum)) src dst line iSkipLine

def fastInverseDCT2_B16 : TCoeffs :=
  inverseLines 16 (inverseDCT2_B16Line (rowMajor g_trCoreDCT2P16)
    (roundClip (1 <<< (shift - 1)) shift outputMinimum outputMaximum)) src dst line iSkipLine

def fastInverseDCT2_B32 : TCoeffs :=
  inverseLines 32 (inverseDCT2_B32Line (rowMajor g_trCoreDCT2P32)
    (roundClip (1 <<< (shift - 1)) shift outputMinimum outputMaximum)) src dst line iSkipLine

def fastInverseDCT2_B64 : TCoeffs :=
  let zo : Bool := iSkipLine2 ≥ 32
  inverseLines 64 (fun src => inverseDCT2_B64Line (rowMajor g_trCoreDCT2P64)
    (roundClip (1 <<< (shift - 1)) shift outputMinimum outputMaximum) src zo) src dst line iSkipLine

def fastInverseDST7_B4 : TCoeffs :=
  inverseLines 4 (inverseDST7_B4Line (rowMajor g_trCoreDST7P4)
    (roundClip (roundAdd shift) shift outputMinimum outputMaximum)) src dst line iSkipLine

def fastInverseDST7_B16 : TCoeffs :=
  inverseLines 16 (inverseDST7_B16Line (rowMajor g_trCoreDST7P16)
    (roundClip (roundAdd shift) shift outputMinimum outputMaximum)) src dst line iSkipLine

end

/-! ## What is skipped -/

def JVET_C0024_ZERO_OUT_TH : ℕ := 256

/-- `skipWidth` and `skipHeight` of `xT` and `xIT`. -/
def skipSizes (width height : ℕ) (lfnst : Bool) : ℕ × ℕ :=
  let skipWidth := if width > JVET_C0024_ZERO_OUT_TH then width - JVET_C0024_ZERO_OUT_TH else 0
  let skipHeight := if height > JVET_C0024_ZERO_OUT_TH then height - JVET_C0024_ZERO_OUT_TH else 0
  if lfnst then
    if width = 4 ∧ height > 4 ∨ width > 4 ∧ height = 4 then (width - 4, height - 4)
    else if width ≥ 16 ∧ height ≥ 16 then (width - 16, height - 16)
    else if width ≥ 8 ∧ height ≥ 8 then (width - 8, height - 8)
    else (skipWidth, skipHeight)
  else (skipWidth, skipHeight)

end ECM.CommonLib.TrQuantEmt
