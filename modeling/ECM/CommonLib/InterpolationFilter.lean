import ECM.CommonLib.LoopFilter
import ECM.CommonLib.Reshape

/-! # Interpolation filters

The two passes of a separable filter for a block at a fractional position: the coefficients that
`filterHor` and `filterVer` take for a position, and what a pass stores for each sample. Motion
refinement (`biMCForDMVR`) has filters and shifts of its own and is left out. -/

namespace ECM.CommonLib.InterpolationFilter
open Lmcs (toPel)
open LoopFilter (ClpRng ClipPel)

def IF_INTERNAL_PREC : ℕ := 14

def IF_FILTER_PREC : ℕ := 8

def IF_INTERNAL_OFFS : ℤ := (1 : ℤ) <<< (IF_INTERNAL_PREC - 1)

/-- `IF_INTERNAL_FRAC_BITS`, for a bit depth. -/
def IF_INTERNAL_FRAC_BITS (bd : ℕ) : ℕ := max 2 (IF_INTERNAL_PREC - bd)

def LUMA_INTERPOLATION_FILTER_SUB_SAMPLE_POSITIONS : ℕ := 16

def CHROMA_INTERPOLATION_FILTER_SUB_SAMPLE_POSITIONS : ℕ := 32

/-! ## Coefficients -/

/-- A table whose entries are written as `x * 4`. -/
def scaled (rows : List (List ℤ)) : List (List ℤ) := rows.map fun row => row.map (· * 4)

def m_lumaFilter4x4 : List (List ℤ) :=
  scaled [[0, 0, 0, 64, 0, 0, 0, 0], [0, 1, -3, 63, 4, -2, 1, 0], [0, 1, -5, 62, 8, -3, 1, 0],
    [0, 2, -8, 60, 13, -4, 1, 0], [0, 3, -10, 58, 17, -5, 1, 0], [0, 3, -11, 52, 26, -8, 2, 0],
    [0, 2, -9, 47, 31, -10, 3, 0], [0, 3, -11, 45, 34, -10, 3, 0], [0, 3, -11, 40, 40, -11, 3, 0],
    [0, 3, -10, 34, 45, -11, 3, 0], [0, 3, -10, 31, 47, -9, 2, 0], [0, 2, -8, 26, 52, -11, 3, 0],
    [0, 1, -5, 17, 58, -10, 3, 0], [0, 1, -4, 13, 60, -8, 2, 0], [0, 1, -3, 8, 62, -5, 1, 0],
    [0, 1, -2, 4, 63, -3, 1, 0]]

def m_lumaFilter12 : List (List ℤ) :=
  [[0, 0, 0, 0, 0, 256, 0, 0, 0, 0, 0, 0], [-1, 2, -3, 6, -14, 254, 16, -7, 4, -2, 1, 0],
    [-1, 3, -7, 12, -26, 249, 35, -15, 8, -4, 2, 0], [-2, 5, -9, 17, -36, 241, 54, -22, 12, -6, 3, -1],
    [-2, 5, -11, 21, -43, 230, 75, -29, 15, -8, 4, -1], [-2, 6, -13, 24, -48, 216, 97, -36, 19, -10, 4, -1],
    [-2, 7, -14, 25, -51, 200, 119, -42, 22, -12, 5, -1], [-2, 7, -14, 26, -51, 181, 140, -46, 24, -13, 6, -2],
    [-2, 6, -13, 25, -50, 162, 162, -50, 25, -13, 6, -2], [-2, 6, -13, 24, -46, 140, 181, -51, 26, -14, 7, -2],
    [-1, 5, -12, 22, -42, 119, 200, -51, 25, -14, 7, -2], [-1, 4, -10, 19, -36, 97, 216, -48, 24, -13, 6, -2],
    [-1, 4, -8, 15, -29, 75, 230, -43, 21, -11, 5, -2], [-1, 3, -6, 12, -22, 54, 241, -36, 17, -9, 5, -2],
    [0, 2, -4, 8, -15, 35, 249, -26, 12, -7, 3, -1], [0, 1, -2, 4, -7, 16, 254, -14, 6, -3, 2, -1]]

def m_lumaFilter : List (List ℤ) :=
  scaled [[0, 0, 0, 64, 0, 0, 0, 0], [0, 1, -3, 63, 4, -2, 1, 0], [-1, 2, -5, 62, 8, -3, 1, 0],
    [-1, 3, -8, 60, 13, -4, 1, 0], [-1, 4, -10, 58, 17, -5, 1, 0], [-1, 4, -11, 52, 26, -8, 3, -1],
    [-1, 3, -9, 47, 31, -10, 4, -1], [-1, 4, -11, 45, 34, -10, 4, -1], [-1, 4, -11, 40, 40, -11, 4, -1],
    [-1, 4, -10, 34, 45, -11, 4, -1], [-1, 4, -10, 31, 47, -9, 3, -1], [-1, 3, -8, 26, 52, -11, 4, -1],
    [0, 1, -5, 17, 58, -10, 4, -1], [0, 1, -4, 13, 60, -8, 3, -1], [0, 1, -3, 8, 62, -5, 2, -1],
    [0, 1, -2, 4, 63, -3, 1, 0]]

def m_lumaFilterRPR1 : List (List ℤ) :=
  scaled [[-1, -5, 17, 42, 17, -5, -1, 0], [0, -5, 15, 41, 19, -5, -1, 0], [0, -5, 13, 40, 21, -4, -1, 0],
    [0, -5, 11, 39, 24, -4, -2, 1], [0, -5, 9, 38, 26, -3, -2, 1], [0, -5, 7, 38, 28, -2, -3, 1],
    [1, -5, 5, 36, 30, -1, -3, 1], [1, -4, 3, 35, 32, 0, -4, 1], [1, -4, 2, 33, 33, 2, -4, 1],
    [1, -4, 0, 32, 35, 3, -4, 1], [1, -3, -1, 30, 36, 5, -5, 1], [1, -3, -2, 28, 38, 7, -5, 0],
    [1, -2, -3, 26, 38, 9, -5, 0], [1, -2, -4, 24, 39, 11, -5, 0], [0, -1, -4, 21, 40, 13, -5, 0],
    [0, -1, -5, 19, 41, 15, -5, 0]]

def m_lumaFilterRPR2 : List (List ℤ) :=
  scaled [[-4, 2, 20, 28, 20, 2, -4, 0], [-4, 0, 19, 29, 21, 5, -4, -2], [-4, -1, 18, 29, 22, 6, -4, -2],
    [-4, -1, 16, 29, 23, 7, -4, -2], [-4, -1, 16, 28, 24, 7, -4, -2], [-4, -1, 14, 28, 25, 8, -4, -2],
    [-3, -3, 14, 27, 26, 9, -3, -3], [-3, -1, 12, 28, 25, 10, -4, -3], [-3, -3, 11, 27, 27, 11, -3, -3],
    [-3, -4, 10, 25, 28, 12, -1, -3], [-3, -3, 9, 26, 27, 14, -3, -3], [-2, -4, 8, 25, 28, 14, -1, -4],
    [-2, -4, 7, 24, 28, 16, -1, -4], [-2, -4, 7, 23, 29, 16, -1, -4], [-2, -4, 6, 22, 29, 18, -1, -4],
    [-2, -4, 5, 21, 29, 19, 0, -4]]

def m_affineLumaFilterRPR1 : List (List ℤ) :=
  scaled [[0, -6, 17, 42, 17, -5, -1, 0], [0, -5, 15, 41, 19, -5, -1, 0], [0, -5, 13, 40, 21, -4, -1, 0],
    [0, -5, 11, 39, 24, -4, -1, 0], [0, -5, 9, 38, 26, -3, -1, 0], [0, -5, 7, 38, 28, -2, -2, 0],
    [0, -4, 5, 36, 30, -1, -2, 0], [0, -3, 3, 35, 32, 0, -3, 0], [0, -3, 2, 33, 33, 2, -3, 0],
    [0, -3, 0, 32, 35, 3, -3, 0], [0, -2, -1, 30, 36, 5, -4, 0], [0, -2, -2, 28, 38, 7, -5, 0],
    [0, -1, -3, 26, 38, 9, -5, 0], [0, -1, -4, 24, 39, 11, -5, 0], [0, -1, -4, 21, 40, 13, -5, 0],
    [0, -1, -5, 19, 41, 15, -5, 0]]

def m_affineLumaFilterRPR2 : List (List ℤ) :=
  scaled [[0, -2, 20, 28, 20, 2, -4, 0], [0, -4, 19, 29, 21, 5, -6, 0], [0, -5, 18, 29, 22, 6, -6, 0],
    [0, -5, 16, 29, 23, 7, -6, 0], [0, -5, 16, 28, 24, 7, -6, 0], [0, -5, 14, 28, 25, 8, -6, 0],
    [0, -6, 14, 27, 26, 9, -6, 0], [0, -4, 12, 28, 25, 10, -7, 0], [0, -6, 11, 27, 27, 11, -6, 0],
    [0, -7, 10, 25, 28, 12, -4, 0], [0, -6, 9, 26, 27, 14, -6, 0], [0, -6, 8, 25, 28, 14, -5, 0],
    [0, -6, 7, 24, 28, 16, -5, 0], [0, -6, 7, 23, 29, 16, -5, 0], [0, -6, 6, 22, 29, 18, -5, 0],
    [0, -6, 5, 21, 29, 19, -4, 0]]

def m_lumaAltHpelIFilter : List ℤ := [0 * 4, 3 * 4, 9 * 4, 20 * 4, 20 * 4, 9 * 4, 3 * 4, 0 * 4]

def m_chromaFilter : List (List ℤ) :=
  [[0, 0, 256, 0, 0, 0], [1, -6, 256, 7, -2, 0], [2, -11, 253, 15, -4, 1], [3, -16, 251, 23, -6, 1],
    [4, -21, 248, 33, -10, 2], [5, -25, 244, 42, -12, 2], [7, -30, 239, 53, -17, 4], [7, -32, 234, 62, -19, 4],
    [8, -35, 227, 73, -22, 5], [9, -38, 220, 84, -26, 7], [10, -40, 213, 95, -29, 7],
    [10, -41, 204, 106, -31, 8], [10, -42, 196, 117, -34, 9], [10, -41, 187, 127, -35, 8],
    [11, -42, 177, 138, -38, 10], [10, -41, 168, 148, -39, 10], [10, -40, 158, 158, -40, 10],
    [10, -39, 148, 168, -41, 10], [10, -38, 138, 177, -42, 11], [8, -35, 127, 187, -41, 10],
    [9, -34, 117, 196, -42, 10], [8, -31, 106, 204, -41, 10], [7, -29, 95, 213, -40, 10],
    [7, -26, 84, 220, -38, 9], [5, -22, 73, 227, -35, 8], [4, -19, 62, 234, -32, 7], [4, -17, 53, 239, -30, 7],
    [2, -12, 42, 244, -25, 5], [2, -10, 33, 248, -21, 4], [1, -6, 23, 251, -16, 3], [1, -4, 15, 253, -11, 2],
    [0, -2, 7, 256, -6, 1]]

def m_chromaFilterRPR1 : List (List ℤ) :=
  scaled [[12, 40, 12, 0], [11, 40, 13, 0], [10, 40, 15, -1], [9, 40, 16, -1], [8, 40, 17, -1], [8, 39, 18, -1],
    [7, 39, 19, -1], [6, 38, 21, -1], [5, 38, 22, -1], [4, 38, 23, -1], [4, 37, 24, -1], [3, 36, 25, 0],
    [3, 35, 26, 0], [2, 34, 28, 0], [2, 33, 29, 0], [1, 33, 30, 0], [1, 31, 31, 1], [0, 30, 33, 1],
    [0, 29, 33, 2], [0, 28, 34, 2], [0, 26, 35, 3], [0, 25, 36, 3], [-1, 24, 37, 4], [-1, 23, 38, 4],
    [-1, 22, 38, 5], [-1, 21, 38, 6], [-1, 19, 39, 7], [-1, 18, 39, 8], [-1, 17, 40, 8], [-1, 16, 40, 9],
    [-1, 15, 40, 10], [0, 13, 40, 11]]

def m_chromaFilterRPR2 : List (List ℤ) :=
  scaled [[17, 30, 17, 0], [17, 30, 18, -1], [16, 30, 18, 0], [16, 30, 18, 0], [15, 30, 18, 1], [14, 30, 18, 2],
    [13, 29, 19, 3], [13, 29, 19, 3], [12, 29, 20, 3], [11, 28, 21, 4], [10, 28, 22, 4], [10, 27, 22, 5],
    [9, 27, 23, 5], [9, 26, 24, 5], [8, 26, 24, 6], [7, 26, 25, 6], [7, 25, 25, 7], [6, 25, 26, 7],
    [6, 24, 26, 8], [5, 24, 26, 9], [5, 23, 27, 9], [5, 22, 27, 10], [4, 22, 28, 10], [4, 21, 28, 11],
    [3, 20, 29, 12], [3, 19, 29, 13], [3, 19, 29, 13], [2, 18, 30, 14], [1, 18, 30, 15], [0, 18, 30, 16],
    [0, 18, 30, 16], [-1, 18, 30, 17]]

def m_bilinearFilter : List (List ℤ) :=
  scaled [[64, 0], [60, 4], [56, 8], [52, 12], [48, 16], [44, 20], [40, 24], [36, 28], [32, 32], [28, 36], [24, 40],
    [20, 44], [16, 48], [12, 52], [8, 56], [4, 60]]

/-! ## Filters of a position -/

/-- What `filterHor` and `filterVer` do at a position. -/
inductive Filter where
  | copy
  | taps (coeff : List ℤ)
  deriving DecidableEq, Repr

/-- The luma branches, in the order of the source. -/
def lumaFilter (frac nFilterIdx : ℕ) (useAltHpelIf : Bool) : Checked Filter :=
  if frac = 0 ∧ nFilterIdx < 2 then .ok .copy
  else do
    check (frac ≥ LUMA_INTERPOLATION_FILTER_SUB_SAMPLE_POSITIONS) "Invalid fraction"
    return .taps <|
      if nFilterIdx = 1 then m_bilinearFilter.getD frac []
      else if nFilterIdx = 2 then m_lumaFilter4x4.getD frac []
      else if nFilterIdx = 3 then m_lumaFilterRPR1.getD frac []
      else if nFilterIdx = 4 then m_lumaFilterRPR2.getD frac []
      else if nFilterIdx = 5 then m_affineLumaFilterRPR1.getD frac []
      else if nFilterIdx = 6 then m_affineLumaFilterRPR2.getD frac []
      else if frac = 8 ∧ useAltHpelIf then m_lumaAltHpelIFilter
      else m_lumaFilter12.getD frac []

/-- The chroma branches; `cs` is the scale of the component in the direction of the filter. -/
def chromaFilter (frac cs nFilterIdx : ℕ) : Checked Filter :=
  if frac = 0 ∧ nFilterIdx < 2 then .ok .copy
  else do
    check (cs ≥ 2 ∨ frac <<< (1 - cs) ≥ CHROMA_INTERPOLATION_FILTER_SUB_SAMPLE_POSITIONS) "Invalid fraction"
    return .taps <|
      if nFilterIdx = 3 then m_chromaFilterRPR1.getD (frac <<< (1 - cs)) []
      else if nFilterIdx = 4 then m_chromaFilterRPR2.getD (frac <<< (1 - cs)) []
      else m_chromaFilter.getD (frac <<< (1 - cs)) []

/-! ## Passes -/

/-- The samples around a position, by row and column. -/
abbrev Block := ℤ → ℤ → ℤ

/-- `src[0] * c[0] + src[1] * c[1] + ...`. -/
def tapSum : List ℤ → (ℕ → ℤ) → ℤ
  | [], _ => 0
  | c :: cs, src => src 0 * c + tapSum cs fun i => src (i + 1)

/-- The samples under the taps at a position. -/
def window (isVertical : Bool) (taps : ℕ) (src : Block) (row col : ℤ) (i : ℕ) : ℤ :=
  if isVertical then src (row + i - (taps / 2 - 1 : ℕ)) col else src row (col + i - (taps / 2 - 1 : ℕ))

/-- The `val` that `filter` computes for a sample. What an `int` becomes as a `Pel` is the parameter `pel`: the
conversion of the code, or none for the exact value. -/
def filterVal (pel : ℤ → ℤ) (isVertical isFirst isLast : Bool) (bd : ℕ) (coeff : List ℤ) (src : Block) (row col : ℤ) : ℤ :=
  let headRoom := IF_INTERNAL_FRAC_BITS bd
  let shift :=
    if isLast then IF_FILTER_PREC + (if isFirst then 0 else headRoom)
    else IF_FILTER_PREC - (if isFirst then headRoom else 0)
  let offset : ℤ :=
    if isLast then (1 : ℤ) <<< (shift - 1) + (if isFirst then 0 else IF_INTERNAL_OFFS <<< IF_FILTER_PREC)
    else if isFirst then (-IF_INTERNAL_OFFS) <<< shift else 0
  pel ((tapSum coeff (window isVertical coeff.length src row col) + offset) >>> shift)

/-- The `val` that `filterCopy` computes for a sample. -/
def copyVal (pel : ℤ → ℤ) (isFirst isLast : Bool) (bd : ℕ) (src : Block) (row col : ℤ) : ℤ :=
  let shift := IF_INTERNAL_FRAC_BITS bd
  if isFirst = isLast then src row col
  else if isFirst then pel (pel (src row col <<< shift) - pel IF_INTERNAL_OFFS)
  else pel ((src row col + IF_INTERNAL_OFFS + (1 : ℤ) <<< (shift - 1)) >>> shift)

def passVal (pel : ℤ → ℤ) (f : Filter) (isVertical isFirst isLast : Bool) (bd : ℕ) (src : Block) : Block :=
  match f with
  | .copy => copyVal pel isFirst isLast bd src
  | .taps coeff => filterVal pel isVertical isFirst isLast bd coeff src

/-- What a pass stores. -/
def pass (pel : ℤ → ℤ) (f : Filter) (isVertical isFirst isLast : Bool) (bd : ℕ) (clpRng : ClpRng) (src : Block) : Block :=
  fun row col =>
    let val := passVal pel f isVertical isFirst isLast bd src row col
    let clips := match f with
      | .copy => isLast && !isFirst
      | .taps _ => isLast
    if clips then ClipPel val clpRng else val

end ECM.CommonLib.InterpolationFilter
