import ECM.CommonLib.IntraModes
import ECM.CommonLib.Rom
import ECM.CommonLib.Slice

/-! # The secondary transform

A non-separable transform of the low frequencies: `xFwdLfnst` packs them into an array, applies the
kernel and writes the result along the scan; `xInvLfnst` goes back. The rounding of the results is an
argument. -/

namespace ECM.CommonLib.Lfnst
open CommonLib CommonLib.Rom Lib.Loop

def L16W_ZO : ℕ := 96
def L16H : ℕ := 32
def L8W_ZO : ℕ := 64
def L8H : ℕ := 32
def NUM_EXT_LUMA_MODE : ℤ := 30
def NUM_LFNST_INTRA_MODES : ℤ := NUM_LUMA_MODE + NUM_EXT_LUMA_MODE

/-! ## Modes and sizes -/

def getLFNSTIntraMode (wideAngPredMode : ℤ) : Checked ℤ := do
  let intraMode :=
    if wideAngPredMode < 0 then wideAngPredMode + NUM_EXT_LUMA_MODE / 2 + NUM_LUMA_MODE
    else if wideAngPredMode ≥ NUM_LUMA_MODE then wideAngPredMode + NUM_EXT_LUMA_MODE / 2
    else wideAngPredMode
  -- a negative mode is a large one as `uint32_t`
  check (intraMode < 0 ∨ intraMode ≥ NUM_LFNST_INTRA_MODES) "Wrong intra mode for LFNST"
  return intraMode

def getTransposeFlag (intraMode : ℤ) : Bool :=
  (intraMode ≥ NUM_LUMA_MODE && intraMode ≥ NUM_LUMA_MODE + NUM_EXT_LUMA_MODE / 2) ||
    (intraMode < NUM_LUMA_MODE && intraMode > DIA_IDX)

def g_lfnstLut : List ℕ :=
  [0, 1, 2, 3, 4, 5, 6, 7, 8, 9, 10, 11, 12, 13, 14, 15, 16, 17, 18, 19, 20, 21, 22, 23, 24, 25, 26, 27, 28,
   29, 30, 31, 32, 33, 34, 33, 32, 31, 30, 29, 28, 27, 26, 25, 24, 23, 22, 21, 20, 19, 18, 17, 16, 15, 14, 13,
   12, 11, 10, 9, 8, 7, 6, 5, 4, 3, 2, 2, 2, 2, 2, 2, 2, 2, 2, 2, 2, 2, 2, 2, 2, 2, 2, 2, 2, 2, 2, 2, 2, 2, 2,
   2, 2, 2, 2, 2, 2]

def getUseLFNST8 (width height : ℕ) : Bool := width ≥ 8 && height ≥ 8

def getUseLFNST16 (width height : ℕ) : Bool := width ≥ 16 && height ≥ 16

def getLFNSTMatrixDim (width height : ℕ) : ℕ :=
  let dimension := if width = 8 && height = 8 then 16 else if width ≥ 8 && height ≥ 8 then 32 else 16
  if width ≥ 16 && height ≥ 16 then L16H else dimension

/-! ## Scans -/

/-- The two columns of `g_auiXYDiagScan8x8`. -/
def g_auiXYDiagScan8x8 : List (ℕ × ℕ) :=
  [(0, 0), (0, 1), (1, 0), (0, 2), (1, 1), (2, 0), (0, 3), (1, 2),
   (2, 1), (3, 0), (1, 3), (2, 2), (3, 1), (2, 3), (3, 2), (3, 3),
   (0, 4), (0, 5), (1, 4), (0, 6), (1, 5), (2, 4), (0, 7), (1, 6),
   (2, 5), (3, 4), (1, 7), (2, 6), (3, 5), (2, 7), (3, 6), (3, 7),
   (4, 0), (4, 1), (5, 0), (4, 2), (5, 1), (6, 0), (4, 3), (5, 2),
   (6, 1), (7, 0), (5, 3), (6, 2), (7, 1), (6, 3), (7, 2), (7, 3),
   (4, 4), (4, 5), (5, 4), (4, 6), (5, 5), (6, 4), (4, 7), (5, 6),
   (6, 5), (7, 4), (5, 7), (6, 6), (7, 5), (6, 7), (7, 6), (7, 7)]

/-- `g_coefTopLeftDiagScan8x8[blockWidthIdx][i].idx` -/
def coefTopLeftDiagScan8x8 (blockWidth i : ℕ) : ℕ :=
  (g_auiXYDiagScan8x8.getD i (0, 0)).1 + (g_auiXYDiagScan8x8.getD i (0, 0)).2 * blockWidth

/-- `g_coefTopLeftDiagScan16x16[blockWidthIdx][i4].idx`, with `i4 = blky * 128 + blkx * 64 + i`. -/
def coefTopLeftDiagScan16x16 (blockWidth i4 : ℕ) : ℕ :=
  let blky := i4 / 128
  let blkx := i4 / 64 % 2
  let i := i4 % 64
  (g_auiXYDiagScan8x8.getD i (0, 0)).1 + (g_auiXYDiagScan8x8.getD i (0, 0)).2 * blockWidth +
    blkx * 8 + blky * 8 * blockWidth

/-! ## The kernels -/

/-- The tables of kernels, by kernel set, index, row and column. -/
structure Kernels where
  g_lfnst16x16 : ℕ → ℕ → ℕ → ℕ → ℤ
  g_lfnst8x8 : ℕ → ℕ → ℕ → ℕ → ℤ
  g_lfnst4x4 : ℕ → ℕ → ℕ → ℕ → ℤ

def Kernels.trMat (k : Kernels) (mode index size : ℕ) : ℕ → ℕ → ℤ :=
  if size > 8 then k.g_lfnst16x16 mode index
  else if size > 4 then k.g_lfnst8x8 mode index
  else k.g_lfnst4x4 mode index

def trSize (size : ℕ) : ℕ := if size > 8 then L16W_ZO else if size > 4 then L8W_ZO else 16

/-! ## Arrays

`m_tempInMatrix` and `m_tempOutMatrix` have `L16W_ZO` entries each. -/

abbrev TempMatrix := ℕ → ℤ

def readTemp (m : TempMatrix) (i : ℕ) : Checked ℤ := if i < L16W_ZO then .ok (m i) else .error outOfRange

def writeTemp (m : TempMatrix) (i : ℕ) (v : ℤ) : Checked TempMatrix :=
  if i < L16W_ZO then .ok (Function.update m i v) else .error outOfRange

/-- `forwardLfnst`, and the zeros behind it. -/
def fwdLfnstNxN (k : Kernels) (finish : ℤ → ℤ) (src dst : TempMatrix) (mode index size zeroOutSize : ℕ) :
    Checked TempMatrix := do
  let trMat := k.trMat mode index size
  let trSize := trSize size
  check (index ≥ 4) "assertion failed"
  let out ← loop (fun j dst => do
    let coef ← loop (fun i coef => do
      let v ← readTemp src i
      return coef + v * trMat j i) trSize 0
    writeTemp dst j (finish coef)) zeroOutSize dst
  loop (fun j dst => writeTemp dst (zeroOutSize + j) 0) (trSize - zeroOutSize) out

/-- `inverseLfnst` -/
def invLfnstNxN (k : Kernels) (finish : ℤ → ℤ) (src dst : TempMatrix) (mode index size zeroOutSize : ℕ) :
    Checked TempMatrix := do
  let trMat := k.trMat mode index size
  let trSize := trSize size
  check (index ≥ 4) "assertion failed"
  loop (fun j dst => do
    let resi ← loop (fun i resi => do
      let v ← readTemp src i
      return resi + v * trMat i j) zeroOutSize 0
    writeTemp dst j (finish resi)) trSize dst

/-! ## Packing

An assignment names an entry of the array, and the row and the column of a coefficient. -/

structure Move where
  temp : ℕ
  y : ℕ
  x : ℕ
  deriving DecidableEq, Repr

/-- `coeffTemp[ x ]` of the row. -/
def Move.idx (m : Move) (width : ℕ) : ℕ := m.y * width + m.x

/-- The assignments of the row `y` after `lfnstTemp++` in each row before. -/
def rowMoves (y : ℕ) (pairs : List (ℕ × ℕ)) : List Move := pairs.map fun p => ⟨y + p.1, y, p.2⟩

/-- The rows from `y` on, copied one behind the other. -/
def straightMoves (uiStride : ℕ → ℕ) : (rows y lfnstTemp : ℕ) → List Move
  | 0, _, _ => []
  | rows + 1, y, lfnstTemp =>
    ((List.range (uiStride y)).map fun k => ⟨lfnstTemp + k, y, k⟩) ++
      straightMoves uiStride rows (y + 1) (lfnstTemp + uiStride y)

/-- The first part of `xFwdLfnst`. -/
def xFwdLfnstMoves (sbSize : ℕ) (transposeFlag : Bool) : List Move :=
  if transposeFlag then
    if sbSize = 4 then
      (List.range 4).flatMap fun y => rowMoves y [(0, 0), (4, 1), (8, 2), (12, 3)]
    else if sbSize = 8 then
      (List.range 8).flatMap fun y =>
        rowMoves y [(0, 0), (8, 1), (16, 2), (24, 3), (32, 4), (40, 5), (48, 6), (56, 7)]
    else
      (List.range 12).flatMap fun y =>
        rowMoves y ([(0, 0), (12, 1), (24, 2), (36, 3)] ++
          (if y < 8 then [(48, 4), (56, 5), (64, 6), (72, 7)] else []) ++
          (if y < 4 then [(80, 8), (84, 9), (88, 10), (92, 11)] else []))
  else if sbSize = 16 then
    straightMoves (fun y => if y < 4 then 12 else if y < 8 then 8 else 4) 16 0 0
  else straightMoves (fun _ => sbSize) sbSize 0 0

/-- The last part of `xInvLfnst`; it copies twelve rows of the large region. -/
def xInvLfnstMoves (sbSize : ℕ) (transposeFlag : Bool) : List Move :=
  if transposeFlag then
    if sbSize = 4 then
      (List.range 4).flatMap fun y => rowMoves y [(0, 0), (4, 1), (8, 2), (12, 3)]
    else if sbSize = 8 then
      (List.range 8).flatMap fun y =>
        rowMoves y [(0, 0), (8, 1), (16, 2), (24, 3), (32, 4), (40, 5), (48, 6), (56, 7)]
    else
      (List.range 12).flatMap fun y =>
        rowMoves y ([(0, 0), (12, 1), (24, 2), (36, 3)] ++
          (if y < 8 then [(48, 4), (56, 5), (64, 6), (72, 7)] else []) ++
          (if y < 4 then [(80, 8), (84, 9), (88, 10), (92, 11)] else []))
  else if sbSize = 16 then
    straightMoves (fun y => if y < 4 then 12 else if y < 8 then 8 else 4) 12 0 0
  else straightMoves (fun _ => sbSize) sbSize 0 0

/-! ## The transform of a block -/

/-- A block that the secondary transform is applied to: no side is less than four, and the mode is one that
`getWideAngle` returns. -/
structure LfnstUnit where
  block : BlockSize
  two_le_width : 2 ≤ block.log2BlockWidth
  two_le_height : 2 ≤ block.log2BlockHeight
  lfnstIdx : ℕ
  lfnstIdx_pos : 0 < lfnstIdx
  lfnstIdx_lt : lfnstIdx < 4
  wideAngPredMode : ℤ
  wideAngPredMode_ge : -15 ≤ wideAngPredMode
  wideAngPredMode_le : wideAngPredMode ≤ 81

namespace LfnstUnit

variable (u : LfnstUnit)

def whge4 : Bool := getUseLFNST16 u.block.width u.block.height

def whge3 : Bool := getUseLFNST8 u.block.width u.block.height

def sbSize : ℕ := if u.whge4 then 16 else if u.whge3 then 8 else 4

/-- `scan[ y ].idx` -/
def scanIdx (y : ℕ) : ℕ :=
  if u.whge4 then coefTopLeftDiagScan16x16 u.block.width y
  else if u.whge3 then coefTopLeftDiagScan8x8 u.block.width y
  else (u.block.scanGrouped y).idx

def zeroOutSize : ℕ := getLFNSTMatrixDim u.block.width u.block.height

/-- The number of scan positions that `xFwdLfnst` writes. -/
def lfnstCoeffNum : ℕ := if u.sbSize > 8 then L16W_ZO else if u.sbSize > 4 then L8W_ZO else 16

/-- The number of scan positions that `xInvLfnst` reads. -/
def numLfnstCoeff : ℕ := if u.whge4 then L16H else if u.whge3 then L8H else 16

/-- `xFwdLfnst` on the coefficients `tempCoeff`; the arrays hold what was left in them. -/
def xFwdLfnst (k : Kernels) (finish : ℤ → ℤ) (tempIn tempOut : TempMatrix) (tempCoeff : ℕ → ℤ) :
    Checked (ℕ → ℤ) := do
  let intraMode ← getLFNSTIntraMode u.wideAngPredMode
  let transposeFlag := getTransposeFlag intraMode
  let m_tempInMatrix ← (xFwdLfnstMoves u.sbSize transposeFlag).foldlM
    (fun lfnstTemp m => writeTemp lfnstTemp m.temp (tempCoeff (m.idx u.block.width))) tempIn
  let mode ← readAt g_lfnstLut intraMode.toNat
  let m_tempOutMatrix ←
    fwdLfnstNxN k finish m_tempInMatrix tempOut mode (u.lfnstIdx - 1) u.sbSize u.zeroOutSize
  loop (fun y (coeffTemp : ℕ → ℤ) => do
    let v ← readTemp m_tempOutMatrix y
    return Function.update coeffTemp (u.scanIdx y) v) u.lfnstCoeffNum tempCoeff

/-- `xInvLfnst` on the coefficients `m_tempCoeff`. -/
def xInvLfnst (k : Kernels) (finish : ℤ → ℤ) (tempIn tempOut : TempMatrix) (m_tempCoeff : ℕ → ℤ) :
    Checked (ℕ → ℤ) := do
  let intraMode ← getLFNSTIntraMode u.wideAngPredMode
  let transposeFlag := getTransposeFlag intraMode
  let m_tempInMatrix ← loop (fun y dst => writeTemp dst y (m_tempCoeff (u.scanIdx y))) u.numLfnstCoeff tempIn
  let mode ← readAt g_lfnstLut intraMode.toNat
  let m_tempOutMatrix ←
    invLfnstNxN k finish m_tempInMatrix tempOut mode (u.lfnstIdx - 1) u.sbSize u.zeroOutSize
  (xInvLfnstMoves u.sbSize transposeFlag).foldlM
    (fun (coeffTemp : ℕ → ℤ) m => do
      let v ← readTemp m_tempOutMatrix m.temp
      return Function.update coeffTemp (m.idx u.block.width) v) m_tempCoeff

end LfnstUnit

end ECM.CommonLib.Lfnst
