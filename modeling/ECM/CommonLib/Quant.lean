import ECM.CommonLib.ChromaQpMapping
import ECM.CommonLib.ScalingList
import ECM.CommonLib.TransformUnits

/-! # Scalar dequantisation

`Quant::dequant` and what it reads: the QP of a block and the tables that
`setScalingListDec` fills. `TCoeff` and `Intermediate_Int` are `int`, the
coefficients of a block lie row after row. -/

namespace ECM.CommonLib.Quant
open WeightPrediction (Clip3)
open QpMap (MAX_QP)

def IQUANT_SHIFT : ℤ := 6
def SCALING_LIST_BITS : ℤ := 8
def LOG2_SCALING_LIST_NEUTRAL_VALUE : ℤ := 4
def SCALING_LIST_REM_NUM : ℕ := 6
def SCALING_LIST_NUM : ℕ := 6
def SCALING_LIST_SIZE_NUM : ℕ := 8
def MAX_MATRIX_SIZE_NUM : ℕ := 8
def JVET_C0024_ZERO_OUT_TH : ℕ := 256

def SCALING_LIST_2x2 : ℕ := 1
def SCALING_LIST_4x4 : ℕ := 2
def SCALING_LIST_FIRST_CODED : ℕ := SCALING_LIST_2x2
def SCALING_LIST_LAST_CODED : ℕ := 6

/-- For blocks of `4^n` samples and of `2*4^n`. -/
def g_invQuantScales : List (List ℤ) := [[40, 45, 51, 57, 64, 72], [57, 64, 72, 80, 90, 102]]

def invQuantScale (adjusted : Bool) (rem : ℕ) : ℤ :=
  (g_invQuantScales.getD (if adjusted then 1 else 0) []).getD rem 0

def g_scalingListSizeX : List ℕ := [1, 2, 4, 8, 16, 32, 64, 128]

def g_scalingListId : List (List ℕ) :=
  [[0, 0, 0, 0, 0, 0], [0, 0, 0, 0, 0, 1], [2, 3, 4, 5, 6, 7], [8, 9, 10, 11, 12, 13],
    [14, 15, 16, 17, 18, 19], [20, 21, 22, 23, 24, 25], [26, 21, 22, 27, 24, 25], [0, 0, 0, 0, 0, 0]]

def scalingListIdOf (size list : ℕ) : ℕ := (g_scalingListId.getD size []).getD list 0

/-! ## The QP -/

inductive QpComponent where
  | Y
  | Cb
  | Cr
  | JOINT_CbCr
  deriving DecidableEq, Repr

def DELTA_QP_ACT : QpComponent → ℤ
  | .Y => -5
  | .Cb => 1
  | .Cr => 3
  | .JOINT_CbCr => 1

/-- The QP without and with transform skip. -/
structure QpParam where
  Qps : Bool → ℤ

namespace QpParam

def per (cQP : QpParam) (ts : Bool) : ℤ := (cQP.Qps ts).tdiv 6

def rem (cQP : QpParam) (ts : Bool) : ℕ := ((cQP.Qps ts).tmod 6).toNat

/-- The constructor; `mapped` is `sps->getMappedChromaQpValue(compID, ·)`. -/
def new (qpy : ℤ) (compID : QpComponent) (qpBdOffset internalMinusInputBitDepth chromaQPOffset dqp : ℤ)
    (mapped : ℤ → ℤ) (applyACTQpoffset : Bool) : QpParam :=
  let baseQp :=
    if compID = .Y then qpy + qpBdOffset
    else
      let qpi := Clip3 (-qpBdOffset) MAX_QP qpy
      Clip3 (-qpBdOffset) MAX_QP (mapped qpi + chromaQPOffset) + qpBdOffset
  let baseQp := if applyACTQpoffset then baseQp + DELTA_QP_ACT compID else baseQp
  let baseQp := Clip3 0 (MAX_QP + qpBdOffset) (baseQp + dqp)
  ⟨fun ts => if ts then max baseQp (4 + 6 * internalMinusInputBitDepth) else baseQp⟩

end QpParam

/-! ## The tables of a scaling list -/

/-- The arrays `m_dequantCoef[sizeX][sizeY][list][qp]`. -/
abbrev DequantCoef := ℕ × ℕ × ℕ × ℕ → ℕ → ℤ

/-- The factor that `processScalingListDec` takes for the sample in row `j` and column `i`. -/
def scalingListCoeff (coeff : ℕ → ℤ) (height width ratio sizeNum j i : ℕ) : ℤ :=
  let ratioWH := if height > width then height / width else width / height
  let ratioH := if height / sizeNum ≠ 0 then height / sizeNum else sizeNum / height
  let ratioW := if width / sizeNum ≠ 0 then width / sizeNum else sizeNum / width
  if height = width then coeff (j / ratio * sizeNum + i / ratio)
  else if i ≥ JVET_C0024_ZERO_OUT_TH ∨ j ≥ JVET_C0024_ZERO_OUT_TH then 0
  else if height > width then coeff (j / ratioH * sizeNum + i * ratioWH / ratioH)
  else coeff (j * ratioWH / ratioW * sizeNum + i / ratioW)

/-- Whether the DC value takes the first place. -/
def scalingListHasDC (height width ratio : ℕ) : Bool :=
  if height = width then ratio > 1 else max width height > 8

/-- `processScalingListDec` on the array `dequantcoeff`. -/
def processScalingListDec (coeff : ℕ → ℤ) (invQuantScales : ℤ) (height width ratio sizeNum : ℕ) (dc : ℤ)
    (dequantcoeff : ℕ → ℤ) : ℕ → ℤ :=
  fun n =>
    if n = 0 ∧ scalingListHasDC height width ratio then invQuantScales * dc
    else if n < height * width then
      invQuantScales * scalingListCoeff coeff height width ratio sizeNum (n / width) (n % width)
    else dequantcoeff n

/-- `xSetScalingListDec` and `xSetRecScalingListDec`, which differ in `ratio`, `sizeNum` and the list. -/
def setScalingListEntry (scalingList : ScalingList) (scalingListId ratio sizeNum : ℕ) (m_dequantCoef : DequantCoef)
    (key : ℕ × ℕ × ℕ × ℕ) : DequantCoef :=
  let (sizeIdw, sizeIdh, _, qp) := key
  let width := g_scalingListSizeX.getD sizeIdw 0
  let height := g_scalingListSizeX.getD sizeIdh 0
  let blockIsNotPowerOf4 : Bool := (floorLog2 width + floorLog2 height) &&& 1 = 1
  Function.update m_dequantCoef key
    (processScalingListDec (scalingList.m_scalingListCoef scalingListId) (invQuantScale blockIsNotPowerOf4 qp)
      height width ratio sizeNum (scalingList.m_scalingListDC scalingListId) (m_dequantCoef key))

def xSetScalingListDec (scalingList : ScalingList) (m_dequantCoef : DequantCoef) (key : ℕ × ℕ × ℕ × ℕ) :
    DequantCoef :=
  let (sizeId, _, listId, _) := key
  let sizeX := g_scalingListSizeX.getD sizeId 0
  setScalingListEntry scalingList (scalingListIdOf sizeId listId) (sizeX / min MAX_MATRIX_SIZE_NUM sizeX)
    (min MAX_MATRIX_SIZE_NUM sizeX) m_dequantCoef key

def xSetRecScalingListDec (scalingList : ScalingList) (m_dequantCoef : DequantCoef) (key : ℕ × ℕ × ℕ × ℕ) :
    DequantCoef :=
  let (sizeIdw, sizeIdh, listId, _) := key
  let largeSideId := if sizeIdw > sizeIdh then sizeIdw else sizeIdh
  setScalingListEntry scalingList (scalingListIdOf largeSideId listId) (if largeSideId > 3 then 2 else 1)
    (if largeSideId ≥ 3 then 8 else 4) m_dequantCoef key

/-- The entries for a size and a list, for each `qp`. -/
def keysFor (sizew sizeh list : ℕ) : List (ℕ × ℕ × ℕ × ℕ) :=
  (List.range SCALING_LIST_REM_NUM).map fun qp => (sizew, sizeh, list, qp)

/-- What the first nest of loops of `setScalingListDec` visits. -/
def squareKeys : List (ℕ × ℕ × ℕ × ℕ) :=
  (List.range' SCALING_LIST_FIRST_CODED SCALING_LIST_LAST_CODED).flatMap fun size =>
    (List.range SCALING_LIST_NUM).flatMap fun list =>
      if size = SCALING_LIST_2x2 ∧ list < 4 then [] else keysFor size size list

/-- What the second one visits. -/
def rectangleKeys : List (ℕ × ℕ × ℕ × ℕ) :=
  (List.range (SCALING_LIST_LAST_CODED + 1)).flatMap fun sizew =>
    (List.range (SCALING_LIST_LAST_CODED + 1)).flatMap fun sizeh =>
      if sizew = sizeh ∨ (sizew = 0 ∧ sizeh < SCALING_LIST_4x4) ∨ (sizeh = 0 ∧ sizew < SCALING_LIST_4x4) then []
      else (List.range SCALING_LIST_NUM).flatMap fun list => keysFor sizew sizeh list

def setScalingListDec (scalingList : ScalingList) (m_dequantCoef : DequantCoef) : DequantCoef :=
  rectangleKeys.foldl (xSetRecScalingListDec scalingList)
    (squareKeys.foldl (xSetScalingListDec scalingList) m_dequantCoef)

def getDequantCoeff (m_dequantCoef : DequantCoef) (list qp sizeX sizeY : ℕ) : Checked (ℕ → ℤ) := do
  check (SCALING_LIST_SIZE_NUM ≤ sizeX ∨ SCALING_LIST_SIZE_NUM ≤ sizeY ∨ SCALING_LIST_NUM ≤ list ∨
    SCALING_LIST_REM_NUM ≤ qp) outOfRange
  return m_dequantCoef (sizeX, sizeY, list, qp)

/-! ## Dequantisation of a block -/

/-- What is read of the sequence, for the channel of the block, and of the slice. -/
structure ChannelSettings where
  bitDepth : ℤ
  internalMinusInputBitDepth : ℤ
  extendedPrecisionProcessingFlag : Bool
  disableScalingMatrixForLfnstBlks : Bool
  scalingMatrixForAlternativeColourSpaceDisabledFlag : Bool
  scalingMatrixDesignatedColourSpaceFlag : Bool
  explicitScalingListUsed : Bool
  isDualITree : Bool

def ChannelSettings.getMaxLog2TrDynamicRange (cs : ChannelSettings) : ℤ :=
  if cs.extendedPrecisionProcessingFlag then max 15 (cs.bitDepth + 6) else 15

/-- `getQpBDOffset`. -/
def ChannelSettings.qpBdOffset (cs : ChannelSettings) : ℤ := 6 * (cs.bitDepth - 8)

/-- One component of a transform unit. -/
structure TransformBlock where
  compID : ComponentID
  width : ℕ
  height : ℕ
  /-- `mtsIdx[compID] == MTS_SKIP` -/
  isTransformSkip : Bool
  predMode : PredMode
  lfnstIdx : ℕ
  colorTransform : Bool
  bdpcmMode : ℕ
  bdpcmModeChroma : ℕ

def TransformBlock.isLuma (tu : TransformBlock) : Bool := tu.compID = .Y

/-- The state of the class. -/
structure Quantiser where
  m_uiMaxTrSize : ℕ
  m_scalingListEnabledFlag : Bool
  m_dequantCoef : DequantCoef

def getUseScalingList (q : Quantiser) (cs : ChannelSettings) (tu : TransformBlock) : Bool :=
  let disableSMForLFNST := if cs.explicitScalingListUsed then cs.disableScalingMatrixForLfnstBlks else false
  let isLfnstApplied := decide (tu.lfnstIdx > 0) && (if cs.isDualITree then true else tu.isLuma)
  let disableSMForACT := cs.scalingMatrixForAlternativeColourSpaceDisabledFlag &&
    (cs.scalingMatrixDesignatedColourSpaceFlag == tu.colorTransform)
  q.m_scalingListEnabledFlag && !tu.isTransformSkip && (!isLfnstApplied || !disableSMForLFNST) && !disableSMForACT

def getScalingListType (predMode : PredMode) (compID : ComponentID) : ℕ :=
  (if predMode = .intra then 0 else 3) + compID.idx

def getTransformShift (channelBitDepth : ℤ) (width height : ℕ) (maxLog2TrDynamicRange : ℤ) : ℤ :=
  maxLog2TrDynamicRange - channelBitDepth - ((floorLog2 width + floorLog2 height) >>> 1 : ℕ)

def needsSqrt2Scale (tu : TransformBlock) : Bool :=
  !tu.isTransformSkip && decide ((floorLog2 tu.width + floorLog2 tu.height) &&& 1 = 1)

def isNonLog2BlockSize (width height : ℕ) : Bool :=
  (1 <<< floorLog2 width ≠ width) || (1 <<< floorLog2 height ≠ height)

def needsBlockSizeTrafoScale (tu : TransformBlock) : Bool :=
  needsSqrt2Scale tu || isNonLog2BlockSize tu.width tu.height

/-- The sums of `invResDPCM` along a row or a column. -/
def accumulate (inputMinimum inputMaximum : ℤ) (coef : ℕ → ℤ) : ℕ → ℤ
  | 0 => coef 0
  | x + 1 => Clip3 inputMinimum inputMaximum (accumulate inputMinimum inputMaximum coef x + coef (x + 1))

def invResDPCM (horizontal : Bool) (width : ℕ) (inputMinimum inputMaximum : ℤ) (coef : ℕ → ℤ) : ℕ → ℤ :=
  fun n =>
    let y := n / width
    let x := n % width
    if horizontal then accumulate inputMinimum inputMaximum (fun k => coef (y * width + k)) x
    else accumulate inputMinimum inputMaximum (fun k => coef (k * width + x)) y

/-- The levels a block is dequantised from. -/
def qCoefs (cs : ChannelSettings) (tu : TransformBlock) (coeffs : ℕ → ℤ) : ℕ → ℤ :=
  let maxLog2 := cs.getMaxLog2TrDynamicRange.toNat
  if (tu.bdpcmMode ≠ 0 ∧ tu.isLuma) ∨ (tu.bdpcmModeChroma ≠ 0 ∧ ¬tu.isLuma) then
    invResDPCM (if tu.isLuma then tu.bdpcmMode = 1 else tu.bdpcmModeChroma = 1) tu.width (-2 ^ maxLog2)
      (2 ^ maxLog2 - 1) coeffs
  else coeffs

def iTransformShift (cs : ChannelSettings) (tu : TransformBlock) : ℤ :=
  let bClipTransformShiftTo0 := !tu.isTransformSkip && cs.extendedPrecisionProcessingFlag
  let originalTransformShift := getTransformShift cs.bitDepth tu.width tu.height cs.getMaxLog2TrDynamicRange
  (if bClipTransformShiftTo0 then max 0 originalTransformShift else originalTransformShift) +
    (if needsBlockSizeTrafoScale tu then -1 else 0)

def rightShift (q : Quantiser) (cs : ChannelSettings) (tu : TransformBlock) (cQP : QpParam) : ℤ :=
  (IQUANT_SHIFT - ((if tu.isTransformSkip then 0 else iTransformShift cs tu) + cQP.per tu.isTransformSkip)) +
    (if getUseScalingList q cs tu then LOG2_SCALING_LIST_NEUTRAL_VALUE else 0)

/-- The difference is taken in `size_t` and then cut to `uint32_t`. -/
def targetInputBitDepth (maxLog2TrDynamicRange rightShift scaleBits : ℤ) : ℕ :=
  min (maxLog2TrDynamicRange + 1).toNat ((32 + rightShift - scaleBits) % 2 ^ 32).toNat

/-- The body of the four loops. -/
def dequantSample (rightShift inputMinimum inputMaximum transformMinimum transformMaximum scale qCoef : ℤ) :
    Checked ℤ := do
  let clipQCoef := Clip3 inputMinimum inputMaximum qCoef
  let product ← int32 (clipQCoef * scale)
  if rightShift > 0 then do
    let iAdd ← shiftLeft32 1 (rightShift - 1)
    let sum ← int32 (product + iAdd)
    let iCoeffQ ← shiftRight32 sum rightShift
    return Clip3 transformMinimum transformMaximum iCoeffQ
  else do
    let iCoeffQ ← shiftLeft32 product (-rightShift)
    return Clip3 transformMinimum transformMaximum iCoeffQ

def dequant (q : Quantiser) (cs : ChannelSettings) (tu : TransformBlock) (cQP : QpParam) (coeffs : ℕ → ℤ) :
    Checked (List ℤ) := do
  let numSamplesInBlock := u32 (tu.width * tu.height)
  let maxLog2TrDynamicRange := cs.getMaxLog2TrDynamicRange
  let transformRange ← shiftLeft32 1 maxLog2TrDynamicRange
  let enableScalingLists := getUseScalingList q cs tu
  let scalingListType := getScalingListType tu.predMode tu.compID
  let piQCoef := qCoefs cs tu coeffs
  check (scalingListType ≥ SCALING_LIST_NUM) "Invalid scaling list"
  check (tu.width > q.m_uiMaxTrSize) "Unsupported transformation size"
  let QP_rem := cQP.rem tu.isTransformSkip
  let rightShift := rightShift q cs tu cQP
  let scaleBits := if enableScalingLists then 1 + IQUANT_SHIFT + SCALING_LIST_BITS else IQUANT_SHIFT + 1
  let inputRange ← shiftLeft32 1 (sub32 (targetInputBitDepth maxLog2TrDynamicRange rightShift scaleBits) 1)
  let scales ← (if enableScalingLists then
      getDequantCoeff q.m_dequantCoef scalingListType QP_rem (floorLog2 tu.width) (floorLog2 tu.height)
    else pure fun _ => invQuantScale (needsBlockSizeTrafoScale tu) QP_rem : Checked (ℕ → ℤ))
  (List.range numSamplesInBlock).mapM fun n =>
    dequantSample rightShift (-inputRange) (inputRange - 1) (-transformRange) (transformRange - 1)
      (scales n) (piQCoef n)

end ECM.CommonLib.Quant
