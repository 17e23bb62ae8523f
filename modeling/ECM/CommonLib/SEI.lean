import ECM.CommonLib.Arrays

/-! # Timing SEI messages

Buffering period, picture timing and decoding unit information, and the buffering
period that an `HRD` keeps for the messages after it. -/

namespace ECM.CommonLib

def MAX_TLAYER : ℕ := 7

def MAX_CPB_CNT : ℕ := 32

/-- An `int` where an `uint32_t` is asked for. -/
def toU32 (v : ℤ) : ℕ := (v % 2 ^ 32).toNat

/-- An `uint32_t` that becomes an `int`. -/
def toI32 (v : ℕ) : ℤ := if v < 2 ^ 31 then v else v - 2 ^ 32

/-- The result of an `int` operation. -/
def i32 (v : ℤ) : ℤ := toI32 (toU32 v)

theorem i32_of_mem {v : ℤ} (hlow : -2 ^ 31 ≤ v) (hhigh : v < 2 ^ 31) : i32 v = v := by
  rw [i32, toI32, toU32]
  split_ifs <;> omega

/-- `ceilLog2` of an argument that is not zero. -/
def ceilLog2 (x : ℕ) : ℕ := if x ≤ 1 then 0 else (x - 1).log2 + 1

/-- `xs[i][j][k]`. -/
def readAt3 {α : Type} (xs : List (List (List α))) (i j k : ℕ) : Checked α := do
  let rows ← readAt xs i
  readAt2 rows j k

/-- `xs[i][j][k] = a`. -/
def writeAt3 {α : Type} (xs : List (List (List α))) (i j k : ℕ) (a : α) :
    Checked (List (List (List α))) := do
  let rows ← readAt xs i
  let rows ← writeAt2 rows j k a
  writeAt xs i rows

structure SEIBufferingPeriod where
  m_bpNalCpbParamsPresentFlag : Bool
  m_bpVclCpbParamsPresentFlag : Bool
  m_initialCpbRemovalDelayLength : ℕ
  m_cpbRemovalDelayLength : ℕ
  m_dpbOutputDelayLength : ℕ
  m_bpCpbCnt : ℤ
  m_duCpbRemovalDelayIncrementLength : ℕ
  m_dpbOutputDelayDuLength : ℕ
  m_initialCpbRemovalDelay : List (List (List ℕ))
  m_initialCpbRemovalOffset : List (List (List ℕ))
  m_concatenationFlag : Bool
  m_auCpbRemovalDelayDelta : ℕ
  m_cpbRemovalDelayDeltasPresentFlag : Bool
  m_numCpbRemovalDelayDeltas : ℤ
  m_bpMaxSubLayers : ℤ
  m_cpbRemovalDelayDelta : List ℕ
  m_bpDecodingUnitHrdParamsPresentFlag : Bool
  m_decodingUnitCpbParamsInPicTimingSeiFlag : Bool
  m_decodingUnitDpbDuParamsInPicTimingSeiFlag : Bool
  m_sublayerInitialCpbRemovalDelayPresentFlag : Bool
  m_additionalConcatenationInfoPresentFlag : Bool
  m_maxInitialRemovalDelayForConcatenation : ℕ
  m_sublayerDpbOutputOffsetsPresentFlag : Bool
  m_dpbOutputTidOffset : List ℕ
  m_altCpbParamsPresentFlag : Bool
  m_useAltCpbParamsFlag : Bool
  deriving DecidableEq

namespace SEIBufferingPeriod

/-- `SEIBufferingPeriod()`. -/
def new : SEIBufferingPeriod where
  m_bpNalCpbParamsPresentFlag := false
  m_bpVclCpbParamsPresentFlag := false
  m_initialCpbRemovalDelayLength := 0
  m_cpbRemovalDelayLength := 0
  m_dpbOutputDelayLength := 0
  m_bpCpbCnt := 0
  m_duCpbRemovalDelayIncrementLength := 0
  m_dpbOutputDelayDuLength := 0
  m_initialCpbRemovalDelay :=
    List.replicate MAX_TLAYER (List.replicate MAX_CPB_CNT (List.replicate 2 0))
  m_initialCpbRemovalOffset :=
    List.replicate MAX_TLAYER (List.replicate MAX_CPB_CNT (List.replicate 2 0))
  m_concatenationFlag := false
  m_auCpbRemovalDelayDelta := 0
  m_cpbRemovalDelayDeltasPresentFlag := false
  m_numCpbRemovalDelayDeltas := 0
  m_bpMaxSubLayers := 0
  m_cpbRemovalDelayDelta := List.replicate 15 0
  m_bpDecodingUnitHrdParamsPresentFlag := false
  m_decodingUnitCpbParamsInPicTimingSeiFlag := false
  m_decodingUnitDpbDuParamsInPicTimingSeiFlag := false
  m_sublayerInitialCpbRemovalDelayPresentFlag := false
  m_additionalConcatenationInfoPresentFlag := false
  m_maxInitialRemovalDelayForConcatenation := 0
  m_sublayerDpbOutputOffsetsPresentFlag := false
  m_dpbOutputTidOffset := List.replicate MAX_TLAYER 0
  m_altCpbParamsPresentFlag := false
  m_useAltCpbParamsFlag := false

/-- `copyTo`, which leaves three fields of the target as they are. -/
def copyTo (sei target : SEIBufferingPeriod) : SEIBufferingPeriod :=
  { sei with
    m_decodingUnitDpbDuParamsInPicTimingSeiFlag := target.m_decodingUnitDpbDuParamsInPicTimingSeiFlag
    m_additionalConcatenationInfoPresentFlag := target.m_additionalConcatenationInfoPresentFlag
    m_useAltCpbParamsFlag := target.m_useAltCpbParamsFlag }

end SEIBufferingPeriod

structure SEIPictureTiming where
  m_ptSubLayerDelaysPresentFlag : List Bool
  m_cpbRemovalDelayDeltaEnabledFlag : List Bool
  m_cpbRemovalDelayDeltaIdx : List ℕ
  m_auCpbRemovalDelay : List ℕ
  m_picDpbOutputDelay : ℕ
  m_picDpbOutputDuDelay : ℕ
  m_numDecodingUnitsMinus1 : ℕ
  m_duCommonCpbRemovalDelayFlag : Bool
  m_duCommonCpbRemovalDelayMinus1 : List ℕ
  m_numNalusInDuMinus1 : List ℕ
  m_duCpbRemovalDelayMinus1 : List ℕ
  m_cpbAltTimingInfoPresentFlag : Bool
  m_nalCpbAltInitialRemovalDelayDelta : List (List ℕ)
  m_nalCpbAltInitialRemovalOffsetDelta : List (List ℕ)
  m_nalCpbDelayOffset : List ℕ
  m_nalDpbDelayOffset : List ℕ
  m_vclCpbAltInitialRemovalDelayDelta : List (List ℕ)
  m_vclCpbAltInitialRemovalOffsetDelta : List (List ℕ)
  m_vclCpbDelayOffset : List ℕ
  m_vclDpbDelayOffset : List ℕ
  m_ptDisplayElementalPeriodsMinus1 : ℤ
  deriving DecidableEq

/-- `SEIPictureTiming()`. -/
def SEIPictureTiming.new : SEIPictureTiming where
  m_ptSubLayerDelaysPresentFlag := List.replicate MAX_TLAYER false
  m_cpbRemovalDelayDeltaEnabledFlag := List.replicate MAX_TLAYER false
  m_cpbRemovalDelayDeltaIdx := List.replicate MAX_TLAYER 0
  m_auCpbRemovalDelay := List.replicate MAX_TLAYER 0
  m_picDpbOutputDelay := 0
  m_picDpbOutputDuDelay := 0
  m_numDecodingUnitsMinus1 := 0
  m_duCommonCpbRemovalDelayFlag := false
  m_duCommonCpbRemovalDelayMinus1 := List.replicate MAX_TLAYER 0
  m_numNalusInDuMinus1 := []
  m_duCpbRemovalDelayMinus1 := []
  m_cpbAltTimingInfoPresentFlag := false
  m_nalCpbAltInitialRemovalDelayDelta := []
  m_nalCpbAltInitialRemovalOffsetDelta := []
  m_nalCpbDelayOffset := []
  m_nalDpbDelayOffset := []
  m_vclCpbAltInitialRemovalDelayDelta := []
  m_vclCpbAltInitialRemovalOffsetDelta := []
  m_vclCpbDelayOffset := []
  m_vclDpbDelayOffset := []
  m_ptDisplayElementalPeriodsMinus1 := 0

structure SEIDecodingUnitInfo where
  m_decodingUnitIdx : ℤ
  m_duiSubLayerDelaysPresentFlag : List Bool
  m_duSptCpbRemovalDelayIncrement : List ℤ
  m_dpbOutputDuDelayPresentFlag : Bool
  m_picSptDpbOutputDuDelay : ℤ
  deriving DecidableEq

/-- `SEIDecodingUnitInfo()`. -/
def SEIDecodingUnitInfo.new : SEIDecodingUnitInfo where
  m_decodingUnitIdx := 0
  m_duiSubLayerDelaysPresentFlag := List.replicate MAX_TLAYER false
  m_duSptCpbRemovalDelayIncrement := List.replicate MAX_TLAYER 0
  m_dpbOutputDuDelayPresentFlag := false
  m_picSptDpbOutputDuDelay := 0

/-- The timing messages. -/
inductive SEI where
  | bufferingPeriod (sei : SEIBufferingPeriod)
  | pictureTiming (sei : SEIPictureTiming)
  | decodingUnitInfo (sei : SEIDecodingUnitInfo)
  deriving DecidableEq

def SEI.payloadType : SEI → ℕ
  | bufferingPeriod _ => 0
  | pictureTiming _ => 1
  | decodingUnitInfo _ => 130

/-- The part of an `HRD` that the messages use. -/
structure HRD where
  m_bufferingPeriodInitialized : Bool
  m_bufferingPeriodSEI : SEIBufferingPeriod

namespace HRD

/-- `HRD()`. -/
def new : HRD := ⟨false, .new⟩

def setBufferingPeriodSEI (hrd : HRD) (bp : SEIBufferingPeriod) : HRD :=
  ⟨true, bp.copyTo hrd.m_bufferingPeriodSEI⟩

def getBufferingPeriodSEI (hrd : HRD) : Option SEIBufferingPeriod :=
  if hrd.m_bufferingPeriodInitialized then some hrd.m_bufferingPeriodSEI else none

end HRD

end ECM.CommonLib
