import ECM.CommonLib.TypeDef

/-! # Parameters of the adaptive loop filter and of luma mapping

What the adaptation parameter sets carry. The arrays of `AlfParam` are kept as one record for
each alternative, and an array of filters as one row for each filter. -/

namespace ECM.CommonLib.Alf

def MAX_NUM_ALF_ALTERNATIVES_CHROMA : ℕ := 8
def MAX_NUM_ALF_CLASSES : ℕ := 25
def MAX_NUM_ALF_ALTERNATIVES_LUMA : ℕ := 4
def EXT_LENGTH : ℕ := 2
def MAX_NUM_ALF_LUMA_COEFF : ℕ := 21 + EXT_LENGTH
def MAX_NUM_CC_ALF_FILTERS : ℕ := 16
def MAX_NUM_CC_ALF_CHROMA_COEFF : ℕ := 25
def CCALF_BITS_PER_COEFF_LEVEL : ℕ := 3
def ALF_ORDER : ℕ := 4
def ALF_CLASSES_NEW : ℕ := 25
def PIC_CODE_CW_BINS : ℕ := 16

/-- `ALF_NUM_CLASSES_CLASSIFIER` -/
def numClasses (lumaClassifierIdx : Bool) : ℕ :=
  if lumaClassifierIdx then ALF_CLASSES_NEW else MAX_NUM_ALF_CLASSES

inductive AlfFilterType where
  | ALF_FILTER_5
  | ALF_FILTER_7
  | CC_ALF
  | ALF_FILTER_9
  | ALF_FILTER_9_EXT
  | ALF_FILTER_EXT
  deriving DecidableEq, Repr

/-- `AlfFilterShape`: how many coefficients it has, and the orders they are coded with. -/
structure AlfFilterShape where
  numCoeff : ℕ
  numOrder : ℕ
  indexSecOrder : ℕ
  offset0 : ℕ
  deriving DecidableEq, Repr

/-- The shape of a type. `CC_ALF` is not asked for. -/
def AlfFilterType.shape : AlfFilterType → AlfFilterShape
  | .ALF_FILTER_5 => ⟨5 * 5 / 4 + 1, 1, 5 * 5 / 4, 0⟩
  | .ALF_FILTER_9_EXT => ⟨MAX_NUM_ALF_LUMA_COEFF, 2, 20, 0⟩
  | .ALF_FILTER_7 => ⟨7 * 7 / 4 + 1, 1, 7 * 7 / 4, 0⟩
  | .ALF_FILTER_EXT => ⟨EXT_LENGTH, 1, EXT_LENGTH - 1, ALF_ORDER⟩
  | .ALF_FILTER_9 | .CC_ALF => ⟨9 * 9 / 4 + 1, 1, 9 * 9 / 4, 0⟩

/-- The filters of an alternative: `coeff ind i` is `coeff[ind * offset + i]`. -/
structure AlfFilters where
  nonLinearFlag : Bool
  coeff : ℕ → ℕ → ℤ
  clipp : ℕ → ℕ → ℤ

structure AlfLumaAlternative extends AlfFilters where
  lumaClassifierIdx : Bool
  numLumaFilters : ℕ
  filterCoeffDeltaIdx : ℕ → ℤ

structure AlfParam where
  newFilterFlagLuma : Bool
  newFilterFlagChroma : Bool
  filterTypeLuma : AlfFilterType
  filterTypeChroma : AlfFilterType
  numAlternativesLuma : ℕ
  luma : ℕ → AlfLumaAlternative
  numAlternativesChroma : ℕ
  chroma : ℕ → AlfFilters

/-- The part of a component of `CcAlfFilterParam`. -/
structure CcAlfComp where
  newCcAlfFilter : Bool
  ccAlfFilterCount : ℕ
  ccAlfFilterIdxEnabled : ℕ → Bool
  ccAlfCoeff : ℕ → ℕ → ℤ

/-- What `codeAlfAps` and `parseAlfAps` use of an `APS`. -/
structure AlfAps where
  chromaPresentFlag : Bool
  m_alfAPSParam : AlfParam
  m_ccAlfAPSParam : ℕ → CcAlfComp

def AlfFilters.reset : AlfFilters := ⟨false, fun _ _ => 0, fun _ _ => 0⟩

def AlfLumaAlternative.reset : AlfLumaAlternative := ⟨AlfFilters.reset, false, 1, fun _ => 0⟩

def AlfParam.reset : AlfParam where
  newFilterFlagLuma := false
  newFilterFlagChroma := false
  filterTypeLuma := .ALF_FILTER_5
  filterTypeChroma := .ALF_FILTER_5
  numAlternativesLuma := 1
  luma _ := AlfLumaAlternative.reset
  numAlternativesChroma := 1
  chroma _ := AlfFilters.reset

def CcAlfComp.reset : CcAlfComp := ⟨false, MAX_NUM_CC_ALF_FILTERS, fun _ => false, fun _ _ => 0⟩

/-- What `codeLmcsAps` and `parseLmcsAps` use of an `APS` and its `SliceReshapeInfo`. -/
structure LmcsAps where
  chromaPresentFlag : Bool
  reshaperModelMinBinIdx : ℕ
  reshaperModelMaxBinIdx : ℕ
  reshaperModelBinCWDelta : ℕ → ℤ
  maxNbitsNeededDeltaCW : ℕ
  chrResScalingOffset : ℤ

end ECM.CommonLib.Alf
