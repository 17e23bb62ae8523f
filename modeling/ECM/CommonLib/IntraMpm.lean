import ECM.CommonLib.IntraModes
import ECM.CommonLib.TypeDef

/-! # Most probable luma modes

`PU::getIntraMPMs`: modes of the neighbours and of DIMD, modes that are derived from the
first ones, and defaults. An index outside an array is an error. -/

namespace ECM.CommonLib

def NUM_PRIMARY_MOST_PROBABLE_MODES : ℕ := 6
def NUM_SECONDARY_MOST_PROBABLE_MODES : ℕ := 16
def NUM_MOST_PROBABLE_MODES : ℕ := NUM_PRIMARY_MOST_PROBABLE_MODES + NUM_SECONDARY_MOST_PROBABLE_MODES
def NUM_NON_MPM_MODES : ℕ := NUM_LUMA_MODE - NUM_MOST_PROBABLE_MODES

/-- `mpm_default` -/
def mpm_default : List ℕ :=
  [DC_IDX, VER_IDX, HOR_IDX, VER_IDX - 4, VER_IDX + 4, 14, 22, 42, 58, 10, 26, 38, 62, 6, 30, 34, 66, 2, 48, 52, 16]

namespace PU

/-- `mpm[numValidMPM] = mode`, which stays unless the mode is included. -/
def putMode (s : ModeList) (mode : ℕ) : Checked ModeList := do
  check (s.numValidMPM ≥ NUM_MOST_PROBABLE_MODES) "mpm[numValidMPM]"
  check (mode ≥ NUM_INTRA_MODE) "includedMode[mode]"
  return s.tryMode mode

def putModes (s : ModeList) (modes : List ℕ) : Checked ModeList := modes.foldlM putMode s

/-- A neighbour whose direction counts in the same CTU only. -/
def intraCandCtu : Option Neighbour → List ℕ
  | some pu => if pu.isIntra && pu.sameCtu then [pu.intraMode] else []
  | none => []

/-- The modes of the neighbours; which of them is "left" depends on the shape of the block. -/
def neighbourCands (pu : IntraUnit) : List ℕ :=
  let puLeft := if pu.lheight ≥ pu.lwidth then pu.above else pu.left
  let puAbove := if pu.lheight ≥ pu.lwidth then pu.left else pu.above
  intraCand puLeft ++ intraCandCtu puAbove ++ interCand puLeft ++ interCand puAbove ++
    intraCand pu.belowLeft ++ intraCandCtu pu.aboveRight ++ intraCandCtu pu.aboveLeft ++
    interCand pu.belowLeft ++ interCand pu.aboveRight ++ interCand pu.aboveLeft

def dimdBlendCand (pu : IntraUnit) : List ℕ :=
  match pu.dimdBlendMode0 with
  | some mode => if pu.getUseDimd then [mode] else []
  | none => []

def offset : ℕ := NUM_LUMA_MODE - 6

def mod : ℕ := offset + 3

/-- The modes on either side of `mode`, from the round `i` on. -/
def deriveModes (mode : ℕ) : (rounds i : ℕ) → ModeList → Checked ModeList
  | 0, _, s => .ok s
  | rounds + 1, i, s =>
    if s.numValidMPM < NUM_MOST_PROBABLE_MODES then do
      let s ← putMode s ((mode + offset - i) % mod + 2)
      if s.numValidMPM ≥ NUM_MOST_PROBABLE_MODES then return s
      else do
        let s ← putMode s ((mode - 1 + i) % mod + 2)
        deriveModes mode rounds (i + 1) s
    else .ok s

/-- The derived modes of `mpm[k]`, if that was a mode of a neighbour. -/
def deriveFrom (numCand k : ℕ) (s : ModeList) : Checked ModeList :=
  if numCand ≥ k + 1 ∧ s.mpm.getD k 0 > DC_IDX then deriveModes (s.mpm.getD k 0) 4 0 s else .ok s

/-- `checkDCEnabled`: the mode of the first or of the second neighbour is DC. -/
def checkDCEnabled (numCand : ℕ) (s : ModeList) : Bool :=
  (numCand ≥ 2 && s.mpm.getD 1 0 = DC_IDX) || (numCand ≥ 3 && s.mpm.getD 2 0 = DC_IDX)

def deriveThird (numCand : ℕ) (s : ModeList) : Checked ModeList :=
  if checkDCEnabled numCand s = true ∧ numCand ≥ 4 ∧ s.mpm.getD 3 0 > DC_IDX then deriveModes (s.mpm.getD 3 0) 3 0 s
  else .ok s

/-- The defaults, as long as there is room. -/
def putDefaults : List ℕ → ModeList → Checked ModeList
  | [], s => .ok s
  | mode :: modes, s =>
    if s.numValidMPM < NUM_MOST_PROBABLE_MODES then do
      let s ← putMode s mode
      putDefaults modes s
    else .ok s

/-- `non_mpm`: the modes from `idx` on that are not included. -/
def putNonMpm (s : ModeList) : (left idx : ℕ) → List ℕ → Checked (List ℕ)
  | 0, _, non_mpm => .ok non_mpm
  | left + 1, idx, non_mpm =>
    if s.includedMode idx then putNonMpm s left (idx + 1) non_mpm
    else do
      check (non_mpm.length ≥ NUM_NON_MPM_MODES) "non_mpm[numNonMPM]"
      putNonMpm s left (idx + 1) (non_mpm ++ [idx])

structure IntraMPMs where
  mpm : List ℕ
  non_mpm : List ℕ
  numCand : ℕ
  deriving DecidableEq, Repr

def getIntraMPMs (pu : IntraUnit) : Checked IntraMPMs := do
  let s ← putModes (ModeList.empty.add PLANAR_IDX) (neighbourCands pu)
  let numCand := s.numValidMPM
  let s ← putModes s (dimdCand pu ++ dimdBlendCand pu)
  let s ← deriveFrom numCand 1 s
  let s ← deriveFrom numCand 2 s
  let s ← deriveThird numCand s
  let s ← putDefaults mpm_default s
  let non_mpm ← putNonMpm s NUM_LUMA_MODE 0 []
  check (∃ mode ∈ s.mpm, mode ≥ NUM_LUMA_MODE) "Invalid MPM"
  check (numCand = 0) "No candidates found"
  return ⟨s.mpm, non_mpm, numCand⟩

end PU

end ECM.CommonLib

/-! # The syntax of luma intra prediction

What the coding of the luma mode of a unit reads, and what it codes. -/

namespace ECM.CommonLib

/-- `MULTI_REF_LINE_IDX[i]`; there are `MRL_NUM_REF_LINES = 6` of them. -/
def MULTI_REF_LINE_IDX (i : ℕ) : ℕ := [0, 1, 3, 5, 7, 12].getD i 0

/-- `NOT_INTRA_SUBPARTITIONS` -/
def NOT_INTRA_SUBPARTITIONS : ℕ := 0

/-- What is known of a unit with one prediction unit before its luma mode is coded. -/
structure IntraCu where
  /-- `cu.Y().valid()` -/
  valid : Bool
  lwidth : ℕ
  lheight : ℕ
  /-- `cu.block( COMPONENT_Y ).y` -/
  y : ℕ
  /-- `cu.predMode == MODE_INTRA` -/
  isIntra : Bool
  /-- `isLuma( cu.chType )` -/
  isLuma : Bool
  bdpcmMode : ℕ
  dimd : Bool
  colorTransform : Bool
  canUseISP : Bool
  /-- The slice is an `I_SLICE`. -/
  isISlice : Bool
  getIntraTMPMaxSize : ℕ
  getUseIntraTMP : Bool
  getUseMIP : Bool
  getUseTimd : Bool
  getUseMRL : Bool
  getUseISP : Bool
  getMaxCUWidth : ℕ
  /-- The increments `DeriveCtx::Ctx…` finds from the units around it. -/
  ctxTmpFlag : ℕ
  ctxMipFlag : ℕ
  ctxTimdFlag : ℕ
  intraMPM : List ℕ
  intraNonMPM : List ℕ

/-- What is coded of it. -/
structure IntraPrediction where
  tmpFlag : Bool
  mipFlag : Bool
  mipTransposedFlag : Bool
  timd : Bool
  multiRefIdx : ℕ
  ispMode : ℕ
  /-- `intraDir[CHANNEL_TYPE_LUMA]` -/
  intraDir : ℕ
  deriving DecidableEq, Repr

namespace IntraPrediction

def initData : IntraPrediction := ⟨false, false, false, false, 0, NOT_INTRA_SUBPARTITIONS, DC_IDX⟩

end IntraPrediction

namespace IntraCu

variable (cu : IntraCu)

/-- Intra template matching is signalled for blocks of this size. -/
def tmpSize : Bool := cu.lwidth ≤ cu.getIntraTMPMaxSize && cu.lheight ≤ cu.getIntraTMPMaxSize

def codesTmp : Bool := cu.valid && !cu.dimd && cu.getUseIntraTMP

def codesMip : Bool := !cu.dimd && cu.valid && cu.getUseMIP

def getMipSizeId : ℕ :=
  if cu.lwidth = 4 ∧ cu.lheight = 4 then 0
  else if cu.lwidth = 4 ∨ cu.lheight = 4 ∨ (cu.lwidth = 8 ∧ cu.lheight = 8) then 1
  else 2

def getNumModesMip : ℕ :=
  match cu.getMipSizeId with
  | 0 => 16
  | 1 => 8
  | _ => 6

def codesTimd : Bool :=
  cu.getUseTimd && !(decide (cu.lwidth * cu.lheight > 1024) && cu.isISlice) && !cu.dimd
    && (cu.valid && cu.isIntra && cu.isLuma)

def codesMRL : Bool :=
  cu.valid && cu.isIntra && cu.isLuma && cu.bdpcmMode = 0 && !cu.dimd && cu.getUseMRL
    && !(cu.y &&& (cu.getMaxCUWidth - 1) = 0)

def codesISP (multiRefIdx : ℕ) : Bool :=
  cu.isIntra && cu.isLuma && multiRefIdx = 0 && cu.getUseISP && cu.bdpcmMode = 0 && cu.canUseISP
    && !cu.colorTransform && !cu.dimd

end IntraCu

end ECM.CommonLib
