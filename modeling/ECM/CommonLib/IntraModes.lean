import Mathlib.Data.Fin.Basic
import Mathlib.Data.Nat.Notation
import Mathlib.Data.Int.Notation

/-! # Luma intra modes of a unit and of its neighbours

What the lists of most probable modes read of the units around a unit. -/

namespace ECM.CommonLib

def NUM_LUMA_MODE : ℕ := 67
def NUM_LMC_MODE : ℕ := 6
def NUM_INTRA_MODE : ℕ := NUM_LUMA_MODE + NUM_LMC_MODE
def NUM_DIR : ℕ := (NUM_LUMA_MODE - 3) >>> 2 + 1
def PLANAR_IDX : ℕ := 0
def DC_IDX : ℕ := 1
def HOR_IDX : ℕ := 1 * (NUM_DIR - 1) + 2
def DIA_IDX : ℕ := 2 * (NUM_DIR - 1) + 2
def VER_IDX : ℕ := 3 * (NUM_DIR - 1) + 2
def EXT_VDIA_IDX : ℕ := 130

/-- From the modes of TIMD to the luma modes. -/
def MAP131TO67 (mode : ℕ) : ℕ := if mode < 2 then mode else mode >>> 1 + 1

theorem MAP131TO67_lt {mode : ℕ} (h : mode ≤ EXT_VDIA_IDX) : MAP131TO67 mode < NUM_LUMA_MODE := by
  unfold EXT_VDIA_IDX at h
  unfold MAP131TO67 NUM_LUMA_MODE
  rw [Nat.shiftRight_eq_div_pow]
  split <;> omega

inductive PredMode where
  | inter
  | intra
  | ibc
  | plt
  deriving DecidableEq, Repr

/-- A unit that `getPURestricted` finds beside the current one. Its own direction is a luma
mode once it is mapped, and so is what is stored in the buffer of intra modes. -/
structure Neighbour where
  predMode : PredMode
  mipFlag : Bool
  tmpFlag : Bool
  timd : Bool
  /-- `intraDir[CHANNEL_TYPE_LUMA]` -/
  intraDir : ℕ
  /-- `getIpmInfo` at the position at which the unit was found. -/
  ipmInfo : Fin NUM_LUMA_MODE
  /-- `CU::isSameCtu` with the current unit. -/
  sameCtu : Bool
  intraDir_lt : intraDir < NUM_LUMA_MODE ∨ timd = true ∧ intraDir ≤ EXT_VDIA_IDX

namespace Neighbour

variable (pu : Neighbour)

def isIntra : Bool := pu.predMode = .intra

def isInter : Bool := pu.predMode = .inter

def getIntraDirLuma : ℕ := if pu.mipFlag || pu.tmpFlag then PLANAR_IDX else pu.intraDir

/-- The direction, mapped if it is one of TIMD. -/
def intraMode : ℕ := if pu.timd then MAP131TO67 pu.getIntraDirLuma else pu.getIntraDirLuma

theorem intraMode_lt : pu.intraMode < NUM_LUMA_MODE := by
  have hdir : pu.getIntraDirLuma < NUM_LUMA_MODE ∨ pu.timd = true ∧ pu.getIntraDirLuma ≤ EXT_VDIA_IDX := by
    unfold getIntraDirLuma
    split
    · exact .inl (by decide)
    · exact pu.intraDir_lt
  unfold intraMode
  split
  case isTrue =>
    refine MAP131TO67_lt (hdir.elim (fun h => ?_) fun h => h.2)
    unfold NUM_LUMA_MODE at h
    unfold EXT_VDIA_IDX
    omega
  case isFalse htimd => exact hdir.elim id fun h => absurd h.1 htimd

end Neighbour

/-- The unit whose modes are derived, with the units around it. -/
structure IntraUnit where
  lwidth : ℕ
  lheight : ℕ
  getUseDimd : Bool
  /-- `-1` is none. -/
  dimdMode : Option (Fin NUM_LUMA_MODE)
  /-- `dimdBlendMode[0]`; `-1` is none. -/
  dimdBlendMode0 : Option (Fin NUM_LUMA_MODE)
  getUseTimd : Bool
  /-- `-1` is none. -/
  timdMode : Option (Fin (EXT_VDIA_IDX + 1))
  /-- At `topRight().offset( 0, -1 )`. -/
  above : Option Neighbour
  /-- At `bottomLeft().offset( -1, 0 )`. -/
  left : Option Neighbour
  /-- At `topRight().offset( 1, -1 )`. -/
  aboveRight : Option Neighbour
  /-- At `bottomLeft().offset( -1, 1 )`. -/
  belowLeft : Option Neighbour
  /-- At `topLeft().offset( -1, -1 )`. -/
  aboveLeft : Option Neighbour

/-- The modes that are listed so far, and the marks of `includedMode`. -/
structure ModeList where
  mpm : List ℕ
  includedMode : ℕ → Bool
  marked : ∀ m, includedMode m = true ↔ m ∈ mpm

namespace ModeList

def empty : ModeList := ⟨[], fun _ => false, fun m => by simp⟩

/-- `includedMode[mpm[numValidMPM++] = mode] = true` -/
def add (s : ModeList) (mode : ℕ) : ModeList where
  mpm := s.mpm ++ [mode]
  includedMode m := m == mode || s.includedMode m
  marked m := by
    rw [Bool.or_eq_true, beq_iff_eq, s.marked, List.mem_append, List.mem_singleton, or_comm]

def numValidMPM (s : ModeList) : ℕ := s.mpm.length

/-- A mode is added unless it is included. -/
def tryMode (s : ModeList) (mode : ℕ) : ModeList := if s.includedMode mode then s else s.add mode

end ModeList

end ECM.CommonLib

/-! # Intra modes of geometric partitions

`PU::getGeoIntraMPMs`: the overload that derives the list of a partition, and the one that
keeps what depends on the shape only and completes it for each split direction. -/

namespace ECM.CommonLib

def NOMODE_IDX : ℕ := 255
def GEO_MAX_NUM_INTRA_CANDS : ℕ := 3
def GEO_NUM_PARTITION_MODE : ℕ := 64
def GEO_NUM_ANGLES : ℕ := 32
def GEO_NUM_DISTANCES : ℕ := 4

/-- The shapes `GEO_TM_SHAPE_…`. -/
inductive GeoTmShape where
  | AL
  | A
  | L
  deriving DecidableEq, Repr

/-! ## Tables -/

def g_angle2mask : List ℤ :=
  [0, -1, 1, 2, 3, 4, -1, -1, 5, -1, -1, 4, 3, 2, 1, -1, 0, -1, 1, 2, 3, 4, -1, -1, 5, -1, -1, 4, 3, 2, 1, -1]

def g_geoAngle2IntraAng : List ℕ :=
  [50, 0, 44, 41, 34, 27, 0, 0, 18, 0, 0, 9, 66, 59, 56, 0, 50, 0, 44, 41, 34, 27, 0, 0, 18, 0, 0, 9, 66, 59, 56, 0]

/-- `g_GeoParams` as `initGeoTemplate` fills it: angle and distance of each split direction. -/
def g_GeoParams : List (ℕ × ℕ) :=
  (List.range GEO_NUM_ANGLES).flatMap fun angleIdx =>
    ((List.range GEO_NUM_DISTANCES).filter fun distanceIdx =>
      !((distanceIdx = 0 && decide (angleIdx ≥ 16))
        || ((distanceIdx = 2 || distanceIdx = 0)
          && (g_angle2mask.getD angleIdx 0 = 0 || g_angle2mask.getD angleIdx 0 = 5))
        || g_angle2mask.getD angleIdx 0 = -1)).map fun distanceIdx => (angleIdx, distanceIdx)

example : g_GeoParams.length = GEO_NUM_PARTITION_MODE := by decide

/-- `g_geoAngle2IntraAng[g_GeoParams[splitDir][0]]` -/
def splitMode (splitDir : ℕ) : ℕ := g_geoAngle2IntraAng.getD (g_GeoParams.getD splitDir (0, 0)).1 0

/-- The mode across the split. -/
def acrossMode (mode : ℕ) : ℕ := if mode > DIA_IDX then mode - 32 else mode + 32

namespace PU

/-! ## The modes that are looked at -/

def intraCand : Option Neighbour → List ℕ
  | some pu => if pu.isIntra then [pu.intraMode] else []
  | none => []

def interCand : Option Neighbour → List ℕ
  | some pu => if pu.isInter then [pu.ipmInfo] else []
  | none => []

def dimdCand (pu : IntraUnit) : List ℕ :=
  match pu.dimdMode with
  | some mode => if pu.getUseDimd then [mode] else []
  | none => []

def timdCand (pu : IntraUnit) : List ℕ :=
  match pu.timdMode with
  | some mode => if pu.getUseTimd then [MAP131TO67 mode] else []
  | none => []

/-- The modes after that of DIMD, in the order in which they are tried. -/
def geoCands (pu : IntraUnit) (shape : GeoTmShape) : List ℕ :=
  let ifLeft (cand : List ℕ) := if shape = .L ∨ shape = .AL then cand else []
  let ifAbove (cand : List ℕ) := if shape = .A ∨ shape = .AL then cand else []
  timdCand pu ++
    ifLeft (intraCand pu.left) ++ ifAbove (intraCand pu.above) ++
    ifLeft (interCand pu.left) ++ ifAbove (interCand pu.above) ++
    ifLeft (intraCand pu.belowLeft) ++ ifAbove (intraCand pu.aboveRight) ++ intraCand pu.aboveLeft ++
    ifLeft (interCand pu.belowLeft) ++ ifAbove (interCand pu.aboveRight) ++ interCand pu.aboveLeft

/-- The modes are tried one after another; `true` if the function returns because the list is full. -/
def tryModes : List ℕ → ModeList → ModeList × Bool
  | [], s => (s, false)
  | mode :: modes, s =>
    if s.includedMode mode then tryModes modes s
    else if (s.add mode).numValidMPM = GEO_MAX_NUM_INTRA_CANDS then (s.add mode, true)
    else tryModes modes (s.add mode)

/-! ## The direct overload -/

/-- The list of a partition; for `splitDir = GEO_NUM_PARTITION_MODE` the part that depends on
the shape only, filled up with `NOMODE_IDX`. -/
def getGeoIntraMPMs (pu : IntraUnit) (splitDir : ℕ) (shape : GeoTmShape) : List ℕ :=
  let outputFullMPMs := decide (splitDir < GEO_NUM_PARTITION_MODE)
  let s := if outputFullMPMs then ModeList.empty.add (splitMode splitDir) else ModeList.empty
  let s := (dimdCand pu).foldl ModeList.tryMode s
  match tryModes (geoCands pu shape) s with
  | (s, true) => s.mpm
  | (s, false) =>
    if !outputFullMPMs then s.mpm ++ List.replicate (GEO_MAX_NUM_INTRA_CANDS - s.numValidMPM) NOMODE_IDX
    else
      match tryModes [acrossMode (splitMode splitDir)] s with
      | (s, true) => s.mpm
      | (s, false) => s.mpm ++ [PLANAR_IDX]

/-! ## The overload that keeps the partial lists -/

/-- `partialMPMsAll[shape - 1]` -/
abbrev PartialMPMs := GeoTmShape → List ℕ

/-- The arguments of a call. -/
structure GeoCall where
  splitDir : Fin GEO_NUM_PARTITION_MODE
  shape : GeoTmShape
  doInit : Bool
  doInitAL : Bool
  doInitA : Bool
  doInitL : Bool

/-- The flag for a shape. -/
def GeoCall.doInitShape (c : GeoCall) : GeoTmShape → Bool
  | .AL => c.doInitAL
  | .A => c.doInitA
  | .L => c.doInitL

def initPartial (pu : IntraUnit) (c : GeoCall) (partialMPMsAll : PartialMPMs) : PartialMPMs := fun shape =>
  if c.doInit && c.doInitShape shape then getGeoIntraMPMs pu GEO_NUM_PARTITION_MODE shape else partialMPMsAll shape

/-- The partial list without the mode of the split; `true` if the function returns. -/
def takePartial (first : ℕ) : (partialMPMs mpm : List ℕ) → List ℕ × Bool
  | [], mpm => (mpm, false)
  | mode :: partialMPMs, mpm =>
    if mode = NOMODE_IDX then (mpm, false)
    else if mode ≠ first then
      if (mpm ++ [mode]).length = GEO_MAX_NUM_INTRA_CANDS then (mpm ++ [mode], true)
      else takePartial first partialMPMs (mpm ++ [mode])
    else takePartial first partialMPMs mpm

def completePartial (partialMPMs : List ℕ) (splitDir : ℕ) : List ℕ :=
  let first := splitMode splitDir
  match takePartial first partialMPMs [first] with
  | (mpm, true) => mpm
  | (mpm, false) =>
    let across := acrossMode first
    let mpm := if across ∈ mpm.drop 1 then mpm else mpm ++ [across]
    if mpm.length = GEO_MAX_NUM_INTRA_CANDS then mpm else mpm ++ [PLANAR_IDX]

def getGeoIntraMPMsKept (pu : IntraUnit) (c : GeoCall) (partialMPMsAll : PartialMPMs) : List ℕ × PartialMPMs :=
  let partialMPMsAll := initPartial pu c partialMPMsAll
  (completePartial (partialMPMsAll c.shape) c.splitDir, partialMPMsAll)

end PU

end ECM.CommonLib
