import ECM.CommonLib.MotionLut
import ECM.CommonLib.RefIdxTables
import ECM.CommonLib.RefPicMarking
import ECM.CommonLib.TransformUnits
import ECM.Hls.RefPicListSyntax
import Mathlib.Data.Int.Bitwise

/-! # Temporal motion

The motion of a unit predicted from the motion that is stored with the collocated picture, and
what a slice keeps of its reference pictures for the pictures that follow. -/

namespace ECM.CommonLib

/-! ## Reference lists of a slice -/

/-- The entry as the construction of the list reads it. -/
def Rpl.Entry.toRefPicEntry (e : Rpl.Entry) : RefPicEntry where
  isLongterm := e.m_isLongtermRefPic
  refPicIdentifier := e.m_refPicIdentifier
  deltaPocMSBPresentFlag := e.m_deltaPocMSBPresentFlag
  deltaPOCMSBCycleLT := e.m_deltaPOCMSBCycleLT
  isInterLayerRefPic := e.m_isInterLayerRefPic

/-- What a slice keeps of an active entry. -/
structure SlicePicRef where
  /-- The picture of `m_apcRefPicList`, as an index of the buffer. -/
  pic : ℕ
  /-- `m_aiRefPOCList`. -/
  refPOC : ℤ
  /-- `m_bIsUsedAsLongTerm`. -/
  isUsedAsLongTerm : Bool
  deriving DecidableEq, Repr

namespace ConstructSlice

variable (s : ConstructSlice)

/-- The loop of `constructRefPicList` over one list. The POC of a picture does not change after it, and
`setRefPOCList` stores it. -/
def constructRefs (m_pRPL m_localRPL : Rpl.ReferencePictureList) :
    ℕ → ℕ → List Picture → Checked (List SlicePicRef × List Picture)
  | 0, _, rcListPic => pure ([], rcListPic)
  | n + 1, ii, rcListPic => do
    let rpl ← readAt m_pRPL.m_entries ii
    let localRPL ← readAt m_localRPL.m_entries ii
    let (pcRefPic, rcListPic) ← s.constructEntry rpl.toRefPicEntry localRPL.toRefPicEntry ii rcListPic
    let pic ← readAt rcListPic pcRefPic
    let (refs, rcListPic) ← constructRefs m_pRPL m_localRPL n (ii + 1) rcListPic
    return (⟨pcRefPic, pic.poc, pic.longTerm⟩ :: refs, rcListPic)

/-- `constructRefPicList` and `setRefPOCList` of a slice that is not intra. -/
def constructRefPicLists (m_pRPL m_localRPL : RefPicList → Rpl.ReferencePictureList)
    (m_aiNumRefIdx : RefPicList → ℕ) (rcListPic : List Picture) :
    Checked ((RefPicList → List SlicePicRef) × List Picture) := do
  check (m_aiNumRefIdx .REF_PIC_LIST_0 > MAX_NUM_REF + 1) outOfRange
  let (refs0, rcListPic) ← s.constructRefs (m_pRPL .REF_PIC_LIST_0) (m_localRPL .REF_PIC_LIST_0)
    (m_aiNumRefIdx .REF_PIC_LIST_0) 0 rcListPic
  check (m_aiNumRefIdx .REF_PIC_LIST_1 > MAX_NUM_REF + 1) outOfRange
  let (refs1, rcListPic) ← s.constructRefs (m_pRPL .REF_PIC_LIST_1) (m_localRPL .REF_PIC_LIST_1)
    (m_aiNumRefIdx .REF_PIC_LIST_1) 0 rcListPic
  return (fun | .REF_PIC_LIST_0 => refs0 | .REF_PIC_LIST_1 => refs1, rcListPic)

end ConstructSlice

/-- A slice of a picture that was decoded. -/
structure ColSlice where
  independentSliceIdx : ℕ
  poc : ℤ
  refs : RefPicList → List SlicePicRef

/-- A picture that a slice refers to. -/
structure ColPicture where
  poc : ℤ
  longTerm : Bool
  slices : List ColSlice
  /-- `cs->getMotionInfo`. -/
  getMotionInfo : Position → MotionLut.MotionInfo

/-- The current slice. -/
structure TemporalSlice where
  poc : ℤ
  isInterB : Bool
  colFromL0Flag : Bool
  colRefIdx : ℕ
  checkLDC : Bool
  m_apcRefPicList : RefPicList → List ColPicture
  /-- `m_implicitRefIdx`, by slice index, the two lists and the collocated reference index. -/
  getImRefIdx : ℕ → RefPicList → RefPicList → ℤ → ℤ

/-- The current prediction unit. -/
structure TemporalUnit where
  slice : TemporalSlice
  isIBC : Bool
  /-- The sub-picture of the unit is treated as a picture. -/
  treatedAsPicFlag : Bool
  isContainingPos : Position → Bool

/-! ## Rounding of a component -/

def MV_EXPONENT_BITCOUNT : ℕ := 4
def MV_MANTISSA_BITCOUNT : ℕ := 6
def MV_MANTISSA_UPPER_LIMIT : ℤ := 31
def MV_MANTISSA_LIMIT : ℤ := 32
def MV_EXPONENT_MASK : ℤ := 15
def MV_MAX : ℤ := 2 ^ 17 - 1
def MV_MIN : ℤ := -2 ^ 17

/-- `scale`: the power of two of a step of the mantissa, or -1. -/
def mvScale (val : ℤ) : ℤ :=
  let sign := val >>> (31 : ℕ)
  floorLog2 (Int.lor (Int.xor val sign) MV_MANTISSA_UPPER_LIMIT).toNat - (MV_MANTISSA_BITCOUNT - 1 : ℕ)

def packMvFloat (exponent mantissa : ℤ) : ℤ := Int.lor exponent (mantissa <<< MV_EXPONENT_BITCOUNT)

/-- The branch of a scale that is not negative. -/
def roundMvFloat (sign n : ℤ) (scale : ℕ) : ℤ :=
  let exponent := scale + (Int.xor n sign >>> (MV_MANTISSA_BITCOUNT - 1))
  let mantissa := Int.lor (Int.land n MV_MANTISSA_UPPER_LIMIT) (sign <<< (MV_MANTISSA_BITCOUNT - 1))
  packMvFloat exponent mantissa

def convertMvFixedToFloat (val : ℤ) : ℤ :=
  let sign := val >>> (31 : ℕ)
  let scale := mvScale val
  if scale ≥ 0 then
    let scale := scale.toNat
    let round := ((1 : ℤ) <<< scale) >>> (1 : ℕ)
    let n := (val + round) >>> scale
    roundMvFloat sign n scale
  else packMvFloat 0 val

def convertMvFloatToFixed (val : ℤ) : ℤ :=
  let exponent := Int.land val MV_EXPONENT_MASK
  let mantissa := val >>> MV_EXPONENT_BITCOUNT
  if exponent = 0 then mantissa else Int.xor mantissa MV_MANTISSA_LIMIT <<< (exponent - 1).toNat

def roundMvComp (x : ℤ) : ℤ := convertMvFloatToFixed (convertMvFixedToFloat x)

/-! ## Scaling

The products are results on `int`. -/

open WeightPrediction (Clip3)

/-- `a / b` of the language. -/
def divide (a b : ℤ) : Checked ℤ := do
  check (b = 0) "division by zero"
  return a.tdiv b

def xGetDistScaleFactor (iCurrPOC iCurrRefPOC iColPOC iColRefPOC : ℤ) : Checked ℤ := do
  let iDiffPocD := iColPOC - iColRefPOC
  let iDiffPocB := iCurrPOC - iCurrRefPOC
  if iDiffPocD = iDiffPocB then return 4096
  else
    let iTDB := Clip3 (-128) 127 iDiffPocB
    let iTDD := Clip3 (-128) 127 iDiffPocD
    let iX ← divide (0x4000 + |iTDD.tdiv 2|) iTDD
    let product ← int32 (iTDB * iX)
    let product ← int32 (product + 32)
    return Clip3 (-4096) 4095 (product >>> (6 : ℕ))

/-- One component of `scaleMv`. -/
def scaleMvComp (iScale c : ℤ) : Checked ℤ := do
  let product ← int32 (iScale * c)
  let sum ← int32 (product + 128)
  let sum ← int32 (sum - (if product ≥ 0 then 1 else 0))
  return Clip3 MV_MIN MV_MAX (sum >>> (8 : ℕ))

namespace Mv

def scaleMv (mv : Mv) (iScale : ℤ) : Checked Mv := do
  let mvx ← scaleMvComp iScale mv.hor
  let mvy ← scaleMvComp iScale mv.ver
  return ⟨mvx, mvy⟩

def clipToStorageBitDepth (mv : Mv) : Mv := ⟨Clip3 MV_MIN MV_MAX mv.hor, Clip3 MV_MIN MV_MAX mv.ver⟩

/-- Both components rounded. -/
def round (mv : Mv) : Mv := ⟨roundMvComp mv.hor, roundMvComp mv.ver⟩

end Mv

/-! ## `getColocatedMVP` -/

/-- The index of a list in the arrays of a motion. -/
def RefPicList.idx : RefPicList → Fin 2
  | .REF_PIC_LIST_0 => ⟨0, Nat.zero_lt_two⟩
  | .REF_PIC_LIST_1 => ⟨1, Nat.one_lt_two⟩

/-- `RefPicList( flag )` -/
def RefPicList.ofFlag (flag : Bool) : RefPicList := if flag then .REF_PIC_LIST_1 else .REF_PIC_LIST_0

namespace TemporalSlice

variable (slice : TemporalSlice)

/-- `pColPic`; there is none behind the active entries. -/
def colPic : Option ColPicture :=
  (slice.m_apcRefPicList (.ofFlag (slice.isInterB && !slice.colFromL0Flag)))[slice.colRefIdx]?

/-- `getRefPic` of a pointer that is followed. -/
def getRefPic (l : RefPicList) (refIdx : ℤ) : Checked ColPicture :=
  if refIdx < 0 then .error outOfRange
  else match (slice.m_apcRefPicList l)[refIdx.toNat]? with
    | some pic => .ok pic
    | none => .error nullPointer

/-- The last part of `getColocatedMVP`, which it has twice: the motion `mv` of the collocated slice with
its reference `ref`, scaled to the reference `refIdx` of the current slice. -/
def scaledTo (colSlice : ColSlice) (ref : SlicePicRef) (mv : Mv) (eRefPicList : RefPicList) (refIdx : ℤ) :
    Checked (Option Mv) := do
  let refPic ← slice.getRefPic eRefPicList refIdx
  let bIsCurrRefLongTerm := refPic.longTerm
  let bIsColRefLongTerm := ref.isUsedAsLongTerm
  if bIsCurrRefLongTerm ≠ bIsColRefLongTerm then return none
  else
    let cColMv := mv.round
    if bIsCurrRefLongTerm then return some cColMv.clipToStorageBitDepth
    else
      let distscale ← xGetDistScaleFactor slice.poc refPic.poc colSlice.poc ref.refPOC
      if distscale = 4096 then return some cColMv.clipToStorageBitDepth
      else
        let rcMv ← cColMv.scaleMv distscale
        return some rcMv

end TemporalSlice

/-- The list and the index of the stored motion that is taken. -/
def colReference (slice : TemporalSlice) (mi : MotionLut.MotionInfo) (eRefPicList : RefPicList) (sbFlag : Bool) :
    Option (RefPicList × ℤ) :=
  let eColRefPicList := if slice.checkLDC then eRefPicList else .ofFlag slice.colFromL0Flag
  let iColRefIdx := mi.refIdx eColRefPicList.idx
  if sbFlag && !slice.checkLDC then
    let iColRefIdx := mi.refIdx eRefPicList.idx
    if iColRefIdx < 0 then none else some (eRefPicList, iColRefIdx)
  else if iColRefIdx < 0 then
    let eColRefPicList := eColRefPicList.other
    let iColRefIdx := mi.refIdx eColRefPicList.idx
    if iColRefIdx < 0 then none else some (eColRefPicList, iColRefIdx)
  else some (eColRefPicList, iColRefIdx)

/-- `Position{ PosType( _pos.x & mask ), PosType( _pos.y & mask ) }` -/
def colPosition (_pos : Position) : Position :=
  let scale : ℤ := 4 * max 1 (4 * 1 / 4)
  ⟨_pos.x - _pos.x % scale, _pos.y - _pos.y % scale⟩

/-- The motion vector if there is one, and `*targetRefIdx`, where a pointer is given. -/
def getColocatedMVP (pu : TemporalUnit) (eRefPicList : RefPicList) (_pos : Position) (refIdx : ℤ)
    (sbFlag : Bool) (targetRefIdx : Option ℤ) : Checked (Option Mv × Option ℤ) := do
  let pos := colPosition _pos
  let slice := pu.slice
  match slice.colPic with
  | none => return (none, targetRefIdx)
  | some pColPic =>
    if pu.treatedAsPicFlag && !pu.isContainingPos pos then return (none, targetRefIdx)
    else
      let mi := pColPic.getMotionInfo pos
      if !mi.isInter || mi.isIBCmot || pu.isIBC then return (none, targetRefIdx)
      else
        match colReference slice mi eRefPicList sbFlag with
        | none => return (none, targetRefIdx)
        | some (eColRefPicList, iColRefIdx) =>
          match pColPic.slices.find? fun s => s.independentSliceIdx = mi.sliceIdx with
          | none => throw "Slice segment not found"
          | some colSlice =>
            match targetRefIdx with
            | some _ =>
              let targetRefIdx := slice.getImRefIdx mi.sliceIdx eColRefPicList eRefPicList iColRefIdx
              if targetRefIdx = -1 then return (none, some targetRefIdx)
              else
                let ref ← readAt (colSlice.refs eColRefPicList) iColRefIdx.toNat
                let rcMv ← slice.scaledTo colSlice ref (mi.mv eColRefPicList.idx) eRefPicList targetRefIdx
                return (rcMv, some targetRefIdx)
            | none =>
              let ref ← readAt (colSlice.refs eColRefPicList) iColRefIdx.toNat
              let rcMv ← slice.scaledTo colSlice ref (mi.mv eColRefPicList.idx) eRefPicList refIdx
              return (rcMv, none)

end ECM.CommonLib
