import ECM.CommonLib.Unit
import Mathlib.Logic.Function.Basic

/-! # Control parameters of the in-loop filters

What the slice data say of the filters for each CTU, and where the CTUs are. -/

namespace ECM.CommonLib

inductive ComponentID where
  | Y
  | Cb
  | Cr
  deriving DecidableEq, Repr

namespace ComponentID

def idx : ComponentID → ℕ
  | Y => 0
  | Cb => 1
  | Cr => 2

/-- The first `MAX_NUM_COMPONENT` components. -/
def all : List ComponentID := [Y, Cb, Cr]

def toChannelType : ComponentID → ChannelType
  | Y => .luma
  | Cb => .chroma
  | Cr => .chroma

end ComponentID

def getFirstComponentOfChannel : ChannelType → ComponentID
  | .luma => .Y
  | .chroma => .Cb

/-- The first `getNumberValidComponents` components. -/
def validComponents (fmt : ChromaFormat) : List ComponentID :=
  if fmt = .chroma400 then [.Y] else ComponentID.all

namespace InLoopFilter

/-! ## Parameters of a CTU -/

inductive SAOMode where
  | OFF
  | NEW
  | MERGE
  deriving DecidableEq, Repr

def SAO_MERGE_LEFT : ℤ := 0
def SAO_MERGE_ABOVE : ℤ := 1

def SAO_TYPE_START_EO : ℤ := 0
def SAO_TYPE_START_BO : ℤ := 4
def NUM_SAO_EO_TYPES_LOG2 : ℕ := 2

def SAO_CLASS_EO_FULL_VALLEY : ℕ := 0
def SAO_CLASS_EO_HALF_VALLEY : ℕ := 1
def SAO_CLASS_EO_PLAIN : ℕ := 2
def SAO_CLASS_EO_HALF_PEAK : ℕ := 3
def SAO_CLASS_EO_FULL_PEAK : ℕ := 4
def NUM_SAO_EO_CLASSES : ℕ := 5

def NUM_SAO_BO_CLASSES_LOG2 : ℕ := 5

/-- Also `MAX_NUM_SAO_CLASSES`. -/
def NUM_SAO_BO_CLASSES : ℕ := 32

structure SAOOffset where
  modeIdc : SAOMode
  typeIdc : ℤ
  /-- The first band of a band offset. -/
  typeAuxInfo : ℕ
  offset : ℕ → ℤ

abbrev SAOBlkParam := ComponentID → SAOOffset

def getMaxOffsetQVal (channelBitDepth : ℕ) : ℕ := (1 <<< (min channelBitDepth 10 - 5)) - 1

structure AlfCtuControl where
  enableFlag : ComponentID → Bool
  filterIndex : ℕ
  alternative : ComponentID → ℕ

structure CtuControl where
  sao : SAOBlkParam
  ccSaoControl : ComponentID → ℕ
  alf : AlfCtuControl
  ccAlfFilterControl : ComponentID → ℕ

/-- The flags of a bilateral filter for one component. -/
structure BifFlags where
  frmOn : Bool
  allCtuOn : Bool
  ctuOn : ℕ → Bool

structure BifParams extends BifFlags where
  numBlocks : ℕ

structure ChromaBifParams where
  cb : BifFlags
  cr : BifFlags
  numBlocks : ℕ

/-- The parameters of a picture; what the picture and its slices keep in arrays over the
CTU addresses is a function of the address. -/
structure PicControl where
  ctu : ℕ → CtuControl
  bifParam : BifParams
  chromaBifParam : ChromaBifParams

/-! ## Parameter sets and slices -/

structure SPS where
  chromaFormatIdc : ChromaFormat
  bitDepths : ChannelType → ℕ
  saoEnabledFlag : Bool
  ccsaoEnabledFlag : Bool
  alfEnabledFlag : Bool
  ccalfEnabledFlag : Bool
  entropyCodingSyncEnabledFlag : Bool

structure PPS where
  useBIF : Bool
  useChromaBIF : Bool
  /-- `getTileIdx( ctuX, ctuY )`. -/
  getTileIdx : ℕ → ℕ → ℕ

def NUM_FIXED_FILTER_SETS : ℕ := 2

structure AlfParam where
  numAlternativesLuma : ℕ
  numAlternativesChroma : ℕ

structure Slice where
  independentSliceIdx : ℕ
  saoEnabledFlag : ChannelType → Bool
  ccSaoEnabled : ComponentID → Bool
  ccSaoSetNum : ComponentID → ℕ
  tileGroupAlfEnabledFlag : ComponentID → Bool
  tileGroupNumAps : ℕ
  tileGroupApsIdLuma : ℕ → ℕ
  tileGroupApsIdChroma : ℕ
  alfAPSs : ℕ → Option AlfParam
  ccAlfFilterEnabled : ComponentID → Bool
  ccAlfFilterCount : ComponentID → ℕ

/-- The size of a picture; CTUs are square. -/
structure PreCalcValues where
  chrFormat : ChromaFormat
  lumaWidth : ℕ
  lumaHeight : ℕ
  maxCUWidth : ℕ
  maxCUHeight : ℕ
  square : maxCUHeight = maxCUWidth
  lumaWidth_pos : 0 < lumaWidth
  lumaHeight_pos : 0 < lumaHeight
  maxCUWidth_pos : 0 < maxCUWidth

namespace PreCalcValues

def widthInCtus (pcv : PreCalcValues) : ℕ := (pcv.lumaWidth + pcv.maxCUWidth - 1) / pcv.maxCUWidth

def heightInCtus (pcv : PreCalcValues) : ℕ := (pcv.lumaHeight + pcv.maxCUHeight - 1) / pcv.maxCUHeight

def sizeInCtus (pcv : PreCalcValues) : ℕ := pcv.widthInCtus * pcv.heightInCtus

end PreCalcValues

/-! ## Neighbours -/

def offset (pos : Position) (dx dy : ℤ) : Position := ⟨pos.x + dx, pos.y + dy⟩

/-- `ctuSliceIdx` is the independent slice index of the units of a CTU, and `coded` are
the CTUs that have units. -/
structure CodingStructure where
  sps : SPS
  pps : PPS
  pcv : PreCalcValues
  slice : Slice
  ctuSliceIdx : ℕ → ℕ
  coded : List ℕ

namespace CodingStructure
variable (cs : CodingStructure)

/-- The CTU of the unit at a luma position, if there is one. -/
def getCU (pos : Position) : Option ℕ :=
  if 0 ≤ pos.x ∧ pos.x < cs.pcv.lumaWidth ∧ 0 ≤ pos.y ∧ pos.y < cs.pcv.lumaHeight then
    let ctuRsAddr := pos.y.toNat / cs.pcv.maxCUHeight * cs.pcv.widthInCtus + pos.x.toNat / cs.pcv.maxCUWidth
    if ctuRsAddr ∈ cs.coded then some ctuRsAddr else none
  else none

/-- The tile of a luma position. -/
def tileIdxAt (pos : Position) : ℕ :=
  cs.pps.getTileIdx (pos.x.toNat / cs.pcv.maxCUWidth) (pos.y.toNat / cs.pcv.maxCUWidth)

/-- The tile of the units of a CTU. -/
def ctuTileIdx (ctuRsAddr : ℕ) : ℕ :=
  cs.pps.getTileIdx (ctuRsAddr % cs.pcv.widthInCtus) (ctuRsAddr / cs.pcv.widthInCtus)

/-- Whether `getCURestricted` returns a unit. -/
def getCURestricted (pos curPos : Position) (curSliceIdx curTileIdx : ℕ) : Bool :=
  match cs.getCU pos with
  | none => false
  | some ctuRsAddr =>
    let ctuSizeBit := cs.pcv.maxCUWidth.log2
    let addCheck := ¬(cs.sps.entropyCodingSyncEnabledFlag ∧
      pos.x >>> (ctuSizeBit : ℕ) ≥ curPos.x >>> (ctuSizeBit : ℕ) + 1)
    cs.ctuSliceIdx ctuRsAddr = curSliceIdx ∧ cs.ctuTileIdx ctuRsAddr = curTileIdx ∧ addCheck

/-- `Position( rx * maxCUWidth, ry * maxCUHeight )`. -/
def ctuPos (ctuRsAddr : ℕ) : Position :=
  let ry := ctuRsAddr / cs.pcv.widthInCtus
  let rx := ctuRsAddr - ry * cs.pcv.widthInCtus
  ⟨rx * cs.pcv.maxCUWidth, ry * cs.pcv.maxCUHeight⟩

/-- What each of the functions asks for: whether a neighbour is in this slice and tile. -/
def neighbourAvail (pos : Position) (dx dy : ℤ) : Bool :=
  cs.getCURestricted (InLoopFilter.offset pos dx dy) pos cs.slice.independentSliceIdx (cs.tileIdxAt pos)

def leftAvail (pos : Position) : Bool := cs.neighbourAvail pos (-cs.pcv.maxCUWidth) 0

/-- `blockHeight` is `maxCUHeight` for SAO and ALF, and `maxCUWidth` for CCSAO and CCALF. -/
def aboveAvail (pos : Position) (blockHeight : ℕ) : Bool := cs.neighbourAvail pos 0 (-blockHeight)

/-- `slice_sao_luma_flag` and `slice_sao_chroma_flag`. -/
def sliceSaoFlag : ChannelType → Bool
  | .luma => cs.slice.saoEnabledFlag .luma
  | .chroma => cs.slice.saoEnabledFlag .chroma && cs.sps.chromaFormatIdc ≠ .chroma400

/-- The sum over the available neighbours. -/
def neighbourCtx (leftAvail aboveAvail : Bool) (on : ℕ → Bool) (ctuRsAddr : ℕ) : ℕ :=
  (if leftAvail then (on (ctuRsAddr - 1)).toNat else 0) +
    if aboveAvail then (on (ctuRsAddr - cs.pcv.widthInCtus)).toNat else 0

end CodingStructure

end InLoopFilter

end ECM.CommonLib

/-! # Parameters of the cross-component sample adaptive offset

The offsets of a component come in sets. A set sorts the samples into classes, by the
bands of the three components or by an edge, and has an offset for each class. -/

namespace ECM.CommonLib.CcSao

def MAX_CCSAO_SET_NUM : ℕ := 4
def MAX_CCSAO_CAND_POS_Y : ℕ := 9
def MAX_CCSAO_CAND_POS_Y_BITS : ℕ := 4
def MAX_CCSAO_BAND_NUM_Y : ℕ := 16
def MAX_CCSAO_BAND_NUM_Y_BITS : ℕ := 4
def MAX_CCSAO_BAND_NUM_U : ℕ := 4
def MAX_CCSAO_BAND_NUM_U_BITS : ℕ := 2
def MAX_CCSAO_BAND_NUM_V : ℕ := 4
def MAX_CCSAO_BAND_NUM_V_BITS : ℕ := 2
def MAX_CCSAO_CLASS_NUM : ℕ := 64
def MAX_CCSAO_OFFSET_THR : ℤ := 15

def CCSAO_EDGE_NUM : ℕ := 16
def CCSAO_EDGE_COMPARE_VALUE : ℕ := 2
def CCSAO_EDGE_TYPE : ℕ := 4
def CCSAO_QUAN_NUM : ℕ := 16
def CCSAO_EDGE_BAND_NUM_Y : ℕ := 4
def CCSAO_EDGE_BAND_NUM_C : ℕ := 4
def MAX_CCSAO_BAND_NUM_U_BAND_BITS : ℕ := 4

/-- A set of a component. The offsets are those that the code stores, also behind the
end of the array. -/
structure CcSaoSet where
  setEnabled : Bool
  setType : Bool
  candPosY : ℕ
  bandNumY : ℕ
  bandNumCb : ℕ
  bandNumCr : ℕ
  offset : ℕ → ℤ

/-- The part of a component. -/
structure CcSaoComp where
  enabled : Bool
  setNum : ℕ
  sets : ℕ → CcSaoSet

abbrev CcSaoComParam := ComponentID → CcSaoComp

namespace CcSaoSet

def reset : CcSaoSet where
  setEnabled := false
  setType := false
  candPosY := 0
  bandNumY := 0
  bandNumCb := 0
  bandNumCr := 0
  offset _ := 0

/-- The product of the bands, unless the set is of the edge type. -/
def classNum (set : CcSaoSet) : ℕ :=
  if set.setType then
    if set.bandNumY ≤ CCSAO_EDGE_COMPARE_VALUE + CCSAO_EDGE_COMPARE_VALUE then
      set.bandNumY * CCSAO_EDGE_NUM
    else if set.bandNumY ≤ CCSAO_EDGE_COMPARE_VALUE + CCSAO_EDGE_COMPARE_VALUE + CCSAO_EDGE_COMPARE_VALUE then
      (set.bandNumY - 4) * CCSAO_EDGE_NUM
    else if set.bandNumY ≤ CCSAO_EDGE_COMPARE_VALUE + CCSAO_EDGE_COMPARE_VALUE + CCSAO_EDGE_COMPARE_VALUE
        + CCSAO_EDGE_COMPARE_VALUE then
      (set.bandNumY - 6) * CCSAO_EDGE_NUM
    else set.bandNumY * set.bandNumCb * set.bandNumCr
  else set.bandNumY * set.bandNumCb * set.bandNumCr

end CcSaoSet

def CcSaoComp.reset : CcSaoComp where
  enabled := false
  setNum := 0
  sets _ := CcSaoSet.reset

end ECM.CommonLib.CcSao
