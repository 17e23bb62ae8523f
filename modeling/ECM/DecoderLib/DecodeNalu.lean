import ECM.CommonLib.RefIdxTables
import ECM.DecoderLib.LookAhead
import ECM.DecoderLib.DecLib
import ECM.Lib.Heap

/-! # Decoding a NAL unit

`DecLib::decode` and the queue of prefix SEI units. The units are objects that `new` makes
and `delete` releases. The parsers of the other units and the parts of `xDecodeSlice` that
do not look at the queue are parameters; they return or throw. -/

namespace ECM.DecoderLib
open CommonLib Lib Lib.Loop RefPicList

structure AccessUnitInfo where
  m_nalUnitType : NalUnitType
  m_nuhLayerId : ℕ
  m_temporalId : ℕ
  deriving DecidableEq

/-- `R` is what the parsers work on. -/
structure NaluDecoder (R : Type) where
  heap : Heap InputNALUnit
  m_accessUnitNals : List AccessUnitInfo
  m_pictureUnitNals : List NalUnitType
  /-- Buffered up prefix SEI NAL units. -/
  m_prefixSEINALUs : List ℕ
  m_pictureSeiNalus : List ℕ
  m_accessUnitSeiTids : List ℕ
  m_accessUnitSeiPayLoadTypes : List (NalUnitType × ℕ × ℤ)
  /-- The prefix SEI units that were put into the queue so far. -/
  buffered : List (ℕ × InputNALUnit)
  /-- Those that were taken from it. -/
  removed : List ℕ
  /-- Those that `xParsePrefixSEImessages` parsed. -/
  parsed : List (ℕ × InputNALUnit)
  rest : R

/-- Why a call does not return. -/
inductive Stop (R : Type) where
  /-- An exception, and the state it leaves. -/
  | thrown (msg : String) (s : NaluDecoder R)
  /-- A released unit was used or deleted. -/
  | released
  /-- A loop that has not ended yet. -/
  | running (s : NaluDecoder R)

/-- How `xDecodeSlice` goes on from the slice header. -/
inductive SliceStart where
  /-- `isRandomAccessSkipPicture` -/
  | skipped
  /-- The slice belongs to a new picture: the unit is read again later. -/
  | newPicture
  | decoded
  deriving DecidableEq

/-- An active reference picture list. -/
structure ActiveList where
  pRPL : ReferencePictureList
  numRefIdx : ℕ

structure NaluParsers (R : Type) where
  xDecodeVPS : InputNALUnit → R → Checked R
  xDecodeDCI : InputNALUnit → R → Checked R
  xDecodeSPS : InputNALUnit → R → Checked R
  xDecodePPS : InputNALUnit → R → Checked R
  xDecodePicHeader : InputNALUnit → R → Checked R
  xDecodeAPS : InputNALUnit → R → Checked R
  parseAccessUnitDelimiter : InputNALUnit → R → Checked R
  /-- The case `NAL_UNIT_EOS`. -/
  endOfSequence : InputNALUnit → R → R
  m_bFirstSliceInPicture : R → Bool
  /-- `m_pcPic` is set. -/
  m_pcPic : R → Bool
  /-- `parseSEImessage` into `m_SEIs`, and the payload type of the last message there. -/
  parseSEImessage : InputNALUnit → R → Checked (ℤ × R)
  /-- The same for `m_pcPic->SEIs`. -/
  parsePicSEImessage : InputNALUnit → R → Checked (ℤ × R)
  /-- `xDecodeSlice` up to the search for lost pictures. -/
  startSlice : InputNALUnit → List AccessUnitInfo → R → Checked (SliceStart × R)
  decodeSlice : R → DecodeSlice
  refPicList : R → RefPicList → ActiveList
  m_cListPic : R → List Picture
  setListPic : List Picture → R → R
  /-- From there to `xParsePrefixSEImessages`, which both branches of `xActivateParameterSets` call. -/
  activate : InputNALUnit → R → Checked R
  /-- The rest of `xActivateParameterSets` and of `xDecodeSlice`. -/
  finishSlice : InputNALUnit → R → Checked R

namespace NaluDecoder
variable {R : Type}

/-- `DecLib::DecLib` -/
def new (rest : R) : NaluDecoder R := ⟨Heap.empty, [], [], [], [], [], [], [], [], [], rest⟩

/-- A call of a parser. -/
def call {α : Type} (s : NaluDecoder R) (x : Checked α) : Except (Stop R) α :=
  match x with
  | .ok a => .ok a
  | .error msg => .error (.thrown msg s)

/-- `delete` -/
def delete (s : NaluDecoder R) (a : ℕ) : Except (Stop R) (NaluDecoder R) :=
  match s.heap.delete (some a) with
  | .ok heap => .ok { s with heap }
  | .error _ => .error .released

/-- `*a` -/
def deref (s : NaluDecoder R) (a : ℕ) : Except (Stop R) InputNALUnit :=
  match s.heap.cell a with
  | some nalu => .ok nalu
  | none => .error .released

/-- `!m_prefixSEINALUs.empty()` -/
def waiting (s : NaluDecoder R) : Bool := !s.m_prefixSEINALUs.isEmpty

/-- One round: the unit at the front is deleted, but not taken from the queue. -/
def discardFront (s : NaluDecoder R) : Except (Stop R) (NaluDecoder R) :=
  match s.m_prefixSEINALUs with
  | [] => .ok s
  | front :: _ => s.delete front

def xParsePrefixSEIsForUnknownVCLNal (fuel : ℕ) : NaluDecoder R → Except (Stop R) (NaluDecoder R) :=
  whileLoop .running waiting discardFront fuel

/-- `delete m_prefixSEINALUs.front(); m_prefixSEINALUs.pop_front();` -/
def releaseFront (s : NaluDecoder R) : Except (Stop R) (NaluDecoder R) :=
  match s.m_prefixSEINALUs with
  | [] => .ok s
  | front :: m_prefixSEINALUs => do
    let s ← s.delete front
    return { s with
      m_prefixSEINALUs
      removed := s.removed ++ [front] }

/-- `DecLib::~DecLib` -/
def destructor (fuel : ℕ) : NaluDecoder R → Except (Stop R) (NaluDecoder R) :=
  whileLoop .running waiting releaseFront fuel

variable (p : NaluParsers R)

/-- The unit at the front is parsed, before it is released. -/
def parseUnit (s : NaluDecoder R) (front : ℕ) : Except (Stop R) (NaluDecoder R) := do
  let nalu ← s.deref front
  let s := { s with m_accessUnitSeiTids := s.m_accessUnitSeiTids ++ [nalu.m_temporalId] }
  let (payloadType, rest) ← s.call (p.parseSEImessage nalu s.rest)
  return { s with
    m_accessUnitSeiPayLoadTypes :=
      s.m_accessUnitSeiPayLoadTypes ++ [(nalu.m_nalUnitType, nalu.m_nuhLayerId, payloadType)]
    parsed := s.parsed ++ [(front, nalu)]
    rest }

/-- One round: the unit at the front is parsed, deleted and taken from the queue. -/
def parseFront (s : NaluDecoder R) : Except (Stop R) (NaluDecoder R) :=
  match s.m_prefixSEINALUs with
  | [] => .ok s
  | front :: _ => do
    let s ← s.parseUnit p front
    s.releaseFront

def xParsePrefixSEImessages (fuel : ℕ) : NaluDecoder R → Except (Stop R) (NaluDecoder R) :=
  whileLoop .running waiting (parseFront p) fuel

/-- The loop for the lost pictures of a list. -/
def fillMissing (fuel : ℕ) (l : RefPicList) (s : NaluDecoder R) : Except (Stop R) (NaluDecoder R) := do
  let active := p.refPicList s.rest l
  let filled ← s.call ((p.decodeSlice s.rest).fillMissing active.pRPL active.numRefIdx fuel (p.m_cListPic s.rest))
  match filled with
  | some m_cListPic => return { s with rest := p.setListPic m_cListPic s.rest }
  | none => .error (.running s)

/-- From the search for lost pictures on. -/
def decodePicture (fuel : ℕ) (nalu : InputNALUnit) (s : NaluDecoder R) : Except (Stop R) (NaluDecoder R) := do
  let s ← s.fillMissing p fuel REF_PIC_LIST_0
  let s ← s.fillMissing p fuel REF_PIC_LIST_1
  let rest ← s.call (p.activate nalu s.rest)
  let s ← xParsePrefixSEImessages p fuel { s with rest }
  let rest ← s.call (p.finishSlice nalu s.rest)
  return { s with rest }

def xDecodeSlice (fuel : ℕ) (nalu : InputNALUnit) (s : NaluDecoder R) : Except (Stop R) (Bool × NaluDecoder R) := do
  let (start, rest) ← s.call (p.startSlice nalu s.m_accessUnitNals s.rest)
  let s := { s with rest }
  match start with
  | .skipped => return (false, s)
  | .newPicture => return (true, s)
  | .decoded => do
    let s ← s.decodePicture p fuel nalu
    return (false, s)

/-- A unit that only the parser `f` looks at. -/
def parse (f : InputNALUnit → R → Checked R) (nalu : InputNALUnit) (s : NaluDecoder R) :
    Except (Stop R) (NaluDecoder R) := do
  let rest ← s.call (f nalu s.rest)
  return { s with rest }

/-- Buffer up prefix SEI messages until SPS of associated VCL is known. -/
def bufferPrefixSEI (nalu : InputNALUnit) (s : NaluDecoder R) : NaluDecoder R :=
  let a := s.heap.next
  let heap := s.heap.new nalu
  { s with
    heap := heap.new nalu
    m_prefixSEINALUs := s.m_prefixSEINALUs ++ [a]
    m_pictureSeiNalus := s.m_pictureSeiNalus ++ [heap.next]
    buffered := s.buffered ++ [(a, nalu)] }

def parseSuffixSEI (nalu : InputNALUnit) (s : NaluDecoder R) : Except (Stop R) (NaluDecoder R) :=
  if p.m_pcPic s.rest then do
    let s := { s with
      heap := s.heap.new nalu
      m_pictureSeiNalus := s.m_pictureSeiNalus ++ [s.heap.next]
      m_accessUnitSeiTids := s.m_accessUnitSeiTids ++ [nalu.m_temporalId] }
    let (payloadType, rest) ← s.call (p.parsePicSEImessage nalu s.rest)
    return { s with
      m_accessUnitSeiPayLoadTypes :=
        s.m_accessUnitSeiPayLoadTypes ++ [(nalu.m_nalUnitType, nalu.m_nuhLayerId, payloadType)]
      rest }
  else .ok s

/-- The units that have been received for the access unit and the picture. -/
def receive (nalu : InputNALUnit) (s : NaluDecoder R) : NaluDecoder R :=
  { s with
    m_accessUnitNals := s.m_accessUnitNals ++ [⟨nalu.m_nalUnitType, nalu.m_nuhLayerId, nalu.m_temporalId⟩]
    m_pictureUnitNals := s.m_pictureUnitNals ++ [nalu.m_nalUnitType] }

/-- The `switch` of `decode`. The flag says that a new picture was found. -/
def decodeByType (fuel : ℕ) (nalu : InputNALUnit) (s : NaluDecoder R) : Except (Stop R) (Bool × NaluDecoder R) :=
  match nalu.m_nalUnitType with
  | .VPS => do return (false, ← s.parse p.xDecodeVPS nalu)
  | .DCI => do return (false, ← s.parse p.xDecodeDCI nalu)
  | .SPS => do return (false, ← s.parse p.xDecodeSPS nalu)
  | .PPS => do return (false, ← s.parse p.xDecodePPS nalu)
  | .PH => do
    let s ← s.parse p.xDecodePicHeader nalu
    return (!p.m_bFirstSliceInPicture s.rest, s)
  | .PREFIX_APS | .SUFFIX_APS => do return (false, ← s.parse p.xDecodeAPS nalu)
  | .PREFIX_SEI => .ok (false, s.bufferPrefixSEI nalu)
  | .SUFFIX_SEI => do return (false, ← s.parseSuffixSEI p nalu)
  | .CODED_SLICE_TRAIL | .CODED_SLICE_STSA | .CODED_SLICE_IDR_W_RADL | .CODED_SLICE_IDR_N_LP
  | .CODED_SLICE_CRA | .CODED_SLICE_GDR | .CODED_SLICE_RADL | .CODED_SLICE_RASL => s.xDecodeSlice p fuel nalu
  | .EOS => .ok (false, { s with rest := p.endOfSequence nalu s.rest })
  | .ACCESS_UNIT_DELIMITER => do
    let s ← s.parse p.parseAccessUnitDelimiter nalu
    return (!p.m_bFirstSliceInPicture s.rest, s)
  | .EOB => .ok (false, s)
  | .RESERVED_IRAP_VCL_11 | .RESERVED_IRAP_VCL_12 => do
    return (false, ← xParsePrefixSEIsForUnknownVCLNal fuel s)
  | .RESERVED_VCL_4 | .RESERVED_VCL_5 | .RESERVED_VCL_6 | .RESERVED_NVCL_26 | .RESERVED_NVCL_27 => .ok (false, s)
  | .UNSPECIFIED_28 | .UNSPECIFIED_29 | .UNSPECIFIED_30 | .UNSPECIFIED_31 => .ok (false, s)
  | .FD | .INVALID => .error (.thrown "Invalid NAL unit type" s)

/-- `DecLib::decode`, with `fuel` rounds for each of its loops. -/
def decode (fuel : ℕ) (nalu : InputNALUnit) (s : NaluDecoder R) : Except (Stop R) (Bool × NaluDecoder R) :=
  decodeByType p fuel nalu (s.receive nalu)

end NaluDecoder

end ECM.DecoderLib
