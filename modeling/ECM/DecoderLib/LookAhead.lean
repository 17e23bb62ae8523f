import ECM.DecoderLib.AnnexBread
import ECM.DecoderLib.NALread

/-! # Looking ahead in the bitstream file

`isNewPicture` and `isNewAccessUnit` read NAL units through the byte stream
reader and then set the file back. The file is a sequence of bytes with a
position and the failure state that a read past its end leaves. -/

namespace ECM.DecoderLib
open CommonLib CommonLib.BitStream DecoderLib.AnnexBread DecoderLib.NALread

/-! ## The file and its reader -/

structure BitstreamFile where
  bytes : List UInt8
  /-- The reader; its `input` are the bytes from the position of the file on. -/
  bytestream : InputByteStream
  /-- `!bitstreamFile`. -/
  failed : Bool
  deriving DecidableEq

namespace BitstreamFile

def ofBytes (bytes : List UInt8) : BitstreamFile := ⟨bytes, .new bytes, false⟩

def tellg (f : BitstreamFile) : ℤ :=
  if f.failed then -1 else (f.bytes.length : ℤ) - f.bytestream.input.length

def clear (f : BitstreamFile) : BitstreamFile := { f with failed := false }

/-- A position before the beginning fails and leaves the file where it is. -/
def seekg (f : BitstreamFile) (pos : ℤ) : BitstreamFile :=
  if pos < 0 then { f with failed := true }
  else { f with bytestream := { f.bytestream with input := f.bytes.drop pos.toNat } }

/-- `bytestream->reset()`. -/
def reset (f : BitstreamFile) : BitstreamFile :=
  { f with bytestream := { f.bytestream with numFutureBytes := 0, futureBytes := 0 } }

/-- `bitstreamFile->clear(); bitstreamFile->seekg(pos); bytestream->reset();` -/
def restore (f : BitstreamFile) (pos : ℤ) : BitstreamFile := (f.clear.seekg pos).reset

/-- `AnnexBStats()`. -/
def noStats : AnnexBStats := ⟨0, 0, 0, 0, 0⟩

/-- The call of `byteStreamNALUnit` on an empty unit. A call that throws has
looked for four bytes before it took its last one, so the file has failed unless
three are left. -/
def nextNalUnit (f : BitstreamFile) : List UInt8 × BitstreamFile :=
  let p : Parse := ⟨f.bytestream, [], noStats⟩
  let (_, p') := byteStreamNALUnit p
  (p'.nalUnit, { f with
    bytestream := p'.bs
    failed := f.failed || ((caught p).isSome && decide (p'.bs.numFutureBytes + p'.bs.input.length < 3)) })

/-- What `n` calls in a row give. -/
def nalUnits : (n : ℕ) → BitstreamFile → List (List UInt8)
  | 0, _ => []
  | n + 1, f => f.nextNalUnit.1 :: nalUnits n f.nextNalUnit.2

/-- The bytes that can still be read. -/
def bytesLeft (f : BitstreamFile) : ℕ := f.bytestream.numFutureBytes + f.bytestream.input.length

end BitstreamFile

/-! ## NAL units -/

/-- `InputNALUnit` after `read`; the bit stream stands behind the header. -/
structure InputNALUnit where
  m_nalUnitType : NalUnitType
  m_temporalId : ℕ
  m_nuhLayerId : ℕ
  m_Bitstream : InputBitstream
  deriving DecidableEq

namespace InputNALUnit

/-- `InputNALUnit nalu`. -/
def empty : InputNALUnit := ⟨.INVALID, 0, 0, .ofFifo []⟩

def isSlice (nalu : InputNALUnit) : Bool :=
  nalu.m_nalUnitType ∈ [.CODED_SLICE_TRAIL, .CODED_SLICE_STSA, .CODED_SLICE_IDR_W_RADL,
    .CODED_SLICE_IDR_N_LP, .CODED_SLICE_CRA, .CODED_SLICE_GDR, .CODED_SLICE_RADL, .CODED_SLICE_RASL]

end InputNALUnit

/-- The enumerators with the values 0 to 31. -/
def nalUnitTypes : List NalUnitType :=
  [.CODED_SLICE_TRAIL, .CODED_SLICE_STSA, .CODED_SLICE_RADL, .CODED_SLICE_RASL,
    .RESERVED_VCL_4, .RESERVED_VCL_5, .RESERVED_VCL_6,
    .CODED_SLICE_IDR_W_RADL, .CODED_SLICE_IDR_N_LP, .CODED_SLICE_CRA, .CODED_SLICE_GDR,
    .RESERVED_IRAP_VCL_11, .RESERVED_IRAP_VCL_12,
    .DCI, .VPS, .SPS, .PPS, .PREFIX_APS, .SUFFIX_APS, .PH, .ACCESS_UNIT_DELIMITER, .EOS, .EOB,
    .PREFIX_SEI, .SUFFIX_SEI, .FD, .RESERVED_NVCL_26, .RESERVED_NVCL_27,
    .UNSPECIFIED_28, .UNSPECIFIED_29, .UNSPECIFIED_30, .UNSPECIFIED_31]

def readNalUnitHeader (bs : InputBitstream) : Checked InputNALUnit := do
  let (_, bs) ← bs.read 1
  let (_, bs) ← bs.read 1
  let (nuhLayerId, bs) ← bs.read 6
  check (nuhLayerId > 55) "The value of nuh_layer_id shall be in the range of 0 to 55, inclusive"
  let (nalUnitType, bs) ← bs.read 5
  let (temporalIdPlus1, bs) ← bs.read 3
  let nalu : InputNALUnit :=
    ⟨nalUnitTypes.getD nalUnitType .INVALID, sub32 temporalIdPlus1 1, nuhLayerId, bs⟩
  -- only check these rules for base layer
  if nuhLayerId = 0 ∧ nalu.m_temporalId = 0 then
    check (nalu.m_nalUnitType = .CODED_SLICE_STSA)
      "When NAL unit type is equal to STSA_NUT, TemporalId shall not be equal to 0"
  return nalu

/-- `read`, on a unit that is not empty. -/
def readNalu (nalUnitBuf : List UInt8) : Checked InputNALUnit := do
  let (rbsp, locations) ← convertPayloadToRBSP nalUnitBuf ((nalUnitBuf.headD 0).toNat &&& 64 = 0)
  readNalUnitHeader { InputBitstream.ofFifo rbsp with emulationPreventionByteLocation := locations }

def checkPictureHeaderInSliceHeaderFlag (nalu : InputNALUnit) : Checked Bool := do
  check (nalu.m_Bitstream.fifoIdx ≠ 2)
    "The picture_header_in_slice_header_flag is the first bit after the NAL unit header"
  let (flag, _) ← nalu.m_Bitstream.read 1
  return flag ≠ 0

/-! ## Looking ahead -/

/-- The loop of both functions, at most `fuel` rounds of it: `decide` is the
`switch`, whose answer ends the loop unless it is to keep looking. -/
def lookAheadLoop (decide : InputNALUnit → Checked (Option Bool)) :
    (fuel : ℕ) → BitstreamFile → Checked (Bool × BitstreamFile)
  | 0, f => .ok (false, f)
  | fuel + 1, f => do
    if f.failed then return (false, f)
    let (nalUnit, f) := f.nextNalUnit
    -- an attempt to decode an empty NAL unit
    if nalUnit = [] then lookAheadLoop decide fuel f
    else
      let nalu ← readNalu nalUnit
      match ← decide nalu with
      | some ret => return (ret, f)
      | none => lookAheadLoop decide fuel f

/-- Every round takes a byte or fails. -/
def lookAheadNalUnits (decide : InputNALUnit → Checked (Option Bool)) (f : BitstreamFile) :
    Checked (Bool × BitstreamFile) := lookAheadLoop decide (f.bytesLeft + 1) f

/-- The `switch` of `isNewPicture`. -/
def startsPicture (nalu : InputNALUnit) : Checked (Option Bool) :=
  match nalu.m_nalUnitType with
  | .ACCESS_UNIT_DELIMITER | .DCI | .VPS | .SPS | .PPS | .PH => .ok (some true)
  | .CODED_SLICE_TRAIL | .CODED_SLICE_STSA | .CODED_SLICE_RASL | .CODED_SLICE_RADL
  | .RESERVED_VCL_4 | .RESERVED_VCL_5 | .RESERVED_VCL_6
  | .CODED_SLICE_IDR_W_RADL | .CODED_SLICE_IDR_N_LP | .CODED_SLICE_CRA | .CODED_SLICE_GDR
  | .RESERVED_IRAP_VCL_11 | .RESERVED_IRAP_VCL_12 => do
    let ret ← checkPictureHeaderInSliceHeaderFlag nalu
    return some ret
  | .EOS | .EOB | .SUFFIX_APS | .SUFFIX_SEI | .FD => .ok (some false)
  | _ => .ok none

/-- `isNewPicture`. -/
def isNewPicture (firstSliceInPicture : Bool) (f : BitstreamFile) : Checked (Bool × BitstreamFile) := do
  -- cannot be a new picture if there haven't been any slices yet
  if firstSliceInPicture then return (false, f)
  let location := f.tellg
  let (ret, f) ← lookAheadNalUnits startsPicture f
  return (ret, f.restore (location - 3))

/-- The `switch` of `isNewAccessUnit`. -/
def startsAccessUnit (isSliceNaluFirstInAU : InputNALUnit → Checked Bool) (nalu : InputNALUnit) :
    Checked (Option Bool) :=
  match nalu.m_nalUnitType with
  | .ACCESS_UNIT_DELIMITER => .ok (some true)
  | .CODED_SLICE_TRAIL | .CODED_SLICE_STSA | .CODED_SLICE_RASL | .CODED_SLICE_RADL
  | .CODED_SLICE_IDR_W_RADL | .CODED_SLICE_IDR_N_LP | .CODED_SLICE_CRA | .CODED_SLICE_GDR => do
    let ret ← isSliceNaluFirstInAU nalu
    return some ret
  | .EOS | .EOB | .SUFFIX_APS | .SUFFIX_SEI | .FD => .ok (some false)
  | _ => .ok none

/-- `isNewAccessUnit`. -/
def isNewAccessUnit (newPicture : Bool) (isSliceNaluFirstInAU : InputNALUnit → Checked Bool)
    (f : BitstreamFile) : Checked (Bool × BitstreamFile) := do
  -- can only be the start of an AU if this is the start of a new picture
  if !newPicture then return (false, f)
  let location := f.tellg
  let (ret, f) ← lookAheadNalUnits (startsAccessUnit isSliceNaluFirstInAU) f
  return (ret, f.restore location)

end ECM.DecoderLib
