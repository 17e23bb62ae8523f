import ECM.CommonLib.TypeDef
import ECM.Lib.Bits

/-! # Reading NAL units from a byte stream

`InputByteStream` looks up to four bytes ahead; `byteStreamNALUnit` skips to a
start code and collects bytes up to the next one. The end of the input is an
exception of the stream, which `byteStreamNALUnit` catches like any other. -/

namespace ECM.DecoderLib.AnnexBread
open CommonLib Lib.Bits

/-- What can be thrown: the `ios_base::failure` of a read at the end of the
input, or the exception of a `THROW` or `CHECK`. -/
inductive Thrown where
  | eof
  | exception (msg : String)
deriving DecidableEq, Repr

structure InputByteStream where
  numFutureBytes : Nat
  futureBytes : Nat
  /-- The bytes `m_Input` has not handed out. -/
  input : List UInt8
deriving DecidableEq, Repr

abbrev StreamM := EStateM Thrown InputByteStream

namespace InputByteStream

def new (input : List UInt8) : InputByteStream := ⟨0, 0, input⟩

/-- `m_Input.get()`; at the end it throws, now and ever after. -/
def get : StreamM UInt8 := fun s =>
  match s.input with
  | [] => .error .eof s
  | b :: input => .ok b { s with input }

/-- The `for` loop of `eofBeforeNBytes`. -/
def fetch : Nat → StreamM Unit
  | 0 => pure ()
  | n + 1 => do
    let b ← get
    modify fun s => { s with futureBytes := u32 (s.futureBytes <<< 8) ||| b.toNat,
                             numFutureBytes := s.numFutureBytes + 1 }
    fetch n

def eofBeforeNBytes (n : Nat) : StreamM Bool := do
  if n > 4 then throw (.exception "Unsupported look-ahead value")
  let s ← MonadState.get
  if s.numFutureBytes ≥ n then return false
  else tryCatch (fetch (n - s.numFutureBytes) >>= fun _ => pure false) fun _ => pure true

def peekBytes (n : Nat) : StreamM Nat := do
  let _ ← eofBeforeNBytes n
  let s ← MonadState.get
  return s.futureBytes >>> (8 * (s.numFutureBytes - n))

def readByte : StreamM UInt8 := do
  let s ← MonadState.get
  if s.numFutureBytes = 0 then get
  else
    let n := s.numFutureBytes - 1
    -- `~(0xff << 8*m_NumFutureBytes)` on 32 bits
    set { s with numFutureBytes := n,
                 futureBytes := s.futureBytes &&& (0xffffffff ^^^ 0xff <<< (8 * n)) }
    return .ofNat (s.futureBytes >>> (8 * n))

def readBytes : Nat → (val : Nat) → StreamM Nat
  | 0, val => return val
  | n + 1, val => do
    let b ← readByte
    readBytes n (u32 (val <<< 8) ||| b.toNat)

/-- `bs.eofBeforeNBytes(n) || p(bs.peekBytes(n))`. -/
def lookAhead (n : Nat) (p : Nat → Bool) : StreamM Bool := do
  if ← eofBeforeNBytes n then return true
  let word ← peekBytes n
  return p word

/-- The condition of the loops that skip zero bytes. -/
def beforeStartCode : StreamM Bool := do
  if ← lookAhead 3 (· ≠ 0x000001) then lookAhead 4 (· ≠ 0x00000001)
  else return false

/-- The condition of the loop that collects the unit. -/
def insideNalUnit : StreamM Bool := lookAhead 3 (· > 2)

end InputByteStream

structure AnnexBStats where
  numLeadingZero8BitsBytes : Nat
  numZeroByteBytes : Nat
  numStartCodePrefixBytes : Nat
  numBytesInNALUnit : Nat
  numTrailingZero8BitsBytes : Nat
deriving DecidableEq, Repr

/-- The bytes in front of the unit. -/
def AnnexBStats.startBytes (stats : AnnexBStats) : Nat :=
  stats.numLeadingZero8BitsBytes + stats.numZeroByteBytes + stats.numStartCodePrefixBytes

/-- The three reference arguments of `byteStreamNALUnit`. -/
structure Parse where
  bs : InputByteStream
  nalUnit : List UInt8
  stats : AnnexBStats
deriving DecidableEq, Repr

abbrev ParseM := EStateM Thrown Parse

/-- A call on the stream; what it throws leaves the stream as it got it. -/
def onStream {α : Type} (x : StreamM α) : ParseM α := fun p =>
  match x p.bs with
  | .ok a bs => .ok a { p with bs }
  | .error e bs => .error e { p with bs }

/-- At most `fuel` rounds of a loop that reads a byte while `cond` holds. -/
def readWhile (cond : StreamM Bool) (body : UInt8 → ParseM Unit) : (fuel : Nat) → ParseM Unit
  | 0 => pure ()
  | fuel + 1 => do
    if ← onStream cond then
      let b ← onStream InputByteStream.readByte
      body b
      readWhile cond body fuel

/-- `while( cond ) body( bs.readByte() );`, which reads each byte at most once
and throws when there is none. -/
def whileByte (cond : StreamM Bool) (body : UInt8 → ParseM Unit) : ParseM Unit := do
  let p ← get
  readWhile cond body (p.bs.numFutureBytes + p.bs.input.length + 1)

def skipLeadingZero (leadingZero8Bits : UInt8) : ParseM Unit := do
  if leadingZero8Bits ≠ 0 then throw (.exception "Leading zero bits not zero")
  modify fun p => { p with stats.numLeadingZero8BitsBytes := p.stats.numLeadingZero8BitsBytes + 1 }

def pushByte (b : UInt8) : ParseM Unit :=
  modify fun p => { p with nalUnit := p.nalUnit ++ [b] }

def skipTrailingZero (trailingZero8Bits : UInt8) : ParseM Unit := do
  if trailingZero8Bits ≠ 0 then throw (.exception "Trailing zero bits not '0'")
  modify fun p => { p with stats.numTrailingZero8BitsBytes := p.stats.numTrailingZero8BitsBytes + 1 }

/-- The zero byte of a four-byte start code. -/
def readZeroByte : ParseM Unit := do
  let word ← onStream (InputByteStream.peekBytes 3)
  if word ≠ 0x000001 then
    let zeroByte ← onStream InputByteStream.readByte
    if zeroByte ≠ 0 then throw (.exception "Zero byte not '0'")
    modify fun p => { p with stats.numZeroByteBytes := p.stats.numZeroByteBytes + 1 }

def readStartCodePrefix : ParseM Unit := do
  let startCodePrefixOne3Bytes ← onStream (InputByteStream.readBytes 3 0)
  if startCodePrefixOne3Bytes ≠ 0x000001 then throw (.exception "Invalid code prefix")
  modify fun p => { p with stats.numStartCodePrefixBytes := p.stats.numStartCodePrefixBytes + 3 }

/-- `_byteStreamNALUnit`. -/
def byteStreamNALUnitBody : ParseM Unit := do
  whileByte InputByteStream.beforeStartCode skipLeadingZero
  readZeroByte
  readStartCodePrefix
  whileByte InputByteStream.insideNalUnit pushByte
  whileByte InputByteStream.beforeStartCode skipTrailingZero

/-- What `byteStreamNALUnit` catches. -/
def caught (p : Parse) : Option Thrown :=
  match byteStreamNALUnitBody p with
  | .ok _ _ => none
  | .error e _ => some e

/-- The value returned says whether something was thrown. -/
def byteStreamNALUnit (p : Parse) : Bool × Parse :=
  let (eof, p) := match byteStreamNALUnitBody p with
    | .ok _ p => (false, p)
    | .error _ p => (true, p)
  (eof, { p with stats.numBytesInNALUnit := u32 p.nalUnit.length })

/-- What one call gives its caller, and what it caught. -/
structure NalCall where
  eof : Bool
  caught : Option Thrown
  nalUnit : List UInt8
deriving DecidableEq, Repr

/-- `n` calls in a row, each with an empty unit. -/
def readNalUnits : (n : Nat) → InputByteStream → AnnexBStats → List NalCall
  | 0, _, _ => []
  | n + 1, bs, stats =>
    let p : Parse := ⟨bs, [], stats⟩
    let (eof, p') := byteStreamNALUnit p
    ⟨eof, caught p, p'.nalUnit⟩ :: readNalUnits n p'.bs p'.stats

end ECM.DecoderLib.AnnexBread
