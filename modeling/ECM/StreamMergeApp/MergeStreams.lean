import ECM.DecoderLib.LookAhead
import ECM.EncoderLib.VPSWriter

/-! # The stream merger

The input streams take turns: one NAL unit of each goes to the output with the layer
of its stream, until all files have failed. -/

namespace ECM.StreamMergeApp
open CommonLib CommonLib.BitStream DecoderLib DecoderLib.AnnexBread
open DecoderLib.BitstreamFile EncoderLib.VLCWriter

/-- `read2`: the header from the bytes of the unit as they are in the stream. -/
def read2 (fifo : List UInt8) : Checked InputNALUnit := do
  let bs := InputBitstream.ofFifo fifo
  let (_, bs) ← bs.read 1
  let (_, bs) ← bs.read 1
  let (nuhLayerId, bs) ← bs.read 6
  let (nalUnitType, bs) ← bs.read 5
  let (temporalIdPlus1, bs) ← bs.read 3
  return ⟨nalUnitTypes.getD nalUnitType .INVALID, sub32 temporalIdPlus1 1, nuhLayerId, bs⟩

/-- `vps` of the application. -/
def mergeVPS (m_numInputStreams : ℕ) : VPS := { VPS.new with m_uiMaxLayers := m_numInputStreams }

variable {PTL : Type} (codeProfileTierLevel : PTL → Bool → ℤ → WriteM Unit)
  (codeParameters : VPS → WriteM Unit) (m_numInputStreams : ℕ)

/-- `writeNewVPS`. -/
def writeNewVPS (layerId temporalId : ℕ) : Checked (List UInt8) := do
  let bsNALUHeader ← OutputBitstream.clear.write 0 1
  let bsNALUHeader ← bsNALUHeader.write 0 1
  let bsNALUHeader ← bsNALUHeader.write layerId 6
  let bsNALUHeader ← bsNALUHeader.write (nalUnitTypes.idxOf .VPS) 5
  let bsNALUHeader ← bsNALUHeader.write (u32 (temporalId + 1)) 3
  let (_, bsVPS) ← codeVPS codeProfileTierLevel codeParameters (mergeVPS m_numInputStreams)
    (VPSProfileTierLevels.new PTL) OutputBitstream.clear
  return [0, 0, 0, 1] ++ bsNALUHeader.fifo ++ bsVPS.fifo

/-- The layer of the stream `i`. -/
def layerId (i : ℕ) : ℕ := if i < 63 then i else i + 1

/-- The start code from what was counted in front of the unit. -/
def startCode (stats : AnnexBStats) : List UInt8 := List.replicate (stats.startBytes - 1) 0 ++ [1]

/-- The body of the inner loop, on a file that has not failed: the file, what is
written, and whether `nNumValidStr` goes down. -/
def mergeStream (i : ℕ) (f : BitstreamFile) : Checked (BitstreamFile × List UInt8 × Bool) := do
  let (_, p) := byteStreamNALUnit ⟨f.bytestream, [], noStats⟩
  let f := f.nextNalUnit.2
  if p.nalUnit = [] then return (f, [], f.failed)
  else
    let nalu ← read2 p.nalUnit
    if nalu.m_nalUnitType = .VPS then
      let bytes ← writeNewVPS codeProfileTierLevel codeParameters m_numInputStreams (layerId i)
        nalu.m_temporalId
      -- `continue`: the file is not looked at
      return (f, bytes, false)
    else
      -- the second byte of the header is overwritten with the layer
      let nalUnit ← writeAt p.nalUnit 1 (.ofNat (((layerId i + 1) <<< 1) &&& 0xff))
      return (f, startCode p.stats ++ nalUnit, f.failed)

/-- The inner loop, from the stream `i` on: the files, what is written, and how far
`nNumValidStr` goes down. -/
def mergeRound (i : ℕ) : List BitstreamFile → Checked (List BitstreamFile × List UInt8 × ℕ)
  | [] => .ok ([], [], 0)
  | f :: files => do
    let (f', bytes, ended) ← (if f.failed then .ok (f, [], false)
      else mergeStream codeProfileTierLevel codeParameters m_numInputStreams i f :
        Checked (BitstreamFile × List UInt8 × Bool))
    let (files', bytes', numEnded) ← mergeRound (i + 1) files
    return (f' :: files', bytes ++ bytes', ended.toNat + numEnded)

/-- The outer loop, at most `fuel` rounds of it; `none` if it has not ended by then. -/
def mergeLoop : (fuel : ℕ) → (nNumValidStr : ℤ) → List BitstreamFile → List UInt8 →
    Checked (Option (List UInt8))
  | 0, _, _, _ => .ok none
  | fuel + 1, nNumValidStr, bitstreamFileIn, bitstreamFileOut => do
    if nNumValidStr = 0 then return some bitstreamFileOut
    else
      let (files, bytes, numEnded) ←
        mergeRound codeProfileTierLevel codeParameters m_numInputStreams 0 bitstreamFileIn
      mergeLoop fuel (nNumValidStr - numEnded) files (bitstreamFileOut ++ bytes)

/-- `mergeStreams`, on the bytes of the input files. -/
def mergeStreams (fuel : ℕ) (streams : List (List UInt8)) : Checked (Option (List UInt8)) :=
  mergeLoop codeProfileTierLevel codeParameters streams.length fuel streams.length
    (streams.map .ofBytes) []

end ECM.StreamMergeApp
