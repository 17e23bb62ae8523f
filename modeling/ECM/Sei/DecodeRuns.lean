import ECM.Sei.PrefixQueue

/-! # Prefix SEI units over a run of the decoder

Whatever units `decode` is given, the prefix SEI units among them go through the queue one by
one, until a reserved IRAP unit comes while some wait. -/

namespace ECM.Sei
open CommonLib DecoderLib DecoderLib.NaluDecoder Lib Lib.Loop

variable {R : Type} {p : NaluParsers R} {nalu : InputNALUnit} {s s' t : NaluDecoder R}

/-! ## Decoding a slice -/

/-- The unit is a slice that is decoded: it is not skipped and does not wait for the picture
before it to be finished. -/
def Decodes (p : NaluParsers R) (nalu : InputNALUnit) (s : NaluDecoder R) : Prop :=
  nalu.isSlice = true ∧
    ∃ rest, p.startSlice nalu (s.receive nalu).m_accessUnitNals s.rest = .ok (.decoded, rest)

/-- A unit of the base layer. -/
def unitOf (m_nalUnitType : NalUnitType) : InputNALUnit := ⟨m_nalUnitType, 0, 0, .ofFifo []⟩

end ECM.Sei
