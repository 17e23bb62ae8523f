import ECM.DecoderLib.AnnexBreadSoundness
import ECM.DecoderLib.NALread

/-! # NAL units through a byte stream

Units written one after the other, each behind a start code of either length,
come back from `byteStreamNALUnit` in order; the escaped form has no start code
inside and no zero at its end, so every call stops exactly where the next unit
begins. -/

namespace ECM.Nal
open CommonLib EncoderLib.NALwrite DecoderLib.AnnexBread DecoderLib.NALread

/-- A unit, and whether its start code is the long one. -/
abbrev StreamUnit := OutputNALUnit × Bool

/-- `writeNaluWithHeader` and `writeAnnexBNalUnit` for each unit. -/
def writeByteStream : List StreamUnit → Checked (List UInt8)
  | [] => .ok []
  | (nalu, useLongStartcode) :: us => do
    let nalUnitData ← writeNaluWithHeader nalu
    let out ← writeByteStream us
    return writeAnnexBNalUnit nalUnitData useLongStartcode ++ out

/-- A valid header, and a payload that is empty or ends in a nonzero byte. -/
structure UnitValid (nalu : OutputNALUnit) : Prop where
  header : nalu.HeaderValid
  payload : EndsNonzero nalu.rbsp

/-- What the calls should give: every unit, and the end of the file with the last. -/
def expectedCalls : List StreamUnit → List NalCall
  | [] => []
  | [u] => [⟨true, some .eof, u.1.ebsp⟩]
  | u :: v :: us => ⟨false, none, u.1.ebsp⟩ :: expectedCalls (v :: us)

theorem writeByteStream_cons {u : StreamUnit} {us : List StreamUnit} {out : List UInt8}
    (hu : u.1.HeaderValid) (h : writeByteStream us = .ok out) :
    writeByteStream (u :: us) = .ok (startCodePrefix u.2 ++ (u.1.ebsp ++ out)) := by
  rw [writeByteStream, writeNaluWithHeader_ok hu, ok_bind, h, ok_bind, writeAnnexBNalUnit,
    List.append_assoc]
  rfl

theorem writeByteStream_ok (us : List StreamUnit) (h : ∀ u ∈ us, u.1.HeaderValid) :
    ∃ out, writeByteStream us = .ok out := by
  induction us with
  | nil => exact ⟨[], rfl⟩
  | cons u us ih =>
    obtain ⟨out, hout⟩ := ih fun v hv => h v (List.mem_cons_of_mem _ hv)
    exact ⟨_, writeByteStream_cons (h u List.mem_cons_self) hout⟩

/-- A stream that is not at its end goes on with a start code. -/
theorem writeByteStream_prefix {u : StreamUnit} {us : List StreamUnit} {out : List UInt8}
    (h : writeByteStream (u :: us) = .ok out) : ∃ rest, out = startCodePrefix u.2 ++ rest := by
  obtain ⟨nalUnitData, -, h⟩ := bind_eq_ok h
  obtain ⟨out', -, h⟩ := bind_eq_ok h
  cases h
  exact ⟨nalUnitData ++ out', by rw [writeAnnexBNalUnit, List.append_assoc]⟩

theorem delimits_ebsp {nalu : OutputNALUnit} (h : nalu.HeaderValid) (next : List UInt8) :
    Delimits nalu.ebsp next :=
  delimits_of_noStartCode nalu.ebsp (nalu.ebsp_noStartCode h) fun _ hb => nalu.ebsp_last h hb

theorem readNalUnits_ok (us : List StreamUnit) : ∀ {bs : InputByteStream} (stats : AnnexBStats)
    {out : List UInt8}, (∀ u ∈ us, u.1.HeaderValid) → writeByteStream us = .ok out →
    bs.Ahead out → readNalUnits us.length bs stats = expectedCalls us := by
  induction us with
  | nil => exact fun _ _ _ _ _ => rfl
  | cons u us ih =>
    intro bs stats out hvalid hout hahead
    have hu := hvalid u List.mem_cons_self
    have hus : ∀ v ∈ us, v.1.HeaderValid := fun v hv => hvalid v (List.mem_cons_of_mem _ hv)
    obtain ⟨out', hout'⟩ := writeByteStream_ok us hus
    obtain rfl := Except.ok.inj (hout.symm.trans (writeByteStream_cons hu hout'))
    cases us with
    | nil =>
      cases hout'
      rw [List.append_nil] at hahead
      obtain ⟨bs', stats', hbody, -⟩ := byteStreamNALUnit_last (p := ⟨bs, [], stats⟩) rfl hahead
        (delimits_ebsp hu [])
      simp only [List.length_cons, List.length_nil, readNalUnits, byteStreamNALUnit, caught, hbody,
        expectedCalls]
    | cons v us =>
      obtain ⟨rest, rfl⟩ := writeByteStream_prefix hout'
      obtain ⟨bs', stats', hbody, hahead', -⟩ := byteStreamNALUnit_next (p := ⟨bs, [], stats⟩)
        (z := 0) rfl hahead (delimits_ebsp hu _)
      rw [decide_eq_false (lt_irrefl 0), Bool.or_false] at hahead'
      have hrest := ih { stats' with numBytesInNALUnit := u32 u.1.ebsp.length } hus hout' hahead'
      rw [List.length_cons, readNalUnits]
      simp only [byteStreamNALUnit, caught, hbody, expectedCalls]
      rw [hrest]

theorem expectedCalls_nalUnit (us : List StreamUnit) :
    (expectedCalls us).map NalCall.nalUnit = us.map fun u => u.1.ebsp := by
  induction us with
  | nil => rfl
  | cons u us ih =>
    cases us with
    | nil => rfl
    | cons v us => rw [expectedCalls, List.map_cons, ih]; rfl

/-- Every call but the last returns without an exception. -/
theorem expectedCalls_flags {us : List StreamUnit} (hne : us ≠ []) :
    (expectedCalls us).map NalCall.caught = List.replicate (us.length - 1) none ++ [some .eof] ∧
      (expectedCalls us).map NalCall.eof = List.replicate (us.length - 1) false ++ [true] := by
  induction us with
  | nil => exact absurd rfl hne
  | cons u us ih =>
    cases us with
    | nil => exact ⟨rfl, rfl⟩
    | cons v us =>
      obtain ⟨hcaught, heof⟩ := ih (List.cons_ne_nil v us)
      constructor
      · rw [expectedCalls, List.map_cons, hcaught]
        rfl
      · rw [expectedCalls, List.map_cons, heof]
        rfl

/-- **NAL unit round trip.** The calls give the units back, header and payload,
in the order written; only the last one runs into the end of the file. -/
theorem byteStream_roundTrip {us : List StreamUnit} (hne : us ≠ [])
    (hvalid : ∀ u ∈ us, UnitValid u.1) (isVclNalUnit : List UInt8 → Bool) (stats : AnnexBStats) :
    ∃ bytes, writeByteStream us = .ok bytes ∧
      ∃ calls, readNalUnits us.length (.new bytes) stats = calls ∧
        calls.map (fun c =>
            (convertPayloadToRBSP c.nalUnit (isVclNalUnit c.nalUnit)).map Prod.fst) =
          us.map (fun u => .ok (u.1.header ++ u.1.rbsp)) ∧
        calls.map NalCall.caught = List.replicate (us.length - 1) none ++ [some .eof] ∧
        calls.map NalCall.eof = List.replicate (us.length - 1) false ++ [true] := by
  have hheader : ∀ u ∈ us, u.1.HeaderValid := fun u hu => (hvalid u hu).header
  obtain ⟨bytes, hbytes⟩ := writeByteStream_ok us hheader
  refine ⟨bytes, hbytes, _, readNalUnits_ok us stats hheader hbytes (InputByteStream.new_ahead bytes), ?_,
    expectedCalls_flags hne⟩
  have hunits : (expectedCalls us).map (fun c =>
        (convertPayloadToRBSP c.nalUnit (isVclNalUnit c.nalUnit)).map Prod.fst) =
      (us.map fun u => u.1.ebsp).map fun nalUnit =>
        (convertPayloadToRBSP nalUnit (isVclNalUnit nalUnit)).map Prod.fst := by
    rw [← expectedCalls_nalUnit, List.map_map]
    rfl
  rw [hunits, List.map_map]
  refine List.map_congr_left fun u hu => ?_
  rw [Function.comp_apply, convertPayloadToRBSP_ebsp (hheader u hu) (hvalid u hu).payload]
  rfl

/-- A payload that needs escaping, then an empty one. -/
theorem byteStream_roundTrip_two_units :
    ∃ bytes, writeByteStream [(⟨1, 0, 0, [0, 0, 1]⟩, true), (⟨2, 1, 0, []⟩, false)] = .ok bytes ∧
      ∃ calls, readNalUnits 2 (.new bytes) ⟨0, 0, 0, 0, 0⟩ = calls ∧
        calls.map (fun c => (convertPayloadToRBSP c.nalUnit true).map Prod.fst) =
          [.ok [0, 9, 0, 0, 1], .ok [0, 18]] ∧
        calls.map NalCall.caught = [none, some .eof] ∧ calls.map NalCall.eof = [false, true] := by
  refine byteStream_roundTrip (List.cons_ne_nil _ _) ?_ (fun _ => true) ⟨0, 0, 0, 0, 0⟩
  intro u hu
  simp only [List.mem_cons, List.not_mem_nil, or_false] at hu
  rcases hu with rfl | rfl
  · exact ⟨⟨by decide, by decide, by decide⟩, fun b hb => by cases hb; decide⟩
  · exact ⟨⟨by decide, by decide, by decide⟩, fun b hb => by cases hb⟩

end ECM.Nal
