import ECM.Cabac.RoundTrip
import ECM.Nal.RoundTrip
import ECM.Slice.EntryPoints

/-! # Slices from coder to coder

The bytes of the arithmetic coder go behind a slice header, into a NAL unit and into a byte
stream. The units of the stream, cut at their entry points, hold the same bins again. -/

namespace ECM.Slice
open CommonLib CommonLib.Contexts DecoderLib.AnnexBread DecoderLib.NALread EncoderLib.NALwrite
open Lib.Bits Lib.Loop ECM.Cabac ECM.Nal

/-- The calls of the coder, and its contexts before them. -/
structure Substream where
  ctx : CtxStore
  ops : List BinOp

namespace Substream
variable {s : Substream}

/-- Besides what the coder asks for, the sizes in bits have to fit 32 bits. -/
structure Valid (s : Substream) : Prop where
  ctx : s.ctx.Ok
  ops : ∀ op ∈ s.ops, op.Valid ∧ op ≠ .binTrm true
  size : ∀ bytes, encode s.ctx s.ops = .ok bytes → bytes.length < 2 ^ 29

/-- The decoder reads the calls from the bytes, to the last of them. -/
def DecodedFrom (s : Substream) (bytes : List UInt8) : Prop :=
  decode s.ctx bytes (s.ops.map BinOp.kind) = .ok (s.ops.map BinOp.value, true, bytes.length)

theorem Valid.encode_ok (h : s.Valid) : ∃ bytes, encode s.ctx s.ops = .ok bytes ∧ s.DecodedFrom bytes ∧
    bytes ≠ [] ∧ EndsNonzero bytes ∧ bytes.length < 2 ^ 29 := by
  have hops : ∀ op ∈ s.ops, op.Valid := fun op hop => (h.ops op hop).1
  obtain ⟨bytes, henc, hdec⟩ := decode_of_run h.ctx hops h.ops rfl
  obtain ⟨bytes', c, k, henc', hk, hlen, hspell, -⟩ := encode_contains h.ctx hops
  obtain rfl := Except.ok.inj (henc.symm.trans henc')
  refine ⟨bytes, henc, hdec, ?_, ?_, h.size bytes henc⟩
  · rintro rfl
    rw [List.length_nil] at hlen
    omega
  · -- the stop bit is in the last byte
    rintro b hb rfl
    obtain ⟨front, rfl⟩ := List.getLast?_eq_some_iff.mp hb
    rw [ofBytes_concat] at hspell
    interval_cases k <;> simp at hspell <;> omega

end Substream

/-- A slice with the calls for its substreams; `widths` are the reads up to the entry points. -/
structure CodedSlice where
  nalUnitType : ℕ
  temporalId : ℕ
  nuhLayerId : ℕ
  fields : List (ℕ × ℕ)
  widths : List ℕ
  substreams : List Substream

namespace CodedSlice
variable {c : CodedSlice}

def withBytes (c : CodedSlice) (substreams : List (List UInt8)) : SliceNal :=
  ⟨c.nalUnitType, c.temporalId, c.nuhLayerId, c.fields, substreams⟩

def write (c : CodedSlice) : Checked (List UInt8) := do
  let substreams ← c.substreams.mapM fun s => encode s.ctx s.ops
  writeSlice (c.withBytes substreams)

structure Valid (c : CodedSlice) : Prop where
  header : (⟨c.nalUnitType, c.temporalId, c.nuhLayerId, []⟩ : OutputNALUnit).HeaderValid
  fields : ∀ f ∈ c.fields, f.2 ≤ 32 ∧ f.1 < 2 ^ f.2
  widths : ReadsHeader (c.withBytes []) c.widths
  ne_nil : c.substreams ≠ []
  substreams : ∀ s ∈ c.substreams, s.Valid

/-- The unit is cut into substreams, and each is decoded. -/
def ReadFrom (c : CodedSlice) (nalUnit : List UInt8) : Prop :=
  ∃ out, readSlice nalUnit true c.widths (c.substreams.length - 1) = .ok out ∧
    List.Forall₂ Substream.DecodedFrom c.substreams out

theorem Valid.write_ok (h : c.Valid) : ∃ nalu : OutputNALUnit, nalu.HeaderValid ∧ c.write = .ok nalu.ebsp ∧
    (nalu.ebsp.length < 2 ^ 31 → c.ReadFrom nalu.ebsp) := by
  have hcoded := fun s hs => (h.substreams s hs).encode_ok
  choose! bytes henc hdec hne hends hsize using hcoded
  have hvalid : (c.withBytes (c.substreams.map bytes)).Valid := by
    refine ⟨h.header, h.fields, by simpa [withBytes] using h.ne_nil, fun sub hsub => ?_⟩
    obtain ⟨s, hs, rfl⟩ := List.mem_map.mp hsub
    exact ⟨hne s hs, hends s hs⟩
  have hsmall : ∀ sub ∈ c.substreams.map bytes, sub.length < 2 ^ 29 := by
    intro sub hsub
    obtain ⟨s, hs, rfl⟩ := List.mem_map.mp hsub
    exact hsize s hs
  obtain ⟨front, last, hsplit⟩ : ∃ front last, c.substreams.map bytes = front ++ [last] :=
    ⟨_, _, (List.dropLast_concat_getLast hvalid.ne_nil).symm⟩
  have hfront : ∀ sub ∈ front, sub.length < 2 ^ 29 := fun sub hsub =>
    hsmall sub (by rw [hsplit]; exact List.mem_append_left _ hsub)
  have hlast : last.length < 2 ^ 29 := hsmall last (by rw [hsplit]; simp)
  obtain ⟨header, hheader, -, -, hread⟩ := readSlice_eq hvalid hsplit
    (fun sub hsub => (hfront sub hsub).trans (by decide)) h.widths true
  refine ⟨_, hvalid.naluHeader header, ?_, fun hlen => ?_⟩
  · rw [write, mapM_ok henc, ok_bind, writeSlice_ok hvalid hheader]
  · obtain ⟨s, hs, hbyte⟩ := hread hlen
    change AtByte s (c.substreams.map bytes).flatten at hbyte
    rw [hsplit, List.flatten_concat] at hbyte
    refine ⟨c.substreams.map bytes, ?_, List.forall₂_map_right_iff.mpr (List.forall₂_same.mpr hdec)⟩
    rw [show (c.withBytes (c.substreams.map bytes)).substreams.length = c.substreams.length from
      List.length_map _] at hs
    rw [hs, extractSubstreams_ok front hbyte hfront hlast, ← hsplit]

end CodedSlice

/-- Every slice in a NAL unit of its own, behind a start code. -/
def writeStream : List (CodedSlice × Bool) → Checked (List UInt8)
  | [] => .ok []
  | (c, useLongStartcode) :: cs => do
    let nalUnitData ← c.write
    let out ← writeStream cs
    return writeAnnexBNalUnit nalUnitData useLongStartcode ++ out

theorem writeStream_units (cs : List (CodedSlice × Bool)) (h : ∀ c ∈ cs, c.1.Valid) :
    ∃ us : List StreamUnit, (∀ u ∈ us, u.1.HeaderValid) ∧ writeStream cs = writeByteStream us ∧
      List.Forall₂ (fun c u => u.1.ebsp.length < 2 ^ 31 → c.1.ReadFrom u.1.ebsp) cs us := by
  induction cs with
  | nil => exact ⟨[], fun u hu => absurd hu List.not_mem_nil, rfl, .nil⟩
  | cons c cs ih =>
    obtain ⟨us, hus, hwrite, hread⟩ := ih fun d hd => h d (List.mem_cons_of_mem _ hd)
    obtain ⟨nalu, hnalu, hebsp, hslice⟩ := (h c List.mem_cons_self).write_ok
    refine ⟨(nalu, c.2) :: us, List.forall_mem_cons.mpr ⟨hnalu, hus⟩, ?_, .cons hslice hread⟩
    rw [writeStream, writeByteStream, hebsp, writeNaluWithHeader_ok hnalu, hwrite]

/-- **Coded slices.** Every slice that was written to a byte stream is found there again, cut at its
entry points, and decoded to the bins that were coded, whatever the coder put out and had to be escaped. -/
theorem readStream_writeStream {cs : List (CodedSlice × Bool)} (h : ∀ c ∈ cs, c.1.Valid) (stats : AnnexBStats) :
    ∃ bytes, writeStream cs = .ok bytes ∧
      List.Forall₂ (fun c call => call.nalUnit.length < 2 ^ 31 → c.1.ReadFrom call.nalUnit) cs
        (readNalUnits cs.length (.new bytes) stats) := by
  obtain ⟨us, hus, hwrite, hread⟩ := writeStream_units cs h
  obtain ⟨bytes, hbytes⟩ := writeByteStream_ok us hus
  refine ⟨bytes, hwrite.trans hbytes, ?_⟩
  rw [hread.length_eq, readNalUnits_ok us stats hus hbytes (InputByteStream.new_ahead bytes)]
  rw [← List.forall₂_map_right_iff (f := fun u : StreamUnit => u.1.ebsp)
    (R := fun (c : CodedSlice × Bool) nalUnit => nalUnit.length < 2 ^ 31 → c.1.ReadFrom nalUnit),
    ← expectedCalls_nalUnit, List.forall₂_map_right_iff] at hread
  exact hread

end ECM.Slice
