import ECM.Lib.RoundRobin
import ECM.Nal.LookAhead
import ECM.StreamMergeApp.MergeStreams

/-! # Layers of a merged stream

The merger never gets a VPS written, and it writes the layer over the type and the
temporal id of a NAL unit instead of over its layer id. Without a VPS it still ends
after all units were taken in turns. -/

namespace ECM.StreamMerge
open CommonLib CommonLib.BitStream DecoderLib DecoderLib.AnnexBread ECM.Nal
open DecoderLib.BitstreamFile EncoderLib.NALwrite EncoderLib.VLCWriter ECM.StreamMergeApp
open Lib.Bits Lib.Loop Lib.RoundRobin

/-! ## NAL units of the streams -/

/-- A NAL unit behind its start code: a header as `writeNalUnitHeader` writes it, and
a payload that has been escaped. -/
structure LayerUnit where
  longStartcode : Bool
  nuhLayerId : ℕ
  nalUnitType : ℕ
  temporalId : ℕ
  payload : List UInt8
  nuhLayerId_le : nuhLayerId ≤ 55
  nalUnitType_lt : nalUnitType < 32
  temporalId_le : temporalId ≤ 6
  noStartCode : NoStartCode payload
  last : ∀ b, payload.getLast? = some b → b ≠ 0

namespace LayerUnit

/-- The second byte of the header. -/
def typeAndTid (u : LayerUnit) : ℕ := u.nalUnitType * 8 + (u.temporalId + 1)

def type (u : LayerUnit) : NalUnitType := nalUnitTypes.getD u.nalUnitType .INVALID

def file (u : LayerUnit) : FileUnit :=
  ⟨u.longStartcode, .ofNat u.nuhLayerId :: .ofNat u.typeAndTid :: u.payload, 0⟩

/-- What the merger makes of a unit of the stream `i`. -/
def merged (i : ℕ) (u : LayerUnit) : FileUnit :=
  ⟨u.longStartcode, .ofNat u.nuhLayerId :: .ofNat (2 * (i + 1)) :: u.payload, 0⟩

end LayerUnit

/-- Bytes after a byte that is not zero. -/
theorem valid_of_second {long : Bool} {first second : UInt8} {payload : List UInt8} (hsecond : second ≠ 0)
    (hpayload : NoStartCode payload) (hlast : ∀ b, payload.getLast? = some b → b ≠ 0) :
    FileUnit.Valid ⟨long, first :: second :: payload, 0⟩ := by
  have htail : NoStartCode (second :: payload) := NoStartCode.cons_of_ne hsecond hpayload
  refine ⟨?_, fun b hb => ?_⟩
  · by_cases hfirst : first = 0
    · rw [hfirst]
      exact htail.zero_cons hsecond
    · exact NoStartCode.cons_of_ne hfirst htail
  · cases hp : payload.getLast? with
    | none =>
      rw [List.getLast?_eq_none_iff.mp hp] at hb
      cases hb
      exact hsecond
    | some c =>
      rw [List.getLast?_cons_cons, List.getLast?_cons, hp] at hb
      cases hb
      exact hlast _ hp

theorem ofNat_ne_zero {v : ℕ} (hv : 0 < v) (h256 : v < 256) : UInt8.ofNat v ≠ 0 := by
  intro h
  have := congrArg UInt8.toNat h
  rw [UInt8.toNat_ofNat_of_lt' h256, UInt8.toNat_zero] at this
  omega

theorem LayerUnit.typeAndTid_lt (u : LayerUnit) : u.typeAndTid < 256 := by
  have htype := u.nalUnitType_lt
  have htid := u.temporalId_le
  rw [typeAndTid]
  omega

theorem LayerUnit.file_valid (u : LayerUnit) : u.file.Valid :=
  valid_of_second (ofNat_ne_zero (Nat.succ_pos _) u.typeAndTid_lt) u.noStartCode u.last

theorem LayerUnit.merged_valid {i : ℕ} (hi : i < 56) (u : LayerUnit) : (u.merged i).Valid :=
  valid_of_second (ofNat_ne_zero (by omega) (by omega)) u.noStartCode u.last

/-! ## The header -/

theorem ofFifo_at (fifo : List UInt8) : (InputBitstream.ofFifo fifo).At fifo [] (bytesBits fifo) :=
  ⟨rfl, rfl, Nat.zero_lt_succ 7, Nat.zero_le _, rfl⟩

/-- `read2`, on two bytes of which the first has only six bits. -/
theorem read2_ok {first second : ℕ} (hfirst : first < 64) (hsecond : second < 256)
    (payload : List UInt8) : ∃ bs, read2 (.ofNat first :: .ofNat second :: payload) =
      .ok ⟨nalUnitTypes.getD (second / 8) .INVALID, sub32 (second % 8) 1, first, bs⟩ := by
  have hbits : bytesBits (.ofNat first :: .ofNat second :: payload) =
      toBits 1 0 ++ (toBits 1 0 ++ (toBits 6 first ++ (toBits 5 (second / 8) ++
        (toBits 3 (second % 8) ++ bytesBits payload)))) := by
    have h₁ : toBits (1 + (1 + 6)) first = toBits 1 0 ++ (toBits 1 0 ++ toBits 6 first) := by
      rw [toBits_add, toBits_add, Nat.div_eq_of_lt (show first < 2 ^ (1 + 6) by omega),
        Nat.div_eq_of_lt (show first < 2 ^ 6 by omega)]
    have h₂ : toBits (5 + 3) second = toBits 5 (second / 8) ++ toBits 3 (second % 8) := by
      rw [toBits_add]
      exact congrArg _ (toBits_mod 3 second).symm
    rw [bytesBits_cons, bytesBits_cons, byteBits_ofNat, byteBits_ofNat, h₁, h₂]
    simp only [List.append_assoc]
  have hstart := ofFifo_at (.ofNat first :: .ofNat second :: payload)
  rw [hbits] at hstart
  obtain ⟨s₁, hs₁, h₁⟩ := hstart.read_toBits (show 1 ≤ 32 by decide) (by decide)
  obtain ⟨s₂, hs₂, h₂⟩ := h₁.read_toBits (show 1 ≤ 32 by decide) (by decide)
  obtain ⟨s₃, hs₃, h₃⟩ := h₂.read_toBits (show 6 ≤ 32 by decide) hfirst
  obtain ⟨s₄, hs₄, h₄⟩ := h₃.read_toBits (show 5 ≤ 32 by decide) (show second / 8 < 2 ^ 5 by omega)
  obtain ⟨s₅, hs₅, -⟩ := h₄.read_toBits (show 3 ≤ 32 by decide) (show second % 8 < 2 ^ 3 by omega)
  refine ⟨s₅, ?_⟩
  rw [read2]
  dsimp only
  rw [hs₁, ok_bind, hs₂, ok_bind, hs₃, ok_bind, hs₄, ok_bind, hs₅]
  rfl

/-! ## The VPS -/

variable {PTL : Type} {codeProfileTierLevel : PTL → Bool → ℤ → WriteM Unit}
  {codeParameters : VPS → WriteM Unit} {n : ℕ}

/-- `codeVPS` throws on the VPS of the merger: for one stream there is no profile,
tier and level, for more the number of output layer sets is still zero. -/
theorem codeVPS_mergeVPS (hn : 1 ≤ n) (s : OutputBitstream) (r : Unit × OutputBitstream) :
    codeVPS codeProfileTierLevel codeParameters (mergeVPS n) (.new PTL) s ≠ .ok r := by
  intro h
  obtain ⟨_, s₁, -, h⟩ := write_bind_eq_ok h
  obtain ⟨_, s₂, holss, h⟩ := write_bind_eq_ok h
  obtain ⟨_, s₃, -, h⟩ := write_bind_eq_ok h
  obtain ⟨_, s₄, -, h⟩ := write_bind_eq_ok h
  obtain ⟨_, s₅, hptl, -⟩ := write_bind_eq_ok h
  obtain rfl | hlt := Nat.eq_or_lt_of_le hn
  · cases hptl
  · have hmax : (mergeVPS n).m_uiMaxLayers > 1 := hlt
    rw [writeOlss, if_pos hmax] at holss
    obtain ⟨_, t₁, -, holss⟩ := write_bind_eq_ok holss
    obtain ⟨_, t₂, hcheck, -⟩ := write_bind_eq_ok holss
    cases hcheck

/-! ## One stream -/

/-- The file before the units `us`, all that is left of its stream. -/
def Holds (f : BitstreamFile) : List LayerUnit → Prop
  | [] => f.failed = true ∨ f.bytestream.Ahead []
  | u :: us => Stands f u.longStartcode u.file (us.map LayerUnit.file)

theorem holds_ofBytes (us : List LayerUnit) : Holds (.ofBytes (fileBytes (us.map LayerUnit.file))) us := by
  cases us with
  | nil => exact .inr (InputByteStream.new_ahead [])
  | cons u us =>
    refine stands_ofBytes fun v hv => ?_
    rw [← List.map_cons (f := LayerUnit.file)] at hv
    obtain ⟨w, -, rfl⟩ := List.mem_map.mp hv
    exact w.file_valid

variable {f : BitstreamFile} {u : LayerUnit} {us : List LayerUnit} {i : ℕ}

theorem Holds.next (h : Holds f (u :: us)) : Holds f.nextNalUnit.2 us := by
  cases us with
  | nil => exact .inl (Stands.last h)
  | cons v us =>
    obtain ⟨hnext, -, -⟩ := Stands.following h
    rwa [show (u.file).trailingZeros = 0 from rfl, decide_eq_false (Nat.lt_irrefl 0),
      Bool.or_false] at hnext

/-- After a round: a file with nothing left has failed. -/
def Left (f : BitstreamFile) (us : List LayerUnit) : Prop := Holds f us ∧ (us = [] → f.failed = true)

theorem Holds.left (h : Holds f (u :: us)) : Left f.nextNalUnit.2 us := by
  refine ⟨h.next, fun hus => ?_⟩
  subst hus
  exact Stands.last h

theorem startBytes_of_holds (h : Holds f (u :: us)) :
    (byteStreamNALUnit ⟨f.bytestream, [], noStats⟩).2.stats.startBytes =
      (startCodePrefix u.longStartcode).length := by
  rw [byteStreamNALUnit_startBytes (Stands.onFile h).ahead]
  exact Nat.zero_add _

theorem startCode_eq {stats : AnnexBStats} {long : Bool}
    (h : stats.startBytes = (startCodePrefix long).length) : startCode stats = startCodePrefix long := by
  rw [startCode, h]
  cases long <;> rfl

/-- The header of a unit. -/
theorem read2_file (u : LayerUnit) :
    ∃ bs, read2 u.file.nalUnit = .ok ⟨u.type, u.temporalId, u.nuhLayerId, bs⟩ := by
  have hlayer := u.nuhLayerId_le
  have htype := u.nalUnitType_lt
  have htid := u.temporalId_le
  obtain ⟨bs, hread⟩ := read2_ok (show u.nuhLayerId < 64 by omega) u.typeAndTid_lt u.payload
  have hdiv : u.typeAndTid / 8 = u.nalUnitType := by
    rw [LayerUnit.typeAndTid]
    omega
  have hmod : u.typeAndTid % 8 = u.temporalId + 1 := by
    rw [LayerUnit.typeAndTid]
    omega
  rw [hdiv, hmod, sub32_of_le (Nat.le_add_left 1 _) (by omega), Nat.add_sub_cancel] at hread
  exact ⟨bs, hread⟩

theorem layerByte_eq (hi : i < 56) :
    UInt8.ofNat (((layerId i + 1) <<< 1) &&& 0xff) = .ofNat (2 * (i + 1)) := by
  have hand : ((i + 1) <<< 1) &&& 0xff = ((i + 1) <<< 1) % 2 ^ 8 := Nat.and_two_pow_sub_one_eq_mod _ 8
  rw [layerId, if_pos (by omega), hand, Nat.shiftLeft_eq]
  congr 1
  omega

variable (codeProfileTierLevel codeParameters n)

/-- A unit that is no VPS goes to the output with its second byte overwritten. -/
theorem mergeStream_unit (hi : i < 56) (h : Holds f (u :: us)) (hvps : u.type ≠ .VPS) :
    mergeStream codeProfileTierLevel codeParameters n i f =
      .ok (f.nextNalUnit.2, startCodePrefix u.longStartcode ++ (u.merged i).nalUnit,
        f.nextNalUnit.2.failed) := by
  have hunit : (byteStreamNALUnit ⟨f.bytestream, [], noStats⟩).2.nalUnit = u.file.nalUnit :=
    Stands.unit h rfl
  have hcode := startCode_eq (startBytes_of_holds h)
  obtain ⟨bs, hread⟩ := read2_file u
  have hne : u.file.nalUnit ≠ [] := List.cons_ne_nil _ _
  have hwrite : writeAt u.file.nalUnit 1 (.ofNat (((layerId i + 1) <<< 1) &&& 0xff)) =
      .ok (u.merged i).nalUnit := by
    rw [layerByte_eq hi]
    rfl
  rw [mergeStream]
  dsimp only
  rw [hunit, if_neg hne, hread, ok_bind, if_neg hvps, hwrite, ok_bind, hcode]
  rfl

/-- A VPS is not written. -/
theorem mergeStream_VPS (hn : 1 ≤ n) (h : Holds f (u :: us)) (hvps : u.type = .VPS)
    (r : BitstreamFile × List UInt8 × Bool) :
    mergeStream codeProfileTierLevel codeParameters n i f ≠ .ok r := by
  have hunit : (byteStreamNALUnit ⟨f.bytestream, [], noStats⟩).2.nalUnit = u.file.nalUnit :=
    Stands.unit h rfl
  obtain ⟨bs, hread⟩ := read2_file u
  have hne : u.file.nalUnit ≠ [] := List.cons_ne_nil _ _
  intro hrun
  rw [mergeStream] at hrun
  dsimp only at hrun
  rw [hunit, if_neg hne, hread, ok_bind, if_pos hvps] at hrun
  obtain ⟨bytes, hbytes, -⟩ := bind_eq_ok hrun
  obtain ⟨_, -, hbytes⟩ := bind_eq_ok hbytes
  obtain ⟨_, -, hbytes⟩ := bind_eq_ok hbytes
  obtain ⟨_, -, hbytes⟩ := bind_eq_ok hbytes
  obtain ⟨_, -, hbytes⟩ := bind_eq_ok hbytes
  obtain ⟨_, -, hbytes⟩ := bind_eq_ok hbytes
  obtain ⟨_, hcode, -⟩ := bind_eq_ok hbytes
  exact codeVPS_mergeVPS hn _ _ hcode

/-- An empty file fails, and nothing is written. -/
theorem mergeStream_empty (hahead : f.bytestream.Ahead []) :
    mergeStream codeProfileTierLevel codeParameters n i f = .ok (f.nextNalUnit.2, [], true) ∧
      f.nextNalUnit.2.failed = true := by
  obtain ⟨bs, hbody, hbs⟩ := byteStreamNALUnit_eof (p := f.call) hahead
  have hlen := hbs.length
  rw [List.length_nil] at hlen
  have hfailed : f.nextNalUnit.2.failed = true := by
    rw [nextNalUnit_error hbody]
    simp only [Bool.or_eq_true, decide_eq_true_iff]
    exact .inr (by omega)
  have hunit : (byteStreamNALUnit ⟨f.bytestream, [], noStats⟩).2.nalUnit = [] := by
    change f.nextNalUnit.1 = []
    rw [nextNalUnit_error hbody]
    rfl
  refine ⟨?_, hfailed⟩
  rw [mergeStream]
  dsimp only
  rw [hunit, if_pos rfl, hfailed]
  rfl

/-! ## Rounds -/

/-- The number of files that have not failed. -/
def valid (files : List BitstreamFile) : ℕ := files.countP fun f => !f.failed

def outUnits (taken : List (ℕ × LayerUnit)) : List FileUnit := taken.map fun p => p.2.merged p.1

theorem fileBytes_append (us vs : List FileUnit) : fileBytes (us ++ vs) = fileBytes us ++ fileBytes vs := by
  induction us with
  | nil => rfl
  | cons u us ih =>
    rw [List.cons_append, fileBytes, ih, fileBytes, List.append_assoc, List.append_assoc]

/-- What a call for the stream `i` does: the first unit goes out unless it is a VPS. -/
theorem stream_spec (hn : 1 ≤ n) (hi : i < 56) (h : Holds f us) :
    (∃ f' bytes ended, (if f.failed then .ok (f, [], false)
        else mergeStream codeProfileTierLevel codeParameters n i f :
          Checked (BitstreamFile × List UInt8 × Bool)) = .ok (f', bytes, ended) ∧
      (∀ u ∈ us.head?, u.type ≠ .VPS) ∧ Left f' us.tail ∧
      bytes = fileBytes (outUnits (heads i [us])) ∧ valid [f'] + ended.toNat = valid [f]) ∨
    (∃ u ∈ us.head?, u.type = .VPS) ∧ ∀ r, (if f.failed then .ok (f, [], false)
        else mergeStream codeProfileTierLevel codeParameters n i f :
          Checked (BitstreamFile × List UInt8 × Bool)) ≠ .ok r := by
  have hvalid : ∀ f' : BitstreamFile, f.failed = false →
      valid [f'] + f'.failed.toNat = valid [f] := by
    intro f' hgood
    rw [valid, valid, List.countP_singleton, List.countP_singleton, hgood]
    cases f'.failed <;> rfl
  cases us with
  | nil =>
    refine .inl ?_
    cases hfailed : f.failed with
    | true =>
      exact ⟨f, [], false, if_pos rfl, (by intro _ hu; cases hu), ⟨.inl hfailed, fun _ => hfailed⟩, rfl, rfl⟩
    | false =>
      rcases h with h | h
      · rw [hfailed] at h
        cases h
      · obtain ⟨hrun, hnext⟩ := mergeStream_empty codeProfileTierLevel codeParameters n (i := i) h
        have hended := hvalid f.nextNalUnit.2 hfailed
        rw [hnext] at hended
        exact ⟨_, _, _, hrun, (by intro _ hu; cases hu), ⟨.inl hnext, fun _ => hnext⟩, rfl, hended⟩
  | cons u us =>
    have hgood : f.failed = false := Stands.good h
    rw [hgood]
    by_cases hvps : u.type = .VPS
    · exact .inr ⟨⟨u, rfl, hvps⟩, fun r => mergeStream_VPS codeProfileTierLevel codeParameters n hn h hvps r⟩
    · refine .inl ⟨_, _, _, mergeStream_unit codeProfileTierLevel codeParameters n hi h hvps,
        fun v hv => by cases hv; exact hvps, h.left, ?_, hvalid _ hgood⟩
      change _ = startCodePrefix u.longStartcode ++ (((u.merged i).nalUnit ++ []) ++ [])
      rw [List.append_nil, List.append_nil]

variable {codeProfileTierLevel codeParameters n}

theorem heads_cons (i : ℕ) (us : List LayerUnit) (streams : List (List LayerUnit)) :
    heads i (us :: streams) = heads i [us] ++ heads (i + 1) streams := by
  cases us <;> rfl

variable (codeProfileTierLevel codeParameters n) in
/-- A round in which no stream has a VPS next takes the next unit of each. -/
theorem mergeRound_total (hn : 1 ≤ n) : ∀ {i : ℕ} {files : List BitstreamFile}
    {streams : List (List LayerUnit)}, i + streams.length ≤ 56 → List.Forall₂ Holds files streams →
    (∀ us ∈ streams, ∀ u ∈ us.head?, u.type ≠ .VPS) →
    ∃ r, mergeRound codeProfileTierLevel codeParameters n i files = .ok r
  | i, _, _, _, .nil, _ => ⟨_, rfl⟩
  | i, f :: files, us :: streams, h56, .cons h hs, hvps => by
    rw [List.length_cons] at h56
    rcases stream_spec codeProfileTierLevel codeParameters n hn (show i < 56 by omega) h with
      ⟨f', bytes, ended, hrun, -⟩ | ⟨⟨u, hu, htype⟩, -⟩
    · obtain ⟨⟨files', bytes', numEnded⟩, hrest⟩ := mergeRound_total hn (i := i + 1) (by omega) hs
        fun vs hvs => hvps vs (List.mem_cons_of_mem _ hvs)
      refine ⟨(f' :: files', bytes ++ bytes', ended.toNat + numEnded), ?_⟩
      rw [mergeRound, hrun, ok_bind, hrest]
      rfl
    · exact absurd htype (hvps us List.mem_cons_self u hu)

/-- What a round does. -/
theorem mergeRound_spec (hn : 1 ≤ n) : ∀ {i : ℕ} {files files' : List BitstreamFile}
    {streams : List (List LayerUnit)} {bytes : List UInt8} {numEnded : ℕ},
    i + streams.length ≤ 56 → List.Forall₂ Holds files streams →
    mergeRound codeProfileTierLevel codeParameters n i files = .ok (files', bytes, numEnded) →
    (∀ us ∈ streams, ∀ u ∈ us.head?, u.type ≠ .VPS) ∧
      List.Forall₂ Left files' (streams.map List.tail) ∧
      bytes = fileBytes (outUnits (heads i streams)) ∧ valid files' + numEnded = valid files
  | i, _, _, _, _, _, _, .nil, hrun => by
    cases hrun
    exact ⟨fun us hus => absurd hus List.not_mem_nil, .nil, rfl, rfl⟩
  | i, f :: files, _, us :: streams, _, _, h56, .cons h hs, hrun => by
    rw [List.length_cons] at h56
    rw [mergeRound] at hrun
    obtain ⟨⟨f', bytes, ended⟩, hstream, hrun⟩ := bind_eq_ok hrun
    obtain ⟨⟨files', bytes', numEnded⟩, hround, hrun⟩ := bind_eq_ok hrun
    cases hrun
    obtain ⟨hvps', hholds', rfl, hvalid'⟩ := mergeRound_spec hn (i := i + 1) (by omega) hs hround
    rcases stream_spec codeProfileTierLevel codeParameters n hn (show i < 56 by omega) h with
      ⟨g, out, ended, hrun, hvps, hholds, rfl, hvalid⟩ | ⟨-, herror⟩
    · cases hstream.symm.trans hrun
      refine ⟨fun vs hvs => ?_, .cons hholds hholds', ?_, ?_⟩
      · rcases List.mem_cons.mp hvs with rfl | hvs
        · exact hvps
        · exact hvps' vs hvs
      · rw [heads_cons i us streams, outUnits, outUnits, outUnits, List.map_append, fileBytes_append]
      · rw [valid, List.countP_singleton] at hvalid
        rw [valid, List.countP_singleton] at hvalid
        rw [valid, List.countP_cons]
        change List.countP _ files' + _ + _ = List.countP _ (f :: files)
        rw [List.countP_cons]
        rw [valid, valid] at hvalid'
        omega
    · exact absurd hstream (herror _)

/-! ## The whole run -/

theorem failed_of_valid : ∀ {files : List BitstreamFile}, valid files = 0 → ∀ f ∈ files, f.failed = true := by
  intro files h f hf
  have hnone := List.countP_eq_zero.mp h f hf
  simpa using hnone

/-- When all files have failed nothing is left. -/
theorem nil_of_failed {files : List BitstreamFile} {streams : List (List LayerUnit)}
    (h : List.Forall₂ Holds files streams) (hfailed : ∀ f ∈ files, f.failed = true) :
    ∀ us ∈ streams, us = [] := by
  induction h with
  | nil => exact fun us hus => absurd hus List.not_mem_nil
  | @cons f us files streams hf hs ih =>
    intro vs hvs
    rcases List.mem_cons.mp hvs with rfl | hvs
    · cases vs with
      | nil => rfl
      | cons u us =>
        have hgood : f.failed = false := Stands.good hf
        rw [hfailed f List.mem_cons_self] at hgood
        cases hgood
    · exact ih (fun g hg => hfailed g (List.mem_cons_of_mem _ hg)) vs hvs

/-- No unit of the streams is a VPS. -/
def NoVPS (streams : List (List LayerUnit)) : Prop := ∀ us ∈ streams, ∀ u ∈ us, u.type ≠ .VPS

theorem NoVPS.head {streams : List (List LayerUnit)} (h : NoVPS streams) :
    ∀ us ∈ streams, ∀ u ∈ us.head?, u.type ≠ .VPS :=
  fun us hus u hu => h us hus u (List.mem_of_mem_head? hu)

theorem NoVPS.tail {streams : List (List LayerUnit)} (h : NoVPS streams) : NoVPS (streams.map List.tail) := by
  intro vs hvs u hu
  obtain ⟨us, hus, rfl⟩ := List.mem_map.mp hvs
  exact h us hus u (List.mem_of_mem_tail hu)

theorem NoVPS.of_step {streams : List (List LayerUnit)}
    (hhead : ∀ us ∈ streams, ∀ u ∈ us.head?, u.type ≠ .VPS)
    (htail : NoVPS (streams.map List.tail)) : NoVPS streams := by
  intro us hus u hu
  cases us with
  | nil => cases hu
  | cons v us =>
    rcases List.mem_cons.mp hu with rfl | hu
    · exact hhead _ hus u rfl
    · exact htail us (List.mem_map.mpr ⟨_, hus, rfl⟩) u hu

theorem merge_eq_nil {streams : List (List LayerUnit)} (h : ∀ us ∈ streams, us = []) : merge streams = [] :=
  turns_eq_nil _ h

/-- A run that ends has met no VPS, and has written all units in turns. -/
theorem mergeLoop_spec (hn : 1 ≤ n) : ∀ {fuel : ℕ} {files : List BitstreamFile}
    {streams : List (List LayerUnit)} {written out : List UInt8},
    streams.length ≤ 56 → List.Forall₂ Holds files streams →
    mergeLoop codeProfileTierLevel codeParameters n fuel (valid files) files written = .ok (some out) →
    NoVPS streams ∧ out = written ++ fileBytes (outUnits (merge streams))
  | 0, _, _, _, _, _, _, hrun => by cases hrun
  | fuel + 1, files, streams, written, out, h56, h, hrun => by
    rw [mergeLoop] at hrun
    by_cases hzero : (valid files : ℤ) = 0
    · rw [if_pos hzero] at hrun
      cases hrun
      have hnil := nil_of_failed h (failed_of_valid (Int.natCast_eq_zero.mp hzero))
      refine ⟨fun us hus u hu => ?_, ?_⟩
      · rw [hnil us hus] at hu
        cases hu
      · rw [merge_eq_nil hnil]
        exact (List.append_nil _).symm
    · rw [if_neg hzero] at hrun
      obtain ⟨⟨files', bytes, numEnded⟩, hround, hrun⟩ := bind_eq_ok hrun
      obtain ⟨hvps, hleft, rfl, hvalid⟩ := mergeRound_spec hn (i := 0) (by omega) h hround
      have hcount : (valid files : ℤ) - numEnded = valid files' := by omega
      dsimp only at hrun
      rw [hcount] at hrun
      obtain ⟨htail, rfl⟩ := mergeLoop_spec hn (by rw [List.length_map]; exact h56)
        (hleft.imp fun _ _ hholds => hholds.1) hrun
      refine ⟨NoVPS.of_step hvps htail, ?_⟩
      rw [merge_step streams, outUnits, outUnits, outUnits, List.map_append, fileBytes_append,
        List.append_assoc]

theorem valid_eq_zero {files : List BitstreamFile} {streams : List (List LayerUnit)}
    (h : List.Forall₂ Left files streams) (hnil : ∀ us ∈ streams, us = []) : valid files = 0 := by
  induction h with
  | nil => rfl
  | @cons f us files streams hf hs ih =>
    have hfailed := hf.2 (hnil us List.mem_cons_self)
    have hrest := ih fun vs hvs => hnil vs (List.mem_cons_of_mem _ hvs)
    rw [valid] at hrest
    rw [valid, List.countP_cons, hrest, hfailed]
    rfl

/-- A run ends if it ends from the second round on. -/
theorem mergeLoop_first (hn : 1 ≤ n) {files : List BitstreamFile} {streams : List (List LayerUnit)}
    (written : List UInt8) (h56 : streams.length ≤ 56) (h : List.Forall₂ Holds files streams)
    (hvps : NoVPS streams)
    (hrest : ∀ files' written', List.Forall₂ Left files' (streams.map List.tail) → ∃ fuel out,
      mergeLoop codeProfileTierLevel codeParameters n fuel (valid files') files' written' =
        .ok (some out)) :
    ∃ fuel out, mergeLoop codeProfileTierLevel codeParameters n fuel (valid files) files written =
      .ok (some out) := by
  obtain ⟨⟨files', bytes, numEnded⟩, hround⟩ := mergeRound_total codeProfileTierLevel codeParameters n
    hn (i := 0) (by omega) h hvps.head
  obtain ⟨-, hleft, -, hvalid⟩ := mergeRound_spec hn (i := 0) (by omega) h hround
  obtain ⟨fuel, out, hrun⟩ := hrest files' (written ++ bytes) hleft
  by_cases hzero : (valid files : ℤ) = 0
  · exact ⟨1, written, by rw [mergeLoop, if_pos hzero]; rfl⟩
  · refine ⟨fuel + 1, out, ?_⟩
    have hcount : (valid files : ℤ) - numEnded = valid files' := by omega
    rw [mergeLoop, if_neg hzero, hround, ok_bind]
    dsimp only
    rw [hcount]
    exact hrun

/-- A run without a VPS ends: each round leaves one unit less in the longest stream. -/
theorem mergeLoop_total (hn : 1 ≤ n) : ∀ (r : ℕ) {files : List BitstreamFile}
    {streams : List (List LayerUnit)} (written : List UInt8),
    rounds streams = r → streams.length ≤ 56 → List.Forall₂ Left files streams → NoVPS streams →
    ∃ fuel out, mergeLoop codeProfileTierLevel codeParameters n fuel (valid files) files written =
      .ok (some out)
  | 0, files, streams, written, hrounds, _, h, _ => by
    have hzero : (valid files : ℤ) = 0 := by
      rw [valid_eq_zero h (eq_nil_of_rounds hrounds)]
      rfl
    exact ⟨1, written, by rw [mergeLoop, if_pos hzero]; rfl⟩
  | r + 1, files, streams, written, hrounds, h56, h, hvps => by
    refine mergeLoop_first hn written h56 (h.imp fun _ _ hleft => hleft.1) hvps
      fun files' written' hleft => ?_
    refine mergeLoop_total hn r written' ?_ (by rw [List.length_map]; exact h56) hleft hvps.tail
    rw [rounds_tail, hrounds, Nat.add_sub_cancel]

theorem valid_ofBytes (files : List (List UInt8)) : valid (files.map .ofBytes) = files.length := by
  rw [valid, List.countP_eq_length.mpr, List.length_map]
  intro f hf
  obtain ⟨bytes, -, rfl⟩ := List.mem_map.mp hf
  rfl

/-- The bytes of the streams. -/
def streamBytes (streams : List (List LayerUnit)) : List (List UInt8) :=
  streams.map fun us => fileBytes (us.map LayerUnit.file)

theorem holds_streamBytes (streams : List (List LayerUnit)) :
    List.Forall₂ Holds ((streamBytes streams).map .ofBytes) streams := by
  rw [streamBytes, List.map_map, List.forall₂_map_left_iff, List.forall₂_same]
  exact fun us _ => holds_ofBytes us

variable {streams : List (List LayerUnit)}

/-- `mergeStreams` ends if and only if there is no VPS. -/
theorem mergeStreams_spec (h1 : 1 ≤ streams.length) (h56 : streams.length ≤ 56) :
    (∀ fuel out, mergeStreams codeProfileTierLevel codeParameters fuel (streamBytes streams) =
        .ok (some out) → NoVPS streams ∧ out = fileBytes (outUnits (merge streams))) ∧
      (NoVPS streams → ∃ fuel out, mergeStreams codeProfileTierLevel codeParameters fuel
        (streamBytes streams) = .ok (some out)) := by
  have hlen : (streamBytes streams).length = streams.length := List.length_map ..
  have hvalid : valid ((streamBytes streams).map .ofBytes) = (streamBytes streams).length :=
    valid_ofBytes _
  constructor
  · intro fuel out hrun
    rw [mergeStreams, ← hvalid] at hrun
    obtain ⟨hvps, hout⟩ := mergeLoop_spec (by rw [hvalid, hlen]; exact h1) h56
      (holds_streamBytes streams) hrun
    exact ⟨hvps, hout⟩
  · intro hvps
    obtain ⟨fuel, out, hrun⟩ : ∃ fuel out, mergeLoop codeProfileTierLevel codeParameters (streamBytes streams).length
        fuel (valid ((streamBytes streams).map .ofBytes)) ((streamBytes streams).map .ofBytes) [] = .ok (some out) :=
      mergeLoop_first (by rw [hlen]; exact h1) [] h56 (holds_streamBytes streams) hvps fun files' written' hleft =>
        mergeLoop_total (by rw [hlen]; exact h1) _ written' rfl (by rw [List.length_map]; exact h56)
          hleft hvps.tail
    rw [hvalid] at hrun
    exact ⟨fuel, out, hrun⟩

/-! ## Reading the output -/

/-- The units that `fuel` calls find; a call that finds none counts for nothing. -/
def readUnits : (fuel : ℕ) → BitstreamFile → List (List UInt8)
  | 0, _ => []
  | fuel + 1, f =>
    if f.failed then []
    else (if f.nextNalUnit.1 = [] then [] else [f.nextNalUnit.1]) ++ readUnits fuel f.nextNalUnit.2

/-- The NAL units of a file, as `byteStreamNALUnit` reads them. -/
def nalUnitsOf (bytes : List UInt8) : List (List UInt8) := readUnits (bytes.length + 1) (.ofBytes bytes)

theorem readUnits_stands : ∀ {fuel : ℕ} {f : BitstreamFile} {u : FileUnit} {us : List FileUnit} {long : Bool},
    us.length + 1 < fuel → Stands f long u us → (∀ v ∈ u :: us, v.trailingZeros = 0 ∧ v.nalUnit ≠ []) →
    readUnits fuel f = (u :: us).map FileUnit.nalUnit
  | fuel + 1, f, u, us, long, hfuel, h, hplain => by
    obtain ⟨hzeros, hne⟩ := hplain u List.mem_cons_self
    rw [readUnits, h.good, h.unit hzeros, if_neg hne]
    cases us with
    | nil =>
      cases fuel with
      | zero => exact absurd hfuel (by decide)
      | succ fuel =>
        rw [readUnits, h.last]
        rfl
    | cons v us =>
      have hrest := readUnits_stands (Nat.lt_of_succ_lt_succ hfuel) h.following.1
        fun w hw => hplain w (List.mem_cons_of_mem _ hw)
      rw [hrest]
      rfl

theorem length_le_fileBytes (us : List FileUnit) : us.length ≤ (fileBytes us).length := by
  induction us with
  | nil => exact Nat.le_refl 0
  | cons u us ih =>
    have hcode : 1 ≤ (startCodePrefix u.longStartcode).length := by
      cases u.longStartcode <;> decide
    rw [fileBytes, List.length_append, List.length_append, List.length_cons]
    omega

/-- Units without zeros behind them are read back. -/
theorem nalUnitsOf_fileBytes {us : List FileUnit} (hvalid : ∀ u ∈ us, u.Valid)
    (hplain : ∀ u ∈ us, u.trailingZeros = 0 ∧ u.nalUnit ≠ []) :
    nalUnitsOf (fileBytes us) = us.map FileUnit.nalUnit := by
  cases us with
  | nil => rfl
  | cons u us =>
    refine readUnits_stands ?_ (stands_ofBytes hvalid) hplain
    have hlen := length_le_fileBytes us
    have hcode : 1 ≤ (startCodePrefix u.longStartcode).length := by
      cases u.longStartcode <;> decide
    rw [fileBytes, List.length_append, List.length_append]
    omega

theorem nalUnitsOf_merged (h56 : streams.length ≤ 56) :
    nalUnitsOf (fileBytes (outUnits (merge streams))) =
      (merge streams).map fun p => (p.2.merged p.1).nalUnit := by
  rw [nalUnitsOf_fileBytes, outUnits, List.map_map]
  · rfl
  · intro v hv
    obtain ⟨p, hp, rfl⟩ := List.mem_map.mp hv
    have hlt := (interleaves_merge streams).inside p hp
    exact p.2.merged_valid (by omega)
  · intro v hv
    obtain ⟨p, -, rfl⟩ := List.mem_map.mp hv
    exact ⟨rfl, List.cons_ne_nil _ _⟩

/-! ## Layers -/

/-- The unit `nalUnit` of the output stands for the unit `u` of the stream `k`. -/
def Carries (k : ℕ) (u : LayerUnit) (nalUnit : List UInt8) : Prop :=
  ∃ nalu, read2 nalUnit = .ok nalu ∧ nalu.m_nuhLayerId = layerId k ∧
    if u.type = .VPS then nalu.m_nalUnitType = .VPS ∧ NoStartCode nalUnit
    else nalu.m_nalUnitType = u.type ∧ nalu.m_temporalId = u.temporalId ∧ nalUnit.drop 2 = u.payload

variable (codeProfileTierLevel codeParameters streams) in
/-- The merger ends, and its output has the units of the streams, each once, in the
layers of their streams. -/
def PreservesLayers : Prop :=
  ∃ fuel out, mergeStreams codeProfileTierLevel codeParameters fuel (streamBytes streams) =
      .ok (some out) ∧
    ∃ order, Interleaves order streams ∧
      List.Forall₂ (fun p nalUnit => Carries p.1 p.2 nalUnit) order (nalUnitsOf out)

/-- What the merger makes of the second unit is what the first one should become. -/
structure Becomes (p q : ℕ × LayerUnit) : Prop where
  payload : q.2.payload = p.2.payload
  layer : q.2.nuhLayerId = p.1
  typeAndTid : p.2.typeAndTid = 2 * (q.1 + 1)

theorem nalUnitTypes_inj : ∀ s < 32, ∀ t < 32,
    nalUnitTypes.getD s .INVALID = nalUnitTypes.getD t .INVALID → s = t := by decide

theorem carries_merged {p q : ℕ × LayerUnit} (hp : p.1 < 56) (hq : q.1 < 56) (hvps : p.2.type ≠ .VPS) :
    Carries p.1 p.2 ((q.2.merged q.1).nalUnit) ↔ Becomes p q := by
  obtain ⟨k, u⟩ := p
  obtain ⟨j, v⟩ := q
  have hlayer := v.nuhLayerId_le
  have htype := u.nalUnitType_lt
  have htid := u.temporalId_le
  obtain ⟨bs, hread⟩ := read2_ok (show v.nuhLayerId < 64 by omega)
    (show 2 * (j + 1) < 256 by dsimp only at hq; omega) v.payload
  have hk : layerId k = k := if_pos (by dsimp only at hp; omega)
  have hsub : sub32 (2 * (j + 1) % 8) 1 = u.temporalId ↔ 2 * (j + 1) % 8 = u.temporalId + 1 := by
    rw [sub32, u32]
    omega
  constructor
  · rintro ⟨nalu, hnalu, hid, hrest⟩
    cases hnalu.symm.trans hread
    rw [if_neg hvps] at hrest
    obtain ⟨ht, hτ, hpayload⟩ := hrest
    have hdiv := nalUnitTypes_inj _ (by dsimp only at hq; omega) _ htype ht
    have hmod := hsub.mp hτ
    refine ⟨hpayload, hid.trans hk, ?_⟩
    rw [LayerUnit.typeAndTid, ← hdiv, ← hmod]
    dsimp only
    omega
  · rintro ⟨hpayload, hid, heq⟩
    dsimp only at hpayload hid heq
    rw [LayerUnit.typeAndTid] at heq
    have hdiv : 2 * (j + 1) / 8 = u.nalUnitType := by omega
    refine ⟨_, hread, hid.trans hk.symm, ?_⟩
    rw [if_neg hvps]
    refine ⟨?_, hsub.mpr (by omega), hpayload⟩
    change nalUnitTypes.getD (2 * (j + 1) / 8) .INVALID = _
    rw [hdiv]
    rfl

theorem interleaves_noVPS {order : List (ℕ × LayerUnit)} (h : Interleaves order streams)
    (hvps : NoVPS streams) {p : ℕ × LayerUnit} (hp : p ∈ order) : p.2.type ≠ .VPS := by
  obtain ⟨us, hus, hmem⟩ := h.mem hp
  exact hvps us (List.mem_of_getElem? hus) p.2 hmem

/-- In an output without a VPS. -/
theorem carries_merge_iff (h56 : streams.length ≤ 56) (hvps : NoVPS streams)
    {order : List (ℕ × LayerUnit)} (horder : Interleaves order streams) :
    List.Forall₂ (fun p nalUnit => Carries p.1 p.2 nalUnit) order
        ((merge streams).map fun p => (p.2.merged p.1).nalUnit) ↔
      List.Forall₂ Becomes order (merge streams) := by
  have hp : ∀ p ∈ order, p.1 < 56 ∧ p.2.type ≠ .VPS := fun p hp =>
    ⟨Nat.lt_of_lt_of_le (horder.inside p hp) h56, interleaves_noVPS horder hvps hp⟩
  have hq : ∀ q ∈ merge streams, q.1 < 56 := fun q hq =>
    Nat.lt_of_lt_of_le ((interleaves_merge streams).inside q hq) h56
  have hiff : ∀ {p q}, (p, q) ∈ order.zip (merge streams) →
      (Carries p.1 p.2 ((q.2.merged q.1).nalUnit) ↔ Becomes p q) := by
    intro p q hzip
    obtain ⟨hporder, hqmerge⟩ := List.of_mem_zip hzip
    exact carries_merged (hp p hporder).1 (hq q hqmerge) (hp p hporder).2
  rw [List.forall₂_map_right_iff, List.forall₂_iff_zip, List.forall₂_iff_zip]
  refine and_congr_right fun _ => ⟨fun h p q hzip => (hiff hzip).mp (h hzip),
    fun h p q hzip => (hiff hzip).mpr (h hzip)⟩

/-- **Layers of a merged stream.** Exactly when no stream has a VPS, and the units can
be put side by side with those taken in turns so that each has the payload of the other,
the other's layer id is the number of its stream, and its type and temporal id are what
the number of the other's stream reads as, the merger ends with every unit in its layer. -/
theorem merge_preservesLayers {PTL : Type} (codeProfileTierLevel : PTL → Bool → ℤ → WriteM Unit)
    (codeParameters : VPS → WriteM Unit) {streams : List (List LayerUnit)}
    (h1 : 1 ≤ streams.length) (h56 : streams.length ≤ 56) :
    PreservesLayers codeProfileTierLevel codeParameters streams ↔
      NoVPS streams ∧ ∃ order, Interleaves order streams ∧ List.Forall₂ Becomes order (merge streams) := by
  obtain ⟨hspec, htotal⟩ :=
    @mergeStreams_spec PTL codeProfileTierLevel codeParameters streams h1 h56
  constructor
  · rintro ⟨fuel, out, hrun, order, horder, hcarries⟩
    obtain ⟨hvps, rfl⟩ := hspec fuel out hrun
    rw [nalUnitsOf_merged h56, carries_merge_iff h56 hvps horder] at hcarries
    exact ⟨hvps, order, horder, hcarries⟩
  · rintro ⟨hvps, order, horder, hbecomes⟩
    obtain ⟨fuel, out, hrun⟩ := htotal hvps
    obtain ⟨-, rfl⟩ := hspec fuel out hrun
    refine ⟨fuel, _, hrun, order, horder, ?_⟩
    rw [nalUnitsOf_merged h56, carries_merge_iff h56 hvps horder]
    exact hbecomes

/-- A slice of the first layer, of the temporal sub-layer `tid`. -/
def trail (tid : ℕ) (h : tid ≤ 6) : LayerUnit where
  longStartcode := true
  nuhLayerId := 0
  nalUnitType := 0
  temporalId := tid
  payload := [0x80]
  nuhLayerId_le := Nat.zero_le _
  nalUnitType_lt := by decide
  temporalId_le := h
  noStartCode := trivial
  last := by
    intro b hb
    cases hb
    decide

theorem merge_preservesLayers_trail :
    PreservesLayers (fun (_ : Unit) _ _ => pure ()) (fun _ => pure ()) [[trail 1 (by decide)]] ↔
      NoVPS [[trail 1 (by decide)]] ∧ ∃ order, Interleaves order [[trail 1 (by decide)]] ∧
        List.Forall₂ Becomes order (merge [[trail 1 (by decide)]]) :=
  merge_preservesLayers _ _ (by decide) (by decide)

/-- A slice of the temporal sub-layer 0 does not come back: its temporal id is lost. -/
theorem trail_notPreserved :
    ¬PreservesLayers (fun (_ : Unit) _ _ => pure ()) (fun _ => pure ()) [[trail 0 (by decide)]] := by
  rintro ⟨fuel, out, hrun, order, horder, hcarries⟩
  obtain ⟨hspec, -⟩ := @mergeStreams_spec Unit (fun _ _ _ => pure ()) (fun _ => pure ())
    [[trail 0 (by decide)]] (by decide) (by decide)
  obtain ⟨hvps, rfl⟩ := hspec fuel out hrun
  rw [nalUnitsOf_merged (by decide), carries_merge_iff (by decide) hvps horder] at hcarries
  obtain ⟨p, ps, hpq, -, rfl⟩ := List.forall₂_cons_right_iff.mp hcarries
  obtain ⟨us, hus, hmem⟩ := horder.mem (List.mem_cons_self : p ∈ p :: ps)
  rw [List.mem_singleton.mp (List.mem_of_getElem? hus), List.mem_singleton] at hmem
  have hsecond := hpq.typeAndTid
  rw [hmem] at hsecond
  cases hsecond

end ECM.StreamMerge
