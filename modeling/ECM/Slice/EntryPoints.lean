import ECM.DecoderLib.VLCReader
import ECM.Nal.EmulationPrevention

/-! # Entry points of a slice

The slice header tells where its substreams begin, in bytes of the escaped NAL
unit. The decoder turns these offsets into payload sizes with the positions of
the emulation prevention bytes, and cuts the payload. -/

namespace ECM.Slice
open CommonLib CommonLib.BitStream Lib.Bits List
open EncoderLib.NALwrite EncoderLib.VLCWriter
open DecoderLib.NALread DecoderLib.VLCReader ECM.Nal

/-- A coded slice: the NAL unit header, the syntax elements of the slice header
before the entry points as values and widths, and the substreams. -/
structure SliceNal where
  nalUnitType : Nat
  temporalId : Nat
  nuhLayerId : Nat
  fields : List (Nat × Nat)
  substreams : List (List UInt8)

def writeFields (s : OutputBitstream) : List (Nat × Nat) → Checked OutputBitstream
  | [] => .ok s
  | (uiBits, uiNumberOfBits) :: fields => do
    let s ← s.write uiBits uiNumberOfBits
    writeFields s fields

/-- The sizes handed to `codeTilesWPPEntryPoint`: of every substream but the last. -/
def entryPointOffsets (substreams : List (List UInt8)) : List Nat :=
  substreams.dropLast.map fun sub => sub.length + OutputBitstream.emulations sub

/-- The slice header with its entry points and its byte alignment. -/
def writeSliceHeader (sl : SliceNal) : Checked (List UInt8) := do
  let s ← writeFields .clear sl.fields
  let s ← codeTilesWPPEntryPoint s (sl.substreams.length - 1) (entryPointOffsets sl.substreams)
  let s ← s.writeByteAlignment
  return s.fifo

/-- The escaped NAL unit with the substreams behind the slice header. -/
def writeSlice (sl : SliceNal) : Checked (List UInt8) := do
  let header ← writeSliceHeader sl
  writeNaluWithHeader ⟨sl.nalUnitType, sl.temporalId, sl.nuhLayerId, header ++ sl.substreams.flatten⟩

def readFields (s : InputBitstream) : List Nat → Checked InputBitstream
  | [] => .ok s
  | uiNumberOfBits :: widths => do
    let (_, s) ← s.read uiNumberOfBits
    readFields s widths

/-- The loop of `decompressSlice` that extracts the substreams. -/
def extractSubstreams (s : InputBitstream) : (sizes : List Nat) → Checked (List (List UInt8))
  | [] => do
    let (sub, _) ← s.extractSubstream s.getNumBitsLeft
    return [sub.fifo]
  | size :: sizes => do
    let (sub, s) ← s.extractSubstream (u32 (size <<< 3))
    let subs ← extractSubstreams s sizes
    return sub.fifo :: subs

/-- From the received unit to the substreams; `widths` are the reads of the NAL
unit header and of the slice header up to its entry points. -/
def readSlice (nalUnitBuf : List UInt8) (isVclNalUnit : Bool) (widths : List Nat)
    (numEntryPoints : Nat) : Checked (List (List UInt8)) := do
  let (fifo, locations) ← convertPayloadToRBSP nalUnitBuf isVclNalUnit
  let s ← readFields ⟨fifo, locations, 0, 0, 0⟩ widths
  let (sizes, s) ← parseEntryPoints s numEntryPoints
  extractSubstreams s sizes

/-! ## Writing -/

/-- What the fields of a slice satisfy. -/
structure SliceNal.Valid (sl : SliceNal) : Prop where
  header : (⟨sl.nalUnitType, sl.temporalId, sl.nuhLayerId, []⟩ : OutputNALUnit).HeaderValid
  fields : ∀ f ∈ sl.fields, f.2 ≤ 32 ∧ f.1 < 2 ^ f.2
  ne_nil : sl.substreams ≠ []
  substreams : ∀ sub ∈ sl.substreams, sub ≠ [] ∧ EndsNonzero sub

def fieldBits (fields : List (Nat × Nat)) : List Bool := fields.flatMap fun f => toBits f.2 f.1

theorem length_fieldBits (fields : List (Nat × Nat)) :
    (fieldBits fields).length = (fields.map Prod.snd).sum := by
  induction fields with
  | nil => rfl
  | cons f fields ih =>
    rw [fieldBits, flatMap_cons, length_append, length_toBits, map_cons, sum_cons,
      ← ih]
    rfl

theorem writeFields_ok (fields : List (Nat × Nat)) : ∀ {s : OutputBitstream}, s.WF →
    (∀ f ∈ fields, f.2 ≤ 32 ∧ f.1 < 2 ^ f.2) →
    ∃ s', writeFields s fields = .ok s' ∧ Appends s s' (fieldBits fields) := by
  induction fields with
  | nil => exact fun {s} h _ => ⟨s, rfl, h, (append_nil _).symm⟩
  | cons f fields ih =>
    intro s h hf
    obtain ⟨h32, hlt⟩ := hf f mem_cons_self
    obtain ⟨s₁, hs₁, h₁⟩ := write_appends h h32 hlt
    obtain ⟨s₂, hs₂, h₂⟩ := ih h₁.wf fun g hg => hf g (mem_cons_of_mem _ hg)
    exact ⟨s₂, by rw [writeFields, hs₁, ok_bind, hs₂], h₁.trans h₂⟩

/-- The bits of an aligned slice header; the alignment makes its last byte nonzero. -/
theorem writeSliceHeader_ok {sl : SliceNal} (h : sl.Valid)
    (hsizes : ∀ size ∈ entryPointOffsets sl.substreams, 1 ≤ size ∧ size < 2 ^ 31) :
    ∃ header k pad, writeSliceHeader sl = .ok header ∧ k ≤ 30 ∧ pad < 8 ∧
      (∀ size ∈ entryPointOffsets sl.substreams, size < 2 ^ (k + 1)) ∧
      bytesBits header = fieldBits sl.fields ++ (entryPointBits k (entryPointOffsets sl.substreams) ++
        true :: List.replicate pad false) := by
  obtain ⟨s₁, hs₁, h₁⟩ := writeFields_ok sl.fields OutputBitstream.clear_wf h.fields
  obtain ⟨s₂, k, hs₂, hk, hlt, h₂⟩ := codeTilesWPPEntryPoint_ok h₁.wf hsizes
  obtain ⟨s₃, hs₃, -, hbits⟩ := OutputBitstream.writeByteAlignment_spec h₂.wf
  have hcount : (entryPointOffsets sl.substreams).length = sl.substreams.length - 1 := by
    rw [entryPointOffsets, length_map, length_dropLast]
  refine ⟨s₃.fifo, k, (7 - s₂.numHeldBits) % 8, ?_, hk, Nat.mod_lt _ (by decide), hlt, ?_⟩
  · rw [hcount] at hs₂
    rw [writeSliceHeader, hs₁, ok_bind, hs₂, ok_bind, hs₃]
    rfl
  · rw [hbits, h₂.bits_eq, h₁.bits_eq, OutputBitstream.bits_clear, nil_append, append_assoc]
    rfl

/-- A stop bit and less than a byte of padding make the last byte nonzero. -/
theorem endsNonzero_of_bytesBits {header : List UInt8} {bits : List Bool} {pad : Nat} (hpad : pad < 8)
    (h : bytesBits header = bits ++ true :: List.replicate pad false) : EndsNonzero header := by
  intro b hb
  rintro rfl
  obtain ⟨front, rfl⟩ := List.getLast?_eq_some_iff.mp hb
  have hval := congrArg ofBits h
  rw [ofBits_bytesBits, ofBytes_concat, ofBits_append, ofBits_cons, ofBits_replicate_false,
    length_cons, length_replicate] at hval
  have hodd : 2 ^ pad * (2 * (2 ^ (7 - pad) * ofBytes front)) = 2 ^ pad * (2 * ofBits bits + 1) := by
    calc 2 ^ pad * (2 * (2 ^ (7 - pad) * ofBytes front))
        = 2 ^ (pad + 1 + (7 - pad)) * ofBytes front := by rw [Nat.pow_add, Nat.pow_add]; ring
      _ = 256 * ofBytes front + (0 : UInt8).toNat := by
          rw [show pad + 1 + (7 - pad) = 8 by omega]
          rfl
      _ = 2 ^ pad * (2 * ofBits bits + 1) := by rw [hval, Nat.pow_succ, Bool.toNat_true]; ring
  have := Nat.eq_of_mul_eq_mul_left (Nat.two_pow_pos pad) hodd
  omega

/-! ## Reading the header -/

variable {s : InputBitstream} {fifo : List UInt8} {locations : List Nat} {bits : List Bool}

theorem readFields_ok (widths : List Nat) : ∀ {s : InputBitstream} {front : List Bool},
    s.At fifo locations (front ++ bits) → front.length = widths.sum → (∀ w ∈ widths, w ≤ 32) →
    ∃ s', readFields s widths = .ok s' ∧ s'.At fifo locations bits := by
  induction widths with
  | nil =>
    intro s front h hlen _
    obtain rfl := length_eq_zero_iff.mp hlen
    exact ⟨s, rfl, h⟩
  | cons w widths ih =>
    intro s front h hlen hw
    rw [sum_cons] at hlen
    have htake : (front.take w).length = w := by rw [length_take]; omega
    rw [← take_append_drop w front, append_assoc] at h
    obtain ⟨s₁, hs₁, h₁⟩ := h.read (front.take w) (by rw [htake]; exact hw w mem_cons_self)
    obtain ⟨s₂, hs₂, h₂⟩ := ih h₁ (by rw [length_drop]; omega)
      fun x hx => hw x (mem_cons_of_mem _ hx)
    rw [htake] at hs₁
    exact ⟨s₂, by rw [readFields, hs₁, ok_bind]; exact hs₂, h₂⟩

/-- After the alignment the stream stands at the beginning of a byte. -/
theorem readByteAlignment_ok {pad : Nat} (hpad : pad < 8) {body : List UInt8}
    (h : s.At fifo locations (true :: List.replicate pad false ++ bytesBits body)) :
    ∃ n s', s.readByteAlignment = .ok (n, s') ∧ s'.At fifo locations (bytesBits body) ∧
      s'.numHeldBits = 0 ∧ s'.fifoIdx + body.length = fifo.length := by
  have hfront : s.At fifo locations ([true] ++ (List.replicate pad false ++ bytesBits body)) := h
  obtain ⟨s₁, hs₁, h₁⟩ := hfront.read [true] (by decide)
  have hheld := h₁.numHeldBits_eq
  have hfew := h₁.few
  simp only [length_append, length_replicate, length_bytesBits] at hheld
  have hpads : s₁.getNumBitsUntilByteAligned = pad := by
    rw [InputBitstream.getNumBitsUntilByteAligned]; omega
  have hdone : ∀ {s' : InputBitstream}, s'.At fifo locations (bytesBits body) →
      s'.numHeldBits = 0 ∧ s'.fifoIdx + body.length = fifo.length := by
    intro s' h'
    have hheld' := h'.numHeldBits_eq
    have hfew' := h'.few
    have hinside := h'.inside
    rw [h'.fifo_eq] at hinside
    rw [length_bytesBits] at hheld'
    omega
  have hrun : s.readByteAlignment = if pad ≠ 0 then (do
      check (pad > s₁.getNumBitsLeft) "More bits available than left"
      let (code, s) ← s₁.read pad
      check (code ≠ 0) "Code not '0'"
      return (pad + 1, s)) else .ok (pad + 1, s₁) := by
    rw [InputBitstream.readByteAlignment]
    change (s.read [true].length >>= _) = _
    rw [hs₁, ok_bind]
    dsimp only
    rw [check_ok _ (by decide), ok_bind]
    simp only [hpads]
    rfl
  by_cases h0 : pad = 0
  · subst h0
    exact ⟨1, s₁, by rw [hrun, if_neg (by simp)], h₁, hdone h₁⟩
  · obtain ⟨s₂, hs₂, h₂⟩ := h₁.read (List.replicate pad false) (by rw [length_replicate]; omega)
    rw [length_replicate, ofBits_replicate_false] at hs₂
    refine ⟨pad + 1, s₂, ?_, h₂, hdone h₂⟩
    have hleft : ¬pad > s₁.getNumBitsLeft := by
      rw [InputBitstream.getNumBitsLeft, u32, h₁.fifo_eq]
      omega
    rw [hrun, if_pos h0, check_ok _ hleft, ok_bind, hs₂, ok_bind]
    rfl

/-! ## Locations -/

/-- The end of the header moves past every byte inserted into the header. -/
theorem adjustLocation_escapePositions (a : List UInt8) : ∀ zeroCount pos e : Nat,
    pos + a.length ≤ e → e + a.length < 2 ^ 32 →
    adjustLocation e (escapePositions zeroCount pos a) =
      e + (escapePositions zeroCount pos a).length := by
  induction a with
  | nil => exact fun _ _ _ _ _ => rfl
  | cons v a ih =>
    intro zeroCount pos e hpos h32
    rw [length_cons] at hpos h32
    rw [escapePositions]
    split
    · rw [adjustLocation, foldl_cons, if_pos (by omega), u32_of_lt (by omega)]
      have hrest := ih (if v = 0 then 1 else 0) (pos + 2) (e + 1) (by omega) (by omega)
      rw [adjustLocation] at hrest
      rw [hrest, length_cons]
      omega
    · exact ih _ _ _ (by omega) (by omega)

theorem adjustLocation_of_ge {e : Nat} {locations : List Nat} (h : ∀ p ∈ locations, e ≤ p) :
    adjustLocation e locations = e := by
  induction locations with
  | nil => rfl
  | cons p locations ih =>
    have hp := h p mem_cons_self
    rw [adjustLocation, foldl_cons, if_neg (by omega)]
    exact ih fun q hq => h q (mem_cons_of_mem _ hq)

theorem adjustLocation_append (e : Nat) (as bs : List Nat) :
    adjustLocation e (as ++ bs) = adjustLocation (adjustLocation e as) bs := by
  simp only [adjustLocation, foldl_append]

/-- The decoder's sizes are those of the substreams: the bytes inserted into one
are counted between its two borders, and no others. -/
theorem substreamSizes_eq {e : Nat} (subs : List (List UInt8)) (rest : List UInt8) :
    ∀ (before : List Nat) (cur : Nat), (∀ sub ∈ subs, EndsNonzero sub) → (∀ p ∈ before, p < cur + e) →
    cur + e + (subs.map fun sub => (escape 0 sub).length).sum < 2 ^ 32 →
    substreamSizes e (before ++ escapePositions 0 (cur + e) (subs.flatten ++ rest)) cur
      (subs.map fun sub => sub.length + OutputBitstream.emulations sub) = subs.map List.length := by
  induction subs with
  | nil => exact fun _ _ _ _ _ => rfl
  | cons sub subs ih =>
    intro before cur hsubs hbefore h32
    have hsub := hsubs sub mem_cons_self
    have hrest : ∀ x ∈ subs, EndsNonzero x := fun x hx => hsubs x (mem_cons_of_mem _ hx)
    obtain ⟨n, hn⟩ : ∃ n, (escape 0 sub).length = n := ⟨_, rfl⟩
    have hlen := length_escape sub (cur + e) (fun _ => rfl) hsub
    rw [map_cons, sum_cons, hn] at h32
    rw [hn] at hlen
    have hsplit : before ++ escapePositions 0 (cur + e) ((sub :: subs).flatten ++ rest) =
        (before ++ escapePositions 0 (cur + e) sub) ++
          escapePositions 0 (cur + n + e) (subs.flatten ++ rest) := by
      rw [flatten_cons, append_assoc, escapePositions_append sub _ (fun _ => rfl) hsub,
        append_assoc, hn, Nat.add_right_comm]
    have hfront : ∀ p ∈ before ++ escapePositions 0 (cur + e) sub, p < cur + n + e := by
      intro p hp
      rcases mem_append.mp hp with hp | hp
      · have := hbefore p hp
        omega
      · have := (mem_escapePositions sub hp).2
        omega
    rw [hsplit, map_cons, substreamSizes, length_add_emulations hsub, hn,
      u32_of_lt (show cur + n < 2 ^ 32 by omega), ih _ _ hrest hfront (by omega)]
    congr 1
    -- before, inside and behind the substream
    have hcount : ((before ++ escapePositions 0 (cur + e) sub) ++
        escapePositions 0 (cur + n + e) (subs.flatten ++ rest)).countP (fun location =>
          location ≥ u32 (cur + e) ∧ location < u32 (cur + n + e)) =
        (escapePositions 0 (cur + e) sub).length := by
      rw [u32_of_lt (show cur + e < 2 ^ 32 by omega), u32_of_lt (show cur + n + e < 2 ^ 32 by omega),
        countP_append, countP_append]
      have hleft : before.countP (fun p => decide (p ≥ cur + e ∧ p < cur + n + e)) = 0 := by
        refine countP_eq_zero.mpr fun p hp => ?_
        have := hbefore p hp
        simp
        omega
      have hright : (escapePositions 0 (cur + n + e) (subs.flatten ++ rest)).countP
          (fun p => decide (p ≥ cur + e ∧ p < cur + n + e)) = 0 := by
        refine countP_eq_zero.mpr fun p hp => ?_
        have := (mem_escapePositions _ hp).1
        simp
        omega
      have hmid : (escapePositions 0 (cur + e) sub).countP
          (fun p => decide (p ≥ cur + e ∧ p < cur + n + e)) =
          (escapePositions 0 (cur + e) sub).length := by
        refine countP_eq_length.mpr fun p hp => ?_
        have := mem_escapePositions sub hp
        simp
        omega
      rw [hleft, hright, hmid]
      omega
    rw [hcount, sub32_of_le (by omega) (by omega)]
    omega

/-! ## Cutting the payload -/

/-- The stream stands at the first byte of `body`. -/
structure AtByte (s : InputBitstream) (body : List UInt8) : Prop where
  aligned : s.numHeldBits = 0
  drop_eq : s.fifo.drop s.fifoIdx = body

theorem AtByte.extractSubstream {sub rest : List UInt8} (h : AtByte s (sub ++ rest)) :
    ∃ s', s.extractSubstream (8 * sub.length) = .ok (.ofFifo sub, s') ∧ AtByte s' rest := by
  obtain ⟨haligned, hdrop⟩ := h
  have htake : (s.fifo.drop s.fifoIdx).take sub.length = sub := by rw [hdrop, take_left]
  refine ⟨{ s with fifoIdx := s.fifoIdx + sub.length }, ?_, haligned, ?_⟩
  · have hand : 8 * sub.length &&& 0x7 = 0 := by
      rw [show (0x7 : Nat) = 2 ^ 3 - 1 from rfl, Nat.and_two_pow_sub_one_eq_mod]
      omega
    rw [InputBitstream.extractSubstream, InputBitstream.extractBytes,
      Nat.mul_div_cancel_left _ (by decide), if_pos haligned]
    dsimp only
    rw [htake, ok_bind]
    dsimp only
    rw [hand, if_neg (by simp), Nat.sub_self, replicate_zero, append_nil]
    rfl
  · rw [← drop_drop, hdrop, drop_left]

theorem AtByte.getNumBitsLeft {body : List UInt8} (h : AtByte s body) (hlt : body.length < 2 ^ 29) :
    s.getNumBitsLeft = 8 * body.length := by
  have hlen := congrArg List.length h.drop_eq
  rw [length_drop] at hlen
  rw [InputBitstream.getNumBitsLeft, h.aligned, hlen, u32_of_lt (by omega), Nat.add_zero]

theorem extractSubstreams_ok (subs : List (List UInt8)) {last : List UInt8} : ∀ {s : InputBitstream},
    AtByte s (subs.flatten ++ last) → (∀ sub ∈ subs, sub.length < 2 ^ 29) → last.length < 2 ^ 29 →
    extractSubstreams s (subs.map List.length) = .ok (subs ++ [last]) := by
  induction subs with
  | nil =>
    intro s h _ hlast
    have hend : AtByte s (last ++ []) := by rwa [append_nil]
    obtain ⟨s', hs', -⟩ := hend.extractSubstream
    rw [map_nil, extractSubstreams, h.getNumBitsLeft hlast]
    change (s.extractSubstream (8 * last.length) >>= _) = _
    rw [hs', ok_bind]
    rfl
  | cons sub subs ih =>
    intro s h hsubs hlast
    have hsub := hsubs sub mem_cons_self
    rw [flatten_cons, append_assoc] at h
    obtain ⟨s', hs', h'⟩ := h.extractSubstream
    rw [map_cons, extractSubstreams, Nat.shiftLeft_eq, u32_of_lt (by omega),
      show sub.length * 2 ^ 3 = 8 * sub.length by omega, hs', ok_bind]
    dsimp only
    rw [ih h' (fun x hx => hsubs x (mem_cons_of_mem _ hx)) hlast, ok_bind]
    rfl

/-! ## The slice as a whole -/

theorem escape_flatten (subs : List (List UInt8)) (rest : List UInt8)
    (h : ∀ sub ∈ subs, EndsNonzero sub) :
    escape 0 (subs.flatten ++ rest) = (subs.map (escape 0)).flatten ++ escape 0 rest := by
  induction subs with
  | nil => rfl
  | cons sub subs ih =>
    rw [flatten_cons, append_assoc, escape_append sub (fun _ => rfl) (h sub mem_cons_self),
      ih fun x hx => h x (mem_cons_of_mem _ hx), map_cons, flatten_cons,
      append_assoc]

theorem endsNonzero_flatten {subs : List (List UInt8)} (hne : subs ≠ [])
    (h : ∀ sub ∈ subs, sub ≠ [] ∧ EndsNonzero sub) (header : List UInt8) :
    EndsNonzero (header ++ subs.flatten) := by
  obtain ⟨front, last, rfl⟩ := eq_nil_or_concat subs |>.resolve_left hne
  obtain ⟨hlast, hends⟩ := h last (by simp)
  intro b hb
  refine hends b ?_
  rw [concat_eq_append, flatten_concat, ← append_assoc, List.getLast?_append] at hb
  cases hl : last.getLast? with
  | none => exact absurd (List.getLast?_eq_none_iff.mp hl) hlast
  | some c =>
    rw [hl] at hb
    exact hb

/-- The unit that carries a slice. -/
def SliceNal.nalu (sl : SliceNal) (header : List UInt8) : OutputNALUnit :=
  ⟨sl.nalUnitType, sl.temporalId, sl.nuhLayerId, header ++ sl.substreams.flatten⟩

theorem SliceNal.Valid.naluHeader {sl : SliceNal} (h : sl.Valid) (header : List UInt8) :
    (sl.nalu header).HeaderValid :=
  ⟨h.header.nuhLayerId_le, h.header.nalUnitType_lt, h.header.temporalId_le⟩

theorem writeSlice_ok {sl : SliceNal} (h : sl.Valid) {header : List UInt8}
    (hheader : writeSliceHeader sl = .ok header) : writeSlice sl = .ok (sl.nalu header).ebsp := by
  rw [writeSlice, hheader, ok_bind]
  exact writeNaluWithHeader_ok (h.naluHeader header)

/-- The sizes parsed are those of the substreams, and the stream stands behind
the slice header. -/
theorem parseEntryPoints_ok {sl : SliceNal} (h : sl.Valid) {front : List (List UInt8)}
    {last header : List UInt8} {k pad : Nat} (hsplit : sl.substreams = front ++ [last]) (hk : k ≤ 30)
    (hpad : pad < 8)
    (hsizes : ∀ size ∈ entryPointOffsets sl.substreams, 1 ≤ size ∧ size < 2 ^ (k + 1))
    (hends : EndsNonzero header) (hfifo : fifo = (sl.nalu header).header ++ (sl.nalu header).rbsp)
    (hs : s.At fifo (escapePositions 0 2 (sl.nalu header).rbsp)
      (entryPointBits k (entryPointOffsets sl.substreams) ++
        (true :: List.replicate pad false ++ bytesBits sl.substreams.flatten)))
    (hlen : (sl.nalu header).ebsp.length < 2 ^ 31) :
    ∃ s', parseEntryPoints s (sl.substreams.length - 1) = .ok (front.map List.length, s') ∧
      AtByte s' sl.substreams.flatten := by
  have hoffsets : entryPointOffsets sl.substreams =
      front.map fun sub => sub.length + OutputBitstream.emulations sub := by
    rw [entryPointOffsets, hsplit, dropLast_concat]
  have hcount : sl.substreams.length - 1 = (entryPointOffsets sl.substreams).length := by
    rw [hoffsets, length_map, hsplit, length_append, length_singleton,
      Nat.add_sub_cancel]
  obtain ⟨s₁, hs₁, h₁⟩ := readEntryPoints_ok hk hs hsizes
  obtain ⟨n, s₂, hs₂, h₂, haligned, hidx⟩ := readByteAlignment_ok hpad h₁
  have hbody : s₂.fifo.drop s₂.fifoIdx = sl.substreams.flatten := by
    apply bytesBits_inj
    rw [← h₂.unread_eq, InputBitstream.unread, haligned]
    rfl
  -- the end of the slice header among the bytes of the unit
  have hloc : s₂.getByteLocation = 2 + header.length := by
    rw [hfifo] at hidx
    simp only [SliceNal.nalu, OutputNALUnit.header, length_append, length_cons,
      length_nil] at hidx
    rw [InputBitstream.getByteLocation]
    omega
  have hpos : escapePositions 0 2 (sl.nalu header).rbsp = escapePositions 0 2 header ++
      escapePositions 0 (2 + (escape 0 header).length) sl.substreams.flatten :=
    escapePositions_append header 2 (fun _ => rfl) hends
  have hheaderLen := length_escape header 2 (fun _ => rfl) hends
  have hebsp : (sl.nalu header).ebsp.length = 2 + ((escape 0 header).length +
      ((front.map fun sub => (escape 0 sub).length).sum + (escape 0 last).length)) := by
    have hfront : ∀ sub ∈ front, EndsNonzero sub := fun sub hsub =>
      (h.substreams sub (by rw [hsplit]; exact mem_append_left _ hsub)).2
    rw [OutputNALUnit.ebsp, writeNaluContent, SliceNal.nalu, escape_append header (fun _ => rfl) hends,
      hsplit, flatten_concat, escape_flatten front last hfront]
    simp only [OutputNALUnit.header, length_append, length_cons, length_nil,
      length_flatten, map_map]
    rfl
  have hadjust : adjustLocation s₂.getByteLocation s₂.emulationPreventionByteLocation =
      2 + (escape 0 header).length := by
    rw [hloc, h₂.locations_eq, hpos, adjustLocation_append,
      adjustLocation_escapePositions header 0 2 (2 + header.length) (by omega) (by omega),
      adjustLocation_of_ge, hheaderLen]
    · omega
    · intro p hp
      have := (mem_escapePositions _ hp).1
      omega
  refine ⟨s₂, ?_, haligned, hbody⟩
  have hsizes' := substreamSizes_eq (e := 2 + (escape 0 header).length) front last
    (escapePositions 0 2 header) 0
    (fun sub hsub => (h.substreams sub (by rw [hsplit]; exact mem_append_left _ hsub)).2)
    (fun p hp => by have := (mem_escapePositions header hp).2; omega) (by omega)
  rw [Nat.zero_add] at hsizes'
  rw [parseEntryPoints, hcount, hs₁, ok_bind]
  dsimp only
  rw [hs₂, ok_bind]
  dsimp only
  rw [hadjust, h₂.locations_eq, hpos, hoffsets, hsplit, flatten_concat, hsizes']
  rfl

/-- The reads that take the decoder to the entry points: those of the NAL unit
header and those of the slice header. -/
def ReadsHeader (sl : SliceNal) (widths : List Nat) : Prop :=
  (∀ w ∈ widths, w ≤ 32) ∧ widths.sum = 16 + (sl.fields.map Prod.snd).sum

/-- The sizes a header with offsets below `2 ^ 31` gives are right, whatever the
extraction makes of them. -/
theorem readSlice_eq {sl : SliceNal} (h : sl.Valid) {front : List (List UInt8)} {last : List UInt8}
    (hsplit : sl.substreams = front ++ [last]) (hfront : ∀ sub ∈ front, sub.length < 2 ^ 30)
    {widths : List Nat} (hwidths : ReadsHeader sl widths) (isVclNalUnit : Bool) :
    ∃ header, writeSliceHeader sl = .ok header ∧ EndsNonzero header ∧
      8 * header.length ≤ (sl.fields.map Prod.snd).sum + 17 + 31 * front.length ∧
      ((sl.nalu header).ebsp.length < 2 ^ 31 → ∃ s,
        readSlice (sl.nalu header).ebsp isVclNalUnit widths (sl.substreams.length - 1) =
          extractSubstreams s (front.map List.length) ∧ AtByte s sl.substreams.flatten) := by
  have hoffsets : entryPointOffsets sl.substreams =
      front.map fun sub => sub.length + OutputBitstream.emulations sub := by
    rw [entryPointOffsets, hsplit, dropLast_concat]
  have hmem : ∀ sub ∈ front, sub ∈ sl.substreams := fun sub hsub => by
    rw [hsplit]; exact mem_append_left _ hsub
  have hrange : ∀ size ∈ entryPointOffsets sl.substreams, 1 ≤ size ∧ size < 2 ^ 31 := by
    intro size hsize
    rw [hoffsets] at hsize
    obtain ⟨sub, hsub, rfl⟩ := mem_map.mp hsize
    have hpos := length_pos_iff.mpr (h.substreams sub (hmem sub hsub)).1
    have hle : OutputBitstream.emulations sub ≤ sub.length :=
      (emulations_eq sub 0 0 (by decide)).trans_le (length_escapePositions_le sub 0 0)
    have := hfront sub hsub
    omega
  obtain ⟨header, k, pad, hheader, hk, hpad, hlt, hbits⟩ := writeSliceHeader_ok h hrange
  rw [← append_assoc] at hbits
  have hends : EndsNonzero header := endsNonzero_of_bytesBits hpad hbits
  refine ⟨header, hheader, hends, ?_, fun hlen => ?_⟩
  · have hlength := congrArg List.length hbits
    have hentry := length_entryPointBits_le hk (entryPointOffsets sl.substreams)
    rw [hoffsets, length_map] at hentry
    simp only [hoffsets, length_bytesBits, length_append, length_fieldBits, length_cons,
      length_replicate] at hlength
    omega
  · have hconvert := convertPayloadToRBSP_ebsp (h.naluHeader header)
      (endsNonzero_flatten h.ne_nil h.substreams header) isVclNalUnit
    obtain ⟨fifo, hfifo⟩ : ∃ fifo, fifo = (sl.nalu header).header ++ (sl.nalu header).rbsp := ⟨_, rfl⟩
    have hstart : InputBitstream.At ⟨fifo, escapePositions 0 2 (sl.nalu header).rbsp, 0, 0, 0⟩ fifo
        (escapePositions 0 2 (sl.nalu header).rbsp)
        ((bytesBits (sl.nalu header).header ++ fieldBits sl.fields) ++
          (entryPointBits k (entryPointOffsets sl.substreams) ++
            (true :: List.replicate pad false ++ bytesBits sl.substreams.flatten))) := by
      refine ⟨rfl, rfl, Nat.zero_lt_succ 7, Nat.zero_le _, ?_⟩
      rw [InputBitstream.unread, drop_zero, hfifo]
      simp only [SliceNal.nalu, bytesBits_append, hbits, toBits, append_assoc, nil_append]
    obtain ⟨s₁, hs₁, h₁⟩ := readFields_ok widths hstart (by
      rw [hwidths.2, length_append, length_fieldBits, length_bytesBits]; rfl) hwidths.1
    obtain ⟨s₂, hs₂, h₂⟩ := parseEntryPoints_ok h hsplit hk hpad
      (fun size hsize => ⟨(hrange size hsize).1, hlt size hsize⟩) hends hfifo h₁ hlen
    refine ⟨s₂, ?_, h₂⟩
    rw [readSlice, hconvert, ok_bind]
    dsimp only
    rw [← hfifo, hs₁, ok_bind, hs₂, ok_bind]

/-- **Entry points.** A slice whose substreams are shorter than `2 ^ 29` bytes is
cut into its substreams again; the offsets signalled are the lengths of the
substreams in the escaped unit. -/
theorem readSlice_writeSlice {sl : SliceNal} (h : sl.Valid)
    (hsize : ∀ sub ∈ sl.substreams, sub.length < 2 ^ 29) {widths : List Nat}
    (hwidths : ReadsHeader sl widths) (isVclNalUnit : Bool) :
    ∃ header nal, writeSliceHeader sl = .ok header ∧ writeSlice sl = .ok nal ∧
      nal = (sl.nalu header).header ++ escape 0 header ++ (sl.substreams.map (escape 0)).flatten ∧
      (∀ sub ∈ sl.substreams,
        sub.length + OutputBitstream.emulations sub = (escape 0 sub).length) ∧
      (nal.length < 2 ^ 31 →
        readSlice nal isVclNalUnit widths (sl.substreams.length - 1) = .ok sl.substreams) := by
  obtain ⟨front, last, hsplit⟩ : ∃ front last, sl.substreams = front ++ [last] :=
    ⟨_, _, (dropLast_concat_getLast h.ne_nil).symm⟩
  have hfront : ∀ sub ∈ front, sub.length < 2 ^ 29 := fun sub hsub =>
    hsize sub (by rw [hsplit]; exact mem_append_left _ hsub)
  have hlast : last.length < 2 ^ 29 := hsize last (by rw [hsplit]; simp)
  obtain ⟨header, hheader, hends, -, hread⟩ := readSlice_eq h hsplit
    (fun sub hsub => lt_trans (hfront sub hsub) (by decide)) hwidths isVclNalUnit
  refine ⟨header, _, hheader, writeSlice_ok h hheader, ?_, fun sub hsub =>
    length_add_emulations (h.substreams sub hsub).2, fun hlen => ?_⟩
  · have hflat := escape_flatten sl.substreams [] fun sub hsub => (h.substreams sub hsub).2
    rw [append_nil] at hflat
    rw [OutputNALUnit.ebsp, writeNaluContent]
    change _ ++ escape 0 (header ++ sl.substreams.flatten) = _
    rw [escape_append header (fun _ => rfl) hends, hflat, append_assoc]
    simp [escape]
  · obtain ⟨s, hs, hbyte⟩ := hread hlen
    rw [hsplit, flatten_concat] at hbyte
    rw [hs, extractSubstreams_ok front hbyte hfront hlast, ← hsplit]

theorem readSlice_writeSlice_two_substreams :
    ∃ nal, writeSlice ⟨1, 0, 0, [(5, 3)], [[0, 0, 1], [7]]⟩ = .ok nal ∧
      readSlice nal true [1, 1, 6, 5, 3, 3] 1 = .ok [[0, 0, 1], [7]] := by
  have hvalid : SliceNal.Valid ⟨1, 0, 0, [(5, 3)], [[0, 0, 1], [7]]⟩ := by
    refine ⟨⟨by decide, by decide, by decide⟩, ?_, by decide, ?_⟩
    · intro f hf
      rw [mem_singleton.mp hf]
      decide
    · intro sub hsub
      simp only [mem_cons, not_mem_nil, or_false] at hsub
      rcases hsub with rfl | rfl <;> exact ⟨by decide, fun b hb => by cases hb; decide⟩
  have hsize : ∀ sub ∈ [[0, 0, 1], [(7 : UInt8)]], sub.length < 2 ^ 29 := by decide
  obtain ⟨header, nal, -, hnal, -, -, hread⟩ := readSlice_writeSlice hvalid hsize
    (show ReadsHeader _ [1, 1, 6, 5, 3, 3] from ⟨by decide, by decide⟩) true
  have hrun : writeSlice ⟨1, 0, 0, [(5, 3)], [[0, 0, 1], [7]]⟩ =
      .ok [0, 9, 173, 192, 0, 0, 3, 1, 7] := by rfl
  have hlen : nal.length < 2 ^ 31 := by
    rw [← Except.ok.inj (hrun.symm.trans hnal)]
    decide
  exact ⟨nal, hnal, hread hlen⟩

theorem large_valid {big : List UInt8} (hlen : big.length = 2 ^ 29) (hends : EndsNonzero big) :
    SliceNal.Valid ⟨1, 0, 0, [], [big, [1]]⟩ := by
  refine ⟨⟨Nat.zero_le 55, show 1 < 32 by decide, Nat.zero_le 6⟩,
    fun f hf => absurd hf not_mem_nil, by simp, ?_⟩
  intro sub hsub
  rcases mem_cons.mp hsub with rfl | hsub
  · exact ⟨fun h => by rw [h] at hlen; exact absurd hlen (by decide), hends⟩
  · obtain rfl := mem_singleton.mp hsub
    exact ⟨by decide, fun b hb => by cases hb; decide⟩

/-- A substream of `2 ^ 29` bytes has `2 ^ 32` bits, and the decoder extracts none. -/
theorem readSlice_large {big : List UInt8} (hlen : big.length = 2 ^ 29) (hends : EndsNonzero big) :
    ∃ nal out, writeSlice ⟨1, 0, 0, [], [big, [1]]⟩ = .ok nal ∧
      readSlice nal true [1, 1, 6, 5, 3] 1 = .ok ([] :: out) := by
  have hvalid := large_valid hlen hends
  have hwidths : ReadsHeader ⟨1, 0, 0, [], [big, [1]]⟩ [1, 1, 6, 5, 3] := ⟨by decide, rfl⟩
  obtain ⟨header, hheader, -, hheaderLen, hread⟩ := readSlice_eq hvalid
    (show [big, [1]] = [big] ++ [[1]] from rfl)
    (fun sub hsub => by rw [mem_singleton.mp hsub, hlen]; decide) hwidths true
  simp only [map_nil, sum_nil, length_singleton] at hheaderLen
  have hnal : (SliceNal.nalu ⟨1, 0, 0, [], [big, [1]]⟩ header).ebsp.length < 2 ^ 31 := by
    have hpayload := length_escape (header ++ [big, [1]].flatten) 0 (fun _ => rfl)
      (endsNonzero_flatten hvalid.ne_nil hvalid.substreams header)
    have hle := length_escapePositions_le (header ++ [big, [1]].flatten) 0 0
    simp only [length_append, flatten_cons, flatten_nil, append_nil,
      length_singleton] at hpayload hle
    rw [OutputNALUnit.ebsp, length_append]
    change 2 + (escape 0 (header ++ ([big, [1]] : List (List UInt8)).flatten)).length < 2 ^ 31
    simp only [flatten_cons, flatten_nil, append_nil]
    omega
  obtain ⟨s, hs, hbyte⟩ := hread hnal
  have hempty : AtByte s ([] ++ (big ++ [1])) := by simpa using hbyte
  obtain ⟨s₁, hs₁, h₁⟩ := hempty.extractSubstream
  obtain ⟨b, big, rfl⟩ : ∃ b bs, big = b :: bs := by
    cases big with
    | nil => exact absurd hlen (by decide)
    | cons b bs => exact ⟨b, bs, rfl⟩
  have hone : AtByte s₁ ([b] ++ (big ++ [1])) := h₁
  obtain ⟨s₂, hs₂, -⟩ := hone.extractSubstream
  have hleft : s₁.getNumBitsLeft = 8 * [b].length := by
    have hrest := congrArg List.length hone.drop_eq
    rw [length_drop] at hrest
    rw [InputBitstream.getNumBitsLeft, hone.aligned, hrest]
    simp only [length_append, length_cons, length_nil] at hlen ⊢
    rw [u32]
    omega
  have hsize : u32 ((b :: big).length <<< 3) = 8 * ([] : List UInt8).length := by
    rw [hlen]
    rfl
  refine ⟨_, [[b]], writeSlice_ok hvalid hheader, hs.trans ?_⟩
  rw [map_cons, map_nil, extractSubstreams, hsize, hs₁, ok_bind]
  dsimp only
  rw [extractSubstreams, hleft, hs₂, ok_bind]
  rfl

/-- The size in bits overflows `uint32_t`: the first substream comes back empty. -/
theorem readSlice_ne_substreams : ∃ sl : SliceNal, sl.Valid ∧ ReadsHeader sl [1, 1, 6, 5, 3] ∧
    ∃ nal out, writeSlice sl = .ok nal ∧
      readSlice nal true [1, 1, 6, 5, 3] (sl.substreams.length - 1) = .ok out ∧
      out ≠ sl.substreams := by
  have hlen : (List.replicate (2 ^ 29) (1 : UInt8)).length = 2 ^ 29 := length_replicate
  have hends : EndsNonzero (List.replicate (2 ^ 29) (1 : UInt8)) := by
    intro b hb
    rw [eq_of_mem_replicate (mem_of_getLast? hb)]
    decide
  obtain ⟨nal, out, hnal, hout⟩ := readSlice_large hlen hends
  refine ⟨_, large_valid hlen hends, ⟨by decide, rfl⟩, nal, [] :: out, hnal, hout, ?_⟩
  intro h
  have hfirst := congrArg List.length (List.cons.inj h).1
  rw [hlen] at hfirst
  exact absurd hfirst (by decide)

end ECM.Slice
