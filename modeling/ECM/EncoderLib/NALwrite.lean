import ECM.CommonLib.BitStream

/-! # NAL units of the encoder

A unit is a two-byte header and the payload with its emulation prevention
bytes; the byte stream puts a start code before it. -/

namespace ECM.EncoderLib.NALwrite
open CommonLib CommonLib.BitStream Lib.Bits

/-- A NAL unit; `m_Bitstream.getFIFO()` is its byte-aligned `rbsp`. -/
structure OutputNALUnit where
  nalUnitType : Nat
  temporalId : Nat
  nuhLayerId : Nat
  rbsp : List UInt8
deriving DecidableEq, Repr

def writeNalUnitHeader (nalu : OutputNALUnit) : Checked (List UInt8) := do
  let bsNALUHeader ← OutputBitstream.clear.write 0 1
  let bsNALUHeader ← bsNALUHeader.write 0 1
  check (nalu.nuhLayerId > 55)
    "The value of nuh_layer_id shall be in the range of 0 to 55, inclusive"
  let bsNALUHeader ← bsNALUHeader.write nalu.nuhLayerId 6
  let bsNALUHeader ← bsNALUHeader.write nalu.nalUnitType 5
  let bsNALUHeader ← bsNALUHeader.write (nalu.temporalId + 1) 3
  return bsNALUHeader.fifo

def emulationPreventionThreeByte : UInt8 := 3

/-- The loop of `writeNaluContent` after `zeroCount` zero bytes, and the byte
that follows a final zero. -/
def escape : (zeroCount : Nat) → List UInt8 → List UInt8
  | zeroCount, [] => if zeroCount > 0 then [emulationPreventionThreeByte] else []
  | zeroCount, v :: rbsp =>
    if zeroCount = 2 ∧ v ≤ 3 then
      emulationPreventionThreeByte :: v :: escape (if v = 0 then 1 else 0) rbsp
    else v :: escape (if v = 0 then zeroCount + 1 else 0) rbsp

def writeNaluContent (nalu : OutputNALUnit) : List UInt8 := escape 0 nalu.rbsp

def writeNaluWithHeader (nalu : OutputNALUnit) : Checked (List UInt8) := do
  let header ← writeNalUnitHeader nalu
  return header ++ writeNaluContent nalu

def startCodePrefix (useLongStartcode : Bool) : List UInt8 :=
  if useLongStartcode then [0, 0, 0, 1] else [0, 0, 1]

/-- `nalUnitData` is what `writeNaluWithHeader` made of the unit. -/
def writeAnnexBNalUnit (nalUnitData : List UInt8) (useLongStartcode : Bool) : List UInt8 :=
  startCodePrefix useLongStartcode ++ nalUnitData

/-! ## The header -/

/-- The fields fit their bits, and the layer is one the header admits. -/
structure OutputNALUnit.HeaderValid (nalu : OutputNALUnit) : Prop where
  nuhLayerId_le : nalu.nuhLayerId ≤ 55
  nalUnitType_lt : nalu.nalUnitType < 32
  temporalId_le : nalu.temporalId ≤ 6

/-- The two bytes of `nal_unit_header`. -/
def OutputNALUnit.header (nalu : OutputNALUnit) : List UInt8 :=
  [.ofNat nalu.nuhLayerId, .ofNat (nalu.nalUnitType * 8 + (nalu.temporalId + 1))]

theorem writeNalUnitHeader_ok {nalu : OutputNALUnit} (h : nalu.HeaderValid) :
    writeNalUnitHeader nalu = .ok nalu.header := by
  obtain ⟨hlayer, htype, htid⟩ := h
  obtain ⟨s₁, hs₁, hw₁, hb₁⟩ := OutputBitstream.write_spec OutputBitstream.clear_wf
    (show 1 ≤ 32 by decide) (show 0 < 2 ^ 1 by decide)
  obtain ⟨s₂, hs₂, hw₂, hb₂⟩ := OutputBitstream.write_spec hw₁
    (show 1 ≤ 32 by decide) (show 0 < 2 ^ 1 by decide)
  obtain ⟨s₃, hs₃, hw₃, hb₃⟩ := OutputBitstream.write_spec hw₂
    (show 6 ≤ 32 by decide) (show nalu.nuhLayerId < 2 ^ 6 by omega)
  obtain ⟨s₄, hs₄, hw₄, hb₄⟩ := OutputBitstream.write_spec hw₃
    (show 5 ≤ 32 by decide) (show nalu.nalUnitType < 2 ^ 5 by omega)
  obtain ⟨s₅, hs₅, hw₅, hb₅⟩ := OutputBitstream.write_spec hw₄
    (show 3 ≤ 32 by decide) (show nalu.temporalId + 1 < 2 ^ 3 by omega)
  have hrun : writeNalUnitHeader nalu = .ok s₅.fifo := by
    rw [writeNalUnitHeader, hs₁, ok_bind, hs₂, ok_bind, check_ok _ (by omega), ok_bind, hs₃,
      ok_bind, hs₄, ok_bind, hs₅]
    rfl
  have hbits : s₅.bits = bytesBits nalu.header := by
    have hfirst : toBits (1 + (1 + 6)) nalu.nuhLayerId =
        toBits 1 0 ++ (toBits 1 0 ++ toBits 6 nalu.nuhLayerId) := by
      rw [toBits_add, toBits_add, Nat.div_eq_of_lt (show nalu.nuhLayerId < 2 ^ (1 + 6) by omega),
        Nat.div_eq_of_lt (show nalu.nuhLayerId < 2 ^ 6 by omega)]
    have hsecond : toBits (5 + 3) (nalu.nalUnitType * 8 + (nalu.temporalId + 1)) =
        toBits 5 nalu.nalUnitType ++ toBits 3 (nalu.temporalId + 1) := by
      rw [toBits_add, ← toBits_mod 3 (nalu.nalUnitType * 8 + _), ← toBits_mod 3 (nalu.temporalId + 1)]
      congr 2 <;> omega
    rw [hb₅, hb₄, hb₃, hb₂, hb₁, OutputBitstream.bits_clear, OutputNALUnit.header, bytesBits_cons,
      bytesBits_cons, byteBits_ofNat, byteBits_ofNat, hfirst, hsecond]
    simp
  rw [hrun, (hw₅.fifo_eq hbits).2]

/-! ## Escaping -/

/-- No three bytes in a row look like the beginning of a start code. -/
def NoStartCode : List UInt8 → Prop
  | a :: b :: c :: bs => ¬(a = 0 ∧ b = 0 ∧ c ≤ 2) ∧ NoStartCode (b :: c :: bs)
  | _ => True

theorem NoStartCode.cons_of_ne {a : UInt8} (ha : a ≠ 0) : ∀ {bs : List UInt8}, NoStartCode bs →
    NoStartCode (a :: bs)
  | [], _ => trivial
  | [_], _ => trivial
  | _ :: _ :: _, h => ⟨fun hc => ha hc.1, h⟩

theorem NoStartCode.of_cons {a : UInt8} : ∀ {bs : List UInt8}, NoStartCode (a :: bs) → NoStartCode bs
  | [], _ => trivial
  | [_], _ => trivial
  | _ :: _ :: _, h => h.2

theorem NoStartCode.of_append (pre : List UInt8) {bs : List UInt8} (h : NoStartCode (pre ++ bs)) :
    NoStartCode bs := by
  induction pre with
  | nil => exact h
  | cons a pre ih => exact ih h.of_cons

/-- A byte triple that begins with another byte than zero. -/
theorem noStartCode_take_of_ne {a : UInt8} (ha : a ≠ 0) : ∀ bs : List UInt8,
    NoStartCode ((a :: bs).take 3)
  | [] => trivial
  | [_] => trivial
  | _ :: _ :: _ => ⟨fun hc => ha hc.1, trivial⟩

/-- The rules for the one or two zero bytes that may come before. -/
theorem NoStartCode.zero_cons {v : UInt8} (hv : v ≠ 0) {bs : List UInt8}
    (h : NoStartCode (v :: bs)) : NoStartCode (0 :: v :: bs) := by
  cases bs with
  | nil => trivial
  | cons b bs => exact ⟨fun hc => hv hc.2.1, h⟩

theorem NoStartCode.zero_zero_cons {v : UInt8} (hv : 3 ≤ v) {bs : List UInt8}
    (h : NoStartCode (v :: bs)) : NoStartCode (0 :: 0 :: v :: bs) := by
  have hv0 : v ≠ 0 := by
    rintro rfl
    exact absurd hv (by decide)
  refine ⟨fun hc => ?_, h.zero_cons hv0⟩
  exact absurd (UInt8.le_trans hv hc.2.2) (by decide)

/-- Whatever the payload, its escaped form after `zeroCount` zeros holds no
start code. -/
theorem noStartCode_escape (rbsp : List UInt8) : ∀ zeroCount, zeroCount ≤ 2 →
    NoStartCode (List.replicate zeroCount 0 ++ escape zeroCount rbsp) := by
  induction rbsp with
  | nil =>
    intro zeroCount hz
    have : zeroCount = 0 ∨ zeroCount = 1 ∨ zeroCount = 2 := by omega
    rcases this with rfl | rfl | rfl <;> simp [escape, NoStartCode, emulationPreventionThreeByte]
  | cons v rbsp ih =>
    intro zeroCount hz
    have hone := ih 1 (by omega)
    have hzero := ih 0 (by omega)
    have hnext : NoStartCode (v :: escape (if v = 0 then 1 else 0) rbsp) := by
      by_cases hv : v = 0
      · rw [if_pos hv, hv]
        exact hone
      · rw [if_neg hv]
        exact NoStartCode.cons_of_ne hv hzero
    rw [escape]
    split
    · next hesc =>
      rw [hesc.1]
      exact NoStartCode.zero_zero_cons (by decide) (NoStartCode.cons_of_ne (by decide) hnext)
    · next hplain =>
      by_cases hv : v = 0
      · have hz1 : zeroCount ≠ 2 := fun h2 => hplain ⟨h2, hv ▸ by decide⟩
        have hrep : List.replicate (zeroCount + 1) (0 : UInt8) ++ escape (zeroCount + 1) rbsp =
            List.replicate zeroCount 0 ++ 0 :: escape (zeroCount + 1) rbsp := by
          rw [List.replicate_succ', List.append_assoc]
          rfl
        rw [if_pos hv, hv, ← hrep]
        exact ih (zeroCount + 1) (by omega)
      · rw [if_neg hv] at hnext ⊢
        have : zeroCount = 0 ∨ zeroCount = 1 ∨ zeroCount = 2 := by omega
        rcases this with rfl | rfl | rfl
        · exact hnext
        · exact hnext.zero_cons hv
        · refine hnext.zero_zero_cons (UInt8.le_of_lt (UInt8.not_le.mp fun hle => hplain ⟨rfl, hle⟩))

/-- The last byte of an escaped payload, if there is one, is not zero. -/
theorem escape_last (rbsp : List UInt8) : ∀ {zeroCount : Nat} {b : UInt8},
    (escape zeroCount rbsp).getLast? = some b → b ≠ 0 := by
  induction rbsp with
  | nil =>
    intro zeroCount b h
    rw [escape] at h
    split at h
    · obtain rfl : emulationPreventionThreeByte = b := by simpa using h
      decide
    · simp at h
  | cons v rbsp ih =>
    have hcons : ∀ {z : Nat} {b : UInt8}, (v :: escape (if v = 0 then z + 1 else 0) rbsp).getLast? = some b →
        b ≠ 0 := by
      intro z b h
      rw [List.getLast?_cons] at h
      cases hl : (escape (if v = 0 then z + 1 else 0) rbsp).getLast? with
      | some c =>
        rw [hl] at h
        obtain rfl : c = b := by simpa using h
        exact ih hl
      | none =>
        rw [hl] at h
        obtain rfl : v = b := by simpa using h
        rintro rfl
        rw [if_pos rfl, List.getLast?_eq_none_iff] at hl
        cases rbsp with
        | nil => simp [escape] at hl
        | cons c rbsp =>
          rw [escape] at hl
          split at hl <;> cases hl
    intro zeroCount b h
    rw [escape] at h
    split at h
    · rw [List.getLast?_cons] at h
      cases hl : (v :: escape (if v = 0 then 0 + 1 else 0) rbsp).getLast? with
      | none => simp at hl
      | some c =>
        rw [show (1 : Nat) = 0 + 1 from rfl, hl] at h
        obtain rfl : c = b := by simpa using h
        exact hcons hl
    · exact hcons h

/-! ## A whole unit -/

/-- The bytes of a unit with a valid header. -/
def OutputNALUnit.ebsp (nalu : OutputNALUnit) : List UInt8 := nalu.header ++ writeNaluContent nalu

theorem writeNaluWithHeader_ok {nalu : OutputNALUnit} (h : nalu.HeaderValid) :
    writeNaluWithHeader nalu = .ok nalu.ebsp := by
  rw [writeNaluWithHeader, writeNalUnitHeader_ok h]
  rfl

/-- The temporal id keeps the second header byte away from zero. -/
theorem OutputNALUnit.header_second_ne {nalu : OutputNALUnit} (h : nalu.HeaderValid) :
    UInt8.ofNat (nalu.nalUnitType * 8 + (nalu.temporalId + 1)) ≠ 0 := by
  obtain ⟨-, htype, htid⟩ := h
  intro hz
  have := congrArg UInt8.toNat hz
  rw [UInt8.toNat_ofNat', UInt8.toNat_zero] at this
  omega

theorem OutputNALUnit.ebsp_noStartCode {nalu : OutputNALUnit} (h : nalu.HeaderValid) :
    NoStartCode nalu.ebsp := by
  have hsecond := header_second_ne h
  have htail := NoStartCode.cons_of_ne hsecond (noStartCode_escape nalu.rbsp 0 (by omega))
  rw [ebsp, header]
  by_cases hfirst : UInt8.ofNat nalu.nuhLayerId = 0
  · rw [hfirst]
    exact htail.zero_cons hsecond
  · exact NoStartCode.cons_of_ne hfirst htail

theorem OutputNALUnit.ebsp_last {nalu : OutputNALUnit} (h : nalu.HeaderValid) {b : UInt8}
    (hb : nalu.ebsp.getLast? = some b) : b ≠ 0 := by
  rw [ebsp, List.getLast?_append] at hb
  cases hl : (writeNaluContent nalu).getLast? with
  | some c =>
    rw [hl] at hb
    obtain rfl : c = b := by simpa using hb
    exact escape_last nalu.rbsp hl
  | none =>
    rw [hl] at hb
    obtain rfl : UInt8.ofNat (nalu.nalUnitType * 8 + (nalu.temporalId + 1)) = b := by
      simpa [header] using hb
    exact header_second_ne h

end ECM.EncoderLib.NALwrite
