import ECM.EncoderLib.NALwrite

/-! # The payload of a received NAL unit

`convertPayloadToRBSP` takes the emulation prevention bytes out again and
remembers where they were. It undoes `escape` on every payload that does not
end in a zero byte. -/

namespace ECM.DecoderLib.NALread
open CommonLib EncoderLib.NALwrite

/-- The loop of `convertPayloadToRBSP`: the bytes kept, the positions of those
taken out, and the final `zeroCount`. -/
def unescape (zeroCount pos : Nat) : List UInt8 → Checked (List UInt8 × List Nat × Nat)
  | [] => .ok ([], [], zeroCount)
  | b :: buf => do
    check (zeroCount ≥ 2 ∧ b < 0x03) "Zero count is '2' and read value is small than '3'"
    if zeroCount = 2 ∧ b = 0x03 then
      match buf with
      | [] => return ([], [pos], 0)
      | c :: buf =>
        check (c > 0x03) "Read a value bigger than '3'"
        let (rbsp, locations, zeroCount) ← unescape (if c = 0 then 1 else 0) (pos + 2) buf
        return (c :: rbsp, pos :: locations, zeroCount)
    else
      let (rbsp, locations, zeroCount) ← unescape (if b = 0 then zeroCount + 1 else 0) (pos + 1) buf
      return (b :: rbsp, locations, zeroCount)

/-- `while( it_write[-1] == 0x00 ) it_write--;`, which stops at the first byte. -/
def removeCabacZeroWords (rbsp : List UInt8) : List UInt8 :=
  (rbsp.reverse.dropWhile (· = 0)).reverse

def convertPayloadToRBSP (nalUnitBuf : List UInt8) (isVclNalUnit : Bool) :
    Checked (List UInt8 × List Nat) := do
  let (rbsp, locations, zeroCount) ← unescape 0 0 nalUnitBuf
  check (zeroCount ≠ 0) "Zero count not '0'"
  return (if isVclNalUnit then removeCabacZeroWords rbsp else rbsp, locations)

/-- A payload the encoder hands over: empty, or with a last byte that is not zero. -/
def EndsNonzero (rbsp : List UInt8) : Prop := ∀ b, rbsp.getLast? = some b → b ≠ 0

/-- The positions of the bytes that `escape` inserts, when the first byte it
writes is at `pos`. -/
def escapePositions : (zeroCount pos : Nat) → List UInt8 → List Nat
  | _, _, [] => []
  | zeroCount, pos, v :: rbsp =>
    if zeroCount = 2 ∧ v ≤ 3 then pos :: escapePositions (if v = 0 then 1 else 0) (pos + 2) rbsp
    else escapePositions (if v = 0 then zeroCount + 1 else 0) (pos + 1) rbsp

theorem EndsNonzero.tail {v : UInt8} {rbsp : List UInt8} (h : EndsNonzero (v :: rbsp)) :
    EndsNonzero rbsp := by
  intro b hb
  refine h b ?_
  rw [List.getLast?_cons, hb]
  rfl

/-- A zero byte is never the last one. -/
theorem EndsNonzero.zeroCount_eq {v : UInt8} {rbsp : List UInt8} (h : EndsNonzero (v :: rbsp)) (k : Nat) :
    rbsp = [] → (if v = 0 then k else 0) = 0 := by
  rintro rfl
  exact if_neg (h v rfl)

/-- A byte that is kept as it is. -/
theorem unescape_plain {zeroCount pos : Nat} {b : UInt8} {buf rbsp : List UInt8} {locations : List Nat}
    {z : Nat} (hb : zeroCount ≥ 2 → 3 < b)
    (h : unescape (if b = 0 then zeroCount + 1 else 0) (pos + 1) buf = .ok (rbsp, locations, z)) :
    unescape zeroCount pos (b :: buf) = .ok (b :: rbsp, locations, z) := by
  have hcheck : ¬(zeroCount ≥ 2 ∧ b < 0x03) := fun h =>
    absurd (UInt8.lt_trans (hb h.1) h.2) (by decide)
  have hplain : ¬(zeroCount = 2 ∧ b = 0x03) := by
    rintro ⟨rfl, rfl⟩
    exact absurd (hb (Nat.le_refl 2)) (by decide)
  rw [unescape.eq_def]
  dsimp only
  rw [check_ok _ hcheck, ok_bind, if_neg hplain, h]
  rfl

/-- A byte behind an emulation prevention byte. -/
theorem unescape_prevented {pos : Nat} {c : UInt8} {buf rbsp : List UInt8} {locations : List Nat}
    {z : Nat} (hc : c ≤ 3) (h : unescape (if c = 0 then 1 else 0) (pos + 2) buf = .ok (rbsp, locations, z)) :
    unescape 2 pos (emulationPreventionThreeByte :: c :: buf) =
      .ok (c :: rbsp, pos :: locations, z) := by
  rw [unescape.eq_def]
  dsimp only
  rw [check_ok _ (by decide), ok_bind, if_pos ⟨rfl, rfl⟩, check_ok _ (UInt8.not_lt.mpr hc), ok_bind, h]
  rfl

/-- Unescaping what was escaped. -/
theorem unescape_escape (rbsp : List UInt8) : ∀ {zeroCount : Nat} (pos : Nat), zeroCount ≤ 2 →
    (rbsp = [] → zeroCount = 0) → EndsNonzero rbsp →
    unescape zeroCount pos (escape zeroCount rbsp) =
      .ok (rbsp, escapePositions zeroCount pos rbsp, 0) := by
  induction rbsp with
  | nil =>
    intro zeroCount pos _ hz _
    rw [hz rfl]
    rfl
  | cons v rbsp ih =>
    intro zeroCount pos h2 _ hlast
    by_cases hesc : zeroCount = 2 ∧ v ≤ 3
    · have hrest := ih (pos + 2) (show (if v = 0 then 1 else 0) ≤ 2 by split <;> decide)
        (hlast.zeroCount_eq 1) hlast.tail
      rw [escape, if_pos hesc, escapePositions, if_pos hesc, hesc.1]
      exact unescape_prevented hesc.2 hrest
    · have hbig : zeroCount ≥ 2 → 3 < v := fun h =>
        UInt8.not_le.mp fun hle => hesc ⟨by omega, hle⟩
      have hz : (if v = 0 then zeroCount + 1 else 0) ≤ 2 := by
        split
        · next hv =>
          have : zeroCount ≠ 2 := fun h => hesc ⟨h, hv ▸ by decide⟩
          omega
        · decide
      rw [escape, if_neg hesc, escapePositions, if_neg hesc]
      exact unescape_plain hbig (ih (pos + 1) hz (hlast.zeroCount_eq _) hlast.tail)

theorem removeCabacZeroWords_eq {rbsp : List UInt8} (h : EndsNonzero rbsp) :
    removeCabacZeroWords rbsp = rbsp := by
  rw [removeCabacZeroWords]
  cases hr : rbsp.reverse with
  | nil => simp [List.reverse_eq_nil_iff.mp hr]
  | cons b bs =>
    have hb : b ≠ 0 := h b (by rw [← List.head?_reverse, hr]; rfl)
    rw [List.dropWhile_cons_of_neg (by simpa using hb), ← hr, List.reverse_reverse]

/-- A unit of the encoder, taken apart: the header, the payload, and where the
inserted bytes were. -/
theorem convertPayloadToRBSP_ebsp {nalu : OutputNALUnit} (hvalid : nalu.HeaderValid)
    (hlast : EndsNonzero nalu.rbsp) (isVclNalUnit : Bool) :
    convertPayloadToRBSP nalu.ebsp isVclNalUnit =
      .ok (nalu.header ++ nalu.rbsp, escapePositions 0 2 nalu.rbsp) := by
  have hpayload := unescape_escape nalu.rbsp 2 (Nat.zero_le 2) (fun _ => rfl) hlast
  have hsecond := OutputNALUnit.header_second_ne hvalid
  have hbody : unescape 0 0 nalu.ebsp =
      .ok (nalu.header ++ nalu.rbsp, escapePositions 0 2 nalu.rbsp, 0) := by
    refine unescape_plain (fun h => absurd h (by decide)) (unescape_plain (fun h => ?_) ?_)
    · split at h <;> exact absurd h (by decide)
    · rw [if_neg hsecond]
      exact hpayload
  have hends : EndsNonzero (nalu.header ++ nalu.rbsp) := by
    intro b hb
    rw [List.getLast?_append] at hb
    cases hl : nalu.rbsp.getLast? with
    | some c =>
      rw [hl] at hb
      cases hb
      exact hlast b hl
    | none =>
      rw [hl] at hb
      cases hb
      exact hsecond
  rw [convertPayloadToRBSP, hbody, ok_bind]
  dsimp only
  rw [check_ok _ (by decide), ok_bind, removeCabacZeroWords_eq hends, ite_self]
  rfl

end ECM.DecoderLib.NALread
