import ECM.DecoderLib.LookAhead

/-! # NAL units that are written again

A tool that writes the payload of a unit it has read back with `writeNaluContent` writes
a unit that is read as the same one, whatever emulation prevention bytes it had before. -/

namespace ECM.Nal.Copy
open CommonLib CommonLib.BitStream EncoderLib.NALwrite DecoderLib.NALread
open DecoderLib

/-- A payload that came out of `unescape` is escaped to one that gives it again. -/
theorem unescape_again : ∀ (buf : List UInt8) {zeroCount pos : ℕ} {rbsp : List UInt8}
    {locations : List ℕ} (pos' : ℕ), zeroCount ≤ 2 →
    unescape zeroCount pos buf = .ok (rbsp, locations, 0) →
    ∃ locations', unescape zeroCount pos' (escape zeroCount rbsp) = .ok (rbsp, locations', 0)
  | [], zeroCount, pos, rbsp, locations, pos', _, h => by
    rw [unescape] at h
    cases h
    exact ⟨[], rfl⟩
  | b :: buf, zeroCount, pos, rbsp, locations, pos', hz, h => by
    rw [unescape.eq_def] at h
    obtain ⟨_, hcheck, h⟩ := bind_eq_ok h
    have hlow := check_eq_ok hcheck
    by_cases hesc : zeroCount = 2 ∧ b = 0x03
    · rw [if_pos hesc] at h
      cases buf with
      | nil =>
        cases h
        rw [hesc.1]
        exact ⟨[pos'], rfl⟩
      | cons c buf =>
        obtain ⟨_, hcheck, h⟩ := bind_eq_ok h
        have hc : c ≤ 3 := UInt8.not_lt.mp (check_eq_ok hcheck)
        obtain ⟨⟨rest, locs, z⟩, hrest, h⟩ := bind_eq_ok h
        cases h
        have hz' : (if c = 0 then 1 else 0) ≤ 2 := by split <;> decide
        obtain ⟨locs', hagain⟩ := unescape_again buf (pos' + 2) hz' hrest
        refine ⟨pos' :: locs', ?_⟩
        rw [hesc.1, escape, if_pos ⟨rfl, hc⟩]
        exact unescape_prevented hc hagain
    · rw [if_neg hesc] at h
      obtain ⟨⟨rest, locs, z⟩, hrest, h⟩ := bind_eq_ok h
      cases h
      have hbig : zeroCount ≥ 2 → 3 < b := by
        intro hge
        have htwo : zeroCount = 2 := by omega
        have hle : 3 ≤ b := UInt8.not_lt.mp fun hlt => hlow ⟨hge, hlt⟩
        exact UInt8.lt_of_le_of_ne hle fun heq => hesc ⟨htwo, heq.symm⟩
      have hz' : (if b = 0 then zeroCount + 1 else 0) ≤ 2 := by
        split
        · next hb =>
          have : ¬zeroCount ≥ 2 := fun hge => absurd (hbig hge) (by rw [hb]; decide)
          omega
        · decide
      obtain ⟨locs', hagain⟩ := unescape_again buf (pos' + 1) hz' hrest
      refine ⟨locs', ?_⟩
      have hplain : ¬(zeroCount = 2 ∧ b ≤ 3) := fun hc =>
        absurd (hbig (by omega)) (UInt8.not_lt.mpr hc.2)
      rw [escape, if_neg hplain]
      exact unescape_plain hbig hagain

theorem removeCabacZeroWords_ends (rbsp : List UInt8) : EndsNonzero (removeCabacZeroWords rbsp) := by
  intro b hb
  rw [removeCabacZeroWords, List.getLast?_reverse] at hb
  have hne := List.head?_dropWhile_not (p := (· = (0 : UInt8))) rbsp.reverse
  rw [hb] at hne
  simpa using hne

theorem convertPayloadToRBSP_again {buf rbsp : List UInt8} {locations : List ℕ} {isVclNalUnit : Bool}
    (h : convertPayloadToRBSP buf isVclNalUnit = .ok (rbsp, locations)) :
    ∃ locations', convertPayloadToRBSP (escape 0 rbsp) isVclNalUnit = .ok (rbsp, locations') := by
  obtain ⟨⟨payload, locs, z⟩, hrun, h⟩ := bind_eq_ok h
  obtain ⟨_, hcheck, h⟩ := bind_eq_ok h
  have hz : z = 0 := not_not.mp (check_eq_ok hcheck)
  cases h
  rw [hz] at hrun
  cases isVclNalUnit with
  | true =>
    have hends := removeCabacZeroWords_ends payload
    have hagain := unescape_escape (removeCabacZeroWords payload) 0 (Nat.zero_le 2) (fun _ => rfl) hends
    refine ⟨escapePositions 0 0 (removeCabacZeroWords payload), ?_⟩
    rw [if_pos rfl, convertPayloadToRBSP, hagain, ok_bind]
    dsimp only
    rw [check_ok _ (by decide), ok_bind, if_pos rfl, removeCabacZeroWords_eq hends]
    rfl
  | false =>
    obtain ⟨locs', hagain⟩ := unescape_again buf 0 (Nat.zero_le 2) hrun
    refine ⟨locs', ?_⟩
    rw [if_neg Bool.false_ne_true, convertPayloadToRBSP, hagain]
    rfl

/-! ## The header -/

/-- `s` with other positions of emulation prevention bytes. -/
def relocate (l : List ℕ) (s : InputBitstream) : InputBitstream :=
  { s with emulationPreventionByteLocation := l }

theorem read_relocate {s t : InputBitstream} {n v : ℕ} (l : List ℕ) (h : s.read n = .ok (v, t)) :
    (relocate l s).read n = .ok (v, relocate l t) ∧ t.fifo = s.fifo := by
  rw [InputBitstream.read] at h ⊢
  obtain ⟨_, hcheck, h⟩ := bind_eq_ok h
  rw [hcheck, ok_bind]
  by_cases hheld : n ≤ s.numHeldBits
  · rw [if_pos hheld] at h
    rw [if_pos (show n ≤ (relocate l s).numHeldBits from hheld)]
    cases h
    exact ⟨rfl, rfl⟩
  · rw [if_neg hheld] at h
    rw [if_neg (show ¬n ≤ (relocate l s).numHeldBits from hheld)]
    obtain ⟨_, hcheck, h⟩ := bind_eq_ok h
    have hcheck' : check ((relocate l s).fifoIdx + (n - (relocate l s).numHeldBits - 1) >>> 3 ≥
        (relocate l s).fifo.length) "Exceeded FIFO size" = .ok () := hcheck
    cases h
    dsimp only
    rw [hcheck', ok_bind]
    exact ⟨rfl, rfl⟩

theorem readNalUnitHeader_relocate {s : InputBitstream} {nalu : InputNALUnit} (l : List ℕ)
    (h : readNalUnitHeader s = .ok nalu) :
    readNalUnitHeader (relocate l s) = .ok { nalu with m_Bitstream := relocate l nalu.m_Bitstream } ∧
      nalu.m_Bitstream.fifo = s.fifo := by
  obtain ⟨⟨v₁, s₁⟩, h₁, h⟩ := bind_eq_ok h
  obtain ⟨⟨v₂, s₂⟩, h₂, h⟩ := bind_eq_ok h
  obtain ⟨⟨v₃, s₃⟩, h₃, h⟩ := bind_eq_ok h
  obtain ⟨_, hlayer, h⟩ := bind_eq_ok h
  obtain ⟨⟨v₄, s₄⟩, h₄, h⟩ := bind_eq_ok h
  obtain ⟨⟨v₅, s₅⟩, h₅, h⟩ := bind_eq_ok h
  obtain ⟨h₁', hf₁⟩ := read_relocate l h₁
  obtain ⟨h₂', hf₂⟩ := read_relocate l h₂
  obtain ⟨h₃', hf₃⟩ := read_relocate l h₃
  obtain ⟨h₄', hf₄⟩ := read_relocate l h₄
  obtain ⟨h₅', hf₅⟩ := read_relocate l h₅
  dsimp only at h₂ h₃ hlayer h₄ h₅ h
  rw [readNalUnitHeader, h₁', ok_bind]
  dsimp only
  rw [h₂', ok_bind]
  dsimp only
  rw [h₃', ok_bind]
  dsimp only
  rw [hlayer, ok_bind, h₄', ok_bind]
  dsimp only
  rw [h₅', ok_bind]
  dsimp only
  have hfifo : s₅.fifo = s.fifo := by rw [hf₅, hf₄, hf₃, hf₂, hf₁]
  split at h
  · next hbase =>
    obtain ⟨_, hstsa, h⟩ := bind_eq_ok h
    cases h
    rw [if_pos hbase, hstsa]
    exact ⟨rfl, hfifo⟩
  · next hbase =>
    cases h
    rw [if_neg hbase]
    exact ⟨rfl, hfifo⟩

/-- The first byte of a payload stays the first one. -/
theorem headD_escape (rbsp : List UInt8) : (escape 0 rbsp).headD 0 = rbsp.headD 0 := by
  cases rbsp with
  | nil => rfl
  | cons v rbsp =>
    rw [escape, if_neg (fun h => absurd h.1 (by decide))]
    rfl

theorem headD_unescape {buf rbsp : List UInt8} {locations : List ℕ} {z : ℕ}
    (h : unescape 0 0 buf = .ok (rbsp, locations, z)) : rbsp.headD 0 = buf.headD 0 := by
  cases buf with
  | nil =>
    cases h
    rfl
  | cons b buf =>
    rw [unescape.eq_def] at h
    obtain ⟨_, -, h⟩ := bind_eq_ok h
    rw [if_neg (fun hc => absurd hc.1 (by decide))] at h
    obtain ⟨⟨rest, locs, z⟩, -, h⟩ := bind_eq_ok h
    cases h
    rfl

theorem headD_removeCabacZeroWords {rbsp : List UInt8} (h : removeCabacZeroWords rbsp ≠ []) :
    (removeCabacZeroWords rbsp).headD 0 = rbsp.headD 0 := by
  obtain ⟨zeros, hzeros⟩ : removeCabacZeroWords rbsp <+: rbsp := by
    rw [removeCabacZeroWords, ← List.reverse_suffix, List.reverse_reverse]
    exact List.dropWhile_suffix _
  cases hkept : removeCabacZeroWords rbsp with
  | nil => exact absurd hkept h
  | cons b kept =>
    rw [hkept] at hzeros
    rw [← hzeros]
    rfl

theorem headD_convertPayloadToRBSP {buf rbsp : List UInt8} {locations : List ℕ} {isVclNalUnit : Bool}
    (h : convertPayloadToRBSP buf isVclNalUnit = .ok (rbsp, locations)) (hne : rbsp ≠ []) :
    rbsp.headD 0 = buf.headD 0 := by
  obtain ⟨⟨payload, locs, z⟩, hrun, h⟩ := bind_eq_ok h
  obtain ⟨_, -, h⟩ := bind_eq_ok h
  cases h
  split at hne
  · next hvcl =>
    rw [if_pos hvcl, headD_removeCabacZeroWords hne, headD_unescape hrun]
  · next hvcl =>
    rw [if_neg hvcl, headD_unescape hrun]

/-- A header takes bytes. -/
theorem fifo_ne_nil_of_read {s t : InputBitstream} {n v : ℕ} (hn : s.numHeldBits < n)
    (h : s.read n = .ok (v, t)) : s.fifo ≠ [] := by
  intro hnil
  rw [InputBitstream.read] at h
  obtain ⟨_, -, h⟩ := bind_eq_ok h
  rw [if_neg (Nat.not_le.mpr hn)] at h
  obtain ⟨_, hcheck, -⟩ := bind_eq_ok h
  refine check_eq_ok hcheck ?_
  rw [hnil]
  exact Nat.zero_le _

/-- The unit read back from what `writeNaluContent` makes of it: the same header and RBSP. -/
theorem readNalu_again {buf : List UInt8} {nalu : InputNALUnit} (h : readNalu buf = .ok nalu) :
    ∃ locations, readNalu (escape 0 nalu.m_Bitstream.fifo) =
      .ok { nalu with m_Bitstream := relocate locations nalu.m_Bitstream } := by
  obtain ⟨⟨rbsp, locs⟩, hconvert, hheader⟩ := bind_eq_ok h
  dsimp only at hheader
  obtain ⟨locs', hagain⟩ := convertPayloadToRBSP_again hconvert
  obtain ⟨hrelocate, hfifo⟩ := readNalUnitHeader_relocate locs' hheader
  obtain ⟨⟨v, t⟩, hread, -⟩ := bind_eq_ok hheader
  have hne : rbsp ≠ [] := fifo_ne_nil_of_read (Nat.zero_lt_one) hread
  have hfifo' : nalu.m_Bitstream.fifo = rbsp := hfifo
  refine ⟨locs', ?_⟩
  rw [hfifo', readNalu, headD_escape, headD_convertPayloadToRBSP hconvert hne, hagain]
  exact hrelocate

end ECM.Nal.Copy
