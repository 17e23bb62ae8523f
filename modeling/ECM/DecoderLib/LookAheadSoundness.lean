import ECM.DecoderLib.AnnexBreadSoundness
import ECM.DecoderLib.LookAhead
import ECM.Lib.Trace

/-! # Looking ahead leaves the file where it was

A reader is known by the bytes it has still to hand out: two readers of the same
bytes give the same NAL units, whatever they have looked ahead. A reader that
stops at a start code holds exactly that start code, so three bytes back from the
position of the file a start code follows. -/

namespace ECM.DecoderLib
open CommonLib Lib.Simulation EncoderLib.NALwrite
open DecoderLib.AnnexBread DecoderLib.AnnexBread.InputByteStream

/-! ## Readers of the same bytes -/

def SameBytes (s t : InputByteStream) : Prop := ∃ rest, s.Ahead rest ∧ t.Ahead rest

theorem agree_lookAhead {n : ℕ} (h4 : n ≤ 4) (p : ℕ → Bool) : Agree SameBytes (lookAhead n p) := by
  rintro s t ⟨rest, hs, ht⟩
  obtain ⟨s', hrun, hs', -⟩ := lookAhead_spec hs h4 p
  obtain ⟨t', hrun', ht', -⟩ := lookAhead_spec ht h4 p
  rw [hrun, hrun']
  exact .ok ⟨rest, hs', ht'⟩

theorem agree_peekBytes {n : ℕ} (h4 : n ≤ 4) : Agree SameBytes (peekBytes n) := by
  rintro s t ⟨rest, hs, ht⟩
  obtain ⟨s', hrun, hs', -⟩ := peekBytes_spec hs h4
  obtain ⟨t', hrun', ht', -⟩ := peekBytes_spec ht h4
  rw [hrun, hrun']
  exact .ok ⟨rest, hs', ht'⟩

theorem agree_readByte : Agree SameBytes readByte := by
  rintro s t ⟨rest, hs, ht⟩
  cases rest with
  | nil =>
    rw [readByte_eof hs, readByte_eof ht]
    exact .error ⟨[], hs, ht⟩
  | cons b rest =>
    obtain ⟨s', hrun, hs', -⟩ := readByte_ok hs
    obtain ⟨t', hrun', ht', -⟩ := readByte_ok ht
    rw [hrun, hrun']
    exact .ok ⟨rest, hs', ht'⟩

theorem agree_readBytes (n : ℕ) : ∀ val, Agree SameBytes (readBytes n val) := by
  induction n with
  | zero => exact fun val => agree_pure val
  | succ n ih => exact fun val => agree_bind agree_readByte fun b => ih _

theorem agree_beforeStartCode : Agree SameBytes beforeStartCode := by
  refine agree_bind (agree_lookAhead (show 3 ≤ 4 by decide) _) fun cond => ?_
  exact agree_ite (agree_lookAhead (show 4 ≤ 4 by decide) _) (agree_pure false)

theorem agree_insideNalUnit : Agree SameBytes insideNalUnit :=
  agree_lookAhead (show 3 ≤ 4 by decide) _

/-- Two calls on readers of the same bytes that have collected the same unit. -/
def SameCall (p q : Parse) : Prop := q.nalUnit = p.nalUnit ∧ SameBytes p.bs q.bs

theorem agree_onStream {α : Type} {x : StreamM α} (hx : Agree SameBytes x) :
    Agree SameCall (onStream x) := by
  rintro p q ⟨hunit, hbytes⟩
  have hrun := hx p.bs q.bs hbytes
  unfold onStream
  cases hp : x p.bs with
  | ok a bs =>
    rw [hp] at hrun
    generalize x q.bs = r at hrun
    cases hrun with
    | ok h => exact .ok ⟨hunit, h⟩
  | error e bs =>
    rw [hp] at hrun
    generalize x q.bs = r at hrun
    cases hrun with
    | error h => exact .error ⟨hunit, h⟩

theorem agree_readWhile {cond : StreamM Bool} {body : UInt8 → ParseM Unit}
    (hcond : Agree SameBytes cond) (hbody : ∀ b, Agree SameCall (body b)) (fuel : ℕ) :
    Agree SameCall (readWhile cond body fuel) := by
  induction fuel with
  | zero => exact agree_pure ()
  | succ fuel ih =>
    refine agree_bind (agree_onStream hcond) fun go => agree_ite ?_ (agree_pure ())
    exact agree_bind (agree_onStream agree_readByte) fun b => agree_bind (hbody b) fun _ => ih

theorem agree_whileByte {cond : StreamM Bool} {body : UInt8 → ParseM Unit}
    (hcond : Agree SameBytes cond) (hbody : ∀ b, Agree SameCall (body b)) :
    Agree SameCall (whileByte cond body) := by
  rintro p q ⟨hunit, rest, hp, hq⟩
  rw [whileByte_eq cond body hp, whileByte_eq cond body hq]
  exact agree_readWhile hcond hbody _ p q ⟨hunit, rest, hp, hq⟩

theorem agree_stats (f : Parse → AnnexBStats) :
    Agree SameCall (modify fun p => { p with stats := f p } : ParseM Unit) :=
  agree_modify fun _ _ h => h

theorem agree_skipLeadingZero (b : UInt8) : Agree SameCall (skipLeadingZero b) :=
  agree_ite (agree_bind (agree_throw _) fun _ => agree_stats _) (agree_stats _)

theorem agree_skipTrailingZero (b : UInt8) : Agree SameCall (skipTrailingZero b) :=
  agree_ite (agree_bind (agree_throw _) fun _ => agree_stats _) (agree_stats _)

theorem agree_pushByte (b : UInt8) : Agree SameCall (pushByte b) :=
  agree_modify fun _ _ h => ⟨congrArg (· ++ [b]) h.1, h.2⟩

theorem agree_readZeroByte : Agree SameCall readZeroByte := by
  refine agree_bind (agree_onStream (agree_peekBytes (show 3 ≤ 4 by decide))) fun word => ?_
  refine agree_ite (agree_bind (agree_onStream agree_readByte) fun zeroByte => ?_) (agree_pure ())
  exact agree_ite (agree_bind (agree_throw _) fun _ => agree_stats _) (agree_stats _)

theorem agree_readStartCodePrefix : Agree SameCall readStartCodePrefix := by
  refine agree_bind (agree_onStream (agree_readBytes 3 0)) fun word => ?_
  exact agree_ite (agree_bind (agree_throw _) fun _ => agree_stats _) (agree_stats _)

theorem agree_byteStreamNALUnitBody : Agree SameCall byteStreamNALUnitBody := by
  refine agree_bind (agree_whileByte agree_beforeStartCode agree_skipLeadingZero) fun _ => ?_
  refine agree_bind agree_readZeroByte fun _ => agree_bind agree_readStartCodePrefix fun _ => ?_
  refine agree_bind (agree_whileByte agree_insideNalUnit agree_pushByte) fun _ => ?_
  exact agree_whileByte agree_beforeStartCode agree_skipTrailingZero

/-! ## Calls -/

namespace BitstreamFile

variable {f g : BitstreamFile} {rest tail : List UInt8} {long long' : Bool}

/-- The call of the next unit, for `byteStreamNALUnitBody`. -/
def call (f : BitstreamFile) : Parse := ⟨f.bytestream, [], noStats⟩

theorem nextNalUnit_ok {p : Parse} (h : byteStreamNALUnitBody f.call = .ok () p) :
    f.nextNalUnit = (p.nalUnit, { f with bytestream := p.bs }) := by
  have hcaught : caught f.call = none := by rw [caught, h]
  have hrun : byteStreamNALUnit f.call =
      (false, { p with stats.numBytesInNALUnit := u32 p.nalUnit.length }) := by
    rw [byteStreamNALUnit, h]
  rw [call] at hcaught hrun
  simp only [nextNalUnit, hrun, hcaught, Option.isSome_none, Bool.false_and, Bool.or_false]

theorem nextNalUnit_error {e : Thrown} {p : Parse} (h : byteStreamNALUnitBody f.call = .error e p) :
    f.nextNalUnit = (p.nalUnit, { f with
      bytestream := p.bs
      failed := f.failed || decide (p.bs.numFutureBytes + p.bs.input.length < 3) }) := by
  have hcaught : caught f.call = some e := by rw [caught, h]
  have hrun : byteStreamNALUnit f.call =
      (true, { p with stats.numBytesInNALUnit := u32 p.nalUnit.length }) := by
    rw [byteStreamNALUnit, h]
  rw [call] at hcaught hrun
  simp only [nextNalUnit, hrun, hcaught, Option.isSome_some, Bool.true_and]

theorem nextNalUnit_bytes (f : BitstreamFile) : f.nextNalUnit.2.bytes = f.bytes := rfl

/-- Calls that end alike give the same unit, and readers of the same bytes. -/
theorem nextNalUnit_of_sameResult
    (h : SameResult SameCall (byteStreamNALUnitBody f.call) (byteStreamNALUnitBody g.call)) :
    g.nextNalUnit.1 = f.nextNalUnit.1 ∧
      SameBytes f.nextNalUnit.2.bytestream g.nextNalUnit.2.bytestream := by
  cases hf : byteStreamNALUnitBody f.call with
  | ok a p =>
    cases hg : byteStreamNALUnitBody g.call with
    | ok b q =>
      rw [hf, hg] at h
      rw [nextNalUnit_ok hf, nextNalUnit_ok hg]
      cases h with
      | ok h => exact h
    | error e q => rw [hf, hg] at h; cases h
  | error e p =>
    cases hg : byteStreamNALUnitBody g.call with
    | ok b q => rw [hf, hg] at h; cases h
    | error e' q =>
      rw [hf, hg] at h
      rw [nextNalUnit_error hf, nextNalUnit_error hg]
      cases h with
      | error h => exact h

/-- The units depend on the bytes to be handed out only. -/
theorem nalUnits_sameBytes (n : ℕ) : ∀ {f g : BitstreamFile}, SameBytes f.bytestream g.bytestream →
    g.nalUnits n = f.nalUnits n := by
  induction n with
  | zero => exact fun _ => rfl
  | succ n ih =>
    intro f g h
    obtain ⟨hunit, hbytes⟩ := nextNalUnit_of_sameResult
      (agree_byteStreamNALUnitBody f.call g.call ⟨rfl, h⟩)
    rw [nalUnits, nalUnits, hunit, ih hbytes]

/-- A long start code and a short one are passed alike. -/
theorem sameResult_startCode (hf : f.bytestream.Ahead (startCodePrefix long ++ tail))
    (hg : g.bytestream.Ahead (startCodePrefix long' ++ tail)) :
    SameResult SameCall (byteStreamNALUnitBody f.call) (byteStreamNALUnitBody g.call) := by
  obtain ⟨bs, stats, hbody, hbs, -⟩ := byteStreamNALUnit_start (p := f.call) hf
  obtain ⟨bs', stats', hbody', hbs', -⟩ := byteStreamNALUnit_start (p := g.call) hg
  rw [hbody, hbody']
  refine agree_bind (agree_whileByte agree_insideNalUnit agree_pushByte) (fun _ => ?_) _ _
    ⟨rfl, tail, hbs, hbs'⟩
  exact agree_whileByte agree_beforeStartCode agree_skipTrailingZero

theorem nalUnits_startCode (hf : f.bytestream.Ahead (startCodePrefix long ++ tail))
    (hg : g.bytestream.Ahead (startCodePrefix long' ++ tail)) (n : ℕ) :
    g.nalUnits n = f.nalUnits n := by
  cases n with
  | zero => rfl
  | succ n =>
    obtain ⟨hunit, hbytes⟩ := nextNalUnit_of_sameResult (sameResult_startCode hf hg)
    rw [nalUnits, nalUnits, hunit, nalUnits_sameBytes n hbytes]

/-! ## Setting the file back -/

/-- The reader hands out `rest`, the end of the file. -/
structure OnFile (f : BitstreamFile) (rest : List UInt8) : Prop where
  ahead : f.bytestream.Ahead rest
  suffix : rest <:+ f.bytes

/-- Going back `k` of the bytes that are held. -/
theorem restore_held (h : f.OnFile rest) (hgood : f.failed = false) {k : ℕ}
    (hk : k ≤ f.bytestream.numFutureBytes) {g : BitstreamFile} (hbytes : g.bytes = f.bytes) :
    g.restore (f.tellg - k) =
      ⟨f.bytes, .new (rest.drop (f.bytestream.numFutureBytes - k)), false⟩ := by
  have hlen := h.ahead.length
  have hle := h.suffix.length_le
  have hpos : f.tellg - k = ((f.bytes.length - (f.bytestream.input.length + k) : ℕ) : ℤ) := by
    rw [tellg, hgood]
    simp only [Bool.false_eq_true, if_false]
    omega
  have hdrop : f.bytes.drop (f.bytes.length - (f.bytestream.input.length + k)) =
      rest.drop (f.bytestream.numFutureBytes - k) := by
    have hsuffix := (List.drop_suffix (f.bytestream.numFutureBytes - k) rest).trans h.suffix
    rw [List.suffix_iff_eq_drop.mp hsuffix, List.length_drop]
    congr 1
    omega
  rw [restore, clear, seekg, hpos, if_neg (by omega), Int.toNat_natCast, reset, hbytes, hdrop]
  rfl

end BitstreamFile

open BitstreamFile

variable {decide : InputNALUnit → Checked (Option Bool)} {f f' : BitstreamFile}
  {rest : List UInt8} {ret : Bool}

theorem lookAheadLoop_bytes (fuel : ℕ) : ∀ {f : BitstreamFile},
    lookAheadLoop decide fuel f = .ok (ret, f') → f'.bytes = f.bytes := by
  induction fuel with
  | zero =>
    intro f h
    cases h
    rfl
  | succ fuel ih =>
    intro f h
    rw [lookAheadLoop] at h
    cases hfailed : f.failed with
    | true =>
      rw [hfailed] at h
      cases h
      rfl
    | false =>
      rw [hfailed] at h
      simp only [Bool.false_eq_true, if_false] at h
      split at h
      · exact (ih h).trans (nextNalUnit_bytes f)
      · obtain ⟨nalu, -, h⟩ := bind_eq_ok h
        obtain ⟨answer, -, h⟩ := bind_eq_ok h
        cases answer with
        | some ret' => cases h; rfl
        | none => exact (ih h).trans (nextNalUnit_bytes f)

/-- `isNewPicture` goes back to the last three bytes that were held. -/
theorem isNewPicture_restores (hfile : f.OnFile rest) (hgood : f.failed = false)
    (hheld : 3 ≤ f.bytestream.numFutureBytes) (h : isNewPicture false f = .ok (ret, f')) :
    f' = ⟨f.bytes, .new (rest.drop (f.bytestream.numFutureBytes - 3)), false⟩ := by
  obtain ⟨⟨ret', g⟩, hlook, h⟩ := bind_eq_ok h
  cases h
  exact restore_held hfile hgood hheld (lookAheadLoop_bytes _ hlook)

/-- `isNewAccessUnit` goes back to a position at which nothing was held. -/
theorem isNewAccessUnit_restores {isSliceNaluFirstInAU : InputNALUnit → Checked Bool}
    (hfile : f.OnFile rest) (hgood : f.failed = false) (hheld : f.bytestream.numFutureBytes = 0)
    (h : isNewAccessUnit true isSliceNaluFirstInAU f = .ok (ret, f')) :
    f' = ⟨f.bytes, .new rest, false⟩ := by
  obtain ⟨⟨ret', g⟩, hlook, h⟩ := bind_eq_ok h
  cases h
  have hrestore := restore_held hfile hgood (k := 0) (Nat.zero_le _) (lookAheadLoop_bytes _ hlook)
  rw [hheld, Nat.sub_zero, List.drop_zero, Int.natCast_zero, Int.sub_zero] at hrestore
  exact hrestore

end ECM.DecoderLib
