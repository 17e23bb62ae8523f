import ECM.DecoderApp.DecodeLoop
import ECM.DecoderLib.LookAheadSoundness

/-! # The decoder sees every NAL unit once

The main loop looks ahead from states in which the reader holds the start code of
the next unit, and the file set back by three bytes stands at that start code
again. A round that finds a new picture reads nothing; the next one may look
ahead only if the picture was finished, since no byte is held then. -/

namespace ECM.Nal
open CommonLib EncoderLib.NALwrite DecoderLib ECM.DecoderApp
open DecoderLib.AnnexBread DecoderLib.BitstreamFile

/-! ## Byte streams -/

/-- A unit in a file: behind a start code, and before zero bytes. -/
structure FileUnit where
  longStartcode : Bool
  nalUnit : List UInt8
  trailingZeros : ℕ

namespace FileUnit

/-- No start code inside the unit, and no zero at its end. -/
structure Valid (u : FileUnit) : Prop where
  noStartCode : NoStartCode u.nalUnit
  last : ∀ b, u.nalUnit.getLast? = some b → b ≠ 0

/-- The bytes behind the start code. -/
def body (u : FileUnit) : List UInt8 := u.nalUnit ++ List.replicate u.trailingZeros 0

end FileUnit

def fileBytes : List FileUnit → List UInt8
  | [] => []
  | u :: us => startCodePrefix u.longStartcode ++ (u.body ++ fileBytes us)

/-- The reader stands before the unit `u`, and holds its start code or nothing. -/
structure Stands (f : BitstreamFile) (long : Bool) (u : FileUnit) (us : List FileUnit) : Prop where
  onFile : f.OnFile (startCodePrefix long ++ (u.body ++ fileBytes us))
  held : f.bytestream.numFutureBytes = 0 ∨
    f.bytestream.numFutureBytes = (startCodePrefix long).length
  valid : ∀ v ∈ u :: us, v.Valid
  good : f.failed = false

variable {f f' : BitstreamFile} {long : Bool} {u v : FileUnit} {us : List FileUnit}

theorem stands_ofBytes (hvalid : ∀ v ∈ u :: us, v.Valid) :
    Stands (.ofBytes (fileBytes (u :: us))) u.longStartcode u us :=
  ⟨⟨InputByteStream.new_ahead _, List.suffix_refl _⟩, .inl rfl, hvalid, rfl⟩

/-! ## Reading -/

theorem noStartCode_of_length_le : ∀ {bs : List UInt8}, bs.length ≤ 2 → NoStartCode bs
  | [], _ => trivial
  | [_], _ => trivial
  | [_, _], _ => trivial
  | _ :: _ :: _ :: _, h => absurd h (by simp)

theorem delimits_append {unit zeros next : List UInt8} (hunit : Delimits unit (zeros ++ next))
    (hzeros : Delimits zeros next) : Delimits (unit ++ zeros) next := by
  intro pre b post heq
  rcases List.append_eq_append_iff.mp heq with ⟨as, rfl, hz⟩ | ⟨bs, rfl, hb⟩
  · exact hzeros as b post hz
  · cases bs with
    | nil => exact hzeros [] b post hb.symm
    | cons c bs =>
      obtain ⟨rfl, rfl⟩ := List.cons.inj hb
      change NoStartCode ((b :: (bs ++ zeros) ++ next).take 3)
      rw [List.cons_append, List.append_assoc, ← List.cons_append]
      exact hunit pre b bs rfl

/-- Too few zeros to end a unit before the end of the file. -/
theorem delimits_zeros {zeros : ℕ} (h : zeros < 3) : Delimits (List.replicate zeros 0) [] := by
  intro pre b post heq
  have hlen := congrArg List.length heq
  rw [List.length_replicate, List.length_append] at hlen
  refine noStartCode_of_length_le ?_
  rw [List.length_take, List.append_nil]
  omega

/-- A call before the last unit runs into the end of the file. -/
theorem Stands.last (h : Stands f long u []) : f.nextNalUnit.2.failed = true := by
  obtain ⟨⟨hahead, -⟩, -, hvalid, -⟩ := h
  have hu := hvalid u List.mem_cons_self
  rw [fileBytes, List.append_nil, FileUnit.body] at hahead
  have hbody : ∃ p, byteStreamNALUnitBody f.call = .error .eof p ∧ p.bs.Ahead [] := by
    by_cases hz : 3 ≤ u.trailingZeros
    · obtain ⟨bs, stats, hbody, hbs⟩ := byteStreamNALUnit_last_zeros (p := f.call) rfl hz hahead
        (delimits_of_noStartCode _ hu.noStartCode hu.last)
      exact ⟨_, hbody, hbs⟩
    · have hdel : Delimits (u.nalUnit ++ List.replicate u.trailingZeros 0) [] :=
        delimits_append (delimits_of_noStartCode _ hu.noStartCode hu.last) (delimits_zeros (by omega))
      obtain ⟨bs, stats, hbody, hbs⟩ := byteStreamNALUnit_last (p := f.call) rfl hahead hdel
      exact ⟨_, hbody, hbs⟩
  obtain ⟨p, hbody, hbs⟩ := hbody
  have hlen := hbs.length
  rw [List.length_nil] at hlen
  rw [nextNalUnit_error hbody]
  simp only [Bool.or_eq_true, decide_eq_true_iff]
  exact .inr (by omega)

/-- A call before another unit stops at the start code of that one, which the zeros in
front of it make a long one. -/
theorem Stands.following (h : Stands f long u (v :: us)) :
    Stands f.nextNalUnit.2 (v.longStartcode || decide (0 < u.trailingZeros)) v us ∧
      f.nextNalUnit.1 = u.nalUnit ∧ f.nextNalUnit.2.bytestream.numFutureBytes =
        (startCodePrefix (v.longStartcode || decide (0 < u.trailingZeros))).length := by
  obtain ⟨⟨hahead, hsuffix⟩, -, hvalid, hgood⟩ := h
  have hu := hvalid u List.mem_cons_self
  rw [fileBytes, FileUnit.body, List.append_assoc] at hahead hsuffix
  obtain ⟨bs, stats, hbody, hbs, hnum⟩ := byteStreamNALUnit_next (p := f.call) rfl hahead
    (delimits_of_noStartCode _ hu.noStartCode hu.last)
  rw [nextNalUnit_ok hbody]
  refine ⟨⟨⟨hbs, ?_⟩, .inr hnum, fun w hw => hvalid w (List.mem_cons_of_mem _ hw), hgood⟩, rfl, hnum⟩
  obtain ⟨k, hk, -⟩ := replicate_startCodePrefix u.trailingZeros v.longStartcode
  rw [← List.append_assoc (List.replicate _ _), hk, List.append_assoc] at hsuffix
  exact (List.suffix_append _ _).trans ((List.suffix_append _ _).trans
    ((List.suffix_append _ _).trans hsuffix))

/-- A call before another unit stops there, and holds its start code. -/
theorem Stands.next (h : Stands f long u (v :: us)) :
    ∃ long', Stands f.nextNalUnit.2 long' v us ∧
      f.nextNalUnit.2.bytestream.numFutureBytes = (startCodePrefix long').length := by
  obtain ⟨hnext, -, hnum⟩ := h.following
  exact ⟨_, hnext, hnum⟩

/-- A call before a unit without zeros behind it gives that unit. -/
theorem Stands.unit (h : Stands f long u us) (hzeros : u.trailingZeros = 0) :
    f.nextNalUnit.1 = u.nalUnit := by
  cases us with
  | cons v us => exact h.following.2.1
  | nil =>
    obtain ⟨⟨hahead, -⟩, -, hvalid, -⟩ := h
    have hu := hvalid u List.mem_cons_self
    rw [fileBytes, List.append_nil, FileUnit.body, hzeros, List.replicate_zero,
      List.append_nil] at hahead
    obtain ⟨bs, stats, hbody, -⟩ := byteStreamNALUnit_last (p := f.call) rfl hahead
      (delimits_of_noStartCode _ hu.noStartCode hu.last)
    rw [nextNalUnit_error hbody]

/-! ## Looking ahead -/

variable {ret : Bool}

/-- `isNewPicture`, in a reader that holds the start code. -/
theorem Stands.isNewPicture (h : Stands f long u us) (hheld : 3 ≤ f.bytestream.numFutureBytes)
    (hrun : ECM.DecoderLib.isNewPicture false f = .ok (ret, f')) :
    Stands f' false u us ∧ f'.bytestream.numFutureBytes = 0 := by
  obtain ⟨hfile, hzero | hlong, hvalid, hgood⟩ := h
  · omega
  have hdrop : ∀ tail : List UInt8, (startCodePrefix long ++ tail).drop
      (f.bytestream.numFutureBytes - 3) = startCodePrefix false ++ tail := by
    intro tail
    rw [hlong]
    cases long <;> rfl
  have hrestored := isNewPicture_restores hfile hgood hheld hrun
  rw [hdrop] at hrestored
  subst hrestored
  refine ⟨⟨⟨InputByteStream.new_ahead _, ?_⟩, .inl rfl, hvalid, rfl⟩, rfl⟩
  rw [← hdrop]
  exact (List.drop_suffix _ _).trans hfile.suffix

/-- `isNewAccessUnit`, in a reader that holds nothing. -/
theorem Stands.isNewAccessUnit {isSliceNaluFirstInAU : InputNALUnit → Checked Bool}
    (h : Stands f long u us) (hheld : f.bytestream.numFutureBytes = 0)
    (hrun : ECM.DecoderLib.isNewAccessUnit true isSliceNaluFirstInAU f = .ok (ret, f')) :
    Stands f' long u us ∧ f'.bytestream.numFutureBytes = 0 := by
  have hrestored := isNewAccessUnit_restores h.onFile h.good hheld hrun
  subst hrestored
  exact ⟨⟨⟨InputByteStream.new_ahead _, h.onFile.suffix⟩, .inl rfl, h.valid, rfl⟩, rfl⟩

/-- Readers before the same unit give the same units from there on. -/
theorem Stands.nalUnits {long' : Bool} (h : Stands f long u us) (h' : Stands f' long' u us) (n : ℕ) :
    f'.nalUnits n = f.nalUnits n := nalUnits_startCode h.onFile.ahead h'.onFile.ahead n

/-! ## The main loop -/

variable {D : Type} (lib : DecLib D) (m_iMaxTemporalLayer : ℤ)

/-- `isNewPicture` does not look ahead, or goes back over bytes that are held. -/
def CanStepBack (s : DecodeState D) : Prop :=
  lib.getFirstSliceInPicture s.m_cDecLib = true ∨ 3 ≤ s.bitstreamFile.bytestream.numFutureBytes

variable {lib m_iMaxTemporalLayer} {s s' : DecodeState D} {nalu : InputNALUnit}

theorem decodeNalu_file (h : decodeNalu lib m_iMaxTemporalLayer nalu s = .ok s') :
    s'.bitstreamFile = s.bitstreamFile := by
  rw [decodeNalu] at h
  split at h
  · obtain ⟨-, -, h⟩ := bind_eq_ok h
    obtain ⟨-, -, h⟩ := bind_eq_ok h
    obtain ⟨resets, -, h⟩ := bind_eq_ok h
    obtain ⟨d, -, h⟩ := bind_eq_ok h
    split at h
    · obtain ⟨⟨ids, d'⟩, -, h⟩ := bind_eq_ok h
      cases h
      rfl
    · cases h
      rfl
  · cases h
    rfl

theorem readHeaderAndDecode_file {nalUnit : List UInt8}
    (h : readHeaderAndDecode lib m_iMaxTemporalLayer nalUnit s = .ok (nalu, s')) :
    s'.bitstreamFile = s.bitstreamFile := by
  rw [readHeaderAndDecode] at h
  split at h
  · cases h
    rfl
  · obtain ⟨nalu', -, h⟩ := bind_eq_ok h
    obtain ⟨s₁, hdecode, h⟩ := bind_eq_ok h
    cases h
    exact decodeNalu_file hdecode

theorem readAndDecode_file {nalUnits : List (List UInt8)}
    (h : readAndDecode lib m_iMaxTemporalLayer s = .ok (nalUnits, nalu, s')) :
    nalUnits = [s.bitstreamFile.nextNalUnit.1] ∧
      s'.bitstreamFile = s.bitstreamFile.nextNalUnit.2 := by
  obtain ⟨⟨nalu', s₁⟩, hread, h⟩ := bind_eq_ok h
  obtain ⟨-, -, h⟩ := bind_eq_ok h
  cases h
  exact ⟨rfl, readHeaderAndDecode_file hread⟩

theorem completePicture_file {bNewPicture : Bool}
    (h : DecoderApp.completePicture lib bNewPicture nalu s = .ok s') :
    s'.bitstreamFile = s.bitstreamFile := by
  rw [DecoderApp.completePicture] at h
  split at h
  · split at h
    · obtain ⟨d, -, h⟩ := bind_eq_ok h
      cases h
      rfl
    · split at h
      · cases h
        rfl
      · cases h
        rfl
  · cases h
    rfl

theorem checkUnits_file {bNewPicture bNewAccessUnit : Bool}
    (h : checkUnits lib bNewPicture bNewAccessUnit nalu s = .ok s') :
    s'.bitstreamFile = s.bitstreamFile := by
  obtain ⟨d₁, -, h⟩ := bind_eq_ok h
  obtain ⟨d₂, -, h⟩ := bind_eq_ok h
  obtain ⟨d₃, -, h⟩ := bind_eq_ok h
  obtain ⟨d₄, -, h⟩ := bind_eq_ok h
  cases h
  rfl

/-- What a round does to the file. -/
theorem decodeRound_file {nalUnits : List (List UInt8)}
    (h : decodeRound lib m_iMaxTemporalLayer s = .ok (s', nalUnits)) :
    ∃ bNewPicture f, isNewPicture (lib.getFirstSliceInPicture s.m_cDecLib) s.bitstreamFile =
        .ok (bNewPicture, f) ∧
      if bNewPicture then nalUnits = [] ∧ ∃ bNewAccessUnit, isNewAccessUnit true
          (lib.isSliceNaluFirstInAU true s.m_cDecLib) f = .ok (bNewAccessUnit, s'.bitstreamFile)
      else nalUnits = [f.nextNalUnit.1] ∧ s'.bitstreamFile = f.nextNalUnit.2 := by
  rw [decodeRound] at h
  obtain ⟨⟨bNewPicture, f⟩, hpic, h⟩ := bind_eq_ok h
  obtain ⟨⟨bNewAccessUnit, f'⟩, hau, h⟩ := bind_eq_ok h
  obtain ⟨⟨nalUnits', nalu, s₁⟩, hread, h⟩ := bind_eq_ok h
  obtain ⟨s₂, hcomplete, h⟩ := bind_eq_ok h
  obtain ⟨s₃, hcheck, h⟩ := bind_eq_ok h
  cases h
  have hfile : s'.bitstreamFile = s₁.bitstreamFile := by
    rw [checkUnits_file hcheck, ← completePicture_file hcomplete]
    split <;> rfl
  refine ⟨bNewPicture, f, hpic, ?_⟩
  cases bNewPicture with
  | true =>
    cases hread
    exact ⟨rfl, bNewAccessUnit, by rw [hfile]; exact hau⟩
  | false =>
    cases hau
    obtain ⟨hunit, hnext⟩ := readAndDecode_file hread
    exact ⟨hunit, hfile.trans hnext⟩

/-- What holds of the file after every round: the reader stands before one of the
units left, or the file is empty, or has failed. -/
def Standing (f : BitstreamFile) : Prop :=
  f.failed = true ∨ (∃ long u us, Stands f long u us) ∨
    (f.bytestream.numFutureBytes = 0 ∧ f.bytestream.Ahead [])

theorem standing_ofBytes (hvalid : ∀ v ∈ us, v.Valid) : Standing (.ofBytes (fileBytes us)) := by
  cases us with
  | nil => exact .inr (.inr ⟨rfl, InputByteStream.new_ahead []⟩)
  | cons u us => exact .inr (.inl ⟨u.longStartcode, u, us, stands_ofBytes hvalid⟩)

theorem Standing.next (h : Standing f) : Standing f.nextNalUnit.2 := by
  rcases h with hfailed | ⟨long, u, us, h⟩ | ⟨-, hahead⟩
  · exact .inl (Bool.or_eq_true_iff.mpr (.inl hfailed))
  · cases us with
    | nil => exact .inl h.last
    | cons v us =>
      obtain ⟨long', h', -⟩ := h.next
      exact .inr (.inl ⟨long', v, us, h'⟩)
  · obtain ⟨bs, hbody, hbs⟩ := byteStreamNALUnit_eof (p := f.call) hahead
    have hlen := hbs.length
    rw [List.length_nil] at hlen
    rw [nextNalUnit_error hbody]
    refine .inl ?_
    simp only [Bool.or_eq_true, decide_eq_true_iff]
    exact .inr (by omega)

/-- Looking for a new picture: the reader still gives the same units. -/
theorem Standing.isNewPicture (h : Standing f) (hgood : f.failed = false) {first : Bool}
    (hback : first = true ∨ 3 ≤ f.bytestream.numFutureBytes)
    (hrun : ECM.DecoderLib.isNewPicture first f = .ok (ret, f')) :
    Standing f' ∧ (∀ n, f'.nalUnits n = f.nalUnits n) ∧
      (ret = true → ∃ u us, Stands f' false u us ∧ f'.bytestream.numFutureBytes = 0) := by
  cases first with
  | true =>
    cases hrun
    exact ⟨h, fun _ => rfl, fun hret => by cases hret⟩
  | false =>
    have hheld : 3 ≤ f.bytestream.numFutureBytes := by simpa using hback
    rcases h with hfailed | ⟨long, u, us, h⟩ | ⟨hzero, -⟩
    · rw [hgood] at hfailed
      cases hfailed
    · obtain ⟨h', hnum⟩ := h.isNewPicture hheld hrun
      exact ⟨.inr (.inl ⟨false, u, us, h'⟩), h.nalUnits h', fun _ => ⟨u, us, h', hnum⟩⟩
    · omega

/-- One round keeps the reader standing, and hands the next unit to the decoder or none. -/
theorem Standing.round {nalUnits : List (List UInt8)} (h : Standing s.bitstreamFile)
    (hgood : s.bitstreamFile.failed = false) (hback : CanStepBack lib s)
    (hrun : decodeRound lib m_iMaxTemporalLayer s = .ok (s', nalUnits)) :
    Standing s'.bitstreamFile ∧ ∀ n, nalUnits ++ s'.bitstreamFile.nalUnits n =
      s.bitstreamFile.nalUnits (nalUnits.length + n) := by
  obtain ⟨bNewPicture, f, hpic, hfile⟩ := decodeRound_file hrun
  obtain ⟨hstand, hsame, hnew⟩ := h.isNewPicture hgood hback hpic
  cases bNewPicture with
  | true =>
    obtain ⟨rfl, bNewAccessUnit, hau⟩ := hfile
    obtain ⟨u, us, hu, hnum⟩ := hnew rfl
    obtain ⟨hu', -⟩ := hu.isNewAccessUnit hnum hau
    refine ⟨.inr (.inl ⟨false, u, us, hu'⟩), fun n => ?_⟩
    rw [List.nil_append, List.length_nil, Nat.zero_add, hu.nalUnits hu', hsame]
  | false =>
    obtain ⟨rfl, hnext⟩ := hfile
    rw [hnext]
    refine ⟨hstand.next, fun n => ?_⟩
    rw [List.length_singleton, Nat.add_comm 1 n, ← hsame, BitstreamFile.nalUnits]
    rfl

/-- The run lemma: whatever the rounds handed over, and what is left, are the units
of the file. -/
theorem reached_standing {d : D} {read : List (List UInt8)} (hvalid : ∀ v ∈ us, v.Valid)
    (h : Reached lib m_iMaxTemporalLayer (CanStepBack lib) (.initial d (fileBytes us)) s read) :
    Standing s.bitstreamFile ∧ ∀ n, read ++ s.bitstreamFile.nalUnits n =
      (BitstreamFile.ofBytes (fileBytes us)).nalUnits (read.length + n) := by
  induction h with
  | start =>
    refine ⟨standing_ofBytes hvalid, fun n => ?_⟩
    rw [List.nil_append, List.length_nil, Nat.zero_add]
    rfl
  | round h good cond run ih =>
    obtain ⟨hstand, hunits⟩ := ih
    obtain ⟨hstand', hunits'⟩ := hstand.round good cond run
    refine ⟨hstand', fun n => ?_⟩
    rw [List.append_assoc, hunits', hunits, List.length_append, Nat.add_assoc]

variable (lib s) in
/-- Looking ahead in the state `s` changes nothing for the calls that follow: the
same units come, and the step back ends before the start code that was next. -/
structure Transparent : Prop where
  isNewPicture : ∀ ret f,
    isNewPicture (lib.getFirstSliceInPicture s.m_cDecLib) s.bitstreamFile = .ok (ret, f) →
    ∀ n, f.nalUnits n = s.bitstreamFile.nalUnits n
  isNewAccessUnit : ∀ f ret g,
    ECM.DecoderLib.isNewPicture (lib.getFirstSliceInPicture s.m_cDecLib) s.bitstreamFile = .ok (true, f) →
    ECM.DecoderLib.isNewAccessUnit true (lib.isSliceNaluFirstInAU true s.m_cDecLib) f = .ok (ret, g) →
    ∀ n, g.nalUnits n = s.bitstreamFile.nalUnits n
  startCode : ∀ ret f, ECM.DecoderLib.isNewPicture false s.bitstreamFile = .ok (ret, f) →
    lib.getFirstSliceInPicture s.m_cDecLib = false →
    ∃ long tail, s.bitstreamFile.bytestream.Ahead (startCodePrefix long ++ tail) ∧
      f.bytestream.Ahead (startCodePrefix false ++ tail)

theorem Standing.transparent (h : Standing s.bitstreamFile) (hgood : s.bitstreamFile.failed = false)
    (hback : CanStepBack lib s) : Transparent lib s := by
  refine ⟨fun ret f hpic => (h.isNewPicture hgood hback hpic).2.1, fun f ret g hpic hau n => ?_,
    fun ret f hpic hfirst => ?_⟩
  · obtain ⟨-, hsame, hnew⟩ := h.isNewPicture hgood hback hpic
    obtain ⟨u, us, hu, hnum⟩ := hnew rfl
    obtain ⟨hu', -⟩ := hu.isNewAccessUnit hnum hau
    rw [hu.nalUnits hu', hsame]
  · rw [CanStepBack, hfirst] at hback
    have hheld : 3 ≤ s.bitstreamFile.bytestream.numFutureBytes := by simpa using hback
    rcases h with hfailed | ⟨long, u, us, h⟩ | ⟨hzero, -⟩
    · rw [hgood] at hfailed
      cases hfailed
    · exact ⟨long, _, h.onFile.ahead, (h.isNewPicture hheld hpic).1.onFile.ahead⟩
    · omega

/-! ## Two flags as the library -/

/-- The two flags of the library; a slice of any kind decodes. -/
structure Flags where
  firstSliceInPicture : Bool
  firstSliceInSequence : List ℕ
  deriving DecidableEq

def flagLib : DecLib Flags where
  getFirstSliceInPicture d := d.firstSliceInPicture
  setFirstSliceInPicture val d := { d with firstSliceInPicture := val }
  getFirstSliceInSequence layerId d := layerId ∈ d.firstSliceInSequence
  setFirstSliceInSequence val layerId d := { d with
    firstSliceInSequence := if val then layerId :: d.firstSliceInSequence
      else d.firstSliceInSequence.filter (· ≠ layerId) }
  isSliceNaluFirstInAU _ _ _ := .ok true
  decode nalu d := .ok (if nalu.isSlice then
    ⟨false, d.firstSliceInSequence.filter (· ≠ nalu.m_nuhLayerId)⟩ else d)
  deriveTargetOutputLayerSet d := .ok ([], d)
  finishPicture d := .ok { d with firstSliceInPicture := true }
  updateAssociatedIRAP d := d
  checkSeiInPictureUnit d := .ok d
  checkAPSInPictureUnit d := .ok d
  checkLayerIdIncludedInCvss d := .ok d
  checkTidLayerIdInAccessUnit d := .ok d
  resetAccessUnitNals d := d

theorem reached_of_decodeRounds {D : Type} {lib : DecLib D} {m_iMaxTemporalLayer : ℤ}
    {Cond : DecodeState D → Prop} (n : ℕ) :
    ∀ {s₀ s s' : DecodeState D} {read nalUnits : List (List UInt8)},
    Reached lib m_iMaxTemporalLayer Cond s₀ s read →
    (∀ k < n, ∀ t r, decodeRounds lib m_iMaxTemporalLayer k s = .ok (t, r) → Cond t) →
    decodeRounds lib m_iMaxTemporalLayer n s = .ok (s', nalUnits) →
    Reached lib m_iMaxTemporalLayer Cond s₀ s' (read ++ nalUnits) := by
  induction n with
  | zero =>
    intro s₀ s s' read nalUnits h _ hrun
    cases hrun
    rw [List.append_nil]
    exact h
  | succ n ih =>
    intro s₀ s s' read nalUnits h hcond hrun
    rw [decodeRounds] at hrun
    cases hgood : s.bitstreamFile.failed with
    | true =>
      rw [hgood] at hrun
      cases hrun
      rw [List.append_nil]
      exact h
    | false =>
      rw [hgood] at hrun
      simp only [Bool.false_eq_true, if_false] at hrun
      obtain ⟨⟨s₁, nalUnits₁⟩, hround, hrun⟩ := bind_eq_ok hrun
      obtain ⟨⟨s₂, nalUnits₂⟩, hrest, hrun⟩ := bind_eq_ok hrun
      cases hrun
      rw [← List.append_assoc]
      refine ih (h.round hgood (hcond 0 (Nat.succ_pos n) s [] rfl) hround) (fun k hk t r ht => ?_) hrest
      refine hcond (k + 1) (Nat.succ_lt_succ hk) t (nalUnits₁ ++ r) ?_
      rw [decodeRounds, hgood]
      simp only [Bool.false_eq_true, if_false]
      rw [hround, ok_bind, ht, ok_bind]
      rfl

/-- An IDR slice, a suffix SEI of the next temporal layer, and a slice that begins a picture. -/
def skippedSuffix : List FileUnit :=
  [⟨false, [0, 0x41, 0x80], 0⟩, ⟨false, [0, 0xc2, 0x80], 0⟩, ⟨false, [0, 0x01, 0x80], 0⟩]

theorem skippedSuffix_valid : ∀ u ∈ skippedSuffix, u.Valid := by
  intro u hu
  have hlast : ∀ b : UInt8, some (0x80 : UInt8) = some b → b ≠ 0 := by
    intro b hb
    cases hb
    decide
  simp only [skippedSuffix, List.mem_cons, List.not_mem_nil, or_false] at hu
  rcases hu with rfl | rfl | rfl
  · exact ⟨⟨by decide, trivial⟩, hlast⟩
  · exact ⟨⟨by decide, trivial⟩, hlast⟩
  · exact ⟨⟨by decide, trivial⟩, hlast⟩

def skippedSuffixRun (n : ℕ) : Checked (DecodeState Flags × List (List UInt8)) :=
  decodeRounds flagLib 0 n (.initial ⟨true, [0]⟩ (fileBytes skippedSuffix))

/-- **Transparent look-ahead.** In a run of the main loop over a file of NAL units
whose rounds all start with the first slice of a picture to come, or with the next
start code held, looking ahead never changes the units that follow; the decoder is
handed the units of the file, each once and in order. -/
theorem lookAhead_transparent {D : Type} (lib : DecLib D) (m_iMaxTemporalLayer : ℤ) (d : D)
    {us : List FileUnit} (hvalid : ∀ u ∈ us, u.Valid) {s : DecodeState D}
    {read : List (List UInt8)}
    (h : Reached lib m_iMaxTemporalLayer (CanStepBack lib) (.initial d (fileBytes us)) s read) :
    (s.bitstreamFile.failed = false → CanStepBack lib s → Transparent lib s) ∧
      ∀ n, read ++ s.bitstreamFile.nalUnits n =
        (BitstreamFile.ofBytes (fileBytes us)).nalUnits (read.length + n) := by
  obtain ⟨hstand, hunits⟩ := reached_standing hvalid h
  exact ⟨fun hgood hback => hstand.transparent hgood hback, hunits⟩

theorem lookAhead_transparent_skippedSuffix : ∃ s read,
    (s.bitstreamFile.failed = false → CanStepBack flagLib s → Transparent flagLib s) ∧
      ∀ n, read ++ s.bitstreamFile.nalUnits n =
        (BitstreamFile.ofBytes (fileBytes skippedSuffix)).nalUnits (read.length + n) := by
  have hfirst : ((skippedSuffixRun 1).toOption.any fun r =>
      3 ≤ r.1.bitstreamFile.bytestream.numFutureBytes) = true := by decide +kernel
  have hsecond : ((skippedSuffixRun 2).toOption.any fun _ => true) = true := by decide +kernel
  obtain ⟨⟨s, read⟩, hrun, -⟩ := exists_ok_of_any hsecond
  refine ⟨s, [] ++ read, lookAhead_transparent flagLib 0 ⟨true, [0]⟩ skippedSuffix_valid
    (reached_of_decodeRounds 2 .start (fun k hk t r ht => ?_) hrun)⟩
  have hk : k = 0 ∨ k = 1 := by omega
  rcases hk with rfl | rfl
  · cases ht
    exact .inl rfl
  · obtain ⟨⟨s₁, read₁⟩, hrun₁, hs₁⟩ := exists_ok_of_any hfirst
    cases hrun₁.symm.trans ht
    exact .inr (of_decide_eq_true hs₁)

/-! ## A picture that is not finished -/

/-- The first three rounds, with temporal layer 0 as the highest: the slice is decoded,
the SEI skipped, and the new picture found, but the picture before it is not finished. -/
theorem skippedSuffixRun_third : ((skippedSuffixRun 3).toOption.any fun r =>
    r.1.m_cDecLib = ⟨false, []⟩ ∧ r.1.bitstreamFile =
      ⟨fileBytes skippedSuffix, .new [0, 0, 1, 0, 0x01, 0x80], false⟩) = true := by decide +kernel

/-- The next look-ahead then steps back into the SEI: the following call no longer
gives the slice. -/
theorem lookAhead_not_transparent : ∃ s read,
    Reached flagLib 0 (fun _ => True) (.initial ⟨true, [0]⟩ (fileBytes skippedSuffix)) s read ∧
      (∀ u ∈ skippedSuffix, u.Valid) ∧ s.bitstreamFile.failed = false ∧ ¬Transparent flagLib s := by
  obtain ⟨⟨s, read⟩, hrun, hs⟩ := exists_ok_of_any skippedSuffixRun_third
  obtain ⟨hflags, hfile⟩ := of_decide_eq_true hs
  refine ⟨s, [] ++ read, reached_of_decodeRounds 3 .start (fun _ _ _ _ _ => trivial) hrun,
    skippedSuffix_valid, by rw [hfile], fun h => ?_⟩
  have hpic : isNewPicture (flagLib.getFirstSliceInPicture s.m_cDecLib) s.bitstreamFile =
      .ok (true, ⟨fileBytes skippedSuffix, .new [0, 0xc2, 0x80, 0, 0, 1, 0, 0x01, 0x80], false⟩) := by
    rw [hflags, hfile]
    decide +kernel
  have hunits := h.isNewPicture _ _ hpic 1
  rw [hfile] at hunits
  exact absurd hunits (by decide +kernel)

end ECM.Nal
