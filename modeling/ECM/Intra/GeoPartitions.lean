import ECM.CommonLib.IntraModes
import ECM.Lib.FirstOccurrences

/-! # Both derivations of intra modes for geometric partitions agree

Both lists are the first distinct modes of the neighbourhood: the mode of the split may be
taken out before or after the list is cut off, since it occurs in it at most once. -/

namespace ECM.Intra.GeoPartitions
open CommonLib CommonLib.PU Lib.FirstOccurrences List

/-! ## Trying modes -/

theorem mpm_tryMode (s : ModeList) (mode : ℕ) : (s.tryMode mode).mpm = addNew s.mpm mode := by
  unfold ModeList.tryMode addNew
  by_cases h : mode ∈ s.mpm
  · rw [if_pos h, if_pos ((s.marked mode).mpr h)]
  · rw [if_neg h, if_neg fun hm => h ((s.marked mode).mp hm)]
    rfl

theorem mpm_foldl_tryMode (modes : List ℕ) (s : ModeList) : (modes.foldl ModeList.tryMode s).mpm = addAll s.mpm modes := by
  induction modes generalizing s with
  | nil => rfl
  | cons mode modes ih =>
    rw [foldl_cons, ih, mpm_tryMode]
    rfl

/-- The modes are collected until the list is full, and then the function returns. -/
theorem tryModes_spec (modes : List ℕ) {s : ModeList} (h : s.mpm.length < GEO_MAX_NUM_INTRA_CANDS) :
    (tryModes modes s).1.mpm = addUntil GEO_MAX_NUM_INTRA_CANDS s.mpm modes ∧
      ((tryModes modes s).2 = true ↔ (tryModes modes s).1.mpm.length = GEO_MAX_NUM_INTRA_CANDS) := by
  induction modes generalizing s with
  | nil => exact ⟨rfl, fun hf => absurd hf Bool.false_ne_true, fun hf => absurd hf (Nat.ne_of_lt h)⟩
  | cons mode modes ih =>
    rw [tryModes, addUntil, if_neg (Nat.ne_of_lt h)]
    by_cases hm : mode ∈ s.mpm
    · rw [if_pos ((s.marked mode).mpr hm), addNew, if_pos hm]
      exact ih h
    · rw [if_neg fun h => hm ((s.marked mode).mp h), addNew, if_neg hm]
      have hlen : (s.mpm ++ [mode]).length = s.mpm.length + 1 := length_append
      split
      case isTrue hfull => exact ⟨(addUntil_full hfull modes).symm, fun _ => hfull, fun _ => rfl⟩
      case isFalse hfree =>
        have hne : (s.mpm ++ [mode]).length ≠ GEO_MAX_NUM_INTRA_CANDS := hfree
        exact ih (s := s.add mode) (by change (s.mpm ++ [mode]).length < _; omega)

/-! ## The neighbourhood -/

/-- All modes that are tried for a shape. -/
def shapeModes (pu : IntraUnit) (shape : GeoTmShape) : List ℕ := dimdCand pu ++ geoCands pu shape

theorem intraCand_lt (pu : Option Neighbour) : ∀ mode ∈ intraCand pu, mode < NUM_LUMA_MODE := by
  intro mode hmode
  cases pu with
  | none => exact absurd hmode not_mem_nil
  | some pu =>
    simp only [intraCand, mem_ite_nil_right, mem_singleton] at hmode
    rw [hmode.2]
    exact pu.intraMode_lt

theorem interCand_lt (pu : Option Neighbour) : ∀ mode ∈ interCand pu, mode < NUM_LUMA_MODE := by
  intro mode hmode
  cases pu with
  | none => exact absurd hmode not_mem_nil
  | some pu =>
    simp only [interCand, mem_ite_nil_right, mem_singleton] at hmode
    rw [hmode.2]
    exact pu.ipmInfo.isLt

theorem dimdCand_lt (pu : IntraUnit) : ∀ mode ∈ dimdCand pu, mode < NUM_LUMA_MODE := by
  intro mode hmode
  unfold dimdCand at hmode
  split at hmode
  case h_1 dimd _ =>
    rw [mem_ite_nil_right, mem_singleton] at hmode
    rw [hmode.2]
    exact dimd.isLt
  case h_2 => exact absurd hmode not_mem_nil

theorem timdCand_lt (pu : IntraUnit) : ∀ mode ∈ timdCand pu, mode < NUM_LUMA_MODE := by
  intro mode hmode
  unfold timdCand at hmode
  split at hmode
  case h_1 timd _ =>
    rw [mem_ite_nil_right, mem_singleton] at hmode
    rw [hmode.2]
    exact MAP131TO67_lt (Nat.le_of_lt_succ timd.isLt)
  case h_2 => exact absurd hmode not_mem_nil

theorem shapeModes_lt (pu : IntraUnit) (shape : GeoTmShape) : ∀ mode ∈ shapeModes pu shape, mode < NUM_LUMA_MODE := by
  intro mode hmode
  have hif : ∀ {c : Prop} [Decidable c] {cand : List ℕ}, (∀ m ∈ cand, m < NUM_LUMA_MODE) →
      mode ∈ (if c then cand else []) → mode < NUM_LUMA_MODE :=
    fun hcand hm => hcand mode (mem_ite_nil_right.mp hm).2
  simp only [shapeModes, geoCands, mem_append] at hmode
  rcases hmode with h | ((((((((((h | h) | h) | h) | h) | h) | h) | h) | h) | h) | h)
  · exact dimdCand_lt pu mode h
  · exact timdCand_lt pu mode h
  · exact hif (intraCand_lt _) h
  · exact hif (intraCand_lt _) h
  · exact hif (interCand_lt _) h
  · exact hif (interCand_lt _) h
  · exact hif (intraCand_lt _) h
  · exact hif (intraCand_lt _) h
  · exact intraCand_lt _ mode h
  · exact hif (interCand_lt _) h
  · exact hif (interCand_lt _) h
  · exact interCand_lt _ mode h

/-! ## The two overloads -/

variable {pu : IntraUnit} {shape : GeoTmShape} {splitDir : ℕ}

/-- How both overloads end: the mode across the split and planar fill up the list. -/
def filledUp (first : ℕ) (mpm : List ℕ) : List ℕ :=
  if mpm.length = GEO_MAX_NUM_INTRA_CANDS then mpm
  else if (addNew mpm (acrossMode first)).length = GEO_MAX_NUM_INTRA_CANDS then addNew mpm (acrossMode first)
  else addNew mpm (acrossMode first) ++ [PLANAR_IDX]

theorem dimdCand_length (pu : IntraUnit) : (dimdCand pu).length ≤ 1 := by
  unfold dimdCand
  split
  · split
    · exact Nat.le_refl 1
    · exact Nat.zero_le 1
  · exact Nat.zero_le 1

/-- All modes after those of `s` that are there at the start. -/
theorem collect_eq (pu : IntraUnit) (shape : GeoTmShape) (s : ModeList) (h : s.mpm.length ≤ 1) :
    let r := tryModes (geoCands pu shape) ((dimdCand pu).foldl ModeList.tryMode s)
    r.1.mpm = (addAll s.mpm (shapeModes pu shape)).take GEO_MAX_NUM_INTRA_CANDS ∧
      (r.2 = true ↔ r.1.mpm.length = GEO_MAX_NUM_INTRA_CANDS) := by
  have hdimd := mpm_foldl_tryMode (dimdCand pu) s
  have hlen := addAll_length s.mpm (dimdCand pu)
  have hone := dimdCand_length pu
  have hlt : ((dimdCand pu).foldl ModeList.tryMode s).mpm.length < GEO_MAX_NUM_INTRA_CANDS := by
    rw [hdimd, GEO_MAX_NUM_INTRA_CANDS]
    omega
  obtain ⟨hmpm, hret⟩ := tryModes_spec (geoCands pu shape) hlt
  refine ⟨?_, hret⟩
  rw [hmpm, addUntil_eq_take (Nat.le_of_lt hlt), hdimd, ← addAll_append]
  rfl

/-- The distinct modes of the neighbourhood. -/
def distinctModes (pu : IntraUnit) (shape : GeoTmShape) : List ℕ := addAll [] (shapeModes pu shape)

theorem distinctModes_nodup (pu : IntraUnit) (shape : GeoTmShape) : (distinctModes pu shape).Nodup :=
  addAll_nodup nodup_nil _

/-- The list the direct overload has collected before it is filled up. -/
def collected (pu : IntraUnit) (splitDir : ℕ) (shape : GeoTmShape) : List ℕ :=
  splitMode splitDir :: ((distinctModes pu shape).filter (· ≠ splitMode splitDir)).take 2

theorem collected_length (pu : IntraUnit) (splitDir : ℕ) (shape : GeoTmShape) :
    (collected pu splitDir shape).length ≤ GEO_MAX_NUM_INTRA_CANDS :=
  Nat.succ_le_succ (length_take_le 2 _)

theorem direct_eq (hdir : splitDir < GEO_NUM_PARTITION_MODE) :
    getGeoIntraMPMs pu splitDir shape = filledUp (splitMode splitDir) (collected pu splitDir shape) := by
  obtain ⟨hmpm, hret⟩ := collect_eq pu shape (ModeList.empty.add (splitMode splitDir)) (Nat.le_refl 1)
  have hstart : (ModeList.empty.add (splitMode splitDir)).mpm =
      splitMode splitDir :: ([] : List ℕ).filter (· ≠ splitMode splitDir) := rfl
  rw [hstart, addAll_cons] at hmpm
  change _ = collected pu splitDir shape at hmpm
  unfold getGeoIntraMPMs
  dsimp only
  rw [if_pos (decide_eq_true hdir)]
  generalize tryModes (geoCands pu shape) _ = r at hmpm hret
  obtain ⟨s, returned⟩ := r
  dsimp only at hmpm hret
  rw [← hmpm, filledUp]
  cases returned with
  | true => rw [if_pos (hret.mp rfl)]
  | false =>
    have hne : s.mpm.length ≠ GEO_MAX_NUM_INTRA_CANDS := fun h => Bool.false_ne_true (hret.mpr h)
    have hlt : s.mpm.length < GEO_MAX_NUM_INTRA_CANDS :=
      Nat.lt_of_le_of_ne (hmpm ▸ collected_length pu splitDir shape) hne
    dsimp only
    rw [decide_eq_true hdir, if_neg (by decide), if_neg hne]
    obtain ⟨hacross, hfull⟩ := tryModes_spec [acrossMode (splitMode splitDir)] hlt
    rw [addUntil, if_neg hne, addUntil] at hacross
    generalize tryModes [acrossMode (splitMode splitDir)] s = r at hacross hfull
    obtain ⟨s', returned'⟩ := r
    dsimp only at hacross hfull
    rw [← hacross]
    cases returned' with
    | true => rw [if_pos (hfull.mp rfl)]
    | false => rw [if_neg fun h => Bool.false_ne_true (hfull.mpr h)]

/-- The part that depends on the shape only. -/
theorem partial_eq (pu : IntraUnit) (shape : GeoTmShape) :
    ∃ k, getGeoIntraMPMs pu GEO_NUM_PARTITION_MODE shape =
      (distinctModes pu shape).take GEO_MAX_NUM_INTRA_CANDS ++ List.replicate k NOMODE_IDX := by
  obtain ⟨hmpm, -⟩ := collect_eq pu shape ModeList.empty (Nat.zero_le 1)
  change _ = (distinctModes pu shape).take GEO_MAX_NUM_INTRA_CANDS at hmpm
  unfold getGeoIntraMPMs
  dsimp only
  rw [if_neg (by decide)]
  generalize tryModes (geoCands pu shape) _ = r at hmpm
  obtain ⟨s, returned⟩ := r
  dsimp only at hmpm
  rw [← hmpm]
  cases returned with
  | true => exact ⟨0, (append_nil _).symm⟩
  | false => exact ⟨_, if_pos (by decide)⟩

/-- The modes of a partial list other than that of the split are taken. -/
theorem takePartial_spec (first : ℕ) (modes : List ℕ) (hmodes : ∀ mode ∈ modes, mode ≠ NOMODE_IDX) (k : ℕ) {mpm : List ℕ}
    (h : mpm.length < GEO_MAX_NUM_INTRA_CANDS) :
    let r := takePartial first (modes ++ List.replicate k NOMODE_IDX) mpm
    r.1 = mpm ++ (modes.filter (· ≠ first)).take (GEO_MAX_NUM_INTRA_CANDS - mpm.length) ∧
      (r.2 = true ↔ r.1.length = GEO_MAX_NUM_INTRA_CANDS) := by
  induction modes generalizing mpm with
  | nil =>
    have hnone : takePartial first (List.replicate k NOMODE_IDX) mpm = (mpm, false) := by
      cases k with
      | zero => rfl
      | succ k => rw [replicate_succ, takePartial, if_pos rfl]
    rw [nil_append, hnone]
    exact ⟨by simp, fun hf => absurd hf Bool.false_ne_true, fun hf => absurd hf (Nat.ne_of_lt h)⟩
  | cons mode modes ih =>
    obtain ⟨hmode, hrest⟩ := forall_mem_cons.mp hmodes
    have hlen : (mpm ++ [mode]).length = mpm.length + 1 := length_append
    rw [cons_append, takePartial, if_neg hmode]
    by_cases heq : mode = first
    · rw [if_neg (not_not.mpr heq), filter_cons_of_neg (by simpa using heq)]
      exact ih hrest h
    · rw [if_pos heq, filter_cons_of_pos (by simpa using heq)]
      have hsucc : GEO_MAX_NUM_INTRA_CANDS - mpm.length = GEO_MAX_NUM_INTRA_CANDS - (mpm ++ [mode]).length + 1 := by
        omega
      rw [hsucc, take_succ_cons]
      split
      case isTrue hfull =>
        rw [hfull, Nat.sub_self]
        exact ⟨rfl, fun _ => hfull, fun _ => rfl⟩
      case isFalse hfree =>
        have hlt : (mpm ++ [mode]).length < GEO_MAX_NUM_INTRA_CANDS := by omega
        obtain ⟨hmpm, hret⟩ := ih hrest hlt
        refine ⟨?_, hret⟩
        rw [hmpm, append_assoc]
        rfl

theorem acrossMode_ne (mode : ℕ) : acrossMode mode ≠ mode := by
  unfold acrossMode
  have hdia : DIA_IDX = 34 := rfl
  split <;> omega

/-- A partial list, completed, is the list of the direct overload. -/
theorem completePartial_eq (hdir : splitDir < GEO_NUM_PARTITION_MODE) :
    completePartial (getGeoIntraMPMs pu GEO_NUM_PARTITION_MODE shape) splitDir = getGeoIntraMPMs pu splitDir shape := by
  obtain ⟨k, hpartial⟩ := partial_eq pu shape
  have hmodes : ∀ mode ∈ (distinctModes pu shape).take GEO_MAX_NUM_INTRA_CANDS, mode ≠ NOMODE_IDX := by
    intro mode hmode heq
    have hmem := ((mem_addAll _).mp (mem_of_mem_take hmode)).resolve_left not_mem_nil
    have hlt := shapeModes_lt pu shape mode hmem
    rw [heq] at hlt
    exact absurd hlt (by decide)
  obtain ⟨hmpm, hret⟩ := takePartial_spec (splitMode splitDir) _ hmodes k
    (show [splitMode splitDir].length < GEO_MAX_NUM_INTRA_CANDS from (by decide : 1 < 3))
  change _ = splitMode splitDir :: (((distinctModes pu shape).take (2 + 1)).filter _).take 2 at hmpm
  rw [take_filter_take (distinctModes_nodup pu shape)] at hmpm
  change _ = collected pu splitDir shape at hmpm
  rw [direct_eq hdir, hpartial, completePartial]
  dsimp only
  generalize takePartial (splitMode splitDir) _ _ = r at hmpm hret
  obtain ⟨mpm, returned⟩ := r
  dsimp only at hmpm hret
  rw [filledUp, ← hmpm]
  cases returned with
  | true => rw [if_pos (hret.mp rfl)]
  | false =>
    rw [if_neg fun h => Bool.false_ne_true (hret.mpr h)]
    have hadd : addNew mpm (acrossMode (splitMode splitDir)) =
        if acrossMode (splitMode splitDir) ∈ mpm.drop 1 then mpm else mpm ++ [acrossMode (splitMode splitDir)] := by
      rw [hmpm, collected, drop_one, tail_cons, addNew]
      simp only [mem_cons, acrossMode_ne, false_or]
    rw [hadd]

/-! ## Runs of calls -/

/-- The kept lists after calls for a unit. -/
def keptAfter (pu : IntraUnit) (calls : List GeoCall) (partialMPMsAll : PartialMPMs) : PartialMPMs :=
  calls.foldl (fun kept c => (getGeoIntraMPMsKept pu c kept).2) partialMPMsAll

/-- Once the list of a shape is initialised, calls for the same unit leave it as it is. -/
theorem keptAfter_eq (pu : IntraUnit) (calls : List GeoCall) (partialMPMsAll : PartialMPMs)
    (h : partialMPMsAll shape = getGeoIntraMPMs pu GEO_NUM_PARTITION_MODE shape ∨
      ∃ c ∈ calls, c.doInit = true ∧ c.doInitShape shape = true) :
    keptAfter pu calls partialMPMsAll shape = getGeoIntraMPMs pu GEO_NUM_PARTITION_MODE shape := by
  induction calls generalizing partialMPMsAll with
  | nil => exact h.resolve_right fun ⟨c, hc, _⟩ => not_mem_nil hc
  | cons c calls ih =>
    refine ih _ ?_
    change initPartial pu c partialMPMsAll shape = _ ∨ _
    unfold initPartial
    split
    case isTrue => exact .inl rfl
    case isFalse hnot =>
      refine h.imp_right fun ⟨c', hc', hinit⟩ => ?_
      rcases mem_cons.mp hc' with rfl | hc'
      · rw [hinit.1, hinit.2] at hnot
        exact absurd rfl hnot
      · exact ⟨c', hc', hinit⟩

/-- Over every run of calls for a unit, a call for a shape that this or an earlier call
has initialised gives the list of the direct overload. -/
theorem getGeoIntraMPMs_agree (pu : IntraUnit) (partialMPMsAll : PartialMPMs) (calls : List GeoCall) (call : GeoCall)
    (hinit : ∃ c ∈ calls ++ [call], c.doInit = true ∧ c.doInitShape call.shape = true) :
    (getGeoIntraMPMsKept pu call (keptAfter pu calls partialMPMsAll)).1 =
      getGeoIntraMPMs pu call.splitDir call.shape := by
  have hkept := keptAfter_eq pu (calls ++ [call]) partialMPMsAll (.inr hinit)
  unfold keptAfter at hkept
  rw [foldl_append] at hkept
  change initPartial pu call (keptAfter pu calls partialMPMsAll) call.shape = _ at hkept
  unfold getGeoIntraMPMsKept
  dsimp only
  rw [hkept]
  exact completePartial_eq call.splitDir.isLt

/-- A unit of 8x8 with a vertical mode on its left, without DIMD and TIMD. -/
def besideVertical : IntraUnit where
  lwidth := 8
  lheight := 8
  getUseDimd := false
  dimdMode := none
  dimdBlendMode0 := none
  getUseTimd := false
  timdMode := none
  above := none
  left := some ⟨.intra, false, false, false, 50, ⟨0, by decide⟩, true, .inl (by decide)⟩
  aboveRight := none
  belowLeft := none
  aboveLeft := none

/-- A call that initialises the lists of all shapes. -/
def firstCall : GeoCall := ⟨⟨0, by decide⟩, .AL, true, true, true, true⟩

/-- A later call, for another split direction. -/
def laterCall : GeoCall := ⟨⟨4, by decide⟩, .AL, false, false, false, false⟩

theorem getGeoIntraMPMs_agree_vertical :
    (getGeoIntraMPMsKept besideVertical laterCall (keptAfter besideVertical [firstCall] fun _ => [])).1 =
      getGeoIntraMPMs besideVertical 4 .AL :=
  getGeoIntraMPMs_agree besideVertical (fun _ => []) [firstCall] laterCall ⟨firstCall, mem_cons_self, rfl, rfl⟩

example : getGeoIntraMPMs besideVertical 4 .AL = [44, 50, 12] := by decide

end ECM.Intra.GeoPartitions
