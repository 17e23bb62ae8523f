import ECM.CommonLib.IntraMpm
import ECM.Intra.GeoPartitions
import Mathlib.Data.List.Perm.Subperm

/-! # The list of most probable modes and the list of the others

Whatever the neighbours are, the modes are collected without repetition until there are
22 of them, and the defaults suffice to fill the list. The other list has the rest. -/

namespace ECM.Intra.MostProbable
open CommonLib CommonLib.PU Lib.FirstOccurrences ECM.Intra.GeoPartitions List

variable {s s' : ModeList} {mode numCand : ℕ}

/-! ## One phase after another -/

theorem lt_NUM_INTRA_MODE (h : mode < NUM_LUMA_MODE) : ¬ mode ≥ NUM_INTRA_MODE := by
  unfold NUM_INTRA_MODE
  omega

theorem putMode_eq (hs : s.mpm.length < NUM_MOST_PROBABLE_MODES) (h : mode < NUM_LUMA_MODE) :
    putMode s mode = .ok (s.tryMode mode) := by
  have hroom : ¬ s.numValidMPM ≥ NUM_MOST_PROBABLE_MODES := Nat.not_le.mpr hs
  rw [putMode, check_ok _ hroom, check_ok _ (lt_NUM_INTRA_MODE h)]
  rfl

/-- A phase collects luma modes as long as there is room. -/
def Grows (s s' : ModeList) : Prop :=
  ∃ modes : List ℕ, (∀ mode ∈ modes, mode < NUM_LUMA_MODE) ∧ s'.mpm = addUntil NUM_MOST_PROBABLE_MODES s.mpm modes

theorem Grows.refl (s : ModeList) : Grows s s := ⟨[], fun _ h => absurd h not_mem_nil, rfl⟩

theorem Grows.trans {s'' : ModeList} (h : Grows s s') (h' : Grows s' s'') : Grows s s'' := by
  obtain ⟨modes, hmodes, heq⟩ := h
  obtain ⟨modes', hmodes', heq'⟩ := h'
  refine ⟨modes ++ modes', fun mode hmode => ?_, ?_⟩
  · exact (mem_append.mp hmode).elim (hmodes mode) (hmodes' mode)
  · rw [addUntil_append, ← heq, heq']

theorem Grows.length_le (h : Grows s s') (hs : s.mpm.length ≤ NUM_MOST_PROBABLE_MODES) :
    s'.mpm.length ≤ NUM_MOST_PROBABLE_MODES := by
  obtain ⟨modes, -, heq⟩ := h
  rw [heq]
  exact addUntil_length hs modes

theorem grows_tryMode (hs : s.mpm.length < NUM_MOST_PROBABLE_MODES) (h : mode < NUM_LUMA_MODE) :
    Grows s (s.tryMode mode) := by
  refine ⟨[mode], forall_mem_singleton.mpr h, ?_⟩
  rw [addUntil, if_neg (Nat.ne_of_lt hs), mpm_tryMode]
  rfl

/-- Modes for which there is room are all collected. -/
theorem putModes_grows (modes : List ℕ) (hmodes : ∀ mode ∈ modes, mode < NUM_LUMA_MODE)
    (hs : s.mpm.length + modes.length ≤ NUM_MOST_PROBABLE_MODES) :
    ∃ s', putModes s modes = .ok s' ∧ Grows s s' ∧ s'.mpm.length ≤ s.mpm.length + modes.length := by
  unfold putModes
  induction modes generalizing s with
  | nil => exact ⟨s, rfl, .refl s, Nat.le_refl _⟩
  | cons mode modes ih =>
    obtain ⟨hmode, hrest⟩ := forall_mem_cons.mp hmodes
    rw [length_cons] at hs
    have hroom : s.mpm.length < NUM_MOST_PROBABLE_MODES := by omega
    have hlen : (s.tryMode mode).mpm.length ≤ s.mpm.length + 1 := by
      rw [mpm_tryMode]
      exact addNew_length s.mpm mode
    obtain ⟨s', hs', hgrows, hle⟩ := ih (s := s.tryMode mode) hrest (by omega)
    refine ⟨s', ?_, (grows_tryMode hroom hmode).trans hgrows, ?_⟩
    · rw [foldlM_cons, putMode_eq hroom hmode]
      exact hs'
    · rw [length_cons]
      omega

theorem derived_lt (n : ℕ) : n % mod + 2 < NUM_LUMA_MODE := by
  have hlt : n % mod < mod := Nat.mod_lt n (by decide)
  have hmod : mod = 64 := rfl
  have hnum : NUM_LUMA_MODE = 67 := rfl
  omega

theorem deriveModes_grows (mode : ℕ) (rounds i : ℕ) : ∃ s', deriveModes mode rounds i s = .ok s' ∧ Grows s s' := by
  induction rounds generalizing s i with
  | zero => exact ⟨s, rfl, .refl s⟩
  | succ rounds ih =>
    rw [deriveModes]
    split
    case isFalse => exact ⟨s, rfl, .refl s⟩
    case isTrue hroom =>
      rw [putMode_eq hroom (derived_lt _), ok_bind]
      have hfirst := grows_tryMode hroom (derived_lt (mode + offset - i))
      split
      case isTrue => exact ⟨_, rfl, hfirst⟩
      case isFalse hmore =>
        have hroom' := Nat.not_le.mp hmore
        rw [putMode_eq hroom' (derived_lt _), ok_bind]
        obtain ⟨s', hs', hgrows⟩ := ih (i + 1)
        exact ⟨s', hs', (hfirst.trans (grows_tryMode hroom' (derived_lt _))).trans hgrows⟩

theorem deriveFrom_grows (numCand k : ℕ) (s : ModeList) : ∃ s', deriveFrom numCand k s = .ok s' ∧ Grows s s' := by
  unfold deriveFrom
  split
  · exact deriveModes_grows _ 4 0
  · exact ⟨s, rfl, .refl s⟩

theorem deriveThird_grows (numCand : ℕ) (s : ModeList) : ∃ s', deriveThird numCand s = .ok s' ∧ Grows s s' := by
  unfold deriveThird
  split
  · exact deriveModes_grows _ 3 0
  · exact ⟨s, rfl, .refl s⟩

theorem putDefaults_eq (modes : List ℕ) (hmodes : ∀ mode ∈ modes, mode < NUM_LUMA_MODE)
    (hs : s.mpm.length ≤ NUM_MOST_PROBABLE_MODES) :
    ∃ s', putDefaults modes s = .ok s' ∧ s'.mpm = addUntil NUM_MOST_PROBABLE_MODES s.mpm modes := by
  induction modes generalizing s with
  | nil => exact ⟨s, rfl, rfl⟩
  | cons mode modes ih =>
    obtain ⟨hmode, hrest⟩ := forall_mem_cons.mp hmodes
    rw [putDefaults, addUntil]
    by_cases hroom : s.numValidMPM < NUM_MOST_PROBABLE_MODES
    · have hlt : s.mpm.length < NUM_MOST_PROBABLE_MODES := hroom
      have hlen : (s.tryMode mode).mpm.length ≤ s.mpm.length + 1 := by
        rw [mpm_tryMode]
        exact addNew_length s.mpm mode
      obtain ⟨s', hs', heq⟩ := ih (s := s.tryMode mode) hrest (by omega)
      refine ⟨s', ?_, ?_⟩
      · rw [if_pos hroom, putMode_eq hroom hmode]
        exact hs'
      · rw [if_neg (Nat.ne_of_lt hlt), heq, mpm_tryMode]
    · have hfull : s.mpm.length = NUM_MOST_PROBABLE_MODES := Nat.le_antisymm hs (Nat.not_lt.mp hroom)
      exact ⟨s, if_neg hroom, (if_pos hfull).symm⟩

/-! ## The neighbourhood -/

theorem intraCandCtu_lt (pu : Option Neighbour) : ∀ mode ∈ intraCandCtu pu, mode < NUM_LUMA_MODE := by
  intro mode hmode
  cases pu with
  | none => exact absurd hmode not_mem_nil
  | some pu =>
    simp only [intraCandCtu, mem_ite_nil_right, mem_singleton] at hmode
    rw [hmode.2]
    exact pu.intraMode_lt

theorem dimdBlendCand_lt (pu : IntraUnit) : ∀ mode ∈ dimdBlendCand pu, mode < NUM_LUMA_MODE := by
  intro mode hmode
  unfold dimdBlendCand at hmode
  split at hmode
  case h_1 dimd _ =>
    rw [mem_ite_nil_right, mem_singleton] at hmode
    rw [hmode.2]
    exact dimd.isLt
  case h_2 => exact absurd hmode not_mem_nil

theorem neighbourCands_lt (pu : IntraUnit) : ∀ mode ∈ neighbourCands pu, mode < NUM_LUMA_MODE := by
  intro mode hmode
  simp only [neighbourCands, mem_append] at hmode
  rcases hmode with (((((((((h | h) | h) | h) | h) | h) | h) | h) | h) | h)
  · exact intraCand_lt _ mode h
  · exact intraCandCtu_lt _ mode h
  · exact interCand_lt _ mode h
  · exact interCand_lt _ mode h
  · exact intraCand_lt _ mode h
  · exact intraCandCtu_lt _ mode h
  · exact intraCandCtu_lt _ mode h
  · exact interCand_lt _ mode h
  · exact interCand_lt _ mode h
  · exact interCand_lt _ mode h

/-- A unit has one mode, of intra or of inter prediction. -/
theorem cand_length (pu : Option Neighbour) :
    (intraCand pu).length + (interCand pu).length ≤ 1 ∧ (intraCandCtu pu).length + (interCand pu).length ≤ 1 := by
  cases pu with
  | none => exact ⟨Nat.zero_le 1, Nat.zero_le 1⟩
  | some pu =>
    cases hmode : pu.predMode <;> cases hctu : pu.sameCtu <;>
      simp [intraCand, interCand, intraCandCtu, Neighbour.isIntra, Neighbour.isInter, hmode, hctu]

theorem neighbourCands_length (pu : IntraUnit) : (neighbourCands pu).length ≤ 5 := by
  have hleft := cand_length (if pu.lheight ≥ pu.lwidth then pu.above else pu.left)
  have habove := cand_length (if pu.lheight ≥ pu.lwidth then pu.left else pu.above)
  have hbelowLeft := cand_length pu.belowLeft
  have haboveRight := cand_length pu.aboveRight
  have haboveLeft := cand_length pu.aboveLeft
  simp only [neighbourCands, length_append]
  omega

theorem dimdBlendCand_length (pu : IntraUnit) : (dimdBlendCand pu).length ≤ 1 := by
  unfold dimdBlendCand
  split
  · split
    · exact Nat.le_refl 1
    · exact Nat.zero_le 1
  · exact Nat.zero_le 1

/-! ## The whole list -/

theorem mpm_default_lt : ∀ mode ∈ mpm_default, mode < NUM_LUMA_MODE := by decide

/-- Planar and the defaults are as many modes as the list holds. -/
theorem defaults_nodup : (PLANAR_IDX :: mpm_default).Nodup ∧ (PLANAR_IDX :: mpm_default).length = NUM_MOST_PROBABLE_MODES := by
  decide

/-- What is known of the list when it is complete. -/
structure Complete (mpm : List ℕ) : Prop where
  length : mpm.length = NUM_MOST_PROBABLE_MODES
  nodup : mpm.Nodup
  lt : ∀ mode ∈ mpm, mode < NUM_LUMA_MODE
  planar : mpm.getD 0 0 = PLANAR_IDX

/-- The defaults fill the list whatever has been collected. -/
theorem complete_of_collected {modes : List ℕ} (hmodes : ∀ mode ∈ modes, mode < NUM_LUMA_MODE)
    (hdefaults : mpm_default ⊆ modes) : Complete (addUntil NUM_MOST_PROBABLE_MODES [PLANAR_IDX] modes) := by
  have hnodup : (addAll [PLANAR_IDX] modes).Nodup := addAll_nodup (nodup_singleton _) modes
  rw [addUntil_eq_take (show [PLANAR_IDX].length ≤ NUM_MOST_PROBABLE_MODES by decide)]
  obtain ⟨rest, hrest⟩ := prefix_addAll [PLANAR_IDX] modes
  have hsub : PLANAR_IDX :: mpm_default ⊆ addAll [PLANAR_IDX] modes := by
    intro mode hmode
    rw [mem_addAll]
    rcases mem_cons.mp hmode with rfl | hmode
    · exact .inl mem_cons_self
    · exact .inr (hdefaults hmode)
  have hlen := (subperm_of_subset defaults_nodup.1 hsub).length_le
  rw [defaults_nodup.2] at hlen
  refine ⟨?_, hnodup.sublist (take_sublist _ _), fun mode hmode => ?_, ?_⟩
  · rw [length_take, Nat.min_eq_left hlen]
  · rcases (mem_addAll modes).mp (mem_of_mem_take hmode) with h | h
    · rw [mem_singleton.mp h]
      decide
    · exact hmodes mode h
  · rw [← hrest]
    rfl

/-! ## The list of the other modes -/

theorem putNonMpm_eq (s : ModeList) (left idx : ℕ) (non_mpm : List ℕ)
    (h : non_mpm.length + ((List.range' idx left).filter fun m => !s.includedMode m).length ≤ NUM_NON_MPM_MODES) :
    putNonMpm s left idx non_mpm = .ok (non_mpm ++ (List.range' idx left).filter fun m => !s.includedMode m) := by
  induction left generalizing idx non_mpm with
  | zero => exact congrArg Except.ok (append_nil _).symm
  | succ left ih =>
    rw [List.range'_succ] at h ⊢
    rw [putNonMpm]
    cases hm : s.includedMode idx with
    | true =>
      rw [filter_cons_of_neg (by simp [hm])] at h ⊢
      rw [if_pos rfl]
      exact ih (idx + 1) non_mpm h
    | false =>
      rw [filter_cons_of_pos (by simp [hm])] at h ⊢
      rw [length_cons] at h
      rw [if_neg Bool.false_ne_true, check_ok _ (by omega), ok_bind, ih (idx + 1) (non_mpm ++ [idx]) (by
        rw [length_append, length_singleton]
        omega), append_assoc]
      rfl

/-- The modes that are included and those that are not are all luma modes. -/
theorem partition (hcomplete : Complete s.mpm) :
    (s.mpm ++ (List.range' 0 NUM_LUMA_MODE).filter fun m => !s.includedMode m).Perm (List.range NUM_LUMA_MODE) := by
  rw [← range_eq_range']
  have hmpm : s.mpm.Perm ((List.range NUM_LUMA_MODE).filter fun m => s.includedMode m) := by
    refine (perm_ext_iff_of_nodup hcomplete.nodup (nodup_range.filter _)).mpr fun m => ?_
    rw [mem_filter, mem_range, s.marked]
    exact ⟨fun hm => ⟨hcomplete.lt m hm, hm⟩, fun hm => hm.2⟩
  exact (hmpm.append_right _).trans (filter_append_perm (fun m => s.includedMode m) _)

/-- For every neighbourhood the two lists are written within their arrays and have
each luma mode once; the first mode is planar. -/
theorem getIntraMPMs_complete (pu : IntraUnit) :
    ∃ lists, getIntraMPMs pu = .ok lists ∧ Complete lists.mpm ∧ lists.non_mpm.length = NUM_NON_MPM_MODES ∧
      (lists.mpm ++ lists.non_mpm).Perm (List.range NUM_LUMA_MODE) := by
  have hneighbours := neighbourCands_length pu
  have hdimd := dimdCand_length pu
  have hblend := dimdBlendCand_length pu
  have hnum : NUM_MOST_PROBABLE_MODES = 22 := rfl
  have hone : (ModeList.empty.add PLANAR_IDX).mpm.length = 1 := rfl
  obtain ⟨s1, h1, hg1, hlen1⟩ := putModes_grows (s := ModeList.empty.add PLANAR_IDX) (neighbourCands pu)
    (neighbourCands_lt pu) (by omega)
  obtain ⟨s2, h2, hg2, hlen2⟩ := putModes_grows (s := s1) (dimdCand pu ++ dimdBlendCand pu)
    (fun mode hmode => (mem_append.mp hmode).elim (dimdCand_lt pu mode) (dimdBlendCand_lt pu mode))
    (by rw [length_append]; omega)
  obtain ⟨s3, h3, hg3⟩ := deriveFrom_grows s1.numValidMPM 1 s2
  obtain ⟨s4, h4, hg4⟩ := deriveFrom_grows s1.numValidMPM 2 s3
  obtain ⟨s5, h5, hg5⟩ := deriveThird_grows s1.numValidMPM s4
  have hgrows := (((hg1.trans hg2).trans hg3).trans hg4).trans hg5
  obtain ⟨s6, h6, hmpm⟩ := putDefaults_eq (s := s5) mpm_default mpm_default_lt (hgrows.length_le (by omega))
  obtain ⟨modes, hmodes, heq⟩ := hgrows
  have hcomplete : Complete s6.mpm := by
    rw [hmpm, heq, ← addUntil_append]
    exact complete_of_collected
      (fun mode hmode => (mem_append.mp hmode).elim (hmodes mode) (mpm_default_lt mode)) (subset_append_right _ _)
  have hperm := partition hcomplete
  have hlen := hperm.length_eq
  rw [length_append, hcomplete.length, length_range] at hlen
  have hnon : ((List.range' 0 NUM_LUMA_MODE).filter fun m => !s6.includedMode m).length = NUM_NON_MPM_MODES := by
    unfold NUM_NON_MPM_MODES
    omega
  have hcand : ¬ s1.numValidMPM = 0 := by
    obtain ⟨modes1, -, heq1⟩ := hg1
    intro hzero
    have hnil : s1.mpm = [] := length_eq_zero_iff.mp hzero
    rw [heq1, addUntil_eq_take (by omega)] at hnil
    obtain ⟨rest, hrest⟩ := prefix_addAll (ModeList.empty.add PLANAR_IDX).mpm modes1
    rw [← hrest] at hnil
    cases hnil
  refine ⟨⟨s6.mpm, _, s1.numValidMPM⟩, ?_, hcomplete, hnon, hperm⟩
  unfold getIntraMPMs
  rw [h1, ok_bind]
  dsimp only
  rw [h2, ok_bind, h3, ok_bind, h4, ok_bind, h5, ok_bind, h6, ok_bind,
    putNonMpm_eq s6 NUM_LUMA_MODE 0 [] (by rw [hnon]; exact Nat.le_of_eq (Nat.zero_add _)), ok_bind,
    check_ok _ fun ⟨mode, hmode, hle⟩ => absurd (hcomplete.lt mode hmode) (Nat.not_lt.mpr hle), ok_bind, check_ok _ hcand]
  rfl

end ECM.Intra.MostProbable
