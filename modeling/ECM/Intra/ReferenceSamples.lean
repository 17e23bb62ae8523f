import ECM.Intra.ReferencePath
import ECM.Lib.Substitution

/-! # Substitution of reference samples

Each loop of the source writes a unit of the path: the copies put there what is
available, and the padding the sample before the unit. -/

namespace ECM.Intra.ReferenceSamples
open CommonLib CommonLib.RefBlock Lib.Substitution

variable {b : RefBlock} {reco : ℤ → ℤ → ℤ} {neighborFlags : ℕ → Bool} {buf buf' : RefBuffer}

/-! ## Copying -/

/-- The positions of a unit. -/
def stretch (b : RefBlock) (u : ℕ) : Set ℤ := Set.Ico (start b u) (start b (u + 1))

/-- The available samples among the positions in `S` are in the buffer. -/
structure Copied (b : RefBlock) (reco : ℤ → ℤ → ℤ) (neighborFlags : ℕ → Bool) (S : Set ℤ) (buf buf' : RefBuffer) :
    Prop where
  entry : ∀ t < pathLength b, (t : ℤ) ∈ S → neighborFlags ((path b t).unit b) = true →
    buf' ((path b t).address b) = (path b t).sample b reco
  frame : ∀ a, Outside b a → buf' a = buf a

namespace Copied
variable {S S' : Set ℤ} {buf₁ buf₂ : RefBuffer}

theorem mono (hc : Copied b reco neighborFlags S buf buf') (hS : S' ⊆ S) : Copied b reco neighborFlags S' buf buf' :=
  ⟨fun t ht ht' => hc.entry t ht (hS ht'), hc.frame⟩

/-- One more unit is copied where it is available. -/
theorem unit (h : Valid b) (hc : Copied b reco neighborFlags S buf buf₁) {u : ℕ} (hu : u < b.totalUnits)
    (hw : Writes b (stretch b u) (fun t => (path b t).sample b reco) buf₁ buf₂) :
    Copied b reco neighborFlags (S ∪ stretch b u) buf (if neighborFlags u then buf₂ else buf₁) := by
  by_cases hflag : neighborFlags u = true
  · rw [if_pos hflag]
    refine ⟨fun t ht hS ha => ?_, fun a ha => (hw.frame a ha).trans (hc.frame a ha)⟩
    by_cases hmem : (t : ℤ) ∈ stretch b u
    · exact hw.written t ht hmem
    · rw [hw.kept t ht hmem]
      exact hc.entry t ht (hS.resolve_right hmem) ha
  · rw [if_neg hflag]
    refine ⟨fun t ht hS ha => ?_, hc.frame⟩
    rcases hS with hS | hS
    · exact hc.entry t ht hS ha
    · rw [(unit_eq_iff h ht hu).mpr hS] at ha
      exact absurd ha hflag

end Copied

/-- Both arrays have the whole corner: it is as high as it is wide. -/
theorem writes_corner (h : Valid b) (buf : RefBuffer) :
    Writes b (stretch b b.cornerUnit) (fun t => (path b t).sample b reco) buf
      (fillRef b.predStride 1 b.cornerRows (fun i => reco (-(1 + b.multiRefIdx)) (i - (1 + b.multiRefIdx)))
        (fillRef 0 1 b.cornerRows (fun i => reco (i - (1 + b.multiRefIdx)) (-(1 + b.multiRefIdx)))
          (Function.update (Function.update buf 0 (reco (-(1 + b.multiRefIdx)) (-(1 + b.multiRefIdx)))) b.predStride
            (reco (-(1 + b.multiRefIdx)) (-(1 + b.multiRefIdx)))))) := by
  have hsquare := h.square
  obtain ⟨hr, hrl, -, -⟩ := one_le_corner b
  have hstride : 1 + (b.multiRefIdx : ℤ) ≤ b.predStride := by
    unfold predStride
    push_cast
    omega
  have hL : (b.multiRefIdx : ℤ) ≤ lastLeft b := by
    unfold lastLeft
    push_cast
    omega
  have hmem (t : ℕ) : (t : ℤ) ∈ stretch b b.cornerUnit ↔
      lastLeft b + 1 - b.cornerRows ≤ t ∧ (t : ℤ) < lastLeft b + 1 + b.cornerRows := by
    unfold stretch
    rw [(start_corner h).1, (start_corner h).2, ← hsquare]
    rfl
  refine ⟨fun t ht hS => ?_, fun t ht hS => ?_, fun a ha => ?_⟩
  · rw [hmem] at hS
    simp only [fillRef_apply, Function.update_apply]
    by_cases hleft : t ≤ lastLeft b
    · rw [address_left hleft, sample_left hleft]
      by_cases hfirst : t = lastLeft b
      · rw [if_neg (by omega), if_neg (by omega), if_pos (by omega)]
        congr 1
        omega
      · rw [if_pos (by omega)]
        congr 1
        ring
    · rw [address_top (by omega), sample_top (by omega)]
      by_cases hfirst : t = lastLeft b + 1
      · rw [if_neg (by omega), if_neg (by omega), if_neg (by omega), if_pos (by omega)]
        congr 1
        omega
      · rw [if_neg (by omega), if_pos (by omega)]
        congr 1
        ring
  · rw [hmem] at hS
    simp only [fillRef_apply, Function.update_apply]
    by_cases hleft : t ≤ lastLeft b
    · rw [address_left hleft, if_neg (by omega), if_neg (by omega), if_neg (by omega), if_neg (by omega)]
    · unfold pathLength at ht
      rw [address_top (by omega), if_neg (by omega), if_neg (by omega), if_neg (by omega), if_neg (by omega)]
  · unfold Outside at ha
    simp only [fillRef_apply, Function.update_apply]
    rw [if_neg (by omega), if_neg (by omega), if_neg (by omega), if_neg (by omega)]

theorem copyCorner_copied (h : Valid b) (buf : RefBuffer) :
    Copied b reco neighborFlags (stretch b b.cornerUnit) buf (b.copyCorner reco neighborFlags buf) := by
  have hnone : Copied b reco neighborFlags ∅ buf buf :=
    ⟨fun t ht hS => absurd hS (Set.notMem_empty _), fun a _ => rfl⟩
  have hc := hnone.unit h (show b.cornerUnit < b.totalUnits by have hlt := cornerUnit_bounds h; omega)
    (@writes_corner b reco h buf)
  rwa [Set.empty_union] at hc

/-- A unit on the left from its samples. -/
theorem writes_unit_left (h : Valid b) {u : ℕ} (hu : u < b.cornerUnit) {y dst n : ℤ}
    (hdst : dst = b.predStride + lastLeft b + 1 - start b (u + 1)) (hy : y = dst - b.predStride - (1 + b.multiRefIdx))
    (hn : start b (u + 1) = start b u + n) (buf : RefBuffer) :
    Writes b (stretch b u) (fun t => (path b t).sample b reco) buf
      (fillRef dst 0 n (fun i => reco (-(1 + b.multiRefIdx)) (y + i)) buf) := by
  obtain ⟨-, hlt⟩ := cornerUnit_bounds h
  obtain ⟨hr, -⟩ := one_le_corner b
  obtain ⟨hcs, -⟩ := start_corner h
  have hzero : 0 ≤ start b u := start_mono h (Nat.zero_le u) (by omega)
  have htop : start b (u + 1) ≤ start b b.cornerUnit := start_mono h hu (by omega)
  refine (writes_left hzero (by omega) (by omega) (by omega) _).congr fun t ht hS => ?_
  rw [Set.mem_Ico] at hS
  rw [sample_left (by omega), hy]
  congr 1
  ring

/-- A unit above from its samples. -/
theorem writes_unit_top (h : Valid b) {u : ℕ} (hu : b.cornerUnit < u) (hu' : u < b.totalUnits) {x dst n : ℤ}
    (hdst : dst = start b u - lastLeft b - 1) (hx : x = dst - (1 + b.multiRefIdx))
    (hn : start b (u + 1) = start b u + n) (buf : RefBuffer) :
    Writes b (stretch b u) (fun t => (path b t).sample b reco) buf
      (fillRef dst 0 n (fun j => reco (x + j) (-(1 + b.multiRefIdx))) buf) := by
  obtain ⟨-, -, hc, -⟩ := one_le_corner b
  obtain ⟨-, hcs⟩ := start_corner h
  have hfirst : start b (b.cornerUnit + 1) ≤ start b u := start_mono h hu hu'.le
  have hlast : start b (u + 1) ≤ pathLength b := start_total h ▸ start_mono h hu' (Nat.le_refl _)
  refine (writes_top (by omega) hlast (by omega) (by omega) _).congr fun t ht hS => ?_
  rw [Set.mem_Ico] at hS
  rw [sample_top (by omega), hx]
  congr 1
  ring

/-- The loop over the units on the left, and where its pointers are behind it. -/
theorem copyLeft_copied (h : Valid b) {unitIdx : ℕ} (hu : unitIdx < b.cornerUnit) {y dst : ℤ}
    (hdst : dst = b.predStride + lastLeft b + 1 - start b (unitIdx + 1))
    (hy : y = dst - b.predStride - (1 + b.multiRefIdx)) {buf₁ : RefBuffer}
    (hc : Copied b reco neighborFlags (Set.Ico (start b (unitIdx + 1)) (start b (b.cornerUnit + 1))) buf buf₁) :
    ∃ buf₂, b.copyLeft reco neighborFlags unitIdx y dst buf₁ =
        (buf₂, (b.predHSize : ℤ) - lastSample b.predHSize b.unitHeight, b.predStride + lastLeft b + 1 - start b 1) ∧
      Copied b reco neighborFlags (Set.Ico (start b 1) (start b (b.cornerUnit + 1))) buf buf₂ := by
  obtain ⟨htwo, hlt⟩ := cornerUnit_bounds h
  induction unitIdx generalizing y dst buf₁ with
  | zero =>
    refine ⟨buf₁, ?_, hc⟩
    have hL : (lastLeft b : ℤ) = b.predHSize + b.multiRefIdx := by
      unfold lastLeft
      push_cast
      ring
    unfold copyLeft
    rw [hy, hdst, zero_add, start_one h, hL]
    congr 2
    ring
  | succ n ih =>
    have hstart := start_left (Nat.le_add_left 1 n) hu
    unfold copyLeft
    refine ih (by omega) (by omega) (by omega) ?_
    refine (hc.unit h (by omega) (writes_unit_left h hu hdst hy hstart buf₁)).mono fun t ht => ?_
    unfold stretch
    rw [Set.mem_Ico] at ht
    simp only [Set.mem_union, Set.mem_Ico]
    omega

theorem copyAbove_copied (h : Valid b) {units unitIdx : ℕ} (hu : b.cornerUnit < unitIdx)
    (hu' : unitIdx + units + 1 = b.totalUnits) {x dst : ℤ} (hdst : dst = start b unitIdx - lastLeft b - 1)
    (hx : x = dst - (1 + b.multiRefIdx)) {buf₁ : RefBuffer}
    (hc : Copied b reco neighborFlags (Set.Ico 0 (start b unitIdx)) buf buf₁) :
    ∃ buf₂, b.copyAbove reco neighborFlags units unitIdx x dst buf₁ =
        (buf₂, start b (b.totalUnits - 1) - lastLeft b - 1 - (1 + b.multiRefIdx),
          start b (b.totalUnits - 1) - lastLeft b - 1) ∧
      Copied b reco neighborFlags (Set.Ico 0 (start b (b.totalUnits - 1))) buf buf₂ := by
  induction units generalizing unitIdx x dst buf₁ with
  | zero =>
    obtain rfl : unitIdx = b.totalUnits - 1 := by omega
    refine ⟨buf₁, ?_, hc⟩
    unfold copyAbove
    rw [hx, hdst]
  | succ n ih =>
    have hstart := start_above hu (show unitIdx + 1 < b.totalUnits by omega)
    unfold copyAbove
    refine ih (by omega) (by omega) (by omega) (by omega) ?_
    refine (hc.unit h (by omega) (writes_unit_top h hu (by omega) hdst hx hstart buf₁)).mono fun t ht => ?_
    unfold stretch
    rw [Set.mem_Ico] at ht
    simp only [Set.mem_union, Set.mem_Ico]
    omega

/-- Every sample that is available is in the buffer. -/
theorem copyAvailable_copied (h : Valid b) (buf : RefBuffer) :
    Copied b reco neighborFlags (Set.Ico 0 (pathLength b)) buf (b.copyAvailable reco neighborFlags buf) := by
  obtain ⟨htwo, hlt⟩ := cornerUnit_bounds h
  obtain ⟨hcs, hcs'⟩ := start_corner h
  have hrows : b.cornerRows = 1 + b.multiRefIdx - b.leftMrlUnitNum * b.unitHeight := rfl
  have hcols : b.cornerCols = 1 + b.multiRefIdx - b.aboveMrlUnitNum * b.unitWidth := rfl
  have hsucc : b.cornerUnit - 1 + 1 = b.cornerUnit := by omega
  obtain ⟨buf₂, hleft, hc₂⟩ := @copyLeft_copied b reco neighborFlags buf h (b.cornerUnit - 1) (by omega)
    (-(b.leftMrlUnitNum * b.unitHeight)) (b.predStride + b.cornerRows) (by rw [hsucc, hcs]; ring)
    (by rw [hrows]; ring) (b.copyCorner reco neighborFlags buf)
    (by rw [hsucc]; exact copyCorner_copied h buf)
  -- the unit below left
  have hlow := (hc₂.unit h (show 0 < b.totalUnits by omega) (@writes_unit_left b reco h 0 (by omega)
    (b.predHSize - lastSample b.predHSize b.unitHeight) _ (lastSample b.predHSize b.unitHeight) rfl
    (by rw [start_one h]; unfold lastLeft; push_cast; ring) (by rw [start_one h]; exact (zero_add _).symm) buf₂))
  obtain ⟨buf₃, habove, hc₃⟩ := @copyAbove_copied b reco neighborFlags buf h (b.totalUnits - 1 - (b.cornerUnit + 1))
    (b.cornerUnit + 1) (Nat.lt_succ_self _) (by omega) (-(b.aboveMrlUnitNum * b.unitWidth)) b.cornerCols
    (by rw [hcs']; ring) (by rw [hcols]; ring) _ (hlow.mono fun t ht => by
      have hzero : start b 0 = 0 := rfl
      unfold stretch
      rw [Set.mem_Ico] at ht
      simp only [Set.mem_union, Set.mem_Ico, zero_add]
      omega)
  have htotal : b.totalUnits - 1 + 1 = b.totalUnits := by omega
  have hend := hc₃.unit h (show b.totalUnits - 1 < b.totalUnits by omega)
    (@writes_unit_top b reco h (b.totalUnits - 1) (by omega) (by omega) _ _ (lastSample b.predSize b.unitWidth) rfl rfl
      (start_last h htotal).1 buf₃)
  unfold copyAvailable
  simp only [hleft, habove]
  refine hend.mono fun t ht => ?_
  have hlast := (start_last h htotal).2
  unfold stretch
  rw [Set.mem_Ico] at ht
  simp only [Set.mem_union, Set.mem_Ico]
  omega

/-! ## Padding -/

/-- What an entry shall hold. -/
def target (b : RefBlock) (reco : ℤ → ℤ → ℤ) (neighborFlags : ℕ → Bool) (t : ℕ) : ℤ :=
  substitute (fun t => neighborFlags ((path b t).unit b)) (fun t => (path b t).sample b reco) (pathLength b)
    (2 ^ (b.bitDepth - 1)) t

theorem target_of_avail {t : ℕ} (ha : neighborFlags ((path b t).unit b) = true) :
    target b reco neighborFlags t = (path b t).sample b reco :=
  @substitute_of_avail _ (fun t => neighborFlags ((path b t).unit b)) (fun t => (path b t).sample b reco) _ _ t ha

/-- The first `units` units are final, and of the others what is available. -/
structure Padded (b : RefBlock) (reco : ℤ → ℤ → ℤ) (neighborFlags : ℕ → Bool) (units : ℕ) (buf buf' : RefBuffer) :
    Prop extends Copied b reco neighborFlags (Set.Ico 0 (pathLength b)) buf buf' where
  final : ∀ t < pathLength b, (t : ℤ) < start b units → buf' ((path b t).address b) = target b reco neighborFlags t

theorem Copied.of_lt {t : ℕ} (hc : Copied b reco neighborFlags (Set.Ico 0 (pathLength b)) buf buf')
    (ht : t < pathLength b) (ha : neighborFlags ((path b t).unit b) = true) :
    buf' ((path b t).address b) = target b reco neighborFlags t := by
  rw [hc.entry t ht (Set.mem_Ico.mpr ⟨by omega, by omega⟩) ha]
  exact (target_of_avail ha).symm

/-- An available unit is final already. -/
theorem Padded.available (h : Valid b) {u : ℕ} (hp : Padded b reco neighborFlags u buf buf') (hu : u < b.totalUnits)
    (ha : neighborFlags u = true) : Padded b reco neighborFlags (u + 1) buf buf' := by
  refine ⟨hp.toCopied, fun t ht hlt => ?_⟩
  by_cases hbefore : (t : ℤ) < start b u
  · exact hp.final t ht hbefore
  · have hunit := (unit_eq_iff h ht hu).mpr ⟨not_lt.mp hbefore, hlt⟩
    exact hp.toCopied.of_lt ht (hunit ▸ ha)

theorem findAvailable_spec {rounds unit f : ℕ} (hf : unit ≤ f) (hft : f < b.totalUnits)
    (ha : neighborFlags f = true) (hr : f < unit + rounds) :
    b.findAvailable neighborFlags rounds unit < b.totalUnits ∧ unit ≤ b.findAvailable neighborFlags rounds unit ∧
      neighborFlags (b.findAvailable neighborFlags rounds unit) = true ∧
      ∀ w, unit ≤ w → w < b.findAvailable neighborFlags rounds unit → neighborFlags w = false := by
  induction rounds generalizing unit with
  | zero => omega
  | succ rounds ih =>
    unfold findAvailable
    cases hu : neighborFlags unit with
    | true =>
      rw [if_neg (by simp)]
      exact ⟨by omega, Nat.le_refl _, hu, fun w h1 h2 => by omega⟩
    | false =>
      have hne : unit ≠ f := by
        rintro rfl
        rw [hu] at ha
        cases ha
      obtain ⟨h1, h2, h3, h4⟩ := @ih (unit + 1) (by omega) (by omega)
      rw [if_pos ⟨by omega, rfl⟩]
      refine ⟨h1, by omega, h3, fun w hw hlt => ?_⟩
      by_cases heq : w = unit
      · rw [heq, hu]
      · exact h4 w (by omega) hlt

/-- The stretch before the first available unit takes the first sample of that unit. -/
theorem padFirst_writes (h : Valid b) {f s : ℕ} (hpos : 0 < f) (hf : f < b.totalUnits) (hs : (s : ℤ) = start b f)
    (hzero : neighborFlags 0 = false) (hfind : b.findAvailable neighborFlags b.totalUnits 1 = f) (buf : RefBuffer) :
    Writes b (Set.Ico 0 (start b f)) (fun _ => buf ((path b s).address b)) buf (b.padFirst neighborFlags buf).1 ∧
      (b.padFirst neighborFlags buf).2 = f := by
  obtain ⟨hr, -, hc, -⟩ := one_le_corner b
  obtain ⟨hcs, hcs'⟩ := start_corner h
  have hrows : b.cornerRows = 1 + b.multiRefIdx - b.leftMrlUnitNum * b.unitHeight := rfl
  have hcols : b.cornerCols = 1 + b.multiRefIdx - b.aboveMrlUnitNum * b.unitWidth := rfl
  have hL : (lastLeft b : ℤ) = b.predHSize + b.multiRefIdx := by
    unfold lastLeft
    push_cast
    ring
  have hle : start b f ≤ pathLength b := start_total h ▸ start_mono h hf.le (Nat.le_refl _)
  unfold padFirst
  simp only [hzero, hfind, Bool.not_false, if_true]
  refine ⟨?_, trivial⟩
  by_cases hleft : f ≤ b.cornerUnit
  · -- the row of the sample
    have hrow : (if f < b.cornerUnit then
        ((b.cornerUnit : ℤ) - f) * b.unitHeight + b.multiRefIdx - b.leftMrlUnitNum * b.unitHeight
        else if f = b.cornerUnit then (b.multiRefIdx : ℤ) - b.leftMrlUnitNum * b.unitHeight else -1) =
        lastLeft b - start b f := by
      rw [start_of_le hpos hleft, hrows]
      by_cases hlt : f < b.cornerUnit
      · rw [if_pos hlt]
        ring
      · obtain rfl : f = b.cornerUnit := by omega
        rw [if_neg hlt, if_pos rfl]
        ring
    have hmono : start b f ≤ start b b.cornerUnit := start_mono h hleft (by have hb := cornerUnit_bounds h; omega)
    rw [hrow, if_pos hleft, if_neg (lt_irrefl 0), if_neg (by omega), address_left (by omega), ← hs,
      add_comm (b.predStride : ℤ)]
    exact @writes_left b buf 0 s (Int.le_refl 0) (by omega) b.predStride _ _ (by omega) (by omega) fun _ =>
      buf ((lastLeft b : ℤ) - s + b.predStride)
  · -- the column of the sample
    have hcol : ((f : ℤ) - b.cornerUnit - 1) * b.unitWidth + 1 + b.multiRefIdx - b.aboveMrlUnitNum * b.unitWidth =
        start b f - lastLeft b - 1 := by
      rw [start_of_gt (by omega) hf, hcols]
      ring
    have hmono : start b (b.cornerUnit + 1) ≤ start b f := start_mono h (by omega) hf.le
    rw [if_neg (show ¬f < b.cornerUnit by omega), if_neg (show f ≠ b.cornerUnit by omega), if_neg hleft, hcol,
      if_pos (by omega), if_pos (by omega), address_top (by omega), ← hs]
    have hw₁ := @writes_left b buf 0 (lastLeft b + 1) (Int.le_refl 0) (Int.le_refl _) b.predStride (-1 + 1)
      (b.predHSize + b.multiRefIdx + 1) (by omega) (by omega) fun _ => buf ((s : ℤ) - lastLeft b - 1)
    have hw₂ := @writes_top b (fillRef b.predStride (-1 + 1) (b.predHSize + b.multiRefIdx + 1)
      (fun _ => buf ((s : ℤ) - lastLeft b - 1)) buf) (lastLeft b + 1) s (Int.le_refl _) (by omega) 0 0
      ((s : ℤ) - lastLeft b - 1) (by omega) (by omega) fun _ => buf ((s : ℤ) - lastLeft b - 1)
    have hw := hw₁.trans hw₂
    rwa [Set.Ico_union_Ico_eq_Ico (by omega) (by omega)] at hw

theorem padFirst_padded (h : Valid b) {buf₁ : RefBuffer}
    (hc : Copied b reco neighborFlags (Set.Ico 0 (pathLength b)) buf buf₁) {f : ℕ} (hf : f < b.totalUnits)
    (ha : neighborFlags f = true) :
    (b.padFirst neighborFlags buf₁).2 < b.totalUnits ∧
      Padded b reco neighborFlags ((b.padFirst neighborFlags buf₁).2 + 1) buf (b.padFirst neighborFlags buf₁).1 := by
  cases hzero : neighborFlags 0 with
  | true =>
    have hsame : b.padFirst neighborFlags buf₁ = (buf₁, 0) := by
      unfold padFirst
      rw [hzero]
      rfl
    have hstart : start b 0 = 0 := rfl
    have hp : Padded b reco neighborFlags 0 buf buf₁ := ⟨hc, fun t ht hlt => by omega⟩
    rw [hsame]
    exact ⟨by omega, hp.available h (by omega) hzero⟩
  | false =>
    have hne : f ≠ 0 := by
      rintro rfl
      rw [hzero] at ha
      cases ha
    obtain ⟨hg, hpos, hag, hbefore⟩ := @findAvailable_spec b neighborFlags b.totalUnits 1 f (by omega) hf ha (by omega)
    generalize hfind : b.findAvailable neighborFlags b.totalUnits 1 = g at hg hpos hag hbefore
    have hnone (u : ℕ) (hu : u < g) : neighborFlags u = false := by
      by_cases hu0 : u = 0
      · rw [hu0, hzero]
      · exact hbefore u (by omega) hu
    have hnonneg : 0 ≤ start b g := start_mono h (Nat.zero_le g) hg.le
    obtain ⟨s, hs⟩ := Int.eq_ofNat_of_zero_le hnonneg
    have hle : start b (g + 1) ≤ pathLength b := start_total h ▸ start_mono h hg (Nat.le_refl _)
    have hlt := start_lt_succ h hg
    obtain ⟨hw, hlast⟩ := padFirst_writes h hpos hg hs.symm hzero hfind buf₁
    -- nothing before the first available unit is available
    have hgap {t : ℕ} (ht : t < pathLength b) (hts : (t : ℤ) < start b g) :
        neighborFlags ((path b t).unit b) = false := by
      obtain ⟨hmem, hstart, -⟩ := mem_unit h ht
      refine hnone _ ?_
      by_contra hge
      have hmono := start_mono h (not_lt.mp hge) hmem.le
      omega
    have hsunit : (path b s).unit b = g := (unit_eq_iff h (by omega) hg).mpr ⟨hs.le, by omega⟩
    have hp : Padded b reco neighborFlags g buf (b.padFirst neighborFlags buf₁).1 := by
      refine ⟨⟨fun t ht hS hat => ?_, fun a ha => (hw.frame a ha).trans (hc.frame a ha)⟩, fun t ht hts => ?_⟩
      · rw [hw.kept t ht fun hmem => ?_]
        · exact hc.entry t ht hS hat
        · rw [hgap ht hmem.2] at hat
          cases hat
      · rw [hw.written t ht ⟨by omega, hts⟩, hc.entry s (by omega) ⟨by omega, by omega⟩ (hsunit ▸ hag)]
        have hfirst (r : ℕ) (hr : r < s) : neighborFlags ((path b r).unit b) = false := hgap (by omega) (by omega)
        have hts' : t ≤ s := by omega
        have hsN : s < pathLength b := by omega
        rw [← hsunit] at hag
        exact (@substitute_first _ (fun t => neighborFlags ((path b t).unit b)) (fun t => (path b t).sample b reco)
          _ _ s t hag hsN hfirst hts').symm
    rw [hlast]
    exact ⟨hg, hp.available h hg hag⟩

/-- A gap takes the sample before it. -/
theorem Padded.gap (h : Valid b) {u s : ℕ} {buf₁ buf₂ : RefBuffer} (hp : Padded b reco neighborFlags u buf buf₁)
    (hu : u < b.totalUnits) (hs : (s : ℤ) + 1 = start b u) (ha : neighborFlags u = false)
    (hw : Writes b (stretch b u) (fun _ => buf₁ ((path b s).address b)) buf₁ buf₂) :
    Padded b reco neighborFlags (u + 1) buf buf₂ := by
  have hle : start b u ≤ pathLength b := start_total h ▸ start_mono h hu.le (Nat.le_refl _)
  have hunit {t : ℕ} (ht : t < pathLength b) := unit_eq_iff h ht hu
  refine ⟨⟨fun t ht hS hat => ?_, fun a ha => (hw.frame a ha).trans (hp.frame a ha)⟩, fun t ht hlt => ?_⟩
  · rw [hw.kept t ht fun hmem => ?_]
    · exact hp.entry t ht hS hat
    · rw [(hunit ht).mpr hmem, ha] at hat
      cases hat
  · by_cases hbefore : (t : ℤ) < start b u
    · rw [hw.kept t ht fun hmem => ?_]
      · exact hp.final t ht hbefore
      · have hm := hmem.1
        omega
    · have hge := not_lt.mp hbefore
      rw [hw.written t ht ⟨hge, hlt⟩]
      have hprev := hp.final s (by omega) (by omega)
      refine hprev.trans (substitute_gap (by omega) fun r hsr hrt => ?_).symm
      have hr := (hunit (show r < pathLength b by omega)).mpr ⟨by omega, by omega⟩
      simp only [hr, ha]

/-- The current unit takes the sample before it, whichever array the two are in. -/
theorem padUnit_writes (h : Valid b) {u s : ℕ} (hu : u + 1 < b.totalUnits) (hs : (s : ℤ) + 1 = start b (u + 1))
    (buf : RefBuffer) :
    Writes b (stretch b (u + 1)) (fun _ => buf ((path b s).address b)) buf (b.padUnit u (u + 1) buf) := by
  obtain ⟨hr, -, hc, -⟩ := one_le_corner b
  obtain ⟨hcs, hcs'⟩ := start_corner h
  obtain ⟨htwo, hlt⟩ := cornerUnit_bounds h
  have hsquare := h.square
  have hrows : b.cornerRows = 1 + b.multiRefIdx - b.leftMrlUnitNum * b.unitHeight := rfl
  have hcols : b.cornerCols = 1 + b.multiRefIdx - b.aboveMrlUnitNum * b.unitWidth := rfl
  have hle : start b (u + 1 + 1) ≤ pathLength b := start_total h ▸ start_mono h hu (Nat.le_refl _)
  have hzero : 0 ≤ start b u := start_mono h (Nat.zero_le u) (by omega)
  unfold padUnit
  by_cases hleft : u < b.cornerUnit
  · have hrow : ((b.cornerUnit : ℤ) - u - 1) * b.unitHeight + b.multiRefIdx - b.leftMrlUnitNum * b.unitHeight + 1 =
        lastLeft b - s := by
      rw [start_of_le (Nat.succ_pos u) hleft, hrows] at hs
      push_cast at hs
      linarith
    have hmono : start b (u + 1) ≤ start b b.cornerUnit := start_mono h hleft (by omega)
    simp only [hleft, if_true, hrow]
    rw [if_neg (show ¬(lastLeft b - (s : ℤ) < 0) by omega), address_left (by omega), add_comm (b.predStride : ℤ)]
    by_cases hnext : u + 1 < b.cornerUnit
    · have hstep := start_left (Nat.le_add_left 1 u) hnext
      have hmono' : start b (u + 1 + 1) ≤ start b b.cornerUnit := start_mono h hnext (by omega)
      rw [if_pos hnext]
      exact @writes_left b buf (start b (u + 1)) (start b (u + 1 + 1)) (by omega) (by omega) b.predStride _ _ (by omega)
        (by omega) fun _ => buf ((lastLeft b : ℤ) - s + b.predStride)
    · obtain heq : u + 1 = b.cornerUnit := by omega
      rw [if_neg hnext, if_pos heq]
      unfold stretch
      rw [heq] at hs ⊢
      rw [hcs, hcs']
      have hw₁ := @writes_left b buf (lastLeft b + 1 - b.cornerRows) (lastLeft b + 1) (by omega) (Int.le_refl _)
        b.predStride 0 b.cornerRows (by omega) (by omega) fun _ => buf ((lastLeft b : ℤ) - s + b.predStride)
      have hw₂ := @writes_top b (fillRef b.predStride 0 b.cornerRows
        (fun _ => buf ((lastLeft b : ℤ) - s + b.predStride)) buf) (lastLeft b + 1) (lastLeft b + 1 + b.cornerCols)
        (Int.le_refl _) (hcs' ▸ start_total h ▸ start_mono h (by omega) (Nat.le_refl _)) 0 0 b.cornerCols (by omega)
        (by omega) fun _ => buf ((lastLeft b : ℤ) - s + b.predStride)
      have hw := hw₁.trans hw₂
      rwa [Set.Ico_union_Ico_eq_Ico (by omega) (by omega)] at hw
  · have hcol : (if u = b.cornerUnit then (b.multiRefIdx : ℤ) - b.leftMrlUnitNum * b.unitHeight
        else ((u : ℤ) - b.cornerUnit) * b.unitWidth + b.multiRefIdx - b.aboveMrlUnitNum * b.unitWidth) =
        s - lastLeft b - 1 := by
      by_cases heq : u = b.cornerUnit
      · rw [if_pos heq]
        rw [heq, hcs'] at hs
        omega
      · rw [start_of_gt (by omega) hu, hcols] at hs
        rw [if_neg heq]
        push_cast at hs
        linarith
    have hmono : start b (b.cornerUnit + 1) ≤ start b (u + 1) := start_mono h (by omega) hu.le
    have hlength : start b (u + 1 + 1) = start b (u + 1) +
        (if u + 1 = b.totalUnits - 1 then lastSample b.predSize b.unitWidth else b.unitWidth : ℕ) := by
      by_cases hlast : u + 1 = b.totalUnits - 1
      · rw [if_pos hlast]
        exact (start_last h (by omega)).1
      · rw [if_neg hlast]
        exact start_above (by omega) (by omega)
    simp only [hleft, if_false, hcol]
    rw [if_pos (show (-1 : ℤ) < 0 by decide), if_neg (by omega), if_neg (by omega), address_top (by omega)]
    exact @writes_top b buf (start b (u + 1)) (start b (u + 1 + 1)) (by omega) hle 0 _ _ (by omega)
      (by omega) fun _ => buf ((s : ℤ) - lastLeft b - 1)

/-- The loop over the units: one more of them is final after each round. -/
theorem padOthers_padded (h : Valid b) {rounds u : ℕ} {buf₁ : RefBuffer} (hu : u < b.totalUnits)
    (hr : b.totalUnits ≤ u + 1 + rounds) (hp : Padded b reco neighborFlags (u + 1) buf buf₁) :
    Padded b reco neighborFlags b.totalUnits buf (b.padOthers neighborFlags rounds u (u + 1) buf₁) := by
  induction rounds generalizing u buf₁ with
  | zero =>
    have heq : b.totalUnits = u + 1 := by omega
    rwa [heq]
  | succ rounds ih =>
    unfold padOthers
    by_cases hlt : u + 1 < b.totalUnits
    · rw [if_pos hlt]
      refine ih hlt (by omega) ?_
      cases ha : neighborFlags (u + 1) with
      | true =>
        rw [if_neg (by simp)]
        exact hp.available h hlt ha
      | false =>
        rw [if_pos (show (!false) = true from rfl)]
        have hzero : 0 ≤ start b u := start_mono h (Nat.zero_le u) hu.le
        have hsucc := start_lt_succ h hu
        obtain ⟨s, hs⟩ : ∃ s : ℕ, start b (u + 1) - 1 = s := Int.eq_ofNat_of_zero_le (by omega)
        have hprev : (s : ℤ) + 1 = start b (u + 1) := by omega
        exact hp.gap h hlt hprev ha (padUnit_writes h hlt hprev buf₁)
    · rw [if_neg hlt]
      have heq : b.totalUnits = u + 1 := by omega
      rwa [heq]

/-! ## How many units are available -/

/-- The count goes with the flags, and no unit outside `V` has been looked at. -/
structure Tally (n : ℕ) (V : Set ℕ) (flags : ℕ → Bool) (count : ℕ) : Prop where
  count_eq : count = (List.range n).countP flags
  unseen : ∀ i ∉ V, flags i = false

theorem countP_update {n i : ℕ} {flags : ℕ → Bool} (hi : i < n) (hf : flags i = false) (v : Bool) :
    (List.range n).countP (Function.update flags i v) = (List.range n).countP flags + v.toNat := by
  induction n with
  | zero => omega
  | succ n ih =>
    rw [List.range_succ, List.countP_append, List.countP_append, List.countP_singleton, List.countP_singleton]
    by_cases heq : i = n
    · subst heq
      have hsame : (List.range i).countP (Function.update flags i v) = (List.range i).countP flags := by
        refine List.countP_congr fun k hk => ?_
        rw [Function.update_of_ne (List.mem_range.mp hk).ne]
      rw [hsame, Function.update_self, hf]
      cases v <;> rfl
    · rw [ih (by omega), Function.update_of_ne (Ne.symm heq)]
      omega

/-- One more unit. -/
theorem Tally.update {n i count : ℕ} {V : Set ℕ} {flags : ℕ → Bool} (ht : Tally n V flags count) (hi : i < n)
    (hV : i ∉ V) (v : Bool) : Tally n (insert i V) (Function.update flags i v) (count + v.toNat) := by
  refine ⟨by rw [countP_update hi (ht.unseen i hV), ht.count_eq], fun j hj => ?_⟩
  rw [Set.mem_insert_iff, not_or] at hj
  rw [Function.update_of_ne hj.1]
  exact ht.unseen j hj.2

/-- The loop over the units from the `k`-th on, whose flags nothing else has set. -/
theorem Tally.scan {nb : Neighborhood} {pos : ℕ → ℤ × ℤ} {idx : ℕ → ℕ} {n units k count c : ℕ} {V W : Set ℕ}
    {flags : ℕ → Bool} (ht : Tally n V flags (c + count)) (hVW : V ⊆ W)
    (hidx : ∀ j, k ≤ j → j < k + units → idx j < n ∧ idx j ∉ V ∧ idx j ∈ W)
    (hinj : ∀ i j, k ≤ i → i < j → j < k + units → idx i ≠ idx j) :
    Tally n W (nb.scanUnits pos idx units k flags count).1 (c + (nb.scanUnits pos idx units k flags count).2) := by
  induction units generalizing k flags V count with
  | zero => exact ⟨ht.count_eq, fun i hi => ht.unseen i fun hV => hi (hVW hV)⟩
  | succ units ih =>
    unfold Neighborhood.scanUnits
    by_cases hstop : (!nb.isDecomp (pos k).1 (pos k).2) = true
    · rw [if_pos hstop]
      exact ⟨ht.count_eq, fun i hi => ht.unseen i fun hV => hi (hVW hV)⟩
    · rw [if_neg hstop]
      obtain ⟨hn, hV, hW⟩ := hidx k (Nat.le_refl k) (by omega)
      have hnext := ht.update hn hV (nb.getCURestricted (pos k).1 (pos k).2)
      rw [Nat.add_assoc] at hnext
      refine ih hnext (Set.insert_subset hW hVW) (fun j hkj hj => ?_) fun i j hki hij hj => hinj i j (by omega) hij (by omega)
      obtain ⟨hn', hV', hW'⟩ := hidx j (by omega) (by omega)
      refine ⟨hn', ?_, hW'⟩
      rw [Set.mem_insert_iff, not_or]
      exact ⟨(hinj k j (Nat.le_refl k) hkj (by omega)).symm, hV'⟩

variable {nb : Neighborhood} {n p q c units : ℕ} {pos : ℕ → ℤ × ℤ} {flags : ℕ → Bool}

/-- Flags to the right of those looked at. -/
theorem Tally.up (ht : Tally n (Set.Ico p q) flags c) (hpq : p ≤ q) (hn : q + units ≤ n) :
    Tally n (Set.Ico p (q + units)) (nb.scanUnits pos (fun k => q + k) units 0 flags 0).1
      (c + (nb.scanUnits pos (fun k => q + k) units 0 flags 0).2) := by
  refine Tally.scan ht (Set.Ico_subset_Ico_right (Nat.le_add_right q units)) (fun j _ hj => ?_)
    fun i j _ hij _ => by omega
  simp only [Set.mem_Ico]
  omega

/-- Flags to the left of those looked at. -/
theorem Tally.down (ht : Tally n (Set.Ico p q) flags c) (hpq : p < q) (hq : q ≤ n) (hp : units ≤ p) :
    Tally n (Set.Ico (p - units) q) (nb.scanUnits pos (fun k => p - 1 - k) units 0 flags 0).1
      (c + (nb.scanUnits pos (fun k => p - 1 - k) units 0 flags 0).2) := by
  refine Tally.scan ht (Set.Ico_subset_Ico_left (Nat.sub_le p units)) (fun j _ hj => ?_)
    fun i j _ hij _ => by omega
  simp only [Set.mem_Ico]
  omega

/-- Every call fills flags of its own, so the sum counts the flags. -/
theorem analyzeNeighborhood_count (nb : Neighborhood) (ha : b.numAboveUnits ≤ b.totalAboveUnits)
    (hl : b.numLeftUnits < b.totalLeftUnits) :
    (b.analyzeNeighborhood nb).2 = (List.range b.totalUnits).countP (b.analyzeNeighborhood nb).1 := by
  have hcu : b.cornerUnit = b.totalLeftUnits + b.leftMrlUnitNum := rfl
  have htotal : b.totalUnits = b.totalAboveUnits + b.totalLeftUnits + 1 + b.leftMrlUnitNum + b.aboveMrlUnitNum := rfl
  have h₀ : Tally b.totalUnits ∅ (fun _ => false) 0 :=
    ⟨(List.countP_eq_zero.mpr fun _ _ => Bool.false_ne_true).symm, fun _ _ => rfl⟩
  have h₁ := h₀.update (show b.cornerUnit < b.totalUnits by omega) (Set.notMem_empty _)
    (nb.isAboveLeftAvailable (-b.multiRefIdx) (-b.multiRefIdx))
  have hcorner : insert b.cornerUnit ∅ = Set.Ico b.cornerUnit (b.cornerUnit + 1) := by
    ext i
    simp only [Set.mem_insert_iff, Set.mem_empty_iff_false, or_false, Set.mem_Ico]
    omega
  rw [hcorner, zero_add] at h₁
  have hfirst : (if Function.update (fun _ => false) b.cornerUnit
      (nb.isAboveLeftAvailable (-b.multiRefIdx) (-b.multiRefIdx)) b.cornerUnit then 1 else 0) =
      (nb.isAboveLeftAvailable (-b.multiRefIdx) (-b.multiRefIdx)).toNat := by
    rw [Function.update_self]
    cases nb.isAboveLeftAvailable (-b.multiRefIdx) (-b.multiRefIdx) <;> rfl
  unfold analyzeNeighborhood Neighborhood.isAboveAvailable Neighborhood.isLeftAvailable
    Neighborhood.isAboveRightAvailable Neighborhood.isBelowLeftAvailable
  dsimp only
  rw [hfirst, Nat.sub_right_comm b.totalLeftUnits, show b.totalLeftUnits = b.cornerUnit - b.leftMrlUnitNum by omega]
  refine (Tally.down (Tally.down (Tally.up (Tally.up (Tally.down (Tally.up h₁ ?_ ?_) ?_ ?_ ?_) ?_ ?_) ?_ ?_)
    ?_ ?_ ?_) ?_ ?_ ?_).count_eq <;> omega

/-! ## The whole function -/

theorem valid_of_sizes (b : RefBlock) (ha : b.numAboveUnits < b.totalAboveUnits)
    (hl : b.numLeftUnits < b.totalLeftUnits) : Valid b := by
  have hwidth : 0 < b.unitWidth := by
    unfold unitWidth
    split
    · exact b.width_pos
    · cases b.compID <;> cases b.chromaFormat <;> decide
  have hheight : 0 < b.unitHeight := by
    unfold unitHeight
    split
    · exact b.height_pos
    · cases b.compID <;> cases b.chromaFormat <;> decide
  have habove : 1 ≤ b.numAboveUnits := Nat.le_max_right _ 1
  have hleft : 1 ≤ b.numLeftUnits := Nat.le_max_right _ 1
  refine ⟨hwidth, hheight, by omega, by omega, ?_⟩
  unfold cornerRows cornerCols leftMrlUnitNum aboveMrlUnitNum
  by_cases hline : b.multiRefIdx = 0
  · rw [hline, Nat.zero_div, Nat.zero_div, Nat.cast_zero, zero_mul, zero_mul]
  · -- a distant line is luma without sub-partitions, and its units are squares
    have hluma : b.compID = .Y := by
      by_contra hne
      exact hline (if_neg hne)
    have hisp : b.ispMode = false := b.isp_line fun hzero => hline (by unfold multiRefIdx; rw [if_pos hluma, hzero])
    have hsame : b.unitWidth = b.unitHeight := by
      unfold unitWidth unitHeight
      rw [hisp, hluma, if_neg (by simp), if_neg (by simp)]
      rfl
    rw [hsame]

/-- The corner is in both arrays. -/
theorem target_corner :
    target b reco neighborFlags (lastLeft b) = target b reco neighborFlags (lastLeft b + 1) := by
  obtain ⟨hr, -, hc, -⟩ := one_le_corner b
  have hleft : path b (lastLeft b) = .left 0 := by
    unfold path
    rw [if_pos (Nat.le_refl _), Nat.sub_self]
  have htop : path b (lastLeft b + 1) = .top 0 := by
    unfold path
    rw [if_neg (by omega)]
    congr 1
    omega
  have hunit : (path b (lastLeft b + 1)).unit b = (path b (lastLeft b)).unit b := by
    rw [hleft, htop]
    exact (if_pos (by omega)).trans (if_pos (by omega)).symm
  cases ha : neighborFlags ((path b (lastLeft b)).unit b) with
  | true =>
    rw [target_of_avail ha, target_of_avail (by rw [hunit, ha]), hleft, htop]
    change reco _ ((0 : ℕ) - (1 + b.multiRefIdx : ℤ)) = reco ((0 : ℕ) - (1 + b.multiRefIdx : ℤ)) _
    rw [Nat.cast_zero, zero_sub]
  | false =>
    refine (substitute_gap (Nat.le_succ _) fun r hlt hle => ?_).symm
    obtain rfl : r = lastLeft b + 1 := by omega
    rw [hunit, ha]

/-- The three cases of the source: none, all, or some of the units are available. -/
theorem xFillReferenceSamples_padded {nb : Neighborhood} (hfill : b.xFillReferenceSamples reco nb buf = .ok buf') :
    Valid b ∧ (∀ t < pathLength b, buf' ((path b t).address b) = target b reco (b.analyzeNeighborhood nb).1 t) ∧
      ∀ a, Outside b a → buf' a = buf a := by
  unfold xFillReferenceSamples at hfill
  obtain ⟨_, hcheck, hfill⟩ := bind_eq_ok hfill
  have hsizes := check_eq_ok hcheck
  have h := valid_of_sizes b (by omega) (by omega)
  refine ⟨h, ?_⟩
  have hcount := analyzeNeighborhood_count (b := b) nb (by omega) (by omega)
  dsimp only at hfill
  rw [hcount] at hfill
  generalize (b.analyzeNeighborhood nb).1 = neighborFlags at hfill
  by_cases hnone : (List.range b.totalUnits).countP neighborFlags = 0
  · rw [if_pos hnone] at hfill
    cases hfill
    have hw := @writes_all b buf (fun _ => 2 ^ (b.bitDepth - 1)) (fun _ => 2 ^ (b.bitDepth - 1))
      (fun _ => 2 ^ (b.bitDepth - 1)) (fun _ _ => rfl) fun _ _ => rfl
    refine ⟨fun t ht => ?_, hw.frame⟩
    rw [hw.written t ht (Set.mem_univ _)]
    rw [List.countP_eq_zero] at hnone
    refine (substitute_none (fun r hr => ?_) ht).symm
    exact Bool.eq_false_iff.mpr (hnone _ (List.mem_range.mpr (mem_unit h hr).1))
  · rw [if_neg hnone] at hfill
    by_cases hall : (List.range b.totalUnits).countP neighborFlags = b.totalUnits
    · rw [if_pos hall] at hfill
      cases hfill
      have hw := @writes_all b buf (fun i => reco (-(1 + b.multiRefIdx)) (i - (1 + b.multiRefIdx)))
        (fun j => reco (j - (1 + b.multiRefIdx)) (-(1 + b.multiRefIdx))) (fun t => (path b t).sample b reco)
        (fun t ht => (sample_left ht).symm) fun t ht => (sample_top ht).symm
      refine ⟨fun t ht => ?_, hw.frame⟩
      rw [hw.written t ht (Set.mem_univ _)]
      have havail : neighborFlags ((path b t).unit b) = true := by
        have hlen : (List.range b.totalUnits).countP neighborFlags = (List.range b.totalUnits).length := by
          rw [hall, List.length_range]
        exact List.countP_eq_length.mp hlen _ (List.mem_range.mpr (mem_unit h ht).1)
      exact (target_of_avail havail).symm
    · rw [if_neg hall] at hfill
      cases hfill
      obtain ⟨f, hf, ha⟩ : ∃ f < b.totalUnits, neighborFlags f = true := by
        by_contra hno
        push Not at hno
        exact hnone (List.countP_eq_zero.mpr fun f hf => hno f (List.mem_range.mp hf))
      obtain ⟨hu, hp⟩ := padFirst_padded h (copyAvailable_copied h buf) hf ha
      have hend := padOthers_padded h hu (Nat.le_add_left _ _) hp
      exact ⟨fun t ht => hend.final t ht (by rw [start_total h]; omega), hend.frame⟩

/-- Each entry of the two arrays holds the sample at its position when the unit of the position is
available, and what is substituted for it otherwise; nothing else is written. -/
theorem xFillReferenceSamples_exact (b : RefBlock) (reco : ℤ → ℤ → ℤ) (nb : Neighborhood) (buf buf' : RefBuffer)
    (hfill : b.xFillReferenceSamples reco nb buf = .ok buf') :
    (∀ j ≤ b.predSize + b.multiRefIdx, buf' j = target b reco (b.analyzeNeighborhood nb).1 (lastLeft b + 1 + j)) ∧
      (∀ i ≤ b.predHSize + b.multiRefIdx,
        buf' (b.predStride + i) = target b reco (b.analyzeNeighborhood nb).1 (lastLeft b - i)) ∧
      buf' 0 = buf' b.predStride ∧
      ∀ a, a < 0 ∨ b.predStride + (b.predHSize + b.multiRefIdx + 1 : ℤ) ≤ a → buf' a = buf a := by
  obtain ⟨h, hentry, hframe⟩ := xFillReferenceSamples_padded hfill
  have htop (j : ℕ) (hj : j ≤ b.predSize + b.multiRefIdx) :
      buf' j = target b reco (b.analyzeNeighborhood nb).1 (lastLeft b + 1 + j) := by
    have haddr : (path b (lastLeft b + 1 + j)).address b = j := by
      rw [address_top (by omega)]
      push_cast
      ring
    rw [← hentry _ (by unfold pathLength predStride; omega), haddr]
  have hleft (i : ℕ) (hi : i ≤ b.predHSize + b.multiRefIdx) :
      buf' (b.predStride + i) = target b reco (b.analyzeNeighborhood nb).1 (lastLeft b - i) := by
    have hil : i ≤ lastLeft b := hi
    have haddr : (path b (lastLeft b - i)).address b = b.predStride + i := by
      rw [address_left (Nat.sub_le _ i), Nat.cast_sub hil]
      ring
    rw [← hentry _ (by unfold pathLength; omega), haddr]
  refine ⟨htop, hleft, ?_, fun a ha => hframe a ?_⟩
  · have hcorner := @target_corner b reco (b.analyzeNeighborhood nb).1
    have hzero := htop 0 (Nat.zero_le _)
    have hstride := hleft 0 (Nat.zero_le _)
    rw [Nat.cast_zero] at hzero
    rw [Nat.cast_zero, add_zero] at hstride
    rw [hzero, hstride]
    exact hcorner.symm
  · unfold Outside lastLeft
    push_cast
    exact ha

/-- A luma block whose line 5 crosses a unit on each side. -/
def crossed : RefBlock where
  compID := .Y
  chromaFormat := .chroma420
  width := 8
  height := 8
  ispMode := false
  puMultiRefIdx := 5
  predSize := 16
  predHSize := 16
  bitDepth := 10
  width_pos := by decide
  height_pos := by decide
  isp_line := fun _ => rfl

/-- With the rows above alone, the left column takes the crossed unit's lowest sample. -/
theorem xFillReferenceSamples_exact_crossed :
    ∃ buf', crossed.xFillReferenceSamples (fun x y => 512 + x + y) ⟨fun _ y => decide (y < 0), fun _ _ => true⟩
        (fun _ => 0) = .ok buf' ∧
      buf' (22 + 21) = 505 ∧ buf' 21 = 521 := by
  obtain ⟨buf', hfill, -⟩ := @exists_ok_of_any _ (crossed.xFillReferenceSamples (fun x y => 512 + x + y)
    ⟨fun _ y => decide (y < 0), fun _ _ => true⟩ (fun _ => 0)) (fun _ => true) (by decide +kernel)
  obtain ⟨htop, hleft, -⟩ := xFillReferenceSamples_exact _ _ _ _ _ hfill
  refine ⟨buf', hfill, (hleft 21 (by decide)).trans ?_, (htop 21 (by decide)).trans ?_⟩ <;> decide +kernel

end ECM.Intra.ReferenceSamples
