import ECM.CommonLib.SampleAdaptiveOffset
import Mathlib.Tactic.Positivity

/-! # Sample adaptive offset is its definition

A sample is changed where its two neighbours in the direction of the class are available and no virtual
boundary disables it. -/

namespace ECM.InLoop.SampleOffsets
open CommonLib CommonLib.SampleAdaptiveOffset CommonLib.LoopFilter Lib.Loop Function
open InLoopFilter (NUM_SAO_BO_CLASSES_LOG2)

/-! ## Signs -/

theorem sgn_neg (val : ℤ) : sgn (-val) = -sgn val := by
  unfold sgn
  rcases lt_trichotomy val 0 with h | rfl | h
  · rw [if_pos (by omega), if_neg (by omega), if_neg (by omega), if_pos h]
    rfl
  · rfl
  · rw [if_neg (by omega), if_pos (by omega), if_pos h, if_neg (by omega)]
    rfl

theorem neg_sgn_sub (u v : ℤ) : -sgn (u - v) = sgn (v - u) := by
  rw [← sgn_neg, Int.neg_sub]

/-! ## Lines of a plane -/

section
variable {skip : ℤ → ℤ → Bool} {f : Plane} {lo hi : ℤ}

/-- The samples of line `y` in columns `lo`, ..., `hi - 1` that are not skipped. -/
def line (skip : ℤ → ℤ → Bool) (lo hi y : ℤ) : Set (ℤ × ℤ) :=
  {p | p.2 = y ∧ lo ≤ p.1 ∧ p.1 < hi ∧ skip p.1 p.2 = false}

def lines (skip : ℤ → ℤ → Bool) (lo hi y₀ y₁ : ℤ) : Set (ℤ × ℤ) :=
  {p | y₀ ≤ p.2 ∧ p.2 < y₁ ∧ lo ≤ p.1 ∧ p.1 < hi ∧ skip p.1 p.2 = false}

/-- One round for each column of a line. -/
theorem line_replaced {σ : Type} {y : ℤ} {body : σ → ℤ → σ} (J : ℤ → σ → Prop) (res : σ → Plane) (s : σ)
    (h : lo ≤ hi) (hinit : J lo s) (hstep : ∀ x, lo ≤ x → x < hi → ∀ t, J x t → J (x + 1) (body t x) ∧
      res (body t x) = if skip x y then res t else update (res t) (x, y) (f (x, y))) :
    J hi (forTo lo hi body s) ∧ Replaced (line skip lo hi y) f (res s) (res (forTo lo hi body s)) := by
  have hpoints : line skip lo hi y =
      {p | ∃ x, lo ≤ x ∧ x < hi ∧ p ∈ (if skip x y then ∅ else {(x, y)} : Set (ℤ × ℤ))} := by
    ext ⟨x, y'⟩
    constructor
    · rintro ⟨rfl, hlo, hhi, hskip⟩
      refine ⟨x, hlo, hhi, ?_⟩
      rw [if_neg (by simp_all)]
      rfl
    · rintro ⟨x', hlo, hhi, hp⟩
      by_cases hskip : skip x' y = true
      · rw [if_pos hskip] at hp
        exact absurd hp (Set.notMem_empty _)
      · rw [if_neg hskip] at hp
        cases hp
        exact ⟨rfl, hlo, hhi, Bool.eq_false_iff.mpr hskip⟩
  rw [hpoints]
  refine forTo_replaced h hinit fun x hlo hhi t ht => ?_
  obtain ⟨hJ, hres⟩ := hstep x hlo hhi t ht
  refine ⟨hJ, ?_⟩
  rw [hres]
  by_cases hskip : skip x y = true
  · rw [if_pos hskip, if_pos hskip]
    exact .none f (res t)
  · rw [if_neg hskip, if_neg hskip]
    exact .update f (res t) (x, y)

/-- One round for each line. -/
theorem lines_replaced {σ : Type} {y₀ y₁ : ℤ} {body : σ → ℤ → σ} (J : ℤ → σ → Prop) (res : σ → Plane) (s : σ)
    (h : y₀ ≤ y₁) (hinit : J y₀ s) (hstep : ∀ y, y₀ ≤ y → y < y₁ → ∀ t, J y t →
      J (y + 1) (body t y) ∧ Replaced (line skip lo hi y) f (res t) (res (body t y))) :
    J y₁ (forTo y₀ y₁ body s) ∧ Replaced (lines skip lo hi y₀ y₁) f (res s) (res (forTo y₀ y₁ body s)) := by
  have hlines : lines skip lo hi y₀ y₁ = {p | ∃ y, y₀ ≤ y ∧ y < y₁ ∧ p ∈ line skip lo hi y} := by
    ext ⟨x, y⟩
    constructor
    · rintro ⟨hy, hy', hp⟩
      exact ⟨y, hy, hy', rfl, hp⟩
    · rintro ⟨y', hy, hy', rfl, hp⟩
      exact ⟨hy, hy', hp⟩
  rw [hlines]
  exact forTo_replaced h hinit hstep

/-- A line of signs that is filled. -/
theorem fill_apply {g l : ℤ → ℤ} (h : lo ≤ hi) {x : ℤ} (hlo : lo ≤ x) (hhi : x < hi) :
    forTo lo hi (fun l x => update l x (g x)) l x = g x := by
  obtain ⟨-, hfill⟩ := @forTo_replaced (ℤ → ℤ) l ℤ ℤ g lo hi (fun l x => update l x (g x))
    (fun _ _ => True) id (fun x => {x}) h trivial fun x _ _ t _ => ⟨trivial, .update g t x⟩
  exact hfill.inside ⟨x, hlo, hhi, rfl⟩

end

/-! ## Blocks -/

/-- Blocks that the offsets are applied to. -/
structure OffsetBlock extends Block where
  channelBitDepth_ge : NUM_SAO_BO_CLASSES_LOG2 ≤ channelBitDepth
  clpRng_min : clpRng.min = 0
  clpRng_max : clpRng.max = 2 ^ channelBitDepth - 1
  typeIdx_ge : SAO_TYPE_EO_0 ≤ typeIdx
  typeIdx_le : typeIdx ≤ SAO_TYPE_BO
  width_ge : 2 ≤ width
  height_ge : 2 ≤ height

section
variable (b : OffsetBlock) (clip : ℤ → ℤ) (offset : ℤ → ℤ) (src : Plane)

/-- The two neighbours in a class are at `(dx, dy)` before and behind a sample. -/
def edgeValue (dx dy : ℤ) (p : ℤ × ℤ) : ℤ :=
  clip (src p + offset (sgn (src p - src (p.1 - dx, p.2 - dy)) + sgn (src p - src (p.1 + dx, p.2 + dy)) + 2))

theorem startX_le : b.startX ≤ b.endX := by
  have hwidth := b.width_ge
  unfold Block.startX Block.endX
  split <;> split <;> omega

theorem startX_mem : 0 ≤ b.startX ∧ b.startX ≤ 1 := by
  unfold Block.startX
  split <;> omega

theorem endX_mem : b.width - 1 ≤ b.endX ∧ b.endX ≤ b.width := by
  unfold Block.endX
  split <;> omega

variable {b clip offset src}

theorem setEdge_eq {dx dy x y edgeType : ℤ} (res : Plane)
    (h : edgeType = sgn (src (x, y) - src (x - dx, y - dy)) + sgn (src (x, y) - src (x + dx, y + dy))) :
    setEdge clip offset src res x y edgeType =
      update res (x, y) (edgeValue clip offset src dx dy (x, y)) := by
  rw [setEdge, h]
  rfl

/-- A line whose samples are changed one by one. -/
theorem edgeLine_replaced {skip : ℤ → ℤ → Bool} {edgeType : ℤ → ℤ} {dx dy lo hi y : ℤ} (res : Plane) (h : lo ≤ hi)
    (hedge : ∀ x, lo ≤ x → x < hi →
      edgeType x = sgn (src (x, y) - src (x - dx, y - dy)) + sgn (src (x, y) - src (x + dx, y + dy))) :
    Replaced (line skip lo hi y) (edgeValue clip offset src dx dy) res
      (forTo lo hi (fun res x => if skip x y then res else setEdge clip offset src res x y (edgeType x)) res) := by
  refine (line_replaced (fun _ _ => True) id res h trivial fun x hlo hhi res _ => ⟨trivial, ?_⟩).2
  dsimp only [id]
  rw [setEdge_eq res (hedge x hlo hhi)]

/-! ## Class 0 -/

theorem edge0_replaced (res : Plane) :
    Replaced (lines (fun x y => b.skips x y b.verVirBndryPos []) b.startX b.endX 0 b.height)
      (edgeValue clip offset src 1 0) res (b.edge0 clip offset src res) := by
  have hheight := b.height_ge
  refine (lines_replaced (fun _ _ => True) id res (by omega) trivial fun y _ _ res _ => ⟨trivial, ?_⟩).2
  refine (line_replaced (fun x s => s.1 = sgn (src (x, y) - src (x - 1, y))) Prod.snd
    (sgn (src (b.startX, y) - src (b.startX - 1, y)), res) (startX_le b) rfl ?_).2
  rintro x - - ⟨signLeft, res⟩ hleft
  dsimp only at hleft ⊢
  have hnext : -sgn (src (x, y) - src (x + 1, y)) = sgn (src (x + 1, y) - src (x + 1 - 1, y)) := by
    rw [neg_sgn_sub, Int.add_sub_cancel]
  have hset := @setEdge_eq clip offset src 1 0 x y (sgn (src (x, y) - src (x + 1, y)) + signLeft) res (by
    rw [hleft, Int.add_comm, Int.sub_zero, Int.add_zero])
  split
  · exact ⟨hnext, rfl⟩
  · exact ⟨hnext, hset⟩

/-! ## Class 90 -/

theorem startY_le : b.startY ≤ b.endY := by
  have hheight := b.height_ge
  unfold Block.startY Block.endY
  split <;> split <;> omega

/-- The signs against the line above line `y`. -/
def UpSigns (src : Plane) (dx lo hi y : ℤ) (signUpLine : ℤ → ℤ) : Prop :=
  ∀ x, lo ≤ x → x < hi → signUpLine x = sgn (src (x, y) - src (x - dx, y - 1))

section
variable {dx lo hi x y v : ℤ} {signUpLine : ℤ → ℤ}

theorem upSigns_empty (lo y : ℤ) (signUpLine : ℤ → ℤ) : UpSigns src dx lo lo y signUpLine :=
  fun _ hlo hhi => absurd hhi (not_lt.mpr hlo)

/-- One more sign, behind the last one. -/
theorem UpSigns.push (h : UpSigns src dx lo hi y signUpLine) {hi' : ℤ} (hhi' : hi' = hi + 1)
    (hv : v = sgn (src (hi, y) - src (hi - dx, y - 1))) : UpSigns src dx lo hi' y (update signUpLine hi v) := by
  intro x hlo hhi
  rw [hhi'] at hhi
  rcases Int.lt_or_eq_of_le (Int.lt_add_one_iff.mp hhi) with hlt | rfl
  · rw [update_of_ne (by omega), h x hlo hlt]
  · rw [update_self, hv]

/-- One more sign, before the first one. -/
theorem UpSigns.pushFront (h : UpSigns src dx (lo + 1) hi y signUpLine)
    (hv : v = sgn (src (lo, y) - src (lo - dx, y - 1))) :
    UpSigns src dx lo hi y (update signUpLine lo v) := by
  intro x hlo hhi
  rcases Int.lt_or_eq_of_le hlo with hlt | rfl
  · rw [update_of_ne (by omega), h x (by omega) hhi]
  · rw [update_self, hv]

/-- The signs behind a column that is written. -/
theorem UpSigns.behind (h : UpSigns src dx lo hi y signUpLine) {lo' : ℤ} (hlo : lo ≤ lo') (hx : x < lo') :
    UpSigns src dx lo' hi y (update signUpLine x v) := by
  intro x' hlo' hhi
  rw [update_of_ne (by omega), h x' (by omega) hhi]

end

theorem edge90Line_replaced {y : ℤ} {s : (ℤ → ℤ) × Plane} (h : UpSigns src 0 0 b.width y s.1) :
    UpSigns src 0 0 b.width (y + 1) (b.edge90Line clip offset src y s).1 ∧
      Replaced (line (fun x y => b.skips x y [] b.horVirBndryPos) 0 b.width y) (edgeValue clip offset src 0 1)
        s.2 (b.edge90Line clip offset src y s).2 := by
  have hwidth := b.width_ge
  have hboth : (UpSigns src 0 0 b.width (y + 1) (b.edge90Line clip offset src y s).1 ∧
      UpSigns src 0 b.width b.width y (b.edge90Line clip offset src y s).1) ∧
      Replaced (line (fun x y => b.skips x y [] b.horVirBndryPos) 0 b.width y) (edgeValue clip offset src 0 1)
        s.2 (b.edge90Line clip offset src y s).2 := by
    refine line_replaced (fun x s => UpSigns src 0 0 x (y + 1) s.1 ∧ UpSigns src 0 x b.width y s.1) Prod.snd s
      (by omega : 0 ≤ b.width) ⟨upSigns_empty _ _ _, h⟩ ?_
    rintro x hx hx' ⟨signUpLine, res⟩ ⟨hdone, hup⟩
    dsimp only at hdone hup ⊢
    have hdone' := hdone.push (v := -sgn (src (x, y) - src (x, y + 1))) rfl (by
      rw [neg_sgn_sub, Int.sub_zero, Int.add_sub_cancel])
    have hup' := hup.behind (v := -sgn (src (x, y) - src (x, y + 1))) (by omega : x ≤ x + 1) (Int.lt_succ x)
    have hset := @setEdge_eq clip offset src 0 1 x y (sgn (src (x, y) - src (x, y + 1)) + signUpLine x) res (by
      rw [hup x (Int.le_refl x) hx', Int.add_comm, Int.add_zero])
    split
    · exact ⟨⟨hdone', hup'⟩, rfl⟩
    · exact ⟨⟨hdone', hup'⟩, hset⟩
  exact ⟨hboth.1.1, hboth.2⟩

theorem edge90_replaced (signLineBuf1 : ℤ → ℤ) (res : Plane) :
    Replaced (lines (fun x y => b.skips x y [] b.horVirBndryPos) 0 b.width b.startY b.endY)
      (edgeValue clip offset src 0 1) res (b.edge90 clip offset src signLineBuf1 res) := by
  have hwidth := b.width_ge
  have hfill : UpSigns src 0 0 b.width b.startY (forTo 0 b.width (fun signUpLine x =>
      update signUpLine x (sgn (src (x, b.startY) - src (x, b.startY - 1)))) signLineBuf1) := by
    intro x hlo hhi
    rw [fill_apply (by omega) hlo hhi, Int.sub_zero]
  exact (lines_replaced (fun y s => UpSigns src 0 0 b.width y s.1) Prod.snd (_, res) startY_le hfill
    fun y _ _ s hs => edge90Line_replaced hs).2

/-! ## The first and the last line of a block -/

theorem leftPart_le (c d : Bool) : (if c then 0 else 1 : ℤ) ≤ if d then b.endX else 1 := by
  have hwidth := b.width_ge
  have hend := (endX_mem b).1
  split <;> split <;> omega

theorem leftPart_mem {c d : Bool} {x : ℤ} (hlo : (if c then 0 else 1) ≤ x) (hhi : x < if d then b.endX else 1) :
    0 ≤ x ∧ x < b.endX := by
  have hwidth := b.width_ge
  have hend := (endX_mem b).1
  split at hlo <;> split at hhi <;> omega

theorem rightPart_le (c d : Bool) :
    (if c then b.startX else b.width - 1) ≤ if d then b.width else b.width - 1 := by
  have hwidth := b.width_ge
  have hstart := (startX_mem b).2
  split <;> split <;> omega

theorem rightPart_mem {c d : Bool} {x : ℤ} (hlo : (if c then b.startX else b.width - 1) ≤ x)
    (hhi : x < if d then b.width else b.width - 1) : b.startX ≤ x ∧ x < b.width := by
  have hwidth := b.width_ge
  have hstart := (startX_mem b).2
  split at hlo <;> split at hhi <;> omega

/-! ## Class 135 -/

theorem edge135First_replaced (firstLineHor : List ℤ) {signUpLine : ℤ → ℤ} (res : Plane)
    (h : UpSigns src 1 b.startX (b.endX + 1) 1 signUpLine) :
    Replaced (line (fun x y => b.skips x y b.verVirBndryPos firstLineHor) (if b.isAboveLeftAvail then 0 else 1)
      (if b.isAboveAvail then b.endX else 1) 0) (edgeValue clip offset src 1 1) res
      (b.edge135First clip offset src firstLineHor signUpLine res) := by
  unfold Block.edge135First
  refine edgeLine_replaced res (leftPart_le _ _) fun x hlo hhi => ?_
  obtain ⟨hlo, hhi⟩ := leftPart_mem hlo hhi
  have hstart := (startX_mem b).2
  rw [h (x + 1) (by omega) (by omega), Int.add_sub_cancel, Int.sub_eq_add_neg, neg_sgn_sub]
  rfl

theorem edge135Samples_replaced {y : ℤ} {signUpLine : ℤ → ℤ} (s : (ℤ → ℤ) × Plane)
    (h : UpSigns src 1 b.startX (b.endX + 1) y signUpLine) :
    UpSigns src 1 (b.startX + 1) (b.endX + 1) (y + 1) (b.edge135Samples clip offset src signUpLine y s).1 ∧
      Replaced (line (fun x y => b.skips x y b.verVirBndryPos b.horVirBndryPos) b.startX b.endX y)
        (edgeValue clip offset src 1 1) s.2 (b.edge135Samples clip offset src signUpLine y s).2 := by
  refine line_replaced (fun x s => UpSigns src 1 (b.startX + 1) (x + 1) (y + 1) s.1) Prod.snd
    s (startX_le b) (upSigns_empty _ _ _) ?_
  rintro x hlo hhi ⟨signDownLine, res⟩ hdown
  dsimp only at hdown ⊢
  have hdown' := hdown.push (v := -sgn (src (x, y) - src (x + 1, y + 1))) rfl (by
    rw [neg_sgn_sub, Int.add_sub_cancel, Int.add_sub_cancel])
  have hset := @setEdge_eq clip offset src 1 1 x y (sgn (src (x, y) - src (x + 1, y + 1)) + signUpLine x) res (by
    rw [h x hlo (by omega), Int.add_comm])
  split
  · exact ⟨hdown', rfl⟩
  · exact ⟨hdown', hset⟩

theorem edge135Line_replaced {y : ℤ} {s : (ℤ → ℤ) × (ℤ → ℤ) × Plane}
    (h : UpSigns src 1 b.startX (b.endX + 1) y s.1) :
    UpSigns src 1 b.startX (b.endX + 1) (y + 1) (b.edge135Line clip offset src y s).1 ∧
      Replaced (line (fun x y => b.skips x y b.verVirBndryPos b.horVirBndryPos) b.startX b.endX y)
        (edgeValue clip offset src 1 1) s.2.2 (b.edge135Line clip offset src y s).2.2 := by
  obtain ⟨signUpLine, signDownLine, res⟩ := s
  obtain ⟨hsigns, hline⟩ := @edge135Samples_replaced b clip offset src y signUpLine (signDownLine, res) h
  exact ⟨hsigns.pushFront (by rw [Int.add_sub_cancel]), hline⟩

theorem edge135Last_replaced {signUpLine : ℤ → ℤ} (res : Plane)
    (h : UpSigns src 1 b.startX (b.endX + 1) (b.height - 1) signUpLine) :
    Replaced (line (fun x y => b.skips x y b.verVirBndryPos b.horVirBndryPos)
      (if b.isBelowAvail then b.startX else b.width - 1) (if b.isBelowRightAvail then b.width else b.width - 1)
      (b.height - 1)) (edgeValue clip offset src 1 1) res (b.edge135Last clip offset src signUpLine res) := by
  unfold Block.edge135Last
  refine edgeLine_replaced res (rightPart_le _ _) fun x hlo hhi => ?_
  obtain ⟨hlo, hhi⟩ := rightPart_mem hlo hhi
  have hend := (endX_mem b).1
  rw [h x hlo (by omega), Int.add_comm]

/-! ## Class 45 -/

theorem edge45First_replaced {signUpLine : ℤ → ℤ} (res : Plane)
    (h : UpSigns src (-1) (b.startX - 1) b.endX 1 signUpLine) :
    Replaced (line (fun x y => b.skips x y b.verVirBndryPos b.horVirBndryPos)
      (if b.isAboveAvail then b.startX else b.width - 1) (if b.isAboveRightAvail then b.width else b.width - 1) 0)
      (edgeValue clip offset src (-1) 1) res (b.edge45First clip offset src signUpLine res) := by
  unfold Block.edge45First
  refine edgeLine_replaced res (rightPart_le _ _) fun x hlo hhi => ?_
  obtain ⟨hlo, hhi⟩ := rightPart_mem hlo hhi
  have hend := (endX_mem b).1
  rw [h (x - 1) (by omega) (by omega), Int.sub_eq_add_neg, neg_sgn_sub, Int.sub_neg, Int.sub_add_cancel]
  rfl

theorem edge45Samples_replaced {y : ℤ} (s : (ℤ → ℤ) × Plane) (h : UpSigns src (-1) (b.startX - 1) b.endX y s.1) :
    UpSigns src (-1) (b.startX - 1) (b.endX - 1) (y + 1) (b.edge45Samples clip offset src y s).1 ∧
      Replaced (line (fun x y => b.skips x y b.verVirBndryPos b.horVirBndryPos) b.startX b.endX y)
        (edgeValue clip offset src (-1) 1) s.2 (b.edge45Samples clip offset src y s).2 := by
  have hboth : (UpSigns src (-1) (b.startX - 1) (b.endX - 1) (y + 1) (b.edge45Samples clip offset src y s).1 ∧
      UpSigns src (-1) b.endX b.endX y (b.edge45Samples clip offset src y s).1) ∧
      Replaced (line (fun x y => b.skips x y b.verVirBndryPos b.horVirBndryPos) b.startX b.endX y)
        (edgeValue clip offset src (-1) 1) s.2 (b.edge45Samples clip offset src y s).2 := by
    refine line_replaced (fun x s => UpSigns src (-1) (b.startX - 1) (x - 1) (y + 1) s.1 ∧
      UpSigns src (-1) x b.endX y s.1) Prod.snd s (startX_le b)
      ⟨upSigns_empty _ _ _, fun x hx hx' => h x (by omega) hx'⟩ ?_
    rintro x hlo hhi ⟨signUpLine, res⟩ ⟨hdone, hup⟩
    dsimp only at hdone hup ⊢
    have hdone' := hdone.push (v := -sgn (src (x, y) - src (x - 1, y + 1))) (by omega : x + 1 - 1 = x - 1 + 1) (by
      rw [neg_sgn_sub, Int.sub_neg, Int.sub_add_cancel, Int.add_sub_cancel])
    have hup' := hup.behind (v := -sgn (src (x, y) - src (x - 1, y + 1))) (by omega : x ≤ x + 1) (by omega : x - 1 < x + 1)
    have hset := @setEdge_eq clip offset src (-1) 1 x y (sgn (src (x, y) - src (x - 1, y + 1)) + signUpLine x) res (by
      rw [hup x (Int.le_refl x) hhi, Int.add_comm]
      rfl)
    split
    · exact ⟨⟨hdone', hup'⟩, rfl⟩
    · exact ⟨⟨hdone', hup'⟩, hset⟩
  exact ⟨hboth.1.1, hboth.2⟩

theorem edge45Line_replaced {y : ℤ} {s : (ℤ → ℤ) × Plane} (h : UpSigns src (-1) (b.startX - 1) b.endX y s.1) :
    UpSigns src (-1) (b.startX - 1) b.endX (y + 1) (b.edge45Line clip offset src y s).1 ∧
      Replaced (line (fun x y => b.skips x y b.verVirBndryPos b.horVirBndryPos) b.startX b.endX y)
        (edgeValue clip offset src (-1) 1) s.2 (b.edge45Line clip offset src y s).2 := by
  obtain ⟨hsigns, hline⟩ := @edge45Samples_replaced b clip offset src y s h
  refine ⟨fun x hlo hhi => ?_, hline⟩
  change update _ (b.endX - 1) _ x = _
  rcases Int.lt_or_eq_of_le (show x ≤ b.endX - 1 by omega) with hlt | rfl
  · rw [update_of_ne (by omega)]
    exact hsigns x hlo hlt
  · rw [update_self, Int.add_sub_cancel, Int.sub_neg, Int.sub_add_cancel]

theorem edge45Last_replaced {signUpLine : ℤ → ℤ} (res : Plane)
    (h : UpSigns src (-1) (b.startX - 1) b.endX (b.height - 1) signUpLine) :
    Replaced (line (fun x y => b.skips x y b.verVirBndryPos b.horVirBndryPos) (if b.isBelowLeftAvail then 0 else 1)
      (if b.isBelowAvail then b.endX else 1) (b.height - 1)) (edgeValue clip offset src (-1) 1) res
      (b.edge45Last clip offset src signUpLine res) := by
  unfold Block.edge45Last
  refine edgeLine_replaced res (leftPart_le _ _) fun x hlo hhi => ?_
  obtain ⟨hlo, hhi⟩ := leftPart_mem hlo hhi
  have hstart := (startX_mem b).2
  rw [h x (by omega) hhi, Int.add_comm]
  rfl

/-! ## Bands -/

def bandValue (b : Block) (clip offset : ℤ → ℤ) (src : Plane) (p : ℤ × ℤ) : ℤ :=
  clip (src p + offset (src p >>> (b.channelBitDepth - NUM_SAO_BO_CLASSES_LOG2)))

theorem band_replaced (res : Plane) :
    Replaced (lines (fun _ _ => false) 0 b.width 0 b.height) (bandValue b.toBlock clip offset src) res
      (b.band clip offset src res) := by
  have hwidth := b.width_ge
  have hheight := b.height_ge
  refine (lines_replaced (fun _ _ => True) id res (by omega) trivial fun y _ _ res _ => ⟨trivial, ?_⟩).2
  exact (line_replaced (fun _ _ => True) id res (by omega) trivial fun x _ _ res _ => ⟨trivial, rfl⟩).2

end

/-! ## The definition -/

section
variable (b : Block) (clip offset : ℤ → ℤ) (src : Plane)

def inside : Set (ℤ × ℤ) := {p | 0 ≤ p.1 ∧ p.1 < b.width ∧ 0 ≤ p.2 ∧ p.2 < b.height}

/-- Whether the sample at a position in or around the block is available. -/
def available (x y : ℤ) : Bool :=
  if y < 0 then
    if x < 0 then b.isAboveLeftAvail else if x < b.width then b.isAboveAvail else b.isAboveRightAvail
  else if y < b.height then
    if x < 0 then b.isLeftAvail else if x < b.width then true else b.isRightAvail
  else
    if x < 0 then b.isBelowLeftAvail else if x < b.width then b.isBelowAvail else b.isBelowRightAvail

/-- From a sample to the second of its neighbours; the first one is on the other side. -/
def direction : ℤ × ℤ :=
  if b.typeIdx = SAO_TYPE_EO_0 then (1, 0)
  else if b.typeIdx = SAO_TYPE_EO_90 then (0, 1)
  else if b.typeIdx = SAO_TYPE_EO_135 then (1, 1)
  else (-1, 1)

def NeighboursAvailable (x y : ℤ) : Prop :=
  available b (x - (direction b).1) (y - (direction b).2) = true ∧
    available b (x + (direction b).1) (y + (direction b).2) = true

/-- Vertical boundaries disable samples for all classes but 90, horizontal ones for all but 0. -/
def disabled (x y : ℤ) : Bool :=
  b.skips x y (if b.typeIdx = SAO_TYPE_EO_90 then [] else b.verVirBndryPos)
    (if b.typeIdx = SAO_TYPE_EO_0 then [] else b.horVirBndryPos)

def changed : Set (ℤ × ℤ) :=
  {p | p ∈ inside b ∧
    (b.typeIdx ≠ SAO_TYPE_BO → NeighboursAvailable b p.1 p.2 ∧ disabled b p.1 p.2 = false)}

/-- The sum of a source sample and its offset. -/
def value : ℤ × ℤ → ℤ :=
  if b.typeIdx = SAO_TYPE_BO then bandValue b clip offset src
  else edgeValue clip offset src (direction b).1 (direction b).2

/-! ## Regions -/

/-- As `disabled`, with other horizontal boundaries on the first line of class 135. -/
def disabledWith (firstLineHor : List ℤ) (x y : ℤ) : Bool :=
  b.skips x y (if b.typeIdx = SAO_TYPE_EO_90 then [] else b.verVirBndryPos)
    (if b.typeIdx = SAO_TYPE_EO_0 then []
    else if b.typeIdx = SAO_TYPE_EO_135 ∧ y = 0 then firstLineHor else b.horVirBndryPos)

def changedWith (firstLineHor : List ℤ) : Set (ℤ × ℤ) :=
  {p | p ∈ inside b ∧
    (b.typeIdx ≠ SAO_TYPE_BO → NeighboursAvailable b p.1 p.2 ∧ disabledWith b firstLineHor p.1 p.2 = false)}

theorem changedWith_self : changedWith b b.horVirBndryPos = changed b := by
  unfold changedWith changed disabledWith disabled
  simp only [ite_self]

end

section
variable {b : OffsetBlock} {firstLineHor : List ℤ} {clip offset : ℤ → ℤ} {src : Plane}

theorem typeIdx_cases (b : OffsetBlock) : b.typeIdx = SAO_TYPE_EO_0 ∨ b.typeIdx = SAO_TYPE_EO_90 ∨
    b.typeIdx = SAO_TYPE_EO_135 ∨ b.typeIdx = SAO_TYPE_EO_45 ∨ b.typeIdx = SAO_TYPE_BO := by
  have hge : (0 : ℤ) ≤ b.typeIdx := b.typeIdx_ge
  have hle : b.typeIdx ≤ 4 := b.typeIdx_le
  change b.typeIdx = 0 ∨ b.typeIdx = 1 ∨ b.typeIdx = 2 ∨ b.typeIdx = 3 ∨ b.typeIdx = 4
  omega

theorem direction_of_eo135 (h : b.typeIdx = SAO_TYPE_EO_135) : direction b.toBlock = (1, 1) := by
  unfold direction
  rw [h]
  rfl

theorem disabledWith_of_eo135 (h : b.typeIdx = SAO_TYPE_EO_135) (x y : ℤ) :
    disabledWith b.toBlock firstLineHor x y =
      b.skips x y b.verVirBndryPos (if y = 0 then firstLineHor else b.horVirBndryPos) := by
  unfold disabledWith
  rw [h, if_neg (by decide), if_neg (by decide)]
  simp only [true_and]

theorem disabled_of_eo135 (h : b.typeIdx = SAO_TYPE_EO_135) (x y : ℤ) :
    disabled b.toBlock x y = b.skips x y b.verVirBndryPos b.horVirBndryPos := by
  unfold disabled
  rw [h, if_neg (by decide), if_neg (by decide)]

theorem edge0_region (h : b.typeIdx = SAO_TYPE_EO_0) :
    lines (fun x y => b.skips x y b.verVirBndryPos []) b.startX b.endX 0 b.height =
      changedWith b.toBlock firstLineHor := by
  have hwidth := b.width_ge
  have hdir : direction b.toBlock = (1, 0) := if_pos h
  have hbo : SAO_TYPE_EO_0 ≠ SAO_TYPE_BO := by decide
  have h90 : SAO_TYPE_EO_0 ≠ SAO_TYPE_EO_90 := by decide
  ext ⟨x, y⟩
  unfold lines changedWith inside NeighboursAvailable disabledWith available Block.startX Block.endX
  rw [Set.mem_ofPred_eq, Set.mem_ofPred_eq, Set.mem_ofPred_eq, h, hdir, if_neg h90, if_pos rfl]
  grind

theorem edge90_region (h : b.typeIdx = SAO_TYPE_EO_90) :
    lines (fun x y => b.skips x y [] b.horVirBndryPos) 0 b.width b.startY b.endY =
      changedWith b.toBlock firstLineHor := by
  have hheight := b.height_ge
  have hdir : direction b.toBlock = (0, 1) := by
    unfold direction
    rw [h]
    rfl
  have hbo : SAO_TYPE_EO_90 ≠ SAO_TYPE_BO := by decide
  have h0 : SAO_TYPE_EO_90 ≠ SAO_TYPE_EO_0 := by decide
  have h135 : SAO_TYPE_EO_90 ≠ SAO_TYPE_EO_135 := by decide
  have hdisabled (x y : ℤ) : disabledWith b.toBlock firstLineHor x y = b.skips x y [] b.horVirBndryPos := by
    unfold disabledWith
    rw [h, if_pos rfl, if_neg h0, if_neg fun hfirst => h135 hfirst.1]
  ext ⟨x, y⟩
  unfold lines changedWith inside NeighboursAvailable available Block.startY Block.endY
  rw [Set.mem_ofPred_eq, Set.mem_ofPred_eq, Set.mem_ofPred_eq, h, hdir, hdisabled]
  grind

theorem edge135_region (h : b.typeIdx = SAO_TYPE_EO_135) :
    line (fun x y => b.skips x y b.verVirBndryPos firstLineHor) (if b.isAboveLeftAvail then 0 else 1)
        (if b.isAboveAvail then b.endX else 1) 0 ∪
      lines (fun x y => b.skips x y b.verVirBndryPos b.horVirBndryPos) b.startX b.endX 1 (b.height - 1) ∪
      line (fun x y => b.skips x y b.verVirBndryPos b.horVirBndryPos)
        (if b.isBelowAvail then b.startX else b.width - 1) (if b.isBelowRightAvail then b.width else b.width - 1)
        (b.height - 1) = changedWith b.toBlock firstLineHor := by
  have hwidth := b.width_ge
  have hheight := b.height_ge
  have hdir := direction_of_eo135 h
  have hbo : SAO_TYPE_EO_135 ≠ SAO_TYPE_BO := by decide
  ext ⟨x, y⟩
  unfold line lines changedWith inside NeighboursAvailable available Block.startX Block.endX
  rw [Set.mem_union, Set.mem_union, Set.mem_ofPred_eq, Set.mem_ofPred_eq, Set.mem_ofPred_eq, Set.mem_ofPred_eq,
    Set.mem_ofPred_eq, disabledWith_of_eo135 h, h, hdir]
  rcases lt_trichotomy y 0 with hy | rfl | hy
  · grind
  · grind
  · grind

theorem edge135_replaced (h : b.typeIdx = SAO_TYPE_EO_135) (signLineBuf1 signLineBuf2 : ℤ → ℤ) (res : Plane) :
    Replaced (changedWith b.toBlock firstLineHor) (edgeValue clip offset src 1 1) res
      (b.edge135 clip offset src firstLineHor signLineBuf1 signLineBuf2 res) := by
  rw [← edge135_region h]
  have hheight := b.height_ge
  have hstart := startX_le b
  have hfill : UpSigns src 1 b.startX (b.endX + 1) 1 (forTo b.startX (b.endX + 1) (fun signUpLine x =>
      update signUpLine x (sgn (src (x, 1) - src (x - 1, 0)))) signLineBuf1) := by
    intro x hlo hhi
    rw [fill_apply (by omega) hlo hhi]
    rfl
  have hfirst := @edge135First_replaced b clip offset src firstLineHor _ res hfill
  obtain ⟨hsigns, hmiddle⟩ := lines_replaced (fun y s => UpSigns src 1 b.startX (b.endX + 1) y s.1)
    (fun s => s.2.2) (_, signLineBuf2, _) (by omega : 1 ≤ b.height - 1) hfill fun y _ _ s hs =>
      @edge135Line_replaced b clip offset src y s hs
  exact (hfirst.trans hmiddle).trans (edge135Last_replaced _ hsigns)

theorem edge45_region (h : b.typeIdx = SAO_TYPE_EO_45) :
    line (fun x y => b.skips x y b.verVirBndryPos b.horVirBndryPos)
        (if b.isAboveAvail then b.startX else b.width - 1) (if b.isAboveRightAvail then b.width else b.width - 1) 0 ∪
      lines (fun x y => b.skips x y b.verVirBndryPos b.horVirBndryPos) b.startX b.endX 1 (b.height - 1) ∪
      line (fun x y => b.skips x y b.verVirBndryPos b.horVirBndryPos) (if b.isBelowLeftAvail then 0 else 1)
        (if b.isBelowAvail then b.endX else 1) (b.height - 1) = changedWith b.toBlock firstLineHor := by
  have hwidth := b.width_ge
  have hheight := b.height_ge
  have hdir : direction b.toBlock = (-1, 1) := by
    unfold direction
    rw [h]
    rfl
  have hbo : SAO_TYPE_EO_45 ≠ SAO_TYPE_BO := by decide
  have h0 : SAO_TYPE_EO_45 ≠ SAO_TYPE_EO_0 := by decide
  have h90 : SAO_TYPE_EO_45 ≠ SAO_TYPE_EO_90 := by decide
  have h135 : SAO_TYPE_EO_45 ≠ SAO_TYPE_EO_135 := by decide
  have hdisabled (x y : ℤ) : disabledWith b.toBlock firstLineHor x y =
      b.skips x y b.verVirBndryPos b.horVirBndryPos := by
    unfold disabledWith
    rw [h, if_neg h90, if_neg h0, if_neg fun hfirst => h135 hfirst.1]
  ext ⟨x, y⟩
  unfold line lines changedWith inside NeighboursAvailable available Block.startX Block.endX
  rw [Set.mem_union, Set.mem_union, Set.mem_ofPred_eq, Set.mem_ofPred_eq, Set.mem_ofPred_eq, Set.mem_ofPred_eq,
    Set.mem_ofPred_eq, h, hdir, hdisabled]
  rcases lt_trichotomy y 0 with hy | rfl | hy
  · grind
  · grind
  · grind

theorem edge45_replaced (h : b.typeIdx = SAO_TYPE_EO_45) (signLineBuf1 : ℤ → ℤ) (res : Plane) :
    Replaced (changedWith b.toBlock firstLineHor) (edgeValue clip offset src (-1) 1) res
      (b.edge45 clip offset src signLineBuf1 res) := by
  rw [← @edge45_region b firstLineHor h]
  have hheight := b.height_ge
  have hstart := startX_le b
  have hfill : UpSigns src (-1) (b.startX - 1) b.endX 1 (forTo (b.startX - 1) b.endX (fun signUpLine x =>
      update signUpLine x (sgn (src (x, 1) - src (x + 1, 0)))) fun x => signLineBuf1 (x + 1)) := by
    intro x hlo hhi
    rw [fill_apply (by omega) hlo hhi]
    rfl
  have hfirst := @edge45First_replaced b clip offset src _ res hfill
  obtain ⟨hsigns, hmiddle⟩ := lines_replaced (fun y s => UpSigns src (-1) (b.startX - 1) b.endX y s.1)
    Prod.snd (_, _) (by omega : 1 ≤ b.height - 1) hfill fun y _ _ s hs =>
      @edge45Line_replaced b clip offset src y s hs
  exact (hfirst.trans hmiddle).trans (edge45Last_replaced _ hsigns)

theorem band_region (h : b.typeIdx = SAO_TYPE_BO) :
    lines (fun _ _ => false) 0 b.width 0 b.height = changedWith b.toBlock firstLineHor := by
  ext ⟨x, y⟩
  unfold lines changedWith inside
  rw [Set.mem_ofPred_eq, Set.mem_ofPred_eq, Set.mem_ofPred_eq, h]
  grind

/-- What both functions leave. -/
theorem offsetBlockWith_replaced (b : OffsetBlock) (clip offset : ℤ → ℤ) (src : Plane) (firstLineHor : List ℤ)
    (signLineBuf1 signLineBuf2 : ℤ → ℤ) (res : Plane) :
    ∃ r, b.offsetBlockWith clip offset src firstLineHor signLineBuf1 signLineBuf2 res = .ok r ∧
      Replaced (changedWith b.toBlock firstLineHor) (value b.toBlock clip offset src) res r := by
  unfold Block.offsetBlockWith value direction
  rcases typeIdx_cases b with h | h | h | h | h
  · rw [← edge0_region h, h]
    exact ⟨_, rfl, edge0_replaced res⟩
  · rw [← edge90_region h, h]
    exact ⟨_, rfl, edge90_replaced signLineBuf1 res⟩
  · have hreplaced := @edge135_replaced b firstLineHor clip offset src h signLineBuf1 signLineBuf2 res
    rw [h]
    exact ⟨_, rfl, hreplaced⟩
  · have hreplaced := @edge45_replaced b firstLineHor clip offset src h signLineBuf1 res
    rw [h]
    exact ⟨_, rfl, hreplaced⟩
  · rw [← band_region h, h]
    exact ⟨_, rfl, band_replaced res⟩

end

/-! ## Agreement -/

section
variable (b : OffsetBlock)

/-- Samples of the bit depth. -/
def InRange (plane : Plane) : Prop := ∀ p ∈ inside b.toBlock, 0 ≤ plane p ∧ plane p ≤ 2 ^ b.channelBitDepth - 1

/-- `offsetBlock` changes the samples of the definition to the clipped sums, and so does
`offsetBlockNoClip` where every sample is clipped behind it. -/
def Agrees (offset : ℤ → ℤ) (src : Plane) (signLineBuf1 signLineBuf2 : ℤ → ℤ) (res : Plane) : Prop :=
  ∃ r r', b.offsetBlock offset src signLineBuf1 signLineBuf2 res = .ok r ∧
    Replaced (changed b.toBlock) (value b.toBlock (fun v => ClipPel v b.clpRng) offset src) res r ∧
    b.offsetBlockNoClip offset src signLineBuf1 signLineBuf2 res = .ok r' ∧
    ∀ p ∈ inside b.toBlock, ClipPel (r' p) b.clpRng = r p

/-- The sample in column `x` of the first line is disabled by a horizontal boundary alone. -/
structure DisabledFirst (x : ℤ) : Prop where
  x_nonneg : 0 ≤ x
  x_lt : x < b.width
  avail : NeighboursAvailable b.toBlock x 0
  crossed : b.isCtuCrossedByVirtualBoundaries = true
  ver : isProcessDisabled x 0 b.verVirBndryPos [] = false
  hor : isProcessDisabled x 0 [] b.horVirBndryPos = true

variable {b}

theorem clipPel_of_mem {v : ℤ} (h : 0 ≤ v ∧ v ≤ 2 ^ b.channelBitDepth - 1) : ClipPel v b.clpRng = v := by
  rw [ClipPel, b.clpRng_min, b.clpRng_max, max_eq_right h.1, min_eq_left h.2]

theorem value_clip (clip offset : ℤ → ℤ) (src : Plane) (p : ℤ × ℤ) :
    value b.toBlock clip offset src p = clip (value b.toBlock (fun v => v) offset src p) := by
  unfold value bandValue edgeValue
  split <;> rfl

theorem isProcessDisabled_split (x y : ℤ) (ver hor : List ℤ) :
    isProcessDisabled x y ver hor = (isProcessDisabled x y ver [] || isProcessDisabled x y [] hor) := by
  simp [isProcessDisabled]

/-- Only on the first line of class 135 do the boundaries differ. -/
theorem changedWith_nil (h : ¬(b.typeIdx = SAO_TYPE_EO_135 ∧ ∃ x, DisabledFirst b x)) :
    changedWith b.toBlock [] = changed b.toBlock := by
  ext ⟨x, y⟩
  refine and_congr_right fun hinside => imp_congr_right fun _ => and_congr_right fun havail => ?_
  dsimp only
  by_cases hfirst : b.typeIdx = SAO_TYPE_EO_135 ∧ y = 0
  · obtain ⟨h135, rfl⟩ := hfirst
    have hnone : ¬(b.isCtuCrossedByVirtualBoundaries = true ∧ isProcessDisabled x 0 b.verVirBndryPos [] = false ∧
        isProcessDisabled x 0 [] b.horVirBndryPos = true) := fun hx =>
      h ⟨h135, x, hinside.1, hinside.2.1, havail, hx.1, hx.2.1, hx.2.2⟩
    rw [disabledWith_of_eo135 h135, disabled_of_eo135 h135, if_pos rfl]
    unfold Block.skips
    rw [isProcessDisabled_split x 0 b.verVirBndryPos b.horVirBndryPos]
    revert hnone
    cases b.isCtuCrossedByVirtualBoundaries <;> cases isProcessDisabled x 0 b.verVirBndryPos [] <;>
      cases isProcessDisabled x 0 [] b.horVirBndryPos <;> simp
  · unfold disabledWith disabled
    rw [if_neg hfirst]

theorem agrees_of_changedWith (h : changedWith b.toBlock [] = changed b.toBlock) (offset : ℤ → ℤ) (src : Plane)
    (signLineBuf1 signLineBuf2 : ℤ → ℤ) {res : Plane} (hres : InRange b res) :
    Agrees b offset src signLineBuf1 signLineBuf2 res := by
  obtain ⟨r, hr, hclipped⟩ := offsetBlockWith_replaced b (fun v => ClipPel v b.clpRng) offset src b.horVirBndryPos
    signLineBuf1 signLineBuf2 res
  obtain ⟨r', hr', hplain⟩ := offsetBlockWith_replaced b (fun v => v) offset src [] signLineBuf1 signLineBuf2 res
  rw [changedWith_self] at hclipped
  rw [h] at hplain
  refine ⟨r, r', hr, hclipped, hr', fun p hp => ?_⟩
  by_cases hchanged : p ∈ changed b.toBlock
  · rw [hplain.inside hchanged, hclipped.inside hchanged, value_clip (fun v => ClipPel v b.clpRng)]
  · rw [hplain.outside hchanged, hclipped.outside hchanged, clipPel_of_mem (hres p hp)]

/-! ## A valley that is raised -/

def valleyAt (x : ℤ) : Plane := fun p => if p = (x, 0) then 0 else 1

def raiseValleys : ℤ → ℤ := fun c => if c = 0 then 1 else 0

theorem valley_value (h : b.typeIdx = SAO_TYPE_EO_135) (x : ℤ) :
    value b.toBlock (fun v => v) raiseValleys (valleyAt x) (x, 0) = 1 := by
  have hdir := direction_of_eo135 h
  have hself : valleyAt x (x, 0) = 0 := if_pos rfl
  have hbefore : valleyAt x (x - 1, 0 - 1) = 1 := if_neg (by simp)
  have hbehind : valleyAt x (x + 1, 0 + 1) = 1 := if_neg (by simp)
  have hbo : SAO_TYPE_EO_135 ≠ SAO_TYPE_BO := by decide
  unfold value edgeValue
  rw [h, if_neg hbo, hdir]
  dsimp only
  rw [hself, hbefore, hbehind]
  rfl

theorem not_agrees (h : b.typeIdx = SAO_TYPE_EO_135) {x : ℤ} (hx : DisabledFirst b x) :
    ¬Agrees b raiseValleys (valleyAt x) (fun _ => 0) (fun _ => 0) fun _ => 0 := by
  obtain ⟨hx0, hxw, havail, hcrossed, hver, hhor⟩ := hx
  rintro ⟨r, r', -, hr, hr', hagree⟩
  have hbo : SAO_TYPE_EO_135 ≠ SAO_TYPE_BO := by decide
  have hheight := b.height_ge
  have hinside : ((x, 0) : ℤ × ℤ) ∈ inside b.toBlock := ⟨hx0, hxw, Int.le_refl 0, by dsimp only; omega⟩
  have hkept : ((x, 0) : ℤ × ℤ) ∉ changed b.toBlock := by
    rintro ⟨-, hdisabled⟩
    have hfalse := (hdisabled (h ▸ hbo)).2
    rw [disabled_of_eo135 h, Block.skips, isProcessDisabled_split, hcrossed, hver, hhor] at hfalse
    cases hfalse
  have hset : ((x, 0) : ℤ × ℤ) ∈ changedWith b.toBlock [] := by
    refine ⟨hinside, fun _ => ⟨havail, ?_⟩⟩
    rw [disabledWith_of_eo135 h, if_pos rfl, Block.skips, hver, Bool.and_false]
  obtain ⟨q, hq, hplain⟩ := offsetBlockWith_replaced b (fun v => v) raiseValleys (valleyAt x) [] (fun _ => 0)
    (fun _ => 0) fun _ => 0
  obtain rfl : q = r' := Except.ok.inj (hq.symm.trans hr')
  have hbound : (1 : ℤ) ≤ 2 ^ b.channelBitDepth - 1 := by
    have hpow : (2 : ℤ) ^ 1 ≤ 2 ^ b.channelBitDepth :=
      pow_le_pow_right₀ (by decide) (le_trans (by decide) b.channelBitDepth_ge)
    omega
  have hone := hagree (x, 0) hinside
  rw [hplain.inside hset, valley_value h x, hr.outside hkept, clipPel_of_mem ⟨by decide, hbound⟩] at hone
  cases hone

end

/-- `offsetBlock` is the definition and agrees with `offsetBlockNoClip` for all offsets and samples, unless
a horizontal boundary disables samples of the first line in class 135. -/
theorem offsetBlock_agrees_iff (b : OffsetBlock) :
    (∀ offset src signLineBuf1 signLineBuf2 res, InRange b res →
      Agrees b offset src signLineBuf1 signLineBuf2 res) ↔
      ¬(b.typeIdx = SAO_TYPE_EO_135 ∧ ∃ x, DisabledFirst b x) := by
  constructor
  · rintro hall ⟨h135, x, hx⟩
    have hpow : (0 : ℤ) < 2 ^ b.channelBitDepth := by positivity
    exact not_agrees h135 hx (hall _ _ _ _ _ fun p _ => ⟨Int.le_refl 0, by omega⟩)
  · exact fun h offset src signLineBuf1 signLineBuf2 res hres =>
      agrees_of_changedWith (changedWith_nil h) offset src signLineBuf1 signLineBuf2 hres

/-- A block behind a horizontal boundary, with every neighbour available. -/
def behindBoundary : OffsetBlock where
  channelBitDepth := 10
  clpRng := ⟨0, 1023⟩
  typeIdx := SAO_TYPE_EO_135
  width := 8
  height := 8
  isLeftAvail := true
  isRightAvail := true
  isAboveAvail := true
  isBelowAvail := true
  isAboveLeftAvail := true
  isAboveRightAvail := true
  isBelowLeftAvail := true
  isBelowRightAvail := true
  isCtuCrossedByVirtualBoundaries := true
  horVirBndryPos := [0]
  verVirBndryPos := []
  channelBitDepth_ge := by decide
  clpRng_min := rfl
  clpRng_max := rfl
  typeIdx_ge := by decide
  typeIdx_le := by decide
  width_ge := by decide
  height_ge := by decide

/-- A valley of the first line stays in `offsetBlock` and is raised in `offsetBlockNoClip`. -/
theorem behindBoundary_disagrees : InRange behindBoundary (fun _ => 0) ∧
    ¬Agrees behindBoundary raiseValleys (valleyAt 3) (fun _ => 0) (fun _ => 0) fun _ => 0 :=
  ⟨fun _ _ => ⟨Int.le_refl 0, (by decide : (0 : ℤ) ≤ 2 ^ 10 - 1)⟩, not_agrees rfl ⟨by decide, by decide, ⟨rfl, rfl⟩, rfl, rfl, rfl⟩⟩

end ECM.InLoop.SampleOffsets
