import ECM.Partition.Tiling

/-! # Splitting at the picture boundary

An area that begins in the picture and does not end there is split until what
is left of it lies in the picture. The sides are powers of two at positions
they divide, so an area that crosses the boundary of a picture of a multiple of
eight samples is at least sixteen samples long across it. -/

namespace ECM.Partition
open CommonLib Lib.Tiling PartSplit Partitioner PartitionerImpl Set

/-- The area begins in the picture and is not wholly in it. -/
def Crossing (cs : CodingStructure) (a : CompArea) : Prop :=
  cs.picture.contains a.pos = true ∧ ¬InPic cs a

instance (cs : CodingStructure) (a : CompArea) : Decidable (InPic cs a) :=
  inferInstanceAs (Decidable (_ ∧ _ ∧ _ ∧ _))

instance (cs : CodingStructure) (a : CompArea) : Decidable (Crossing cs a) :=
  inferInstanceAs (Decidable (_ ∧ ¬_))

/-- In the coding tree exactly the areas that cross the boundary are split, each by
any coding split that `canSplit` admits. -/
def BoundaryDecision (cs : CodingStructure) (decision : Partitioner → Option PartSplit) : Prop :=
  ∀ p, PartitionerOk cs p → p.back.split.isTu = false → p.back.idx < p.back.parts.length →
    (Crossing cs p.currArea.Y → ∃ split, decision p = some split ∧ split.isCu = true ∧
      ∃ q, p.canSplit cs split = .ok (true, q)) ∧
    (¬Crossing cs p.currArea.Y → decision p = none)

/-- Powers of two at a position they divide, in the quadrant of the picture. -/
def Aligned (a : CompArea) : Prop :=
  0 ≤ a.x ∧ 0 ≤ a.y ∧ (∃ k, a.width = 2 ^ k ∧ (a.width : ℤ) ∣ a.x) ∧
    ∃ k, a.height = 2 ^ k ∧ (a.height : ℤ) ∣ a.y

variable {cs : CodingStructure} {p q : Partitioner} {split : PartSplit} {a : CompArea}

/-- A side that ends beyond a limit of a multiple of eight is at least sixteen. -/
theorem sixteen_le {x : ℤ} {side k limit : ℕ} (hk : side = 2 ^ k) (hx : (side : ℤ) ∣ x) (h8 : 8 ∣ limit)
    (hin : x < limit) (hout : ¬x + side ≤ limit) : 16 ≤ side := by
  by_contra hlt
  have hk3 : k ≤ 3 := by
    by_contra h
    have hpow : 2 ^ 4 ≤ 2 ^ k := Nat.pow_le_pow_right (by decide) (by omega)
    omega
  have hdvd : (side : ℤ) ∣ limit := by
    have h : side ∣ 8 := hk ▸ Nat.pow_dvd_pow 2 hk3
    exact Int.natCast_dvd_natCast.mpr (h.trans h8)
  obtain ⟨m, rfl⟩ := hx
  obtain ⟨n, hn⟩ := hdvd
  have hpos : (0 : ℤ) < side := by
    rw [hk]
    exact_mod_cast Nat.two_pow_pos k
  rw [hn] at hin hout
  have hmn : m < n := lt_of_mul_lt_mul_left hin hpos.le
  have hle : (side : ℤ) * (m + 1) ≤ side * n := mul_le_mul_of_nonneg_left hmn hpos.le
  rw [mul_add, mul_one] at hle
  exact hout hle

/-- The halves of an aligned side. -/
theorem aligned_half {x : ℤ} {side k : ℕ} (hk : side = 2 ^ k) (hx : (side : ℤ) ∣ x) (h2 : 2 ≤ side) :
    (∃ k, side / 2 = 2 ^ k ∧ ((side / 2 : ℕ) : ℤ) ∣ x) ∧
      ∃ k, side / 2 = 2 ^ k ∧ ((side / 2 : ℕ) : ℤ) ∣ x + (side / 2 : ℕ) := by
  cases k with
  | zero =>
    rw [hk] at h2
    exact absurd h2 (by decide)
  | succ k =>
    have hhalf : side / 2 = 2 ^ k := by
      rw [hk, pow_succ]
      omega
    have hside : (side : ℤ) = (side / 2 : ℕ) * 2 := by omega
    have hdvd : ((side / 2 : ℕ) : ℤ) ∣ x := (Dvd.intro 2 hside.symm).trans hx
    exact ⟨⟨k, hhalf, hdvd⟩, k, hhalf, Int.dvd_add hdvd (dvd_refl _)⟩

/-- What crosses is long enough to be halved. -/
theorem Crossing.long (h : Crossing cs a) (ha : Aligned a) (hw : 8 ∣ cs.picWidth) (hh : 8 ∣ cs.picHeight) :
    a.x < cs.picWidth ∧ a.y < cs.picHeight ∧
      (¬a.x + a.width ≤ cs.picWidth ∧ 16 ≤ a.width ∨ ¬a.y + a.height ≤ cs.picHeight ∧ 16 ≤ a.height) := by
  obtain ⟨hpos, hn⟩ := h
  obtain ⟨hx, hy, ⟨k, hk, hdx⟩, m, hm, hdy⟩ := ha
  rw [CompArea.contains_iff] at hpos
  simp only [CodingStructure.picture, CompArea.pos, zero_add] at hpos
  obtain ⟨-, hxw, -, hyh⟩ := hpos
  refine ⟨hxw, hyh, ?_⟩
  by_cases hxo : a.x + a.width ≤ cs.picWidth
  · have hyo : ¬a.y + a.height ≤ cs.picHeight := fun hyo => hn ⟨hx, hy, hxo, hyo⟩
    exact Or.inr ⟨hyo, sixteen_le hm hdy hh hyh hyo⟩
  · exact Or.inl ⟨hxo, sixteen_le hk hdx hw hxw hxo⟩

/-! ## The splits that are admitted -/

/-- Only a quad split, or the binary split that is forced, and it cuts the side that
leaves the picture. -/
theorem crossing_split (hp : PartitionerOk cs p) (hpart : p.back.idx < p.back.parts.length)
    (hcu : p.back.split.isTu = false) (hc : Crossing cs p.currArea.Y)
    (hs : split.isCu = true) (hadm : p.admits cs split = true) :
    split = .cuQuadSplit ∧ p.currArea.Y.width = p.currArea.Y.height ∨
      split = .cuHorzSplit ∧ ¬p.currArea.Y.y + p.currArea.Y.height ≤ cs.picHeight ∨
      split = .cuVertSplit ∧ ¬p.currArea.Y.x + p.currArea.Y.width ≤ cs.picWidth := by
  have hpart' := currPart hp hpart hcu
  obtain ⟨hpos, hn⟩ := hc
  rw [CompArea.contains_iff] at hpos
  simp only [CodingStructure.picture, CompArea.pos, zero_add] at hpos
  by_cases hm : split.isMtt = true
  · right
    have hi : p.implicit cs = split :=
      (mtt_of_admits hm hadm).resolve_left fun hd => hn (inPic_of_implicitFor hpart'.sides hd)
    rcases @implicitFor_cases cs p.chType p.counters _ hpart'.sides with
      ⟨hin, _⟩ | ⟨_, hq, _⟩ | ⟨hbl, hh, _⟩ | ⟨htr, hv, _⟩
    · exact absurd hin hn
    · rw [← hi, show p.implicit cs = .cuQuadSplit from hq] at hm
      cases hm
    · refine Or.inl ⟨hi.symm.trans hh, fun hle => ?_⟩
      have hsides := hpart'.sides
      rw [← Bool.not_eq_true, CompArea.contains_iff] at hbl
      simp only [CodingStructure.picture, CompArea.bottomLeft, zero_add] at hbl
      obtain ⟨_, _, h4, _⟩ := hsides
      exact hbl (by omega)
    · refine Or.inr ⟨hi.symm.trans hv, fun hle => ?_⟩
      have hsides := hpart'.sides
      rw [← Bool.not_eq_true, CompArea.contains_iff] at htr
      simp only [CodingStructure.picture, CompArea.topRight, zero_add] at htr
      obtain ⟨h4, _, _, _⟩ := hsides
      exact htr (by omega)
  · have hq := eq_quad_of_isCu hs (Bool.not_eq_true _ ▸ hm)
    subst hq
    exact Or.inl ⟨rfl, hpart'.square (qt_of_admits hp hpart hcu hadm)⟩

/-- Where one part begins of the two that a side is halved into. -/
theorem Aligned.cuBlock (ha : Aligned a) (hs : split = .cuQuadSplit ∨ split = .cuHorzSplit ∨ split = .cuVertSplit)
    (hw : split ≠ .cuHorzSplit → 2 ≤ a.width) (hh : split ≠ .cuVertSplit → 2 ≤ a.height) (i : ℕ) :
    Aligned (cuBlock split i a) := by
  obtain ⟨hx, hy, ⟨k, hk, hdx⟩, m, hm, hdy⟩ := ha
  rcases hs with rfl | rfl | rfl
  · obtain ⟨hx0, hx1⟩ := aligned_half hk hdx (hw (by decide))
    obtain ⟨hy0, hy1⟩ := aligned_half hm hdy (hh (by decide))
    simp only [Aligned, cuBlock, quadBlock, half_eq]
    refine ⟨?_, ?_, ?_, ?_⟩
    · split <;> omega
    · split <;> omega
    · split
      · exact hx1
      · exact hx0
    · split
      · exact hy1
      · exact hy0
  · obtain ⟨hy0, hy1⟩ := aligned_half hm hdy (hh (by decide))
    simp only [Aligned, cuBlock, horzBlock, half_eq]
    refine ⟨hx, ?_, ⟨k, hk, hdx⟩, ?_⟩
    · split <;> omega
    · split
      · exact hy1
      · exact hy0
  · obtain ⟨hx0, hx1⟩ := aligned_half hk hdx (hw (by decide))
    simp only [Aligned, cuBlock, vertBlock, half_eq]
    refine ⟨?_, hy, ?_, m, hm, hdy⟩
    · split <;> omega
    · split
      · exact hx1
      · exact hx0

/-- Both sides together; every split makes them less. -/
def sideSum (a : UnitArea) : ℕ := a.Y.width + a.Y.height

/-- No part of a split at the boundary is too small. -/
theorem crossing_parts (hw : 8 ∣ cs.picWidth) (hh : 8 ∣ cs.picHeight) (hp : PartitionerOk cs p)
    (hpart : p.back.idx < p.back.parts.length) (hcu : p.back.split.isTu = false)
    (hc : Crossing cs p.currArea.Y) (ha : Aligned p.currArea.Y) (hs : split.isCu = true)
    (hadm : p.admits cs split = true) :
    ∃ parts, p.splitParts cs split = .ok parts ∧ parts ≠ [] ∧
      ∀ a ∈ parts, Aligned a.Y ∧ sideSum a < sideSum p.currArea := by
  obtain ⟨hxw, hyh, hlong⟩ := hc.long ha hw hh
  have hx (hout : ¬p.currArea.Y.x + p.currArea.Y.width ≤ cs.picWidth) : 16 ≤ p.currArea.Y.width := by
    obtain ⟨_, _, ⟨k, hk, hdx⟩, _⟩ := ha
    exact sixteen_le hk hdx hw hxw hout
  have hy (hout : ¬p.currArea.Y.y + p.currArea.Y.height ≤ cs.picHeight) : 16 ≤ p.currArea.Y.height := by
    obtain ⟨_, _, _, m, hm, hdy⟩ := ha
    exact sixteen_le hm hdy hh hyh hout
  have hsplit := crossing_split hp hpart hcu hc hs hadm
  have hsides : (split = .cuQuadSplit ∨ split = .cuHorzSplit ∨ split = .cuVertSplit) ∧
      (split ≠ .cuHorzSplit → 16 ≤ p.currArea.Y.width) ∧ (split ≠ .cuVertSplit → 16 ≤ p.currArea.Y.height) := by
    rcases hsplit with ⟨hq, hsq⟩ | ⟨rfl, hout⟩ | ⟨rfl, hout⟩
    · refine ⟨Or.inl hq, fun _ => ?_, fun _ => ?_⟩
      · omega
      · omega
    · exact ⟨Or.inr (Or.inl rfl), fun h => absurd rfl h, fun _ => hy hout⟩
    · exact ⟨Or.inr (Or.inr rfl), fun _ => hx hout, fun h => absurd rfl h⟩
  obtain ⟨hkind, hwide, hhigh⟩ := hsides
  have hblock (i : ℕ) : 4 ≤ cuSide split (cuBlock split i p.currArea.Y) ∧
      (cuBlock split i p.currArea.Y).width + (cuBlock split i p.currArea.Y).height <
        p.currArea.Y.width + p.currArea.Y.height := by
    rcases hkind with rfl | rfl | rfl
    · have hwide' := hwide (by decide)
      have hhigh' := hhigh (by decide)
      simp only [cuSide, cuBlock, quadBlock, half_eq, reduceCtorEq, or_self, if_false]
      omega
    · have hhigh' := hhigh (by decide)
      simp only [cuSide, cuBlock, horzBlock, half_eq, reduceCtorEq, or_self, if_false]
      omega
    · have hwide' := hwide (by decide)
      simp only [cuSide, cuBlock, vertBlock, half_eq, reduceCtorEq, or_false, if_true]
      omega
  refine ⟨_, (splitParts_cu hs).mpr ⟨rfl, fun i _ => (hblock i).1⟩, ?_, fun a hmem => ?_⟩
  · rcases hkind with rfl | rfl | rfl
    · exact List.cons_ne_nil _ _
    · exact List.cons_ne_nil _ _
    · exact List.cons_ne_nil _ _
  · obtain ⟨i, _, rfl⟩ := List.mem_map.mp hmem
    exact ⟨ha.cuBlock hkind (fun h => le_trans (by decide) (hwide h)) (fun h => le_trans (by decide) (hhigh h)) i,
      (hblock i).2⟩

/-! ## The walk -/

/-- The levels of the walk are levels of the coding tree. -/
def BoundaryLevel (split : PartSplit) (parts : List UnitArea) : Prop :=
  split.isTu = false ∧ SidesFit split parts ∧ ∀ a ∈ parts, Aligned a.Y

/-- The leaves tile the area, and those that begin in the picture are in it. -/
def BoundaryLeaves (cs : CodingStructure) (a : UnitArea) (areas : List UnitArea) : Prop :=
  UnitTiles a areas ∧ ∀ b ∈ areas, cs.picture.contains b.Y.pos = true → InPic cs b.Y

variable {decision : Partitioner → Option PartSplit}

theorem BoundaryDecision.some_iff (hd : BoundaryDecision cs decision) (hp : PartitionerOk cs p)
    (hpart : p.back.idx < p.back.parts.length) (hcu : p.back.split.isTu = false)
    (h : decision p = some split) :
    Crossing cs p.currArea.Y ∧ split.isCu = true ∧ p.admits cs split = true := by
  obtain ⟨hcross, hnone⟩ := hd p hp hcu hpart
  by_cases hc : Crossing cs p.currArea.Y
  · obtain ⟨split', hsome, hs, q, hq⟩ := hcross hc
    rw [h] at hsome
    cases hsome
    rw [canSplit_eq hp (Or.inl hs)] at hq
    exact ⟨hc, hs, congrArg Prod.fst (Except.ok.inj hq)⟩
  · rw [hnone hc] at h
    cases h

theorem isCu_not_isTu (hs : split.isCu = true) : split.isTu = false := by
  cases split <;> first | rfl | exact absurd hs Bool.false_ne_true

theorem boundary_rule (hw : 8 ∣ cs.picWidth) (hh : 8 ∣ cs.picHeight) (hd : BoundaryDecision cs decision) :
    TreeRule cs decision BoundaryLevel (BoundaryLeaves cs) where
  split p split hp hpart hL h := by
    obtain ⟨_, hs, _⟩ := hd.some_iff hp hpart hL.1 h
    exact ⟨Or.inl hs, fun _ => hL.1⟩
  level p split parts hp hpart hL h hadm hparts := by
    obtain ⟨hcu, hfit, ha⟩ := hL
    obtain ⟨hc, hs, _⟩ := hd.some_iff hp hpart hcu h
    obtain ⟨parts', hparts', _, hmem⟩ :=
      crossing_parts hw hh hp hpart hcu hc (ha _ (currArea_mem hpart)) hs hadm
    obtain rfl : parts' = parts := Except.ok.inj (hparts'.symm.trans hparts)
    exact ⟨isCu_not_isTu hs, (cuParts_tile hp hpart hfit hs hcu hadm hparts).2.2, fun a h => (hmem a h).1⟩
  leaf p hp hpart hL h := by
    refine ⟨fun _ _ => Tiles.single _, fun b hb hpos => ?_⟩
    obtain rfl := List.mem_singleton.mp hb
    by_contra hn
    obtain ⟨split, hsome, _⟩ := (hd p hp hL.1 hpart).1 ⟨hpos, hn⟩
    rw [h] at hsome
    cases hsome
  node p split parts g hp hpart hL h hadm hparts hg := by
    obtain ⟨hcu, hfit, _⟩ := hL
    obtain ⟨_, hs, _⟩ := hd.some_iff hp hpart hcu h
    obtain ⟨htile, hlen, _⟩ := cuParts_tile hp hpart hfit hs hcu hadm hparts
    refine ⟨htile.flatMap hlen fun j hj => (hg j hj).1, fun b hb hpos => ?_⟩
    obtain ⟨j, hj, hb⟩ := List.mem_flatMap.mp hb
    exact (hg j (List.mem_range.mp hj)).2 b hb hpos

/-- The first area of a CTU is aligned. -/
theorem ctuArea_aligned (fmt : ChromaFormat) (log2CtuSize col row : ℕ) :
    Aligned (ctuArea fmt log2CtuSize col row).Y := by
  refine ⟨Int.natCast_nonneg _, Int.natCast_nonneg _, ⟨log2CtuSize, rfl, ?_⟩, log2CtuSize, rfl, ?_⟩
  · exact Int.natCast_dvd_natCast.mpr (Nat.dvd_mul_left _ _)
  · exact Int.natCast_dvd_natCast.mpr (Nat.dvd_mul_left _ _)

theorem mem_samples_iff {s : ℤ × ℤ} : s ∈ samples a ↔
    a.x ≤ s.1 ∧ s.1 < a.x + a.width ∧ a.y ≤ s.2 ∧ s.2 < a.y + a.height := by
  rw [mem_samples, CompArea.contains_iff]

theorem samples_subset_of_inPic (h : InPic cs a) : samples a ⊆ samples cs.picture := by
  obtain ⟨hx, hy, hxw, hyh⟩ := h
  intro s hs
  rw [mem_samples_iff] at hs ⊢
  simp only [CodingStructure.picture, zero_add]
  omega

/-- The leaves of an area that begin in the picture tile its part of the picture. -/
theorem BoundaryLeaves.tiles {u : UnitArea} {areas : List UnitArea} (h : BoundaryLeaves cs u areas)
    (hx : 0 ≤ u.Y.x) (hy : 0 ≤ u.Y.y) :
    Tiles (samples u.Y ∩ samples cs.picture)
      ((areas.filter fun b => cs.picture.contains b.Y.pos).map fun b => samples b.Y) := by
  obtain ⟨htile, hin⟩ := h
  have hluma : Tiles (samples u.Y) (areas.map fun b => samples b.Y) := htile 0 (Nat.succ_pos _)
  refine hluma.inter_filter (fun b hb hpos => samples_subset_of_inPic (hin b hb hpos)) fun b hb hpos => ?_
  rw [disjoint_left]
  intro s hs hpic
  have hcorner : (b.Y.x, b.Y.y) ∈ samples u.Y := by
    refine hluma.subset (List.mem_map_of_mem hb) ?_
    rw [mem_samples_iff] at hs ⊢
    omega
  rw [mem_samples_iff] at hs hpic hcorner
  rw [← Bool.not_eq_true, CompArea.contains_iff] at hpos
  simp only [CodingStructure.picture, CompArea.pos, zero_add] at hpic hpos hcorner
  omega

/-- Splitting at the boundary of a picture of a multiple of eight samples: however
the admitted splits are chosen, the walk over a CTU succeeds and ends in areas in
the picture that tile the CTU's part of it, and areas outside. -/
theorem boundary_succeeds (hw : 8 ∣ cs.picWidth) (hh : 8 ∣ cs.picHeight) (fmt : ChromaFormat)
    (chType : ChannelType) {log2CtuSize : ℕ} (h5 : 5 ≤ log2CtuSize) (h8 : log2CtuSize ≤ 8) (col row : ℕ)
    (hd : BoundaryDecision cs decision) :
    ∃ areas q, codingTree cs decision (2 * 2 ^ log2CtuSize + 1)
        (initCtu (ctuArea fmt log2CtuSize col row) chType) = .ok (areas, q) ∧
      (∀ b ∈ areas, cs.picture.contains b.Y.pos = true → InPic cs b.Y) ∧
      Tiles (samples (ctuArea fmt log2CtuSize col row).Y ∩ samples cs.picture)
        ((areas.filter fun b => cs.picture.contains b.Y.pos).map fun b => samples b.Y) := by
  have hrule := boundary_rule hw hh hd
  have hok := @initCtu_ok cs fmt log2CtuSize h5 h8 col row chType
  have halign := ctuArea_aligned fmt log2CtuSize col row
  have hL : BoundaryLevel (initCtu (ctuArea fmt log2CtuSize col row) chType).back.split
      (initCtu (ctuArea fmt log2CtuSize col row) chType).back.parts := by
    refine ⟨rfl, ctuArea_sidesFit h5 h8 col row, fun b hb => ?_⟩
    obtain rfl := List.mem_singleton.mp hb
    exact halign
  have hrank : sideSum (initCtu (ctuArea fmt log2CtuSize col row) chType).currArea < 2 * 2 ^ log2CtuSize + 1 := by
    show 2 ^ log2CtuSize + 2 ^ log2CtuSize < _
    rw [Nat.two_mul]
    exact Nat.lt_succ_self _
  have hstep (p : Partitioner) (split : PartSplit) (hp : PartitionerOk cs p)
      (hpart : p.back.idx < p.back.parts.length) (hL : BoundaryLevel p.back.split p.back.parts)
      (h : decision p = some split) : p.admits cs split = true ∧
        ∃ parts, p.splitParts cs split = .ok parts ∧ parts ≠ [] ∧ ∀ a ∈ parts, sideSum a < sideSum p.currArea := by
    obtain ⟨hcu, _, ha⟩ := hL
    obtain ⟨hc, hs, hadm⟩ := hd.some_iff hp hpart hcu h
    obtain ⟨parts, hparts, hne, hmem⟩ :=
      crossing_parts hw hh hp hpart hcu hc (ha _ (currArea_mem hpart)) hs hadm
    exact ⟨hadm, parts, hparts, hne, fun a h => (hmem a h).2⟩
  obtain ⟨areas, q, hwalk⟩ := codingTree_total hrule hstep _ hok Nat.zero_lt_one hL hrank
  obtain ⟨_, hleaves⟩ := codingTree_spec hrule _ hok Nat.zero_lt_one hL hwalk
  exact ⟨areas, q, hwalk, hleaves.2, hleaves.tiles halign.1 halign.2.1⟩

/-! ## The implicit splits -/

/-- What crosses the boundary gets the split that is forced on it. -/
def implicitDecision (cs : CodingStructure) (p : Partitioner) : Option PartSplit :=
  if Crossing cs p.currArea.Y then some (p.implicit cs) else none

/-- The split that is forced is one of those that are admitted. -/
theorem implicitDecision_boundary (cs : CodingStructure) : BoundaryDecision cs (implicitDecision cs) := by
  intro p hp hcu hpart
  refine ⟨fun hc => ⟨p.implicit cs, if_pos hc, ?_⟩, fun hc => if_neg hc⟩
  have hadm (s : PartSplit) (hi : p.implicit cs = s) (hs : s.isCu = true) (h : p.admits cs s = true) :
      s.isCu = true ∧ ∃ q, p.canSplit cs s = .ok (true, q) := by
    refine ⟨hs, p.looked cs, ?_⟩
    rw [canSplit_eq hp (Or.inl hs), h]
  rcases @implicitFor_cases cs p.chType p.counters _ (currPart hp hpart hcu).sides with
    ⟨hin, _⟩ | ⟨_, hi, _⟩ | ⟨_, hi, _⟩ | ⟨_, hi, _⟩
  · exact absurd hin hc.2
  · have hi : p.implicit cs = .cuQuadSplit := hi
    rw [hi]
    refine hadm _ hi rfl ?_
    simp only [admits, hi, splitFlags]
    simp
  · have hi : p.implicit cs = .cuHorzSplit := hi
    rw [hi]
    refine hadm _ hi rfl ?_
    simp only [admits, hi, splitFlags]
    simp
  · have hi : p.implicit cs = .cuVertSplit := hi
    rw [hi]
    refine hadm _ hi rfl ?_
    simp only [admits, hi, splitFlags]
    simp

/-- A picture 24 samples wide in a CTU of 32 by 32. -/
theorem boundary_succeeds_small : ∃ areas q,
    codingTree { smallConfig with picWidth := 24 } (implicitDecision { smallConfig with picWidth := 24 }) 65
        (initCtu (ctuArea .chroma420 5 0 0) .luma) = .ok (areas, q) ∧
      (∀ b ∈ areas, (CompArea.contains ⟨0, 0, 24, 256⟩ b.Y.pos) = true →
        InPic { smallConfig with picWidth := 24 } b.Y) := by
  obtain ⟨areas, q, hwalk, hin, _⟩ := @boundary_succeeds { smallConfig with picWidth := 24 } _
    ⟨3, rfl⟩ ⟨32, rfl⟩ .chroma420 .luma 5 (by decide) (by decide) 0 0 (implicitDecision_boundary _)
  exact ⟨areas, q, hwalk, hin⟩

/-- What a caller does that splits what crosses the boundary by any split that is
admitted, and goes on to the next part where nothing crosses. -/
def BoundaryOp (cs : CodingStructure) (p : Partitioner) : Op → Prop
  | .splitCurrArea split => Crossing cs p.currArea.Y ∧ ∃ q, p.canSplit cs split = .ok (true, q)
  | .nextPart autoPop => ¬Crossing cs p.currArea.Y ∧ autoPop = false
  | _ => False

/-- A picture 8 samples wide in a CTU of 32 by 32. -/
def narrowConfig : CodingStructure := { smallConfig with picWidth := 8, picHeight := 32 }

/-- A transform split is admitted at the boundary as well. What it leaves is not of
a side that is a power of two, and the splits that are then forced make it too small. -/
theorem transform_split_at_boundary : ∃ p,
    Reachable narrowConfig (BoundaryOp narrowConfig) (ctuArea .chroma420 5 0 0) .luma p ∧
      BoundaryOp narrowConfig p (.splitCurrArea .cuVertSplit) ∧
      p.splitCurrArea narrowConfig .cuVertSplit =
        .error "the split causes the block to be smaller than the minimal TU size" := by
  have hctu : Reachable narrowConfig (BoundaryOp narrowConfig) (ctuArea .chroma420 5 0 0) .luma _ := .init
  have hwide := hctu.step (show BoundaryOp _ _ (.splitCurrArea .sbtVerQuadPos1Split) from ⟨by decide, _, rfl⟩) rfl
  have hhalf := hwide.step (show BoundaryOp _ _ (.splitCurrArea .cuVertSplit) from ⟨by decide, _, rfl⟩) rfl
  have hquarter := hhalf.step (show BoundaryOp _ _ (.splitCurrArea .cuVertSplit) from ⟨by decide, _, rfl⟩) rfl
  have hnext := hquarter.step (show BoundaryOp _ _ (.nextPart false) from ⟨by decide, rfl⟩) rfl
  exact ⟨_, hnext, ⟨by decide, _, rfl⟩, rfl⟩

end ECM.Partition
