import ECM.CommonLib.CodingUnits
import ECM.Lib.LinkedList
import ECM.Partition.Boundary

/-! # Units of the coding tree and their cells

The chroma block of every area of the coding tree is its luma block scaled, so
the cells of both channels are those of the luma samples, four by four. A split
leaves its first part at the corner of the area and every other part at least
one cell behind it. The lists of units grow at their end: what is added is
linked behind the last unit, and cells in front of the corner keep their unit. -/

namespace ECM.Partition
open CommonLib Lib.LinkedList PartSplit Partitioner PartitionerImpl CodingUnits

/-! ## The corner of an area -/

/-- The first cell of an area. -/
def corner (a : UnitArea) : ℤ × ℤ := (a.Y.x >>> (2 : ℕ), a.Y.y >>> (2 : ℕ))

/-- In one of the directions the cell lies in front of `d`. -/
def Before (c d : ℤ × ℤ) : Prop := c.1 < d.1 ∨ c.2 < d.2

/-- What lies in front of a cell lies in front of all cells from there on. -/
theorem Before.mono {c d e : ℤ × ℤ} (h : Before c d) (h1 : d.1 ≤ e.1) (h2 : d.2 ≤ e.2) : Before c e :=
  h.imp (fun h => h.trans_le h1) fun h => h.trans_le h2

/-- The areas of the coding tree of a chroma format. -/
structure CuUnit (fmt : ChromaFormat) (a : UnitArea) : Prop where
  sides : UnitOk CuSide a
  scaled : a = .ofArea fmt a.Y

variable {fmt : ChromaFormat} {a : UnitArea} {b : CompArea} {split : PartSplit} {i : ℕ}

theorem CuUnit.luma_sides (h : CuUnit fmt a) : CuSide a.Y.width a.Y.width ∧ CuSide a.Y.height a.Y.height :=
  h.sides a.Y List.mem_cons_self

theorem CuSide.four_le {y b : ℕ} (h : CuSide y b) : 4 ≤ y := by
  obtain ⟨-, k, hk, -⟩ := h
  have hpos := Nat.two_pow_pos k
  omega

theorem CuSide.four_dvd {y b : ℕ} (h : CuSide y b) : 4 ∣ y := by
  obtain ⟨-, k, hk, -⟩ := h
  exact Dvd.intro (2 ^ k) hk.symm

/-- Scaling a position that is moved by whole cells. -/
theorem shift_add (x : ℤ) {o s : ℕ} (ho : 4 ∣ o) (hs : s ≤ 1) : (x + o) >>> s = x >>> s + (o >>> s : ℕ) := by
  rw [Int.shiftRight_eq_div_pow, Int.shiftRight_eq_div_pow, Nat.shiftRight_eq_div_pow]
  interval_cases s
  · simp
  · omega

theorem half_shift (n s : ℕ) : n >>> s >>> 1 = n >>> 1 >>> s := by
  rw [← Nat.shiftRight_add, ← Nat.shiftRight_add, Nat.add_comm]

theorem triSide_shift (i n s : ℕ) : triSide i (n >>> s) = triSide i n >>> s := by
  unfold triSide
  split
  · rw [half_shift n s, half_shift (n >>> 1) s]
  · rw [half_shift n s]

theorem triOffset_shift {i n s : ℕ} (h4 : ∀ i < 3, 4 ∣ triSide i n) (hi : i < 3) (hs : s ≤ 1) :
    triOffset i (n >>> s) = triOffset i n >>> s ∧ 4 ∣ triOffset i n := by
  have hsame : triSide 1 n = 2 * triSide 0 n ∧ triSide 2 n = triSide 0 n := by
    have h0 := h4 0 (by decide)
    have h1 := h4 1 (by decide)
    simp only [triSide, half_eq] at h0 h1 ⊢
    norm_num at h0 h1 ⊢
    omega
  have h0 := h4 0 (by decide)
  interval_cases i
  · simp [triOffset]
  · simp only [triOffset, triSide_shift, hsame.1]
    interval_cases s
    all_goals simp [Nat.shiftRight_eq_div_pow]
    all_goals omega
  · simp only [triOffset, triSide_shift, hsame.2]
    interval_cases s
    all_goals simp [Nat.shiftRight_eq_div_pow]
    all_goals omega

/-- The blocks of a coding split are scaled as their area is. -/
theorem cuBlock_recalc {sx sy : ℕ} (hs : split.isCu = true) (hx : sx ≤ 1) (hy : sy ≤ 1) (hi : i < cuParts split)
    (hw : ∀ i < cuParts split, 4 ∣ (cuBlock split i b).width)
    (hh : ∀ i < cuParts split, 4 ∣ (cuBlock split i b).height) :
    cuBlock split i (b.recalcLumaToChroma sx sy) = (cuBlock split i b).recalcLumaToChroma sx sy := by
  have hw0 := hw 0 (by cases split <;> decide)
  have hh0 := hh 0 (by cases split <;> decide)
  cases split
  case cuQuadSplit =>
    simp only [cuBlock, quadBlock] at hw0 hh0
    simp only [cuBlock, quadBlock, CompArea.recalcLumaToChroma, CompArea.mk.injEq, half_shift]
    refine ⟨?_, ?_, trivial, trivial⟩
    · split
      · exact (shift_add b.x hw0 hx).symm
      · rfl
    · split
      · exact (shift_add b.y hh0 hy).symm
      · rfl
  case cuHorzSplit =>
    simp only [cuBlock, horzBlock] at hh0
    simp only [cuBlock, horzBlock, CompArea.recalcLumaToChroma, CompArea.mk.injEq, half_shift]
    refine ⟨trivial, ?_, trivial, trivial⟩
    split
    · exact (shift_add b.y hh0 hy).symm
    · rfl
  case cuVertSplit =>
    simp only [cuBlock, vertBlock] at hw0
    simp only [cuBlock, vertBlock, CompArea.recalcLumaToChroma, CompArea.mk.injEq, half_shift]
    refine ⟨?_, trivial, trivial, trivial⟩
    split
    · exact (shift_add b.x hw0 hx).symm
    · rfl
  case cuTriHSplit =>
    obtain ⟨ho, h4⟩ := triOffset_shift (show ∀ i < 3, 4 ∣ triSide i b.height from hh) hi hy
    simp only [cuBlock, triHBlock, CompArea.recalcLumaToChroma, CompArea.mk.injEq, triSide_shift, ho]
    exact ⟨trivial, (shift_add b.y h4 hy).symm, trivial, trivial⟩
  case cuTriVSplit =>
    obtain ⟨ho, h4⟩ := triOffset_shift (show ∀ i < 3, 4 ∣ triSide i b.width from hw) hi hx
    simp only [cuBlock, triVBlock, CompArea.recalcLumaToChroma, CompArea.mk.injEq, triSide_shift, ho]
    exact ⟨(shift_add b.x h4 hx).symm, trivial, trivial, trivial⟩
  all_goals exact absurd hs Bool.false_ne_true

theorem scale_le (fmt : ChromaFormat) :
    getChannelTypeScaleX .chroma fmt ≤ 1 ∧ getChannelTypeScaleY .chroma fmt ≤ 1 := by
  cases fmt <;> decide

/-- The parts of a coding split are areas of the coding tree. -/
theorem CuUnit.part (h : CuUnit fmt a) (hs : split.isCu = true)
    (hq : split = .cuQuadSplit → a.Y.width = a.Y.height)
    (hside : ∀ i < cuParts split, 4 ≤ cuSide split (cuBlock split i a.Y)) (hi : i < cuParts split) :
    CuUnit fmt (a.mapBlocks (cuBlock split i)) := by
  have hsides := cuSplit_sides hs h.sides hq hside
  refine ⟨UnitOk.mapBlocks fun b hb => (hsides b hb).2 i hi, ?_⟩
  have hY := (hsides a.Y List.mem_cons_self).2
  obtain ⟨hx, hy⟩ := scale_le fmt
  have hrecalc := cuBlock_recalc hs hx hy hi (fun i hi => (hY i hi).1.four_dvd) fun i hi => (hY i hi).2.four_dvd
  rw [UnitArea.mapBlocks_Y]
  conv_lhs => rw [h.scaled]
  unfold UnitArea.ofArea UnitArea.mapBlocks
  dsimp only
  rw [← hrecalc]
  split
  · rfl
  · rfl

/-- Where the parts of a coding split begin, and that they are smaller. -/
structure PartAt (a : CompArea) (i : ℕ) (part : CompArea) : Prop where
  first : i = 0 → part.x = a.x ∧ part.y = a.y
  left : a.x ≤ part.x
  above : a.y ≤ part.y
  behind : i ≠ 0 → a.x + 4 ≤ part.x ∨ a.y + 4 ≤ part.y
  smaller : part.width + part.height < a.width + a.height

theorem cuBlock_partAt (hs : split.isCu = true) (hw : ∀ i < cuParts split, 4 ≤ (cuBlock split i b).width)
    (hh : ∀ i < cuParts split, 4 ≤ (cuBlock split i b).height) (hi : i < cuParts split) :
    PartAt b i (cuBlock split i b) := by
  have hw0 := hw 0 (by cases split <;> decide)
  have hh0 := hh 0 (by cases split <;> decide)
  cases split
  case cuQuadSplit =>
    have hi : i < 4 := hi
    simp only [cuBlock, quadBlock, half_eq] at hw0 hh0
    refine ⟨?_, ?_, ?_, ?_, ?_⟩
    all_goals
      interval_cases i
      all_goals simp [cuBlock, quadBlock, half_eq]
      all_goals omega
  case cuHorzSplit =>
    have hi : i < 2 := hi
    simp only [cuBlock, horzBlock, half_eq] at hh0
    refine ⟨?_, ?_, ?_, ?_, ?_⟩
    all_goals
      interval_cases i
      all_goals simp [cuBlock, horzBlock, half_eq]
      all_goals omega
  case cuVertSplit =>
    have hi : i < 2 := hi
    simp only [cuBlock, vertBlock, half_eq] at hw0
    refine ⟨?_, ?_, ?_, ?_, ?_⟩
    all_goals
      interval_cases i
      all_goals simp [cuBlock, vertBlock, half_eq]
      all_goals omega
  case cuTriHSplit =>
    have hi : i < 3 := hi
    simp only [cuBlock, triHBlock, triOffset, triSide, half_eq] at hh0
    norm_num at hh0
    refine ⟨?_, ?_, ?_, ?_, ?_⟩
    all_goals
      interval_cases i
      all_goals simp [cuBlock, triHBlock, triOffset, triSide, half_eq]
      all_goals omega
  case cuTriVSplit =>
    have hi : i < 3 := hi
    simp only [cuBlock, triVBlock, triOffset, triSide, half_eq] at hw0
    norm_num at hw0
    refine ⟨?_, ?_, ?_, ?_, ?_⟩
    all_goals
      interval_cases i
      all_goals simp [cuBlock, triVBlock, triOffset, triSide, half_eq]
      all_goals omega
  all_goals exact absurd hs Bool.false_ne_true

/-- The corner of a part. -/
theorem PartAt.corner {a' : UnitArea} (h : PartAt a.Y i a'.Y) :
    (i = 0 → Partition.corner a' = Partition.corner a) ∧ (Partition.corner a).1 ≤ (Partition.corner a').1 ∧
      (Partition.corner a).2 ≤ (Partition.corner a').2 ∧ (i ≠ 0 → Before (Partition.corner a) (Partition.corner a')) := by
  obtain ⟨hfirst, hl, ha, hbehind, -⟩ := h
  simp only [Partition.corner, Before, Int.shiftRight_eq_div_pow]
  refine ⟨fun hi => ?_, by omega, by omega, fun hi => ?_⟩
  · rw [(hfirst hi).1, (hfirst hi).2]
  · have hb := hbehind hi
    omega

/-- The cells of a block begin at the corner of its area. -/
theorem CuUnit.cell_corner (h : CuUnit fmt a) (h400 : fmt ≠ .chroma400) (ch : ChannelType) :
    cell fmt ch (a.blockOf ch).pos = corner a := by
  rw [h.scaled]
  cases ch with
  | luma => rfl
  | chroma =>
    simp only [UnitArea.ofArea, UnitArea.blockOf, UnitArea.Cb, if_neg h400, List.headD_cons, corner, cell]
    simp only [CompArea.recalcLumaToChroma, CompArea.pos, Int.shiftRight_eq_div_pow]
    cases fmt
    case chroma400 => exact absurd rfl h400
    all_goals
      simp [unitScale, getChannelTypeScaleX, getChannelTypeScaleY]
    all_goals omega

/-- No cell in front of the corner is covered, and the corner is. -/
theorem CuUnit.covers (h : CuUnit fmt a) (h400 : fmt ≠ .chroma400) (ch : ChannelType) :
    CodingUnits.covers fmt ch (a.blockOf ch) (corner a) = true ∧
      ∀ c, Before c (corner a) → CodingUnits.covers fmt ch (a.blockOf ch) c = false := by
  have hcell := h.cell_corner h400 ch
  unfold cell CompArea.pos at hcell
  obtain ⟨hx, hy⟩ := Prod.ext_iff.mp hcell
  dsimp only at hx hy
  have hw : 0 < (a.blockOf ch).width >>> (unitScale fmt ch).1 ∧ 0 < (a.blockOf ch).height >>> (unitScale fmt ch).2 := by
    obtain ⟨hw, hh⟩ := h.luma_sides
    have hw4 := hw.four_le
    have hh4 := hh.four_le
    rw [h.scaled]
    generalize a.Y = b at hw4 hh4
    cases ch with
    | luma =>
      simp only [UnitArea.ofArea, UnitArea.blockOf, unitScale, Nat.shiftRight_eq_div_pow]
      omega
    | chroma =>
      simp only [UnitArea.ofArea, UnitArea.blockOf, UnitArea.Cb, if_neg h400, List.headD_cons]
      simp only [CompArea.recalcLumaToChroma, Nat.shiftRight_eq_div_pow]
      cases fmt
      case chroma400 => exact absurd rfl h400
      all_goals
        simp [unitScale, getChannelTypeScaleX, getChannelTypeScaleY]
      all_goals omega
  unfold CodingUnits.covers
  dsimp only
  rw [hx, hy]
  constructor
  · rw [CompArea.contains_iff]
    dsimp only
    omega
  · intro c hc
    rw [← Bool.not_eq_true, CompArea.contains_iff]
    dsimp only
    rcases hc with hc | hc <;> omega

/-! ## Lists that grow -/

/-- The places from `n` up to `m` and from there up to `k`. -/
theorem range'_added {n m k : ℕ} (h : n ≤ m) (h' : m ≤ k) :
    List.range' n (m - n) ++ List.range' m (k - m) = List.range' n (k - n) := by
  have hstart : n + 1 * (m - n) = m := by omega
  have hsum : k - n = m - n + (k - m) := by omega
  rw [hsum, ← List.range'_append, hstart]

/-- What is added to the units of a list, `new` in the order it is linked. -/
structure Grows (u u' : CodingUnits) (new : List ℕ) (c : ℤ × ℤ) : Prop where
  length : u.cus.length ≤ u'.cus.length
  perm : new.Perm (List.range' u.cus.length (u'.cus.length - u.cus.length))
  old : ∀ a, a + 1 < u.cus.length → u'.cus[a]? = u.cus[a]?
  back : ∀ a, a + 1 = u.cus.length →
    u'.cus[a]? = u.cus[a]?.map fun cu => { cu with next := new.head?.or cu.next }
  links : Links u'.next new none
  last : ∀ a, new.getLast? = some a → a + 1 = u'.cus.length
  cells : ∀ ch c', Before c' c → u'.cuIdx ch c' = u.cuIdx ch c'

section Grows
variable {u u₁ u' : CodingUnits} {new new' : List ℕ} {c d : ℤ × ℤ} {x : ℕ} {ch : ChannelType}

theorem Grows.mem (h : Grows u u' new c) : x ∈ new ↔ u.cus.length ≤ x ∧ x < u'.cus.length := by
  have hle := h.length
  rw [h.perm.mem_iff, List.mem_range'_1]
  omega

theorem Grows.nodup (h : Grows u u' new c) : new.Nodup := h.perm.nodup_iff.mpr List.nodup_range'

theorem Grows.chTypeAt (h : Grows u u' new c) (hx : x < u.cus.length) : u'.chTypeAt x = u.chTypeAt x := by
  unfold CodingUnits.chTypeAt
  rcases Nat.lt_or_eq_of_le (Nat.succ_le_of_lt hx) with hlt | heq
  · rw [h.old x hlt]
  · rw [h.back x heq, Option.map_map]
    rfl

/-- The pointers of what was added, after more is added. -/
theorem Grows.links_after (h : Grows u u₁ new c) (h' : Grows u₁ u' new' d) :
    Links u'.next new (new'.head?.or none) := by
  refine h.links.redirect h.nodup (fun a ha => ?_) (fun a ha hne => ?_)
  · have hlast := h.last a ha
    have hnone : u₁.next a = none := h.links.last ha
    unfold CodingUnits.next at hnone ⊢
    rw [h'.back a hlast]
    cases hcu : u₁.cus[a]? with
    | none => exact absurd (List.getElem?_eq_none_iff.mp hcu) (by omega)
    | some cu =>
      rw [hcu] at hnone
      have hnone : cu.next = none := hnone
      rw [Option.map_some, Option.bind_some, hnone]
  · obtain ⟨-, hlt⟩ := h.mem.mp ha
    obtain ⟨l, hl⟩ : ∃ l, new.getLast? = some l := by
      cases hl : new.getLast? with
      | none =>
        rw [List.getLast?_eq_none_iff.mp hl] at ha
        cases ha
      | some l => exact ⟨l, rfl⟩
    have hlast := h.last l hl
    have hal : a ≠ l := fun hal => hne (hal ▸ hl)
    unfold CodingUnits.next
    rw [h'.old a (by omega)]

theorem Grows.append (h : Grows u u₁ new c) (h' : Grows u₁ u' new' d) (h1 : c.1 ≤ d.1) (h2 : c.2 ≤ d.2) :
    Grows u u' (new ++ new') c where
  length := h.length.trans h'.length
  perm := by
    rw [← range'_added h.length h'.length]
    exact h.perm.append h'.perm
  old a ha := by
    have hle := h.length
    rw [h'.old a (by omega), h.old a ha]
  back a ha := by
    have hle := h.length
    cases new with
    | nil =>
      have hnone := h.perm.length_eq
      rw [List.length_range', List.length_nil] at hnone
      rw [h'.back a (by omega), h.back a ha, Option.map_map]
      rfl
    | cons b new =>
      have hlt := (h.mem.mp (List.mem_cons_self (a := b) (l := new)))
      rw [h'.old a (by omega), h.back a ha]
      rfl
  links := links_append.mpr ⟨h.links_after h', h'.links⟩
  last a ha := by
    cases hn : new'.getLast? with
    | none =>
      obtain rfl := List.getLast?_eq_none_iff.mp hn
      have hnone := h'.perm.length_eq
      have hle' := h'.length
      rw [List.length_range', List.length_nil] at hnone
      rw [List.append_nil] at ha
      have hlast := h.last a ha
      omega
    | some b =>
      rw [List.getLast?_append, hn] at ha
      obtain rfl : b = a := Option.some.inj ha
      exact h'.last b hn
  cells ch c' hc := (h'.cells ch c' (hc.mono h1 h2)).trans (h.cells ch c' hc)

/-- Units of one channel added one after the other, the first at the corner. -/
structure ChannelRun (u u' : CodingUnits) (ch : ChannelType) (c : ℤ × ℤ) : Prop where
  grows : Grows u u' (List.range' u.cus.length (u'.cus.length - u.cus.length)) c
  more : u.cus.length < u'.cus.length
  channel : ∀ a, u.cus.length ≤ a → a < u'.cus.length → u'.chTypeAt a = some ch
  first : u'.cuIdx ch c = u.cus.length + 1
  other : ∀ ch' ≠ ch, u'.cuIdx ch' = u.cuIdx ch'

/-- Units of areas behind the corner follow. -/
theorem ChannelRun.append (h : ChannelRun u u₁ ch c) (h' : ChannelRun u₁ u' ch d) (h1 : c.1 ≤ d.1) (h2 : c.2 ≤ d.2)
    (hb : Before c d) : ChannelRun u u' ch c where
  grows := by
    rw [← range'_added h.more.le h'.more.le]
    exact h.grows.append h'.grows h1 h2
  more := h.more.trans h'.more
  channel a ha hlt := by
    by_cases hx : a < u₁.cus.length
    · rw [h'.grows.chTypeAt hx]
      exact h.channel a ha hx
    · exact h'.channel a (Nat.le_of_not_lt hx) hlt
  first := (h'.grows.cells ch c hb).trans h.first
  other ch' hne := (h'.other ch' hne).trans (h.other ch' hne)

end Grows

/-- The blocks of a unit of one channel. -/
theorem getArea_blockOf {cs : CodingStructure} (hdual : cs.isDualITree = true) (a : UnitArea) (ch ch' : ChannelType) :
    (cs.getArea a ch).blockOf ch' = if ch' = ch then a.blockOf ch else default := by
  unfold CodingStructure.getArea
  rw [if_pos hdual]
  cases ch <;> cases ch'
  · rfl
  · cases h : a.chroma with
    | nil => simp [UnitArea.singleChan, UnitArea.blockOf, UnitArea.Cb, h]
    | cons b l => simp [UnitArea.singleChan, UnitArea.blockOf, UnitArea.Cb, h]
  · rfl
  · rfl

theorem getArea_chromaFormat (cs : CodingStructure) (a : UnitArea) (ch : ChannelType) :
    (cs.getArea a ch).chromaFormat = a.chromaFormat := by
  unfold CodingStructure.getArea
  split
  · cases ch <;> rfl
  · rfl

theorem fillCuIdx_invalid {unit : UnitArea} {idx : ℕ} {cuIdx : ChannelType → ℤ × ℤ → ℕ} {ch : ChannelType}
    (h : unit.blockOf ch = default) : fillCuIdx unit idx cuIdx ch = .ok cuIdx := by
  unfold fillCuIdx
  rw [h]
  rfl

/-- The cells a unit of one channel is filled into. -/
theorem fillChannels {cs : CodingStructure} (hdual : cs.isDualITree = true) (h400 : fmt ≠ .chroma400)
    (hfmt : a.chromaFormat = fmt) {ch : ChannelType} {idx : ℕ} {cuIdx cuIdx' : ChannelType → ℤ × ℤ → ℕ}
    (h : (validChannels (cs.getArea a ch).chromaFormat).foldlM (fillCuIdx (cs.getArea a ch) idx) cuIdx = .ok cuIdx') :
    (a.blockOf ch).valid = false ∧ cuIdx' = cuIdx ∨
      cuIdx' = fun ch' c => if ch' = ch ∧ CodingUnits.covers fmt ch (a.blockOf ch) c = true then idx else cuIdx ch' c := by
  have hone : fillCuIdx (cs.getArea a ch) idx cuIdx ch = .ok cuIdx' := by
    rw [getArea_chromaFormat, hfmt, validChannels, if_neg h400] at h
    simp only [List.foldlM_cons, List.foldlM_nil] at h
    obtain ⟨m, hm, h⟩ := bind_eq_ok h
    obtain ⟨m', hm', h⟩ := bind_eq_ok h
    obtain rfl : m' = cuIdx' := Except.ok.inj h
    cases ch with
    | luma =>
      rw [fillCuIdx_invalid (by rw [getArea_blockOf hdual]; rfl)] at hm'
      obtain rfl := Except.ok.inj hm'
      exact hm
    | chroma =>
      rw [fillCuIdx_invalid (by rw [getArea_blockOf hdual]; rfl)] at hm
      obtain rfl := Except.ok.inj hm
      exact hm'
  unfold fillCuIdx at hone
  rw [getArea_blockOf hdual, if_pos rfl, getArea_chromaFormat, hfmt] at hone
  dsimp only at hone
  cases hv : (a.blockOf ch).valid with
  | false =>
    rw [hv, if_neg Bool.false_ne_true] at hone
    exact Or.inl ⟨rfl, (Except.ok.inj hone).symm⟩
  | true =>
    rw [hv, if_pos rfl] at hone
    obtain ⟨_, -, hone⟩ := bind_eq_ok hone
    refine Or.inr ((Except.ok.inj hone).symm.trans ?_)
    funext ch' c
    by_cases hch : ch' = ch
    · rw [hch]
    · simp [hch]

theorem CuUnit.chromaFormat (h : CuUnit fmt a) : a.chromaFormat = fmt := by
  rw [h.scaled]
  rfl

theorem CuUnit.valid (h : CuUnit fmt a) (h400 : fmt ≠ .chroma400) (ch : ChannelType) :
    (a.blockOf ch).valid = true := by
  have hcov := (h.covers h400 ch).1
  rw [CodingUnits.covers, CompArea.contains_iff] at hcov
  dsimp only at hcov
  unfold CompArea.valid
  cases hw : (a.blockOf ch).width with
  | zero =>
    rw [hw, Nat.zero_shiftRight] at hcov
    omega
  | succ w =>
    cases hh : (a.blockOf ch).height with
    | zero =>
      rw [hh, Nat.zero_shiftRight] at hcov
      omega
    | succ v => rfl

/-- A unit of one channel is added. -/
theorem addCU_run {cs : CodingStructure} (hdual : cs.isDualITree = true) (h400 : fmt ≠ .chroma400)
    (ha : CuUnit fmt a) {ch : ChannelType} {u u' : CodingUnits} (h : u.addCU (cs.getArea a ch) ch = .ok u') :
    ChannelRun u u' ch (corner a) := by
  obtain ⟨cuIdx', hfill, h⟩ := bind_eq_ok h
  obtain rfl := (Except.ok.inj h).symm
  have hidx : cuIdx' = _ := (fillChannels hdual h400 ha.chromaFormat hfill).resolve_left fun hv =>
    Bool.false_ne_true (hv.1.symm.trans (ha.valid h400 ch))
  obtain ⟨hcorner, hfront⟩ := ha.covers h400 ch
  have hlen (cu : CodingUnit) (n : ℕ) (q : Option ℕ) : ((u.setNext n q).cus ++ [cu]).length = u.cus.length + 1 := by
    rw [List.length_append, setNext_length, List.length_singleton]
  have hnew (cu : CodingUnit) (n : ℕ) (q : Option ℕ) : ((u.setNext n q).cus ++ [cu])[u.cus.length]? = some cu := by
    rw [List.getElem?_append_right (by rw [setNext_length]), setNext_length, Nat.sub_self]
    rfl
  have hold (cu : CodingUnit) (n : ℕ) (q : Option ℕ) {x : ℕ} (hx : x < u.cus.length) :
      ((u.setNext n q).cus ++ [cu])[x]? = (u.setNext n q).cus[x]? :=
    List.getElem?_append_left (by rw [setNext_length]; exact hx)
  have hrange (n : ℕ) : n + 1 - n = 1 := by omega
  refine ⟨⟨?_, ?_, fun x hx => ?_, fun x hx => ?_, ?_, fun x hx => ?_, fun ch' c hc => ?_⟩, ?_, fun x hx hlt => ?_, ?_, ?_⟩
  · rw [hlen]
    exact Nat.le_succ _
  · exact List.Perm.refl _
  · rw [hold _ _ _ (by omega)]
    exact setNext_ne (by omega)
  · rw [hold _ _ _ (by omega), hlen, hrange, show u.cus.length - 1 = x by omega, setNext_self]
    rfl
  · rw [hlen, hrange]
    refine links_singleton.mpr ?_
    unfold CodingUnits.next
    rw [hnew]
    rfl
  · rw [hlen, hrange] at hx
    obtain rfl : u.cus.length = x := Option.some.inj hx
    rw [hlen]
  · dsimp only
    rw [hidx]
    dsimp only
    rw [hfront c hc, if_neg (by simp)]
  · rw [hlen]
    exact Nat.lt_succ_self _
  · rw [hlen] at hlt
    obtain rfl : x = u.cus.length := by omega
    unfold CodingUnits.chTypeAt
    rw [hnew]
    rfl
  · dsimp only
    rw [hidx]
    exact if_pos ⟨rfl, hcorner⟩
  · intro ch' hne
    dsimp only
    rw [hidx]
    funext c
    exact if_neg fun h => hne h.1

end ECM.Partition
