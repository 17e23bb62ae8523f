import ECM.CommonLib.UnitPartitioner
import Mathlib.Tactic.IntervalCases

/-! # The counters of the partitioner are those of its stack

Every counter is a sum over the levels of the stack, and the cached implicit
splits are those of the current parts. A quad split admitted in the coding tree
finds no multi-type level below it: where the picture boundary forces a split
after a multi-type split, a binary one is still allowed. -/

namespace ECM.CommonLib
open PartitionerImpl

/-! ## Splits -/

namespace PartSplit

/-- The levels a quad split may start from. -/
def isQt (split : PartSplit) : Bool := split = ctuLevel || split = cuQuadSplit

theorem isMtt_not_isQt {split : PartSplit} (h : split.isMtt = true) : split.isQt = false := by
  cases split <;> simp_all [isMtt, isQt]

theorem isMtt_not_isTu {split : PartSplit} (h : split.isMtt = true) : split.isTu = false := by
  cases split <;> simp_all [isMtt, isTu, isSbt, isSbtQuad]

theorem isTu_not_isQt {split : PartSplit} (h : split.isTu = true) : split.isQt = false := by
  cases split <;> simp_all [isTu, isSbt, isSbtQuad, isQt]

theorem isTernary_isMtt {split : PartSplit} (h : split.isTernary = true) : split.isMtt = true := by
  cases split <;> simp_all [isMtt, isTernary]

theorem isTu_not_isMtt {split : PartSplit} (h : split.isTu = true) : split.isMtt = false := by
  cases split <;> simp_all [isTu, isSbt, isSbtQuad, isMtt]

theorem eq_quad_of_isCu {split : PartSplit} (h : split.isCu = true) (hm : split.isMtt = false) :
    split = cuQuadSplit := by
  simpa [isCu, hm] using h

end PartSplit

open PartSplit

/-! ## Counters of a stack -/

@[ext] structure Counters where
  depth : Int
  qtDepth : Int
  trDepth : Int
  btDepth : Int
  mtDepth : Int
  subdiv : Int
  implicitBtDepth : Int
deriving DecidableEq

def Partitioner.counters (p : Partitioner) : Counters where
  depth := p.currDepth
  qtDepth := p.currQtDepth
  trDepth := p.currTrDepth
  btDepth := p.currBtDepth
  mtDepth := p.currMtDepth
  subdiv := p.currSubdiv
  implicitBtDepth := p.currImplicitBtDepth

namespace PartLevel

def currArea (l : PartLevel) : UnitArea := l.parts.getD l.idx default

/-- The middle part of a ternary split counts once, the others twice. -/
def btWeight (l : PartLevel) : Int := if l.split.isTernary ∧ l.idx ≠ 1 then 2 else 1

end PartLevel

/-- What the level `l` adds to the counters, split off a part that was split
implicitly or not. -/
def Counters.push (c : Counters) (l : PartLevel) (isImplicit : Bool) : Counters :=
  if l.split.isMtt then
    { c with
      depth := c.depth + 1
      btDepth := c.btDepth + l.btWeight
      mtDepth := c.mtDepth + 1
      subdiv := c.subdiv + l.btWeight
      implicitBtDepth := c.implicitBtDepth + if isImplicit then 1 else 0 }
  else if l.split.isTu then
    { c with depth := c.depth + 1, trDepth := c.trDepth + 1, subdiv := c.subdiv + 1 }
  else { c with depth := c.depth + 1, qtDepth := c.qtDepth + 1, subdiv := c.subdiv + 2 }

theorem PartLevel.btWeight_of_not_ternary {l : PartLevel} (h : l.split.isTernary = false) : l.btWeight = 1 := by
  unfold PartLevel.btWeight
  rw [h]
  exact if_neg fun h => Bool.false_ne_true h.1

theorem Counters.push_congr {l l' : PartLevel} (hs : l'.split = l.split) (hw : l'.btWeight = l.btWeight)
    (c : Counters) (isImplicit : Bool) : c.push l' isImplicit = c.push l isImplicit := by
  unfold Counters.push
  rw [hs, hw]

/-- What a level of the multi-type tree adds. -/
theorem Counters.push_mtt {l : PartLevel} (h : l.split.isMtt = true) (c : Counters) (isImplicit : Bool) :
    c.push l isImplicit = { c with
      depth := c.depth + 1
      btDepth := c.btDepth + l.btWeight
      mtDepth := c.mtDepth + 1
      subdiv := c.subdiv + l.btWeight
      implicitBtDepth := c.implicitBtDepth + if isImplicit then 1 else 0 } := if_pos h

theorem Counters.push_tu {l : PartLevel} (h : l.split.isTu = true) (c : Counters) (isImplicit : Bool) :
    c.push l isImplicit =
      { c with depth := c.depth + 1, trDepth := c.trDepth + 1, subdiv := c.subdiv + 1 } := by
  unfold Counters.push
  rw [isTu_not_isMtt h, if_neg Bool.false_ne_true, if_pos h]

theorem Counters.push_quad {l : PartLevel} (h : l.split = .cuQuadSplit) (c : Counters) (isImplicit : Bool) :
    c.push l isImplicit =
      { c with depth := c.depth + 1, qtDepth := c.qtDepth + 1, subdiv := c.subdiv + 2 } := by
  unfold Counters.push
  rw [h]
  rfl

def countersOf : PartLevel → List PartLevel → Counters
  | _, [] => ⟨0, 0, 0, 0, 0, 0, 0⟩
  | l, b :: below => (countersOf b below).push l b.isImplicit

/-- A cache of the implicit split does not count at the current level. -/
theorem countersOf_congr {l l' : PartLevel} (hs : l'.split = l.split) (hi : l'.idx = l.idx)
    (below : List PartLevel) : countersOf l' below = countersOf l below := by
  cases below with
  | nil => rfl
  | cons b below => simp only [countersOf, Counters.push, PartLevel.btWeight, hs, hi]

structure Counters.Nonneg (c : Counters) : Prop where
  depth : 0 ≤ c.depth
  qtDepth : 0 ≤ c.qtDepth
  trDepth : 0 ≤ c.trDepth
  btDepth : 0 ≤ c.btDepth
  mtDepth : 0 ≤ c.mtDepth
  subdiv : 0 ≤ c.subdiv
  implicitBtDepth : 0 ≤ c.implicitBtDepth

theorem PartLevel.one_le_btWeight (l : PartLevel) : 1 ≤ l.btWeight := by
  unfold PartLevel.btWeight
  split <;> decide

theorem countersOf_nonneg (below : List PartLevel) : ∀ l, (countersOf l below).Nonneg := by
  induction below with
  | nil => intro l; constructor <;> exact le_refl 0
  | cons b below ih =>
    intro l
    obtain ⟨h1, h2, h3, h4, h5, h6, h7⟩ := ih b
    have hw := l.one_le_btWeight
    simp only [countersOf, Counters.push]
    split
    · constructor <;> dsimp only <;> (try split) <;> omega
    · split <;> constructor <;> dsimp only <;> omega

theorem countersOf_depth (below : List PartLevel) : ∀ l, (countersOf l below).depth = below.length := by
  induction below with
  | nil => intro l; rfl
  | cons b below ih =>
    intro l
    have hb := ih b
    simp only [countersOf, Counters.push, List.length_cons, Nat.cast_add, Nat.cast_one]
    split
    · exact congrArg (· + 1) hb
    · split <;> exact congrArg (· + 1) hb

/-! ## The invariant -/

/-- The implicit split of an area reached with the given counters. -/
def implicitFor (cs : CodingStructure) (ch : ChannelType) (area : CompArea) (c : Counters) : PartSplit :=
  let isBlInPic := cs.picture.contains area.bottomLeft
  let isTrInPic := cs.picture.contains area.topRight
  let isBtAllowed : Bool := area.width ≤ cs.maxBtSize ch ∧ area.height ≤ cs.maxBtSize ch ∧
    c.mtDepth < cs.maxBtDepth ch + c.implicitBtDepth
  let isQtAllowed : Bool := area.width > cs.minQtSize ch ∧ area.height > cs.minQtSize ch ∧ c.btDepth = 0
  let split : PartSplit :=
    if !isBlInPic && !isTrInPic && isQtAllowed then .cuQuadSplit
    else if !isBlInPic && isBtAllowed && area.width ≤ MAX_TB_SIZEY then .cuHorzSplit
    else if !isTrInPic && isBtAllowed && area.height ≤ MAX_TB_SIZEY then .cuVertSplit
    else if !isBlInPic || !isTrInPic then .cuQuadSplit
    else .cuDontSplit
  let split :=
    if cs.isDualITree && (area.width > MAX_TB_SIZEY || area.height > MAX_TB_SIZEY) then .cuQuadSplit
    else split
  if (!isBlInPic || !isTrInPic) && split = .cuDontSplit then .cuQuadSplit else split

/-- The whole area lies in the picture. -/
def InPic (cs : CodingStructure) (a : CompArea) : Prop :=
  0 ≤ a.x ∧ 0 ≤ a.y ∧ a.x + a.width ≤ cs.picWidth ∧ a.y + a.height ≤ cs.picHeight

/-- A binary split is within the limits for an area reached with the given counters. -/
def BtAllowed (cs : CodingStructure) (ch : ChannelType) (area : CompArea) (c : Counters) : Prop :=
  area.width ≤ cs.maxBtSize ch ∧ area.height ≤ cs.maxBtSize ch ∧
    c.mtDepth < cs.maxBtDepth ch + c.implicitBtDepth

/-- Luma sides the coding tree can have. -/
def SidesOk (a : CompArea) : Prop := 4 ≤ a.width ∧ a.width ≤ 256 ∧ 4 ≤ a.height ∧ a.height ≤ 256

/-- The parts of a level of the coding tree. -/
structure PartOk (cs : CodingStructure) (ch : ChannelType) (l : PartLevel) (c : Counters) (a : CompArea) :
    Prop where
  sides : SidesOk a
  square : l.split.isQt = true → a.width = a.height
  boundary : l.split.isMtt = true → InPic cs a ∨ BtAllowed cs ch a c

structure LevelOk (cs : CodingStructure) (ch : ChannelType) (l : PartLevel) (below : List PartLevel) :
    Prop where
  cached : l.checkdIfImplicit = true →
    l.implicitSplit = implicitFor cs ch l.currArea.Y (countersOf l below) ∧
      l.isImplicit = decide (l.implicitSplit ≠ .cuDontSplit)
  parts : l.split.isTu = false → ∀ a ∈ l.parts, PartOk cs ch l (countersOf l below) a.Y
  ternary : l.split.isTernary = true → l.parts.length = 3

/-- A level stands on a current part of the level before it. -/
structure Nested (l b : PartLevel) : Prop where
  checked : b.checkdIfImplicit = true
  part : b.idx < b.parts.length
  kind : l.split = .cuQuadSplit ∧ b.split.isQt = true ∨ l.split.isMtt = true ∧ b.split.isTu = false ∨
    l.split.isTu = true

def StackOk (cs : CodingStructure) (ch : ChannelType) : PartLevel → List PartLevel → Prop
  | l, [] => LevelOk cs ch l [] ∧ l.split = .ctuLevel
  | l, b :: below => LevelOk cs ch l (b :: below) ∧ Nested l b ∧ StackOk cs ch b below

/-- The invariant of the partitioner. -/
structure PartitionerOk (cs : CodingStructure) (p : Partitioner) : Prop where
  counters : p.counters = countersOf p.back p.below
  stack : StackOk cs p.chType p.back p.below

variable {cs : CodingStructure} {ch : ChannelType} {l b : PartLevel} {below : List PartLevel}

theorem StackOk.level (h : StackOk cs ch l below) : LevelOk cs ch l below := by
  cases below with
  | nil => exact h.1
  | cons b below => exact h.1

theorem countersOf_mtt {l' : PartLevel} (hs : l'.split = l.split) (below : List PartLevel) :
    (countersOf l' below).mtDepth = (countersOf l below).mtDepth ∧
      (countersOf l' below).implicitBtDepth = (countersOf l below).implicitBtDepth := by
  cases below with
  | nil => exact ⟨rfl, rfl⟩
  | cons b below =>
    simp only [countersOf, Counters.push, hs]
    constructor <;> split <;> rfl

/-- Another current part, or another cache, at the last level. -/
theorem StackOk.replace {l' : PartLevel} (h : StackOk cs ch l below) (hs : l'.split = l.split)
    (hp : l'.parts = l.parts) (hc : l'.checkdIfImplicit = true →
      l'.implicitSplit = implicitFor cs ch l'.currArea.Y (countersOf l' below) ∧
        l'.isImplicit = decide (l'.implicitSplit ≠ .cuDontSplit)) : StackOk cs ch l' below := by
  have hl : LevelOk cs ch l' below := by
    refine ⟨hc, ?_, ?_⟩
    · intro ht a ha
      rw [hs] at ht
      rw [hp] at ha
      obtain ⟨hsides, hsq, hb⟩ := h.level.parts ht a ha
      obtain ⟨hm, hi⟩ := countersOf_mtt hs below
      refine ⟨hsides, hs ▸ hsq, ?_⟩
      unfold BtAllowed at hb ⊢
      rw [hs, hm, hi]
      exact hb
    · rw [hs, hp]
      exact h.level.ternary
  cases below with
  | nil => exact ⟨hl, hs.trans h.2⟩
  | cons b below =>
    obtain ⟨-, hn, hb⟩ := h
    exact ⟨hl, ⟨hn.checked, hn.part, hs ▸ hn.kind⟩, hb⟩

/-- Only quad splits lead to a level that a quad split may start from. -/
theorem StackOk.qt_counters (below : List PartLevel) : ∀ {l}, StackOk cs ch l below →
    l.split.isQt = true → (countersOf l below).btDepth = 0 ∧ (countersOf l below).mtDepth = 0 ∧
      (countersOf l below).implicitBtDepth = 0 ∧ (countersOf l below).trDepth = 0 := by
  induction below with
  | nil => intro l _ _; exact ⟨rfl, rfl, rfl, rfl⟩
  | cons b below ih =>
    intro l h hl
    obtain ⟨-, hn, hb⟩ := h
    rcases hn.kind with ⟨hs, hqt⟩ | ⟨hm, -⟩ | ht
    · have hc := ih hb hqt
      simp only [countersOf, Counters.push, hs, isMtt, isTu, isSbt, isSbtQuad]
      exact hc
    · rw [isMtt_not_isQt hm] at hl
      cases hl
    · rw [isTu_not_isQt ht] at hl
      cases hl

theorem StackOk.kind (h : StackOk cs ch l below) :
    l.split.isQt = true ∨ l.split.isMtt = true ∨ l.split.isTu = true := by
  cases below with
  | nil =>
    rw [h.2]
    exact Or.inl rfl
  | cons b below =>
    rcases h.2.1.kind with ⟨hs, -⟩ | ⟨hm, -⟩ | ht
    · rw [hs]
      exact Or.inl rfl
    · exact Or.inr (Or.inl hm)
    · exact Or.inr (Or.inr ht)

/-- Below a multi-type level the binary depth is positive. -/
theorem StackOk.one_le_btDepth (h : StackOk cs ch l below) (hm : l.split.isMtt = true) :
    1 ≤ (countersOf l below).btDepth := by
  cases below with
  | nil =>
    rw [h.2] at hm
    cases hm
  | cons b below =>
    have hw := l.one_le_btWeight
    have hb := (countersOf_nonneg below b).btDepth
    simp only [countersOf, Counters.push, hm, if_true]
    omega

/-- No transform split is below a level of the coding tree. -/
theorem StackOk.cu_trDepth (below : List PartLevel) : ∀ {l}, StackOk cs ch l below →
    l.split.isTu = false → (countersOf l below).trDepth = 0 := by
  induction below with
  | nil => intro l _ _; rfl
  | cons b below ih =>
    intro l h hl
    obtain ⟨hlev, hn, hb⟩ := h
    rcases hn.kind with ⟨hs, hqt⟩ | ⟨hm, ht⟩ | ht
    · exact (StackOk.qt_counters (b :: below) (l := l) ⟨hlev, hn, hb⟩ (by rw [hs]; rfl)).2.2.2
    · have hc := ih hb ht
      simp only [countersOf, Counters.push, hm, if_true]
      exact hc
    · rw [ht] at hl
      cases hl

/-! ## Parts of the coding splits -/

theorem mapM_check_eq_ok {α β : Type} {f : α → β} {bad : α → Bool} {msg : String} :
    ∀ {xs : List α} {ys : List β},
    (xs.mapM fun i => do check (bad i) msg; return f i : Checked (List β)) = .ok ys ↔
      ys = xs.map f ∧ ∀ i ∈ xs, bad i = false := by
  intro xs
  induction xs with
  | nil =>
    intro ys
    simp only [List.mapM_nil, List.map_nil, List.not_mem_nil, false_implies, implies_true, and_true]
    exact ⟨fun h => (Except.ok.inj h).symm, fun h => h ▸ rfl⟩
  | cons x xs ih =>
    intro ys
    rw [List.mapM_cons, List.map_cons, List.forall_mem_cons]
    cases hx : bad x with
    | true =>
      rw [check_error msg rfl, error_bind, error_bind]
      exact ⟨fun h => (by cases h), fun h => by cases h.2.1⟩
    | false =>
      rw [check_ok msg Bool.false_ne_true, ok_bind, pure_bind]
      constructor
      · intro h
        obtain ⟨ys', h', hys⟩ := bind_eq_ok h
        obtain ⟨rfl, hbad⟩ := ih.mp h'
        exact ⟨(Except.ok.inj hys).symm, rfl, hbad⟩
      · rintro ⟨rfl, -, hbad⟩
        rw [ih.mpr ⟨rfl, hbad⟩]
        rfl

theorem subPartitions_eq_ok {n : Nat} {sub : Nat → UnitArea} {tooSmall : UnitArea → Bool} {msg : String}
    {parts : List UnitArea} : subPartitions n sub tooSmall msg = .ok parts ↔
      parts = (List.range n).map sub ∧ ∀ i < n, tooSmall (sub i) = false := by
  unfold subPartitions
  rw [mapM_check_eq_ok]
  simp only [List.mem_range]

/-- The block a coding split makes of a block. -/
def cuBlock (split : PartSplit) (i : Nat) : CompArea → CompArea :=
  match split with
  | .cuHorzSplit => horzBlock i
  | .cuVertSplit => vertBlock i
  | .cuTriHSplit => triHBlock i
  | .cuTriVSplit => triVBlock i
  | _ => quadBlock i

/-- How many parts a coding split has. -/
def cuParts (split : PartSplit) : Nat :=
  if split = .cuQuadSplit then 4 else if split.isTernary then 3 else 2

/-- The side a coding split checks. -/
def cuSide (split : PartSplit) (a : CompArea) : Nat :=
  if split = .cuVertSplit ∨ split = .cuTriVSplit then a.width else a.height

theorem splitParts_cu {p : Partitioner} {split : PartSplit} (hs : split.isCu = true)
    {parts : List UnitArea} : p.splitParts cs split = .ok parts ↔
      parts = (List.range (cuParts split)).map (fun i => p.currArea.mapBlocks (cuBlock split i)) ∧
        ∀ i < cuParts split, 4 ≤ cuSide split (cuBlock split i p.currArea.Y) := by
  cases split <;> first
    | exact absurd hs Bool.false_ne_true
    | (simp only [Partitioner.splitParts, getCUSubPartitions, subPartitions_eq_ok, cuBlock, cuSide,
        cuParts, isTernary, reduceCtorEq, if_false, if_true, or_self, or_true,
        true_or, Bool.false_eq_true]
       refine and_congr_right fun _ => forall₂_congr fun i _ => ?_
       exact decide_eq_false_iff_not.trans not_lt)

theorem triOffset_add_triSide_le {i : Nat} (hi : i < 3) (side : Nat) :
    triOffset i side + triSide i side ≤ side := by
  interval_cases i <;> simp [triOffset, triSide, Nat.shiftRight_eq_div_pow] <;> omega

/-- A part of a binary or ternary split lies within the area that is split. -/
theorem cuBlock_subset {split : PartSplit} (hs : split.isMtt = true) {i : Nat} (hi : i < cuParts split)
    (a : CompArea) : a.x ≤ (cuBlock split i a).x ∧ a.y ≤ (cuBlock split i a).y ∧
      (cuBlock split i a).x + (cuBlock split i a).width ≤ a.x + a.width ∧
      (cuBlock split i a).y + (cuBlock split i a).height ≤ a.y + a.height := by
  have hbin (side : Nat) : side >>> 1 = side / 2 := Nat.shiftRight_eq_div_pow side 1
  cases split <;> first
    | exact absurd hs Bool.false_ne_true
    | (have htri := triOffset_add_triSide_le (show i < 3 from hi)
       have hw := htri a.width
       have hh := htri a.height
       simp only [cuBlock, triHBlock, triVBlock]
       omega)
    | (simp only [cuBlock, horzBlock, vertBlock, hbin]
       split <;> omega)

/-! ## The implicit split -/

theorem contains_corners_iff {a : CompArea} (hs : SidesOk a) :
    (cs.picture.contains a.bottomLeft = true ∧ cs.picture.contains a.topRight = true) ↔ InPic cs a := by
  obtain ⟨h1, -, h2, -⟩ := hs
  rw [CompArea.contains_iff, CompArea.contains_iff]
  simp only [CodingStructure.picture, CompArea.bottomLeft, CompArea.topRight, InPic]
  omega

/-- An area of the coding tree is split implicitly exactly when it is not in the
picture, and by a binary split where these are allowed, unless a quad split is. -/
theorem implicitFor_cases (ch : ChannelType) (c : Counters) {a : CompArea} (hs : SidesOk a) :
    InPic cs a ∧ implicitFor cs ch a c = .cuDontSplit ∨
      ¬InPic cs a ∧ implicitFor cs ch a c = .cuQuadSplit ∧ (c.btDepth = 0 ∨ ¬BtAllowed cs ch a c) ∨
      cs.picture.contains a.bottomLeft = false ∧ implicitFor cs ch a c = .cuHorzSplit ∧ BtAllowed cs ch a c ∨
      cs.picture.contains a.topRight = false ∧ implicitFor cs ch a c = .cuVertSplit ∧ BtAllowed cs ch a c := by
  have hin : _ ↔ InPic cs a := contains_corners_iff hs
  obtain ⟨-, hw, -, hh⟩ := hs
  have hw' : ¬a.width > MAX_TB_SIZEY := not_lt.mpr hw
  have hh' : ¬a.height > MAX_TB_SIZEY := not_lt.mpr hh
  have hw'' : a.width ≤ MAX_TB_SIZEY := hw
  have hh'' : a.height ≤ MAX_TB_SIZEY := hh
  rw [← hin]
  unfold implicitFor BtAllowed
  generalize cs.picture.contains a.bottomLeft = bl
  generalize cs.picture.contains a.topRight = tr
  generalize hbt : decide (a.width ≤ cs.maxBtSize ch ∧ a.height ≤ cs.maxBtSize ch ∧
    c.mtDepth < cs.maxBtDepth ch + c.implicitBtDepth) = bt
  generalize hqt : decide (a.width > cs.minQtSize ch ∧ a.height > cs.minQtSize ch ∧ c.btDepth = 0) = qt
  simp only [hw', hh', hw'', hh'', decide_false, decide_true, Bool.or_self, Bool.and_false,
    Bool.false_eq_true, if_false, Bool.and_true]
  cases bl <;> cases tr <;> cases bt <;> cases qt <;> simp_all

theorem InPic.mono {a a' : CompArea} (h : InPic cs a) (hx : a.x ≤ a'.x) (hy : a.y ≤ a'.y)
    (hw : a'.x + a'.width ≤ a.x + a.width) (hh : a'.y + a'.height ≤ a.y + a.height) : InPic cs a' := by
  obtain ⟨h1, h2, h3, h4⟩ := h
  exact ⟨h1.trans hx, h2.trans hy, hw.trans h3, hh.trans h4⟩

theorem inPic_of_implicitFor {a : CompArea} {c : Counters} (hs : SidesOk a)
    (h : implicitFor cs ch a c = .cuDontSplit) : InPic cs a := by
  rcases implicitFor_cases ch c hs with ⟨hin, -⟩ | ⟨-, hi, -⟩ | ⟨-, hi, -⟩ | ⟨-, hi, -⟩
  · exact hin
  all_goals
    rw [hi] at h
    cases h

theorem btAllowed_of_implicitFor {a : CompArea} {c : Counters} (hs : SidesOk a)
    (h : (implicitFor cs ch a c).isMtt = true) : BtAllowed cs ch a c := by
  rcases implicitFor_cases ch c hs with ⟨-, hi⟩ | ⟨-, hi, -⟩ | ⟨-, -, hbt⟩ | ⟨-, -, hbt⟩
  · rw [hi] at h
    cases h
  · rw [hi] at h
    cases h
  · exact hbt
  · exact hbt

/-! ## What the operations do -/

namespace Partitioner

variable {p q : Partitioner} {split : PartSplit}

/-- The implicit split of the current area. -/
def implicit (cs : CodingStructure) (p : Partitioner) : PartSplit :=
  implicitFor cs p.chType p.currArea.Y p.counters

/-- The state once the implicit split has been looked up. -/
def looked (cs : CodingStructure) (p : Partitioner) : Partitioner := p.cacheImplicitSplit (p.implicit cs)

theorem getImplicitSplit_eq (hp : PartitionerOk cs p) :
    p.getImplicitSplit cs = (p.implicit cs, p.looked cs) := by
  unfold getImplicitSplit
  split
  · rename_i h
    obtain ⟨hi, him⟩ := hp.stack.level.cached h
    have hi' : p.back.implicitSplit = p.implicit cs := by
      rw [hi, ← hp.counters]
      rfl
    rw [← hi']
    refine Prod.ext rfl ?_
    unfold looked cacheImplicitSplit
    rw [← hi', ← him, ← h]
  · rfl

@[simp] theorem looked_below : (p.looked cs).below = p.below := rfl
@[simp] theorem looked_chType : (p.looked cs).chType = p.chType := rfl
@[simp] theorem looked_currArea : (p.looked cs).currArea = p.currArea := rfl
@[simp] theorem looked_counters : (p.looked cs).counters = p.counters := rfl
@[simp] theorem looked_split : (p.looked cs).back.split = p.back.split := rfl
@[simp] theorem looked_parts : (p.looked cs).back.parts = p.back.parts := rfl
@[simp] theorem looked_idx : (p.looked cs).back.idx = p.back.idx := rfl
@[simp] theorem looked_checked : (p.looked cs).back.checkdIfImplicit = true := rfl
@[simp] theorem looked_implicit : (p.looked cs).implicit cs = p.implicit cs := rfl

theorem looked_isImplicit :
    (p.looked cs).back.isImplicit = decide (p.implicit cs ≠ .cuDontSplit) := rfl

theorem looked_ok (hp : PartitionerOk cs p) : PartitionerOk cs (p.looked cs) := by
  have hc : countersOf (p.looked cs).back (p.looked cs).below = countersOf p.back p.below :=
    countersOf_congr looked_split looked_idx p.below
  refine ⟨hp.counters.trans hc.symm, hp.stack.replace rfl rfl fun _ => ⟨?_, rfl⟩⟩
  rw [countersOf_congr (l := p.back) looked_split looked_idx, ← hp.counters]
  rfl

theorem looked_looked (hp : PartitionerOk cs p) :
    (p.looked cs).getImplicitSplit cs = (p.implicit cs, p.looked cs) := by
  rw [getImplicitSplit_eq (looked_ok hp)]
  rfl

/-- The answer of `canSplit`. -/
def admits (cs : CodingStructure) (p : Partitioner) (split : PartSplit) : Bool :=
  let flags := p.splitFlags cs (p.implicit cs)
  match split with
  | .cuQuadSplit => flags.canQt
  | .cuHorzSplit => flags.canBh
  | .cuVertSplit => flags.canBv
  | .cuTriHSplit => flags.canTh
  | .cuTriVSplit => flags.canTv
  | .tuMaxTrSplit => p.currArea.Y.width > cs.maxTbSize || p.currArea.Y.height > cs.maxTbSize
  | _ => p.currTrDepth = 0

theorem canSplit_eq (hp : PartitionerOk cs p) (hs : split.isCu = true ∨ split.isTu = true) :
    p.canSplit cs split = .ok (p.admits cs split, p.looked cs) := by
  unfold canSplit
  rw [getImplicitSplit_eq hp]
  cases split <;> first
    | rfl
    | exact absurd hs (by decide)

@[simp] theorem looked_admits : (p.looked cs).admits cs split = p.admits cs split := rfl

theorem flags_canQt {i : PartSplit} (h : (p.splitFlags cs i).canQt = true) :
    p.back.split.isQt = true ∨ i ≠ .cuDontSplit ∧ i ≠ .cuHorzSplit ∧ i ≠ .cuVertSplit := by
  unfold splitFlags at h
  by_cases hq : p.back.split.isQt = true
  · exact Or.inl hq
  · right
    have hl : p.back.split ≠ .ctuLevel ∧ p.back.split ≠ .cuQuadSplit := by
      simpa [isQt] using hq
    by_cases hi : i = .cuDontSplit
    · simp only [hi, ne_eq, not_true_eq_false, if_false, hl.1, hl.2, not_false_eq_true, decide_true,
        Bool.and_self, Bool.not_true, Bool.false_and] at h
      split at h <;> cases h
    · simp only [ne_eq, hi, not_false_eq_true, if_true, hl.1, hl.2, decide_true, Bool.and_self,
        Bool.not_true, Bool.false_and, Bool.false_or, Bool.and_eq_true, Bool.not_eq_true',
        decide_eq_false_iff_not] at h
      exact ⟨hi, h⟩

/-- A multi-type split is admitted only where none or it is forced. -/
theorem mtt_of_admits (hs : split.isMtt = true) (h : p.admits cs split = true) :
    p.implicit cs = .cuDontSplit ∨ p.implicit cs = split := by
  by_cases hi : p.implicit cs = .cuDontSplit
  · exact Or.inl hi
  · right
    unfold admits splitFlags at h
    cases split <;> first
      | exact absurd hs Bool.false_ne_true
      | (simp only [ne_eq, hi, not_false_eq_true, if_true, decide_eq_true_eq,
          Bool.false_eq_true] at h <;> exact h)

/-- The current part, in a level of the coding tree. -/
theorem currPart (hp : PartitionerOk cs p) (hpart : p.back.idx < p.back.parts.length)
    (hcu : p.back.split.isTu = false) : PartOk cs p.chType p.back p.counters p.currArea.Y := by
  have hmem : p.currArea ∈ p.back.parts := by
    have hget : p.currArea = p.back.parts[p.back.idx] :=
      (List.getElem_eq_getD default).symm
    rw [hget]
    exact List.getElem_mem hpart
  rw [hp.counters]
  exact hp.stack.level.parts hcu _ hmem

/-- A quad split admitted in the coding tree starts from a quad level. -/
theorem qt_of_admits (hp : PartitionerOk cs p) (hpart : p.back.idx < p.back.parts.length)
    (hcu : p.back.split.isTu = false) (h : p.admits cs .cuQuadSplit = true) :
    p.back.split.isQt = true := by
  rcases flags_canQt h with hq | ⟨hd, hh, hv⟩
  · exact hq
  · rcases hp.stack.kind with hq | hm | ht
    · exact hq
    · have hone := hp.stack.one_le_btDepth hm
      rw [← hp.counters] at hone
      obtain ⟨hsides, -, hb⟩ := currPart hp hpart hcu
      rcases @implicitFor_cases cs p.chType p.counters _ hsides with
        ⟨-, hi⟩ | ⟨hn, -, hbt⟩ | ⟨-, hi, -⟩ | ⟨-, hi, -⟩
      · exact absurd hi hd
      · rcases hbt with hzero | hnot
        · omega
        · exact ((hb hm).elim hn hnot).elim
      · exact absurd hi hh
      · exact absurd hi hv
    · rw [ht] at hcu
      cases hcu

/-! ## Entering a split -/

/-- The state after entering `split` with the given parts. -/
structure Entered (cs : CodingStructure) (p : Partitioner) (split : PartSplit) (parts : List UnitArea)
    (q : Partitioner) : Prop where
  below : q.below = (p.looked cs).back :: p.below
  split : q.back.split = split
  parts : q.back.parts = parts
  idx : q.back.idx = 0
  unchecked : q.back.checkdIfImplicit = false
  chType : q.chType = p.chType
  counters : q.counters = countersOf q.back q.below

/-- The flag that counts an implicit split on the way in is the one that
uncounts it on the way out. -/
theorem decide_implicit (hm : split.isMtt = true) (h : p.admits cs split = true) :
    decide (split = p.implicit cs) = (p.looked cs).back.isImplicit := by
  rw [looked_isImplicit]
  rcases mtt_of_admits hm h with hi | hi <;> rw [hi]
  · cases split <;> first | rfl | exact absurd hm Bool.false_ne_true
  · cases split <;> first | rfl | exact absurd hm Bool.false_ne_true

/-- A quad split from a quad level finds the counters it checks at zero. -/
theorem countQuad_spec (hp : PartitionerOk cs p) (hqt : p.back.split.isQt = true)
    (isImplicit canQtSplit : Bool) (parts : List UnitArea) :
    ∃ r, ((p.looked cs).pushLevel .cuQuadSplit parts).countSplit .cuQuadSplit isImplicit canQtSplit = .ok r ∧
      Entered cs p .cuQuadSplit parts r := by
  obtain ⟨h1, h2, h3, h4, h5, h6, h7⟩ := Counters.ext_iff.mp hp.counters
  simp only [Partitioner.counters] at h1 h2 h3 h4 h5 h6 h7
  have hlook : countersOf (p.looked cs).back p.below = countersOf p.back p.below :=
    countersOf_congr looked_split looked_idx p.below
  obtain ⟨hbt, hmt, -, htr⟩ := hp.stack.qt_counters _ hqt
  have hb : ¬((p.looked cs).pushLevel .cuQuadSplit parts).currBtDepth > 0 :=
    (h4.trans hbt).not_gt
  have hm' : ¬((p.looked cs).pushLevel .cuQuadSplit parts).currMtDepth > 0 :=
    (h5.trans hmt).not_gt
  unfold countSplit
  rw [if_neg (by decide), if_pos rfl, check_ok _ hb, ok_bind, check_ok _ hm', ok_bind]
  refine ⟨_, rfl, rfl, rfl, rfl, rfl, rfl, rfl, ?_⟩
  show _ = countersOf _ ((p.looked cs).back :: p.below)
  simp only [countersOf, Counters.push, hlook, Partitioner.counters, pushLevel, PartLevel.ofParts, isMtt, isTu,
    isSbt, isSbtQuad, reduceCtorEq, decide_false, Bool.or_self, Bool.false_eq_true, if_false, ← h1, ← h2, hbt, hmt,
    htr, ← h6, ← h7, add_assoc]
  rfl

/-- The counters after a split are those of the stack it leaves. -/
theorem countSplit_spec (hp : PartitionerOk cs p) (hs : split.isCu = true ∨ split.isTu = true)
    (hpart : p.back.idx < p.back.parts.length)
    (hcu : split.isCu = true → p.back.split.isTu = false) (h : p.admits cs split = true)
    (canQtSplit : Bool) (parts : List UnitArea) :
    ∃ r, ((p.looked cs).pushLevel split parts).countSplit split (decide (split = p.implicit cs))
      canQtSplit = .ok r ∧ Entered cs p split parts r := by
  have hc := hp.counters
  obtain ⟨h1, h2, h3, h4, h5, h6, h7⟩ := Counters.ext_iff.mp hc
  simp only [Partitioner.counters] at h1 h2 h3 h4 h5 h6 h7
  have hlook : countersOf (p.looked cs).back p.below = countersOf p.back p.below :=
    countersOf_congr looked_split looked_idx p.below
  unfold countSplit
  cases hm : split.isMtt with
  | true =>
    have htr := hp.stack.cu_trDepth _ (hcu (by simp [isCu, hm]))
    rw [decide_implicit hm h]
    refine ⟨_, if_pos rfl, rfl, rfl, rfl, rfl, rfl, rfl, ?_⟩
    show _ = countersOf _ ((p.looked cs).back :: p.below)
    have hw : (if split.isTernary = true then (2 : Int) else 1) =
        1 + if split.isTernary = true then 1 else 0 := by split <;> rfl
    simp only [countersOf, Counters.push, hlook, Partitioner.counters, pushLevel, PartLevel.ofParts,
      PartLevel.btWeight, hm, isMtt_not_isTu hm, if_true, Bool.false_eq_true, if_false, hw, ← h1, ← h2, ← h4,
      ← h5, ← h6, ← h7, htr, ne_eq, Nat.zero_ne_one, not_false_eq_true, and_true, add_assoc]
    rfl
  | false =>
    cases ht : split.isTu with
    | true =>
      have hq : split ≠ .cuQuadSplit := by
        intro hq
        rw [hq] at ht
        cases ht
      rw [if_neg Bool.false_ne_true, if_neg hq]
      refine ⟨_, rfl, rfl, rfl, rfl, rfl, rfl, rfl, ?_⟩
      show _ = countersOf _ ((p.looked cs).back :: p.below)
      simp only [countersOf, Counters.push, hlook, Partitioner.counters, pushLevel, PartLevel.ofParts, hm, ht,
        if_true, Bool.false_eq_true, if_false, ← h1, ← h2, ← h3, ← h4, ← h5, ← h6, ← h7]
      rfl
    | false =>
      have hcu' : split.isCu = true := hs.resolve_right (by rw [ht]; exact Bool.false_ne_true)
      obtain rfl := eq_quad_of_isCu hcu' hm
      have hquad := countQuad_spec hp (qt_of_admits hp hpart (hcu hcu') h) (decide (.cuQuadSplit = p.implicit cs))
        canQtSplit parts
      unfold countSplit at hquad
      exact hquad

theorem Entered.enterQg {parts : List UnitArea} (h : Entered cs p split parts q) (qg qgChroma : Bool) :
    Entered cs p split parts (q.enterQg cs qg qgChroma) := by
  obtain ⟨h1, h2, h3, h4, h5, h6, h7⟩ := h
  exact ⟨h1, h2, h3, h4, h5, h6, h7.trans (countersOf_congr (by rfl) (by rfl) q.below).symm⟩

/-- The splits a level is entered by: those admitted, and a quad split from a
quad level in any case. -/
def Enters (cs : CodingStructure) (p : Partitioner) (split : PartSplit) : Prop :=
  p.admits cs split = true ∨ split = .cuQuadSplit ∧ p.back.split.isQt = true

/-- Without the check of debug builds, too, a split fails only in making its parts. -/
theorem splitCurrAreaNDebug_eq (hp : PartitionerOk cs p) (hs : split.isCu = true ∨ split.isTu = true)
    (hpart : p.back.idx < p.back.parts.length)
    (hcu : split.isCu = true → p.back.split.isTu = false) (h : Enters cs p split) :
    ∃ f : List UnitArea → Partitioner,
      p.splitCurrAreaNDebug cs split = (p.splitParts cs split >>= fun parts => .ok (f parts)) ∧
        ∀ parts, Entered cs p split parts (f parts) := by
  have hq : (p.looked cs).canSplit cs .cuQuadSplit = .ok (p.admits cs .cuQuadSplit, p.looked cs) :=
    canSplit_eq (looked_ok hp) (Or.inl rfl)
  have hcount : ∀ parts, ∃ r, ((p.looked cs).pushLevel split parts).countSplit split
      (decide (split = p.implicit cs)) (p.admits cs .cuQuadSplit) = .ok r ∧ Entered cs p split parts r := by
    rcases h with h | ⟨rfl, hqt⟩
    · exact countSplit_spec hp hs hpart hcu h _
    · exact countQuad_spec hp hqt _ _
  choose f hf hE using hcount
  refine ⟨fun parts => (f parts).enterQg cs p.back.qgEnable p.back.qgChromaEnable, ?_,
    fun parts => (hE parts).enterQg _ _⟩
  unfold splitCurrAreaNDebug isSplitImplicit
  rw [getImplicitSplit_eq hp]
  dsimp only
  rw [hq, ok_bind]
  dsimp only
  refine congrArg (p.splitParts cs split >>= ·) (funext fun parts => ?_)
  rw [hf parts, ok_bind]
  rfl

/-- An admitted split fails only in making its parts. -/
theorem splitCurrArea_eq (hp : PartitionerOk cs p) (hs : split.isCu = true ∨ split.isTu = true)
    (hpart : p.back.idx < p.back.parts.length)
    (hcu : split.isCu = true → p.back.split.isTu = false) (h : p.admits cs split = true) :
    ∃ f : List UnitArea → Partitioner,
      p.splitCurrArea cs split = (p.splitParts cs split >>= fun parts => .ok (f parts)) ∧
        ∀ parts, Entered cs p split parts (f parts) := by
  obtain ⟨f, hf, hE⟩ := splitCurrAreaNDebug_eq (looked_ok hp) hs hpart hcu (Or.inl h)
  refine ⟨f, ?_, fun parts => ?_⟩
  · refine Eq.trans ?_ hf
    unfold splitCurrArea
    rw [canSplit_eq hp hs, ok_bind]
    dsimp only
    rw [h, check_ok _ (by decide), ok_bind]
    rfl
  · obtain ⟨h1, h2, h3, h4, h5, h6, h7⟩ := hE parts
    exact ⟨h1, h2, h3, h4, h5, h6, h7⟩

/-- A split that is not admitted is refused. -/
theorem splitCurrArea_refused (hp : PartitionerOk cs p) (hs : split.isCu = true ∨ split.isTu = true)
    (h : p.admits cs split = false) :
    p.splitCurrArea cs split = .error "Trying to apply a prohibited split!" := by
  unfold splitCurrArea
  rw [canSplit_eq hp hs, ok_bind]
  dsimp only
  rw [h, check_error _ (by decide), error_bind]

/-- A split that was entered was admitted. -/
theorem splitCurrArea_ok (hp : PartitionerOk cs p) (hs : split.isCu = true ∨ split.isTu = true)
    (hpart : p.back.idx < p.back.parts.length) (hcu : split.isCu = true → p.back.split.isTu = false)
    (h : p.splitCurrArea cs split = .ok q) :
    p.admits cs split = true ∧ ∃ parts, p.splitParts cs split = .ok parts ∧ Entered cs p split parts q := by
  cases hadm : p.admits cs split with
  | false =>
    rw [splitCurrArea_refused hp hs hadm] at h
    cases h
  | true =>
    obtain ⟨f, hf, hE⟩ := splitCurrArea_eq hp hs hpart hcu hadm
    rw [h] at hf
    obtain ⟨parts, hparts, hf⟩ := bind_eq_ok hf.symm
    cases hf
    exact ⟨rfl, parts, hparts, hE parts⟩

/-! ## The parts keep the invariant -/

theorem cuBlock_quad {i : Nat} (a : CompArea) : (cuBlock .cuQuadSplit i a).width = a.width / 2 ∧
    (cuBlock .cuQuadSplit i a).height = a.height / 2 :=
  ⟨Nat.shiftRight_eq_div_pow a.width 1, Nat.shiftRight_eq_div_pow a.height 1⟩

/-- The sides of a part of a coding split, with the one the split checks. -/
theorem cuBlock_sides {a : CompArea} (ha : SidesOk a) (hs : split.isMtt = true) {i : Nat}
    (hi : i < cuParts split) (hside : 4 ≤ cuSide split (cuBlock split i a)) :
    SidesOk (cuBlock split i a) := by
  obtain ⟨h1, h2, h3, h4⟩ := ha
  obtain ⟨hx, hy, hw, hh⟩ := cuBlock_subset hs hi a
  unfold SidesOk
  cases split <;> first
    | exact absurd hs Bool.false_ne_true
    | (simp only [cuSide, cuBlock, horzBlock, vertBlock, triHBlock, triVBlock, reduceCtorEq, or_self,
        or_true, true_or, if_true, if_false] at *
       omega)

/-- A part of a multi-type split is in the picture, or may be split further by
binary splits. -/
theorem mtt_boundary (hp : PartitionerOk cs p) (hpart : p.back.idx < p.back.parts.length)
    (hcu : p.back.split.isTu = false) (hm : split.isMtt = true) (h : p.admits cs split = true)
    {parts : List UnitArea} (hE : Entered cs p split parts q) {i : Nat} (hi : i < cuParts split) :
    InPic cs (cuBlock split i p.currArea.Y) ∨
      BtAllowed cs p.chType (cuBlock split i p.currArea.Y) (countersOf q.back q.below) := by
  have hsides := (currPart hp hpart hcu).sides
  obtain ⟨hx, hy, hw, hh⟩ := cuBlock_subset hm hi p.currArea.Y
  rcases mtt_of_admits hm h with himp | himp
  · exact Or.inl ((inPic_of_implicitFor hsides himp).mono hx hy hw hh)
  · right
    have hall : BtAllowed cs p.chType p.currArea.Y p.counters :=
      btAllowed_of_implicitFor hsides (by rw [show implicitFor _ _ _ _ = split from himp]; exact hm)
    obtain ⟨h1, h2, h3⟩ := hall
    have hflag : (p.looked cs).back.isImplicit = true := by
      rw [← decide_implicit hm h, himp]
      exact decide_eq_true rfl
    have hlook : countersOf (p.looked cs).back p.below = p.counters :=
      (countersOf_congr (l := p.back) looked_split looked_idx p.below).trans hp.counters.symm
    have hcnt : (countersOf q.back q.below).mtDepth = p.counters.mtDepth + 1 ∧
        (countersOf q.back q.below).implicitBtDepth = p.counters.implicitBtDepth + 1 := by
      rw [hE.below, countersOf, Counters.push, hE.split, hm, hflag, hlook]
      exact ⟨rfl, rfl⟩
    refine ⟨?_, ?_, ?_⟩
    · omega
    · omega
    · omega

theorem Enters.admits (h : Enters cs p split) (hm : split.isMtt = true) : p.admits cs split = true := by
  rcases h with h | ⟨rfl, -⟩
  · exact h
  · cases hm

theorem Enters.isQt (h : Enters cs p .cuQuadSplit) (hp : PartitionerOk cs p)
    (hpart : p.back.idx < p.back.parts.length) (hcu : p.back.split.isTu = false) : p.back.split.isQt = true := by
  rcases h with h | ⟨-, h⟩
  · exact qt_of_admits hp hpart hcu h
  · exact h

/-- The invariant after a level is entered. -/
theorem Enters.ok (h : Enters cs p split) (hp : PartitionerOk cs p) (hs : split.isCu = true ∨ split.isTu = true)
    (hpart : p.back.idx < p.back.parts.length) (hcu : split.isCu = true → p.back.split.isTu = false)
    {parts : List UnitArea} (hparts : p.splitParts cs split = .ok parts) (hE : Entered cs p split parts q) :
    PartitionerOk cs q := by
  refine ⟨hE.counters, ?_⟩
  rw [hE.below, hE.chType]
  refine ⟨?_, ?_, (looked_ok hp).stack⟩
  · rw [← hE.below]
    have hcu' (ht : q.back.split.isTu = false) : split.isCu = true :=
      hs.resolve_right (by rw [hE.split] at ht; rw [ht]; exact Bool.false_ne_true)
    refine ⟨fun hc => ?_, fun ht a ha => ?_, fun ht => ?_⟩
    · rw [hE.unchecked] at hc
      cases hc
    · obtain ⟨rfl, hside⟩ := (splitParts_cu (hcu' ht)).mp hparts
      rw [hE.parts] at ha
      obtain ⟨i, hi, rfl⟩ := List.mem_map.mp ha
      have hi := List.mem_range.mp hi
      have hcur := currPart hp hpart (hcu (hcu' ht))
      rw [UnitArea.mapBlocks_Y]
      cases hm : split.isMtt with
      | true =>
        refine ⟨cuBlock_sides hcur.sides hm hi (hside i hi), fun hq => ?_, fun _ => ?_⟩
        · rw [hE.split, isMtt_not_isQt hm] at hq
          cases hq
        · exact mtt_boundary hp hpart (hcu (hcu' ht)) hm (h.admits hm) hE hi
      | false =>
        obtain rfl := eq_quad_of_isCu (hcu' ht) hm
        obtain ⟨hw, hh⟩ := cuBlock_quad (i := i) p.currArea.Y
        have hsq := hcur.square (h.isQt hp hpart (hcu rfl))
        obtain ⟨h1, h2, h3, h4⟩ := hcur.sides
        have h5 : 4 ≤ (cuBlock .cuQuadSplit i p.currArea.Y).height := hside i hi
        refine ⟨?_, fun _ => by rw [hw, hh, hsq], fun hm' => ?_⟩
        · unfold SidesOk
          omega
        · rw [hE.split, hm] at hm'
          cases hm'
    · rw [hE.split] at ht
      have hcu'' : split.isCu = true := by simp [isCu, isTernary_isMtt ht]
      obtain ⟨rfl, -⟩ := (splitParts_cu hcu'').mp hparts
      rw [hE.parts, List.length_map, List.length_range]
      cases split <;> first | rfl | exact absurd ht Bool.false_ne_true
  · refine ⟨rfl, hpart, ?_⟩
    rw [hE.split, looked_split]
    rcases hs with hc | ht
    · cases hm : split.isMtt with
      | true => exact Or.inr (Or.inl ⟨rfl, hcu hc⟩)
      | false =>
        obtain rfl := eq_quad_of_isCu hc hm
        exact Or.inl ⟨rfl, h.isQt hp hpart (hcu hc)⟩
    · exact Or.inr (Or.inr ht)

theorem entered_ok (hp : PartitionerOk cs p) (hs : split.isCu = true ∨ split.isTu = true)
    (hpart : p.back.idx < p.back.parts.length)
    (hcu : split.isCu = true → p.back.split.isTu = false) (h : p.admits cs split = true)
    {parts : List UnitArea} (hparts : p.splitParts cs split = .ok parts) (hE : Entered cs p split parts q) :
    PartitionerOk cs q :=
  Enters.ok (Or.inl h) hp hs hpart hcu hparts hE

/-! ## Moving to the next part and leaving -/

theorem countPart_fields (p : Partitioner) (i : Nat) :
    (p.countPart i).back = p.back ∧ (p.countPart i).below = p.below ∧ (p.countPart i).chType = p.chType := by
  unfold countPart
  split
  · split <;> exact ⟨rfl, rfl, rfl⟩
  · exact ⟨rfl, rfl, rfl⟩

/-- Only a ternary level counts differently from part to part. -/
theorem countPart_counters (hp : PartitionerOk cs p) (hbelow : p.below ≠ [])
    (hpart : p.back.idx + 1 < p.back.parts.length) :
    (p.advance.countPart (p.back.idx + 1)).counters = countersOf p.advance.back p.below := by
  obtain ⟨b, below, hb⟩ := List.exists_cons_of_ne_nil hbelow
  have hc := hp.counters
  rw [hb, countersOf] at hc
  rw [hb, countersOf]
  unfold countPart
  cases ht : p.back.split.isTernary with
  | false =>
    rw [if_neg (show ¬p.advance.back.split.isTernary = true from fun h => by
      rw [show p.advance.back.split = p.back.split from rfl, ht] at h; cases h)]
    refine Eq.trans hc (Eq.symm ?_)
    refine Counters.push_congr (by rfl) ?_ _ _
    rw [PartLevel.btWeight_of_not_ternary ht, PartLevel.btWeight_of_not_ternary]
    exact ht
  | true =>
    have hlen := hp.stack.level.ternary ht
    have hm := isTernary_isMtt ht
    rw [if_pos (show p.advance.back.split.isTernary = true from ht),
      Counters.push_mtt (show p.advance.back.split.isMtt = true from hm)]
    rw [Counters.push_mtt hm] at hc
    obtain ⟨h1, h2, h3, h4, h5, h6, h7⟩ := Counters.ext_iff.mp hc
    have hw : p.back.btWeight = if p.back.idx = 1 then 1 else 2 := by
      simp only [PartLevel.btWeight, ht, true_and, ite_not]
    have hw' : p.advance.back.btWeight = if p.back.idx = 0 then 1 else 2 := by
      simp only [PartLevel.btWeight, advance, ht, true_and, ite_not, Nat.add_eq_right]
    have hidx : p.back.idx = 0 ∨ p.back.idx = 1 := by omega
    rw [hw'] 
    rw [hw] at h4 h6
    rcases hidx with hidx | hidx
    all_goals
      rw [hidx] at h4 h6 ⊢
      simp only [Partitioner.counters] at h1 h2 h3 h4 h5 h6 h7
      refine Counters.ext h1 h2 h3 ?_ h5 ?_ h7
      · simp [Partitioner.counters, advance] at h4 ⊢
        omega
      · simp [Partitioner.counters, advance] at h6 ⊢
        omega

/-- Past its last part a level counts as on the last one. -/
theorem advance_counters (hp : PartitionerOk cs p) (hpart : p.back.idx < p.back.parts.length)
    (hlast : ¬p.back.idx + 1 < p.back.parts.length) :
    p.advance.counters = countersOf p.advance.back p.below := by
  refine Eq.trans hp.counters ?_
  cases hb : p.below with
  | nil => rfl
  | cons b below =>
    refine Eq.symm ?_
    refine Counters.push_congr (by rfl) ?_ _ _
    cases ht : p.back.split.isTernary with
    | false =>
      rw [PartLevel.btWeight_of_not_ternary ht, PartLevel.btWeight_of_not_ternary]
      exact ht
    | true =>
      have hlen := hp.stack.level.ternary ht
      simp only [PartLevel.btWeight, advance, ht, true_and]
      rw [if_pos (by omega), if_pos (by omega)]

theorem nextPart_spec (hp : PartitionerOk cs p) (hpart : p.back.idx < p.back.parts.length)
    (hbelow : p.below ≠ []) :
    ∃ q, p.nextPart false = .ok (decide (p.back.idx + 1 < p.back.parts.length), q) ∧ PartitionerOk cs q ∧
      q.below = p.below ∧ q.chType = p.chType ∧ q.back.split = p.back.split ∧
      q.back.parts = p.back.parts ∧ q.back.idx = p.back.idx + 1 := by
  have hadv : StackOk cs p.chType p.advance.back p.below :=
    hp.stack.replace rfl rfl fun h => by cases h
  unfold nextPart
  by_cases h : p.back.idx + 1 < p.back.parts.length
  · obtain ⟨hback, hbel, hch⟩ := countPart_fields p.advance (p.back.idx + 1)
    have hcount := countPart_counters hp hbelow h
    rw [decide_eq_true h]
    refine ⟨(p.advance.countPart (p.back.idx + 1)).partQg, if_pos h, ⟨?_, ?_⟩, hbel, hch, ?_, ?_, ?_⟩
    · refine hcount.trans ?_
      show _ = countersOf (p.advance.countPart (p.back.idx + 1)).back
        (p.advance.countPart (p.back.idx + 1)).below
      rw [hback, hbel]
      rfl
    · show StackOk cs (p.advance.countPart (p.back.idx + 1)).chType
        (p.advance.countPart (p.back.idx + 1)).back (p.advance.countPart (p.back.idx + 1)).below
      rw [hback, hbel, hch]
      exact hadv
    · exact (congrArg PartLevel.split hback :)
    · exact (congrArg PartLevel.parts hback :)
    · exact (congrArg PartLevel.idx hback :)
  · rw [decide_eq_false h]
    exact ⟨p.advance, if_neg h, ⟨advance_counters hp hpart h, hadv⟩, rfl, rfl, rfl, rfl, rfl⟩

/-- Leaving a level takes off exactly what it added. -/
theorem uncountSplit_spec {q : Partitioner} {l : PartLevel} {c : Counters} (hn : Nested l q.back)
    (hc : c.Nonneg) (htr : l.split.isTu = false → c.trDepth = 0)
    (hq : q.counters = { c.push l q.back.isImplicit with
      depth := c.depth, subdiv := (c.push l q.back.isImplicit).subdiv - 1 }) :
    ∃ r, q.uncountSplit l.split l.idx = .ok r ∧ r.back = q.back ∧ r.below = q.below ∧
      r.chType = q.chType ∧ r.counters = c := by
  obtain ⟨c1, c2, c3, c4, c5, c6, c7⟩ := hc
  unfold uncountSplit
  rcases hn.kind with ⟨hs, hb⟩ | ⟨hm, hb⟩ | ht
  · rw [Counters.push_quad hs] at hq
    obtain ⟨h1, h2, h3, h4, h5, h6, h7⟩ := Counters.ext_iff.mp hq
    simp only [Partitioner.counters] at h1 h2 h3 h4 h5 h6 h7
    have hzero := htr (by rw [hs]; rfl)
    have htr' : ¬q.currTrDepth > 0 := by omega
    have hqt : ¬q.currQtDepth = 0 := by omega
    rw [hs, if_neg (by decide), if_neg (by decide), check_ok _ htr', ok_bind, check_ok _ hqt, ok_bind]
    refine ⟨_, rfl, rfl, rfl, rfl, ?_⟩
    refine Counters.ext h1 ?_ h3 h4 h5 ?_ h7
    all_goals
      simp only [Partitioner.counters]
      omega
  · rw [Counters.push_mtt hm] at hq
    obtain ⟨h1, h2, h3, h4, h5, h6, h7⟩ := Counters.ext_iff.mp hq
    simp only [Partitioner.counters] at h1 h2 h3 h4 h5 h6 h7
    have hw := l.one_le_btWeight
    have hbt : ¬q.currBtDepth = 0 := by omega
    have hmt : ¬q.currMtDepth = 0 := by omega
    rw [if_pos hm, hn.checked, check_ok _ (by decide), ok_bind, check_ok _ hbt, ok_bind, check_ok _ hmt,
      ok_bind]
    dsimp only
    cases ht : l.split.isTernary && decide (l.idx ≠ 1) with
    | true =>
      have hw2 : l.btWeight = 2 := if_pos (by simpa using ht)
      have hbt' : ¬q.currBtDepth - 1 = 0 := by omega
      rw [if_pos rfl, check_ok _ hbt', ok_bind]
      refine ⟨_, rfl, rfl, rfl, rfl, ?_⟩
      refine Counters.ext h1 h2 h3 ?_ ?_ ?_ ?_
      all_goals
        simp only [Partitioner.counters]
        omega
    | false =>
      have hw1 : l.btWeight = 1 := if_neg (by simpa using ht)
      rw [if_neg Bool.false_ne_true]
      refine ⟨_, rfl, rfl, rfl, rfl, ?_⟩
      refine Counters.ext h1 h2 h3 ?_ ?_ ?_ ?_
      all_goals
        simp only [Partitioner.counters]
        omega
  · rw [Counters.push_tu ht] at hq
    obtain ⟨h1, h2, h3, h4, h5, h6, h7⟩ := Counters.ext_iff.mp hq
    simp only [Partitioner.counters] at h1 h2 h3 h4 h5 h6 h7
    have htr' : ¬q.currTrDepth = 0 := by omega
    rw [isTu_not_isMtt ht, if_neg Bool.false_ne_true, if_pos ht, check_ok _ htr', ok_bind]
    refine ⟨_, rfl, rfl, rfl, rfl, ?_⟩
    refine Counters.ext h1 h2 ?_ h4 h5 ?_ h7
    all_goals
      simp only [Partitioner.counters]
      omega

theorem exitCurrSplit_spec (hp : PartitionerOk cs p) {b : PartLevel} {below : List PartLevel}
    (hbelow : p.below = b :: below) :
    ∃ q, p.exitCurrSplit = .ok q ∧ PartitionerOk cs q ∧ q.back = b ∧ q.below = below ∧
      q.chType = p.chType := by
  obtain ⟨hc, hst⟩ := hp
  rw [hbelow] at hc hst
  obtain ⟨hl, hn, hst⟩ := hst
  have hdepth : ¬p.currDepth = 0 := by
    have h := countersOf_depth (b :: below) p.back
    rw [← hc] at h
    have h' : p.currDepth = ((b :: below).length : Int) := h
    rw [h', List.length_cons]
    omega
  let q : Partitioner := { p with
    back := b, below := below, currDepth := p.currDepth - 1, currSubdiv := p.currSubdiv - 1 }
  have hexit : p.exitCurrSplit = q.leaveQg.uncountSplit p.back.split p.back.idx := by
    unfold exitCurrSplit
    rw [hbelow]
    dsimp only
    rw [check_ok _ hdepth, ok_bind]
  have htr : p.back.split.isTu = false → (countersOf b below).trDepth = 0 := by
    intro ht
    refine hst.cu_trDepth _ ?_
    rcases hn.kind with ⟨-, hb⟩ | ⟨-, hb⟩ | ht'
    · cases hbt : b.split.isTu with
      | false => rfl
      | true => rw [isTu_not_isQt hbt] at hb; cases hb
    · exact hb
    · rw [ht'] at ht
      cases ht
  have hq : q.leaveQg.counters = { (countersOf b below).push p.back b.isImplicit with
      depth := (countersOf b below).depth
      subdiv := ((countersOf b below).push p.back b.isImplicit).subdiv - 1 } := by
    have hd : p.currDepth = (countersOf b below).depth + 1 := by
      refine (congrArg Counters.depth hc).trans ?_
      rw [countersOf_depth, countersOf_depth, List.length_cons, Nat.cast_add, Nat.cast_one]
    obtain ⟨h1, h2, h3, h4, h5, h6, h7⟩ := Counters.ext_iff.mp hc
    refine Counters.ext ?_ h2 h3 h4 h5 ?_ h7
    · exact (congrArg (· - 1) hd).trans (add_sub_cancel_right _ _)
    · exact congrArg (· - 1) h6
  obtain ⟨r, hr, hback, hbel, hch, hcnt⟩ := uncountSplit_spec (q := q.leaveQg) (l := p.back)
    (c := countersOf b below) hn (countersOf_nonneg below b) htr hq
  refine ⟨r, hexit.trans hr, ⟨?_, ?_⟩, hback, hbel, hch⟩
  · rw [hcnt, hback, hbel]
    rfl
  · rw [hback, hbel, hch]
    exact hst

end Partitioner

end ECM.CommonLib
