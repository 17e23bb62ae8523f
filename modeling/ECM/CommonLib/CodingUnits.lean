import ECM.CommonLib.UnitPartitioner

/-! # The coding units of a picture

`cus` holds the units in the order they were added; a pointer to a unit is its
place there. `m_cuIdx` maps the cells of a channel, four luma samples wide and
high, to `idx` of the unit that covers them, 0 where there is none. The area of
the picture begins at the origin, and has no parent. -/

namespace ECM.CommonLib

/-- The block of a channel: `blocks[ chType ]`. -/
def UnitArea.blockOf (a : UnitArea) : ChannelType → CompArea
  | .luma => a.Y
  | .chroma => a.Cb

/-- Only the blocks of one channel are valid. -/
def UnitArea.singleChan (a : UnitArea) : ChannelType → UnitArea
  | .luma => { a with chroma := a.chroma.map fun _ => default }
  | .chroma => { a with Y := default }

/-- `CS::getArea`. -/
def CodingStructure.getArea (cs : CodingStructure) (area : UnitArea) (chType : ChannelType) : UnitArea :=
  if cs.isDualITree then area.singleChan chType else area

/-- `cs.area` of the coding structure of a picture. -/
def CodingStructure.area (cs : CodingStructure) (fmt : ChromaFormat) : UnitArea := .ofArea fmt cs.picture

/-- `UnitScaleArray`. -/
def unitScale : ChromaFormat → ChannelType → ℕ × ℕ
  | _, .luma => (2, 2)
  | .chroma400, .chroma => (0, 0)
  | .chroma420, .chroma => (1, 1)
  | .chroma422, .chroma => (1, 2)
  | .chroma444, .chroma => (2, 2)

/-- The cell of a position. -/
def cell (fmt : ChromaFormat) (ch : ChannelType) (pos : Position) : ℤ × ℤ :=
  (pos.x >>> (unitScale fmt ch).1, pos.y >>> (unitScale fmt ch).2)

/-- What the lists of units read and write of a `CodingUnit`. -/
structure CodingUnit where
  unit : UnitArea
  chType : ChannelType
  idx : ℕ
  next : Option ℕ

structure CodingUnits where
  cus : List CodingUnit
  cuIdx : ChannelType → ℤ × ℤ → ℕ

namespace CodingUnits

/-- `next` of the unit at `a`. -/
def next (u : CodingUnits) (a : ℕ) : Option ℕ := u.cus[a]?.bind CodingUnit.next

/-- `chType` of the unit at `a`. -/
def chTypeAt (u : CodingUnits) (a : ℕ) : Option ChannelType := u.cus[a]?.map CodingUnit.chType

/-- `cus[a]->next = p`. -/
def setNext (u : CodingUnits) (a : ℕ) (p : Option ℕ) : CodingUnits :=
  { u with cus := u.cus.modify a fun cu => { cu with next := p } }

/-- `getNumberValidChannels`. -/
def validChannels (fmt : ChromaFormat) : List ChannelType :=
  if fmt = .chroma400 then [.luma] else [.luma, .chroma]

/-- The cells of a block in `m_cuIdx`. -/
def covers (fmt : ChromaFormat) (ch : ChannelType) (blk : CompArea) (c : ℤ × ℤ) : Bool :=
  let scale := unitScale fmt ch
  CompArea.contains ⟨blk.x >>> scale.1, blk.y >>> scale.2, blk.width >>> scale.1, blk.height >>> scale.2⟩ ⟨c.1, c.2⟩

/-- `idx` in the cells of the unit's block of channel `ch`. -/
def fillCuIdx (unit : UnitArea) (idx : ℕ) (cuIdx : ChannelType → ℤ × ℤ → ℕ) (ch : ChannelType) :
    Checked (ChannelType → ℤ × ℤ → ℕ) :=
  let blk := unit.blockOf ch
  if blk.valid then do
    check (cuIdx ch (cell unit.chromaFormat ch blk.pos) ≠ 0) "Overwriting a pre-existing value, should be '0'!"
    return fun ch' c => if ch' = ch ∧ covers unit.chromaFormat ch blk c then idx else cuIdx ch' c
  else .ok cuIdx

def addCU (u : CodingUnits) (unit : UnitArea) (chType : ChannelType) : Checked CodingUnits := do
  let idx := u.cus.length + 1
  let linked := u.setNext (u.cus.length - 1) (some u.cus.length)
  let cu : CodingUnit := { unit, chType, idx, next := none }
  let cuIdx ← (validChannels unit.chromaFormat).foldlM (fillCuIdx unit idx) u.cuIdx
  return { cus := linked.cus ++ [cu], cuIdx }

/-- The unit that covers a position, if any. -/
def getCU (u : CodingUnits) (area : UnitArea) (pos : Position) (effChType : ChannelType) : Option ℕ :=
  if (area.blockOf effChType).contains pos then
    let idx := u.cuIdx effChType (cell area.chromaFormat effChType pos)
    if idx ≠ 0 then some (idx - 1) else none
  else none

/-! ## Pointers -/

variable {u : CodingUnits} {a b : ℕ} {p : Option ℕ}

@[simp] theorem setNext_length : (u.setNext a p).cus.length = u.cus.length := List.length_modify ..

@[simp] theorem setNext_cuIdx : (u.setNext a p).cuIdx = u.cuIdx := rfl

theorem setNext_ne (h : b ≠ a) : (u.setNext a p).cus[b]? = u.cus[b]? := by
  simp [setNext, h.symm]

theorem setNext_self : (u.setNext a p).cus[a]? = u.cus[a]?.map fun cu => { cu with next := p } := by
  simp [setNext]

@[simp] theorem setNext_chTypeAt : (u.setNext a p).chTypeAt b = u.chTypeAt b := by
  unfold chTypeAt
  by_cases h : b = a
  · rw [h, setNext_self, Option.map_map]
    rfl
  · rw [setNext_ne h]

theorem setNext_next_ne (h : b ≠ a) : (u.setNext a p).next b = u.next b := by
  unfold next
  rw [setNext_ne h]

theorem setNext_next_self (h : a < u.cus.length) : (u.setNext a p).next a = p := by
  unfold next
  rw [setNext_self, List.getElem?_eq_getElem h]
  rfl

theorem chTypeAt_lt {ch : ChannelType} (h : u.chTypeAt a = some ch) : a < u.cus.length := by
  rcases Nat.lt_or_ge a u.cus.length with hlt | hge
  · exact hlt
  · rw [chTypeAt, List.getElem?_eq_none hge] at h
    cases h

end CodingUnits

end ECM.CommonLib
