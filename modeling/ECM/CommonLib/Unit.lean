import Mathlib.Algebra.Group.Int.Defs
import Mathlib.Algebra.Group.Nat.Defs

/-! # Areas of a picture

A unit covers the same part of the picture in each component; chroma blocks are
the luma block scaled down by the chroma format. -/

namespace ECM.CommonLib

inductive ChromaFormat where
  | chroma400
  | chroma420
  | chroma422
  | chroma444
deriving DecidableEq, Inhabited

inductive ChannelType where
  | luma
  | chroma
deriving DecidableEq

def getChannelTypeScaleX (id : ChannelType) (fmt : ChromaFormat) : Nat :=
  if id = .luma ∨ fmt = .chroma444 then 0 else 1

def getChannelTypeScaleY (id : ChannelType) (fmt : ChromaFormat) : Nat :=
  if id = .luma ∨ fmt ≠ .chroma420 then 0 else 1

structure Position where
  x : Int
  y : Int
deriving DecidableEq, Inhabited

structure CompArea where
  x : Int
  y : Int
  width : Nat
  height : Nat
deriving DecidableEq, Inhabited

namespace CompArea

def pos (a : CompArea) : Position := ⟨a.x, a.y⟩
def topRight (a : CompArea) : Position := ⟨a.x + a.width - 1, a.y⟩
def bottomLeft (a : CompArea) : Position := ⟨a.x, a.y + a.height - 1⟩

def contains (a : CompArea) (p : Position) : Bool :=
  a.x ≤ p.x && p.x < a.x + a.width && a.y ≤ p.y && p.y < a.y + a.height

theorem contains_iff (a : CompArea) (p : Position) : a.contains p = true ↔
    a.x ≤ p.x ∧ p.x < a.x + a.width ∧ a.y ≤ p.y ∧ p.y < a.y + a.height := by
  simp only [contains, Bool.and_eq_true, decide_eq_true_eq, and_assoc]

/-- Component and format of a block are set by `UnitArea` and always valid. -/
def valid (a : CompArea) : Bool := a.width != 0 && a.height != 0

/-- `xRecalcLumaToChroma` by the given scales. -/
def recalcLumaToChroma (a : CompArea) (csx csy : Nat) : CompArea :=
  ⟨a.x >>> csx, a.y >>> csy, a.width >>> csx, a.height >>> csy⟩

end CompArea

/-- The blocks of a unit: luma, then Cb and Cr if the format has them. -/
structure UnitArea where
  chromaFormat : ChromaFormat
  Y : CompArea
  chroma : List CompArea
deriving DecidableEq, Inhabited

namespace UnitArea

def ofArea (chromaFormat : ChromaFormat) (area : CompArea) : UnitArea :=
  let c := area.recalcLumaToChroma (getChannelTypeScaleX .chroma chromaFormat)
    (getChannelTypeScaleY .chroma chromaFormat)
  { chromaFormat
    Y := area
    chroma := if chromaFormat = .chroma400 then [] else [c, c] }

def blocks (a : UnitArea) : List CompArea := a.Y :: a.chroma

def Cb (a : UnitArea) : CompArea := a.chroma.headD default

def lumaPos (a : UnitArea) : Position := a.Y.pos
def chromaPos (a : UnitArea) : Position := a.Cb.pos

/-- `for( auto &blk : blocks )`. -/
def mapBlocks (f : CompArea → CompArea) (a : UnitArea) : UnitArea :=
  { a with Y := f a.Y, chroma := a.chroma.map f }

@[simp] theorem mapBlocks_Y (f : CompArea → CompArea) (a : UnitArea) : (a.mapBlocks f).Y = f a.Y := rfl

@[simp] theorem blocks_mapBlocks (f : CompArea → CompArea) (a : UnitArea) :
    (a.mapBlocks f).blocks = a.blocks.map f := rfl

end UnitArea

end ECM.CommonLib

/-! # Vector differences

The units they are sent in, and the range that the reader admits. -/

namespace ECM.CommonLib

def MV_BITS : ℕ := 18

def MVD_MAX : ℤ := 2 ^ 17 - 1

def MVD_MIN : ℤ := -2 ^ 17

def BVD_CODING_GOLOMB_ORDER : ℕ := 1

def NUM_HOR_BVD_CTX : ℕ := 5

def NUM_VER_BVD_CTX : ℕ := 5

def HOR_BVD_CTX_OFFSET : ℕ := 0

def VER_BVD_CTX_OFFSET : ℕ := 6

inductive ImvMode where
  | IMV_OFF
  | IMV_FPEL
  | IMV_4PEL
  | IMV_HPEL
  deriving DecidableEq, Repr

structure Mv where
  hor : ℤ
  ver : ℤ
  deriving DecidableEq, Repr

namespace Mv

/-- `mv >>= n` for both components. -/
def shiftRight (mv : Mv) (n : ℕ) : Mv := ⟨mv.hor >>> n, mv.ver >>> n⟩

/-- What the reader's `CHECK` asks of a component. -/
def Legal (abs : ℤ) : Prop := abs ≥ MVD_MIN ∧ abs ≤ MVD_MAX

instance (abs : ℤ) : Decidable (Legal abs) := inferInstanceAs (Decidable (_ ∧ _))

end Mv

end ECM.CommonLib
