import ECM.CommonLib.Slice

/-! # Chroma QP mapping tables

`derivedChromaQPMappingTables` makes of the pivot points of a table a map with a chroma QP
for each luma QP. -/

namespace ECM.CommonLib
open Lib.Loop WeightPrediction

/-- One of the tables of `ChromaQpMappingTableParams`. -/
structure QpTableParams where
  qpTableStartMinus26 : ℤ
  numPtsInCQPTableMinus1 : ℕ
  deltaQpInValMinus1 : List ℤ
  deltaQpOutVal : List ℤ
  deriving DecidableEq, Repr

structure ChromaQpMappingTableParams where
  m_sameCQPTableForAllChromaFlag : Bool
  /-- One for each of the `m_numQpTables` tables. -/
  tables : List QpTableParams
  deriving DecidableEq, Repr

namespace QpTableParams

def getDeltaQpInValMinus1 (p : QpTableParams) (j : ℕ) : ℤ := p.deltaQpInValMinus1.getD j 0

def getDeltaQpOutVal (p : QpTableParams) (j : ℕ) : ℤ := p.deltaQpOutVal.getD j 0

def qpInVal (p : QpTableParams) : ℕ → ℤ
  | 0 => p.qpTableStartMinus26 + 26
  | j + 1 => p.qpInVal j + p.getDeltaQpInValMinus1 j + 1

def qpOutVal (p : QpTableParams) : ℕ → ℤ
  | 0 => p.qpInVal 0
  | j + 1 => p.qpOutVal j + p.getDeltaQpOutVal j

end QpTableParams

/-- `std::map<int, int>`. -/
abbrev QpMap := ℤ → Option ℤ

namespace QpMap

def MAX_QP : ℤ := 63

/-- The map after `m[k]`, which makes a missing entry. -/
def touch (m : QpMap) (k : ℤ) : QpMap := if (m k).isSome then m else Function.update m k (some 0)

/-- `m[k] = g(m[i])`. -/
def assign (m : QpMap) (k i : ℤ) (g : ℤ → ℤ) : QpMap :=
  Function.update (m.touch i) k (some (g ((m i).getD 0)))

end QpMap

open QpMap

/-- The entries below the first pivot point. -/
def fillDown (qpBdOffsetC qpInVal : ℤ) (m : QpMap) : QpMap :=
  (List.range (qpInVal + qpBdOffsetC).toNat).foldl
    (fun m (r : ℕ) => m.assign (qpInVal - 1 - r) (qpInVal - r) fun v => Clip3 (-qpBdOffsetC) MAX_QP (v - 1)) m

/-- The entries from the one after a pivot point to the next pivot point, `delta` and
`deltaOut` away. -/
def fillSegment (qpInVal delta deltaOut : ℤ) (m : QpMap) : QpMap :=
  (List.range delta.toNat).foldl
    (fun m (r : ℕ) => m.assign (qpInVal + (r + 1)) qpInVal fun v =>
      v + (deltaOut * (r + 1 : ℤ) + delta >>> (1 : ℕ)).tdiv delta) m

/-- The entries above the last pivot point. -/
def fillUp (qpBdOffsetC qpInVal : ℤ) (m : QpMap) : QpMap :=
  (List.range (MAX_QP - qpInVal).toNat).foldl
    (fun m (r : ℕ) => m.assign (qpInVal + (r + 1)) (qpInVal + r) fun v =>
      Clip3 (-qpBdOffsetC) MAX_QP (v + 1)) m

/-- The segments before the pivot point `n`. -/
def fillSegments (p : QpTableParams) (n : ℕ) (m : QpMap) : QpMap :=
  (List.range n).foldl
    (fun m j => fillSegment (p.qpInVal j) (p.getDeltaQpInValMinus1 j + 1)
      (p.qpOutVal (j + 1) - p.qpOutVal j) m) m

/-- One round of `derivedChromaQPMappingTables`. -/
def derivedChromaQPMappingTable (qpBdOffsetC : ℤ) (p : QpTableParams) : Checked QpMap := do
  loop (fun j _ => do
    check (p.qpInVal j < -qpBdOffsetC ∨ p.qpInVal j > MAX_QP) "qpInVal out of range"
    check (p.qpOutVal j < -qpBdOffsetC ∨ p.qpOutVal j > MAX_QP) "qpOutVal out of range")
    (p.numPtsInCQPTableMinus1 + 1) ()
  let m : QpMap := Function.update (fun _ => none) (p.qpInVal 0) (some (p.qpOutVal 0))
  let m := fillDown qpBdOffsetC (p.qpInVal 0) m
  let m := fillSegments p (p.numPtsInCQPTableMinus1 + 1) m
  return fillUp qpBdOffsetC (p.qpInVal (p.numPtsInCQPTableMinus1 + 1)) m

def derivedChromaQPMappingTables (qpBdOffset : ℤ) (params : ChromaQpMappingTableParams) :
    Checked (List QpMap) :=
  params.tables.mapM (derivedChromaQPMappingTable qpBdOffset)

end ECM.CommonLib
