import ECM.CommonLib.TypeDef
import ECM.Lib.Heap

/-! # Parameter set store

`ParameterSetMap` owns the parameter sets of one kind by their id, with the NAL
data each was parsed from and a flag that says that it changed. The objects the
pointers of the source lead to are kept in `objects`. -/

namespace ECM.CommonLib
open Lib

/-- `void calculateParameterSetChangedFlag(bool &changed, …)`: the new value of `changed`. -/
def calculateParameterSetChangedFlag (changed : Bool) (oldData newData : Option (List UInt8)) : Bool :=
  if !changed then
    match oldData, newData with
    | none, some _ => true
    | some _, none => true
    | some oldData, some newData =>
      if oldData.length ≠ newData.length then true
      else if oldData ≠ newData then true
      else changed
    | none, none => changed
  else changed

structure MapData where
  bChanged : Bool
  /-- Can be null. -/
  pNaluData : Option (List UInt8)
  parameterSet : Ptr
  deriving DecidableEq

/-- `setID` of the kinds of parameter sets, and the object `new T` makes. -/
class ParameterSet (T : Type) where
  default : T
  setID : T → ℤ → T

structure ParameterSetMap (T : Type) where
  m_maxId : ℤ
  m_paramsetMap : ℤ → Option MapData
  m_activePsId : List ℤ
  m_lastActiveParameterSet : Ptr
  objects : Heap T

namespace ParameterSetMap
variable {T : Type}

def init (maxId : ℤ) : ParameterSetMap T where
  m_maxId := maxId
  m_paramsetMap := fun _ => none
  m_activePsId := []
  m_lastActiveParameterSet := none
  objects := Heap.empty

/-- `m_paramsetMap[psId] = data`. -/
def put (m : ParameterSetMap T) (psId : ℤ) (data : MapData) : ParameterSetMap T :=
  { m with m_paramsetMap := Function.update m.m_paramsetMap psId (some data) }

def allocatePS [ParameterSet T] (m : ParameterSetMap T) (psId : ℤ) : Checked (ParameterSetMap T × Ptr) := do
  check (m.m_maxId ≤ psId) "Invalid PS id"
  match m.m_paramsetMap psId with
  | none =>
    let ps := some m.objects.next
    let m := { m with objects := m.objects.new (ParameterSet.setID ParameterSet.default psId) }
    return (m.put psId { bChanged := true, pNaluData := none, parameterSet := ps }, ps)
  | some mapData => return (m, mapData.parameterSet)

/-- `storePS( int psId, T *ps )`. -/
def storePS (m : ParameterSetMap T) (psId : ℤ) (ps : Ptr) : Checked (ParameterSetMap T) := do
  check (m.m_maxId ≤ psId) "Invalid PS id"
  match m.m_paramsetMap psId with
  | some mapData =>
    let objects ← m.objects.delete mapData.parameterSet
    return { m with objects }.put psId { mapData with parameterSet := ps, bChanged := true }
  | none => return m.put psId { bChanged := true, pNaluData := none, parameterSet := ps }

/-- `storePS(int psId, T *ps, const std::vector<uint8_t> *pNaluData)`. -/
def storePSNalu (m : ParameterSetMap T) (psId : ℤ) (ps : Ptr) (pNaluData : Option (List UInt8)) :
    Checked (ParameterSetMap T) := do
  check (m.m_maxId ≤ psId) "Invalid PS id"
  match m.m_paramsetMap psId with
  | some mapData =>
    let bChanged := calculateParameterSetChangedFlag mapData.bChanged mapData.pNaluData pNaluData
    if !bChanged then
      -- just keep the old one
      let objects ← m.objects.delete ps
      return { m with objects }.put psId { mapData with bChanged }
    else
      let (parameterSet, lastActive) :=
        if psId ∈ m.m_activePsId then (m.m_lastActiveParameterSet, mapData.parameterSet)
        else (mapData.parameterSet, m.m_lastActiveParameterSet)
      let objects ← m.objects.delete parameterSet
      return { m with objects, m_lastActiveParameterSet := lastActive }.put psId
        { bChanged, pNaluData, parameterSet := ps }
  | none => return m.put psId { bChanged := false, pNaluData, parameterSet := ps }

def setChangedFlag (m : ParameterSetMap T) (psId : ℤ) (bChanged : Bool) : ParameterSetMap T :=
  match m.m_paramsetMap psId with
  | some mapData => m.put psId { mapData with bChanged }
  | none => m

def clearChangedFlag (m : ParameterSetMap T) (psId : ℤ) : ParameterSetMap T :=
  match m.m_paramsetMap psId with
  | some mapData => m.put psId { mapData with bChanged := false }
  | none => m

def getPS (m : ParameterSetMap T) (psId : ℤ) : Ptr :=
  match m.m_paramsetMap psId with
  | some mapData => mapData.parameterSet
  | none => none

def setActive (m : ParameterSetMap T) (psId : ℤ) : ParameterSetMap T :=
  { m with m_activePsId := m.m_activePsId ++ [psId] }

def clear (m : ParameterSetMap T) : ParameterSetMap T := { m with m_activePsId := [] }

/-- The parameter set `getPS` leads to. -/
def parameterSet (m : ParameterSetMap T) (psId : ℤ) : Option T := m.getPS psId >>= m.objects.cell

end ParameterSetMap

/-! ## `ParameterSetManager`

The kinds of parameter sets are parameters; of an SPS and a PPS only the ids they
refer to are read. -/

class RefersToVPS (S : Type) where
  getVPSId : S → ℤ

class RefersToSPS (P : Type) where
  getSPSId : P → ℤ

structure ParameterSetManager (V S P A : Type) where
  m_spsMap : ParameterSetMap S
  m_ppsMap : ParameterSetMap P
  m_apsMap : ParameterSetMap A
  m_vpsMap : ParameterSetMap V
  m_activeSPSId : ℤ
  m_activeVPSId : ℤ

def NUM_APS_TYPE_LEN : ℕ := 3

namespace ParameterSetManager
variable {V S P A : Type}

def init : ParameterSetManager V S P A where
  m_spsMap := .init 16
  m_ppsMap := .init 64
  m_apsMap := .init (32 * 8)
  m_vpsMap := .init 16
  m_activeSPSId := -1
  m_activeVPSId := -1

/-- The VPS of an activated SPS. -/
def activateVPS [ParameterSet V] (p : ParameterSetManager V S P A) (vpsId : ℤ) :
    Checked (ParameterSetManager V S P A) :=
  if vpsId ≠ 0 then
    match p.m_vpsMap.getPS vpsId with
    | some _ => .ok { p with m_activeVPSId := vpsId, m_vpsMap := p.m_vpsMap.setActive vpsId }
    -- a warning: the PPS refers to a non-existing VPS
    | none => .ok p
  else do
    let (vpsMap, _) ← p.m_vpsMap.clear.allocatePS 0
    return { p with m_activeVPSId := 0, m_vpsMap := vpsMap.setActive 0 }

/-- Activate a PPS; returns true if the activation is successful. -/
def activatePPS [ParameterSet V] [RefersToVPS S] [RefersToSPS P] (p : ParameterSetManager V S P A) (ppsId : ℤ) :
    Checked (ParameterSetManager V S P A × Bool) :=
  match p.m_ppsMap.parameterSet ppsId with
  | some pps =>
    let spsId := RefersToSPS.getSPSId pps
    match p.m_spsMap.parameterSet spsId with
    | some sps => do
      let p ← p.activateVPS (RefersToVPS.getVPSId sps)
      return ({ p with
        m_spsMap := p.m_spsMap.clear.setActive spsId
        m_activeSPSId := spsId
        m_ppsMap := p.m_ppsMap.clear.setActive ppsId }, true)
    | none => .ok ({ p with m_activeSPSId := -1 }, false)
  | none => .ok ({ p with m_activeSPSId := -1 }, false)

def activateAPS (p : ParameterSetManager V S P A) (apsId apsType : ℤ) : ParameterSetManager V S P A × Bool :=
  let psId := apsId * 2 ^ NUM_APS_TYPE_LEN + apsType
  match p.m_apsMap.getPS psId with
  | some _ => ({ p with m_apsMap := p.m_apsMap.setActive psId }, true)
  | none => (p, false)

end ParameterSetManager

end ECM.CommonLib
