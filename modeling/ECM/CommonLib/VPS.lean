import ECM.CommonLib.Arrays

/-! # The video parameter set

The layers of a VPS, the direct references between them, and the output layer
sets that `deriveOutputLayerSets` makes of them. -/

namespace ECM.CommonLib
open Lib.Loop

def MAX_VPS_LAYERS : ℕ := 64
def MAX_VPS_SUBLAYERS : ℕ := 7
def MAX_NUM_OLSS : ℕ := 256
def MAX_VPS_OLS_MODE_IDC : ℕ := 2
def NOT_VALID : ℤ := -1

structure VPS where
  m_VPSId : ℕ
  m_uiMaxLayers : ℕ
  m_vpsMaxSubLayers : ℕ
  m_vpsLayerId : List ℕ
  m_vpsAllLayersSameNumSubLayersFlag : Bool
  m_vpsAllIndependentLayersFlag : Bool
  m_vpsIndependentLayerFlag : List Bool
  m_vpsDirectRefLayerFlag : List (List Bool)
  m_vpsMaxTidIlRefPicsPlus1 : List ℕ
  m_vpsEachLayerIsAnOlsFlag : Bool
  m_vpsOlsModeIdc : ℕ
  m_vpsNumOutputLayerSets : ℕ
  m_vpsOlsOutputLayerFlag : List (List Bool)
  m_directRefLayerIdx : List (List ℕ)
  m_generalLayerIdx : List ℕ
  m_interLayerRefIdx : List (List ℕ)
  m_vpsNumPtls : ℕ
  m_totalNumOLSs : ℕ
  m_numMultiLayeredOlss : ℕ
  m_multiLayerOlsIdx : List ℕ
  m_multiLayerOlsIdxToOlsIdx : List ℕ
  m_numOutputLayersInOls : List ℕ
  m_outputLayerIdInOls : List (List ℤ)
  m_numSubLayersInLayerInOLS : List (List ℤ)
  m_numLayersInOls : List ℕ
  m_layerIdInOls : List (List ℤ)
  deriving DecidableEq

namespace VPS

/-- `VPS()`. -/
def new : VPS where
  m_VPSId := 0
  m_uiMaxLayers := 1
  m_vpsMaxSubLayers := 1
  m_vpsLayerId := List.replicate MAX_VPS_LAYERS 0
  m_vpsAllLayersSameNumSubLayersFlag := true
  m_vpsAllIndependentLayersFlag := true
  m_vpsIndependentLayerFlag := List.replicate MAX_VPS_LAYERS true
  m_vpsDirectRefLayerFlag := List.replicate MAX_VPS_LAYERS (List.replicate MAX_VPS_LAYERS false)
  m_vpsMaxTidIlRefPicsPlus1 := List.replicate MAX_VPS_LAYERS 7
  m_vpsEachLayerIsAnOlsFlag := true
  m_vpsOlsModeIdc := 0
  m_vpsNumOutputLayerSets := 1
  m_vpsOlsOutputLayerFlag := List.replicate MAX_NUM_OLSS (List.replicate MAX_VPS_LAYERS false)
  m_directRefLayerIdx :=
    List.replicate MAX_VPS_LAYERS (List.replicate MAX_VPS_LAYERS MAX_VPS_LAYERS)
  m_generalLayerIdx := List.replicate MAX_VPS_LAYERS 0
  m_interLayerRefIdx := tab MAX_VPS_LAYERS fun i => tab MAX_VPS_LAYERS fun j =>
    if i = j then 0xffffffff else 0
  m_vpsNumPtls := 1
  m_totalNumOLSs := 0
  m_numMultiLayeredOlss := 0
  m_multiLayerOlsIdx := List.replicate MAX_NUM_OLSS 0
  m_multiLayerOlsIdxToOlsIdx := []
  m_numOutputLayersInOls := []
  m_outputLayerIdInOls := []
  m_numSubLayersInLayerInOLS := []
  m_numLayersInOls := []
  m_layerIdInOls := []

/-! ## Reference layers -/

/-- The local arrays of `deriveOutputLayerSets` about references. -/
structure RefLayers where
  numRefLayers : List ℕ
  dependencyFlag : List (List ℤ)
  refLayerIdx : List (List ℤ)
  layerUsedAsRefLayerFlag : List ℤ
  deriving DecidableEq

/-- `dependencyFlag[i][j]`, from the direct references and the rows above. -/
def deriveDependencyFlag (vps : VPS) (i j : ℕ) (dependencyFlag : List (List ℤ)) :
    Checked (List (List ℤ)) := do
  let direct ← readAt2 vps.m_vpsDirectRefLayerFlag i j
  let dependencyFlag ← writeAt2 dependencyFlag i j (if direct then 1 else 0)
  loop (fun k dependencyFlag => do
    let refers ← readAt2 vps.m_vpsDirectRefLayerFlag i k
    if refers then
      let dependency ← readAt2 dependencyFlag k j
      if dependency ≠ 0 then writeAt2 dependencyFlag i j 1 else return dependencyFlag
    else return dependencyFlag) i dependencyFlag

/-- The round `j` of the layer `i`; the number is `r`. -/
def deriveRefLayer (vps : VPS) (i j : ℕ) (st : RefLayers × ℕ) : Checked (RefLayers × ℕ) := do
  let (a, r) := st
  let dependencyFlag ← vps.deriveDependencyFlag i j a.dependencyFlag
  let direct ← readAt2 vps.m_vpsDirectRefLayerFlag i j
  let layerUsedAsRefLayerFlag ←
    (if direct then writeAt a.layerUsedAsRefLayerFlag j 1 else .ok a.layerUsedAsRefLayerFlag :
      Checked (List ℤ))
  let dependency ← readAt2 dependencyFlag i j
  if dependency ≠ 0 then
    let refLayerIdx ← writeAt2 a.refLayerIdx i r j
    return ({ a with dependencyFlag, layerUsedAsRefLayerFlag, refLayerIdx }, r + 1)
  else return ({ a with dependencyFlag, layerUsedAsRefLayerFlag }, r)

def deriveRefLayers (vps : VPS) : Checked RefLayers :=
  let n := vps.m_uiMaxLayers
  loop (fun i a => do
    let (a, r) ← loop (vps.deriveRefLayer i) n (a, 0)
    let numRefLayers ← writeAt a.numRefLayers i r
    return { a with numRefLayers }) n
    { numRefLayers := List.replicate n 0
      dependencyFlag := List.replicate n (List.replicate n NOT_VALID)
      refLayerIdx := List.replicate n (List.replicate n NOT_VALID)
      layerUsedAsRefLayerFlag := List.replicate n 0 }

/-! ## Output layers -/

/-- What is derived for each OLS first, and the local arrays that go with it. -/
structure OutputLayers where
  m_numOutputLayersInOls : List ℕ
  m_outputLayerIdInOls : List (List ℤ)
  m_numSubLayersInLayerInOLS : List (List ℤ)
  outputLayerIdx : List (List ℤ)
  layerIncludedInOlsFlag : List (List ℤ)
  layerUsedAsOutputLayerFlag : List ℤ
  deriving DecidableEq

/-- `m_vpsEachLayerIsAnOlsFlag || m_vpsOlsModeIdc == 0`: the layer `i` alone is output. -/
def outputHighest (vps : VPS) (i : ℕ) (o : OutputLayers) : Checked OutputLayers := do
  let m_numOutputLayersInOls ← writeAt o.m_numOutputLayersInOls i 1
  let layerId ← readAt vps.m_vpsLayerId i
  let m_outputLayerIdInOls ← writeAt2 o.m_outputLayerIdInOls i 0 (layerId : ℤ)
  let m_numSubLayersInLayerInOLS ← loop (fun j t => do
    let maxTid ← readAt vps.m_vpsMaxTidIlRefPicsPlus1 i
    writeAt2 t i j (maxTid : ℤ)) (if vps.m_vpsOlsModeIdc = 0 then i else 0) o.m_numSubLayersInLayerInOLS
  let m_numSubLayersInLayerInOLS ←
    writeAt2 m_numSubLayersInLayerInOLS i i (vps.m_vpsMaxSubLayers : ℤ)
  return { o with m_numOutputLayersInOls, m_outputLayerIdInOls, m_numSubLayersInLayerInOLS }

/-- `m_vpsOlsModeIdc == 1`: all layers up to `i` are output. -/
def outputAll (vps : VPS) (i : ℕ) (o : OutputLayers) : Checked OutputLayers := do
  let m_numOutputLayersInOls ← writeAt o.m_numOutputLayersInOls i (i + 1)
  loop (fun j o => do
    let layerId ← readAt vps.m_vpsLayerId j
    let m_outputLayerIdInOls ← writeAt2 o.m_outputLayerIdInOls i j (layerId : ℤ)
    let m_numSubLayersInLayerInOLS ←
      writeAt2 o.m_numSubLayersInLayerInOLS i j (vps.m_vpsMaxSubLayers : ℤ)
    return { o with m_outputLayerIdInOls, m_numSubLayersInLayerInOLS }) (i + 1)
    { o with m_numOutputLayersInOls }

/-- `m_vpsOlsModeIdc == 2`: one layer that is flagged; the number of those before is `j`. -/
def outputFlagged (vps : VPS) (i k : ℕ) (st : OutputLayers × ℕ) : Checked (OutputLayers × ℕ) := do
  let (o, j) := st
  let flag ← readAt2 vps.m_vpsOlsOutputLayerFlag i k
  if flag then
    let layerIncludedInOlsFlag ← writeAt2 o.layerIncludedInOlsFlag i k 1
    let layerUsedAsOutputLayerFlag ← writeAt o.layerUsedAsOutputLayerFlag k 1
    let outputLayerIdx ← writeAt2 o.outputLayerIdx i j (k : ℤ)
    let layerId ← readAt vps.m_vpsLayerId k
    let m_outputLayerIdInOls ← writeAt2 o.m_outputLayerIdInOls i j (layerId : ℤ)
    let m_numSubLayersInLayerInOLS ←
      writeAt2 o.m_numSubLayersInLayerInOLS i k (vps.m_vpsMaxSubLayers : ℤ)
    return ({ o with
      layerIncludedInOlsFlag, layerUsedAsOutputLayerFlag, outputLayerIdx,
      m_outputLayerIdInOls, m_numSubLayersInLayerInOLS }, j + 1)
  else return (o, j)

/-- The reference layer `k` of the output layer `j` is included. -/
def includeRefLayer (vps : VPS) (a : RefLayers) (i j idx k : ℕ) (o : OutputLayers) :
    Checked OutputLayers := do
  let ref ← readAt2 a.refLayerIdx idx k
  let ref ← index ref
  let layerIncludedInOlsFlag ← writeAt2 o.layerIncludedInOlsFlag i ref 1
  let numSubLayers ← readAt2 o.m_numSubLayersInLayerInOLS i ref
  let outputLayerId ← readAt2 o.m_outputLayerIdInOls i j
  let outputLayerId ← index outputLayerId
  let maxTid ← readAt vps.m_vpsMaxTidIlRefPicsPlus1 outputLayerId
  let m_numSubLayersInLayerInOLS ←
    (if numSubLayers < maxTid then writeAt2 o.m_numSubLayersInLayerInOLS i ref (maxTid : ℤ)
      else .ok o.m_numSubLayersInLayerInOLS : Checked (List (List ℤ)))
  return { o with layerIncludedInOlsFlag, m_numSubLayersInLayerInOLS }

/-- `m_vpsOlsModeIdc == 2`: the flagged layers are output, and the layers they refer to included. -/
def outputByFlags (vps : VPS) (a : RefLayers) (i : ℕ) (o : OutputLayers) : Checked OutputLayers := do
  let n := vps.m_uiMaxLayers
  let m_numSubLayersInLayerInOLS ←
    loop (fun j t => writeAt2 t i j 0) n o.m_numSubLayersInLayerInOLS
  let (o, j) ← loop (vps.outputFlagged i) n ({ o with m_numSubLayersInLayerInOLS }, 0)
  let m_numOutputLayersInOls ← writeAt o.m_numOutputLayersInOls i j
  loop (fun j o => do
    let idx ← readAt2 o.outputLayerIdx i j
    let idx ← index idx
    let numRefLayers ← readAt a.numRefLayers idx
    loop (vps.includeRefLayer a i j idx) numRefLayers o) j { o with m_numOutputLayersInOls }

def deriveOutputLayers (vps : VPS) (a : RefLayers) (i : ℕ) (o : OutputLayers) :
    Checked OutputLayers :=
  if vps.m_vpsEachLayerIsAnOlsFlag ∨ vps.m_vpsOlsModeIdc = 0 then vps.outputHighest i o
  else if vps.m_vpsOlsModeIdc = 1 then vps.outputAll i o
  else if vps.m_vpsOlsModeIdc = 2 then vps.outputByFlags a i o
  else .ok o

/-- The first OLS, and the flags of the layers before the OLSs are gone through. -/
def firstOutputLayers (vps : VPS) : Checked OutputLayers := do
  let n := vps.m_uiMaxLayers
  let total := vps.m_totalNumOLSs
  let m_numOutputLayersInOls ← writeAt (resize vps.m_numOutputLayersInOls total 0) 0 1
  let layerId ← readAt vps.m_vpsLayerId 0
  let m_outputLayerIdInOls ← writeAt2
    (resize vps.m_outputLayerIdInOls total (List.replicate n NOT_VALID)) 0 0 (layerId : ℤ)
  let m_numSubLayersInLayerInOLS ← writeAt2
    (resize vps.m_numSubLayersInLayerInOLS total (List.replicate n NOT_VALID)) 0 0
    (vps.m_vpsMaxSubLayers : ℤ)
  let layerUsedAsOutputLayerFlag ← writeAt (List.replicate n NOT_VALID) 0 1
  let layerUsedAsOutputLayerFlag ← loop (fun i t => writeAt t (i + 1)
    (if vps.m_vpsEachLayerIsAnOlsFlag ∨ vps.m_vpsOlsModeIdc < 2 then 1 else 0)) (n - 1)
    layerUsedAsOutputLayerFlag
  return {
    m_numOutputLayersInOls, m_outputLayerIdInOls, m_numSubLayersInLayerInOLS,
    outputLayerIdx := List.replicate total (List.replicate n NOT_VALID)
    layerIncludedInOlsFlag := List.replicate total (List.replicate n 0)
    layerUsedAsOutputLayerFlag }

/-! ## The layers of an output layer set -/

/-- What is derived for each OLS last. -/
structure IncludedLayers where
  m_numLayersInOls : List ℕ
  m_layerIdInOls : List (List ℤ)
  m_multiLayerOlsIdx : List ℕ
  m_numMultiLayeredOlss : ℕ
  deriving DecidableEq

/-- The round `k` of `m_vpsOlsModeIdc == 2`. -/
def includeLayer (vps : VPS) (o : OutputLayers) (i k : ℕ) (st : List (List ℤ) × ℕ) :
    Checked (List (List ℤ) × ℕ) := do
  let (m_layerIdInOls, j) := st
  let included ← readAt2 o.layerIncludedInOlsFlag i k
  if included ≠ 0 then
    let layerId ← readAt vps.m_vpsLayerId k
    let m_layerIdInOls ← writeAt2 m_layerIdInOls i j (layerId : ℤ)
    return (m_layerIdInOls, j + 1)
  else return (m_layerIdInOls, j)

/-- `m_layerIdInOls[i]` and `m_numLayersInOls[i]`. -/
def deriveLayers (vps : VPS) (o : OutputLayers) (i : ℕ) (m : IncludedLayers) :
    Checked IncludedLayers := do
  if vps.m_vpsEachLayerIsAnOlsFlag then
    let m_numLayersInOls ← writeAt m.m_numLayersInOls i 1
    let layerId ← readAt vps.m_vpsLayerId i
    let m_layerIdInOls ← writeAt2 m.m_layerIdInOls i 0 (layerId : ℤ)
    return { m with m_numLayersInOls, m_layerIdInOls }
  else if vps.m_vpsOlsModeIdc = 0 ∨ vps.m_vpsOlsModeIdc = 1 then
    let m_numLayersInOls ← writeAt m.m_numLayersInOls i (i + 1)
    let m_layerIdInOls ← loop (fun j t => do
      let layerId ← readAt vps.m_vpsLayerId j
      writeAt2 t i j (layerId : ℤ)) (i + 1) m.m_layerIdInOls
    return { m with m_numLayersInOls, m_layerIdInOls }
  else if vps.m_vpsOlsModeIdc = 2 then
    let (m_layerIdInOls, j) ← loop (vps.includeLayer o i) vps.m_uiMaxLayers (m.m_layerIdInOls, 0)
    let m_numLayersInOls ← writeAt m.m_numLayersInOls i j
    return { m with m_numLayersInOls, m_layerIdInOls }
  else return m

/-- The next multi-layer index goes to an OLS of more than one layer. -/
def numberMultiLayer (i : ℕ) (m : IncludedLayers) : Checked IncludedLayers := do
  let numLayers ← readAt m.m_numLayersInOls i
  if numLayers > 1 then
    let m_multiLayerOlsIdx ← writeAt m.m_multiLayerOlsIdx i m.m_numMultiLayeredOlss
    return { m with m_multiLayerOlsIdx, m_numMultiLayeredOlss := m.m_numMultiLayeredOlss + 1 }
  else return m

def deriveIncludedLayers (vps : VPS) (o : OutputLayers) : Checked IncludedLayers := do
  let n := vps.m_uiMaxLayers
  let total := vps.m_totalNumOLSs
  let m_numLayersInOls ← writeAt (resize vps.m_numLayersInOls total 0) 0 1
  let layerId ← readAt vps.m_vpsLayerId 0
  let m_layerIdInOls ← writeAt2
    (resize vps.m_layerIdInOls total (List.replicate n NOT_VALID)) 0 0 (layerId : ℤ)
  loop (fun i m => do
    let m ← vps.deriveLayers o (i + 1) m
    numberMultiLayer (i + 1) m) (total - 1)
    ⟨m_numLayersInOls, m_layerIdInOls, vps.m_multiLayerOlsIdx, 0⟩

/-- The last loop; `j` stays 0 in it. -/
def deriveMultiLayerOlsIdxToOlsIdx (vps : VPS) (m : IncludedLayers) : Checked (List ℕ) :=
  loop (fun i t => do
    let numLayers ← readAt m.m_numLayersInOls i
    if numLayers > 1 then writeAt t 0 i else return t) vps.m_totalNumOLSs
    (resize vps.m_multiLayerOlsIdxToOlsIdx m.m_numMultiLayeredOlss 0)

/-! ## The derivation -/

def totalNumOLSs (vps : VPS) : ℕ :=
  if vps.m_uiMaxLayers = 1 then 1
  else if vps.m_vpsEachLayerIsAnOlsFlag ∨ vps.m_vpsOlsModeIdc < 2 then vps.m_uiMaxLayers
  else if vps.m_vpsOlsModeIdc = 2 then vps.m_vpsNumOutputLayerSets
  else vps.m_totalNumOLSs

/-- Every layer is an output layer or a direct reference layer. -/
def checkLayersUsed (vps : VPS) (a : RefLayers) (o : OutputLayers) : Checked Unit :=
  loop (fun i _ => do
    let usedAsRef ← readAt a.layerUsedAsRefLayerFlag i
    let usedAsOutput ← readAt o.layerUsedAsOutputLayerFlag i
    check (usedAsRef = 0 ∧ usedAsOutput = 0)
      "There shall be no layer that is neither an output layer nor a direct reference layer")
    vps.m_uiMaxLayers ()

def deriveOutputLayerSets (vps : VPS) : Checked VPS := do
  let vps := { vps with m_totalNumOLSs := vps.totalNumOLSs }
  let a ← vps.deriveRefLayers
  let o ← vps.firstOutputLayers
  let o ← loop (fun i o => vps.deriveOutputLayers a (i + 1) o) (vps.m_totalNumOLSs - 1) o
  vps.checkLayersUsed a o
  let m ← vps.deriveIncludedLayers o
  let m_multiLayerOlsIdxToOlsIdx ← vps.deriveMultiLayerOlsIdxToOlsIdx m
  return { vps with
    m_numOutputLayersInOls := o.m_numOutputLayersInOls
    m_outputLayerIdInOls := o.m_outputLayerIdInOls
    m_numSubLayersInLayerInOLS := o.m_numSubLayersInLayerInOLS
    m_numLayersInOls := m.m_numLayersInOls
    m_layerIdInOls := m.m_layerIdInOls
    m_multiLayerOlsIdx := m.m_multiLayerOlsIdx
    m_numMultiLayeredOlss := m.m_numMultiLayeredOlss
    m_multiLayerOlsIdxToOlsIdx }

end VPS

end ECM.CommonLib
