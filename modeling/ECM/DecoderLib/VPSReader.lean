import ECM.CommonLib.VPSSoundness
import ECM.DecoderLib.ReadM

/-! # Parsing the video parameter set

`parseVPS` up to the derivation of the output layer sets. -/

namespace ECM.DecoderLib.VPSReader
open CommonLib Lib.Loop DecoderLib.VLCReader

/-- `vps_direct_dependency_flag[i][j]`, after `k` dependencies of the layer `i`. -/
def parseDirectDependency (i j : ℕ) (st : VPS × ℕ) : ReadM (VPS × ℕ) := do
  let (vps, k) := st
  let uiCode ← READ_FLAG
  let m_vpsDirectRefLayerFlag ← writeAt2 vps.m_vpsDirectRefLayerFlag i j uiCode
  let vps := { vps with m_vpsDirectRefLayerFlag }
  if uiCode then
    let m_interLayerRefIdx ← writeAt2 vps.m_interLayerRefIdx i j k
    let m_directRefLayerIdx ← writeAt2 vps.m_directRefLayerIdx i k j
    return ({ vps with m_interLayerRefIdx, m_directRefLayerIdx }, k + 1)
  else return (vps, k)

/-- The references of a layer that is not independent. -/
def parseDependencies (i : ℕ) (vps : VPS) : ReadM VPS := do
  let (vps, sumUiCode) ← loop (parseDirectDependency i) i (vps, 0)
  check (sumUiCode = 0)
    "There has to be at least one value of j such that the value of vps_direct_dependency_flag[ i ][ j ] is equal to 1,when vps_independent_layer_flag[ i ] is equal to 0 "
  let present ← READ_FLAG
  let maxTid ← (if present then READ_CODE 3 else pure 7 : ReadM ℕ)
  let m_vpsMaxTidIlRefPicsPlus1 ← writeAt vps.m_vpsMaxTidIlRefPicsPlus1 i maxTid
  return { vps with m_vpsMaxTidIlRefPicsPlus1 }

def parseLayer (i : ℕ) (vps : VPS) : ReadM VPS := do
  let layerId ← READ_CODE 6
  let m_vpsLayerId ← writeAt vps.m_vpsLayerId i layerId
  let m_generalLayerIdx ← writeAt vps.m_generalLayerIdx layerId i
  let vps := { vps with m_vpsLayerId, m_generalLayerIdx }
  if i > 0 ∧ vps.m_vpsAllIndependentLayersFlag = false then
    let independent ← READ_FLAG
    let m_vpsIndependentLayerFlag ← writeAt vps.m_vpsIndependentLayerFlag i independent
    let vps := { vps with m_vpsIndependentLayerFlag }
    if independent then return vps else parseDependencies i vps
  else return vps

/-- `ols_output_layer_flag[i]`. -/
def parseOutputLayerFlags (i : ℕ) (vps : VPS) : ReadM VPS :=
  loop (fun j vps => do
    let uiCode ← READ_FLAG
    let m_vpsOlsOutputLayerFlag ← writeAt2 vps.m_vpsOlsOutputLayerFlag i j uiCode
    return { vps with m_vpsOlsOutputLayerFlag }) vps.m_uiMaxLayers vps

/-- The output layer sets that are coded, with their number in a `uint8_t`. -/
def parseCodedSets (vps : VPS) : ReadM VPS := do
  let uiCode ← READ_CODE 8
  let vps := { vps with m_vpsNumOutputLayerSets := (uiCode + 2) % 2 ^ 8 }
  loop (fun i vps => parseOutputLayerFlags (i + 1) vps) (sub32 vps.m_vpsNumOutputLayerSets 1) vps

def parseOlsMode (vps : VPS) : ReadM VPS := do
  let vps ← (if vps.m_vpsAllIndependentLayersFlag then do
      let uiCode ← READ_FLAG
      let vps := { vps with m_vpsEachLayerIsAnOlsFlag := uiCode }
      pure (if uiCode then vps else { vps with m_vpsOlsModeIdc := 2 })
    else pure vps : ReadM VPS)
  if vps.m_vpsEachLayerIsAnOlsFlag then return vps
  else
    let vps ← (if vps.m_vpsAllIndependentLayersFlag then pure vps else do
        let uiCode ← READ_CODE 2
        check (uiCode > MAX_VPS_OLS_MODE_IDC) "ols_mode_idc shall be in the rage of 0 to 2"
        pure { vps with m_vpsOlsModeIdc := uiCode } : ReadM VPS)
    if vps.m_vpsOlsModeIdc = 2 then parseCodedSets vps else return vps

/-- The numbers of layers and sublayers, and the flags before the layers. -/
def parseMaxLayers (vps : VPS) : ReadM VPS := do
  let uiCode ← READ_CODE 4
  check (uiCode = 0)
    "vps_video_parameter_set_id equal to zero is reserved and shall not be used in a bitstream"
  let vps := { vps with m_VPSId := uiCode }
  let uiCode ← READ_CODE 6
  check (uiCode + 1 > MAX_VPS_LAYERS) "Signalled number of layers larger than MAX_VPS_LAYERS."
  let vps := { vps with
    m_uiMaxLayers := uiCode + 1
    m_vpsEachLayerIsAnOlsFlag := if uiCode = 0 then true else vps.m_vpsEachLayerIsAnOlsFlag }
  let uiCode ← READ_CODE 3
  check (uiCode + 1 > MAX_VPS_SUBLAYERS)
    "Signalled number of sublayers larger than MAX_VPS_SUBLAYERS."
  let vps := { vps with m_vpsMaxSubLayers := uiCode + 1 }
  let same ← (if vps.m_uiMaxLayers > 1 ∧ vps.m_vpsMaxSubLayers > 1 then READ_FLAG else pure true :
    ReadM Bool)
  let vps := { vps with m_vpsAllLayersSameNumSubLayersFlag := same }
  if vps.m_uiMaxLayers > 1 then
    let uiCode ← READ_FLAG
    return { vps with
      m_vpsAllIndependentLayersFlag := uiCode
      m_vpsEachLayerIsAnOlsFlag := if uiCode then vps.m_vpsEachLayerIsAnOlsFlag else false }
  else return vps

/-- `parseVPS` before `deriveOutputLayerSets`. -/
def parseLayers : ReadM VPS := do
  let vps ← parseMaxLayers .new
  let vps ← loop parseLayer vps.m_uiMaxLayers vps
  if vps.m_uiMaxLayers > 1 then
    let vps ← parseOlsMode vps
    let uiCode ← READ_CODE 8
    return { vps with m_vpsNumPtls := uiCode + 1 }
  else return { vps with m_vpsNumPtls := 1 }

end ECM.DecoderLib.VPSReader

/-! # What the parser knows of a VPS

Whatever bits `parseVPS` is given, the VPS it hands to `deriveOutputLayerSets` has
arrays of the right sizes, references to lower layers only, and flags that fit
together. -/

namespace ECM.DecoderLib.VPSReader
open CommonLib CommonLib.VPS Lib.Loop DecoderLib.VLCReader

variable {vps : VPS} {i j n : ℕ}

/-! ## The two tables of flags -/

theorem getD_tab {α : Type} {f : ℕ → α} {a : α} (hi : i < n) : (tab n f).getD i a = f i := by
  rw [List.getD_eq_getElem?_getD, getElem?_tab hi, Option.getD_some]

theorem getD_tab2 {m : ℕ} (f : ℕ → ℕ → Bool) (i j : ℕ) :
    ((tab m fun i => tab n (f i)).getD i []).getD j false =
      (decide (i < m) && decide (j < n) && f i j) := by
  by_cases hi : i < m
  · rw [getD_tab hi]
    by_cases hj : j < n
    · rw [getD_tab hj, decide_eq_true hi, decide_eq_true hj]
      rfl
    · rw [List.getD_eq_default _ _ (by rw [length_tab]; omega), decide_eq_false hj, Bool.and_false]
      rfl
  · have hrow : (tab m fun i => tab n (f i)).getD i [] = [] :=
      List.getD_eq_default _ _ (by rw [length_tab]; omega)
    rw [hrow, decide_eq_false hi]
    rfl

/-- A flag table, rebuilt from the flags read off it. -/
theorem tab_getD {m : ℕ} (f : ℕ → ℕ → Bool) : (tab m fun i => tab n (f i)) =
    tab m fun i => tab n fun j => ((tab m fun i => tab n (f i)).getD i []).getD j false := by
  refine tab_congr fun i hi => tab_congr fun j hj => ?_
  rw [getD_tab2, decide_eq_true hi, decide_eq_true hj]
  rfl

/-- The flag tables of a new VPS. -/
theorem flags_new (n m : ℕ) : (List.replicate n (List.replicate m false)) = tab n fun _ => tab m fun _ => false := by
  simp only [replicate_eq_tab]

theorem directRef_new (i j : ℕ) : VPS.new.directRef i j = false := by
  have hflags : VPS.new.m_vpsDirectRefLayerFlag = _ := flags_new MAX_VPS_LAYERS MAX_VPS_LAYERS
  rw [directRef, hflags, getD_tab2, Bool.and_false]

theorem arrays_new : VPS.new.Arrays where
  layerId := List.length_replicate
  layerId_lt id hid := by
    rw [(List.mem_replicate.mp hid).2]
    decide
  maxTid := List.length_replicate
  direct := by
    refine (flags_new MAX_VPS_LAYERS MAX_VPS_LAYERS).trans (tab_congr fun i _ => tab_congr fun j _ => ?_)
    exact (directRef_new i j).symm
  lower i j hij := by
    rw [directRef_new] at hij
    cases hij
  outputs := by
    have hflags : VPS.new.m_vpsOlsOutputLayerFlag = _ := flags_new MAX_NUM_OLSS MAX_VPS_LAYERS
    refine hflags.trans (tab_congr fun i _ => tab_congr fun j _ => ?_)
    rw [outputFlag, hflags, getD_tab2, Bool.and_false]
  multi := List.length_replicate
  empty := ⟨rfl, rfl, rfl, rfl, rfl, rfl⟩

/-- A direct reference written, to a lower layer. -/
theorem Arrays.writeDirect (h : vps.Arrays) (hj : j < i) {b : Bool} {t : List (List Bool)}
    (ht : writeAt2 vps.m_vpsDirectRefLayerFlag i j b = .ok t) :
    VPS.Arrays { vps with m_vpsDirectRefLayerFlag := t } := by
  have hdirect := h.direct
  rw [hdirect] at ht
  obtain ⟨-, -, rfl⟩ := writeAt2_tab_eq_ok ht
  refine ⟨h.layerId, h.layerId_lt, h.maxTid, tab_getD _, fun x y hxy => ?_, h.outputs, h.multi, h.empty⟩
  rw [directRef, getD_tab2, Bool.and_eq_true] at hxy
  by_cases hx : x = i
  · rw [hx, Function.update_self] at hxy
    by_cases hy : y = j
    · rw [hx, hy]
      exact hj
    · rw [Function.update_of_ne hy] at hxy
      rw [hx]
      exact h.lower i y hxy.2
  · rw [Function.update_of_ne hx] at hxy
    exact h.lower x y hxy.2

theorem Arrays.writeOutput (h : vps.Arrays) {b : Bool} {t : List (List Bool)}
    (ht : writeAt2 vps.m_vpsOlsOutputLayerFlag i j b = .ok t) :
    i < MAX_NUM_OLSS ∧ VPS.Arrays { vps with m_vpsOlsOutputLayerFlag := t } := by
  rw [h.outputs] at ht
  obtain ⟨hi, -, rfl⟩ := writeAt2_tab_eq_ok ht
  exact ⟨hi, h.layerId, h.layerId_lt, h.maxTid, h.direct, h.lower, tab_getD _, h.multi, h.empty⟩

/-! ## The layers -/

/-- The fields read before the layers. -/
structure SameFlags (vps vps' : VPS) : Prop where
  maxLayers : vps'.m_uiMaxLayers = vps.m_uiMaxLayers
  independent : vps'.m_vpsAllIndependentLayersFlag = vps.m_vpsAllIndependentLayersFlag
  each : vps'.m_vpsEachLayerIsAnOlsFlag = vps.m_vpsEachLayerIsAnOlsFlag
  mode : vps'.m_vpsOlsModeIdc = vps.m_vpsOlsModeIdc
  sets : vps'.m_vpsNumOutputLayerSets = vps.m_vpsNumOutputLayerSets

/-- A reader of one layer: the arrays stay in order, and the flags as they are. -/
def KeepsArrays (vps : VPS) (vps' : VPS) : Prop := vps'.Arrays ∧ SameFlags vps vps'

theorem ensures_parseDirectDependency (hj : j < i) {st : VPS × ℕ} (h : KeepsArrays vps st.1) :
    Ensures (parseDirectDependency i j st) fun st' => KeepsArrays vps st'.1 := by
  obtain ⟨vps₁, k⟩ := st
  obtain ⟨harr, hsame⟩ := h
  refine ensures_bind ensures_flag fun uiCode _ => ?_
  refine ensures_bind (ensures_lift fun t ht => ht) fun t ht => ?_
  have harr' := Arrays.writeDirect harr hj ht
  have hsame' : SameFlags vps { vps₁ with m_vpsDirectRefLayerFlag := t } :=
    ⟨hsame.maxLayers, hsame.independent, hsame.each, hsame.mode, hsame.sets⟩
  dsimp only
  split
  · refine ensures_bind (ensures_lift fun _ _ => trivial) fun t₁ _ => ?_
    refine ensures_bind (ensures_lift fun _ _ => trivial) fun t₂ _ => ?_
    exact ensures_pure ⟨⟨harr'.layerId, harr'.layerId_lt, harr'.maxTid, harr'.direct, harr'.lower,
      harr'.outputs, harr'.multi, harr'.empty⟩,
      ⟨hsame.maxLayers, hsame.independent, hsame.each, hsame.mode, hsame.sets⟩⟩
  · exact ensures_pure ⟨harr', hsame'⟩

theorem ensures_parseDependencies {vps₁ : VPS} (h : KeepsArrays vps vps₁) :
    Ensures (parseDependencies i vps₁) (KeepsArrays vps) := by
  refine ensures_bind (ensures_loop (P := fun _ st => KeepsArrays vps st.1) h
    fun j hj st hst => ensures_parseDirectDependency hj hst) fun st hst => ?_
  obtain ⟨vps₂, sumUiCode⟩ := st
  obtain ⟨harr, hsame⟩ := hst
  refine ensures_bind (ensures_check _) fun _ _ => ensures_bind ensures_flag fun present _ => ?_
  have hread : Ensures (if present then READ_CODE 3 else pure 7 : ReadM ℕ) fun _ => True := by
    split
    · exact ensures_code.mono fun _ _ => trivial
    · exact ensures_pure trivial
  refine ensures_bind hread fun maxTid _ => ensures_bind (ensures_lift fun t ht => ht) fun t ht => ?_
  refine ensures_pure ⟨⟨harr.layerId, harr.layerId_lt, ?_, harr.direct, harr.lower, harr.outputs,
    harr.multi, harr.empty⟩, ⟨hsame.maxLayers, hsame.independent, hsame.each, hsame.mode, hsame.sets⟩⟩
  rw [writeAt_eq_ok ht, List.length_set]
  exact harr.maxTid

/-- Independent layers have no references. -/
def NoReferences (vps : VPS) : Prop :=
  vps.m_vpsAllIndependentLayersFlag = true → ∀ i j, vps.directRef i j = false

theorem ensures_parseLayer {vps₁ : VPS} (h : KeepsArrays vps vps₁) (hrefs : NoReferences vps₁) :
    Ensures (parseLayer i vps₁) fun vps' => KeepsArrays vps vps' ∧ NoReferences vps' := by
  obtain ⟨harr, hsame⟩ := h
  refine ensures_bind ensures_code fun layerId hlt => ?_
  refine ensures_bind (ensures_lift fun t ht => ht) fun ids hids => ?_
  refine ensures_bind (ensures_lift fun _ _ => trivial) fun general _ => ?_
  have harr' : VPS.Arrays { vps₁ with m_vpsLayerId := ids, m_generalLayerIdx := general } := by
    refine ⟨?_, fun id hid => ?_, harr.maxTid, harr.direct, harr.lower, harr.outputs, harr.multi,
      harr.empty⟩
    · rw [writeAt_eq_ok hids, List.length_set]
      exact harr.layerId
    · rw [writeAt_eq_ok hids] at hid
      rcases List.mem_or_eq_of_mem_set hid with hmem | rfl
      · exact harr.layerId_lt id hmem
      · exact hlt
  have hsame' : SameFlags vps { vps₁ with m_vpsLayerId := ids, m_generalLayerIdx := general } :=
    ⟨hsame.maxLayers, hsame.independent, hsame.each, hsame.mode, hsame.sets⟩
  dsimp only
  split
  · next hdep =>
    refine ensures_bind ensures_flag fun independent _ => ?_
    refine ensures_bind (ensures_lift fun _ _ => trivial) fun flags _ => ?_
    have hkeep : KeepsArrays vps { vps₁ with
        m_vpsLayerId := ids, m_generalLayerIdx := general, m_vpsIndependentLayerFlag := flags } :=
      ⟨⟨harr'.layerId, harr'.layerId_lt, harr'.maxTid, harr'.direct, harr'.lower, harr'.outputs,
        harr'.multi, harr'.empty⟩,
        ⟨hsame.maxLayers, hsame.independent, hsame.each, hsame.mode, hsame.sets⟩⟩
    have hnone : ∀ vps', KeepsArrays vps vps' → NoReferences vps' := by
      intro vps' hkeep' hind
      rw [hkeep'.2.independent, ← hsame.independent, hdep.2] at hind
      cases hind
    split
    · exact ensures_pure ⟨hkeep, hnone _ hkeep⟩
    · exact (ensures_parseDependencies hkeep).mono fun vps' h' => ⟨h', hnone _ h'⟩
  · exact ensures_pure ⟨⟨harr', hsame'⟩, hrefs⟩

/-! ## The coded output layer sets -/

/-- A reader of output layer flags leaves the layers as they are. -/
structure KeepsLayers (vps vps' : VPS) : Prop where
  arrays : vps'.Arrays
  flags : SameFlags vps vps'
  direct : vps'.m_vpsDirectRefLayerFlag = vps.m_vpsDirectRefLayerFlag

theorem KeepsLayers.refl (h : vps.Arrays) : KeepsLayers vps vps := ⟨h, ⟨rfl, rfl, rfl, rfl, rfl⟩, rfl⟩

/-- The rows of the flags that are read lie inside the table. -/
theorem ensures_parseOutputLayerFlags {vps₁ : VPS} (h : KeepsLayers vps vps₁)
    (hn : 1 < vps.m_uiMaxLayers) :
    Ensures (parseOutputLayerFlags i vps₁) fun vps' => i < MAX_NUM_OLSS ∧ KeepsLayers vps vps' := by
  have hloop : Ensures (parseOutputLayerFlags i vps₁) fun vps' =>
      (0 < vps₁.m_uiMaxLayers → i < MAX_NUM_OLSS) ∧ KeepsLayers vps vps' := by
    refine ensures_loop (P := fun j vps' => (0 < j → i < MAX_NUM_OLSS) ∧ KeepsLayers vps vps')
      ⟨fun hlt => absurd hlt (Nat.lt_irrefl 0), h⟩ fun j _ vps₂ ⟨_, harr, hsame, hdirect⟩ => ?_
    refine ensures_bind ensures_flag fun uiCode _ => ensures_bind (ensures_lift fun t ht => ht) fun t ht => ?_
    obtain ⟨hi, harr'⟩ := Arrays.writeOutput harr ht
    exact ensures_pure ⟨fun _ => hi, harr',
      ⟨hsame.maxLayers, hsame.independent, hsame.each, hsame.mode, hsame.sets⟩, hdirect⟩
  refine hloop.mono fun vps' h' => ⟨h'.1 ?_, h'.2⟩
  rw [h.flags.maxLayers]
  omega

/-- `num_output_layer_sets` is not 0: the `2^32 - 1` rows of flags would not fit in the table. -/
theorem ensures_parseCodedSets (h : vps.Arrays) (hn : 1 < vps.m_uiMaxLayers) :
    Ensures (parseCodedSets vps) fun vps' =>
      ∃ num, 1 ≤ num ∧ num < MAX_NUM_OLSS ∧
        KeepsLayers { vps with m_vpsNumOutputLayerSets := num } vps' := by
  refine ensures_bind ensures_code fun uiCode _ => ?_
  have hmod : (uiCode + 2) % 2 ^ 8 < MAX_NUM_OLSS := Nat.mod_lt _ (by decide)
  generalize (uiCode + 2) % 2 ^ 8 = num at hmod
  have harr : VPS.Arrays { vps with m_vpsNumOutputLayerSets := num } :=
    ⟨h.layerId, h.layerId_lt, h.maxTid, h.direct, h.lower, h.outputs, h.multi, h.empty⟩
  refine (ensures_loop (P := fun i vps' => (0 < i → i < MAX_NUM_OLSS) ∧
    KeepsLayers { vps with m_vpsNumOutputLayerSets := num } vps')
    ⟨fun hlt => absurd hlt (Nat.lt_irrefl 0), .refl harr⟩ fun i _ vps₁ ⟨_, hkeep⟩ => ?_).mono ?_
  · exact (ensures_parseOutputLayerFlags hkeep hn).mono fun vps' h' => ⟨fun _ => h'.1, h'.2⟩
  · intro vps' ⟨hrows, hkeep⟩
    refine ⟨num, ?_, hmod, hkeep⟩
    by_contra hzero
    have hnum : num = 0 := by omega
    have hwrap : ¬(0 < sub32 0 1 → sub32 0 1 < MAX_NUM_OLSS) := by decide
    rw [hnum] at hrows
    exact hwrap hrows

/-! ## The whole VPS -/

/-- What is known before the layers are read. -/
structure Started (vps : VPS) : Prop where
  arrays : vps.Arrays
  refs : ∀ i j, vps.directRef i j = false
  one_le : 1 ≤ vps.m_uiMaxLayers
  le : vps.m_uiMaxLayers ≤ MAX_VPS_LAYERS
  mode : vps.m_vpsOlsModeIdc = 0
  single : vps.m_uiMaxLayers = 1 → vps.m_vpsEachLayerIsAnOlsFlag = true
  each : vps.m_vpsEachLayerIsAnOlsFlag = true → vps.m_vpsAllIndependentLayersFlag = true

theorem ensures_parseMaxLayers : Ensures (parseMaxLayers .new) Started := by
  refine ensures_bind ensures_code fun id _ => ensures_bind (ensures_check _) fun _ _ => ?_
  refine ensures_bind ensures_code fun maxLayers _ => ?_
  refine ensures_bind (ensures_check _) fun _ hmax => ?_
  refine ensures_bind ensures_code fun _ _ => ensures_bind (ensures_check _) fun _ _ => ?_
  have harr := arrays_new
  have hread : ∀ (c : Prop) [Decidable c], Ensures (if c then READ_FLAG else pure true : ReadM Bool)
      fun _ => True := by
    intro c _
    split
    · exact ensures_flag
    · exact ensures_pure trivial
  refine ensures_bind (hread _) fun _ _ => ?_
  dsimp only
  split
  · next hmulti =>
    refine ensures_bind ensures_flag fun independent _ => ensures_pure ?_
    refine ⟨⟨harr.layerId, harr.layerId_lt, harr.maxTid, harr.direct, harr.lower, harr.outputs,
      harr.multi, harr.empty⟩, directRef_new, Nat.le_add_left 1 _, Nat.le_of_not_lt hmax, rfl,
      fun hone => absurd hone (Nat.ne_of_gt hmulti), fun heach => ?_⟩
    cases independent
    · cases heach
    · rfl
  · next hmulti =>
    refine ensures_pure ⟨⟨harr.layerId, harr.layerId_lt, harr.maxTid, harr.direct, harr.lower,
      harr.outputs, harr.multi, harr.empty⟩, directRef_new, Nat.le_add_left 1 _,
      Nat.le_of_not_lt hmax, rfl, fun hone => ?_, fun _ => rfl⟩
    exact if_pos (by have := Nat.le_of_not_lt hmulti; omega)

/-- After the layers, and before the output layer sets. -/
structure LayersRead (vps : VPS) : Prop where
  arrays : vps.Arrays
  refs : NoReferences vps
  one_le : 1 ≤ vps.m_uiMaxLayers
  le : vps.m_uiMaxLayers ≤ MAX_VPS_LAYERS
  mode : vps.m_vpsOlsModeIdc = 0
  single : vps.m_uiMaxLayers = 1 → vps.m_vpsEachLayerIsAnOlsFlag = true
  each : vps.m_vpsEachLayerIsAnOlsFlag = true → vps.m_vpsAllIndependentLayersFlag = true

theorem Started.layers (h : Started vps) : Ensures (loop parseLayer vps.m_uiMaxLayers vps) LayersRead := by
  refine (ensures_loop (P := fun _ vps' => KeepsArrays vps vps' ∧ NoReferences vps')
    ⟨⟨h.arrays, rfl, rfl, rfl, rfl, rfl⟩, fun _ => h.refs⟩
    fun i _ vps₁ hvps₁ => ensures_parseLayer hvps₁.1 hvps₁.2).mono ?_
  rintro vps' ⟨⟨harr, hsame⟩, hrefs⟩
  refine ⟨harr, hrefs, ?_, ?_, hsame.mode.trans h.mode, ?_, ?_⟩
  · rw [hsame.maxLayers]
    exact h.one_le
  · rw [hsame.maxLayers]
    exact h.le
  · rw [hsame.maxLayers, hsame.each]
    exact h.single
  · rw [hsame.each, hsame.independent]
    exact h.each

/-- Output layer sets that are not coded. -/
theorem LayersRead.parsed (h : LayersRead vps) {each : Bool} {mode : ℕ} (hmode : mode ≤ 2)
    (hsingle : vps.m_uiMaxLayers = 1 → each = true)
    (heach : each = true → vps.m_vpsAllIndependentLayersFlag = true) (hcoded : each = false → mode ≠ 2) :
    VPS.Parsed { vps with m_vpsEachLayerIsAnOlsFlag := each, m_vpsOlsModeIdc := mode } :=
  have harr := h.arrays
  ⟨⟨harr.layerId, harr.layerId_lt, harr.maxTid, harr.direct, harr.lower, harr.outputs, harr.multi,
    harr.empty⟩, h.one_le, h.le, hmode, hsingle, fun he => h.refs (heach he),
    fun he hm => absurd hm (hcoded he)⟩

/-- Output layer sets that are coded. -/
theorem ensures_coded (h : LayersRead vps) (hn : 1 < vps.m_uiMaxLayers) :
    Ensures (parseCodedSets { vps with m_vpsEachLayerIsAnOlsFlag := false, m_vpsOlsModeIdc := 2 })
      VPS.Parsed := by
  have harr := h.arrays
  have harr' : VPS.Arrays { vps with m_vpsEachLayerIsAnOlsFlag := false, m_vpsOlsModeIdc := 2 } :=
    ⟨harr.layerId, harr.layerId_lt, harr.maxTid, harr.direct, harr.lower, harr.outputs, harr.multi,
      harr.empty⟩
  refine (ensures_parseCodedSets harr' hn).mono ?_
  rintro vps' ⟨num, hlo, hhi, harr₁, hsame, -⟩
  refine ⟨harr₁, ?_, ?_, ?_, ?_, ?_, ?_⟩
  · rw [hsame.maxLayers]
    exact h.one_le
  · rw [hsame.maxLayers]
    exact h.le
  · rw [hsame.mode]
  · rw [hsame.maxLayers]
    intro hone
    dsimp only at hone
    omega
  · rw [hsame.each]
    intro heach
    cases heach
  · rw [hsame.sets]
    exact fun _ _ => ⟨hlo, hhi⟩

theorem ensures_parseOlsMode (h : LayersRead vps) (hn : 1 < vps.m_uiMaxLayers) :
    Ensures (parseOlsMode vps) VPS.Parsed := by
  have hsingle : ∀ {each : Bool}, vps.m_uiMaxLayers = 1 → each = true := fun hone => by omega
  have hmode := h.mode
  cases hind : vps.m_vpsAllIndependentLayersFlag with
  | true =>
    refine ensures_bind (Q := fun vps' => ∃ each, vps' = { vps with
        m_vpsEachLayerIsAnOlsFlag := each
        m_vpsOlsModeIdc := if each then vps.m_vpsOlsModeIdc else 2 }) ?_ ?_
    · rw [hind, if_pos rfl]
      refine ensures_bind ensures_flag fun each _ => ensures_pure ⟨each, ?_⟩
      cases each
      · rfl
      · rfl
    · rintro _ ⟨each, rfl⟩
      cases each with
      | true =>
        exact ensures_pure (h.parsed (by rw [if_pos rfl]; omega) hsingle (fun _ => hind)
          (fun he => nomatch he))
      | false =>
        refine ensures_bind (Q := fun vps' => vps' = { vps with
          m_vpsEachLayerIsAnOlsFlag := false, m_vpsOlsModeIdc := 2 }) ?_ ?_
        · rw [if_pos hind]
          exact ensures_pure rfl
        · rintro _ rfl
          exact ensures_coded h hn
  | false =>
    refine ensures_bind (Q := fun vps' => vps = vps') ?_ ?_
    · rw [hind]
      exact ensures_pure rfl
    · rintro _ rfl
      have heach : vps.m_vpsEachLayerIsAnOlsFlag = false := by
        by_contra hne
        rw [Bool.not_eq_false] at hne
        exact Bool.noConfusion (hind.symm.trans (h.each hne))
      rw [heach]
      refine ensures_bind (Q := fun vps' => ∃ mode ≤ 2, vps' = { vps with
          m_vpsEachLayerIsAnOlsFlag := false, m_vpsOlsModeIdc := mode }) ?_ ?_
      · rw [hind]
        refine ensures_bind ensures_code fun mode _ => ensures_bind (ensures_check _)
          fun _ hle => ensures_pure ⟨mode, Nat.le_of_not_lt hle, ?_⟩
        rw [← heach]
      · rintro _ ⟨mode, hle, rfl⟩
        by_cases hmode : mode = 2
        · rw [hmode]
          exact ensures_coded h hn
        · rw [if_neg hmode]
          exact ensures_pure (h.parsed hle hsingle (fun he => nomatch he) fun _ => hmode)

/-- Whatever is read, the VPS is in order. -/
theorem ensures_parseLayers : Ensures parseLayers VPS.Parsed := by
  refine ensures_bind ensures_parseMaxLayers fun vps hvps => ensures_bind hvps.layers fun vps hvps => ?_
  have hptls : ∀ {vps : VPS} {num : ℕ}, vps.Parsed → VPS.Parsed { vps with m_vpsNumPtls := num } :=
    fun hp => ⟨⟨hp.layerId, hp.layerId_lt, hp.maxTid, hp.direct, hp.lower, hp.outputs, hp.multi, hp.empty⟩,
      hp.one_le, hp.le, hp.mode, hp.single, hp.independent, hp.coded⟩
  by_cases hn : vps.m_uiMaxLayers > 1
  · rw [if_pos hn]
    refine ensures_bind (ensures_parseOlsMode hvps hn) fun vps hvps => ?_
    exact ensures_bind ensures_code fun _ _ => ensures_pure (hptls hvps)
  · rw [if_neg hn]
    have hone := hvps.one_le
    have hmode := hvps.mode
    have hparsed : vps.Parsed := hvps.parsed (by omega) hvps.single hvps.each fun _ => by omega
    exact ensures_pure (hptls hparsed)

end ECM.DecoderLib.VPSReader
