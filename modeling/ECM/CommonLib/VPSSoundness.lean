import ECM.CommonLib.VPS
import Mathlib.Data.List.GetD
import Mathlib.Logic.Relation

/-! # What the derivation of the output layer sets computes

The tables are filled row by row. Each loop is described by what the rows behind it
hold; the references between layers go downwards, so that the rows before a layer
already hold what its own row needs. -/

namespace ECM.CommonLib.VPS
open CommonLib Lib.Loop Function List

/-! ## What the parser leaves -/

/-- `m_vpsDirectRefLayerFlag[i][j]`. -/
def directRef (vps : VPS) (i j : ℕ) : Bool := (vps.m_vpsDirectRefLayerFlag.getD i []).getD j false

/-- `m_vpsOlsOutputLayerFlag[i][j]`. -/
def outputFlag (vps : VPS) (i j : ℕ) : Bool := (vps.m_vpsOlsOutputLayerFlag.getD i []).getD j false

/-- The arrays of the VPS have their sizes, and references go to lower layers. -/
structure Arrays (vps : VPS) : Prop where
  layerId : vps.m_vpsLayerId.length = MAX_VPS_LAYERS
  layerId_lt : ∀ id ∈ vps.m_vpsLayerId, id < MAX_VPS_LAYERS
  maxTid : vps.m_vpsMaxTidIlRefPicsPlus1.length = MAX_VPS_LAYERS
  direct : vps.m_vpsDirectRefLayerFlag = tab MAX_VPS_LAYERS fun i => tab MAX_VPS_LAYERS (vps.directRef i)
  lower : ∀ i j, vps.directRef i j = true → j < i
  outputs : vps.m_vpsOlsOutputLayerFlag = tab MAX_NUM_OLSS fun i => tab MAX_VPS_LAYERS (vps.outputFlag i)
  multi : vps.m_multiLayerOlsIdx.length = MAX_NUM_OLSS
  empty : vps.m_numOutputLayersInOls = [] ∧ vps.m_outputLayerIdInOls = [] ∧
    vps.m_numSubLayersInLayerInOLS = [] ∧ vps.m_numLayersInOls = [] ∧ vps.m_layerIdInOls = [] ∧
    vps.m_multiLayerOlsIdxToOlsIdx = []

/-- A VPS that the parser hands to `deriveOutputLayerSets`. -/
structure Parsed (vps : VPS) : Prop extends Arrays vps where
  one_le : 1 ≤ vps.m_uiMaxLayers
  le : vps.m_uiMaxLayers ≤ MAX_VPS_LAYERS
  mode : vps.m_vpsOlsModeIdc ≤ 2
  single : vps.m_uiMaxLayers = 1 → vps.m_vpsEachLayerIsAnOlsFlag = true
  independent : vps.m_vpsEachLayerIsAnOlsFlag = true → ∀ i j, vps.directRef i j = false
  coded : vps.m_vpsEachLayerIsAnOlsFlag = false → vps.m_vpsOlsModeIdc = 2 →
    1 ≤ vps.m_vpsNumOutputLayerSets ∧ vps.m_vpsNumOutputLayerSets < MAX_NUM_OLSS

/-! ## References -/

/-- The layer `i` refers to the layer `j`, directly or through other layers. -/
def Refers (vps : VPS) : ℕ → ℕ → Prop := Relation.TransGen fun i j => vps.directRef i j = true

theorem refers_iff {vps : VPS} {i j : ℕ} : vps.Refers i j ↔
    vps.directRef i j = true ∨ ∃ k, vps.directRef i k = true ∧ vps.Refers k j := by
  constructor
  · intro h
    rcases Relation.TransGen.head'_iff.mp h with ⟨k, hik, hkj⟩
    rcases Relation.reflTransGen_iff_eq_or_transGen.mp hkj with rfl | hkj
    · exact .inl hik
    · exact .inr ⟨k, hik, hkj⟩
  · rintro (h | ⟨k, hik, hkj⟩)
    · exact .single h
    · exact .head hik hkj

theorem Refers.lt {vps : VPS} (h : vps.Arrays) {i j : ℕ} (hij : vps.Refers i j) : j < i := by
  induction hij with
  | single h' => exact h.lower _ _ h'
  | tail _ h' ih => exact Nat.lt_trans (h.lower _ _ h') ih

variable {vps : VPS} {n i j : ℕ}

theorem readAt2_directRef (h : vps.Arrays) (hi : i < MAX_VPS_LAYERS) (hj : j < MAX_VPS_LAYERS) :
    readAt2 vps.m_vpsDirectRefLayerFlag i j = .ok (vps.directRef i j) := by
  rw [h.direct, readAt2_tab hi hj]

/-- Row `i`, column `j` of the dependencies, when the rows above are done. -/
theorem deriveDependencyFlag_ok (h : vps.Arrays) (hn : n ≤ MAX_VPS_LAYERS) (hi : i < n) (hj : j < n)
    {f : ℕ → ℕ → ℤ} (hf : ∀ k < i, (f k j ≠ 0 ↔ vps.Refers k j)) :
    ∃ v, vps.deriveDependencyFlag i j (tab n fun a => tab n (f a)) =
        .ok (tab n fun a => tab n (update f i (update (f i) j v) a)) ∧
      (v ≠ 0 ↔ vps.Refers i j) := by
  have hset : ∀ (v v' : ℤ), writeAt2
      (tab n fun a => tab n (update f i (update (f i) j v) a)) i j v' =
      .ok (tab n fun a => tab n (update f i (update (f i) j v') a)) := by
    intro v v'
    rw [writeAt2_tab hi hj]
    simp only [update_self, update_idem]
  -- after `k` layers: a direct reference, or one through a layer below `k`
  let P (k : ℕ) (t : List (List ℤ)) : Prop := ∃ v,
    t = (tab n fun a => tab n (update f i (update (f i) j v) a)) ∧
      (v ≠ 0 ↔ vps.directRef i j = true ∨ ∃ k' < k, vps.directRef i k' = true ∧ vps.Refers k' j)
  have hinit : P 0 (tab n fun a => tab n (update f i
      (update (f i) j (if vps.directRef i j then 1 else 0)) a)) := by
    refine ⟨_, rfl, ?_⟩
    cases vps.directRef i j <;> simp
  obtain ⟨t, ht, v, rfl, hv⟩ := loop_total (n := i) (P := P) (b := fun k dependencyFlag => do
      let refers ← readAt2 vps.m_vpsDirectRefLayerFlag i k
      if refers then
        let dependency ← readAt2 dependencyFlag k j
        if dependency ≠ 0 then writeAt2 dependencyFlag i j 1 else return dependencyFlag
      else return dependencyFlag) hinit (by
    rintro k hk _ ⟨v, rfl, hv⟩
    have hread : readAt2 (tab n fun a => tab n (update f i (update (f i) j v) a)) k j
        = .ok (f k j) := by
      rw [readAt2_tab (by omega) hj, update_of_ne (by omega)]
    rw [readAt2_directRef h (by omega) (by omega), ok_bind]
    cases hik : vps.directRef i k with
    | false =>
      refine ⟨_, rfl, v, rfl, hv.trans (or_congr_right ?_)⟩
      rw [Nat.exists_lt_succ_right, or_iff_left (by rw [hik]; simp)]
    | true =>
      rw [if_pos rfl, hread, ok_bind]
      by_cases hkj : vps.Refers k j
      · rw [if_pos ((hf k hk).mpr hkj), hset]
        exact ⟨_, rfl, 1, rfl, iff_of_true (by decide) (.inr ⟨k, by omega, hik, hkj⟩)⟩
      · rw [if_neg (fun hne => hkj ((hf k hk).mp hne))]
        refine ⟨_, rfl, v, rfl, hv.trans (or_congr_right ?_)⟩
        rw [Nat.exists_lt_succ_right, or_iff_left (fun hr => hkj hr.2)])
  refine ⟨v, ?_, hv.trans ?_⟩
  · rw [deriveDependencyFlag, readAt2_directRef h (by omega) (by omega), ok_bind,
      writeAt2_tab hi hj, ok_bind]
    exact ht
  · rw [refers_iff]
    refine or_congr_right ⟨fun ⟨k, _, hr⟩ => ⟨k, hr⟩, fun ⟨k, hr⟩ => ⟨k, h.lower i k hr.1, hr⟩⟩

/-- After the layers below `i`: their dependencies, and the layers they refer to in order. -/
structure RefLayersDone (vps : VPS) (n i : ℕ) (a : RefLayers) : Prop where
  flags : ∃ f : ℕ → ℕ → ℤ, a.dependencyFlag = (tab n fun x => tab n (f x)) ∧
    ∀ x < i, ∀ y < n, (f x y ≠ 0 ↔ vps.Refers x y)
  rows : Rows vps.Refers Nat.cast n n NOT_VALID 0 i a.numRefLayers a.refLayerIdx
  used : a.layerUsedAsRefLayerFlag.length = n

/-- Inside the layer `i`, after the columns below `j`. -/
structure RefLayerDone (vps : VPS) (n i j : ℕ) (st : RefLayers × ℕ) : Prop where
  flags : ∃ f : ℕ → ℕ → ℤ, st.1.dependencyFlag = (tab n fun x => tab n (f x)) ∧
    (∀ x < i, ∀ y < n, (f x y ≠ 0 ↔ vps.Refers x y)) ∧ ∀ y < j, (f i y ≠ 0 ↔ vps.Refers i y)
  rows : RowsAt vps.Refers Nat.cast n n NOT_VALID 0 i j st.2 st.1.numRefLayers st.1.refLayerIdx
  used : st.1.layerUsedAsRefLayerFlag.length = n

theorem deriveRefLayer_ok (h : vps.Arrays) (hn : n ≤ MAX_VPS_LAYERS) (hi : i < n) (hj : j < n)
    {st : RefLayers × ℕ} (hst : RefLayerDone vps n i j st) :
    ∃ st', vps.deriveRefLayer i j st = .ok st' ∧ RefLayerDone vps n i (j + 1) st' := by
  obtain ⟨a, r⟩ := st
  obtain ⟨⟨f, hflag, habove, hrow⟩, hrows, hused⟩ := hst
  dsimp only at hflag hrows hused
  obtain ⟨v, hderive, hv⟩ := deriveDependencyFlag_ok h hn hi hj fun k hk => habove k hk j hj
  have hflags : ∃ g : ℕ → ℕ → ℤ, (tab n fun x => tab n
      (update f i (update (f i) j v) x)) = (tab n fun x => tab n (g x)) ∧
      (∀ x < i, ∀ y < n, (g x y ≠ 0 ↔ vps.Refers x y)) ∧
      ∀ y < j + 1, (g i y ≠ 0 ↔ vps.Refers i y) := by
    refine ⟨_, rfl, fun x hx y hy => ?_, fun y hy => ?_⟩
    · rw [update_of_ne (by omega)]
      exact habove x hx y hy
    · rw [update_self]
      rcases Nat.lt_succ_iff_lt_or_eq.mp hy with hlt | rfl
      · rw [update_of_ne (by omega)]
        exact hrow y hlt
      · rw [update_self]
        exact hv
  obtain ⟨used, husedrun, hused'⟩ : ∃ used,
      (if vps.directRef i j then writeAt a.layerUsedAsRefLayerFlag j 1
        else .ok a.layerUsedAsRefLayerFlag : Checked (List ℤ)) = .ok used ∧ used.length = n := by
    split
    · rw [writeAt_ok (by rw [hused]; exact hj)]
      exact ⟨_, rfl, by rw [length_set, hused]⟩
    · exact ⟨_, rfl, hused⟩
  have hlast : readAt2 (tab n fun x => tab n
      (update f i (update (f i) j v) x)) i j = .ok v := by
    rw [readAt2_tab hi hj, update_self, update_self]
  rw [deriveRefLayer, hflag, hderive, ok_bind, readAt2_directRef h (by omega) (by omega), ok_bind,
    husedrun, ok_bind, hlast, ok_bind]
  by_cases hij : vps.Refers i j
  · obtain ⟨t, ht, hrows'⟩ := hrows.push hi hj hij
    rw [if_pos (hv.mpr hij), ht, ok_bind]
    exact ⟨_, rfl, hflags, hrows', hused'⟩
  · rw [if_neg (fun hne => hij (hv.mp hne))]
    exact ⟨_, rfl, hflags, hrows.skip hij, hused'⟩

/-- The references of every layer, in order. -/
theorem deriveRefLayers_ok (h : vps.Parsed) :
    ∃ a, vps.deriveRefLayers = .ok a ∧ RefLayersDone vps vps.m_uiMaxLayers vps.m_uiMaxLayers a := by
  refine loop_total ⟨⟨fun _ _ => NOT_VALID, ?_, fun x hx => absurd hx (Nat.not_lt_zero x)⟩,
    rows_init _ _ _ _ _, length_replicate⟩ ?_
  · simp only [replicate_eq_tab]
  · rintro i hi a ⟨⟨f, hflag, habove⟩, hrows, hused⟩
    obtain ⟨⟨a', r⟩, hrun, ⟨f', hflag', habove', hrow'⟩, hrows', hused'⟩ :=
      loop_total (n := vps.m_uiMaxLayers) (b := vps.deriveRefLayer i) (s := (a, 0))
        (P := RefLayerDone vps vps.m_uiMaxLayers i)
        ⟨⟨f, hflag, habove, fun y hy => absurd hy (Nat.not_lt_zero y)⟩, hrows.start, hused⟩
        fun j hj st hst => deriveRefLayer_ok h.toArrays h.le hi hj hst
    dsimp only at hflag' hrows' hused'
    obtain ⟨nums, hnums, hget, hrows''⟩ := hrows'.number hi r
    rw [hrun, ok_bind]
    dsimp only
    rw [hnums, ok_bind]
    refine ⟨_, rfl, ⟨f', hflag', fun x hx => ?_⟩, hrows''.done hi hget, hused'⟩
    rcases Nat.lt_succ_iff_lt_or_eq.mp hx with hlt | rfl
    · exact habove' x hlt
    · exact hrow'

/-! ## Output layers -/

/-- `m_vpsLayerId[k]`. -/
def layerId (vps : VPS) (k : ℕ) : ℤ := (vps.m_vpsLayerId.getD k 0 : ℕ)

theorem readAt_layerId (h : vps.Arrays) {k : ℕ} (hk : k < MAX_VPS_LAYERS) :
    ∃ id : ℕ, readAt vps.m_vpsLayerId k = .ok id ∧ (id : ℤ) = vps.layerId k ∧ id < MAX_VPS_LAYERS := by
  rw [← h.layerId] at hk
  refine ⟨vps.m_vpsLayerId[k], readAt_ok (List.getElem?_eq_getElem hk), ?_,
    h.layerId_lt _ (getElem_mem hk)⟩
  rw [layerId, getD_eq_getElem _ _ hk]

/-- The layer `k` is output in the OLS `i`. -/
def Outputs (vps : VPS) (i k : ℕ) : Prop :=
  if i = 0 then k = 0
  else if vps.m_vpsEachLayerIsAnOlsFlag ∨ vps.m_vpsOlsModeIdc = 0 then k = i
  else if vps.m_vpsOlsModeIdc = 1 then k ≤ i
  else vps.outputFlag i k = true

/-- The layer `k` belongs to the OLS `i`. -/
def Included (vps : VPS) (i k : ℕ) : Prop :=
  if i = 0 then k = 0
  else if vps.m_vpsEachLayerIsAnOlsFlag then k = i
  else if vps.m_vpsOlsModeIdc = 0 ∨ vps.m_vpsOlsModeIdc = 1 then k ≤ i
  else vps.outputFlag i k = true ∨
    ∃ o < vps.m_uiMaxLayers, vps.outputFlag i o = true ∧ vps.Refers o k

/-- The output layers of the OLSs below `i`; `n` layers, `m` OLSs. -/
structure OutputsDone (vps : VPS) (n m i : ℕ) (o : OutputLayers) : Prop where
  rows : Rows vps.Outputs vps.layerId n m NOT_VALID 0 i o.m_numOutputLayersInOls o.m_outputLayerIdInOls
  subLayers : Rect m n o.m_numSubLayersInLayerInOLS
  outputIdx : ∃ rows, o.outputLayerIdx = tab m rows ∧ ∀ x, i ≤ x → rows x = filled [] n NOT_VALID
  included : ∃ g : ℕ → ℕ → ℤ, o.layerIncludedInOlsFlag = (tab m fun x => tab n (g x)) ∧
    (vps.m_vpsEachLayerIsAnOlsFlag = false → vps.m_vpsOlsModeIdc = 2 →
      ∀ x < i, 1 ≤ x → ∀ k < n, (g x k ≠ 0 ↔ vps.Included x k)) ∧
    ∀ x, i ≤ x → ∀ k, g x k = 0
  used : o.layerUsedAsOutputLayerFlag.length = n

variable {m : ℕ} {o : OutputLayers}

/-- A loop that writes into a table keeps its shape. -/
theorem loop_rect {t : List (List ℤ)} {b : ℕ → List (List ℤ) → Checked (List (List ℤ))}
    (h : Rect m n t) {k : ℕ}
    (hbody : ∀ j < k, ∀ t, Rect m n t → ∃ t', b j t = .ok t' ∧ Rect m n t') :
    ∃ t', loop b k t = .ok t' ∧ Rect m n t' :=
  loop_total (P := fun _ => Rect m n) h hbody

theorem outputHighest_ok (h : vps.Arrays) (hn : n ≤ MAX_VPS_LAYERS) (hi : i < m) (h1 : 1 ≤ i)
    (hin : i < n) (hmode : vps.m_vpsEachLayerIsAnOlsFlag ∨ vps.m_vpsOlsModeIdc = 0)
    (ho : OutputsDone vps n m i o) :
    ∃ o', vps.outputHighest i o = .ok o' ∧ OutputsDone vps n m (i + 1) o' := by
  obtain ⟨hrows, hsub, ⟨idx, hidx, hidx'⟩, ⟨g, hg, hdone, hzero⟩, hused⟩ := ho
  have hp : ∀ k, vps.Outputs i k ↔ k = i := by
    intro k
    rw [Outputs, if_neg (by omega), if_pos hmode]
  obtain ⟨nums, hnums, hget, hrow⟩ := hrows.start.number hi 1
  obtain ⟨id, hid, hidval, -⟩ := readAt_layerId h (Nat.lt_of_lt_of_le hin hn)
  obtain ⟨t, ht, hrow'⟩ := (hrow.extend (Nat.zero_le i) fun x _ hx hpx => by
    rw [hp] at hpx; omega).push hi hin ((hp i).mpr rfl)
  obtain ⟨maxTid, hmaxTid⟩ : ∃ v, readAt vps.m_vpsMaxTidIlRefPicsPlus1 i = .ok v :=
    ⟨_, readAt_ok (List.getElem?_eq_getElem (by rw [h.maxTid]; omega))⟩
  obtain ⟨sub, hsubrun, hsub'⟩ := loop_rect (k := if vps.m_vpsOlsModeIdc = 0 then i else 0)
    (b := fun j t => do
      let maxTid ← readAt vps.m_vpsMaxTidIlRefPicsPlus1 i
      writeAt2 t i j (maxTid : ℤ)) hsub fun j hj t ht => by
    rw [hmaxTid, ok_bind]
    exact ht.write hi (by split at hj <;> omega) _
  obtain ⟨sub', hsubrun', hsub''⟩ := hsub'.write hi hin (vps.m_vpsMaxSubLayers : ℤ)
  rw [outputHighest, hnums, ok_bind, hid, ok_bind, hidval, ht, ok_bind, hsubrun, ok_bind, hsubrun',
    ok_bind]
  refine ⟨_, rfl, (hrow'.extend hin fun x hx _ hpx => ?_).done hi hget, hsub'',
    ⟨idx, hidx, fun x hx => hidx' x (by omega)⟩, ⟨g, hg, fun heach hm => ?_, fun x hx => hzero x (by omega)⟩,
    hused⟩
  · rw [hp] at hpx
    omega
  · rw [heach, hm] at hmode
    simp at hmode

theorem outputAll_ok (h : vps.Arrays) (hn : n ≤ MAX_VPS_LAYERS) (hi : i < m) (h1 : 1 ≤ i)
    (hin : i < n) (heach : vps.m_vpsEachLayerIsAnOlsFlag = false) (hmode : vps.m_vpsOlsModeIdc = 1)
    (ho : OutputsDone vps n m i o) :
    ∃ o', vps.outputAll i o = .ok o' ∧ OutputsDone vps n m (i + 1) o' := by
  obtain ⟨hrows, hsub, ⟨idx, hidx, hidx'⟩, ⟨g, hg, hdone, hzero⟩, hused⟩ := ho
  have hp : ∀ k, vps.Outputs i k ↔ k ≤ i := by
    intro k
    rw [Outputs, if_neg (by omega), if_neg (by rw [heach, hmode]; simp), if_pos hmode]
  obtain ⟨nums, hnums, hget, hrow⟩ := hrows.start.number hi (i + 1)
  obtain ⟨o', hrun, ⟨hrow', hget'⟩, hsub', hsame⟩ := loop_total (n := i + 1)
    (b := fun j o => do
      let layerId ← readAt vps.m_vpsLayerId j
      let m_outputLayerIdInOls ← writeAt2 o.m_outputLayerIdInOls i j (layerId : ℤ)
      let m_numSubLayersInLayerInOLS ←
        writeAt2 o.m_numSubLayersInLayerInOLS i j (vps.m_vpsMaxSubLayers : ℤ)
      return { o with m_outputLayerIdInOls, m_numSubLayersInLayerInOLS })
    (s := { o with m_numOutputLayersInOls := nums })
    (P := fun j o' => (RowsAt vps.Outputs vps.layerId n m NOT_VALID 0 i j j
        o'.m_numOutputLayersInOls o'.m_outputLayerIdInOls ∧
        o'.m_numOutputLayersInOls[i]? = some (i + 1)) ∧ Rect m n o'.m_numSubLayersInLayerInOLS ∧
      (o'.outputLayerIdx = o.outputLayerIdx ∧ o'.layerIncludedInOlsFlag = o.layerIncludedInOlsFlag ∧
        o'.layerUsedAsOutputLayerFlag = o.layerUsedAsOutputLayerFlag))
    ⟨⟨hrow, hget⟩, hsub, rfl, rfl, rfl⟩ (by
      rintro j hj t ⟨⟨hrow, hget⟩, hsub, hsame⟩
      obtain ⟨id, hid, hidval, -⟩ := readAt_layerId h (show j < MAX_VPS_LAYERS by omega)
      obtain ⟨rows', hwrite, hrow'⟩ := hrow.push hi (by omega) ((hp j).mpr (by omega))
      obtain ⟨sub, hsubrun, hsub'⟩ := hsub.write hi (show j < n by omega) (vps.m_vpsMaxSubLayers : ℤ)
      rw [hid, ok_bind, hidval, hwrite, ok_bind, hsubrun, ok_bind]
      exact ⟨_, rfl, ⟨hrow', hget⟩, hsub', hsame⟩)
  rw [outputAll, hnums, ok_bind, hrun]
  refine ⟨o', rfl, (hrow'.extend hin fun x hx _ hpx => ?_).done hi hget', hsub',
    ⟨idx, hsame.1.trans hidx, fun x hx => hidx' x (by omega)⟩,
    ⟨g, hsame.2.1.trans hg, fun _ hm => ?_, fun x hx => hzero x (by omega)⟩,
    by rw [hsame.2.2, hused]⟩
  · rw [hp] at hpx
    omega
  · rw [hm] at hmode
    cases hmode

/-- Inside the OLS `i`, after the flags of the layers below `k`: the layers flagged are
listed, by their ids and by their indices, and included. -/
structure FlaggedDone (vps : VPS) (n m i k : ℕ) (g₀ : ℕ → ℕ → ℤ) (st : OutputLayers × ℕ) :
    Prop where
  rows : RowsAt vps.Outputs vps.layerId n m NOT_VALID 0 i k st.2
    st.1.m_numOutputLayersInOls st.1.m_outputLayerIdInOls
  subLayers : Rect m n st.1.m_numSubLayersInLayerInOLS
  outputIdx : RowsAt vps.Outputs Nat.cast n m NOT_VALID i i k st.2
    st.1.m_numOutputLayersInOls st.1.outputLayerIdx
  included : ∃ g : ℕ → ℕ → ℤ, st.1.layerIncludedInOlsFlag = (tab m fun x => tab n (g x)) ∧
    (∀ x ≠ i, g x = g₀ x) ∧ (∀ c < k, (g i c ≠ 0 ↔ vps.outputFlag i c = true)) ∧
    ∀ c, k ≤ c → g i c = 0
  used : st.1.layerUsedAsOutputLayerFlag.length = n

variable {k : ℕ} {g₀ : ℕ → ℕ → ℤ}

theorem outputs_iff (heach : vps.m_vpsEachLayerIsAnOlsFlag = false)
    (hmode : vps.m_vpsOlsModeIdc = 2) (h1 : 1 ≤ i) (k : ℕ) :
    vps.Outputs i k ↔ vps.outputFlag i k = true := by
  rw [Outputs, if_neg (by omega), if_neg (by rw [heach, hmode]; simp), if_neg (by omega)]

theorem outputFlagged_ok (h : vps.Arrays) (hn : n ≤ MAX_VPS_LAYERS) (hm : m ≤ MAX_NUM_OLSS)
    (hi : i < m) (hk : k < n) (hp : ∀ k, vps.Outputs i k ↔ vps.outputFlag i k = true)
    {st : OutputLayers × ℕ} (hst : FlaggedDone vps n m i k g₀ st) :
    ∃ st', vps.outputFlagged i k st = .ok st' ∧ FlaggedDone vps n m i (k + 1) g₀ st' := by
  obtain ⟨o, j⟩ := st
  obtain ⟨hrow, hsub, hidx, ⟨g, hg, hother, hflag, hzero⟩, hused⟩ := hst
  dsimp only at hrow hsub hidx hg hused
  have hread : readAt2 vps.m_vpsOlsOutputLayerFlag i k = .ok (vps.outputFlag i k) := by
    rw [h.outputs, readAt2_tab (Nat.lt_of_lt_of_le hi hm) (Nat.lt_of_lt_of_le hk hn)]
  rw [outputFlagged, hread, ok_bind]
  by_cases hik : vps.outputFlag i k = true
  · obtain ⟨id, hid, hidval, -⟩ := readAt_layerId h (Nat.lt_of_lt_of_le hk hn)
    obtain ⟨idx', hidxrun, hidx'⟩ := hidx.push hi hk ((hp k).mpr hik)
    obtain ⟨ids', hidsrun, hrow'⟩ := hrow.push hi hk ((hp k).mpr hik)
    obtain ⟨sub', hsubrun, hsub'⟩ := hsub.write hi hk (vps.m_vpsMaxSubLayers : ℤ)
    rw [if_pos hik, hg, writeAt2_tab hi hk, ok_bind, writeAt_ok (by rw [hused]; exact hk), ok_bind,
      hidxrun, ok_bind, hid, ok_bind, hidval, hidsrun, ok_bind, hsubrun, ok_bind]
    refine ⟨_, rfl, hrow', hsub', hidx', ⟨_, rfl, fun x hx => ?_, fun c hc => ?_, fun c hc => ?_⟩,
      by rw [length_set, hused]⟩
    · rw [update_of_ne hx, hother x hx]
    · rw [update_self]
      rcases Nat.lt_succ_iff_lt_or_eq.mp hc with hlt | rfl
      · rw [update_of_ne (by omega)]
        exact hflag c hlt
      · rw [update_self]
        exact iff_of_true (by decide) hik
    · rw [update_self, update_of_ne (by omega)]
      exact hzero c (by omega)
  · rw [if_neg hik]
    refine ⟨_, rfl, hrow.skip (fun hc => hik ((hp k).mp hc)), hsub,
      hidx.skip (fun hc => hik ((hp k).mp hc)), ⟨g, hg, hother, fun c hc => ?_,
        fun c hc => hzero c (by omega)⟩, hused⟩
    rcases Nat.lt_succ_iff_lt_or_eq.mp hc with hlt | rfl
    · exact hflag c hlt
    · exact iff_of_false (fun hne => hne (hzero c (Nat.le_refl c))) hik

/-- What the loops that include reference layers change in `o`: the row `i` of the
flags, with `q` the layers flagged now. -/
structure RefsIncluded (n m i : ℕ) (g₀ : ℕ → ℕ → ℤ) (o : OutputLayers) (q : ℕ → Prop)
    (o' : OutputLayers) : Prop where
  subLayers : Rect m n o'.m_numSubLayersInLayerInOLS
  included : ∃ g : ℕ → ℕ → ℤ, o'.layerIncludedInOlsFlag = (tab m fun x => tab n (g x)) ∧
    (∀ x ≠ i, g x = g₀ x) ∧ ∀ c < n, (g i c ≠ 0 ↔ q c)
  same : o'.m_numOutputLayersInOls = o.m_numOutputLayersInOls ∧
    o'.m_outputLayerIdInOls = o.m_outputLayerIdInOls ∧ o'.outputLayerIdx = o.outputLayerIdx ∧
    o'.layerUsedAsOutputLayerFlag = o.layerUsedAsOutputLayerFlag

theorem RefsIncluded.congr {q q' : ℕ → Prop} {o' : OutputLayers}
    (h : RefsIncluded n m i g₀ o q o') (hq : ∀ c < n, q c ↔ q' c) :
    RefsIncluded n m i g₀ o q' o' := by
  obtain ⟨hsub, ⟨g, hg, hother, hflag⟩, hsame⟩ := h
  exact ⟨hsub, ⟨g, hg, hother, fun c hc => (hflag c hc).trans (hq c hc)⟩, hsame⟩

/-- One reference layer is included. -/
theorem includeRefLayer_ok (h : vps.Arrays) (hn : n ≤ MAX_VPS_LAYERS) (hi : i < m) {a : RefLayers}
    {idx ref outputLayer : ℕ} (hread : readAt2 a.refLayerIdx idx k = .ok (ref : ℤ)) (href : ref < n)
    (houtput : readAt2 o.m_outputLayerIdInOls i j = .ok (vps.layerId outputLayer))
    (hlt : outputLayer < n) {q : ℕ → Prop} {o' : OutputLayers}
    (ho' : RefsIncluded n m i g₀ o q o') :
    ∃ o'', vps.includeRefLayer a i j idx k o' = .ok o'' ∧
      RefsIncluded n m i g₀ o (fun c => q c ∨ c = ref) o'' := by
  obtain ⟨hsub, ⟨g, hg, hother, hflag⟩, hsame⟩ := ho'
  obtain ⟨num, hnum⟩ := hsub.read hi href
  obtain ⟨id, -, hidval, hidlt⟩ := readAt_layerId h (Nat.lt_of_lt_of_le hlt hn)
  obtain ⟨maxTid, hmaxTid⟩ : ∃ v, readAt vps.m_vpsMaxTidIlRefPicsPlus1 id = .ok v :=
    ⟨_, readAt_ok (List.getElem?_eq_getElem (by rw [h.maxTid]; exact hidlt))⟩
  obtain ⟨sub', hsubrun, hsub'⟩ : ∃ t,
      (if num < (maxTid : ℤ) then writeAt2 o'.m_numSubLayersInLayerInOLS i ref (maxTid : ℤ)
        else .ok o'.m_numSubLayersInLayerInOLS : Checked (List (List ℤ))) = .ok t ∧ Rect m n t := by
    split
    · exact hsub.write hi href _
    · exact ⟨_, rfl, hsub⟩
  rw [includeRefLayer, hread, ok_bind, index_natCast, ok_bind, hg, writeAt2_tab hi href, ok_bind,
    hnum, ok_bind, hsame.2.1, houtput, ok_bind, ← hidval, index_natCast, ok_bind, hmaxTid, ok_bind,
    hsubrun, ok_bind]
  refine ⟨_, rfl, hsub', ⟨_, rfl, fun x hx => ?_, fun c hc => ?_⟩,
    ⟨hsame.1, rfl, hsame.2.2.1, hsame.2.2.2⟩⟩
  · rw [update_of_ne hx, hother x hx]
  · rw [update_self]
    by_cases hcr : c = ref
    · rw [hcr, update_self]
      exact iff_of_true (by decide) (.inr rfl)
    · rw [update_of_ne hcr, hflag c hc, or_iff_left hcr]

theorem included_iff (heach : vps.m_vpsEachLayerIsAnOlsFlag = false)
    (hmode : vps.m_vpsOlsModeIdc = 2) (h1 : 1 ≤ i) (k : ℕ) :
    vps.Included i k ↔ vps.outputFlag i k = true ∨
      ∃ o < vps.m_uiMaxLayers, vps.outputFlag i o = true ∧ vps.Refers o k := by
  rw [Included, if_neg (by omega), if_neg (by rw [heach]; simp), if_neg (by omega)]

theorem outputByFlags_ok (h : vps.Parsed) (hm : m ≤ MAX_NUM_OLSS) (hi : i < m) (h1 : 1 ≤ i)
    (heach : vps.m_vpsEachLayerIsAnOlsFlag = false) (hmode : vps.m_vpsOlsModeIdc = 2)
    {a : RefLayers} (ha : RefLayersDone vps vps.m_uiMaxLayers vps.m_uiMaxLayers a)
    (ho : OutputsDone vps vps.m_uiMaxLayers m i o) :
    ∃ o', vps.outputByFlags a i o = .ok o' ∧ OutputsDone vps vps.m_uiMaxLayers m (i + 1) o' := by
  obtain ⟨hrows, hsub, ⟨idx, hidx, hidx'⟩, ⟨g, hg, hdone, hzero⟩, hused⟩ := ho
  have hp := outputs_iff heach hmode h1
  obtain ⟨sub, hsubrun, hsub'⟩ := loop_rect (k := vps.m_uiMaxLayers)
    (b := fun j t => writeAt2 t i j 0) hsub fun j hj t ht => ht.write hi hj 0
  -- the flagged layers
  obtain ⟨⟨o₁, r⟩, hrun₁, hrow₁, hsub₁, hidx₁, ⟨g₁, hg₁, hother₁, hflag₁, -⟩, hused₁⟩ :=
    loop_total (n := vps.m_uiMaxLayers) (b := vps.outputFlagged i)
      (s := ({ o with m_numSubLayersInLayerInOLS := sub }, 0))
      (P := fun k => FlaggedDone vps vps.m_uiMaxLayers m i k g)
      ⟨hrows.start, hsub', by
        obtain ⟨num, rows, hnum, -⟩ := hrows
        exact (rows_untouched hnum hidx hidx').start,
        ⟨g, hg, fun _ _ => rfl, fun c hc => absurd hc (Nat.not_lt_zero c), fun c _ => hzero i (Nat.le_refl i) c⟩,
        hused⟩
      fun k hk st hst => outputFlagged_ok h.toArrays h.le hm hi hk hp hst
  dsimp only at hrow₁ hsub₁ hidx₁ hg₁ hused₁
  obtain ⟨nums, hnums, hget, hrow₂⟩ := hrow₁.number hi r
  obtain ⟨ks, hks, hr, hidxread⟩ := hidx₁.read hi
  obtain ⟨ks', hks', hr', hidread⟩ := hrow₂.read hi
  -- the layers they refer to
  obtain ⟨o₂, hrun₂, hincl⟩ := loop_total (n := r)
    (b := fun j o => do
      let idx ← readAt2 o.outputLayerIdx i j
      let idx ← index idx
      let numRefLayers ← readAt a.numRefLayers idx
      loop (vps.includeRefLayer a i j idx) numRefLayers o)
    (s := { o₁ with m_numOutputLayersInOls := nums })
    (P := fun j => RefsIncluded vps.m_uiMaxLayers m i g { o₁ with m_numOutputLayersInOls := nums }
      fun c => vps.outputFlag i c = true ∨ ∃ j' < j, ∃ x, ks[j']? = some x ∧ vps.Refers x c)
    ⟨hsub₁, ⟨g₁, hg₁, hother₁, fun c hc => by rw [hflag₁ c hc]; simp⟩, rfl, rfl, rfl, rfl⟩ (by
      intro j hj t ht
      have hjks : j < ks.length := by omega
      have hjks' : j < ks'.length := by omega
      obtain ⟨hxlt, -⟩ := (hks.mem_iff _).mp (getElem_mem hjks)
      obtain ⟨hxlt', -⟩ := (hks'.mem_iff _).mp (getElem_mem hjks')
      obtain ⟨refs, hrefs, hnumrefs, -, hrefread⟩ := ha.rows.read (Nat.zero_le _) hxlt hxlt
      have hidxj : readAt2 t.outputLayerIdx i j = .ok ((ks[j] : ℕ) : ℤ) := by
        rw [ht.same.2.2.1]
        exact hidxread j _ (List.getElem?_eq_getElem hjks)
      rw [hidxj, ok_bind, index_natCast, ok_bind, hnumrefs, ok_bind]
      obtain ⟨t', hrun, ht'⟩ := loop_total (n := refs.length) (s := t)
        (b := vps.includeRefLayer a i j ks[j])
        (P := fun k => RefsIncluded vps.m_uiMaxLayers m i g
          { o₁ with m_numOutputLayersInOls := nums } fun c =>
            (vps.outputFlag i c = true ∨ ∃ j' < j, ∃ x, ks[j']? = some x ∧ vps.Refers x c) ∨
              ∃ k' < k, refs[k']? = some c)
        (ht.congr fun c _ => by simp) (by
          intro k hk t ht
          have href := List.getElem?_eq_getElem hk
          obtain ⟨hreflt, -⟩ := (hrefs.mem_iff _).mp (getElem_mem hk)
          obtain ⟨t', ht', hincl⟩ := includeRefLayer_ok
            (o := { o₁ with m_numOutputLayersInOls := nums }) h.toArrays h.le hi
            (hrefread k _ href) hreflt (hidread j _ (List.getElem?_eq_getElem hjks')) hxlt' ht
          refine ⟨t', ht', hincl.congr fun c _ => ?_⟩
          rw [Nat.exists_lt_succ_right, or_assoc, href, Option.some_inj, @eq_comm _ c])
      refine ⟨t', hrun, ht'.congr fun c hc => ?_⟩
      have hmem : (∃ k' < refs.length, refs[k']? = some c) ↔ vps.Refers ks[j] c := by
        constructor
        · rintro ⟨k', _, hk'⟩
          exact ((hrefs.mem_iff c).mp (mem_of_getElem? hk')).2
        · intro hrefers
          obtain ⟨k', hk', hy⟩ := mem_iff_getElem.mp ((hrefs.mem_iff c).mpr ⟨hc, hrefers⟩)
          exact ⟨k', hk', by rw [List.getElem?_eq_getElem hk', hy]⟩
      rw [hmem, Nat.exists_lt_succ_right, or_assoc, List.getElem?_eq_getElem hjks]
      simp)
  obtain ⟨hsub₂, ⟨g₂, hg₂, hother₂, hflag₂⟩, hsame⟩ := hincl
  rw [outputByFlags, hsubrun, ok_bind, hrun₁, ok_bind]
  dsimp only
  rw [hnums, ok_bind, hrun₂]
  obtain ⟨rows₁, hrows₁, hrest₁⟩ := hidx₁.untouched
  refine ⟨o₂, rfl, ?_, hsub₂, ⟨rows₁, hsame.2.2.1.trans hrows₁, hrest₁⟩,
    ⟨g₂, hg₂, fun _ _ x hx hx1 c hc => ?_, fun x hx c => ?_⟩, ?_⟩
  · rw [hsame.1, hsame.2.1]
    exact hrow₂.done hi hget
  · rcases Nat.lt_succ_iff_lt_or_eq.mp hx with hlt | rfl
    · rw [hother₂ x (by omega)]
      exact hdone heach hmode x hlt hx1 c hc
    · rw [hflag₂ c hc, included_iff heach hmode h1]
      refine or_congr_right ?_
      constructor
      · rintro ⟨j', -, y, hy, hrefers⟩
        obtain ⟨hylt, hpy⟩ := (hks.mem_iff y).mp (mem_of_getElem? hy)
        exact ⟨y, hylt, (hp y).mp hpy, hrefers⟩
      · rintro ⟨y, hylt, hpy, hrefers⟩
        obtain ⟨j', hj', hy⟩ := mem_iff_getElem.mp ((hks.mem_iff y).mpr ⟨hylt, (hp y).mpr hpy⟩)
        exact ⟨j', by omega, y, by rw [List.getElem?_eq_getElem hj', hy], hrefers⟩
  · rw [hother₂ x (by omega)]
    exact hzero x (by omega) c
  · rw [hsame.2.2.2]
    exact hused₁

/-- The modes the parser admits, and the number of OLSs each of them has. -/
theorem deriveOutputLayers_ok (h : vps.Parsed) (hm : m ≤ MAX_NUM_OLSS) (hi : i < m) (h1 : 1 ≤ i)
    (hall : vps.m_vpsEachLayerIsAnOlsFlag = true ∨ vps.m_vpsOlsModeIdc < 2 → m ≤ vps.m_uiMaxLayers)
    {a : RefLayers} (ha : RefLayersDone vps vps.m_uiMaxLayers vps.m_uiMaxLayers a)
    (ho : OutputsDone vps vps.m_uiMaxLayers m i o) :
    ∃ o', vps.deriveOutputLayers a i o = .ok o' ∧
      OutputsDone vps vps.m_uiMaxLayers m (i + 1) o' := by
  rw [deriveOutputLayers]
  by_cases hzero : vps.m_vpsEachLayerIsAnOlsFlag ∨ vps.m_vpsOlsModeIdc = 0
  · have hin := hall (hzero.imp_right fun h0 => by omega)
    rw [if_pos hzero]
    exact outputHighest_ok h.toArrays h.le hi h1 (by omega) hzero ho
  · rw [if_neg hzero]
    rw [not_or, Bool.not_eq_true] at hzero
    by_cases hone : vps.m_vpsOlsModeIdc = 1
    · have hin := hall (.inr (by omega))
      rw [if_pos hone]
      exact outputAll_ok h.toArrays h.le hi h1 (by omega) hzero.1 hone ho
    · have hmode := h.mode
      have htwo : vps.m_vpsOlsModeIdc = 2 := by omega
      rw [if_neg hone, if_pos htwo]
      exact outputByFlags_ok h hm hi h1 hzero.1 htwo ha ho

theorem resize_nil {α : Type} (n : ℕ) (a : α) : resize [] n a = List.replicate n a := by
  rw [resize, take_nil, nil_append]
  rfl

theorem firstOutputLayers_ok (h : vps.Parsed) (hm : 1 ≤ vps.m_totalNumOLSs) :
    ∃ o, vps.firstOutputLayers = .ok o ∧
      OutputsDone vps vps.m_uiMaxLayers vps.m_totalNumOLSs 1 o := by
  obtain ⟨hempty₁, hempty₂, hempty₃, -⟩ := h.empty
  obtain ⟨id, hid, hidval, -⟩ := readAt_layerId h.toArrays (show 0 < MAX_VPS_LAYERS by decide)
  have hp : ∀ k, vps.Outputs 0 k ↔ k = 0 := fun k => by rw [Outputs, if_pos rfl]
  obtain ⟨nums, hnums, hget, hrow⟩ := (rows_init vps.Outputs vps.layerId vps.m_uiMaxLayers
    vps.m_totalNumOLSs NOT_VALID).start.number hm 1
  obtain ⟨t, ht, hrow'⟩ := hrow.push hm h.one_le ((hp 0).mpr rfl)
  obtain ⟨sub, hsub, hsub'⟩ := (rect_replicate vps.m_totalNumOLSs vps.m_uiMaxLayers NOT_VALID).write
    hm h.one_le (vps.m_vpsMaxSubLayers : ℤ)
  obtain ⟨used, hused, hused'⟩ := loop_total (n := vps.m_uiMaxLayers - 1)
    (P := fun _ t => t.length = vps.m_uiMaxLayers)
    (s := (List.replicate vps.m_uiMaxLayers NOT_VALID).set 0 1)
    (b := fun i t => writeAt t (i + 1)
      (if vps.m_vpsEachLayerIsAnOlsFlag ∨ vps.m_vpsOlsModeIdc < 2 then 1 else 0))
    (by rw [length_set, length_replicate]) (by
      intro i hi t ht
      rw [writeAt_ok (by omega)]
      exact ⟨_, rfl, by rw [length_set, ht]⟩)
  rw [firstOutputLayers, hempty₁, hempty₂, hempty₃, resize_nil, resize_nil, hnums, ok_bind, hid, ok_bind,
    hidval, ht, ok_bind, hsub, ok_bind, writeAt_ok (by rw [length_replicate]; exact h.one_le),
    ok_bind, hused, ok_bind]
  refine ⟨_, rfl, (hrow'.extend h.one_le fun x hx _ hpx => ?_).done hm hget, hsub',
    ⟨fun _ => filled [] _ NOT_VALID, replicate_eq_tab _ _, fun _ _ => rfl⟩,
    ⟨fun _ _ => 0, ?_, fun _ _ x hx hx1 => by omega, fun _ _ _ => rfl⟩, hused'⟩
  · rw [hp] at hpx
    omega
  · simp only [replicate_eq_tab]

/-! ## The layers of an output layer set -/

/-- The layers of the OLSs below `i`, and the numbers of those with several layers. -/
structure LayersDone (vps : VPS) (n m i : ℕ) (l : IncludedLayers) : Prop where
  rows : Rows vps.Included vps.layerId n m NOT_VALID 0 i l.m_numLayersInOls l.m_layerIdInOls
  multi : ∃ ks, Enumerates (fun x => ∃ v, l.m_numLayersInOls[x]? = some v ∧ 1 < v) i ks ∧
    l.m_numMultiLayeredOlss = ks.length ∧
    ∀ k x : ℕ, ks[k]? = some x → l.m_multiLayerOlsIdx[x]? = some k
  length : l.m_multiLayerOlsIdx.length = MAX_NUM_OLSS

variable {l : IncludedLayers}

/-- The row of the OLS `i` was written, with its length. -/
structure LayersWritten (vps : VPS) (n m i : ℕ) (l l' : IncludedLayers) : Prop where
  rows : Rows vps.Included vps.layerId n m NOT_VALID 0 (i + 1) l'.m_numLayersInOls l'.m_layerIdInOls
  same : l'.m_multiLayerOlsIdx = l.m_multiLayerOlsIdx ∧
    l'.m_numMultiLayeredOlss = l.m_numMultiLayeredOlss
  others : ∀ x < i, l'.m_numLayersInOls[x]? = l.m_numLayersInOls[x]?

section
variable (h : vps.Parsed) (hi : i < m) (h1 : 1 ≤ i)
  (hl : Rows vps.Included vps.layerId vps.m_uiMaxLayers m NOT_VALID 0 i l.m_numLayersInOls
    l.m_layerIdInOls)
include h hi h1 hl

theorem deriveLayers_each (heach : vps.m_vpsEachLayerIsAnOlsFlag = true) (hin : i < vps.m_uiMaxLayers) :
    ∃ l', vps.deriveLayers o i l = .ok l' ∧ LayersWritten vps vps.m_uiMaxLayers m i l l' := by
  have hp : ∀ k, vps.Included i k ↔ k = i := fun k => by
    rw [Included, if_neg (by omega), if_pos heach]
  obtain ⟨nums, hnums, hget, hrow⟩ := hl.start.number hi 1
  obtain ⟨id, hid, hidval, -⟩ := readAt_layerId h.toArrays (Nat.lt_of_lt_of_le hin h.le)
  obtain ⟨t, ht, hrow'⟩ := (hrow.extend (Nat.zero_le i) fun x _ hx hpx => by
    rw [hp] at hpx; omega).push hi hin ((hp i).mpr rfl)
  rw [deriveLayers, if_pos heach, hnums, ok_bind, hid, ok_bind, hidval, ht, ok_bind]
  refine ⟨_, rfl, (hrow'.extend hin fun x hx _ hpx => ?_).done hi hget, ⟨rfl, rfl⟩,
    fun x hx => writeAt_other hnums (Nat.ne_of_lt hx)⟩
  rw [hp] at hpx
  omega

theorem deriveLayers_lower (heach : vps.m_vpsEachLayerIsAnOlsFlag = false)
    (hmode : vps.m_vpsOlsModeIdc = 0 ∨ vps.m_vpsOlsModeIdc = 1) (hin : i < vps.m_uiMaxLayers) :
    ∃ l', vps.deriveLayers o i l = .ok l' ∧ LayersWritten vps vps.m_uiMaxLayers m i l l' := by
  have hp : ∀ k, vps.Included i k ↔ k ≤ i := fun k => by
    rw [Included, if_neg (by omega), if_neg (by rw [heach]; simp), if_pos hmode]
  have hle := h.le
  obtain ⟨nums, hnums, hget, hrow⟩ := hl.start.number hi (i + 1)
  obtain ⟨t, ht, hrow'⟩ := loop_total (n := i + 1)
    (b := fun j t => do
      let layerId ← readAt vps.m_vpsLayerId j
      writeAt2 t i j (layerId : ℤ))
    (P := fun j t => RowsAt vps.Included vps.layerId vps.m_uiMaxLayers m NOT_VALID 0 i j j nums t)
    hrow (by
      intro j hj t hrow
      obtain ⟨id, hid, hidval, -⟩ := readAt_layerId h.toArrays (show j < MAX_VPS_LAYERS by omega)
      obtain ⟨t', ht', hrow'⟩ := hrow.push hi (by omega) ((hp j).mpr (by omega))
      rw [hid, ok_bind, hidval]
      exact ⟨t', ht', hrow'⟩)
  rw [deriveLayers, if_neg (by rw [heach]; simp), if_pos hmode, hnums, ok_bind, ht, ok_bind]
  refine ⟨_, rfl, (hrow'.extend hin fun x hx _ hpx => ?_).done hi hget, ⟨rfl, rfl⟩,
    fun x hx => writeAt_other hnums (Nat.ne_of_lt hx)⟩
  rw [hp] at hpx
  omega

theorem deriveLayers_flagged (heach : vps.m_vpsEachLayerIsAnOlsFlag = false)
    (hmode : vps.m_vpsOlsModeIdc = 2) (ho : OutputsDone vps vps.m_uiMaxLayers m m o) :
    ∃ l', vps.deriveLayers o i l = .ok l' ∧ LayersWritten vps vps.m_uiMaxLayers m i l l' := by
  obtain ⟨g, hg, hflag, -⟩ := ho.included
  have hp := hflag heach hmode i hi h1
  obtain ⟨⟨t, r⟩, hrun, hrow⟩ := loop_total (n := vps.m_uiMaxLayers) (b := vps.includeLayer o i)
    (s := (l.m_layerIdInOls, 0))
    (P := fun k st => RowsAt vps.Included vps.layerId vps.m_uiMaxLayers m NOT_VALID 0 i k st.2
      l.m_numLayersInOls st.1)
    hl.start (by
      rintro k hk ⟨t, j⟩ hrow
      dsimp only at hrow
      rw [includeLayer, hg, readAt2_tab hi hk, ok_bind]
      by_cases hik : vps.Included i k
      · obtain ⟨id, hid, hidval, -⟩ := readAt_layerId h.toArrays (Nat.lt_of_lt_of_le hk h.le)
        obtain ⟨t', ht', hrow'⟩ := hrow.push hi hk hik
        rw [if_pos ((hp k hk).mpr hik), hid, ok_bind, hidval, ht', ok_bind]
        exact ⟨_, rfl, hrow'⟩
      · rw [if_neg (fun hne => hik ((hp k hk).mp hne))]
        exact ⟨_, rfl, hrow.skip hik⟩)
  dsimp only at hrow
  obtain ⟨nums, hnums, hget, hrow'⟩ := hrow.number hi r
  rw [deriveLayers, if_neg (by rw [heach]; simp), if_neg (by omega), if_pos hmode, hrun, ok_bind]
  dsimp only
  rw [hnums, ok_bind]
  exact ⟨_, rfl, hrow'.done hi hget, ⟨rfl, rfl⟩,
    fun x hx => writeAt_other hnums (Nat.ne_of_lt hx)⟩

/-- The layers of one OLS. -/
theorem deriveLayers_ok
    (hall : vps.m_vpsEachLayerIsAnOlsFlag = true ∨ vps.m_vpsOlsModeIdc < 2 → m ≤ vps.m_uiMaxLayers)
    (ho : OutputsDone vps vps.m_uiMaxLayers m m o) :
    ∃ l', vps.deriveLayers o i l = .ok l' ∧ LayersWritten vps vps.m_uiMaxLayers m i l l' := by
  by_cases heach : vps.m_vpsEachLayerIsAnOlsFlag = true
  · have hin := hall (.inl heach)
    exact deriveLayers_each h hi h1 hl heach (by omega)
  · rw [Bool.not_eq_true] at heach
    by_cases hmode : vps.m_vpsOlsModeIdc = 0 ∨ vps.m_vpsOlsModeIdc = 1
    · have hin := hall (.inr (by omega))
      exact deriveLayers_lower h hi h1 hl heach hmode (by omega)
    · have hle := h.mode
      exact deriveLayers_flagged h hi h1 hl heach (by omega) ho

end

/-- The number of a multi-layer OLS is the count of those before it. -/
theorem numberMultiLayer_ok (hm : m ≤ MAX_NUM_OLSS) (hi : i < m) {l' : IncludedLayers}
    (hl : LayersDone vps n m i l) (hw : LayersWritten vps n m i l l') :
    ∃ l'', numberMultiLayer i l' = .ok l'' ∧ LayersDone vps n m (i + 1) l'' := by
  obtain ⟨-, ⟨ks, hks, hnum, hidx⟩, hlen⟩ := hl
  obtain ⟨hrows, ⟨hsame, hsame'⟩, hothers⟩ := hw
  obtain ⟨row, -, hread, -⟩ := hrows.read (Nat.zero_le i) (Nat.lt_succ_self i) hi
  have hget := readAt_eq_ok hread
  have hks' : Enumerates (fun x => ∃ v, l'.m_numLayersInOls[x]? = some v ∧ 1 < v) i ks :=
    hks.congr fun x hx => by rw [hothers x hx]
  rw [numberMultiLayer, hread, ok_bind]
  by_cases hmulti : row.length > 1
  · have hlt : i < l'.m_multiLayerOlsIdx.length := by rw [hsame, hlen]; omega
    rw [if_pos hmulti, writeAt_ok hlt, ok_bind]
    refine ⟨_, rfl, hrows, ⟨ks ++ [i], hks'.push ⟨row.length, hget, hmulti⟩, ?_, fun k x hk => ?_⟩,
      by rw [length_set, hsame, hlen]⟩
    · rw [length_append, length_singleton, ← hnum, ← hsame']
    · by_cases hx : x = i
      · have hlast : k = ks.length := by
          by_contra hne
          have hlt' := (List.getElem?_eq_some_iff.mp hk).1
          rw [length_append, length_singleton] at hlt'
          rw [List.getElem?_append_left (by omega)] at hk
          have := ((hks.mem_iff x).mp (mem_of_getElem? hk)).1
          omega
        rw [hx, List.getElem?_set_self hlt, hlast, ← hnum, hsame']
      · rw [List.getElem?_set_ne (Ne.symm hx), hsame]
        refine hidx k x ?_
        by_cases hk' : k < ks.length
        · rwa [List.getElem?_append_left hk'] at hk
        · rw [List.getElem?_append_right (by omega), List.getElem?_singleton] at hk
          split at hk
          · exact absurd (Option.some.inj hk).symm hx
          · cases hk
  · rw [if_neg hmulti]
    refine ⟨_, rfl, hrows, ⟨ks, hks'.skip ?_, hsame'.trans hnum, fun k x hk => ?_⟩, by rw [hsame, hlen]⟩
    · rintro ⟨v, hv, hlt⟩
      rw [hget] at hv
      exact hmulti (Option.some.inj hv ▸ hlt)
    · rw [hsame]
      exact hidx k x hk

theorem deriveIncludedLayers_ok (h : vps.Parsed) (hm1 : 1 ≤ vps.m_totalNumOLSs)
    (hm : vps.m_totalNumOLSs ≤ MAX_NUM_OLSS)
    (hall : vps.m_vpsEachLayerIsAnOlsFlag = true ∨ vps.m_vpsOlsModeIdc < 2 →
      vps.m_totalNumOLSs ≤ vps.m_uiMaxLayers)
    (ho : OutputsDone vps vps.m_uiMaxLayers vps.m_totalNumOLSs vps.m_totalNumOLSs o) :
    ∃ l, vps.deriveIncludedLayers o = .ok l ∧
      LayersDone vps vps.m_uiMaxLayers vps.m_totalNumOLSs vps.m_totalNumOLSs l := by
  obtain ⟨-, -, -, hempty₁, hempty₂, -⟩ := h.empty
  obtain ⟨id, hid, hidval, -⟩ := readAt_layerId h.toArrays (show 0 < MAX_VPS_LAYERS by decide)
  have hp : ∀ k, vps.Included 0 k ↔ k = 0 := fun k => by rw [Included, if_pos rfl]
  obtain ⟨nums, hnums, hget, hrow⟩ := (rows_init vps.Included vps.layerId vps.m_uiMaxLayers
    vps.m_totalNumOLSs NOT_VALID).start.number hm1 1
  obtain ⟨t, ht, hrow'⟩ := hrow.push hm1 h.one_le ((hp 0).mpr rfl)
  have hfirst : LayersDone vps vps.m_uiMaxLayers vps.m_totalNumOLSs (0 + 1)
      ⟨nums, t, vps.m_multiLayerOlsIdx, 0⟩ := by
    refine ⟨(hrow'.extend h.one_le fun x hx _ hpx => ?_).done hm1 hget,
      ⟨[], (enumerates_nil _).skip ?_, rfl, fun k x hk => by cases hk⟩, h.multi⟩
    · rw [hp] at hpx
      omega
    · rintro ⟨v, hv, hlt⟩
      cases hget.symm.trans hv
      exact absurd hlt (by decide)
  obtain ⟨l, hl, hdone⟩ := loop_total (n := vps.m_totalNumOLSs - 1)
    (b := fun i m => do
      let m ← vps.deriveLayers o (i + 1) m
      numberMultiLayer (i + 1) m)
    (P := fun i => LayersDone vps vps.m_uiMaxLayers vps.m_totalNumOLSs (i + 1)) hfirst (by
      intro i hi l hl
      have hlt : i + 1 < vps.m_totalNumOLSs := by omega
      obtain ⟨l', hl', hw⟩ := deriveLayers_ok h hlt (Nat.le_add_left 1 i) hl.rows hall ho
      rw [hl', ok_bind]
      exact numberMultiLayer_ok hm hlt hl hw)
  rw [Nat.sub_add_cancel hm1] at hdone
  rw [deriveIncludedLayers, hempty₁, hempty₂, resize_nil, resize_nil, hnums, ok_bind, hid, ok_bind, hidval,
    ht, ok_bind]
  exact ⟨l, hl, hdone⟩

theorem deriveMultiLayerOlsIdxToOlsIdx_ok (h : vps.Parsed)
    (hl : LayersDone vps n vps.m_totalNumOLSs vps.m_totalNumOLSs l) :
    ∃ t, vps.deriveMultiLayerOlsIdxToOlsIdx l = .ok t ∧ t.length = l.m_numMultiLayeredOlss := by
  obtain ⟨hrows, ⟨ks, hks, hnum, -⟩, -⟩ := hl
  refine loop_total (P := fun _ (t : List ℕ) => t.length = l.m_numMultiLayeredOlss) ?_ ?_
  · rw [h.empty.2.2.2.2.2, resize, take_nil, nil_append, length_replicate,
      length_nil, Nat.sub_zero]
  · intro i hi t ht
    obtain ⟨row, -, hread, -⟩ := hrows.read (Nat.zero_le i) hi hi
    rw [hread, ok_bind]
    by_cases hmulti : row.length > 1
    · have hmem : i ∈ ks := (hks.mem_iff i).mpr ⟨hi, row.length, readAt_eq_ok hread, hmulti⟩
      have hpos : 0 < ks.length := length_pos_of_mem hmem
      rw [if_pos hmulti, writeAt_ok (by omega)]
      exact ⟨_, rfl, by rw [length_set, ht]⟩
    · rw [if_neg hmulti]
      exact ⟨t, rfl, ht⟩

def unusedLayer : String :=
  "There shall be no layer that is neither an output layer nor a direct reference layer"

theorem checkLayersUsed_cases {a : RefLayers} (ha : a.layerUsedAsRefLayerFlag.length = vps.m_uiMaxLayers)
    (ho : o.layerUsedAsOutputLayerFlag.length = vps.m_uiMaxLayers) :
    vps.checkLayersUsed a o = .ok () ∨ vps.checkLayersUsed a o = .error unusedLayer := by
  cases hrun : vps.checkLayersUsed a o with
  | ok u => exact .inl rfl
  | error e =>
    obtain ⟨i, hi, -, -, hbody⟩ := loop_error (P := fun _ _ => True) trivial
      (fun _ _ _ _ _ _ => trivial) hrun
    rw [readAt_ok (List.getElem?_eq_getElem (by omega)), ok_bind,
      readAt_ok (List.getElem?_eq_getElem (by omega)), ok_bind] at hbody
    rw [check] at hbody
    split at hbody
    · cases hbody
      exact .inr rfl
    · cases hbody

/-! ## The derivation -/

theorem Parsed.total (h : vps.Parsed) (total : ℕ) : ({ vps with m_totalNumOLSs := total }).Parsed :=
  ⟨⟨h.layerId, h.layerId_lt, h.maxTid, h.direct, h.lower, h.outputs, h.multi, h.empty⟩, h.one_le, h.le,
    h.mode, h.single, h.independent, h.coded⟩

theorem Parsed.totalNumOLSs (h : vps.Parsed) :
    1 ≤ vps.totalNumOLSs ∧ vps.totalNumOLSs ≤ MAX_NUM_OLSS ∧
      (vps.m_vpsEachLayerIsAnOlsFlag = true ∨ vps.m_vpsOlsModeIdc < 2 →
        vps.totalNumOLSs = vps.m_uiMaxLayers) := by
  have hone := h.one_le
  have hle : vps.m_uiMaxLayers ≤ 64 := h.le
  have hmode := h.mode
  have hmax : MAX_NUM_OLSS = 256 := rfl
  rw [VPS.totalNumOLSs]
  by_cases h1 : vps.m_uiMaxLayers = 1
  · rw [if_pos h1]
    omega
  · rw [if_neg h1]
    by_cases hall : vps.m_vpsEachLayerIsAnOlsFlag = true ∨ vps.m_vpsOlsModeIdc < 2
    · rw [if_pos hall]
      omega
    · rw [if_neg hall]
      rw [not_or, Bool.not_eq_true] at hall
      obtain ⟨hlo, hhi⟩ := h.coded hall.1 (by omega)
      rw [if_pos (by omega)]
      refine ⟨hlo, Nat.le_of_lt hhi, fun hor => ?_⟩
      rw [hall.1] at hor
      rcases hor with hor | hor
      · cases hor
      · omega

/-- The tables of a VPS whose output layer sets are derived; the layers are those of `vps`. -/
structure Derived (vps vps' : VPS) : Prop where
  total : vps'.m_totalNumOLSs = vps.totalNumOLSs
  outputs : ∀ i < vps'.m_totalNumOLSs, ∃ ks, Enumerates (vps.Outputs i) vps.m_uiMaxLayers ks ∧
    vps'.m_numOutputLayersInOls[i]? = some ks.length ∧
    vps'.m_outputLayerIdInOls[i]? = some (filled (ks.map vps.layerId) vps.m_uiMaxLayers NOT_VALID)
  layers : ∀ i < vps'.m_totalNumOLSs, ∃ ks, Enumerates (vps.Included i) vps.m_uiMaxLayers ks ∧
    vps'.m_numLayersInOls[i]? = some ks.length ∧
    vps'.m_layerIdInOls[i]? = some (filled (ks.map vps.layerId) vps.m_uiMaxLayers NOT_VALID)
  multi : ∃ ks, Enumerates (fun i => ∃ v, vps'.m_numLayersInOls[i]? = some v ∧ 1 < v)
      vps'.m_totalNumOLSs ks ∧
    vps'.m_numMultiLayeredOlss = ks.length ∧
    (∀ k i : ℕ, ks[k]? = some i → vps'.m_multiLayerOlsIdx[i]? = some k) ∧
    vps'.m_multiLayerOlsIdxToOlsIdx.length = ks.length

/-- The derivation of a VPS from the parser succeeds, or finds a layer that is not used. -/
theorem deriveOutputLayerSets_cases (h : vps.Parsed) :
    (∃ vps', vps.deriveOutputLayerSets = .ok vps' ∧ Derived vps vps') ∨
      vps.deriveOutputLayerSets = .error unusedLayer := by
  obtain ⟨hm1, hm, hall⟩ := h.totalNumOLSs
  have ht := h.total vps.totalNumOLSs
  have hall' := fun hor => Nat.le_of_eq (hall hor)
  obtain ⟨a, hrun₁, ha⟩ := deriveRefLayers_ok ht
  obtain ⟨o₁, hrun₂, ho₁⟩ := firstOutputLayers_ok ht hm1
  obtain ⟨o, hrun₃, ho⟩ := loop_total (n := vps.totalNumOLSs - 1) (s := o₁)
    (b := fun i o => ({ vps with m_totalNumOLSs := vps.totalNumOLSs }).deriveOutputLayers a (i + 1) o)
    (P := fun i => OutputsDone { vps with m_totalNumOLSs := vps.totalNumOLSs } vps.m_uiMaxLayers
      vps.totalNumOLSs (i + 1)) ho₁
    (fun i hi o ho => deriveOutputLayers_ok ht hm (by omega) (Nat.le_add_left 1 i) hall' ha ho)
  rw [Nat.sub_add_cancel hm1] at ho
  obtain ⟨l, hrun₄, hl⟩ := deriveIncludedLayers_ok ht hm1 hm hall' ho
  obtain ⟨t, hrun₅, htlen⟩ := deriveMultiLayerOlsIdxToOlsIdx_ok ht hl
  rw [deriveOutputLayerSets, hrun₁, ok_bind, hrun₂, ok_bind, hrun₃, ok_bind]
  have hcheck : ({ vps with m_totalNumOLSs := vps.totalNumOLSs }).checkLayersUsed a o = .ok () ∨
      ({ vps with m_totalNumOLSs := vps.totalNumOLSs }).checkLayersUsed a o = .error unusedLayer :=
    checkLayersUsed_cases ha.used ho.used
  rcases hcheck with hcheck | hcheck
  · rw [hcheck, ok_bind, hrun₄, ok_bind, hrun₅, ok_bind]
    obtain ⟨ks, hks, hnum, hidx⟩ := hl.multi
    refine .inl ⟨_, rfl, rfl, fun i hi => ?_, fun i hi => ?_, ks, hks, hnum, hidx, htlen.trans hnum⟩
    · obtain ⟨ks, hks, hread, hrow, -⟩ := ho.rows.read (Nat.zero_le i) hi hi
      exact ⟨ks, hks, readAt_eq_ok hread, hrow⟩
    · obtain ⟨ks, hks, hread, hrow, -⟩ := hl.rows.read (Nat.zero_le i) hi hi
      exact ⟨ks, hks, readAt_eq_ok hread, hrow⟩
  · rw [hcheck]
    exact .inr rfl

end ECM.CommonLib.VPS
