import ECM.DecoderLib.VPSReader

/-! # The output layer sets of a parsed VPS

Layers are counted by their index; the tables hold their ids. An OLS of the modes 0
and 1 has all layers up to its highest one, and one of the mode 2 just its output
layers and the layers they refer to. -/

namespace ECM.ParameterSets.OutputLayerSets
open CommonLib CommonLib.VPS CommonLib.BitStream DecoderLib.VLCReader
open DecoderLib.VPSReader

variable {vps : VPS} {i j k : ℕ}

theorem included_of_outputs (hout : vps.Outputs i k) : vps.Included i k := by
  rw [Outputs] at hout
  rw [Included]
  by_cases hi : i = 0
  · rwa [if_pos hi] at hout ⊢
  rw [if_neg hi] at hout ⊢
  by_cases heach : vps.m_vpsEachLayerIsAnOlsFlag = true
  · rw [if_pos (.inl heach)] at hout
    rwa [if_pos heach]
  rw [if_neg heach]
  by_cases hzero : vps.m_vpsOlsModeIdc = 0
  · rw [if_pos (.inr hzero)] at hout
    rw [if_pos (.inl hzero)]
    exact Nat.le_of_eq hout
  rw [if_neg (not_or.mpr ⟨heach, hzero⟩)] at hout
  by_cases hone : vps.m_vpsOlsModeIdc = 1
  · rw [if_pos hone] at hout
    rwa [if_pos (.inr hone)]
  · rw [if_neg hone] at hout
    rw [if_neg (not_or.mpr ⟨hzero, hone⟩)]
    exact .inl hout

/-- An OLS has what its layers refer to. -/
theorem included_of_refers (h : vps.Parsed) (hk : k < vps.m_uiMaxLayers) (hinc : vps.Included i k)
    (href : vps.Refers k j) : vps.Included i j := by
  have hlt := href.lt h.toArrays
  rw [Included] at hinc ⊢
  by_cases hi : i = 0
  · rw [if_pos hi] at hinc
    omega
  rw [if_neg hi] at hinc ⊢
  by_cases heach : vps.m_vpsEachLayerIsAnOlsFlag = true
  · obtain hdirect | ⟨k', hdirect, -⟩ := refers_iff.mp href
    · rw [h.independent heach] at hdirect
      cases hdirect
    · rw [h.independent heach] at hdirect
      cases hdirect
  rw [if_neg heach] at hinc ⊢
  by_cases hmode : vps.m_vpsOlsModeIdc = 0 ∨ vps.m_vpsOlsModeIdc = 1
  · rw [if_pos hmode] at hinc ⊢
    omega
  · rw [if_neg hmode] at hinc ⊢
    rcases hinc with hflag | ⟨o, ho, hflag, hok⟩
    · exact .inr ⟨k, hk, hflag, href⟩
    · exact .inr ⟨o, ho, hflag, hok.trans href⟩

/-- The reference layers that the derivation finds: for each layer the layers that it
refers to, directly or not, in increasing order. -/
structure RefLayersDerived (vps : VPS) (a : RefLayers) : Prop where
  flags : ∀ i < vps.m_uiMaxLayers, ∀ j < vps.m_uiMaxLayers, ∃ v,
    readAt2 a.dependencyFlag i j = .ok v ∧ (v ≠ 0 ↔ vps.Refers i j)
  lists : ∀ i < vps.m_uiMaxLayers, ∃ ks, Enumerates (vps.Refers i) vps.m_uiMaxLayers ks ∧
    readAt a.numRefLayers i = .ok ks.length ∧ ∀ k j : ℕ, ks[k]? = some j →
      readAt2 a.refLayerIdx i k = .ok (j : ℤ)

theorem refLayersDerived {a : RefLayers} (h : RefLayersDone vps vps.m_uiMaxLayers vps.m_uiMaxLayers a) :
    RefLayersDerived vps a := by
  obtain ⟨⟨f, hflag, hf⟩, hrows, -⟩ := h
  refine ⟨fun i hi j hj => ⟨f i j, ?_, hf i hi j hj⟩, fun i hi => ?_⟩
  · rw [hflag, readAt2_tab hi hj]
  · obtain ⟨ks, hks, hnum, -, hread⟩ := hrows.read (Nat.zero_le i) hi hi
    exact ⟨ks, hks, hnum, hread⟩

/-- Whatever bits make the VPS, the derivation stays inside its arrays: it fails at most
because of a layer that nothing uses. -/
theorem outputLayerSets_derived {s s' : InputBitstream} {vps : VPS} (hs : InOrder s)
    (h : parseLayers s = .ok (vps, s')) :
    (∃ a, ({ vps with m_totalNumOLSs := vps.totalNumOLSs }).deriveRefLayers = .ok a ∧
      RefLayersDerived vps a) ∧
    ((∃ vps', vps.deriveOutputLayerSets = .ok vps' ∧ Derived vps vps') ∨
      vps.deriveOutputLayerSets = .error unusedLayer) ∧
    (∀ i, ∀ k < vps.m_uiMaxLayers, vps.Outputs i k → vps.Included i k) ∧
    ∀ i, ∀ k < vps.m_uiMaxLayers, vps.Included i k → ∀ j, vps.Refers k j → vps.Included i j := by
  obtain ⟨-, hparsed⟩ := ensures_parseLayers s vps s' hs h
  obtain ⟨a, hrun, hdone⟩ := deriveRefLayers_ok (hparsed.total vps.totalNumOLSs)
  obtain ⟨hflags, hlists⟩ := refLayersDerived hdone
  exact ⟨⟨a, hrun, hflags, hlists⟩, deriveOutputLayerSets_cases hparsed,
    fun _ _ _ hout => included_of_outputs hout,
    fun i k hk hinc j href => included_of_refers hparsed hk hinc href⟩

/-! ## A VPS of three independent layers -/

/-- Three layers, the last two marked as independent, in the mode 0. -/
def independentLayers : InputBitstream := .ofFifo [16, 128, 0, 97, 64, 8]

theorem independentLayers_parsed : ((parseLayers independentLayers).toOption.any fun r =>
    r.1.m_vpsDirectRefLayerFlag = VPS.new.m_vpsDirectRefLayerFlag ∧
      r.1.m_uiMaxLayers = 3 ∧ r.1.m_vpsEachLayerIsAnOlsFlag = false ∧ r.1.m_vpsOlsModeIdc = 0 ∧
      (r.1.deriveOutputLayerSets.toOption.any fun vps =>
        vps.m_layerIdInOls[1]? = some [0, 1, NOT_VALID] ∧ vps.m_numLayersInOls = [1, 2, 3] ∧
          vps.m_multiLayerOlsIdx.take 3 = [0, 0, 1] ∧ vps.m_multiLayerOlsIdxToOlsIdx = [2, 0]) = true) =
      true := by
  decide +kernel

theorem outputLayerSets_derived_independentLayers : ∃ vps s' vps',
    parseLayers independentLayers = .ok (vps, s') ∧ vps.m_uiMaxLayers = 3 ∧
      vps.deriveOutputLayerSets = .ok vps' ∧ Derived vps vps' := by
  obtain ⟨⟨vps, s'⟩, hrun, hp⟩ := exists_ok_of_any independentLayers_parsed
  obtain ⟨-, hn, -, -, hderive⟩ := of_decide_eq_true hp
  obtain ⟨vps₁, hrun₁, -⟩ := exists_ok_of_any hderive
  obtain ⟨-, ⟨vps', hrun', hderived⟩ | herror, -⟩ :=
    outputLayerSets_derived ⟨by decide, by decide⟩ hrun
  · exact ⟨vps, s', vps', hrun, hn, hrun', hderived⟩
  · cases hrun₁.symm.trans herror

/-- The second OLS outputs the layer 1, which refers to no layer, and has the layer 0
too. Of the two OLSs with more than one layer the index goes to the OLS 2 twice. -/
theorem outputLayerSets_notExact : ∃ vps s' vps',
    parseLayers independentLayers = .ok (vps, s') ∧ vps.deriveOutputLayerSets = .ok vps' ∧
      vps'.m_layerIdInOls[1]? = some [0, 1, NOT_VALID] ∧ vps'.m_numLayersInOls = [1, 2, 3] ∧
      (∀ k, vps.Outputs 1 k ↔ k = 1) ∧ (∀ j, ¬vps.Refers 1 j) ∧
      vps'.m_multiLayerOlsIdx.take 3 = [0, 0, 1] ∧ vps'.m_multiLayerOlsIdxToOlsIdx = [2, 0] := by
  obtain ⟨⟨vps, s'⟩, hrun, hp⟩ := exists_ok_of_any independentLayers_parsed
  obtain ⟨hdirect, -, heach, hmode, hderive⟩ := of_decide_eq_true hp
  obtain ⟨vps', hrun', hp'⟩ := exists_ok_of_any hderive
  obtain ⟨hlayers, hnums, hmulti, hinverse⟩ := of_decide_eq_true hp'
  have hnone : ∀ i j, vps.directRef i j = false := by
    intro i j
    rw [directRef, hdirect]
    exact directRef_new i j
  refine ⟨vps, s', vps', hrun, hrun', hlayers, hnums, fun k => ?_, fun j href => ?_, hmulti, hinverse⟩
  · rw [Outputs, if_neg (by decide), if_pos (.inr hmode)]
  · obtain hdir | ⟨k, hdir, -⟩ := refers_iff.mp href
    · exact Bool.noConfusion ((hnone 1 j).symm.trans hdir)
    · exact Bool.noConfusion ((hnone 1 k).symm.trans hdir)

end ECM.ParameterSets.OutputLayerSets
