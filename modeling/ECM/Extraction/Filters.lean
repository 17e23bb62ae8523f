import ECM.BitstreamExtractorApp.Decode
import ECM.Nal.Copy

/-! # What the extractor keeps

The filters of the bitstream extractor, each on its own, and that a unit is copied
when it passes all of them and only then. -/

namespace ECM.Extraction.Filters
open CommonLib DecoderLib ECM.BitstreamExtractorApp EncoderLib.NALwrite List

section
variable {S : Type} (lib : SyntaxLib S) (opts : Options)

/-- A VPS is in force for its own NAL unit. -/
def afterVPS (nalu : InputNALUnit) (s : ExtractorState S) : Checked (ExtractorState S) := do
  if nalu.m_nalUnitType = .VPS then
    let (m_vpsId, syntaxState) ← lib.storeVPS nalu s.syntaxState
    return { s with m_vpsId, syntaxState }
  else return s

/-- The VPS that the target OLS is looked up in, and the state then. -/
def VPSInForce (nalu : InputNALUnit) (s : ExtractorState S) (vps : VPS) (t : ExtractorState S) : Prop :=
  ∃ s', afterVPS lib nalu s = .ok s' ∧ targetVPS lib opts s' = .ok (vps, t)

/-- The state in which the branches on the type find the extractor. -/
def atBranches (nalu : InputNALUnit) (s : ExtractorState S) : Checked (ExtractorState S) := do
  let s ← afterVPS lib nalu s
  let (_, s) ← withinTargetOls lib opts nalu s
  return s

/-! ## The filters -/

def TemporalFilter (nalu : InputNALUnit) : Prop :=
  opts.m_maxTemporalLayer < 0 ∨ (nalu.m_temporalId : ℤ) ≤ opts.m_maxTemporalLayer

/-- The layer of the unit is one of the target OLS. -/
def LayerFilter (nalu : InputNALUnit) (s : ExtractorState S) : Prop :=
  0 ≤ opts.m_targetOlsIdx → isSpecialNalType nalu.m_nalUnitType = true ∨
    ∃ vps t layerIdInOls, VPSInForce lib opts nalu s vps t ∧
      vps.m_layerIdInOls[opts.m_targetOlsIdx.toNat]? = some layerIdInOls ∧
      (nalu.m_nuhLayerId : ℤ) ∈ layerIdInOls

/-- An IRAP unit, or a GDR unit when the last picture header has no recovery point. -/
def EntersLayer (t : NalUnitType) (recoveryPocCnt : ℤ) : Prop :=
  t = .CODED_SLICE_IDR_N_LP ∨ t = .CODED_SLICE_IDR_W_RADL ∨ t = .CODED_SLICE_CRA ∨
    (t = .CODED_SLICE_GDR ∧ recoveryPocCnt = 0)

/-- The unit is below the number of sub-layers that its layer has in the target OLS. -/
def SubLayerFilter (nalu : InputNALUnit) (s : ExtractorState S) : Prop :=
  0 ≤ opts.m_targetOlsIdx → ∃ vps t layerIdx numSubLayers, VPSInForce lib opts nalu s vps t ∧
    vps.m_generalLayerIdx[nalu.m_nuhLayerId]? = some layerIdx ∧
    readAt2 vps.m_numSubLayersInLayerInOLS opts.m_targetOlsIdx.toNat layerIdx = .ok numSubLayers ∧
    (EntersLayer nalu.m_nalUnitType (lib.getRecoveryPocCnt t.syntaxState) ∨
      nalu.m_temporalId < (numSubLayers % 2 ^ 32).toNat)

def isSEI (t : NalUnitType) : Bool := t = .PREFIX_SEI || t = .SUFFIX_SEI

/-- No message of the unit keeps it out of the target OLS or the target subpicture. -/
def SEIFilter (nalu : InputNALUnit) (s : ExtractorState S) : Prop :=
  isSEI nalu.m_nalUnitType = true → ∃ t SEIs st, atBranches lib opts nalu s = .ok t ∧
    lib.parseSEImessage nalu t.syntaxState = .ok (SEIs, st) ∧
    (0 ≤ opts.m_targetOlsIdx → ∀ sei ∈ SEIs, seiAllowed opts t.m_removeTimingSEI sei = true) ∧
    (0 ≤ opts.m_subPicId → ∀ sei ∈ SEIs, sei.payloadType ≠ .SCALABLE_NESTING ∧
      sei.payloadType ≠ .DECODED_PICTURE_HASH)

/-- A slice has the id of the target subpicture. -/
def SliceFilter (nalu : InputNALUnit) (s : ExtractorState S) : Prop :=
  0 ≤ opts.m_subPicId → nalu.isSlice = true → ∃ t st, atBranches lib opts nalu s = .ok t ∧
    lib.xParseSliceHeader nalu t.syntaxState = .ok (opts.m_subPicId, st)

/-- Filler data belong to the slice before them. -/
def FillerFilter (nalu : InputNALUnit) (s : ExtractorState S) : Prop :=
  0 ≤ opts.m_subPicId → nalu.m_nalUnitType = .FD → s.lastSliceWritten = true

/-- The filters that look at the header of the unit and at the target OLS. -/
structure PassesLayers (nalu : InputNALUnit) (s : ExtractorState S) : Prop where
  temporal : TemporalFilter opts nalu
  layer : LayerFilter lib opts nalu s
  subLayer : SubLayerFilter lib opts nalu s

/-- All the filters. -/
structure Passes (nalu : InputNALUnit) (s : ExtractorState S) : Prop where
  layers : PassesLayers lib opts nalu s
  sei : SEIFilter lib opts nalu s
  slice : SliceFilter lib opts nalu s
  filler : FillerFilter opts nalu s

/-- The units that are written from what was parsed, or not at all. -/
def isRewritten (t : NalUnitType) : Bool := t = .VPS || t = .SPS || t = .PPS

/-- The units whose place in the target subpicture is decided by a slice header. -/
def bySubPicture (nalu : InputNALUnit) : Bool :=
  0 ≤ opts.m_subPicId && (nalu.isSlice || nalu.m_nalUnitType = .FD)

end

section
variable {S : Type} {lib : SyntaxLib S} {opts : Options} {nalu : InputNALUnit}
  {s s' t : ExtractorState S} {write write' : Bool} {outs : List OutputUnit}

/-! ## Parameter sets -/

/-- A unit of the output that `codes` the unit of the input with another payload. -/
def Codes (nalu : InputNALUnit) (u : OutputUnit) : Prop :=
  u.isCopied = false ∧ u.nalUnitType = nalu.m_nalUnitType ∧ u.nuhLayerId = nalu.m_nuhLayerId ∧
    u.temporalId = nalu.m_temporalId

theorem xWriteParameterSet_coded {nalUnitType : NalUnitType} {msg : String}
    {rbsp : Checked (List UInt8)} {u : OutputUnit}
    (h : xWriteParameterSet nalUnitType msg nalu rbsp = .ok u) :
    nalu.m_temporalId = 0 ∧ ∃ bytes, u = .coded nalUnitType nalu.m_nuhLayerId nalu.m_temporalId bytes := by
  obtain ⟨_, hcheck, h⟩ := bind_eq_ok h
  obtain ⟨bytes, -, h⟩ := bind_eq_ok h
  cases h
  exact ⟨not_not.mp (check_eq_ok hcheck), bytes, rfl⟩

theorem xWritePPS_coded {rbsp : Checked (List UInt8)} {u : OutputUnit}
    (h : xWritePPS nalu rbsp = .ok u) :
    ∃ bytes, u = .coded .PPS nalu.m_nuhLayerId nalu.m_temporalId bytes := by
  obtain ⟨bytes, -, h⟩ := bind_eq_ok h
  cases h
  exact ⟨bytes, rfl⟩

/-- What a branch writes: nothing when the unit was dropped, and only units of its own type. -/
def WritesOwn (nalu : InputNALUnit) (write : Bool) (outs : List OutputUnit) : Prop :=
  ∀ u ∈ outs, write = true ∧ Codes nalu u

theorem writesOwn_nil : WritesOwn nalu write [] := fun _ hu => absurd hu not_mem_nil

theorem writesOwn_one {u : OutputUnit} (hwrite : write = true) (hu : Codes nalu u) :
    WritesOwn nalu write [u] := by
  intro v hv
  rw [mem_singleton.mp hv]
  exact ⟨hwrite, hu⟩

theorem extractVPS_spec (htype : nalu.m_nalUnitType = .VPS)
    (h : extractVPS lib write nalu s = .ok (s', outs)) :
    afterVPS lib nalu s = .ok s' ∧ s'.lastSliceWritten = s.lastSliceWritten ∧
      WritesOwn nalu write outs := by
  obtain ⟨⟨vpsId, st⟩, hstore, h⟩ := bind_eq_ok h
  have hafter : afterVPS lib nalu s = .ok { s with m_vpsId := vpsId, syntaxState := st } := by
    rw [afterVPS, if_pos htype, hstore]
    rfl
  dsimp only at h
  split at h
  · next hwrite =>
    obtain ⟨u, hu, h⟩ := bind_eq_ok h
    obtain ⟨-, bytes, rfl⟩ := xWriteParameterSet_coded hu
    cases h
    exact ⟨hafter, rfl, writesOwn_one hwrite ⟨rfl, htype.symm, rfl, rfl⟩⟩
  · cases h
    exact ⟨hafter, rfl, writesOwn_nil⟩

theorem extractSPS_spec (htype : nalu.m_nalUnitType = .SPS)
    (h : extractSPS lib opts write nalu s = .ok (s', outs)) :
    s'.lastSliceWritten = s.lastSliceWritten ∧ WritesOwn nalu write outs := by
  obtain ⟨⟨spsId, st⟩, -, h⟩ := bind_eq_ok h
  dsimp only at h
  split at h
  · cases h
    exact ⟨rfl, writesOwn_nil⟩
  · split at h
    · next hwrite =>
      obtain ⟨u, hu, h⟩ := bind_eq_ok h
      obtain ⟨-, bytes, rfl⟩ := xWriteParameterSet_coded hu
      cases h
      exact ⟨rfl, writesOwn_one hwrite ⟨rfl, htype.symm, rfl, rfl⟩⟩
    · cases h
      exact ⟨rfl, writesOwn_nil⟩

/-- A PPS that is written as it was parsed. -/
theorem writeParsedPPS_spec (htype : nalu.m_nalUnitType = .PPS) {rbsp : Checked (List UInt8)}
    (h : (if write then do
      let out ← xWritePPS nalu rbsp
      return (s, [out])
    else return (s, []) : Checked (ExtractorState S × List OutputUnit)) = .ok (s', outs)) :
    s'.lastSliceWritten = s.lastSliceWritten ∧ WritesOwn nalu write outs := by
  split at h
  · next hwrite =>
    obtain ⟨u, hu, h⟩ := bind_eq_ok h
    obtain ⟨bytes, rfl⟩ := xWritePPS_coded hu
    cases h
    exact ⟨rfl, writesOwn_one hwrite ⟨rfl, htype.symm, rfl, rfl⟩⟩
  · cases h
    exact ⟨rfl, writesOwn_nil⟩

/-- The parameter sets of the target subpicture are written whatever was dropped. -/
theorem extractTargetPPS_spec {spsId : ℕ} (h : extractTargetPPS lib opts spsId nalu s = .ok (s', outs)) :
    s'.lastSliceWritten = s.lastSliceWritten ∧ ∀ u ∈ outs, u.isCopied = false := by
  obtain ⟨_, -, h⟩ := bind_eq_ok h
  obtain ⟨⟨r, sps⟩, hsps, h⟩ := bind_eq_ok h
  have hsps' : r.lastSliceWritten = s.lastSliceWritten ∧ ∀ u ∈ sps, u.isCopied = false := by
    split at hsps
    · obtain ⟨u, hu, hsps⟩ := bind_eq_ok hsps
      obtain ⟨-, bytes, rfl⟩ := xWriteParameterSet_coded hu
      cases hsps
      refine ⟨rfl, fun v hv => ?_⟩
      rw [mem_singleton.mp hv]
      rfl
    · cases hsps
      exact ⟨rfl, fun _ hu => absurd hu not_mem_nil⟩
  obtain ⟨pps, hpps, h⟩ := bind_eq_ok h
  obtain ⟨bytes, rfl⟩ := xWritePPS_coded hpps
  cases h
  refine ⟨hsps'.1, fun u hu => ?_⟩
  rcases mem_append.mp hu with hu | hu
  · exact hsps'.2 u hu
  · rw [mem_singleton.mp hu]
    rfl

theorem extractPPS_spec (htype : nalu.m_nalUnitType = .PPS)
    (h : extractPPS lib opts write nalu s = .ok (s', outs)) :
    s'.lastSliceWritten = s.lastSliceWritten ∧ (∀ u ∈ outs, u.isCopied = false) ∧
      (opts.m_subPicId < 0 → WritesOwn nalu write outs) := by
  obtain ⟨⟨sps, st⟩, -, h⟩ := bind_eq_ok h
  dsimp only at h
  cases sps with
  | none =>
    obtain ⟨hlast, hown⟩ := writeParsedPPS_spec htype h
    exact ⟨hlast, fun u hu => (hown u hu).2.1, fun _ => hown⟩
  | some spsId =>
    dsimp only at h
    split at h
    · next hsub =>
      obtain ⟨hlast, hcoded⟩ := extractTargetPPS_spec h
      exact ⟨hlast, hcoded, fun hneg => absurd hneg (not_lt.mpr hsub)⟩
    · obtain ⟨hlast, hown⟩ := writeParsedPPS_spec htype h
      exact ⟨hlast, fun u hu => (hown u hu).2.1, fun _ => hown⟩

/-! ## Layers -/

theorem VPSInForce.unique {vps vps' : VPS} {u u' : ExtractorState S}
    (h : VPSInForce lib opts nalu s vps u) (h' : VPSInForce lib opts nalu s vps' u') :
    vps' = vps ∧ u' = u := by
  obtain ⟨r, hr, h⟩ := h
  obtain ⟨r', hr', h'⟩ := h'
  rw [hr] at hr'
  cases hr'
  rw [h] at h'
  cases h'
  exact ⟨rfl, rfl⟩

theorem targetVPS_last {vps : VPS} (h : targetVPS lib opts s = .ok (vps, t)) :
    t.lastSliceWritten = s.lastSliceWritten := by
  obtain ⟨_, -, h⟩ := bind_eq_ok h
  split at h
  · cases h
  · split at h
    · obtain ⟨v, -, h⟩ := bind_eq_ok h
      cases h
      rfl
    · cases h
      rfl

theorem index_eq_ok {i : ℤ} {n : ℕ} (h : index i = .ok n) : n = i.toNat := by
  rw [index] at h
  split at h
  · cases h
  · cases h
    rfl

/-- The types that `xCheckNumSubLayers` spares. -/
theorem entersLayer_iff (nalUnitType : NalUnitType) (recoveryPocCnt : ℤ) :
    (decide (nalUnitType ≠ .CODED_SLICE_IDR_N_LP) && decide (nalUnitType ≠ .CODED_SLICE_IDR_W_RADL) &&
      decide (nalUnitType ≠ .CODED_SLICE_CRA) &&
      !decide (nalUnitType = .CODED_SLICE_GDR ∧ recoveryPocCnt = 0)) = false ↔
    EntersLayer nalUnitType recoveryPocCnt := by
  rw [EntersLayer]
  by_cases h₁ : nalUnitType = .CODED_SLICE_IDR_N_LP
  · simp [h₁]
  · by_cases h₂ : nalUnitType = .CODED_SLICE_IDR_W_RADL
    · simp [h₂]
    · by_cases h₃ : nalUnitType = .CODED_SLICE_CRA
      · simp [h₃]
      · simp [h₁, h₂, h₃]

theorem xCheckNumSubLayers_spec {vps : VPS} {st : S} {discard : Bool}
    (h : xCheckNumSubLayers lib opts nalu vps st = .ok discard) : ∃ layerIdx numSubLayers,
      vps.m_generalLayerIdx[nalu.m_nuhLayerId]? = some layerIdx ∧
      readAt2 vps.m_numSubLayersInLayerInOLS opts.m_targetOlsIdx.toNat layerIdx = .ok numSubLayers ∧
      (discard = false ↔ EntersLayer nalu.m_nalUnitType (lib.getRecoveryPocCnt st) ∨
        nalu.m_temporalId < (numSubLayers % 2 ^ 32).toNat) := by
  obtain ⟨olsIdx, hols, h⟩ := bind_eq_ok h
  obtain ⟨layerIdx, hlayer, h⟩ := bind_eq_ok h
  obtain ⟨numSubLayers, hnum, h⟩ := bind_eq_ok h
  cases h
  rw [index_eq_ok hols] at hnum
  refine ⟨layerIdx, numSubLayers, readAt_eq_ok hlayer, hnum, ?_⟩
  rw [Bool.and_eq_false_iff, decide_eq_false_iff_not, Nat.not_le, ← entersLayer_iff,
    Bool.decide_and]

theorem withinTargetOls_spec {inOls : Bool} (hafter : afterVPS lib nalu s = .ok s')
    (h : withinTargetOls lib opts nalu s' = .ok (inOls, t)) :
    (inOls = true ↔ LayerFilter lib opts nalu s ∧ SubLayerFilter lib opts nalu s) ∧
      t.lastSliceWritten = s'.lastSliceWritten := by
  rw [withinTargetOls] at h
  split at h
  · next hols =>
    obtain ⟨⟨vps, r⟩, htarget, h⟩ := bind_eq_ok h
    obtain ⟨_, -, h⟩ := bind_eq_ok h
    obtain ⟨olsIdx, hidx, h⟩ := bind_eq_ok h
    obtain ⟨layerIdInOls, hids, h⟩ := bind_eq_ok h
    obtain ⟨discard, hdiscard, h⟩ := bind_eq_ok h
    cases h
    have hforce : VPSInForce lib opts nalu s vps r := ⟨s', hafter, htarget⟩
    obtain ⟨layerIdx, numSubLayers, hlayer, hnum, hspare⟩ := xCheckNumSubLayers_spec hdiscard
    have hids' := readAt_eq_ok hids
    rw [index_eq_ok hidx] at hids'
    have hlayers : LayerFilter lib opts nalu s ↔
        isSpecialNalType nalu.m_nalUnitType = true ∨ (nalu.m_nuhLayerId : ℤ) ∈ layerIdInOls := by
      constructor
      · intro hfilter
        refine (hfilter hols).imp_right ?_
        rintro ⟨vps', u, ids, hforce', hread, hmem⟩
        obtain ⟨rfl, -⟩ := hforce.unique hforce'
        rw [hids'] at hread
        cases hread
        exact hmem
      · intro hor _
        exact hor.imp_right fun hmem => ⟨vps, r, layerIdInOls, hforce, hids', hmem⟩
    have hsub : SubLayerFilter lib opts nalu s ↔ discard = false := by
      rw [hspare]
      constructor
      · intro hfilter
        obtain ⟨vps', u, idx', num', hforce', hidx', hnum', hor⟩ := hfilter hols
        obtain ⟨rfl, rfl⟩ := hforce.unique hforce'
        rw [hlayer] at hidx'
        cases hidx'
        rw [hnum] at hnum'
        cases hnum'
        exact hor
      · intro hor _
        exact ⟨vps, r, layerIdx, numSubLayers, hforce, hlayer, hnum, hor⟩
    have hlast := targetVPS_last htarget
    refine ⟨?_, hlast⟩
    rw [hlayers, hsub, Bool.and_eq_true, Bool.or_eq_true, decide_eq_true_eq, Bool.not_eq_true']
  · next hols =>
    cases h
    exact ⟨⟨fun _ => ⟨fun hc => absurd hc hols, fun hc => absurd hc hols⟩, fun _ => rfl⟩, rfl⟩

/-! ## SEI messages and slices -/

theorem filter_eq_nil_of {SEIs : List SEIMessage} {p : SEIPayloadType}
    (h : SEIs.filter (·.payloadType = p) = []) : ∀ sei ∈ SEIs, sei.payloadType ≠ p := by
  intro sei hsei hp
  exact filter_eq_nil_iff.mp h sei hsei (decide_eq_true hp)

theorem xCheckSEIsSubPicture_spec {SEIs : List SEIMessage} {st : S} {keep : Bool}
    (h : xCheckSEIsSubPicture lib opts SEIs nalu st = .ok (keep, outs)) :
    (keep = true ↔ ∀ sei ∈ SEIs, sei.payloadType ≠ .SCALABLE_NESTING ∧
      sei.payloadType ≠ .DECODED_PICTURE_HASH) ∧ ∀ u ∈ outs, u.isCopied = false := by
  rw [xCheckSEIsSubPicture] at h
  split at h
  · next sei rest hnesting =>
    have hmem : sei ∈ SEIs.filter (·.payloadType = .SCALABLE_NESTING) := by
      rw [hnesting]
      exact mem_cons_self
    have hsei := mem_filter.mp hmem
    have hno : ¬∀ sei ∈ SEIs, sei.payloadType ≠ .SCALABLE_NESTING ∧
        sei.payloadType ≠ .DECODED_PICTURE_HASH := fun hall =>
      (hall sei hsei.1).1 (of_decide_eq_true hsei.2)
    obtain ⟨_, -, h⟩ := bind_eq_ok h
    obtain ⟨_, -, h⟩ := bind_eq_ok h
    split at h
    · cases h
      exact ⟨⟨fun hc => absurd hc Bool.false_ne_true, fun hc => absurd hc hno⟩,
        fun _ hu => absurd hu not_mem_nil⟩
    · split at h
      · obtain ⟨bytes, -, h⟩ := bind_eq_ok h
        cases h
        refine ⟨⟨fun hc => absurd hc Bool.false_ne_true, fun hc => absurd hc hno⟩, ?_⟩
        intro u hu
        rw [mem_singleton.mp hu]
        rfl
      · cases h
        exact ⟨⟨fun hc => absurd hc Bool.false_ne_true, fun hc => absurd hc hno⟩,
          fun _ hu => absurd hu not_mem_nil⟩
  · next hnesting =>
    cases h
    have hnone := filter_eq_nil_of hnesting
    refine ⟨?_, fun _ hu => absurd hu not_mem_nil⟩
    rw [all_eq_true]
    exact ⟨fun hall sei hsei => ⟨hnone sei hsei, of_decide_eq_true (hall sei hsei)⟩,
      fun hall sei hsei => decide_eq_true (hall sei hsei).2⟩

theorem extractSEI_spec {keep : Bool} (hsei : isSEI nalu.m_nalUnitType = true)
    (hat : atBranches lib opts nalu s = .ok t)
    (h : extractSEI lib opts nalu t = .ok (keep, s', outs)) :
    (keep = true ↔ SEIFilter lib opts nalu s) ∧ s'.lastSliceWritten = t.lastSliceWritten ∧
      (∀ u ∈ outs, u.isCopied = false) ∧ (opts.m_subPicId < 0 → outs = []) := by
  obtain ⟨⟨SEIs, st⟩, hparse, h⟩ := bind_eq_ok h
  dsimp only at h
  have hfilter : SEIFilter lib opts nalu s ↔
      (0 ≤ opts.m_targetOlsIdx → ∀ sei ∈ SEIs, seiAllowed opts t.m_removeTimingSEI sei = true) ∧
      (0 ≤ opts.m_subPicId → ∀ sei ∈ SEIs, sei.payloadType ≠ .SCALABLE_NESTING ∧
        sei.payloadType ≠ .DECODED_PICTURE_HASH) := by
    constructor
    · intro hpasses
      obtain ⟨t', SEIs', st', hat', hparse', hboth⟩ := hpasses hsei
      rw [hat] at hat'
      cases hat'
      rw [hparse] at hparse'
      cases hparse'
      exact hboth
    · intro hboth _
      exact ⟨t, SEIs, st, hat, hparse, hboth⟩
  have hallowed : (decide (opts.m_targetOlsIdx < 0) ||
      SEIs.all (seiAllowed opts t.m_removeTimingSEI)) = true ↔
      (0 ≤ opts.m_targetOlsIdx → ∀ sei ∈ SEIs, seiAllowed opts t.m_removeTimingSEI sei = true) := by
    rw [Bool.or_eq_true, decide_eq_true_eq, all_eq_true, ← not_le]
    exact Decidable.imp_iff_not_or.symm
  split at h
  · next hsub =>
    obtain ⟨⟨keep', outs'⟩, hcheck, h⟩ := bind_eq_ok h
    obtain ⟨hkeep, hcoded⟩ := xCheckSEIsSubPicture_spec hcheck
    cases h
    refine ⟨?_, rfl, hcoded, fun hneg => absurd hneg (not_lt.mpr hsub)⟩
    rw [hfilter, Bool.and_eq_true, hallowed, hkeep]
    exact and_congr_right fun _ => ⟨fun hall _ => hall, fun hall => hall hsub⟩
  · next hsub =>
    cases h
    refine ⟨?_, rfl, fun _ hu => absurd hu not_mem_nil, fun _ => rfl⟩
    rw [hfilter, hallowed]
    exact ⟨fun hall => ⟨hall, fun hc => absurd hc hsub⟩, fun hboth => hboth.1⟩

theorem extractSlice_spec (hslice : nalu.isSlice = true) (hat : atBranches lib opts nalu s = .ok t)
    (h : extractSlice lib opts write nalu t = .ok (write', s')) :
    s'.lastSliceWritten = t.lastSliceWritten ∧ (opts.m_subPicId < 0 → write' = write) ∧
      (0 ≤ opts.m_subPicId → (write' = true ↔ SliceFilter lib opts nalu s)) := by
  obtain ⟨⟨sliceSubPicId, st⟩, hparse, h⟩ := bind_eq_ok h
  dsimp only at h
  split at h
  · next hsub =>
    obtain ⟨w, hw, h⟩ := bind_eq_ok h
    cases h
    obtain ⟨present, -, hw⟩ := bind_eq_ok hw
    refine ⟨rfl, fun hneg => absurd hneg (not_lt.mpr hsub), fun _ => ?_⟩
    split at hw
    · cases hw
      rw [decide_eq_true_eq]
      constructor
      · intro hid _ _
        exact ⟨t, st, hat, by rw [hid, hparse]⟩
      · intro hfilter
        obtain ⟨t', st', hat', hparse'⟩ := hfilter hsub hslice
        rw [hat] at hat'
        cases hat'
        rw [hparse] at hparse'
        cases hparse'
        rfl
    · cases hw
  · next hsub =>
    cases h
    exact ⟨rfl, fun _ => rfl, fun hc => absurd hc hsub⟩

/-! ## The branches on the type -/

theorem SEIFilter.of_other (h : isSEI nalu.m_nalUnitType = false) : SEIFilter lib opts nalu s :=
  fun hc => absurd hc (h ▸ Bool.false_ne_true)

theorem SliceFilter.of_other (h : nalu.isSlice = false) : SliceFilter lib opts nalu s :=
  fun _ hc => absurd hc (h ▸ Bool.false_ne_true)

theorem FillerFilter.of_other (h : nalu.m_nalUnitType ≠ .FD) : FillerFilter opts nalu s :=
  fun _ hc => absurd hc h

/-- The unit is one of the parameter sets that are written in their branch. -/
def isBranchRewritten (t : NalUnitType) : Bool := t = .SPS || t = .PPS

/-- What the branches make of a unit that came with the decision `write`. -/
structure Branches (lib : SyntaxLib S) (opts : Options) (nalu : InputNALUnit)
    (s s' : ExtractorState S) (write write' : Bool) (outs : List OutputUnit) : Prop where
  last : s'.lastSliceWritten = s.lastSliceWritten
  coded : ∀ u ∈ outs, u.isCopied = false
  own : opts.m_subPicId < 0 → ∀ u ∈ outs, isBranchRewritten nalu.m_nalUnitType = true ∧
    write = true ∧ Codes nalu u
  kept : write' = true → bySubPicture opts nalu = false →
    isBranchRewritten nalu.m_nalUnitType = false ∧ write = true ∧ SEIFilter lib opts nalu s
  slice : write' = true → SliceFilter lib opts nalu s
  filler : write' = true → FillerFilter opts nalu s
  complete : write = true → isBranchRewritten nalu.m_nalUnitType = false → SEIFilter lib opts nalu s →
    SliceFilter lib opts nalu s → FillerFilter opts nalu s → write' = true

/-- A unit that its branch takes as it is. -/
theorem Branches.plain (hsei : isSEI nalu.m_nalUnitType = false) (hslice : nalu.isSlice = false)
    (hfd : nalu.m_nalUnitType ≠ .FD) (hset : isBranchRewritten nalu.m_nalUnitType = false)
    (hlast : s'.lastSliceWritten = s.lastSliceWritten) : Branches lib opts nalu s s' write write [] where
  last := hlast
  coded _ hu := absurd hu not_mem_nil
  own _ _ hu := absurd hu not_mem_nil
  kept hwrite _ := ⟨hset, hwrite, .of_other hsei⟩
  slice _ := .of_other hslice
  filler _ := .of_other hfd
  complete hwrite _ _ _ _ := hwrite

/-- An SPS or a PPS, which is not copied. -/
theorem Branches.parameterSet (hset : isBranchRewritten nalu.m_nalUnitType = true)
    (hlast : s'.lastSliceWritten = s.lastSliceWritten) (hcoded : ∀ u ∈ outs, u.isCopied = false)
    (hown : opts.m_subPicId < 0 → WritesOwn nalu write outs) :
    Branches lib opts nalu s s' write false outs where
  last := hlast
  coded := hcoded
  own hneg u hu := ⟨hset, hown hneg u hu⟩
  kept hc _ := absurd hc Bool.false_ne_true
  slice hc := absurd hc Bool.false_ne_true
  filler hc := absurd hc Bool.false_ne_true
  complete _ hc _ _ _ := absurd hc (by rw [hset]; decide)

/-- An SEI unit is nothing else. -/
theorem isSEI_other (h : isSEI nalu.m_nalUnitType = true) : nalu.isSlice = false ∧
    nalu.m_nalUnitType ≠ .FD ∧ isBranchRewritten nalu.m_nalUnitType = false := by
  rw [isSEI, Bool.or_eq_true, decide_eq_true_eq, decide_eq_true_eq] at h
  rw [InputNALUnit.isSlice]
  rcases h with h | h
  · rw [h]
    decide
  · rw [h]
    decide

/-- A slice is nothing else. -/
theorem isSlice_other (h : nalu.isSlice = true) : isSEI nalu.m_nalUnitType = false ∧
    nalu.m_nalUnitType ≠ .FD ∧ isBranchRewritten nalu.m_nalUnitType = false := by
  have hall : ∀ t ∈ [NalUnitType.CODED_SLICE_TRAIL, .CODED_SLICE_STSA, .CODED_SLICE_IDR_W_RADL,
      .CODED_SLICE_IDR_N_LP, .CODED_SLICE_CRA, .CODED_SLICE_GDR, .CODED_SLICE_RADL, .CODED_SLICE_RASL],
      isSEI t = false ∧ t ≠ .FD ∧ isBranchRewritten t = false := by decide
  exact hall _ (of_decide_eq_true h)

theorem Branches.sei (hsei : isSEI nalu.m_nalUnitType = true) (hat : atBranches lib opts nalu s = .ok t)
    (hlast : t.lastSliceWritten = s.lastSliceWritten) {keep : Bool}
    (h : extractSEI lib opts nalu t = .ok (keep, s', outs)) :
    Branches lib opts nalu s s' write (write && keep) outs := by
  obtain ⟨hkeep, hlast', hcoded, hnone⟩ := extractSEI_spec hsei hat h
  obtain ⟨hslice, hfd, hset⟩ := isSEI_other hsei
  refine ⟨hlast'.trans hlast, hcoded, ?_, ?_, fun _ => .of_other hslice, fun _ => .of_other hfd, ?_⟩
  · intro hneg u hu
    rw [hnone hneg] at hu
    exact absurd hu not_mem_nil
  · intro hwrite _
    rw [Bool.and_eq_true] at hwrite
    exact ⟨hset, hwrite.1, hkeep.mp hwrite.2⟩
  · intro hwrite _ hfilter _ _
    rw [hwrite, hkeep.mpr hfilter]
    rfl

theorem Branches.ofSlice (hslice : nalu.isSlice = true) (hat : atBranches lib opts nalu s = .ok t)
    (hlast : t.lastSliceWritten = s.lastSliceWritten)
    (h : extractSlice lib opts write nalu t = .ok (write', s')) :
    Branches lib opts nalu s s' write write' [] := by
  obtain ⟨hlast', hneg, hsub⟩ := extractSlice_spec hslice hat h
  obtain ⟨hsei, hfd, hset⟩ := isSlice_other hslice
  refine ⟨hlast'.trans hlast, fun _ hu => absurd hu not_mem_nil,
    fun _ _ hu => absurd hu not_mem_nil, ?_, ?_, fun _ => .of_other hfd, ?_⟩
  · intro hwrite hby
    have hno : opts.m_subPicId < 0 := by
      rw [bySubPicture, hslice, Bool.true_or, Bool.and_true, decide_eq_false_iff_not] at hby
      exact not_le.mp hby
    rw [hneg hno] at hwrite
    exact ⟨hset, hwrite, .of_other hsei⟩
  · intro hwrite hnonneg
    exact (hsub hnonneg).mp hwrite hnonneg
  · intro hwrite _ _ hfilter _
    rcases lt_or_ge opts.m_subPicId 0 with hno | hnonneg
    · rw [hneg hno, hwrite]
    · exact (hsub hnonneg).mpr hfilter

theorem Branches.filler_data (hfd : nalu.m_nalUnitType = .FD)
    (hlast : t.lastSliceWritten = s.lastSliceWritten) : Branches lib opts nalu s t write
      (if opts.m_subPicId ≥ 0 then t.lastSliceWritten else write) [] := by
  have hslice : nalu.isSlice = false := by
    rw [InputNALUnit.isSlice, hfd]
    decide
  have hsei : isSEI nalu.m_nalUnitType = false := by
    rw [hfd]
    rfl
  have hset : isBranchRewritten nalu.m_nalUnitType = false := by
    rw [hfd]
    rfl
  refine ⟨hlast, fun _ hu => absurd hu not_mem_nil, fun _ _ hu => absurd hu not_mem_nil,
    ?_, fun _ => .of_other hslice, ?_, ?_⟩
  · intro hwrite hby
    have hno : ¬opts.m_subPicId ≥ 0 := by
      rw [bySubPicture, decide_eq_true hfd, Bool.or_true, Bool.and_true, decide_eq_false_iff_not] at hby
      exact hby
    rw [if_neg hno] at hwrite
    exact ⟨hset, hwrite, .of_other hsei⟩
  · intro hwrite hnonneg _
    rw [if_pos hnonneg, hlast] at hwrite
    exact hwrite
  · intro hwrite _ _ _ hfilter
    split
    · next hnonneg =>
      rw [hlast]
      exact hfilter hnonneg hfd
    · exact hwrite

/-- One case for each branch. -/
theorem extractByType_spec (hat : atBranches lib opts nalu s = .ok t)
    (hlast : t.lastSliceWritten = s.lastSliceWritten)
    (h : extractByType lib opts write nalu t = .ok (write', s', outs)) :
    Branches lib opts nalu s s' write write' outs := by
  rw [extractByType] at h
  split at h
  case h_1 htype =>
    obtain ⟨⟨r, outs'⟩, hsps, h⟩ := bind_eq_ok h
    obtain ⟨hlast', hown⟩ := extractSPS_spec htype hsps
    cases h
    exact .parameterSet (by rw [htype]; rfl) (hlast'.trans hlast) (fun u hu => (hown u hu).2.1) fun _ => hown
  case h_2 htype =>
    obtain ⟨⟨r, outs'⟩, hpps, h⟩ := bind_eq_ok h
    obtain ⟨hlast', hcoded, hown⟩ := extractPPS_spec htype hpps
    cases h
    exact .parameterSet (by rw [htype]; rfl) (hlast'.trans hlast) hcoded hown
  case h_3 htype | h_4 htype | h_5 htype =>
    obtain ⟨st, -, h⟩ := bind_eq_ok h
    cases h
    refine .plain (by rw [htype]; rfl) ?_ (by rw [htype]; decide) (by rw [htype]; rfl) hlast
    rw [InputNALUnit.isSlice, htype]
    decide
  case h_6 htype | h_7 htype =>
    obtain ⟨⟨keep, r, outs'⟩, hsei, h⟩ := bind_eq_ok h
    cases h
    exact .sei (by rw [htype]; rfl) hat hlast hsei
  case h_8 htype =>
    cases h
    exact .filler_data htype hlast
  case h_9 hsps hpps hprefix hsuffix hph hpre hsuf hfd =>
    split at h
    · next hslice =>
      obtain ⟨⟨w, r⟩, hslice', h⟩ := bind_eq_ok h
      cases h
      exact .ofSlice hslice hat hlast hslice'
    · next hslice =>
      cases h
      refine .plain ?_ (Bool.eq_false_iff.mpr hslice) hfd ?_ hlast
      · rw [isSEI, decide_eq_false hpre, decide_eq_false hsuf]
        rfl
      · rw [isBranchRewritten, decide_eq_false hsps, decide_eq_false hpps]
        rfl

/-! ## A round -/

/-- What a round writes for a unit, in the state `s` that the round before left. -/
structure ObeysFilters (lib : SyntaxLib S) (opts : Options) (nalu : InputNALUnit)
    (s s' : ExtractorState S) (outs : List OutputUnit) : Prop where
  /-- The unit itself is copied or not, and nothing else is. -/
  own : outs.filter (·.isCopied) = if .copied nalu ∈ outs then [.copied nalu] else []
  kept : .copied nalu ∈ outs → bySubPicture opts nalu = false →
    PassesLayers lib opts nalu s ∧ SEIFilter lib opts nalu s
  slice : .copied nalu ∈ outs → SliceFilter lib opts nalu s
  filler : .copied nalu ∈ outs → FillerFilter opts nalu s
  complete : isRewritten nalu.m_nalUnitType = false → Passes lib opts nalu s → .copied nalu ∈ outs
  /-- Parameter sets that are written anew, when no subpicture is extracted. -/
  rewritten : opts.m_subPicId < 0 → ∀ u ∈ outs, u.isCopied = false →
    isRewritten nalu.m_nalUnitType = true ∧ Codes nalu u ∧ TemporalFilter opts nalu ∧
      LayerFilter lib opts nalu s ∧ (nalu.m_nalUnitType ≠ .VPS → SubLayerFilter lib opts nalu s)
  last : s'.lastSliceWritten = if nalu.isSlice then decide (.copied nalu ∈ outs) else s.lastSliceWritten

theorem withinTemporalLayer_iff : withinTemporalLayer opts nalu = true ↔ TemporalFilter opts nalu := by
  rw [withinTemporalLayer, Bool.or_eq_true, decide_eq_true_eq, decide_eq_true_eq]
  exact Iff.rfl

/-- The part of the round before the branches. -/
theorem vpsRound_spec {r : ExtractorState S} (h : (if nalu.m_nalUnitType = .VPS then
      extractVPS lib write nalu s else .ok (s, [])) = .ok (r, outs)) :
    afterVPS lib nalu s = .ok r ∧ r.lastSliceWritten = s.lastSliceWritten ∧
      ∀ u ∈ outs, nalu.m_nalUnitType = .VPS ∧ write = true ∧ Codes nalu u := by
  split at h
  · next hvps =>
    obtain ⟨hafter, hlast, hown⟩ := extractVPS_spec hvps h
    exact ⟨hafter, hlast, fun u hu => ⟨hvps, hown u hu⟩⟩
  · next hvps =>
    cases h
    exact ⟨if_neg hvps, rfl, fun _ hu => absurd hu not_mem_nil⟩

theorem filter_isCopied_nil {us : List OutputUnit} (h : ∀ u ∈ us, u.isCopied = false) :
    us.filter (·.isCopied) = [] :=
  filter_eq_nil_iff.mpr fun u hu => h u hu ▸ Bool.false_ne_true

theorem extractNalu_spec (h : extractNalu lib opts nalu s = .ok (s', outs)) :
    ObeysFilters lib opts nalu s s' outs := by
  obtain ⟨⟨r, vpsOuts⟩, hvps, h⟩ := bind_eq_ok h
  obtain ⟨hafter, hlastVPS, hvpsOwn⟩ := vpsRound_spec hvps
  obtain ⟨⟨inOls, t⟩, hols, h⟩ := bind_eq_ok h
  obtain ⟨hinOls, hlastOls⟩ := withinTargetOls_spec hafter hols
  have hat : atBranches lib opts nalu s = .ok t := by
    rw [atBranches, hafter, ok_bind, hols]
    rfl
  obtain ⟨⟨write', r', outs'⟩, hbranch, h⟩ := bind_eq_ok h
  have hb := extractByType_spec hat (hlastOls.trans hlastVPS) hbranch
  cases h
  have hmem : (.copied nalu ∈ vpsOuts ++ outs' ++ if write' = true then [.copied nalu] else []) ↔
      write' = true := by
    constructor
    · intro hin
      rcases mem_append.mp hin with hin | hin
      · rcases mem_append.mp hin with hin | hin
        · exact absurd (hvpsOwn _ hin).2.2.1 (Bool.false_ne_true ∘ Eq.symm)
        · exact absurd (hb.coded _ hin) (Bool.false_ne_true ∘ Eq.symm)
      · by_contra hno
        rw [if_neg hno] at hin
        exact not_mem_nil hin
    · intro hwrite
      rw [if_pos hwrite]
      exact mem_append_right _ mem_cons_self
  have hvpsCoded : ∀ u ∈ vpsOuts, u.isCopied = false := fun u hu => (hvpsOwn u hu).2.2.1
  refine ⟨?_, ?_, fun hin => hb.slice (hmem.mp hin), fun hin => hb.filler (hmem.mp hin), ?_, ?_, ?_⟩
  · simp only [hmem]
    rw [filter_append, filter_append, filter_isCopied_nil hvpsCoded,
      filter_isCopied_nil hb.coded, nil_append, nil_append]
    split <;> rfl
  · intro hin hby
    obtain ⟨-, hwrite, hsei⟩ := hb.kept (hmem.mp hin) hby
    rw [Bool.and_eq_true, Bool.and_eq_true] at hwrite
    obtain ⟨hlayer, hsub⟩ := hinOls.mp hwrite.2
    exact ⟨⟨withinTemporalLayer_iff.mp hwrite.1.1, hlayer, hsub⟩, hsei⟩
  · intro hset hp
    rw [isRewritten, Bool.or_eq_false_iff, Bool.or_eq_false_iff] at hset
    refine hmem.mpr (hb.complete ?_ ?_ hp.sei hp.slice hp.filler)
    · rw [withinTemporalLayer_iff.mpr hp.layers.temporal,
        hinOls.mpr ⟨hp.layers.layer, hp.layers.subLayer⟩, decide_eq_true (of_decide_eq_false hset.1.1)]
      rfl
    · rw [isBranchRewritten, hset.1.2, hset.2]
      rfl
  · intro hneg u hu hcoded
    rcases mem_append.mp hu with hu | hu
    · rcases mem_append.mp hu with hu | hu
      · obtain ⟨htype, hwrite, hcodes⟩ := hvpsOwn u hu
        refine ⟨by rw [htype]; rfl, hcodes, withinTemporalLayer_iff.mp hwrite, ?_, fun hno => absurd htype hno⟩
        intro _
        left
        rw [htype]
        rfl
      · obtain ⟨hset, hwrite, hcodes⟩ := hb.own hneg u hu
        rw [Bool.and_eq_true, Bool.and_eq_true] at hwrite
        obtain ⟨hlayer, hsub⟩ := hinOls.mp hwrite.2
        refine ⟨?_, hcodes, withinTemporalLayer_iff.mp hwrite.1.1, hlayer, fun _ => hsub⟩
        rw [isBranchRewritten, Bool.or_eq_true] at hset
        rw [isRewritten, Bool.or_assoc, Bool.or_eq_true, Bool.or_eq_true]
        exact Or.inr hset
    · split at hu
      · rw [mem_singleton.mp hu] at hcoded
        exact absurd hcoded (Bool.false_ne_true ∘ Eq.symm)
      · exact absurd hu not_mem_nil
  · simp only [hmem, Bool.decide_eq_true]
    rw [hb.last]

/-! ## The run -/

/-- The run lemma: each round obeys the filters, whatever the rounds before have done. -/
theorem decode_obeys : ∀ (nalUnits : List (List UInt8)) {s : ExtractorState S} {rounds : List (Round S)},
    decode lib opts nalUnits s = .ok rounds →
    ∀ r ∈ rounds, ObeysFilters lib opts r.nalu r.before r.after r.outs
  | [], s, rounds, h => by
    cases h
    exact fun _ hr => absurd hr not_mem_nil
  | nalUnit :: nalUnits, s, rounds, h => by
    rw [decode] at h
    split at h
    · exact decode_obeys nalUnits h
    · obtain ⟨nalu, -, h⟩ := bind_eq_ok h
      obtain ⟨⟨s', outs⟩, hround, h⟩ := bind_eq_ok h
      obtain ⟨rest, hrest, h⟩ := bind_eq_ok h
      cases h
      intro r hr
      rcases mem_cons.mp hr with hr | hr
      · rw [hr]
        exact extractNalu_spec hround
      · exact decode_obeys nalUnits hrest r hr

/-- The rounds are those of the units that are not empty, in their order. -/
theorem decode_nalus : ∀ (nalUnits : List (List UInt8)) {s : ExtractorState S} {rounds : List (Round S)},
    decode lib opts nalUnits s = .ok rounds →
    (nalUnits.filter (· ≠ [])).map readNalu = rounds.map (.ok ·.nalu)
  | [], s, rounds, h => by
    cases h
    rfl
  | nalUnit :: nalUnits, s, rounds, h => by
    rw [decode] at h
    split at h
    · next hempty =>
      rw [filter_cons_of_neg (by simp [hempty])]
      exact decode_nalus nalUnits h
    · next hempty =>
      obtain ⟨nalu, hnalu, h⟩ := bind_eq_ok h
      obtain ⟨⟨s', outs⟩, -, h⟩ := bind_eq_ok h
      obtain ⟨rest, hrest, h⟩ := bind_eq_ok h
      cases h
      rw [filter_cons_of_pos (by simp [hempty]), map_cons, map_cons, hnalu,
        decode_nalus nalUnits hrest]

/-- The copied units of the output are those of the input that were kept, each once and in order. -/
theorem written_copied {rounds : List (Round S)}
    (h : ∀ r ∈ rounds, ObeysFilters lib opts r.nalu r.before r.after r.outs) :
    (written rounds).filter (·.isCopied) =
      (rounds.filter fun r => OutputUnit.copied r.nalu ∈ r.outs).map (.copied ·.nalu) := by
  induction rounds with
  | nil => rfl
  | cons r rounds ih =>
    have hrest := ih fun r' hr' => h r' (mem_cons_of_mem r hr')
    have hown := (h r mem_cons_self).own
    rw [written] at hrest
    rw [written, flatMap_cons, filter_append, hown, hrest, filter_cons]
    by_cases hin : OutputUnit.copied r.nalu ∈ r.outs
    · rw [if_pos hin, if_pos (decide_eq_true hin)]
      rfl
    · rw [if_neg hin, if_neg (by simpa using hin)]
      rfl

/-- **Extraction.** A run of the extractor handles the units of the input that are not
empty in their order. A unit that is copied has passed the filters (for a slice or filler
data with a target subpicture: those of the subpicture), a unit that passes all of them and
is not rewritten is copied once, and what is copied is read back as the same unit. -/
theorem extraction_obeysFilters (lib : SyntaxLib S) (opts : Options) {nalUnits : List (List UInt8)}
    {s : ExtractorState S} {rounds : List (Round S)} (h : decode lib opts nalUnits s = .ok rounds) :
    (nalUnits.filter (· ≠ [])).map readNalu = rounds.map (.ok ·.nalu) ∧
      (∀ r ∈ rounds, ObeysFilters lib opts r.nalu r.before r.after r.outs) ∧
      (written rounds).filter (·.isCopied) =
        (rounds.filter fun r => OutputUnit.copied r.nalu ∈ r.outs).map (.copied ·.nalu) ∧
      ∀ r ∈ rounds, ∃ locations, readNalu (escape 0 r.nalu.m_Bitstream.fifo) =
        .ok { r.nalu with m_Bitstream := Nal.Copy.relocate locations r.nalu.m_Bitstream } := by
  have hobeys := decode_obeys nalUnits h
  have hnalus := decode_nalus nalUnits h
  refine ⟨hnalus, hobeys, written_copied hobeys, fun r hr => ?_⟩
  have hread : Except.ok r.nalu ∈ (nalUnits.filter (· ≠ [])).map readNalu := by
    rw [hnalus]
    exact mem_map_of_mem hr
  obtain ⟨nalUnit, -, hnalUnit⟩ := mem_map.mp hread
  exact Nal.Copy.readNalu_again hnalUnit

end

/-! ## A stream with one subpicture -/

/-- The readers on streams with one subpicture, one SPS and one PPS, and pictures that can
be decoded from their first one on; the state is the recovery POC count. -/
def oneSubPicture : SyntaxLib ℤ where
  storeVPS _ s := .ok (1, s)
  getVPS _ id := if id = 0 then some .new else none
  setVPSIdZero _ s := s
  generalSamePicTimingInAllOlsFlag _ _ := true
  storeSPS _ s := .ok (0, s)
  storePPS _ s := .ok (some 0, s)
  hasSubPic m_subPicId _ := m_subPicId = 0
  storeAPS _ s := .ok s
  xReadPicHeader _ _ := .ok 0
  getRecoveryPocCnt s := s
  parseSEImessage _ s := .ok ([], s)
  xParseSliceHeader _ s := .ok (0, s)
  getSubPicInfoPresentFlag _ := .ok true
  codeVPS _ _ := .ok [0x80]
  codeSPS _ _ := .ok [0x80]
  codePPS _ := .ok [0x80]
  codeTargetSPS _ _ := .ok [0x80]
  codeTargetPPS _ := .ok [0x80]
  codeNestedSEIs _ _ := .ok [0x80]

def initialState : ExtractorState ℤ := ⟨-1, 0, false, [], false⟩

/-- Two access unit delimiters, the second one of the next temporal layer. -/
theorem extraction_obeysFilters_delimiters : ∃ rounds,
    ([[0, 0xa1, 0x28], [0, 0xa2, 0x28]].filter (· ≠ [])).map readNalu = rounds.map (.ok ·.nalu) ∧
      (∀ r ∈ rounds, ObeysFilters oneSubPicture ⟨0, -1, -1⟩ r.nalu r.before r.after r.outs) ∧
      (written rounds).filter (·.isCopied) =
        (rounds.filter fun r => OutputUnit.copied r.nalu ∈ r.outs).map (.copied ·.nalu) ∧
      ∀ r ∈ rounds, ∃ locations, readNalu (escape 0 r.nalu.m_Bitstream.fifo) =
        .ok { r.nalu with m_Bitstream := Nal.Copy.relocate locations r.nalu.m_Bitstream } := by
  have hrun : ((decode oneSubPicture ⟨0, -1, -1⟩ [[0, 0xa1, 0x28], [0, 0xa2, 0x28]]
      initialState).toOption.any fun _ => true) = true := by decide +kernel
  obtain ⟨rounds, hrounds, -⟩ := exists_ok_of_any hrun
  exact ⟨rounds, extraction_obeysFilters oneSubPicture ⟨0, -1, -1⟩ hrounds⟩

/-- With the target subpicture 0, a slice of the temporal layer 1 is copied although the
target temporal layer is 0. -/
theorem slice_aboveTemporalLayer : ((decode oneSubPicture ⟨0, -1, 0⟩
    [[0, 0x79, 0x80], [0, 0x81, 0x80], [0, 0x02, 0x80]] initialState).toOption.any fun rounds =>
      (written rounds).any fun u => u.isCopied && decide (0 < u.temporalId)) = true := by
  decide +kernel

/-- The one layer of a stream without a VPS has one sub-layer. -/
theorem defaultVPS_numSubLayers : (VPS.new.deriveOutputLayerSets.toOption.any fun vps =>
    decide (readAt2 vps.m_numSubLayersInLayerInOLS 0 0 = .ok 1)) = true := by decide +kernel

/-- A GDR slice of the temporal layer 1 is copied although its layer has one sub-layer in
the target OLS. -/
theorem gdr_aboveSubLayers : ((decode oneSubPicture ⟨-1, 0, -1⟩
    [[0, 0x99, 0x80], [0, 0x52, 0x80]] initialState).toOption.any fun rounds =>
      (written rounds).any fun u => u.isCopied && decide (u.nalUnitType = .CODED_SLICE_GDR) &&
        decide (1 ≤ u.temporalId)) = true := by
  decide +kernel

/-- Slices and GDR units get past the temporal and the sub-layer filter. -/
theorem extraction_notFiltered :
    (∃ rounds, decode oneSubPicture ⟨0, -1, 0⟩
        [[0, 0x79, 0x80], [0, 0x81, 0x80], [0, 0x02, 0x80]] initialState = .ok rounds ∧
      ∃ u ∈ written rounds, u.isCopied = true ∧ 0 < u.temporalId) ∧
    ∃ vps rounds, VPS.new.deriveOutputLayerSets = .ok vps ∧
      readAt2 vps.m_numSubLayersInLayerInOLS 0 0 = .ok 1 ∧
      decode oneSubPicture ⟨-1, 0, -1⟩ [[0, 0x99, 0x80], [0, 0x52, 0x80]] initialState = .ok rounds ∧
      ∃ u ∈ written rounds, u.nalUnitType = .CODED_SLICE_GDR ∧ 1 ≤ u.temporalId := by
  obtain ⟨rounds, hrounds, hany⟩ := exists_ok_of_any slice_aboveTemporalLayer
  obtain ⟨rounds', hrounds', hany'⟩ := exists_ok_of_any gdr_aboveSubLayers
  obtain ⟨u, hu, hslice⟩ := any_eq_true.mp hany
  obtain ⟨v, hv, hgdr⟩ := any_eq_true.mp hany'
  rw [Bool.and_eq_true, decide_eq_true_eq] at hslice
  rw [Bool.and_eq_true, Bool.and_eq_true, decide_eq_true_eq, decide_eq_true_eq] at hgdr
  obtain ⟨vps, hvps, hnum⟩ := exists_ok_of_any defaultVPS_numSubLayers
  exact ⟨⟨rounds, hrounds, u, hu, hslice⟩,
    ⟨vps, rounds', hvps, of_decide_eq_true hnum, hrounds', v, hv, hgdr.1.2, hgdr.2⟩⟩

end ECM.Extraction.Filters
