import ECM.Cabac.Binarization

/-! # SAO parameters read back -/

namespace ECM.InLoop.Sao
open CommonLib CommonLib.Bins CommonLib.InLoopFilter EncoderLib DecoderLib
open ECM.Cabac.Binarization Lib.Codec

/-! ## What the syntax admits -/

structure BandOffset (maxOffset : ℕ) (a : SAOOffset) : Prop where
  type : a.typeIdc = SAO_TYPE_START_BO
  position : a.typeAuxInfo < NUM_SAO_BO_CLASSES
  bound : ∀ k < 4, (a.offset ((a.typeAuxInfo + k) % NUM_SAO_BO_CLASSES)).natAbs ≤ maxOffset

/-- Offsets of valleys are not negative, those of peaks are not positive. -/
structure EdgeOffset (maxOffset : ℕ) (a : SAOOffset) : Prop where
  type_nonneg : SAO_TYPE_START_EO ≤ a.typeIdc
  type_lt : a.typeIdc < SAO_TYPE_START_BO
  fullValley : 0 ≤ a.offset SAO_CLASS_EO_FULL_VALLEY ∧ a.offset SAO_CLASS_EO_FULL_VALLEY ≤ maxOffset
  halfValley : 0 ≤ a.offset SAO_CLASS_EO_HALF_VALLEY ∧ a.offset SAO_CLASS_EO_HALF_VALLEY ≤ maxOffset
  plain : a.offset SAO_CLASS_EO_PLAIN = 0
  halfPeak : a.offset SAO_CLASS_EO_HALF_PEAK ≤ 0 ∧ -a.offset SAO_CLASS_EO_HALF_PEAK ≤ maxOffset
  fullPeak : a.offset SAO_CLASS_EO_FULL_PEAK ≤ 0 ∧ -a.offset SAO_CLASS_EO_FULL_PEAK ≤ maxOffset

/-- New parameters of a component, or none. -/
def Explicit (maxOffset : ℕ) (a : SAOOffset) : Prop :=
  a.modeIdc = .OFF ∨ a.modeIdc = .NEW ∧ (BandOffset maxOffset a ∨ EdgeOffset maxOffset a)

/-- The parameters of a CTU that the slice and the neighbours admit. -/
inductive Admitted (cs : InLoopFilter.CodingStructure) (ctuRsAddr : ℕ) (a : SAOBlkParam) : Prop where
  | merge (mergeType : ℤ)
    (avail : mergeType = SAO_MERGE_LEFT ∧ cs.leftAvail (cs.ctuPos ctuRsAddr) = true ∨
      mergeType = SAO_MERGE_ABOVE ∧ cs.aboveAvail (cs.ctuPos ctuRsAddr) cs.pcv.maxCUHeight = true)
    (slice : cs.sliceSaoFlag .luma = true ∨ cs.sliceSaoFlag .chroma = true)
    (comps : ∀ compID : ComponentID, compID = .Y ∨ cs.sliceSaoFlag compID.toChannelType = true →
      (a compID).modeIdc = .MERGE ∧ (a compID).typeIdc = mergeType)
  | explicit
    (off : ∀ compID : ComponentID, cs.sliceSaoFlag compID.toChannelType = false → (a compID).modeIdc = .OFF)
    (on : ∀ compID : ComponentID,
      Explicit (getMaxOffsetQVal (cs.sps.bitDepths compID.toChannelType)) (a compID))
    (cr : (a .Cr).modeIdc = (a .Cb).modeIdc ∧
      ((a .Cb).modeIdc = .NEW → (a .Cr).typeIdc = (a .Cb).typeIdc))

/-! ## What is reproduced -/

/-- Mode, and what it uses. -/
structure Same (a b : SAOOffset) : Prop where
  mode : b.modeIdc = a.modeIdc
  type : a.modeIdc ≠ .OFF → b.typeIdc = a.typeIdc
  band : a.modeIdc = .NEW → a.typeIdc = SAO_TYPE_START_BO → b.typeAuxInfo = a.typeAuxInfo ∧
    ∀ k < 4, b.offset ((a.typeAuxInfo + k) % NUM_SAO_BO_CLASSES) =
      a.offset ((a.typeAuxInfo + k) % NUM_SAO_BO_CLASSES)
  edge : a.modeIdc = .NEW → a.typeIdc ≠ SAO_TYPE_START_BO →
    ∀ c < NUM_SAO_EO_CLASSES, b.offset c = a.offset c

/-- Every component, but those of a merge that are off in the slice. -/
def SameCtu (cs : InLoopFilter.CodingStructure) (a b : SAOBlkParam) : Prop :=
  ∀ compID : ComponentID, ((a .Y).modeIdc = .MERGE →
    compID = .Y ∨ cs.sliceSaoFlag compID.toChannelType = true) → Same (a compID) (b compID)

/-! ## Offsets -/

theorem getMaxOffsetQVal_le (bitDepth : ℕ) : getMaxOffsetQVal bitDepth ≤ 31 := by
  have hpow : 1 <<< (min bitDepth 10 - 5) ≤ 2 ^ 5 := by
    rw [Nat.one_shiftLeft]
    exact Nat.pow_le_pow_right (by decide) (by omega)
  rw [getMaxOffsetQVal]
  omega

theorem offsetsAbs_roundTrips {bitDepth : ℕ} {offsets : List ℤ} (hlength : offsets.length = 4)
    (hbound : ∀ o ∈ offsets, o.natAbs ≤ getMaxOffsetQVal bitDepth) :
    RoundTrips True (offsets.forM fun o => CABACWriter.unary_max_eqprob o.natAbs (getMaxOffsetQVal bitDepth))
      ((List.range 4).mapM fun _ => do
        let abs ← CABACReader.unary_max_eqprob (getMaxOffsetQVal bitDepth)
        return (abs : ℤ)) fun _ os => os = offsets.map fun o => (o.natAbs : ℤ) := by
  have hmax := getMaxOffsetQVal_le bitDepth
  refine roundTrips_map (List.forall₂_iff_get.mpr ⟨hlength, fun i hi _ => ?_⟩)
  have ho := hbound _ (List.get_mem offsets ⟨i, hi⟩)
  refine (unary_max_eqprob_roundTrips ho (by omega)).then_right fun _ v hv => ⟨_, rfl, ?_⟩
  rw [hv]

theorem offsetSign_roundTrips (o : ℤ) :
    RoundTrips True (if o ≠ 0 then encodeBinEP (o < 0) else pure ())
      (CABACReader.saoOffsetSign (o.natAbs : ℤ)) fun _ o' => o' = o := by
  refine roundTrips_ite (by omega) (fun _ => ?_) fun hzero => ?_
  · refine (roundTrips_binEP _).then_right fun _ b hb => ⟨o, ?_, rfl⟩
    rw [hb]
    by_cases hneg : o < 0
    · rw [decide_eq_true hneg, if_pos rfl]
      congr 1
      omega
    · rw [decide_eq_false hneg, if_neg Bool.false_ne_true]
      congr 1
      omega
  · exact roundTrips_pure (by omega)

theorem offsetSigns_roundTrips (offsets : List ℤ) :
    RoundTrips True (offsets.forM fun o => if o ≠ 0 then encodeBinEP (o < 0) else pure ())
      ((offsets.map fun o => (o.natAbs : ℤ)).mapM CABACReader.saoOffsetSign) fun _ os => os = offsets := by
  have hmap := roundTrips_map (v := id) (List.forall₂_map_right_iff.mpr
    (List.forall₂_same.mpr fun o (_ : o ∈ offsets) => offsetSign_roundTrips o))
  rwa [List.map_id] at hmap

theorem storeBands_ne (aux : ℕ) (os : List ℤ) : ∀ {k c : ℕ} {old : ℕ → ℤ},
    (∀ i < os.length, c ≠ (aux + (k + i)) % NUM_SAO_BO_CLASSES) →
    CABACReader.storeBands aux k os old c = old c := by
  induction os with
  | nil => exact fun _ => rfl
  | cons o os ih =>
    intro k c old hne
    have hfirst := hne 0 (Nat.succ_pos _)
    rw [Nat.add_zero] at hfirst
    rw [CABACReader.storeBands, ih, Function.update_of_ne hfirst]
    intro i hi
    have hnext := hne (i + 1) (Nat.succ_lt_succ hi)
    rwa [← Nat.add_assoc k, Nat.add_right_comm k] at hnext

/-- The bands are different ones. -/
theorem storeBands_eq (aux : ℕ) (os : List ℤ) : ∀ {k : ℕ} {old : ℕ → ℤ}, os.length ≤ NUM_SAO_BO_CLASSES →
    ∀ i (hi : i < os.length),
      CABACReader.storeBands aux k os old ((aux + (k + i)) % NUM_SAO_BO_CLASSES) = os[i] := by
  induction os with
  | nil => exact fun _ i hi => absurd hi (Nat.not_lt_zero i)
  | cons o os ih =>
    intro k old hlen i hi
    rw [List.length_cons] at hlen hi
    rw [CABACReader.storeBands]
    cases i with
    | zero =>
      rw [storeBands_ne, Nat.add_zero, Function.update_self]
      · rfl
      · intro j hj
        rw [NUM_SAO_BO_CLASSES] at hlen ⊢
        omega
    | succ i =>
      have hrest := @ih (k + 1) (Function.update old ((aux + k) % NUM_SAO_BO_CLASSES) o)
        (Nat.le_of_succ_le hlen) i (Nat.lt_of_succ_lt_succ hi)
      rwa [Nat.add_right_comm, Nat.add_assoc] at hrest

/-! ## A component -/

variable {maxOffset bitDepth : ℕ} {a p b cb : SAOOffset} {compID : ComponentID}

theorem codedOffsets_band (h : a.typeIdc = SAO_TYPE_START_BO) : CABACWriter.codedOffsets a =
    (List.range 4).map fun i => a.offset ((a.typeAuxInfo + i) % NUM_SAO_BO_CLASSES) := if_pos h

theorem codedOffsets_edge (h : a.typeIdc ≠ SAO_TYPE_START_BO) : CABACWriter.codedOffsets a =
    [a.offset SAO_CLASS_EO_FULL_VALLEY, a.offset SAO_CLASS_EO_HALF_VALLEY, a.offset SAO_CLASS_EO_HALF_PEAK,
      a.offset SAO_CLASS_EO_FULL_PEAK] := if_neg h

theorem EdgeOffset.not_band (h : EdgeOffset maxOffset a) : a.typeIdc ≠ SAO_TYPE_START_BO :=
  ne_of_lt h.type_lt

theorem codedOffsets_length (a : SAOOffset) : (CABACWriter.codedOffsets a).length = 4 := by
  by_cases hband : a.typeIdc = SAO_TYPE_START_BO
  · rw [codedOffsets_band hband, List.length_map, List.length_range]
  · rw [codedOffsets_edge hband]
    rfl

theorem codedOffsets_le (h : BandOffset maxOffset a ∨ EdgeOffset maxOffset a) :
    ∀ o ∈ CABACWriter.codedOffsets a, o.natAbs ≤ maxOffset := by
  rcases h with hband | hedge
  · rw [codedOffsets_band hband.type]
    intro o ho
    obtain ⟨i, hi, rfl⟩ := List.mem_map.mp ho
    exact hband.bound i (List.mem_range.mp hi)
  · rw [codedOffsets_edge hedge.not_band]
    have h0 := hedge.fullValley
    have h1 := hedge.halfValley
    have h3 := hedge.halfPeak
    have h4 := hedge.fullPeak
    simp only [List.mem_cons, List.not_mem_nil, or_false]
    rintro o (rfl | rfl | rfl | rfl) <;> omega

/-- What is known of the type before the offsets are read. -/
structure Typed (a p : SAOOffset) (compID : ComponentID) (b : SAOOffset) : Prop where
  mode : b.modeIdc = a.modeIdc
  band : a.modeIdc = .NEW → (b.typeIdc = SAO_TYPE_START_BO ↔ a.typeIdc = SAO_TYPE_START_BO)
  edge : a.modeIdc = .NEW → a.typeIdc ≠ SAO_TYPE_START_BO → compID ≠ .Cr → b.typeIdc = SAO_TYPE_START_EO

theorem type_roundTrips (ha : Explicit maxOffset a) (hp : p.modeIdc = .OFF) :
    RoundTrips True (CABACWriter.sao_offset_type a) (CABACReader.saoType p) fun _ b => Typed a p compID b := by
  rw [CABACWriter.sao_offset_type, CABACReader.saoType]
  rcases ha with hoff | ⟨hnew, hkind⟩
  · rw [if_pos hoff]
    refine (roundTrips_bin _ _).then_right fun _ on hon => ⟨p, ?_, ?_⟩
    · rw [hon, if_neg Bool.false_ne_true]
    · have hne : a.modeIdc ≠ .NEW := by rw [hoff]; exact SAOMode.noConfusion
      exact ⟨by rw [hp, hoff], fun h => absurd h hne, fun h => absurd h hne⟩
  · rw [if_neg (by rw [hnew]; exact SAOMode.noConfusion)]
    by_cases hband : a.typeIdc = SAO_TYPE_START_BO
    · rw [if_pos hband]
      refine roundTrips_bind (roundTrips_bin _ _) fun _ on hon => ?_
      rw [hon, if_pos rfl]
      refine (roundTrips_binEP _).then_right fun _ edge hedge => ⟨_, rfl, ?_⟩
      rw [hedge, if_neg Bool.false_ne_true]
      exact ⟨hnew.symm, fun _ => iff_of_true rfl hband, fun _ hne => absurd hband hne⟩
    · rw [if_neg hband]
      have hlt : a.typeIdc < SAO_TYPE_START_BO :=
        (hkind.resolve_left fun h => hband h.type).type_lt
      rw [check_ok _ (not_not.mpr hlt), Put.lift_ok_bind]
      refine roundTrips_bind (roundTrips_bin _ _) fun _ on hon => ?_
      rw [hon, if_pos rfl]
      refine (roundTrips_binEP _).then_right fun _ edge hedge => ⟨_, rfl, ?_⟩
      rw [hedge, if_pos rfl]
      exact ⟨hnew.symm, fun _ => iff_of_false (show SAO_TYPE_START_EO ≠ SAO_TYPE_START_BO by decide) hband, fun _ _ _ => rfl⟩

theorem band_roundTrips (hnew : a.modeIdc = .NEW) (ha : BandOffset maxOffset a) (hb : Typed a p compID b)
    {first : Prop} [Decidable first] : RoundTrips True (CABACWriter.sao_offset_mode a first)
      (CABACReader.saoBandOffset b ((CABACWriter.codedOffsets a).map fun o => (o.natAbs : ℤ)))
      fun _ b' => Same a b' := by
  rw [CABACWriter.sao_offset_mode, if_pos ha.type, CABACReader.saoBandOffset]
  refine roundTrips_bind (offsetSigns_roundTrips _) fun _ os hos => ?_
  refine (roundTrips_binsEP fun _ => ⟨by decide, ha.position⟩).then_right fun _ aux haux => ⟨_, rfl, ?_⟩
  refine ⟨hb.mode, fun _ => ?_, fun _ _ => ⟨haux, fun k hk => ?_⟩, fun _ hne => absurd ha.type hne⟩
  · rw [ha.type]
    exact (hb.band hnew).mpr ha.type
  · rw [haux, hos]
    have hlength := codedOffsets_length a
    have hstore := @storeBands_eq a.typeAuxInfo (CABACWriter.codedOffsets a) 0 b.offset
      (by rw [hlength]; decide) k (by omega)
    rw [Nat.zero_add] at hstore
    refine hstore.trans ?_
    simp only [codedOffsets_band ha.type, List.getElem_map, List.getElem_range]

theorem storeEdges_eq (ha : EdgeOffset maxOffset a) (old : ℕ → ℤ) : ∀ c < NUM_SAO_EO_CLASSES,
    CABACReader.storeEdges ((CABACWriter.codedOffsets a).map fun o => (o.natAbs : ℤ)) old c = a.offset c := by
  have h0 := ha.fullValley
  have h1 := ha.halfValley
  have h2 := ha.plain
  have h3 := ha.halfPeak
  have h4 := ha.fullPeak
  rw [codedOffsets_edge ha.not_band]
  intro c hc
  match c, hc with
  | 0, _ => exact Int.natAbs_of_nonneg h0.1
  | 1, _ => exact Int.natAbs_of_nonneg h1.1
  | 2, _ => exact h2.symm
  | 3, _ =>
    change -((a.offset SAO_CLASS_EO_HALF_PEAK).natAbs : ℤ) = a.offset SAO_CLASS_EO_HALF_PEAK
    omega
  | 4, _ =>
    change -((a.offset SAO_CLASS_EO_FULL_PEAK).natAbs : ℤ) = a.offset SAO_CLASS_EO_FULL_PEAK
    omega

/-- Cr has the class of Cb. -/
theorem edge_roundTrips (hnew : a.modeIdc = .NEW) (ha : EdgeOffset maxOffset a) (hb : Typed a p compID b)
    (hcb : compID = .Cr → cb.typeIdc = a.typeIdc) {first : Prop} [Decidable first] (hfirst : first ↔ compID ≠ .Cr) :
    RoundTrips True (CABACWriter.sao_offset_mode a first)
      (CABACReader.saoEdgeOffset compID b cb ((CABACWriter.codedOffsets a).map fun o => (o.natAbs : ℤ)))
      fun _ b' => Same a b' := by
  have hclass : RoundTrips True (CABACWriter.sao_offset_mode a first) (CABACReader.saoEdgeClass compID b cb)
      fun _ typeIdc => typeIdc = a.typeIdc := by
    rw [CABACWriter.sao_offset_mode, if_neg ha.not_band, CABACReader.saoEdgeClass]
    refine roundTrips_ite hfirst (fun hf => ?_) fun hf => ?_
    · have hnonneg := ha.type_nonneg
      have hlt := ha.type_lt
      rw [SAO_TYPE_START_EO] at hnonneg
      rw [SAO_TYPE_START_BO] at hlt
      rw [SAO_TYPE_START_EO, check_ok _ (by omega), Put.lift_ok_bind]
      refine (roundTrips_binsEP fun _ => ⟨by decide, ?_⟩).then_right fun _ eoClass heo => ⟨_, rfl, ?_⟩
      · rw [NUM_SAO_EO_TYPES_LOG2]
        omega
      · rw [heo, hb.edge hnew ha.not_band (hfirst.mp hf), SAO_TYPE_START_EO]
        omega
    · exact roundTrips_pure (hcb (not_not.mp (mt hfirst.mpr hf)))
  refine hclass.then_right fun _ typeIdc htype => ⟨_, rfl, ?_⟩
  exact ⟨hb.mode, fun _ => htype, fun _ h => absurd h ha.not_band, fun _ _ => storeEdges_eq ha b.offset⟩

theorem offsets_roundTrips (ha : Explicit (getMaxOffsetQVal bitDepth) a) (hb : Typed a p compID b)
    (hcb : compID = .Cr → a.modeIdc = .NEW → cb.typeIdc = a.typeIdc) {first : Prop} [Decidable first]
    (hfirst : first ↔ compID ≠ .Cr) :
    RoundTrips True (CABACWriter.sao_offsets a first bitDepth) (CABACReader.saoOffsets bitDepth compID b cb)
      fun _ b' => Same a b' := by
  rw [CABACWriter.sao_offsets, CABACReader.saoOffsets]
  rcases ha with hoff | ⟨hnew, hkind⟩
  · have hne : a.modeIdc ≠ .NEW := by rw [hoff]; exact SAOMode.noConfusion
    rw [if_neg hne, if_pos (hb.mode.trans hoff)]
    exact roundTrips_pure ⟨hb.mode, fun h => absurd hoff h, fun h => absurd h hne, fun h => absurd h hne⟩
  · rw [if_pos hnew, if_neg (by rw [hb.mode, hnew]; exact SAOMode.noConfusion)]
    refine roundTrips_bind (offsetsAbs_roundTrips (codedOffsets_length a) (codedOffsets_le hkind))
      fun _ os hos => ?_
    rw [hos]
    rcases hkind with hband | hedge
    · rw [if_pos ((hb.band hnew).mpr hband.type)]
      exact band_roundTrips hnew hband hb
    · rw [if_neg (mt (hb.band hnew).mp hedge.not_band)]
      exact edge_roundTrips hnew hedge hb (fun h => hcb h hnew) hfirst

/-! ## The CTU -/

theorem first_iff (compID : ComponentID) :
    getFirstComponentOfChannel compID.toChannelType = compID ↔ compID ≠ .Cr := by
  cases compID <;> decide

/-- A component that is on in the slice; Cr is read with the parameters of Cb. -/
theorem component_roundTrips {bitDepths : ChannelType → ℕ} {pars : SAOBlkParam}
    (ha : Explicit (getMaxOffsetQVal (bitDepths compID.toChannelType)) a) (hp : (pars compID).modeIdc = .OFF)
    (hcb : compID = .Cr → (pars .Cb).modeIdc = a.modeIdc ∧
      (a.modeIdc = .NEW → (pars .Cb).typeIdc = a.typeIdc)) :
    RoundTrips True (CABACWriter.sao_offset_pars a compID true (bitDepths compID.toChannelType))
      (CABACReader.saoComponent bitDepths pars compID)
      fun _ pars' => ∃ b, Same a b ∧ pars' = Function.update pars compID b := by
  rw [CABACWriter.sao_offset_pars, if_neg (by decide), CABACReader.saoComponent]
  have htype : RoundTrips True
      (if getFirstComponentOfChannel compID.toChannelType = compID then CABACWriter.sao_offset_type a
        else pure ())
      (if compID ≠ .Cr then CABACReader.saoType (pars compID)
        else pure { pars compID with modeIdc := (pars .Cb).modeIdc, typeIdc := (pars .Cb).typeIdc })
      fun _ b => Typed a (pars compID) compID b := by
    refine roundTrips_ite (first_iff compID) (fun _ => type_roundTrips ha hp) fun hfirst => ?_
    have hcr : compID = .Cr := not_not.mp (mt (first_iff compID).mpr hfirst)
    obtain ⟨hmode, htype⟩ := hcb hcr
    exact roundTrips_pure ⟨hmode, fun hnew => by rw [htype hnew], fun _ _ hne => absurd hcr hne⟩
  refine roundTrips_bind htype fun _ b hb => ?_
  refine (offsets_roundTrips ha hb (fun h hnew => (hcb h).2 hnew) (first_iff compID)).then_right
    fun _ b' hb' => ⟨_, rfl, b', hb', rfl⟩

/-- One that is off is not written. -/
theorem component_off (hoff : a.modeIdc = .OFF) (bitDepth : ℕ) :
    CABACWriter.sao_offset_pars a compID false bitDepth = pure () := by
  rw [CABACWriter.sao_offset_pars, if_pos (by decide), check_ok _ (not_not.mpr hoff), Put.lift_ok_bind]

/-! ### New parameters -/

theorem same_off (hoff : a.modeIdc = .OFF) (hb : b.modeIdc = .OFF) : Same a b := by
  have hne : a.modeIdc ≠ .NEW := by rw [hoff]; exact SAOMode.noConfusion
  exact ⟨hb.trans hoff.symm, fun h => absurd hoff h, fun h => absurd h hne, fun h => absurd h hne⟩

variable {cs : InLoopFilter.CodingStructure} {ctuRsAddr : ℕ} {done : List ℕ} {saoPars pars : SAOBlkParam}
variable {bitDepths : ChannelType → ℕ}

/-- What the writer and the reader do for luma, and then for the two chroma components. -/
theorem luma_roundTrips {luma : Bool} (hoff : luma = false → (saoPars .Y).modeIdc = .OFF)
    (hon : Explicit (getMaxOffsetQVal (bitDepths .luma)) (saoPars .Y)) (hp : (pars .Y).modeIdc = .OFF) :
    RoundTrips True (CABACWriter.sao_offset_pars (saoPars .Y) .Y luma (bitDepths .luma))
      (if luma = true then CABACReader.saoComponent bitDepths pars .Y else pure pars)
      fun _ pars' => Same (saoPars .Y) (pars' .Y) ∧ ∀ compID, compID ≠ .Y → pars' compID = pars compID := by
  cases luma with
  | false =>
    rw [component_off (hoff rfl)]
    exact roundTrips_pure ⟨same_off (hoff rfl) hp, fun _ _ => rfl⟩
  | true =>
    refine (@component_roundTrips _ .Y _ _ hon hp nofun).mono fun _ pars' ⟨b, hb, hpars⟩ => ?_
    rw [hpars]
    exact ⟨by rwa [Function.update_self], fun compID hne => Function.update_of_ne hne _ _⟩

theorem chroma_roundTrips {chroma : Bool} (hoff : chroma = false → ∀ compID, compID ≠ .Y → (saoPars compID).modeIdc = .OFF)
    (hon : ∀ compID, compID ≠ .Y → Explicit (getMaxOffsetQVal (bitDepths .chroma)) (saoPars compID))
    (hcr : (saoPars .Cr).modeIdc = (saoPars .Cb).modeIdc ∧
      ((saoPars .Cb).modeIdc = .NEW → (saoPars .Cr).typeIdc = (saoPars .Cb).typeIdc))
    (hp : ∀ compID, compID ≠ .Y → (pars compID).modeIdc = .OFF) :
    RoundTrips True
      (CABACWriter.sao_offset_pars (saoPars .Cb) .Cb chroma (bitDepths .chroma) >>= fun _ =>
        CABACWriter.sao_offset_pars (saoPars .Cr) .Cr chroma (bitDepths .chroma) >>= fun _ => pure ())
      (if chroma = true then CABACReader.saoComponent bitDepths pars .Cb >>= fun pars =>
        CABACReader.saoComponent bitDepths pars .Cr >>= pure else pure pars)
      fun _ pars' => Same (saoPars .Cb) (pars' .Cb) ∧ Same (saoPars .Cr) (pars' .Cr) ∧
        pars' .Y = pars .Y := by
  cases chroma with
  | false =>
    rw [component_off (hoff rfl .Cb nofun), component_off (hoff rfl .Cr nofun)]
    exact roundTrips_pure ⟨same_off (hoff rfl .Cb nofun) (hp .Cb nofun),
      same_off (hoff rfl .Cr nofun) (hp .Cr nofun), rfl⟩
  | true =>
    refine roundTrips_bind (@component_roundTrips _ .Cb _ _ (hon .Cb nofun) (hp .Cb nofun) nofun)
      fun _ pars₁ ⟨b, hb, hpars₁⟩ => ?_
    have hcb : pars₁ .Cb = b := by rw [hpars₁, Function.update_self]
    have hcr₁ : pars₁ .Cr = pars .Cr := by rw [hpars₁]; exact Function.update_of_ne (by decide) _ _
    have hy₁ : pars₁ .Y = pars .Y := by rw [hpars₁]; exact Function.update_of_ne (by decide) _ _
    refine roundTrips_bind (@component_roundTrips _ .Cr _ _ (hon .Cr nofun)
      (by rw [hcr₁]; exact hp .Cr nofun) fun _ => ?_) fun _ pars₂ ⟨c, hc, hpars₂⟩ => ?_
    · rw [hcb]
      refine ⟨hb.mode.trans hcr.1.symm, fun hnew => ?_⟩
      have hcbnew : (saoPars .Cb).modeIdc = .NEW := hcr.1.symm.trans hnew
      rw [hb.type (by rw [hcbnew]; exact SAOMode.noConfusion), hcr.2 hcbnew]
    · refine roundTrips_pure ?_
      have hcb₂ : pars₂ .Cb = b := by
        rw [hpars₂, ← hcb]
        exact Function.update_of_ne (by decide) _ _
      have hy₂ : pars₂ .Y = pars .Y := by
        rw [hpars₂, ← hy₁]
        exact Function.update_of_ne (by decide) _ _
      have hcr₂ : pars₂ .Cr = c := by rw [hpars₂, Function.update_self]
      exact ⟨by rwa [hcb₂], by rwa [hcr₂], hy₂⟩

theorem foldlM_saoComponents (luma chroma : Bool) (f : SAOBlkParam → ComponentID → BinGet SAOBlkParam) :
    (CABACReader.saoComponents luma chroma).foldlM f pars =
      ((if luma = true then f pars .Y else pure pars) >>= fun pars =>
        if chroma = true then f pars .Cb >>= fun pars => f pars .Cr >>= pure else pure pars) := by
  cases luma <;> cases chroma
  · rfl
  · change (f pars .Cb >>= fun pars => f pars .Cr >>= pure) = pure pars >>= _
    rw [pure_bind]
    rfl
  · rfl
  · rfl

theorem explicit_roundTrips (luma chroma : Bool) (sliceEnabled : ComponentID → Bool)
    (henabled : ∀ compID : ComponentID, sliceEnabled compID = if compID = .Y then luma else chroma)
    (hoff : ∀ compID : ComponentID, sliceEnabled compID = false → (saoPars compID).modeIdc = .OFF)
    (hon : ∀ compID : ComponentID, Explicit (getMaxOffsetQVal (bitDepths compID.toChannelType)) (saoPars compID))
    (hcr : (saoPars .Cr).modeIdc = (saoPars .Cb).modeIdc ∧
      ((saoPars .Cb).modeIdc = .NEW → (saoPars .Cr).typeIdc = (saoPars .Cb).typeIdc))
    (hp : ∀ compID, (pars compID).modeIdc = .OFF) :
    RoundTrips True
      (ComponentID.all.forM fun compID => CABACWriter.sao_offset_pars (saoPars compID) compID
        (sliceEnabled compID) (bitDepths compID.toChannelType))
      ((CABACReader.saoComponents luma chroma).foldlM (CABACReader.saoComponent bitDepths) pars)
      fun _ pars' => ∀ compID, Same (saoPars compID) (pars' compID) := by
  have hY : sliceEnabled .Y = luma := henabled .Y
  have hCb : sliceEnabled .Cb = chroma := henabled .Cb
  have hCr : sliceEnabled .Cr = chroma := henabled .Cr
  rw [foldlM_saoComponents]
  change RoundTrips True (CABACWriter.sao_offset_pars (saoPars .Y) .Y (sliceEnabled .Y) (bitDepths .luma) >>= fun _ =>
    CABACWriter.sao_offset_pars (saoPars .Cb) .Cb (sliceEnabled .Cb) (bitDepths .chroma) >>= fun _ =>
      CABACWriter.sao_offset_pars (saoPars .Cr) .Cr (sliceEnabled .Cr) (bitDepths .chroma) >>= fun _ => pure ()) _ _
  rw [hY, hCb, hCr]
  refine roundTrips_bind (luma_roundTrips (fun h => hoff .Y (hY.trans h)) (hon .Y) (hp .Y))
    fun _ pars₁ ⟨hsame, hrest⟩ => ?_
  refine (chroma_roundTrips (fun h compID hne => hoff compID ?_) (fun compID hne => ?_) hcr
    fun compID hne => ?_).mono fun _ pars₂ ⟨hcb, hcr', hy⟩ compID => ?_
  · rw [henabled, if_neg hne, h]
  · cases compID with
    | Y => exact absurd rfl hne
    | Cb => exact hon .Cb
    | Cr => exact hon .Cr
  · rw [hrest compID hne]
    exact hp compID
  · cases compID with
    | Y => rwa [hy]
    | Cb => exact hcb
    | Cr => exact hcr'

/-! ### Merging -/

theorem mergeType_roundTrips {left above isLeft isAbove : Bool} (hleft : isLeft = true → left = true)
    (habove : isAbove = true → above = true ∧ isLeft = false) :
    RoundTrips True
      ((if left = true then encodeBin isLeft ⟨.SaoMergeFlag, 0⟩ else pure ()) >>= fun _ =>
        if above = true ∧ ¬isLeft = true then encodeBin isAbove ⟨.SaoMergeFlag, 0⟩ else pure ())
      (CABACReader.saoMergeType left above) fun _ t => t = -1 + isLeft.toNat + 2 * isAbove.toNat := by
  have hfirst : RoundTrips True (if left = true then encodeBin isLeft ⟨.SaoMergeFlag, 0⟩ else pure ())
      (if left = true then do
        let left ← decodeBin ⟨.SaoMergeFlag, 0⟩
        return -1 + (left.toNat : ℤ)
      else pure (-1)) fun _ (t : ℤ) => t = -1 + (isLeft.toNat : ℤ) := by
    refine roundTrips_ite Iff.rfl (fun _ => ?_) fun hno => roundTrips_pure ?_
    · exact (roundTrips_bin _ _).then_right fun _ b hb => ⟨_, rfl, by rw [hb]⟩
    · rw [Bool.eq_false_iff.mpr (mt hleft hno)]
      rfl
  refine roundTrips_bind hfirst fun _ t ht => ?_
  refine roundTrips_ite ?_ (fun hask => ?_) fun hno => roundTrips_pure ?_
  · rw [ht]
    cases isLeft <;> simp
  · refine (roundTrips_bin _ _).then_right fun _ b hb => ⟨_, rfl, ?_⟩
    rw [ht, hb]
    cases isAbove <;> rfl
  · have hnot : isAbove = false := by
      refine Bool.eq_false_iff.mpr fun h => hno ⟨(habove h).1, ?_⟩
      rw [(habove h).2]
      exact Bool.false_ne_true
    rw [ht, hnot]
    cases isLeft <;> rfl

theorem isMerge_of_merge {mergeType t : ℤ} (h : (saoPars .Y).modeIdc = .MERGE ∧ (saoPars .Y).typeIdc = mergeType) :
    CABACWriter.isMerge saoPars t = decide (mergeType = t) := by
  rw [CABACWriter.isMerge, h.1, h.2, decide_eq_decide]
  exact and_iff_right rfl

theorem isMerge_of_explicit (h : Explicit maxOffset (saoPars .Y)) (t : ℤ) :
    CABACWriter.isMerge saoPars t = false := by
  refine decide_eq_false fun ⟨hmerge, _⟩ => ?_
  rcases h with hoff | ⟨hnew, _⟩
  · rw [hoff] at hmerge
    cases hmerge
  · rw [hnew] at hmerge
    cases hmerge

theorem saoMerge_same {mergeType : ℤ} (hslice : cs.sliceSaoFlag .luma = true ∨ cs.sliceSaoFlag .chroma = true)
    (hcomps : ∀ compID : ComponentID, compID = .Y ∨ cs.sliceSaoFlag compID.toChannelType = true →
      (saoPars compID).modeIdc = .MERGE ∧ (saoPars compID).typeIdc = mergeType) :
    SameCtu cs saoPars (CABACReader.saoMerge (cs.sliceSaoFlag .luma) (cs.sliceSaoFlag .chroma) mergeType pars) := by
  intro compID hmerge
  have hon := hmerge (hcomps .Y (.inl rfl)).1
  obtain ⟨hmode, htype⟩ := hcomps compID hon
  have hset : compID = .Y ∧ (cs.sliceSaoFlag .luma = true ∨ cs.sliceSaoFlag .chroma = true) ∨
      cs.sliceSaoFlag .chroma = true := by
    cases compID with
    | Y => exact .inl ⟨rfl, hslice⟩
    | Cb => exact .inr (hon.resolve_left nofun)
    | Cr => exact .inr (hon.resolve_left nofun)
  have hne : (saoPars compID).modeIdc ≠ .NEW := by rw [hmode]; exact SAOMode.noConfusion
  rw [CABACReader.saoMerge, if_pos hset]
  exact ⟨hmode.symm, fun _ => htype.symm, fun h => absurd h hne, fun h => absurd h hne⟩

/-- The parameters of a CTU, when its slice has SAO. -/
theorem ctu_roundTrips (ha : Admitted cs ctuRsAddr saoPars) (hp : ∀ compID, (pars compID).modeIdc = .OFF)
    {left above : Bool} (hleft : cs.leftAvail (cs.ctuPos ctuRsAddr) = left)
    (habove : cs.aboveAvail (cs.ctuPos ctuRsAddr) cs.pcv.maxCUHeight = above) :
    RoundTrips True
      (CABACWriter.sao_block_pars saoPars cs.sps.bitDepths
        (fun compID => cs.sliceSaoFlag compID.toChannelType) left above)
      (CABACReader.saoMergeType left above >>= fun sao_merge_type =>
        if sao_merge_type ≥ 0 then
          pure (CABACReader.saoMerge (cs.sliceSaoFlag .luma) (cs.sliceSaoFlag .chroma) sao_merge_type pars)
        else (CABACReader.saoComponents (cs.sliceSaoFlag .luma) (cs.sliceSaoFlag .chroma)).foldlM
          (CABACReader.saoComponent cs.sps.bitDepths) pars) fun _ pars' => SameCtu cs saoPars pars' := by
  have hflags : ∃ isLeft isAbove : Bool, (left && CABACWriter.isMerge saoPars SAO_MERGE_LEFT) = isLeft ∧
      (above && !isLeft && CABACWriter.isMerge saoPars SAO_MERGE_ABOVE) = isAbove := ⟨_, _, rfl, rfl⟩
  obtain ⟨isLeft, isAbove, hL, hA⟩ := hflags
  rw [CABACWriter.sao_block_pars, hL]
  dsimp only
  rw [hA, ← Put.bind_assoc]
  refine roundTrips_bind (mergeType_roundTrips (fun h => ?_) fun h => ?_) fun _ t ht => ?_
  · rw [← hL, Bool.and_eq_true] at h
    exact h.1
  · rw [← hA, Bool.and_eq_true, Bool.and_eq_true, Bool.not_eq_true'] at h
    exact h.1
  cases ha with
  | merge mergeType avail slice comps =>
    have hY := comps .Y (.inl rfl)
    rw [isMerge_of_merge hY] at hL hA
    have hmerged : t = mergeType ∧ t ≥ 0 ∧ ¬(¬isLeft = true ∧ ¬isAbove = true) := by
      rcases avail with ⟨rfl, havail⟩ | ⟨rfl, havail⟩
      · rw [← hleft, havail] at hL
        rw [decide_eq_false (by decide), Bool.and_false] at hA
        subst hL
        subst hA
        rw [ht]
        decide
      · rw [← habove, havail] at hA
        rw [decide_eq_false (by decide), Bool.and_false] at hL
        subst hL
        subst hA
        rw [ht]
        decide
    obtain ⟨rfl, hnonneg, hnot⟩ := hmerged
    rw [if_neg hnot, if_pos hnonneg]
    exact roundTrips_pure (saoMerge_same slice comps)
  | explicit off on cr =>
    rw [isMerge_of_explicit (on .Y), Bool.and_false] at hL hA
    subst hL
    subst hA
    rw [ht, if_pos (by decide), if_neg (by decide)]
    refine (explicit_roundTrips _ _ _ (fun compID => ?_) off on cr hp).mono fun _ pars' h compID _ => h compID
    cases compID <;> rfl

theorem saoOff_off (pars : SAOBlkParam) (compID : ComponentID) :
    (CABACReader.saoOff pars compID).modeIdc = .OFF := rfl

/-- The neighbours that the reader has are those of the writer. -/
theorem sao_roundTrips {pic : PicControl} (ha : cs.sps.saoEnabledFlag = true → Admitted cs ctuRsAddr (pic.ctu ctuRsAddr).sao)
    (hleft : ({ cs with coded := done } : InLoopFilter.CodingStructure).leftAvail (cs.ctuPos ctuRsAddr) =
      cs.leftAvail (cs.ctuPos ctuRsAddr))
    (habove : ({ cs with coded := done } : InLoopFilter.CodingStructure).aboveAvail (cs.ctuPos ctuRsAddr) cs.pcv.maxCUHeight =
      cs.aboveAvail (cs.ctuPos ctuRsAddr) cs.pcv.maxCUHeight) :
    RoundTrips True (CABACWriter.sao cs pic ctuRsAddr)
      (CABACReader.sao { cs with coded := done } pars ctuRsAddr)
      fun _ pars' => cs.sps.saoEnabledFlag = true → SameCtu cs (pic.ctu ctuRsAddr).sao pars' := by
  rw [CABACWriter.sao, CABACReader.sao]
  refine roundTrips_ite Iff.rfl (fun hno => roundTrips_pure fun h => absurd h hno) fun hsao => ?_
  have hsao := not_not.mp hsao
  refine roundTrips_ite Iff.rfl (fun hnone => roundTrips_pure fun _ => ?_) fun hsome => ?_
  · cases ha hsao with
    | merge _ _ slice _ => exact absurd slice (by rw [not_or]; exact hnone)
    | explicit off _ _ =>
      refine fun compID _ => same_off (off compID ?_) rfl
      cases compID with
      | Y => exact Bool.eq_false_iff.mpr hnone.1
      | Cb => exact Bool.eq_false_iff.mpr hnone.2
      | Cr => exact Bool.eq_false_iff.mpr hnone.2
  · change RoundTrips True _
      (CABACReader.saoMergeType (({ cs with coded := done } : InLoopFilter.CodingStructure).leftAvail (cs.ctuPos ctuRsAddr))
        (({ cs with coded := done } : InLoopFilter.CodingStructure).aboveAvail (cs.ctuPos ctuRsAddr) cs.pcv.maxCUHeight) >>=
          fun sao_merge_type => _) _
    rw [hleft, habove]
    exact (ctu_roundTrips (ha hsao) (saoOff_off pars) rfl rfl).mono fun _ _ h _ => h

end ECM.InLoop.Sao
