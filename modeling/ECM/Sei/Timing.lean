import ECM.DecoderLib.SEIread
import ECM.EncoderLib.SEIwrite

/-! # Timing SEI messages, written and read

The number of CPBs of a buffering period is written, and never read. -/

namespace ECM.Sei.Timing
open CommonLib CommonLib.BitStream EncoderLib.VLCWriter EncoderLib.SEIwrite
open DecoderLib.VLCReader DecoderLib.SEIread Lib.Loop

/-! ## What a round trip keeps -/

/-- The sub-layers whose delays are sent. -/
def SendsSubLayer (bp : SEIBufferingPeriod) (i : ℕ) : Prop :=
  (i : ℤ) < bp.m_bpMaxSubLayers ∧
    (bp.m_sublayerInitialCpbRemovalDelayPresentFlag = true ∨ (i : ℤ) = bp.m_bpMaxSubLayers - 1)

/-- The HRDs whose parameters are sent: 0 for NAL and 1 for VCL. -/
def SendsHrd (bp : SEIBufferingPeriod) (nalOrVcl : ℕ) : Prop :=
  nalOrVcl = 0 ∧ bp.m_bpNalCpbParamsPresentFlag = true ∨
    nalOrVcl = 1 ∧ bp.m_bpVclCpbParamsPresentFlag = true

/-- The fields of `sei` that the syntax transmits are those of `sei'`. -/
structure SameBufferingPeriod (sei sei' : SEIBufferingPeriod) : Prop where
  nal : sei'.m_bpNalCpbParamsPresentFlag = sei.m_bpNalCpbParamsPresentFlag
  vcl : sei'.m_bpVclCpbParamsPresentFlag = sei.m_bpVclCpbParamsPresentFlag
  initialLength : sei'.m_initialCpbRemovalDelayLength = sei.m_initialCpbRemovalDelayLength
  removalLength : sei'.m_cpbRemovalDelayLength = sei.m_cpbRemovalDelayLength
  outputLength : sei'.m_dpbOutputDelayLength = sei.m_dpbOutputDelayLength
  du : sei'.m_bpDecodingUnitHrdParamsPresentFlag = sei.m_bpDecodingUnitHrdParamsPresentFlag
  duParams : sei.m_bpDecodingUnitHrdParamsPresentFlag = true →
    sei'.m_duCpbRemovalDelayIncrementLength = sei.m_duCpbRemovalDelayIncrementLength ∧
    sei'.m_dpbOutputDelayDuLength = sei.m_dpbOutputDelayDuLength ∧
    sei'.m_decodingUnitCpbParamsInPicTimingSeiFlag = sei.m_decodingUnitCpbParamsInPicTimingSeiFlag ∧
    sei'.m_decodingUnitDpbDuParamsInPicTimingSeiFlag = sei.m_decodingUnitDpbDuParamsInPicTimingSeiFlag
  concatenation : sei'.m_concatenationFlag = sei.m_concatenationFlag
  additional : sei'.m_additionalConcatenationInfoPresentFlag = sei.m_additionalConcatenationInfoPresentFlag
  maxDelay : sei.m_additionalConcatenationInfoPresentFlag = true →
    sei'.m_maxInitialRemovalDelayForConcatenation = sei.m_maxInitialRemovalDelayForConcatenation
  delayDelta : sei'.m_auCpbRemovalDelayDelta = sei.m_auCpbRemovalDelayDelta
  maxSubLayers : sei'.m_bpMaxSubLayers = sei.m_bpMaxSubLayers
  deltas : sei'.m_cpbRemovalDelayDeltasPresentFlag = sei.m_cpbRemovalDelayDeltasPresentFlag
  delayDeltas : sei.m_cpbRemovalDelayDeltasPresentFlag = true →
    sei'.m_numCpbRemovalDelayDeltas = sei.m_numCpbRemovalDelayDeltas ∧
    ∀ i : ℕ, (i : ℤ) < sei.m_numCpbRemovalDelayDeltas →
      sei'.m_cpbRemovalDelayDelta[i]? = sei.m_cpbRemovalDelayDelta[i]?
  cpbCnt : sei'.m_bpCpbCnt = sei.m_bpCpbCnt
  subLayerDelays : sei'.m_sublayerInitialCpbRemovalDelayPresentFlag =
    sei.m_sublayerInitialCpbRemovalDelayPresentFlag
  initialDelays : ∀ i j nalOrVcl : ℕ, SendsSubLayer sei i → (j : ℤ) < sei.m_bpCpbCnt →
    SendsHrd sei nalOrVcl →
    readAt3 sei'.m_initialCpbRemovalDelay j i nalOrVcl = readAt3 sei.m_initialCpbRemovalDelay j i nalOrVcl ∧
    readAt3 sei'.m_initialCpbRemovalOffset j i nalOrVcl = readAt3 sei.m_initialCpbRemovalOffset j i nalOrVcl
  offsets : sei'.m_sublayerDpbOutputOffsetsPresentFlag = sei.m_sublayerDpbOutputOffsetsPresentFlag
  tidOffsets : sei.m_sublayerDpbOutputOffsetsPresentFlag = true → ∀ i : ℕ,
    (i : ℤ) < sei.m_bpMaxSubLayers - 1 → sei'.m_dpbOutputTidOffset[i]? = sei.m_dpbOutputTidOffset[i]?
  alt : sei'.m_altCpbParamsPresentFlag = sei.m_altCpbParamsPresentFlag
  useAlt : sei.m_altCpbParamsPresentFlag = true → sei'.m_useAltCpbParamsFlag = sei.m_useAltCpbParamsFlag

/-- The sub-layers below the highest one that a message of `temporalId` speaks about. -/
def Below (bp : SEIBufferingPeriod) (temporalId i : ℕ) : Prop :=
  temporalId ≤ i ∧ (i : ℤ) < bp.m_bpMaxSubLayers - 1

/-- A picture timing message describes the decoding units. -/
def SendsUnits (bp : SEIBufferingPeriod) : Prop :=
  bp.m_bpDecodingUnitHrdParamsPresentFlag = true ∧ bp.m_decodingUnitCpbParamsInPicTimingSeiFlag = true

structure SamePictureTiming (bp : SEIBufferingPeriod) (temporalId : ℕ) (sei sei' : SEIPictureTiming) :
    Prop where
  highest : ∀ i : ℕ, (i : ℤ) = bp.m_bpMaxSubLayers - 1 →
    sei'.m_auCpbRemovalDelay[i]? = sei.m_auCpbRemovalDelay[i]?
  present : ∀ i, Below bp temporalId i →
    sei'.m_ptSubLayerDelaysPresentFlag[i]? = sei.m_ptSubLayerDelaysPresentFlag[i]?
  delays : ∀ i, Below bp temporalId i → sei.m_ptSubLayerDelaysPresentFlag[i]? = some true →
    (bp.m_cpbRemovalDelayDeltasPresentFlag = true →
      sei'.m_cpbRemovalDelayDeltaEnabledFlag[i]? = sei.m_cpbRemovalDelayDeltaEnabledFlag[i]?) ∧
    (sei.m_cpbRemovalDelayDeltaEnabledFlag[i]? = some true → 1 < bp.m_numCpbRemovalDelayDeltas →
      sei'.m_cpbRemovalDelayDeltaIdx[i]? = sei.m_cpbRemovalDelayDeltaIdx[i]?) ∧
    (sei.m_cpbRemovalDelayDeltaEnabledFlag[i]? = some false →
      sei'.m_auCpbRemovalDelay[i]? = sei.m_auCpbRemovalDelay[i]?)
  outputDelay : sei'.m_picDpbOutputDelay = sei.m_picDpbOutputDelay
  alt : bp.m_altCpbParamsPresentFlag = true →
    sei'.m_cpbAltTimingInfoPresentFlag = sei.m_cpbAltTimingInfoPresentFlag
  nalTiming : bp.m_altCpbParamsPresentFlag = true → sei.m_cpbAltTimingInfoPresentFlag = true →
    SendsHrd bp 0 → ∀ i, SendsSubLayer bp i →
      (∀ j : ℕ, (j : ℤ) < bp.m_bpCpbCnt →
        readAt2 sei'.m_nalCpbAltInitialRemovalDelayDelta i j =
          readAt2 sei.m_nalCpbAltInitialRemovalDelayDelta i j ∧
        readAt2 sei'.m_nalCpbAltInitialRemovalOffsetDelta i j =
          readAt2 sei.m_nalCpbAltInitialRemovalOffsetDelta i j) ∧
      sei'.m_nalCpbDelayOffset[i]? = sei.m_nalCpbDelayOffset[i]? ∧
      sei'.m_nalDpbDelayOffset[i]? = sei.m_nalDpbDelayOffset[i]?
  vclTiming : bp.m_altCpbParamsPresentFlag = true → sei.m_cpbAltTimingInfoPresentFlag = true →
    SendsHrd bp 1 → ∀ i, SendsSubLayer bp i →
      (∀ j : ℕ, (j : ℤ) < bp.m_bpCpbCnt →
        readAt2 sei'.m_vclCpbAltInitialRemovalDelayDelta i j =
          readAt2 sei.m_vclCpbAltInitialRemovalDelayDelta i j ∧
        readAt2 sei'.m_vclCpbAltInitialRemovalOffsetDelta i j =
          readAt2 sei.m_vclCpbAltInitialRemovalOffsetDelta i j) ∧
      sei'.m_vclCpbDelayOffset[i]? = sei.m_vclCpbDelayOffset[i]? ∧
      sei'.m_vclDpbDelayOffset[i]? = sei.m_vclDpbDelayOffset[i]?
  duDelay : bp.m_bpDecodingUnitHrdParamsPresentFlag = true →
    bp.m_decodingUnitDpbDuParamsInPicTimingSeiFlag = true →
    sei'.m_picDpbOutputDuDelay = sei.m_picDpbOutputDuDelay
  units : SendsUnits bp → sei'.m_numDecodingUnitsMinus1 = sei.m_numDecodingUnitsMinus1
  common : SendsUnits bp → 0 < sei.m_numDecodingUnitsMinus1 →
    sei'.m_duCommonCpbRemovalDelayFlag = sei.m_duCommonCpbRemovalDelayFlag
  commonDelays : SendsUnits bp → 0 < sei.m_numDecodingUnitsMinus1 →
    sei.m_duCommonCpbRemovalDelayFlag = true → ∀ i, Below bp temporalId i →
    sei.m_ptSubLayerDelaysPresentFlag[i]? = some true →
    sei'.m_duCommonCpbRemovalDelayMinus1[i]? = sei.m_duCommonCpbRemovalDelayMinus1[i]?
  nalus : SendsUnits bp → 0 < sei.m_numDecodingUnitsMinus1 → ∀ i ≤ sei.m_numDecodingUnitsMinus1,
    sei'.m_numNalusInDuMinus1[i]? = sei.m_numNalusInDuMinus1[i]?
  unitDelays : SendsUnits bp → sei.m_duCommonCpbRemovalDelayFlag = false →
    ∀ i < sei.m_numDecodingUnitsMinus1, ∀ j, Below bp temporalId j →
    sei.m_ptSubLayerDelaysPresentFlag[j]? = some true →
    sei'.m_duCpbRemovalDelayMinus1[i * bp.m_bpMaxSubLayers.toNat + j]? =
      sei.m_duCpbRemovalDelayMinus1[i * bp.m_bpMaxSubLayers.toNat + j]?
  displayPeriods : sei'.m_ptDisplayElementalPeriodsMinus1 = sei.m_ptDisplayElementalPeriodsMinus1

structure SameDecodingUnitInfo (bp : SEIBufferingPeriod) (temporalId : ℕ)
    (sei sei' : SEIDecodingUnitInfo) : Prop where
  idx : sei'.m_decodingUnitIdx = sei.m_decodingUnitIdx
  increments : bp.m_decodingUnitCpbParamsInPicTimingSeiFlag = false → ∀ i : ℕ, temporalId ≤ i →
    (i : ℤ) < bp.m_bpMaxSubLayers →
    ((i : ℤ) < bp.m_bpMaxSubLayers - 1 →
      sei'.m_duiSubLayerDelaysPresentFlag[i]? = sei.m_duiSubLayerDelaysPresentFlag[i]?) ∧
    (sei.m_duiSubLayerDelaysPresentFlag[i]? = some true →
      sei'.m_duSptCpbRemovalDelayIncrement[i]? = sei.m_duSptCpbRemovalDelayIncrement[i]?)
  present : bp.m_decodingUnitDpbDuParamsInPicTimingSeiFlag = true →
    sei'.m_dpbOutputDuDelayPresentFlag = sei.m_dpbOutputDuDelayPresentFlag
  delay : sei.m_dpbOutputDuDelayPresentFlag = true →
    sei'.m_picSptDpbOutputDuDelay = sei.m_picSptDpbOutputDuDelay

/-- A message, and what is read of it. -/
inductive Same (bp : SEIBufferingPeriod) (temporalId : ℕ) : SEI → SEI → Prop
  | bufferingPeriod {sei sei' : SEIBufferingPeriod} :
    SameBufferingPeriod sei sei' → Same bp temporalId (.bufferingPeriod sei) (.bufferingPeriod sei')
  | pictureTiming {sei sei' : SEIPictureTiming} :
    SamePictureTiming bp temporalId sei sei' → Same bp temporalId (.pictureTiming sei) (.pictureTiming sei')
  | decodingUnitInfo {sei sei' : SEIDecodingUnitInfo} :
    SameDecodingUnitInfo bp temporalId sei sei' →
      Same bp temporalId (.decodingUnitInfo sei) (.decodingUnitInfo sei')

/-! ## NAL units -/

/-- A NAL unit: its temporal id and its messages. -/
abbrev SeiUnit := ℕ × List SEI

/-- Each unit is written into a bit stream of its own, under the buffering periods
before it. -/
def writeUnits : List SeiUnit → HRD → Checked (List (List UInt8))
  | [], _ => .ok []
  | (temporalId, seis) :: units, hrd => do
    let (hrd, bs) ← writeSEImessages seis hrd temporalId OutputBitstream.clear
    let fifos ← writeUnits units hrd
    return bs.fifo :: fifos

def readUnits (parseOther : (payloadType payloadSize : ℕ) → ReadM Unit) :
    List (ℕ × List UInt8) → HRD → Checked (List (List SEI))
  | [], _ => .ok []
  | (temporalId, fifo) :: units, hrd => do
    let ((seis, hrd), _) ← parseSEImessage parseOther hrd temporalId (InputBitstream.ofFifo fifo)
    let rest ← readUnits parseOther units hrd
    return seis :: rest

/-- The units of a buffering period, in the message of which they begin, come back with the
transmitted fields of all their messages. -/
def RoundTrips (parseOther : (payloadType payloadSize : ℕ) → ReadM Unit) (bp : SEIBufferingPeriod)
    (units : List SeiUnit) (fifos : List (List UInt8)) : Prop :=
  ∃ read, readUnits parseOther ((units.map (·.1)).zip fifos) .new = .ok read ∧
    List.Forall₂ (fun unit seis => List.Forall₂ (Same (bp.copyTo .new) unit.1) unit.2 seis) units read

/-! ## The number of CPBs -/

section
variable {sei : SEIBufferingPeriod} {n : ℤ}

/-- The reader leaves the number of CPBs at `n`. -/
abbrev KeepsCpbCnt (n : ℤ) (x : ReadM SEIBufferingPeriod) : Prop := Returns x fun sei => sei.m_bpCpbCnt = n

theorem parseDecodingUnitHrdParams_cpbCnt (h : sei.m_bpCpbCnt = n) :
    KeepsCpbCnt n (parseDecodingUnitHrdParams sei) := by
  refine returns_then fun present => ?_
  refine returns_bind (Q := fun sei => sei.m_bpCpbCnt = n) ?_ fun sei hsei => returns_then fun _ => returns_pure hsei
  split
  · exact returns_then fun _ => returns_then fun _ => returns_then fun _ => returns_then fun _ =>
      returns_pure h
  · exact returns_pure h

theorem parseConcatenation_cpbCnt (h : sei.m_bpCpbCnt = n) : KeepsCpbCnt n (parseConcatenation sei) := by
  refine returns_then fun _ => returns_then fun additional => ?_
  dsimp only
  split
  · exact returns_then fun _ => returns_pure h
  · exact returns_pure h

theorem parseDelayDeltas_cpbCnt (h : sei.m_bpCpbCnt = n) : KeepsCpbCnt n (parseDelayDeltas sei) := by
  refine returns_then fun _ => returns_then fun _ => returns_then fun present => ?_
  dsimp only
  split
  · refine returns_then fun _ => returns_loop h fun i t ht => ?_
    exact returns_then fun _ => returns_then fun _ => returns_pure ht
  · exact returns_pure h

theorem parseInitialDelays_cpbCnt (i : ℕ) (h : sei.m_bpCpbCnt = n) :
    KeepsCpbCnt n (parseInitialDelays i sei) := by
  refine returns_loop h fun nalOrVcl t ht => ?_
  split
  · refine returns_loop ht fun j u hu => ?_
    exact returns_then fun _ => returns_then fun _ => returns_then fun _ => returns_then fun _ =>
      returns_pure hu
  · exact returns_pure ht

theorem parseDpbOutputOffsets_cpbCnt (h : sei.m_bpCpbCnt = n) :
    KeepsCpbCnt n (parseDpbOutputOffsets sei) := by
  refine returns_then fun present => ?_
  dsimp only
  split
  · refine returns_bind (Q := fun sei => sei.m_bpCpbCnt = n) (returns_loop h fun i t ht => ?_)
      fun t ht => returns_then fun _ => returns_then fun _ => returns_pure ht
    exact returns_then fun _ => returns_then fun _ => returns_pure ht
  · exact returns_pure h

theorem parseAltCpbParams_cpbCnt (h : sei.m_bpCpbCnt = n) : KeepsCpbCnt n (parseAltCpbParams sei) := by
  refine returns_then fun present => ?_
  dsimp only
  split
  · exact returns_then fun _ => returns_pure h
  · exact returns_pure h

/-- A buffering period that was read has no CPB. -/
theorem xParseSEIBufferingPeriod_cpbCnt : KeepsCpbCnt 0 xParseSEIBufferingPeriod := by
  refine returns_then fun _ => returns_then fun _ => returns_then fun _ => returns_then fun _ =>
    returns_then fun _ => ?_
  refine returns_bind (parseDecodingUnitHrdParams_cpbCnt rfl) fun sei hsei => ?_
  refine returns_bind (parseConcatenation_cpbCnt hsei) fun sei hsei => ?_
  refine returns_bind (parseDelayDeltas_cpbCnt hsei) fun sei hsei => returns_then fun present => ?_
  refine returns_bind (Q := fun sei => sei.m_bpCpbCnt = 0)
    (returns_loop hsei fun k t ht => parseInitialDelays_cpbCnt _ ht) fun sei hsei => ?_
  exact returns_bind (parseDpbOutputOffsets_cpbCnt hsei) fun sei hsei => parseAltCpbParams_cpbCnt hsei

end

/-- No message that was read is a buffering period with a CPB. -/
def NoCpb (seis : List SEI) : Prop := ∀ sei, .bufferingPeriod sei ∈ seis → sei.m_bpCpbCnt = 0

section
variable {parseOther : (payloadType payloadSize : ℕ) → ReadM Unit} {hrd : HRD} {temporalId : ℕ}

theorem parsePayload_noCpb (payloadType payloadSize : ℕ) :
    Returns (parsePayload parseOther payloadType payloadSize hrd temporalId) fun r => NoCpb r.1.toList := by
  unfold parsePayload
  split
  · refine returns_bind xParseSEIBufferingPeriod_cpbCnt fun sei hsei => returns_pure ?_
    intro sei' hmem
    cases List.mem_singleton.mp hmem
    exact hsei
  · split
    · exact returns_pure fun _ hmem => absurd hmem List.not_mem_nil
    · refine returns_then fun pt => returns_pure fun sei hmem => ?_
      cases List.mem_singleton.mp hmem
  · split
    · exact returns_pure fun _ hmem => absurd hmem List.not_mem_nil
    · refine returns_then fun dui => returns_pure fun sei hmem => ?_
      cases List.mem_singleton.mp hmem
  · exact returns_then fun _ => returns_pure fun _ hmem => absurd hmem List.not_mem_nil

theorem xReadSEImessage_noCpb :
    Returns (xReadSEImessage parseOther hrd temporalId) fun r => NoCpb r.1.toList := by
  intro bs r bs' h
  obtain ⟨⟨payloadType, bs₁⟩, -, h⟩ := bind_eq_ok h
  obtain ⟨⟨payloadSize, bs₂⟩, -, h⟩ := bind_eq_ok h
  obtain ⟨⟨payload, bs₃⟩, -, h⟩ := bind_eq_ok h
  obtain ⟨⟨result, rest⟩, hparse, h⟩ := bind_eq_ok h
  obtain ⟨⟨_, _⟩, -, h⟩ := bind_eq_ok h
  cases h
  exact parsePayload_noCpb _ _ _ _ _ hparse

theorem NoCpb.append {seis seis' : List SEI} (h : NoCpb seis) (h' : NoCpb seis') :
    NoCpb (seis ++ seis') := by
  intro sei hmem
  rcases List.mem_append.mp hmem with hmem | hmem
  · exact h sei hmem
  · exact h' sei hmem

/-- The loop over the messages of a unit. -/
theorem readMessages_noCpb (fuel : ℕ) : ∀ {hrd : HRD},
    Returns (readMessages parseOther temporalId fuel hrd) fun r => NoCpb r.1 := by
  induction fuel with
  | zero =>
    intro hrd bs r bs' h
    cases h
  | succ fuel ih =>
    intro hrd bs r bs' h
    obtain ⟨⟨⟨sei, hrd₁⟩, bs₁⟩, hread, h⟩ := bind_eq_ok h
    have hfirst : NoCpb sei.toList := xReadSEImessage_noCpb _ _ _ hread
    obtain ⟨_, -, h⟩ := bind_eq_ok h
    split at h
    · obtain ⟨⟨⟨seis, hrd₂⟩, bs₂⟩, hrest, h⟩ := bind_eq_ok h
      cases h
      exact hfirst.append (ih _ _ _ hrest)
    · cases h
      exact hfirst

theorem parseSEImessage_noCpb :
    Returns (parseSEImessage parseOther hrd temporalId) fun r => NoCpb r.1 := by
  intro bs r bs' h
  obtain ⟨_, -, h⟩ := bind_eq_ok h
  obtain ⟨⟨result, bs₁⟩, hread, h⟩ := bind_eq_ok h
  obtain ⟨⟨_, bs₂⟩, -, h⟩ := bind_eq_ok h
  cases h
  exact readMessages_noCpb _ _ _ _ hread

/-- The first unit that was read. -/
theorem readUnits_noCpb {fifo : List UInt8} {units : List (ℕ × List UInt8)} {read : List (List SEI)}
    (h : readUnits parseOther ((temporalId, fifo) :: units) hrd = .ok read) :
    ∃ seis rest, read = seis :: rest ∧ NoCpb seis := by
  obtain ⟨⟨⟨seis, hrd₁⟩, bs⟩, hparse, h⟩ := bind_eq_ok h
  obtain ⟨rest, -, h⟩ := bind_eq_ok h
  cases h
  exact ⟨seis, rest, rfl, parseSEImessage_noCpb _ _ _ hparse⟩

end

/-! ## The writer -/

theorem check_run_eq_ok {c : Prop} [Decidable c] {msg : String} {s : OutputBitstream}
    {r : Unit × OutputBitstream} (h : (liftM (check c msg) : WriteM Unit) s = .ok r) : ¬c := by
  obtain ⟨u, hcheck, -⟩ := bind_eq_ok h
  exact check_eq_ok hcheck

/-- The writer insists on a CPB. -/
theorem xWriteSEIBufferingPeriod_cpbCnt {sei : SEIBufferingPeriod} {s : OutputBitstream}
    {r : Unit × OutputBitstream} (h : xWriteSEIBufferingPeriod sei s = .ok r) : 1 ≤ sei.m_bpCpbCnt := by
  rw [xWriteSEIBufferingPeriod] at h
  iterate 12 obtain ⟨_, -, h⟩ := bind_eq_ok h
  obtain ⟨_, hcheck, -⟩ := bind_eq_ok h
  exact not_lt.mp (check_run_eq_ok hcheck)

theorem writeUnits_cpbCnt {sei : SEIBufferingPeriod} {temporalId : ℕ} {seis : List SEI} {hrd : HRD}
    {units : List SeiUnit} {fifos : List (List UInt8)}
    (h : writeUnits ((temporalId, .bufferingPeriod sei :: seis) :: units) hrd = .ok fifos) :
    1 ≤ sei.m_bpCpbCnt ∧ ∃ fifo rest, fifos = fifo :: rest := by
  obtain ⟨⟨hrd₁, bs⟩, hwrite, h⟩ := bind_eq_ok h
  obtain ⟨rest, -, h⟩ := bind_eq_ok h
  cases h
  refine ⟨?_, bs.fifo, rest, rfl⟩
  obtain ⟨⟨hrd₂, bs₁⟩, hlist, -⟩ := bind_eq_ok hwrite
  obtain ⟨⟨hrd₃, bs₂⟩, hmessage, -⟩ := bind_eq_ok hlist
  obtain ⟨⟨⟨hrd₄, bs_count⟩, bs₃⟩, hcount, -⟩ := bind_eq_ok hmessage
  obtain ⟨⟨hrd₅, bs₄⟩, hpayload, -⟩ := bind_eq_ok hcount
  obtain ⟨⟨hrd₆, bs₅⟩, hbp, -⟩ := bind_eq_ok hpayload
  obtain ⟨⟨_, bs₆⟩, hbp, -⟩ := bind_eq_ok hbp
  exact xWriteSEIBufferingPeriod_cpbCnt hbp

/-- **Timing messages.** No buffering period comes back as it was written, and so no unit
that begins with one, whatever is written under it: the reader never learns the number of
CPBs. -/
theorem timing_neverRoundTrips (parseOther : (payloadType payloadSize : ℕ) → ReadM Unit)
    {bp : SEIBufferingPeriod} {temporalId : ℕ} {seis : List SEI} {units : List SeiUnit}
    {fifos : List (List UInt8)}
    (h : writeUnits ((temporalId, .bufferingPeriod bp :: seis) :: units) .new = .ok fifos) :
    ¬RoundTrips parseOther bp ((temporalId, .bufferingPeriod bp :: seis) :: units) fifos := by
  rintro ⟨read, hread, hsame⟩
  obtain ⟨hcnt, fifo, rest, rfl⟩ := writeUnits_cpbCnt h
  obtain ⟨seis', rest', rfl, hno⟩ := readUnits_noCpb hread
  obtain ⟨hfirst, -⟩ := List.forall₂_cons.mp hsame
  cases hfirst with
  | cons hbp hseis =>
    cases hbp with
    | bufferingPeriod hbp =>
      have hzero := hno _ List.mem_cons_self
      rw [hbp.cpbCnt] at hzero
      omega

/-- One sub-layer with one CPB. -/
def oneCpb : SEIBufferingPeriod :=
  { SEIBufferingPeriod.new with
    m_bpNalCpbParamsPresentFlag := true
    m_initialCpbRemovalDelayLength := 16
    m_cpbRemovalDelayLength := 8
    m_dpbOutputDelayLength := 8
    m_bpCpbCnt := 1
    m_auCpbRemovalDelayDelta := 1
    m_bpMaxSubLayers := 1 }

/-- The unit that `oneCpb` is written into. -/
def oneCpbUnit : List UInt8 := [0, 9, 158, 115, 128, 1, 0, 0, 0, 0, 64, 128]

theorem oneCpb_written : ((writeUnits [(0, [.bufferingPeriod oneCpb])] .new).toOption.any
    fun fifos => fifos == [oneCpbUnit]) = true := by decide +kernel

theorem timing_neverRoundTrips_oneCpb : ¬RoundTrips (fun _ _ => pure ()) oneCpb
    [(0, [.bufferingPeriod oneCpb])] [oneCpbUnit] := by
  obtain ⟨fifos, hfifos, heq⟩ := exists_ok_of_any oneCpb_written
  rw [← beq_iff_eq.mp heq]
  exact timing_neverRoundTrips (fun _ _ => pure ()) hfifos

/-- The reader comes to the end of that unit, with a buffering period without CPBs. -/
theorem oneCpb_read : ((readUnits (fun _ _ => pure ()) [(0, oneCpbUnit)] .new).toOption.any
    fun read => read.all fun seis => seis.all fun sei =>
      match sei with
      | .bufferingPeriod bp => decide (bp.m_bpCpbCnt = 0)
      | _ => true) = true := by decide +kernel

/-- The failing message: it is written, and read back as another one. -/
theorem oneCpb_notRead : ∃ fifos, writeUnits [(0, [.bufferingPeriod oneCpb])] .new = .ok fifos ∧
    ¬RoundTrips (fun _ _ => pure ()) oneCpb [(0, [.bufferingPeriod oneCpb])] fifos := by
  obtain ⟨fifos, hfifos, heq⟩ := exists_ok_of_any oneCpb_written
  rw [beq_iff_eq.mp heq] at hfifos
  refine ⟨_, hfifos, ?_⟩
  rintro ⟨read, hread, hsame⟩
  obtain ⟨read', hread', hall⟩ := exists_ok_of_any oneCpb_read
  cases hread.symm.trans hread'
  cases hsame with
  | cons hunit _ =>
    cases hunit with
    | cons hbp _ =>
      cases hbp with
      | bufferingPeriod hbp =>
        have hfirst := List.all_eq_true.mp (List.all_eq_true.mp hall _ List.mem_cons_self) _
          List.mem_cons_self
        have hzero := of_decide_eq_true hfirst
        rw [hbp.cpbCnt] at hzero
        exact absurd hzero (by decide)

end ECM.Sei.Timing
