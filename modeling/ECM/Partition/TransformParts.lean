import ECM.DecoderLib.CABACReader
import ECM.EncoderLib.CABACWriter
import ECM.Partition.Tiling

/-! # The parts of a transform tree

A transform tree has at most two levels: the coding unit is one transform unit, or
it is cut once, by its size, by a sub-block transform or into sub-partitions. -/

namespace ECM.Partition.TransformParts
open CommonLib CommonLib.PartitionerImpl Lib.Tiling ECM.Partition

/-- What the partitioning and the parsing of a coding unit ensure. -/
structure Ok (cs : CodingStructure) (cu : TransformCU) : Prop where
  maxTb : TbSizeOk cs
  sides : UnitOk CuSide cu.area
  format : cu.area.chroma.length = if cu.area.chromaFormat = .chroma400 then 0 else 2
  chroma : cu.chType = .chroma → cs.isDualITree = true ∧ cu.area.chromaFormat ≠ .chroma400
  isp : cu.hasIsp = true → cu.isIntra = true ∧ cu.chType = .luma ∧
    canUseISP cu.area.Y.width cu.area.Y.height cs.maxTbSize = true
  sbt : ∀ s, cu.sbtInfo = some s → cu.isIntra = false ∧
    s.allowed cu.area.Y.width cu.area.Y.height cs.maxTbSize = true

/-- The part at which the tree of a coding unit begins; it is part `idx` of a split of the coding tree. -/
def root (cu : TransformCU) (idx : ℕ) : TuPart := ⟨cu.area, 0, idx⟩

variable {cs : CodingStructure} {cu : TransformCU}

/-- A part that is not split further. -/
structure Leaf (cs : CodingStructure) (cu : TransformCU) (p : TuPart) : Prop where
  maxTr : p.canSplit cs cu .tuMaxTrSplit = .ok false
  sbt : p.canSplitSbt cs cu = .ok false
  isp : cu.hasIsp = true → p.canSplit cs cu cu.ispType = .ok false
  depth : cu.hasIsp = true ∨ cu.sbtInfo.isSome = true → p.currTrDepth ≠ 0
  format : p.currArea.chromaFormat = cu.area.chromaFormat
  luma : p.currArea.Y.valid = true
  chroma : cu.hasIsp = false → cu.area.chromaFormat ≠ .chroma400 → p.currArea.Cb.valid = true
  noChroma : cu.area.chromaFormat = .chroma400 → p.currArea.chroma = []

/-- The coding unit is cut into `areas`, which are cut no further. -/
structure Cut (cs : CodingStructure) (cu : TransformCU) (idx : ℕ) (areas : List UnitArea) : Prop where
  reader : DecoderLib.CABACReader.canSplit cs cu (root cu idx) = .ok true
  writer : EncoderLib.CABACWriter.checkSplit cs cu (root cu idx) true = .ok ()
  split : (root cu idx).split cs cu = .ok areas
  nonempty : 0 < areas.length
  leaf : ∀ k (hk : k < areas.length), Leaf cs cu ⟨areas[k], 1, k⟩
  tiles : cu.hasIsp = false →
    Tiles (samples (cu.area.blockOf cu.chType)) (areas.map fun a => samples (a.blockOf cu.chType))
  nTus : cu.hasIsp = true → ∀ a ∈ areas, ∀ depth cbf noResidual,
    cu.nTus ⟨cs.getArea a cu.chType, depth, cbf, noResidual⟩ = areas.length

theorem usesIsp_eq (h : Ok cs cu) : cu.usesIsp = cu.hasIsp := by
  unfold TransformCU.usesIsp
  cases hisp : cu.hasIsp with
  | false =>
    have hoff : decide (cu.ispMode ≠ .notIntraSubpartitions) = false := hisp
    rw [hoff, Bool.false_and]
  | true =>
    have hon : decide (cu.ispMode ≠ .notIntraSubpartitions) = true := hisp
    rw [hon, (h.isp hisp).2.1]
    rfl

theorem ispMode_ne (h : cu.hasIsp = true) : cu.ispMode ≠ .notIntraSubpartitions := of_decide_eq_true h

theorem ispMode_eq (h : cu.hasIsp = false) : ¬cu.ispMode ≠ .notIntraSubpartitions := of_decide_eq_false h

/-- Sub-partitions and sub-block transforms exclude each other. -/
theorem sbtInfo_none (h : Ok cs cu) (hisp : cu.hasIsp = true) : cu.sbtInfo = none := by
  cases hs : cu.sbtInfo with
  | none => rfl
  | some s =>
    have hintra := (h.isp hisp).1
    rw [(h.sbt s hs).1] at hintra
    cases hintra

theorem getSbtTuSplit_isSbt (s : SbtInfo) : s.getSbtTuSplit.isSbt = true := by
  obtain ⟨idx, pos1⟩ := s
  cases idx <;> cases pos1 <;> rfl

theorem getSbtTuSplit_ne (s : SbtInfo) : s.getSbtTuSplit ≠ .tuMaxTrSplit := by
  obtain ⟨idx, pos1⟩ := s
  cases idx <;> cases pos1 <;> decide

/-- Without sub-partitions a part can be cut by its size, -/
theorem canSplit_maxTr (h : Ok cs cu) (hisp : cu.hasIsp = false) (p : TuPart) :
    p.canSplit cs cu .tuMaxTrSplit =
      .ok (p.currArea.Y.width > cs.maxTbSize || p.currArea.Y.height > cs.maxTbSize) := by
  simp [TuPart.canSplit, usesIsp_eq h, hisp]

/-- and at depth 0 by a sub-block transform. -/
theorem canSplit_sbt (h : Ok cs cu) (hisp : cu.hasIsp = false) (p : TuPart) (s : SbtInfo) :
    p.canSplit cs cu s.getSbtTuSplit = .ok (p.currTrDepth = 0) := by
  simp [TuPart.canSplit, usesIsp_eq h, hisp, getSbtTuSplit_isSbt, getSbtTuSplit_ne]

theorem block_blockOf {a : UnitArea} {ch : ChannelType} (hlen : ch = .chroma → a.chroma ≠ []) :
    ∃ c < a.blocks.length, ∀ q : UnitArea, q.blocks.length = a.blocks.length → q.blockOf ch = block q c := by
  cases ch with
  | luma => exact ⟨0, Nat.zero_lt_succ _, fun q _ => rfl⟩
  | chroma =>
    have hpos := List.length_pos_iff.mpr (hlen rfl)
    refine ⟨1, Nat.succ_lt_succ hpos, fun q hq => ?_⟩
    cases hqc : q.chroma with
    | nil =>
      simp only [UnitArea.blocks, hqc, List.length_cons, List.length_nil] at hq
      omega
    | cons c cs => simp [UnitArea.blockOf, UnitArea.Cb, block, UnitArea.blocks, hqc]

/-- A tiling in every component is one of the blocks of the channel. -/
theorem tiles_blockOf (h : Ok cs cu) {areas : List UnitArea} (ht : UnitTiles cu.area areas)
    (hlen : ∀ q ∈ areas, q.blocks.length = cu.area.blocks.length) :
    Tiles (samples (cu.area.blockOf cu.chType)) (areas.map fun a => samples (a.blockOf cu.chType)) := by
  have hne : cu.chType = .chroma → cu.area.chroma ≠ [] := by
    intro hc hnil
    have hl := h.format
    rw [if_neg (h.chroma hc).2, hnil] at hl
    cases hl
  obtain ⟨c, hc, hblock⟩ := block_blockOf hne
  rw [hblock _ rfl, List.map_congr_left fun q hq => congrArg samples (hblock q (hlen q hq))]
  exact ht c hc

/-- A part with blocks in every component of the coding unit. -/
theorem leaf_of_sides (h : Ok cs cu) (hisp : cu.hasIsp = false) {p : TuPart}
    (hfit : p.currArea.Y.width ≤ cs.maxTbSize ∧ p.currArea.Y.height ≤ cs.maxTbSize)
    (hdepth : cu.sbtInfo.isSome = true → p.currTrDepth ≠ 0) (hsides : UnitOk TuSide p.currArea)
    (hlen : p.currArea.blocks.length = cu.area.blocks.length)
    (hfmt : p.currArea.chromaFormat = cu.area.chromaFormat) : Leaf cs cu p where
  maxTr := by
    rw [canSplit_maxTr h hisp]
    simp [hfit]
  sbt := by
    unfold TuPart.canSplitSbt
    cases hs : cu.sbtInfo with
    | none => rfl
    | some s =>
      dsimp only
      rw [canSplit_sbt h hisp, decide_eq_false (hdepth (by rw [hs]; rfl))]
  isp := fun hon => by
    rw [hisp] at hon
    cases hon
  depth := by
    rintro (hon | hsome)
    · rw [hisp] at hon
      cases hon
    · exact hdepth hsome
  format := hfmt
  luma := valid_of_sides (hsides _ List.mem_cons_self).1 (hsides _ List.mem_cons_self).2
  chroma := by
    intro _ hne
    have hl := h.format
    rw [if_neg hne] at hl
    have hlen' : p.currArea.chroma.length = cu.area.chroma.length := Nat.succ.inj hlen
    cases hc : p.currArea.chroma with
    | nil =>
      rw [hc, hl] at hlen'
      cases hlen'
    | cons b bs =>
      have hmem : b ∈ p.currArea.blocks := List.mem_cons_of_mem _ (by rw [hc]; exact List.mem_cons_self)
      have hcb : p.currArea.Cb = b := by
        unfold UnitArea.Cb
        rw [hc]
        rfl
      rw [hcb]
      exact valid_of_sides (hsides b hmem).1 (hsides b hmem).2
  noChroma := by
    intro h4
    have hl := h.format
    rw [if_pos h4] at hl
    exact List.length_eq_zero_iff.mp ((Nat.succ.inj hlen).trans hl)

/-! ## Cut by the size -/

/-- A tile is not larger than the maximum transform size. -/
theorem tile_le {y b t : ℕ} (h : CuSide y b) : y / max 1 (y / 2 ^ t) ≤ 2 ^ t := by
  obtain ⟨-, k, hk, -⟩ := h
  have hy : y = 2 ^ (k + 2) := by rw [hk, pow_add]; omega
  rw [hy]
  by_cases hle : k + 2 ≤ t
  · exact (Nat.div_le_self _ _).trans (Nat.pow_le_pow_right (by decide) hle)
  · rw [Nat.pow_div (by omega) (by decide), max_eq_right (Nat.one_le_two_pow),
      Nat.pow_div (by omega) (by decide)]
    exact Nat.pow_le_pow_right (by decide) (by omega)

theorem getMaxTuTiling_ok (h : Ok cs cu) : ∃ areas, getMaxTuTiling cu.area cs = .ok areas := by
  obtain ⟨u, hu⟩ := h.maxTb
  obtain ⟨hw, hh⟩ := h.sides.tuSide cu.area.Y List.mem_cons_self
  have h5 : 5 ≤ 5 + u := Nat.le_add_right 5 u
  have hmul := Nat.mul_le_mul (hw.tiles h5).2.1 (hh.tiles h5).2.1
  unfold getMaxTuTiling
  dsimp only
  rw [hu, check_ok _ (by unfold MAX_CU_TILING_PARTITIONS; omega), ok_bind]
  exact ⟨_, rfl⟩

theorem cut_maxTr (h : Ok cs cu) (hisp : cu.hasIsp = false) (idx : ℕ)
    (hlarge : cu.area.Y.width > cs.maxTbSize ∨ cu.area.Y.height > cs.maxTbSize) :
    ∃ areas, Cut cs cu idx areas := by
  obtain ⟨areas, hareas⟩ := getMaxTuTiling_ok h
  obtain ⟨htiles, hlen, hsides⟩ := maxTuTiling_tile h.maxTb h.sides.tuSide hareas
  have hcan : (root cu idx).canSplit cs cu .tuMaxTrSplit = .ok true := by
    rw [canSplit_maxTr h hisp]
    simpa [root] using hlarge
  have hnone : cu.sbtInfo = none := by
    cases hs : cu.sbtInfo with
    | none => rfl
    | some s =>
      have hfit := (h.sbt s hs).2
      unfold SbtInfo.allowed at hfit
      rw [Bool.and_eq_true, Bool.and_eq_true, decide_eq_true_eq, decide_eq_true_eq] at hfit
      omega
  have hsbt (p : TuPart) : p.canSplitSbt cs cu = .ok false := by
    unfold TuPart.canSplitSbt
    rw [hnone]
  have hmem := getMaxTuTiling_eq hareas
  refine ⟨areas, ?_, ?_, ?_, ?_, fun k hk => ?_, fun _ => tiles_blockOf h htiles hlen, fun hon => ?_⟩
  · unfold DecoderLib.CABACReader.canSplit
    rw [hcan, hsbt, ok_bind, ok_bind, hisp]
    rfl
  · unfold EncoderLib.CABACWriter.checkSplit
    rw [hcan, ok_bind]
    rfl
  · unfold TuPart.split
    rw [hcan, ok_bind, if_pos rfl, TuPart.splitCurrArea, if_pos rfl]
    exact hareas
  · rw [hmem, List.length_map, List.length_range]
    exact Nat.mul_pos (by omega) (by omega)
  · have hk' : areas[k] ∈ areas := List.getElem_mem hk
    have hform : ∀ q ∈ areas, q.chromaFormat = cu.area.chromaFormat ∧ q.Y.width ≤ cs.maxTbSize ∧
        q.Y.height ≤ cs.maxTbSize := by
      obtain ⟨u, hu⟩ := h.maxTb
      obtain ⟨hcw, hch⟩ := h.sides cu.area.Y List.mem_cons_self
      intro q hq
      rw [hmem] at hq
      obtain ⟨i, -, hi⟩ := List.mem_map.mp hq
      rw [← hi, UnitArea.mapBlocks_Y, maxTuBlock, if_pos (valid_of_sides hcw.tuSide hch.tuSide), hu]
      exact ⟨rfl, tile_le hcw, tile_le hch⟩
    refine leaf_of_sides h hisp (hform _ hk').2 (fun hsome => ?_) (hsides _ hk') (hlen _ hk') (hform _ hk').1
    rw [hnone] at hsome
    cases hsome
  · rw [hisp] at hon
    cases hon

/-! ## Cut by a sub-block transform -/

theorem quarterOk_sbt (h : Ok cs cu) {s : SbtInfo} (hs : cu.sbtInfo = some s) :
    QuarterOk s.getSbtTuSplit cu.area := by
  intro hquad b hb
  obtain ⟨hw, hh⟩ := h.sides b hb
  obtain ⟨-, kw, hkw, hbw⟩ := hw
  obtain ⟨-, kh, hkh, hbh⟩ := hh
  have hfit := (h.sbt s hs).2
  have hfour {k y b' : ℕ} (hy : y = 4 * 2 ^ k) (hb' : b' = y ∨ 2 * b' = y) (h16 : 16 ≤ y) : 4 ∣ b' := by
    obtain ⟨k, rfl⟩ : ∃ k', k = k' + 2 := ⟨k - 2, by
      rcases k with - | - | k
      · omega
      · omega
      · rfl⟩
    rw [pow_add] at hy
    omega
  unfold SbtInfo.allowed at hfit
  obtain ⟨idx, pos1⟩ := s
  rw [Bool.and_eq_true] at hfit
  cases idx <;> cases pos1 <;> first
    | exact absurd hquad (by decide)
    | exact hfour hkw hbw (of_decide_eq_true hfit.2)
    | exact hfour hkh hbh (of_decide_eq_true hfit.2)

theorem cut_sbt (h : Ok cs cu) (idx : ℕ) {s : SbtInfo} (hs : cu.sbtInfo = some s) :
    ∃ areas, Cut cs cu idx areas := by
  have hisp : cu.hasIsp = false := by
    cases hon : cu.hasIsp with
    | false => rfl
    | true =>
      rw [sbtInfo_none h hon] at hs
      cases hs
  have hfit := (h.sbt s hs).2
  unfold SbtInfo.allowed at hfit
  rw [Bool.and_eq_true, Bool.and_eq_true, decide_eq_true_eq, decide_eq_true_eq] at hfit
  obtain ⟨htiles, hlen, hsides⟩ := sbtTuTiling_tile (getSbtTuSplit_isSbt s) h.sides (quarterOk_sbt h hs)
  have hmax : (root cu idx).canSplit cs cu .tuMaxTrSplit = .ok false := by
    rw [canSplit_maxTr h hisp]
    simpa [root] using hfit.1
  have hcan : (root cu idx).canSplit cs cu s.getSbtTuSplit = .ok true := by
    rw [canSplit_sbt h hisp]
    rfl
  have hsbt : (root cu idx).canSplitSbt cs cu = .ok true := by
    unfold TuPart.canSplitSbt
    rw [hs]
    exact hcan
  refine ⟨getSbtTuTiling cu.area s.getSbtTuSplit, ?_, ?_, ?_, Nat.zero_lt_succ 1, fun k hk => ?_,
    fun _ => tiles_blockOf h htiles hlen, fun hon => ?_⟩
  · unfold DecoderLib.CABACReader.canSplit
    rw [hmax, hsbt, ok_bind, ok_bind, hisp]
    rfl
  · unfold EncoderLib.CABACWriter.checkSplit
    rw [hmax, ok_bind, if_neg Bool.false_ne_true, hsbt, ok_bind]
    rfl
  · unfold TuPart.split
    rw [hmax, ok_bind, if_neg Bool.false_ne_true, if_neg (ispMode_eq hisp), hs]
    dsimp only
    rw [hcan, ok_bind, if_pos rfl, TuPart.splitCurrArea, if_neg (getSbtTuSplit_ne s), usesIsp_eq h, hisp,
      if_neg Bool.false_ne_true, if_pos (getSbtTuSplit_isSbt s)]
    rfl
  · have hk' := List.getElem_mem hk
    have hform : ∀ q ∈ getSbtTuTiling cu.area s.getSbtTuSplit, q.chromaFormat = cu.area.chromaFormat ∧
        q.Y.width ≤ cu.area.Y.width ∧ q.Y.height ≤ cu.area.Y.height := by
      obtain ⟨hcw, hch⟩ := h.sides cu.area.Y List.mem_cons_self
      intro q hq
      obtain ⟨i, hi, hqi⟩ := List.mem_map.mp hq
      have hpart {side f : ℕ} (hf : f ≤ 4) : (side * f) >>> 2 ≤ side := by
        rw [Nat.shiftRight_eq_div_pow]
        exact Nat.div_le_of_le_mul (by rw [Nat.mul_comm]; exact Nat.mul_le_mul_right _ hf)
      have hfactor : sbtFactor s.getSbtTuSplit i ≤ 4 := by
        rcases sbtFactor_cases (getSbtTuSplit_isSbt s) (List.mem_range.mp hi) with ⟨-, hf⟩ | ⟨-, hf | hf⟩ <;>
          rw [hf] <;> decide
      rw [← hqi, UnitArea.mapBlocks_Y, sbtBlock, if_pos (valid_of_sides hcw.tuSide hch.tuSide)]
      refine ⟨rfl, hpart ?_, hpart ?_⟩
      · split
        · exact hfactor
        · exact Nat.le_refl 4
      · split
        · exact Nat.le_refl 4
        · exact hfactor
    obtain ⟨hfmt, hwidth, hheight⟩ := hform _ hk'
    exact leaf_of_sides h hisp ⟨hwidth.trans hfit.1.1, hheight.trans hfit.1.2⟩ (fun _ => Nat.one_ne_zero)
      (hsides _ hk') (hlen _ hk') hfmt
  · rw [hisp] at hon
    cases hon

/-! ## Cut into sub-partitions -/

/-- The side of a sub-partition: a power of two, and at least two of them make the side of the unit. -/
theorem getISPSplitDim_eq {k m : ℕ} (hkm : 1 ≤ k + m) {width height : ℕ} {split : PartSplit}
    (hsplit : (if split = .tu1dHorzSplit then height else width) = 4 * 2 ^ k)
    (hother : (if split = .tu1dHorzSplit then width else height) = 4 * 2 ^ m) :
    getISPSplitDim width height split = .ok (2 ^ max k (2 - m)) := by
  have hquarter : (4 * 2 ^ k) >>> 2 = 2 ^ k := by
    rw [Nat.shiftRight_eq_div_pow]
    omega
  have hlog : floorLog2 (4 * 2 ^ m) = m + 2 := by
    rw [show 4 * 2 ^ m = 2 ^ (m + 2) by rw [pow_add]; omega]
    exact Nat.log2_two_pow
  have hfactor : (if 4 * 2 ^ m < 16 then 16 >>> (m + 2) else 1) = 2 ^ (2 - m) := by
    rcases m with - | - | m
    · rfl
    · rfl
    · rw [if_neg (by rw [pow_add]; have := Nat.two_pow_pos m; omega), show 2 - (m + 1 + 1) = 0 by omega, pow_zero]
  have hsize : (if 2 ^ k < 2 ^ (2 - m) then 2 ^ (2 - m) else 2 ^ k) = 2 ^ max k (2 - m) := by
    by_cases hlt : k < 2 - m
    · rw [if_pos (Nat.pow_lt_pow_right (by decide) hlt), max_eq_right hlt.le]
    · rw [if_neg (by simpa using Nat.pow_le_pow_right (by decide) (not_lt.mp hlt)), max_eq_left (not_lt.mp hlt)]
  have h16 : (1 <<< (floorLog2 MIN_TB_SIZEY <<< 1) : ℕ) = 16 := by decide
  have hlog16 : floorLog2 16 = 4 := by decide
  unfold getISPSplitDim
  simp only [decide_eq_true_eq, hsplit, hother, h16, hlog, hlog16, hquarter, hfactor, hsize]
  rw [check_ok]
  · rfl
  · rw [show floorLog2 (2 ^ max k (2 - m)) = max k (2 - m) from Nat.log2_two_pow]
    omega

theorem ispType_eq (h : Ok cs cu) (hisp : cu.hasIsp = true) :
    cu.ispType = if cu.ispMode = .horIntraSubpartitions then .tu1dHorzSplit else .tu1dVertSplit := by
  unfold TransformCU.ispType
  rw [usesIsp_eq h, hisp, if_pos rfl]

/-- The side that is cut. -/
def cutSide (cu : TransformCU) (a : UnitArea) : ℕ :=
  if cu.ispMode = .horIntraSubpartitions then a.Y.height else a.Y.width

theorem canSplit_isp (h : Ok cs cu) (hisp : cu.hasIsp = true) (p : TuPart) :
    p.canSplit cs cu .tuMaxTrSplit = .ok false ∧ p.canSplitSbt cs cu = .ok false ∧
      p.canSplit cs cu cu.ispType = .ok (cutSide cu p.currArea = cutSide cu cu.area) := by
  unfold TuPart.canSplitSbt TuPart.canSplit cutSide
  rw [sbtInfo_none h hisp, ispType_eq h hisp, usesIsp_eq h, hisp]
  refine ⟨rfl, rfl, ?_⟩
  by_cases hhor : cu.ispMode = .horIntraSubpartitions
  · simp [hhor]
  · simp [hhor]

/-- The sub-partitions of a unit: at least two, each shorter than the unit. -/
theorem ispParts (h : Ok cs cu) (hisp : cu.hasIsp = true) : ∃ areas,
    getTUIntraSubPartitions cu.area cs cu.ispType = .ok areas ∧ 2 ≤ areas.length ∧
      ∀ a ∈ areas, cutSide cu a < cutSide cu cu.area ∧
        cutSide cu cu.area >>> floorLog2 (cutSide cu a) = areas.length ∧
        a.chromaFormat = cu.area.chromaFormat ∧ a.Y.valid = true ∧ (cu.area.chroma = [] → a.chroma = []) := by
  obtain ⟨⟨-, kw, hkw, -⟩, -, kh, hkh, -⟩ := h.sides cu.area.Y List.mem_cons_self
  have hlog (k : ℕ) : floorLog2 (4 * 2 ^ k) = k + 2 := by
    rw [show 4 * 2 ^ k = 2 ^ (k + 2) by rw [pow_add]; omega]
    exact Nat.log2_two_pow
  have hkm : 1 ≤ kw + kh := by
    have huse := (h.isp hisp).2.2
    unfold canUseISP at huse
    dsimp only at huse
    rw [hkw, hkh, hlog, hlog, show floorLog2 MIN_TB_SIZEY <<< 1 = 4 by decide] at huse
    simp only [Bool.not_eq_true', Bool.or_eq_false_iff, decide_eq_false_iff_not] at huse
    omega
  have htype := ispType_eq h hisp
  obtain ⟨k, m, hside, hother, hkm⟩ : ∃ k m, cutSide cu cu.area = 4 * 2 ^ k ∧
      (if cu.ispType = .tu1dHorzSplit then cu.area.Y.width else cu.area.Y.height) = 4 * 2 ^ m ∧ 1 ≤ k + m := by
    rw [htype]
    unfold cutSide
    by_cases hhor : cu.ispMode = .horIntraSubpartitions
    · simp only [hhor, if_true]
      exact ⟨kh, kw, hkh, hkw, by omega⟩
    · simp only [hhor, if_false]
      exact ⟨kw, kh, hkw, hkh, hkm⟩
  have hcut : (if cu.ispType = .tu1dHorzSplit then cu.area.Y.height else cu.area.Y.width) = cutSide cu cu.area := by
    rw [htype]
    unfold cutSide
    by_cases hhor : cu.ispMode = .horIntraSubpartitions <;> simp [hhor]
  generalize hs : max k (2 - m) = s at *
  have hdim : getISPSplitDim cu.area.Y.width cu.area.Y.height cu.ispType = .ok (2 ^ s) := by
    rw [getISPSplitDim_eq hkm (hcut.trans hside) hother, hs]
  have hpos : 0 < 2 ^ s := Nat.two_pow_pos s
  have hslt : s ≤ k + 1 := by omega
  have hlt : 2 ^ s < cutSide cu cu.area := by
    rw [hside, show 4 * 2 ^ k = 2 ^ (k + 2) by rw [pow_add]; omega]
    exact Nat.pow_lt_pow_right (by decide) (by omega)
  have hn : cutSide cu cu.area >>> floorLog2 (2 ^ s) = 2 ^ (k + 2 - s) := by
    rw [hside, show floorLog2 (2 ^ s) = s from Nat.log2_two_pow, Nat.shiftRight_eq_div_pow,
      show 4 * 2 ^ k = 2 ^ (k + 2) by rw [pow_add]; omega, Nat.pow_div (by omega) (by decide)]
  unfold getTUIntraSubPartitions
  rw [hdim, ok_bind]
  dsimp only
  rw [hcut, hn, check_ok _ (by omega), ok_bind]
  refine ⟨_, rfl, ?_, fun a ha => ?_⟩
  · rw [List.length_map, List.length_range]
    exact Nat.le_self_pow (by omega) 2
  · obtain ⟨i, -, rfl⟩ := List.mem_map.mp ha
    rw [List.length_map, List.length_range]
    have hpart : cutSide cu { cu.area with
        Y := ispBlock cu.ispType (2 ^ s) i cu.area.Y } = 2 ^ s := by
      rw [htype]
      unfold cutSide ispBlock
      by_cases hhor : cu.ispMode = .horIntraSubpartitions <;> simp [hhor]
    refine ⟨lt_of_eq_of_lt (show cutSide cu _ = 2 ^ s from hpart) hlt, ?_, rfl, ?_, fun hnil => ?_⟩
    · exact (congrArg (fun d => cutSide cu cu.area >>> floorLog2 d) hpart).trans hn
    · dsimp only
      unfold ispBlock CompArea.valid
      split <;> simp [hkw, hkh]
    · simp [hnil]

theorem cut_isp (h : Ok cs cu) (hisp : cu.hasIsp = true) (idx : ℕ) : ∃ areas, Cut cs cu idx areas := by
  obtain ⟨areas, hareas, htwo, hfacts⟩ := ispParts h hisp
  have hluma := (h.isp hisp).2.1
  obtain ⟨hmax, hsbt, hcan⟩ := canSplit_isp h hisp (root cu idx)
  refine ⟨areas, ?_, ?_, ?_, by omega, fun k hk => ?_, fun hoff => ?_, fun _ a ha depth cbf noResidual => ?_⟩
  · unfold DecoderLib.CABACReader.canSplit
    rw [hmax, hsbt, ok_bind, ok_bind, hisp]
    exact hcan.trans (congrArg _ (decide_eq_true rfl))
  · unfold EncoderLib.CABACWriter.checkSplit
    rw [hmax, ok_bind, if_neg Bool.false_ne_true, hsbt, ok_bind, hisp]
    rfl
  · have hne : cu.ispType ≠ .tuMaxTrSplit := by
      rw [ispType_eq h hisp]
      split <;> exact PartSplit.noConfusion
    have h1d : cu.ispType = .tu1dHorzSplit ∨ cu.ispType = .tu1dVertSplit := by
      rw [ispType_eq h hisp]
      split
      · exact Or.inl rfl
      · exact Or.inr rfl
    unfold TuPart.split
    rw [hmax, ok_bind, if_neg Bool.false_ne_true, if_pos (ispMode_ne hisp), TuPart.splitCurrArea, if_neg hne,
      usesIsp_eq h, hisp, if_pos rfl, if_pos h1d]
    exact hareas
  · obtain ⟨hlt, -, hfmt, hvalid, hnil⟩ := hfacts _ (List.getElem_mem hk)
    obtain ⟨hmax, hsbt, hcan⟩ := canSplit_isp h hisp ⟨areas[k], 1, k⟩
    refine ⟨hmax, hsbt, fun _ => ?_, fun _ => Nat.one_ne_zero, hfmt, hvalid, fun hoff => ?_, fun h4 => ?_⟩
    · rw [hcan, decide_eq_false (Nat.ne_of_lt hlt)]
    · rw [hisp] at hoff
      cases hoff
    · have hl := h.format
      rw [if_pos h4] at hl
      exact hnil (List.length_eq_zero_iff.mp hl)
  · rw [hisp] at hoff
    cases hoff
  · obtain ⟨-, hn, -⟩ := hfacts a ha
    rw [← hn]
    have hY : (cs.getArea a cu.chType).Y = a.Y := by
      rw [hluma]
      unfold CodingStructure.getArea
      split <;> rfl
    unfold TransformCU.nTus cutSide
    dsimp only
    rw [hY]
    by_cases hhor : cu.ispMode = .horIntraSubpartitions <;> simp only [hhor, if_true, if_false]

/-- A coding unit is one transform unit, or it is cut once. -/
theorem leaf_or_cut (h : Ok cs cu) (idx : ℕ) : Leaf cs cu (root cu idx) ∨ ∃ areas, Cut cs cu idx areas := by
  cases hisp : cu.hasIsp with
  | true => exact Or.inr (cut_isp h hisp idx)
  | false =>
    cases hs : cu.sbtInfo with
    | some s => exact Or.inr (cut_sbt h idx hs)
    | none =>
      by_cases hlarge : cu.area.Y.width > cs.maxTbSize ∨ cu.area.Y.height > cs.maxTbSize
      · exact Or.inr (cut_maxTr h hisp idx hlarge)
      · refine Or.inl (leaf_of_sides h hisp ?_ (fun hsome => ?_) h.sides.tuSide rfl rfl)
        · change cu.area.Y.width ≤ _ ∧ cu.area.Y.height ≤ _
          omega
        · rw [hs] at hsome
          cases hsome

end ECM.Partition.TransformParts
