import ECM.DecoderLib.ResidualReader
import Mathlib.Algebra.BigOperators.Group.Finset.Basic
import Mathlib.Algebra.Order.BigOperators.Group.Finset
import Mathlib.Order.Interval.Finset.Nat

/-! # Hidden signs

The sign of the last significant coefficient of a sub-block is not sent where it can be
hidden: it is negative when the levels of the sub-block have an odd sum. The reader adds
up the levels while it sets the signs that are sent. -/

namespace ECM.Residual.HiddenSign
open CommonLib CommonLib.Bins CommonLib.Rom DecoderLib DecoderLib.CABACReader Lib.Codec
open ECM.DepQuant

variable {cctx : CoeffCodingContext} {s s' : Subblock} {stateTransTable scanPos : ℕ}

/-! ## Positions of a sub-block -/

/-- The scan positions of the sub-block. -/
def positions (cctx : CoeffCodingContext) : Finset ℕ := Finset.Icc cctx.minSubPos cctx.maxSubPos

theorem mem_positions {p : ℕ} : p ∈ positions cctx ↔
    ∃ i < 2 ^ cctx.log2CGSize, p = cctx.subSetId * 2 ^ cctx.log2CGSize + i := by
  have hpos := Nat.two_pow_pos cctx.log2CGSize
  rw [positions, Finset.mem_Icc, CoeffCodingContext.maxSubPos, CoeffCodingContext.minSubPos, Nat.shiftLeft_eq,
    Nat.one_shiftLeft]
  constructor
  · rintro ⟨hlow, hhigh⟩
    exact ⟨p - cctx.subSetId * 2 ^ cctx.log2CGSize, by omega, by omega⟩
  · rintro ⟨i, hi, rfl⟩
    omega

/-- Different positions of a sub-block are different positions of the block. -/
theorem blockPos_inj {p q : ℕ} (hp : p ∈ positions cctx) (hq : q ∈ positions cctx)
    (h : cctx.blockPos p = cctx.blockPos q) : p = q := by
  have hraster : ∀ i < 2 ^ cctx.log2CGSize,
      cctx.blockPos (cctx.subSetId * 2 ^ cctx.log2CGSize + i) = cctx.block.rasterPos cctx.subSetId i := by
    intro i hi
    change cctx.block.rasterPos ((cctx.subSetId * 2 ^ cctx.log2CGSize + i) >>> cctx.log2CGSize)
      ((cctx.subSetId * 2 ^ cctx.log2CGSize + i) % 2 ^ cctx.log2CGSize) = _
    rw [Nat.shiftRight_eq_div_pow, Nat.mul_comm, Nat.mul_add_div (Nat.two_pow_pos _), Nat.div_eq_of_lt hi, Nat.add_zero,
      Nat.mul_add_mod, Nat.mod_eq_of_lt hi]
  obtain ⟨i, hi, rfl⟩ := mem_positions.mp hp
  obtain ⟨j, hj, rfl⟩ := mem_positions.mp hq
  rw [hraster i hi, hraster j hj] at h
  rw [cctx.block.rasterPos_inj hi hj h]

/-! ## Parsed levels -/

/-- The fields that no pass changes. -/
structure SameBlock (cctx cctx' : CoeffCodingContext) : Prop where
  block : cctx'.block = cctx.block
  subSetId : cctx'.subSetId = cctx.subSetId
  signHiding : cctx'.signHiding = cctx.signHiding
  bSignPredQualified : cctx'.bSignPredQualified = cctx.bSignPredQualified

theorem SameBlock.minSubPos {cctx' : CoeffCodingContext} (h : SameBlock cctx cctx') : cctx'.minSubPos = cctx.minSubPos := by
  rw [CoeffCodingContext.minSubPos, CoeffCodingContext.minSubPos, CoeffCodingContext.log2CGSize,
    CoeffCodingContext.log2CGSize, h.block, h.subSetId]

theorem SameBlock.blockPos {cctx' : CoeffCodingContext} (h : SameBlock cctx cctx') (p : ℕ) :
    cctx'.blockPos p = cctx.blockPos p := by
  rw [CoeffCodingContext.blockPos, CoeffCodingContext.blockPos, h.block]

/-- The levels of the positions from `left` on are parsed: `ps` are the significant ones,
from the last one down. -/
structure Parsed (cctx : CoeffCodingContext) (left : ℕ) (s : Subblock) (ps : List ℕ) : Prop where
  same : SameBlock cctx s.cctx
  sigBlkPos : s.sigBlkPos = ps.map cctx.blockPos
  sorted : ps.Pairwise (· > ·)
  range : ∀ p ∈ ps, p ∈ positions cctx ∧ cctx.minSubPos + left ≤ p
  pos : ∀ p ∈ ps, 0 < s.coeff (cctx.blockPos p)
  zero : ∀ p ∈ positions cctx, p ∉ ps → s.coeff (cctx.blockPos p) = 0
  first : ∀ p, ps.getLast? = some p → s.firstNZPos = p
  none : ps = [] → s.lastNZPos < s.firstNZPos

variable {left : ℕ} {ps : List ℕ}

namespace Parsed

/-- Contexts and counters do not matter. -/
theorem frame (h : Parsed cctx left s ps) (hsame : SameBlock s.cctx s'.cctx) (hcoeff : s'.coeff = s.coeff)
    (hsig : s'.sigBlkPos = s.sigBlkPos) (hfirst : s'.firstNZPos = s.firstNZPos)
    (hlast : s'.lastNZPos = s.lastNZPos) : Parsed cctx left s' ps where
  same := ⟨hsame.block.trans h.same.block, hsame.subSetId.trans h.same.subSetId,
    hsame.signHiding.trans h.same.signHiding, hsame.bSignPredQualified.trans h.same.bSignPredQualified⟩
  sigBlkPos := hsig.trans h.sigBlkPos
  sorted := h.sorted
  range := h.range
  pos := by rw [hcoeff]; exact h.pos
  zero := by rw [hcoeff]; exact h.zero
  first := by rw [hfirst]; exact h.first
  none := by rw [hfirst, hlast]; exact h.none

theorem countBins (h : Parsed cctx left s ps) (n : ℤ) : Parsed cctx left (s.countBins n) ps :=
  h.frame ⟨rfl, rfl, rfl, rfl⟩ rfl rfl rfl rfl

theorem nextState (h : Parsed cctx left s ps) (level : ℤ) :
    Parsed cctx left (CABACReader.nextState s stateTransTable level) ps :=
  h.frame ⟨rfl, rfl, rfl, rfl⟩ rfl rfl rfl rfl

theorem template (h : Parsed cctx left s ps) :
    Parsed cctx left { s with cctx := (s.cctx.sigCtxIdAbs scanPos s.coeff s.state).2 } ps :=
  h.frame ⟨rfl, rfl, rfl, rfl⟩ rfl rfl rfl rfl

/-- A position that is not significant. -/
theorem skip (h : Parsed cctx (left + 1) s ps) : Parsed cctx left s ps :=
  { h with range := fun p hp => ⟨(h.range p hp).1, Nat.le_of_succ_le (h.range p hp).2⟩ }

theorem coeff_set (h : Parsed cctx left s ps) {p q : ℕ} (hp : p ∈ positions cctx) (hq : q ∈ positions cctx) (level : ℤ) :
    (s.setCoeff p level).coeff (cctx.blockPos q) = if q = p then level else s.coeff (cctx.blockPos q) := by
  change (if cctx.blockPos q = s.cctx.blockPos p then level else s.coeff (cctx.blockPos q)) = _
  rw [h.same.blockPos]
  by_cases heq : q = p
  · rw [heq, if_pos rfl, if_pos rfl]
  · rw [if_neg heq, if_neg fun hpos => heq (blockPos_inj hq hp hpos)]

/-- The next position is significant. -/
theorem add (h : Parsed cctx (left + 1) s ps) (hp : cctx.minSubPos + left ∈ positions cctx) {level : ℤ}
    (hlevel : 0 < level) :
    Parsed cctx left ((s.addSig (cctx.minSubPos + left)).setCoeff (cctx.minSubPos + left) level)
      (ps ++ [cctx.minSubPos + left]) := by
  have hbelow : ∀ q ∈ ps, cctx.minSubPos + left < q := fun q hq => Nat.lt_of_succ_le (h.range q hq).2
  have hcoeff : ∀ q ∈ positions cctx,
      ((s.addSig (cctx.minSubPos + left)).setCoeff (cctx.minSubPos + left) level).coeff (cctx.blockPos q) =
        if q = cctx.minSubPos + left then level else s.coeff (cctx.blockPos q) :=
    fun q hq => h.coeff_set hp hq level
  refine ⟨h.same, ?_, ?_, ?_, ?_, ?_, ?_, ?_⟩
  · change s.sigBlkPos ++ [s.cctx.blockPos _] = _
    rw [h.sigBlkPos, h.same.blockPos, List.map_append]
    rfl
  · rw [List.pairwise_append]
    refine ⟨h.sorted, List.pairwise_singleton _ _, fun q hq r hr => ?_⟩
    rw [List.mem_singleton.mp hr]
    exact hbelow q hq
  · intro q hq
    rcases List.mem_append.mp hq with hq | hq
    · exact ⟨(h.range q hq).1, Nat.le_of_lt (hbelow q hq)⟩
    · rw [List.mem_singleton.mp hq]
      exact ⟨hp, Nat.le_refl _⟩
  · intro q hq
    rcases List.mem_append.mp hq with hq | hq
    · rw [hcoeff q (h.range q hq).1, if_neg (Nat.ne_of_gt (hbelow q hq))]
      exact h.pos q hq
    · rw [List.mem_singleton.mp hq, hcoeff _ hp, if_pos rfl]
      exact hlevel
  · intro q hq hnot
    obtain ⟨hnot, hne⟩ := not_or.mp (mt List.mem_append.mpr hnot)
    rw [hcoeff q hq, if_neg fun heq => hne (List.mem_singleton.mpr heq)]
    exact h.zero q hq hnot
  · intro q hq
    rw [List.getLast?_concat] at hq
    rw [← Option.some.inj hq]
    rfl
  · intro hnil
    exact absurd hnil (List.append_ne_nil_of_right_ne_nil _ (List.cons_ne_nil _ _))

/-- A position that is significant gets another level. -/
theorem raise (h : Parsed cctx left s ps) {p : ℕ} (hp : p ∈ ps) {level : ℤ} (hlevel : 0 < level) :
    Parsed cctx left (s.setCoeff p level) ps where
  same := h.same
  sigBlkPos := h.sigBlkPos
  sorted := h.sorted
  range := h.range
  pos := fun q hq => by
    rw [h.coeff_set (h.range p hp).1 (h.range q hq).1]
    split
    · exact hlevel
    · exact h.pos q hq
  zero := fun q hq hnot => by
    rw [h.coeff_set (h.range p hp).1 hq, if_neg fun heq => hnot (by rw [heq]; exact hp)]
    exact h.zero q hq hnot
  first := h.first
  none := h.none

end Parsed

/-! ## Passes -/

theorem sigFlag_returns (h : Parsed cctx left s ps) (inferSigPos : ℤ) :
    Get.Returns (sigFlag s inferSigPos scanPos) fun p => Parsed cctx left p.2 ps := by
  refine Get.returns_ite (fun _ => Get.returns_pure ?_) fun _ => Get.returns_then fun _ => Get.returns_pure ?_
  · dsimp only
    split
    · exact h.template
    · exact h
  · exact h.template.countBins 1

theorem levelFlags_returns (h : Parsed cctx (left + 1) s ps) (hp : cctx.minSubPos + left ∈ positions cctx) :
    Get.Returns (levelFlags s (cctx.minSubPos + left)) fun s' =>
      Parsed cctx left s' (ps ++ [cctx.minSubPos + left]) := by
  have hnot : cctx.minSubPos + left ∉ ps := fun hmem => absurd (h.range _ hmem).2 (by omega)
  have hzero : (s.addSig (cctx.minSubPos + left)).coeff
      ((s.addSig (cctx.minSubPos + left)).cctx.blockPos (cctx.minSubPos + left)) = 0 := by
    change s.coeff (s.cctx.blockPos _) = 0
    rw [h.same.blockPos]
    exact h.zero _ hp hnot
  refine Get.returns_then fun _ => Get.returns_ite (fun _ => ?_) fun _ => Get.returns_pure ?_
  · refine Get.returns_then fun parFlag => Get.returns_then fun gt2Flag => Get.returns_pure ?_
    rw [hzero]
    exact (h.add hp (by omega)).countBins 3
  · rw [hzero]
    exact (h.add hp (by decide)).countBins 1

theorem contextPass_returns (inferSigPos : ℤ) : ∀ {left : ℕ} {s : Subblock} {ps : List ℕ}, Parsed cctx left s ps →
    left ≤ 2 ^ cctx.log2CGSize →
    Get.Returns (contextPass stateTransTable inferSigPos left s) fun p =>
      p.1 ≤ left ∧ ∃ ps, Parsed cctx p.1 p.2 ps
  | 0, s, ps, h, _ => Get.returns_pure ⟨Nat.le_refl 0, ps, h⟩
  | left + 1, s, ps, h, hleft => by
    have hp : cctx.minSubPos + left ∈ positions cctx := by
      rw [mem_positions, CoeffCodingContext.minSubPos, Nat.shiftLeft_eq]
      exact ⟨left, hleft, rfl⟩
    refine Get.returns_ite (fun _ => ?_) fun _ => Get.returns_pure ⟨Nat.le_refl _, ps, h⟩
    rw [h.same.minSubPos]
    refine Get.returns_bind (sigFlag_returns h inferSigPos) fun p hsig => ?_
    have hlevel : Get.Returns (if p.1 then levelFlags p.2 (cctx.minSubPos + left) else pure p.2)
        fun s' => ∃ ps, Parsed cctx left s' ps :=
      Get.returns_ite (fun _ => (levelFlags_returns hsig hp).mono fun _ h' => ⟨_, h'⟩)
        fun _ => Get.returns_pure ⟨ps, hsig.skip⟩
    refine Get.returns_bind hlevel fun s' ⟨ps', h'⟩ => ?_
    refine (contextPass_returns inferSigPos (h'.nextState _) (Nat.le_of_succ_le hleft)).mono fun p hp => ?_
    exact ⟨Nat.le_succ_of_le hp.1, hp.2⟩

theorem remainder_returns (h : Parsed cctx left s ps) (hp : scanPos ∈ positions cctx) :
    Get.Returns (remainder s scanPos) fun s' => Parsed cctx left s' ps := by
  refine Get.returns_ite (fun hlarge => ?_) fun _ => Get.returns_pure h
  refine Get.returns_then fun rem => Get.returns_pure ?_
  rw [h.same.blockPos] at hlarge ⊢
  have hmem : scanPos ∈ ps := by
    by_contra hnot
    rw [h.zero _ hp hnot] at hlarge
    exact absurd hlarge (by decide)
  exact h.raise hmem (by omega)

theorem remainderPass_returns {skip : ℕ} : ∀ {n : ℕ} {s : Subblock}, Parsed cctx left s ps →
    skip + n ≤ 2 ^ cctx.log2CGSize → Get.Returns (remainderPass skip n s) fun s' => Parsed cctx left s' ps
  | 0, _, h, _ => Get.returns_pure h
  | n + 1, s, h, hn => by
    have hp : cctx.minSubPos + (skip + n) ∈ positions cctx := by
      rw [mem_positions, CoeffCodingContext.minSubPos, Nat.shiftLeft_eq]
      exact ⟨skip + n, hn, rfl⟩
    rw [remainderPass, h.same.minSubPos]
    exact Get.returns_bind (remainder_returns h hp) fun s' h' => remainderPass_returns h' (Nat.le_of_succ_le hn)

theorem Parsed.setLevel (h : Parsed cctx (left + 1) s ps) (hp : cctx.minSubPos + left ∈ positions cctx) (tcoeff : ℕ) :
    ∃ ps, Parsed cctx left (CABACReader.setLevel s stateTransTable (cctx.minSubPos + left) tcoeff) ps := by
  rw [CABACReader.setLevel]
  split
  · rename_i hlevel
    exact ⟨_, (h.nextState _).add hp (by omega)⟩
  · exact ⟨ps, (h.nextState _).skip⟩

theorem bypassLevel_returns (h : Parsed cctx (left + 1) s ps) (hp : cctx.minSubPos + left ∈ positions cctx) :
    Get.Returns (bypassLevel s stateTransTable (cctx.minSubPos + left)) fun s' => ∃ ps, Parsed cctx left s' ps :=
  Get.returns_then fun _ => Get.returns_pure (h.setLevel hp _)

theorem bypassPass_returns : ∀ {left : ℕ} {s : Subblock} {ps : List ℕ}, Parsed cctx left s ps →
    left ≤ 2 ^ cctx.log2CGSize → Get.Returns (bypassPass stateTransTable left s) fun s' => ∃ ps, Parsed cctx 0 s' ps
  | 0, _, ps, h, _ => Get.returns_pure ⟨ps, h⟩
  | left + 1, s, ps, h, hleft => by
    have hp : cctx.minSubPos + left ∈ positions cctx := by
      rw [mem_positions, CoeffCodingContext.minSubPos, Nat.shiftLeft_eq]
      exact ⟨left, hleft, rfl⟩
    rw [bypassPass, h.same.minSubPos]
    exact Get.returns_bind (bypassLevel_returns h hp) fun s' ⟨ps', h'⟩ => bypassPass_returns h' (Nat.le_of_succ_le hleft)

theorem count_le (cctx : CoeffCodingContext) : firstSigPos cctx + 1 - cctx.minSubPos ≤ 2 ^ cctx.log2CGSize := by
  have hpos := Nat.two_pow_pos cctx.log2CGSize
  rw [firstSigPos]
  split
  · rename_i hlast
    have hdiv := of_decide_eq_true hlast
    rw [Nat.shiftRight_eq_div_pow] at hdiv
    have hmod := Nat.div_add_mod cctx.scanPosLast (2 ^ cctx.log2CGSize)
    have hlt := Nat.mod_lt cctx.scanPosLast hpos
    rw [hdiv, Nat.mul_comm] at hmod
    rw [CoeffCodingContext.minSubPos, Nat.shiftLeft_eq]
    omega
  · rw [CoeffCodingContext.maxSubPos, Nat.one_shiftLeft]
    omega

/-- A sub-block that was zero before. -/
theorem absLevels_returns {coeff : ℕ → ℤ} {state : ℕ} (hzero : ∀ p ∈ positions cctx, coeff (cctx.blockPos p) = 0) :
    Get.Returns (absLevels cctx coeff stateTransTable state) fun s => ∃ ps, Parsed cctx 0 s ps := by
  have hstart : Parsed cctx (firstSigPos cctx + 1 - cctx.minSubPos)
      ⟨cctx, coeff, state, [], firstSigPos cctx, -1⟩ [] :=
    ⟨⟨rfl, rfl, rfl, rfl⟩, rfl, .nil, fun _ hp => absurd hp List.not_mem_nil, fun _ hp => absurd hp List.not_mem_nil,
      fun p hp _ => hzero p hp, fun _ hp => absurd hp (by simp), fun _ => show (-1 : ℤ) < firstSigPos cctx by omega⟩
  refine Get.returns_bind (contextPass_returns _ hstart (count_le cctx)) fun p ⟨hle, ps, h⟩ => ?_
  have hcount := count_le cctx
  refine Get.returns_bind (remainderPass_returns h (by omega)) fun s' h' => ?_
  exact bypassPass_returns h' (Nat.le_trans hle hcount)

/-! ## Signs -/

/-- The signs that are sent: levels keep their absolute values, and are added up. -/
theorem setSigns_spec {L : List ℕ} : ∀ {coeff coeff' : ℕ → ℤ} {signPattern : ℕ} {sumAbs sumAbs' : ℤ}, L.Nodup →
    setSigns cctx L coeff signPattern sumAbs = .ok (coeff', sumAbs') →
    (∀ pos, (coeff' pos).natAbs = (coeff pos).natAbs) ∧ (∀ pos ∉ L, coeff' pos = coeff pos) ∧
      sumAbs' = sumAbs + (L.map coeff).sum := by
  induction L with
  | nil =>
    intro coeff coeff' signPattern sumAbs sumAbs' _ h
    cases h
    exact ⟨fun _ => rfl, fun _ _ => rfl, by simp⟩
  | cons blkPos L ih =>
    intro coeff coeff' signPattern sumAbs sumAbs' hnodup h
    obtain ⟨hnot, hnodup⟩ := List.nodup_cons.mp hnodup
    obtain ⟨_, -, h⟩ := bind_eq_ok h
    obtain ⟨habs, hother, hsum⟩ := ih hnodup h
    refine ⟨fun pos => ?_, fun pos hpos => ?_, ?_⟩
    · rw [habs]
      by_cases heq : pos = blkPos
      · rw [if_pos heq, heq]
        split
        · exact Int.natAbs_neg _
        · rfl
      · rw [if_neg heq]
    · obtain ⟨hne, hpos⟩ := not_or.mp (mt List.mem_cons.mpr hpos)
      rw [hother pos hpos, if_neg hne]
    · have hmap : (L.map fun pos => if pos = blkPos then
          (if signPattern.testBit 31 then -coeff blkPos else coeff blkPos) else coeff pos) = L.map coeff :=
        List.map_congr_left fun pos hpos => if_neg fun heq : pos = blkPos => hnot (heq ▸ hpos)
      rw [hsum, hmap, List.map_cons, List.sum_cons, Int.add_assoc]

/-- The sum of the absolute levels of a sub-block. -/
def absSum (cctx : CoeffCodingContext) (coeff : ℕ → ℤ) : ℕ :=
  ∑ p ∈ positions cctx, (coeff (cctx.blockPos p)).natAbs

/-- The sum without the level whose sign is hidden. -/
def explicitSum (cctx : CoeffCodingContext) (coeff : ℕ → ℤ) (hidden : ℕ) : ℕ :=
  ∑ p ∈ (positions cctx).erase hidden, (coeff (cctx.blockPos p)).natAbs

/-- The levels of the significant positions are all there is to add up. -/
theorem explicitSum_eq {init : List ℕ} {hidden : ℕ} (h : Parsed cctx 0 s (init ++ [hidden])) :
    (explicitSum cctx s.coeff hidden : ℤ) = ((init.map cctx.blockPos).map s.coeff).sum := by
  have hnodup : (init ++ [hidden]).Nodup := h.sorted.imp fun hgt => Nat.ne_of_gt hgt
  obtain ⟨hinit, -, hdisjoint⟩ := List.nodup_append.mp hnodup
  have hsub : init.toFinset ⊆ (positions cctx).erase hidden := by
    intro p hp
    have hp := List.mem_toFinset.mp hp
    refine Finset.mem_erase.mpr ⟨fun heq => hdisjoint p hp hidden (List.mem_singleton_self _) heq, ?_⟩
    exact (h.range p (List.mem_append_left _ hp)).1
  have hrest : ∀ p ∈ (positions cctx).erase hidden, p ∉ init.toFinset → (s.coeff (cctx.blockPos p)).natAbs = 0 := by
    intro p hp hnot
    obtain ⟨hne, hp⟩ := Finset.mem_erase.mp hp
    have hnotmem : p ∉ init ++ [hidden] := fun hmem => by
      rcases List.mem_append.mp hmem with hmem | hmem
      · exact hnot (List.mem_toFinset.mpr hmem)
      · exact hne (List.mem_singleton.mp hmem)
    rw [h.zero p hp hnotmem, Int.natAbs_zero]
  rw [explicitSum, ← Finset.sum_subset hsub hrest, List.sum_toFinset _ hinit, List.map_map]
  have hpos : ∀ p ∈ init, 0 < s.coeff (cctx.blockPos p) := fun p hp => h.pos p (List.mem_append_left _ hp)
  clear hinit hdisjoint hsub hrest hnodup h
  induction init with
  | nil => rfl
  | cons p init ih =>
    have hp := hpos p List.mem_cons_self
    rw [List.map_cons, List.map_cons, List.sum_cons, List.sum_cons, Int.natCast_add,
      ih fun q hq => hpos q (List.mem_cons_of_mem _ hq), Int.natAbs_of_nonneg (Int.le_of_lt hp)]
    rfl

theorem SameBlock.signPredQualified {cctx' : CoeffCodingContext} (h : SameBlock cctx cctx') :
    cctx'.signPredQualified = cctx.signPredQualified := by
  unfold CoeffCodingContext.signPredQualified CoeffCodingContext.cgPosX CoeffCodingContext.cgPosY
    CoeffCodingContext.subSetPos
  rw [h.block, h.subSetId, h.bSignPredQualified]

theorem SameBlock.hideSign {cctx' : CoeffCodingContext} (h : SameBlock cctx cctx') (posFirst posLast : ℤ) :
    cctx'.hideSign posFirst posLast = cctx.hideSign posFirst posLast := by
  rw [CoeffCodingContext.hideSign, CoeffCodingContext.hideSign, h.signHiding]

/-- Where the sign is hidden, the significant positions are those with a sign that is sent
and `firstNZPos`. -/
theorem Parsed.hidden (h : Parsed cctx 0 s ps) (hhide : cctx.hideSign s.firstNZPos s.lastNZPos = true) :
    ∃ init, ps = init ++ [s.firstNZPos.toNat] := by
  have hlast := of_decide_eq_true (Bool.and_eq_true_iff.mp hhide).2
  rcases List.eq_nil_or_concat ps with rfl | ⟨init, p, rfl⟩
  · have hnone := h.none rfl
    rw [SBH_THRESHOLD] at hlast
    omega
  · refine ⟨init, ?_⟩
    rw [List.concat_eq_append] at h ⊢
    rw [h.first p List.getLast?_concat, Int.toNat_natCast]

variable {coeff sign : ℕ → ℤ} {state hidden : ℕ}

/-- What the signs that are sent leave behind: the sum has the other levels only where
their signs are sent. -/
theorem sentSigns_returns {init : List ℕ} (h : Parsed cctx 0 s (init ++ [hidden]))
    (hsig : s.sigBlkPos = init.map cctx.blockPos ++ [cctx.blockPos hidden])
    (hnum : numSigns s = (init.map cctx.blockPos).length) :
    Get.Returns (sentSigns s) fun p => (∀ pos, (p.1 pos).natAbs = (s.coeff pos).natAbs) ∧
      p.1 (cctx.blockPos hidden) = s.coeff (cctx.blockPos hidden) ∧
      p.2 = if cctx.signPredQualified then 0 else (explicitSum cctx s.coeff hidden : ℤ) := by
  have hnodup : (init ++ [hidden]).Nodup := h.sorted.imp fun hgt => Nat.ne_of_gt hgt
  obtain ⟨hinit, -, hdisjoint⟩ := List.nodup_append.mp hnodup
  have hin : ∀ p ∈ init, p ∈ positions cctx := fun p hp => (h.range p (List.mem_append_left _ hp)).1
  have hhidden : hidden ∈ positions cctx :=
    (h.range hidden (List.mem_append_right _ (List.mem_singleton_self _))).1
  have hblocks : (init.map cctx.blockPos).Nodup :=
    List.Nodup.map_on (fun p hp q hq heq => blockPos_inj (hin p hp) (hin q hq) heq) hinit
  have hapart : cctx.blockPos hidden ∉ init.map cctx.blockPos := by
    intro hmem
    obtain ⟨p, hp, heq⟩ := List.mem_map.mp hmem
    exact hdisjoint p hp hidden (List.mem_singleton_self _) (blockPos_inj (hin p hp) hhidden heq)
  rw [sentSigns, h.same.signPredQualified]
  refine Get.returns_ite (fun hq => Get.returns_pure ⟨fun _ => rfl, rfl, (if_pos hq).symm⟩) fun hq => ?_
  refine Get.returns_then fun signPattern => Get.returns_lift fun p hp => ?_
  rw [hnum, hsig, List.take_left] at hp
  obtain ⟨habs, hother, hsum⟩ := setSigns_spec hblocks hp
  refine ⟨habs, hother _ hapart, ?_⟩
  rw [hsum, if_neg hq, explicitSum_eq h, Int.zero_add]

theorem setHiddenSign_returns {blkPos : ℕ} {sumAbs : ℤ} :
    Get.Returns (liftM (setHiddenSign cctx blkPos coeff sign sumAbs) : BinGet _) fun r =>
      (∀ pos, (r.1 pos).natAbs = (coeff pos).natAbs) ∧
        r.1 blkPos = if (sumAbs + coeff blkPos) % 2 ≠ 0 then -coeff blkPos else coeff blkPos := by
  refine Get.returns_lift fun r hr => ?_
  obtain ⟨_, -, hr⟩ := bind_eq_ok hr
  cases hr
  refine ⟨fun pos => ?_, if_pos rfl⟩
  dsimp only
  by_cases heq : pos = blkPos
  · rw [if_pos heq, heq]
    split
    · exact Int.natAbs_neg _
    · rfl
  · rw [if_neg heq]

/-- What the reader makes of the sign that is not sent. -/
theorem signs_returns {init : List ℕ} (h : Parsed cctx 0 s (init ++ [hidden]))
    (hhide : cctx.hideSign s.firstNZPos s.lastNZPos = true) :
    Get.Returns (signs s sign) fun r => (∀ pos, (r.1 pos).natAbs = (s.coeff pos).natAbs) ∧
      r.1 (cctx.blockPos hidden) =
        if ((if cctx.signPredQualified then 0 else (explicitSum cctx s.coeff hidden : ℤ)) +
          s.coeff (cctx.blockPos hidden)) % 2 ≠ 0 then -s.coeff (cctx.blockPos hidden)
        else s.coeff (cctx.blockPos hidden) := by
  have hsig : s.sigBlkPos = init.map cctx.blockPos ++ [cctx.blockPos hidden] := by
    rw [h.sigBlkPos, List.map_append]
    rfl
  have hnum : numSigns s = (init.map cctx.blockPos).length := by
    rw [numSigns, h.same.hideSign, hhide, if_pos rfl, Subblock.numNonZero, hsig, List.length_append]
    rfl
  refine Get.returns_bind (sentSigns_returns h hsig hnum) fun p ⟨habs, hhidden, hsum⟩ => ?_
  rw [hnum, hsig, List.drop_left]
  refine setHiddenSign_returns.mono fun r hr => ?_
  rw [hhidden, hsum] at hr
  exact ⟨fun pos => (hr.1 pos).trans (habs pos), hr.2⟩

/-! ## Exactly when the sign is right -/

/-- The sign that the reader infers is negative exactly for an odd sum of all levels of the
sub-block, if and only if the sub-block is not one for sign prediction, or its other levels
have an even sum. `s` is the state before the signs. -/
theorem hiddenSign_iff {r : (ℕ → ℤ) × (ℕ → ℤ)} {bins rest bins' rest' : List Bin}
    (hzero : ∀ p ∈ positions cctx, coeff (cctx.blockPos p) = 0)
    (hlevels : absLevels cctx coeff stateTransTable state bins = .ok (s, bins'))
    (hhide : cctx.hideSign s.firstNZPos s.lastNZPos = true) (hsigns : signs s sign rest = .ok (r, rest')) :
    (r.1 (cctx.blockPos s.firstNZPos.toNat) < 0 ↔ absSum cctx r.1 % 2 = 1) ↔
      cctx.signPredQualified = false ∨ explicitSum cctx s.coeff s.firstNZPos.toNat % 2 = 0 := by
  obtain ⟨ps, h⟩ := absLevels_returns hzero bins s bins' hlevels
  obtain ⟨init, rfl⟩ := h.hidden hhide
  obtain ⟨habs, hhidden⟩ := signs_returns h hhide rest r rest' hsigns
  have hmem : s.firstNZPos.toNat ∈ init ++ [s.firstNZPos.toNat] :=
    List.mem_append_right _ (List.mem_singleton_self _)
  have hpos := h.pos _ hmem
  have hsum : absSum cctx r.1 = explicitSum cctx s.coeff s.firstNZPos.toNat +
      (s.coeff (cctx.blockPos s.firstNZPos.toNat)).natAbs := by
    rw [absSum, explicitSum, Finset.sum_congr rfl fun p _ => habs (cctx.blockPos p)]
    exact (Finset.sum_erase_add _ _ (h.range _ hmem).1).symm
  rw [hhidden, hsum]
  by_cases hq : cctx.signPredQualified = true
  · rw [if_pos hq, Int.zero_add]
    have hnot : ¬cctx.signPredQualified = false := fun hf => by
      rw [hf] at hq
      cases hq
    rw [or_iff_right hnot]
    split <;> omega
  · rw [if_neg hq]
    refine iff_of_true ?_ (.inl (Bool.eq_false_iff.mpr hq))
    split <;> omega

/-! ## A block of 4x4 -/

/-- A block whose last coefficient is at scan position 4. -/
def smallBlock (bSignPredQualified : Bool) : CoeffCodingContext where
  block := ⟨2, 2, by decide, by decide⟩
  chType := .luma
  signHiding := true
  maxLog2TrDynamicRange := 15
  bSignPredQualified := bSignPredQualified
  scanPosLast := 4
  subSetId := 0
  sigCoeffGroupFlag := fun _ => false
  tmplCpSum1 := -1
  tmplCpDiag := -1
  regBinLimit := 28

/-- Levels of one at the scan positions 4 and 0. -/
def smallLevels : List Bin :=
  [.ctx ⟨.GtxFlag 2, 0⟩ false, .ctx ⟨.SigFlag 0, 4⟩ false, .ctx ⟨.SigFlag 0, 9⟩ false, .ctx ⟨.SigFlag 0, 9⟩ false,
    .ctx ⟨.SigFlag 0, 9⟩ true, .ctx ⟨.GtxFlag 2, 16⟩ false]

/-- Without sign prediction. -/
theorem hiddenSign_small : ∃ s r, absLevels (smallBlock false) (fun _ => 0) 0 0 smallLevels = .ok (s, []) ∧
    signs s (fun _ => 0) [.ep true] = .ok (r, []) ∧
    ((r.1 ((smallBlock false).blockPos s.firstNZPos.toNat) < 0 ↔ absSum (smallBlock false) r.1 % 2 = 1) ↔
      (smallBlock false).signPredQualified = false ∨
        explicitSum (smallBlock false) s.coeff s.firstNZPos.toNat % 2 = 0) := by
  obtain ⟨⟨s, bins'⟩, hs, hrun⟩ := exists_ok_of_any
    (x := absLevels (smallBlock false) (fun _ => 0) 0 0 smallLevels)
    (p := fun q => q.2 == [] && (smallBlock false).hideSign q.1.firstNZPos q.1.lastNZPos &&
      (signs q.1 (fun _ => 0) [.ep true]).toOption.any fun r => r.2 == []) (by decide +kernel)
  obtain ⟨hrun, hsigns⟩ := Bool.and_eq_true_iff.mp hrun
  obtain ⟨hnil, hhide⟩ := Bool.and_eq_true_iff.mp hrun
  obtain ⟨⟨r, rest'⟩, hr, hrest⟩ := exists_ok_of_any hsigns
  obtain rfl := eq_of_beq hnil
  obtain rfl := eq_of_beq hrest
  exact ⟨s, r, hs, hr, hiddenSign_iff (fun _ _ => rfl) hs hhide hr⟩

/-- With sign prediction, two levels of one leave the hidden sign negative. -/
theorem hiddenSign_wrong : ∃ s r, absLevels (smallBlock true) (fun _ => 0) 0 0 smallLevels = .ok (s, []) ∧
    (smallBlock true).hideSign s.firstNZPos s.lastNZPos = true ∧ signs s (fun _ => 0) [] = .ok (r, []) ∧
    ¬(r.1 ((smallBlock true).blockPos s.firstNZPos.toNat) < 0 ↔ absSum (smallBlock true) r.1 % 2 = 1) := by
  obtain ⟨⟨s, bins'⟩, hs, hrun⟩ := exists_ok_of_any
    (x := absLevels (smallBlock true) (fun _ => 0) 0 0 smallLevels)
    (p := fun q => q.2 == [] && (smallBlock true).hideSign q.1.firstNZPos q.1.lastNZPos &&
      (signs q.1 (fun _ => 0) []).toOption.any fun r : ((ℕ → ℤ) × (ℕ → ℤ)) × List Bin => r.2 == [] &&
        decide (¬(r.1.1 ((smallBlock true).blockPos q.1.firstNZPos.toNat) < 0 ↔
          absSum (smallBlock true) r.1.1 % 2 = 1))) (by decide +kernel)
  obtain ⟨hrun, hsigns⟩ := Bool.and_eq_true_iff.mp hrun
  obtain ⟨hnil, hhide⟩ := Bool.and_eq_true_iff.mp hrun
  obtain ⟨⟨r, rest'⟩, hr, hrest⟩ := exists_ok_of_any hsigns
  obtain ⟨hend, hwrong⟩ := Bool.and_eq_true_iff.mp hrest
  obtain rfl := eq_of_beq hnil
  obtain rfl := eq_of_beq hend
  exact ⟨s, r, hs, hhide, hr, of_decide_eq_true hwrong⟩

end ECM.Residual.HiddenSign
