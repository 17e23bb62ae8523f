import ECM.CommonLib.UnitPartitionerSoundness

/-! # The partitioner's bookkeeping is balanced

Over every run of the partitioner, from the CTU on, the counters stay those of
the stack. Leaving a split, at whatever part and however deep the run went in
between, gives back the counters there were before it. -/

namespace ECM.Partition
open CommonLib PartSplit Partitioner

/-- The area of a CTU, in column `col` and row `row`. -/
def ctuArea (fmt : ChromaFormat) (log2CtuSize col row : Nat) : UnitArea :=
  let size := 2 ^ log2CtuSize
  UnitArea.ofArea fmt ⟨(col * size : Nat), (row * size : Nat), size, size⟩

inductive Op where
  | splitCurrArea (split : PartSplit)
  | nextPart (autoPop : Bool)
  | exitCurrSplit
  | getImplicitSplit
deriving DecidableEq

def applyOp (cs : CodingStructure) (p : Partitioner) : Op → Checked Partitioner
  | .splitCurrArea split => p.splitCurrArea cs split
  | .nextPart autoPop => do
    let (_, p) ← p.nextPart autoPop
    return p
  | .exitCurrSplit => p.exitCurrSplit
  | .getImplicitSplit => return (p.getImplicitSplit cs).2

/-- The operations a caller may use: splits that `canSplit` admits on a current
part, of the coding tree only outside of transform splits; and the parts and the
end of a split that was entered. -/
def Admissible (cs : CodingStructure) (p : Partitioner) : Op → Prop
  | .splitCurrArea split => (split.isCu = true ∨ split.isTu = true) ∧ p.back.idx < p.back.parts.length ∧
      (∃ q, p.canSplit cs split = .ok (true, q)) ∧ (split.isCu = true → p.back.split.isTu = false)
  | .nextPart _ => p.below ≠ [] ∧ p.back.idx < p.back.parts.length
  | .exitCurrSplit => p.below ≠ []
  | .getImplicitSplit => p.back.idx < p.back.parts.length

/-- The states reached in a CTU by operations that are allowed. -/
inductive Reachable (cs : CodingStructure) (allowed : Partitioner → Op → Prop) (ctu : UnitArea)
    (chType : ChannelType) : Partitioner → Prop
  | init : Reachable cs allowed ctu chType (initCtu ctu chType)
  | step {p q : Partitioner} {op : Op} : Reachable cs allowed ctu chType p → allowed p op →
      applyOp cs p op = .ok q → Reachable cs allowed ctu chType q

/-- The states reached from `p` while more than `n` levels are left. -/
inductive Within (cs : CodingStructure) (n : Nat) (p : Partitioner) : Partitioner → Prop
  | refl : Within cs n p p
  | step {q r : Partitioner} {op : Op} : Within cs n p q → Admissible cs q op → applyOp cs q op = .ok r →
      n < r.below.length → Within cs n p r

variable {cs : CodingStructure} {p q r : Partitioner} {op : Op} {split : PartSplit}

/-! ## Single operations -/

theorem initCtu_ok {fmt : ChromaFormat} {log2CtuSize : Nat} (h5 : 5 ≤ log2CtuSize) (h8 : log2CtuSize ≤ 8)
    (col row : Nat) (chType : ChannelType) :
    PartitionerOk cs (initCtu (ctuArea fmt log2CtuSize col row) chType) := by
  refine ⟨rfl, ⟨fun h => (by cases h), fun _ a ha => ?_, fun h => by cases h⟩, rfl⟩
  obtain rfl := List.mem_singleton.mp ha
  refine ⟨?_, fun _ => rfl, fun h => by cases h⟩
  have hlow : 2 ^ 5 ≤ 2 ^ log2CtuSize := Nat.pow_le_pow_right (by decide) h5
  have hhigh : 2 ^ log2CtuSize ≤ 2 ^ 8 := Nat.pow_le_pow_right (by decide) h8
  show 4 ≤ 2 ^ log2CtuSize ∧ 2 ^ log2CtuSize ≤ 256 ∧ 4 ≤ 2 ^ log2CtuSize ∧ 2 ^ log2CtuSize ≤ 256
  omega

theorem admits_of_canSplit (hp : PartitionerOk cs p) (hs : split.isCu = true ∨ split.isTu = true)
    (h : ∃ q, p.canSplit cs split = .ok (true, q)) : p.admits cs split = true := by
  obtain ⟨q, hq⟩ := h
  rw [canSplit_eq hp hs] at hq
  exact (Prod.ext_iff.mp (Except.ok.inj hq)).1

/-- Moving past the last part with `autoPop` leaves the split. -/
theorem nextPart_autoPop (hp : PartitionerOk cs p) (hpart : p.back.idx < p.back.parts.length)
    {b : PartLevel} {below : List PartLevel} (hbelow : p.below = b :: below) :
    (∃ q, p.nextPart true = .ok (true, q) ∧ PartitionerOk cs q ∧ q.below = p.below ∧
        q.back.split = p.back.split ∧ q.back.parts = p.back.parts) ∨
      ∃ q, p.nextPart true = .ok (false, q) ∧ PartitionerOk cs q ∧ q.back = b ∧ q.below = below := by
  obtain ⟨q, hq, hok, hbel, -, hsplit, hparts, -⟩ :=
    nextPart_spec hp hpart (by rw [hbelow]; exact List.cons_ne_nil _ _)
  unfold nextPart at hq ⊢
  by_cases h : p.back.idx + 1 < p.back.parts.length
  · rw [decide_eq_true h] at hq
    refine Or.inl ⟨q, ?_, hok, hbel, hsplit, hparts⟩
    exact (if_pos h).trans ((if_pos h).symm.trans hq)
  · rw [decide_eq_false h] at hq
    have hadv : q = p.advance :=
      ((Prod.ext_iff.mp (Except.ok.inj ((if_neg h).symm.trans hq))).2).symm
    rw [hadv] at hok
    obtain ⟨t, ht, hok', hb, hbel', -⟩ := exitCurrSplit_spec hok (p := p.advance) hbelow
    refine Or.inr ⟨t, ?_, hok', hb, hbel'⟩
    refine (if_neg h).trans ?_
    rw [if_pos rfl, ht]
    rfl

theorem applyOp_nextPart {autoPop more : Bool} (h : p.nextPart autoPop = .ok (more, q)) :
    applyOp cs p (.nextPart autoPop) = .ok q := by
  show (p.nextPart autoPop >>= fun r => pure r.2) = .ok q
  rw [h, ok_bind]
  rfl

/-- An operation pushes a level, stays at one or pops one. -/
inductive Moved (cs : CodingStructure) (p : Partitioner) (op : Op) (q : Partitioner) : Prop
  | pushed (split : PartSplit) (parts : List UnitArea) (hop : op = .splitCurrArea split)
      (hadm : p.admits cs split = true) (hparts : p.splitParts cs split = .ok parts)
      (hE : Entered cs p split parts q)
  | stayed (hbelow : q.below = p.below) (hsplit : q.back.split = p.back.split)
      (hparts : q.back.parts = p.back.parts)
  | popped (hbelow : p.below = q.back :: q.below)

/-- An operation keeps the invariant, and fails only where the parts of a split
cannot be made. -/
theorem applyOp_spec (hp : PartitionerOk cs p) (ha : Admissible cs p op) :
    (∃ split, op = .splitCurrArea split ∧ ∃ e, p.splitParts cs split = .error e ∧ applyOp cs p op = .error e) ∨
      ∃ q, applyOp cs p op = .ok q ∧ PartitionerOk cs q ∧ Moved cs p op q := by
  cases op with
  | splitCurrArea split =>
    obtain ⟨hs, hpart, hcan, hcu⟩ := ha
    have hadm := admits_of_canSplit hp hs hcan
    obtain ⟨f, hf, hE⟩ := splitCurrArea_eq hp hs hpart hcu hadm
    cases hparts : p.splitParts cs split with
    | error e =>
      rw [hparts] at hf
      exact Or.inl ⟨split, rfl, e, hparts, hf⟩
    | ok parts =>
      rw [hparts] at hf
      exact Or.inr ⟨f parts, hf, entered_ok hp hs hpart hcu hadm hparts (hE parts),
        .pushed split parts rfl hadm hparts (hE parts)⟩
  | nextPart autoPop =>
    obtain ⟨hbelow, hpart⟩ := ha
    right
    cases autoPop with
    | false =>
      obtain ⟨q, hq, hok, hbel, -, hsplit, hparts, -⟩ := nextPart_spec hp hpart hbelow
      exact ⟨q, applyOp_nextPart hq, hok, .stayed hbel hsplit hparts⟩
    | true =>
      obtain ⟨b, below, hb⟩ := List.exists_cons_of_ne_nil hbelow
      rcases nextPart_autoPop hp hpart hb with ⟨q, hq, hok, hbel, hsplit, hparts⟩ | ⟨q, hq, hok, hback, hbel⟩
      · exact ⟨q, applyOp_nextPart hq, hok, .stayed hbel hsplit hparts⟩
      · exact ⟨q, applyOp_nextPart hq, hok, .popped (by rw [hb, hback, hbel])⟩
  | exitCurrSplit =>
    obtain ⟨b, below, hb⟩ := List.exists_cons_of_ne_nil ha
    obtain ⟨q, hq, hok, hback, hbel, -⟩ := exitCurrSplit_spec hp hb
    exact Or.inr ⟨q, hq, hok, .popped (by rw [hb, hback, hbel])⟩
  | getImplicitSplit =>
    refine Or.inr ⟨p.looked cs, ?_, looked_ok hp, .stayed rfl rfl rfl⟩
    show Except.ok (p.getImplicitSplit cs).2 = _
    rw [getImplicitSplit_eq hp]

/-! ## Runs -/

theorem Reachable.ok {allowed : Partitioner → Op → Prop} {ctu : UnitArea} {chType : ChannelType}
    (h : Reachable cs allowed ctu chType p) (hinit : PartitionerOk cs (initCtu ctu chType))
    (hallowed : ∀ p op, allowed p op → Admissible cs p op) : PartitionerOk cs p := by
  induction h with
  | init => exact hinit
  | step _ ha hop ih =>
    rcases applyOp_spec ih (hallowed _ _ ha) with ⟨_, -, _, -, he⟩ | ⟨q, hq, hok, -⟩
    · rw [hop] at he
      cases he
    · rw [hop] at hq
      cases hq
      exact hok

/-- While more than `n` levels are left, the first `n + 1` stay as they are. -/
theorem Within.suffix {n : Nat} {s : List PartLevel} (h : Within cs n p q) (hp : PartitionerOk cs p)
    (hs : s.length = n + 1) (hsuf : s <:+ p.below) : PartitionerOk cs q ∧ s <:+ q.below := by
  induction h with
  | refl => exact ⟨hp, hsuf⟩
  | step _ ha hop hn ih =>
    obtain ⟨hok, hsuf⟩ := ih
    rcases applyOp_spec hok ha with ⟨_, -, _, -, he⟩ | ⟨q, hq, hok', hbel⟩
    · rw [hop] at he
      cases he
    · rw [hop] at hq
      cases hq
      refine ⟨hok', ?_⟩
      cases hbel with
      | pushed split parts _ _ _ hE =>
        rw [hE.below]
        exact hsuf.trans (List.suffix_cons _ _)
      | stayed hbelow =>
        rw [hbelow]
        exact hsuf
      | popped hbelow =>
        rw [hbelow] at hsuf
        rcases List.suffix_cons_iff.mp hsuf with heq | hsuf
        · rw [heq, List.length_cons] at hs
          omega
        · exact hsuf

/-- What the bookkeeping of the partitioner guarantees in a state. -/
structure Balanced (cs : CodingStructure) (p : Partitioner) : Prop where
  /-- No counter is below zero. -/
  nonneg : p.counters.Nonneg
  /-- An operation fails only where the parts of a split cannot be made. -/
  checks : ∀ op e, Admissible cs p op → applyOp cs p op = .error e →
    ∃ split, op = .splitCurrArea split ∧ p.splitParts cs split = .error e
  /-- The operation that ends a split gives back the counters, and the area. -/
  restores : ∀ split q r op t, Admissible cs p (.splitCurrArea split) → p.splitCurrArea cs split = .ok q →
    Within cs p.below.length q r → Admissible cs r op → applyOp cs r op = .ok t →
    t.below.length = p.below.length → t.counters = p.counters ∧ t.currArea = p.currArea

theorem partitioner_balanced (cs : CodingStructure) (fmt : ChromaFormat) (chType : ChannelType)
    {log2CtuSize : Nat} (h5 : 5 ≤ log2CtuSize) (h8 : log2CtuSize ≤ 8) (col row : Nat)
    (h : Reachable cs (Admissible cs) (ctuArea fmt log2CtuSize col row) chType p) : Balanced cs p := by
  have hp := h.ok (initCtu_ok h5 h8 col row chType) fun _ _ ha => ha
  refine ⟨?_, fun op e ha he => ?_, ?_⟩
  · rw [hp.counters]
    exact countersOf_nonneg _ _
  · rcases applyOp_spec hp ha with ⟨split, hop, e', hparts, he'⟩ | ⟨q, hq, -⟩
    · rw [he] at he'
      cases he'
      exact ⟨split, hop, hparts⟩
    · rw [he] at hq
      cases hq
  · intro split q r op t ha hq hwithin har hop hlen
    have hstart : applyOp cs p (.splitCurrArea split) = .ok q := hq
    rcases applyOp_spec hp ha with ⟨_, -, _, -, he⟩ | ⟨q', hq', hok, -⟩
    · rw [hstart] at he
      cases he
    rw [hstart] at hq'
    cases hq'
    have hbelow : q.below = (p.looked cs).back :: p.below := by
      obtain ⟨hs, hpart, -, hcu⟩ := ha
      obtain ⟨-, parts, -, hE⟩ := splitCurrArea_ok hp hs hpart hcu hq
      exact hE.below
    obtain ⟨hokr, hsuf⟩ := hwithin.suffix hok (s := q.below) (by rw [hbelow, List.length_cons])
      List.suffix_rfl
    rw [hbelow] at hsuf
    have hle := hsuf.length_le
    rw [List.length_cons] at hle
    rcases applyOp_spec hokr har with ⟨_, -, _, -, he⟩ | ⟨t', ht', hokt, hbelt⟩
    · rw [hop] at he
      cases he
    rw [hop] at ht'
    cases ht'
    cases hbelt with
    | pushed _ _ _ _ _ hE =>
      rw [hE.below, List.length_cons] at hlen
      omega
    | stayed hbelt =>
      rw [hbelt] at hlen
      omega
    | popped hbelt =>
      rw [hbelt] at hsuf
      have heq := hsuf.eq_of_length (by rw [List.length_cons, List.length_cons, hlen])
      obtain ⟨hback, hbel'⟩ := List.cons.inj heq
      refine ⟨?_, ?_⟩
      · rw [hokt.counters, hp.counters, ← hback, ← hbel']
        exact countersOf_congr looked_split looked_idx p.below
      · unfold Partitioner.currArea currPartIdx
        rw [← hback]
        rfl

/-- A picture of 256 by 256 samples, multi-type splits of blocks up to 128 by
128 and transforms up to 64 by 64. -/
def smallConfig : CodingStructure where
  picWidth := 256
  picHeight := 256
  isDualITree := false
  maxBtDepth := fun _ => 3
  maxBtSize := fun _ => 128
  minBtSize := fun _ => 4
  maxTtSize := fun _ => 64
  minTtSize := fun _ => 4
  minQtSize := fun _ => 8
  maxTbSize := 64
  cuQpDeltaSubdiv := 0
  cuChromaQpOffsetSubdiv := 0

/-- A ternary split of a 64 by 64 CTU, left at its middle part. -/
theorem partitioner_balanced_ternary : ∃ q r t,
    (initCtu (ctuArea .chroma420 6 1 0) .luma).splitCurrArea smallConfig .cuTriVSplit = .ok q ∧
      q.nextPart false = .ok (true, r) ∧ r.exitCurrSplit = .ok t ∧ q.counters ≠ r.counters ∧
      t.counters = ⟨0, 0, 0, 0, 0, 0, 0⟩ := by
  refine ⟨_, _, _, rfl, rfl, rfl, by decide, ?_⟩
  have hB := partitioner_balanced smallConfig .chroma420 .luma (show 5 ≤ 6 by decide)
    (show 6 ≤ 8 by decide) 1 0 Reachable.init
  have ha : Admissible smallConfig (initCtu (ctuArea .chroma420 6 1 0) .luma)
      (.splitCurrArea .cuTriVSplit) := ⟨Or.inl rfl, Nat.zero_lt_one, ⟨_, rfl⟩, fun _ => rfl⟩
  have h := hB.restores .cuTriVSplit _ _ .exitCurrSplit _ ha rfl
    (Within.refl.step (show Admissible _ _ (.nextPart false) from ⟨List.cons_ne_nil _ _, by decide⟩) rfl (by decide))
    (List.cons_ne_nil _ _) rfl rfl
  exact h.1

/-- A run of the partitioner. -/
def runOps (cs : CodingStructure) (p : Partitioner) (ops : List Op) : Checked Partitioner :=
  ops.foldlM (applyOp cs) p

/-- A binary split inside of a transform split loses the transform depth: the
split admitted last is left, then the transform split cannot be. -/
theorem coding_split_in_transform_split :
    runOps smallConfig (initCtu (ctuArea .chroma420 7 0 0) .luma)
      [.splitCurrArea .tuMaxTrSplit, .splitCurrArea .cuHorzSplit, .exitCurrSplit, .exitCurrSplit] =
        .error "TR depth is '0', although a TU split was performed" := by
  rfl

end ECM.Partition
