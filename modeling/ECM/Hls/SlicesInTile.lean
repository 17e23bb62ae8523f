import ECM.Hls.RoundTrip
import Mathlib.Algebra.BigOperators.Group.List.Basic
import Mathlib.Data.List.GetD

/-! # Several slices in one tile

The rectangular slice parameters of a picture parameter set where a tile is divided
into slices. The writer leaves out the heights that it expects the reader to infer
from the last explicit one. -/

namespace ECM.CommonLib

structure RectSlice where
  m_tileIdx : ℕ
  m_sliceWidthInTiles : ℕ
  m_sliceHeightInTiles : ℕ
  m_numSlicesInTile : ℕ
  m_sliceHeightInCtu : ℕ
  deriving DecidableEq, Repr, Inhabited

/-- The slices of a picture parameter set with rectangular slices. -/
structure RectSlices where
  m_rectSlices : List RectSlice
  deriving DecidableEq, Repr

namespace RectSlices

def getNumSlicesInTile (pps : RectSlices) (i : ℕ) : ℕ :=
  (pps.m_rectSlices.getD i default).m_numSlicesInTile

def getSliceHeightInCtu (pps : RectSlices) (i : ℕ) : ℕ :=
  (pps.m_rectSlices.getD i default).m_sliceHeightInCtu

end RectSlices

end ECM.CommonLib

namespace ECM.EncoderLib.VLCWriter
open CommonLib Lib.Loop

/-- `numExpSliceInTile` of `codePPS`. The loop runs from the last pair of neighbours to
the first and takes one off for each pair that is equal. -/
def numExpSliceInTile (pps : RectSlices) (i : ℕ) : ℕ :=
  let n := if pps.getNumSlicesInTile i = 1 then 0 else pps.getNumSlicesInTile i
  if n > 1 ∧ pps.getSliceHeightInCtu (i + n - 2) ≥ pps.getSliceHeightInCtu (i + n - 1) then
    (List.range (n - 1)).foldr (fun j num =>
      if pps.getSliceHeightInCtu (i + j) = pps.getSliceHeightInCtu (i + j + 1) then num - 1 else num) n
  else n

/-- The special case of `codePPS` for the tile that the slice `i` starts; the loop over
the slices goes on behind the one returned. -/
def codeSlicesInTile (pps : RectSlices) (tileRowHeight i : ℕ) : WriteM ℕ := do
  let numExpSliceInTile := numExpSliceInTile pps i
  WRITE_UVLC numExpSliceInTile
  let expSliceHeightSum ← loop (fun j expSliceHeightSum => do
    WRITE_UVLC (sub32 (pps.getSliceHeightInCtu (i + j)) 1)
    return u32 (expSliceHeightSum + pps.getSliceHeightInCtu (i + j))) numExpSliceInTile 0
  check (expSliceHeightSum > tileRowHeight)
    "The sum of expressed slice heights is larger than the height of the tile containing the slices."
  return i + (pps.getNumSlicesInTile i - 1)

end ECM.EncoderLib.VLCWriter

namespace ECM.DecoderLib.VLCReader
open CommonLib Lib.Loop

/-- The heights that are not explicit: the uniform one as long as it fits, and what
remains then. -/
def inferredHeights (uniformSliceHeight : ℕ) : (rounds remTileRowHeight : ℕ) → List ℕ
  | 0, _ => []
  | rounds + 1, remTileRowHeight =>
    if remTileRowHeight ≥ uniformSliceHeight then
      uniformSliceHeight ::
        inferredHeights uniformSliceHeight rounds (remTileRowHeight - uniformSliceHeight)
    else if remTileRowHeight > 0 then [remTileRowHeight]
    else []

/-- The loop over the explicit heights: the heights, what remains of the tile row and the
code read last. -/
def readExpHeights (numExpSliceInTile tileRowHeight : ℕ) : ReadM (List ℕ × ℕ × ℕ) :=
  loop (fun _ state => do
    let uiCode ← READ_UVLC
    return (state.1 ++ [u32 (uiCode + 1)], sub32 state.2.1 (u32 (uiCode + 1)), uiCode))
    numExpSliceInTile ([], tileRowHeight, numExpSliceInTile)

/-- The special case of `parsePPS`: the slices of the tile `tileIdx`. -/
def parseSlicesInTile (tileIdx tileRowHeight : ℕ) : ReadM (List RectSlice) := do
  let uiCode ← READ_UVLC
  if uiCode = 0 then return [⟨tileIdx, 1, 1, 1, tileRowHeight⟩]
  else
    let (heights, remTileRowHeight, uiCode) ← readExpHeights uiCode tileRowHeight
    let heights := heights ++
      inferredHeights (u32 (uiCode + 1)) (remTileRowHeight + 1) remTileRowHeight
    return heights.map fun height => ⟨tileIdx, 1, 1, heights.length, height⟩

end ECM.DecoderLib.VLCReader

namespace ECM.Hls
open CommonLib CommonLib.BitStream Lib.Bits Lib.Loop List
open EncoderLib.VLCWriter DecoderLib.VLCReader

/-- The slices from `i` on divide a tile into slices of these heights. -/
structure TileAt (pps : RectSlices) (i : ℕ) (heights : List ℕ) : Prop where
  count : pps.getNumSlicesInTile i = heights.length
  height : ∀ j < heights.length, pps.getSliceHeightInCtu (i + j) = heights.getD j 0

/-- How many neighbours in the list are equal. -/
def equalPairs (heights : List ℕ) : ℕ :=
  (List.range (heights.length - 1)).countP fun j => heights.getD j 0 = heights.getD (j + 1) 0

/-- The explicit heights end in the run of equal heights that the list itself ends in,
but for its last height. -/
def EndsInRun (heights : List ℕ) : Prop :=
  heights.getD (heights.length - 2) 0 < heights.getD (heights.length - 1) 0 ∨
    ∀ j < heights.length - 1, heights.length - 1 - equalPairs heights ≤ j →
      heights.getD j 0 = heights.getD (heights.length - 2) 0

instance (heights : List ℕ) : Decidable (EndsInRun heights) :=
  inferInstanceAs (Decidable (_ ∨ _))

/-! ## The explicit heights -/

theorem equalPairs_lt {heights : List ℕ} (h : 1 ≤ heights.length) :
    equalPairs heights < heights.length := by
  have hle := countP_le_length (l := List.range (heights.length - 1))
    (p := fun j => decide (heights.getD j 0 = heights.getD (j + 1) 0))
  rw [length_range] at hle
  rw [equalPairs]
  omega

theorem foldr_eq_sub_countP (p : ℕ → Bool) (xs : List ℕ) {n : ℕ} (h : xs.length ≤ n) :
    xs.foldr (fun j num => if p j then num - 1 else num) n = n - xs.countP p := by
  induction xs with
  | nil => rfl
  | cons x xs ih =>
    rw [foldr_cons, ih (by rw [length_cons] at h; omega), countP_cons]
    split <;> omega

variable {pps : RectSlices} {i tileIdx : ℕ} {heights : List ℕ}

/-- How many heights are explicit. -/
def numExp (heights : List ℕ) : ℕ :=
  if heights.getD (heights.length - 2) 0 < heights.getD (heights.length - 1) 0 then heights.length
  else heights.length - equalPairs heights

theorem numExpSliceInTile_eq (h : TileAt pps i heights) (h2 : 2 ≤ heights.length) :
    numExpSliceInTile pps i = numExp heights := by
  have hlast : pps.getSliceHeightInCtu (i + heights.length - 1) = heights.getD (heights.length - 1) 0 := by
    rw [Nat.add_sub_assoc (by omega)]
    exact h.height _ (by omega)
  have hprev : pps.getSliceHeightInCtu (i + heights.length - 2) = heights.getD (heights.length - 2) 0 := by
    rw [Nat.add_sub_assoc (by omega)]
    exact h.height _ (by omega)
  have hfold : (List.range (heights.length - 1)).foldr (fun j num =>
      if pps.getSliceHeightInCtu (i + j) = pps.getSliceHeightInCtu (i + j + 1) then num - 1 else num)
      heights.length = heights.length - equalPairs heights := by
    have hcount := foldr_eq_sub_countP
      (fun j => decide (pps.getSliceHeightInCtu (i + j) = pps.getSliceHeightInCtu (i + j + 1)))
      (List.range (heights.length - 1)) (show _ ≤ heights.length by rw [length_range]; omega)
    simp only [decide_eq_true_eq] at hcount
    rw [hcount, equalPairs]
    congr 1
    refine countP_congr fun j hj => ?_
    have hj := mem_range.mp hj
    rw [h.height j (by omega), Nat.add_assoc, h.height (j + 1) (by omega)]
  rw [numExpSliceInTile, h.count, if_neg (show ¬heights.length = 1 by omega)]
  rw [hlast, hprev, hfold, numExp]
  by_cases hlt : heights.getD (heights.length - 2) 0 < heights.getD (heights.length - 1) 0
  · rw [if_pos hlt, if_neg fun hge => absurd hlt (Nat.not_lt.mpr hge.2)]
  · rw [if_neg hlt, if_pos ⟨h2, Nat.not_lt.mp hlt⟩]

theorem numExp_pos (h2 : 2 ≤ heights.length) : 1 ≤ numExp heights := by
  have hlt := equalPairs_lt (show 1 ≤ heights.length by omega)
  rw [numExp]
  split <;> omega

theorem numExp_le (heights : List ℕ) : numExp heights ≤ heights.length := by
  rw [numExp]
  split <;> omega

/-! ## The two sides -/

/-- The bits of the heights. -/
def heightBits (heights : List ℕ) : List Bool := heights.flatMap fun h => uvlc (h - 1)

theorem sum_take_le (heights : List ℕ) (n : ℕ) : (heights.take n).sum ≤ heights.sum := by
  have h := congrArg List.sum (take_append_drop n heights)
  rw [sum_append] at h
  omega

theorem heightBits_take {n : ℕ} (h : n ≤ heights.length) :
    heightBits (heights.take n) = (List.range n).flatMap fun j => uvlc (heights.getD j 0 - 1) := by
  induction n with
  | zero => rfl
  | succ n ih =>
    rw [range_succ, flatMap_append, flatMap_singleton, ← ih (by omega),
      take_succ_eq_append_getElem (by omega), heightBits, flatMap_append,
      flatMap_singleton, getD_eq_getElem _ _ (by omega), heightBits]

theorem sum_take_succ {n : ℕ} (h : n < heights.length) :
    (heights.take (n + 1)).sum = (heights.take n).sum + heights.getD n 0 := by
  rw [take_succ_eq_append_getElem h, sum_append, sum_singleton,
    getD_eq_getElem _ _ h]

theorem getD_pos (hpos : ∀ x ∈ heights, 1 ≤ x) {j : ℕ} (hj : j < heights.length) :
    1 ≤ heights.getD j 0 := by
  rw [getD_eq_getElem _ _ hj]
  exact hpos _ (getElem_mem hj)

theorem length_take_le_sum (hpos : ∀ x ∈ heights, 1 ≤ x) {n : ℕ} (h : n ≤ heights.length) :
    n ≤ (heights.take n).sum := by
  have hle := length_le_sum_of_one_le (heights.take n) fun x hx => hpos x (mem_of_mem_take hx)
  rwa [length_take, Nat.min_eq_left h] at hle

/-- Heights that are all explicit are not all one, so the code of their number fits. -/
theorem numExp_lt_sum (h2 : 2 ≤ heights.length) (hpos : ∀ x ∈ heights, 1 ≤ x) :
    numExp heights < heights.sum := by
  have hlen := length_le_sum_of_one_le heights hpos
  rw [numExp]
  split
  · next hlt =>
    have hprev := getD_pos hpos (show heights.length - 2 < heights.length by omega)
    have hsum := sum_take_succ (show heights.length - 1 < heights.length by omega)
    have hfront := length_take_le_sum hpos (show heights.length - 1 ≤ heights.length by omega)
    rw [Nat.sub_add_cancel (by omega), take_length] at hsum
    omega
  · by_cases h0 : equalPairs heights = 0
    · -- the first two heights differ
      have hne : heights.getD 0 0 ≠ heights.getD 1 0 := by
        intro heq
        have hcount := countP_eq_zero.mp h0 0 (mem_range.mpr (by omega))
        exact hcount (decide_eq_true heq)
      match heights, h2, hpos, hne with
      | a :: b :: rest, _, hpos, hne =>
        have ha := hpos a mem_cons_self
        have hb := hpos b (mem_cons_of_mem _ mem_cons_self)
        have hrest := length_le_sum_of_one_le rest fun x hx =>
          hpos x (mem_cons_of_mem _ (mem_cons_of_mem _ hx))
        have hne : a ≠ b := hne
        rw [sum_cons, sum_cons, length_cons, length_cons]
        omega
    · omega

theorem writes_slicesInTile (h : TileAt pps i heights) (h2 : 2 ≤ heights.length)
    (hpos : ∀ x ∈ heights, 1 ≤ x) (hsum : heights.sum < 2 ^ 32) :
    Writes (codeSlicesInTile pps heights.sum i) (i + (heights.length - 1))
      (uvlc (numExp heights) ++ heightBits (heights.take (numExp heights))) := by
  have hle := numExp_le heights
  have hlt := numExp_lt_sum h2 hpos
  rw [codeSlicesInTile, numExpSliceInTile_eq h h2, heightBits_take hle]
  refine writes_bind (writes_uvlc (by omega)) ?_
  have hloop : Writes (loop (fun j expSliceHeightSum => do
      WRITE_UVLC (sub32 (pps.getSliceHeightInCtu (i + j)) 1)
      return u32 (expSliceHeightSum + pps.getSliceHeightInCtu (i + j))) (numExp heights)
        (heights.take 0).sum) (heights.take (numExp heights)).sum
      ((List.range (numExp heights)).flatMap fun j => uvlc (heights.getD j 0 - 1)) := by
    refine writes_loop (fun j => (heights.take j).sum) fun j hj => ?_
    have hj : j < heights.length := by omega
    have hone := getD_pos hpos hj
    have hbound := sum_take_le heights (j + 1)
    have hnext : u32 ((heights.take j).sum + heights.getD j 0) = (heights.take (j + 1)).sum := by
      rw [← sum_take_succ hj]
      exact u32_of_lt (by omega)
    rw [sum_take_succ hj] at hbound
    rw [h.height j hj, sub32_of_le hone (by omega), ← hnext]
    exact (writes_uvlc (by omega)).map fun _ => u32 ((heights.take j).sum + heights.getD j 0)
  have hcheck : ¬(heights.take (numExp heights)).sum > heights.sum :=
    Nat.not_lt.mpr (sum_take_le heights _)
  rw [h.count]
  exact hloop.silent ((writes_check hcheck).silent (writes_pure _))

theorem reads_expHeights (explicit : List ℕ) (tileRowHeight : ℕ) (hne : explicit ≠ [])
    (hpos : ∀ x ∈ explicit, 1 ≤ x) (hsum : explicit.sum ≤ tileRowHeight)
    (h32 : tileRowHeight < 2 ^ 32) :
    Reads (readExpHeights explicit.length tileRowHeight) (heightBits explicit)
      (explicit, tileRowHeight - explicit.sum, explicit.getD (explicit.length - 1) 0 - 1) := by
  let state : ℕ → List ℕ × ℕ × ℕ := fun j =>
    (explicit.take j, tileRowHeight - (explicit.take j).sum,
      if j = 0 then explicit.length else explicit.getD (j - 1) 0 - 1)
  have hloop : Reads (readExpHeights explicit.length tileRowHeight)
      ((List.range explicit.length).flatMap fun j => uvlc (explicit.getD j 0 - 1))
      (state explicit.length) := by
    refine reads_loop state fun j hj => ?_
    have hone := getD_pos hpos hj
    have hnext := sum_take_succ hj
    have hbound := sum_take_le explicit (j + 1)
    have hcode : u32 (explicit.getD j 0 - 1 + 1) = explicit.getD j 0 := by
      rw [Nat.sub_add_cancel hone]
      exact u32_of_lt (by omega)
    have hstate : state (j + 1) = ((state j).1 ++ [u32 (explicit.getD j 0 - 1 + 1)],
        sub32 (state j).2.1 (u32 (explicit.getD j 0 - 1 + 1)), explicit.getD j 0 - 1) := by
      rw [hcode, sub32_of_le (show _ ≤ tileRowHeight - (explicit.take j).sum by omega)
        (show tileRowHeight - (explicit.take j).sum < 2 ^ 32 by omega)]
      simp only [state, Nat.add_sub_cancel]
      rw [if_neg (Nat.succ_ne_zero j), hnext, Nat.sub_add_eq, take_succ_eq_append_getElem hj,
        getD_eq_getElem _ _ hj]
    rw [hstate]
    exact (reads_uvlc (by omega)).map fun uiCode =>
      ((state j).1 ++ [u32 (uiCode + 1)], sub32 (state j).2.1 (u32 (uiCode + 1)), uiCode)
  have hlast : state explicit.length =
      (explicit, tileRowHeight - explicit.sum, explicit.getD (explicit.length - 1) 0 - 1) := by
    have hlen : explicit.length ≠ 0 := fun h => hne (length_eq_zero_iff.mp h)
    simp only [state, take_length, if_neg hlen]
  rwa [hlast, ← heightBits_take (Nat.le_refl _), take_length] at hloop

/-- The slices that the reader makes of the bits written. -/
theorem reads_slicesInTile (h2 : 2 ≤ heights.length) (hpos : ∀ x ∈ heights, 1 ≤ x)
    (hsum : heights.sum < 2 ^ 32) (tileIdx : ℕ) :
    ∃ all, all = heights.take (numExp heights) ++
        inferredHeights (heights.getD (numExp heights - 1) 0) ((heights.drop (numExp heights)).sum + 1)
          (heights.drop (numExp heights)).sum ∧
      Reads (parseSlicesInTile tileIdx heights.sum)
        (uvlc (numExp heights) ++ heightBits (heights.take (numExp heights)))
        (all.map fun height => ⟨tileIdx, 1, 1, all.length, height⟩) := by
  refine ⟨_, rfl, ?_⟩
  obtain ⟨n, hn⟩ : ∃ n, n = numExp heights := ⟨_, rfl⟩
  have hn1 : 1 ≤ n := hn ▸ numExp_pos h2
  have hle : n ≤ heights.length := hn ▸ numExp_le heights
  have hlt : n < heights.sum := hn ▸ numExp_lt_sum h2 hpos
  have hlen : (heights.take n).length = n := by rw [length_take, Nat.min_eq_left hle]
  have hsplit := congrArg List.sum (take_append_drop n heights)
  rw [sum_append] at hsplit
  have hlast : (heights.take n).getD (n - 1) 0 = heights.getD (n - 1) 0 := by
    rw [getD_eq_getElem _ _ (by omega), getD_eq_getElem _ _ (by omega), getElem_take]
  have hone := getD_pos hpos (show n - 1 < heights.length by omega)
  have hbound := sum_take_succ (show n - 1 < heights.length by omega)
  rw [Nat.sub_add_cancel hn1] at hbound
  have hread := reads_expHeights (heights.take n) heights.sum
    (fun h => by rw [h, length_nil] at hlen; omega)
    (fun x hx => hpos x (mem_of_mem_take hx)) (by omega) hsum
  rw [hlen, hlast, ← hsplit, Nat.add_sub_cancel_left, hsplit] at hread
  rw [← hn, parseSlicesInTile]
  refine reads_bind (reads_uvlc (by omega)) ?_
  rw [if_neg (by omega)]
  have hcode : u32 (heights.getD (n - 1) 0 - 1 + 1) = heights.getD (n - 1) 0 := by
    rw [Nat.sub_add_cancel hone]
    exact u32_of_lt (by omega)
  refine hread.silent ?_
  dsimp only
  rw [hcode]
  exact reads_pure _

/-! ## What the reader infers -/

/-- The heights left out are the uniform one over and over, and at the end at most that. -/
def Inferable (u : ℕ) (tail : List ℕ) : Prop :=
  (∀ j < tail.length - 1, tail.getD j 0 = u) ∧ tail.getD (tail.length - 1) 0 ≤ u

theorem inferable_cons_cons {u x y : ℕ} {ys : List ℕ} :
    Inferable u (x :: y :: ys) ↔ x = u ∧ Inferable u (y :: ys) := by
  simp only [Inferable, length_cons, Nat.add_sub_cancel, getD_cons_succ]
  constructor
  · rintro ⟨hall, hlast⟩
    exact ⟨hall 0 (Nat.zero_lt_succ _), fun j hj => hall (j + 1) (Nat.succ_lt_succ hj), hlast⟩
  · rintro ⟨hx, hall, hlast⟩
    refine ⟨fun j hj => ?_, hlast⟩
    cases j with
    | zero => exact hx
    | succ j => exact hall j (Nat.lt_of_succ_lt_succ hj)

/-- What the reader infers is what was left out if and only if it is inferable. -/
theorem inferredHeights_eq_iff {u : ℕ} (hu : 1 ≤ u) : ∀ (tail : List ℕ) (rounds : ℕ),
    (∀ x ∈ tail, 1 ≤ x) → tail.sum < rounds →
    (inferredHeights u rounds tail.sum = tail ↔ Inferable u tail) := by
  intro tail
  induction tail with
  | nil =>
    intro rounds _ hrounds
    obtain ⟨rounds, rfl⟩ : ∃ r, rounds = r + 1 := ⟨rounds - 1, by omega⟩
    rw [sum_nil, inferredHeights, if_neg (by omega), if_neg (by omega)]
    simp [Inferable]
  | cons x xs ih =>
    intro rounds hpos hrounds
    obtain ⟨rounds, rfl⟩ : ∃ r, rounds = r + 1 := ⟨rounds - 1, by omega⟩
    have hx := hpos x mem_cons_self
    have hxs : ∀ y ∈ xs, 1 ≤ y := fun y hy => hpos y (mem_cons_of_mem _ hy)
    rw [sum_cons] at hrounds
    cases xs with
    | nil =>
      have hlast : Inferable u [x] ↔ x ≤ u := by simp [Inferable]
      rw [sum_singleton, inferredHeights, hlast]
      by_cases hge : x ≥ u
      · rw [if_pos hge]
        constructor
        · intro h
          obtain ⟨hhead, -⟩ := List.cons.inj h
          omega
        · intro hle
          obtain rfl : x = u := by omega
          obtain ⟨rounds, rfl⟩ : ∃ r, rounds = r + 1 := ⟨rounds - 1, by omega⟩
          rw [Nat.sub_self, inferredHeights, if_neg (by omega), if_neg (by omega)]
      · rw [if_neg hge, if_pos (show x > 0 from hx)]
        exact ⟨fun _ => by omega, fun _ => rfl⟩
    | cons y ys =>
      have hy := hxs y mem_cons_self
      have hsum : (y :: ys).sum = y + ys.sum := sum_cons
      rw [sum_cons, inferredHeights, inferable_cons_cons, ← ih rounds hxs (by omega)]
      by_cases hge : x + (y :: ys).sum ≥ u
      · rw [if_pos hge]
        constructor
        · intro h
          obtain ⟨rfl, htail⟩ := List.cons.inj h
          rw [Nat.add_sub_cancel_left] at htail
          exact ⟨rfl, htail⟩
        · rintro ⟨rfl, htail⟩
          rw [Nat.add_sub_cancel_left, htail]
      · -- one height cannot stand for two
        rw [if_neg hge, if_pos (by omega)]
        constructor
        · intro h
          have hlen := congrArg List.length h
          simp at hlen
        · rintro ⟨rfl, -⟩
          omega

/-- The heights behind the explicit ones are inferable if and only if the explicit ones
end in the run. -/
theorem inferable_drop_iff (h2 : 2 ≤ heights.length) :
    Inferable (heights.getD (numExp heights - 1) 0) (heights.drop (numExp heights)) ↔
      EndsInRun heights := by
  have hlt := equalPairs_lt (show 1 ≤ heights.length by omega)
  have hdrop : ∀ n j, (heights.drop n).getD j 0 = heights.getD (n + j) 0 := by
    intro n j
    rw [getD_eq_getElem?_getD, getD_eq_getElem?_getD, List.getElem?_drop]
  rw [numExp, EndsInRun]
  split
  · next hrise =>
    rw [drop_length]
    exact ⟨fun _ => Or.inl hrise, fun _ => ⟨fun j hj => absurd hj (Nat.not_lt_zero j), Nat.zero_le _⟩⟩
  · next hrise =>
    obtain ⟨k, hk⟩ : ∃ k, heights.length = k + 2 := ⟨heights.length - 2, by omega⟩
    obtain ⟨n, hn⟩ : ∃ n, heights.length - equalPairs heights = n + 1 :=
      ⟨heights.length - equalPairs heights - 1, by omega⟩
    rw [hn, Inferable, length_drop]
    simp only [hdrop, hk, Nat.add_sub_cancel, show k + 2 - 1 = k + 1 by omega,
      show k + 1 - equalPairs heights = n by omega] at hrise ⊢
    by_cases hlast : n = k + 1
    · -- everything is explicit
      have hout : heights.getD (n + 1 + (k + 2 - (n + 1) - 1)) 0 = 0 :=
        getD_eq_default _ _ (by omega)
      rw [hout]
      exact ⟨fun _ => Or.inr fun j hj hle => absurd hj (by omega),
        fun _ => ⟨fun j hj => absurd hj (by omega), Nat.zero_le _⟩⟩
    · rw [show n + 1 + (k + 2 - (n + 1) - 1) = k + 1 by omega]
      constructor
      · rintro ⟨hall, -⟩
        have hrun : ∀ j, n ≤ j → j ≤ k → heights.getD j 0 = heights.getD n 0 := by
          intro j hnj hjk
          obtain ⟨d, rfl⟩ := Nat.exists_eq_add_of_le hnj
          cases d with
          | zero => rfl
          | succ d =>
            rw [show n + (d + 1) = n + 1 + d by omega]
            exact hall d (by omega)
        exact Or.inr fun j hj hnj => (hrun j hnj (by omega)).trans (hrun k (by omega) (by omega)).symm
      · rintro (hlt | hall)
        · exact absurd hlt hrise
        · have hn := hall n (by omega) (by omega)
          refine ⟨fun j hj => (hall (n + 1 + j) (by omega) (by omega)).trans hn.symm, ?_⟩
          rw [hn]
          exact Nat.not_lt.mp hrise

/-! ## The round trip -/

/-- The slices of a tile come back with their number and heights if and only if the
explicit heights end in the run. -/
theorem slicesInTile_roundTrips_iff (h : TileAt pps i heights) (h2 : 2 ≤ heights.length)
    (hpos : ∀ x ∈ heights, 1 ≤ x) (hsum : heights.sum < 2 ^ 32) (tileIdx : ℕ) :
    RoundTrips True (codeSlicesInTile pps heights.sum i) (parseSlicesInTile tileIdx heights.sum)
      (fun _ slices => slices.map (·.m_sliceHeightInCtu) = heights ∧
        ∀ slice ∈ slices, slice.m_numSlicesInTile = heights.length) ↔ EndsInRun heights := by
  have hwrite := writes_slicesInTile h h2 hpos hsum
  obtain ⟨all, hall, hread⟩ := reads_slicesInTile h2 hpos hsum tileIdx
  have hheights : (all.map fun height => (⟨tileIdx, 1, 1, all.length, height⟩ : RectSlice)).map
      (·.m_sliceHeightInCtu) = all := by
    rw [map_map]
    exact map_id' all
  have hu := getD_pos hpos (show numExp heights - 1 < heights.length by
    have := numExp_le heights
    omega)
  have hinfer := inferredHeights_eq_iff hu (heights.drop (numExp heights)) _
    (fun x hx => hpos x (mem_of_mem_drop hx)) (Nat.lt_succ_self _)
  have hback : all = heights ↔ EndsInRun heights := by
    rw [← inferable_drop_iff h2, ← hinfer, hall]
    conv_lhs => rhs; rw [← take_append_drop (numExp heights) heights]
    exact append_right_inj _
  rw [← hback]
  constructor
  · intro hrt
    obtain ⟨heq, -⟩ := hrt.rel hwrite hread
    rwa [hheights] at heq
  · intro heq
    refine hwrite.roundTrips hread ⟨by rwa [hheights], ?_⟩
    intro slice hslice
    obtain ⟨height, -, rfl⟩ := mem_map.mp hslice
    exact congrArg List.length heq

/-- The slices of a tile in a picture without others. -/
def onlyTile (heights : List ℕ) : RectSlices :=
  ⟨heights.map fun height => ⟨0, 1, 1, heights.length, height⟩⟩

/-- The last two of the heights 4, 2, 2 and 1 are inferred. -/
theorem onlyTile_roundTrips :
    RoundTrips True (codeSlicesInTile (onlyTile [4, 2, 2, 1]) 9 0) (parseSlicesInTile 0 9)
      fun _ slices => slices.map (·.m_sliceHeightInCtu) = [4, 2, 2, 1] ∧
        ∀ slice ∈ slices, slice.m_numSlicesInTile = 4 :=
  (@slicesInTile_roundTrips_iff _ _ [4, 2, 2, 1] ⟨rfl, by decide⟩ (by decide) (by decide)
    (by decide) 0).mpr (by decide)

/-- Two pairs are equal in the heights 2, 2, 3 and 3, and both threes are left out: the
reader goes on with twos. -/
theorem onlyTile_not_roundTrips :
    TileAt (onlyTile [2, 2, 3, 3]) 0 [2, 2, 3, 3] ∧
    ¬RoundTrips True (codeSlicesInTile (onlyTile [2, 2, 3, 3]) 10 0) (parseSlicesInTile 0 10)
      fun _ slices => slices.map (·.m_sliceHeightInCtu) = [2, 2, 3, 3] := by
  have htile : TileAt (onlyTile [2, 2, 3, 3]) 0 [2, 2, 3, 3] := ⟨rfl, by decide⟩
  refine ⟨htile, fun h => ?_⟩
  have hwrite := writes_slicesInTile htile (by decide) (by decide) (by decide)
  obtain ⟨all, hall, hread⟩ := @reads_slicesInTile [2, 2, 3, 3] (by decide) (by decide)
    (by decide) 0
  obtain rfl : all = [2, 2, 2, 2, 2] := hall.trans (by decide)
  have hrel := h.rel hwrite hread
  exact absurd hrel (by decide)

end ECM.Hls
