import ECM.CommonLib.SecondaryTransform
import Mathlib.Algebra.BigOperators.Group.Finset.Sigma
import Mathlib.Algebra.BigOperators.Ring.Finset

/-! # The secondary transform and its inverse

Both directions move the same coefficients of the low frequencies, and use the kernel and its transpose
along the same scan. Only the straight copy of the large region goes past its last row on the way in. -/

namespace ECM.Transform.SecondaryAdjoint
open CommonLib CommonLib.Rom CommonLib.Lfnst Lib.Loop Function

/-! ## The transforms of the array -/

section
variable {k : Kernels} {finish : ℤ → ℤ} {src dst : TempMatrix} {mode index size zeroOutSize : ℕ}

theorem readTemp_ok {i : ℕ} (h : i < L16W_ZO) : readTemp src i = .ok (src i) := if_pos h

theorem writeTemp_ok {i : ℕ} (h : i < L16W_ZO) (v : ℤ) : writeTemp src i v = .ok (update src i v) := if_pos h

theorem trSize_le (size : ℕ) : trSize size ≤ L16W_ZO := by
  unfold trSize L16W_ZO L8W_ZO
  split
  · exact le_refl _
  · split <;> decide

/-- A row of the kernel applied to the first `n` entries. -/
theorem sum_ok {n : ℕ} (hn : n ≤ L16W_ZO) (c : ℕ → ℤ) :
    (loop (fun i coef => do
      let v ← readTemp src i
      return coef + v * c i) n 0 : Checked ℤ) = .ok (∑ i ∈ Finset.range n, src i * c i) := by
  obtain ⟨s, hs, heq⟩ := @loop_total _ _ n
    (fun i coef => do
      let v ← readTemp src i
      return coef + v * c i : ℕ → ℤ → Checked ℤ)
    (fun i coef => coef = ∑ i ∈ Finset.range i, src i * c i) 0 rfl (by
      intro i hi coef hcoef
      refine ⟨coef + src i * c i, ?_, ?_⟩
      · rw [readTemp_ok (by omega)]
        rfl
      · rw [hcoef, Finset.sum_range_succ])
  rw [hs, heq]

/-- The first entries are written one after the other. -/
theorem writes_ok {n start : ℕ} (hn : start + n ≤ L16W_ZO) (dst : TempMatrix) (v : ℕ → ℤ) :
    ∃ dst', (loop (fun j dst => writeTemp dst (start + j) (v j)) n dst : Checked TempMatrix) = .ok dst' ∧
      (∀ j < n, dst' (start + j) = v j) ∧ ∀ i < start, dst' i = dst i := by
  refine @loop_total _ _ n (fun j dst => writeTemp dst (start + j) (v j))
    (fun n dst' => (∀ j < n, dst' (start + j) = v j) ∧ ∀ i < start, dst' i = dst i) dst ?_ ?_
  · exact ⟨fun j hj => absurd hj (Nat.not_lt_zero j), fun _ _ => rfl⟩
  · intro n hlt t ht
    refine ⟨_, writeTemp_ok (by omega) (v n), fun j hj => ?_, fun i hi => ?_⟩
    · rcases Nat.lt_succ_iff_lt_or_eq.mp hj with hj | rfl
      · rw [update_of_ne (by omega)]
        exact ht.1 j hj
      · exact update_self ..
    · rw [update_of_ne (by omega)]
      exact ht.2 i hi

theorem fwdLfnstNxN_ok (hindex : index < 4) (hzero : zeroOutSize ≤ trSize size) :
    ∃ out, fwdLfnstNxN k finish src dst mode index size zeroOutSize = .ok out ∧
      ∀ j < trSize size, out j = if j < zeroOutSize then
        finish (∑ i ∈ Finset.range (trSize size), src i * k.trMat mode index size j i) else 0 := by
  have hsize := trSize_le size
  unfold fwdLfnstNxN
  dsimp only
  rw [check_ok _ (by omega), ok_bind]
  obtain ⟨out, hout, hrows, -⟩ := @writes_ok zeroOutSize 0 (by omega) dst
    (fun j => finish (∑ i ∈ Finset.range (trSize size), src i * k.trMat mode index size j i))
  obtain ⟨out', hout', hzeros, hkept⟩ := @writes_ok (trSize size - zeroOutSize) zeroOutSize (by omega) out (fun _ => 0)
  simp only [Nat.zero_add] at hout hrows
  simp only [sum_ok hsize]
  refine ⟨out', ?_, fun j hj => ?_⟩
  · exact (congrArg (· >>= _) hout).trans hout'
  · by_cases hlt : j < zeroOutSize
    · rw [if_pos hlt, hkept j hlt, hrows j hlt]
    · rw [if_neg hlt]
      have hj' := hzeros (j - zeroOutSize) (by omega)
      rwa [Nat.add_sub_cancel' (by omega)] at hj'

theorem invLfnstNxN_ok (hindex : index < 4) (hzero : zeroOutSize ≤ trSize size) :
    ∃ out, invLfnstNxN k finish src dst mode index size zeroOutSize = .ok out ∧
      ∀ j < trSize size, out j =
        finish (∑ i ∈ Finset.range zeroOutSize, src i * k.trMat mode index size i j) := by
  have hsize := trSize_le size
  unfold invLfnstNxN
  dsimp only
  rw [check_ok _ (by omega), ok_bind]
  obtain ⟨out, hout, hrows, -⟩ := @writes_ok (trSize size) 0 (by omega) dst
    (fun j => finish (∑ i ∈ Finset.range zeroOutSize, src i * k.trMat mode index size i j))
  simp only [Nat.zero_add] at hout hrows
  simp only [sum_ok (hzero.trans hsize)]
  exact ⟨out, hout, hrows⟩

end

/-! ## Packing -/

/-- The three regions. -/
def IsSbSize (sbSize : ℕ) : Prop := sbSize = 4 ∨ sbSize = 8 ∨ sbSize = 16

/-- The last part of the inverse takes each entry of the array once. -/
theorem xInvLfnstMoves_temp {sbSize : ℕ} (h : IsSbSize sbSize) (transposeFlag : Bool) :
    ((xInvLfnstMoves sbSize transposeFlag).map Move.temp).Perm (List.range (trSize sbSize)) := by
  rcases h with rfl | rfl | rfl <;> cases transposeFlag <;> decide +kernel

theorem nodup_of_increasing {moves : List Move} (h : (moves.map fun m => m.y * 16 + m.x).IsChain (· < ·)) :
    (moves.map fun m => (m.y, m.x)).Nodup := by
  refine List.Nodup.of_map (fun p => p.1 * 16 + p.2) ?_
  rw [List.map_map]
  exact (List.isChain_iff_pairwise.mp h).imp Nat.ne_of_lt

/-- It goes to different places of the region. -/
theorem xInvLfnstMoves_cells {sbSize : ℕ} (h : IsSbSize sbSize) (transposeFlag : Bool) :
    ((xInvLfnstMoves sbSize transposeFlag).map fun m => (m.y, m.x)).Nodup ∧
      ∀ m ∈ xInvLfnstMoves sbSize transposeFlag, m.x < sbSize := by
  rcases h with rfl | rfl | rfl <;> cases transposeFlag <;>
    exact ⟨nodup_of_increasing (by decide +kernel), by decide +kernel⟩

/-- The first part of the forward transform is the same, but for the straight copy of the large region. -/
theorem xFwdLfnstMoves_eq {sbSize : ℕ} (h : IsSbSize sbSize) {transposeFlag : Bool}
    (hfit : sbSize = 16 → transposeFlag = true) :
    xFwdLfnstMoves sbSize transposeFlag = xInvLfnstMoves sbSize transposeFlag := by
  rcases h with rfl | rfl | rfl
  · cases transposeFlag <;> rfl
  · cases transposeFlag <;> rfl
  · rw [hfit rfl]
    rfl

/-- That copy writes behind the array. -/
theorem xFwdLfnstMoves_behind : ∃ m ∈ xFwdLfnstMoves 16 false, L16W_ZO ≤ m.temp := by
  decide +kernel

/-! ## The scan -/

/-- The line and the column of a position of the scan of the large region. -/
def cell16 (i : ℕ) : ℕ × ℕ :=
  ((g_auiXYDiagScan8x8.getD (i % 64) (0, 0)).2, (g_auiXYDiagScan8x8.getD (i % 64) (0, 0)).1 + i / 64 * 8)

theorem cell16_lt : ∀ i < 96, (cell16 i).2 < 16 := by
  decide +kernel

/-- The place of a cell in the scan: groups from the left, and diagonals from below in each of them. -/
def scanPlace (cell : ℕ × ℕ) : ℕ :=
  let x := cell.2 % 4
  let d := cell.1 % 4 + x
  cell.2 / 4 * 32 + cell.1 / 4 * 16 + if d < 4 then d * (d + 1) / 2 + x else x + 19 - d - (7 - d) * (8 - d) / 2

theorem scanPlace_cell16 : ∀ i < 96, scanPlace (cell16 i) = i := by
  decide +kernel

theorem cell16_inj {i j : ℕ} (hi : i < 96) (hj : j < 96) (h : cell16 i = cell16 j) : i = j := by
  rw [← scanPlace_cell16 i hi, h, scanPlace_cell16 j hj]

theorem coefTopLeftDiagScan16x16_eq {w i : ℕ} (hi : i < 96) :
    coefTopLeftDiagScan16x16 w i = (cell16 i).1 * w + (cell16 i).2 := by
  unfold coefTopLeftDiagScan16x16 cell16
  dsimp only
  rw [Nat.div_eq_of_lt (by omega : i < 128), Nat.mod_eq_of_lt (by omega : i / 64 < 2)]
  ring

theorem coefTopLeftDiagScan8x8_eq {w i : ℕ} (hi : i < 64) :
    coefTopLeftDiagScan8x8 w i = (cell16 i).1 * w + (cell16 i).2 := by
  unfold coefTopLeftDiagScan8x8 cell16
  rw [Nat.mod_eq_of_lt hi, Nat.div_eq_of_lt hi]
  ring

theorem cell8_lt : ∀ i < 64, (cell16 i).2 < 8 := by
  decide +kernel

section
variable (u : LfnstUnit)

theorem sbSize_cases :
    u.sbSize = 16 ∧ u.whge4 = true ∧ 16 ≤ u.block.width ∧ u.zeroOutSize = 32 ∧ u.numLfnstCoeff = 32 ∨
    u.sbSize = 8 ∧ u.whge4 = false ∧ u.whge3 = true ∧ 8 ≤ u.block.width ∧ u.zeroOutSize ≤ 32 ∧
      u.numLfnstCoeff = 32 ∨
    u.sbSize = 4 ∧ u.whge4 = false ∧ u.whge3 = false ∧ 4 ≤ u.block.width ∧ u.zeroOutSize = 16 ∧
      u.numLfnstCoeff = 16 := by
  have hwidth : 4 ≤ u.block.width := Nat.pow_le_pow_right (by decide : 0 < 2) u.two_le_width
  unfold LfnstUnit.sbSize LfnstUnit.zeroOutSize LfnstUnit.numLfnstCoeff getLFNSTMatrixDim
  cases h4 : u.whge4 with
  | true =>
    have hle : 16 ≤ u.block.width ∧ 16 ≤ u.block.height := by simpa [LfnstUnit.whge4, getUseLFNST16] using h4
    left
    simp [hle.1, hle.2, L16H]
  | false =>
    have hlt : ¬(16 ≤ u.block.width ∧ 16 ≤ u.block.height) := by
      simpa [LfnstUnit.whge4, getUseLFNST16] using h4
    right
    cases h3 : u.whge3 with
    | true =>
      have hle : 8 ≤ u.block.width ∧ 8 ≤ u.block.height := by simpa [LfnstUnit.whge3, getUseLFNST8] using h3
      left
      simp only [Bool.and_eq_true, decide_eq_true_eq, ge_iff_le, if_neg hlt, if_pos hle]
      refine ⟨rfl, trivial, trivial, hle.1, ?_, rfl⟩
      split <;> omega
    | false =>
      have hlt' : ¬(8 ≤ u.block.width ∧ 8 ≤ u.block.height) := by
        simpa [LfnstUnit.whge3, getUseLFNST8] using h3
      right
      simp only [Bool.and_eq_true, decide_eq_true_eq, ge_iff_le, if_neg hlt, if_neg hlt']
      refine ⟨rfl, trivial, trivial, hwidth, ?_, rfl⟩
      split <;> omega

theorem isSbSize : IsSbSize u.sbSize := by
  rcases sbSize_cases u with h | h | h
  · exact .inr (.inr h.1)
  · exact .inr (.inl h.1)
  · exact .inl h.1

theorem sbSize_le_width : u.sbSize ≤ u.block.width := by
  rcases sbSize_cases u with h | h | h <;> omega

theorem lfnstCoeffNum_eq : u.lfnstCoeffNum = trSize u.sbSize := rfl

theorem zeroOutSize_le : u.zeroOutSize ≤ u.numLfnstCoeff ∧ u.numLfnstCoeff ≤ u.lfnstCoeffNum := by
  rw [lfnstCoeffNum_eq]
  rcases sbSize_cases u with h | h | h
  · rw [h.1, h.2.2.2.1, h.2.2.2.2]
    decide
  · rw [h.1, h.2.2.2.2.2]
    exact ⟨h.2.2.2.2.1, by decide⟩
  · rw [h.1, h.2.2.2.2.1, h.2.2.2.2.2]
    decide

/-- The scan positions that are written are different ones. -/
theorem scanIdx_inj {i j : ℕ} (hi : i < u.lfnstCoeffNum) (hj : j < u.lfnstCoeffNum)
    (h : u.scanIdx i = u.scanIdx j) : i = j := by
  rw [lfnstCoeffNum_eq] at hi hj
  unfold LfnstUnit.scanIdx at h
  rcases sbSize_cases u with hu | hu | hu
  · rw [hu.1] at hi hj
    change i < 96 at hi
    change j < 96 at hj
    rw [hu.2.1, if_pos rfl, if_pos rfl, coefTopLeftDiagScan16x16_eq hi, coefTopLeftDiagScan16x16_eq hj] at h
    obtain ⟨hline, hcolumn⟩ := raster_inj ((cell16_lt i hi).trans_le hu.2.2.1) ((cell16_lt j hj).trans_le hu.2.2.1) h
    exact cell16_inj hi hj (Prod.ext hline hcolumn)
  · rw [hu.1] at hi hj
    change i < 64 at hi
    change j < 64 at hj
    rw [hu.2.1, hu.2.2.1, if_neg Bool.false_ne_true, if_pos rfl, if_neg Bool.false_ne_true, if_pos rfl,
      coefTopLeftDiagScan8x8_eq hi, coefTopLeftDiagScan8x8_eq hj] at h
    obtain ⟨hline, hcolumn⟩ := raster_inj ((cell8_lt i hi).trans_le hu.2.2.2.1) ((cell8_lt j hj).trans_le hu.2.2.2.1) h
    exact cell16_inj (by omega) (by omega) (Prod.ext hline hcolumn)
  · rw [hu.1] at hi hj
    change i < 16 at hi
    change j < 16 at hj
    rw [hu.2.1, hu.2.2.1, if_neg Bool.false_ne_true, if_neg Bool.false_ne_true, if_neg Bool.false_ne_true,
      if_neg Bool.false_ne_true] at h
    have hheight : 4 ≤ u.block.height := Nat.pow_le_pow_right (by decide : 0 < 2) u.two_le_height
    have harea := Nat.mul_le_mul hu.2.2.2.1 hheight
    exact u.block.scanGrouped_idx_inj (by omega) (by omega) h

/-- The places of the region are different ones. -/
theorem xInvLfnstMoves_idx (transposeFlag : Bool) :
    ((xInvLfnstMoves u.sbSize transposeFlag).map fun m => m.idx u.block.width).Nodup := by
  obtain ⟨hnodup, hlt⟩ := xInvLfnstMoves_cells (isSbSize u) transposeFlag
  rw [List.nodup_map_iff_inj_on hnodup.of_map]
  intro m hm m' hm' h
  have hwidth := sbSize_le_width u
  obtain ⟨hy, hx⟩ := raster_inj ((hlt m hm).trans_le hwidth) ((hlt m' hm').trans_le hwidth) h
  exact List.inj_on_of_nodup_map hnodup hm hm' (Prod.ext hy hx)

end

/-! ## The two directions -/

section
variable (u : LfnstUnit)

/-- The direction of the copies: modes above the diagonal are transposed. -/
theorem getLFNSTIntraMode_ok : ∃ intraMode mode, getLFNSTIntraMode u.wideAngPredMode = .ok intraMode ∧
    readAt g_lfnstLut intraMode.toNat = .ok mode ∧
    getTransposeFlag intraMode = decide (DIA_IDX < u.wideAngPredMode) := by
  have hlow := u.wideAngPredMode_ge
  have hhigh := u.wideAngPredMode_le
  generalize u.wideAngPredMode = w at hlow hhigh ⊢
  have htable : ∀ intraMode : ℤ, 0 ≤ intraMode → intraMode < 97 →
      ∃ mode, readAt g_lfnstLut intraMode.toNat = .ok mode := fun intraMode h h' =>
    ⟨_, readAt_ok (List.getElem?_eq_getElem (by
      rw [show g_lfnstLut.length = 97 from rfl]
      omega))⟩
  have hluma : (NUM_LUMA_MODE : ℤ) = 67 := rfl
  have hdia : (DIA_IDX : ℤ) = 34 := rfl
  unfold getLFNSTIntraMode getTransposeFlag NUM_LFNST_INTRA_MODES NUM_EXT_LUMA_MODE
  rw [hluma, hdia]
  dsimp only
  by_cases hneg : w < 0
  · obtain ⟨mode, hmode⟩ := htable (w + 30 / 2 + 67) (by omega) (by omega)
    rw [if_pos hneg, check_ok _ (by omega)]
    exact ⟨_, mode, rfl, hmode, by grind⟩
  · rw [if_neg hneg]
    by_cases hwide : w ≥ 67
    · obtain ⟨mode, hmode⟩ := htable (w + 30 / 2) (by omega) (by omega)
      rw [if_pos hwide, check_ok _ (by omega)]
      exact ⟨_, mode, rfl, hmode, by grind⟩
    · obtain ⟨mode, hmode⟩ := htable w (by omega) (by omega)
      rw [if_neg hwide, check_ok _ (by omega)]
      exact ⟨_, mode, rfl, hmode, by grind⟩

/-- The block is at least 16x16 only with a transposed mode. -/
def Fits : Prop := u.whge4 = true → DIA_IDX < u.wideAngPredMode

/-- The transposed flag of the unit. -/
def transposed : Bool := decide (DIA_IDX < u.wideAngPredMode)

variable {u}

theorem Fits.moves_eq (h : Fits u) :
    xFwdLfnstMoves u.sbSize (transposed u) = xInvLfnstMoves u.sbSize (transposed u) := by
  refine xFwdLfnstMoves_eq (isSbSize u) fun hsize => ?_
  rcases sbSize_cases u with hu | hu | hu
  · exact decide_eq_true (h hu.2.1)
  · omega
  · omega

/-- The kernel of a unit, one for both directions. -/
theorem exists_kernel (u : LfnstUnit) (k : Kernels) : ∃ trMat : ℕ → ℕ → ℤ,
    (∀ finish tempIn tempOut x, Fits u → ∃ packed result : ℕ → ℤ, u.xFwdLfnst k finish tempIn tempOut x = .ok result ∧
      (∀ m ∈ xInvLfnstMoves u.sbSize (transposed u), packed m.temp = x (m.idx u.block.width)) ∧
      ∀ n < u.lfnstCoeffNum, result (u.scanIdx n) = if n < u.zeroOutSize then
        finish (∑ i ∈ Finset.range u.lfnstCoeffNum, packed i * trMat n i) else 0) ∧
    ∀ finish tempIn tempOut y, ∃ result : ℕ → ℤ, u.xInvLfnst k finish tempIn tempOut y = .ok result ∧
      ∀ m ∈ xInvLfnstMoves u.sbSize (transposed u), result (m.idx u.block.width) =
        finish (∑ i ∈ Finset.range u.zeroOutSize, y (u.scanIdx i) * trMat i m.temp) := by
  obtain ⟨intraMode, mode, hintra, hmode, hflag⟩ := getLFNSTIntraMode_ok u
  obtain ⟨hzero, hread⟩ := zeroOutSize_le u
  have hsize := trSize_le u.sbSize
  have htemp := xInvLfnstMoves_temp (isSbSize u) (transposed u)
  have hmem : ∀ m ∈ xInvLfnstMoves u.sbSize (transposed u), m.temp < trSize u.sbSize := fun m hm =>
    List.mem_range.mp (htemp.subset (List.mem_map_of_mem hm))
  have hindex : u.lfnstIdx - 1 < 4 := by
    have := u.lfnstIdx_lt
    omega
  refine ⟨k.trMat mode (u.lfnstIdx - 1) u.sbSize, fun finish tempIn tempOut x hfits => ?_,
    fun finish tempIn tempOut y => ?_⟩
  · have hpack := @foldlM_ok _ _ _
      (fun lfnstTemp (m : Move) => writeTemp lfnstTemp m.temp (x (m.idx u.block.width)))
      (xInvLfnstMoves u.sbSize (transposed u))
      (fun lfnstTemp m => update lfnstTemp m.temp (x (m.idx u.block.width)))
      (fun m hm lfnstTemp => writeTemp_ok ((hmem m hm).trans_le hsize) _) tempIn
    have hpacked : ∀ m ∈ xInvLfnstMoves u.sbSize (transposed u), _ = x (m.idx u.block.width) := fun m hm =>
      @foldl_assign_of_mem _ _ _ _ Move.temp (fun m => x (m.idx u.block.width)) _ m tempIn
        (htemp.nodup_iff.mpr List.nodup_range) hm
    generalize (xInvLfnstMoves u.sbSize (transposed u)).foldl
      (fun lfnstTemp m => update lfnstTemp m.temp (x (m.idx u.block.width))) tempIn = packed
      at hpack hpacked
    obtain ⟨out, hout, hrows⟩ := @fwdLfnstNxN_ok k finish packed tempOut mode (u.lfnstIdx - 1) u.sbSize u.zeroOutSize
      hindex (hzero.trans hread)
    obtain ⟨result, hresult, hwritten⟩ := @loop_total _ _ u.lfnstCoeffNum
      (fun y (coeffTemp : ℕ → ℤ) => do
        let v ← readTemp out y
        return update coeffTemp (u.scanIdx y) v : ℕ → (ℕ → ℤ) → Checked (ℕ → ℤ))
      (fun y coeffTemp => ∀ n < y, coeffTemp (u.scanIdx n) = out n) x
      (fun n hn => absurd hn (Nat.not_lt_zero n)) (by
        intro y hy coeffTemp hbefore
        refine ⟨update coeffTemp (u.scanIdx y) (out y), ?_, fun n hn => ?_⟩
        · rw [readTemp_ok (hy.trans_le hsize)]
          rfl
        · rcases Nat.lt_succ_iff_lt_or_eq.mp hn with hlt | rfl
          · rw [update_of_ne fun heq => hlt.ne (scanIdx_inj u (hlt.trans hy) hy heq)]
            exact hbefore n hlt
          · exact update_self ..)
    refine ⟨packed, result, ?_, hpacked, fun n hn => ?_⟩
    · unfold LfnstUnit.xFwdLfnst
      rw [hintra, ok_bind]
      dsimp only
      rw [hflag, show decide (DIA_IDX < u.wideAngPredMode) = transposed u from rfl, hfits.moves_eq, hpack, ok_bind,
        hmode, ok_bind, hout, ok_bind, hresult]
    · rw [hwritten n hn, hrows n hn]
      rfl
  · obtain ⟨packed, hpack, hpacked, -⟩ := @writes_ok u.numLfnstCoeff 0
      (by rw [Nat.zero_add]; exact hread.trans hsize) tempIn (fun n => y (u.scanIdx n))
    simp only [Nat.zero_add] at hpack hpacked
    obtain ⟨out, hout, hrows⟩ := @invLfnstNxN_ok k finish packed tempOut mode (u.lfnstIdx - 1) u.sbSize u.zeroOutSize
      hindex (hzero.trans hread)
    have hresult := @foldlM_ok _ _ _
      (fun (coeffTemp : ℕ → ℤ) (m : Move) => do
        let v ← readTemp out m.temp
        return update coeffTemp (m.idx u.block.width) v : (ℕ → ℤ) → Move → Checked (ℕ → ℤ))
      (xInvLfnstMoves u.sbSize (transposed u))
      (fun coeffTemp m => update coeffTemp (m.idx u.block.width) (out m.temp))
      (fun m hm coeffTemp => by rw [readTemp_ok ((hmem m hm).trans_le hsize)]; rfl) y
    refine ⟨(xInvLfnstMoves u.sbSize (transposed u)).foldl
      (fun coeffTemp m => update coeffTemp (m.idx u.block.width) (out m.temp)) y, ?_, fun m hm => ?_⟩
    · unfold LfnstUnit.xInvLfnst
      rw [hintra, ok_bind]
      dsimp only
      rw [hpack, ok_bind, hmode, ok_bind, hout, ok_bind, hflag,
        show decide (DIA_IDX < u.wideAngPredMode) = transposed u from rfl, hresult]
    · rw [@foldl_assign_of_mem _ _ _ _ (fun m : Move => m.idx u.block.width) (fun m => out m.temp) _ m y
        (xInvLfnstMoves_idx u (transposed u)) hm, hrows _ (hmem m hm)]
      refine congrArg finish (Finset.sum_congr rfl fun i hi => ?_)
      rw [hpacked i ((Finset.mem_range.mp hi).trans_le hzero)]

end

/-! ## Together -/

section
variable (u : LfnstUnit)

/-- The scan positions that the forward transform writes. -/
def fwdScanPositions : Finset ℕ := (Finset.range u.lfnstCoeffNum).image u.scanIdx

/-- The scan positions that the inverse transform reads. -/
def invScanPositions : Finset ℕ := (Finset.range u.numLfnstCoeff).image u.scanIdx

/-- The block positions that the forward transform reads. -/
def fwdBlockPositions : Finset ℕ :=
  ((xFwdLfnstMoves u.sbSize (transposed u)).map fun m => m.idx u.block.width).toFinset

/-- The block positions that the inverse transform writes. -/
def invBlockPositions : Finset ℕ :=
  ((xInvLfnstMoves u.sbSize (transposed u)).map fun m => m.idx u.block.width).toFinset

/-- No index leaves the arrays, whatever the rounding and the rest of the arrays; the inverse covers the
positions of the forward transform; and without the rounding the two are adjoint. -/
structure FitTogether (k : Kernels) : Prop where
  inside : ∀ finish tempIn tempOut x, (∃ result, u.xFwdLfnst k finish tempIn tempOut x = .ok result) ∧
    ∃ result, u.xInvLfnst k finish tempIn tempOut x = .ok result
  scan : ∀ finish tempIn tempOut x result, u.xFwdLfnst k finish tempIn tempOut x = .ok result →
    ∀ p ∈ fwdScanPositions u, result p ≠ 0 → p ∈ invScanPositions u
  block : fwdBlockPositions u ⊆ invBlockPositions u
  adjoint : ∀ tempIn tempOut tempIn' tempOut' x y fwdX invY, u.xFwdLfnst k id tempIn tempOut x = .ok fwdX →
    u.xInvLfnst k id tempIn' tempOut' y = .ok invY →
    ∑ p ∈ fwdScanPositions u, y p * fwdX p = ∑ p ∈ invBlockPositions u, x p * invY p

variable {u}

/-- A sum over the positions of the region, entry by entry of the array. -/
theorem sum_invBlockPositions {x packed : ℕ → ℤ} (f : ℕ → ℤ) {g : ℕ → ℤ}
    (hpacked : ∀ m ∈ xInvLfnstMoves u.sbSize (transposed u), packed m.temp = x (m.idx u.block.width))
    (hg : ∀ m ∈ xInvLfnstMoves u.sbSize (transposed u), g (m.idx u.block.width) = f m.temp) :
    ∑ p ∈ invBlockPositions u, x p * g p = ∑ i ∈ Finset.range u.lfnstCoeffNum, packed i * f i := by
  have htemp := xInvLfnstMoves_temp (isSbSize u) (transposed u)
  rw [invBlockPositions, List.sum_toFinset _ (xInvLfnstMoves_idx u (transposed u)), List.map_map, lfnstCoeffNum_eq]
  change _ = ((List.range (trSize u.sbSize)).map fun i => packed i * f i).sum
  rw [← (htemp.map fun i => packed i * f i).sum_eq, List.map_map]
  refine congrArg List.sum (List.map_congr_left fun m hm => ?_)
  change x (m.idx u.block.width) * g (m.idx u.block.width) = packed m.temp * f m.temp
  rw [hpacked m hm, hg m hm]

theorem fitTogether_of_fits (h : Fits u) (k : Kernels) : FitTogether u k := by
  obtain ⟨trMat, hfwd, hinv⟩ := exists_kernel u k
  obtain ⟨hzero, hread⟩ := zeroOutSize_le u
  refine ⟨fun finish tempIn tempOut x => ?_, fun finish tempIn tempOut x result hrun p hp hne => ?_, ?_,
    fun tempIn tempOut tempIn' tempOut' x y fwdX invY hrun hrun' => ?_⟩
  · obtain ⟨packed, result, hrun, -⟩ := hfwd finish tempIn tempOut x h
    obtain ⟨result', hrun', -⟩ := hinv finish tempIn tempOut x
    exact ⟨⟨result, hrun⟩, ⟨result', hrun'⟩⟩
  · obtain ⟨packed, result', hrun', -, hrows⟩ := hfwd finish tempIn tempOut x h
    obtain rfl := Except.ok.inj (hrun.symm.trans hrun')
    obtain ⟨n, hn, rfl⟩ := Finset.mem_image.mp hp
    rw [hrows n (Finset.mem_range.mp hn)] at hne
    by_cases hlt : n < u.zeroOutSize
    · exact Finset.mem_image_of_mem _ (Finset.mem_range.mpr (hlt.trans_le hzero))
    · exact absurd (if_neg hlt) hne
  · rw [fwdBlockPositions, h.moves_eq]
    exact Finset.Subset.refl _
  · obtain ⟨packed, result, hfx, hpacked, hrows⟩ := hfwd id tempIn tempOut x h
    obtain ⟨result', hiy, hplaces⟩ := hinv id tempIn' tempOut' y
    obtain rfl := Except.ok.inj (hrun.symm.trans hfx)
    obtain rfl := Except.ok.inj (hrun'.symm.trans hiy)
    rw [sum_invBlockPositions (fun t => ∑ i ∈ Finset.range u.zeroOutSize, y (u.scanIdx i) * trMat i t) hpacked hplaces]
    have hscan : ∑ p ∈ fwdScanPositions u, y p * fwdX p =
        ∑ n ∈ Finset.range u.lfnstCoeffNum, y (u.scanIdx n) * fwdX (u.scanIdx n) :=
      Finset.sum_image fun i hi j hj heq =>
        scanIdx_inj u (Finset.mem_range.mp hi) (Finset.mem_range.mp hj) heq
    have hkept : ∑ n ∈ Finset.range u.lfnstCoeffNum, y (u.scanIdx n) * fwdX (u.scanIdx n) =
        ∑ n ∈ Finset.range u.zeroOutSize,
          y (u.scanIdx n) * ∑ i ∈ Finset.range u.lfnstCoeffNum, packed i * trMat n i := by
      symm
      refine Finset.sum_subset_zero_on_sdiff (Finset.range_mono (hzero.trans hread)) (fun n hn => ?_)
        (fun n hn => ?_)
      · obtain ⟨hn, hout⟩ := Finset.mem_sdiff.mp hn
        rw [hrows n (Finset.mem_range.mp hn), if_neg fun hlt => hout (Finset.mem_range.mpr hlt), mul_zero]
      · have hlt := Finset.mem_range.mp hn
        rw [hrows n (hlt.trans_le (hzero.trans hread)), if_pos hlt]
        rfl
    rw [hscan, hkept]
    simp only [Finset.mul_sum]
    rw [Finset.sum_comm]
    exact Finset.sum_congr rfl fun i _ => Finset.sum_congr rfl fun n _ => by ring

/-- A large region that is not transposed is copied behind the array. -/
theorem xFwdLfnst_error (h : ¬Fits u) (k : Kernels) (finish : ℤ → ℤ) (tempIn tempOut : TempMatrix) (x : ℕ → ℤ) :
    ∃ e, u.xFwdLfnst k finish tempIn tempOut x = .error e := by
  obtain ⟨hlarge, hmode⟩ := Classical.not_imp.mp h
  obtain ⟨intraMode, mode, hintra, -, hflag⟩ := getLFNSTIntraMode_ok u
  have hsize : u.sbSize = 16 := by
    unfold LfnstUnit.sbSize
    rw [hlarge]
    rfl
  obtain ⟨m, hm, hbehind⟩ := xFwdLfnstMoves_behind
  obtain ⟨e, he⟩ := @foldlM_error _ _ _
    (fun lfnstTemp (m : Move) => writeTemp lfnstTemp m.temp (x (m.idx u.block.width))) _ m hm
    (fun s => ⟨outOfRange, if_neg (not_lt.mpr hbehind)⟩) tempIn
  refine ⟨e, ?_⟩
  unfold LfnstUnit.xFwdLfnst
  rw [hintra, ok_bind]
  dsimp only
  rw [hflag, decide_eq_false hmode, hsize, he]
  rfl

/-- The secondary transform and its inverse fit together if and only if the block is smaller than 16x16 or its
mode is transposed. -/
theorem lfnst_fitTogether_iff (u : LfnstUnit) (k : Kernels) :
    FitTogether u k ↔ (u.whge4 = true → DIA_IDX < u.wideAngPredMode) := by
  refine ⟨fun h => ?_, fun h => fitTogether_of_fits h k⟩
  by_contra hfits
  obtain ⟨e, he⟩ := xFwdLfnst_error hfits k id (fun _ => 0) (fun _ => 0) (fun _ => 0)
  obtain ⟨⟨result, hrun⟩, -⟩ := h.inside id (fun _ => 0) (fun _ => 0) (fun _ => 0)
  rw [he] at hrun
  cases hrun

/-- A block of 16x16 in planar mode. -/
def planarUnit : LfnstUnit where
  block := ⟨4, 4, by decide, by decide⟩
  two_le_width := by decide
  two_le_height := by decide
  lfnstIdx := 1
  lfnstIdx_pos := by decide
  lfnstIdx_lt := by decide
  wideAngPredMode := 0
  wideAngPredMode_ge := by decide
  wideAngPredMode_le := by decide

/-- Kernels that keep the packed coefficients. -/
def identityKernels : Kernels where
  g_lfnst16x16 := fun _ _ j i => if i = j then 1 else 0
  g_lfnst8x8 := fun _ _ j i => if i = j then 1 else 0
  g_lfnst4x4 := fun _ _ j i => if i = j then 1 else 0

theorem planarUnit_behind :
    (∃ e, planarUnit.xFwdLfnst identityKernels id (fun _ => 0) (fun _ => 0) (fun _ => 0) = .error e) ∧
    ¬fwdBlockPositions planarUnit ⊆ invBlockPositions planarUnit ∧ ¬FitTogether planarUnit identityKernels := by
  have hfits : ¬Fits planarUnit := fun h => absurd (h (by decide)) (by decide)
  have herror := xFwdLfnst_error hfits identityKernels id (fun _ => 0) (fun _ => 0) (fun _ => 0)
  have hwritten : 192 ∈ fwdBlockPositions planarUnit := List.mem_toFinset.mpr (by decide +kernel)
  refine ⟨herror, fun h => absurd (List.mem_toFinset.mp (h hwritten)) (by decide +kernel), fun h => ?_⟩
  obtain ⟨e, he⟩ := herror
  obtain ⟨⟨result, hrun⟩, -⟩ := h.inside id (fun _ => 0) (fun _ => 0) (fun _ => 0)
  rw [he] at hrun
  cases hrun

end

end ECM.Transform.SecondaryAdjoint
