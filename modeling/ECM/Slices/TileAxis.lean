import ECM.CommonLib.PictureTiles
import Mathlib.Algebra.Order.BigOperators.Group.List

/-! # The tiles of one direction

What `initTiles` leaves divides the CTUs of one direction: the boundaries go up strictly
from zero to the size of the picture, and the map has the tile of each CTU. -/

namespace ECM.CommonLib.TileAxis
open Lib.Loop

variable {a : TileAxis} {n i j x : ℕ} {sizes : List ℕ}

def bd (a : TileAxis) (i : ℕ) : ℕ := a.m_tileBd.getD i 0

/-- The tables divide the CTUs below `n`. -/
structure Divides (a : TileAxis) (n : ℕ) : Prop where
  length : a.m_tileBd.length = a.numTiles + 1
  zero : a.bd 0 = 0
  last : a.bd a.numTiles = n
  step : ∀ i < a.numTiles, a.bd (i + 1) = a.bd i + a.m_tileSize.getD i 0 ∧ a.bd i < a.bd (i + 1)
  tile : ∀ x ≤ n, ∃ i ≤ a.numTiles, a.m_ctuToTile[x]? = some i ∧ a.bd i ≤ x ∧
    (i < a.numTiles → x < a.bd (i + 1))
  length_map : a.m_ctuToTile.length = n + 1

namespace Divides

theorem getElem?_bd (h : Divides a n) (hi : i ≤ a.numTiles) : a.m_tileBd[i]? = some (a.bd i) := by
  have hlen : i < a.m_tileBd.length := by rw [h.length]; omega
  rw [bd, List.getD_eq_getElem?_getD, List.getElem?_eq_getElem hlen]
  rfl

theorem bd_lt (h : Divides a n) (hij : i < j) (hj : j ≤ a.numTiles) : a.bd i < a.bd j := by
  induction j, hij using Nat.le_induction with
  | base => exact (h.step i (by omega)).2
  | succ j hij ih => exact (ih (by omega)).trans (h.step j (by omega)).2

theorem bd_le (h : Divides a n) (hij : i ≤ j) (hj : j ≤ a.numTiles) : a.bd i ≤ a.bd j := by
  rcases hij.eq_or_lt with rfl | hlt
  · exact Nat.le_refl _
  · exact (h.bd_lt hlt hj).le

theorem bd_le_size (h : Divides a n) (hi : i ≤ a.numTiles) : a.bd i ≤ n :=
  (h.bd_le hi (Nat.le_refl _)).trans h.last.le

theorem bd_inj (h : Divides a n) (hi : i ≤ a.numTiles) (hj : j ≤ a.numTiles) (heq : a.bd i = a.bd j) :
    i = j := by
  rcases Nat.lt_trichotomy i j with hlt | heq' | hgt
  · exact absurd heq (h.bd_lt hlt hj).ne
  · exact heq'
  · exact absurd heq (h.bd_lt hgt hi).ne'

/-- Each tile has a CTU. -/
theorem numTiles_le (h : Divides a n) : a.numTiles ≤ n := by
  have hle : ∀ i ≤ a.numTiles, i ≤ a.bd i := by
    intro i
    induction i with
    | zero => exact fun _ => Nat.zero_le _
    | succ i ih =>
      intro hi
      have hprev := ih (by omega)
      have hlt := (h.step i hi).2
      omega
  exact (hle _ (Nat.le_refl _)).trans h.last.le

/-- A CTU between two boundaries is of the tile between them. -/
theorem tile_of (h : Divides a n) (hi : i < a.numTiles) (hlo : a.bd i ≤ x) (hhi : x < a.bd (i + 1)) :
    a.m_ctuToTile[x]? = some i := by
  obtain ⟨j, hj, hget, hbd, hnext⟩ := h.tile x ((hhi.le).trans (h.bd_le_size hi))
  rw [hget]
  rcases Nat.lt_trichotomy i j with hlt | rfl | hgt
  · have hle : a.bd (i + 1) ≤ a.bd j := h.bd_le hlt hj
    omega
  · rfl
  · have hle : a.bd (j + 1) ≤ a.bd i := h.bd_le hgt hi.le
    have hlt := hnext (hgt.trans hi)
    omega

theorem getTileBd_ok (h : Divides a n) (hi : i ≤ a.numTiles) (exceeds : String) :
    a.getTileBd exceeds i = .ok (a.bd i) := by
  rw [getTileBd, h.getElem?_bd hi]
  rfl

theorem getTileBd_eq_ok (h : Divides a n) {exceeds : String} {v : ℕ} (hv : a.getTileBd exceeds i = .ok v) :
    i ≤ a.numTiles ∧ v = a.bd i := by
  by_cases hi : i ≤ a.numTiles
  · rw [h.getTileBd_ok hi] at hv
    cases hv
    exact ⟨hi, rfl⟩
  · rw [getTileBd, List.getElem?_eq_none (by rw [h.length]; omega)] at hv
    cases hv

theorem ctuToTile_ok (h : Divides a n) (hi : i < a.numTiles) (hlo : a.bd i ≤ x) (hhi : x < a.bd (i + 1)) :
    a.ctuToTile x = .ok i := by
  rw [ctuToTile, h.tile_of hi hlo hhi]
  rfl

end Divides

/-! ## Sizes -/

theorem explicitSizes_sum {exceeds : String} {remaining rest : ℕ}
    (h : explicitSizes exceeds sizes remaining = .ok rest) : sizes.sum + rest = remaining := by
  induction sizes generalizing remaining with
  | nil =>
    cases h
    exact Nat.zero_add _
  | cons size sizes ih =>
    obtain ⟨_, hcheck, h⟩ := bind_eq_ok h
    have hle := check_eq_ok hcheck
    have hsum := ih h
    rw [List.sum_cons]
    omega

theorem uniformSizes_spec {maxTiles : Option ℕ} {tooMany : String} {rounds idx remaining uniformSize : ℕ}
    (hpos : 0 < uniformSize) (hrounds : remaining ≤ rounds)
    (h : uniformSizes maxTiles tooMany rounds idx remaining uniformSize = .ok sizes) :
    sizes.sum = remaining ∧ ∀ s ∈ sizes, 0 < s := by
  induction rounds generalizing idx remaining uniformSize sizes with
  | zero =>
    cases h
    exact ⟨by simp; omega, by simp⟩
  | succ rounds ih =>
    rw [uniformSizes] at h
    split at h
    · obtain ⟨_, -, h⟩ := bind_eq_ok h
      obtain ⟨rest, hrest, h⟩ := bind_eq_ok h
      cases h
      obtain ⟨hsum, hall⟩ := ih (by omega) (by omega) hrest
      refine ⟨by rw [List.sum_cons, hsum]; omega, ?_⟩
      intro s hs
      rcases List.mem_cons.mp hs with rfl | hs
      · omega
      · exact hall s hs
    · cases h
      exact ⟨by simp; omega, by simp⟩

/-! ## Tables -/

theorem getElem?_boundaries : (boundaries sizes)[i]? = if i ≤ sizes.length then some (sizes.take i).sum else none := by
  rw [boundaries, List.getElem?_scanl, ← List.sum_eq_foldl]

/-- The loop over the CTUs has come to `k`. -/
structure Mapped (a : TileAxis) (k : ℕ) (st : ℕ × List ℕ) : Prop where
  le : st.1 ≤ a.numTiles
  lo : a.bd st.1 ≤ k
  hi : st.1 < a.numTiles → k ≤ a.bd (st.1 + 1)
  length : st.2.length = k
  tile : ∀ x < k, ∃ i ≤ a.numTiles, st.2[x]? = some i ∧ a.bd i ≤ x ∧ (i < a.numTiles → x < a.bd (i + 1))

theorem mapCtu_mapped {k : ℕ} {st : ℕ × List ℕ} (hlen : a.m_tileBd.length = a.numTiles + 1)
    (hstep : ∀ i < a.numTiles, a.bd i < a.bd (i + 1)) (h : Mapped a k st) :
    Mapped a (k + 1) (mapCtu a.m_tileBd st k) := by
  obtain ⟨idx, hidx⟩ : ∃ idx, idx = if a.m_tileBd[st.1 + 1]? = some k then st.1 + 1 else st.1 := ⟨_, rfl⟩
  have hnew : idx ≤ a.numTiles ∧ a.bd idx ≤ k ∧ (idx < a.numTiles → k < a.bd (idx + 1)) := by
    by_cases hbd : a.m_tileBd[st.1 + 1]? = some k
    · rw [if_pos hbd] at hidx
      have hlt := (List.getElem?_eq_some_iff.mp hbd).1
      have hk : a.bd (st.1 + 1) = k := by
        rw [bd, List.getD_eq_getElem?_getD, hbd]
        rfl
      rw [hidx]
      refine ⟨by omega, hk.le, fun hlt' => ?_⟩
      exact hk ▸ hstep _ hlt'
    · rw [if_neg hbd] at hidx
      rw [hidx]
      refine ⟨h.le, h.lo, fun hlt => ?_⟩
      have hle := h.hi hlt
      have hne : k ≠ a.bd (st.1 + 1) := by
        intro heq
        refine hbd ?_
        rw [heq, bd, List.getD_eq_getElem?_getD, List.getElem?_eq_getElem (by omega)]
        rfl
      omega
  rw [mapCtu, ← hidx]
  refine ⟨hnew.1, hnew.2.1.trans (Nat.le_succ k), hnew.2.2, ?_, fun x hx => ?_⟩
  · rw [List.length_append, h.length]
    rfl
  · rcases Nat.lt_succ_iff_lt_or_eq.mp hx with hx | rfl
    · obtain ⟨i, hi, hget, hrest⟩ := h.tile x hx
      exact ⟨i, hi, by rw [List.getElem?_append_left (h.length ▸ hx), hget], hrest⟩
    · exact ⟨idx, hnew.1, by rw [← h.length, List.getElem?_concat_length], hnew.2⟩

/-- What `initTiles` leaves divides the picture. -/
theorem initTiles_divides {maxTiles : Option ℕ} {exceeds tooMany : String} {explicit : TileSizes}
    (h : initTiles maxTiles exceeds tooMany explicit n = .ok a) : Divides a n := by
  obtain ⟨remaining, hexplicit, h⟩ := bind_eq_ok h
  obtain ⟨last, hlast, h⟩ := bind_eq_ok h
  obtain ⟨uniform, huniform, h⟩ := bind_eq_ok h
  have hmem := List.mem_of_getElem? (readAt_eq_ok hlast)
  obtain ⟨hsum, hpos⟩ := uniformSizes_spec (explicit.pos last hmem) (Nat.le_refl _) huniform
  obtain ⟨sizes, hsizes⟩ : ∃ sizes, sizes = explicit.sizes ++ uniform := ⟨_, rfl⟩
  have htotal : sizes.sum = n := by
    rw [hsizes, List.sum_append, hsum]
    exact explicitSizes_sum hexplicit
  have hallpos : ∀ s ∈ sizes, 0 < s := by
    intro s hs
    rw [hsizes] at hs
    rcases List.mem_append.mp hs with hs | hs
    · exact explicit.pos s hs
    · exact hpos s hs
  rw [← hsizes] at h
  cases h
  obtain ⟨a, ha⟩ : ∃ a : TileAxis, a = ⟨sizes, boundaries sizes, ctuMap (boundaries sizes) n⟩ := ⟨_, rfl⟩
  have hbd : ∀ i ≤ sizes.length, a.bd i = (sizes.take i).sum := by
    intro i hi
    rw [bd, ha, List.getD_eq_getElem?_getD, getElem?_boundaries, if_pos hi]
    rfl
  have hnum : a.numTiles = sizes.length := by rw [ha, numTiles]
  have hlength : a.m_tileBd.length = a.numTiles + 1 := by
    rw [hnum, ha]
    exact List.length_scanl
  have hstep : ∀ i < a.numTiles, a.bd (i + 1) = a.bd i + a.m_tileSize.getD i 0 ∧ a.bd i < a.bd (i + 1) := by
    intro i hi
    rw [hnum] at hi
    have hsize : a.m_tileSize.getD i 0 = sizes[i] := by
      rw [ha, List.getD_eq_getElem?_getD, List.getElem?_eq_getElem hi]
      rfl
    have hnext : a.bd (i + 1) = a.bd i + a.m_tileSize.getD i 0 := by
      rw [hbd (i + 1) hi, hbd i hi.le, hsize, List.take_succ_eq_append_getElem hi, List.sum_append,
        List.sum_singleton]
    have := hallpos _ (List.getElem_mem hi)
    exact ⟨hnext, by omega⟩
  have hzero : a.bd 0 = 0 := hbd 0 (Nat.zero_le _)
  have hmap : Mapped a (n + 1) ((List.range (n + 1)).foldl (mapCtu a.m_tileBd) (0, [])) := by
    refine foldl_range (P := fun k st => Mapped a k st) ?_ fun k _ st hst =>
      mapCtu_mapped hlength (fun i hi => (hstep i hi).2) hst
    exact ⟨Nat.zero_le _, hzero.le, fun _ => Nat.zero_le _, rfl, fun x hx => absurd hx (Nat.not_lt_zero x)⟩
  have hctu : a.m_ctuToTile = ((List.range (n + 1)).foldl (mapCtu a.m_tileBd) (0, [])).2 := by
    rw [ha]
    rfl
  rw [← ha]
  refine ⟨hlength, hzero, ?_, hstep, fun x hx => ?_, ?_⟩
  · rw [hnum, hbd _ (Nat.le_refl _), List.take_length, htotal]
  · rw [hctu]
    exact hmap.tile x (by omega)
  · rw [hctu]
    exact hmap.length

end ECM.CommonLib.TileAxis
