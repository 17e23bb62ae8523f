import ECM.Slices.TileAxis

/-! # What the slices of a picture are made of

Each slice that the loops of `initRectSliceMap` and `initRasterSliceMap` make is a list of
complete tiles or some CTU rows of one tile. -/

namespace ECM.CommonLib
open Lib.Loop

/-- Both directions are divided into tiles. -/
structure PPSTiles.Divided (pps : PPSTiles) : Prop where
  cols : pps.cols.Divides pps.m_picWidthInCtu
  rows : pps.rows.Divides pps.m_picHeightInCtu

namespace PPSTiles

variable {pps : PPSTiles}

theorem initTiles_divided {m_picWidthInCtu m_picHeightInCtu : ℕ} {tileColWidth tileRowHeight : TileSizes}
    (h : initTiles m_picWidthInCtu m_picHeightInCtu tileColWidth tileRowHeight = .ok pps) :
    pps.Divided ∧ pps.m_picWidthInCtu = m_picWidthInCtu ∧ pps.m_picHeightInCtu = m_picHeightInCtu := by
  obtain ⟨cols, hcols, h⟩ := bind_eq_ok h
  obtain ⟨rows, hrows, h⟩ := bind_eq_ok h
  cases h
  exact ⟨⟨TileAxis.initTiles_divides hcols, TileAxis.initTiles_divides hrows⟩, rfl, rfl⟩

/-- The CTUs of the tile `t`. -/
def tileCtus (pps : PPSTiles) (t : ℕ × ℕ) : List ℕ :=
  SliceMap.addCtusToSlice (pps.cols.bd t.1) (pps.cols.bd (t.1 + 1)) (pps.rows.bd t.2) (pps.rows.bd (t.2 + 1))
    pps.m_picWidthInCtu

/-- The CTU rows from `startY` to `stopY` of the tile column `tx`. -/
def rowCtus (pps : PPSTiles) (tx startY stopY : ℕ) : List ℕ :=
  SliceMap.addCtusToSlice (pps.cols.bd tx) (pps.cols.bd (tx + 1)) startY stopY pps.m_picWidthInCtu

def IsTile (pps : PPSTiles) (t : ℕ × ℕ) : Prop := t.1 < pps.cols.numTiles ∧ t.2 < pps.rows.numTiles

/-- The raster order of tiles. -/
def TileBefore (t t' : ℕ × ℕ) : Prop := t.2 < t'.2 ∨ (t.2 = t'.2 ∧ t.1 < t'.1)

/-- Complete tiles in raster order, or complete CTU rows of a tile. -/
inductive SliceOf (pps : PPSTiles) : List ℕ → Prop
  | tiles (ts : List (ℕ × ℕ)) (isTile : ∀ t ∈ ts, pps.IsTile t) (order : ts.Pairwise TileBefore) :
      SliceOf pps (ts.flatMap pps.tileCtus)
  | rows (tx ty startY stopY : ℕ) (isTile : pps.IsTile (tx, ty)) (lo : pps.rows.bd ty ≤ startY)
      (lt : startY < stopY) (hi : stopY ≤ pps.rows.bd (ty + 1)) : SliceOf pps (pps.rowCtus tx startY stopY)

/-! ## Complete tiles -/

section
variable (hd : pps.Divided) {map map' : SliceMap} {tileX tileY w h : ℕ}

theorem addCtus_eq_ok {startX stopX startY stopY width : ℕ}
    (hadd : map.addCtus startX stopX startY stopY width = .ok map') :
    startX < stopX ∧ startY < stopY ∧ map' = { map with
      m_ctuAddrInSlice := map.m_ctuAddrInSlice ++ SliceMap.addCtusToSlice startX stopX startY stopY width } := by
  obtain ⟨_, hcheck, hadd⟩ := bind_eq_ok hadd
  have hok := check_eq_ok hcheck
  cases hadd
  exact ⟨by omega, by omega, rfl⟩

include hd

theorem addTile_eq_ok (hadd : pps.addTile map tileX tileY = .ok map') : pps.IsTile (tileX, tileY) ∧
    map' = { map with m_ctuAddrInSlice := map.m_ctuAddrInSlice ++ pps.tileCtus (tileX, tileY) } := by
  obtain ⟨startX, hstartX, hadd⟩ := bind_eq_ok hadd
  obtain ⟨stopX, hstopX, hadd⟩ := bind_eq_ok hadd
  obtain ⟨startY, hstartY, hadd⟩ := bind_eq_ok hadd
  obtain ⟨stopY, hstopY, hadd⟩ := bind_eq_ok hadd
  obtain ⟨-, rfl⟩ := hd.cols.getTileBd_eq_ok hstartX
  obtain ⟨hx, rfl⟩ := hd.cols.getTileBd_eq_ok hstopX
  obtain ⟨-, rfl⟩ := hd.rows.getTileBd_eq_ok hstartY
  obtain ⟨hy, rfl⟩ := hd.rows.getTileBd_eq_ok hstopY
  exact ⟨⟨hx, hy⟩, (addCtus_eq_ok hadd).2.2⟩

omit hd in
/-- The tiles of one row of a rectangle. -/
def rowTiles (tileX tileY w : ℕ) : List (ℕ × ℕ) := (List.range w).map fun k => (tileX + k, tileY)

omit hd in
/-- The tiles of a rectangle. -/
def rectTiles (tileX tileY w h : ℕ) : List (ℕ × ℕ) :=
  (List.range h).flatMap fun j => rowTiles tileX (tileY + j) w

omit hd in
theorem rectTiles_order : (rectTiles tileX tileY w h).Pairwise TileBefore := by
  rw [rectTiles, List.pairwise_flatMap]
  refine ⟨fun j _ => List.pairwise_map.mpr ?_, ?_⟩
  · exact List.pairwise_lt_range.imp fun hlt => .inr ⟨rfl, Nat.add_lt_add_left hlt _⟩
  · refine List.pairwise_lt_range.imp fun {j j'} hlt t ht t' ht' => ?_
    obtain ⟨k, -, rfl⟩ := List.mem_map.mp ht
    obtain ⟨k', -, rfl⟩ := List.mem_map.mp ht'
    exact .inl (Nat.add_lt_add_left hlt _)

/-- Tiles were added to the slice. -/
def Added (pps : PPSTiles) (map : SliceMap) (ts : List (ℕ × ℕ)) (map' : SliceMap) : Prop :=
  (∀ t ∈ ts, pps.IsTile t) ∧
    map' = { map with m_ctuAddrInSlice := map.m_ctuAddrInSlice ++ ts.flatMap pps.tileCtus }

omit hd in
theorem Added.nil : Added pps map [] map := ⟨by simp, by simp⟩

omit hd in
theorem Added.trans {ts ts' : List (ℕ × ℕ)} {map'' : SliceMap} (h : Added pps map ts map')
    (h' : Added pps map' ts' map'') : Added pps map (ts ++ ts') map'' := by
  obtain ⟨hts, rfl⟩ := h
  obtain ⟨hts', rfl⟩ := h'
  refine ⟨fun t ht => ?_, by simp⟩
  rcases List.mem_append.mp ht with ht | ht
  · exact hts t ht
  · exact hts' t ht

theorem addTile_added (hadd : pps.addTile map tileX tileY = .ok map') :
    Added pps map [(tileX, tileY)] map' := by
  obtain ⟨htile, rfl⟩ := addTile_eq_ok hd hadd
  exact ⟨fun t ht => List.mem_singleton.mp ht ▸ htile, by simp⟩

/-- The loops add the tiles of the rectangle. -/
theorem addTiles_added (hadd : pps.addTiles tileX tileY w h map = .ok map') :
    Added pps map (rectTiles tileX tileY w h) map' := by
  refine loop_ok (P := fun h m => Added pps map (rectTiles tileX tileY w h) m) Added.nil
    (fun j _ m m' hm hrow => ?_) hadd
  have hadded : Added pps m (rowTiles tileX (tileY + j) w) m' := by
    refine loop_ok (P := fun w m' => Added pps m (rowTiles tileX (tileY + j) w) m') Added.nil
      (fun k _ m₁ m₂ hm₁ htile => ?_) hrow
    have h := hm₁.trans (addTile_added hd htile)
    rwa [rowTiles, List.range_succ, List.map_append, List.map_singleton]
  have h := hm.trans hadded
  rwa [rectTiles, List.range_succ, List.flatMap_append, List.flatMap_singleton]

theorem addTiles_sliceOf {id num : ℕ} (hadd : pps.addTiles tileX tileY w h ⟨id, num, []⟩ = .ok map') :
    pps.SliceOf map'.m_ctuAddrInSlice := by
  obtain ⟨htiles, rfl⟩ := addTiles_added hd hadd
  exact .tiles _ htiles rectTiles_order

omit hd in
/-- Consecutive CTU rows of a tile column, from `startY` to `stopY`. -/
inductive RowRuns (pps : PPSTiles) (tx startY : ℕ) : ℕ → List (List ℕ) → Prop
  | nil : RowRuns pps tx startY startY []
  | push {ctuY stopY : ℕ} {runs : List (List ℕ)} (runs_to : RowRuns pps tx startY ctuY runs)
      (lt : ctuY < stopY) : RowRuns pps tx startY stopY (runs ++ [pps.rowCtus tx ctuY stopY])

omit hd in
theorem RowRuns.le {tx startY stopY : ℕ} {runs : List (List ℕ)} (h : RowRuns pps tx startY stopY runs) :
    startY ≤ stopY := by
  induction h with
  | nil => exact Nat.le_refl _
  | push _ hlt ih => omega

omit hd in
theorem RowRuns.sliceOf {tx ty stopY : ℕ} {runs : List (List ℕ)} (h : RowRuns pps tx (pps.rows.bd ty) stopY runs)
    (htile : pps.IsTile (tx, ty)) (hstop : stopY ≤ pps.rows.bd (ty + 1)) : ∀ run ∈ runs, pps.SliceOf run := by
  induction h with
  | nil => exact fun run hrun => absurd hrun List.not_mem_nil
  | push hruns hlt ih =>
    intro run hrun
    rcases List.mem_append.mp hrun with hrun | hrun
    · exact ih (by omega) run hrun
    · obtain rfl := List.mem_singleton.mp hrun
      exact .rows tx ty _ _ htile hruns.le hlt hstop

/-! ## Several slices in a tile -/

/-- The slices `made` were pushed. -/
def Pushed (st : RectSliceState) (made : List (List ℕ)) (st' : RectSliceState) : Prop :=
  st'.m_rectSlices.length = st.m_rectSlices.length ∧ st'.m_sliceMap.length = st.m_sliceMap.length + made.length ∧
    st'.m_sliceMap.map SliceMap.m_ctuAddrInSlice = st.m_sliceMap.map SliceMap.m_ctuAddrInSlice ++ made

omit hd in
theorem Pushed.push {st st' : RectSliceState} {made : List (List ℕ)} (h : Pushed st made st') (map : SliceMap) :
    Pushed st (made ++ [map.m_ctuAddrInSlice]) (st'.push map) := by
  obtain ⟨hrect, hlen, hmap⟩ := h
  refine ⟨hrect, ?_, ?_⟩
  · simp [RectSliceState.push, hlen, Nat.add_assoc]
  · simp [RectSliceState.push, hmap]

theorem sliceInTile_runs {st st₀ : RectSliceState} {ctuY startY : ℕ} {runs : List (List ℕ)}
    {out : ℕ × RectSliceState} (hruns : RowRuns pps tileX startY ctuY runs) (hpushed : Pushed st₀ runs st)
    (hslice : pps.sliceInTile tileX ctuY st = .ok out) :
    ∃ runs', RowRuns pps tileX startY out.1 runs' ∧ Pushed st₀ runs' out.2 := by
  obtain ⟨slice, -, hslice⟩ := bind_eq_ok hslice
  obtain ⟨startX, hstartX, hslice⟩ := bind_eq_ok hslice
  obtain ⟨stopX, hstopX, hslice⟩ := bind_eq_ok hslice
  obtain ⟨map, hmap, hslice⟩ := bind_eq_ok hslice
  obtain ⟨_, -, hslice⟩ := bind_eq_ok hslice
  cases hslice
  obtain ⟨-, rfl⟩ := hd.cols.getTileBd_eq_ok hstartX
  obtain ⟨-, rfl⟩ := hd.cols.getTileBd_eq_ok hstopX
  obtain ⟨-, hlt, rfl⟩ := addCtus_eq_ok hmap
  exact ⟨_, hruns.push hlt, hpushed.push _⟩

/-- The slices of a tile are consecutive runs of CTU rows that make up the tile. -/
theorem slicesInTile_runs {st st' : RectSliceState} {num : ℕ}
    (hslices : pps.slicesInTile tileX tileY num st = .ok st') :
    pps.IsTile (tileX, tileY) ∧ ∃ runs, runs ≠ [] ∧
      RowRuns pps tileX (pps.rows.bd tileY) (pps.rows.bd (tileY + 1)) runs ∧ Pushed st runs st' := by
  obtain ⟨ctuY₀, hctuY₀, hslices⟩ := bind_eq_ok hslices
  obtain ⟨⟨ctuY, st₁⟩, hloop, hslices⟩ := bind_eq_ok hslices
  obtain ⟨slice, hslice, hslices⟩ := bind_eq_ok hslices
  obtain ⟨stopY, hstopY, hslices⟩ := bind_eq_ok hslices
  obtain ⟨_, hcheck, hslices⟩ := bind_eq_ok hslices
  obtain ⟨startX, hstartX, hslices⟩ := bind_eq_ok hslices
  obtain ⟨stopX, hstopX, hslices⟩ := bind_eq_ok hslices
  obtain ⟨map, hmap, hslices⟩ := bind_eq_ok hslices
  cases hslices
  have hlt := check_eq_ok hcheck
  obtain ⟨-, rfl⟩ := hd.rows.getTileBd_eq_ok hctuY₀
  obtain ⟨hy, rfl⟩ := hd.rows.getTileBd_eq_ok hstopY
  obtain ⟨-, rfl⟩ := hd.cols.getTileBd_eq_ok hstartX
  obtain ⟨hx, rfl⟩ := hd.cols.getTileBd_eq_ok hstopX
  obtain ⟨-, -, rfl⟩ := addCtus_eq_ok hmap
  obtain ⟨runs, hruns, hpushed⟩ := loop_ok (P := fun _ (out : ℕ × RectSliceState) =>
    ∃ runs, RowRuns pps tileX (pps.rows.bd tileY) out.1 runs ∧ Pushed st runs out.2)
    ⟨[], .nil, rfl, rfl, by simp⟩ (fun _ _ _ _ hP hbody => by
      obtain ⟨runs, hruns, hpushed⟩ := hP
      exact sliceInTile_runs hd hruns hpushed hbody) hloop
  have hset : Pushed st runs { st₁ with
      m_rectSlices := st₁.m_rectSlices.set st₁.m_sliceMap.length
        { slice with m_sliceHeightInCtu := pps.rows.bd (tileY + 1) - ctuY } } :=
    ⟨List.length_set.trans hpushed.1, hpushed.2⟩
  exact ⟨⟨hx, hy⟩, _, by simp, hruns.push (Nat.lt_of_not_le hlt), hset.push _⟩

/-! ## `rectSlice` -/

/-- One round makes one slice or more. -/
theorem rectSlice_sliceOf {st st' : RectSliceState} (hslice : pps.rectSlice st = .ok st') :
    ∃ made, made ≠ [] ∧ (∀ run ∈ made, pps.SliceOf run) ∧ Pushed st made st' := by
  obtain ⟨slice, -, hslice⟩ := bind_eq_ok hslice
  dsimp only at hslice
  split at hslice
  all_goals
    split at hslice
    · obtain ⟨map, hmap, hslice⟩ := bind_eq_ok hslice
      cases hslice
      refine ⟨[map.m_ctuAddrInSlice], by simp, fun run hrun => ?_, ?_⟩
      · obtain rfl := List.mem_singleton.mp hrun
        exact addTiles_sliceOf hd hmap
      · exact ⟨List.length_set, by simp [RectSliceState.push], by simp [RectSliceState.push]⟩
    · obtain ⟨htile, runs, hne, hruns, hlen, hpushed⟩ := slicesInTile_runs hd hslice
      exact ⟨runs, hne, hruns.sliceOf htile (Nat.le_refl _), by rwa [List.length_set] at hlen, hpushed⟩

/-- The loop over the slices makes all of them. -/
theorem rectSlices_sliceOf {m_rectSlices : List RectSlice} {st : RectSliceState}
    (hslices : pps.rectSlices m_rectSlices = .ok st) :
    ∀ map ∈ st.m_sliceMap, pps.SliceOf map.m_ctuAddrInSlice := by
  obtain ⟨_, -, hloop⟩ := bind_eq_ok hslices
  refine loop_ok (P := fun _ (st : RectSliceState) => ∀ map ∈ st.m_sliceMap, pps.SliceOf map.m_ctuAddrInSlice)
    (fun map hmap => absurd hmap List.not_mem_nil) (fun _ _ st st' hst hbody => ?_) hloop
  split at hbody
  · obtain ⟨made, -, hmade, -, -, hmaps⟩ := rectSlice_sliceOf hd hbody
    intro map hmap
    have hmem : map.m_ctuAddrInSlice ∈ st'.m_sliceMap.map SliceMap.m_ctuAddrInSlice := List.mem_map_of_mem hmap
    rw [hmaps] at hmem
    rcases List.mem_append.mp hmem with hmem | hmem
    · obtain ⟨map', hmap', heq⟩ := List.mem_map.mp hmem
      rw [← heq]
      exact hst map' hmap'
    · exact hmade _ hmem
  · cases hbody
    exact hst

/-! ## `initRasterSliceMap` -/

theorem rasterSlice_sliceOf {num tileIdx : ℕ} {out : ℕ × SliceMap}
    (hslice : pps.rasterSlice num tileIdx = .ok out) : pps.SliceOf out.2.m_ctuAddrInSlice := by
  have hrun : out.1 = tileIdx + num ∧ Added pps ⟨tileIdx, num, []⟩
      ((List.range' tileIdx num).map fun i => (i % pps.getNumTileColumns, i / pps.getNumTileColumns)) out.2 := by
    refine loop_ok (P := fun n (out : ℕ × SliceMap) => out.1 = tileIdx + n ∧ Added pps ⟨tileIdx, num, []⟩
      ((List.range' tileIdx n).map fun i => (i % pps.getNumTileColumns, i / pps.getNumTileColumns)) out.2)
      ⟨rfl, Added.nil⟩ (fun n _ t t' ht hbody => ?_) hslice
    obtain ⟨hidx, hadded⟩ := ht
    obtain ⟨_, -, hbody⟩ := bind_eq_ok hbody
    obtain ⟨map, hmap, hbody⟩ := bind_eq_ok hbody
    cases hbody
    refine ⟨by rw [hidx]; rfl, ?_⟩
    have h := hadded.trans (addTile_added hd hmap)
    rwa [List.range'_concat, List.map_append, List.map_singleton, Nat.one_mul, ← hidx]
  obtain ⟨htiles, heq⟩ := hrun.2
  rw [heq]
  have hlt : (List.range' tileIdx num).Pairwise (· < ·) := List.pairwise_lt_range'
  refine .tiles _ htiles (List.pairwise_map.mpr (hlt.imp fun {i i'} hlt => ?_))
  rcases (Nat.div_le_div_right (c := pps.getNumTileColumns) hlt.le).lt_or_eq with hdiv | hdiv
  · exact .inl hdiv
  · refine .inr ⟨hdiv, ?_⟩
    have h₁ := Nat.div_add_mod i pps.getNumTileColumns
    have h₂ := Nat.div_add_mod i' pps.getNumTileColumns
    rw [hdiv] at h₁
    dsimp only
    omega

theorem rasterSlices_sliceOf {nums : List ℕ} {tileIdx : ℕ} {maps : List SliceMap}
    (hslices : pps.rasterSlices nums tileIdx = .ok maps) :
    ∀ map ∈ maps, pps.SliceOf map.m_ctuAddrInSlice := by
  induction nums generalizing tileIdx maps with
  | nil =>
    cases hslices
    exact fun map hmap => absurd hmap List.not_mem_nil
  | cons num nums ih =>
    obtain ⟨⟨tileIdx', map₁⟩, hslice, hslices⟩ := bind_eq_ok hslices
    obtain ⟨rest, hrest, hslices⟩ := bind_eq_ok hslices
    cases hslices
    intro map hmap
    rcases List.mem_cons.mp hmap with rfl | hmap
    · exact rasterSlice_sliceOf hd hslice
    · exact ih hrest map hmap

/-! ## Slices of subpictures -/

omit hd in
/-- The subpicture lies in one row of tiles and does not fill it. -/
def PartOfTileRow (pps : PPSTiles) (s : SubPicLayout) : Prop :=
  ∃ ty < pps.rows.numTiles, pps.rows.bd ty ≤ s.ctuTopLeftY ∧ s.ctuTopLeftY + s.height ≤ pps.rows.bd (ty + 1) ∧
    s.height < pps.rows.bd (ty + 1) - pps.rows.bd ty

omit hd in
/-- The CTU rows of the subpicture are those of a tile. -/
def WholeRows (pps : PPSTiles) (s : SubPicLayout) : Prop :=
  ∃ tx < pps.cols.numTiles, s.ctuTopLeftX = pps.cols.bd tx ∧ s.ctuTopLeftX + s.width = pps.cols.bd (tx + 1)

omit hd in
/-- The subpictures that are part of a tile row are complete CTU rows of one tile. -/
def SubPicsFit (pps : PPSTiles) (subPics : List SubPicLayout) : Prop :=
  ∀ s ∈ subPics, pps.PartOfTileRow s → pps.WholeRows s

/-- What the reads of the source tell of a subpicture of less than a tile's height. -/
theorem partOfTileRow {s : SubPicLayout} {tileY bottomTile tileRowHeight : ℕ} (hsize : pps.m_picHeightInCtu < 2 ^ 31)
    (htop : pps.rows.m_ctuToTile[s.ctuTopLeftY]? = some tileY)
    (hbottom : pps.rows.m_ctuToTile[sub32 (s.ctuTopLeftY + s.height) 1]? = some bottomTile)
    (hone : sub32 (bottomTile + 1) tileY = 1) (hget : pps.rows.m_tileSize[tileY]? = some tileRowHeight)
    (hless : s.height < tileRowHeight) :
    tileY < pps.rows.numTiles ∧ pps.rows.bd tileY ≤ s.ctuTopLeftY ∧
      s.ctuTopLeftY + s.height ≤ pps.rows.bd (tileY + 1) ∧
      s.height < pps.rows.bd (tileY + 1) - pps.rows.bd tileY := by
  have htile : tileY < pps.rows.numTiles := (List.getElem?_eq_some_iff.mp hget).1
  have hnext := (hd.rows.step tileY htile).1
  rw [List.getD_eq_getElem?_getD, hget, Option.getD_some] at hnext
  have hend : pps.rows.bd (tileY + 1) ≤ pps.m_picHeightInCtu := hd.rows.bd_le_size htile
  have hmap : ∀ {y i : ℕ}, pps.rows.m_ctuToTile[y]? = some i → y ≤ pps.m_picHeightInCtu ∧
      i ≤ pps.rows.numTiles ∧ pps.rows.bd i ≤ y ∧ (i < pps.rows.numTiles → y < pps.rows.bd (i + 1)) := by
    intro y i hy
    have hlen := (List.getElem?_eq_some_iff.mp hy).1
    rw [hd.rows.length_map] at hlen
    obtain ⟨j, hj, hget, hbd⟩ := hd.rows.tile y (by omega)
    rw [hy] at hget
    cases hget
    exact ⟨by omega, hj, hbd⟩
  obtain ⟨htopSize, -, hlo, -⟩ := hmap htop
  obtain ⟨hbottomSize, hbottomLe, -, hbottomHi⟩ := hmap hbottom
  have hnum := hd.rows.numTiles_le
  have hsame : bottomTile = tileY := by
    rw [sub32, u32] at hone
    omega
  have hlast := hbottomHi (hsame ▸ htile)
  rw [hsame, sub32, u32] at hlast
  refine ⟨htile, hlo, ?_, by omega⟩
  rw [sub32, u32] at hbottomSize
  omega

theorem subPicSlice_sliceOf {s : SubPicLayout} (hwidth : pps.m_picWidthInCtu < 2 ^ 31)
    (hheight : pps.m_picHeightInCtu < 2 ^ 31) (hfit : pps.PartOfTileRow s → pps.WholeRows s)
    (hslice : pps.subPicSlice s = .ok map) : pps.SliceOf map.m_ctuAddrInSlice := by
  obtain ⟨tileX, -, hslice⟩ := bind_eq_ok hslice
  obtain ⟨rightTile, -, hslice⟩ := bind_eq_ok hslice
  obtain ⟨tileY, htop, hslice⟩ := bind_eq_ok hslice
  obtain ⟨bottomTile, hbottom, hslice⟩ := bind_eq_ok hslice
  obtain ⟨lessThanOneTile, hless, hslice⟩ := bind_eq_ok hslice
  split at hslice
  · next hflag =>
    rw [subpicHeightLessThanOneTileFlag] at hless
    split at hless
    · next hone =>
      obtain ⟨tileRowHeight, hget, hless⟩ := bind_eq_ok hless
      cases hless
      obtain ⟨htile, hlo, hhi, hpart⟩ := partOfTileRow hd hheight (readAt_eq_ok htop) (readAt_eq_ok hbottom)
        hone (readAt_eq_ok hget) (of_decide_eq_true hflag)
      obtain ⟨tx, htx, hx, hx'⟩ := hfit ⟨tileY, htile, hlo, hhi, hpart⟩
      have hendX : pps.cols.bd (tx + 1) ≤ pps.m_picWidthInCtu := hd.cols.bd_le_size htx
      have hendY : pps.rows.bd (tileY + 1) ≤ pps.m_picHeightInCtu := hd.rows.bd_le_size htile
      rw [u32_of_lt (by omega), u32_of_lt (by omega), hx', hx] at hslice
      obtain ⟨-, hlt, rfl⟩ := addCtus_eq_ok hslice
      exact .rows tx tileY _ _ ⟨htx, htile⟩ hlo hlt hhi
    · cases hless
      cases hflag
  · exact addTiles_sliceOf hd hslice

theorem subPicSlices_sliceOf {subPics : List SubPicLayout} {maps : List SliceMap}
    (hwidth : pps.m_picWidthInCtu < 2 ^ 31) (hheight : pps.m_picHeightInCtu < 2 ^ 31)
    (hfit : 1 < subPics.length → pps.SubPicsFit subPics) (hslices : pps.subPicSlices subPics = .ok maps) :
    ∀ map ∈ maps, pps.SliceOf map.m_ctuAddrInSlice := by
  obtain ⟨_, -, hslices⟩ := bind_eq_ok hslices
  split at hslices
  · cases hslices
  · obtain ⟨map₁, hmap, hslices⟩ := bind_eq_ok hslices
    cases hslices
    intro map hmem
    obtain rfl := List.mem_singleton.mp hmem
    exact addTiles_sliceOf hd hmap
  · next hnil hone =>
    have hlen : 1 < subPics.length := by
      match subPics, hnil, hone with
      | [], hnil, _ => exact absurd rfl hnil
      | [s], _, hone => exact absurd rfl (hone s)
      | _ :: _ :: _, _, _ => simp
    intro map hmem
    obtain ⟨s, hs, hslice⟩ := mapM_mem hslices map hmem
    exact subPicSlice_sliceOf hd hwidth hheight (hfit hlen s hs) hslice

end

end PPSTiles

end ECM.CommonLib
