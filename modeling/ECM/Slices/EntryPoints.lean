import ECM.Slices.Shape
import Mathlib.Data.List.Chain

/-! # Entry points and substreams of a slice

`setNumSubstream` asks where a CTU lies in its tile, `setNumEntryPoints` compares it with the
CTU before. In a slice of complete tiles, or of CTU rows of one tile, both find the same CTUs. -/

namespace ECM.CommonLib.Slice
open PPSTiles

variable {pps : PPSTiles} {sync : Bool} {a b x y tx ty : ℕ}

/-- The tile of a CTU. -/
def tileOf (pps : PPSTiles) (ctuAddr : ℕ) : ℕ × ℕ :=
  (pps.cols.m_ctuToTile.getD (ctuAddr % pps.m_picWidthInCtu) 0,
    pps.rows.m_ctuToTile.getD (ctuAddr / pps.m_picWidthInCtu) 0)

/-- A new tile starts at the CTU or, with synchronization, a new CTU row. -/
def isSwitch (pps : PPSTiles) (sync : Bool) (prevCtuAddr ctuAddr : ℕ) : Bool :=
  tileOf pps ctuAddr ≠ tileOf pps prevCtuAddr ||
    (sync && ctuAddr / pps.m_picWidthInCtu ≠ prevCtuAddr / pps.m_picWidthInCtu)

/-- The CTUs after the first one at which the slice goes on with another substream. -/
def switches (pps : PPSTiles) (sync : Bool) (ctuAddrInSlice : List ℕ) : ℕ :=
  (ctuAddrInSlice.zip ctuAddrInSlice.tail).countP fun (prevCtuAddr, ctuAddr) => isSwitch pps sync prevCtuAddr ctuAddr

/-! ## Places of CTUs -/

/-- The CTU `a` is at `(x, y)` in the tile `(tx, ty)`. -/
structure At (pps : PPSTiles) (a x y tx ty : ℕ) : Prop where
  addr : a = y * pps.m_picWidthInCtu + x
  isTile : pps.IsTile (tx, ty)
  left : pps.cols.bd tx ≤ x
  right : x < pps.cols.bd (tx + 1)
  top : pps.rows.bd ty ≤ y
  bottom : y < pps.rows.bd (ty + 1)

/-- What the functions of the source read of a CTU. -/
structure Reads (pps : PPSTiles) (a x y tx ty : ℕ) : Prop where
  mod : a % pps.m_picWidthInCtu = x
  div : a / pps.m_picWidthInCtu = y
  tile : tileOf pps a = (tx, ty)
  colBd : pps.ctuToTileColBd x = .ok (pps.cols.bd tx)
  rowBd : pps.ctuToTileRowBd y = .ok (pps.rows.bd ty)

theorem At.reads (hd : pps.Divided) (h : At pps a x y tx ty) : Reads pps a x y tx ty := by
  have hx : x < pps.m_picWidthInCtu := h.right.trans_le (hd.cols.bd_le_size h.isTile.1)
  have hmod : a % pps.m_picWidthInCtu = x := by
    rw [h.addr, Nat.mul_add_mod_self_right, Nat.mod_eq_of_lt hx]
  have hdiv : a / pps.m_picWidthInCtu = y := by
    rw [h.addr, Nat.mul_comm, Nat.mul_add_div (by omega), Nat.div_eq_of_lt hx, Nat.add_zero]
  refine ⟨hmod, hdiv, ?_, ?_, ?_⟩
  · rw [tileOf, hmod, hdiv, List.getD_eq_getElem?_getD, List.getD_eq_getElem?_getD,
      hd.cols.tile_of h.isTile.1 h.left h.right, hd.rows.tile_of h.isTile.2 h.top h.bottom]
    rfl
  · rw [ctuToTileColBd, ctuToTileCol, hd.cols.ctuToTile_ok h.isTile.1 h.left h.right]
    exact hd.cols.getTileBd_ok h.isTile.1.le _
  · rw [ctuToTileRowBd, ctuToTileRow, hd.rows.ctuToTile_ok h.isTile.2 h.top h.bottom]
    exact hd.rows.getTileBd_ok h.isTile.2.le _

theorem Reads.isSubstreamStart (h : Reads pps a x y tx ty) : isSubstreamStart pps sync a =
    .ok (x = pps.cols.bd tx && (y = pps.rows.bd ty || sync)) := by
  rw [Slice.isSubstreamStart, h.mod, h.div]
  simp only [ctuIsTileColBd, ctuIsTileRowBd, h.colBd, h.rowBd]
  by_cases hx : x = pps.cols.bd tx
  · simp [hx, pure, Except.pure]
  · simp [hx, pure, Except.pure]

theorem Reads.isEntryPoint {x' y' tx' ty' : ℕ} (h : Reads pps a x y tx ty) (h' : Reads pps b x' y' tx' ty') :
    isEntryPoint pps sync a b = .ok (pps.rows.bd ty' ≠ pps.rows.bd ty || pps.cols.bd tx' ≠ pps.cols.bd tx ||
      (y' ≠ y && sync)) := by
  rw [Slice.isEntryPoint, h.mod, h.div, h'.mod, h'.div]
  simp only [h.colBd, h.rowBd, h'.colBd, h'.rowBd, ok_bind]
  by_cases hrow : pps.rows.bd ty' = pps.rows.bd ty
  · by_cases hcol : pps.cols.bd tx' = pps.cols.bd tx
    · simp [hrow, hcol, pure, Except.pure]
    · simp [hrow, hcol, pure, Except.pure]
  · simp [hrow, pure, Except.pure]

/-! ## CTUs that follow one another -/

/-- The CTU `b` comes after `a`: next to it, at the start of the next row of the tile, or at the
start of another tile. -/
inductive Follows (pps : PPSTiles) (a b : ℕ) : Prop
  | beside {x y tx ty : ℕ} (prev : At pps a x y tx ty) (cur : At pps b (x + 1) y tx ty)
  | below {x y tx ty : ℕ} (prev : At pps a x y tx ty) (cur : At pps b (pps.cols.bd tx) (y + 1) tx ty)
  | newTile {x y tx ty tx' ty' : ℕ} (prev : At pps a x y tx ty)
      (cur : At pps b (pps.cols.bd tx') (pps.rows.bd ty') tx' ty') (ne : (tx', ty') ≠ (tx, ty))

/-- Both functions of the source find the switches. -/
theorem Follows.tests (sync : Bool) (hd : pps.Divided) (h : Follows pps a b) :
    Slice.isSubstreamStart pps sync b = .ok (isSwitch pps sync a b) ∧
      Slice.isEntryPoint pps sync a b = .ok (isSwitch pps sync a b) := by
  cases h with
  | @beside x y tx ty prev cur =>
    have hswitch : isSwitch pps sync a b = false := by
      simp [isSwitch, (prev.reads hd).tile, (cur.reads hd).tile, (prev.reads hd).div, (cur.reads hd).div]
    have hne : x + 1 ≠ pps.cols.bd tx := by
      have := prev.left
      omega
    rw [(cur.reads hd).isSubstreamStart, (prev.reads hd).isEntryPoint (cur.reads hd), hswitch]
    simp [hne]
  | @below x y tx ty prev cur =>
    have hswitch : isSwitch pps sync a b = sync := by
      simp [isSwitch, (prev.reads hd).tile, (cur.reads hd).tile, (prev.reads hd).div, (cur.reads hd).div]
    have hne : y + 1 ≠ pps.rows.bd ty := by
      have := prev.top
      omega
    rw [(cur.reads hd).isSubstreamStart, (prev.reads hd).isEntryPoint (cur.reads hd), hswitch]
    simp [hne]
  | @newTile x y tx ty tx' ty' prev cur ne =>
    have hswitch : isSwitch pps sync a b = true := by
      simp [isSwitch, (prev.reads hd).tile, (cur.reads hd).tile, ne]
    have hbd : pps.rows.bd ty' ≠ pps.rows.bd ty ∨ pps.cols.bd tx' ≠ pps.cols.bd tx := by
      by_contra hnone
      obtain ⟨hrow, hcol⟩ := not_or.mp hnone
      have hty := hd.rows.bd_inj cur.isTile.2.le prev.isTile.2.le (not_not.mp hrow)
      have htx := hd.cols.bd_inj cur.isTile.1.le prev.isTile.1.le (not_not.mp hcol)
      exact ne (Prod.ext htx hty)
    rw [(cur.reads hd).isSubstreamStart, (prev.reads hd).isEntryPoint (cur.reads hd), hswitch]
    rcases hbd with hbd | hbd
    · simp [hbd]
    · simp [hbd]

/-- Over a chain of such CTUs both functions count the switches. -/
theorem setNum_of_chain (hd : pps.Divided) {l : List ℕ} (h : l.IsChain (Follows pps)) :
    setNumSubstream pps sync l = .ok (switches pps sync l) ∧
      setNumEntryPoints pps sync true l = .ok (switches pps sync l) := by
  have hcount : ∀ {l : List ℕ}, l.IsChain (Follows pps) → ∀ n : ℕ,
      l.tail.foldlM (fun m_numSubstream ctuAddr => do
        let start ← isSubstreamStart pps sync ctuAddr
        return if start then m_numSubstream + 1 else m_numSubstream) n =
          Except.ok (ε := String) (n + switches pps sync l) ∧
      (l.zip l.tail).foldlM (fun m_numEntryPoints (p : ℕ × ℕ) => do
        let entry ← isEntryPoint pps sync p.1 p.2
        return if entry then m_numEntryPoints + 1 else m_numEntryPoints) n =
          Except.ok (ε := String) (n + switches pps sync l) := by
    intro l h
    induction h with
    | nil => exact fun n => ⟨rfl, rfl⟩
    | singleton a => exact fun n => ⟨rfl, rfl⟩
    | @cons_cons a b l hab hl ih =>
      intro n
      obtain ⟨hstart, hentry⟩ := hab.tests sync hd
      have hsum : (if isSwitch pps sync a b then n + 1 else n) + switches pps sync (b :: l) =
          n + switches pps sync (a :: b :: l) := by
        rw [switches, switches, List.tail_cons, List.tail_cons, List.zip_cons_cons, List.countP_cons]
        cases hswitch : isSwitch pps sync a b
        · simp [hswitch]
        · simp [hswitch]
          omega
      obtain ⟨ih₁, ih₂⟩ := ih (if isSwitch pps sync a b then n + 1 else n)
      rw [hsum] at ih₁ ih₂
      refine ⟨?_, ?_⟩
      · rw [List.tail_cons, List.foldlM_cons, hstart]
        exact ih₁
      · rw [List.tail_cons, List.zip_cons_cons, List.foldlM_cons]
        dsimp only
        rw [hentry]
        exact ih₂
  obtain ⟨h₁, h₂⟩ := hcount h 0
  rw [Nat.zero_add] at h₁ h₂
  exact ⟨h₁, h₂⟩

/-! ## Slices are such chains -/

theorem isChain_flatMap {α β : Type} {R : β → β → Prop} {f : α → List β} {l : List α} (hne : ∀ a ∈ l, f a ≠ [])
    (hin : ∀ a ∈ l, (f a).IsChain R) (hnext : l.IsChain fun a b => ∀ x ∈ f a, ∀ y ∈ (f b).head?, R x y) :
    (l.flatMap f).IsChain R := by
  rw [List.flatMap_def, List.isChain_flatten]
  · refine ⟨fun l' hl' => ?_, ?_⟩
    · obtain ⟨a, ha, rfl⟩ := List.mem_map.mp hl'
      exact hin a ha
    · rw [List.isChain_map]
      exact hnext.imp fun a b hab x hx y hy => hab x (List.mem_of_mem_getLast? hx) y hy
  · intro hnil
    obtain ⟨a, ha, heq⟩ := List.mem_map.mp hnil
    exact hne a ha heq

/-- Some CTU rows of a tile. -/
structure Rows (pps : PPSTiles) (tx ty startY stopY : ℕ) : Prop where
  isTile : pps.IsTile (tx, ty)
  lo : pps.rows.bd ty ≤ startY
  lt : startY < stopY
  hi : stopY ≤ pps.rows.bd (ty + 1)

namespace Rows

variable {startY stopY : ℕ}

theorem at_of_mem (h : Rows pps tx ty startY stopY) (ha : a ∈ pps.rowCtus tx startY stopY) :
    ∃ x y, At pps a x y tx ty := by
  obtain ⟨x, y, hx, hx', hy, hy', rfl⟩ := SliceMap.mem_addCtusToSlice.mp ha
  exact ⟨x, y, rfl, h.isTile, hx, hx', h.lo.trans hy, hy'.trans_le h.hi⟩

theorem at_start (h : Rows pps tx ty startY stopY) (hd : pps.Divided) (hy : startY ≤ y) (hy' : y < stopY) :
    At pps (y * pps.m_picWidthInCtu + pps.cols.bd tx) (pps.cols.bd tx) y tx ty :=
  ⟨rfl, h.isTile, Nat.le_refl _, (hd.cols.step tx h.isTile.1).2, h.lo.trans hy, hy'.trans_le h.hi⟩

theorem head? (h : Rows pps tx ty startY stopY) (hd : pps.Divided) :
    (pps.rowCtus tx startY stopY).head? = some (startY * pps.m_picWidthInCtu + pps.cols.bd tx) := by
  have hlt := (hd.cols.step tx h.isTile.1).2
  obtain ⟨n, hn⟩ := Nat.exists_eq_add_of_lt h.lt
  obtain ⟨m, hm⟩ := Nat.exists_eq_add_of_lt hlt
  have hrows : stopY - startY = n + 1 := by omega
  have hcols : pps.cols.bd (tx + 1) - pps.cols.bd tx = m + 1 := by omega
  rw [rowCtus, SliceMap.addCtusToSlice, hrows, hcols, List.range'_succ, List.range'_succ]
  rfl

theorem isChain (h : Rows pps tx ty startY stopY) (hd : pps.Divided) :
    (pps.rowCtus tx startY stopY).IsChain (Follows pps) := by
  have hlt := (hd.cols.step tx h.isTile.1).2
  refine isChain_flatMap (fun y _ => ?_) (fun y hy => ?_) ?_
  · rw [Ne, List.map_eq_nil_iff, List.range'_eq_nil_iff]
    omega
  · rw [List.mem_range'_1] at hy
    rw [List.isChain_map]
    refine (List.isChain_range' _ _ 1).imp_of_mem_imp fun x x' hx hx' hnext => ?_
    rw [List.mem_range'_1] at hx hx'
    subst hnext
    exact .beside ⟨rfl, h.isTile, hx.1, by omega, h.lo.trans hy.1, by have := h.hi; omega⟩
      ⟨rfl, h.isTile, by omega, by omega, h.lo.trans hy.1, by have := h.hi; omega⟩
  · refine (List.isChain_range' _ _ 1).imp_of_mem_imp fun y y' hy hy' hnext a ha b hb => ?_
    rw [List.mem_range'_1] at hy hy'
    subst hnext
    obtain ⟨x, hx, rfl⟩ := List.mem_map.mp ha
    rw [List.mem_range'_1] at hx
    rw [List.head?_map, List.head?_range', if_neg (by omega)] at hb
    cases hb
    exact .below ⟨rfl, h.isTile, hx.1, by omega, h.lo.trans hy.1, by have := h.hi; omega⟩
      (h.at_start hd (by omega) (by omega))

end Rows

theorem IsTile.rows (hd : pps.Divided) {t : ℕ × ℕ} (ht : pps.IsTile t) :
    Rows pps t.1 t.2 (pps.rows.bd t.2) (pps.rows.bd (t.2 + 1)) :=
  ⟨ht, Nat.le_refl _, (hd.rows.step t.2 ht.2).2, Nat.le_refl _⟩

/-- The CTUs of a slice follow one another. -/
theorem SliceOf.isChain (hd : pps.Divided) {l : List ℕ} (h : pps.SliceOf l) : l.IsChain (Follows pps) := by
  cases h with
  | rows tx ty startY stopY isTile lo lt hi => exact Rows.isChain ⟨isTile, lo, lt, hi⟩ hd
  | tiles ts isTile order =>
    refine isChain_flatMap (fun t ht hnil => ?_) (fun t ht => (IsTile.rows hd (isTile t ht)).isChain hd) ?_
    · have hhead := (IsTile.rows hd (isTile t ht)).head? hd
      rw [show pps.rowCtus t.1 _ _ = [] from hnil] at hhead
      cases hhead
    · refine order.isChain.imp_of_mem_imp fun t t' ht ht' hbefore a ha b hb => ?_
      obtain ⟨x, y, hat⟩ := (IsTile.rows hd (isTile t ht)).at_of_mem ha
      have hrows' := IsTile.rows hd (isTile t' ht')
      rw [show (pps.tileCtus t').head? = _ from hrows'.head? hd] at hb
      cases hb
      refine .newTile hat (hrows'.at_start hd (Nat.le_refl _) hrows'.lt) fun heq => ?_
      obtain ⟨h₁, h₂⟩ := Prod.mk.inj heq
      rcases hbefore with hlt | ⟨-, hlt⟩
      · omega
      · omega

/-! ## Accepted slice maps -/

/-- The slice maps that the two functions accept. Subpictures that are part of a tile row are
complete CTU rows of a tile. -/
inductive SliceMapsOf (pps : PPSTiles) : List SliceMap → Prop
  | rect {sps : Option (List SubPicLayout)} {singleSlicePerSubPicFlag : Bool} {m_rectSlices : List RectSlice}
      {layout : SliceLayout} (accepted : pps.initRectSliceMap sps singleSlicePerSubPicFlag m_rectSlices = .ok layout)
      (fit : singleSlicePerSubPicFlag = true → ∀ subPics, sps = some subPics → 1 < subPics.length →
        pps.SubPicsFit subPics) : SliceMapsOf pps layout.m_sliceMap
  | raster {numTilesInSlice : List ℕ} {maps : List SliceMap}
      (accepted : pps.initRasterSliceMap numTilesInSlice = .ok maps) : SliceMapsOf pps maps

theorem SliceMapsOf.sliceOf (hd : pps.Divided) (hwidth : pps.m_picWidthInCtu < 2 ^ 31)
    (hheight : pps.m_picHeightInCtu < 2 ^ 31) {maps : List SliceMap} (h : SliceMapsOf pps maps) :
    ∀ map ∈ maps, pps.SliceOf map.m_ctuAddrInSlice := by
  cases h with
  | @raster nums _ accepted =>
    obtain ⟨_, -, accepted⟩ := bind_eq_ok accepted
    obtain ⟨maps', hmaps, accepted⟩ := bind_eq_ok accepted
    obtain ⟨_, -, accepted⟩ := bind_eq_ok accepted
    cases accepted
    exact rasterSlices_sliceOf hd hmaps
  | @rect sps flag rects layout accepted fit =>
    obtain ⟨ctuToSubPicIdx, -, accepted⟩ := bind_eq_ok accepted
    obtain ⟨st, hst, accepted⟩ := bind_eq_ok accepted
    obtain ⟨_, -, accepted⟩ := bind_eq_ok accepted
    cases accepted
    cases flag with
    | false => exact rectSlices_sliceOf hd hst
    | true =>
      cases sps with
      | none => cases hst
      | some subPics =>
        obtain ⟨maps, hmaps, hst⟩ := bind_eq_ok hst
        cases hst
        exact subPicSlices_sliceOf hd hwidth hheight (fit rfl subPics rfl) hmaps

/-- In an accepted slice map both functions count the switches of each slice. -/
theorem setNumEntryPoints_eq_substreams {picWidthInCtu picHeightInCtu : Fin (2 ^ 31)}
    {tileColWidth tileRowHeight : TileSizes} {maps : List SliceMap} {map : SliceMap}
    (htiles : initTiles picWidthInCtu picHeightInCtu tileColWidth tileRowHeight = .ok pps)
    (hmaps : SliceMapsOf pps maps) (hmap : map ∈ maps) (sync : Bool) :
    setNumSubstream pps sync map.m_ctuAddrInSlice = .ok (switches pps sync map.m_ctuAddrInSlice) ∧
      setNumEntryPoints pps sync true map.m_ctuAddrInSlice = .ok (switches pps sync map.m_ctuAddrInSlice) := by
  obtain ⟨hd, hwidth, hheight⟩ := initTiles_divided htiles
  have hslice := hmaps.sliceOf hd (hwidth ▸ picWidthInCtu.isLt) (hheight ▸ picHeightInCtu.isLt) map hmap
  exact setNum_of_chain hd (SliceOf.isChain hd hslice)

/-- Two raster slices of three tiles and one. -/
theorem setNumEntryPoints_eq_substreams_raster : ∃ pps maps,
    initTiles (4 : Fin (2 ^ 31)) (2 : Fin (2 ^ 31)) ⟨[2], by decide⟩ ⟨[1], by decide⟩ = .ok pps ∧
    pps.initRasterSliceMap [3, 1] = .ok maps ∧ ∀ map ∈ maps,
      setNumSubstream pps true map.m_ctuAddrInSlice = .ok (switches pps true map.m_ctuAddrInSlice) ∧
      setNumEntryPoints pps true true map.m_ctuAddrInSlice = .ok (switches pps true map.m_ctuAddrInSlice) := by
  obtain ⟨pps, maps, hpps, hmaps⟩ : ∃ pps maps,
      initTiles (4 : Fin (2 ^ 31)) (2 : Fin (2 ^ 31)) ⟨[2], by decide⟩ ⟨[1], by decide⟩ = .ok pps ∧
        pps.initRasterSliceMap [3, 1] = .ok maps := ⟨_, _, rfl, rfl⟩
  exact ⟨pps, maps, hpps, hmaps, fun map hmap =>
    setNumEntryPoints_eq_substreams hpps (.raster hmaps) hmap true⟩

/-- The slice of a subpicture that is one CTU row of two tiles: the second CTU comes from another
tile, and is no start of one. -/
theorem setNumEntryPoints_two_tiles : ∃ pps layout map,
    initTiles (2 : Fin (2 ^ 31)) (2 : Fin (2 ^ 31)) ⟨[1], by decide⟩ ⟨[2], by decide⟩ = .ok pps ∧
    pps.initRectSliceMap (some [⟨0, 0, 2, 1⟩, ⟨0, 1, 2, 1⟩]) true [] = .ok layout ∧ map ∈ layout.m_sliceMap ∧
      setNumSubstream pps false map.m_ctuAddrInSlice = .ok 0 ∧
      setNumEntryPoints pps false true map.m_ctuAddrInSlice = .ok 1 := by
  refine ⟨_, _, _, rfl, rfl, List.mem_cons_of_mem _ List.mem_cons_self, ?_, ?_⟩
  · rfl
  · rfl

end ECM.CommonLib.Slice
