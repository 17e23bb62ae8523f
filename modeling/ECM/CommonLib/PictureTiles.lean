import ECM.CommonLib.Slice
import ECM.Hls.SlicesInTile
import Mathlib.Data.List.Sort

/-! # Tiles of a picture

`initTiles` and the accessors of the tile boundaries. Columns and rows are set up alike, so
one definition makes the tables of either direction. -/

namespace ECM.CommonLib

def MAX_TILE_COLS : ℕ := 20

def MAX_SLICES : ℕ := 600

/-- Explicit tile sizes of one direction; the syntax has each one less one. -/
structure TileSizes where
  sizes : List ℕ
  pos : ∀ s ∈ sizes, 0 < s

/-- The tables of one direction. -/
structure TileAxis where
  /-- `m_tileColWidth` or `m_tileRowHeight`. -/
  m_tileSize : List ℕ
  /-- `m_tileColBd` or `m_tileRowBd`. -/
  m_tileBd : List ℕ
  /-- `m_ctuToTileCol` or `m_ctuToTileRow`. -/
  m_ctuToTile : List ℕ
  deriving DecidableEq, Repr

namespace TileAxis

/-- The explicit sizes are taken off one by one. -/
def explicitSizes (exceeds : String) : List ℕ → ℕ → Checked ℕ
  | [], remaining => pure remaining
  | size :: sizes, remaining => do
    check (size > remaining) exceeds
    explicitSizes exceeds sizes (remaining - size)

/-- The rest is divided uniformly. Each round takes off at least one CTU, so that as many
rounds as there are CTUs are enough. -/
def uniformSizes (maxTiles : Option ℕ) (tooMany : String) : (rounds idx remaining uniformSize : ℕ) →
    Checked (List ℕ)
  | 0, _, _, _ => pure []
  | rounds + 1, idx, remaining, uniformSize =>
    if remaining > 0 then do
      check (maxTiles.any (idx ≥ ·)) tooMany
      let uniformSize := min remaining uniformSize
      let rest ← uniformSizes maxTiles tooMany rounds (idx + 1) (remaining - uniformSize) uniformSize
      return uniformSize :: rest
    else pure []

/-- The boundaries: each one is the one before and the size of the tile. -/
def boundaries (m_tileSize : List ℕ) : List ℕ := m_tileSize.scanl (· + ·) 0

/-- One round of the loop that maps the CTUs to tiles. -/
def mapCtu (m_tileBd : List ℕ) (st : ℕ × List ℕ) (ctu : ℕ) : ℕ × List ℕ :=
  let idx := if m_tileBd[st.1 + 1]? = some ctu then st.1 + 1 else st.1
  (idx, st.2 ++ [idx])

/-- The map has an entry for the CTU behind the picture too. -/
def ctuMap (m_tileBd : List ℕ) (picSizeInCtu : ℕ) : List ℕ :=
  ((List.range (picSizeInCtu + 1)).foldl (mapCtu m_tileBd) (0, [])).2

/-- `initTiles` for one direction. -/
def initTiles (maxTiles : Option ℕ) (exceeds tooMany : String) (explicit : TileSizes) (picSizeInCtu : ℕ) :
    Checked TileAxis := do
  let remaining ← explicitSizes exceeds explicit.sizes picSizeInCtu
  let idx := explicit.sizes.length
  let last ← readAt explicit.sizes (idx - 1)
  let uniform ← uniformSizes maxTiles tooMany remaining idx remaining last
  let m_tileSize := explicit.sizes ++ uniform
  return { m_tileSize
           m_tileBd := boundaries m_tileSize
           m_ctuToTile := ctuMap (boundaries m_tileSize) picSizeInCtu }

def numTiles (a : TileAxis) : ℕ := a.m_tileSize.length

/-- `getTileColumnBd` or `getTileRowBd`. -/
def getTileBd (a : TileAxis) (exceeds : String) (idx : ℕ) : Checked ℕ :=
  match a.m_tileBd[idx]? with
  | some bd => pure bd
  | none => throw exceeds

/-- `ctuToTileCol` or `ctuToTileRow`. -/
def ctuToTile (a : TileAxis) (ctu : ℕ) : Checked ℕ :=
  match a.m_ctuToTile[ctu]? with
  | some idx => pure idx
  | none => throw "CTU address index exceeds valid range"

end TileAxis

/-- What a picture parameter set has of tiles. -/
structure PPSTiles where
  m_picWidthInCtu : ℕ
  m_picHeightInCtu : ℕ
  cols : TileAxis
  rows : TileAxis
  deriving DecidableEq, Repr

namespace PPSTiles

def initTiles (m_picWidthInCtu m_picHeightInCtu : ℕ) (tileColWidth tileRowHeight : TileSizes) :
    Checked PPSTiles := do
  let cols ← TileAxis.initTiles (some MAX_TILE_COLS) "Tile column width exceeds picture width"
    "Number of tile columns exceeds valid range" tileColWidth m_picWidthInCtu
  let rows ← TileAxis.initTiles none "Tile row height exceeds picture height"
    "Number of tile rows exceeds valid range" tileRowHeight m_picHeightInCtu
  return { m_picWidthInCtu, m_picHeightInCtu, cols, rows }

variable (pps : PPSTiles)

def getNumTileColumns : ℕ := pps.cols.numTiles

def getNumTileRows : ℕ := pps.rows.numTiles

def getTileColumnBd (idx : ℕ) : Checked ℕ := pps.cols.getTileBd "Tile column index exceeds valid range" idx

def getTileRowBd (idx : ℕ) : Checked ℕ := pps.rows.getTileBd "Tile row index exceeds valid range" idx

def ctuToTileCol (ctuX : ℕ) : Checked ℕ := pps.cols.ctuToTile ctuX

def ctuToTileRow (ctuY : ℕ) : Checked ℕ := pps.rows.ctuToTile ctuY

def ctuToTileColBd (ctuX : ℕ) : Checked ℕ := do
  let tileCol ← pps.ctuToTileCol ctuX
  pps.getTileColumnBd tileCol

def ctuToTileRowBd (ctuY : ℕ) : Checked ℕ := do
  let tileRow ← pps.ctuToTileRow ctuY
  pps.getTileRowBd tileRow

def ctuIsTileColBd (ctuX : ℕ) : Checked Bool := do
  let bd ← pps.ctuToTileColBd ctuX
  return ctuX = bd

def ctuIsTileRowBd (ctuY : ℕ) : Checked Bool := do
  let bd ← pps.ctuToTileRowBd ctuY
  return ctuY = bd

/-- `getTileIdx` of a raster address. -/
def getTileIdx (ctuRsAddr : ℕ) : Checked ℕ := do
  let tileRow ← pps.ctuToTileRow (ctuRsAddr / pps.m_picWidthInCtu)
  let tileCol ← pps.ctuToTileCol (ctuRsAddr % pps.m_picWidthInCtu)
  return tileRow * pps.getNumTileColumns + tileCol

end PPSTiles

end ECM.CommonLib

/-! # Slices of a picture

`initRectSliceMap` and `initRasterSliceMap` fill the slice maps; `setNumSubstream` and
`setNumEntryPoints` count in them. -/

namespace ECM.CommonLib

structure SliceMap where
  m_sliceID : ℕ
  m_numTilesInSlice : ℕ
  m_ctuAddrInSlice : List ℕ
  deriving DecidableEq, Repr

namespace SliceMap

/-- After `initSliceMap` and `setSliceID`. -/
def new (m_sliceID : ℕ) : SliceMap := ⟨m_sliceID, 0, []⟩

/-- `addCtusToSlice` with its check. -/
def addCtus (map : SliceMap) (startX stopX startY stopY picWidthInCtbsY : ℕ) : Checked SliceMap := do
  check (startX ≥ stopX ∨ startY ≥ stopY) "Invalid slice definition"
  return { map with
    m_ctuAddrInSlice := map.m_ctuAddrInSlice ++ addCtusToSlice startX stopX startY stopY picWidthInCtbsY }

end SliceMap

/-- A subpicture of the sequence parameter set. -/
structure SubPicLayout where
  ctuTopLeftX : ℕ
  ctuTopLeftY : ℕ
  width : ℕ
  height : ℕ
  deriving DecidableEq, Repr

/-- What `initRectSliceMap` leaves. -/
structure SliceLayout where
  m_ctuToSubPicIdx : List ℕ
  m_rectSlices : List RectSlice
  m_sliceMap : List SliceMap
  deriving DecidableEq, Repr

namespace PPSTiles
open Lib.Loop

variable (pps : PPSTiles)

/-- The CTUs of one tile are added to the slice. -/
def addTile (map : SliceMap) (tileX tileY : ℕ) : Checked SliceMap := do
  let startX ← pps.getTileColumnBd tileX
  let stopX ← pps.getTileColumnBd (tileX + 1)
  let startY ← pps.getTileRowBd tileY
  let stopY ← pps.getTileRowBd (tileY + 1)
  map.addCtus startX stopX startY stopY pps.m_picWidthInCtu

/-- The two loops over the tiles of a rectangle. -/
def addTiles (tileX tileY widthInTiles heightInTiles : ℕ) (map : SliceMap) : Checked SliceMap :=
  loop (fun j map => loop (fun k map => pps.addTile map (tileX + k) (tileY + j)) widthInTiles map)
    heightInTiles map

/-! ## `checkSliceMap` -/

/-- The loop over the neighbours in the sorted list. -/
def checkNeighbours : List ℕ → Checked Unit
  | a :: b :: rest => do
    check (b > a + 1) "CTU missing in slice map"
    check (b = a) "CTU duplicated in slice map"
    checkNeighbours (b :: rest)
  | _ => pure ()

def checkSliceMap (m_sliceMap : List SliceMap) : Checked Unit := do
  let ctuList := m_sliceMap.flatMap SliceMap.m_ctuAddrInSlice
  let picSizeInCtu := pps.m_picWidthInCtu * pps.m_picHeightInCtu
  check (ctuList.length < picSizeInCtu) "Slice map contains too few CTUs"
  check (ctuList.length > picSizeInCtu) "Slice map contains too many CTUs"
  checkNeighbours (ctuList.insertionSort (· ≤ ·))

/-! ## `initRectSliceMap` -/

/-- `m_ctuToSubPicIdx[ctu] = i` at the CTUs of the subpicture `i`. -/
def setSubPicIdx (m_ctuToSubPicIdx : List ℕ) (subPic : SubPicLayout × ℕ) : Checked (List ℕ) :=
  let (s, i) := subPic
  (SliceMap.addCtusToSlice s.ctuTopLeftX (s.ctuTopLeftX + s.width) s.ctuTopLeftY (s.ctuTopLeftY + s.height)
    pps.m_picWidthInCtu).foldlM (fun m_ctuToSubPicIdx ctu => writeAt m_ctuToSubPicIdx ctu i) m_ctuToSubPicIdx

/-- `m_ctuToSubPicIdx`; without a sequence parameter set it is left alone. -/
def initCtuToSubPicIdx : Option (List SubPicLayout) → Checked (List ℕ)
  | none => pure []
  | some subPics =>
    let m_ctuToSubPicIdx := List.replicate (pps.m_picWidthInCtu * pps.m_picHeightInCtu) 0
    if subPics.length > 1 then subPics.zipIdx.foldlM pps.setSubPicIdx m_ctuToSubPicIdx
    else pure m_ctuToSubPicIdx

/-- `subpicHeightLessThanOneTileFlag` of a subpicture. -/
def subpicHeightLessThanOneTileFlag (s : SubPicLayout) (tileY subpicHeightInTiles : ℕ) : Checked Bool :=
  if subpicHeightInTiles = 1 then do
    let tileRowHeight ← readAt pps.rows.m_tileSize tileY
    return s.height < tileRowHeight
  else pure false

/-- The slice of one of several subpictures. -/
def subPicSlice (s : SubPicLayout) : Checked SliceMap := do
  let tileX ← readAt pps.cols.m_ctuToTile s.ctuTopLeftX
  let rightTile ← readAt pps.cols.m_ctuToTile (sub32 (s.ctuTopLeftX + s.width) 1)
  let tileY ← readAt pps.rows.m_ctuToTile s.ctuTopLeftY
  let bottomTile ← readAt pps.rows.m_ctuToTile (sub32 (s.ctuTopLeftY + s.height) 1)
  let subpicWidthInTiles := sub32 (rightTile + 1) tileX
  let subpicHeightInTiles := sub32 (bottomTile + 1) tileY
  let lessThanOneTile ← pps.subpicHeightLessThanOneTileFlag s tileY subpicHeightInTiles
  if lessThanOneTile then
    (SliceMap.new 0).addCtus s.ctuTopLeftX (u32 (s.ctuTopLeftX + s.width)) s.ctuTopLeftY
      (u32 (s.ctuTopLeftY + s.height)) pps.m_picWidthInCtu
  else pps.addTiles tileX tileY subpicWidthInTiles subpicHeightInTiles (SliceMap.new 0)

/-- One slice for each subpicture. -/
def subPicSlices (subPics : List SubPicLayout) : Checked (List SliceMap) := do
  check (subPics.length > MAX_SLICES) "Number of slices in picture exceeds valid range"
  match subPics with
  | [] => throw outOfRange
  | [_] =>
    let map ← pps.addTiles 0 0 pps.getNumTileColumns pps.getNumTileRows (SliceMap.new 0)
    return [map]
  | subPics => subPics.mapM pps.subPicSlice

/-- The slices that have been made so far; the next one has the index `m_sliceMap.length`. -/
structure RectSliceState where
  m_rectSlices : List RectSlice
  m_sliceMap : List SliceMap

namespace RectSliceState

def push (st : RectSliceState) (map : SliceMap) : RectSliceState :=
  { st with m_sliceMap := st.m_sliceMap ++ [map] }

end RectSliceState

/-- One round of the loop over the slices of a tile but the last. -/
def sliceInTile (tileX : ℕ) (ctuY : ℕ) (st : RectSliceState) : Checked (ℕ × RectSliceState) := do
  let i := st.m_sliceMap.length
  let slice ← readAt st.m_rectSlices i
  let startX ← pps.getTileColumnBd tileX
  let stopX ← pps.getTileColumnBd (tileX + 1)
  let map ← (SliceMap.new i).addCtus startX stopX ctuY (u32 (ctuY + slice.m_sliceHeightInCtu)) pps.m_picWidthInCtu
  -- `m_sliceMap[ ++i ]` is initialized
  let _ ← readAt st.m_rectSlices (i + 1)
  return (u32 (ctuY + slice.m_sliceHeightInCtu), st.push map)

/-- Multiple slices within a single tile. -/
def slicesInTile (tileX tileY numSlicesInTile : ℕ) (st : RectSliceState) : Checked RectSliceState := do
  let ctuY ← pps.getTileRowBd tileY
  let (ctuY, st) ← loop (fun _ (ctuY, st) => pps.sliceInTile tileX ctuY st) (sub32 numSlicesInTile 1) (ctuY, st)
  let i := st.m_sliceMap.length
  let slice ← readAt st.m_rectSlices i
  let stopY ← pps.getTileRowBd (tileY + 1)
  check (ctuY ≥ stopY) "Invalid rectangular slice signalling"
  let startX ← pps.getTileColumnBd tileX
  let stopX ← pps.getTileColumnBd (tileX + 1)
  let map ← (SliceMap.new i).addCtus startX stopX ctuY stopY pps.m_picWidthInCtu
  return { st with m_rectSlices := st.m_rectSlices.set i { slice with m_sliceHeightInCtu := stopY - ctuY } }.push map

/-- One round of the loop over the slices. -/
def rectSlice (st : RectSliceState) : Checked RectSliceState := do
  let i := st.m_sliceMap.length
  let slice ← readAt st.m_rectSlices i
  let tileX := slice.m_tileIdx % pps.getNumTileColumns
  let tileY := slice.m_tileIdx / pps.getNumTileColumns
  -- infer slice size for last slice in picture
  let slice :=
    if i = st.m_rectSlices.length - 1 then
      { slice with
        m_sliceWidthInTiles := pps.getNumTileColumns - tileX
        m_sliceHeightInTiles := sub32 pps.getNumTileRows tileY
        m_numSlicesInTile := 1 }
    else slice
  let st := { st with m_rectSlices := st.m_rectSlices.set i slice }
  if slice.m_sliceWidthInTiles > 1 ∨ slice.m_sliceHeightInTiles > 1 then do
    let map ← pps.addTiles tileX tileY slice.m_sliceWidthInTiles slice.m_sliceHeightInTiles (SliceMap.new i)
    return st.push map
  else pps.slicesInTile tileX tileY slice.m_numSlicesInTile st

/-- The loop over the slices. Each round makes one slice or more. -/
def rectSlices (m_rectSlices : List RectSlice) : Checked RectSliceState := do
  check (m_rectSlices.length > MAX_SLICES) "Number of slices in picture exceeds valid range"
  loop (fun _ st => if st.m_sliceMap.length < m_rectSlices.length then pps.rectSlice st else pure st)
    m_rectSlices.length ⟨m_rectSlices, []⟩

/-- One slice for each subpicture, or those of the rectangular slices. -/
def sliceMaps (sps : Option (List SubPicLayout)) (singleSlicePerSubPicFlag : Bool)
    (m_rectSlices : List RectSlice) : Checked RectSliceState :=
  if singleSlicePerSubPicFlag then
    match sps with
    | none => throw "RectSliceMap can only be initialized for slice_per_sub_pic_flag with a valid SPS"
    | some subPics => do
      let m_sliceMap ← pps.subPicSlices subPics
      return { m_rectSlices, m_sliceMap }
  else pps.rectSlices m_rectSlices

/-- `sps` has the subpictures. -/
def initRectSliceMap (sps : Option (List SubPicLayout)) (singleSlicePerSubPicFlag : Bool)
    (m_rectSlices : List RectSlice) : Checked SliceLayout := do
  let m_ctuToSubPicIdx ← pps.initCtuToSubPicIdx sps
  let st ← pps.sliceMaps sps singleSlicePerSubPicFlag m_rectSlices
  pps.checkSliceMap st.m_sliceMap
  return { m_ctuToSubPicIdx
           m_rectSlices := st.m_rectSlices
           m_sliceMap := st.m_sliceMap }

/-! ## `initRasterSliceMap` -/

/-- The loop over the tiles of a slice; the state is `tileIdx` and the slice. -/
def rasterSlice (numTilesInSlice tileIdx : ℕ) : Checked (ℕ × SliceMap) :=
  loop (fun _ (tileIdx, map) => do
    let tileX := tileIdx % pps.getNumTileColumns
    let tileY := tileIdx / pps.getNumTileColumns
    check (tileY ≥ pps.getNumTileRows)
      "Number of tiles in slice exceeds the remaining number of tiles in picture"
    let map ← pps.addTile map tileX tileY
    return (tileIdx + 1, map)) numTilesInSlice (tileIdx, ⟨tileIdx, numTilesInSlice, []⟩)

def rasterSlices : List ℕ → ℕ → Checked (List SliceMap)
  | [], _ => pure []
  | numTiles :: numTilesInSlice, tileIdx => do
    let (tileIdx, map) ← pps.rasterSlice numTiles tileIdx
    let maps ← rasterSlices numTilesInSlice tileIdx
    return map :: maps

def initRasterSliceMap (numTilesInSlice : List ℕ) : Checked (List SliceMap) := do
  check (numTilesInSlice.length > MAX_SLICES) "Number of slices in picture exceeds valid range"
  let m_sliceMap ← pps.rasterSlices numTilesInSlice 0
  pps.checkSliceMap m_sliceMap
  return m_sliceMap

end PPSTiles

/-! ## Entry points of a slice -/

namespace Slice

variable (pps : PPSTiles) (entropyCodingSyncEnabledFlag : Bool)

/-- The CTU aligns with the start of a tile, or with an entropy coding sync point. -/
def isSubstreamStart (ctuAddr : ℕ) : Checked Bool := do
  let ctuX := ctuAddr % pps.m_picWidthInCtu
  let ctuY := ctuAddr / pps.m_picWidthInCtu
  if ← pps.ctuIsTileColBd ctuX then
    let isTileRowBd ← pps.ctuIsTileRowBd ctuY
    return isTileRowBd || entropyCodingSyncEnabledFlag
  else return false

/-- `setNumSubstream`; the first CTU does not count. -/
def setNumSubstream (ctuAddrInSlice : List ℕ) : Checked ℕ :=
  ctuAddrInSlice.tail.foldlM (fun m_numSubstream ctuAddr => do
    let start ← isSubstreamStart pps entropyCodingSyncEnabledFlag ctuAddr
    return if start then m_numSubstream + 1 else m_numSubstream) 0

/-- The CTU comes in another tile than the one before, or in another row. -/
def isEntryPoint (prevCtuAddr ctuAddr : ℕ) : Checked Bool := do
  let rowBd ← pps.ctuToTileRowBd (ctuAddr / pps.m_picWidthInCtu)
  let prevRowBd ← pps.ctuToTileRowBd (prevCtuAddr / pps.m_picWidthInCtu)
  if rowBd ≠ prevRowBd then return true
  let colBd ← pps.ctuToTileColBd (ctuAddr % pps.m_picWidthInCtu)
  let prevColBd ← pps.ctuToTileColBd (prevCtuAddr % pps.m_picWidthInCtu)
  if colBd ≠ prevColBd then return true
  return ctuAddr / pps.m_picWidthInCtu ≠ prevCtuAddr / pps.m_picWidthInCtu && entropyCodingSyncEnabledFlag

/-- `setNumEntryPoints`. -/
def setNumEntryPoints (entryPointsPresentFlag : Bool) (ctuAddrInSlice : List ℕ) : Checked ℕ :=
  if !entryPointsPresentFlag then pure 0
  else
    (ctuAddrInSlice.zip ctuAddrInSlice.tail).foldlM (fun m_numEntryPoints (prevCtuAddr, ctuAddr) => do
      let entry ← isEntryPoint pps entropyCodingSyncEnabledFlag prevCtuAddr ctuAddr
      return if entry then m_numEntryPoints + 1 else m_numEntryPoints) 0

end Slice

end ECM.CommonLib
