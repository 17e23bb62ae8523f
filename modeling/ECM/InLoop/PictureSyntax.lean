import ECM.CommonLib.Slice
import ECM.InLoop.ControlSyntax
import Mathlib.Data.List.Nodup

/-! # The control syntax of a picture read back

The CTUs are coded slice by slice, and in each tile of a slice in raster order. When a
CTU is read, its neighbours in the same slice and tile have been read. -/

namespace ECM.InLoop
open CommonLib CommonLib.Bins CommonLib.InLoopFilter CommonLib.SliceMap
open EncoderLib DecoderLib Lib.Codec Lib.Loop

/-! ## Slices and tiles -/

/-- The part of a slice in one tile. -/
structure SlicePart where
  startX : ℕ
  stopX : ℕ
  startY : ℕ
  stopY : ℕ
  tileIdx : ℕ

structure CodedSlice where
  slice : Slice
  parts : List SlicePart

/-- The CTUs of a part, as they are added to the slice. -/
def SlicePart.ctus (part : SlicePart) (pcv : PreCalcValues) : List ℕ :=
  addCtusToSlice part.startX part.stopX part.startY part.stopY pcv.widthInCtus

def CodedSlice.ctuAddrInSlice (s : CodedSlice) (pcv : PreCalcValues) : List ℕ :=
  s.parts.flatMap fun part => part.ctus pcv

/-- A picture divided into slices, and each slice into parts of different tiles. -/
structure PictureLayout where
  sps : SPS
  pps : PPS
  pcv : PreCalcValues
  slices : List CodedSlice
  /-- The slice of the units of a CTU. -/
  ctuSlice : ℕ → Slice
  part_inPic : ∀ s ∈ slices, ∀ part ∈ s.parts, part.stopX ≤ pcv.widthInCtus ∧ part.stopY ≤ pcv.heightInCtus
  part_inTile : ∀ s ∈ slices, ∀ part ∈ s.parts, ∀ x y, part.startX ≤ x → x < part.stopX →
    part.startY ≤ y → y < part.stopY → pps.getTileIdx x y = part.tileIdx
  part_tiles : ∀ s ∈ slices, s.parts.Pairwise fun part part' => part.tileIdx ≠ part'.tileIdx
  slice_idx : slices.Pairwise fun s s' => s.slice.independentSliceIdx ≠ s'.slice.independentSliceIdx
  ctuSlice_eq : ∀ s ∈ slices, ∀ a ∈ s.ctuAddrInSlice pcv, ctuSlice a = s.slice
  complete : ∀ a < pcv.sizeInCtus, ∃ s ∈ slices, a ∈ s.ctuAddrInSlice pcv

namespace PictureLayout
variable (L : PictureLayout)

/-- The CTUs in coding order. -/
def ctuOrder : List ℕ := L.slices.flatMap fun s => s.ctuAddrInSlice L.pcv

/-- What the coder of a CTU sees when the CTUs `coded` have units. -/
def codingStructure (ctuRsAddr : ℕ) (coded : List ℕ) : InLoopFilter.CodingStructure where
  sps := L.sps
  pps := L.pps
  pcv := L.pcv
  slice := L.ctuSlice ctuRsAddr
  ctuSliceIdx a := (L.ctuSlice a).independentSliceIdx
  coded := coded

/-- The encoder has coded every CTU before it writes the first. -/
def encoder (ctuRsAddr : ℕ) : InLoopFilter.CodingStructure := L.codingStructure ctuRsAddr (List.range L.pcv.sizeInCtus)

def tileIdx (ctuRsAddr : ℕ) : ℕ :=
  L.pps.getTileIdx (ctuRsAddr % L.pcv.widthInCtus) (ctuRsAddr / L.pcv.widthInCtus)

/-- Of two CTUs of a slice and tile, the one with the lower address comes first. -/
def InOrder (a b : ℕ) : Prop :=
  (L.ctuSlice a).independentSliceIdx = (L.ctuSlice b).independentSliceIdx → L.tileIdx a = L.tileIdx b → a < b

variable {L}

theorem mem_part {s : CodedSlice} (hs : s ∈ L.slices) {part : SlicePart} (hpart : part ∈ s.parts) {a : ℕ}
    (ha : a ∈ part.ctus L.pcv) : a < L.pcv.sizeInCtus ∧ L.tileIdx a = part.tileIdx := by
  obtain ⟨x, y, hx, hx', hy, hy', rfl⟩ := mem_addCtusToSlice.mp ha
  obtain ⟨hw, hh⟩ := L.part_inPic s hs part hpart
  have hlt : x < L.pcv.widthInCtus := Nat.lt_of_lt_of_le hx' hw
  refine ⟨?_, ?_⟩
  · calc y * L.pcv.widthInCtus + x < (y + 1) * L.pcv.widthInCtus := by rw [Nat.succ_mul]; omega
      _ ≤ L.pcv.heightInCtus * L.pcv.widthInCtus := Nat.mul_le_mul_right _ (Nat.lt_of_lt_of_le hy' hh)
      _ = L.pcv.sizeInCtus := Nat.mul_comm _ _
  · rw [tileIdx, Nat.mul_comm, Nat.mul_add_mod, Nat.mod_eq_of_lt hlt, Nat.mul_add_div (by omega),
      Nat.div_eq_of_lt hlt, Nat.add_zero]
    exact L.part_inTile s hs part hpart x y hx hx' hy hy'

theorem ctuOrder_lt {a : ℕ} (ha : a ∈ L.ctuOrder) : a < L.pcv.sizeInCtus := by
  obtain ⟨s, hs, hmem⟩ := List.mem_flatMap.mp ha
  obtain ⟨part, hpart, hmem⟩ := List.mem_flatMap.mp hmem
  exact (mem_part hs hpart hmem).1

theorem ctuOrder_inOrder (L : PictureLayout) : L.ctuOrder.Pairwise L.InOrder := by
  rw [ctuOrder, List.pairwise_flatMap]
  constructor
  · intro s hs
    rw [CodedSlice.ctuAddrInSlice, List.pairwise_flatMap]
    constructor
    · intro part hpart
      exact (addCtusToSlice_sorted (L.part_inPic s hs part hpart).1).imp fun hlt _ _ => hlt
    · refine (L.part_tiles s hs).imp_of_mem fun {part part'} hpart hpart' hne a ha b hb _ htile => ?_
      rw [(mem_part hs hpart ha).2, (mem_part hs hpart' hb).2] at htile
      exact absurd htile hne
  · refine L.slice_idx.imp_of_mem fun {s s'} hs hs' hne a ha b hb hslice _ => ?_
    rw [L.ctuSlice_eq s hs a ha, L.ctuSlice_eq s' hs' b hb] at hslice
    exact absurd hslice hne

/-- A CTU that is coded later in the same slice and tile has a higher address. -/
theorem mem_done {done left : List ℕ} {a n : ℕ} (horder : L.ctuOrder = done ++ a :: left)
    (hn : n < L.pcv.sizeInCtus) (hlt : n < a)
    (hslice : (L.ctuSlice n).independentSliceIdx = (L.ctuSlice a).independentSliceIdx)
    (htile : L.tileIdx n = L.tileIdx a) : n ∈ done := by
  obtain ⟨s, hs, hmem⟩ := L.complete n hn
  have hall : n ∈ done ++ a :: left := by
    rw [← horder]
    exact List.mem_flatMap.mpr ⟨s, hs, hmem⟩
  have hpairs := L.ctuOrder_inOrder
  rw [horder, List.pairwise_append, List.pairwise_cons] at hpairs
  rcases List.mem_append.mp hall with hdone | hrest
  · exact hdone
  · rcases List.mem_cons.mp hrest with rfl | hlater
    · exact absurd hlt (Nat.lt_irrefl n)
    · exact absurd (hpairs.2.1.1 n hlater hslice.symm htile.symm) (Nat.lt_asymm hlt)

end PictureLayout

/-! ## Neighbours -/

section Neighbours

variable {cs : InLoopFilter.CodingStructure} {done : List ℕ} {pos : Position} {dx dy : ℤ} {n : ℕ}

theorem getCU_eq_some : cs.getCU pos = some n ↔
    (0 ≤ pos.x ∧ pos.x < cs.pcv.lumaWidth ∧ 0 ≤ pos.y ∧ pos.y < cs.pcv.lumaHeight) ∧
      n = pos.y.toNat / cs.pcv.maxCUHeight * cs.pcv.widthInCtus + pos.x.toNat / cs.pcv.maxCUWidth ∧
      n ∈ cs.coded := by
  rw [InLoopFilter.CodingStructure.getCU]
  constructor
  · intro h
    split at h
    · next hin =>
      dsimp only at h
      split at h
      · next hmem =>
        cases h
        exact ⟨hin, rfl, hmem⟩
      · cases h
    · cases h
  · rintro ⟨hin, rfl, hmem⟩
    rw [if_pos hin]
    exact if_pos hmem

theorem getCU_coded (hn : n ∈ cs.coded) :
    ({ cs with coded := done } : InLoopFilter.CodingStructure).getCU pos = some n ↔ cs.getCU pos = some n ∧ n ∈ done := by
  rw [getCU_eq_some, getCU_eq_some]
  exact ⟨fun h => ⟨⟨h.1, h.2.1, hn⟩, h.2.2⟩, fun h => ⟨h.1.1, h.1.2.1, h.2⟩⟩

/-- What an available neighbour is. -/
theorem neighbourAvail_true (h : cs.neighbourAvail pos dx dy = true) : ∃ n,
    cs.getCU (InLoopFilter.offset pos dx dy) = some n ∧ cs.ctuSliceIdx n = cs.slice.independentSliceIdx ∧
      cs.ctuTileIdx n = cs.tileIdxAt pos := by
  rw [InLoopFilter.CodingStructure.neighbourAvail, InLoopFilter.CodingStructure.getCURestricted] at h
  split at h
  · cases h
  · next n hn =>
    obtain ⟨hslice, htile, _⟩ := of_decide_eq_true h
    exact ⟨n, hn, hslice, htile⟩

/-- A reader that has the units of this slice and tile sees the same neighbours. -/
theorem neighbourAvail_coded (hsub : ∀ n ∈ done, n ∈ cs.coded)
    (h : ∀ n, cs.getCU (InLoopFilter.offset pos dx dy) = some n →
      cs.ctuSliceIdx n = cs.slice.independentSliceIdx → cs.ctuTileIdx n = cs.tileIdxAt pos → n ∈ done) :
    ({ cs with coded := done } : InLoopFilter.CodingStructure).neighbourAvail pos dx dy = cs.neighbourAvail pos dx dy := by
  rw [Bool.eq_iff_iff]
  constructor
  · intro havail
    obtain ⟨n, hn, -, -⟩ := neighbourAvail_true havail
    have hmem : n ∈ done := (getCU_eq_some.mp hn).2.2
    have hall := ((getCU_coded (hsub n hmem)).mp hn).1
    rw [InLoopFilter.CodingStructure.neighbourAvail, InLoopFilter.CodingStructure.getCURestricted, hn] at havail
    rw [InLoopFilter.CodingStructure.neighbourAvail, InLoopFilter.CodingStructure.getCURestricted, hall]
    exact havail
  · intro havail
    obtain ⟨n, hn, hslice, htile⟩ := neighbourAvail_true havail
    have hmem := h n hn hslice htile
    have hdone := (@getCU_coded _ done _ _ (hsub n hmem)).mpr ⟨hn, hmem⟩
    rw [InLoopFilter.CodingStructure.neighbourAvail, InLoopFilter.CodingStructure.getCURestricted, hn] at havail
    rw [InLoopFilter.CodingStructure.neighbourAvail, InLoopFilter.CodingStructure.getCURestricted, hdone]
    exact havail

/-- The unit at the corner of a CTU. -/
theorem getCU_corner {x y : ℤ} (h : cs.getCU ⟨x * cs.pcv.maxCUWidth, y * cs.pcv.maxCUHeight⟩ = some n) :
    ∃ x' y' : ℕ, x = x' ∧ y = y' ∧ n = y' * cs.pcv.widthInCtus + x' := by
  have hw : (0 : ℤ) < cs.pcv.maxCUWidth := Int.natCast_pos.mpr cs.pcv.maxCUWidth_pos
  have hh : (0 : ℤ) < cs.pcv.maxCUHeight := by rw [cs.pcv.square]; exact hw
  obtain ⟨hin, heq, -⟩ := getCU_eq_some.mp h
  obtain ⟨x', rfl⟩ := Int.eq_ofNat_of_zero_le (nonneg_of_mul_nonneg_left hin.1 hw)
  obtain ⟨y', rfl⟩ := Int.eq_ofNat_of_zero_le (nonneg_of_mul_nonneg_left hin.2.2.1 hh)
  refine ⟨x', y', rfl, rfl, ?_⟩
  rw [heq, ← Int.natCast_mul, ← Int.natCast_mul, Int.toNat_natCast, Int.toNat_natCast,
    Nat.mul_div_cancel _ (Int.natCast_pos.mp hw), Nat.mul_div_cancel _ (Int.natCast_pos.mp hh)]

theorem ctuPos_eq (cs : InLoopFilter.CodingStructure) (a : ℕ) : cs.ctuPos a =
    ⟨(a % cs.pcv.widthInCtus : ℕ) * cs.pcv.maxCUWidth, (a / cs.pcv.widthInCtus : ℕ) * cs.pcv.maxCUHeight⟩ := by
  rw [InLoopFilter.CodingStructure.ctuPos, Nat.mod_def, Nat.mul_comm cs.pcv.widthInCtus]

theorem tileIdxAt_ctuPos (cs : InLoopFilter.CodingStructure) (a : ℕ) : cs.tileIdxAt (cs.ctuPos a) = cs.ctuTileIdx a := by
  rw [InLoopFilter.CodingStructure.tileIdxAt, InLoopFilter.CodingStructure.ctuTileIdx, ctuPos_eq, cs.pcv.square]
  dsimp only
  rw [← Int.natCast_mul, ← Int.natCast_mul, Int.toNat_natCast, Int.toNat_natCast,
    Nat.mul_div_cancel _ cs.pcv.maxCUWidth_pos, Nat.mul_div_cancel _ cs.pcv.maxCUWidth_pos]

variable {a : ℕ}

theorem getCU_left (h : cs.getCU (InLoopFilter.offset (cs.ctuPos a) (-cs.pcv.maxCUWidth) 0) = some n) :
    n + 1 = a := by
  have hpos : InLoopFilter.offset (cs.ctuPos a) (-cs.pcv.maxCUWidth) 0 =
      ⟨(((a % cs.pcv.widthInCtus : ℕ) : ℤ) - 1) * cs.pcv.maxCUWidth,
        ((a / cs.pcv.widthInCtus : ℕ) : ℤ) * cs.pcv.maxCUHeight⟩ := by
    rw [ctuPos_eq, InLoopFilter.offset, Int.sub_mul, Int.one_mul, Int.add_zero, Int.sub_eq_add_neg]
  rw [hpos] at h
  obtain ⟨x, y, hx, hy, rfl⟩ := getCU_corner h
  have hdiv := Nat.div_add_mod a cs.pcv.widthInCtus
  rw [Nat.mul_comm, Int.natCast_inj.mp hy] at hdiv
  omega

theorem getCU_above (h : cs.getCU (InLoopFilter.offset (cs.ctuPos a) 0 (-cs.pcv.maxCUHeight)) = some n) :
    n + cs.pcv.widthInCtus = a := by
  have hpos : InLoopFilter.offset (cs.ctuPos a) 0 (-cs.pcv.maxCUHeight) =
      ⟨((a % cs.pcv.widthInCtus : ℕ) : ℤ) * cs.pcv.maxCUWidth,
        (((a / cs.pcv.widthInCtus : ℕ) : ℤ) - 1) * cs.pcv.maxCUHeight⟩ := by
    rw [ctuPos_eq, InLoopFilter.offset, Int.sub_mul, Int.one_mul, Int.add_zero, Int.sub_eq_add_neg]
  rw [hpos] at h
  obtain ⟨x, y, hx, hy, rfl⟩ := getCU_corner h
  have hdiv := Nat.div_add_mod a cs.pcv.widthInCtus
  have hrow : a / cs.pcv.widthInCtus = y + 1 := by omega
  rw [Nat.mul_comm, hrow, Int.natCast_inj.mp hx, Nat.succ_mul] at hdiv
  omega

end Neighbours

section Layout

variable {L : PictureLayout} {done left : List ℕ} {a n : ℕ} {pic pic' : PicControl}

theorem widthInCtus_pos (pcv : PreCalcValues) : 0 < pcv.widthInCtus := by
  have hw := pcv.lumaWidth_pos
  exact Nat.div_pos (by omega) pcv.maxCUWidth_pos

/-- CTUs of one slice are coded with the same parameters. -/
theorem encoder_eq (ha : a ∈ L.ctuOrder) (hn : n ∈ L.ctuOrder)
    (hslice : (L.ctuSlice n).independentSliceIdx = (L.ctuSlice a).independentSliceIdx) :
    L.encoder n = L.encoder a := by
  obtain ⟨s, hs, hmem⟩ := List.mem_flatMap.mp ha
  obtain ⟨s', hs', hmem'⟩ := List.mem_flatMap.mp hn
  have hslices : L.slices.Pairwise fun s s' => s.slice.independentSliceIdx ≠ s'.slice.independentSliceIdx :=
    L.slice_idx
  rw [L.ctuSlice_eq s hs a hmem, L.ctuSlice_eq s' hs' n hmem'] at hslice
  have hnodup : (L.slices.map fun s => s.slice.independentSliceIdx).Nodup := List.pairwise_map.mpr hslices
  have heq : s' = s := List.inj_on_of_nodup_map hnodup hs' hs hslice
  have hctu : L.ctuSlice n = L.ctuSlice a := by
    rw [L.ctuSlice_eq s hs a hmem, L.ctuSlice_eq s' hs' n hmem', heq]
  rw [PictureLayout.encoder, PictureLayout.encoder, PictureLayout.codingStructure,
    PictureLayout.codingStructure, hctu]

/-- A neighbour with a lower address has been read. -/
theorem neighbour_done (horder : L.ctuOrder = done ++ a :: left) {dx dy : ℤ}
    (hlt : ∀ n, (L.encoder a).getCU (InLoopFilter.offset ((L.encoder a).ctuPos a) dx dy) = some n → n < a) :
    ∀ n, (L.encoder a).getCU (InLoopFilter.offset ((L.encoder a).ctuPos a) dx dy) = some n →
      (L.encoder a).ctuSliceIdx n = (L.encoder a).slice.independentSliceIdx →
      (L.encoder a).ctuTileIdx n = (L.encoder a).tileIdxAt ((L.encoder a).ctuPos a) → n ∈ done := by
  intro n hn hslice htile
  have hcoded := (getCU_eq_some.mp hn).2.2
  rw [tileIdxAt_ctuPos] at htile
  exact PictureLayout.mem_done horder (List.mem_range.mp hcoded) (hlt n hn) hslice htile

theorem layout_neighbours (horder : L.ctuOrder = done ++ a :: left)
    (hsame : ∀ n ∈ done, SameCtu (L.encoder n) (pic.ctu n) (pic'.ctu n)) :
    Neighbours (L.encoder a) done a pic pic' := by
  have hmem : ∀ n ∈ done, n ∈ L.ctuOrder := fun n hn => by
    rw [horder]
    exact List.mem_append_left _ hn
  have ha : a ∈ L.ctuOrder := by
    rw [horder]
    exact List.mem_append_right _ List.mem_cons_self
  have hsub : ∀ n ∈ done, n ∈ (L.encoder a).coded := fun n hn =>
    List.mem_range.mpr (PictureLayout.ctuOrder_lt (hmem n hn))
  have hleft : ∀ n, (L.encoder a).getCU (InLoopFilter.offset ((L.encoder a).ctuPos a)
      (-(L.encoder a).pcv.maxCUWidth) 0) = some n → n < a := fun n hn => by
    have hnext := getCU_left hn
    omega
  have habove : ∀ n, (L.encoder a).getCU (InLoopFilter.offset ((L.encoder a).ctuPos a) 0
      (-(L.encoder a).pcv.maxCUHeight)) = some n → n < a := fun n hn => by
    have hnext := getCU_above hn
    have hw := widthInCtus_pos (L.encoder a).pcv
    omega
  refine ⟨neighbourAvail_coded hsub (neighbour_done horder hleft),
    neighbourAvail_coded hsub (neighbour_done horder habove), fun havail => ?_, fun havail => ?_⟩
  · obtain ⟨n, hn, hslice, htile⟩ := neighbourAvail_true havail
    have hdone := neighbour_done horder hleft n hn hslice htile
    have hnext := getCU_left hn
    rw [show a - 1 = n by omega, ← encoder_eq ha (hmem n hdone) hslice]
    exact hsame n hdone
  · obtain ⟨n, hn, hslice, htile⟩ := neighbourAvail_true havail
    have hdone := neighbour_done horder habove n hn hslice htile
    have hnext := getCU_above hn
    rw [show a - (L.encoder a).pcv.widthInCtus = n by omega, ← encoder_eq ha (hmem n hdone) hslice]
    exact hsame n hdone

end Layout

/-! ## The run -/

/-- What the sequence, the slices and the CTUs admit. -/
structure PicAdmitted (L : PictureLayout) (pic : PicControl) : Prop where
  slices : ∀ s ∈ L.slices, SliceAdmitted L.sps s.slice
  ctus : ∀ a ∈ L.ctuOrder, CtuAdmitted (L.encoder a) a (pic.ctu a)
  lumaBif : L.pps.useBIF = true → pic.bifParam.numBlocks = CABACReader.numBifBlocks L.pcv ∧
    BifAdmitted pic.bifParam.numBlocks pic.bifParam.toBifFlags
  chromaBif : L.pps.useChromaBIF = true → pic.chromaBifParam.numBlocks = CABACReader.numBifBlocks L.pcv ∧
    BifAdmitted pic.chromaBifParam.numBlocks pic.chromaBifParam.cb ∧
    BifAdmitted pic.chromaBifParam.numBlocks pic.chromaBifParam.cr

/-- The flags of the bilateral filters. -/
structure SameBilateral (pps : PPS) (pic pic' : PicControl) : Prop where
  lumaBif : pps.useBIF = true → pic'.bifParam.numBlocks = pic.bifParam.numBlocks ∧
    SameBif pic.bifParam.numBlocks pic.bifParam.toBifFlags pic'.bifParam.toBifFlags
  chromaBif : pps.useChromaBIF = true → pic'.chromaBifParam.numBlocks = pic.chromaBifParam.numBlocks ∧
    SameBif pic.chromaBifParam.numBlocks pic.chromaBifParam.cb pic'.chromaBifParam.cb ∧
    SameBif pic.chromaBifParam.numBlocks pic.chromaBifParam.cr pic'.chromaBifParam.cr

/-- The reader reproduces every parameter that is coded. -/
structure SamePic (L : PictureLayout) (pic pic' : PicControl) : Prop where
  ctus : ∀ a ∈ L.ctuOrder, SameCtu (L.encoder a) (pic.ctu a) (pic'.ctu a)
  bilateral : SameBilateral L.pps pic pic'

/-- The reader goes through the CTUs `left` after `done`, and takes of each the bins that
were written for it, whatever follows them. -/
inductive ReadsCtus (L : PictureLayout) (bins : ℕ → List Bin) :
    (done left : List ℕ) → PicControl → PicControl → Prop where
  | nil {done : List ℕ} {pic : PicControl} : ReadsCtus L bins done [] pic pic
  | cons {done left : List ℕ} {a : ℕ} {pic pic' pic'' : PicControl}
    (read : ∀ rest, CABACReader.decompressCtu (L.codingStructure a done) pic a (bins a ++ rest) =
      .ok (pic', rest))
    (rest : ReadsCtus L bins (done ++ [a]) left pic' pic'') : ReadsCtus L bins done (a :: left) pic pic''

variable {L : PictureLayout} {cs : InLoopFilter.CodingStructure} {pic pic' : PicControl} {a : ℕ}

theorem luma_bif_roundTrips (ha : cs.pps.useBIF = true →
      pic.bifParam.numBlocks = CABACReader.numBifBlocks cs.pcv ∧
      BifAdmitted pic.bifParam.numBlocks pic.bifParam.toBifFlags) (old : BifParams) :
    RoundTrips True (CABACWriter.bif_blocks cs.pps pic.bifParam) (CABACReader.bif_blocks cs old)
      fun _ b => cs.pps.useBIF = true → b.numBlocks = pic.bifParam.numBlocks ∧
        SameBif pic.bifParam.numBlocks pic.bifParam.toBifFlags b.toBifFlags := by
  rw [CABACWriter.bif_blocks, CABACReader.bif_blocks]
  have hpos := numBifBlocks_pos cs.pcv
  cases huse : cs.pps.useBIF with
  | false => exact (bif_off _ _).then_right fun _ b _ => ⟨_, rfl, nofun⟩
  | true =>
    obtain ⟨hnum, hbif⟩ := ha huse
    rw [hnum] at hbif ⊢
    refine (bif_roundTrips hbif hpos).then_right fun _ b hb => ⟨_, rfl, fun _ => ⟨?_, hb⟩⟩
    exact if_pos ⟨rfl, Nat.ne_of_gt hpos⟩

theorem chroma_bif_roundTrips (ha : cs.pps.useChromaBIF = true →
      pic.chromaBifParam.numBlocks = CABACReader.numBifBlocks cs.pcv ∧
      BifAdmitted pic.chromaBifParam.numBlocks pic.chromaBifParam.cb ∧
      BifAdmitted pic.chromaBifParam.numBlocks pic.chromaBifParam.cr) (old : ChromaBifParams) :
    RoundTrips True
      (CABACWriter.chromaBifCb cs.pps pic.chromaBifParam >>= fun _ =>
        CABACWriter.chromaBifCr cs.pps pic.chromaBifParam)
      (CABACReader.chromaBifCb cs old >>= fun chromaBifParam => CABACReader.chromaBifCr cs chromaBifParam)
      fun _ b => cs.pps.useChromaBIF = true → b.numBlocks = pic.chromaBifParam.numBlocks ∧
        SameBif pic.chromaBifParam.numBlocks pic.chromaBifParam.cb b.cb ∧
        SameBif pic.chromaBifParam.numBlocks pic.chromaBifParam.cr b.cr := by
  rw [CABACWriter.chromaBifCb, CABACWriter.chromaBifCr]
  have hpos := numBifBlocks_pos cs.pcv
  cases huse : cs.pps.useChromaBIF with
  | false =>
    refine roundTrips_bind (Q := fun _ _ => True) ?_ fun _ b _ => ?_
    · rw [CABACReader.chromaBifCb, huse]
      exact (bif_off _ _).then_right fun _ b _ => ⟨_, rfl, trivial⟩
    · rw [CABACReader.chromaBifCr, huse]
      exact (bif_off _ _).then_right fun _ b _ => ⟨_, rfl, nofun⟩
  | true =>
    obtain ⟨hnum, hcb, hcr⟩ := ha huse
    rw [hnum] at hcb hcr ⊢
    refine roundTrips_bind (Q := fun _ b => SameBif (CABACReader.numBifBlocks cs.pcv) pic.chromaBifParam.cb b.cb)
      ?_ fun _ b hb => ?_
    · rw [CABACReader.chromaBifCb, huse]
      exact (bif_roundTrips hcb hpos).then_right fun _ b hb => ⟨_, rfl, hb⟩
    · rw [CABACReader.chromaBifCr, huse]
      refine (bif_roundTrips hcr hpos).then_right fun _ b' hb' => ⟨_, rfl, fun _ => ⟨?_, hb, hb'⟩⟩
      exact if_pos ⟨rfl, Nat.ne_of_gt hpos⟩

/-- What is known when the CTUs `done` are read. -/
structure Progress (L : PictureLayout) (pic : PicControl) (done : List ℕ) (pic' : PicControl) : Prop where
  ctus : ∀ n ∈ done, SameCtu (L.encoder n) (pic.ctu n) (pic'.ctu n)
  bilateral : 0 ∈ done → SameBilateral L.pps pic pic'

/-- The first CTU of the picture has the flags of the bilateral filters before it. -/
theorem bilateral_roundTrips (h : PicAdmitted L pic) (a : ℕ) (done : List ℕ) :
    RoundTrips True
      (if a = 0 then CABACWriter.bif_blocks L.pps pic.bifParam >>= fun _ =>
        CABACWriter.chromaBifCb L.pps pic.chromaBifParam >>= fun _ =>
          CABACWriter.chromaBifCr L.pps pic.chromaBifParam else pure ())
      (CABACReader.bilateralFilters (L.codingStructure a done) pic' a)
      fun _ pic'' => pic''.ctu = pic'.ctu ∧ (a = 0 → SameBilateral L.pps pic pic'') ∧ (a ≠ 0 → pic'' = pic') := by
  rw [CABACReader.bilateralFilters]
  refine roundTrips_ite Iff.rfl (fun hzero => ?_) fun hne =>
    roundTrips_pure ⟨rfl, fun h => absurd h hne, fun _ => rfl⟩
  refine roundTrips_bind (@luma_bif_roundTrips (L.codingStructure a done) _ h.lumaBif _) fun _ luma hluma => ?_
  rw [← bind_assoc]
  exact (@chroma_bif_roundTrips (L.codingStructure a done) _ h.chromaBif _).then_right
    fun _ chroma hchroma => ⟨_, rfl, rfl, fun _ => ⟨hluma, hchroma⟩, fun hne => absurd hzero hne⟩

/-- One CTU. -/
theorem ctu_roundTrips (h : PicAdmitted L pic) {done left : List ℕ} (horder : L.ctuOrder = done ++ a :: left)
    (hdone : Progress L pic done pic') :
    RoundTrips True (CABACWriter.encodeCtu (L.encoder a) pic a)
      (CABACReader.decompressCtu (L.codingStructure a done) pic' a)
      fun _ pic'' => Progress L pic (done ++ [a]) pic'' := by
  have ha : a ∈ L.ctuOrder := by
    rw [horder]
    exact List.mem_append_right _ List.mem_cons_self
  have hslice : SliceAdmitted L.sps (L.ctuSlice a) := by
    obtain ⟨s, hs, hmem⟩ := List.mem_flatMap.mp ha
    rw [L.ctuSlice_eq s hs a hmem]
    exact h.slices s hs
  refine roundTrips_bind (bilateral_roundTrips h a done) fun _ pic₁ ⟨hctu, hzero, hother⟩ => ?_
  have hsame : ∀ n ∈ done, SameCtu (L.encoder n) (pic.ctu n) (pic₁.ctu n) := by
    rw [hctu]
    exact hdone.ctus
  refine (codingTreeUnit_roundTrips hslice (h.ctus a ha) (layout_neighbours horder hsame)).mono ?_
  intro _ pic'' ⟨b, hb, hpic''⟩
  subst hpic''
  refine ⟨fun n hn => ?_, fun hn => ?_⟩
  · change SameCtu (L.encoder n) (pic.ctu n) (Function.update pic₁.ctu a b n)
    by_cases heq : n = a
    · rw [heq, Function.update_self]
      exact hb
    · rw [Function.update_of_ne heq]
      refine hsame n ((List.mem_append.mp hn).resolve_right fun hlast => heq ?_)
      exact List.mem_singleton.mp hlast
  · by_cases hfirst : a = 0
    · exact ⟨(hzero hfirst).lumaBif, (hzero hfirst).chromaBif⟩
    · have hbefore : 0 ∈ done := (List.mem_append.mp hn).resolve_right fun hlast =>
        hfirst (List.mem_singleton.mp hlast).symm
      have hold := hdone.bilateral hbefore
      rw [← hother hfirst] at hold
      exact ⟨hold.lumaBif, hold.chromaBif⟩

/-- The bins of a CTU. -/
def ctuBins (L : PictureLayout) (pic : PicControl) (a : ℕ) : List Bin :=
  ((CABACWriter.encodeCtu (L.encoder a) pic a).symbols.toOption).getD []

theorem reads_run (h : PicAdmitted L pic) : ∀ (left : List ℕ) {done : List ℕ} {pic' : PicControl},
    L.ctuOrder = done ++ left → Progress L pic done pic' →
    (∀ a ∈ left, CABACWriter.encodeCtu (L.encoder a) pic a = .ok ((), ctuBins L pic a)) ∧
      ∃ pic'', ReadsCtus L (ctuBins L pic) done left pic' pic'' ∧ Progress L pic (done ++ left) pic''
  | [], done, pic', _, hdone => ⟨nofun, pic', .nil, by rwa [List.append_nil]⟩
  | a :: left, done, pic', horder, hdone => by
    obtain ⟨_, xs, hwrite, pic₁, hnext, hread⟩ := (ctu_roundTrips h horder hdone).run
    have hbins : ctuBins L pic a = xs := by
      rw [ctuBins, hwrite]
      rfl
    obtain ⟨hall, pic'', hreads, hprogress⟩ := reads_run h left
      (by rw [horder, List.append_assoc]; rfl) hnext
    refine ⟨fun b hb => ?_, pic'', .cons (fun rest => ?_) hreads, ?_⟩
    · rcases List.mem_cons.mp hb with rfl | hlater
      · rw [hbins]
        exact hwrite
      · exact hall b hlater
    · rw [hbins]
      exact hread rest
    · rwa [List.append_assoc] at hprogress

/-- For each CTU the reader takes exactly the bins that the writer put out, each with its
context, and in the end it has every parameter of the picture. -/
theorem control_roundTrips (L : PictureLayout) (pic pic₀ : PicControl) (h : PicAdmitted L pic) :
    (∀ a ∈ L.ctuOrder, CABACWriter.encodeCtu (L.encoder a) pic a = .ok ((), ctuBins L pic a)) ∧
      ∃ pic', ReadsCtus L (ctuBins L pic) [] L.ctuOrder pic₀ pic' ∧ SamePic L pic pic' := by
  obtain ⟨hwrite, pic', hreads, hprogress⟩ := @reads_run L pic h L.ctuOrder [] pic₀ rfl
    ⟨nofun, nofun⟩
  refine ⟨hwrite, pic', hreads, hprogress.ctus, hprogress.bilateral ?_⟩
  have hpos : 0 < L.pcv.sizeInCtus :=
    Nat.mul_pos (widthInCtus_pos L.pcv) (Nat.div_pos
      (by have hh := L.pcv.lumaHeight_pos; rw [L.pcv.square]; omega) (by rw [L.pcv.square]; exact L.pcv.maxCUWidth_pos))
  obtain ⟨s, hs, hmem⟩ := L.complete 0 hpos
  exact List.mem_flatMap.mpr ⟨s, hs, hmem⟩

/-! ### Two CTUs -/

/-- Every filter is on, with one APS. -/
def everyFilter : Slice where
  independentSliceIdx := 0
  saoEnabledFlag _ := true
  ccSaoEnabled _ := true
  ccSaoSetNum _ := 3
  tileGroupAlfEnabledFlag _ := true
  tileGroupNumAps := 1
  tileGroupApsIdLuma _ := 5
  tileGroupApsIdChroma := 5
  alfAPSs _ := some ⟨4, 2⟩
  ccAlfFilterEnabled _ := true
  ccAlfFilterCount _ := 4

def twoCtus : PictureLayout where
  sps := ⟨.chroma420, fun _ => 10, true, true, true, true, true⟩
  pps := ⟨true, true, fun _ _ => 0⟩
  pcv := ⟨.chroma420, 256, 128, 128, 128, rfl, by decide, by decide, by decide⟩
  slices := [⟨everyFilter, [⟨0, 2, 0, 1, 0⟩]⟩]
  ctuSlice _ := everyFilter
  part_inPic := by
    intro s hs part hpart
    rw [List.mem_singleton.mp hs] at hpart
    rw [List.mem_singleton.mp hpart]
    decide
  part_inTile := by
    intro s hs part hpart x y _ _ _ _
    rw [List.mem_singleton.mp hs] at hpart
    rw [List.mem_singleton.mp hpart]
  part_tiles := by
    intro s hs
    rw [List.mem_singleton.mp hs]
    exact List.pairwise_singleton _ _
  slice_idx := List.pairwise_singleton _ _
  ctuSlice_eq := by
    intro s hs a _
    rw [List.mem_singleton.mp hs]
  complete := by
    intro a ha
    refine ⟨_, List.mem_singleton_self _, ?_⟩
    match a, ha with
    | 0, _ => decide
    | 1, _ => decide

/-- A band offset, two edge offsets, and then a merge. -/
def twoCtuControls : ℕ → CtuControl
  | 0 => {
      sao := fun
        | .Y => ⟨.NEW, 4, 30, fun c => if c = 30 then -31 else if c = 1 then 2 else 0⟩
        | _ => ⟨.NEW, 2, 0, fun c => if c = 0 then 3 else if c = 4 then -1 else 0⟩
      ccSaoControl := fun _ => 2
      alf := ⟨fun _ => true, 2, fun _ => 1⟩
      ccAlfFilterControl := fun _ => 4 }
  | _ => {
      sao := fun _ => ⟨.MERGE, 0, 0, fun _ => 0⟩
      ccSaoControl := fun _ => 0
      alf := ⟨fun compID => compID = .Y, 1, fun _ => 0⟩
      ccAlfFilterControl := fun _ => 1 }

def twoCtuPic : PicControl where
  ctu := twoCtuControls
  bifParam := ⟨⟨true, false, fun i => i = 1⟩, 2⟩
  chromaBifParam := ⟨⟨false, true, fun _ => true⟩, ⟨false, false, fun _ => false⟩, 2⟩

theorem twoCtuPic_sao₀ : Sao.Admitted (twoCtus.encoder 0) 0 (twoCtuPic.ctu 0).sao := by
  refine .explicit (fun compID hoff => ?_) (fun compID => .inr ?_) ⟨rfl, fun _ => rfl⟩
  · cases compID <;> cases hoff
  · cases compID with
    | Y => exact ⟨rfl, .inl ⟨rfl, by decide, by decide⟩⟩
    | Cb => exact ⟨rfl, .inr ⟨by decide, by decide, by decide, by decide, by decide, by decide, by decide⟩⟩
    | Cr => exact ⟨rfl, .inr ⟨by decide, by decide, by decide, by decide, by decide, by decide, by decide⟩⟩

theorem twoCtuPic_admitted : PicAdmitted twoCtus twoCtuPic where
  slices := by
    intro s hs
    rw [List.mem_singleton.mp hs]
    exact ⟨fun _ _ => rfl, fun _ _ => ⟨rfl, rfl⟩, by decide, fun _ _ => ⟨rfl, show 1 ≤ 4 by decide⟩⟩
  ctus := by
    have horder : twoCtus.ctuOrder = [0, 1] := by decide
    rw [horder]
    intro a ha
    simp only [List.mem_cons, List.not_mem_nil, or_false] at ha
    rcases ha with rfl | rfl
    · refine ⟨fun _ => twoCtuPic_sao₀, fun _ _ => show 2 ≤ 3 by decide, fun compID _ => ⟨?_, ?_⟩,
        fun _ _ => show 4 ≤ 4 by decide⟩
      · exact fun _ _ => ⟨by decide, fun _ => ⟨⟨4, 2⟩, rfl, by decide⟩⟩
      · exact fun _ => ⟨⟨4, 2⟩, rfl, fun _ => show 1 < 2 by decide⟩
    · refine ⟨fun _ => .merge SAO_MERGE_LEFT (.inl ⟨rfl, by decide⟩) (.inl rfl) fun _ _ => ⟨rfl, rfl⟩,
        fun _ _ => show 0 ≤ 3 by decide, fun compID _ => ⟨?_, ?_⟩, fun _ _ => show 1 ≤ 4 by decide⟩
      · exact fun _ _ => ⟨by decide, fun h => absurd h (by decide)⟩
      · exact fun _ => ⟨⟨4, 2⟩, rfl, fun _ => show 0 < 2 by decide⟩
  lumaBif _ := ⟨rfl, nofun, nofun⟩
  chromaBif _ := ⟨rfl, ⟨fun _ _ _ => rfl, nofun⟩, ⟨nofun, fun _ _ _ _ => rfl⟩⟩

theorem twoCtus_roundTrips :
    (∀ a ∈ twoCtus.ctuOrder, CABACWriter.encodeCtu (twoCtus.encoder a) twoCtuPic a =
      .ok ((), ctuBins twoCtus twoCtuPic a)) ∧
      ∃ pic', ReadsCtus twoCtus (ctuBins twoCtus twoCtuPic) [] twoCtus.ctuOrder twoCtuPic pic' ∧
        SamePic twoCtus twoCtuPic pic' :=
  control_roundTrips twoCtus twoCtuPic twoCtuPic twoCtuPic_admitted

end ECM.InLoop
