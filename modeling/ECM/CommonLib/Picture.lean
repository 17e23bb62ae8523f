import Mathlib.Data.Int.Notation
import Mathlib.Data.Nat.Notation
import Mathlib.Data.List.Perm.Basic

/-! # Pictures of the decoded picture buffer

What reference marking, output and the search for reference pictures read of a
frame picture, and the list that holds the buffer. -/

namespace ECM.CommonLib

structure Picture where
  poc : ℤ
  layerId : ℤ
  decodingOrderNumber : ℕ
  neededForOutput : Bool
  referenced : Bool
  reconstructed : Bool
  longTerm : Bool
  /-- `cs->sps->getBitsForPOC()`; there is no `cs` before the picture is first decoded. -/
  bitsForPOC : Option ℕ
  /-- `slices.size()`. -/
  slices : ℕ
  deriving DecidableEq, Repr

namespace Picture

/-- A new picture; its POC is not set. -/
def new (layerId : ℤ) : Picture where
  poc := 0
  layerId := layerId
  decodingOrderNumber := 0
  neededForOutput := false
  referenced := false
  reconstructed := false
  longTerm := false
  bitsForPOC := none
  slices := 0

end Picture

/-! ## `sortPicList` -/

/-- `pcPicExtract` goes before the first picture of no lower POC. -/
def insertPic (pcPicExtract : Picture) : List Picture → List Picture
  | [] => [pcPicExtract]
  | pcPicInsert :: rest =>
    if pcPicInsert.poc ≥ pcPicExtract.poc then pcPicExtract :: pcPicInsert :: rest
    else pcPicInsert :: insertPic pcPicExtract rest

/-- The pictures are extracted one after another and inserted among those before. -/
def sortPicList (rcListPic : List Picture) : List Picture :=
  rcListPic.foldl (fun sorted pcPicExtract => insertPic pcPicExtract sorted) []

def PocSorted (l : List Picture) : Prop := l.Pairwise fun p q => p.poc ≤ q.poc

theorem insertPic_perm (p : Picture) (l : List Picture) : (insertPic p l).Perm (p :: l) := by
  induction l with
  | nil => exact List.Perm.refl _
  | cons q l ih =>
    simp only [insertPic]
    split
    · exact List.Perm.refl _
    · exact (ih.cons q).trans (List.Perm.swap p q l)

theorem insertPic_sorted {p : Picture} {l : List Picture} (h : PocSorted l) : PocSorted (insertPic p l) := by
  induction l with
  | nil => exact List.pairwise_singleton _ _
  | cons q l ih =>
    obtain ⟨hq, hl⟩ := List.pairwise_cons.mp h
    simp only [insertPic]
    split
    case isTrue hle =>
      refine List.pairwise_cons.mpr ⟨?_, h⟩
      intro r hr
      rcases List.mem_cons.mp hr with rfl | hr
      · exact hle
      · exact Int.le_trans hle (hq r hr)
    case isFalse hlt =>
      refine List.pairwise_cons.mpr ⟨?_, ih hl⟩
      intro r hr
      rcases List.mem_cons.mp ((insertPic_perm p l).mem_iff.mp hr) with rfl | hr
      · exact Int.le_of_lt (Int.not_le.mp hlt)
      · exact hq r hr

theorem sortPicList_spec (l acc : List Picture) (h : PocSorted acc) :
    (l.foldl (fun sorted p => insertPic p sorted) acc).Perm (l ++ acc) ∧
      PocSorted (l.foldl (fun sorted p => insertPic p sorted) acc) := by
  induction l generalizing acc with
  | nil => exact ⟨List.Perm.refl _, h⟩
  | cons p l ih =>
    obtain ⟨hperm, hsorted⟩ := ih (insertPic p acc) (insertPic_sorted h)
    refine ⟨hperm.trans ?_, hsorted⟩
    exact ((insertPic_perm p acc).append_left l).trans List.perm_middle

theorem sortPicList_perm (l : List Picture) : (sortPicList l).Perm l := by
  have h := (sortPicList_spec l [] List.Pairwise.nil).1
  rwa [List.append_nil] at h

theorem sortPicList_sorted (l : List Picture) : PocSorted (sortPicList l) :=
  (sortPicList_spec l [] List.Pairwise.nil).2

end ECM.CommonLib
