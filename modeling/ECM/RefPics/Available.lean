import ECM.CommonLib.RefPicMarking

/-! # What the check for reference pictures answers

`checkThatAllRefPicsAreAvailable` finds the pictures that are marked as the entries want them.
Then `constructRefPicList` finds a picture for each entry too. -/

namespace ECM.RefPics
open CommonLib List

variable {s : ConstructSlice} {slice : CurrentSlice} {pRPL : ReferencePictureList} {n ii bits : ℕ}
  {pics pics' : List Picture} {e : RefPicEntry} {entries : List RefPicEntry}

def SameBits (bits : ℕ) (pics : List Picture) : Prop := ∀ p ∈ pics, p.bitsForPOC = some bits

theorem SameBits.marked (h : SameBits bits pics) (hm : List.Forall₂ Marked pics pics') : SameBits bits pics' := by
  intro q hq
  obtain ⟨p, hp, hpq⟩ := exists_left hm hq
  exact hpq.fields.2.1.trans (h p hp)

/-- What the buffer has for the active entries: the pictures of inter-layer entries, and for the
others no referenced picture that is the current one or of another layer. -/
structure Buffered (s : ConstructSlice) (entries : List RefPicEntry) (pics : List Picture) : Prop where
  bits : SameBits s.bitsForPOC pics
  interLayer : ∀ ii e, entries[ii]? = some e → e.isInterLayerRefPic = true →
    ∃ p ∈ pics, s.refLayerId ii = .ok p.layerId ∧ p.poc = s.poc
  sameLayer : ∀ e ∈ entries, e.isInterLayerRefPic = false → ∀ p ∈ pics, p.referenced = true →
    SamePoc s.toCurrentSlice e p → p.layerId = s.layerId ∧ p.poc ≠ s.poc

theorem Buffered.marked (hb : Buffered s entries pics) (hm : List.Forall₂ Marked pics pics') :
    Buffered s entries pics' where
  bits := hb.bits.marked hm
  interLayer ii e he hinter := by
    obtain ⟨p, hp, hlayer, hpoc⟩ := hb.interLayer ii e he hinter
    obtain ⟨q, hq, hpq⟩ := exists_right hm hp
    rcases hpq with rfl | rfl
    · exact ⟨q, hq, hlayer, hpoc⟩
    · exact ⟨_, hq, hlayer, hpoc⟩
  sameLayer e he hinter q hq href hpoc := by
    obtain ⟨p, hp, hpq⟩ := exists_left hm hq
    have hfields := hpq.fields
    have hsame := hb.sameLayer e he hinter p hp (hfields.2.2.1.symm.trans href)
      (hpoc.congr hfields.1.symm hfields.2.1.symm)
    rcases hpq with rfl | rfl
    · exact hsame
    · exact hsame

def shortterm (delta : ℤ) : RefPicEntry := ⟨false, delta, false, 0, false⟩

end ECM.RefPics
