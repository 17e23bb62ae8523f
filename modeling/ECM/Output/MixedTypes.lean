import ECM.DecoderLib.DecLib

/-! # Output of pictures with mixed NAL unit types

`finishPicture` means to take a picture of RASL and RADL slices out of the output. It asks
the last slice only, so what it does is right as long as that one speaks for the others. -/

namespace ECM.Output
open CommonLib DecoderLib

variable {pps : PicturePPS} {pcPic pcPic' : SlicedPicture} {t : NalUnitType} {ts : List NalUnitType}

/-- The picture holds the slices decoded so far, and `cs->slice` is the last of them. -/
structure Holds (pcPic : SlicedPicture) (slices : List NalUnitType) : Prop where
  slices_eq : pcPic.slices = slices
  slice_eq : slices.getLast? = some pcPic.slice
  numSlices_pos : 0 < pcPic.numSlices

theorem xDecodeFirstSlice_holds (hmixed : pps.mixedNaluTypesInPicFlag = true)
    (h : xDecodeFirstSlice pps t = .ok pcPic) : Holds pcPic [t] := by
  obtain ⟨_, hcheck, h⟩ := bind_eq_ok h
  rw [xCheckMixedNalUnit, if_pos hmixed] at hcheck
  obtain ⟨_, hnum, -⟩ := bind_eq_ok hcheck
  have hnum := check_eq_ok hnum
  cases h
  exact ⟨rfl, rfl, show 0 < pps.numSlicesInPic by omega⟩

theorem xDecodeNextSlice_holds {slices : List NalUnitType} (hp : Holds pcPic slices)
    (h : xDecodeNextSlice pps pcPic t = .ok pcPic') : Holds pcPic' (slices ++ [t]) := by
  obtain ⟨-, -, h⟩ := bind_eq_ok h
  obtain ⟨-, -, h⟩ := bind_eq_ok h
  cases h
  exact ⟨by rw [hp.slices_eq], List.getLast?_concat, Nat.succ_pos _⟩

theorem xDecodeNextSlices_holds : ∀ {ts : List NalUnitType} {pcPic : SlicedPicture}
    {slices : List NalUnitType}, Holds pcPic slices → xDecodeNextSlices pps pcPic ts = .ok pcPic' →
    Holds pcPic' (slices ++ ts)
  | [], pcPic, slices, hp, h => by
    cases h
    rwa [List.append_nil]
  | t :: ts, pcPic, slices, hp, h => by
    obtain ⟨pcPic₁, hnext, h⟩ := bind_eq_ok h
    have hrest := xDecodeNextSlices_holds (xDecodeNextSlice_holds hp hnext) h
    rwa [List.append_assoc] at hrest

/-- What the picture is after its slices. -/
theorem decodeSlices_holds (hmixed : pps.mixedNaluTypesInPicFlag = true)
    (h : decodeSlices pps t ts = .ok pcPic) : Holds pcPic (t :: ts) := by
  obtain ⟨pcPic₀, hfirst, h⟩ := bind_eq_ok h
  exact xDecodeNextSlices_holds (xDecodeFirstSlice_holds hmixed hfirst) h

/-- A loop of one round or more asks `pcSlice` each time. -/
theorem isRaslPic_pos {pcSlice : NalUnitType} {n : ℕ} (hn : 0 < n) :
    isRaslPic pcSlice n = isRaslOrRadl pcSlice := by
  induction n with
  | zero => exact absurd hn (Nat.lt_irrefl 0)
  | succ n ih =>
    rw [isRaslPic]
    cases n with
    | zero => rfl
    | succ n => rw [ih (Nat.succ_pos n), Bool.and_self]

/-- The mark follows the last slice. -/
theorem finishPicture_neededForOutput {slices : List NalUnitType} {picOutputFlag : Bool}
    (hmixed : pps.mixedNaluTypesInPicFlag = true) (hp : Holds pcPic slices) :
    (finishPicture pps picOutputFlag true pcPic).neededForOutput =
      (picOutputFlag && !isRaslOrRadl pcPic.slice) := by
  cases picOutputFlag with
  | false => rfl
  | true =>
    simp only [finishPicture, hmixed, isRaslPic_pos hp.numSlices_pos]
    cases isRaslOrRadl pcPic.slice <;> rfl

/-- A picture of a new coded layer video sequence with mixed types goes to the output if
and only if it should and one of its slices is neither RASL nor RADL: this holds unless
such a slice is followed by a last one that is RASL or RADL. -/
theorem finishPicture_mixed_iff {picOutputFlag : Bool} (hmixed : pps.mixedNaluTypesInPicFlag = true)
    (h : decodeSlices pps t ts = .ok pcPic) :
    (finishPicture pps picOutputFlag true pcPic).neededForOutput =
        (picOutputFlag && !(t :: ts).all isRaslOrRadl) ↔
      picOutputFlag = false ∨ isRaslOrRadl ((t :: ts).getLast (List.cons_ne_nil t ts)) = false ∨
        (t :: ts).all isRaslOrRadl = true := by
  have hp := decodeSlices_holds hmixed h
  have hlast : (t :: ts).getLast (List.cons_ne_nil t ts) = pcPic.slice := by
    have hsome := hp.slice_eq
    rw [List.getLast?_eq_some_getLast (List.cons_ne_nil t ts)] at hsome
    exact Option.some.inj hsome
  have hmem : pcPic.slice ∈ t :: ts := hlast ▸ List.getLast_mem (List.cons_ne_nil t ts)
  rw [finishPicture_neededForOutput hmixed hp, hlast]
  cases picOutputFlag with
  | false => simp
  | true =>
    cases hall : (t :: ts).all isRaslOrRadl with
    | true =>
      have hslice : isRaslOrRadl pcPic.slice = true := List.all_eq_true.mp hall _ hmem
      simp [hslice]
    | false => cases isRaslOrRadl pcPic.slice <;> simp

/-- A RASL slice and a trailing one, in this order. -/
theorem finishPicture_mixed_two : ∃ pcPic,
    decodeSlices ⟨true, 2⟩ .CODED_SLICE_RASL [.CODED_SLICE_TRAIL] = .ok pcPic ∧
      (finishPicture ⟨true, 2⟩ true true pcPic).neededForOutput =
        (true && !([NalUnitType.CODED_SLICE_RASL, .CODED_SLICE_TRAIL].all isRaslOrRadl)) := by
  obtain ⟨pcPic, h⟩ : ∃ pcPic, decodeSlices ⟨true, 2⟩ .CODED_SLICE_RASL [.CODED_SLICE_TRAIL] = .ok pcPic :=
    ⟨_, rfl⟩
  exact ⟨pcPic, h, (finishPicture_mixed_iff rfl h).mpr (.inr (.inl rfl))⟩

/-- The other way round the picture is lost. -/
theorem finishPicture_mixed_lost : ∃ pcPic,
    decodeSlices ⟨true, 2⟩ .CODED_SLICE_TRAIL [.CODED_SLICE_RASL] = .ok pcPic ∧
      ¬(finishPicture ⟨true, 2⟩ true true pcPic).neededForOutput =
        (true && !([NalUnitType.CODED_SLICE_TRAIL, .CODED_SLICE_RASL].all isRaslOrRadl)) :=
  ⟨_, rfl, by decide⟩

end ECM.Output
