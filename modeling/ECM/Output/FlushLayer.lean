import ECM.DecoderApp.DecApp
import Mathlib.Data.List.Basic

/-! # Flushing touches the pictures of one layer

The frame branch of `xFlushOutput` does. The field branch keeps the slots of the pictures it
releases, so with a layer id it leaves them in the list, and it writes pairs of fields only. -/

namespace ECM.Output
open CommonLib ECM.DecoderApp.PicList

variable {layerId : Option ℤ} {l rest : List ListedPicture} {p top bottom : ListedPicture}

/-- The waiting pictures of the layer. -/
def waitingOf (layerId : Option ℤ) (l : List ListedPicture) : List ListedPicture :=
  l.filter fun pcPic => flushes layerId pcPic && pcPic.neededForOutput

/-- The waiting pictures of the layer are written, each once, the pictures of the layer are gone,
and those of other layers are in the list as they were. -/
structure TouchesLayer (layerId : Option ℤ) (l : List ListedPicture) (w : Flushed) : Prop where
  written : w.written.Perm (waitingOf layerId l)
  slots : w.slots = (l.filter fun pcPic => !flushes layerId pcPic).map .pic

/-! ## Frames -/

theorem flushFrames_written : (flushFrames layerId l).written = waitingOf layerId l := by
  induction l with
  | nil => rfl
  | cons p rest ih =>
    rw [flushFrames, waitingOf, List.filter_cons]
    cases hf : flushes layerId p with
    | true => cases hn : p.neededForOutput <;> simp [ih, waitingOf]
    | false => simp [ih, waitingOf]

theorem flushFrames_slots : (flushFrames layerId l).slots.filter (· ≠ .null) =
    (l.filter fun pcPic => !flushes layerId pcPic).map .pic := by
  induction l with
  | nil => rfl
  | cons p rest ih =>
    rw [flushFrames]
    cases hf : flushes layerId p <;> simp [hf] at ih ⊢ <;> exact ih

@[simp] theorem flushes_none : flushes none p = true := rfl

theorem flushFrames_touches (layerId : Option ℤ) (rest : List ListedPicture) (hp : p.fieldPic = false) :
    TouchesLayer layerId (p :: rest) (xFlushOutput layerId (p :: rest)) := by
  rw [xFlushOutput]
  simp only [hp, Bool.false_eq_true, if_false]
  refine ⟨?_, ?_⟩
  · rw [flushFrames_written]
  · cases layerId with
    | none => simp
    | some id => exact flushFrames_slots

/-! ## Fields -/

/-- The loop leaves the last picture in its slot. -/
theorem flushFieldPairs_slots (layerId : Option ℤ) (p : ListedPicture) (rest : List ListedPicture) :
    ∃ init q, (flushFieldPairs layerId p rest).slots = init ++ [.pic q] := by
  induction rest generalizing p with
  | nil => exact ⟨[], p, rfl⟩
  | cons q rest ih =>
    rw [flushFieldPairs]
    split
    · obtain ⟨init, r, h⟩ := ih (p := displayed q)
      exact ⟨.released (displayed p) :: init, r, congrArg (.released (displayed p) :: ·) h⟩
    · obtain ⟨init, r, h⟩ := ih (p := q)
      exact ⟨.pic p :: init, r, congrArg (.pic p :: ·) h⟩

theorem releaseLast_append (init : List Slot) (slot : Slot) :
    releaseLast (init ++ [slot]) = init ++ [slot.release] := by
  induction init with
  | nil => rfl
  | cons s init ih =>
    cases init with
    | nil => rfl
    | cons s' init => exact congrArg (s :: ·) ih

/-- With two pictures or more the last one is released and stays in the list. -/
theorem flushFields_released (hrest : rest ≠ []) (id : ℤ) (hp : p.fieldPic = true) :
    ∃ q, Slot.released q ∈ (xFlushOutput (some id) (p :: rest)).slots := by
  obtain ⟨init, q, h⟩ := flushFieldPairs_slots (some id) p rest
  refine ⟨q, ?_⟩
  rw [xFlushOutput]
  simp only [hp, if_true, flushFields, if_neg hrest, h, releaseLast_append]
  simp [Slot.release]

/-! ## Pairs of fields -/

/-- The waiting pictures come as pairs of fields. -/
def Paired : List ListedPicture → Prop
  | [] => True
  | [pcPic] => pcPic.neededForOutput = false
  | top :: bottom :: rest =>
    if isFieldPair top bottom then Paired rest
    else top.neededForOutput = false ∧ Paired (bottom :: rest)

/-- The pictures that the loop writes when there is no layer id. -/
def writtenPairs : List ListedPicture → List ListedPicture
  | [] => []
  | pcPic :: rest => (flushFieldPairs none pcPic rest).written

theorem isFieldPair_waiting (h : isFieldPair top bottom = true) :
    top.neededForOutput = true ∧ bottom.neededForOutput = true := by
  simp only [isFieldPair, Bool.and_eq_true] at h
  exact h.1.1

/-- A picture that does not wait begins no pair. -/
theorem writtenPairs_displayed : writtenPairs (displayed p :: rest) = writtenPairs rest := by
  cases rest with
  | nil => rfl
  | cons q rest =>
    rw [writtenPairs, flushFieldPairs]
    simp [isFieldPair, displayed, DecoderApp.displayed, writtenPairs]

theorem writtenPairs_cons : writtenPairs (top :: bottom :: rest) =
    if isFieldPair top bottom then top :: bottom :: writtenPairs rest else writtenPairs (bottom :: rest) := by
  rw [writtenPairs, flushFieldPairs, flushes_none, Bool.true_and]
  split
  · rw [← writtenPairs_displayed (p := bottom)]
    rfl
  · rfl

theorem writtenPairs_sublist : ∀ l : List ListedPicture, (writtenPairs l).Sublist (waitingOf none l)
  | [] => List.Sublist.refl _
  | [p] => List.nil_sublist _
  | top :: bottom :: rest => by
    rw [writtenPairs_cons]
    split
    · next hpair =>
      obtain ⟨htop, hbottom⟩ := isFieldPair_waiting hpair
      have h := writtenPairs_sublist rest
      simpa [waitingOf, htop, hbottom] using h
    · have h := writtenPairs_sublist (bottom :: rest)
      refine h.trans ?_
      exact (List.sublist_cons_self top (bottom :: rest)).filter _

/-- The pairs are all the waiting pictures if these come in pairs. -/
theorem writtenPairs_perm_iff : ∀ l : List ListedPicture,
    (writtenPairs l).Perm (waitingOf none l) ↔ Paired l
  | [] => iff_of_true (List.Perm.refl _) trivial
  | [p] => by
    rw [Paired]
    cases hp : p.neededForOutput <;> simp [writtenPairs, flushFieldPairs, waitingOf, hp]
  | top :: bottom :: rest => by
    rw [writtenPairs_cons, Paired]
    split
    · next hpair =>
      obtain ⟨htop, hbottom⟩ := isFieldPair_waiting hpair
      rw [← writtenPairs_perm_iff rest]
      simp [waitingOf, htop, hbottom]
    · rw [← writtenPairs_perm_iff (bottom :: rest)]
      cases htop : top.neededForOutput with
      | false => simp [waitingOf, htop]
      | true =>
        refine iff_of_false (fun hperm => ?_) (fun h => by cases h.1)
        have hle := (writtenPairs_sublist (bottom :: rest)).length_le
        have heq := hperm.length_eq
        have hlen : (waitingOf none (top :: bottom :: rest)).length =
            (waitingOf none (bottom :: rest)).length + 1 := by simp [waitingOf, htop]
        omega

/-! ## Either branch -/

/-- The lists that are flushed as they should. -/
def FlushesCleanly (layerId : Option ℤ) : List ListedPicture → Prop
  | [] => True
  | pcPic :: rest =>
    pcPic.fieldPic = false ∨
      match layerId with
      | none => Paired (pcPic :: rest)
      | some id => rest = [] ∧ pcPic.layerId ≠ id

/-- All fields are flushed. -/
theorem flushFields_all_iff (hp : p.fieldPic = true) :
    TouchesLayer none (p :: rest) (xFlushOutput none (p :: rest)) ↔ Paired (p :: rest) := by
  have hwritten : (xFlushOutput none (p :: rest)).written = writtenPairs (p :: rest) := by
    rw [xFlushOutput]
    simp only [hp, if_true, flushFields]
    split <;> rfl
  rw [← writtenPairs_perm_iff, ← hwritten]
  refine ⟨fun h => h.written, fun h => ⟨h, ?_⟩⟩
  rw [xFlushOutput]
  simp

/-- Fields are flushed with a layer id. -/
theorem flushFields_layer_iff (hp : p.fieldPic = true) (id : ℤ) :
    TouchesLayer (some id) (p :: rest) (xFlushOutput (some id) (p :: rest)) ↔ rest = [] ∧ p.layerId ≠ id := by
  by_cases hrest : rest = []
  · subst hrest
    have hone : xFlushOutput (some id) [p] = ⟨[.pic p], []⟩ := by simp [xFlushOutput, hp, flushFields, flushFieldPairs]
    rw [hone]
    by_cases hid : p.layerId = id
    · refine iff_of_false (fun h => ?_) (fun h => h.2 hid)
      have hslots := h.slots
      simp [flushes, hid] at hslots
    · refine iff_of_true ⟨?_, ?_⟩ ⟨rfl, hid⟩
      · simp [waitingOf, flushes, hid]
      · simp [flushes, hid]
  · refine iff_of_false (fun h => ?_) (fun h => hrest h.1)
    obtain ⟨q, hq⟩ := flushFields_released hrest id hp
    rw [h.slots] at hq
    obtain ⟨r, -, hr⟩ := List.mem_map.mp hq
    cases hr

/-- Flushing touches the layer as it should if and only if the list begins with a frame, or
the whole list of fields is flushed and its waiting pictures come in pairs, or the list is
one field of another layer. -/
theorem xFlushOutput_touches_iff (layerId : Option ℤ) (l : List ListedPicture) :
    TouchesLayer layerId l (xFlushOutput layerId l) ↔ FlushesCleanly layerId l := by
  cases l with
  | nil => exact iff_of_true ⟨List.Perm.refl _, rfl⟩ trivial
  | cons p rest =>
    cases hp : p.fieldPic with
    | false => exact iff_of_true (flushFrames_touches layerId rest hp) (.inl hp)
    | true =>
      cases layerId with
      | none => simp [FlushesCleanly, hp, flushFields_all_iff hp]
      | some id => simp [FlushesCleanly, hp, flushFields_layer_iff hp id]

def field (poc layerId : ℤ) : ListedPicture :=
  { Picture.new layerId with
    poc
    neededForOutput := true
    fieldPic := true }

/-- Two fields of a frame stay in the list after both were released. -/
theorem xFlushOutput_fields_stay : ¬TouchesLayer (some 0) [field 0 0, field 1 0]
    (xFlushOutput (some 0) [field 0 0, field 1 0]) := by
  intro h
  have hslots := h.slots
  revert hslots
  decide

/-! ## Frames as the other model has them -/

/-- The pictures that the list still holds. -/
def Flushed.pictures (w : Flushed) : List Picture :=
  w.slots.filterMap fun
    | .pic pcPic => some pcPic.toPicture
    | _ => none

/-- A list that begins with a frame is flushed as the model of frames does it. -/
theorem xFlushOutput_frames (m_iPOCLastDisplay : ℤ) (hp : p.fieldPic = false) :
    (xFlushOutput layerId (p :: rest)).written.map ListedPicture.toPicture =
        (DecoderApp.xFlushOutput m_iPOCLastDisplay ((p :: rest).map ListedPicture.toPicture) layerId).written ∧
      Flushed.pictures (xFlushOutput layerId (p :: rest)) =
        (DecoderApp.xFlushOutput m_iPOCLastDisplay ((p :: rest).map ListedPicture.toPicture) layerId).pictures := by
  have hne : (p :: rest).map ListedPicture.toPicture ≠ [] := by simp
  have htouches := flushFrames_touches layerId rest hp
  have hwritten : (xFlushOutput layerId (p :: rest)).written = waitingOf layerId (p :: rest) := by
    rw [xFlushOutput]
    simp only [hp, Bool.false_eq_true, if_false]
    rw [flushFrames_written]
  rw [DecoderApp.xFlushOutput, if_neg hne]
  simp only [List.filter_map]
  refine ⟨congrArg _ hwritten, ?_⟩
  rw [Flushed.pictures, htouches.slots, List.filterMap_map]
  exact congrFun List.filterMap_eq_map _

end ECM.Output
