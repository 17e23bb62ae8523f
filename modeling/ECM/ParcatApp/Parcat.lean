import ECM.EncoderLib.NALwrite
import Mathlib.Data.List.GetD
import ECM.CommonLib.SEI

/-! # Splitting a file into NAL units

`filter_segment` takes one unit after the other off the front of a buffer.
`find_nal_unit` reads a few bytes behind the end of it, which may hold anything: the
buffer is the memory from a position on, and its size. -/

namespace ECM.ParcatApp
open EncoderLib.NALwrite List

/-! ## The search for a unit -/

/-- `next_bits( 24 ) == 0x000001`. -/
def startCode3 (buf : ℕ → UInt8) (i : ℕ) : Prop := buf i = 0 ∧ buf (i + 1) = 0 ∧ buf (i + 2) = 1

/-- `next_bits( 32 ) == 0x00000001`. -/
def startCode4 (buf : ℕ → UInt8) (i : ℕ) : Prop :=
  buf i = 0 ∧ buf (i + 1) = 0 ∧ buf (i + 2) = 0 ∧ buf (i + 3) = 1

/-- `next_bits( 24 ) == 0x000000`. -/
def zeros3 (buf : ℕ → UInt8) (i : ℕ) : Prop := buf i = 0 ∧ buf (i + 1) = 0 ∧ buf (i + 2) = 0

instance (buf : ℕ → UInt8) (i : ℕ) : Decidable (startCode3 buf i) := inferInstanceAs (Decidable (_ ∧ _))

instance (buf : ℕ → UInt8) (i : ℕ) : Decidable (startCode4 buf i) := inferInstanceAs (Decidable (_ ∧ _))

instance (buf : ℕ → UInt8) (i : ℕ) : Decidable (zeros3 buf i) := inferInstanceAs (Decidable (_ ∧ _))

/-- The loop that skips leading zeros; it gives up four bytes before the end. -/
def findStart (buf : ℕ → UInt8) (size : ℕ) : (rounds i : ℕ) → Option ℕ
  | 0, _ => none
  | rounds + 1, i =>
    if ¬startCode3 buf i ∧ ¬startCode4 buf i then
      if i + 1 + 4 ≥ size then none else findStart buf size rounds (i + 1)
    else some i

/-- The loop to the next start code. -/
def findEnd (buf : ℕ → UInt8) (size : ℕ) : (rounds i : ℕ) → ℕ
  | 0, i => i
  | rounds + 1, i =>
    if i + 3 < size ∧ ¬zeros3 buf i ∧ ¬startCode3 buf i then findEnd buf size rounds (i + 1) else i

/-- What is returned, `nal_start` and `nal_end`. -/
def find_nal_unit (buf : ℕ → UInt8) (size : ℕ) : ℕ × ℕ × ℕ :=
  match findStart buf size (size + 1) 0 with
  | none => (0, 0, 0)
  | some i =>
    let i := if ¬startCode3 buf i then i + 1 else i
    if ¬startCode3 buf i then (0, 0, 0)
    else
      let nal_start := i + 3
      let i := findEnd buf size size nal_start
      let nal_end := if i + 3 = size then size else i
      (nal_end - nal_start, nal_start, nal_end)

/-- The loop of `filter_segment`: the units found from `p` on. -/
def segmentUnits (mem : ℕ → UInt8) : (rounds p sz : ℕ) → List (List UInt8)
  | 0, _, _ => []
  | rounds + 1, p, sz =>
    let (len, nal_start, nal_end) := find_nal_unit (fun i => mem (p + i)) sz
    if len > 0 then
      (List.range len).map (fun j => mem (p + nal_start + j)) ::
        segmentUnits mem rounds (p + nal_end) (sz - nal_end)
    else []

/-! ## Segments -/

/-- A unit with its start code, a long one or a short one. -/
structure SegmentUnit where
  useLongStartcode : Bool
  nalu : List UInt8
  deriving DecidableEq, Repr

/-- A unit as a writer makes it. -/
structure SegmentUnit.Valid (u : SegmentUnit) : Prop where
  header : 2 ≤ u.nalu.length
  noStartCode : NoStartCode u.nalu
  last : u.nalu.getLast? ≠ some 0

def segment (units : List SegmentUnit) : List UInt8 :=
  units.flatMap fun u => startCodePrefix u.useLongStartcode ++ u.nalu

/-- The memory from `p` on begins with these bytes. -/
def Holds (mem : ℕ → UInt8) (p : ℕ) (bs : List UInt8) : Prop :=
  ∀ i < bs.length, mem (p + i) = bs.getD i 0

/-- The units that are found: the last one only if it has three bytes. -/
def found : List SegmentUnit → List SegmentUnit
  | [] => []
  | [u] => if 3 ≤ u.nalu.length then [u] else []
  | u :: v :: units => u :: found (v :: units)

variable {mem buf : ℕ → UInt8} {p size : ℕ} {bs cs : List UInt8}

theorem Holds.left (h : Holds mem p (bs ++ cs)) : Holds mem p bs := by
  intro i hi
  rw [h i (by rw [length_append]; omega), getD_append _ _ _ _ hi]

theorem Holds.right (h : Holds mem p (bs ++ cs)) : Holds mem (p + bs.length) cs := by
  intro i hi
  rw [Nat.add_assoc, h (bs.length + i) (by rw [length_append]; omega),
    getD_append_right _ _ _ _ (Nat.le_add_right _ _), Nat.add_sub_cancel_left]

theorem Holds.bytes (h : Holds mem p bs) : (List.range bs.length).map (fun j => mem (p + j)) = bs := by
  refine ext_getElem (by rw [length_map, length_range]) fun i hi hi' => ?_
  rw [getElem_map, getElem_range, h i hi', getD_eq_getElem _ _ hi']

theorem noStartCode_getD (h : NoStartCode bs) {j : ℕ} (hj : j + 2 < bs.length) :
    ¬(bs.getD j 0 = 0 ∧ bs.getD (j + 1) 0 = 0 ∧ bs.getD (j + 2) 0 ≤ 2) := by
  have hdrop : NoStartCode (bs.drop j) :=
    NoStartCode.of_append (bs.take j) (by rwa [take_append_drop])
  rw [drop_eq_getElem_cons (by omega), drop_eq_getElem_cons (by omega),
    drop_eq_getElem_cons hj] at hdrop
  rw [getD_eq_getElem _ _ (by omega), getD_eq_getElem _ _ (by omega),
    getD_eq_getElem _ _ hj]
  exact hdrop.1

theorem SegmentUnit.Valid.getD_last {u : SegmentUnit} (hu : u.Valid) :
    u.nalu.getD (u.nalu.length - 1) 0 ≠ 0 := by
  have hlen := hu.header
  intro h0
  refine hu.last ?_
  rw [List.getLast?_eq_getElem?, List.getElem?_eq_getElem (by omega),
    ← getD_eq_getElem _ 0 (by omega), h0]

/-- No start code begins inside a unit, whatever follows it. -/
theorem no_pattern {u : SegmentUnit} (hu : u.Valid) {s j : ℕ} (h : Holds buf s u.nalu)
    (hj : j < u.nalu.length) : ¬zeros3 buf (s + j) ∧ ¬startCode3 buf (s + j) := by
  have hlast := hu.getD_last
  have hkey : ¬(buf (s + j) = 0 ∧ buf (s + j + 1) = 0 ∧ buf (s + j + 2) ≤ 2) := by
    rintro ⟨h0, h1, h2⟩
    rw [h j hj] at h0
    rw [Nat.add_assoc] at h1 h2
    by_cases hj2 : j + 2 < u.nalu.length
    · rw [h _ (by omega)] at h1
      rw [h _ hj2] at h2
      exact noStartCode_getD hu.noStartCode hj2 ⟨h0, h1, h2⟩
    · by_cases hj1 : j + 1 < u.nalu.length
      · rw [h _ hj1] at h1
        rw [show u.nalu.length - 1 = j + 1 by omega] at hlast
        exact hlast h1
      · rw [show u.nalu.length - 1 = j by omega] at hlast
        exact hlast h0
  exact ⟨fun hz => hkey ⟨hz.1, hz.2.1, by rw [hz.2.2]; decide⟩,
    fun hs => hkey ⟨hs.1, hs.2.1, by rw [hs.2.2]; decide⟩⟩

theorem findEnd_eq (size : ℕ) {e : ℕ} (rounds : ℕ) : ∀ {i : ℕ}, i ≤ e → e ≤ i + rounds →
    (∀ j, i ≤ j → j < e → j + 3 < size ∧ ¬zeros3 buf j ∧ ¬startCode3 buf j) →
    (e + 3 < size → zeros3 buf e ∨ startCode3 buf e) → findEnd buf size rounds i = e := by
  induction rounds with
  | zero =>
    intro i hle hge _ _
    exact Nat.le_antisymm hle hge
  | succ rounds ih =>
    intro i hle hge hinside hend
    rw [findEnd]
    by_cases hi : i = e
    · subst hi
      rw [if_neg]
      rintro ⟨hlt, hz, hs⟩
      exact (hend hlt).elim hz hs
    · rw [if_pos (hinside i (Nat.le_refl i) (by omega))]
      exact ih (by omega) (by omega) (fun j hj => hinside j (by omega)) hend

/-! ## One unit -/

/-- The start code is found where it is, and the search for the end begins behind it. -/
theorem find_nal_unit_startCode {b : Bool} (size : ℕ) (h : Holds buf 0 (startCodePrefix b)) :
    find_nal_unit buf size =
      let nal_start := (startCodePrefix b).length
      let i := findEnd buf size size nal_start
      let nal_end := if i + 3 = size then size else i
      (nal_end - nal_start, nal_start, nal_end) := by
  cases b with
  | false =>
    have h0 : startCode3 buf 0 := ⟨h 0 (by decide), h 1 (by decide), h 2 (by decide)⟩
    rw [find_nal_unit, findStart, if_neg fun hn => hn.1 h0]
    dsimp only
    rw [if_neg (not_not_intro h0), if_neg (not_not_intro h0)]
    rfl
  | true =>
    have h0 : buf 0 = 0 := h 0 (by decide)
    have h1 : buf 1 = 0 := h 1 (by decide)
    have h2 : buf 2 = 0 := h 2 (by decide)
    have h3 : buf 3 = 1 := h 3 (by decide)
    have hlong : startCode4 buf 0 := ⟨h0, h1, h2, h3⟩
    have hshort : ¬startCode3 buf 0 := fun hs => absurd (h2.symm.trans hs.2.2) (by decide)
    have hnext : startCode3 buf 1 := ⟨h1, h2, h3⟩
    rw [find_nal_unit, findStart, if_neg fun hn => hn.2 hlong]
    dsimp only
    rw [if_pos hshort, Nat.zero_add, if_neg (not_not_intro hnext)]
    rfl

/-- A start code is one in both searches. -/
theorem pattern_of_startCode {b : Bool} {e : ℕ} (h : Holds buf e (startCodePrefix b)) :
    zeros3 buf e ∨ startCode3 buf e := by
  cases b with
  | false => exact Or.inr ⟨h 0 (by decide), h 1 (by decide), h 2 (by decide)⟩
  | true => exact Or.inl ⟨h 0 (by decide), h 1 (by decide), h 2 (by decide)⟩

theorem length_startCodePrefix (b : Bool) :
    3 ≤ (startCodePrefix b).length ∧ (startCodePrefix b).length ≤ 4 := by
  cases b <;> decide

/-- A unit with another one behind it is found. -/
theorem find_nal_unit_between {u v : SegmentUnit} {units : List SegmentUnit} (hu : u.Valid)
    (hv : v.Valid) (h : Holds buf 0 (segment (u :: v :: units))) :
    find_nal_unit buf (segment (u :: v :: units)).length =
      (u.nalu.length, (startCodePrefix u.useLongStartcode).length,
        (startCodePrefix u.useLongStartcode).length + u.nalu.length) := by
  obtain ⟨s, hs⟩ : ∃ s, s = (startCodePrefix u.useLongStartcode).length := ⟨_, rfl⟩
  have hsegment : segment (u :: v :: units) = startCodePrefix u.useLongStartcode ++ (u.nalu ++
      (startCodePrefix v.useLongStartcode ++ (v.nalu ++ segment units))) := by
    rw [segment, flatMap_cons, flatMap_cons, append_assoc, append_assoc]
    rfl
  rw [hsegment] at h ⊢
  obtain ⟨size, hsize⟩ : ∃ size, size = (startCodePrefix u.useLongStartcode ++ (u.nalu ++
      (startCodePrefix v.useLongStartcode ++ (v.nalu ++ segment units)))).length := ⟨_, rfl⟩
  have hvlen := hv.header
  have hvstart := (length_startCodePrefix v.useLongStartcode).1
  have hlong : s + u.nalu.length + 3 < size := by
    rw [hsize]
    simp only [length_append]
    omega
  have hunit : Holds buf s u.nalu := by
    have := h.right.left
    rwa [Nat.zero_add, ← hs] at this
  have hnext : Holds buf (s + u.nalu.length) (startCodePrefix v.useLongStartcode) := by
    have := h.right.right.left
    rwa [Nat.zero_add, ← hs] at this
  have hend : findEnd buf size size s = s + u.nalu.length := by
    refine findEnd_eq size size (Nat.le_add_right _ _) (by omega) (fun j hj hlt => ?_)
      fun _ => pattern_of_startCode hnext
    obtain ⟨d, rfl⟩ := Nat.exists_eq_add_of_le hj
    exact ⟨by omega, no_pattern hu hunit (by omega)⟩
  rw [find_nal_unit_startCode _ h.left, ← hs, ← hsize]
  dsimp only
  rw [hend, if_neg (by omega), Nat.add_sub_cancel_left]

/-- The last unit is found if it has three bytes. -/
theorem find_nal_unit_last {u : SegmentUnit} (hu : u.Valid) (h : Holds buf 0 (segment [u])) :
    find_nal_unit buf (segment [u]).length =
      if 3 ≤ u.nalu.length then (u.nalu.length, (startCodePrefix u.useLongStartcode).length,
        (startCodePrefix u.useLongStartcode).length + u.nalu.length)
      else (0, (startCodePrefix u.useLongStartcode).length, (startCodePrefix u.useLongStartcode).length) := by
  obtain ⟨s, hs⟩ : ∃ s, s = (startCodePrefix u.useLongStartcode).length := ⟨_, rfl⟩
  have hsegment : segment [u] = startCodePrefix u.useLongStartcode ++ u.nalu := by
    rw [segment, flatMap_singleton]
  rw [hsegment] at h ⊢
  have hsize : (startCodePrefix u.useLongStartcode ++ u.nalu).length = s + u.nalu.length := by
    rw [length_append, hs]
  have hunit : Holds buf s u.nalu := by
    have := h.right
    rwa [Nat.zero_add, ← hs] at this
  have hlen := hu.header
  rw [find_nal_unit_startCode _ h.left, ← hs, hsize]
  dsimp only
  by_cases h3 : 3 ≤ u.nalu.length
  · have hend : findEnd buf (s + u.nalu.length) (s + u.nalu.length) s = s + u.nalu.length - 3 := by
      refine findEnd_eq _ _ (by omega) (by omega) (fun j hj hlt => ?_) fun hlt => absurd hlt (by omega)
      obtain ⟨d, rfl⟩ := Nat.exists_eq_add_of_le hj
      exact ⟨by omega, no_pattern hu hunit (by omega)⟩
    rw [hend, if_pos (by omega), if_pos h3, Nat.add_sub_cancel_left]
  · -- two bytes are too few for the comparison with the size
    have hend : findEnd buf (s + u.nalu.length) (s + u.nalu.length) s = s :=
      findEnd_eq _ _ (Nat.le_refl s) (by omega) (fun j hj hlt => absurd hlt (by omega))
        fun hlt => absurd hlt (by omega)
    rw [hend, if_neg (by omega), if_neg h3, Nat.sub_self]

/-- Nothing is found in an empty buffer, whatever is behind it. -/
theorem find_nal_unit_empty (buf : ℕ → UInt8) : (find_nal_unit buf 0).1 = 0 := by
  rw [find_nal_unit]
  split
  · rfl
  · next i hi =>
    obtain ⟨k, hk⟩ : ∃ k, k = if ¬startCode3 buf i then i + 1 else i := ⟨_, rfl⟩
    dsimp only
    rw [← hk]
    by_cases hs : startCode3 buf k
    · rw [if_neg (not_not_intro hs), findEnd, if_neg (by omega), Nat.sub_self]
    · rw [if_pos hs]

/-! ## The segment -/

theorem segment_cons (u : SegmentUnit) (units : List SegmentUnit) :
    segment (u :: units) = (startCodePrefix u.useLongStartcode ++ u.nalu) ++ segment units := by
  rw [segment, flatMap_cons]
  rfl

theorem Holds.shift (h : Holds mem p bs) : Holds (fun i => mem (p + i)) 0 bs := by
  intro i hi
  dsimp only
  rw [Nat.zero_add, h i hi]

/-- A unit that is found is taken off the front. -/
theorem segmentUnits_cons {u : SegmentUnit} {units : List SegmentUnit} (hu : u.Valid)
    (h : Holds mem p (segment (u :: units)))
    (hfind : find_nal_unit (fun i => mem (p + i)) (segment (u :: units)).length =
      (u.nalu.length, (startCodePrefix u.useLongStartcode).length,
        (startCodePrefix u.useLongStartcode).length + u.nalu.length)) (rounds : ℕ) :
    ∃ p', Holds mem p' (segment units) ∧
      segmentUnits mem (rounds + 1) p (segment (u :: units)).length =
        u.nalu :: segmentUnits mem rounds p' (segment units).length := by
  have hlen := hu.header
  refine ⟨p + ((startCodePrefix u.useLongStartcode).length + u.nalu.length), ?_, ?_⟩
  · rw [segment_cons] at h
    have hright := h.right
    rwa [length_append] at hright
  · rw [segmentUnits, hfind]
    dsimp only
    rw [segment_cons] at h ⊢
    rw [if_pos (by omega), h.left.right.bytes, length_append, length_append,
      Nat.add_sub_cancel_left]

/-- The units that `filter_segment` sees are those of `found`. -/
theorem segmentUnits_eq : ∀ {units : List SegmentUnit} (rounds p : ℕ), (∀ u ∈ units, u.Valid) →
    Holds mem p (segment units) → units.length < rounds →
    segmentUnits mem rounds p (segment units).length = (found units).map (·.nalu)
  | [], rounds + 1, p, _, _, _ => by
    have hnone := find_nal_unit_empty fun i => mem (p + i)
    rw [segmentUnits]
    change (if (find_nal_unit (fun i => mem (p + i)) 0).1 > 0 then _ else []) = _
    rw [hnone, if_neg (by omega)]
    rfl
  | [u], rounds + 1, p, hvalid, h, hrounds => by
    have hu := hvalid u mem_cons_self
    have hfind := find_nal_unit_last hu h.shift
    rw [found]
    by_cases h3 : 3 ≤ u.nalu.length
    · rw [if_pos h3] at hfind ⊢
      obtain ⟨p', hrest, hstep⟩ := segmentUnits_cons hu h hfind rounds
      rw [hstep, @segmentUnits_eq [] rounds p' (fun _ hv => absurd hv not_mem_nil) hrest
        (Nat.lt_of_succ_lt_succ hrounds)]
      rfl
    · rw [if_neg h3] at hfind ⊢
      rw [segmentUnits, hfind]
      dsimp only
      rw [if_neg (Nat.lt_irrefl 0)]
      rfl
  | u :: v :: units, rounds + 1, p, hvalid, h, hrounds => by
    have hu := hvalid u mem_cons_self
    have hrest : ∀ w ∈ v :: units, w.Valid := fun w hw => hvalid w (mem_cons_of_mem _ hw)
    have hfind := find_nal_unit_between hu (hrest v mem_cons_self) h.shift
    obtain ⟨p', hnext, hstep⟩ := segmentUnits_cons hu h hfind rounds
    rw [hstep, @segmentUnits_eq (v :: units) rounds p' hrest hnext (Nat.lt_of_succ_lt_succ hrounds), found]
    rfl

theorem found_eq_iff : ∀ {units : List SegmentUnit},
    (found units).map (·.nalu) = units.map (·.nalu) ↔ ∀ u, units.getLast? = some u → 3 ≤ u.nalu.length
  | [] => by
    constructor
    · intro _ u hu
      cases hu
    · exact fun _ => rfl
  | [u] => by
    rw [found]
    constructor
    · intro h w hw
      obtain rfl : u = w := Option.some.inj hw
      by_contra h3
      rw [if_neg h3] at h
      cases h
    · intro h
      rw [if_pos (h u rfl)]
  | u :: v :: units => by
    rw [found, map_cons, map_cons, cons_inj_right, found_eq_iff,
      List.getLast?_cons_cons]

/-- Every unit of a segment is seen, in order and with its bytes, if and only if the last one
has three bytes; what the memory behind the segment holds does not matter, and the loop ends
after a round more than there are units. -/
theorem segmentUnits_all_iff (units : List SegmentUnit) (hvalid : ∀ u ∈ units, u.Valid)
    (mem : ℕ → UInt8) (hmem : Holds mem 0 (segment units)) (rounds : ℕ) (hrounds : units.length < rounds) :
    segmentUnits mem rounds 0 (segment units).length = units.map (·.nalu) ↔
      ∀ u, units.getLast? = some u → 3 ≤ u.nalu.length := by
  rw [segmentUnits_eq rounds 0 hvalid hmem hrounds]
  exact found_eq_iff

/-- A unit with a payload behind one without. -/
theorem segmentUnits_endOfSequence :
    segmentUnits (fun i => [0, 0, 0, 1, 0, 0xa9, 0, 0, 1, 0, 0x79, 0x80].getD i 0) 3 0 12 =
      [[0, 0xa9], [0, 0x79, 0x80]] :=
  (segmentUnits_all_iff [⟨true, [0, 0xa9]⟩, ⟨false, [0, 0x79, 0x80]⟩]
    (by
      rintro u hu
      rcases mem_cons.mp hu with rfl | hu
      · exact ⟨by decide, trivial, by decide⟩
      · obtain rfl := mem_singleton.mp hu
        exact ⟨by decide, by simp [NoStartCode], by decide⟩)
    (fun i => [0, 0, 0, 1, 0, 0xa9, 0, 0, 1, 0, 0x79, 0x80].getD i 0)
    (fun i _ => by rw [Nat.zero_add]; rfl) 3 (by decide)).mpr fun u hu => by cases hu; decide

/-- An end of bitstream unit at the end is lost. -/
theorem segmentUnits_endOfBitstream :
    (⟨true, [0, 0xb1]⟩ : SegmentUnit).Valid ∧
    segmentUnits (fun i => (segment [⟨true, [0, 0xb1]⟩]).getD i 0) 2 0
        (segment [⟨true, [0, 0xb1]⟩]).length ≠ [[0, 0xb1]] :=
  ⟨⟨by decide, trivial, by decide⟩, by decide⟩

end ECM.ParcatApp

/-! # Rewriting picture order counts

`calc_poc` of the tool that joins the segments of a stream. -/

namespace ECM.ParcatApp
open CommonLib

/-- The type of the unit is not used. -/
def calc_poc (iPOClsb : ℕ) (prevTid0POC : ℤ) (getBitsForPOC : ℕ) (_nalu_type : ℕ) : ℤ :=
  let iMaxPOClsb : ℕ := 1 <<< getBitsForPOC
  let iPrevPOClsb : ℕ := toU32 prevTid0POC &&& iMaxPOClsb - 1
  let iPrevPOCmsb := i32 (prevTid0POC - iPrevPOClsb)
  let iPOCmsb :=
    if iPOClsb < iPrevPOClsb ∧ iPrevPOClsb - iPOClsb ≥ iMaxPOClsb / 2 then i32 (iPrevPOCmsb + iMaxPOClsb)
    else if iPOClsb > iPrevPOClsb ∧ iPOClsb - iPrevPOClsb > iMaxPOClsb / 2 then
      i32 (iPrevPOCmsb - iMaxPOClsb)
    else iPrevPOCmsb
  i32 (iPOCmsb + iPOClsb)

end ECM.ParcatApp
