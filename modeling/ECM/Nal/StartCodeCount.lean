import ECM.Nal.EmulationPrevention

/-! # Counting the bytes that the writer will insert

`countStartCodeEmulations` searches for two zero bytes and looks at the byte behind
them; the writer keeps a count of the zeros in front of each byte. The two agree. -/

namespace ECM.Nal
open CommonLib.BitStream EncoderLib.NALwrite DecoderLib.NALread
open OutputBitstream (emulations)

variable {rbsp : List UInt8}

/-! ## The search -/

/-- `search_n(found, last, 2, 0)`, in at most `last - found` rounds. -/
def searchZeros (rbsp : List UInt8) (last : ℕ) : (rounds found : ℕ) → ℕ
  | 0, _ => last
  | rounds + 1, found =>
    if found + 1 < last ∧ rbsp.getD found 0 = 0 ∧ rbsp.getD (found + 1) 0 = 0 then found
    else searchZeros rbsp last rounds (found + 1)

/-- The `do` loop: the third byte of the next emulation, or the end. -/
def nextEmulation (rbsp : List UInt8) : (rounds found : ℕ) → ℕ
  | 0, _ => rbsp.length
  | rounds + 1, found =>
    -- the second zero byte
    let found := searchZeros rbsp (rbsp.length - 1) (rbsp.length - 1 - found) found + 1
    if found = rbsp.length then found
    else if rbsp.getD (found + 1) 0 ≤ 3 then found + 1
    else nextEmulation rbsp rounds (found + 1)

/-- The `for` loop from `it` on. -/
def countFrom (rbsp : List UInt8) : (rounds it : ℕ) → ℕ
  | 0, _ => 0
  | rounds + 1, it =>
    if it = rbsp.length then 0
    else
      let found := nextEmulation rbsp rbsp.length it
      (if found ≠ rbsp.length then 1 else 0) + countFrom rbsp rounds found

/-- `countStartCodeEmulations` of a buffer. -/
def countStartCodeEmulations (rbsp : List UInt8) : ℕ := countFrom rbsp (rbsp.length + 1) 0

/-! ## The writer -/

/-- How many bytes the loop of `writeNaluContent` inserts after `zeroCount` zero bytes. -/
def insertions : (zeroCount : ℕ) → List UInt8 → ℕ
  | _, [] => 0
  | zeroCount, v :: rbsp =>
    if zeroCount = 2 ∧ v ≤ 3 then 1 + insertions (if v = 0 then 1 else 0) rbsp
    else insertions (if v = 0 then zeroCount + 1 else 0) rbsp

theorem length_escapePositions (rbsp : List UInt8) : ∀ zeroCount pos,
    (escapePositions zeroCount pos rbsp).length = insertions zeroCount rbsp := by
  induction rbsp with
  | nil => exact fun _ _ => rfl
  | cons v rbsp ih =>
    intro zeroCount pos
    rw [escapePositions, insertions]
    split
    · rw [List.length_cons, ih, Nat.add_comm]
    · exact ih _ _

/-- The zeros counted stand for the bytes up to here. -/
theorem getLast?_zeros (v : UInt8) (rbsp : List UInt8) (k : ℕ) :
    (List.replicate (if v = 0 then k + 1 else 0) 0 ++ rbsp).getLast? = some 0 ↔
      (v :: rbsp).getLast? = some 0 := by
  rw [List.getLast?_append, List.getLast?_cons]
  cases hr : rbsp.getLast? with
  | some b => rfl
  | none =>
    by_cases hv : v = 0
    · rw [if_pos hv, hv, List.getLast?_replicate, if_neg (Nat.succ_ne_zero k)]
      rfl
    · rw [if_neg hv]
      simp [hv]

/-- The bytes written are those of the payload, the inserted ones and the one behind a
final zero. -/
theorem length_escape_eq (rbsp : List UInt8) : ∀ zeroCount,
    (escape zeroCount rbsp).length = rbsp.length + insertions zeroCount rbsp +
      if (List.replicate zeroCount 0 ++ rbsp).getLast? = some 0 then 1 else 0 := by
  induction rbsp with
  | nil =>
    intro zeroCount
    cases zeroCount with
    | zero => rfl
    | succ z =>
      rw [escape, if_pos (Nat.succ_pos z), List.append_nil, List.getLast?_replicate,
        if_neg (Nat.succ_ne_zero z), if_pos rfl]
      rfl
  | cons v rbsp ih =>
    intro zeroCount
    have hlast : (List.replicate zeroCount 0 ++ v :: rbsp).getLast? = (v :: rbsp).getLast? := by
      rw [List.getLast?_append, List.getLast?_cons]
      rfl
    rw [escape, insertions, hlast]
    split
    · have hzeros := getLast?_zeros v rbsp 0
      have hrest := ih (if v = 0 then 1 else 0)
      rw [Nat.zero_add] at hzeros
      simp only [hzeros] at hrest
      rw [List.length_cons, List.length_cons, List.length_cons, hrest]
      omega
    · have hrest := ih (if v = 0 then zeroCount + 1 else 0)
      simp only [getLast?_zeros] at hrest
      rw [List.length_cons, List.length_cons, hrest]
      omega

/-! ## Both count the same -/

/-- The emulations from `k` on. -/
def left (rbsp : List UInt8) (k : ℕ) : ℕ := emulations (rbsp.drop k)

theorem left_of_zeros {k : ℕ} (hk : k + 2 < rbsp.length) (h0 : rbsp.getD k 0 = 0)
    (h1 : rbsp.getD (k + 1) 0 = 0) :
    left rbsp k = (if rbsp.getD (k + 2) 0 ≤ 3 then 1 else 0) + left rbsp (k + 2) := by
  rw [List.getD_eq_getElem _ _ (by omega)] at h0 h1
  rw [left, left, List.drop_eq_getElem_cons (by omega), List.drop_eq_getElem_cons (by omega),
    List.drop_eq_getElem_cons hk, emulations, if_pos ⟨h0, h1⟩, List.getD_eq_getElem _ _ hk]

theorem left_succ {k : ℕ} (h : ¬(k + 2 < rbsp.length ∧ rbsp.getD k 0 = 0 ∧ rbsp.getD (k + 1) 0 = 0)) :
    left rbsp k = left rbsp (k + 1) := by
  rw [left, left]
  by_cases hk : k + 2 < rbsp.length
  · rw [List.drop_eq_getElem_cons (show k < rbsp.length by omega),
      List.drop_eq_getElem_cons (show k + 1 < rbsp.length by omega), List.drop_eq_getElem_cons hk,
      emulations, if_neg]
    rintro ⟨h0, h1⟩
    refine h ⟨hk, ?_, ?_⟩
    · rwa [List.getD_eq_getElem _ _ (by omega)]
    · rwa [List.getD_eq_getElem _ _ (by omega)]
  · have hshort : ∀ bs : List UInt8, bs.length ≤ 2 → emulations bs = 0 := by
      intro bs hbs
      rcases bs with - | ⟨_, - | ⟨_, - | ⟨_, bs⟩⟩⟩
      · rfl
      · rfl
      · rfl
      · simp at hbs
    rw [hshort _ (by rw [List.length_drop]; omega), hshort _ (by rw [List.length_drop]; omega)]

/-- The search passes no emulation. -/
theorem searchZeros_spec (rounds : ℕ) : ∀ {found : ℕ}, found + rounds = rbsp.length - 1 →
    (searchZeros rbsp (rbsp.length - 1) rounds found = rbsp.length - 1 ∧
      left rbsp found = left rbsp (rbsp.length - 1)) ∨
    ∃ f, searchZeros rbsp (rbsp.length - 1) rounds found = f ∧ found ≤ f ∧ f + 2 < rbsp.length ∧
      rbsp.getD f 0 = 0 ∧ rbsp.getD (f + 1) 0 = 0 ∧ left rbsp found = left rbsp f := by
  induction rounds with
  | zero =>
    intro found hsum
    rw [Nat.add_zero] at hsum
    exact Or.inl ⟨rfl, by rw [hsum]⟩
  | succ rounds ih =>
    intro found hsum
    rw [searchZeros]
    split
    · next h => exact Or.inr ⟨found, rfl, Nat.le_refl _, by omega, h.2.1, h.2.2, rfl⟩
    · next h =>
      have hnext : left rbsp found = left rbsp (found + 1) := left_succ fun hc => h ⟨by omega, hc.2⟩
      rcases ih (show found + 1 + rounds = rbsp.length - 1 by omega) with ⟨hend, hleft⟩ | ⟨f, hf, hle, hrest⟩
      · exact Or.inl ⟨hend, hnext.trans hleft⟩
      · obtain ⟨hlen, h0, h1, hleft⟩ := hrest
        exact Or.inr ⟨f, hf, by omega, hlen, h0, h1, hnext.trans hleft⟩

theorem left_end {k : ℕ} (hk : rbsp.length ≤ k + 2) : left rbsp k = 0 := by
  rw [left]
  have hlen : (rbsp.drop k).length ≤ 2 := by rw [List.length_drop]; omega
  match rbsp.drop k, hlen with
  | [], _ => rfl
  | [_], _ => rfl
  | [_, _], _ => rfl

theorem nextEmulation_spec (rounds : ℕ) : ∀ {found : ℕ}, found < rbsp.length →
    rbsp.length ≤ found + rounds →
    (nextEmulation rbsp rounds found = rbsp.length ∧ left rbsp found = 0) ∨
    ∃ f, nextEmulation rbsp rounds found = f ∧ found < f ∧ f < rbsp.length ∧
      left rbsp found = 1 + left rbsp f := by
  induction rounds with
  | zero => exact fun hlt hle => absurd hlt (by omega)
  | succ rounds ih =>
    intro found hlt hle
    rw [nextEmulation]
    rcases searchZeros_spec (rbsp.length - 1 - found) (show found + _ = rbsp.length - 1 by omega) with
      ⟨hend, hleft⟩ | ⟨f, hf, hle', hlen, h0, h1, hleft⟩
    · rw [hend, Nat.sub_add_cancel (by omega), if_pos rfl]
      exact Or.inl ⟨rfl, hleft.trans (left_end (by omega))⟩
    · have hzeros := left_of_zeros hlen h0 h1
      rw [hf, if_neg (by omega)]
      split
      · next hthree =>
        rw [if_pos hthree] at hzeros
        exact Or.inr ⟨f + 2, rfl, by omega, hlen, hleft.trans hzeros⟩
      · next hthree =>
        -- the third byte needs no escape, and the search goes on at it
        rw [if_neg hthree, Nat.zero_add] at hzeros
        rcases ih hlen (by omega) with ⟨hend, hrest⟩ | ⟨g, hg, hgt, hglen, hrest⟩
        · exact Or.inl ⟨hend, (hleft.trans hzeros).trans hrest⟩
        · exact Or.inr ⟨g, hg, by omega, hglen, (hleft.trans hzeros).trans hrest⟩

theorem countFrom_eq (rounds : ℕ) : ∀ {it : ℕ}, it ≤ rbsp.length → rbsp.length < it + rounds →
    countFrom rbsp rounds it = left rbsp it := by
  induction rounds with
  | zero => exact fun hle hlt => absurd hlt (by omega)
  | succ rounds ih =>
    intro it hle hlt
    rw [countFrom]
    by_cases hend : it = rbsp.length
    · rw [if_pos hend, left_end (by omega)]
    · rw [if_neg hend]
      dsimp only
      rcases nextEmulation_spec rbsp.length (show it < rbsp.length by omega) (by omega) with
        ⟨hnone, hleft⟩ | ⟨f, hf, hgt, hflen, hleft⟩
      · rw [hnone, if_neg (not_not_intro rfl), hleft]
        cases rounds with
        | zero => rfl
        | succ rounds => rw [countFrom, if_pos rfl]
      · rw [hf, if_pos (by omega), ih (by omega) (by omega), hleft]

/-- The search counts what the model of the encoder counts. -/
theorem countStartCodeEmulations_eq (s : OutputBitstream) :
    countStartCodeEmulations s.fifo = s.countStartCodeEmulations :=
  countFrom_eq _ (Nat.zero_le _) (by omega)

/-- `countStartCodeEmulations` is the number of bytes that `writeNaluContent` inserts before
a byte of the payload; what it writes is longer than the payload by these and by the byte
behind a final zero. -/
theorem countStartCodeEmulations_insertions (nalu : OutputNALUnit) :
    countStartCodeEmulations nalu.rbsp = insertions 0 nalu.rbsp ∧
    (writeNaluContent nalu).length = nalu.rbsp.length + countStartCodeEmulations nalu.rbsp +
      if nalu.rbsp.getLast? = some 0 then 1 else 0 := by
  have hcount : countStartCodeEmulations nalu.rbsp = insertions 0 nalu.rbsp := by
    rw [← length_escapePositions nalu.rbsp 0 0, ← emulations_eq nalu.rbsp 0 0 (by decide)]
    exact countFrom_eq _ (Nat.zero_le _) (by omega)
  refine ⟨hcount, ?_⟩
  rw [hcount, writeNaluContent, length_escape_eq]
  rfl

end ECM.Nal
