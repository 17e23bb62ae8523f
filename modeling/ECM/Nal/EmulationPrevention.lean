import ECM.DecoderLib.NALread

/-! # Emulation prevention, piece by piece

A payload put together from pieces that do not end in a zero byte is escaped
piece by piece: no zero run crosses a border, so every inserted byte belongs to
one piece, and the encoder's count of a piece is the number of its bytes. -/

namespace ECM.Nal
open CommonLib.BitStream EncoderLib.NALwrite DecoderLib.NALread

theorem escape_append (a : List UInt8) {b : List UInt8} : ∀ {zeroCount : Nat},
    (a = [] → zeroCount = 0) → EndsNonzero a →
    escape zeroCount (a ++ b) = escape zeroCount a ++ escape 0 b := by
  induction a with
  | nil =>
    intro zeroCount hz _
    rw [hz rfl]
    rfl
  | cons v a ih =>
    intro zeroCount _ ha
    rw [List.cons_append, escape, escape]
    split
    · rw [ih (ha.zeroCount_eq 1) ha.tail]
      rfl
    · rw [ih (ha.zeroCount_eq _) ha.tail]
      rfl

theorem length_escape (a : List UInt8) : ∀ {zeroCount : Nat} (pos : Nat),
    (a = [] → zeroCount = 0) → EndsNonzero a →
    (escape zeroCount a).length = a.length + (escapePositions zeroCount pos a).length := by
  induction a with
  | nil =>
    intro zeroCount pos hz _
    rw [hz rfl]
    rfl
  | cons v a ih =>
    intro zeroCount pos _ ha
    rw [escape, escapePositions]
    split
    · have := ih (pos + 2) (ha.zeroCount_eq 1) ha.tail
      simp only [List.length_cons]
      omega
    · have := ih (pos + 1) (ha.zeroCount_eq (zeroCount + 1)) ha.tail
      simp only [List.length_cons]
      omega

theorem escapePositions_append (a : List UInt8) {b : List UInt8} : ∀ {zeroCount : Nat} (pos : Nat),
    (a = [] → zeroCount = 0) → EndsNonzero a →
    escapePositions zeroCount pos (a ++ b) =
      escapePositions zeroCount pos a ++ escapePositions 0 (pos + (escape zeroCount a).length) b := by
  induction a with
  | nil =>
    intro zeroCount pos hz _
    rw [hz rfl]
    rfl
  | cons v a ih =>
    intro zeroCount pos _ ha
    rw [List.cons_append, escape, escapePositions, escapePositions]
    split
    · rw [ih (pos + 2) (ha.zeroCount_eq 1) ha.tail, List.length_cons, List.length_cons]
      rw [List.cons_append]
      congr 3
      omega
    · rw [ih (pos + 1) (ha.zeroCount_eq _) ha.tail, List.length_cons]
      congr 2
      omega

/-- Every inserted byte lies inside the escaped piece. -/
theorem mem_escapePositions (a : List UInt8) : ∀ {zeroCount pos p : Nat},
    p ∈ escapePositions zeroCount pos a → pos ≤ p ∧ p < pos + (escape zeroCount a).length := by
  induction a with
  | nil => exact fun h => absurd h List.not_mem_nil
  | cons v a ih =>
    intro zeroCount pos p h
    rw [escapePositions] at h
    rw [escape]
    split
    · next hesc =>
      rw [if_pos hesc] at h
      simp only [List.length_cons]
      rcases List.mem_cons.mp h with rfl | h
      · omega
      · have := ih h
        omega
    · next hplain =>
      rw [if_neg hplain] at h
      have := ih h
      simp only [List.length_cons]
      omega

theorem length_escapePositions_le (a : List UInt8) : ∀ zeroCount pos : Nat,
    (escapePositions zeroCount pos a).length ≤ a.length := by
  induction a with
  | nil => exact fun _ _ => Nat.le_refl 0
  | cons v a ih =>
    intro zeroCount pos
    rw [escapePositions]
    split
    · exact Nat.succ_le_succ (ih _ _)
    · exact Nat.le_succ_of_le (ih _ _)

/-! ## The encoder's count -/

open OutputBitstream

theorem emulations_cons_of_ne {v : UInt8} (hv : v ≠ 0) (a : List UInt8) :
    emulations (v :: a) = emulations a := by
  match a with
  | [] => rfl
  | [_] => rfl
  | b :: c :: a => rw [emulations, if_neg fun h => hv h.1]

theorem emulations_zero_cons_of_ne {v : UInt8} (hv : v ≠ 0) (a : List UInt8) :
    emulations (0 :: v :: a) = emulations a := by
  cases a with
  | nil => rfl
  | cons b a => rw [emulations, if_neg fun h => hv h.2, emulations_cons_of_ne hv]

/-- The count after `zeroCount` zero bytes is the number of bytes inserted. -/
theorem emulations_eq (a : List UInt8) : ∀ zeroCount pos, zeroCount ≤ 2 →
    emulations (List.replicate zeroCount 0 ++ a) = (escapePositions zeroCount pos a).length := by
  induction a with
  | nil =>
    intro zeroCount pos hz
    have : zeroCount = 0 ∨ zeroCount = 1 ∨ zeroCount = 2 := by omega
    rcases this with rfl | rfl | rfl <;> rfl
  | cons v a ih =>
    intro zeroCount pos hz
    rw [escapePositions]
    have : zeroCount = 0 ∨ zeroCount = 1 ∨ zeroCount = 2 := by omega
    by_cases hv : v = 0
    · subst hv
      rcases this with rfl | rfl | rfl
      · exact ih 1 (pos + 1) (by decide)
      · exact ih 2 (pos + 1) (by decide)
      · rw [if_pos ⟨rfl, by decide⟩, List.length_cons, if_pos rfl, ← ih 1 (pos + 2) (by decide)]
        change (if (0 : UInt8) = 0 ∧ (0 : UInt8) = 0 then
          (if (0 : UInt8) ≤ 3 then 1 else 0) + emulations (0 :: a) else _) = _
        rw [if_pos ⟨rfl, rfl⟩, if_pos (by decide), Nat.add_comm]
        rfl
    · have hnext := ih 0
      simp only [if_neg hv]
      rcases this with rfl | rfl | rfl
      · rw [if_neg (by simp), ← hnext (pos + 1) (by decide)]
        exact emulations_cons_of_ne hv a
      · rw [if_neg (by simp), ← hnext (pos + 1) (by decide)]
        exact emulations_zero_cons_of_ne hv a
      · have hstep : emulations (List.replicate 2 0 ++ v :: a) = (if v ≤ 3 then 1 else 0) + emulations a := by
          rw [← emulations_cons_of_ne hv a]
          change (if (0 : UInt8) = 0 ∧ (0 : UInt8) = 0 then _ else _) = _
          rw [if_pos ⟨rfl, rfl⟩]
        rw [hstep]
        split
        · next hle => rw [if_pos ⟨rfl, hle⟩, List.length_cons, ← hnext (pos + 2) (by decide), Nat.add_comm]; rfl
        · next hle => rw [if_neg fun h => hle h.2, ← hnext (pos + 1) (by decide), Nat.zero_add]; rfl

/-- A substream and the bytes inserted into it. -/
theorem length_add_emulations {a : List UInt8} (ha : EndsNonzero a) :
    a.length + emulations a = (escape 0 a).length := by
  rw [length_escape a 0 (fun _ => rfl) ha]
  congr 1
  exact emulations_eq a 0 0 (by decide)

end ECM.Nal
