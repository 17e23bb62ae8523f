import ECM.EncoderLib.VLCWriter

/-! # Codes of the high-level syntax, reading side

The counterparts of the writer's codes, and the substream sizes that
`parseSliceHeader` makes of the entry points: offsets count the bytes of the
NAL unit, sizes those of the payload. -/

namespace ECM.DecoderLib.VLCReader
open CommonLib CommonLib.BitStream Lib.Bits EncoderLib.VLCWriter

def xReadCode (s : InputBitstream) (uiLength : Nat) : Checked (Nat × InputBitstream) := do
  check (uiLength = 0) "Reading a code of length '0'"
  s.read uiLength

def xReadFlag (s : InputBitstream) : Checked (Bool × InputBitstream) := do
  let (uiCode, s) ← s.read 1
  return (uiCode ≠ 0, s)

/-- `while( ! ( uiCode & 1 ) )`, which reads one bit a round: at most `fuel` bits
are left. -/
def uvlcPrefix (s : InputBitstream) (uiLength : Nat) : (fuel : Nat) → Checked (Nat × InputBitstream)
  | 0 => .error "Exceeded FIFO size"
  | fuel + 1 => do
    let (uiCode, s) ← s.read 1
    if uiCode &&& 1 = 0 then uvlcPrefix s (uiLength + 1) fuel else return (uiLength + 1, s)

def xReadUvlc (s : InputBitstream) : Checked (Nat × InputBitstream) := do
  let (uiCode, s) ← s.read 1
  if uiCode = 0 then
    let (uiLength, s) ← uvlcPrefix s 0 (s.unread.length + 1)
    let (uiVal, s) ← s.read uiLength
    return (u32 (uiVal + (1 <<< uiLength - 1)), s)
  else return (0, s)

/-! ## Entry points -/

/-- `entry_point_offset_minus1` for each entry point. -/
def readOffsets (s : InputBitstream) (offsetLenMinus1 : Nat) :
    (numEntryPoints : Nat) → Checked (List Nat × InputBitstream)
  | 0 => .ok ([], s)
  | n + 1 => do
    let (uiCode, s) ← xReadCode s (offsetLenMinus1 + 1)
    let (offsets, s) ← readOffsets s offsetLenMinus1 n
    return (u32 (uiCode + 1) :: offsets, s)

/-- The offsets of the slice header, if there are entry points. -/
def readEntryPoints (s : InputBitstream) (numEntryPoints : Nat) :
    Checked (List Nat × InputBitstream) :=
  if numEntryPoints > 0 then do
    let (offsetLenMinus1, s) ← xReadUvlc s
    readOffsets s offsetLenMinus1 numEntryPoints
  else .ok ([], s)

/-- The location of the end of the slice header among the bytes of the NAL unit. -/
def adjustLocation (endOfSliceHeaderLocation : Nat) (locations : List Nat) : Nat :=
  locations.foldl (fun e location => if location < e then u32 (e + 1) else e) endOfSliceHeaderLocation

/-- The loop that takes the emulation prevention bytes off the offsets. -/
def substreamSizes (endOfSliceHeaderLocation : Nat) (locations : List Nat) :
    (curEntryPointOffset : Nat) → (entryPointOffset : List Nat) → List Nat
  | _, [] => []
  | prevEntryPointOffset, offset :: offsets =>
    let curEntryPointOffset := u32 (prevEntryPointOffset + offset)
    let emulationPreventionByteCount := locations.countP fun location =>
      location ≥ u32 (prevEntryPointOffset + endOfSliceHeaderLocation) ∧
        location < u32 (curEntryPointOffset + endOfSliceHeaderLocation)
    sub32 offset emulationPreventionByteCount ::
      substreamSizes endOfSliceHeaderLocation locations curEntryPointOffset offsets

/-- The end of `parseSliceHeader`, from the entry points on. -/
def parseEntryPoints (s : InputBitstream) (numEntryPoints : Nat) :
    Checked (List Nat × InputBitstream) := do
  let (entryPointOffset, s) ← readEntryPoints s numEntryPoints
  let (_, s) ← s.readByteAlignment
  let endOfSliceHeaderLocation := adjustLocation s.getByteLocation s.emulationPreventionByteLocation
  return (substreamSizes endOfSliceHeaderLocation s.emulationPreventionByteLocation 0 entryPointOffset, s)

/-! ## Reading back -/

variable {s : InputBitstream} {fifo : List UInt8} {locations : List Nat} {bits : List Bool}

theorem xReadCode_ok {v n : Nat} (h : s.At fifo locations (toBits n v ++ bits)) (h1 : 1 ≤ n)
    (h32 : n ≤ 32) (hv : v < 2 ^ n) :
    ∃ s', xReadCode s n = .ok (v, s') ∧ s'.At fifo locations bits := by
  rw [xReadCode, check_ok _ (by omega), ok_bind]
  exact h.read_toBits h32 hv

theorem xReadFlag_ok {b : Bool} (h : s.At fifo locations (b :: bits)) :
    ∃ s', xReadFlag s = .ok (b, s') ∧ s'.At fifo locations bits := by
  obtain ⟨s', hs', h'⟩ := h.read [b] (Nat.le_add_left 1 31)
  refine ⟨s', ?_, h'⟩
  rw [xReadFlag]
  change (s.read [b].length >>= _) = _
  rw [hs', ok_bind]
  cases b <;> rfl

theorem uvlcPrefix_ok (k : Nat) : ∀ {s : InputBitstream} (len fuel : Nat),
    s.At fifo locations (List.replicate k false ++ true :: bits) → k < fuel →
    ∃ s', uvlcPrefix s len fuel = .ok (len + k + 1, s') ∧ s'.At fifo locations bits := by
  induction k with
  | zero =>
    intro s len fuel h hfuel
    obtain ⟨fuel, rfl⟩ : ∃ f, fuel = f + 1 := ⟨fuel - 1, by omega⟩
    obtain ⟨s', hs', h'⟩ := h.read [true] (by decide)
    refine ⟨s', ?_, h'⟩
    rw [uvlcPrefix]
    change (s.read [true].length >>= _) = _
    rw [hs', ok_bind]
    rfl
  | succ k ih =>
    intro s len fuel h hfuel
    obtain ⟨fuel, rfl⟩ : ∃ f, fuel = f + 1 := ⟨fuel - 1, by omega⟩
    obtain ⟨s₁, hs₁, h₁⟩ := h.read [false] (by decide)
    obtain ⟨s₂, hs₂, h₂⟩ := ih (len + 1) fuel h₁ (by omega)
    refine ⟨s₂, ?_, h₂⟩
    rw [uvlcPrefix]
    change (s.read [false].length >>= _) = _
    rw [hs₁, ok_bind]
    dsimp only
    rw [if_pos (by rfl), hs₂]
    congr 2
    omega

/-- `xReadUvlc` reads back an Exp-Golomb code. -/
theorem xReadUvlc_ok {v : Nat} (h : s.At fifo locations (uvlc v ++ bits)) (hv : v + 1 < 2 ^ 32) :
    ∃ s', xReadUvlc s = .ok (v, s') ∧ s'.At fifo locations bits := by
  obtain ⟨k, hk⟩ : ∃ k, k = (v + 1).log2 := ⟨_, rfl⟩
  have hlow : 2 ^ k ≤ v + 1 := hk ▸ Nat.log2_self_le (by omega)
  have hhigh : v + 1 < 2 ^ (k + 1) := hk ▸ Nat.lt_log2_self
  have h32 : k < 32 := hk ▸ (Nat.log2_lt (by omega)).mpr hv
  -- the leading one of `v + 1`, then its `k` other bits
  have htop : toBits (k + 1) (v + 1) = true :: toBits k (v + 1 - 2 ^ k) := by
    rw [Nat.pow_succ] at hhigh
    rw [Nat.add_comm k 1, toBits_add, ← toBits_mod k (v + 1),
      show (v + 1) / 2 ^ k = 1 from Nat.div_eq_of_lt_le (by omega) (by omega),
      show (v + 1) % 2 ^ k = v + 1 - 2 ^ k by
        rw [Nat.mod_eq_sub_mod hlow, Nat.mod_eq_of_lt (by omega)]]
    rfl
  rw [uvlc, ← hk, htop, List.append_assoc, List.cons_append] at h
  cases k with
  | zero =>
    obtain ⟨s', hs', h'⟩ := h.read [true] (by decide)
    refine ⟨s', ?_, h'⟩
    rw [xReadUvlc]
    change (s.read [true].length >>= _) = _
    rw [hs', ok_bind, show v = 0 by omega]
    rfl
  | succ k =>
    obtain ⟨s₁, hs₁, h₁⟩ := h.read [false] (by decide)
    obtain ⟨s₂, hs₂, h₂⟩ := uvlcPrefix_ok k 0 (s₁.unread.length + 1) h₁
      (by
        simp only [h₁.unread_eq, List.append_eq, List.length_append, List.length_replicate, List.length_cons]
        omega)
    obtain ⟨s₃, hs₃, h₃⟩ := h₂.read_toBits (by omega) (show v + 1 - 2 ^ (k + 1) < 2 ^ (k + 1) by
      rw [Nat.pow_succ 2 (k + 1)] at hhigh; omega)
    refine ⟨s₃, ?_, h₃⟩
    rw [xReadUvlc]
    change (s.read [false].length >>= _) = _
    rw [hs₁, ok_bind]
    dsimp only
    rw [if_pos (by rfl), hs₂, ok_bind]
    dsimp only
    rw [show 0 + k + 1 = k + 1 by omega, hs₃, ok_bind, Nat.shiftLeft_eq, Nat.one_mul]
    dsimp only
    rw [u32_of_lt (by omega), show v + 1 - 2 ^ (k + 1) + (2 ^ (k + 1) - 1) = v by
      have := Nat.two_pow_pos (k + 1); omega]
    rfl

theorem readOffsets_ok {k : Nat} (hk : k ≤ 30) (sizes : List Nat) : ∀ {s : InputBitstream},
    s.At fifo locations (offsetBits k sizes ++ bits) →
    (∀ size ∈ sizes, 1 ≤ size ∧ size < 2 ^ (k + 1)) →
    ∃ s', readOffsets s k sizes.length = .ok (sizes, s') ∧ s'.At fifo locations bits := by
  induction sizes with
  | nil => exact fun {s} h _ => ⟨s, rfl, h⟩
  | cons size sizes ih =>
    intro s h hsizes
    obtain ⟨h1, hlt⟩ := hsizes size List.mem_cons_self
    have h32 : 2 ^ (k + 1) ≤ 2 ^ 31 := Nat.pow_le_pow_right (by decide) (by omega)
    rw [offsetBits, List.flatMap_cons, List.append_assoc] at h
    obtain ⟨s₁, hs₁, h₁⟩ := xReadCode_ok h (by omega) (by omega) (by omega)
    obtain ⟨s₂, hs₂, h₂⟩ := ih h₁ fun o ho => hsizes o (List.mem_cons_of_mem _ ho)
    refine ⟨s₂, ?_, h₂⟩
    rw [List.length_cons, readOffsets, hs₁, ok_bind]
    dsimp only
    rw [hs₂, ok_bind, u32_of_lt (by omega), show size - 1 + 1 = size by omega]
    rfl

/-- The bits of the entry points. -/
def entryPointBits (k : Nat) (sizes : List Nat) : List Bool :=
  if sizes = [] then [] else uvlc k ++ offsetBits k sizes

theorem length_entryPointBits_le {k : Nat} (hk : k ≤ 30) (sizes : List Nat) :
    (entryPointBits k sizes).length ≤ 9 + 31 * sizes.length := by
  have hlog : (k + 1).log2 < 5 := (Nat.log2_lt (by omega)).mpr (by omega)
  have hoffsets : (offsetBits k sizes).length = sizes.length * (k + 1) := by
    induction sizes with
    | nil => exact (Nat.zero_mul _).symm
    | cons size sizes ih =>
      rw [offsetBits, List.flatMap_cons, List.length_append, length_toBits, List.length_cons,
        Nat.succ_mul, Nat.add_comm, ← ih]
      rfl
  have hle : sizes.length * (k + 1) ≤ sizes.length * 31 := Nat.mul_le_mul_left _ (by omega)
  rw [entryPointBits]
  split
  · exact Nat.zero_le _
  · rw [List.length_append, hoffsets, uvlc]
    simp only [List.length_append, List.length_replicate, length_toBits]
    omega

theorem readEntryPoints_ok {k : Nat} (hk : k ≤ 30) {sizes : List Nat}
    (h : s.At fifo locations (entryPointBits k sizes ++ bits))
    (hsizes : ∀ size ∈ sizes, 1 ≤ size ∧ size < 2 ^ (k + 1)) :
    ∃ s', readEntryPoints s sizes.length = .ok (sizes, s') ∧ s'.At fifo locations bits := by
  cases sizes with
  | nil => exact ⟨s, rfl, h⟩
  | cons size sizes =>
    rw [entryPointBits, if_neg (by simp), List.append_assoc] at h
    obtain ⟨s₁, hs₁, h₁⟩ := xReadUvlc_ok h (by omega)
    obtain ⟨s₂, hs₂, h₂⟩ := readOffsets_ok hk (size :: sizes) h₁ hsizes
    exact ⟨s₂, by rw [readEntryPoints, if_pos (by simp), hs₁, ok_bind]; exact hs₂, h₂⟩

end ECM.DecoderLib.VLCReader
