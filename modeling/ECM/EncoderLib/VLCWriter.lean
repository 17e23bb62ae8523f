import ECM.CommonLib.BitStream

/-! # Codes of the high-level syntax, writing side

Fixed-length codes, flags and Exp-Golomb codes, and the entry points that end a
slice header. -/

namespace ECM.EncoderLib.VLCWriter
open CommonLib CommonLib.BitStream Lib.Bits

def xWriteCode (s : OutputBitstream) (uiCode uiLength : Nat) : Checked OutputBitstream := do
  check (uiLength = 0) "Code of length '0' not supported"
  s.write uiCode uiLength

def xWriteFlag (s : OutputBitstream) (uiCode : Bool) : Checked OutputBitstream := s.write uiCode.toNat 1

/-- The `while( 1 != uiTemp )` loop of `xWriteUvlc`: 32 rounds empty a `uint32_t`. -/
def uvlcLength : (rounds uiTemp uiLength : Nat) → Nat
  | 0, _, uiLength => uiLength
  | rounds + 1, uiTemp, uiLength =>
    if uiTemp = 1 then uiLength else uvlcLength rounds (uiTemp >>> 1) (uiLength + 2)

def xWriteUvlc (s : OutputBitstream) (uiCode : Nat) : Checked OutputBitstream := do
  let uiCode := u32 (uiCode + 1)
  check (uiCode = 0) "Integer overflow"
  let uiLength := uvlcLength 32 uiCode 1
  let s ← s.write 0 (uiLength >>> 1)
  s.write uiCode ((uiLength + 1) >>> 1)

/-! ## Entry points -/

/-- `while( maxOffset >= (1u << (offsetLenMinus1 + 1)) )`; the check ends it
within 31 rounds. -/
def findOffsetLen (maxOffset : Nat) : (rounds offsetLenMinus1 : Nat) → Checked Nat
  | 0, offsetLenMinus1 => .ok offsetLenMinus1
  | rounds + 1, offsetLenMinus1 =>
    if maxOffset ≥ 1 <<< (offsetLenMinus1 + 1) then do
      let offsetLenMinus1 := offsetLenMinus1 + 1
      check (offsetLenMinus1 + 1 ≥ 32) "Invalid offset length minus 1"
      findOffsetLen maxOffset rounds offsetLenMinus1
    else .ok offsetLenMinus1

/-- The loop over the substream sizes. -/
def writeOffsets (s : OutputBitstream) (offsetLenMinus1 : Nat) : List Nat → Checked OutputBitstream
  | [] => .ok s
  | size :: sizes => do
    let s ← xWriteCode s (sub32 size 1) (offsetLenMinus1 + 1)
    writeOffsets s offsetLenMinus1 sizes

/-- `codeTilesWPPEntryPoint` for a slice with `numEntryPoints` entry points and
the substream sizes collected while it was coded. -/
def codeTilesWPPEntryPoint (s : OutputBitstream) (numEntryPoints : Nat) (substreamSizes : List Nat) :
    Checked OutputBitstream :=
  if numEntryPoints = 0 then .ok s else do
    let maxOffset := substreamSizes.foldl (fun maxOffset offset =>
      if offset > maxOffset then offset else maxOffset) 0
    let offsetLenMinus1 ← findOffsetLen maxOffset 31 0
    if substreamSizes.length > 0 then
      let s ← xWriteUvlc s offsetLenMinus1
      writeOffsets s offsetLenMinus1 substreamSizes
    else return s

/-! ## The bits written -/

/-- The Exp-Golomb code of `v`. -/
def uvlc (v : Nat) : List Bool := List.replicate (v + 1).log2 false ++ toBits ((v + 1).log2 + 1) (v + 1)

/-- `s'` is `s` with `bits` appended. -/
structure Appends (s s' : OutputBitstream) (bits : List Bool) : Prop where
  wf : s'.WF
  bits_eq : s'.bits = s.bits ++ bits

variable {s : OutputBitstream}

theorem write_appends (h : s.WF) {v n : Nat} (h32 : n ≤ 32) (hv : v < 2 ^ n) :
    ∃ s', s.write v n = .ok s' ∧ Appends s s' (toBits n v) := by
  obtain ⟨s', hs', hwf, hbits⟩ := OutputBitstream.write_spec h h32 hv
  exact ⟨s', hs', hwf, hbits⟩

theorem Appends.trans {s₁ s₂ s₃ : OutputBitstream} {as bs : List Bool} (h : Appends s₁ s₂ as)
    (h' : Appends s₂ s₃ bs) : Appends s₁ s₃ (as ++ bs) :=
  ⟨h'.wf, by rw [h'.bits_eq, h.bits_eq, List.append_assoc]⟩

theorem xWriteCode_ok (h : s.WF) {v n : Nat} (h1 : 1 ≤ n) (h32 : n ≤ 32) (hv : v < 2 ^ n) :
    ∃ s', xWriteCode s v n = .ok s' ∧ Appends s s' (toBits n v) := by
  rw [xWriteCode, check_ok _ (by omega), ok_bind]
  exact write_appends h h32 hv

theorem xWriteFlag_ok (h : s.WF) (b : Bool) :
    ∃ s', xWriteFlag s b = .ok s' ∧ Appends s s' [b] := by
  obtain ⟨s', hs', h'⟩ := write_appends h (show 1 ≤ 32 by decide)
    (show b.toNat < 2 ^ 1 by cases b <;> decide)
  have hb : toBits 1 b.toNat = [b] := by cases b <;> rfl
  exact ⟨s', hs', hb ▸ h'⟩

theorem uvlcLength_eq (rounds : Nat) : ∀ {t : Nat} (len : Nat), 1 ≤ t → t < 2 ^ rounds →
    uvlcLength rounds t len = len + 2 * t.log2 := by
  induction rounds with
  | zero => exact fun len h1 h => absurd h (by omega)
  | succ rounds ih =>
    intro t len h1 hlt
    rw [Nat.pow_succ] at hlt
    rw [uvlcLength]
    split
    · next h => rw [h]; rfl
    · next h =>
      rw [Nat.shiftRight_eq_div_pow, Nat.pow_one, ih (len + 2) (by omega) (by omega),
        Nat.log2_def t, if_pos (by omega)]
      omega

theorem xWriteUvlc_ok (h : s.WF) {v : Nat} (hv : v + 1 < 2 ^ 32) :
    ∃ s', xWriteUvlc s v = .ok s' ∧ Appends s s' (uvlc v) := by
  have hlog : (v + 1).log2 < 32 := (Nat.log2_lt (by omega)).mpr hv
  obtain ⟨s₁, hs₁, h₁⟩ := write_appends h (show (v + 1).log2 ≤ 32 by omega) (Nat.two_pow_pos _)
  obtain ⟨s₂, hs₂, h₂⟩ := write_appends h₁.wf (show (v + 1).log2 + 1 ≤ 32 by omega)
    (Nat.lt_log2_self (n := v + 1))
  have hzero : toBits (v + 1).log2 0 = List.replicate (v + 1).log2 false :=
    ofBits_inj (by simp) (by simp)
  refine ⟨s₂, ?_, ?_⟩
  · rw [xWriteUvlc, u32_of_lt hv, check_ok _ (by omega), ok_bind,
      uvlcLength_eq 32 1 (by omega) hv]
    dsimp only
    rw [show (1 + 2 * (v + 1).log2) >>> 1 = (v + 1).log2 by rw [Nat.shiftRight_eq_div_pow]; omega,
      show (1 + 2 * (v + 1).log2 + 1) >>> 1 = (v + 1).log2 + 1 by
        rw [Nat.shiftRight_eq_div_pow]; omega, hs₁, ok_bind, hs₂]
  · rw [uvlc, ← hzero]
    exact h₁.trans h₂

/-- The offset length suffices for the greatest offset. -/
theorem findOffsetLen_ok {maxOffset : Nat} (hmax : maxOffset < 2 ^ 31) (rounds : Nat) :
    ∀ {n : Nat}, n + rounds = 31 → n ≤ 30 →
    ∃ k, findOffsetLen maxOffset rounds n = .ok k ∧ k ≤ 30 ∧ maxOffset < 2 ^ (k + 1) := by
  induction rounds with
  | zero => exact fun h hn => absurd h (by omega)
  | succ rounds ih =>
    intro n hsum hn
    rw [findOffsetLen]
    split
    · next hge =>
      rw [Nat.shiftLeft_eq, Nat.one_mul] at hge
      have hn29 : n ≤ 29 := by
        by_contra h
        obtain rfl : n = 30 := by omega
        omega
      dsimp only
      rw [check_ok _ (by omega), ok_bind]
      exact ih (by omega) (by omega)
    · next hlt => exact ⟨n, rfl, hn, by rw [Nat.shiftLeft_eq] at hlt; omega⟩

theorem le_foldl_max (sizes : List Nat) : ∀ init : Nat,
    init ≤ sizes.foldl (fun m o => if o > m then o else m) init ∧
      ∀ o ∈ sizes, o ≤ sizes.foldl (fun m o => if o > m then o else m) init := by
  induction sizes with
  | nil => exact fun init => ⟨Nat.le_refl _, fun _ h => absurd h List.not_mem_nil⟩
  | cons size sizes ih =>
    intro init
    rw [List.foldl_cons]
    obtain ⟨hinit, hall⟩ := ih (if size > init then size else init)
    have hboth : init ≤ (if size > init then size else init) ∧
        size ≤ (if size > init then size else init) := by split <;> omega
    refine ⟨by omega, fun o ho => ?_⟩
    rcases List.mem_cons.mp ho with rfl | ho
    · omega
    · exact hall o ho

theorem foldl_max_lt {sizes : List Nat} {bound : Nat} (h : ∀ o ∈ sizes, o < bound) : ∀ init < bound,
    sizes.foldl (fun m o => if o > m then o else m) init < bound := by
  induction sizes with
  | nil => exact fun init hinit => hinit
  | cons size sizes ih =>
    intro init hinit
    have hsize := h size List.mem_cons_self
    exact ih (fun o ho => h o (List.mem_cons_of_mem _ ho)) _ (by dsimp only; split <;> omega)

/-- The offsets as the slice header spells them. -/
def offsetBits (offsetLenMinus1 : Nat) (sizes : List Nat) : List Bool :=
  sizes.flatMap fun size => toBits (offsetLenMinus1 + 1) (size - 1)

theorem writeOffsets_ok {k : Nat} (hk : k ≤ 30) (sizes : List Nat) : ∀ {s : OutputBitstream}, s.WF →
    (∀ size ∈ sizes, 1 ≤ size ∧ size < 2 ^ (k + 1)) →
    ∃ s', writeOffsets s k sizes = .ok s' ∧ Appends s s' (offsetBits k sizes) := by
  induction sizes with
  | nil => exact fun {s} h _ => ⟨s, rfl, h, by simp [offsetBits]⟩
  | cons size sizes ih =>
    intro s h hsizes
    obtain ⟨h1, hlt⟩ := hsizes size List.mem_cons_self
    have h32 : 2 ^ (k + 1) ≤ 2 ^ 32 := Nat.pow_le_pow_right (by decide) (by omega)
    obtain ⟨s₁, hs₁, h₁⟩ := xWriteCode_ok h (show 1 ≤ k + 1 by omega) (show k + 1 ≤ 32 by omega)
      (show size - 1 < 2 ^ (k + 1) by omega)
    obtain ⟨s₂, hs₂, h₂⟩ := ih h₁.wf fun o ho => hsizes o (List.mem_cons_of_mem _ ho)
    refine ⟨s₂, ?_, h₁.trans h₂⟩
    rw [writeOffsets, sub32_of_le h1 (by omega), hs₁, ok_bind, hs₂]

/-- With as many sizes as entry points, all in range, no check fires. -/
theorem codeTilesWPPEntryPoint_ok (h : s.WF) {sizes : List Nat}
    (hsizes : ∀ size ∈ sizes, 1 ≤ size ∧ size < 2 ^ 31) :
    ∃ s' k, codeTilesWPPEntryPoint s sizes.length sizes = .ok s' ∧ k ≤ 30 ∧
      (∀ size ∈ sizes, size < 2 ^ (k + 1)) ∧
      Appends s s' (if sizes = [] then [] else uvlc k ++ offsetBits k sizes) := by
  cases sizes with
  | nil =>
    exact ⟨s, 0, rfl, by decide, fun _ h => absurd h List.not_mem_nil, h, (List.append_nil _).symm⟩
  | cons size sizes =>
    obtain ⟨m, hm⟩ : ∃ m, (size :: sizes).foldl (fun m o => if o > m then o else m) 0 = m := ⟨_, rfl⟩
    have hmax : m < 2 ^ 31 := hm ▸ foldl_max_lt (fun o ho => (hsizes o ho).2) 0 (by decide)
    obtain ⟨k, hk, hk30, hlt⟩ := findOffsetLen_ok hmax 31 (show 0 + 31 = 31 from rfl) (by decide)
    have hall : ∀ o ∈ size :: sizes, o < 2 ^ (k + 1) := fun o ho =>
      lt_of_le_of_lt (hm ▸ (le_foldl_max (size :: sizes) 0).2 o ho) hlt
    obtain ⟨s₁, hs₁, h₁⟩ := xWriteUvlc_ok h (show k + 1 < 2 ^ 32 by omega)
    obtain ⟨s₂, hs₂, h₂⟩ := writeOffsets_ok hk30 (size :: sizes) h₁.wf
      fun o ho => ⟨(hsizes o ho).1, hall o ho⟩
    refine ⟨s₂, k, ?_, hk30, hall, ?_⟩
    · rw [codeTilesWPPEntryPoint, if_neg (by simp)]
      dsimp only
      rw [hm, hk, ok_bind, if_pos (by simp), hs₁, ok_bind, hs₂]
    · rw [if_neg (by simp)]
      exact h₁.trans h₂

end ECM.EncoderLib.VLCWriter
