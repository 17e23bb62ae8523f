import Mathlib.Data.List.Induction
import Mathlib.Data.Nat.Bitwise
import Mathlib.Tactic.Ring
import Mathlib.Tactic.Linarith

/-! # Bit strings, most significant bit first

`ofBits` reads a list of bits as a number, `toBits n` writes the low `n` bits
of a number, and `bytesBits` spells a byte list bit by bit. The laws say how
the three meet concatenation. Nothing here names a program. -/

namespace ECM.Lib.Bits

/-- The number a bit list spells. -/
def ofBits (bs : List Bool) : Nat := bs.foldl (fun acc b => 2 * acc + b.toNat) 0

/-- The low `n` bits of `v`. -/
def toBits : Nat → Nat → List Bool
  | 0, _ => []
  | n + 1, v => v.testBit n :: toBits n v

def byteBits (b : UInt8) : List Bool := toBits 8 b.toNat

def bytesBits (bs : List UInt8) : List Bool := bs.flatMap byteBits

/-- The number a byte list spells, first byte most significant. -/
def ofBytes (bs : List UInt8) : Nat := bs.foldl (fun acc b => 256 * acc + b.toNat) 0

/-! ## Reading -/

@[simp] theorem ofBits_nil : ofBits [] = 0 := rfl

theorem foldl_ofBits (bs : List Bool) (acc : Nat) :
    bs.foldl (fun acc b => 2 * acc + b.toNat) acc = acc * 2 ^ bs.length + ofBits bs := by
  induction bs generalizing acc with
  | nil => simp
  | cons b bs ih =>
    simp only [List.foldl_cons, ofBits, List.length_cons]
    rw [ih, ih (2 * 0 + b.toNat)]
    ring

@[simp] theorem ofBits_append (as bs : List Bool) :
    ofBits (as ++ bs) = ofBits as * 2 ^ bs.length + ofBits bs := by
  unfold ofBits
  rw [List.foldl_append, foldl_ofBits]
  rfl

theorem ofBits_cons (b : Bool) (bs : List Bool) :
    ofBits (b :: bs) = b.toNat * 2 ^ bs.length + ofBits bs := by
  have h := ofBits_append [b] bs
  simpa [ofBits] using h

theorem ofBits_lt (bs : List Bool) : ofBits bs < 2 ^ bs.length := by
  induction bs with
  | nil => simp
  | cons b bs ih =>
    rw [ofBits_cons, List.length_cons, Nat.pow_succ]
    have hb : b.toNat * 2 ^ bs.length ≤ 2 ^ bs.length := by cases b <;> simp
    omega

@[simp] theorem ofBits_replicate_false (n : Nat) : ofBits (List.replicate n false) = 0 := by
  induction n with
  | zero => rfl
  | succ n ih => rw [List.replicate_succ, ofBits_cons, ih]; simp

/-! ## Writing -/

@[simp] theorem length_toBits (n v : Nat) : (toBits n v).length = n := by
  induction n with
  | zero => rfl
  | succ n ih => simp [toBits, ih]

@[simp] theorem length_byteBits (b : UInt8) : (byteBits b).length = 8 := length_toBits 8 _

@[simp] theorem length_bytesBits (bs : List UInt8) : (bytesBits bs).length = 8 * bs.length := by
  induction bs with
  | nil => rfl
  | cons b bs ih =>
    simp only [bytesBits, List.flatMap_cons, List.length_append, length_byteBits,
      List.length_cons] at ih ⊢
    omega

@[simp] theorem ofBits_toBits (n v : Nat) : ofBits (toBits n v) = v % 2 ^ n := by
  induction n with
  | zero => simp [toBits, Nat.mod_one]
  | succ n ih =>
    have hbit : (v.testBit n).toNat = v / 2 ^ n % 2 := Nat.toNat_testBit v n
    rw [toBits, ofBits_cons, ih, length_toBits, Nat.mod_pow_succ, hbit]
    ring

theorem ofBits_toBits_of_lt {n v : Nat} (h : v < 2 ^ n) : ofBits (toBits n v) = v := by
  rw [ofBits_toBits, Nat.mod_eq_of_lt h]

/-- Writing `m + n` bits is writing the high `m` and then the low `n`. -/
theorem toBits_add (m n v : Nat) : toBits (m + n) v = toBits m (v / 2 ^ n) ++ toBits n v := by
  induction m with
  | zero => simp [toBits]
  | succ m ih =>
    rw [Nat.succ_add, toBits, toBits, ih, Nat.testBit_div_two_pow]
    simp [Nat.add_comm]

/-- Bits above the written ones do not matter. -/
theorem toBits_mod (n v : Nat) : toBits n (v % 2 ^ n) = toBits n v := by
  suffices h : ∀ m, m ≤ n → toBits m (v % 2 ^ n) = toBits m v from h n (Nat.le_refl n)
  intro m hm
  induction m with
  | zero => rfl
  | succ m ih => simp [toBits, ih (by omega), Nat.testBit_mod_two_pow, show m < n by omega]

/-- A bit list is determined by its length and the number it spells. -/
theorem toBits_ofBits (bs : List Bool) : toBits bs.length (ofBits bs) = bs := by
  induction bs with
  | nil => rfl
  | cons b bs ih =>
    have hlt := ofBits_lt bs
    have hhead : (ofBits (b :: bs)).testBit bs.length = b := by
      rw [ofBits_cons, Nat.testBit_eq_decide_div_mod_eq,
        Nat.mul_comm, Nat.mul_add_div (Nat.two_pow_pos _), Nat.div_eq_of_lt hlt]
      cases b <;> simp
    have htail : toBits bs.length (ofBits (b :: bs)) = bs := by
      rw [← toBits_mod, ofBits_cons, Nat.mul_comm, Nat.mul_add_mod, Nat.mod_eq_of_lt hlt, ih]
    rw [List.length_cons, toBits, hhead, htail]

theorem ofBits_inj {as bs : List Bool} (hl : as.length = bs.length)
    (h : ofBits as = ofBits bs) : as = bs := by
  rw [← toBits_ofBits as, ← toBits_ofBits bs, hl, h]

/-! ## Bytes -/

@[simp] theorem bytesBits_nil : bytesBits [] = [] := rfl

@[simp] theorem bytesBits_append (as bs : List UInt8) :
    bytesBits (as ++ bs) = bytesBits as ++ bytesBits bs := by simp [bytesBits]

@[simp] theorem bytesBits_cons (b : UInt8) (bs : List UInt8) :
    bytesBits (b :: bs) = byteBits b ++ bytesBits bs := by simp [bytesBits]

/-- The byte that holds the low eight bits of `v` spells them. -/
theorem byteBits_ofNat (v : Nat) : byteBits (UInt8.ofNat v) = toBits 8 v := by
  unfold byteBits
  rw [UInt8.toNat_ofNat']
  exact toBits_mod 8 v

theorem byteBits_inj {a b : UInt8} (h : byteBits a = byteBits b) : a = b := by
  have hval := congrArg ofBits h
  rw [byteBits, byteBits, ofBits_toBits_of_lt a.toNat_lt, ofBits_toBits_of_lt b.toNat_lt] at hval
  exact UInt8.toNat_inj.mp hval

theorem bytesBits_inj {as bs : List UInt8} (h : bytesBits as = bytesBits bs) : as = bs := by
  induction as generalizing bs with
  | nil =>
    have hlen := congrArg List.length h
    rw [length_bytesBits, length_bytesBits, List.length_nil] at hlen
    exact (List.length_eq_zero_iff.mp (by omega)).symm
  | cons a as ih =>
    cases bs with
    | nil =>
      have hlen := congrArg List.length h
      simp at hlen
    | cons b bs =>
      rw [bytesBits_cons, bytesBits_cons] at h
      obtain ⟨hhead, htail⟩ := List.append_inj h (by simp)
      rw [byteBits_inj hhead, ih htail]

@[simp] theorem ofBytes_nil : ofBytes [] = 0 := rfl

theorem ofBytes_concat (bs : List UInt8) (b : UInt8) :
    ofBytes (bs ++ [b]) = 256 * ofBytes bs + b.toNat := by
  simp [ofBytes, List.foldl_append]

theorem ofBits_bytesBits (bs : List UInt8) : ofBits (bytesBits bs) = ofBytes bs := by
  induction bs using List.reverseRecOn with
  | nil => rfl
  | append_singleton bs b ih =>
    have hb : b.toNat < 2 ^ 8 := b.toNat_lt
    rw [bytesBits_append, ofBits_append, ih, ofBytes_concat]
    simp only [bytesBits, List.flatMap_cons, List.flatMap_nil, List.append_nil,
      byteBits, length_toBits, ofBits_toBits, Nat.mod_eq_of_lt hb]
    ring

theorem ofBytes_lt (bs : List UInt8) : ofBytes bs < 2 ^ (8 * bs.length) := by
  rw [← ofBits_bytesBits, ← length_bytesBits]
  exact ofBits_lt _

theorem ofBytes_append (as bs : List UInt8) :
    ofBytes (as ++ bs) = ofBytes as * 2 ^ (8 * bs.length) + ofBytes bs := by
  simp only [← ofBits_bytesBits, bytesBits_append, ofBits_append, length_bytesBits]

/-- The first `k` bytes spell the high part of the whole number. -/
theorem ofBytes_replicate_zero (n : Nat) : ofBytes (List.replicate n 0) = 0 := by
  induction n with
  | zero => rfl
  | succ n ih => rw [List.replicate_succ', ofBytes_concat, ih]; rfl

theorem ofBytes_take (bs : List UInt8) (k : Nat) :
    ofBytes (bs.take k) = ofBytes bs / 2 ^ (8 * (bs.length - k)) := by
  have hs := ofBytes_append (bs.take k) (bs.drop k)
  have hlt := ofBytes_lt (bs.drop k)
  rw [List.take_append_drop, List.length_drop] at hs
  rw [List.length_drop] at hlt
  rw [hs, Nat.mul_comm, Nat.mul_add_div (Nat.two_pow_pos _), Nat.div_eq_of_lt hlt, Nat.add_zero]

theorem ofBytes_take_succ (bs : List UInt8) {k : Nat} (h : k < bs.length) :
    ofBytes (bs.take (k + 1)) = 256 * ofBytes (bs.take k) + bs[k].toNat := by
  rw [List.take_succ_eq_append_getElem h, ofBytes_concat]

/-! ## Masks -/

/-- Clearing the byte above the low `k` bits. -/
theorem and_clear {x k : Nat} (hx : x < 2 ^ (k + 8)) (hk : k + 8 ≤ 32) :
    x &&& (0xffffffff ^^^ 0xff <<< k) = x % 2 ^ k := by
  apply Nat.eq_of_testBit_eq
  intro i
  rw [Nat.testBit_and, Nat.testBit_xor, Nat.testBit_shiftLeft, Nat.testBit_mod_two_pow,
    show (0xffffffff : Nat) = 2 ^ 32 - 1 from rfl, show (0xff : Nat) = 2 ^ 8 - 1 from rfl,
    Nat.testBit_two_pow_sub_one, Nat.testBit_two_pow_sub_one]
  by_cases hi : i < k
  · have h32 : i < 32 := by omega
    simp [hi, h32, show ¬ k ≤ i by omega]
  · by_cases hi8 : i < k + 8
    · simp [hi, show i < 32 by omega, show k ≤ i by omega, show i - k < 8 by omega]
    · have hbit : x.testBit i = false :=
        Nat.testBit_lt_two_pow (lt_of_lt_of_le hx (Nat.pow_le_pow_right (by decide) (by omega)))
      simp [hi, hbit]

end ECM.Lib.Bits
