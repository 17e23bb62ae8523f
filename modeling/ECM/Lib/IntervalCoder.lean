import ECM.Lib.Bits

/-! # Binary interval coding

An arithmetic coder narrows an interval and doubles its scale; a decoder keeps
the distance of the codeword from the interval's low end in a register of
`w + g` bits, `g` of them below the scale of the interval. The codeword is a
byte string. Two moves generate every coding step: `scale` and `narrow`.

`Contains` says that a codeword lies in an interval, `Window` that a decoder
register holds what has been read of it. A decoder that stays in an interval
containing the codeword compares as if it had read all of it (`le_value_iff`),
and both moves keep the window (`Window.scale`, `Window.narrow`). -/

namespace ECM.Lib.IntervalCoder
open Lib.Bits

/-- `[low, low + range)` in units of `2 ^ -shift`. -/
structure Interval where
  low : Nat
  range : Nat
  shift : Nat
deriving DecidableEq, Repr

namespace Interval

def scale (I : Interval) (k : Nat) : Interval := ⟨I.low * 2 ^ k, I.range * 2 ^ k, I.shift + k⟩

def narrow (I : Interval) (a r : Nat) : Interval := ⟨I.low + a, r, I.shift⟩

@[simp] theorem scale_low (I : Interval) (k : Nat) : (I.scale k).low = I.low * 2 ^ k := rfl
@[simp] theorem scale_range (I : Interval) (k : Nat) : (I.scale k).range = I.range * 2 ^ k := rfl
@[simp] theorem scale_shift (I : Interval) (k : Nat) : (I.scale k).shift = I.shift + k := rfl
@[simp] theorem narrow_low (I : Interval) (a r : Nat) : (I.narrow a r).low = I.low + a := rfl
@[simp] theorem narrow_range (I : Interval) (a r : Nat) : (I.narrow a r).range = r := rfl
@[simp] theorem narrow_shift (I : Interval) (a r : Nat) : (I.narrow a r).shift = I.shift := rfl

@[simp] theorem scale_zero (I : Interval) : I.scale 0 = I := by simp [scale]

/-- The codeword `bs` lies in `I`, whose low end is `w` bits wide at shift 0. -/
structure Contains (w : Nat) (I : Interval) (bs : List UInt8) : Prop where
  long : w + I.shift ≤ 8 * bs.length
  low_le : I.low * 2 ^ (8 * bs.length - (w + I.shift)) ≤ ofBytes bs
  lt_high : ofBytes bs < (I.low + I.range) * 2 ^ (8 * bs.length - (w + I.shift))

variable {w g : Nat} {I : Interval} {bs : List UInt8}

theorem Contains.of_narrow {a r : Nat} (hr : a + r ≤ I.range)
    (h : (I.narrow a r).Contains w bs) : I.Contains w bs := by
  obtain ⟨hlong, hlow, hhigh⟩ := h
  refine ⟨hlong, le_trans (Nat.mul_le_mul_right _ ?_) hlow,
    lt_of_lt_of_le hhigh (Nat.mul_le_mul_right _ ?_)⟩
  · simp
  · simp only [narrow_low, narrow_range]; omega

theorem Contains.of_scale {k : Nat} (h : (I.scale k).Contains w bs) : I.Contains w bs := by
  obtain ⟨hlong, hlow, hhigh⟩ := h
  simp only [scale_shift, scale_low, scale_range] at hlong hlow hhigh
  have hk : 8 * bs.length - (w + I.shift) = k + (8 * bs.length - (w + (I.shift + k))) := by omega
  refine ⟨by omega, ?_, ?_⟩
  · rw [hk, Nat.pow_add, ← Nat.mul_assoc]
    exact hlow
  · rw [hk, Nat.pow_add, ← Nat.mul_assoc, Nat.add_mul]
    exact hhigh

/-- After `idx` bytes of `bs`, the register holds the distance from the low
end of `I` with `g` guard bits; bits not read yet are zero. -/
structure Window (w g : Nat) (I : Interval) (bs : List UInt8) (idx value : Nat) : Prop where
  read : 8 * idx ≤ w + g + I.shift
  unread : w + g + I.shift < 8 * idx + 8
  inside : idx ≤ bs.length
  value_eq : value + I.low * 2 ^ g = ofBytes (bs.take idx) * 2 ^ (w + g + I.shift - 8 * idx)

/-- Comparing the register with a bound is comparing the whole codeword: the
unread bits cannot change the outcome, and neither can the guard bits. -/
theorem Window.le_value_iff {idx value : Nat} (hw : Window w g I bs idx value) (hg : 7 ≤ g)
    (hlong : w + I.shift ≤ 8 * bs.length) (t : Nat) :
    t * 2 ^ g ≤ value ↔ (I.low + t) * 2 ^ (8 * bs.length - (w + I.shift)) ≤ ofBytes bs := by
  obtain ⟨hread, hunread, hin, hval⟩ := hw
  have hguard : 2 ^ g = 2 ^ (8 * idx - (w + I.shift)) * 2 ^ (w + g + I.shift - 8 * idx) := by
    rw [← Nat.pow_add]
    congr 1
    omega
  have hrest : 8 * bs.length - (w + I.shift) =
      (8 * idx - (w + I.shift)) + 8 * (bs.length - idx) := by omega
  have hsum : t * 2 ^ g ≤ value ↔ (I.low + t) * 2 ^ g ≤ value + I.low * 2 ^ g := by
    rw [Nat.add_mul]; omega
  have hprefix : (I.low + t) * 2 ^ g ≤ value + I.low * 2 ^ g ↔
      (I.low + t) * 2 ^ (8 * idx - (w + I.shift)) ≤ ofBytes (bs.take idx) := by
    rw [hval, hguard, ← Nat.mul_assoc]
    exact Nat.mul_le_mul_right_iff (Nat.two_pow_pos _)
  rw [hsum, hprefix, hrest, Nat.pow_add, ← Nat.mul_assoc, ofBytes_take,
    Nat.le_div_iff_mul_le (Nat.two_pow_pos _)]

theorem Window.value_lt {idx value : Nat} (hw : Window w g I bs idx value) (hg : 7 ≤ g)
    (hc : I.Contains w bs) : value < I.range * 2 ^ g := by
  have h := (hw.le_value_iff hg hc.long I.range).not
  simpa using h.mpr (by simpa using hc.lt_high)

/-- In the narrowed interval the register is at least the discarded part. -/
theorem Window.le_value {idx value a r : Nat} (hw : Window w g I bs idx value) (hg : 7 ≤ g)
    (hc : (I.narrow a r).Contains w bs) : a * 2 ^ g ≤ value :=
  (hw.le_value_iff hg hc.long a).mpr hc.low_le

theorem Window.lt_value {idx value a r : Nat} (hw : Window w g I bs idx value) (hg : 7 ≤ g)
    (hc : (I.narrow a r).Contains w bs) : value < (a + r) * 2 ^ g := by
  have h := (hw.le_value_iff hg hc.long (a + r)).not
  simpa using h.mpr (by simpa [Nat.add_assoc] using hc.lt_high)

theorem Window.narrow {idx value a : Nat} (hw : Window w g I bs idx value)
    (ha : a * 2 ^ g ≤ value) (r : Nat) :
    Window w g (I.narrow a r) bs idx (value - a * 2 ^ g) := by
  obtain ⟨hread, hunread, hin, hval⟩ := hw
  refine ⟨hread, hunread, hin, ?_⟩
  rw [narrow_low, narrow_shift, ← hval, Nat.add_mul]
  omega

/-- Scaling inside the bits already read. -/
theorem Window.scale {idx value : Nat} (hw : Window w g I bs idx value) {k : Nat}
    (hk : w + g + (I.shift + k) < 8 * idx + 8) :
    Window w g (I.scale k) bs idx (value * 2 ^ k) := by
  obtain ⟨hread, hunread, hin, hval⟩ := hw
  refine ⟨by simp only [scale_shift]; omega, by simp only [scale_shift]; omega, hin, ?_⟩
  have hs : w + g + (I.shift + k) - 8 * idx = (w + g + I.shift - 8 * idx) + k := by omega
  rw [scale_low, scale_shift, hs, Nat.pow_add, ← Nat.mul_assoc, ← hval]
  ring

/-- Scaling past the bits already read takes in one more byte. -/
theorem Window.scale_refill {idx value : Nat} (hw : Window w g I bs idx value) {k : Nat}
    (hk : 8 * idx + 8 ≤ w + g + (I.shift + k)) (hk8 : k ≤ 8) (hidx : idx < bs.length) :
    Window w g (I.scale k) bs (idx + 1)
      (value * 2 ^ k + bs[idx].toNat * 2 ^ (w + g + (I.shift + k) - (8 * idx + 8))) := by
  obtain ⟨hread, hunread, hin, hval⟩ := hw
  refine ⟨by simp only [scale_shift]; omega, by simp only [scale_shift]; omega, hidx, ?_⟩
  have hs : w + g + (I.shift + k) - 8 * (idx + 1) =
      w + g + (I.shift + k) - (8 * idx + 8) := by omega
  have hsplit : w + g + I.shift - 8 * idx + k =
      8 + (w + g + (I.shift + k) - (8 * idx + 8)) := by omega
  rw [scale_low, scale_shift, hs, ofBytes_take_succ bs hidx, Nat.add_mul]
  have : value * 2 ^ k + I.low * 2 ^ k * 2 ^ g =
      ofBytes (bs.take idx) * 2 ^ (w + g + I.shift - 8 * idx + k) := by
    rw [Nat.pow_add, ← Nat.mul_assoc, ← hval]; ring
  rw [hsplit, Nat.pow_add] at this
  linarith

end Interval

end ECM.Lib.IntervalCoder
