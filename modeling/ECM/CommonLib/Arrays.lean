import ECM.CommonLib.TypeDef
import ECM.Lib.Loop
import Mathlib.Data.List.Perm.Subperm

/-! # Arrays with checked indices

An index behind the end of an array or a vector is an error of its own, so that a
result that is not `outOfRange` says that every index was in its place. -/

namespace ECM.CommonLib
open Lib.Loop Function List

variable {α : Type}

def outOfRange : String := "index out of range"

/-- `xs[i]`. -/
def readAt (xs : List α) (i : ℕ) : Checked α :=
  match xs[i]? with
  | some a => .ok a
  | none => .error outOfRange

/-- `xs[i] = a`. -/
def writeAt (xs : List α) (i : ℕ) (a : α) : Checked (List α) :=
  if i < xs.length then .ok (xs.set i a) else .error outOfRange

/-- `xs[i][j]`. -/
def readAt2 (xs : List (List α)) (i j : ℕ) : Checked α := do
  let row ← readAt xs i
  readAt row j

/-- `xs[i][j] = a`. -/
def writeAt2 (xs : List (List α)) (i j : ℕ) (a : α) : Checked (List (List α)) := do
  let row ← readAt xs i
  let row ← writeAt row j a
  writeAt xs i row

/-- An `int` used as an index. -/
def index (i : ℤ) : Checked ℕ := if i < 0 then .error outOfRange else .ok i.toNat

/-- `xs.resize( n, a )`. -/
def resize (xs : List α) (n : ℕ) (a : α) : List α := xs.take n ++ List.replicate (n - xs.length) a

variable {xs : List α} {i j n : ℕ} {a : α}

theorem readAt_ok (h : xs[i]? = some a) : readAt xs i = .ok a := by rw [readAt, h]

theorem readAt_eq_ok (h : readAt xs i = .ok a) : xs[i]? = some a := by
  rw [readAt] at h
  split at h
  · next b hb =>
    cases h
    exact hb
  · cases h

theorem writeAt_ok (h : i < xs.length) : writeAt xs i a = .ok (xs.set i a) := if_pos h

theorem writeAt_eq_ok {ys : List α} (h : writeAt xs i a = .ok ys) : ys = xs.set i a := by
  rw [writeAt] at h
  split at h
  · cases h
    rfl
  · cases h

theorem writeAt_other {ys : List α} (h : writeAt xs i a = .ok ys) {k : ℕ} (hk : k ≠ i) :
    ys[k]? = xs[k]? := by
  rw [writeAt_eq_ok h, List.getElem?_set_ne (Ne.symm hk)]

theorem index_natCast (i : ℕ) : index i = .ok i := by
  rw [index, if_neg (by omega), Int.toNat_natCast]

/-! ## Tables -/

/-- The array of the values of `f`. -/
def tab (n : ℕ) (f : ℕ → α) : List α := (List.range n).map f

@[simp] theorem length_tab (n : ℕ) (f : ℕ → α) : (tab n f).length = n := by simp [tab]

theorem replicate_eq_tab (n : ℕ) (a : α) : List.replicate n a = tab n fun _ => a := by
  rw [tab, map_const', length_range]

theorem tab_congr {f g : ℕ → α} (h : ∀ i < n, f i = g i) : tab n f = tab n g :=
  map_congr_left fun i hi => h i (mem_range.mp hi)

theorem getElem?_tab {f : ℕ → α} (h : i < n) : (tab n f)[i]? = some (f i) := by
  rw [tab, List.getElem?_map, List.getElem?_range h, Option.map_some]

theorem readAt_tab {f : ℕ → α} (h : i < n) : readAt (tab n f) i = .ok (f i) :=
  readAt_ok (getElem?_tab h)

theorem set_tab (f : ℕ → α) (i : ℕ) (a : α) :
    (tab n f).set i a = tab n (update f i a) := by
  refine ext_getElem? fun k => ?_
  by_cases hk : k < n
  · rw [List.getElem?_set, getElem?_tab hk, getElem?_tab hk]
    by_cases hik : i = k
    · rw [if_pos hik, if_pos (by rw [length_tab]; omega), hik, update_self]
    · rw [if_neg hik, update_of_ne (Ne.symm hik)]
  · rw [List.getElem?_eq_none (by rw [length_set, length_tab]; omega),
      List.getElem?_eq_none (by rw [length_tab]; omega)]

theorem writeAt_tab {f : ℕ → α} (h : i < n) :
    writeAt (tab n f) i a = .ok (tab n (update f i a)) := by
  rw [writeAt_ok (by rwa [length_tab]), set_tab]

theorem exists_tab [Inhabited α] (h : xs.length = n) : ∃ f, xs = tab n f := by
  refine ⟨fun i => xs.getD i default, ext_getElem? fun k => ?_⟩
  by_cases hk : k < n
  · rw [getElem?_tab hk, getD_eq_getElem?_getD, List.getElem?_eq_getElem (h ▸ hk), Option.getD_some]
  · rw [List.getElem?_eq_none (by omega), List.getElem?_eq_none (by rw [length_tab]; omega)]

/-- A loop that writes `v s`, `v (s + 1)` and so on from the place `s` on. -/
theorem loop_fill {s m : ℕ} {body : ℕ → List α → Checked (List α)} {v : ℕ → α} (f : ℕ → α)
    (hs : s + n ≤ m) (hbody : ∀ k < n, ∀ xs, body k xs = writeAt xs (s + k) (v (s + k))) :
    loop body n (tab m f) = .ok (tab m fun j => if s ≤ j ∧ j < s + n then v j else f j) := by
  obtain ⟨xs, hloop, hxs⟩ := loop_total
    (P := fun k xs => xs = tab m fun j => if s ≤ j ∧ j < s + k then v j else f j) (b := body) (n := n)
    (s := tab m f) (tab_congr fun j _ => by rw [if_neg (by omega)]) fun k hk xs hxs => by
      rw [hxs, hbody k hk, writeAt_tab (by omega)]
      refine ⟨_, rfl, tab_congr fun j _ => ?_⟩
      by_cases hj : j = s + k
      · rw [hj, update_self, if_pos (by omega)]
      · rw [update_of_ne hj]
        exact if_congr (by omega) rfl rfl
  rw [hloop, hxs]

theorem readAt2_tab {m : ℕ} {f : ℕ → ℕ → α} (hi : i < m) (hj : j < n) :
    readAt2 (tab m fun i => tab n (f i)) i j = .ok (f i j) := by
  rw [readAt2, readAt_tab hi, ok_bind, readAt_tab hj]

theorem writeAt2_tab {m : ℕ} {f : ℕ → ℕ → α} (hi : i < m) (hj : j < n) :
    writeAt2 (tab m fun i => tab n (f i)) i j a =
      .ok (tab m fun i' => tab n (update f i (update (f i) j a) i')) := by
  rw [writeAt2, readAt_tab hi, ok_bind, writeAt_tab hj, ok_bind, writeAt_tab hi]
  congr 1
  refine tab_congr fun k _ => ?_
  by_cases hk : k = i
  · rw [hk, update_self, update_self]
  · rw [update_of_ne hk, update_of_ne hk]

/-- A write that succeeds was inside. -/
theorem writeAt2_tab_eq_ok {m : ℕ} {f : ℕ → ℕ → α} {t : List (List α)}
    (h : writeAt2 (tab m fun i => tab n (f i)) i j a = .ok t) :
    i < m ∧ j < n ∧ t = tab m fun i' => tab n (update f i (update (f i) j a) i') := by
  by_cases hi : i < m
  · by_cases hj : j < n
    · rw [writeAt2_tab hi hj] at h
      exact ⟨hi, hj, (Except.ok.inj h).symm⟩
    · rw [writeAt2, readAt_tab hi, ok_bind, writeAt, if_neg (by rw [length_tab]; exact hj)] at h
      cases h
  · rw [writeAt2, readAt, List.getElem?_eq_none (by rw [length_tab]; omega)] at h
    cases h

/-! ## Rows filled from the front -/

/-- `xs` behind each other, and `a` in the places behind them. -/
def filled (xs : List α) (n : ℕ) (a : α) : List α := xs ++ List.replicate (n - xs.length) a

theorem filled_nil (n : ℕ) (a : α) : filled [] n a = List.replicate n a := rfl

theorem length_filled (h : xs.length ≤ n) : (filled xs n a).length = n := by
  rw [filled, length_append, length_replicate]
  omega

theorem writeAt_filled {b : α} (h : xs.length < n) :
    writeAt (filled xs n a) xs.length b = .ok (filled (xs ++ [b]) n a) := by
  rw [writeAt_ok (by rw [length_filled (Nat.le_of_lt h)]; exact h)]
  obtain ⟨k, hk⟩ : ∃ k, n - xs.length = k + 1 := ⟨n - xs.length - 1, by omega⟩
  have hk' : n - (xs ++ [b]).length = k := by
    rw [length_append, length_singleton]
    omega
  rw [filled, filled, hk, hk', replicate_succ, set_append_right _ _ (Nat.le_refl _),
    Nat.sub_self, set_cons_zero, append_assoc, singleton_append]

theorem writeAt2_filled {m i : ℕ} {rows : ℕ → List α} {b : α} (hi : i < m)
    (hrow : rows i = filled xs n a) (h : xs.length < n) :
    writeAt2 (tab m rows) i xs.length b =
      .ok (tab m (update rows i (filled (xs ++ [b]) n a))) := by
  rw [writeAt2, readAt_tab hi, ok_bind, hrow, writeAt_filled h, ok_bind, writeAt_tab hi]

theorem readAt_filled (h : xs[i]? = some a) {b : α} : readAt (filled xs n b) i = .ok a := by
  refine readAt_ok ?_
  rw [filled, List.getElem?_append_left (List.getElem?_eq_some_iff.mp h).1, h]

/-! ## Lists of the indices with a property -/

/-- `xs` are the numbers below `n` that meet `p`, in increasing order. -/
structure Enumerates (p : ℕ → Prop) (n : ℕ) (xs : List ℕ) : Prop where
  increasing : xs.Pairwise (· < ·)
  mem_iff : ∀ k, k ∈ xs ↔ k < n ∧ p k

variable {p q : ℕ → Prop} {ks : List ℕ}

theorem enumerates_nil (p : ℕ → Prop) : Enumerates p 0 [] :=
  ⟨List.Pairwise.nil, fun k => by simp⟩

theorem Enumerates.push (h : Enumerates p n ks) (hn : p n) : Enumerates p (n + 1) (ks ++ [n]) := by
  refine ⟨pairwise_append.mpr ⟨h.increasing, pairwise_singleton _ _, ?_⟩, fun k => ?_⟩
  · intro k hk m hm
    rw [mem_singleton.mp hm]
    exact ((h.mem_iff k).mp hk).1
  · rw [mem_append, h.mem_iff, mem_singleton]
    constructor
    · rintro (⟨hk, hpk⟩ | rfl)
      · exact ⟨Nat.lt_succ_of_lt hk, hpk⟩
      · exact ⟨Nat.lt_succ_self k, hn⟩
    · rintro ⟨hk, hpk⟩
      rcases Nat.lt_succ_iff_lt_or_eq.mp hk with hlt | heq
      · exact .inl ⟨hlt, hpk⟩
      · exact .inr heq

theorem Enumerates.skip (h : Enumerates p n ks) (hn : ¬p n) : Enumerates p (n + 1) ks := by
  refine ⟨h.increasing, fun k => ?_⟩
  rw [h.mem_iff]
  constructor
  · rintro ⟨hk, hpk⟩
    exact ⟨Nat.lt_succ_of_lt hk, hpk⟩
  · rintro ⟨hk, hpk⟩
    rcases Nat.lt_succ_iff_lt_or_eq.mp hk with hlt | rfl
    · exact ⟨hlt, hpk⟩
    · exact absurd hpk hn

theorem Enumerates.length_le (h : Enumerates p n ks) : ks.length ≤ n := by
  have hnodup : ks.Nodup := h.increasing.imp Nat.ne_of_lt
  have hsub : ks ⊆ List.range n := fun k hk => mem_range.mpr ((h.mem_iff k).mp hk).1
  have hle := (subperm_of_subset hnodup hsub).length_le
  rwa [length_range] at hle

theorem Enumerates.congr (h : Enumerates p n ks) (hpq : ∀ k < n, p k ↔ q k) : Enumerates q n ks :=
  ⟨h.increasing, fun k => (h.mem_iff k).trans
    ⟨fun hk => ⟨hk.1, (hpq k hk.1).mp hk.2⟩, fun hk => ⟨hk.1, (hpq k hk.1).mpr hk.2⟩⟩⟩

/-- No number from `n` on meets `p`. -/
theorem Enumerates.extend {m : ℕ} (h : Enumerates p n ks) (hnm : n ≤ m)
    (hp : ∀ k, n ≤ k → k < m → ¬p k) : Enumerates p m ks := by
  refine ⟨h.increasing, fun k => ?_⟩
  rw [h.mem_iff]
  constructor
  · rintro ⟨hk, hpk⟩
    exact ⟨Nat.lt_of_lt_of_le hk hnm, hpk⟩
  · rintro ⟨hk, hpk⟩
    refine ⟨?_, hpk⟩
    by_contra hlt
    exact hp k (Nat.le_of_not_lt hlt) hk hpk

/-! ## Tables of such lists

The row `x` of the table lists `f k` for the numbers `k` below `n` that meet `p x`, and
`nums` holds its length. -/

/-- The rows from `lo` to `i` are complete, and those from there on untouched. -/
def Rows (p : ℕ → ℕ → Prop) (f : ℕ → α) (n m : ℕ) (a : α) (lo i : ℕ) (nums : List ℕ)
    (t : List (List α)) : Prop :=
  ∃ num rows, nums = tab m num ∧ t = tab m rows ∧
    (∀ x, lo ≤ x → x < i →
      ∃ ks, Enumerates (p x) n ks ∧ num x = ks.length ∧ rows x = filled (ks.map f) n a) ∧
    ∀ x, i ≤ x → rows x = filled [] n a

/-- In the row `i` the numbers below `j` have been seen, `r` of which were taken. -/
def RowsAt (p : ℕ → ℕ → Prop) (f : ℕ → α) (n m : ℕ) (a : α) (lo i j r : ℕ) (nums : List ℕ)
    (t : List (List α)) : Prop :=
  ∃ num rows, nums = tab m num ∧ t = tab m rows ∧
    (∀ x, lo ≤ x → x < i →
      ∃ ks, Enumerates (p x) n ks ∧ num x = ks.length ∧ rows x = filled (ks.map f) n a) ∧
    (∃ ks, Enumerates (p i) j ks ∧ r = ks.length ∧ rows i = filled (ks.map f) n a) ∧
    ∀ x, i < x → rows x = filled [] n a

section
variable {p : ℕ → ℕ → Prop} {f : ℕ → α} {m r lo : ℕ} {nums : List ℕ} {t : List (List α)}

theorem rows_init (p : ℕ → ℕ → Prop) (f : ℕ → α) (n m : ℕ) (a : α) :
    Rows p f n m a 0 0 (List.replicate m 0) (List.replicate m (List.replicate n a)) :=
  ⟨fun _ => 0, fun _ => filled [] n a, replicate_eq_tab _ _, replicate_eq_tab _ _,
    fun x _ hx => absurd hx (Nat.not_lt_zero x), fun _ _ => rfl⟩

/-- A table none of whose rows from `i` on is touched. -/
theorem rows_untouched {num : ℕ → ℕ} {rows : ℕ → List α} (hnums : nums = tab m num)
    (ht : t = tab m rows) (h : ∀ x, i ≤ x → rows x = filled [] n a) : Rows p f n m a i i nums t :=
  ⟨num, rows, hnums, ht, fun _ hlo hx => absurd hx (Nat.not_lt_of_le hlo), h⟩

theorem Rows.start (h : Rows p f n m a lo i nums t) : RowsAt p f n m a lo i 0 0 nums t := by
  obtain ⟨num, rows, hnum, hrows, hdone, hbelow⟩ := h
  exact ⟨num, rows, hnum, hrows, hdone, ⟨[], enumerates_nil _, rfl, hbelow i (Nat.le_refl i)⟩,
    fun x hx => hbelow x (Nat.le_of_lt hx)⟩

theorem RowsAt.push (h : RowsAt p f n m a lo i j r nums t) (hi : i < m) (hj : j < n) (hp : p i j) :
    ∃ t', writeAt2 t i r (f j) = .ok t' ∧ RowsAt p f n m a lo i (j + 1) (r + 1) nums t' := by
  obtain ⟨num, rows, hnum, rfl, hdone, ⟨ks, hks, rfl, hrow⟩, hbelow⟩ := h
  have hlt : (ks.map f).length < n := by
    rw [length_map]
    exact Nat.lt_of_le_of_lt hks.length_le hj
  have hwrite := writeAt2_filled (b := f j) hi hrow hlt
  rw [length_map] at hwrite
  refine ⟨_, hwrite, num, _, hnum, rfl, fun x hlo hx => ?_, ⟨ks ++ [j], hks.push hp, ?_, ?_⟩,
    fun x hx => ?_⟩
  · rw [update_of_ne (by omega)]
    exact hdone x hlo hx
  · rw [length_append, length_singleton]
  · rw [update_self, map_append]
    rfl
  · rw [update_of_ne (by omega)]
    exact hbelow x hx

theorem RowsAt.skip (h : RowsAt p f n m a lo i j r nums t) (hp : ¬p i j) :
    RowsAt p f n m a lo i (j + 1) r nums t := by
  obtain ⟨num, rows, hnum, hrows, hdone, ⟨ks, hks, hr, hrow⟩, hbelow⟩ := h
  exact ⟨num, rows, hnum, hrows, hdone, ⟨ks, hks.skip hp, hr, hrow⟩, hbelow⟩

theorem RowsAt.extend {k : ℕ} (h : RowsAt p f n m a lo i j r nums t) (hjk : j ≤ k)
    (hp : ∀ x, j ≤ x → x < k → ¬p i x) : RowsAt p f n m a lo i k r nums t := by
  obtain ⟨num, rows, hnum, hrows, hdone, ⟨ks, hks, hr, hrow⟩, hbelow⟩ := h
  exact ⟨num, rows, hnum, hrows, hdone, ⟨ks, hks.extend hjk hp, hr, hrow⟩, hbelow⟩

/-- The length of the row, written at any time. -/
theorem RowsAt.number (h : RowsAt p f n m a lo i j r nums t) (hi : i < m) (v : ℕ) :
    ∃ nums', writeAt nums i v = .ok nums' ∧ nums'[i]? = some v ∧
      RowsAt p f n m a lo i j r nums' t := by
  obtain ⟨num, rows, rfl, hrows, hdone, hrow, hbelow⟩ := h
  refine ⟨_, writeAt_tab hi, by rw [getElem?_tab hi, update_self], _, rows, rfl, hrows,
    fun x hlo hx => ?_, hrow, hbelow⟩
  rw [update_of_ne (by omega)]
  exact hdone x hlo hx

theorem RowsAt.done (h : RowsAt p f n m a lo i n r nums t) (hi : i < m) (hnum : nums[i]? = some r) :
    Rows p f n m a lo (i + 1) nums t := by
  obtain ⟨num, rows, rfl, hrows, hdone, ⟨ks, hks, hr, hrow⟩, hbelow⟩ := h
  rw [getElem?_tab hi] at hnum
  refine ⟨num, rows, rfl, hrows, fun x hlo hx => ?_, fun x hx => hbelow x hx⟩
  rcases Nat.lt_succ_iff_lt_or_eq.mp hx with hlt | rfl
  · exact hdone x hlo hlt
  · exact ⟨ks, hks, (Option.some.inj hnum).trans hr, hrow⟩

/-- The length of a complete row, and its entries. -/
theorem Rows.read (h : Rows p f n m a lo i nums t) {x : ℕ} (hlo : lo ≤ x) (hx : x < i)
    (hm : x < m) :
    ∃ ks, Enumerates (p x) n ks ∧ readAt nums x = .ok ks.length ∧
      t[x]? = some (filled (ks.map f) n a) ∧
      ∀ k y, ks[k]? = some y → readAt2 t x k = .ok (f y) := by
  obtain ⟨num, rows, rfl, rfl, hdone, -⟩ := h
  obtain ⟨ks, hks, hlen, hrow⟩ := hdone x hlo hx
  refine ⟨ks, hks, by rw [readAt_tab hm, hlen], by rw [getElem?_tab hm, hrow], fun k y hk => ?_⟩
  rw [readAt2, readAt_tab hm, ok_bind, hrow]
  exact readAt_filled (by rw [List.getElem?_map, hk, Option.map_some])

theorem RowsAt.untouched (h : RowsAt p f n m a lo i j r nums t) :
    ∃ rows, t = tab m rows ∧ ∀ x, i + 1 ≤ x → rows x = filled [] n a := by
  obtain ⟨num, rows, -, hrows, -, -, hbelow⟩ := h
  exact ⟨rows, hrows, hbelow⟩

/-- The entries of the row that is being written. -/
theorem RowsAt.read (h : RowsAt p f n m a lo i j r nums t) (hi : i < m) :
    ∃ ks, Enumerates (p i) j ks ∧ r = ks.length ∧
      ∀ k y, ks[k]? = some y → readAt2 t i k = .ok (f y) := by
  obtain ⟨num, rows, -, rfl, -, ⟨ks, hks, hr, hrow⟩, -⟩ := h
  refine ⟨ks, hks, hr, fun k y hk => ?_⟩
  rw [readAt2, readAt_tab hi, ok_bind, hrow]
  exact readAt_filled (by rw [List.getElem?_map, hk, Option.map_some])

end

/-! ## Rectangles -/

/-- A table of `m` rows of `n` entries. -/
def Rect (m n : ℕ) (t : List (List α)) : Prop := ∃ f : ℕ → ℕ → α, t = tab m fun i => tab n (f i)

theorem rect_replicate (m n : ℕ) (a : α) : Rect m n (List.replicate m (List.replicate n a)) :=
  ⟨fun _ _ => a, by simp only [replicate_eq_tab]⟩

theorem Rect.write {m : ℕ} {t : List (List α)} (h : Rect m n t) (hi : i < m) (hj : j < n) (a : α) :
    ∃ t', writeAt2 t i j a = .ok t' ∧ Rect m n t' := by
  obtain ⟨f, rfl⟩ := h
  exact ⟨_, writeAt2_tab hi hj, _, rfl⟩

theorem Rect.read {m : ℕ} {t : List (List α)} (h : Rect m n t) (hi : i < m) (hj : j < n) :
    ∃ a, readAt2 t i j = .ok a := by
  obtain ⟨f, rfl⟩ := h
  exact ⟨_, readAt2_tab hi hj⟩

end ECM.CommonLib
