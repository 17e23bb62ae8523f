import ECM.CommonLib.Palette

/-! # The traverse scan

The scan goes line by line, forth and back, so that what is above a position comes before it. -/

namespace ECM.Palette
open CommonLib.Palette

/-- The place of position `n` in its line of length `len`. -/
def snake (len n : ℕ) : ℕ := if n / len % 2 = 0 then n % len else len - 1 - n % len

variable {len n : ℕ}

theorem snake_lt (hlen : 0 < len) : snake len n < len := by
  have hmod := Nat.mod_lt n hlen
  rw [snake]
  split_ifs <;> omega

theorem snake_of_line {q r : ℕ} (hr : r < len) :
    snake len (q * len + r) = (if q % 2 = 0 then r else len - 1 - r) ∧ (q * len + r) / len = q := by
  have hdiv : (q * len + r) / len = q := by
    rw [Nat.mul_comm, Nat.mul_add_div (by omega), Nat.div_eq_of_lt hr, Nat.add_zero]
  have hmod : (q * len + r) % len = r := by
    rw [Nat.mul_comm, Nat.mul_add_mod, Nat.mod_eq_of_lt hr]
  rw [snake, hdiv, hmod]
  exact ⟨rfl, rfl⟩

/-- The next place: in this line, or the same place of the next line. -/
theorem snake_succ (hlen : 0 < len) :
    (if n / len % 2 = 0 then
      if snake len n = len - 1 then snake len (n + 1) = len - 1 ∧ (n + 1) / len = n / len + 1
      else snake len (n + 1) = snake len n + 1 ∧ (n + 1) / len = n / len
    else
      if snake len n = 0 then snake len (n + 1) = 0 ∧ (n + 1) / len = n / len + 1
      else snake len (n + 1) = snake len n - 1 ∧ (n + 1) / len = n / len) := by
  obtain ⟨q, r, hr, rfl⟩ : ∃ q r, r < len ∧ n = q * len + r :=
    ⟨n / len, n % len, Nat.mod_lt n hlen, by rw [Nat.mul_comm]; exact (Nat.div_add_mod n len).symm⟩
  obtain ⟨hplace, hline⟩ := snake_of_line (q := q) hr
  rw [hplace, hline]
  by_cases hlast : r + 1 = len
  · obtain ⟨hplace', hline'⟩ := snake_of_line (q := q + 1) hlen
    have hnext : q * len + r + 1 = (q + 1) * len + 0 := by rw [Nat.succ_mul]; omega
    rw [hnext, hplace', hline']
    split_ifs <;> omega
  · obtain ⟨hplace', hline'⟩ := @snake_of_line len q (r + 1) (by omega)
    rw [Nat.add_assoc, hplace', hline']
    split_ifs <;> omega

theorem scanOrder_hor {width : ℕ} (height : ℕ) (hwidth : 0 < width) :
    scanOrder .SCAN_TRAV_HOR width height n = ⟨snake width n, n / width⟩ := by
  induction n with
  | zero => rw [snake, Nat.zero_div, Nat.zero_mod, if_pos (by decide)]; rfl
  | succ n ih =>
    have hnext := snake_succ (n := n) hwidth
    rw [scanOrder, ih, ScanGenerator.advance]
    dsimp only
    split_ifs at hnext ⊢ <;> rw [hnext.1, hnext.2]

theorem scanOrder_ver (width : ℕ) {height : ℕ} (hheight : 0 < height) :
    scanOrder .SCAN_TRAV_VER width height n = ⟨n / height, snake height n⟩ := by
  induction n with
  | zero => rw [snake, Nat.zero_div, Nat.zero_mod, if_pos (by decide)]; rfl
  | succ n ih =>
    have hnext := snake_succ (n := n) hheight
    rw [scanOrder, ih, ScanGenerator.advance]
    dsimp only
    split_ifs at hnext ⊢ <;> rw [hnext.1, hnext.2]

/-- The same place one line earlier. -/
theorem exists_above (hlen : 0 < len) (hline : n / len ≠ 0) :
    ∃ m < n, snake len m = snake len n ∧ m / len = n / len - 1 := by
  have hlt := snake_lt (n := n) hlen
  have hge : n / len * len ≤ n := Nat.div_mul_le_self n len
  obtain ⟨q, hq⟩ : ∃ q, n / len = q + 1 := Nat.exists_eq_succ_of_ne_zero hline
  rw [hq, Nat.succ_mul] at hge
  obtain ⟨place, hplace, hback⟩ : ∃ place < len,
      (if q % 2 = 0 then place else len - 1 - place) = snake len n := by
    refine ⟨if q % 2 = 0 then snake len n else len - 1 - snake len n, ?_, ?_⟩ <;> split_ifs <;> omega
  obtain ⟨hsnake, hdiv⟩ := snake_of_line (q := q) hplace
  exact ⟨q * len + place, by omega, hsnake.trans hback, by rw [hdiv, hq]; rfl⟩

variable {ctx : PaletteContext} {useRotation : Bool}

/-- What is above a position is scanned before it. -/
theorem scan_above (h : (ctx.scan useRotation n).firstLine useRotation = false) :
    ∃ m < n, ctx.scan useRotation m = (ctx.scan useRotation n).above useRotation := by
  cases useRotation with
  | false =>
    have hscan : ∀ k, ctx.scan false k = ⟨snake ctx.width k, k / ctx.width⟩ := fun k =>
      scanOrder_hor ctx.height ctx.width_pos
    rw [hscan] at h ⊢
    have hline : n / ctx.width ≠ 0 := by simpa [ScanElement.firstLine] using h
    obtain ⟨m, hm, hplace, hprev⟩ := exists_above ctx.width_pos hline
    refine ⟨m, hm, ?_⟩
    rw [hscan, hplace, hprev]
    rfl
  | true =>
    have hscan : ∀ k, ctx.scan true k = ⟨k / ctx.height, snake ctx.height k⟩ := fun k =>
      scanOrder_ver ctx.width ctx.height_pos
    rw [hscan] at h ⊢
    have hline : n / ctx.height ≠ 0 := by simpa [ScanElement.firstLine] using h
    obtain ⟨m, hm, hplace, hprev⟩ := exists_above ctx.height_pos hline
    refine ⟨m, hm, ?_⟩
    rw [hscan, hplace, hprev]
    rfl

/-- The first line is scanned first. -/
theorem firstLine_prev (h : (ctx.scan useRotation (n + 1)).firstLine useRotation = true) :
    (ctx.scan useRotation n).firstLine useRotation = true := by
  have hprev : ∀ {l : ℕ}, 0 < l → (n + 1) / l = 0 → n / l = 0 := fun hl hline =>
    Nat.div_eq_of_lt (Nat.lt_of_succ_lt (Nat.lt_of_div_eq_zero hl hline))
  cases useRotation with
  | false =>
    have hscan : ∀ k, ctx.scan false k = ⟨snake ctx.width k, k / ctx.width⟩ := fun k =>
      scanOrder_hor ctx.height ctx.width_pos
    rw [hscan] at h ⊢
    have hline : (n + 1) / ctx.width = 0 := by simpa [ScanElement.firstLine] using h
    simpa [ScanElement.firstLine] using hprev ctx.width_pos hline
  | true =>
    have hscan : ∀ k, ctx.scan true k = ⟨k / ctx.height, snake ctx.height k⟩ := fun k =>
      scanOrder_ver ctx.width ctx.height_pos
    rw [hscan] at h ⊢
    have hline : (n + 1) / ctx.height = 0 := by simpa [ScanElement.firstLine] using h
    simpa [ScanElement.firstLine] using hprev ctx.height_pos hline

theorem scan_zero (ctx : PaletteContext) (useRotation : Bool) : ctx.scan useRotation 0 = ⟨0, 0⟩ := rfl

end ECM.Palette
