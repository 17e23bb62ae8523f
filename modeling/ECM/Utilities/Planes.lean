import ECM.Utilities.VideoIOYuv
import Mathlib.Algebra.Order.Ring.Int
import Mathlib.Tactic.Ring

/-! # Planes of a file

What a plane holds after it has been read: when its lines are extended by their own last sample, and that
a plane which was written comes back. -/

namespace ECM.Utilities.Planes
open CommonLib Lib.Loop ECM.Utilities.VideoIOYuv Function List
open CommonLib.Lmcs (toPel)

/-! ## Lines of the memory -/

variable {lo hi base : ℕ} {mem mem' : Memory} {value : Memory → ℕ → Checked ℤ} {v : ℕ → ℤ}

/-- A line is filled with values that do not depend on it, all else stays. -/
theorem fill_ok (hvalue : ∀ x, lo ≤ x → x < hi → ∀ mem', (∀ a < base + lo, mem' a = mem a) → value mem' x = .ok (v x)) :
    ∃ mem', fill lo hi base value mem = .ok mem' ∧ (∀ x, lo ≤ x → x < hi → mem' (base + x) = v x) ∧
      ∀ a, a < base + lo ∨ base + hi ≤ a → mem' a = mem a := by
  obtain ⟨mem', hloop, hin, hout⟩ := loop_total (n := hi - lo) (s := mem)
    (b := fun i mem => do
      let v ← value mem (lo + i)
      return update mem (base + (lo + i)) v)
    (P := fun i mem' => (∀ x, lo ≤ x → x < lo + i → mem' (base + x) = v x) ∧
      ∀ a, a < base + lo ∨ base + lo + i ≤ a → mem' a = mem a)
    ⟨fun x _ _ => absurd ‹x < lo + 0› (by omega), fun _ _ => rfl⟩ (by
      rintro i hi mem₁ ⟨hin, hout⟩
      refine ⟨_, by rw [hvalue (lo + i) (by omega) (by omega) mem₁ fun a ha => hout a (.inl ha), ok_bind]; rfl, ?_, ?_⟩
      · intro x hx hx'
        rcases Nat.eq_or_lt_of_le (Nat.lt_succ_iff.mp (show x < lo + i + 1 by omega)) with rfl | hlt
        · rw [update_self]
        · rw [update_of_ne (by omega)]
          exact hin x hx hlt
      · intro a ha
        rw [update_of_ne (by omega)]
        exact hout a (by omega))
  exact ⟨mem', hloop, fun x hx hx' => hin x hx (by omega), fun a ha => hout a (by omega)⟩

theorem fill_values (h : fill lo hi base value mem = .ok mem') :
    ∀ x, lo ≤ x → x < hi → ∃ mem₁ a, value mem₁ x = .ok a := by
  intro x hx hx'
  obtain ⟨mem₁, mem₂, -, hround⟩ := loop_rounds (P := fun _ _ => True) trivial (fun _ _ _ _ _ _ => trivial) h (x - lo)
    (by omega)
  obtain ⟨a, ha, -⟩ := bind_eq_ok hround
  rw [Nat.add_sub_cancel' hx] at ha
  exact ⟨mem₁, a, ha⟩

/-! ## Samples of the file -/

/-- The bytes of a line of the file. -/
def rowBytes (stride : ℕ) (fd : List ℕ) (r : ℕ) : List ℕ := (fd.drop (r * stride)).take stride

/-- A sample, zero where the line has none. -/
def fileSample (is16bit : Bool) (row : List ℕ) (i : ℕ) : ℤ :=
  if is16bit then toPel (row.getD (i * 2) 0 ||| row.getD (i * 2 + 1) 0 <<< 8 : ℕ) else row.getD i 0

/-- The bytes of the sample are in the line. -/
def InRow (is16bit : Bool) (stride i : ℕ) : Prop := (if is16bit then i * 2 + 1 else i) < stride

theorem readAt_getD {xs : List ℕ} {i : ℕ} (h : i < xs.length) : readAt xs i = .ok (xs.getD i 0) := by
  rw [getD_eq_getElem?_getD, List.getElem?_eq_getElem h]
  exact readAt_ok (List.getElem?_eq_getElem h)

theorem sampleAt_ok {is16bit : Bool} {row : List ℕ} {i : ℕ} (h : InRow is16bit row.length i) :
    sampleAt is16bit row i = .ok (fileSample is16bit row i) := by
  rw [sampleAt, fileSample]
  cases is16bit with
  | true =>
    replace h : i * 2 + 1 < row.length := h
    rw [if_pos rfl, if_pos rfl, Nat.add_zero, readAt_getD (by omega), ok_bind, readAt_getD h, ok_bind]
    rfl
  | false =>
    replace h : i < row.length := h
    have hno : ¬false = true := Bool.noConfusion
    rw [if_neg hno, if_neg hno, readAt_getD h, ok_bind]
    rfl

theorem inRow_of_sampleAt {is16bit : Bool} {row : List ℕ} {i : ℕ} {a : ℤ} (h : sampleAt is16bit row i = .ok a) :
    InRow is16bit row.length i := by
  rw [sampleAt] at h
  cases is16bit with
  | true =>
    obtain ⟨low, -, h⟩ := bind_eq_ok h
    obtain ⟨high, hhigh, -⟩ := bind_eq_ok h
    exact (List.getElem?_eq_some_iff.mp (readAt_eq_ok hhigh)).1
  | false =>
    obtain ⟨b, hb, -⟩ := bind_eq_ok h
    exact (List.getElem?_eq_some_iff.mp (readAt_eq_ok hb)).1

/-! ## Lines of a scale -/

/-- The lines among the first `y` at which a line of the scale `cs` begins. -/
def linesBefore (cs y : ℕ) : ℕ := (y + 2 ^ cs - 1) / 2 ^ cs

theorem linesBefore_zero (cs : ℕ) : linesBefore cs 0 = 0 := by
  have hpos := Nat.two_pow_pos cs
  rw [linesBefore, Nat.zero_add]
  exact Nat.div_eq_of_lt (by omega)

theorem mask_eq (y cs : ℕ) : y &&& (1 <<< cs - 1) = y % 2 ^ cs := by
  rw [Nat.one_shiftLeft, Nat.and_two_pow_sub_one_eq_mod]

/-- A line that begins is the next one. -/
theorem linesBefore_of_dvd {cs y : ℕ} (h : y % 2 ^ cs = 0) :
    linesBefore cs y = y / 2 ^ cs ∧ linesBefore cs (y + 1) = y / 2 ^ cs + 1 := by
  have hpos := Nat.two_pow_pos cs
  have hy : y = 2 ^ cs * (y / 2 ^ cs) := by
    have := Nat.div_add_mod y (2 ^ cs)
    omega
  constructor
  · rw [linesBefore]
    refine Nat.div_eq_of_lt_le ?_ ?_
    · rw [Nat.mul_comm]
      omega
    · rw [Nat.add_mul, Nat.one_mul, Nat.mul_comm]
      omega
  · rw [linesBefore, show y + 1 + 2 ^ cs - 1 = y + 2 ^ cs by omega, Nat.add_div_right _ hpos]

theorem linesBefore_of_not_dvd {cs y : ℕ} (h : y % 2 ^ cs ≠ 0) :
    linesBefore cs (y + 1) = linesBefore cs y ∧ 0 < y ∧ (y - 1) / 2 ^ cs = y / 2 ^ cs := by
  have hpos := Nat.two_pow_pos cs
  have hy := Nat.div_add_mod y (2 ^ cs)
  have hlt := Nat.mod_lt y hpos
  have hy0 : 0 < y := Nat.pos_of_ne_zero fun h0 => h (by rw [h0, Nat.zero_mod])
  refine ⟨?_, hy0, ?_⟩
  · rw [linesBefore, linesBefore, show y + 1 + 2 ^ cs - 1 = y + 2 ^ cs by omega, Nat.add_div_right _ hpos]
    refine (Nat.div_eq_of_lt_le ?_ ?_).symm
    · rw [Nat.add_mul, Nat.one_mul, Nat.mul_comm]
      omega
    · rw [Nat.add_mul, Nat.add_mul, Nat.one_mul, Nat.mul_comm]
      omega
  · refine Nat.div_eq_of_lt_le ?_ ?_
    · rw [Nat.mul_comm]
      omega
    · rw [Nat.add_mul, Nat.one_mul, Nat.mul_comm]
      omega

theorem linesBefore_mono (cs : ℕ) {y z : ℕ} (h : y ≤ z) : linesBefore cs y ≤ linesBefore cs z :=
  Nat.div_le_div_right (by omega)

theorem shiftRight_le_linesBefore (cs y : ℕ) : y >>> cs ≤ linesBefore cs y := by
  have hpos := Nat.two_pow_pos cs
  rw [Nat.shiftRight_eq_div_pow]
  exact Nat.div_le_div_right (by omega)

/-! ## Reading -/

section Reading

variable {g : Geometry} {is16bit : Bool} {dst : ℕ} {fd : List ℕ}

/-- A sample of the file, at a position of the picture. -/
def source (g : Geometry) (is16bit : Bool) (fd : List ℕ) (k x : ℕ) : ℤ :=
  fileSample is16bit (rowBytes g.stride_file fd ((k * 2 ^ g.csy_dest) / 2 ^ g.csy_file)) (fileX g.csx_file g.csx_dest x)

/-- What the line `k` holds: all lines are extended by the last sample of the first one. -/
def stored (g : Geometry) (is16bit : Bool) (fd : List ℕ) (k x : ℕ) : ℤ :=
  if x < g.width_dest then source g is16bit fd k x else source g is16bit fd 0 (g.width_dest - 1)

/-- The picture has a sample, its lines are apart, and the file has the lines that are read. -/
structure Layout (g : Geometry) (height444 : ℕ) (fd : List ℕ) : Prop where
  width : 0 < g.width_dest
  width_lt : g.width_dest < 2 ^ 32
  full_width : g.width_dest ≤ g.full_width_dest
  stride : g.full_width_dest ≤ g.stride_dest
  height : 0 < g.height_dest
  full_height : g.height_dest ≤ g.full_height_dest
  height_eq : g.height_dest = height444 / 2 ^ g.csy_dest
  file : linesBefore g.csy_file height444 * g.stride_file ≤ fd.length

/-- All samples are read inside their line. -/
def Inside (g : Geometry) (is16bit : Bool) : Prop :=
  ∀ x < g.width_dest, InRow is16bit g.stride_file (fileX g.csx_file g.csx_dest x)

structure LineInv (g : Geometry) (is16bit : Bool) (dst : ℕ) (fd : List ℕ) (y : ℕ) (s : Reading) : Prop where
  rest : s.fd = fd.drop (linesBefore g.csy_file y * g.stride_file)
  buf : 0 < y → s.buf = rowBytes g.stride_file fd ((y - 1) / 2 ^ g.csy_file)
  pDstBuf : s.pDstBuf = dst + linesBefore g.csy_dest y * g.stride_dest
  mem : ∀ k < linesBefore g.csy_dest y, ∀ x < g.full_width_dest,
    s.mem (dst + k * g.stride_dest + x) = stored g is16bit fd k x

theorem length_rowBytes {stride r : ℕ} (h : (r + 1) * stride ≤ fd.length) : (rowBytes stride fd r).length = stride := by
  rw [Nat.add_mul, Nat.one_mul] at h
  rw [rowBytes, length_take, length_drop]
  omega

/-- Lines of the picture do not overlap. -/
theorem line_before (dst : ℕ) {stride width j k x : ℕ} (hjk : j < k) (hx : x < width) (hwidth : width ≤ stride) :
    dst + j * stride + x < dst + k * stride := by
  have hmul := Nat.mul_le_mul_right stride (show j + 1 ≤ k by omega)
  rw [Nat.add_mul, Nat.one_mul] at hmul
  omega

variable {height444 y : ℕ} {s : Reading}

/-- The line of the file for `y` is in the buffer. -/
theorem fileLine_ok (hlayout : Layout g height444 fd) (hy : y < height444) (hs : LineInv g is16bit dst fd y s) :
    ∃ s', fileLine g y s = .ok s' ∧ s'.fd = fd.drop (linesBefore g.csy_file (y + 1) * g.stride_file) ∧
      s'.buf = rowBytes g.stride_file fd (y / 2 ^ g.csy_file) ∧ s'.pDstBuf = s.pDstBuf ∧ s'.mem = s.mem := by
  rw [fileLine, mask_eq]
  by_cases hline : y % 2 ^ g.csy_file = 0
  · obtain ⟨hbefore, hafter⟩ := linesBefore_of_dvd hline
    have hlines := Nat.mul_le_mul_right g.stride_file (linesBefore_mono g.csy_file (show y + 1 ≤ height444 by omega))
    have hfile := hlines.trans hlayout.file
    rw [hafter, Nat.add_mul, Nat.one_mul] at hfile
    have hread : readBytes s.fd g.stride_file = .ok (s.fd.take g.stride_file, s.fd.drop g.stride_file) := by
      refine if_pos ?_
      rw [hs.rest, hbefore, length_drop]
      omega
    rw [if_pos hline, hread, ok_bind]
    refine ⟨_, rfl, ?_, ?_, rfl, rfl⟩
    · dsimp only
      rw [hs.rest, drop_drop, hbefore, hafter, Nat.add_mul, Nat.one_mul]
    · dsimp only
      rw [hs.rest, hbefore, rowBytes]
  · obtain ⟨hsame, hpos, hrow⟩ := linesBefore_of_not_dvd hline
    rw [if_neg hline]
    exact ⟨s, rfl, by rw [hs.rest, hsame], by rw [hs.buf hpos, hrow], rfl, rfl⟩

theorem length_currentRow (hlayout : Layout g height444 fd) (hy : y < height444) :
    (rowBytes g.stride_file fd (y / 2 ^ g.csy_file)).length = g.stride_file := by
  refine length_rowBytes (Nat.le_trans ?_ hlayout.file)
  refine Nat.mul_le_mul_right _ ?_
  have hlast : y / 2 ^ g.csy_file * 2 ^ g.csy_file < height444 := Nat.lt_of_le_of_lt (Nat.div_mul_le_self _ _) hy
  have hline := (linesBefore_of_dvd (Nat.mul_mod_left (y / 2 ^ g.csy_file) (2 ^ g.csy_file))).2
  rw [Nat.mul_div_cancel _ (Nat.two_pow_pos _)] at hline
  exact hline ▸ linesBefore_mono g.csy_file hlast

theorem destLine_ok (hlayout : Layout g height444 fd) (hin : Inside g is16bit) {k : ℕ}
    (hbuf : s.buf.length = g.stride_file) (hsource : ∀ x, fileSample is16bit s.buf (fileX g.csx_file g.csx_dest x)
      = source g is16bit fd k x) (hdst : s.pDstBuf = dst + k * g.stride_dest)
    (hmem : ∀ j < k, ∀ x < g.full_width_dest, s.mem (dst + j * g.stride_dest + x) = stored g is16bit fd j x) :
    ∃ s', destLine g is16bit dst s = .ok s' ∧ s'.fd = s.fd ∧ s'.buf = s.buf ∧
      s'.pDstBuf = dst + (k + 1) * g.stride_dest ∧
      ∀ j < k + 1, ∀ x < g.full_width_dest, s'.mem (dst + j * g.stride_dest + x) = stored g is16bit fd j x := by
  have hwidth := hlayout.width
  have hfull := hlayout.full_width
  obtain ⟨mem₁, hfill₁, hin₁, hout₁⟩ := @fill_ok 0 g.width_dest s.pDstBuf s.mem
    (fun _ x => sampleAt is16bit s.buf (fileX g.csx_file g.csx_dest x)) (source g is16bit fd k) (by
      intro x _ hx mem' _
      rw [sampleAt_ok (hbuf ▸ hin x hx), hsource x])
  have hval : mem₁ (dst + sub32 g.width_dest 1) = source g is16bit fd 0 (g.width_dest - 1) := by
    rw [sub32_of_le hwidth hlayout.width_lt]
    rcases Nat.eq_zero_or_pos k with rfl | hk
    · rw [Nat.zero_mul, Nat.add_zero] at hdst
      rw [← hdst]
      exact hin₁ _ (Nat.zero_le _) (by omega)
    · have hbefore := line_before dst hk (show g.width_dest - 1 < g.full_width_dest by omega) hlayout.stride
      rw [Nat.zero_mul, Nat.add_zero] at hbefore
      have hfirst := hmem 0 hk (g.width_dest - 1) (by omega)
      rw [Nat.zero_mul, Nat.add_zero, stored, if_pos (by omega)] at hfirst
      rw [hout₁ _ (.inl (by omega)), hfirst]
  obtain ⟨mem₂, hfill₂, hin₂, hout₂⟩ := @fill_ok g.width_dest g.full_width_dest s.pDstBuf mem₁
    (fun _ _ => .ok (mem₁ (dst + sub32 g.width_dest 1))) (fun _ => source g is16bit fd 0 (g.width_dest - 1))
    fun _ _ _ _ _ => by rw [hval]
  refine ⟨{ s with mem := mem₂, pDstBuf := s.pDstBuf + g.stride_dest }, ?_, rfl, rfl, ?_, ?_⟩
  · rw [destLine, hfill₁, ok_bind]
    dsimp only
    rw [hfill₂, ok_bind]
    rfl
  · dsimp only
    rw [hdst, Nat.add_mul, Nat.one_mul, Nat.add_assoc]
  · intro j hj x hx
    dsimp only
    rcases Nat.eq_or_lt_of_le (Nat.lt_succ_iff.mp hj) with rfl | hlt
    · rw [← hdst, stored]
      split
      · rw [hout₂ _ (.inl (by omega)), hin₁ x (Nat.zero_le x) (by assumption)]
      · exact hin₂ x (by omega) hx
    · have hbefore := line_before dst hlt hx hlayout.stride
      rw [hout₂ _ (.inl (by omega)), hout₁ _ (.inl (by omega))]
      exact hmem j hlt x hx

theorem readLine_ok (hlayout : Layout g height444 fd) (hin : Inside g is16bit) (hy : y < height444)
    (hs : LineInv g is16bit dst fd y s) :
    ∃ s', readLine g is16bit dst y s = .ok s' ∧ LineInv g is16bit dst fd (y + 1) s' := by
  obtain ⟨s₁, hread, hrest, hbuf, hdst, hmem⟩ := fileLine_ok hlayout hy hs
  rw [readLine, hread, ok_bind, mask_eq]
  by_cases hline : y % 2 ^ g.csy_dest = 0
  · obtain ⟨hbefore, hafter⟩ := linesBefore_of_dvd hline
    have hrow : y / 2 ^ g.csy_dest * 2 ^ g.csy_dest = y := Nat.div_mul_cancel (Nat.dvd_of_mod_eq_zero hline)
    have hsource : ∀ x, fileSample is16bit s₁.buf (fileX g.csx_file g.csx_dest x)
        = source g is16bit fd (y / 2 ^ g.csy_dest) x := by
      intro x
      rw [source, hrow, hbuf]
    obtain ⟨s', hok, hrest', hbuf', hdst', hmem'⟩ := destLine_ok hlayout hin
      (by rw [hbuf]; exact length_currentRow hlayout hy) hsource (by rw [hdst, hs.pDstBuf, hbefore])
      (fun j hj x hx => by rw [hmem]; exact hs.mem j (hbefore ▸ hj) x hx)
    rw [if_pos hline]
    refine ⟨s', hok, ⟨hrest'.trans hrest, fun _ => ?_, by rw [hdst', hafter], fun k hk => hmem' k (hafter ▸ hk)⟩⟩
    rw [hbuf', hbuf, Nat.add_sub_cancel]
  · obtain ⟨hsame, -, -⟩ := linesBefore_of_not_dvd hline
    rw [if_neg hline]
    refine ⟨s₁, rfl, ⟨hrest, fun _ => by rw [hbuf, Nat.add_sub_cancel], by rw [hdst, hs.pDstBuf, hsame], fun k hk x hx => ?_⟩⟩
    rw [hmem]
    exact hs.mem k (hsame ▸ hk) x hx

theorem readLines_ok (dst : ℕ) (hlayout : Layout g height444 fd) (hin : Inside g is16bit) (mem : Memory) (buf : List ℕ) :
    ∃ s', loop (readLine g is16bit dst) height444 { fd, buf, pDstBuf := dst, mem } = .ok s' ∧
      LineInv g is16bit dst fd height444 s' := by
  refine loop_total ⟨?_, fun h => absurd h (Nat.lt_irrefl 0), ?_, fun k hk => ?_⟩ fun y hy s hs => readLine_ok hlayout hin hy hs
  · rw [linesBefore_zero, Nat.zero_mul, drop_zero]
  · rw [linesBefore_zero, Nat.zero_mul, Nat.add_zero]
  · rw [linesBefore_zero] at hk
    exact absurd hk (Nat.not_lt_zero k)

theorem padLines_ok (dst : ℕ) (hlayout : Layout g height444 fd) {mem : Memory}
    (hmem : ∀ k < g.height_dest, ∀ x < g.full_width_dest, mem (dst + k * g.stride_dest + x) = stored g is16bit fd k x) :
    ∃ mem', padLines g dst mem = .ok mem' ∧ ∀ k < g.full_height_dest, ∀ x < g.full_width_dest,
      mem' (dst + k * g.stride_dest + x) = stored g is16bit fd (min k (g.height_dest - 1)) x := by
  have hheight := hlayout.height
  obtain ⟨mem', hloop, hmem'⟩ := loop_total (n := g.full_height_dest - g.height_dest) (s := mem)
    (b := fun i mem =>
      let pDstPad := dst + g.stride_dest * g.height_dest + g.stride_dest * i
      fill 0 g.full_width_dest pDstPad (fun mem x => .ok (mem (pDstPad - g.stride_dest + x))) mem)
    (P := fun i mem' => ∀ k < g.height_dest + i, ∀ x < g.full_width_dest,
      mem' (dst + k * g.stride_dest + x) = stored g is16bit fd (min k (g.height_dest - 1)) x)
    (fun k hk x hx => by rw [hmem k hk x hx, min_eq_left (by omega)]) (by
      intro i _ mem₁ hmem₁
      have hbase : dst + g.stride_dest * g.height_dest + g.stride_dest * i = dst + (g.height_dest + i) * g.stride_dest := by
        ring
      have habove : dst + (g.height_dest + i) * g.stride_dest - g.stride_dest
          = dst + (g.height_dest + i - 1) * g.stride_dest := by
        obtain ⟨j, hj⟩ : ∃ j, g.height_dest + i = j + 1 := ⟨g.height_dest + i - 1, by omega⟩
        rw [hj, Nat.add_sub_cancel, Nat.add_mul, Nat.one_mul]
        omega
      dsimp only
      rw [hbase, habove]
      obtain ⟨mem₂, hfill, hin, hout⟩ := @fill_ok 0 g.full_width_dest (dst + (g.height_dest + i) * g.stride_dest) mem₁
        (fun mem x => .ok (mem (dst + (g.height_dest + i - 1) * g.stride_dest + x)))
        (fun x => stored g is16bit fd (g.height_dest - 1) x) (by
          intro x _ hx mem' hsame
          have hbefore := line_before dst (show g.height_dest + i - 1 < g.height_dest + i by omega) hx hlayout.stride
          rw [hsame _ (by omega), hmem₁ _ (by omega) x hx, min_eq_right (by omega)])
      refine ⟨mem₂, hfill, fun k hk x hx => ?_⟩
      rcases Nat.eq_or_lt_of_le (Nat.lt_succ_iff.mp (show k < g.height_dest + i + 1 from hk)) with rfl | hlt
      · rw [hin x (Nat.zero_le x) hx, min_eq_right (by omega)]
      · have hbefore := line_before dst hlt hx hlayout.stride
        rw [hout _ (.inl (by omega))]
        exact hmem₁ k hlt x hx)
  exact ⟨mem', hloop, fun k hk => hmem' k (by omega)⟩

end Reading

/-! ## Extended planes -/

section Plane

variable {is16bit : Bool} {dst stride444 width444 height444 pad_x444 pad_y444 fileBitDepth : ℕ} {mem : Memory} {fd : List ℕ}
  {compID : ComponentID} {destFormat fileFormat : ChromaFormat}

/-- The component is in the picture and in the file. -/
def Present (compID : ComponentID) (destFormat fileFormat : ChromaFormat) : Prop :=
  ¬(compID ≠ .Y ∧ (fileFormat = .chroma400 ∨ destFormat = .chroma400))

instance : Decidable (Present compID destFormat fileFormat) :=
  inferInstanceAs (Decidable (¬(compID ≠ .Y ∧ (fileFormat = .chroma400 ∨ destFormat = .chroma400))))

theorem readPlane_ok (dst : ℕ) (mem : Memory) (fileBitDepth : ℕ) {g : Geometry}
    (hg : geometry is16bit stride444 width444 height444 pad_x444 pad_y444 compID destFormat fileFormat = g)
    (hpresent : Present compID destFormat fileFormat) (hlayout : Layout g height444 fd) (hin : Inside g is16bit) :
    ∃ mem', readPlane dst mem fd is16bit stride444 width444 height444 pad_x444 pad_y444 compID destFormat fileFormat
        fileBitDepth = .ok (mem', fd.drop (linesBefore g.csy_file height444 * g.stride_file)) ∧
      ∀ k < g.full_height_dest, ∀ x < g.full_width_dest,
        mem' (dst + k * g.stride_dest + x) = stored g is16bit fd (min k (g.height_dest - 1)) x := by
  obtain ⟨s, hread, hs⟩ := readLines_ok dst hlayout hin mem (List.replicate g.stride_file 0)
  have hrows : g.height_dest ≤ linesBefore g.csy_dest height444 := by
    rw [hlayout.height_eq, ← Nat.shiftRight_eq_div_pow]
    exact shiftRight_le_linesBefore _ _
  obtain ⟨mem', hpad, hmem'⟩ := padLines_ok dst hlayout fun k hk => hs.mem k (by omega)
  refine ⟨mem', ?_, hmem'⟩
  unfold readPlane
  dsimp only
  rw [hg, if_neg hpresent, hread, ok_bind, hpad, ok_bind, hs.rest]
  rfl

theorem scale_le_one (compID : ComponentID) (fmt : ChromaFormat) : getComponentScaleX compID fmt ≤ 1 := by
  rw [getComponentScaleX, getChannelTypeScaleX]
  split <;> omega

/-- Reading stays inside the line, except for the last sample of an odd width that the file has half of. -/
theorem inside_iff {g : Geometry}
    (hg : geometry is16bit stride444 width444 height444 pad_x444 pad_y444 compID destFormat fileFormat = g)
    (hwidth : 0 < g.width_dest) : Inside g is16bit ↔ ¬(g.csx_dest < g.csx_file ∧ width444 % 2 = 1) := by
  subst hg
  have hfile := scale_le_one compID fileFormat
  have hdest := scale_le_one compID destFormat
  dsimp only [geometry, Inside, InRow, fileX] at hwidth ⊢
  generalize getComponentScaleX compID fileFormat = cf at hfile hwidth ⊢
  generalize getComponentScaleX compID destFormat = cd at hdest hwidth ⊢
  constructor
  · rintro hin ⟨hlt, hodd⟩
    have hcd : cd = 0 := by omega
    have hcf : cf = 1 := by omega
    subst hcd hcf
    have hlast := hin (width444 - 1) (by rw [Nat.shiftRight_zero] at hwidth ⊢; omega)
    simp only [Nat.shiftRight_eq_div_pow] at hlast
    cases is16bit with
    | true => simp at hlast; omega
    | false => simp at hlast; omega
  · intro hno x hx
    rcases Nat.le_one_iff_eq_zero_or_eq_one.mp hfile with rfl | rfl <;>
      rcases Nat.le_one_iff_eq_zero_or_eq_one.mp hdest with rfl | rfl <;> cases is16bit <;>
      simp [Nat.shiftRight_eq_div_pow, Nat.shiftLeft_eq] at * <;> omega

/-- A plane that could be read was read inside its lines. -/
theorem inside_of_readPlane {g : Geometry} {mem' : Memory} {rest : List ℕ}
    (hg : geometry is16bit stride444 width444 height444 pad_x444 pad_y444 compID destFormat fileFormat = g)
    (hpresent : Present compID destFormat fileFormat) (hheight : 0 < height444)
    (h : readPlane dst mem fd is16bit stride444 width444 height444 pad_x444 pad_y444 compID destFormat fileFormat
      fileBitDepth = .ok (mem', rest)) : Inside g is16bit := by
  unfold readPlane at h
  dsimp only at h
  rw [hg, if_neg hpresent] at h
  obtain ⟨s, hloop, -⟩ := bind_eq_ok h
  obtain ⟨s₁, s₂, -, hround⟩ := loop_rounds (P := fun _ _ => True) trivial (fun _ _ _ _ _ _ => trivial) hloop 0 hheight
  obtain ⟨s₃, hfile, hdest⟩ := bind_eq_ok hround
  rw [Nat.zero_and, if_pos rfl] at hdest
  have hbuf : s₃.buf.length = g.stride_file := by
    rw [fileLine, Nat.zero_and, if_pos rfl] at hfile
    obtain ⟨⟨buf, fd⟩, hread, hfile⟩ := bind_eq_ok hfile
    cases hfile
    rw [readBytes] at hread
    split at hread
    · next hle =>
      cases hread
      exact length_take_of_le hle
    · cases hread
  obtain ⟨mem₁, hfill, -⟩ := bind_eq_ok hdest
  intro x hx
  obtain ⟨-, a, ha⟩ := fill_values hfill x (Nat.zero_le x) hx
  exact hbuf ▸ inRow_of_sampleAt ha

/-- Each line holds its line of the file, extended by the last sample of the same line, and the lines below
are copies of the last one. -/
structure Extended (g : Geometry) (is16bit : Bool) (dst : ℕ) (fd : List ℕ) (mem' : Memory) : Prop where
  rows : ∀ k < g.height_dest, ∀ x < g.full_width_dest,
    mem' (dst + k * g.stride_dest + x) = source g is16bit fd k (min x (g.width_dest - 1))
  lower : ∀ k, g.height_dest ≤ k → k < g.full_height_dest → ∀ x < g.full_width_dest,
    mem' (dst + k * g.stride_dest + x) = mem' (dst + (g.height_dest - 1) * g.stride_dest + x)

/-- Nothing is added on the right, or all lines end in the sample that the first one ends in. -/
def SameEnds (g : Geometry) (is16bit : Bool) (fd : List ℕ) : Prop :=
  g.full_width_dest = g.width_dest ∨
    ∀ k < g.height_dest, source g is16bit fd k (g.width_dest - 1) = source g is16bit fd 0 (g.width_dest - 1)

theorem extended_iff {g : Geometry} {mem' : Memory} (hlayout : Layout g height444 fd)
    (hmem : ∀ k < g.full_height_dest, ∀ x < g.full_width_dest,
      mem' (dst + k * g.stride_dest + x) = stored g is16bit fd (min k (g.height_dest - 1)) x) :
    Extended g is16bit dst fd mem' ↔ SameEnds g is16bit fd := by
  have hwidth := hlayout.width
  have hheight := hlayout.full_height
  constructor
  · intro hext
    rcases Nat.eq_or_lt_of_le hlayout.full_width with heq | hlt
    · exact .inl heq.symm
    · refine .inr fun k hk => ?_
      have hrow := hext.rows k hk g.width_dest hlt
      rw [hmem k (by omega) g.width_dest hlt, min_eq_left (by omega), min_eq_right (by omega), stored,
        if_neg (Nat.lt_irrefl _)] at hrow
      exact hrow.symm
  · intro hends
    constructor
    · intro k hk x hx
      rw [hmem k (by omega) x hx, min_eq_left (by omega), stored]
      split
      · rw [min_eq_left (by omega)]
      · rw [min_eq_right (by omega)]
        rcases hends with heq | hends
        · omega
        · exact (hends k hk).symm
    · intro k hk hk' x hx
      have hpos := hlayout.height
      rw [hmem k hk' x hx, hmem _ (by omega) x hx, min_eq_right (by omega), min_eq_right (by omega)]

end Plane

/-! ## Written lines -/

section Writing

variable {is16bit : Bool} {width stride : ℕ} {line : ℕ → ℤ}

/-- The bytes that the samples of a line take. -/
def byteCount (is16bit : Bool) (width : ℕ) : ℕ := if is16bit then 2 * width else width

/-- A byte of a line of samples. -/
def byteOf (is16bit : Bool) (line : ℕ → ℤ) (i : ℕ) : ℕ :=
  if is16bit then if i % 2 = 0 then (line (i / 2) % 256).toNat else (line (i / 2) / 256 % 256).toNat
  else (line i % 256).toNat

/-- A line as it is written, with zeros where the samples end. -/
def outRow (is16bit : Bool) (width stride : ℕ) (line : ℕ → ℤ) : List ℕ :=
  tab stride fun i => if i < byteCount is16bit width then byteOf is16bit line i else 0

theorem writeSample_tab (line : ℕ → ℤ) (f : ℕ → ℕ) {x : ℕ} (h : byteCount is16bit (x + 1) ≤ stride) :
    ∃ f', writeSample is16bit x (line x) (tab stride f) = .ok (tab stride f') ∧
      ∀ i, f' i = if byteCount is16bit x ≤ i ∧ i < byteCount is16bit (x + 1) then byteOf is16bit line i else f i := by
  cases is16bit with
  | true =>
    replace h : 2 * (x + 1) ≤ stride := h
    refine ⟨update (update f (2 * x) (line x % 256).toNat) (2 * x + 1) (line x / 256 % 256).toNat, ?_,
      fun i => ?_⟩
    · rw [writeSample, if_pos rfl, writeAt_tab (show 2 * x < stride by omega), ok_bind]
      exact writeAt_tab (show 2 * x + 1 < stride by omega)
    · simp only [update_apply, byteCount, byteOf, if_true]
      by_cases hodd : i = 2 * x + 1
      · rw [if_pos hodd, if_pos (by omega), if_neg (by omega), show i / 2 = x by omega]
      · rw [if_neg hodd]
        by_cases heven : i = 2 * x
        · rw [if_pos heven, if_pos (by omega), if_pos (by omega), show i / 2 = x by omega]
        · rw [if_neg heven, if_neg (by omega)]
  | false =>
    replace h : x + 1 ≤ stride := h
    have hno : ¬false = true := Bool.noConfusion
    refine ⟨_, by rw [writeSample, if_neg hno]; exact writeAt_tab (show x < stride by omega), fun i => ?_⟩
    simp only [update_apply, byteCount, byteOf, if_neg hno]
    by_cases hi : i = x
    · rw [if_pos hi, if_pos (by omega), hi]
    · rw [if_neg hi, if_neg (by omega)]

theorem writeSamples_ok {f : ℕ → ℕ} (hfit : byteCount is16bit width ≤ stride) (hf : ∀ i, byteCount is16bit width ≤ i → f i = 0) :
    loop (fun x buf => writeSample is16bit x (line x) buf) width (tab stride f) = .ok (outRow is16bit width stride line) := by
  have hmono : ∀ a b, a ≤ b → byteCount is16bit a ≤ byteCount is16bit b := by
    intro a b hab
    rw [byteCount, byteCount]
    split <;> omega
  obtain ⟨buf, hloop, g, rfl, hg⟩ := loop_total (n := width) (s := tab stride f)
    (b := fun x buf => writeSample is16bit x (line x) buf)
    (P := fun x buf => ∃ g, buf = tab stride g ∧ ∀ i, g i = if i < byteCount is16bit x then byteOf is16bit line i else f i)
    ⟨f, rfl, fun i => by rw [if_neg (by simp [byteCount])]⟩ (by
      rintro x hx buf ⟨g, rfl, hg⟩
      obtain ⟨g', hwrite, hg'⟩ := writeSample_tab line g ((hmono _ _ hx).trans hfit)
      refine ⟨_, hwrite, g', rfl, fun i => ?_⟩
      have hstep := hmono x (x + 1) (by omega)
      rw [hg' i]
      by_cases hnew : byteCount is16bit x ≤ i ∧ i < byteCount is16bit (x + 1)
      · rw [if_pos hnew, if_pos hnew.2]
      · rw [if_neg hnew, hg i]
        by_cases hold : i < byteCount is16bit x
        · rw [if_pos hold, if_pos (by omega)]
        · rw [if_neg hold, if_neg (by omega)])
  rw [hloop, outRow]
  refine congrArg Except.ok (tab_congr fun i _ => ?_)
  rw [hg i]
  split
  · rfl
  · exact hf i (by omega)

/-- The samples of a line that was written. -/
theorem fileSample_outRow {x : ℕ} (hfit : byteCount is16bit width ≤ stride) (hx : x < width) (hlow : 0 ≤ line x)
    (hhigh : line x < 2 ^ 15) (hbyte : is16bit = false → line x < 2 ^ 8) :
    fileSample is16bit (outRow is16bit width stride line) x = line x := by
  have hget : ∀ i, i < byteCount is16bit width → (outRow is16bit width stride line).getD i 0 = byteOf is16bit line i := by
    intro i hi
    rw [outRow, getD_eq_getElem?_getD, getElem?_tab (by omega), if_pos hi, Option.getD_some]
  rw [fileSample]
  cases is16bit with
  | true =>
    have hcount : byteCount true width = 2 * width := rfl
    rw [if_pos rfl, hget _ (by omega), hget _ (by omega)]
    simp only [byteOf, if_true]
    rw [if_pos (by omega), if_neg (by omega), show x * 2 / 2 = x by omega, show (x * 2 + 1) / 2 = x by omega, Nat.or_comm,
      ← Nat.shiftLeft_add_eq_or_of_lt (show (line x % 256).toNat < 2 ^ 8 by omega), Nat.shiftLeft_eq]
    rw [show ((line x / 256 % 256).toNat * 2 ^ 8 + (line x % 256).toNat : ℕ) = (line x).toNat by omega,
      Int.toNat_of_nonneg hlow]
    exact Int.bmod_eq_of_le (by omega) (by omega)
  | false =>
    have hno : ¬false = true := Bool.noConfusion
    have hsmall := hbyte rfl
    rw [if_neg hno, hget x hx, byteOf, if_neg hno]
    omega

/-- Lines of equal length, one after the other. -/
theorem rowBytes_flatMap {rows : ℕ → List ℕ} (hlength : ∀ r, (rows r).length = stride) (tail : List ℕ) :
    ∀ {n r : ℕ}, r < n → rowBytes stride ((List.range n).flatMap rows ++ tail) r = rows r := by
  have htotal : ∀ n, ((List.range n).flatMap rows).length = n * stride := by
    intro n
    simp [length_flatMap, hlength]
  intro n r hr
  obtain ⟨m, rfl⟩ : ∃ m, n = r + 1 + m := ⟨n - (r + 1), by omega⟩
  rw [rowBytes, range_add, range_succ, flatMap_append, flatMap_append, flatMap_singleton,
    append_assoc, append_assoc, drop_append_of_le_length (htotal r).ge, ← htotal r, drop_length,
    nil_append, ← hlength r, take_left]

/-- The lines of a plane, as they are written. -/
def outRows (is16bit : Bool) (width stride : ℕ) (mem : Memory) (src stride_src r : ℕ) : List ℕ :=
  outRow is16bit width stride fun x => mem (src + r * stride_src + x)

structure WriteInv (is16bit : Bool) (width stride : ℕ) (mem : Memory) (src stride_src cs : ℕ) (fd : List ℕ) (y : ℕ)
    (s : Writing) : Prop where
  fd : s.fd = fd ++ (List.range (linesBefore cs y)).flatMap (outRows is16bit width stride mem src stride_src)
  pSrcBuf : s.pSrcBuf = src + linesBefore cs y * stride_src
  buf : ∃ f, s.buf = tab stride f ∧ ∀ i, byteCount is16bit width ≤ i → f i = 0

theorem writeLine_ok {mem : Memory} {src stride_src cs y : ℕ} {fd : List ℕ} {s : Writing}
    (hfit : byteCount is16bit width ≤ stride) (hs : WriteInv is16bit width stride mem src stride_src cs fd y s) :
    ∃ s', writeLine cs cs stride_src
        (fun pSrcBuf buf => loop (fun x buf => writeSample is16bit x (mem (pSrcBuf + x)) buf) width buf) y s = .ok s' ∧
      WriteInv is16bit width stride mem src stride_src cs fd (y + 1) s' := by
  obtain ⟨f, hbuf, hf⟩ := hs.buf
  rw [writeLine, mask_eq]
  by_cases hline : y % 2 ^ cs = 0
  · obtain ⟨hbefore, hafter⟩ := linesBefore_of_dvd hline
    have hrow : loop (fun x buf => writeSample is16bit x (mem (s.pSrcBuf + x)) buf) width s.buf
        = .ok (outRows is16bit width stride mem src stride_src (y / 2 ^ cs)) := by
      rw [hbuf, hs.pSrcBuf, hbefore]
      exact writeSamples_ok hfit hf
    refine ⟨{ fd := s.fd ++ outRows is16bit width stride mem src stride_src (y / 2 ^ cs),
              buf := outRows is16bit width stride mem src stride_src (y / 2 ^ cs), pSrcBuf := s.pSrcBuf + stride_src },
      ?_, ?_, ?_, ?_⟩
    · rw [if_pos hline, hrow, ok_bind]
      dsimp only [pure, Except.pure]
      rw [ok_bind, if_pos hline]
    · dsimp only
      rw [hs.fd, hafter, hbefore, range_succ, flatMap_append, flatMap_singleton, append_assoc]
    · dsimp only
      rw [hs.pSrcBuf, hafter, hbefore, Nat.add_mul, Nat.one_mul, Nat.add_assoc]
    · exact ⟨_, rfl, fun i hi => if_neg (by omega)⟩
  · obtain ⟨hsame, -, -⟩ := linesBefore_of_not_dvd hline
    refine ⟨s, ?_, by rw [hsame]; exact hs.fd, by rw [hsame]; exact hs.pSrcBuf, hs.buf⟩
    rw [if_neg hline]
    dsimp only [pure, Except.pure]
    rw [ok_bind, if_neg hline]

variable {width444 height444 stride_src src fileBitDepth : ℕ} {mem : Memory} {compID : ComponentID} {format : ChromaFormat}

/-- A plane of the size of the picture is written as its lines. -/
theorem writePlane_ok (hpresent : Present compID format format) (fd : List ℕ)
    (hfit : byteCount is16bit (width444 >>> getComponentScaleX compID format)
      ≤ (width444 * (if is16bit then 2 else 1)) >>> getComponentScaleX compID format) :
    writePlane width444 height444 fd src mem is16bit stride_src width444 height444 compID format format fileBitDepth
      = .ok (fd ++ (List.range (linesBefore (getComponentScaleY compID format) height444)).flatMap
          (outRows is16bit (width444 >>> getComponentScaleX compID format)
            ((width444 * (if is16bit then 2 else 1)) >>> getComponentScaleX compID format) mem src stride_src)) := by
  obtain ⟨s, hloop, hs⟩ := loop_total (n := height444)
    (s := { fd, buf := List.replicate ((width444 * (if is16bit then 2 else 1)) >>> getComponentScaleX compID format) 0,
            pSrcBuf := src })
    (P := WriteInv is16bit (width444 >>> getComponentScaleX compID format)
      ((width444 * (if is16bit then 2 else 1)) >>> getComponentScaleX compID format) mem src stride_src
      (getComponentScaleY compID format) fd)
    ⟨by rw [linesBefore_zero, range_zero, flatMap_nil, append_nil],
      by rw [linesBefore_zero, Nat.zero_mul, Nat.add_zero], ⟨fun _ => 0, replicate_eq_tab _ _, fun _ _ => rfl⟩⟩
    fun y _ s hs => writeLine_ok hfit hs
  have hsame : ¬getComponentScaleX compID format < getComponentScaleX compID format := Nat.lt_irrefl _
  unfold writePlane
  dsimp only
  rw [check_ok _ (fun h => h rfl), ok_bind, if_neg hpresent]
  simp only [if_neg hsame, Nat.sub_self, Nat.shiftLeft_zero]
  rw [hloop, ok_bind, loop]
  dsimp only [pure, Except.pure]
  rw [ok_bind, hs.fd]

end Writing

/-! ## Reading back -/

section ReadBack

variable {is16bit : Bool} {dst src stride444 stride_src width444 height444 fileBitDepth : ℕ} {mem mem₀ : Memory}
  {compID : ComponentID} {format : ChromaFormat}

/-- The plane of a picture that is written and read back. -/
structure Writable (is16bit : Bool) (stride444 width444 height444 : ℕ) (compID : ComponentID) (format : ChromaFormat)
    (fileBitDepth stride_src src : ℕ) (mem : Memory) : Prop where
  present : Present compID format format
  width : 0 < width444 >>> getComponentScaleX compID format
  width_lt : width444 < 2 ^ 32
  stride : width444 >>> getComponentScaleX compID format ≤ stride444 >>> getComponentScaleX compID format
  height : 0 < height444 >>> getComponentScaleY compID format
  /-- `is16bit` is set for files with more than eight bits. -/
  depth : is16bit = false → fileBitDepth ≤ 8
  /-- Samples of the file that are a `Pel`. -/
  samples : ∀ k < height444 >>> getComponentScaleY compID format, ∀ x < width444 >>> getComponentScaleX compID format,
    0 ≤ mem (src + k * stride_src + x) ∧ mem (src + k * stride_src + x) < 2 ^ fileBitDepth ∧
      mem (src + k * stride_src + x) < 2 ^ 15

theorem byteCount_le (is16bit : Bool) (width444 cs : ℕ) (hcs : cs ≤ 1) :
    byteCount is16bit (width444 >>> cs) ≤ (width444 * (if is16bit then 2 else 1)) >>> cs := by
  rw [byteCount]
  rcases Nat.le_one_iff_eq_zero_or_eq_one.mp hcs with rfl | rfl <;> cases is16bit <;>
    simp [Nat.shiftRight_eq_div_pow] <;> omega

theorem readBack (h : Writable is16bit stride444 width444 height444 compID format fileBitDepth stride_src src mem)
    (fd : List ℕ) :
    ∃ bytes, writePlane width444 height444 fd src mem is16bit stride_src width444 height444 compID format format
        fileBitDepth = .ok (fd ++ bytes) ∧
      ∀ rest, ∃ mem', readPlane dst mem₀ (bytes ++ rest) is16bit stride444 width444 height444 0 0 compID format format
          fileBitDepth = .ok (mem', rest) ∧
        ∀ k < height444 >>> getComponentScaleY compID format, ∀ x < width444 >>> getComponentScaleX compID format,
          mem' (dst + k * (stride444 >>> getComponentScaleX compID format) + x) = mem (src + k * stride_src + x) := by
  have hfit := byteCount_le is16bit width444 _ (scale_le_one compID format)
  refine ⟨_, writePlane_ok h.present fd hfit, fun rest => ?_⟩
  obtain ⟨g, hg⟩ : ∃ g, geometry is16bit stride444 width444 height444 0 0 compID format format = g := ⟨_, rfl⟩
  have hrows : ∀ r, (outRows is16bit (width444 >>> getComponentScaleX compID format) g.stride_file mem src stride_src r).length
      = g.stride_file := fun r => length_tab _ _
  have htotal : ∀ n, ((List.range n).flatMap
      (outRows is16bit (width444 >>> getComponentScaleX compID format) g.stride_file mem src stride_src)).length
        = n * g.stride_file := by
    intro n
    rw [length_flatMap]
    simp only [hrows]
    simp
  have hlayout : Layout g height444 ((List.range (linesBefore g.csy_file height444)).flatMap
      (outRows is16bit (width444 >>> getComponentScaleX compID format) g.stride_file mem src stride_src) ++ rest) := by
    have hstride := h.stride
    have hlt : width444 >>> getComponentScaleX compID format ≤ width444 := Nat.shiftRight_le _ _
    have hwidth_lt := h.width_lt
    subst hg
    refine ⟨h.width, by dsimp only [geometry]; omega, Nat.le_add_right _ _, ?_, h.height, Nat.le_add_right _ _,
      Nat.shiftRight_eq_div_pow _ _, ?_⟩
    · dsimp only [geometry]
      rwa [Nat.zero_shiftRight, Nat.add_zero]
    · rw [length_append, htotal]
      exact Nat.le_add_right _ _
  have hin : Inside g is16bit := (inside_iff hg hlayout.width).mpr fun hno => by
    subst hg
    exact absurd hno.1 (Nat.lt_irrefl _)
  obtain ⟨mem', hread, hmem'⟩ := readPlane_ok dst mem₀ fileBitDepth hg h.present hlayout hin
  have hscale : g.csy_dest = getComponentScaleY compID format ∧ g.csy_file = getComponentScaleY compID format ∧
      g.csx_dest = g.csx_file ∧ g.width_dest = width444 >>> getComponentScaleX compID format ∧
      g.height_dest = height444 >>> getComponentScaleY compID format ∧
      g.stride_dest = stride444 >>> getComponentScaleX compID format ∧
      g.stride_file = (width444 * (if is16bit then 2 else 1)) >>> getComponentScaleX compID format := by
    subst hg
    exact ⟨rfl, rfl, rfl, rfl, rfl, rfl, rfl⟩
  obtain ⟨hcsy_dest, hcsy_file, hcsx, hwidth, hheight, hstride, hfile⟩ := hscale
  refine ⟨mem', ?_, fun k hk x hx => ?_⟩
  · rw [← hfile, ← hcsy_file, hread, drop_append_of_le_length (htotal _).ge, ← htotal, drop_length,
      nil_append]
  · have hlines : k < linesBefore g.csy_file height444 :=
      Nat.lt_of_lt_of_le (hcsy_file ▸ hk) (shiftRight_le_linesBefore _ _)
    obtain ⟨hlow, hhigh, hpel⟩ := h.samples k hk x hx
    rw [← hheight] at hk
    rw [← hwidth] at hx
    have hfull := hlayout.full_height
    have hbyte : is16bit = false → mem (src + k * stride_src + x) < 2 ^ 8 := fun hno =>
      lt_of_lt_of_le hhigh (pow_le_pow_right₀ (by decide) (h.depth hno))
    rw [← hstride, hmem' k (by omega) x (Nat.lt_of_lt_of_le hx hlayout.full_width), min_eq_left (by omega), stored,
      if_pos hx, source, hcsy_dest, ← hcsy_file, Nat.mul_div_cancel _ (Nat.two_pow_pos _), rowBytes_flatMap hrows rest hlines,
      fileX, if_neg (by omega), hcsx, Nat.sub_self, Nat.shiftRight_zero]
    exact fileSample_outRow (hfile ▸ hfit) (hwidth ▸ hx) hlow hpel hbyte

/-! ## Planes -/

/-- When a plane is extended by its own samples, and that a plane which was written is read back. -/
theorem extended_iff_and_readBack (is16bit : Bool)
    (dst stride444 width444 height444 pad_x444 pad_y444 fileBitDepth : ℕ) (mem : Memory) (fd : List ℕ)
    (compID : ComponentID) (destFormat fileFormat : ChromaFormat) :
    (∀ g : Geometry,
      geometry is16bit stride444 width444 height444 pad_x444 pad_y444 compID destFormat fileFormat = g →
      Present compID destFormat fileFormat → Layout g height444 fd →
      ((∃ mem' rest, readPlane dst mem fd is16bit stride444 width444 height444 pad_x444 pad_y444 compID destFormat
          fileFormat fileBitDepth = .ok (mem', rest) ∧ Extended g is16bit dst fd mem') ↔
        ¬(g.csx_dest < g.csx_file ∧ width444 % 2 = 1) ∧ SameEnds g is16bit fd)) ∧
    ∀ (src stride_src : ℕ) (mem₀ : Memory),
      Writable is16bit stride444 width444 height444 compID destFormat fileBitDepth stride_src src mem →
      ∃ bytes, writePlane width444 height444 fd src mem is16bit stride_src width444 height444 compID destFormat
          destFormat fileBitDepth = .ok (fd ++ bytes) ∧
        ∀ rest, ∃ mem', readPlane dst mem₀ (bytes ++ rest) is16bit stride444 width444 height444 0 0 compID destFormat
            destFormat fileBitDepth = .ok (mem', rest) ∧
          ∀ k < height444 >>> getComponentScaleY compID destFormat,
            ∀ x < width444 >>> getComponentScaleX compID destFormat,
              mem' (dst + k * (stride444 >>> getComponentScaleX compID destFormat) + x) =
                mem (src + k * stride_src + x) := by
  constructor
  · intro g hg hpresent hlayout
    have hheight : 0 < height444 := by
      have hpos := hlayout.height
      rw [hlayout.height_eq] at hpos
      exact Nat.pos_of_ne_zero fun h0 => by rw [h0, Nat.zero_div] at hpos; exact Nat.lt_irrefl 0 hpos
    rw [← inside_iff hg hlayout.width]
    constructor
    · rintro ⟨mem', rest, hread, hext⟩
      have hin := inside_of_readPlane hg hpresent hheight hread
      obtain ⟨mem₁, hread₁, hmem₁⟩ := readPlane_ok dst mem fileBitDepth hg hpresent hlayout hin
      rw [hread] at hread₁
      cases hread₁
      exact ⟨hin, (extended_iff hlayout hmem₁).mp hext⟩
    · rintro ⟨hin, hends⟩
      obtain ⟨mem', hread, hmem'⟩ := readPlane_ok dst mem fileBitDepth hg hpresent hlayout hin
      exact ⟨mem', _, hread, (extended_iff hlayout hmem').mpr hends⟩
  · intro src stride_src mem₀ h
    exact readBack h fd

/-- Two lines of one sample in eight bits, with one sample added on the right. -/
def twoLines : Geometry := geometry false 2 1 2 1 0 .Y .chroma420 .chroma420

theorem twoLines_layout : Layout twoLines 2 [1, 2] :=
  ⟨by decide, by decide, by decide, by decide, by decide, by decide, by decide, by decide⟩

theorem writable_seven : Writable true 4 4 2 .Cb .chroma420 10 2 0 fun _ => 7 where
  present := by decide
  width := by decide
  width_lt := by decide
  stride := by decide
  height := by decide
  depth := Bool.noConfusion
  samples _ _ _ _ := (by decide : (0 : ℤ) ≤ 7 ∧ (7 : ℤ) < 2 ^ 10 ∧ (7 : ℤ) < 2 ^ 15)

theorem extended_iff_and_readBack_small :
    Layout twoLines 2 [1, 2] ∧
    ((∃ mem' rest, readPlane 0 (fun _ => 0) [1, 2] false 2 1 2 1 0 .Y .chroma420 .chroma420 8 = .ok (mem', rest) ∧
        Extended twoLines false 0 [1, 2] mem') ↔
      ¬(twoLines.csx_dest < twoLines.csx_file ∧ 1 % 2 = 1) ∧ SameEnds twoLines false [1, 2]) ∧
    ∃ bytes, writePlane 4 2 [] 0 (fun _ => 7) true 2 4 2 .Cb .chroma420 .chroma420 10 = .ok ([] ++ bytes) ∧
      ∀ rest, ∃ mem', readPlane 0 (fun _ => 0) (bytes ++ rest) true 4 4 2 0 0 .Cb .chroma420 .chroma420 10
          = .ok (mem', rest) ∧
        ∀ k < 2 >>> getComponentScaleY .Cb .chroma420, ∀ x < 4 >>> getComponentScaleX .Cb .chroma420,
          mem' (0 + k * (4 >>> getComponentScaleX .Cb .chroma420) + x) = 7 :=
  ⟨twoLines_layout,
    (extended_iff_and_readBack false 0 2 1 2 1 0 8 (fun _ => 0) [1, 2] .Y .chroma420 .chroma420).1 twoLines rfl
      (by decide) twoLines_layout,
    (extended_iff_and_readBack true 0 4 4 2 0 0 10 (fun _ => 7) [] .Cb .chroma420 .chroma420).2 0 2 (fun _ => 0)
      writable_seven⟩

/-- The second line ends in 2 and is extended by the 1 of the first line. -/
theorem readPlane_first_end : ∃ mem' rest,
    readPlane 0 (fun _ => 0) [1, 2] false 2 1 2 1 0 .Y .chroma420 .chroma420 8 = .ok (mem', rest) ∧
      ¬Extended twoLines false 0 [1, 2] mem' := by
  refine ⟨_, _, rfl, fun hext => ?_⟩
  have hrow := hext.rows 1 (by decide) 1 (by decide)
  revert hrow
  decide

end ReadBack

end ECM.Utilities.Planes
