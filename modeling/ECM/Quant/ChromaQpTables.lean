import ECM.DecoderLib.HLSyntaxReader

/-! # Chroma QP mapping tables are total and monotone

A table grows by one entry at a time, downwards from its first pivot point and upwards from
there, and never gets out of order. The CHECKs leave out the last pivot point, and what they
leave out is what the table needs. -/

namespace ECM.Quant
open CommonLib CommonLib.QpMap CommonLib.WeightPrediction Lib.Loop Function
open DecoderLib.VLCReader ECM.Hls

variable {off bot top v w : ℤ} {m : QpMap} {p : QpTableParams}

/-- The map has an entry from `bot` to `top` and nowhere else; the entries are chroma QPs
and never fall. -/
structure Filled (off bot top : ℤ) (m : QpMap) : Prop where
  keys : ∀ k, (m k).isSome = true ↔ bot ≤ k ∧ k ≤ top
  range : ∀ k v, m k = some v → -off ≤ v ∧ v ≤ MAX_QP
  mono : ∀ k l v w, m k = some v → m l = some w → k ≤ l → v ≤ w

theorem Filled.key (h : Filled off bot top m) {k : ℤ} (hk : m k = some v) : bot ≤ k ∧ k ≤ top :=
  (h.keys k).mp (by rw [hk]; rfl)

theorem filled_single (hlow : -off ≤ v) (hhigh : v ≤ MAX_QP) (k : ℤ) :
    Filled off k k (update (fun _ => none) k (some v)) where
  keys i := by
    by_cases hi : i = k
    · simp [hi]
    · rw [update_of_ne hi]
      simp only [Option.isSome_none, Bool.false_eq_true, false_iff]
      omega
  range i u hu := by
    by_cases hi : i = k
    · rw [hi, update_self] at hu
      cases hu
      exact ⟨hlow, hhigh⟩
    · rw [update_of_ne hi] at hu
      cases hu
  mono i l u u' hu hu' _ := by
    by_cases hi : i = k
    · by_cases hl : l = k
      · rw [hi, update_self] at hu
        rw [hl, update_self] at hu'
        cases hu
        cases hu'
        exact le_refl _
      · rw [update_of_ne hl] at hu'
        cases hu'
    · rw [update_of_ne hi] at hu
      cases hu

/-- One more entry above the others. -/
theorem Filled.above (h : Filled off bot top m) (htop : m top = some v) (hvw : v ≤ w)
    (hw : w ≤ MAX_QP) : Filled off bot (top + 1) (update m (top + 1) (some w)) where
  keys k := by
    have hbot := (h.key htop).1
    by_cases hk : k = top + 1
    · simp only [hk, update_self, Option.isSome_some, true_iff]
      omega
    · rw [update_of_ne hk, h.keys]
      omega
  range k u hu := by
    by_cases hk : k = top + 1
    · rw [hk, update_self] at hu
      cases hu
      exact ⟨(h.range top v htop).1.trans hvw, hw⟩
    · rw [update_of_ne hk] at hu
      exact h.range k u hu
  mono k l u u' hu hu' hkl := by
    by_cases hl : l = top + 1
    · rw [hl, update_self] at hu'
      cases hu'
      by_cases hk : k = top + 1
      · rw [hk, update_self] at hu
        cases hu
        exact le_refl _
      · rw [update_of_ne hk] at hu
        exact (h.mono k top u v hu htop (h.key hu).2).trans hvw
    · rw [update_of_ne hl] at hu'
      have hle := (h.key hu').2
      rw [update_of_ne (by omega)] at hu
      exact h.mono k l u u' hu hu' hkl

/-- One more entry below the others. -/
theorem Filled.below (h : Filled off bot top m) (hbot : m bot = some v) (hwv : w ≤ v)
    (hw : -off ≤ w) : Filled off (bot - 1) top (update m (bot - 1) (some w)) where
  keys k := by
    have htop := (h.key hbot).2
    by_cases hk : k = bot - 1
    · simp only [hk, update_self, Option.isSome_some, true_iff]
      omega
    · rw [update_of_ne hk, h.keys]
      omega
  range k u hu := by
    by_cases hk : k = bot - 1
    · rw [hk, update_self] at hu
      cases hu
      exact ⟨hw, hwv.trans (h.range bot v hbot).2⟩
    · rw [update_of_ne hk] at hu
      exact h.range k u hu
  mono k l u u' hu hu' hkl := by
    by_cases hk : k = bot - 1
    · rw [hk, update_self] at hu
      cases hu
      by_cases hl : l = bot - 1
      · rw [hl, update_self] at hu'
        cases hu'
        exact le_refl _
      · rw [update_of_ne hl] at hu'
        exact hwv.trans (h.mono bot l v u' hbot hu' (h.key hu').1)
    · rw [update_of_ne hk] at hu
      have hle := (h.key hu).1
      rw [update_of_ne (by omega)] at hu'
      exact h.mono k l u u' hu hu' hkl

/-- `m[k] = g(m[i])` for an `i` with an entry. -/
theorem assign_of_some {i : ℤ} (hi : m i = some v) (k : ℤ) (g : ℤ → ℤ) :
    m.assign k i g = update m k (some (g v)) := by
  rw [assign, touch, hi]
  rfl

/-! ## The three phases -/

/-- Below the first pivot point every QP is mapped to itself. -/
theorem fillDown_filled (h : Filled off bot bot m) (hbot : m bot = some bot) (hlow : -off ≤ bot) :
    Filled off (-off) bot (fillDown off bot m) ∧ fillDown off bot m bot = some bot := by
  have hhigh := (h.range bot bot hbot).2
  have hrun := foldl_range (n := (bot + off).toNat) (s := m)
    (f := fun (m : QpMap) (r : ℕ) => m.assign (bot - 1 - r) (bot - r) fun v => Clip3 (-off) MAX_QP (v - 1))
    (P := fun r m => Filled off (bot - r) bot m ∧ m (bot - r) = some (bot - r) ∧ m bot = some bot)
    (by simpa using ⟨h, hbot⟩) ?_
  · obtain ⟨hfilled, -, hself⟩ := hrun
    have hn : ((bot + off).toNat : ℤ) = bot + off := Int.toNat_of_nonneg (by omega)
    rw [hn, show bot - (bot + off) = -off by ring] at hfilled
    exact ⟨hfilled, hself⟩
  · intro r hr t ⟨ht, hlast, hself⟩
    have hclip : Clip3 (-off) MAX_QP (bot - r - 1) = bot - 1 - r := by
      rw [Clip3, max_eq_right (by omega), min_eq_left (by omega)]
      ring
    have hkey : bot - ((r + 1 : ℕ) : ℤ) = bot - 1 - r := by push_cast; ring
    rw [assign_of_some hlast, hclip, hkey]
    have hbelow := ht.below (w := bot - 1 - r) hlast (by omega) (by omega)
    rw [show bot - (r : ℤ) - 1 = bot - 1 - r by ring] at hbelow
    exact ⟨hbelow, update_self .., by rw [update_of_ne (by omega), hself]⟩

/-- The value `r` steps after a pivot point. -/
theorem segment_value {d e : ℤ} {r : ℕ} (hd : 0 < d) (he : 0 ≤ e) (hr : (r : ℤ) ≤ d) :
    (0 : ℤ) ≤ (e * r + d >>> (1 : ℕ)).tdiv d ∧ (e * r + d >>> (1 : ℕ)).tdiv d ≤ e ∧
      (e * r + d >>> (1 : ℕ)).tdiv d ≤ (e * (r + 1 : ℤ) + d >>> (1 : ℕ)).tdiv d := by
  have hhalf : d >>> (1 : ℕ) = d / 2 := Int.shiftRight_eq_div_pow d 1
  have hpos : 0 ≤ e * (r : ℤ) := mul_nonneg he (Int.natCast_nonneg r)
  have hle : e * (r : ℤ) ≤ e * d := mul_le_mul_of_nonneg_left hr he
  have hnext : 0 ≤ e * ((r : ℤ) + 1) := mul_nonneg he (by omega)
  have hd2 : 0 ≤ d / 2 := by omega
  rw [hhalf, Int.tdiv_eq_ediv_of_nonneg (add_nonneg hpos hd2),
    Int.tdiv_eq_ediv_of_nonneg (add_nonneg hnext hd2)]
  refine ⟨Int.ediv_nonneg (by omega) (by omega), ?_, Int.ediv_le_ediv hd (by nlinarith)⟩
  rw [← Int.lt_add_one_iff, Int.ediv_lt_iff_lt_mul hd]
  nlinarith [hle, Int.ediv_mul_le d (show (2 : ℤ) ≠ 0 by decide)]

theorem segment_value_ends {d : ℤ} (hd : 0 < d) (e : ℤ) (he : 0 ≤ e) :
    (e * (0 : ℕ) + d >>> (1 : ℕ)).tdiv d = 0 ∧ (e * d + d >>> (1 : ℕ)).tdiv d = e := by
  have hhalf : d >>> (1 : ℕ) = d / 2 := Int.shiftRight_eq_div_pow d 1
  have hmul : 0 ≤ e * d := mul_nonneg he (by omega)
  rw [hhalf, Int.tdiv_eq_ediv_of_nonneg (by simp; omega), Int.tdiv_eq_ediv_of_nonneg (by omega)]
  constructor
  · simpa using Int.ediv_eq_zero_of_lt (by omega) (by omega)
  · rw [Int.mul_add_ediv_right _ _ (by omega), Int.ediv_eq_zero_of_lt (by omega) (by omega), add_zero]

/-- A segment reaches the next pivot point and leaves the entries before it alone. -/
theorem fillSegment_filled {d e : ℤ} (h : Filled off bot top m) (htop : m top = some v) (hd : 0 < d)
    (he : 0 ≤ e) (hhigh : v + e ≤ MAX_QP) :
    Filled off bot (top + d) (fillSegment top d e m) ∧
      fillSegment top d e m (top + d) = some (v + e) ∧ ∀ k ≤ top, fillSegment top d e m k = m k := by
  have hrun := foldl_range (n := d.toNat) (s := m)
    (f := fun (m : QpMap) (r : ℕ) => m.assign (top + (r + 1)) top fun v => v + (e * (r + 1 : ℤ) + d >>> (1 : ℕ)).tdiv d)
    (P := fun r t => Filled off bot (top + r) t ∧
      t (top + r) = some (v + (e * r + d >>> (1 : ℕ)).tdiv d) ∧ ∀ k ≤ top, t k = m k)
    ⟨by simpa using h, ?_, fun k _ => rfl⟩ ?_
  · rw [Int.toNat_of_nonneg hd.le, (segment_value_ends hd e he).2] at hrun
    exact hrun
  · rw [(segment_value_ends hd e he).1]
    simpa using htop
  · intro r hr t ⟨ht, hlast, hframe⟩
    have hrd : ((r + 1 : ℕ) : ℤ) ≤ d := by omega
    obtain ⟨-, -, hstep⟩ := segment_value hd he (show (r : ℤ) ≤ d by omega)
    obtain ⟨-, hle, -⟩ := segment_value hd he hrd
    push_cast at hle ⊢
    rw [assign_of_some ((hframe top (le_refl top)).trans htop)]
    have habove := ht.above (w := v + (e * (r + 1 : ℤ) + d >>> (1 : ℕ)).tdiv d) hlast (by omega) (by omega)
    rw [add_assoc] at habove
    exact ⟨habove, update_self .., fun k hk => by
      rw [update_of_ne (by omega), hframe k hk]⟩

/-- Above the last pivot point the entries rise to the maximum. -/
theorem fillUp_filled (h : Filled off bot top m) (htop : m top = some v) (hhigh : top ≤ MAX_QP) :
    Filled off bot MAX_QP (fillUp off top m) ∧ ∀ k ≤ top, fillUp off top m k = m k := by
  have hrun := foldl_range (n := (MAX_QP - top).toNat) (s := m)
    (f := fun (m : QpMap) (r : ℕ) => m.assign (top + (r + 1)) (top + r) fun v => Clip3 (-off) MAX_QP (v + 1))
    (P := fun r t => Filled off bot (top + r) t ∧ (∃ u, t (top + r) = some u) ∧ ∀ k ≤ top, t k = m k)
    ⟨by simpa using h, ⟨v, by simpa using htop⟩, fun k _ => rfl⟩ ?_
  · obtain ⟨hfilled, -, hframe⟩ := hrun
    rw [Int.toNat_of_nonneg (by omega), add_sub_cancel] at hfilled
    exact ⟨hfilled, hframe⟩
  · intro r hr t ⟨ht, ⟨u, hu⟩, hframe⟩
    obtain ⟨hlow, hup⟩ := ht.range _ _ hu
    push_cast
    rw [assign_of_some hu]
    have hclip : u ≤ Clip3 (-off) MAX_QP (u + 1) := le_min (le_max_of_le_right (by omega)) hup
    have habove := ht.above (w := Clip3 (-off) MAX_QP (u + 1)) hu hclip (min_le_right _ _)
    rw [add_assoc] at habove
    exact ⟨habove, ⟨_, update_self ..⟩, fun k hk => by
      rw [update_of_ne (by omega), hframe k hk]⟩

/-! ## A whole table -/

/-- The pivot points of a table that comes out right: they go on, and do not go down, and
the last one is a chroma QP as well. -/
structure PivotsInRange (p : QpTableParams) : Prop where
  stepsIn : ∀ j ≤ p.numPtsInCQPTableMinus1, 0 ≤ p.getDeltaQpInValMinus1 j
  stepsOut : ∀ j ≤ p.numPtsInCQPTableMinus1, 0 ≤ p.getDeltaQpOutVal j
  lastIn : p.qpInVal (p.numPtsInCQPTableMinus1 + 1) ≤ MAX_QP
  lastOut : p.qpOutVal (p.numPtsInCQPTableMinus1 + 1) ≤ MAX_QP

/-- There is an entry for every QP and for nothing else, every entry is a QP, the pivot
points are met, and the entries do not fall. -/
structure TableValid (off : ℤ) (p : QpTableParams) (m : QpMap) : Prop where
  total : ∀ k, -off ≤ k → k ≤ MAX_QP → (m k).isSome = true
  inside : ∀ k v, m k = some v → -off ≤ k ∧ k ≤ MAX_QP
  range : ∀ k v, m k = some v → -off ≤ v ∧ v ≤ MAX_QP
  pivots : ∀ j ≤ p.numPtsInCQPTableMinus1 + 1, m (p.qpInVal j) = some (p.qpOutVal j)
  mono : ∀ k l v w, m k = some v → m l = some w → k ≤ l → v ≤ w

theorem qpOutVal_mono {n : ℕ} (h : ∀ j < n, 0 ≤ p.getDeltaQpOutVal j) {i j : ℕ} (hij : i ≤ j)
    (hj : j ≤ n) : p.qpOutVal i ≤ p.qpOutVal j := by
  induction j, hij using Nat.le_induction with
  | base => exact le_refl _
  | succ j _ ih =>
    have hstep := h j hj
    have hle := ih (Nat.le_of_succ_le hj)
    rw [QpTableParams.qpOutVal]
    omega

theorem qpInVal_mono {n : ℕ} (h : ∀ j < n, 0 ≤ p.getDeltaQpInValMinus1 j) {i j : ℕ} (hij : i ≤ j)
    (hj : j ≤ n) : p.qpInVal i ≤ p.qpInVal j := by
  induction j, hij using Nat.le_induction with
  | base => exact le_refl _
  | succ j _ ih =>
    have hstep := h j hj
    have hle := ih (Nat.le_of_succ_le hj)
    rw [QpTableParams.qpInVal]
    omega

/-- The segments one after the other meet every pivot point. -/
theorem fillSegments_filled {n : ℕ} (h : Filled off bot (p.qpInVal 0) m)
    (hstart : m (p.qpInVal 0) = some (p.qpOutVal 0)) (hin : ∀ j < n, 0 ≤ p.getDeltaQpInValMinus1 j)
    (hout : ∀ j < n, 0 ≤ p.getDeltaQpOutVal j) (hhigh : p.qpOutVal n ≤ MAX_QP) :
    Filled off bot (p.qpInVal n) (fillSegments p n m) ∧
      ∀ j ≤ n, fillSegments p n m (p.qpInVal j) = some (p.qpOutVal j) := by
  refine foldl_range (P := fun n t => Filled off bot (p.qpInVal n) t ∧
    ∀ j ≤ n, t (p.qpInVal j) = some (p.qpOutVal j)) ⟨h, ?_⟩ ?_
  · intro j hj
    rw [Nat.le_zero.mp hj]
    exact hstart
  · intro j hj t ⟨ht, hpivots⟩
    have hd : 0 < p.getDeltaQpInValMinus1 j + 1 := by have := hin j hj; omega
    have he : p.qpOutVal (j + 1) - p.qpOutVal j = p.getDeltaQpOutVal j := by
      rw [QpTableParams.qpOutVal]
      ring
    have hv : p.qpOutVal j + (p.qpOutVal (j + 1) - p.qpOutVal j) = p.qpOutVal (j + 1) := by ring
    have hnext : p.qpInVal j + (p.getDeltaQpInValMinus1 j + 1) = p.qpInVal (j + 1) := by
      rw [QpTableParams.qpInVal]
      ring
    have hle : p.qpOutVal (j + 1) ≤ p.qpOutVal n := qpOutVal_mono hout hj (le_refl n)
    obtain ⟨hfilled, hlast, hframe⟩ := fillSegment_filled ht (hpivots j (le_refl j)) hd
      (he ▸ hout j hj) (by omega)
    rw [hnext] at hfilled hlast
    rw [hv] at hlast
    refine ⟨hfilled, fun i hi => ?_⟩
    rcases Nat.le_succ_iff.mp hi with hi | rfl
    · have hmono := qpInVal_mono (fun k hk => hin k (hk.trans hj)) hi (le_refl j)
      rw [hframe _ hmono]
      exact hpivots i hi
    · exact hlast

/-- What the CHECKs say of a table that is derived, and the table. -/
theorem derivedChromaQPMappingTable_ok (h : derivedChromaQPMappingTable off p = .ok m) :
    (∀ j ≤ p.numPtsInCQPTableMinus1, (-off ≤ p.qpInVal j ∧ p.qpInVal j ≤ MAX_QP) ∧
      -off ≤ p.qpOutVal j ∧ p.qpOutVal j ≤ MAX_QP) ∧
      m = fillUp off (p.qpInVal (p.numPtsInCQPTableMinus1 + 1))
        (fillSegments p (p.numPtsInCQPTableMinus1 + 1) (fillDown off (p.qpInVal 0)
          (update (fun _ => none) (p.qpInVal 0) (some (p.qpOutVal 0))))) := by
  obtain ⟨_, hchecks, h⟩ := bind_eq_ok h
  cases h
  refine ⟨fun j hj => ?_, rfl⟩
  have hall := loop_ok (P := fun n _ => ∀ j < n, (-off ≤ p.qpInVal j ∧ p.qpInVal j ≤ MAX_QP) ∧
    -off ≤ p.qpOutVal j ∧ p.qpOutVal j ≤ MAX_QP) (fun j hj => absurd hj (Nat.not_lt_zero j)) ?_ hchecks
  · exact hall j (Nat.lt_succ_of_le hj)
  · intro i _ _ _ hprev hround j hj
    obtain ⟨_, hin, hout⟩ := bind_eq_ok hround
    have hin := check_eq_ok hin
    have hout := check_eq_ok hout
    rcases Nat.lt_succ_iff_lt_or_eq.mp hj with hj | rfl
    · exact hprev j hj
    · omega

/-- A table is derived when the CHECKs pass. -/
theorem derivedChromaQPMappingTable_total (h : ∀ j ≤ p.numPtsInCQPTableMinus1,
    (-off ≤ p.qpInVal j ∧ p.qpInVal j ≤ MAX_QP) ∧ -off ≤ p.qpOutVal j ∧ p.qpOutVal j ≤ MAX_QP) :
    ∃ m, derivedChromaQPMappingTable off p = .ok m := by
  obtain ⟨_, hchecks, -⟩ := loop_total (n := p.numPtsInCQPTableMinus1 + 1) (s := ()) (P := fun _ _ => True)
    (b := fun j _ => do
      check (p.qpInVal j < -off ∨ p.qpInVal j > MAX_QP) "qpInVal out of range"
      check (p.qpOutVal j < -off ∨ p.qpOutVal j > MAX_QP) "qpOutVal out of range") trivial
    fun j hj _ _ => by
      obtain ⟨hin, hout⟩ := h j (Nat.le_of_lt_succ hj)
      exact ⟨(), by rw [check_ok _ (by omega), ok_bind, check_ok _ (by omega)], trivial⟩
  rw [derivedChromaQPMappingTable, hchecks, ok_bind]
  exact ⟨_, rfl⟩

theorem derivedChromaQPMappingTables_single {same : Bool}
    (h : derivedChromaQPMappingTable off p = .ok m) :
    derivedChromaQPMappingTables off ⟨same, [p]⟩ = .ok [m] := by
  rw [derivedChromaQPMappingTables, List.mapM_cons, h, ok_bind, List.mapM_nil]
  rfl

theorem tableValid_of_inRange (h : derivedChromaQPMappingTable off p = .ok m)
    (hp : PivotsInRange p) : TableValid off p m := by
  obtain ⟨hchecks, rfl⟩ := derivedChromaQPMappingTable_ok h
  obtain ⟨⟨hlow, hhigh⟩, -⟩ := hchecks 0 (Nat.zero_le _)
  obtain ⟨hdown, hself⟩ := fillDown_filled (filled_single hlow hhigh (p.qpInVal 0))
    (update_self ..) hlow
  obtain ⟨hseg, hpivots⟩ := fillSegments_filled hdown hself
    (fun j hj => hp.stepsIn j (Nat.le_of_lt_succ hj)) (fun j hj => hp.stepsOut j (Nat.le_of_lt_succ hj))
    hp.lastOut
  obtain ⟨hup, hframe⟩ := fillUp_filled hseg (hpivots _ (le_refl _)) hp.lastIn
  refine ⟨fun k hk hk' => (hup.keys k).mpr ⟨hk, hk'⟩, fun k v hv => hup.key hv, hup.range,
    fun j hj => ?_, hup.mono⟩
  have hmono := qpInVal_mono (n := p.numPtsInCQPTableMinus1 + 1)
    (fun i hi => hp.stepsIn i (Nat.le_of_lt_succ hi)) hj (le_refl _)
  exact (hframe _ hmono).trans (hpivots j hj)

/-- A table that comes out right has its last pivot point in range; if the steps go on,
they do not go down. -/
theorem inRange_of_tableValid (h : TableValid off p m)
    (hin : ∀ j ≤ p.numPtsInCQPTableMinus1, 0 ≤ p.getDeltaQpInValMinus1 j) : PivotsInRange p := by
  have hlast := h.pivots _ (le_refl _)
  refine ⟨hin, fun j hj => ?_, (h.inside _ _ hlast).2, (h.range _ _ hlast).2⟩
  have hstep := hin j hj
  have hle := h.mono _ _ _ _ (h.pivots j (Nat.le_succ_of_le hj)) (h.pivots (j + 1) (Nat.succ_le_succ hj))
    (by rw [QpTableParams.qpInVal]; omega)
  rw [QpTableParams.qpOutVal] at hle
  omega

/-- A list is mapped only if each of its elements is. -/
theorem mapM_forall₂ {α β : Type} {f : α → Checked β} : ∀ {xs : List α} {ys : List β},
    xs.mapM f = .ok ys → List.Forall₂ (fun x y => f x = .ok y) xs ys
  | [], ys, h => by
    cases h
    exact List.Forall₂.nil
  | x :: xs, ys, h => by
    rw [List.mapM_cons] at h
    obtain ⟨y, hy, h⟩ := bind_eq_ok h
    obtain ⟨rest, hrest, h⟩ := bind_eq_ok h
    cases h
    exact List.Forall₂.cons hy (mapM_forall₂ hrest)

/-- Each of the derived tables is total, stays inside, meets its pivot points and never
falls if its pivot points are in range. They have to be, for steps that do not go back. -/
theorem derivedTables_valid_iff {params : ChromaQpMappingTableParams} {tables : List QpMap}
    (h : derivedChromaQPMappingTables off params = .ok tables) :
    List.Forall₂ (fun p m => (PivotsInRange p → TableValid off p m) ∧
      ((∀ j ≤ p.numPtsInCQPTableMinus1, 0 ≤ p.getDeltaQpInValMinus1 j) →
        (TableValid off p m ↔ PivotsInRange p))) params.tables tables := by
  refine (mapM_forall₂ h).imp fun p m hm => ⟨tableValid_of_inRange hm, fun hin => ?_⟩
  exact ⟨fun hvalid => inRange_of_tableValid hvalid hin, tableValid_of_inRange hm⟩

/-- A table with one step by one, as it is read. -/
theorem derivedTables_valid_step : ∃ params s' tables,
    parseChromaQpTables false 0 (.ofFifo [0xf4]) = .ok (params, s') ∧
      derivedChromaQPMappingTables 0 params = .ok tables ∧
      List.Forall₂ (TableValid 0) params.tables tables := by
  obtain ⟨p, hp⟩ : ∃ p : QpTableParams, p = ⟨0, 0, [0], [1]⟩ := ⟨_, rfl⟩
  obtain ⟨⟨params, s'⟩, hs', hparams⟩ := exists_ok_of_any
    (x := parseChromaQpTables false 0 (.ofFifo [0xf4]))
    (p := fun r => decide (r.1 = ⟨true, [⟨0, 0, [0], [1]⟩]⟩)) (by decide +kernel)
  obtain rfl : params = ⟨true, [p]⟩ := hp ▸ of_decide_eq_true hparams
  obtain ⟨m, hm⟩ : ∃ m, derivedChromaQPMappingTable 0 p = .ok m :=
    derivedChromaQPMappingTable_total (by rw [hp]; decide)
  have hpivots : PivotsInRange p := by
    rw [hp]
    exact ⟨by decide, by decide, by decide, by decide⟩
  have htables : derivedChromaQPMappingTables 0 ⟨true, [p]⟩ = .ok [m] :=
    derivedChromaQPMappingTables_single hm
  refine ⟨_, s', [m], hs', htables, ?_⟩
  cases derivedTables_valid_iff htables with
  | cons hvalid _ => exact List.Forall₂.cons (hvalid.1 hpivots) List.Forall₂.nil

/-- A table whose last pivot point is at 89: the tables are derived, and the map has an
entry there. -/
theorem derivedTables_outside : ∃ params s' tables,
    parseChromaQpTables false 0 (.ofFifo [0xe0, 0xfc, 0x1f, 0x80]) = .ok (params, s') ∧
      derivedChromaQPMappingTables 0 params = .ok tables ∧
      ¬List.Forall₂ (TableValid 0) params.tables tables := by
  obtain ⟨p, hp⟩ : ∃ p : QpTableParams, p = ⟨0, 0, [62], [0]⟩ := ⟨_, rfl⟩
  obtain ⟨⟨params, s'⟩, hparse, hparams⟩ := exists_ok_of_any
    (x := parseChromaQpTables false 0 (.ofFifo [0xe0, 0xfc, 0x1f, 0x80]))
    (p := fun r => decide (r.1 = ⟨true, [⟨0, 0, [62], [0]⟩]⟩)) (by decide +kernel)
  obtain rfl : params = ⟨true, [p]⟩ := hp ▸ of_decide_eq_true hparams
  obtain ⟨m, hm⟩ : ∃ m, derivedChromaQPMappingTable 0 p = .ok m :=
    derivedChromaQPMappingTable_total (by rw [hp]; decide)
  refine ⟨_, s', [m], hparse, derivedChromaQPMappingTables_single hm, fun hvalid => ?_⟩
  cases hvalid with
  | cons hvalid _ =>
    have hlast := (inRange_of_tableValid hvalid (by rw [hp]; decide)).lastIn
    rw [hp] at hlast
    exact absurd hlast (by decide)

end ECM.Quant
