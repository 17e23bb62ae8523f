import ECM.BitstreamExtractorApp.Decode
import ECM.DecoderLib.ScalableNesting
import ECM.Hls.RoundTrip

/-! # The output layer sets of a scalable nesting message

The indices are coded as differences to the index before, and rebuilt from two differences each: that
gives the first two, and from the third on it never does. -/

namespace ECM.Sei.NestingOls
open CommonLib CommonLib.BitStream DecoderLib.VLCReader DecoderLib.SEIread
open ECM.BitstreamExtractorApp EncoderLib.VLCWriter ECM.Hls Lib.Bits Lib.Loop

variable {n : ℕ} {l d f g : ℕ → ℕ} {sei : SEIScalableNesting}

/-! ## What is read -/

/-- `sn_ols_idx_delta_minus1` of a list. -/
def olsDelta (l : ℕ → ℕ) : ℕ → ℕ
  | 0 => l 0
  | i + 1 => l (i + 1) - l i - 1

/-- What `m_snOlsIdx` becomes. -/
def olsIdx (d : ℕ → ℕ) : ℕ → ℕ
  | 0 => d 0
  | i + 1 => u32 (d (i + 1) + d i + 1)

/-- The bits of the list. -/
def olsBits (n : ℕ) (d : ℕ → ℕ) : List Bool := uvlc n ++ (List.range (n + 1)).flatMap fun i => uvlc (d i)

/-- The first `m` values are those of `d`. -/
def upTo (m : ℕ) (d f : ℕ → ℕ) : ℕ → ℕ := fun j => if j < m then d j else f j

theorem update_upTo (i : ℕ) : Function.update (upTo i d f) i (d i) = upTo (i + 1) d f := by
  funext j
  rw [upTo]
  by_cases hj : j = i
  · rw [hj, Function.update_self, if_pos (Nat.lt_succ_self i)]
  · rw [Function.update_of_ne hj, upTo]
    by_cases hlt : j < i
    · rw [if_pos hlt, if_pos (Nat.lt_succ_of_lt hlt)]
    · rw [if_neg hlt, if_neg (by omega)]

theorem olsIdx_upTo {i : ℕ} (hi : i ≤ n) : olsIdx (upTo (n + 1) d f) i = olsIdx d i := by
  cases i with
  | zero => rfl
  | succ i => rw [olsIdx, upTo, if_pos (Nat.lt_succ_of_le hi), upTo, if_pos (by omega), olsIdx]

theorem reads_olsDeltas (hn : n < MAX_NESTING_NUM_LAYER) (hd : ∀ i ≤ n, d i + 1 < 2 ^ 32)
    (hdeltas : sei.m_snOlsIdxDeltaMinus1 = tab MAX_NESTING_NUM_LAYER f) :
    Reads (parseOlsDeltas sei) (olsBits n d)
      { sei with
        m_snNumOlssMinus1 := n
        m_snOlsIdxDeltaMinus1 := tab MAX_NESTING_NUM_LAYER (upTo (n + 1) d f) } := by
  have hcount : n + 1 < 2 ^ 32 := Nat.lt_trans (Nat.succ_lt_succ hn) (by decide)
  refine reads_bind (reads_uvlc hcount) ?_
  have hloop := reads_loop (n := n + 1) (f := readOlsDelta)
    (fun i => { sei with
      m_snNumOlssMinus1 := n
      m_snOlsIdxDeltaMinus1 := tab MAX_NESTING_NUM_LAYER (upTo i d f) }) fun i hi => by
      refine Reads.silent (reads_uvlc (hd i (Nat.le_of_lt_succ hi))) ?_
      dsimp only
      rw [writeAt_tab (Nat.lt_of_lt_of_le hi hn), update_upTo, liftM_ok_bind]
      exact reads_pure _
  have hstart : upTo 0 d f = f := funext fun j => if_neg (Nat.not_lt_zero j)
  rw [hstart, ← hdeltas] at hloop
  exact hloop

/-- A list that is too long for the arrays is not read to its end. -/
theorem olsDeltas_short (hlength : sei.m_snOlsIdxDeltaMinus1.length = MAX_NESTING_NUM_LAYER) :
    Returns (loop readOlsDelta (n + 1) sei) fun _ => n < MAX_NESTING_NUM_LAYER := by
  have hloop := @returns_rounds _ (n + 1) readOlsDelta (fun i sei' =>
      sei'.m_snOlsIdxDeltaMinus1.length = MAX_NESTING_NUM_LAYER ∧ i ≤ MAX_NESTING_NUM_LAYER)
    sei ⟨hlength, Nat.zero_le _⟩ fun i _ sei' hP => by
      obtain ⟨hlen, -⟩ := hP
      refine returns_then fun symbol => returns_bind (returns_lift _) fun deltas hwrite => returns_pure ?_
      have hlt : i < MAX_NESTING_NUM_LAYER := by
        rw [writeAt] at hwrite
        split_ifs at hwrite with hi
        rwa [hlen] at hi
      refine ⟨?_, hlt⟩
      dsimp only
      rw [writeAt_eq_ok hwrite, List.length_set, hlen]
  intro s sei' s' hrun
  exact (hloop s sei' s' hrun).2

theorem deriveOlsIdx_eq (hn : sei.m_snNumOlssMinus1 < MAX_NESTING_NUM_LAYER)
    (hdeltas : sei.m_snOlsIdxDeltaMinus1 = tab MAX_NESTING_NUM_LAYER d)
    (hidx : sei.m_snOlsIdx = tab MAX_NESTING_NUM_LAYER g) :
    deriveOlsIdx sei = .ok { sei with
      m_snOlsIdx := tab MAX_NESTING_NUM_LAYER (upTo (sei.m_snNumOlssMinus1 + 1) (olsIdx d) g) } := by
  have hstart : upTo 0 (olsIdx d) g = g := funext fun j => if_neg (Nat.not_lt_zero j)
  obtain ⟨sei', hloop, hsei'⟩ := loop_total (n := sei.m_snNumOlssMinus1 + 1) (s := sei)
    (P := fun i sei' => sei' = { sei with m_snOlsIdx := tab MAX_NESTING_NUM_LAYER (upTo i (olsIdx d) g) })
    (b := deriveOneOlsIdx)
    (by rw [hstart, ← hidx]) fun i hi sei' hsei' => by
      subst hsei'
      have hin : i < MAX_NESTING_NUM_LAYER := Nat.lt_of_lt_of_le hi hn
      rw [deriveOneOlsIdx]
      dsimp only
      rw [hdeltas, readAt_tab hin, ok_bind]
      cases i with
      | zero =>
        rw [if_pos rfl, writeAt_tab hin, ok_bind]
        exact ⟨_, rfl, by rw [← update_upTo 0]; rfl⟩
      | succ i =>
        rw [if_neg (Nat.succ_ne_zero i), Nat.add_sub_cancel, readAt_tab (Nat.lt_of_succ_lt hin), ok_bind,
          writeAt_tab hin, ok_bind]
        exact ⟨_, rfl, by rw [← update_upTo (i + 1)]; rfl⟩
  rw [deriveOlsIdx, hloop, hsei']

theorem olsIdxs_upTo (hn : n < MAX_NESTING_NUM_LAYER) (hcount : sei.m_snNumOlssMinus1 = n)
    (hidx : sei.m_snOlsIdx = tab MAX_NESTING_NUM_LAYER (upTo (n + 1) d g)) :
    sei.olsIdxs = (List.range (n + 1)).map d := by
  rw [SEIScalableNesting.olsIdxs, hcount, hidx, tab, ← List.map_take, List.take_range, Nat.min_eq_left hn]
  refine List.map_congr_left fun i hi => ?_
  rw [upTo, if_pos (List.mem_range.mp hi)]

/-! ## What comes after the list leaves it -/

/-- The flag, the count and the indices. -/
def SameOlss (sei₀ sei : SEIScalableNesting) : Prop :=
  sei.m_snOlsFlag = sei₀.m_snOlsFlag ∧ sei.m_snNumOlssMinus1 = sei₀.m_snNumOlssMinus1 ∧ sei.m_snOlsIdx = sei₀.m_snOlsIdx

theorem SameOlss.refl (sei : SEIScalableNesting) : SameOlss sei sei := ⟨rfl, rfl, rfl⟩

theorem SameOlss.trans {sei₀ sei₁ sei₂ : SEIScalableNesting} (h : SameOlss sei₀ sei₁) (h' : SameOlss sei₁ sei₂) :
    SameOlss sei₀ sei₂ :=
  ⟨h'.1.trans h.1, h'.2.1.trans h.2.1, h'.2.2.trans h.2.2⟩

theorem parseSubpicIds_same : Returns (parseSubpicIds sei) (SameOlss sei) := by
  rw [parseSubpicIds]
  cases hflag : sei.m_snSubpicFlag with
  | false => exact returns_pure (SameOlss.refl sei)
  | true =>
    refine returns_then fun symbol => returns_then fun symbol' => ?_
    refine returns_loop ⟨rfl, rfl, rfl⟩ fun i sei' hsame => ?_
    exact returns_then fun _ => returns_then fun _ => returns_pure ⟨hsame.1, hsame.2.1, hsame.2.2⟩

theorem parseNumSEIs_same : Returns (parseNumSEIs sei) (SameOlss sei) := by
  refine returns_then fun symbol => returns_then fun _ => returns_then fun bs => returns_then fun _ => ?_
  exact returns_pure ⟨rfl, rfl, rfl⟩

section
variable (readSEI : HRD → ReadM (List NestedSEI × HRD)) (vps : Option VPS) (samePicTiming : VPS → Bool)
  (isPrefix : Bool) (nuhLayerId : ℕ) (nestedHrd : HRD)

theorem readNested_same (p : SEIScalableNesting × HRD) :
    Returns (readNested readSEI p) fun q => SameOlss p.1 q.1 :=
  returns_then fun _ => returns_then fun _ => returns_pure ⟨rfl, rfl, rfl⟩

/-- The message that is returned has the output layer sets that were read first. -/
theorem xParseSEIScalableNesting_scope {t t' : InputBitstream} {hrd : HRD}
    (hrun : xParseSEIScalableNesting readSEI vps samePicTiming isPrefix nuhLayerId nestedHrd t = .ok ((sei, hrd), t')) :
    ∃ sei₀ t₀, parseScope vps nuhLayerId t = .ok (sei₀, t₀) ∧ SameOlss sei₀ sei := by
  obtain ⟨⟨sei₀, t₀⟩, hscope, hrun⟩ := bind_eq_ok hrun
  refine ⟨sei₀, t₀, hscope, ?_⟩
  have hrest := @returns_bind _ _ _ (fun sei => parseNumSEIs sei >>= fun sei => do
      let q ← loop (fun _ => readNested readSEI) sei.m_snNumSEIs (sei, nestedHrd)
      xCheckScalableNestingConstraints q.1 isPrefix (vps.map samePicTiming)
      return (q.1, q.2)) (SameOlss sei₀) (fun q => SameOlss sei₀ q.1) parseSubpicIds_same fun sei₁ h₁ =>
    returns_bind parseNumSEIs_same fun sei₂ h₂ =>
      returns_bind (returns_loop (P := fun q => SameOlss sei₂ q.1) (SameOlss.refl sei₂) fun _ q hq =>
        fun s q' s' hstep => hq.trans (readNested_same readSEI q s q' s' hstep)) fun q h₃ =>
        returns_then fun _ => returns_pure (h₁.trans (h₂.trans h₃))
  exact hrest t₀ (sei, hrd) t' hrun

end

/-! ## Which output layer sets are named -/

section
variable (hl : ∀ i < n, l i < l (i + 1)) (hbound : l n + 1 < 2 ^ 32)
include hl

theorem l_le {i j : ℕ} (hij : i ≤ j) (hj : j ≤ n) : l i ≤ l j := by
  induction j, hij using Nat.le_induction with
  | base => exact Nat.le_refl _
  | succ j _ ih => exact Nat.le_trans (ih (Nat.le_of_succ_le hj)) (Nat.le_of_lt (hl j hj))

theorem count_le : n ≤ l n := by
  have h : ∀ i ≤ n, i ≤ l i := by
    intro i hi
    induction i with
    | zero => exact Nat.zero_le _
    | succ i ih => exact Nat.lt_of_le_of_lt (ih (Nat.le_of_succ_le hi)) (hl i hi)
  exact h n (Nat.le_refl n)

theorem olsDelta_le {i : ℕ} (hi : i ≤ n) : olsDelta l i ≤ l n := by
  have hle := l_le hl hi (Nat.le_refl n)
  cases i with
  | zero => exact hle
  | succ i => exact Nat.le_trans (Nat.sub_le _ _) (Nat.le_trans (Nat.sub_le _ _) hle)

include hbound

/-- The first two indices are right. -/
theorem olsIdx_first {i : ℕ} (hi : i ≤ n) (h1 : i ≤ 1) : olsIdx (olsDelta l) i = l i := by
  match i, h1 with
  | 0, _ => rfl
  | 1, _ =>
    have hlt : l 0 < l 1 := hl 0 hi
    have hle := l_le hl hi (Nat.le_refl n)
    have hsum : olsDelta l 1 + olsDelta l 0 + 1 = l 1 := by
      change l 1 - l 0 - 1 + l 0 + 1 = l 1
      omega
    change u32 (olsDelta l 1 + olsDelta l 0 + 1) = l 1
    rw [hsum, u32, Nat.mod_eq_of_lt (by omega)]

/-- The others lose the index two before. -/
theorem olsIdx_later {i : ℕ} (hi : i + 2 ≤ n) : olsIdx (olsDelta l) (i + 2) = l (i + 2) - l i - 1 := by
  have hlt : l i < l (i + 1) := hl i (Nat.lt_of_lt_of_le (by omega) hi)
  have hlt' : l (i + 1) < l (i + 2) := hl (i + 1) hi
  have hle := l_le hl hi (Nat.le_refl n)
  have hsum : olsDelta l (i + 2) + olsDelta l (i + 1) + 1 = l (i + 2) - l i - 1 := by
    change l (i + 2) - l (i + 1) - 1 + (l (i + 1) - l i - 1) + 1 = _
    omega
  change u32 (olsDelta l (i + 2) + olsDelta l (i + 1) + 1) = _
  rw [hsum, u32, Nat.mod_eq_of_lt (by omega)]

/-- The last of three or more is not among them. -/
theorem last_missing (h2 : 2 ≤ n) {i : ℕ} (hi : i ≤ n) : olsIdx (olsDelta l) i < l n := by
  match i with
  | 0 =>
    rw [olsIdx_first hl hbound hi (Nat.zero_le 1)]
    exact Nat.lt_of_lt_of_le (hl 0 (by omega)) (l_le hl (by omega) (Nat.le_refl n))
  | 1 =>
    rw [olsIdx_first hl hbound hi (Nat.le_refl 1)]
    exact Nat.lt_of_lt_of_le (hl 1 h2) (l_le hl h2 (Nat.le_refl n))
  | i + 2 =>
    rw [olsIdx_later hl hbound hi]
    have hlt : l (i + 1) < l (i + 2) := hl (i + 1) hi
    have hle := l_le hl hi (Nat.le_refl n)
    omega

theorem olsIdxs_eq_iff : (List.range (n + 1)).map (olsIdx (olsDelta l)) = (List.range (n + 1)).map l ↔ n ≤ 1 := by
  constructor
  · intro heq
    by_contra h2
    have hlast := List.map_inj_left.mp heq n (List.mem_range.mpr (Nat.lt_succ_self n))
    exact absurd hlast (Nat.ne_of_lt (last_missing hl hbound (by omega) (Nat.le_refl n)))
  · intro h1
    refine List.map_congr_left fun i hi => ?_
    have hin := Nat.le_of_lt_succ (List.mem_range.mp hi)
    exact olsIdx_first hl hbound hin (Nat.le_trans hin h1)

end

/-! ## What the extractor makes of them -/

/-- What the extractor reads of the message. -/
def message (sei : SEIScalableNesting) : SEIMessage where
  payloadType := .SCALABLE_NESTING
  m_snOlsFlag := sei.m_snOlsFlag
  m_snOlsIdx := sei.olsIdxs.map Int.ofNat
  m_snSubpicFlag := sei.m_snSubpicFlag
  m_snSubpicId := sei.m_snSubpicId.map Int.ofNat

/-- The indices are those of the list, and the extractor keeps the message for these and no others. -/
def NamesOlss (n : ℕ) (l : ℕ → ℕ) (sei : SEIScalableNesting) : Prop :=
  sei.olsIdxs = (List.range (n + 1)).map l ∧
    ∀ opts : Options, 0 ≤ opts.m_targetOlsIdx → ∀ m_removeTimingSEI,
      (seiAllowed opts m_removeTimingSEI (message sei) = true ↔ ∃ i ≤ n, opts.m_targetOlsIdx = l i)

/-- Of a nesting message only the target matters. -/
theorem seiAllowed_message (opts : Options) (m_removeTimingSEI : Bool) (hflag : sei.m_snOlsFlag = true) :
    seiAllowed opts m_removeTimingSEI (message sei) = true ↔ ∃ idx ∈ sei.olsIdxs, opts.m_targetOlsIdx = (idx : ℤ) := by
  simp only [seiAllowed, message, hflag]
  simp
  grind

theorem namesOlss_iff (hl : ∀ i < n, l i < l (i + 1)) (hbound : l n + 1 < 2 ^ 32) (hflag : sei.m_snOlsFlag = true)
    (hidx : sei.olsIdxs = (List.range (n + 1)).map (olsIdx (olsDelta l))) : NamesOlss n l sei ↔ n ≤ 1 := by
  rw [NamesOlss, hidx, olsIdxs_eq_iff hl hbound]
  refine ⟨And.left, fun h1 => ⟨h1, fun opts _ m_removeTimingSEI => ?_⟩⟩
  rw [seiAllowed_message opts m_removeTimingSEI hflag, hidx, (olsIdxs_eq_iff hl hbound).mpr h1]
  simp only [List.mem_map, List.mem_range, Nat.lt_succ_iff, exists_exists_and_eq_and]

/-- The part of the message that says what it applies to, where it gives output layer sets. -/
theorem parseScope_olss {vps : Option VPS} {nuhLayerId : ℕ} {t t' : InputBitstream} {fifo : List UInt8}
    {locations : List ℕ} {subpic : Bool} {rest : List Bool} (hn : n + 1 < 2 ^ 32) (hd : ∀ i ≤ n, d i + 1 < 2 ^ 32)
    (hAt : t.At fifo locations (true :: subpic :: (olsBits n d ++ rest)))
    (hrun : parseScope vps nuhLayerId t = .ok (sei, t')) :
    sei.m_snOlsFlag = true ∧ sei.olsIdxs = (List.range (n + 1)).map (olsIdx d) := by
  obtain ⟨t₁, hflag, hAt₁⟩ := reads_flag true t fifo locations _ hAt
  obtain ⟨t₂, hsubpic, hAt₂⟩ := reads_flag subpic t₁ fifo locations _ hAt₁
  change t₂.At fifo locations (olsBits n d ++ rest) at hAt₂
  obtain ⟨p, hp, hrun⟩ := bind_eq_ok hrun
  rw [hflag] at hp
  cases hp
  obtain ⟨p, hp, hrun⟩ := bind_eq_ok hrun
  rw [hsubpic] at hp
  cases hp
  obtain ⟨⟨sei₁, t₃⟩, hdeltas, hrun⟩ := bind_eq_ok hrun
  have hlt : n < MAX_NESTING_NUM_LAYER := by
    obtain ⟨t₄, hcount, -⟩ := reads_uvlc hn t₂ fifo locations _ (by rw [olsBits, List.append_assoc] at hAt₂; exact hAt₂)
    obtain ⟨p, hp, hloop⟩ := bind_eq_ok hdeltas
    rw [hcount] at hp
    cases hp
    exact olsDeltas_short (List.length_replicate ..) t₄ sei₁ t₃ hloop
  have hstart : List.replicate MAX_NESTING_NUM_LAYER 0 = tab MAX_NESTING_NUM_LAYER fun _ => 0 := replicate_eq_tab _ _
  obtain ⟨t₄, hread, -⟩ := @reads_olsDeltas n d (fun _ => 0)
    { SEIScalableNesting.new with m_snOlsFlag := true, m_snSubpicFlag := subpic } hlt hd hstart t₂ fifo locations _ hAt₂
  have hsei₁ := hdeltas.symm.trans hread
  cases hsei₁
  obtain ⟨⟨sei₂, t₅⟩, hidx, hrun⟩ := bind_eq_ok hrun
  obtain ⟨⟨⟩, -, hrun⟩ := bind_eq_ok hrun
  cases hrun
  have hidx := returns_lift _ t₃ _ _ hidx
  rw [deriveOlsIdx_eq hlt rfl hstart] at hidx
  cases hidx
  refine ⟨rfl, (olsIdxs_upTo (g := fun _ => 0) hlt rfl rfl).trans (List.map_congr_left fun i hi => ?_)⟩
  exact olsIdx_upTo (Nat.le_of_lt_succ (List.mem_range.mp hi))

/-- Every list of one or two output layer sets is named as it was coded, and no list of three or more. -/
theorem xParseSEIScalableNesting_names_iff (readSEI : HRD → ReadM (List NestedSEI × HRD)) (vps : Option VPS)
    (samePicTiming : VPS → Bool) (isPrefix : Bool) (nuhLayerId : ℕ) (nestedHrd : HRD) (n : ℕ) (l : ℕ → ℕ)
    (hl : ∀ i < n, l i < l (i + 1)) (hbound : l n + 1 < 2 ^ 32) (t : InputBitstream) (fifo : List UInt8)
    (locations : List ℕ) (subpic : Bool) (rest : List Bool)
    (hAt : t.At fifo locations (true :: subpic :: (olsBits n (olsDelta l) ++ rest)))
    (sei : SEIScalableNesting) (hrd : HRD) (t' : InputBitstream)
    (hrun : xParseSEIScalableNesting readSEI vps samePicTiming isPrefix nuhLayerId nestedHrd t =
      .ok ((sei, hrd), t')) :
    NamesOlss n l sei ↔ n ≤ 1 := by
  obtain ⟨sei₀, t₀, hscope, hflag, hcount, hidx⟩ :=
    xParseSEIScalableNesting_scope readSEI vps samePicTiming isPrefix nuhLayerId nestedHrd hrun
  have hn : n + 1 < 2 ^ 32 := Nat.lt_of_le_of_lt (Nat.succ_le_succ (count_le hl)) hbound
  have hd : ∀ i ≤ n, olsDelta l i + 1 < 2 ^ 32 := fun i hi =>
    Nat.lt_of_le_of_lt (Nat.succ_le_succ (olsDelta_le hl hi)) hbound
  obtain ⟨hflag₀, hidxs⟩ := parseScope_olss hn hd hAt hscope
  have hsame : sei.olsIdxs = sei₀.olsIdxs := by rw [SEIScalableNesting.olsIdxs, hidx, hcount, SEIScalableNesting.olsIdxs]
  exact namesOlss_iff hl hbound (hflag.trans hflag₀) (hsame.trans hidxs)

/-- A message of registered user data. -/
def readUserData (nestedHrd : HRD) : ReadM (List NestedSEI × HRD) := do
  let payloadType ← READ_CODE 8
  let payloadSize ← READ_CODE 8
  forRange 0 payloadSize fun _ => do
    let _ ← READ_CODE 8
    pure ()
  return ([{ payloadType, bufferingPeriod := none }], nestedHrd)

/-- A nesting message in a prefix unit, around a message of registered user data. -/
def readNesting (fifo : List UInt8) : Checked ((SEIScalableNesting × HRD) × InputBitstream) :=
  xParseSEIScalableNesting readUserData (some .new) (fun _ => false) true 0 .new (.ofFifo fifo)

theorem xParseSEIScalableNesting_names_pair :
    ∃ sei hrd t', readNesting [0x97, 4, 1, 0xb5] = .ok ((sei, hrd), t') ∧ (NamesOlss 1 id sei ↔ 1 ≤ 1) := by
  have hruns : (readNesting [0x97, 4, 1, 0xb5]).toOption.any (fun _ => true) = true := by decide +kernel
  obtain ⟨⟨⟨sei, hrd⟩, t'⟩, hrun, -⟩ := exists_ok_of_any hruns
  refine ⟨sei, hrd, t', hrun, ?_⟩
  exact xParseSEIScalableNesting_names_iff readUserData (some .new) (fun _ => false) true 0 .new 1 id
    (fun i _ => Nat.lt_succ_self i) (by decide) (.ofFifo [0x97, 4, 1, 0xb5]) [0x97, 4, 1, 0xb5] [] false
    (true :: bytesBits [4, 1, 0xb5]) ⟨rfl, rfl, by decide, by decide, by decide⟩ sei hrd t' hrun

/-- Of the three output layer sets 0, 1 and 2 the last is lost. -/
theorem names_not_three : ∃ sei hrd t', readNesting [0x9f, 0x80, 4, 1, 0xb5] = .ok ((sei, hrd), t') ∧
    sei.m_snOlsIdxDeltaMinus1.take 3 = [0, 0, 0] ∧ sei.olsIdxs = [0, 1, 1] ∧ ¬NamesOlss 2 id sei := by
  have hruns : (readNesting [0x9f, 0x80, 4, 1, 0xb5]).toOption.any (fun p =>
      p.1.1.m_snOlsIdxDeltaMinus1.take 3 = [0, 0, 0] && p.1.1.olsIdxs = [0, 1, 1]) = true := by decide +kernel
  obtain ⟨⟨⟨sei, hrd⟩, t'⟩, hrun, hlists⟩ := exists_ok_of_any hruns
  obtain ⟨hdeltas, hidxs⟩ : sei.m_snOlsIdxDeltaMinus1.take 3 = [0, 0, 0] ∧ sei.olsIdxs = [0, 1, 1] := by
    simpa using hlists
  refine ⟨sei, hrd, t', hrun, hdeltas, hidxs, fun hnames => ?_⟩
  exact absurd (hidxs.symm.trans hnames.1) (by decide)

end ECM.Sei.NestingOls
