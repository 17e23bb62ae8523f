import ECM.DecoderLib.HLSyntaxReader
import ECM.EncoderLib.HLSWriter
import ECM.Hls.ElementCount

/-! # Weighted prediction tables come back, from slice headers

In a slice header the table is read as it was written. In a picture header the reader
expects one syntax element that the writer leaves out, so that it never stops where the
table ends. -/

namespace ECM.Hls.PredWeightTable
open CommonLib CommonLib.BitStream Lib.Loop WeightPrediction
open EncoderLib.VLCWriter DecoderLib.VLCReader ECM.Hls

variable {sps : SPS} {denom : ℕ × ℕ} {e r : WpScaling} {n : ℕ} {table parsed : List WpScaling} {strict : Prop}

/-! ## What the syntax admits -/

/-- A component with a weight, of a table with the denominator `d`. -/
structure AdmittedParam (range : ℤ) (d : ℕ) (wp : WPScalingParam) : Prop where
  denom_eq : wp.log2WeightDenom = d
  weight_ge : wp.presentFlag → -128 ≤ wp.codedWeight - 2 ^ d
  weight_le : wp.presentFlag → wp.codedWeight - 2 ^ d ≤ 127
  offset_ge : wp.presentFlag → -range ≤ wp.codedOffset
  offset_lt : wp.presentFlag → wp.codedOffset < range

/-- Its offset is near to the prediction. -/
structure AdmittedChroma (range : ℤ) (d : ℕ) (wp : WPScalingParam) : Prop extends AdmittedParam range d wp where
  delta_ge : wp.presentFlag → -4 * range ≤ wp.codedOffset - pred range wp.codedWeight d
  delta_le : wp.presentFlag → wp.codedOffset - pred range wp.codedWeight d ≤ 4 * (range - 1)

structure AdmittedEntry (sps : SPS) (denom : ℕ × ℕ) (e : WpScaling) : Prop where
  luma : AdmittedParam (sps.range sps.m_bitDepthLuma) denom.1 e.Y
  cb : sps.chroma → AdmittedChroma (sps.range sps.m_bitDepthChroma) denom.2 e.Cb
  cr : sps.chroma → AdmittedChroma (sps.range sps.m_bitDepthChroma) denom.2 e.Cr
  /-- One flag for both chroma components. -/
  flag : sps.chroma → e.Cb.presentFlag = e.Cr.presentFlag

/-- The first `n` entries of a table. -/
structure AdmittedTable (sps : SPS) (denom : ℕ × ℕ) (table : List WpScaling) (n : ℕ) : Prop where
  length_eq : table.length = MAX_NUM_REF
  le : n ≤ MAX_NUM_REF
  entries : ∀ i e, i < n → table[i]? = some e → AdmittedEntry sps denom e

/-- What the table has in common. -/
structure AdmittedSPS (sps : SPS) (denom : ℕ × ℕ) : Prop where
  luma_le : denom.1 ≤ 7
  chroma_le : denom.2 ≤ 7
  bitDepthLuma_le : sps.m_bitDepthLuma ≤ 16
  bitDepthChroma_le : sps.m_bitDepthChroma ≤ 16
  noChroma : sps.chroma = false → denom.2 = 0

/-- A component as the decoder has it: without a flag the weight is one. -/
def sent (wp : WPScalingParam) : WPScalingParam := if wp.presentFlag then wp else withoutWeight wp

/-- The entry that is parsed for `e`. -/
structure Restored (sps : SPS) (e r : WpScaling) : Prop where
  luma : r.Y = sent e.Y
  cb : sps.chroma → r.Cb = sent e.Cb
  cr : sps.chroma → r.Cr = sent e.Cr
  noCb : sps.chroma = false → r.Cb.presentFlag = false
  noCr : sps.chroma = false → r.Cr.presentFlag = false

/-- The first `n` entries are restored, and no other has a weight. -/
structure RestoredTable (sps : SPS) (table : List WpScaling) (n : ℕ) (parsed : List WpScaling) : Prop where
  length_eq : parsed.length = MAX_NUM_REF
  restored : ∀ i e, i < n → table[i]? = some e → ∃ r, parsed[i]? = some r ∧ Restored sps e r
  rest : ∀ i r, n ≤ i → parsed[i]? = some r →
    r.Y.presentFlag = false ∧ r.Cb.presentFlag = false ∧ r.Cr.presentFlag = false

/-! ## The ranges -/

theorem range_pos (sps : SPS) (bitDepth : ℕ) : 0 ≤ sps.range bitDepth := by
  rw [SPS.range]
  split_ifs
  · exact Int.natCast_nonneg _
  · decide

theorem range_le {bitDepth : ℕ} (h : bitDepth ≤ 16) : sps.range bitDepth ≤ 32768 := by
  rw [SPS.range]
  split_ifs
  · have hpow : 2 ^ bitDepth ≤ 2 ^ 16 := Nat.pow_le_pow_right (by decide) h
    rw [Nat.shiftLeft_eq, Nat.one_mul]
    omega
  · omega

theorem clip3_of_mem {range v : ℤ} (hlow : -range ≤ v) (hhigh : v < range) : Clip3 (-range) (range - 1) v = v := by
  rw [Clip3]
  omega

/-! ## Loops over the entries -/

/-- The flags of the first `n` entries, as `f` counts them. -/
def countFlags (table : List WpScaling) (f : WpScaling → ℕ) : (n : ℕ) → ℕ
  | 0 => 0
  | n + 1 => countFlags table f n + (table[n]?.map f).getD 0

/-- Each round relates the entry that it leaves to the one that is written. -/
theorem forEntries_roundTrips {w : ℕ → CodeState → WriteM CodeState} {step : WpScaling → ReadM (WpScaling × ℕ)}
    {before after : ℕ → WpScaling → Prop} {c : Bool} {total : ℕ} (f : WpScaling → ℕ)
    (hlen : parsed.length = MAX_NUM_REF)
    (hn : n ≤ MAX_NUM_REF) (hbefore : ∀ i r, i < n → parsed[i]? = some r → before i r)
    (hstep : ∀ i r total, i < n → before i r → RoundTrips strict (w i ⟨c, total⟩) (step r)
      fun state p => state = ⟨c, total + p.2⟩ ∧ p.2 = (table[i]?.map f).getD 0 ∧ after i p.1) :
    RoundTrips strict (loop w n ⟨c, total⟩) (forEntries n step (parsed, total)) fun state p =>
      state = ⟨c, p.2⟩ ∧ p.1.length = MAX_NUM_REF ∧ p.2 = total + countFlags table f n ∧
        ∀ i r, i < n → p.1[i]? = some r → after i r := by
  have hloop := @roundTrips_loop CodeState ParseState strict n w (fun refIdx state => do
      let wp ← readAt state.1 refIdx
      let r ← step wp
      let table ← writeAt state.1 refIdx r.1
      return (table, state.2 + r.2))
    (fun i state p => state = ⟨c, p.2⟩ ∧ p.1.length = MAX_NUM_REF ∧ p.2 = total + countFlags table f i ∧
      (∀ j r, j < i → p.1[j]? = some r → after j r) ∧ ∀ j, i ≤ j → p.1[j]? = parsed[j]?)
    ⟨c, total⟩ (parsed, total) ⟨rfl, hlen, rfl, fun _ _ hj => absurd hj (Nat.not_lt_zero _), fun _ _ => rfl⟩ ?_
  · exact hloop.mono fun state p h => ⟨h.1, h.2.1, h.2.2.1, h.2.2.2.1⟩
  intro i hi state p ⟨hstate, hlen', hcount, hdone, hrest⟩
  obtain ⟨tbl, tot⟩ := p
  dsimp only at hstate hlen' hcount hdone hrest ⊢
  obtain ⟨r, hr⟩ : ∃ r, tbl[i]? = some r := ⟨_, List.getElem?_eq_getElem (by omega)⟩
  have hb : before i r := hbefore i r hi ((hrest i (Nat.le_refl i)).symm.trans hr)
  rw [hstate, readAt_ok hr, liftM_ok_bind]
  refine (hstep i r tot hi hb).then_right fun state' q hq => ?_
  obtain ⟨r', flags⟩ := q
  obtain ⟨rfl, hflags, hafter⟩ := hq
  dsimp only at hflags hafter ⊢
  rw [writeAt_ok (by omega)]
  refine ⟨_, rfl, rfl, by rw [List.length_set]; exact hlen', ?_, fun j x hj hx => ?_, fun j hj => ?_⟩
  · dsimp only
    rw [hcount, hflags, Nat.add_assoc]
    rfl
  · dsimp only at hx
    by_cases hji : j = i
    · subst hji
      rw [List.getElem?_set_self (by omega)] at hx
      cases hx
      exact hafter
    · rw [List.getElem?_set_ne (Ne.symm hji)] at hx
      exact hdone j x (by omega) hx
  · dsimp only
    rw [List.getElem?_set_ne (by omega)]
    exact hrest j (by omega)

/-! ## The flags -/

/-- The luma flag and the denominators of `e` have been read. -/
structure LumaRead (sps : SPS) (e r : WpScaling) : Prop where
  flag : r.Y.presentFlag = e.Y.presentFlag
  denomY : r.Y.log2WeightDenom = e.Y.log2WeightDenom
  denomCb : sps.chroma → r.Cb.log2WeightDenom = e.Cb.log2WeightDenom
  denomCr : sps.chroma → r.Cr.log2WeightDenom = e.Cr.log2WeightDenom

/-- All flags of `e` have been read. -/
structure FlagsRead (sps : SPS) (e r : WpScaling) : Prop extends LumaRead sps e r where
  flagCb : r.Cb.presentFlag = if sps.chroma then e.Cb.presentFlag else false
  flagCr : r.Cr.presentFlag = if sps.chroma then e.Cr.presentFlag else false

/-- A read of the table that is written. -/
theorem readAt_roundTrips {α β : Type} {i : ℕ} {f : WpScaling → WriteM α} {g : ReadM β} {Q : α → β → Prop}
    (hget : table[i]? = some e) (h : RoundTrips strict (f e) g Q) :
    RoundTrips strict ((liftM (readAt table i) : WriteM WpScaling) >>= f) g Q := by
  rw [readAt_ok hget]
  exact h

theorem lumaFlag_roundTrips {i total : ℕ} (he : AdmittedEntry sps denom e) (hget : table[i]? = some e) :
    RoundTrips strict (codeLumaFlag sps table i ⟨true, total⟩) (parseLumaFlag sps denom r)
      fun state p => state = ⟨true, total + p.2⟩ ∧ p.2 = e.Y.presentFlag.toNat ∧ LumaRead sps e p.1 := by
  refine readAt_roundTrips hget ?_
  rw [if_neg nofun, pure_bind]
  refine roundTrips_bind (roundTrips_flag e.Y.presentFlag) fun _ flag hflag => ?_
  subst hflag
  by_cases hc : sps.chroma = true
  · rw [if_pos hc]
    exact roundTrips_pure ⟨rfl, rfl, rfl, he.luma.denom_eq.symm, fun h => (he.cb h).denom_eq.symm,
      fun h => (he.cr h).denom_eq.symm⟩
  · rw [if_neg hc]
    exact roundTrips_pure ⟨rfl, rfl, rfl, he.luma.denom_eq.symm, fun h => absurd h hc, fun h => absurd h hc⟩

theorem chromaFlag_roundTrips {i total : ℕ} (hc : sps.chroma = true) (he : AdmittedEntry sps denom e)
    (hget : table[i]? = some e) (hr : LumaRead sps e r) :
    RoundTrips strict (codeChromaFlag table i ⟨true, total⟩) (parseChromaFlag r)
      fun state p => state = ⟨true, total + p.2⟩ ∧ p.2 = 2 * e.Cb.presentFlag.toNat ∧ FlagsRead sps e p.1 := by
  refine readAt_roundTrips hget (roundTrips_check (fun hne => absurd (he.flag hc) hne) fun _ => ?_)
  refine roundTrips_bind (roundTrips_flag e.Cb.presentFlag) fun _ flag hflag => ?_
  subst hflag
  refine roundTrips_pure ⟨rfl, rfl, ⟨hr.flag, hr.denomY, hr.denomCb, hr.denomCr⟩, ?_, ?_⟩
  · rw [if_pos hc]
  · rw [if_pos hc, ← he.flag hc]

/-! ## The weights -/

theorem sent_of_flag {wp : WPScalingParam} (h : wp.presentFlag = true) : sent wp = wp := if_pos h

theorem sent_of_not_flag {wp : WPScalingParam} (h : ¬wp.presentFlag = true) : sent wp = withoutWeight wp := if_neg h

/-- A component is its parts. -/
theorem param_ext {p q : WPScalingParam} (hflag : q.presentFlag = p.presentFlag)
    (hdenom : q.log2WeightDenom = p.log2WeightDenom) (hweight : q.codedWeight = p.codedWeight)
    (hoffset : q.codedOffset = p.codedOffset) : q = p := by
  cases p
  cases q
  simp_all

theorem withoutWeight_eq {p q : WPScalingParam} (hflag : q.presentFlag = p.presentFlag)
    (hdenom : q.log2WeightDenom = p.log2WeightDenom) : withoutWeight q = withoutWeight p := by
  rw [withoutWeight, withoutWeight, hflag, hdenom]

theorem shiftLeft_one_cast (d : ℕ) : ((1 <<< d : ℕ) : ℤ) = 2 ^ d := by
  rw [Nat.shiftLeft_eq, Nat.one_mul, Nat.cast_pow]
  rfl

variable {p q : WPScalingParam} {d : ℕ}

theorem lumaWeight_roundTrips (hbits : sps.m_bitDepthLuma ≤ 16)
    (hp : AdmittedParam (sps.range sps.m_bitDepthLuma) d p) (hflag : q.presentFlag = p.presentFlag)
    (hdenom : q.log2WeightDenom = p.log2WeightDenom) :
    RoundTrips strict (codeLumaWeight p) (parseLumaWeight sps q) fun _ q' => q' = sent p := by
  have hrange := @range_le sps _ hbits
  refine roundTrips_ite (by rw [hflag]) (fun hpresent => ?_) fun hnone => ?_
  · have h1 := hp.weight_ge hpresent
    have h2 := hp.weight_le hpresent
    have h3 := hp.offset_ge hpresent
    have h4 := hp.offset_lt hpresent
    rw [hdenom, hp.denom_eq, shiftLeft_one_cast, sent_of_flag hpresent]
    refine roundTrips_bind (roundTrips_svlc (by omega) (by omega)) fun _ weight hweight => ?_
    subst hweight
    rw [check_ok _ (by omega), liftM_ok_bind, check_ok _ (by omega), liftM_ok_bind]
    refine (roundTrips_svlc (by omega) (by omega)).then_right fun _ offset hoffset => ?_
    subst hoffset
    rw [check_ok _ (by omega), liftM_ok_bind, check_ok _ (by omega), liftM_ok_bind]
    exact ⟨_, rfl, param_ext hflag hp.denom_eq.symm (sub_add_cancel _ _) rfl⟩
  · rw [sent_of_not_flag hnone]
    exact roundTrips_pure (withoutWeight_eq hflag hdenom)

theorem chromaWeight_roundTrips {limit : ℤ} {cb cr : WPScalingParam} (hbits : sps.m_bitDepthChroma ≤ 16)
    (hlimit : 4 * (sps.range sps.m_bitDepthChroma - 1) < limit) (hcb : cb.log2WeightDenom = d)
    (hcr : cr.log2WeightDenom = d) (hpresent : p.presentFlag = true)
    (hp : AdmittedChroma (sps.range sps.m_bitDepthChroma) d p) (hflag : q.presentFlag = p.presentFlag)
    (hdenom : q.log2WeightDenom = p.log2WeightDenom) :
    RoundTrips strict (codeChromaWeight sps cb cr p) (parseChromaWeight sps limit q) fun _ q' => q' = p := by
  have hrange := @range_le sps _ hbits
  have hpos := range_pos sps sps.m_bitDepthChroma
  have h1 := hp.weight_ge hpresent
  have h2 := hp.weight_le hpresent
  have h3 := hp.delta_ge hpresent
  have h4 := hp.delta_le hpresent
  have h5 := hp.offset_ge hpresent
  have h6 := hp.offset_lt hpresent
  refine roundTrips_check (fun hne => absurd (hcb.trans hcr.symm) hne) fun _ => ?_
  rw [parseChromaWeight, hdenom, hcb, hp.denom_eq, shiftLeft_one_cast]
  refine roundTrips_bind (roundTrips_svlc (by omega) (by omega)) fun _ weight hweight => ?_
  subst hweight
  rw [check_ok _ (by omega), liftM_ok_bind, check_ok _ (by omega), liftM_ok_bind]
  refine (roundTrips_svlc (by omega) (by omega)).then_right fun _ delta hdelta => ?_
  subst hdelta
  rw [check_ok _ (by omega), liftM_ok_bind, check_ok _ (by omega), liftM_ok_bind]
  refine ⟨_, rfl, param_ext hflag hp.denom_eq.symm (sub_add_cancel _ _) ?_⟩
  dsimp only
  rw [sub_add_cancel, sub_add_cancel, clip3_of_mem h5 h6]

theorem weights_roundTrips {i : ℕ} {limit : ℤ} {state : CodeState} (hs : AdmittedSPS sps denom)
    (hlimit : 4 * (sps.range sps.m_bitDepthChroma - 1) < limit) (he : AdmittedEntry sps denom e)
    (hget : table[i]? = some e) (hr : FlagsRead sps e r) :
    RoundTrips strict (codeWeights sps table i state) (parseWeights sps limit r)
      fun state' p => state' = state ∧ p.2 = 0 ∧ Restored sps e p.1 := by
  refine readAt_roundTrips hget ?_
  refine roundTrips_bind (lumaWeight_roundTrips hs.bitDepthLuma_le he.luma hr.flag hr.denomY) fun _ y hy => ?_
  subst hy
  have hchroma : RoundTrips strict (if sps.chroma then codeChromaWeights sps e else pure ())
      (if sps.chroma then parseChromaWeights sps limit { r with Y := sent e.Y } else pure { r with Y := sent e.Y })
      fun _ r' => Restored sps e r' := by
    refine roundTrips_ite Iff.rfl (fun hc => ?_) fun hc => ?_
    · have hcb := he.cb hc
      have hcr := he.cr hc
      have hflagCb := hr.flagCb
      have hflagCr := hr.flagCr
      rw [if_pos hc] at hflagCb hflagCr
      have hyes : ¬sps.chroma = false := fun h => absurd (hc.symm.trans h) nofun
      refine roundTrips_ite (by rw [hflagCb]) (fun hpresent => ?_) fun hnone => ?_
      · refine roundTrips_bind (chromaWeight_roundTrips hs.bitDepthChroma_le hlimit hcb.denom_eq hcr.denom_eq
          hpresent hcb hflagCb (hr.denomCb hc)) fun _ cb hcb' => ?_
        subst hcb'
        have hpresent' : e.Cr.presentFlag = true := (he.flag hc).symm.trans hpresent
        refine (chromaWeight_roundTrips hs.bitDepthChroma_le hlimit hcb.denom_eq hcr.denom_eq hpresent' hcr hflagCr
          (hr.denomCr hc)).then_right fun _ cr hcr' => ⟨_, rfl, rfl, fun _ => ?_, fun _ => ?_, ?_, ?_⟩
        · exact (sent_of_flag hpresent).symm
        · exact hcr'.trans (sent_of_flag hpresent').symm
        · exact fun h => absurd h hyes
        · exact fun h => absurd h hyes
      · have hnone' : ¬e.Cr.presentFlag = true := fun h => hnone ((he.flag hc).trans h)
        refine roundTrips_pure ⟨rfl, fun _ => ?_, fun _ => ?_, fun h => absurd h hyes, fun h => absurd h hyes⟩
        · rw [sent_of_not_flag hnone]
          exact withoutWeight_eq hflagCb (hr.denomCb hc)
        · rw [sent_of_not_flag hnone']
          exact withoutWeight_eq hflagCr (hr.denomCr hc)
    · refine roundTrips_pure ⟨rfl, fun h => absurd h hc, fun h => absurd h hc, fun _ => ?_, fun _ => ?_⟩
      · exact hr.flagCb.trans (if_neg hc)
      · exact hr.flagCr.trans (if_neg hc)
  exact roundTrips_bind hchroma fun _ r' hr' => roundTrips_pure ⟨rfl, rfl, hr'⟩

/-! ## One reference list -/

/-- What the entries of a reference list add to `uiTotalSignalledWeightFlags`. -/
def refListFlags (sps : SPS) (table : List WpScaling) (n : ℕ) : ℕ :=
  countFlags table (fun e => e.Y.presentFlag.toNat) n +
    if sps.chroma then countFlags table (fun e => 2 * e.Cb.presentFlag.toNat) n else 0

theorem countFlags_zero (table : List WpScaling) (n : ℕ) : countFlags table (fun _ => 0) n = 0 := by
  induction n with
  | zero => rfl
  | succ n ih =>
    rw [countFlags, ih, Nat.zero_add]
    cases table[n]? <;> rfl

/-- A reference list behind the denominators. -/
theorem refList_roundTrips {limit : ℤ} {total : ℕ} (hs : AdmittedSPS sps denom)
    (hlimit : 4 * (sps.range sps.m_bitDepthChroma - 1) < limit) (ht : AdmittedTable sps denom table n)
    (hlen : parsed.length = MAX_NUM_REF) :
    RoundTrips strict (codeRefList sps table n ⟨true, total⟩) (parseRefList sps limit denom n (parsed, total))
      fun state p => state = ⟨true, p.2⟩ ∧ p.2 = total + refListFlags sps table n ∧
        RestoredTable sps table n p.1 := by
  have hget (i : ℕ) (hi : i < n) : ∃ e, table[i]? = some e ∧ AdmittedEntry sps denom e := by
    have hlt : i < table.length := by rw [ht.length_eq]; exact Nat.lt_of_lt_of_le hi ht.le
    exact ⟨_, List.getElem?_eq_getElem hlt, ht.entries i _ hi (List.getElem?_eq_getElem hlt)⟩
  have hluma := @forEntries_roundTrips n table parsed strict (codeLumaFlag sps table) (parseLumaFlag sps denom)
    (fun _ _ => True) (fun i r => ∀ e, table[i]? = some e → LumaRead sps e r) true total
    (fun e => e.Y.presentFlag.toNat) hlen ht.le (fun _ _ _ _ => trivial) fun i r tot hi _ => by
      obtain ⟨e, he, hadm⟩ := hget i hi
      refine (lumaFlag_roundTrips hadm he).mono fun _ p hp => ⟨hp.1, ?_, fun e' he' => ?_⟩
      · rw [he]
        exact hp.2.1
      · obtain rfl := Option.some.inj (he.symm.trans he')
        exact hp.2.2
  refine roundTrips_bind hluma fun state p hp => ?_
  obtain ⟨tbl, tot⟩ := p
  obtain ⟨rfl, hlen₁, hcount₁, hread⟩ := hp
  dsimp only at hlen₁ hcount₁ hread ⊢
  have hchroma : RoundTrips strict
      (if sps.chroma then loop (codeChromaFlag table) n ⟨true, tot⟩ else pure ⟨true, tot⟩)
      (if sps.chroma then forEntries n parseChromaFlag (tbl, tot) else pure (clearChromaFlags tbl, tot))
      fun state p => state = ⟨true, p.2⟩ ∧ p.1.length = MAX_NUM_REF ∧
        p.2 = total + refListFlags sps table n ∧
        ∀ i r, i < n → p.1[i]? = some r → ∀ e, table[i]? = some e → FlagsRead sps e r := by
    refine roundTrips_ite Iff.rfl (fun hc => ?_) fun hc => roundTrips_pure ⟨rfl, ?_, ?_, fun i r hi hr e he => ?_⟩
    · refine (@forEntries_roundTrips n table tbl strict (codeChromaFlag table) parseChromaFlag
        (fun i r => ∀ e, table[i]? = some e → LumaRead sps e r)
        (fun i r => ∀ e, table[i]? = some e → FlagsRead sps e r) true tot
        (fun e => 2 * e.Cb.presentFlag.toNat) hlen₁ ht.le hread fun i r tot hi hbefore => ?_).mono
        fun state p hp => ⟨hp.1, hp.2.1, ?_, hp.2.2.2⟩
      · obtain ⟨e, he, hadm⟩ := hget i hi
        refine (chromaFlag_roundTrips hc hadm he (hbefore e he)).mono fun _ p hp => ⟨hp.1, ?_, fun e' he' => ?_⟩
        · rw [he]
          exact hp.2.1
        · obtain rfl := Option.some.inj (he.symm.trans he')
          exact hp.2.2
      · rw [hp.2.2.1, hcount₁, refListFlags, if_pos hc, Nat.add_assoc]
    · rw [clearChromaFlags, List.length_map]
      exact hlen₁
    · rw [refListFlags, if_neg hc]
      exact hcount₁
    · rw [clearChromaFlags, List.getElem?_map] at hr
      obtain ⟨r', hr', rfl⟩ := Option.map_eq_some_iff.mp hr
      have hluma := hread i r' hi hr' e he
      refine ⟨⟨hluma.flag, hluma.denomY, fun h => absurd h hc, fun h => absurd h hc⟩, ?_, ?_⟩
      · rw [if_neg hc]
      · rw [if_neg hc]
  refine roundTrips_bind hchroma fun state p hp => ?_
  obtain ⟨tbl₂, tot₂⟩ := p
  obtain ⟨rfl, hlen₂, hcount₂, hread₂⟩ := hp
  dsimp only at hlen₂ hcount₂ hread₂ ⊢
  have hweights := @forEntries_roundTrips n table tbl₂ strict (codeWeights sps table) (parseWeights sps limit)
    (fun i r => ∀ e, table[i]? = some e → FlagsRead sps e r)
    (fun i r => ∀ e, table[i]? = some e → Restored sps e r) true tot₂ (fun _ => 0) hlen₂ ht.le hread₂
    fun i r tot hi hbefore => by
      obtain ⟨e, he, hadm⟩ := hget i hi
      refine (weights_roundTrips hs hlimit hadm he (hbefore e he)).mono fun _ p hp => ⟨?_, ?_, fun e' he' => ?_⟩
      · rw [hp.1, hp.2.1, Nat.add_zero]
      · rw [he]
        exact hp.2.1
      · obtain rfl := Option.some.inj (he.symm.trans he')
        exact hp.2.2
  refine hweights.then_right fun state p hp => ⟨_, rfl, hp.1, ?_, ?_⟩
  · rw [hp.2.2.1, countFlags_zero, hcount₂]
    rfl
  obtain ⟨_, hlen₃, _, hread₃⟩ := hp
  refine ⟨by rw [clearFlagsFrom, List.length_mapIdx]; exact hlen₃, fun i e hi he => ?_, fun i r hi hr => ?_⟩
  · have hlt : i < p.1.length := by rw [hlen₃]; exact Nat.lt_of_lt_of_le hi ht.le
    refine ⟨p.1[i], ?_, hread₃ i _ hi (List.getElem?_eq_getElem hlt) e he⟩
    rw [clearFlagsFrom, List.getElem?_mapIdx, List.getElem?_eq_getElem hlt, Option.map_some, if_pos hi]
  · rw [clearFlagsFrom, List.getElem?_mapIdx] at hr
    obtain ⟨r', _, rfl⟩ := Option.map_eq_some_iff.mp hr
    rw [if_neg (Nat.not_lt.mpr hi)]
    exact ⟨rfl, rfl, rfl⟩

/-- The denominators are written with the first flag. -/
theorem lumaFlags_first {total : ℕ} (hget : table[0]? = some e) : ∀ n, loop (codeLumaFlag sps table) (n + 1) ⟨false, total⟩ =
    codeDenominators sps e >>= fun _ => loop (codeLumaFlag sps table) (n + 1) ⟨true, total⟩
  | 0 => by
    have hread {α : Type} (f : WpScaling → WriteM α) : (liftM (readAt table 0) : WriteM WpScaling) >>= f = f e := by
      rw [readAt_ok hget]
      rfl
    simp only [loop, pure_bind, codeLumaFlag, hread, if_true]
    rfl
  | n + 1 => by
    rw [loop, lumaFlags_first hget n, bind_assoc]
    rfl

theorem refList_first {total : ℕ} (hn : 0 < n) (hget : table[0]? = some e) :
    codeRefList sps table n ⟨false, total⟩ =
      codeDenominators sps e >>= fun _ => codeRefList sps table n ⟨true, total⟩ := by
  obtain ⟨m, rfl⟩ : ∃ m, n = m + 1 := ⟨n - 1, by omega⟩
  rw [codeRefList, lumaFlags_first hget, bind_assoc]
  rfl

theorem denominators_roundTrips (hs : AdmittedSPS sps denom) (he : AdmittedEntry sps denom e) :
    RoundTrips strict (codeDenominators sps e) (parseDenominators sps) fun _ d => d = denom := by
  have hluma := hs.luma_le
  have hchroma := hs.chroma_le
  rw [codeDenominators, he.luma.denom_eq]
  refine roundTrips_bind (roundTrips_uvlc (by omega)) fun _ d hd => ?_
  subst hd
  have hle : ¬denom.1 > 7 := Nat.not_lt.mpr hluma
  rw [check_ok _ hle, liftM_ok_bind]
  refine roundTrips_ite Iff.rfl (fun hc => ?_) fun hc => roundTrips_pure ?_
  · rw [(he.cb hc).denom_eq, (he.cr hc).denom_eq]
    refine roundTrips_check (fun hne => absurd rfl hne) fun _ => ?_
    refine (roundTrips_svlc (by omega) (by omega)).then_right fun _ delta hdelta => ?_
    subst hdelta
    rw [check_ok _ (by omega), liftM_ok_bind, check_ok _ (by omega), liftM_ok_bind, sub_add_cancel]
    exact ⟨_, rfl, rfl⟩
  · rw [← hs.noChroma (Bool.eq_false_iff.mpr hc)]

/-! ## The slice header -/

/-- A slice with a table that the syntax admits. -/
structure AdmittedSlice (sps : SPS) (denom : ℕ × ℕ) (slice : WpSlice) : Prop where
  common : AdmittedSPS sps denom
  tableL0 : AdmittedTable sps denom slice.tableL0 slice.numRefIdxL0
  tableL1 : slice.isB → AdmittedTable sps denom slice.tableL1 slice.numRefIdxL1
  /-- A P or B slice has a reference picture. -/
  pos : 0 < slice.numRefIdxL0
  /-- The table is sent for slices of this type. -/
  used : (slice.isB = false ∧ slice.useWP) ∨ (slice.isB ∧ slice.wpBiPred)

def sliceFlags (sps : SPS) (slice : WpSlice) : ℕ :=
  refListFlags sps slice.tableL0 slice.numRefIdxL0 +
    if slice.isB then refListFlags sps slice.tableL1 slice.numRefIdxL1 else 0

theorem admittedTable_first (ht : AdmittedTable sps denom table n) (hn : 0 < n) :
    ∃ e, table[0]? = some e ∧ AdmittedEntry sps denom e := by
  have hlt : 0 < table.length := by rw [ht.length_eq]; decide
  exact ⟨_, List.getElem?_eq_getElem hlt, ht.entries 0 _ hn (List.getElem?_eq_getElem hlt)⟩

theorem sliceTable_roundTrips {slice : WpSlice} {oldL0 oldL1 : List WpScaling} (h : AdmittedSlice sps denom slice)
    (h0 : oldL0.length = MAX_NUM_REF) (h1 : oldL1.length = MAX_NUM_REF) :
    RoundTrips (sliceFlags sps slice ≤ 24) (xCodePredWeightTable sps slice)
      (parsePredWeightTable sps slice.isB slice.numRefIdxL0 slice.numRefIdxL1 oldL0 oldL1) fun _ p =>
        RestoredTable sps slice.tableL0 slice.numRefIdxL0 p.1 ∧
          (slice.isB → RestoredTable sps slice.tableL1 slice.numRefIdxL1 p.2) := by
  have hlimit : 4 * (sps.range sps.m_bitDepthChroma - 1) < sliceLimit sps := by
    rw [sliceLimit]
    omega
  obtain ⟨e, hget, he⟩ := admittedTable_first h.tableL0 h.pos
  rw [xCodePredWeightTable, if_pos h.used, refList_first h.pos hget, bind_assoc]
  refine roundTrips_bind (denominators_roundTrips h.common he) fun _ d hd => ?_
  subst hd
  refine roundTrips_bind (refList_roundTrips h.common hlimit h.tableL0 h0) fun state p hp => ?_
  obtain ⟨tbl, tot⟩ := p
  obtain ⟨rfl, htot, hrest⟩ := hp
  dsimp only at htot hrest ⊢
  have hsecond : RoundTrips (sliceFlags sps slice ≤ 24)
      (if slice.isB then codeRefList sps slice.tableL1 slice.numRefIdxL1 ⟨true, tot⟩ else pure ⟨true, tot⟩)
      (if slice.isB then parseRefList sps (sliceLimit sps) d slice.numRefIdxL1 (oldL1, tot) else pure (oldL1, tot))
      fun state p => state = ⟨true, p.2⟩ ∧ p.2 = sliceFlags sps slice ∧
        (slice.isB → RestoredTable sps slice.tableL1 slice.numRefIdxL1 p.1) := by
    refine roundTrips_ite Iff.rfl (fun hB => ?_) fun hB => roundTrips_pure ⟨rfl, ?_, fun hB' => absurd hB' hB⟩
    · refine (refList_roundTrips h.common hlimit (h.tableL1 hB) h1).mono fun _ p hp => ⟨hp.1, ?_, fun _ => hp.2.2⟩
      rw [hp.2.1, htot, sliceFlags, if_pos hB, Nat.zero_add]
    · rw [htot, sliceFlags, if_neg hB, Nat.zero_add, Nat.add_zero]
  refine roundTrips_bind hsecond fun state p hp => ?_
  obtain ⟨tbl', tot'⟩ := p
  obtain ⟨rfl, htot', hrest'⟩ := hp
  dsimp only at htot' hrest' ⊢
  rw [← bind_pure (liftM (check (tot' > 24) "Too many signalled weight flags") : WriteM Unit)]
  refine roundTrips_check (fun hmany hfew => ?_) fun hfew => ?_
  · omega
  · rw [check_ok _ hfew]
    exact roundTrips_pure ⟨hrest, hrest'⟩

/-! ## The elements of the syntax -/

/-- One if there is chroma. -/
def chromaCount (sps : SPS) : ℕ := if sps.chroma then 1 else 0

theorem forEntries_takes {step : WpScaling → ReadM (WpScaling × ℕ)} {c : ℕ} (state : ParseState)
    (h : ∀ wp, Takes (step wp) fun _ m => m % 2 = c % 2) :
    Takes (forEntries n step state) fun _ m => m % 2 = n * c % 2 := by
  refine takes_loop state fun i state => ?_
  refine takes_bind (takes_lift _) fun wp m hm => takes_bind (h wp) fun p k hk => ?_
  refine takes_bind (takes_lift _) fun tbl l hl => takes_pure ?_
  omega

theorem denominators_takes (sps : SPS) : Takes (parseDenominators sps) fun _ m => m = 1 + chromaCount sps := by
  refine takes_bind takes_uvlc fun d m hm => takes_bind (takes_lift _) fun _ k hk => ?_
  rw [chromaCount]
  split
  · refine takes_bind takes_svlc fun delta l hl => takes_bind (takes_lift _) fun _ k' hk' => ?_
    refine takes_bind (takes_lift _) fun _ k'' hk'' => takes_pure ?_
    omega
  · exact takes_pure (by omega)

theorem lumaFlag_takes (wp : WpScaling) : Takes (parseLumaFlag sps denom wp) fun _ m => m % 2 = 1 % 2 := by
  refine takes_bind takes_flag fun flag m hm => ?_
  split
  · exact takes_pure (by omega)
  · exact takes_pure (by omega)

theorem chromaFlag_takes (wp : WpScaling) : Takes (parseChromaFlag wp) fun _ m => m % 2 = 1 % 2 :=
  takes_bind takes_flag fun flag m hm => takes_pure (by omega)

/-- A weight and an offset. -/
theorem lumaWeight_takes (wp : WPScalingParam) : Takes (parseLumaWeight sps wp) fun _ m => m % 2 = 0 := by
  rw [parseLumaWeight]
  split
  · refine takes_bind takes_svlc fun weight m hm => takes_bind (takes_lift _) fun _ k hk => ?_
    refine takes_bind (takes_lift _) fun _ k' hk' => takes_bind takes_svlc fun offset m' hm' => ?_
    refine takes_bind (takes_lift _) fun _ l hl => takes_bind (takes_lift _) fun _ l' hl' => takes_pure ?_
    omega
  · exact takes_pure rfl

theorem chromaWeight_takes (limit : ℤ) (wp : WPScalingParam) :
    Takes (parseChromaWeight sps limit wp) fun _ m => m % 2 = 0 := by
  refine takes_bind takes_svlc fun weight m hm => takes_bind (takes_lift _) fun _ k hk => ?_
  refine takes_bind (takes_lift _) fun _ k' hk' => takes_bind takes_svlc fun offset m' hm' => ?_
  refine takes_bind (takes_lift _) fun _ l hl => takes_bind (takes_lift _) fun _ l' hl' => takes_pure ?_
  omega

theorem weights_takes (limit : ℤ) (wp : WpScaling) : Takes (parseWeights sps limit wp) fun _ m => m % 2 = 0 % 2 := by
  refine takes_bind (lumaWeight_takes wp.Y) fun y m hm => ?_
  have hchroma : Takes (if sps.chroma then parseChromaWeights sps limit { wp with Y := y } else pure { wp with Y := y })
      fun _ k => k % 2 = 0 := by
    rw [parseChromaWeights]
    split
    · split
      · exact takes_bind (chromaWeight_takes limit _) fun _ k hk => takes_bind (chromaWeight_takes limit _)
          fun _ k' hk' => takes_pure (by omega)
      · exact takes_pure rfl
    · exact takes_pure rfl
  exact takes_bind hchroma fun _ k hk => takes_pure (by omega)

theorem refList_takes (limit : ℤ) (state : ParseState) :
    Takes (parseRefList sps limit denom n state) fun _ m => m % 2 = n * (1 + chromaCount sps) % 2 := by
  refine takes_bind (forEntries_takes state lumaFlag_takes) fun p m hm => ?_
  have hchroma : Takes (if sps.chroma then forEntries n parseChromaFlag p else pure (clearChromaFlags p.1, p.2))
      fun _ k => k % 2 = n * chromaCount sps % 2 := by
    rw [chromaCount]
    split
    · exact forEntries_takes p chromaFlag_takes
    · exact takes_pure rfl
  refine takes_bind hchroma fun p' k hk => takes_bind (forEntries_takes p' (weights_takes limit)) fun _ l hl => ?_
  refine takes_pure ?_
  rw [Nat.mul_add]
  omega

/-! ## The picture header -/

/-- A picture header with tables that the syntax admits. -/
structure AdmittedPicHeader (sps : SPS) (denom : ℕ × ℕ) (picHeader : WpPicHeader) : Prop where
  common : AdmittedSPS sps denom
  tableL0 : AdmittedTable sps denom picHeader.tableL0 picHeader.m_numL0Weights
  tableL1 : AdmittedTable sps denom picHeader.tableL1 picHeader.m_numL1Weights

/-- One if `num_l1_weights` is sent. -/
def numL1Count (numRefEntriesL1 : ℕ) : ℕ := if numRefEntriesL1 > 0 then 1 else 0

theorem refList_puts {total : ℕ} (hs : AdmittedSPS sps denom) (ht : AdmittedTable sps denom table n) :
    Puts (codeRefList sps table n ⟨true, total⟩) fun state m =>
      state.denomCoded = true ∧ m % 2 = n * (1 + chromaCount sps) % 2 := by
  have hlimit : 4 * (sps.range sps.m_bitDepthChroma - 1) < picHeaderLimit sps := by
    rw [picHeaderLimit]
    omega
  have hround := @refList_roundTrips sps denom n table table False (picHeaderLimit sps) total hs hlimit ht ht.length_eq
  refine (hround.puts (refList_takes _ _)).mono fun state m h => ?_
  obtain ⟨p, ⟨rfl, _⟩, hm⟩ := h
  exact ⟨rfl, hm⟩

/-- A reference list with the denominators. -/
theorem firstRefList_puts {total : ℕ} (hs : AdmittedSPS sps denom) (ht : AdmittedTable sps denom table n) (hn : 0 < n) :
    Puts (codeRefList sps table n ⟨false, total⟩) fun state m =>
      state.denomCoded = true ∧ m % 2 = (1 + chromaCount sps + n * (1 + chromaCount sps)) % 2 := by
  obtain ⟨e, hget, he⟩ := admittedTable_first ht hn
  rw [refList_first hn hget]
  have hround : RoundTrips False _ _ _ := denominators_roundTrips hs he
  refine puts_bind (hround.puts (denominators_takes sps)) fun _ m hm => ?_
  obtain ⟨_, _, hm⟩ := hm
  refine (refList_puts hs ht).mono fun state k hk => ⟨hk.1, ?_⟩
  omega

theorem refList_zero (state : CodeState) : codeRefList sps table 0 state = pure state := by
  rw [codeRefList]
  split <;> rfl

theorem numL1_puts {numRefEntriesL1 numL1 : ℕ} (h : numL1 + 1 < 2 ^ 32) :
    Puts (if numRefEntriesL1 > 0 then WRITE_UVLC numL1 else pure ()) fun _ m => m = numL1Count numRefEntriesL1 := by
  rw [numL1Count]
  split
  · have hround : RoundTrips False _ _ _ := roundTrips_uvlc h
    exact (hround.puts takes_uvlc).mono fun _ m hm => hm.choose_spec.2
  · exact puts_pure rfl

theorem picHeaderTable_puts {picHeader : WpPicHeader} (h : AdmittedPicHeader sps denom picHeader)
    (hany : 0 < picHeader.m_numL0Weights + picHeader.m_numL1Weights) :
    Puts (xCodePredWeightTablePH sps picHeader) fun _ m => m % 2 =
      (1 + chromaCount sps + numL1Count picHeader.numRefEntriesL1 +
        picHeader.m_numL0Weights * (1 + chromaCount sps) + picHeader.m_numL1Weights * (1 + chromaCount sps)) % 2 := by
  have hL1 : picHeader.m_numL1Weights + 1 < 2 ^ 32 := by
    have hle : picHeader.m_numL1Weights ≤ 16 := h.tableL1.le
    omega
  rw [xCodePredWeightTablePH]
  rcases Nat.eq_zero_or_pos picHeader.m_numL0Weights with h0 | h0
  · rw [h0, refList_zero, pure_bind]
    refine puts_bind (numL1_puts hL1) fun _ m hm => ?_
    rw [if_neg (by omega)]
    refine puts_bind (firstRefList_puts h.common h.tableL1 (by omega)) fun state k hk => ?_
    refine (puts_lift _).mono fun _ l hl => ?_
    omega
  · refine puts_bind (firstRefList_puts h.common h.tableL0 h0) fun state m hm => ?_
    obtain ⟨coded, total⟩ := state
    obtain ⟨rfl, hm⟩ := hm
    refine puts_bind (numL1_puts hL1) fun _ k hk => ?_
    have hsecond : Puts (if picHeader.m_numL1Weights = 0 then pure ⟨true, total⟩
        else codeRefList sps picHeader.tableL1 picHeader.m_numL1Weights ⟨true, total⟩)
        fun _ m => m % 2 = picHeader.m_numL1Weights * (1 + chromaCount sps) % 2 := by
      split
      · next hzero =>
        exact puts_pure (by rw [hzero, Nat.zero_mul])
      · exact (refList_puts h.common h.tableL1).mono fun _ m hm => hm.2
    refine puts_bind hsecond fun state l hl => (puts_lift _).mono fun _ l' hl' => ?_
    omega

/-- Without weights there is only their number. -/
theorem picHeaderTable_empty {picHeader : WpPicHeader} (h0 : picHeader.m_numL0Weights = 0)
    (h1 : picHeader.m_numL1Weights = 0) : Writes (xCodePredWeightTablePH sps picHeader) ()
      (List.replicate (numL1Count picHeader.numRefEntriesL1) true) := by
  have hnum : Writes (if picHeader.numRefEntriesL1 > 0 then WRITE_UVLC 0 else pure ()) ()
      (List.replicate (numL1Count picHeader.numRefEntriesL1) true) := by
    rw [numL1Count]
    split
    · exact writes_uvlc (by decide)
    · exact writes_pure ()
  rw [xCodePredWeightTablePH, h0, h1, refList_zero, pure_bind]
  exact hnum.silent (writes_pure ())

theorem picHeaderTable_takes (numRefEntriesL1 : ℕ) (oldL0 oldL1 : List WpScaling) :
    Takes (parsePredWeightTablePH sps numRefEntriesL1 oldL0 oldL1) fun r m =>
      2 + chromaCount sps + numL1Count numRefEntriesL1 ≤ m ∧ m % 2 =
        (2 + chromaCount sps + numL1Count numRefEntriesL1 + r.m_numL0Weights * (1 + chromaCount sps) +
          r.m_numL1Weights * (1 + chromaCount sps)) % 2 := by
  refine takes_bind (denominators_takes sps) fun denom m hm => takes_bind takes_uvlc fun numL0 k hk => ?_
  refine takes_bind (refList_takes _ _) fun p l hl => ?_
  have hnum : Takes (if numRefEntriesL1 > 0 then READ_UVLC else pure 0) fun _ m => m = numL1Count numRefEntriesL1 := by
    rw [numL1Count]
    split
    · exact takes_uvlc
    · exact takes_pure rfl
  refine takes_bind hnum fun numL1 k' hk' => ?_
  have hsecond : Takes (if numL1 = 0 then pure (oldL1, p.2)
      else parseRefList sps (picHeaderLimit sps) denom numL1 (oldL1, p.2))
      fun _ m => m % 2 = numL1 * (1 + chromaCount sps) % 2 := by
    split
    · next hzero =>
      exact takes_pure (by rw [hzero, Nat.zero_mul])
    · exact refList_takes _ _
  refine takes_bind hsecond fun p' l' hl' => takes_bind (takes_lift _) fun _ l'' hl'' => takes_pure ⟨?_, ?_⟩
  · omega
  · dsimp only
    omega

/-- The reader never takes just the bits of the table and returns as many weights. -/
theorem picHeaderTable_never {picHeader : WpPicHeader} (h : AdmittedPicHeader sps denom picHeader)
    {s s' : OutputBitstream} (hs : s.WF) (hrun : xCodePredWeightTablePH sps picHeader s = .ok ((), s'))
    {bits : List Bool} (happ : Appends s s' bits) {oldL0 oldL1 : List WpScaling} {r : ParsedWpPicHeader}
    (hreads : Reads (parsePredWeightTablePH sps picHeader.numRefEntriesL1 oldL0 oldL1) bits r) :
    ¬(r.m_numL0Weights = picHeader.m_numL0Weights ∧ r.m_numL1Weights = picHeader.m_numL1Weights) := by
  rintro ⟨h0, h1⟩
  obtain ⟨m, hle, hpar, hm, hmpar⟩ := (picHeaderTable_takes _ _ _).length hreads
  rw [h0, h1] at hmpar
  rcases Nat.eq_zero_or_pos (picHeader.m_numL0Weights + picHeader.m_numL1Weights) with hzero | hany
  · obtain ⟨s₁, hs₁, happ₁⟩ := @picHeaderTable_empty sps picHeader (by omega) (by omega) s hs
    rw [hrun] at hs₁
    cases hs₁
    have hbits := List.append_cancel_left (happ.bits_eq.symm.trans happ₁.bits_eq)
    rw [hbits, List.length_replicate] at hle
    omega
  · obtain ⟨bits', k, happ', hpar', hk⟩ := picHeaderTable_puts h hany s () s' hs hrun
    have hbits : bits' = bits := List.append_cancel_left (happ'.bits_eq.symm.trans happ.bits_eq)
    rw [hbits] at hpar'
    omega

/-! ## Both places -/

/-- Where a table is sent. -/
inductive WpHeader where
  | slice (slice : WpSlice)
  | picHeader (picHeader : WpPicHeader)

/-- The table is one that the syntax admits, with at most 24 flags. -/
def Admitted (sps : SPS) (denom : ℕ × ℕ) : WpHeader → Prop
  | .slice slice => AdmittedSlice sps denom slice ∧ sliceFlags sps slice ≤ 24
  | .picHeader picHeader => AdmittedPicHeader sps denom picHeader ∧
      refListFlags sps picHeader.tableL0 picHeader.m_numL0Weights +
        refListFlags sps picHeader.tableL1 picHeader.m_numL1Weights ≤ 24

/-- Whatever tables the decoder has before, it reads the bits that are written and has
the table afterwards. -/
def TableRoundTrips (sps : SPS) : WpHeader → Prop
  | .slice slice => ∀ oldL0 oldL1, oldL0.length = MAX_NUM_REF → oldL1.length = MAX_NUM_REF →
      RoundTrips True (xCodePredWeightTable sps slice)
        (parsePredWeightTable sps slice.isB slice.numRefIdxL0 slice.numRefIdxL1 oldL0 oldL1) fun _ p =>
          RestoredTable sps slice.tableL0 slice.numRefIdxL0 p.1 ∧
            (slice.isB → RestoredTable sps slice.tableL1 slice.numRefIdxL1 p.2)
  | .picHeader picHeader => ∀ oldL0 oldL1, oldL0.length = MAX_NUM_REF → oldL1.length = MAX_NUM_REF →
      RoundTrips True (xCodePredWeightTablePH sps picHeader)
        (parsePredWeightTablePH sps picHeader.numRefEntriesL1 oldL0 oldL1) fun _ r =>
          r.m_numL0Weights = picHeader.m_numL0Weights ∧ r.m_numL1Weights = picHeader.m_numL1Weights ∧
            RestoredTable sps picHeader.tableL0 picHeader.m_numL0Weights r.tableL0 ∧
            (0 < picHeader.m_numL1Weights →
              RestoredTable sps picHeader.tableL1 picHeader.m_numL1Weights r.tableL1)

theorem picHeader_not_roundTrips {picHeader : WpPicHeader} (h : AdmittedPicHeader sps denom picHeader) :
    ¬TableRoundTrips sps (.picHeader picHeader) := by
  intro hround
  have hclear := hround picHeader.tableL0 picHeader.tableL1 h.tableL0.length_eq h.tableL1.length_eq _
    OutputBitstream.clear_wf
  cases hrun : xCodePredWeightTablePH sps picHeader OutputBitstream.clear with
  | error e =>
    rw [hrun] at hclear
    exact hclear trivial
  | ok p =>
    obtain ⟨u, s'⟩ := p
    rw [hrun] at hclear
    obtain ⟨bits, r, happ, ⟨h0, h1, _⟩, hreads⟩ := hclear
    exact picHeaderTable_never h OutputBitstream.clear_wf hrun happ hreads ⟨h0, h1⟩

/-- Weighted prediction tables come back exactly where they are sent in a slice header. -/
theorem predWeightTable_roundTrips_iff {header : WpHeader} (h : Admitted sps denom header) :
    TableRoundTrips sps header ↔ ∃ slice, header = .slice slice := by
  cases header with
  | slice slice =>
    refine ⟨fun _ => ⟨slice, rfl⟩, fun _ oldL0 oldL1 h0 h1 => ?_⟩
    have hround := sliceTable_roundTrips h.1 h0 h1
    rwa [eq_true h.2] at hround
  | picHeader picHeader =>
    refine ⟨fun hround => absurd hround (picHeader_not_roundTrips h.1), ?_⟩
    rintro ⟨slice, heq⟩
    cases heq

/-- Luma only, and one entry with a weight of 80/64 and the offset -3. -/
def lumaSPS : SPS := ⟨false, false, 10, 10⟩

def weightedEntry : WpScaling := ⟨⟨true, 6, 80, -3⟩, ⟨false, 0, 1, 0⟩, ⟨false, 0, 1, 0⟩⟩

def weightedTable : List WpScaling := List.replicate MAX_NUM_REF weightedEntry

theorem weightedTable_admitted {n : ℕ} (hn : n ≤ MAX_NUM_REF) : AdmittedTable lumaSPS (6, 0) weightedTable n := by
  refine ⟨rfl, hn, fun i e _ he => ?_⟩
  obtain rfl : e = weightedEntry := List.eq_of_mem_replicate (List.mem_of_getElem? he)
  refine ⟨⟨rfl, ?_, ?_, ?_, ?_⟩, nofun, nofun, nofun⟩ <;> decide

theorem weightedSlice_roundTrips :
    TableRoundTrips lumaSPS (.slice ⟨true, false, true, 2, 1, weightedTable, weightedTable⟩) := by
  have hadm : Admitted lumaSPS (6, 0) (.slice ⟨true, false, true, 2, 1, weightedTable, weightedTable⟩) := by
    refine ⟨⟨?_, ?_, fun _ => ?_, ?_, ?_⟩, ?_⟩
    · exact ⟨by decide, by decide, by decide, by decide, fun _ => rfl⟩
    · exact weightedTable_admitted (by decide)
    · exact weightedTable_admitted (by decide)
    · decide
    · exact Or.inr ⟨rfl, rfl⟩
    · decide
  exact (predWeightTable_roundTrips_iff hadm).mpr ⟨_, rfl⟩

/-- The same table in a picture header: `num_l0_weights` is missing. -/
theorem weightedPicHeader_fails :
    ¬TableRoundTrips lumaSPS (.picHeader ⟨2, 1, 1, weightedTable, weightedTable⟩) :=
  picHeader_not_roundTrips ⟨⟨by decide, by decide, by decide, by decide, fun _ => rfl⟩,
    weightedTable_admitted (by decide), weightedTable_admitted (by decide)⟩

end ECM.Hls.PredWeightTable
