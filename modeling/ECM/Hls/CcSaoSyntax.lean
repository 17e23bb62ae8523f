import ECM.DecoderLib.ApsReader
import ECM.EncoderLib.ApsWriter
import ECM.Hls.Grammar

/-! # Parameters of CCSAO come back, and where they stay inside their arrays

What the writer accepts is read back. The reader accepts more: it takes any number of sets
and any product of band numbers, and stores what it reads behind the ends of the arrays. -/

namespace ECM.Hls.CcSaoSyntax
open CommonLib CommonLib.BitStream Lib.Bits Lib.Loop CcSao
open EncoderLib.VLCWriter DecoderLib.VLCReader ECM.Hls

/-! ## The syntax elements -/

structure OffsetSyntax where
  ccsao_offset_abs : UvlcCode
  ccsao_offset_sign : Bool
  deriving Inhabited

/-- `ccsao_setType` with what follows it. -/
inductive BandSyntax where
  | edge (ccsao_cand_pos_y ccsao_band_num_y ccsao_band_num_c : ℕ)
  | band (ccsao_cand_pos_y ccsao_band_num_y ccsao_band_num_u ccsao_band_num_v : ℕ)
  deriving Inhabited

structure SetSyntax where
  bands : BandSyntax
  offset : ℕ → OffsetSyntax
  deriving Inhabited

structure CompSyntax where
  ccsao_set_num : UvlcCode
  sets : ℕ → SetSyntax

/-- The flags, and for each component that is enabled its sets. -/
structure ParamSyntax where
  enabled : ComponentID → Bool
  comp : ComponentID → CompSyntax

namespace OffsetSyntax

def Fits (k : OffsetSyntax) : Prop := k.ccsao_offset_abs.Fits

def bits (k : OffsetSyntax) : List Bool :=
  k.ccsao_offset_abs.bits ++ if i16 k.ccsao_offset_abs.value ≠ 0 then [k.ccsao_offset_sign] else []

def value (k : OffsetSyntax) : ℤ :=
  if i16 k.ccsao_offset_abs.value ≠ 0 ∧ k.ccsao_offset_sign then i16 (-i16 k.ccsao_offset_abs.value)
  else i16 k.ccsao_offset_abs.value

end OffsetSyntax

namespace BandSyntax

def Fits : BandSyntax → Prop
  | edge candPosY bandNumY bandNumC => candPosY < 2 ^ 2 ∧ bandNumY < 2 ^ 3 ∧ bandNumC < 2 ^ 4
  | band candPosY bandNumY bandNumU bandNumV =>
    candPosY < 2 ^ 4 ∧ bandNumY < 2 ^ 4 ∧ bandNumU < 2 ^ 2 ∧ bandNumV < 2 ^ 2

def bits : BandSyntax → List Bool
  | edge candPosY bandNumY bandNumC => true :: (toBits 2 candPosY ++ (toBits 3 bandNumY ++ toBits 4 bandNumC))
  | band candPosY bandNumY bandNumU bandNumV =>
    false :: (toBits 4 candPosY ++ (toBits 4 bandNumY ++ (toBits 2 bandNumU ++ toBits 2 bandNumV)))

def value : BandSyntax → CcSaoSet
  | edge candPosY bandNumY bandNumC => { CcSaoSet.reset with
      setEnabled := true, setType := true, candPosY, bandNumY := bandNumY + 1, bandNumCb := bandNumC + 1 }
  | band candPosY bandNumY bandNumU bandNumV => { CcSaoSet.reset with
      setEnabled := true, candPosY, bandNumY := bandNumY + 1, bandNumCb := bandNumU + 1,
      bandNumCr := bandNumV + 1 }

/-- The classes have room: those of edges always, those of bands if they are few. -/
def InBounds : BandSyntax → Prop
  | edge _ _ _ => True
  | band _ bandNumY bandNumU bandNumV =>
    (bandNumY + 1) * (bandNumU + 1) * (bandNumV + 1) ≤ MAX_CCSAO_CLASS_NUM

end BandSyntax

namespace SetSyntax

def classNum (k : SetSyntax) : ℕ := k.bands.value.classNum

def Fits (k : SetSyntax) : Prop := k.bands.Fits ∧ ∀ i < k.classNum, (k.offset i).Fits

def bits (k : SetSyntax) : List Bool :=
  k.bands.bits ++ (List.range k.classNum).flatMap fun i => (k.offset i).bits

def value (k : SetSyntax) : CcSaoSet :=
  { k.bands.value with offset := fun i => if i < k.classNum then (k.offset i).value else 0 }

end SetSyntax

namespace CompSyntax

/-- The number of sets, in eight bits. -/
def setNum (k : CompSyntax) : ℕ := (k.ccsao_set_num.value + 1) % 2 ^ 8

def Fits (k : CompSyntax) : Prop := k.ccsao_set_num.Fits ∧ ∀ i < k.setNum, (k.sets i).Fits

def bits (k : CompSyntax) : List Bool :=
  k.ccsao_set_num.bits ++ (List.range k.setNum).flatMap fun i => (k.sets i).bits

def value (k : CompSyntax) : CcSaoComp where
  enabled := true
  setNum := k.setNum
  sets i := if i < k.setNum then (k.sets i).value else CcSaoSet.reset

/-- There are at most as many sets as the array has, and each set has room for its classes. -/
def InBounds (k : CompSyntax) : Prop :=
  k.setNum ≤ MAX_CCSAO_SET_NUM ∧ ∀ i < k.setNum, (k.sets i).bands.InBounds

end CompSyntax

namespace ParamSyntax

/-- Without the flag of the SPS nothing is there. -/
def Fits (on : Bool) (k : ParamSyntax) : Prop :=
  ∀ c, k.enabled c = true → on = true ∧ (k.comp c).Fits

def flagBits (on : Bool) (k : ParamSyntax) : List Bool :=
  if on then [k.enabled .Y, k.enabled .Cb, k.enabled .Cr] else []

def compBits (k : ParamSyntax) (c : ComponentID) : List Bool :=
  if k.enabled c then (k.comp c).bits else []

def bits (on : Bool) (k : ParamSyntax) : List Bool :=
  k.flagBits on ++ (k.compBits .Y ++ (k.compBits .Cb ++ k.compBits .Cr))

def value (k : ParamSyntax) : CcSaoComParam := fun c =>
  if k.enabled c then (k.comp c).value else CcSaoComp.reset

def InBounds (k : ParamSyntax) : Prop := ∀ c, k.enabled c = true → (k.comp c).InBounds

end ParamSyntax

/-- The sets of the components that are enabled, and their classes, are inside the arrays. -/
def InBounds (p : CcSaoComParam) : Prop :=
  ∀ c, (p c).enabled = true → (p c).setNum ≤ MAX_CCSAO_SET_NUM ∧
    ∀ i < (p c).setNum, ((p c).sets i).classNum ≤ MAX_CCSAO_CLASS_NUM

/-! ## Bounds of the syntax are bounds of the parameters -/

/-- An edge set has room for its classes, whatever its second band number. -/
theorem classNum_edge_le {set : CcSaoSet} (htype : set.setType = true) (hy : set.bandNumY ≤ 8) :
    set.classNum ≤ MAX_CCSAO_CLASS_NUM := by
  rw [CcSaoSet.classNum, if_pos htype]
  by_cases h4 : set.bandNumY ≤ CCSAO_EDGE_COMPARE_VALUE + CCSAO_EDGE_COMPARE_VALUE
  · rw [if_pos h4]
    exact Nat.mul_le_mul_right CCSAO_EDGE_NUM h4
  · rw [if_neg h4]
    have h6 : set.bandNumY - 4 ≤ 4 ∧ set.bandNumY - 6 ≤ 4 := by omega
    by_cases h : set.bandNumY ≤ CCSAO_EDGE_COMPARE_VALUE + CCSAO_EDGE_COMPARE_VALUE + CCSAO_EDGE_COMPARE_VALUE
    · rw [if_pos h]
      exact Nat.mul_le_mul_right CCSAO_EDGE_NUM h6.1
    · have h8 : set.bandNumY ≤ CCSAO_EDGE_COMPARE_VALUE + CCSAO_EDGE_COMPARE_VALUE + CCSAO_EDGE_COMPARE_VALUE +
        CCSAO_EDGE_COMPARE_VALUE := hy
      rw [if_neg h, if_pos h8]
      exact Nat.mul_le_mul_right CCSAO_EDGE_NUM h6.2

theorem BandSyntax.inBounds_iff {k : BandSyntax} (hk : k.Fits) :
    k.value.classNum ≤ MAX_CCSAO_CLASS_NUM ↔ k.InBounds := by
  cases k with
  | edge p y c => exact iff_of_true (classNum_edge_le rfl hk.2.1) trivial
  | band p y u v => exact Iff.rfl

theorem CompSyntax.inBounds_iff {k : CompSyntax} (hk : k.Fits) :
    (k.value.setNum ≤ MAX_CCSAO_SET_NUM ∧
      ∀ i < k.value.setNum, (k.value.sets i).classNum ≤ MAX_CCSAO_CLASS_NUM) ↔ k.InBounds := by
  refine and_congr_right fun _ => forall₂_congr fun i hi => ?_
  have hsets : (k.value.sets i).classNum = (k.sets i).bands.value.classNum := by
    have hi : i < k.setNum := hi
    simp only [CompSyntax.value, if_pos hi]
    rfl
  rw [hsets]
  exact BandSyntax.inBounds_iff (hk.2 i hi).1

theorem ParamSyntax.inBounds_iff {on : Bool} {k : ParamSyntax} (hk : k.Fits on) :
    CcSaoSyntax.InBounds k.value ↔ k.InBounds := by
  refine forall_congr' fun c => ?_
  cases he : k.enabled c with
  | false => simp [ParamSyntax.value, he, CcSaoComp.reset]
  | true =>
    have hvalue : k.value c = (k.comp c).value := by simp [ParamSyntax.value, he]
    rw [hvalue, ← CompSyntax.inBounds_iff (hk c he).2]
    simp [CompSyntax.value]

/-! ## What the reader accepts -/

theorem grammar_offset :
    Grammar parseCcSaoOffset OffsetSyntax.Fits OffsetSyntax.bits OffsetSyntax.value where
  reads := by
    rintro ⟨abs, sign⟩ hk
    refine reads_bind (grammar_uvlc.reads abs hk) ?_
    rw [OffsetSyntax.value]
    by_cases hzero : i16 abs.value ≠ 0
    · rw [if_pos hzero, if_pos hzero]
      have hsign := (reads_flag sign).map fun sign => if sign then i16 (-i16 abs.value) else i16 abs.value
      simpa only [hzero, ne_eq, not_false_eq_true, true_and] using hsign
    · rw [if_neg hzero, if_neg hzero, if_neg fun h => hzero h.1]
      exact reads_pure _
  parses := by
    intro s v s' hs hrun
    obtain ⟨⟨uiCode, s₁⟩, habs, hrun⟩ := bind_eq_ok hrun
    obtain ⟨hs₁, abs, hfits, hunread, rfl⟩ := grammar_uvlc.parses s uiCode s₁ hs habs
    dsimp only at hrun
    by_cases hzero : i16 abs.value ≠ 0
    · rw [if_pos hzero] at hrun
      obtain ⟨⟨b, s₂⟩, hsign, hrun⟩ := bind_eq_ok hrun
      obtain ⟨hs₂, sign, -, hunread₂, rfl⟩ := grammar_flag.parses s₁ b s₂ hs₁ hsign
      cases hrun
      refine ⟨hs₂, ⟨abs, sign⟩, hfits, ?_, ?_⟩
      · rw [hunread, hunread₂, OffsetSyntax.bits, if_pos hzero, List.append_assoc]
      · simp [OffsetSyntax.value, hzero]
    · rw [if_neg hzero] at hrun
      obtain ⟨rfl, rfl⟩ := Prod.mk.inj (Except.ok.inj hrun)
      refine ⟨hs₁, ⟨abs, false⟩, hfits, ?_, ?_⟩
      · rw [hunread, OffsetSyntax.bits, if_neg hzero, List.append_nil]
      · rw [OffsetSyntax.value, if_neg fun h => hzero h.1]

theorem grammar_bands : Grammar parseCcSaoBands BandSyntax.Fits BandSyntax.bits BandSyntax.value := by
  have hedge : Grammar parseCcSaoEdge _ _ _ :=
    grammar_bind (grammar_code (by decide) (by decide)) fun p _ =>
      grammar_bind (grammar_code (by decide) (by decide)) fun y _ =>
        (grammar_code (by decide) (by decide)).map fun c => (BandSyntax.edge p y c).value
  have hband : Grammar parseCcSaoBand _ _ _ :=
    grammar_bind (grammar_code (by decide) (by decide)) fun p _ =>
      grammar_bind (grammar_code (by decide) (by decide)) fun y _ =>
        grammar_bind (grammar_code (by decide) (by decide)) fun u _ =>
          (grammar_code (by decide) (by decide)).map fun v => (BandSyntax.band p y u v).value
  refine (grammar_choice hedge hband).rename (fun m hm => ?_) fun k hk => ?_
  · cases m with
    | edge p y c => exact ⟨.inl (p, y, c), hm, rfl, rfl⟩
    | band p y u v => exact ⟨.inr (p, y, u, v), hm, rfl, rfl⟩
  · cases k with
    | inl k => exact ⟨.edge k.1 k.2.1 k.2.2, hk, rfl, rfl⟩
    | inr k => exact ⟨.band k.1 k.2.1 k.2.2.1 k.2.2.2, hk, rfl, rfl⟩

/-- The offsets that the loop over the classes leaves. -/
def roundsOffset (k : SetSyntax) : ℕ → ℤ :=
  rounds (fun i offset (k : OffsetSyntax) => Function.update offset i k.value) k.bands.value.offset k.offset
    k.classNum

theorem value_eq_rounds (k : SetSyntax) : { k.bands.value with offset := roundsOffset k } = k.value := by
  have hoffset : roundsOffset k = k.value.offset := by
    funext i
    rw [roundsOffset, rounds_update]
    cases k.bands <;> rfl
  rw [hoffset]
  rfl

theorem grammar_set : Grammar parseCcSaoSet SetSyntax.Fits SetSyntax.bits SetSyntax.value := by
  have hset : Grammar parseCcSaoSet _ _ _ :=
    grammar_bind grammar_bands fun k _ =>
      (grammar_loop k.value.classNum k.value.offset fun i offset =>
        grammar_offset.map fun v => Function.update offset i v).map fun offset => { k.value with offset }
  refine hset.rename (fun m hm => ⟨(m.bands, m.offset), hm, rfl, value_eq_rounds m⟩) fun k hk => ?_
  exact ⟨⟨k.1, k.2⟩, hk, rfl, (value_eq_rounds ⟨k.1, k.2⟩).symm⟩

theorem grammar_comp : Grammar (parseCcSaoComp true) CompSyntax.Fits CompSyntax.bits CompSyntax.value := by
  have hcomp : Grammar (parseCcSaoComp true) _ _ _ :=
    grammar_bind grammar_uvlc fun k _ =>
      (grammar_loop ((k.value + 1) % 2 ^ 8) CcSaoComp.reset.sets fun setIdx sets =>
        grammar_set.map fun set => Function.update sets setIdx set).map fun sets =>
          (⟨true, (k.value + 1) % 2 ^ 8, sets⟩ : CcSaoComp)
  have hvalue : ∀ k : CompSyntax, (⟨true, k.setNum, rounds (fun setIdx sets (k : SetSyntax) =>
      Function.update sets setIdx k.value) CcSaoComp.reset.sets k.sets k.setNum⟩ : CcSaoComp) = k.value := by
    intro k
    rw [CompSyntax.value]
    congr 1
    funext i
    exact rounds_update _ i
  refine hcomp.rename (fun m hm => ⟨(m.ccsao_set_num, m.sets), hm, rfl, hvalue m⟩) fun k hk => ?_
  exact ⟨⟨k.1, k.2⟩, hk, rfl, (hvalue ⟨k.1, k.2⟩).symm⟩

/-- A component that is not enabled has no syntax. -/
theorem grammar_compIf (enabled : Bool) :
    Grammar (parseCcSaoComp enabled) (fun k : CompSyntax => enabled = true → k.Fits)
      (fun k => if enabled then k.bits else []) fun k => if enabled then k.value else CcSaoComp.reset := by
  cases enabled with
  | true =>
    exact grammar_comp.rename (fun m hm => ⟨m, hm rfl, rfl, rfl⟩) fun k hk => ⟨k, fun _ => hk, rfl, rfl⟩
  | false =>
    refine (grammar_pure CcSaoComp.reset).rename (fun m _ => ⟨(), trivial, rfl, rfl⟩) fun _ _ => ?_
    exact ⟨⟨default, default⟩, fun h => absurd h Bool.false_ne_true, rfl, rfl⟩

def byComponent {α : Type} (y cb cr : α) : ComponentID → α
  | .Y => y
  | .Cb => cb
  | .Cr => cr

theorem grammar_flags (on : Bool) :
    Grammar (parseCcSaoFlags on) (fun e : ComponentID → Bool => ∀ c, e c = true → on = true)
      (fun e => if on then [e .Y, e .Cb, e .Cr] else []) fun e => e := by
  cases on with
  | true =>
    have hflags : Grammar (parseCcSaoFlags true) _ _ _ :=
      grammar_bind grammar_flag fun y _ => grammar_bind grammar_flag fun cb _ =>
        grammar_flag.map fun cr => byComponent y cb cr
    refine hflags.rename (fun e _ => ⟨(e .Y, e .Cb, e .Cr), ⟨trivial, trivial, trivial⟩, rfl, ?_⟩)
      fun k _ => ⟨_, fun _ _ => rfl, rfl, rfl⟩
    funext c
    cases c <;> rfl
  | false =>
    refine (grammar_pure fun _ => false).rename (fun e he => ⟨(), trivial, rfl, ?_⟩) fun _ _ => ?_
    · funext c
      cases hc : e c with
      | false => rfl
      | true => exact absurd (he c hc) Bool.false_ne_true
    · exact ⟨fun _ => false, fun c hc => absurd hc Bool.false_ne_true, rfl, rfl⟩

theorem grammar_param (on : Bool) :
    Grammar (parseCcSao on) (ParamSyntax.Fits on) (ParamSyntax.bits on) ParamSyntax.value := by
  have hparam : Grammar (parseCcSao on) _ _ _ :=
    grammar_bind (grammar_flags on) fun e _ =>
      grammar_bind (grammar_compIf (e .Y)) fun y _ => grammar_bind (grammar_compIf (e .Cb)) fun cb _ =>
        (grammar_compIf (e .Cr)).map fun cr => byComponent (if e .Y then y.value else CcSaoComp.reset)
          (if e .Cb then cb.value else CcSaoComp.reset) cr
  refine hparam.rename (fun m hm => ?_) fun k hk => ?_
  · refine ⟨(m.enabled, m.comp .Y, m.comp .Cb, m.comp .Cr), ⟨fun c hc => (hm c hc).1,
      fun h => (hm _ h).2, fun h => (hm _ h).2, fun h => (hm _ h).2⟩, rfl, ?_⟩
    funext c
    cases c <;> rfl
  · obtain ⟨e, y, cb, cr⟩ := k
    obtain ⟨hon, hy, hcb, hcr⟩ := hk
    refine ⟨⟨e, byComponent y cb cr⟩, fun c hc => ⟨hon c hc, ?_⟩, rfl, ?_⟩
    · cases c with
      | Y => exact hy hc
      | Cb => exact hcb hc
      | Cr => exact hcr hc
    · funext c
      cases c <;> rfl

/-! ## What the writer accepts comes back -/

/-- A set as it is read back: an edge set has no third band number. -/
structure SetRestored (a b : CcSaoSet) : Prop where
  setEnabled : b.setEnabled = true
  setType : b.setType = a.setType
  candPosY : b.candPosY = a.candPosY
  bandNumY : b.bandNumY = a.bandNumY
  bandNumCb : b.bandNumCb = a.bandNumCb
  bandNumCr : a.setType = false → b.bandNumCr = a.bandNumCr
  classNum : b.classNum = a.classNum
  offset : ∀ i < a.classNum, b.offset i = a.offset i

/-- A component that is enabled as it is read back. -/
structure CompRestored (a b : CcSaoComp) : Prop where
  enabled : b.enabled = a.enabled
  setNum : a.enabled = true → b.setNum = a.setNum
  sets : a.enabled = true → ∀ i < a.setNum, SetRestored (a.sets i) (b.sets i)

theorem i16_of_small {v : ℤ} (hlow : -15 ≤ v) (hhigh : v ≤ 15) : i16 v = v := by
  rw [i16]
  omega

theorem offset_roundTrips (set : CcSaoSet) (i : ℕ) :
    RoundTrips False (codeCcSaoOffset set i) parseCcSaoOffset fun _ v => v = set.offset i := by
  refine roundTrips_lift_left (fun _ _ => not_false) fun offset hoffset => ?_
  obtain rfl : set.offset i = offset := by
    obtain ⟨-, -, hoffset⟩ := bind_eq_ok hoffset
    exact Except.ok.inj hoffset
  refine roundTrips_check (fun _ => not_false) fun hthr => ?_
  obtain ⟨hhigh, hlow⟩ : set.offset i ≤ 15 ∧ -15 ≤ set.offset i := by
    rw [not_or, not_lt, not_lt] at hthr
    exact hthr
  refine roundTrips_bind (roundTrips_uvlc (by omega)) fun _ u hu => ?_
  subst hu
  have habs : i16 ((set.offset i).natAbs : ℤ) = (set.offset i).natAbs := i16_of_small (by omega) (by omega)
  rw [habs]
  refine roundTrips_ite (by omega) (fun hne => ?_) fun heq => ?_
  · refine (roundTrips_flag _).then_right fun _ sign hsign => ⟨_, rfl, ?_⟩
    by_cases hneg : set.offset i < 0
    · rw [hsign, if_pos (decide_eq_true hneg), i16_of_small (by omega) (by omega)]
      omega
    · rw [hsign, if_neg (by rwa [decide_eq_true_eq])]
      omega
  · exact roundTrips_pure (by omega)

/-- The bands of a set as they are read, before its offsets. -/
def bandsOf (set : CcSaoSet) : CcSaoSet :=
  { set with setEnabled := true, bandNumCr := if set.setType then 0 else set.bandNumCr, offset := fun _ => 0 }

theorem edge_roundTrips {set : CcSaoSet} (htype : set.setType = true) :
    RoundTrips False (codeCcSaoEdge set) parseCcSaoEdge
      fun _ b => b = bandsOf set ∧ b.classNum = set.classNum := by
  refine roundTrips_check (fun _ => not_false) fun hpos => ?_
  refine roundTrips_check (fun _ => not_false) fun hy => ?_
  refine roundTrips_check (fun _ => not_false) fun hc => ?_
  simp only [CCSAO_EDGE_TYPE, CCSAO_EDGE_BAND_NUM_Y, CCSAO_EDGE_BAND_NUM_C, CCSAO_QUAN_NUM] at hpos hy hc
  refine roundTrips_bind (roundTrips_code (by decide) (by decide) (Nat.lt_of_not_ge hpos)) fun _ p hp => ?_
  have hy8 : set.bandNumY - 1 < 2 ^ 3 := by omega
  refine roundTrips_bind (roundTrips_code (by decide) (by decide) hy8) fun _ y hy' => ?_
  have hc16 : set.bandNumCb - 1 < 2 ^ 4 := by omega
  refine (roundTrips_code (by decide) (by decide) hc16).then_right fun _ c hc' => ⟨_, rfl, ?_⟩
  have hbands : (BandSyntax.edge p y c).value = bandsOf set := by
    rw [BandSyntax.value, bandsOf, htype, hp, hy', hc', Nat.sub_add_cancel (by omega),
      Nat.sub_add_cancel (by omega)]
    rfl
  refine ⟨hbands, ?_⟩
  have hlast : set.bandNumY ≤ CCSAO_EDGE_COMPARE_VALUE + CCSAO_EDGE_COMPARE_VALUE + CCSAO_EDGE_COMPARE_VALUE +
      CCSAO_EDGE_COMPARE_VALUE := by
    rw [not_or, not_lt] at hy
    exact hy.2
  change (BandSyntax.edge p y c).value.classNum = _
  rw [hbands, CcSaoSet.classNum, CcSaoSet.classNum]
  simp only [bandsOf, htype, if_true, if_pos hlast]

theorem band_roundTrips {set : CcSaoSet} (htype : set.setType = false) :
    RoundTrips False (codeCcSaoBand set) parseCcSaoBand
      fun _ b => b = bandsOf set ∧ b.classNum = set.classNum := by
  refine roundTrips_check (fun _ => not_false) fun hpos => ?_
  refine roundTrips_check (fun _ => not_false) fun hy => ?_
  refine roundTrips_check (fun _ => not_false) fun hu => ?_
  refine roundTrips_check (fun _ => not_false) fun hv => ?_
  simp only [MAX_CCSAO_CAND_POS_Y, MAX_CCSAO_BAND_NUM_Y, MAX_CCSAO_BAND_NUM_U, MAX_CCSAO_BAND_NUM_V]
    at hpos hy hu hv
  have hpos16 : set.candPosY < 2 ^ 4 := by omega
  refine roundTrips_bind (roundTrips_code (by decide) (by decide) hpos16) fun _ p hp => ?_
  have hy16 : set.bandNumY - 1 < 2 ^ 4 := by omega
  refine roundTrips_bind (roundTrips_code (by decide) (by decide) hy16) fun _ y hy' => ?_
  have hu4 : set.bandNumCb - 1 < 2 ^ 2 := by omega
  refine roundTrips_bind (roundTrips_code (by decide) (by decide) hu4) fun _ u hu' => ?_
  have hv4 : set.bandNumCr - 1 < 2 ^ 2 := by omega
  refine (roundTrips_code (by decide) (by decide) hv4).then_right fun _ v hv' => ⟨_, rfl, ?_⟩
  have hbands : (BandSyntax.band p y u v).value = bandsOf set := by
    rw [BandSyntax.value, bandsOf, htype, hp, hy', hu', hv', Nat.sub_add_cancel (by omega),
      Nat.sub_add_cancel (by omega), Nat.sub_add_cancel (by omega)]
    rfl
  refine ⟨hbands, ?_⟩
  change (BandSyntax.band p y u v).value.classNum = _
  rw [hbands, CcSaoSet.classNum, CcSaoSet.classNum]
  simp only [bandsOf, htype, Bool.false_eq_true, if_false]

theorem bands_roundTrips (set : CcSaoSet) : RoundTrips False (codeCcSaoBands set) parseCcSaoBands
    fun _ b => b = bandsOf set ∧ b.classNum = set.classNum := by
  refine roundTrips_bind (roundTrips_flag _) fun _ b hb => ?_
  subst hb
  exact roundTrips_ite Iff.rfl edge_roundTrips fun h => band_roundTrips (Bool.eq_false_of_not_eq_true h)

theorem set_roundTrips (set : CcSaoSet) :
    RoundTrips False (codeCcSaoSet set) parseCcSaoSet fun _ b => SetRestored set b := by
  refine roundTrips_bind (bands_roundTrips set) fun _ b hb => ?_
  obtain ⟨rfl, hclass⟩ := hb
  rw [hclass]
  have hoffsets : RoundTrips False (loop (fun i _ => codeCcSaoOffset set i) set.classNum ())
      (loop (fun i offset => do
        let v ← parseCcSaoOffset
        return Function.update offset i v) set.classNum (bandsOf set).offset)
      fun _ offset => ∀ i < set.classNum, offset i = set.offset i := by
    refine roundTrips_loop (P := fun n _ (offset : ℕ → ℤ) =>
      ∀ i < n, offset i = set.offset i)
      (fun i hi => absurd hi (Nat.not_lt_zero i)) fun n _ _ offset hoffset => ?_
    refine (offset_roundTrips set n).then_right fun _ v hv => ⟨_, rfl, fun i hi => ?_⟩
    by_cases hin : i = n
    · rw [hin, Function.update_self, hv]
    · rw [Function.update_of_ne hin]
      exact hoffset i (by omega)
  refine hoffsets.then_right fun _ offset hoffset => ⟨_, rfl, ?_⟩
  refine ⟨rfl, rfl, rfl, rfl, rfl, fun h => ?_, hclass, hoffset⟩
  simp [bandsOf, h]

theorem comp_roundTrips (comp : CcSaoComp) :
    RoundTrips False (codeCcSaoComp comp) (parseCcSaoComp comp.enabled) fun _ b => CompRestored comp b := by
  refine roundTrips_ite Iff.rfl (fun hon => ?_) fun hoff => ?_
  · refine roundTrips_check (fun _ => not_false) fun hnum => ?_
    obtain ⟨hpos, hle⟩ : 0 < comp.setNum ∧ comp.setNum ≤ 4 := by
      simp only [MAX_CCSAO_SET_NUM] at hnum
      omega
    refine roundTrips_bind (roundTrips_uvlc (by omega)) fun _ u hu => ?_
    have hsetNum : (u + 1) % 2 ^ 8 = comp.setNum := by omega
    rw [hsetNum]
    have hsets : RoundTrips False (loop (fun setIdx _ => codeCcSaoSet (comp.sets setIdx)) comp.setNum ())
        (loop (fun setIdx sets => do
          let set ← parseCcSaoSet
          return Function.update sets setIdx set) comp.setNum CcSaoComp.reset.sets)
        fun _ sets => ∀ i < comp.setNum, SetRestored (comp.sets i) (sets i) := by
      refine roundTrips_loop (P := fun n _ (sets : ℕ → CcSaoSet) =>
        ∀ i < n, SetRestored (comp.sets i) (sets i))
        (fun i hi => absurd hi (Nat.not_lt_zero i)) fun n _ _ sets hsets => ?_
      refine (set_roundTrips (comp.sets n)).then_right fun _ set hset => ⟨_, rfl, fun i hi => ?_⟩
      by_cases hin : i = n
      · rw [hin, Function.update_self]
        exact hset
      · rw [Function.update_of_ne hin]
        exact hsets i (by omega)
    exact hsets.then_right fun _ sets hsets => ⟨_, rfl, rfl, fun _ => rfl, fun _ => hsets⟩
  · exact roundTrips_pure ⟨(Bool.eq_false_of_not_eq_true hoff).symm, fun h => absurd h hoff, fun h => absurd h hoff⟩

/-- Without the flag of the SPS no component is enabled. -/
theorem param_roundTrips (on : Bool) (p : CcSaoComParam) :
    RoundTrips False (codeCcSao on p) (parseCcSao on) fun _ q =>
      (on = false → ∀ c, (q c).enabled = false) ∧ (on = true → ∀ c, CompRestored (p c) (q c)) := by
  cases on with
  | false => exact roundTrips_pure ⟨fun _ c => by cases c <;> rfl, fun h => absurd h Bool.false_ne_true⟩
  | true =>
    have hflags : RoundTrips False (codeCcSaoFlags p) (parseCcSaoFlags true)
        fun _ e => ∀ c, e c = (p c).enabled := by
      refine roundTrips_bind (roundTrips_flag _) fun _ y hy => ?_
      refine roundTrips_bind (roundTrips_flag _) fun _ cb hcb => ?_
      refine (roundTrips_flag _).then_right fun _ cr hcr => ⟨_, rfl, fun c => ?_⟩
      cases c with
      | Y => exact hy
      | Cb => exact hcb
      | Cr => exact hcr
    refine roundTrips_bind hflags fun _ e he => ?_
    rw [he .Y, he .Cb, he .Cr]
    refine roundTrips_bind (comp_roundTrips _) fun _ y hy => ?_
    refine roundTrips_bind (comp_roundTrips _) fun _ cb hcb => ?_
    refine (comp_roundTrips _).then_right fun _ cr hcr => ⟨_, rfl, fun h => absurd h.symm Bool.false_ne_true,
      fun _ c => ?_⟩
    cases c with
    | Y => exact hy
    | Cb => exact hcb
    | Cr => exact hcr

/-- Parameters that the writer accepts come back. What is read from a stream stays inside
the arrays if and only if the sets of each component that is enabled in the stream are at
most four and the product of the band numbers of each of its band sets is at most 64. -/
theorem ccSao_inBounds_iff (on : Bool) :
    (∀ p : CcSaoComParam, RoundTrips False (codeCcSao on p) (parseCcSao on) fun _ q =>
      (on = false → ∀ c, (q c).enabled = false) ∧ (on = true → ∀ c, CompRestored (p c) (q c))) ∧
    ∀ s : InputBitstream, DecoderLib.VLCReader.InOrder s →
      ((∀ q s', parseCcSao on s = .ok (q, s') → InBounds q) ↔
        ∀ (k : ParamSyntax) (rest : List Bool), k.Fits on → s.unread = k.bits on ++ rest → k.InBounds) := by
  refine ⟨param_roundTrips on, fun s hs => ?_⟩
  rw [(grammar_param on).results_iff hs]
  refine forall_congr' fun k => forall_congr' fun rest => forall₂_congr fun hk _ => ?_
  exact ParamSyntax.inBounds_iff hk

/-! ## Inside and beyond the arrays -/

/-- `ue(v)` of zero. -/
def zeroCode : UvlcCode := ⟨0, 0⟩

/-- Luma has sets like `bands`, all offsets of which are zero. -/
def zeroOffsets (setNum : UvlcCode) (bands : BandSyntax) : ParamSyntax where
  enabled c := decide (c = .Y)
  comp _ := ⟨setNum, fun _ => ⟨bands, fun _ => ⟨zeroCode, false⟩⟩⟩

/-- Some stream gives what stands in the syntax. -/
theorem exists_parse {setNum : UvlcCode} {bands : BandSyntax} (hnum : setNum.Fits) (hbands : bands.Fits) :
    ∃ s s', DecoderLib.VLCReader.InOrder s ∧
      parseCcSao true s = .ok ((zeroOffsets setNum bands).value, s') := by
  have hfits : (zeroOffsets setNum bands).Fits true := fun _ _ =>
    ⟨rfl, hnum, fun _ _ => ⟨hbands, fun _ _ => ⟨Nat.zero_le 32, Nat.zero_lt_one⟩⟩⟩
  obtain ⟨fifo, rest, hat⟩ := exists_stream ((zeroOffsets setNum bands).bits true)
  obtain ⟨s', hs', -⟩ := (grammar_param true).reads _ hfits _ _ _ _ hat
  exact ⟨_, s', ⟨hat.few, hat.inside⟩, hs'⟩

/-- One set of edges is inside. -/
theorem ccSao_oneSet : ∃ s s', DecoderLib.VLCReader.InOrder s ∧
    parseCcSao true s = .ok ((zeroOffsets zeroCode (.edge 0 0 0)).value, s') ∧
    ∀ (k : ParamSyntax) (rest : List Bool), k.Fits true → s.unread = k.bits true ++ rest → k.InBounds := by
  obtain ⟨s, s', hs, hrun⟩ := @exists_parse zeroCode (.edge 0 0 0)
    ⟨by decide, by decide⟩ ⟨by decide, by decide, by decide⟩
  refine ⟨s, s', hs, hrun, ((ccSao_inBounds_iff true).2 s hs).mp fun q t hq => ?_⟩
  rw [hrun] at hq
  cases hq
  intro c hc
  cases c with
  | Y => decide
  | Cb => cases hc
  | Cr => cases hc

/-- Five sets of edges, and a set with 16, four and four bands. -/
theorem ccSao_outside :
    (¬∀ s q s', DecoderLib.VLCReader.InOrder s → parseCcSao true s = .ok (q, s') →
      ∀ c, (q c).enabled = true → (q c).setNum ≤ MAX_CCSAO_SET_NUM) ∧
    ¬∀ s q s', DecoderLib.VLCReader.InOrder s → parseCcSao true s = .ok (q, s') →
      ∀ c, (q c).enabled = true → ∀ i < (q c).setNum, ((q c).sets i).classNum ≤ MAX_CCSAO_CLASS_NUM := by
  constructor
  · intro h
    obtain ⟨s, s', hs, hrun⟩ := @exists_parse ⟨2, 1⟩ (.edge 0 0 0)
      ⟨by decide, by decide⟩ ⟨by decide, by decide, by decide⟩
    exact absurd (h s _ s' hs hrun .Y rfl) (by decide)
  · intro h
    obtain ⟨s, s', hs, hrun⟩ := @exists_parse zeroCode (.band 0 15 3 3)
      ⟨by decide, by decide⟩ ⟨by decide, by decide, by decide, by decide⟩
    exact absurd (h s _ s' hs hrun .Y rfl 0 (by decide)) (by decide)

end ECM.Hls.CcSaoSyntax
