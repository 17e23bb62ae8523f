import ECM.Cabac.RangeInvariant

/-! # Probability states and ranges that are reached

A model is initialised, adapted, and reloaded from saved states. Its states stay
15-bit numbers, and both parts that it splits a range into are non-empty, for all
ranges that the encoder or the decoder comes to. -/

namespace ECM.Cabac
open CommonLib CommonLib.BitStream CommonLib.Contexts CommonLib.BinInterval
open EncoderLib DecoderLib Lib.IntervalCoder

/-! ## Models -/

/-- The models of a store at any time: `setLog2WindowSize` throws when the second rate
is above 9, and states and weights are loaded from other models. -/
inductive ModelReachable : BinProbModel → Prop
  | init {m m' : BinProbModel} {log2WindowSize : ℕ} (qp : ℤ) (initId rateOffset0 rateOffset1 : ℕ) {weight : ℕ} :
      (m.init qp initId).setLog2WindowSize log2WindowSize = .ok m' →
      weight >>> 3 ≤ 4 → weight &&& 7 ≤ 4 →
      ModelReachable (((m'.setAdaptRateOffset rateOffset0 false).setAdaptRateOffset rateOffset1
        true).setAdaptRateWeight weight)
  | update {m : BinProbModel} (bin : Bool) : ModelReachable m → ModelReachable (m.update bin)
  | setState {m saved : BinProbModel} :
      ModelReachable m → ModelReachable saved → ModelReachable (m.setState saved.getState)
  | setAdaptRateWeight {m saved : BinProbModel} :
      ModelReachable m → ModelReachable saved → ModelReachable (m.setAdaptRateWeight saved.weight)
  | setLog2WindowSize {m m' : BinProbModel} {log2WindowSize : ℕ} :
      ModelReachable m → m.setLog2WindowSize log2WindowSize = .ok m' → ModelReachable m'

variable {m m' : BinProbModel}

/-- The window size is in none of the states. -/
theorem setLog2WindowSize_eq {log2WindowSize : ℕ} (h : m.setLog2WindowSize log2WindowSize = .ok m') :
    ∃ rate, m' = { m with rate } := by
  obtain ⟨_, _, h⟩ := bind_eq_ok h
  cases h
  exact ⟨_, rfl⟩

theorem ModelReachable.ok (h : ModelReachable m) : m.Ok := by
  induction h with
  | @init m m' log2WindowSize qp initId rateOffset0 rateOffset1 weight hwindow h0 h1 =>
    obtain ⟨rate, rfl⟩ := setLog2WindowSize_eq hwindow
    obtain ⟨hs0, hs1, hu0, hu1⟩ := m.init_state_le qp initId
    exact ⟨hs0, hs1, hu0, hu1, h0, h1⟩
  | update bin _ ih => exact ih.update bin
  | setState _ _ ih saved =>
    exact ⟨saved.state0_le, saved.state1_le, saved.state0_le, saved.state1_le, ih.weight0_le, ih.weight1_le⟩
  | setAdaptRateWeight _ _ ih saved =>
    exact ⟨ih.state0_le, ih.state1_le, ih.stateUsed0_le, ih.stateUsed1_le, saved.weight0_le, saved.weight1_le⟩
  | setLog2WindowSize _ hwindow ih =>
    obtain ⟨rate, rfl⟩ := setLog2WindowSize_eq hwindow
    exact ⟨ih.state0_le, ih.state1_le, ih.stateUsed0_le, ih.stateUsed1_le, ih.weight0_le, ih.weight1_le⟩

def StoreReachable (ctx : CtxStore) : Prop := ∀ m ∈ ctx, ModelReachable m

theorem StoreReachable.ok {ctx : CtxStore} (h : StoreReachable ctx) : ctx.Ok := fun m hm => (h m hm).ok

/-- `CtxStore::init` writes such models. -/
theorem init_reachable {s s' : CtxStore} {qp : ℤ} {initId : ℕ} (hid : initId < 3)
    (h : s.init qp initId = .ok s') : StoreReachable s' := by
  rw [CtxStore.init_eq hid (CtxStore.init_length hid h)] at h
  intro m hm
  obtain ⟨i, hi⟩ := List.mem_iff_getElem?.mp hm
  obtain ⟨m₀, _, hm₀⟩ := CtxStore.initFrom_getElem? s h hi
  have hok := CtxStore.initModel_ok (weightTables_le hid) hm₀
  obtain ⟨m₁, hm₁, hm₀⟩ := bind_eq_ok hm₀
  cases hm₀
  exact ModelReachable.init _ _ (rateOffset0.getD (0 + i) 0) (rateOffset1.getD (0 + i) 0) hm₁
    hok.weight0_le hok.weight1_le

/-! ## Ranges -/

/-- The ranges of `Ranged`, without an interval. -/
def Bounded (range : ℕ) : Prop := 64 ≤ range ∧ range ≤ 510

theorem bounded_start : Bounded 510 := ⟨by decide, by decide⟩

theorem bounded_align : Bounded 256 := ⟨by decide, by decide⟩

/-- Both parts of a bounded range are non-empty, and renormalised they are bounded. -/
theorem Bounded.split {range : ℕ} (hr : Bounded range) (hm : m.Ok) :
    1 ≤ m.getLPS range ∧ m.getLPS range ≤ 255 ∧ 64 ≤ 2 * (range - m.getLPS range) ∧ m.getLPS range < range :=
  @split_mem ⟨0, range, 0⟩ m ⟨hr.1, hr.2⟩ hm

theorem lps_bounded {range : ℕ} (hr : Bounded range) (hm : m.Ok) :
    Bounded (m.getLPS range * 2 ^ BinProbModel.getRenormBitsLPS (m.getLPS range)) := by
  obtain ⟨h1, h255, _, _⟩ := hr.split hm
  obtain ⟨h64, h510, _⟩ := renormLPS_mem h1 h255
  exact ⟨h64, h510⟩

theorem mps_bounded {range : ℕ} (hr : Bounded range) (hm : m.Ok) :
    (range - m.getLPS range < 256 → Bounded ((range - m.getLPS range) * 2 ^ 1)) ∧
      (¬range - m.getLPS range < 256 → Bounded (range - m.getLPS range)) := by
  obtain ⟨h1, _, hmps, _⟩ := hr.split hm
  have h510 := hr.2
  constructor
  · intro hlow
    exact ⟨by omega, by omega⟩
  · intro hhigh
    exact ⟨by omega, by omega⟩

/-! ## The encoder -/

/-- A step of the encoder that leaves the range and the contexts alone. -/
def EncFrame (e e' : BinEncoder) : Prop := e'.range = e.range ∧ e'.ctx = e.ctx

variable {e e' : BinEncoder} {d d' : BinDecoder}

theorem writeOut_frame (h : e.writeOut = .ok e') : EncFrame e e' := by
  simp only [BinEncoder.writeOut] at h
  split at h
  · cases h
    exact ⟨rfl, rfl⟩
  · split at h
    · obtain ⟨_, _, h⟩ := bind_eq_ok h
      obtain ⟨_, _, h⟩ := bind_eq_ok h
      cases h
      exact ⟨rfl, rfl⟩
    · cases h
      exact ⟨rfl, rfl⟩

theorem writeOutIfFull_frame (h : e.writeOutIfFull = .ok e') : EncFrame e e' := by
  unfold BinEncoder.writeOutIfFull at h
  split at h
  · exact writeOut_frame h
  · cases h
    exact ⟨rfl, rfl⟩

theorem encodeAlignedBinsEP_frame (bins n : ℕ) : ∀ {e e' : BinEncoder},
    e.encodeAlignedBinsEP bins n = .ok e' → EncFrame e e' := by
  induction n using Nat.strongRecOn with
  | ind n ih =>
    intro e e' h
    rw [BinEncoder.encodeAlignedBinsEP] at h
    split at h
    · cases h
      exact ⟨rfl, rfl⟩
    · obtain ⟨e₁, he₁, h⟩ := bind_eq_ok h
      obtain ⟨hrange₁, hctx₁⟩ := writeOutIfFull_frame he₁
      obtain ⟨hrange, hctx⟩ := ih (n - min n 8) (by omega) h
      exact ⟨hrange.trans hrange₁, hctx.trans hctx₁⟩

theorem encodeBinsLoop_frame (n : ℕ) : ∀ {e e' : BinEncoder} {bins : ℕ},
    e.encodeBinsLoop bins n = .ok e' → EncFrame e e' := by
  induction n using Nat.strongRecOn with
  | ind n ih =>
    intro e e' bins h
    rw [BinEncoder.encodeBinsLoop] at h
    split at h
    · obtain ⟨e₁, he₁, h⟩ := bind_eq_ok h
      obtain ⟨hrange₁, hctx₁⟩ := writeOutIfFull_frame he₁
      obtain ⟨hrange, hctx⟩ := ih (n - 8) (by omega) h
      exact ⟨hrange.trans hrange₁, hctx.trans hctx₁⟩
    · obtain ⟨hrange, hctx⟩ := writeOutIfFull_frame h
      exact ⟨hrange, hctx⟩

theorem encodeSplit_bounded (hr : Bounded e.range) (hm : m.Ok) {b : Bool}
    (h : e.encodeSplit b m = .ok e') : Bounded e'.range ∧ e'.ctx = e.ctx := by
  obtain ⟨_, _, _, hlt⟩ := hr.split hm
  obtain ⟨hlow, hhigh⟩ := mps_bounded hr hm
  have hlps := lps_bounded hr hm
  have h510 := hr.2
  simp only [BinEncoder.encodeSplit, sub32_of_le (Nat.le_of_lt hlt) (by omega), BinEncoder.shl,
    Nat.shiftLeft_eq] at h
  split at h
  · obtain ⟨hrange, hctx⟩ := writeOutIfFull_frame h
    refine ⟨?_, hctx⟩
    rw [hrange]
    dsimp only
    rw [u32_of_lt (by have := hlps.2; omega)]
    exact hlps
  · split at h
    · next h256 =>
      obtain ⟨hrange, hctx⟩ := writeOutIfFull_frame h
      refine ⟨?_, hctx⟩
      rw [hrange]
      change Bounded (u32 ((e.range - m.getLPS e.range) * 2 ^ 1))
      rw [u32_of_lt (by omega)]
      exact hlow h256
    · next h256 =>
      cases h
      exact ⟨hhigh h256, rfl⟩

theorem encodeBinTrm_bounded (hr : Bounded e.range) {b : Bool} (h : e.encodeBinTrm b = .ok e') :
    Bounded e'.range ∧ e'.ctx = e.ctx := by
  obtain ⟨h64, h510⟩ := hr
  simp only [BinEncoder.encodeBinTrm, sub32_of_le (show 2 ≤ e.range by omega) (by omega), BinEncoder.shl,
    Nat.shiftLeft_eq] at h
  split at h
  · obtain ⟨hrange, hctx⟩ := writeOutIfFull_frame h
    refine ⟨?_, hctx⟩
    rw [hrange]
    exact ⟨show 64 ≤ 2 * 2 ^ 7 by decide, show 2 * 2 ^ 7 ≤ 510 by decide⟩
  · split at h
    · next h256 =>
      cases h
      exact ⟨⟨by dsimp only; omega, by dsimp only; omega⟩, rfl⟩
    · next h256 =>
      obtain ⟨hrange, hctx⟩ := writeOutIfFull_frame h
      refine ⟨?_, hctx⟩
      rw [hrange]
      dsimp only
      rw [u32_of_lt (by omega)]
      exact ⟨by omega, by omega⟩

theorem encodeOp_bounded {op : BinOp} (hr : Bounded e.range) (hctx : e.ctx.Ok)
    (h : encodeOp e op = .ok e') : Bounded e'.range ∧ e'.ctx.Ok := by
  cases op with
  | bin b ctxId =>
    obtain ⟨e₁, he₁, h⟩ := bind_eq_ok h
    cases h
    exact ⟨(encodeSplit_bounded hr (hctx.model ctxId) he₁).1, hctx.update ctxId b⟩
  | binEP b =>
    obtain ⟨hrange, hctx'⟩ := writeOutIfFull_frame h
    exact ⟨hrange ▸ hr, hctx' ▸ hctx⟩
  | binsEP bins n =>
    have hframe : EncFrame e e' := by
      change BinEncoder.encodeBinsEP e bins n = .ok e' at h
      unfold BinEncoder.encodeBinsEP at h
      split at h
      · exact encodeAlignedBinsEP_frame bins n h
      · exact encodeBinsLoop_frame n h
    exact ⟨hframe.1 ▸ hr, hframe.2 ▸ hctx⟩
  | binTrm b =>
    obtain ⟨hrange, hctx'⟩ := encodeBinTrm_bounded hr h
    exact ⟨hrange, hctx' ▸ hctx⟩

/-! ## The decoder -/

theorem decodeSplit_bounded (hr : Bounded d.range) (hm : m.Ok) {b : ℕ}
    (h : d.decodeSplit m = .ok (b, d')) : Bounded d'.range := by
  obtain ⟨_, _, _, hlt⟩ := hr.split hm
  obtain ⟨hlow, hhigh⟩ := mps_bounded hr hm
  have hlps := lps_bounded hr hm
  have h510 := hr.2
  simp only [BinDecoder.decodeSplit, sub32_of_le (Nat.le_of_lt hlt) (by omega), Nat.shiftLeft_eq] at h
  split at h
  · split at h
    · next h256 =>
      obtain ⟨d₁, hd₁, h⟩ := bind_eq_ok h
      cases h
      rw [(refill_frame hd₁).1]
      change Bounded (u32 ((d.range - m.getLPS d.range) * 2 ^ 1))
      rw [u32_of_lt (by omega)]
      exact hlow h256
    · next h256 =>
      cases h
      exact hhigh h256
  · obtain ⟨d₁, hd₁, h⟩ := bind_eq_ok h
    cases h
    rw [(refill_frame hd₁).1]
    dsimp only
    rw [u32_of_lt (by have := hlps.2; omega)]
    exact hlps

/-- A terminating 1 leaves the range as it is, less the 2 that it takes. -/
theorem decodeBinTrm_bounded (hr : Bounded d.range) {b : Bool} (h : d.decodeBinTrm = .ok (b, d')) :
    (b = true → 62 ≤ d'.range ∧ d'.range ≤ 508) ∧ (b = false → Bounded d'.range) ∧ d'.ctx = d.ctx := by
  obtain ⟨h64, h510⟩ := hr
  simp only [BinDecoder.decodeBinTrm, sub32_of_le (show 2 ≤ d.range by omega) (by omega)] at h
  split at h
  · cases h
    exact ⟨fun _ => ⟨by dsimp only; omega, by dsimp only; omega⟩, Bool.noConfusion, rfl⟩
  · have hdouble : u32 (d.range - 2 + (d.range - 2)) = d.range - 2 + (d.range - 2) := u32_of_lt (by omega)
    split at h
    · split at h
      · obtain ⟨_, _, h⟩ := bind_eq_ok h
        cases h
        exact ⟨Bool.noConfusion, fun _ => ⟨by dsimp only; omega, by dsimp only; omega⟩, rfl⟩
      · cases h
        exact ⟨Bool.noConfusion, fun _ => ⟨by dsimp only; omega, by dsimp only; omega⟩, rfl⟩
    · cases h
      exact ⟨Bool.noConfusion, fun _ => ⟨by dsimp only; omega, by dsimp only; omega⟩, rfl⟩

theorem decodeOp_bounded {k : BinKind} {v : ℕ} (hr : Bounded d.range) (hctx : d.ctx.Ok)
    (h : decodeOp d k = .ok (v, d')) (hlive : k = .binTrm → v = 0) : Bounded d'.range ∧ d'.ctx.Ok := by
  cases k with
  | bin ctxId =>
    obtain ⟨⟨b, d₂⟩, hd₂, h⟩ := bind_eq_ok h
    cases h
    obtain ⟨⟨bin, d₃⟩, hd₃, h⟩ := bind_eq_ok hd₂
    cases h
    have hrange := decodeSplit_bounded hr (hctx.model ctxId) hd₃
    exact ⟨hrange, hctx.update ctxId _⟩
  | binEP =>
    obtain ⟨_, hd₂, h⟩ := bind_eq_ok h
    cases h
    obtain ⟨hrange, hctx'⟩ := decodeBinEP_frame hd₂
    exact ⟨hrange ▸ hr, hctx' ▸ hctx⟩
  | binsEP n =>
    obtain ⟨hrange, hctx'⟩ := decodeBinsEP_frame h
    exact ⟨hrange ▸ hr, hctx' ▸ hctx⟩
  | binTrm =>
    obtain ⟨⟨b, d₂⟩, hd₂, h⟩ := bind_eq_ok h
    cases h
    obtain ⟨_, hzero, hctx'⟩ := decodeBinTrm_bounded hr hd₂
    refine ⟨hzero ?_, hctx' ▸ hctx⟩
    cases b with
    | false => rfl
    | true => exact absurd (hlive rfl) (by decide)

/-! ## Runs -/

/-- An encoder at any time; `align()` sets the range to 256. -/
inductive EncoderReachable : BinEncoder → Prop
  | start {ctx : CtxStore} (bitstream : OutputBitstream) :
      StoreReachable ctx → EncoderReachable (.start ctx bitstream)
  | step {e e' : BinEncoder} {op : BinOp} :
      EncoderReachable e → encodeOp e op = .ok e' → EncoderReachable e'
  | align {e : BinEncoder} : EncoderReachable e → EncoderReachable { e with range := 256 }
  | load {e : BinEncoder} {ctx : CtxStore} :
      EncoderReachable e → StoreReachable ctx → EncoderReachable { e with ctx }

/-- A decoder while it has not come to a terminating 1, after which it is started anew. -/
inductive DecoderReachable : BinDecoder → Prop
  | start {ctx : CtxStore} {bitstream : InputBitstream} {d : BinDecoder} :
      StoreReachable ctx → BinDecoder.start ctx bitstream = .ok d → DecoderReachable d
  | step {d d' : BinDecoder} {k : BinKind} {v : ℕ} :
      DecoderReachable d → decodeOp d k = .ok (v, d') → (k = .binTrm → v = 0) → DecoderReachable d'
  | align {d : BinDecoder} : DecoderReachable d → DecoderReachable { d with range := 256 }
  | load {d : BinDecoder} {ctx : CtxStore} :
      DecoderReachable d → StoreReachable ctx → DecoderReachable { d with ctx }

theorem EncoderReachable.bounded (h : EncoderReachable e) : Bounded e.range ∧ e.ctx.Ok := by
  induction h with
  | start bitstream hctx => exact ⟨bounded_start, hctx.ok⟩
  | step _ hop ih => exact encodeOp_bounded ih.1 ih.2 hop
  | align _ ih => exact ⟨bounded_align, ih.2⟩
  | load _ hctx ih => exact ⟨ih.1, hctx.ok⟩

theorem DecoderReachable.bounded (h : DecoderReachable d) : Bounded d.range ∧ d.ctx.Ok := by
  induction h with
  | start hctx hstart =>
    obtain ⟨hrange, hd⟩ := start_range hstart
    exact ⟨hrange ▸ bounded_start, hd ▸ hctx.ok⟩
  | step _ hop hlive ih => exact decodeOp_bounded ih.1 ih.2 hop hlive
  | align _ ih => exact ⟨bounded_align, ih.2⟩
  | load _ hctx ih => exact ⟨ih.1, hctx.ok⟩

/-- The ranges of both coders, that of a terminating 1 included. -/
inductive CoderRange : ℕ → Prop
  | encoder {e : BinEncoder} : EncoderReachable e → CoderRange e.range
  | decoder {d : BinDecoder} : DecoderReachable d → CoderRange d.range
  | ended {d d' : BinDecoder} :
      DecoderReachable d → d.decodeBinTrm = .ok (true, d') → CoderRange d'.range

theorem CoderRange.mem {range : ℕ} (h : CoderRange range) : 62 ≤ range ∧ range ≤ 510 := by
  cases h with
  | encoder he =>
    obtain ⟨⟨h64, h510⟩, _⟩ := he.bounded
    exact ⟨by omega, h510⟩
  | decoder hd =>
    obtain ⟨⟨h64, h510⟩, _⟩ := hd.bounded
    exact ⟨by omega, h510⟩
  | ended hd hend =>
    obtain ⟨h62, h508⟩ := (decodeBinTrm_bounded hd.bounded.1 hend).1 rfl
    exact ⟨h62, by omega⟩

/-- **Probability states are safe.** All states of a reachable model are 15-bit numbers, its
estimate indexes `m_binFracBits`, and it splits every reachable range into two parts. -/
theorem probability_safe (hm : ModelReachable m) :
    (m.state0 ≤ 0x7fff ∧ m.state1 ≤ 0x7fff) ∧ (m.stateUsed0 ≤ 0x7fff ∧ m.stateUsed1 ≤ 0x7fff) ∧
      m.state ≤ 0x7fff ∧ m.state_est < 512 ∧
      ∀ range, CoderRange range →
        1 ≤ m.getLPS range ∧ m.getLPS range ≤ 255 ∧ m.getLPS range < range := by
  have hok := hm.ok
  refine ⟨⟨hok.state0_le, hok.state1_le⟩, ⟨hok.stateUsed0_le, hok.stateUsed1_le⟩, hok.state_le,
    hok.state_est_lt, fun range hrange => ?_⟩
  obtain ⟨h62, h510⟩ := hrange.mem
  obtain ⟨h1, hhalf⟩ := hok.getLPS_mem (show 2 ≤ range by omega) h510
  exact ⟨h1, by omega, by omega⟩

/-- A model of high probability after a less probable bin. -/
theorem probability_safe_lps :
    let m := BinProbModel.update ⟨32512, 32512, 71, 32512, 32512, 182, 131, 32⟩ false
    (m.state0 ≤ 0x7fff ∧ m.state1 ≤ 0x7fff) ∧ (m.stateUsed0 ≤ 0x7fff ∧ m.stateUsed1 ≤ 0x7fff) ∧
      m.state ≤ 0x7fff ∧ m.state_est < 512 ∧
      ∀ range, CoderRange range →
        1 ≤ m.getLPS range ∧ m.getLPS range ≤ 255 ∧ m.getLPS range < range := by
  have hwindow : (BinProbModel.new.init 32 62).setLog2WindowSize 8 =
      .ok ⟨32512, 32512, 71, 32512, 32512, 119, 119, 18⟩ := by decide
  have hinit := ModelReachable.init 32 62 182 131 hwindow (show 32 >>> 3 ≤ 4 by decide)
    (show 32 &&& 7 ≤ 4 by decide)
  exact probability_safe (hinit.update false)

end ECM.Cabac
