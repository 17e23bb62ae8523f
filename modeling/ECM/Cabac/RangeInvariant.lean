import ECM.Cabac.RoundTrip
import ECM.CommonLib.ContextInit
import ECM.Lib.Trace

/-! # When the range stays normalised

Both coders start at range 510 and mean to keep it in `[256, 510]`. A less
probable bin of width below 4 breaks that: `m_RenormTable_32` lifts it by six
bits only, while the high-precision estimate can give widths from 1 on. The
decoder also leaves the range of a terminating 1 as it is. -/

namespace ECM.Cabac
open CommonLib CommonLib.BitStream CommonLib.Contexts CommonLib.BinInterval
open EncoderLib DecoderLib Lib.IntervalCoder Lib.Trace

/-- The normalised ranges. -/
def InRange (range : Nat) : Prop := 256 ≤ range ∧ range ≤ 510

instance (range : Nat) : Decidable (InRange range) := inferInstanceAs (Decidable (_ ∧ _))

/-- The encoder after each operation. -/
def encodeStates (e : BinEncoder) (ops : List BinOp) : Checked (List BinEncoder) :=
  trace encodeOp e ops

/-- The decoder after one operation. -/
def decodeNext (d : BinDecoder) (k : BinKind) : Checked BinDecoder := do
  let (_, d) ← decodeOp d k
  return d

/-- The decoder after each operation. -/
def decodeStates (d : BinDecoder) (ks : List BinKind) : Checked (List BinDecoder) :=
  trace decodeNext d ks

/-- A bin of the less probable value has a share of the range that its model
makes at least 4 wide. -/
def EncKeeps (e : BinEncoder) : BinOp → Prop
  | .bin b ctxId => b.toNat ≠ (e.ctx.model ctxId).mps →
      3 * 512 ≤ e.range * (e.ctx.model ctxId).lpsShare
  | _ => True

/-- The same for the bin the decoder is about to find; and a terminating 1 is
found at a range of at least 258. -/
def DecKeeps (d : BinDecoder) : BinKind → Prop
  | .bin ctxId => (d.range - (d.ctx.model ctxId).getLPS d.range) * 2 ^ 7 ≤ d.value →
      3 * 512 ≤ d.range * (d.ctx.model ctxId).lpsShare
  | .binTrm => (d.range - 2) * 2 ^ 7 ≤ d.value → 258 ≤ d.range
  | _ => True

/-! ## One split -/

variable {I : Interval} {m : BinProbModel}

/-- The widths a normalised range is split into. -/
theorem split_inRange {range : Nat} (hr : InRange range) (hm : m.Ok) :
    1 ≤ m.getLPS range ∧ m.getLPS range ≤ 255 ∧ 256 ≤ 2 * (range - m.getLPS range) ∧
      m.getLPS range < range := by
  obtain ⟨h256, h510⟩ := hr
  obtain ⟨h1, h2⟩ := hm.getLPS_mem (show 2 ≤ range by omega) h510
  have he := m.getLPS_eq range
  refine ⟨h1, by omega, ?_, by omega⟩
  have hmul : range * m.lpsShare ≤ range * 255 := Nat.mul_le_mul_left _ hm.lpsShare_le
  omega

/-- The less probable part is lifted into the normalised ranges from width 4 on. -/
theorem lps_inRange_iff {range : Nat} (hr : InRange range) (hm : m.Ok) :
    InRange (m.getLPS range * 2 ^ BinProbModel.getRenormBitsLPS (m.getLPS range)) ↔
      3 * 512 ≤ range * m.lpsShare := by
  obtain ⟨h1, h255, -, -⟩ := split_inRange hr hm
  obtain ⟨-, hle, hiff⟩ := renormLPS_mem h1 h255
  rw [← hm.four_le_getLPS_iff hr.2, ← hiff]
  exact ⟨And.left, fun h => ⟨h, hle⟩⟩

/-- The more probable part needs one bit at most. -/
theorem mps_inRange {range : Nat} (hr : InRange range) (hm : m.Ok) :
    (range - m.getLPS range < 256 → InRange ((range - m.getLPS range) * 2 ^ 1)) ∧
      (¬range - m.getLPS range < 256 → InRange (range - m.getLPS range)) := by
  obtain ⟨h1, -, hmps, -⟩ := split_inRange hr hm
  have h510 := hr.2
  unfold InRange
  constructor <;> intro _ <;> omega

/-! ## The encoder -/

theorem bin_inRange_iff (hI : InRange I.range) (hm : m.Ok) (b : Bool) :
    InRange (bin I m b).range ↔ (b.toNat ≠ m.mps → 3 * 512 ≤ I.range * m.lpsShare) := by
  obtain ⟨hlow, hhigh⟩ := mps_inRange hI hm
  simp only [bin]
  split
  · next hlps =>
    rw [forall_prop_of_true hlps]
    exact lps_inRange_iff hI hm
  · next hmps =>
    refine iff_of_true ?_ (fun h => absurd h hmps)
    split
    · next hlt => exact hlow hlt
    · next hge => exact hhigh hge

theorem binTrm_inRange (hI : InRange I.range) (b : Bool) : InRange (binTrm I b).range := by
  obtain ⟨h256, h510⟩ := hI
  unfold binTrm InRange
  cases b with
  | true => exact ⟨by simp, by simp⟩
  | false =>
    simp only [Bool.false_eq_true, if_false]
    split
    · simp only [Interval.narrow_range]
      omega
    · simp only [Interval.scale_range, Interval.narrow_range]
      omega

theorem encodeOp_inRange_iff {e e' : BinEncoder} {op : BinOp} (h : e.Encodes I) (hctx : e.ctx.Ok)
    (hr : InRange e.range) (hop : op.Valid) (he : encodeOp e op = .ok e') :
    InRange e'.range ↔ EncKeeps e op := by
  obtain ⟨e₁, he₁, h₁, -⟩ := encodeOp_step h hctx hop
  obtain rfl : e' = e₁ := Except.ok.inj (he.symm.trans he₁)
  rw [h₁.range_eq]
  rw [h.range_eq] at hr
  cases op with
  | bin b ctxId =>
    rw [EncKeeps, h.range_eq]
    exact bin_inRange_iff hr (hctx.model ctxId) b
  | binEP b => exact iff_of_true hr trivial
  | binsEP v n => exact iff_of_true hr trivial
  | binTrm b => exact iff_of_true (binTrm_inRange hr b) trivial

/-! ## The decoder -/

/-- A step that leaves the range and the contexts alone. -/
def Frame (d d' : BinDecoder) : Prop := d'.range = d.range ∧ d'.ctx = d.ctx

theorem Frame.trans {d₁ d₂ d₃ : BinDecoder} (h : Frame d₁ d₂) (h' : Frame d₂ d₃) : Frame d₁ d₃ :=
  ⟨h'.1.trans h.1, h'.2.trans h.2⟩

theorem refill_frame {d d' : BinDecoder} (h : d.refill = .ok d') : Frame d d' := by
  unfold BinDecoder.refill at h
  split at h
  · obtain ⟨⟨byte, bitstream⟩, -, h⟩ := bind_eq_ok h
    cases h
    exact ⟨rfl, rfl⟩
  · cases h
    exact ⟨rfl, rfl⟩

theorem decideEP_frame (d : BinDecoder) : Frame d d.decideEP.2 := by
  unfold BinDecoder.decideEP
  dsimp only
  split <;> exact ⟨rfl, rfl⟩

theorem decodeBinEP_frame {d d' : BinDecoder} {b : Bool} (h : d.decodeBinEP = .ok (b, d')) :
    Frame d d' := by
  simp only [BinDecoder.decodeBinEP] at h
  split at h
  · obtain ⟨⟨byte, bitstream⟩, -, h⟩ := bind_eq_ok h
    have hd := congrArg Prod.snd (Except.ok.inj h)
    rw [← show _ = d' from hd]
    exact decideEP_frame _
  · have hd := congrArg Prod.snd (Except.ok.inj h)
    rw [← show _ = d' from hd]
    exact decideEP_frame _

theorem decodeEightBins_frame {d d' : BinDecoder} {bins v : Nat}
    (h : d.decodeEightBins bins = .ok (v, d')) : Frame d d' := by
  obtain ⟨⟨byte, bitstream⟩, -, h⟩ := bind_eq_ok h
  cases h
  exact ⟨rfl, rfl⟩

theorem decodeRestBins_frame {d d' : BinDecoder} {bins n v : Nat}
    (h : d.decodeRestBins bins n = .ok (v, d')) : Frame d d' := by
  obtain ⟨d₁, hd₁, h⟩ := bind_eq_ok h
  cases h
  obtain ⟨hrange, hctx⟩ := refill_frame hd₁
  exact ⟨hrange, hctx⟩

theorem decodeBinsLoop_frame (n : Nat) : ∀ {d d' : BinDecoder} {bins v : Nat},
    d.decodeBinsLoop bins n = .ok (v, d') → Frame d d' := by
  induction n using Nat.strongRecOn with
  | ind n ih =>
    intro d d' bins v h
    rw [BinDecoder.decodeBinsLoop] at h
    split at h
    · obtain ⟨⟨bins₁, d₁⟩, hd₁, h⟩ := bind_eq_ok h
      exact (decodeEightBins_frame hd₁).trans (ih (n - 8) (by omega) h)
    · exact decodeRestBins_frame h

theorem decodeAlignedBins_frame {d d' : BinDecoder} {bins n v : Nat}
    (h : d.decodeAlignedBins bins n = .ok (v, d')) : Frame d d' := by
  simp only [BinDecoder.decodeAlignedBins] at h
  split at h
  · obtain ⟨⟨byte, bitstream⟩, -, h⟩ := bind_eq_ok h
    cases h
    exact ⟨rfl, rfl⟩
  · cases h
    exact ⟨rfl, rfl⟩

theorem decodeAlignedBinsEP_frame (n : Nat) : ∀ {d d' : BinDecoder} {bins v : Nat},
    d.decodeAlignedBinsEP bins n = .ok (v, d') → Frame d d' := by
  induction n using Nat.strongRecOn with
  | ind n ih =>
    intro d d' bins v h
    rw [BinDecoder.decodeAlignedBinsEP] at h
    split at h
    · cases h
      exact ⟨rfl, rfl⟩
    · obtain ⟨⟨bins₁, d₁⟩, hd₁, h⟩ := bind_eq_ok h
      exact (decodeAlignedBins_frame hd₁).trans (ih (n - min n 8) (by omega) h)

theorem decodeBinsEP_frame {d d' : BinDecoder} {n v : Nat} (h : d.decodeBinsEP n = .ok (v, d')) :
    Frame d d' := by
  unfold BinDecoder.decodeBinsEP at h
  split at h
  · exact decodeAlignedBinsEP_frame n h
  · exact decodeBinsLoop_frame n h

theorem decodeBinTrm_inRange_iff {d d' : BinDecoder} {b : Bool} (hr : InRange d.range)
    (h : d.decodeBinTrm = .ok (b, d')) :
    (InRange d'.range ↔ DecKeeps d .binTrm) ∧ d'.ctx = d.ctx := by
  obtain ⟨h256, h510⟩ := hr
  simp only [BinDecoder.decodeBinTrm, sub32_of_le (show 2 ≤ d.range by omega) (by omega),
    Nat.shiftLeft_eq, u32_of_lt (show (d.range - 2) * 2 ^ 7 < 2 ^ 32 by omega)] at h
  unfold DecKeeps InRange
  split at h
  · next hone =>
    cases h
    exact ⟨by rw [forall_prop_of_true hone]; dsimp only; omega, rfl⟩
  · next hzero =>
    have hkeeps : (d.range - 2) * 2 ^ 7 ≤ d.value → 258 ≤ d.range := fun h => absurd h hzero
    split at h
    · have hdouble : u32 (d.range - 2 + (d.range - 2)) = d.range - 2 + (d.range - 2) :=
        u32_of_lt (by omega)
      split at h
      · obtain ⟨⟨byte, bitstream⟩, -, h⟩ := bind_eq_ok h
        cases h
        exact ⟨iff_of_true (by dsimp only; omega) hkeeps, rfl⟩
      · cases h
        exact ⟨iff_of_true (by dsimp only; omega) hkeeps, rfl⟩
    · cases h
      exact ⟨iff_of_true (by dsimp only; omega) hkeeps, rfl⟩

theorem decodeSplit_inRange_iff {d d' : BinDecoder} {b : Nat} (hr : InRange d.range) (hm : m.Ok)
    (h : d.decodeSplit m = .ok (b, d')) :
    InRange d'.range ↔ ((d.range - m.getLPS d.range) * 2 ^ 7 ≤ d.value →
      3 * 512 ≤ d.range * m.lpsShare) := by
  obtain ⟨h1, h255, -, hlt⟩ := split_inRange hr hm
  obtain ⟨hlow, hhigh⟩ := mps_inRange hr hm
  have h510 := hr.2
  simp only [BinDecoder.decodeSplit, sub32_of_le (show m.getLPS d.range ≤ d.range by omega) (by omega),
    Nat.shiftLeft_eq, u32_of_lt (show (d.range - m.getLPS d.range) * 2 ^ 7 < 2 ^ 32 by omega)] at h
  split at h
  · next hmps =>
    refine iff_of_true ?_ (fun h => absurd h (by omega))
    split at h
    · next h256 =>
      obtain ⟨d₁, hd₁, h⟩ := bind_eq_ok h
      cases h
      rw [(refill_frame hd₁).1]
      simp only [BinProbModel.getRenormBitsRange]
      rw [u32_of_lt (by omega)]
      exact hlow h256
    · next h256 =>
      cases h
      exact hhigh h256
  · next hlps =>
    obtain ⟨d₁, hd₁, h⟩ := bind_eq_ok h
    cases h
    obtain ⟨-, hle, -⟩ := renormLPS_mem h1 h255
    rw [(refill_frame hd₁).1, forall_prop_of_true (by omega)]
    dsimp only
    rw [u32_of_lt (by omega)]
    exact lps_inRange_iff hr hm

theorem decodeNext_keeps (d : BinDecoder) (k : BinKind) (d' : BinDecoder) (hctx : d.ctx.Ok)
    (hr : InRange d.range) (_ : True) (h : decodeNext d k = .ok d') :
    d'.ctx.Ok ∧ (InRange d'.range ↔ DecKeeps d k) := by
  obtain ⟨⟨v, d₁⟩, hd₁, h⟩ := bind_eq_ok h
  obtain rfl : d₁ = d' := Except.ok.inj h
  cases k with
  | bin ctxId =>
    obtain ⟨⟨b, d₂⟩, hd₂, h⟩ := bind_eq_ok hd₁
    cases h
    obtain ⟨⟨b', d₃⟩, hd₃, h⟩ := bind_eq_ok hd₂
    cases h
    have hiff := decodeSplit_inRange_iff hr (hctx.model ctxId) hd₃
    exact ⟨hctx.update ctxId _, hiff⟩
  | binEP =>
    obtain ⟨⟨b, d₂⟩, hd₂, h⟩ := bind_eq_ok hd₁
    cases h
    obtain ⟨hrange, hctx'⟩ := decodeBinEP_frame hd₂
    exact ⟨hctx' ▸ hctx, iff_of_true (hrange ▸ hr) trivial⟩
  | binsEP n =>
    obtain ⟨hrange, hctx'⟩ := decodeBinsEP_frame hd₁
    exact ⟨hctx' ▸ hctx, iff_of_true (hrange ▸ hr) trivial⟩
  | binTrm =>
    obtain ⟨⟨b, d₂⟩, hd₂, h⟩ := bind_eq_ok hd₁
    cases h
    obtain ⟨hiff, hctx'⟩ := decodeBinTrm_inRange_iff hr hd₂
    exact ⟨hctx' ▸ hctx, hiff⟩

/-! ## Runs -/

/-- What every state of an encoder run satisfies, whatever its range. -/
def EncBase (e : BinEncoder) : Prop := ∃ I, e.Encodes I ∧ e.ctx.Ok

theorem encodeOp_base (e : BinEncoder) (op : BinOp) (h : EncBase e) (hop : op.Valid) :
    ∃ e', encodeOp e op = .ok e' ∧ EncBase e' := by
  obtain ⟨I, hI, hctx⟩ := h
  obtain ⟨e', he', hI', hctx'⟩ := encodeOp_step hI hctx hop
  exact ⟨e', he', _, hI', hctx' ▸ step_ok hctx op⟩

theorem encodeOp_keeps (e : BinEncoder) (op : BinOp) (e' : BinEncoder) (h : EncBase e)
    (hr : InRange e.range) (hop : op.Valid) (he : encodeOp e op = .ok e') :
    EncBase e' ∧ (InRange e'.range ↔ EncKeeps e op) := by
  obtain ⟨e₁, he₁, hbase⟩ := encodeOp_base e op h hop
  obtain rfl : e₁ = e' := Except.ok.inj (he₁.symm.trans he)
  obtain ⟨I, hI, hctx⟩ := h
  exact ⟨hbase, encodeOp_inRange_iff hI hctx hr hop he⟩

theorem start_range {ctx : CtxStore} {s : InputBitstream} {d : BinDecoder}
    (h : BinDecoder.start ctx s = .ok d) : d.range = 510 ∧ d.ctx = ctx := by
  obtain ⟨-, -, h⟩ := bind_eq_ok h
  obtain ⟨⟨hi, s₁⟩, -, h⟩ := bind_eq_ok h
  obtain ⟨⟨lo, s₂⟩, -, h⟩ := bind_eq_ok h
  cases h
  exact ⟨rfl, rfl⟩

/-- **Normalised ranges.** From an initialised context store the encoder always
runs through, and its ranges are all normalised exactly when every less probable
bin has a width of at least 4; the ranges of a decoder on any bytes are
normalised exactly when the same holds of the bins it finds and a terminating 1
comes at 258 or above. -/
theorem range_normalised_iff {s ctx : CtxStore} {qp : Int} {initId : Nat} (hid : initId < 3)
    (hinit : s.init qp initId = .ok ctx) :
    (∀ ops : List BinOp, (∀ op ∈ ops, op.Valid) →
      ∃ es, encodeStates (.start ctx .clear) ops = .ok es ∧
        ((∀ e ∈ es, InRange e.range) ↔
          ∀ p ∈ (BinEncoder.start ctx .clear :: es).zip ops, EncKeeps p.1 p.2)) ∧
    (∀ (bytes : List UInt8) (ks : List BinKind) (d : BinDecoder) (ds : List BinDecoder),
      BinDecoder.start ctx (.ofFifo bytes) = .ok d → decodeStates d ks = .ok ds →
        ((∀ d ∈ ds, InRange d.range) ↔ ∀ p ∈ (d :: ds).zip ks, DecKeeps p.1 p.2)) := by
  have hctx : ctx.Ok := CtxStore.init_ok hid hinit
  have hstart : InRange 510 := by decide
  constructor
  · intro ops hops
    have hbase : EncBase (.start ctx .clear) := ⟨_, BinEncoder.start_encodes ctx, hctx⟩
    obtain ⟨es, hes⟩ := trace_total encodeOp_base ops hbase hops
    exact ⟨es, hes, trace_forall_iff encodeOp_keeps ops hbase hstart hops hes⟩
  · intro bytes ks d ds hd hds
    obtain ⟨hrange, hd⟩ := start_range hd
    exact trace_forall_iff decodeNext_keeps ks (hd ▸ hctx) (hrange ▸ hstart) (fun _ _ => trivial) hds

/-- A significance context of an intra slice at QP 32. -/
theorem init_model_203 : ∃ ctx, CtxStore.fresh.init 32 2 = .ok ctx ∧ ctx.Ok ∧
    ctx.model 203 = ⟨32512, 32512, 71, 32512, 32512, 182, 131, 32⟩ := by
  have hfresh : CtxStore.fresh.length = 536 := by
    rw [CtxStore.fresh, List.length_replicate]
    exact tables_length (i := 0) (by decide)
  have hinit : ∃ s', CtxStore.fresh.init 32 2 = .ok s' ∧ s'.length = 536 :=
    CtxStore.init_total (by decide) hfresh
  obtain ⟨ctx, hctx, hlen⟩ := hinit
  refine ⟨ctx, hctx, CtxStore.init_ok (by decide) hctx, ?_⟩
  rw [CtxStore.init_eq (by decide) hfresh] at hctx
  obtain ⟨m, hm, hmodel⟩ := CtxStore.initFrom_getElem? _ hctx
    (List.getElem?_eq_getElem (show 203 < ctx.length by omega))
  obtain rfl : m = .new := List.eq_of_mem_replicate (List.mem_of_getElem? hm)
  rw [CtxStore.model, List.getD_eq_getElem _ _ (by omega)]
  have hrun : CtxStore.initModel (max 0 (min maxQP 32)) (smInitTables.getD 2 [])
      (smInitTables.getD (3 + 2) []) (smInitTables.getD (6 + 2) []) rateOffset0 rateOffset1 (0 + 203)
      .new = .ok ⟨32512, 32512, 71, 32512, 32512, 182, 131, 32⟩ := by decide +kernel
  exact Except.ok.inj (hmodel.symm.trans hrun)

/-- Its first less probable bin has width 3, and the range after it is 192. -/
theorem range_not_normalised :
    ∃ ctx e, CtxStore.fresh.init 32 2 = .ok ctx ∧
      encodeOps (.start ctx .clear) [.bin false 203] = .ok e ∧ e.range = 192 ∧ ¬InRange e.range := by
  obtain ⟨ctx, hinit, hctx, hmodel⟩ := init_model_203
  have hop : (BinOp.bin false 203).Valid := trivial
  obtain ⟨e, he, hI, -⟩ := encodeOp_step (BinEncoder.start_encodes ctx) hctx hop
  have hrange : e.range = 192 := by
    rw [hI.range_eq]
    change (bin start (ctx.model 203) false).range = 192
    rw [hmodel]
    decide
  refine ⟨ctx, e, hinit, ?_, hrange, by rw [hrange]; decide⟩
  rw [encodeOps, he]
  rfl

theorem range_normalised_iff_intra :
    ∃ ctx, CtxStore.fresh.init 32 2 = .ok ctx ∧
      ∃ es, encodeStates (.start ctx .clear) [.bin true 203, .binEP true] = .ok es ∧
        ((∀ e ∈ es, InRange e.range) ↔ ∀ p ∈ (BinEncoder.start ctx .clear :: es).zip
          [.bin true 203, .binEP true], EncKeeps p.1 p.2) := by
  obtain ⟨ctx, hinit, -⟩ := init_model_203
  refine ⟨ctx, hinit, (range_normalised_iff (show 2 < 3 by decide) hinit).1 _ ?_⟩
  intro op hop
  simp only [List.mem_cons, List.not_mem_nil, or_false] at hop
  rcases hop with rfl | rfl <;> trivial

end ECM.Cabac
