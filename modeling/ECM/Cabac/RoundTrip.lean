import ECM.DecoderLib.BinDecoder
import ECM.EncoderLib.BinEncoder
import ECM.CommonLib.Bins

/-! # Arithmetic coding round trip

A sequence of coding operations, run by the encoder and closed by a terminating
bin, `finish` and the byte alignment, is read back by the decoder: both walk
the same intervals (`step`), the bytes lie in the last one, and every interval
lies in the one before it. -/

namespace ECM.Cabac
open CommonLib CommonLib.BitStream CommonLib.Contexts CommonLib.BinInterval
open EncoderLib DecoderLib Lib.Bits Lib.IntervalCoder

/-- One call of the encoder. -/
inductive BinOp where
  | bin (b : Bool) (ctxId : Nat)
  | binEP (b : Bool)
  | binsEP (bins numBins : Nat)
  | binTrm (b : Bool)
deriving DecidableEq, Repr

/-- The call of the decoder that reads it. -/
inductive BinKind where
  | bin (ctxId : Nat)
  | binEP
  | binsEP (numBins : Nat)
  | binTrm
deriving DecidableEq, Repr

namespace BinOp

def kind : BinOp → BinKind
  | bin _ ctxId => .bin ctxId
  | binEP _ => .binEP
  | binsEP _ numBins => .binsEP numBins
  | binTrm _ => .binTrm

def value : BinOp → Nat
  | bin b _ => b.toNat
  | binEP b => b.toNat
  | binsEP bins _ => bins
  | binTrm b => b.toNat

/-- At most 32 bypass bins at once, and a value that fits them. -/
def Valid : BinOp → Prop
  | binsEP bins numBins => numBins ≤ 32 ∧ bins < 2 ^ numBins
  | _ => True

end BinOp

def encodeOp (e : BinEncoder) : BinOp → Checked BinEncoder
  | .bin b ctxId => e.encodeBin b ctxId
  | .binEP b => e.encodeBinEP b
  | .binsEP bins numBins => e.encodeBinsEP bins numBins
  | .binTrm b => e.encodeBinTrm b

def decodeOp (d : BinDecoder) : BinKind → Checked (Nat × BinDecoder)
  | .bin ctxId => do
    let (b, d) ← d.decodeBin ctxId
    return (b.toNat, d)
  | .binEP => do
    let (b, d) ← d.decodeBinEP
    return (b.toNat, d)
  | .binsEP numBins => d.decodeBinsEP numBins
  | .binTrm => do
    let (b, d) ← d.decodeBinTrm
    return (b.toNat, d)

def encodeOps (e : BinEncoder) : List BinOp → Checked BinEncoder
  | [] => .ok e
  | op :: ops => do
    let e ← encodeOp e op
    encodeOps e ops

def decodeOps (d : BinDecoder) : List BinKind → Checked (List Nat × BinDecoder)
  | [] => .ok ([], d)
  | k :: ks => do
    let (v, d) ← decodeOp d k
    let (vs, d) ← decodeOps d ks
    return (v :: vs, d)

/-- `start`, the operations, `encodeBinTrm(1)`, `finish` and `writeByteAlignment`. -/
def encode (ctx : CtxStore) (ops : List BinOp) : Checked (List UInt8) := do
  let e ← encodeOps (.start ctx .clear) ops
  let e ← e.encodeBinTrm true
  let e ← e.finish
  let s ← e.bitstream.writeByteAlignment
  return s.fifo

/-- `start` on the bytes, the operations, `decodeBinTrm` and `finish`: the values
read, the terminating bin, and the number of bytes consumed. -/
def decode (ctx : CtxStore) (bytes : List UInt8) (kinds : List BinKind) :
    Checked (List Nat × Bool × Nat) := do
  let d ← BinDecoder.start ctx (.ofFifo bytes)
  let (values, d) ← decodeOps d kinds
  let (last, d) ← d.decodeBinTrm
  d.finish
  return (values, last, d.bitstream.fifoIdx)

/-! ## The intervals both sides walk -/

def step (I : Interval) (ctx : CtxStore) : BinOp → Interval × CtxStore
  | .bin b ctxId => (bin I (ctx.model ctxId) b, ctx.update ctxId b)
  | .binEP b => (BinInterval.binEP I b, ctx)
  | .binsEP bins numBins => (BinInterval.binsEP I bins numBins, ctx)
  | .binTrm b => (BinInterval.binTrm I b, ctx)

def run (I : Interval) (ctx : CtxStore) : List BinOp → Interval × CtxStore
  | [] => (I, ctx)
  | op :: ops => run (step I ctx op).1 (step I ctx op).2 ops

variable {I : Interval} {ctx : CtxStore} {bs : List UInt8}

theorem step_ok (hctx : ctx.Ok) (op : BinOp) : (step I ctx op).2.Ok := by
  cases op with
  | bin b ctxId => exact hctx.update ctxId b
  | binEP | binsEP | binTrm => exact hctx

theorem step_ranged (hI : Ranged I) (hctx : ctx.Ok) (op : BinOp) : Ranged (step I ctx op).1 := by
  cases op with
  | bin b ctxId => exact bin_ranged hI (hctx.model ctxId) b
  | binEP b => exact binsEP_ranged hI _ _
  | binsEP v n => exact binsEP_ranged hI v n
  | binTrm b => exact binTrm_ranged hI b

/-- A step goes to a part of the interval. -/
theorem contains_of_step {op : BinOp} (hI : Ranged I) (hctx : ctx.Ok) (hop : op.Valid)
    (h : (step I ctx op).1.Contains 9 bs) : I.Contains 9 bs := by
  have h64 := hI.ge
  cases op with
  | bin b ctxId =>
    obtain ⟨-, -, -, hlt⟩ := split_mem hI (hctx.model ctxId)
    simp only [step, bin] at h
    split at h
    · exact (h.of_scale).of_narrow (by omega)
    · split at h
      · exact (h.of_scale).of_narrow (by omega)
      · exact h.of_narrow (by omega)
  | binEP b => exact BinDecoder.Contains.of_binsEP (by cases b <;> simp) h
  | binsEP v n => exact BinDecoder.Contains.of_binsEP hop.2 h
  | binTrm b =>
    simp only [step, BinInterval.binTrm] at h
    split at h
    · exact (h.of_scale).of_narrow (by omega)
    · split at h
      · exact h.of_narrow (by omega)
      · exact (h.of_scale).of_narrow (by omega)

theorem run_ranged (ops : List BinOp) : ∀ {I : Interval} {ctx : CtxStore}, Ranged I → ctx.Ok →
    Ranged (run I ctx ops).1 := by
  induction ops with
  | nil => exact fun h _ => h
  | cons op ops ih => exact fun hI hctx => ih (step_ranged hI hctx op) (step_ok hctx op)

theorem contains_of_run (ops : List BinOp) : ∀ {I : Interval} {ctx : CtxStore}, Ranged I → ctx.Ok →
    (∀ op ∈ ops, op.Valid) → (run I ctx ops).1.Contains 9 bs → I.Contains 9 bs := by
  induction ops with
  | nil => exact fun _ _ _ h => h
  | cons op ops ih =>
    intro I ctx hI hctx hops h
    have hop := hops op List.mem_cons_self
    exact contains_of_step hI hctx hop (ih (step_ranged hI hctx op) (step_ok hctx op)
      (fun o ho => hops o (List.mem_cons_of_mem _ ho)) h)

/-! ## The encoder -/

theorem encodeOp_step {e : BinEncoder} {op : BinOp} (h : e.Encodes I) (hctx : e.ctx.Ok)
    (hop : op.Valid) :
    ∃ e', encodeOp e op = .ok e' ∧ e'.Encodes (step I e.ctx op).1 ∧ e'.ctx = (step I e.ctx op).2 := by
  cases op with
  | bin b ctxId => exact h.encodeBin hctx b ctxId
  | binEP b => exact h.encodeBinEP b
  | binsEP v n => exact h.encodeBinsEP hop.1 hop.2
  | binTrm b => exact h.encodeBinTrm b

theorem encodeOps_run (ops : List BinOp) : ∀ {e : BinEncoder} {I : Interval}, e.Encodes I →
    e.ctx.Ok → (∀ op ∈ ops, op.Valid) →
    ∃ e', encodeOps e ops = .ok e' ∧ e'.Encodes (run I e.ctx ops).1 ∧
      e'.ctx = (run I e.ctx ops).2 ∧ e'.ctx.Ok := by
  induction ops with
  | nil => exact fun h hctx _ => ⟨_, rfl, h, rfl, hctx⟩
  | cons op ops ih =>
    intro e I h hctx hops
    obtain ⟨e₁, he₁, h₁, hctx₁⟩ := encodeOp_step h hctx (hops op List.mem_cons_self)
    obtain ⟨e₂, he₂, h₂, hctx₂, hok₂⟩ := ih h₁ (hctx₁ ▸ step_ok hctx op)
      (fun o ho => hops o (List.mem_cons_of_mem _ ho))
    rw [hctx₁] at h₂ hctx₂
    exact ⟨e₂, by rw [encodeOps, he₁, ok_bind, he₂], h₂, hctx₂, hok₂⟩

/-- The bytes of a run lie in the last two units of its interval, and spell
them up to the stop bit. -/
theorem encode_contains {ops : List BinOp} (hctx : ctx.Ok) (hops : ∀ op ∈ ops, op.Valid) :
    ∃ bytes c k, encode ctx ops = .ok bytes ∧ k < 8 ∧
      8 * bytes.length = 9 + (run start ctx ops).1.shift + k ∧
      ofBytes bytes = (c * 2 + 1) * 2 ^ k ∧
      ((run start ctx ops).1.narrow ((run start ctx ops).1.range - 2) 2).Contains 9 bytes := by
  obtain ⟨e₁, he₁, h₁, -, -⟩ := encodeOps_run ops (BinEncoder.start_encodes ctx) hctx hops
  generalize hJ : (run start (BinEncoder.start ctx .clear).ctx ops).1 = J at h₁
  replace hJ : (run start ctx ops).1 = J := hJ
  obtain ⟨e₂, he₂, h₂, -⟩ := h₁.encodeBinTrm true
  obtain ⟨e₃, he₃, hwf, hlen, hval⟩ := h₂.finish
  obtain ⟨s, hs, ha, hbits⟩ := OutputBitstream.writeByteAlignment_spec hwf
  obtain ⟨k, hk⟩ : ∃ k, k = (7 - e₃.bitstream.numHeldBits) % 8 := ⟨_, rfl⟩
  obtain ⟨c, hc⟩ : ∃ c, c = ofBits e₃.bitstream.bits := ⟨_, rfl⟩
  have hshift : (BinInterval.binTrm J true).shift = J.shift + 7 := rfl
  have hlow : (BinInterval.binTrm J true).low = (J.low + (J.range - 2)) * 2 ^ 7 := rfl
  rw [hshift] at hlen
  rw [← hc, hlow] at hval
  -- the stop bit comes right after the low end
  have hbytes : 8 * s.fifo.length = 9 + J.shift + k := by
    have := congrArg List.length hbits
    simp only [length_bytesBits, List.length_append, List.length_cons, List.length_replicate, hlen,
      ← hk] at this
    omega
  have hspell : ofBytes s.fifo = (c * 2 + 1) * 2 ^ k := by
    rw [← ofBits_bytesBits, hbits, ofBits_append, ofBits_cons, ofBits_replicate_false,
      List.length_cons, List.length_replicate, ← hk, ← hc, Nat.pow_succ, Bool.toNat_true]
    ring
  refine ⟨s.fifo, c, k, ?_, by omega, by rw [hJ]; exact hbytes, hspell, ?_⟩
  · simp only [encode, he₁, ok_bind, he₂, he₃, hs]
    rfl
  · rw [hJ]
    have hdiff : 8 * s.fifo.length - (9 + J.shift) = k := by omega
    refine ⟨by simp only [Interval.narrow_shift]; omega, ?_, ?_⟩
    · simp only [Interval.narrow_low, Interval.narrow_shift, hdiff, hspell]
      exact Nat.mul_le_mul_right _ (by omega)
    · simp only [Interval.narrow_low, Interval.narrow_shift, Interval.narrow_range, hdiff, hspell]
      exact Nat.mul_lt_mul_of_pos_right (by omega) (Nat.two_pow_pos _)

/-! ## The decoder -/

theorem decodeOp_step {d : BinDecoder} {op : BinOp} (h : d.Decodes I bs) (hctx : d.ctx.Ok)
    (hop : op.Valid) (htrm : op ≠ .binTrm true) (hc : (step I d.ctx op).1.Contains 9 bs) :
    ∃ d', decodeOp d op.kind = .ok (op.value, d') ∧ d'.Decodes (step I d.ctx op).1 bs ∧
      d'.ctx = (step I d.ctx op).2 := by
  cases op with
  | bin b ctxId =>
    obtain ⟨d', hd', h', hctx'⟩ := h.decodeBin hctx hc
    exact ⟨d', by simp only [BinOp.kind, decodeOp, hd', ok_bind]; rfl, h', hctx'⟩
  | binEP b =>
    obtain ⟨d', hd', h', hctx'⟩ := h.decodeBinEP hc
    exact ⟨d', by simp only [BinOp.kind, decodeOp, hd', ok_bind]; rfl, h', hctx'⟩
  | binsEP v n => exact h.decodeBinsEP hop.1 hop.2 hc
  | binTrm b =>
    cases b with
    | true => exact absurd rfl htrm
    | false =>
      obtain ⟨d', hd', h', hctx'⟩ := h.decodeBinTrm_false hc
      exact ⟨d', by simp only [BinOp.kind, decodeOp, hd', ok_bind]; rfl, h', hctx'⟩

theorem decodeOps_run (ops : List BinOp) : ∀ {d : BinDecoder} {I : Interval}, d.Decodes I bs →
    d.ctx.Ok → (∀ op ∈ ops, op.Valid ∧ op ≠ .binTrm true) → (run I d.ctx ops).1.Contains 9 bs →
    ∃ d', decodeOps d (ops.map BinOp.kind) = .ok (ops.map BinOp.value, d') ∧
      d'.Decodes (run I d.ctx ops).1 bs := by
  induction ops with
  | nil => exact fun h _ _ _ => ⟨_, rfl, h⟩
  | cons op ops ih =>
    intro d I h hctx hops hc
    have hop := hops op List.mem_cons_self
    have htail : ∀ o ∈ ops, o.Valid ∧ o ≠ .binTrm true :=
      fun o ho => hops o (List.mem_cons_of_mem _ ho)
    have hhead := contains_of_run ops (step_ranged h.ranged hctx op) (step_ok hctx op)
      (fun o ho => (htail o ho).1) hc
    obtain ⟨d₁, hd₁, h₁, hctx₁⟩ := decodeOp_step h hctx hop.1 hop.2 hhead
    rw [run, ← hctx₁] at hc ⊢
    obtain ⟨d₂, hd₂, h₂⟩ := ih h₁ (hctx₁ ▸ step_ok hctx op) htail hc
    refine ⟨d₂, ?_, h₂⟩
    simp only [List.map_cons, decodeOps, hd₁, ok_bind, hd₂]
    rfl

/-- Operations that take the encoder through the same intervals are read from its bytes. -/
theorem decode_of_run {ctx : CtxStore} (hctx : ctx.Ok) {ops ops' : List BinOp}
    (hops : ∀ op ∈ ops, op.Valid) (hops' : ∀ op ∈ ops', op.Valid ∧ op ≠ .binTrm true)
    (hrun : run start ctx ops' = run start ctx ops) :
    ∃ bytes, encode ctx ops = .ok bytes ∧
      decode ctx bytes (ops'.map BinOp.kind) = .ok (ops'.map BinOp.value, true, bytes.length) := by
  obtain ⟨bytes, c, k, henc, hk, hlen, hspell, hc⟩ := encode_contains hctx hops
  have h64 := (run_ranged ops start_ranged hctx).ge
  have hend := hc.of_narrow (by omega)
  obtain ⟨d₀, hd₀, h₀, hctx₀⟩ := BinDecoder.start_decodes ctx (show 2 ≤ bytes.length by omega)
  obtain ⟨d₁, hd₁, h₁⟩ := decodeOps_run ops' h₀ (hctx₀ ▸ hctx) hops' (by rw [hctx₀, hrun]; exact hend)
  rw [hctx₀, hrun] at h₁
  have hlast := h₁.decodeBinTrm_true hc
  obtain ⟨hidx, hfin⟩ := h₁.finish hk hlen hspell ((run start ctx ops).1.range - 2)
  refine ⟨bytes, henc, ?_⟩
  rw [decode, hd₀, ok_bind, hd₁, ok_bind]
  dsimp only
  rw [hlast, ok_bind]
  dsimp only
  rw [hfin, ok_bind, ← hidx]
  rfl

/-- **CABAC round trip.** Whatever is encoded and closed by a terminating bin is
read back, to the last byte produced; no `CHECK` of either side fires. -/
theorem decode_encode {ctx : CtxStore} (hctx : ctx.Ok) {ops : List BinOp}
    (hops : ∀ op ∈ ops, op.Valid ∧ op ≠ .binTrm true) :
    ∃ bytes, encode ctx ops = .ok bytes ∧
      decode ctx bytes (ops.map BinOp.kind) = .ok (ops.map BinOp.value, true, bytes.length) :=
  decode_of_run hctx (fun op ho => (hops op ho).1) hops rfl

theorem decode_encode_four_ops :
    ∃ bytes, encode [.new] [.bin true 0, .binEP false, .binsEP 5 3, .binTrm false] = .ok bytes ∧
      decode [.new] bytes [.bin 0, .binEP, .binsEP 3, .binTrm] =
        .ok ([1, 0, 5, 0], true, bytes.length) := by
  have hctx : CtxStore.Ok [.new] := by
    intro m hm
    rw [List.mem_singleton.mp hm]
    exact BinProbModel.new_ok
  refine decode_encode hctx ?_
  intro op hop
  simp only [List.mem_cons, List.not_mem_nil, or_false] at hop
  rcases hop with rfl | rfl | rfl | rfl <;> simp [BinOp.Valid]

end ECM.Cabac

/-! # Bypass bins one by one

The coder does not see whether bypass bins were handed over at once or one by one, so
the decoder may ask for the bins of a writer in other portions. The bins of the syntax
functions are such operations. -/

namespace ECM.Cabac
open CommonLib CommonLib.Contexts CommonLib.BinInterval CommonLib.Bins
open Lib.Bits Lib.IntervalCoder

namespace BinOp

/-- The operation, with its bypass bins one by one. -/
def single : BinOp → List BinOp
  | binsEP bins numBins => (toBits numBins bins).map binEP
  | op => [op]

/-- The operation for a bin; `offset` says where a context set begins. -/
def ofBin (offset : CtxSet → ℕ) : Bin → BinOp
  | .ctx ctxId b => bin b (offset ctxId.set + ctxId.inc)
  | .ep b => binEP b

end BinOp

variable {I : Interval} {ctx : CtxStore}

theorem run_append (ops ops' : List BinOp) : ∀ (I : Interval) (ctx : CtxStore),
    run I ctx (ops ++ ops') = run (run I ctx ops).1 (run I ctx ops).2 ops' := by
  induction ops with
  | nil => exact fun _ _ => rfl
  | cons op ops ih => exact fun I ctx => ih _ _

theorem run_bypass (bs : List Bool) : ∀ I : Interval,
    run I ctx (bs.map .binEP) = (binsEP I (ofBits bs) bs.length, ctx) := by
  induction bs with
  | nil => exact fun I => by rw [List.map_nil, ofBits_nil, List.length_nil, binsEP_zero]; rfl
  | cons b bs ih =>
    intro I
    rw [List.map_cons, run, step, ih, binEP, binsEP_binsEP, ofBits_cons, List.length_cons,
      Nat.add_comm 1]

theorem run_single {op : BinOp} (hop : op.Valid) : run I ctx op.single = step I ctx op := by
  cases op with
  | binsEP bins numBins =>
    rw [BinOp.single, run_bypass, ofBits_toBits_of_lt hop.2, length_toBits, step]
  | bin b ctxId => rfl
  | binEP b => rfl
  | binTrm b => rfl

theorem run_flatMap_single (ops : List BinOp) : ∀ (I : Interval) (ctx : CtxStore),
    (∀ op ∈ ops, op.Valid) → run I ctx (ops.flatMap BinOp.single) = run I ctx ops := by
  induction ops with
  | nil => exact fun _ _ _ => rfl
  | cons op ops ih =>
    intro I ctx hops
    rw [List.flatMap_cons, run_append, run_single (hops op List.mem_cons_self),
      ih _ _ fun o ho => hops o (List.mem_cons_of_mem _ ho), run]

/-- Operations with the same bins, in other portions, are read from the bytes of an encoder. -/
theorem decode_regrouped (hctx : ctx.Ok) {ops ops' : List BinOp} (hops : ∀ op ∈ ops, op.Valid)
    (hops' : ∀ op ∈ ops', op.Valid ∧ op ≠ .binTrm true)
    (hsame : ops'.flatMap BinOp.single = ops.flatMap BinOp.single) :
    ∃ bytes, encode ctx ops = .ok bytes ∧
      decode ctx bytes (ops'.map BinOp.kind) = .ok (ops'.map BinOp.value, true, bytes.length) := by
  refine decode_of_run hctx hops hops' ?_
  rw [← run_flatMap_single ops' _ _ fun op ho => (hops' op ho).1, hsame,
    run_flatMap_single ops _ _ hops]

theorem flatMap_single_ofBin (offset : CtxSet → ℕ) : ∀ bins : List Bin,
    (bins.map (BinOp.ofBin offset)).flatMap BinOp.single = bins.map (BinOp.ofBin offset)
  | [] => rfl
  | b :: bins => by
    rw [List.map_cons, List.flatMap_cons, flatMap_single_ofBin offset bins]
    cases b <;> rfl

/-- The bins of a syntax function reach the reader through the coder, in whatever portions
the writer handed them over. -/
theorem decode_bins (hctx : ctx.Ok) (offset : CtxSet → ℕ) {bins : List Bin} {ops : List BinOp}
    (hops : ∀ op ∈ ops, op.Valid) (hbins : ops.flatMap BinOp.single = bins.map (.ofBin offset)) :
    ∃ bytes, encode ctx ops = .ok bytes ∧
      decode ctx bytes ((bins.map (BinOp.ofBin offset)).map BinOp.kind) =
        .ok ((bins.map (BinOp.ofBin offset)).map BinOp.value, true, bytes.length) := by
  refine decode_regrouped hctx hops ?_ ?_
  · intro op hop
    obtain ⟨b, -, rfl⟩ := List.mem_map.mp hop
    cases b with
    | ctx ctxId b => exact ⟨trivial, BinOp.noConfusion⟩
    | ep b => exact ⟨trivial, BinOp.noConfusion⟩
  · rw [hbins]
    exact flatMap_single_ofBin offset bins

end ECM.Cabac
