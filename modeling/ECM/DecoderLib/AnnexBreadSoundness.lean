import ECM.DecoderLib.AnnexBread
import ECM.EncoderLib.NALwrite

/-! # What the byte stream reader finds

`Ahead s rest` says which bytes a reader has still to hand out, whatever it has
looked ahead. Each operation is described on `rest`; a call that starts before a
start code finds the bytes up to the next one, or the end of the input. -/

namespace ECM.DecoderLib.AnnexBread
open CommonLib Lib.Bits EncoderLib.NALwrite

/-! ## Sequencing -/

section
variable {ε σ α β : Type} {x : EStateM ε σ α} {f : α → EStateM ε σ β} {s s' : σ}

theorem run_bind_ok {a : α} (h : x s = .ok a s') : (x >>= f) s = f a s' := by
  change EStateM.bind x f s = f a s'
  rw [EStateM.bind, h]

theorem run_bind_error {e : ε} (h : x s = .error e s') : (x >>= f) s = .error e s' := by
  change EStateM.bind x f s = .error e s'
  rw [EStateM.bind, h]

end

namespace InputByteStream

/-- The bytes looked ahead, followed by those still in the input, are `rest`. -/
def Ahead (s : InputByteStream) (rest : List UInt8) : Prop :=
  ∃ held : List UInt8, held.length = s.numFutureBytes ∧ held.length ≤ 4 ∧
    ofBytes held = s.futureBytes ∧ held ++ s.input = rest

variable {s : InputByteStream} {rest : List UInt8} {n : Nat}

theorem new_ahead (input : List UInt8) : Ahead (.new input) input :=
  ⟨[], rfl, by decide, rfl, rfl⟩

theorem Ahead.length (h : s.Ahead rest) : rest.length = s.numFutureBytes + s.input.length := by
  obtain ⟨held, hlen, -, -, rfl⟩ := h
  rw [List.length_append, hlen]

theorem Ahead.num_le (h : s.Ahead rest) : s.numFutureBytes ≤ 4 := by
  obtain ⟨held, hlen, h4, -⟩ := h
  rw [← hlen]
  exact h4

/-- One more byte looked ahead. -/
theorem Ahead.shift {b : UInt8} {input : List UInt8} (h : s.Ahead rest) (hi : s.input = b :: input)
    (h3 : s.numFutureBytes ≤ 3) :
    Ahead ⟨s.numFutureBytes + 1, u32 (s.futureBytes <<< 8) ||| b.toNat, input⟩ rest := by
  obtain ⟨held, hlen, -, hval, rfl⟩ := h
  have hlt := ofBytes_lt held
  have h24 : ofBytes held < 2 ^ 24 :=
    lt_of_lt_of_le hlt (Nat.pow_le_pow_right (by decide) (by omega))
  refine ⟨held ++ [b], by simp [hlen], by simp; omega, ?_, by simp [hi]⟩
  rw [ofBytes_concat, ← hval, Nat.shiftLeft_eq, u32_of_lt (by omega),
    Nat.mul_comm (ofBytes held), ← Nat.two_pow_add_eq_or_of_lt b.toNat_lt]

theorem fetch_ok (n : Nat) : ∀ {s : InputByteStream}, s.Ahead rest → s.numFutureBytes + n ≤ 4 →
    n ≤ s.input.length →
    ∃ s', fetch n s = .ok () s' ∧ s'.Ahead rest ∧ s'.numFutureBytes = s.numFutureBytes + n := by
  induction n with
  | zero => exact fun h _ _ => ⟨_, rfl, h, rfl⟩
  | succ n ih =>
    intro s h h4 hn
    cases hi : s.input with
    | nil => simp [hi] at hn
    | cons b input =>
      rw [hi, List.length_cons] at hn
      obtain ⟨s', hs', hahead, hnum⟩ := ih (h.shift hi (by omega)) (by dsimp only; omega)
        (by dsimp only; omega)
      refine ⟨s', ?_, hahead, by rw [hnum]; dsimp only; omega⟩
      rw [fetch, run_bind_ok (show get s = .ok b { s with input } by rw [get, hi])]
      exact hs'

theorem fetch_eof (n : Nat) : ∀ {s : InputByteStream}, s.Ahead rest → s.numFutureBytes + n ≤ 4 →
    s.input.length < n →
    ∃ s', fetch n s = .error .eof s' ∧ s'.Ahead rest ∧ s'.numFutureBytes = rest.length := by
  induction n with
  | zero => exact fun _ _ h => absurd h (Nat.not_lt_zero _)
  | succ n ih =>
    intro s h h4 hn
    cases hi : s.input with
    | nil =>
      refine ⟨s, ?_, h, by rw [h.length, hi, List.length_nil, Nat.add_zero]⟩
      rw [fetch, run_bind_error (show get s = .error .eof s by rw [get, hi])]
    | cons b input =>
      rw [hi, List.length_cons] at hn
      obtain ⟨s', hs', hahead, hnum⟩ := ih (h.shift hi (by omega)) (by dsimp only; omega)
        (by dsimp only; omega)
      refine ⟨s', ?_, hahead, hnum⟩
      rw [fetch, run_bind_ok (show get s = .ok b { s with input } by rw [get, hi])]
      exact hs'

/-- Looking ahead tells whether `n` bytes are left, and holds them, or all there are. -/
theorem eofBeforeNBytes_spec (h : s.Ahead rest) (h4 : n ≤ 4) :
    ∃ s', eofBeforeNBytes n s = .ok (decide (rest.length < n)) s' ∧ s'.Ahead rest ∧
      s'.numFutureBytes = max s.numFutureBytes (min n rest.length) := by
  have hlen := h.length
  have hrun : eofBeforeNBytes n s = if s.numFutureBytes ≥ n then .ok false s else
      (tryCatch (fetch (n - s.numFutureBytes) >>= fun _ => pure false) fun _ => pure true :
        StreamM Bool) s := by
    rw [eofBeforeNBytes, if_neg (by omega)]
    change (if s.numFutureBytes ≥ n then (pure false : StreamM Bool) else _) s = _
    split <;> rfl
  rw [hrun]
  split
  · next hge =>
    exact ⟨s, by rw [decide_eq_false (by omega)], h, by omega⟩
  · next hlt =>
    change ∃ s', EStateM.tryCatch _ _ s = _ ∧ _
    by_cases hn : n ≤ rest.length
    · obtain ⟨s', hs', hahead, hnum⟩ := fetch_ok (n - s.numFutureBytes) h (by omega) (by omega)
      refine ⟨s', ?_, hahead, by omega⟩
      rw [EStateM.tryCatch, run_bind_ok hs', decide_eq_false (by omega)]
      rfl
    · obtain ⟨s', hs', hahead, hnum⟩ := fetch_eof (n - s.numFutureBytes) h (by omega) (by omega)
      refine ⟨s', ?_, hahead, by omega⟩
      rw [EStateM.tryCatch, run_bind_error hs', decide_eq_true (by omega)]
      rfl

/-- Fewer than `n` bytes are read as the number they make. -/
theorem peekBytes_spec (h : s.Ahead rest) (h4 : n ≤ 4) :
    ∃ s', peekBytes n s = .ok (ofBytes (rest.take n)) s' ∧ s'.Ahead rest ∧
      s'.numFutureBytes = max s.numFutureBytes (min n rest.length) := by
  obtain ⟨s', hs', hahead, hnum⟩ := eofBeforeNBytes_spec h h4
  refine ⟨s', ?_, hahead, hnum⟩
  have hpeek : peekBytes n s = .ok (s'.futureBytes >>> (8 * (s'.numFutureBytes - n))) s' := by
    rw [peekBytes, run_bind_ok hs']
    rfl
  obtain ⟨held, hlen, -, hval, rfl⟩ := hahead
  rw [List.length_append] at hnum
  rw [hpeek, Nat.shiftRight_eq_div_pow, ← hval, ← hlen]
  by_cases hn : n ≤ held.length
  · rw [List.take_append_of_le_length hn, ofBytes_take]
  · have hinput : s'.input = [] := List.eq_nil_of_length_eq_zero (by omega)
    rw [hinput, List.append_nil, List.take_of_length_le (by omega),
      Nat.sub_eq_zero_of_le (by omega), Nat.mul_zero, Nat.pow_zero, Nat.div_one]

theorem readByte_ok {b : UInt8} (h : s.Ahead (b :: rest)) :
    ∃ s', readByte s = .ok b s' ∧ s'.Ahead rest ∧ s'.numFutureBytes = s.numFutureBytes - 1 := by
  obtain ⟨held, hlen, h4, hval, hrest⟩ := h
  cases held with
  | nil =>
    have hnum : s.numFutureBytes = 0 := hlen.symm
    have hinput : s.input = b :: rest := hrest
    refine ⟨{ s with input := rest }, ?_, ⟨[], hlen, h4, hval, rfl⟩, by rw [hnum]⟩
    change (if s.numFutureBytes = 0 then get else _ : StreamM UInt8) s = _
    rw [if_pos hnum, get, hinput]
  | cons a held =>
    rw [List.length_cons] at hlen h4
    obtain ⟨rfl, rfl⟩ : a = b ∧ held ++ s.input = rest := by simpa using hrest
    have hnum : s.numFutureBytes ≠ 0 := by omega
    have hpred : s.numFutureBytes - 1 = held.length := by omega
    have hsplit : s.futureBytes = a.toNat * 2 ^ (8 * held.length) + ofBytes held := by
      rw [← hval, show a :: held = [a] ++ held from rfl, ofBytes_append]
      simp [ofBytes]
    have hheld := ofBytes_lt held
    have hlt : s.futureBytes < 2 ^ (8 * held.length + 8) := by
      rw [← hval]
      exact ofBytes_lt (a :: held)
    refine ⟨{ s with numFutureBytes := held.length, futureBytes := ofBytes held }, ?_,
      ⟨held, rfl, by omega, rfl, rfl⟩, by rw [hpred]⟩
    have hmask := and_clear hlt (by omega)
    rw [hsplit, Nat.mul_add_mod_of_lt hheld, ← hsplit] at hmask
    have htop : UInt8.ofNat (s.futureBytes >>> (8 * held.length)) = a := by
      rw [Nat.shiftRight_eq_div_pow, hsplit, Nat.mul_comm, Nat.mul_add_div (Nat.two_pow_pos _),
        Nat.div_eq_of_lt hheld, Nat.add_zero]
      exact UInt8.ofNat_toNat
    change (if s.numFutureBytes = 0 then get else _ : StreamM UInt8) s = _
    rw [if_neg hnum]
    change EStateM.Result.ok (UInt8.ofNat (s.futureBytes >>> (8 * (s.numFutureBytes - 1))))
      { s with numFutureBytes := s.numFutureBytes - 1,
               futureBytes := s.futureBytes &&& (0xffffffff ^^^ 0xff <<< (8 * (s.numFutureBytes - 1))) }
      = _
    rw [hpred, hmask, htop]

theorem readByte_eof (h : s.Ahead []) : readByte s = .error .eof s := by
  obtain ⟨held, hlen, -, -, hrest⟩ := h
  obtain ⟨rfl, hinput⟩ := List.append_eq_nil_iff.mp hrest
  have hnum : s.numFutureBytes = 0 := hlen.symm
  change (if s.numFutureBytes = 0 then get else _ : StreamM UInt8) s = _
  rw [if_pos hnum, get, hinput]

theorem readBytes_ok (bytes : List UInt8) : ∀ {s : InputByteStream} {val : Nat},
    s.Ahead (bytes ++ rest) → ofBytes bytes + val * 2 ^ (8 * bytes.length) < 2 ^ 32 →
    ∃ s', readBytes bytes.length val s = .ok (ofBytes bytes + val * 2 ^ (8 * bytes.length)) s' ∧
      s'.Ahead rest ∧ s'.numFutureBytes = s.numFutureBytes - bytes.length := by
  induction bytes with
  | nil => exact fun {s val} h _ => ⟨s, by simp [readBytes, pure, EStateM.pure], h, rfl⟩
  | cons b bytes ih =>
    intro s val h hlt
    obtain ⟨s₁, hs₁, h₁, hnum₁⟩ := readByte_ok h
    have hcons : ofBytes (b :: bytes) + val * 2 ^ (8 * (b :: bytes).length) =
        ofBytes bytes + (val * 2 ^ 8 + b.toNat) * 2 ^ (8 * bytes.length) := by
      rw [show b :: bytes = [b] ++ bytes from rfl, ofBytes_append, List.length_append, Nat.mul_add,
        Nat.pow_add]
      simp only [ofBytes, List.foldl_cons, List.foldl_nil, List.length_singleton]
      ring
    rw [hcons] at hlt ⊢
    have hval : val * 2 ^ 8 + b.toNat < 2 ^ 32 :=
      calc val * 2 ^ 8 + b.toNat
          ≤ (val * 2 ^ 8 + b.toNat) * 2 ^ (8 * bytes.length) :=
            Nat.le_mul_of_pos_right _ (Nat.two_pow_pos _)
        _ ≤ ofBytes bytes + (val * 2 ^ 8 + b.toNat) * 2 ^ (8 * bytes.length) := Nat.le_add_left _ _
        _ < 2 ^ 32 := hlt
    obtain ⟨s₂, hs₂, h₂, hnum₂⟩ := ih h₁ hlt
    refine ⟨s₂, ?_, h₂, by rw [hnum₂, hnum₁, List.length_cons]; omega⟩
    rw [List.length_cons, readBytes, run_bind_ok hs₁, Nat.shiftLeft_eq,
      u32_of_lt (Nat.lt_of_le_of_lt (Nat.le_add_right _ _) hval), Nat.mul_comm val, ← Nat.two_pow_add_eq_or_of_lt b.toNat_lt, Nat.mul_comm (2 ^ 8), hs₂]

/-! ## Looking for start codes -/

theorem lookAhead_spec (h : s.Ahead rest) (h4 : n ≤ 4) (p : Nat → Bool) :
    ∃ s', lookAhead n p s = .ok (decide (rest.length < n) || p (ofBytes (rest.take n))) s' ∧
      s'.Ahead rest ∧ s'.numFutureBytes = max s.numFutureBytes (min n rest.length) := by
  obtain ⟨s₁, hs₁, h₁, hnum₁⟩ := eofBeforeNBytes_spec h h4
  by_cases hn : rest.length < n
  · refine ⟨s₁, ?_, h₁, hnum₁⟩
    rw [lookAhead, run_bind_ok hs₁, decide_eq_true hn]
    rfl
  · obtain ⟨s₂, hs₂, h₂, hnum₂⟩ := peekBytes_spec (n := n) h₁ h4
    refine ⟨s₂, ?_, h₂, by omega⟩
    rw [lookAhead, run_bind_ok hs₁, decide_eq_false hn]
    change (peekBytes n >>= fun word => pure (p word)) s₁ = _
    rw [run_bind_ok hs₂]
    rfl

/-- The reader stands at a start code, and holds it. -/
theorem beforeStartCode_false {long : Bool} {tail : List UInt8}
    (h : s.Ahead (startCodePrefix long ++ tail)) :
    ∃ s', beforeStartCode s = .ok false s' ∧ s'.Ahead (startCodePrefix long ++ tail) ∧
      s'.numFutureBytes = max s.numFutureBytes (startCodePrefix long).length := by
  obtain ⟨s₁, hs₁, h₁, hnum₁⟩ := lookAhead_spec h (show 3 ≤ 4 by decide) (· ≠ 0x000001)
  rw [List.length_append] at hnum₁
  cases long with
  | false =>
    have hshort : (startCodePrefix false).length = 3 := rfl
    refine ⟨s₁, ?_, h₁, by omega⟩
    have hlen : ¬(startCodePrefix false ++ tail).length < 3 := by simp [startCodePrefix]
    rw [beforeStartCode, run_bind_ok hs₁, decide_eq_false hlen]
    rfl
  | true =>
    obtain ⟨s₂, hs₂, h₂, hnum₂⟩ := lookAhead_spec h₁ (show 4 ≤ 4 by decide) (· ≠ 0x00000001)
    have hlong : (startCodePrefix true).length = 4 := rfl
    refine ⟨s₂, ?_, h₂, by rw [List.length_append] at hnum₂; omega⟩
    have hlen : ¬(startCodePrefix true ++ tail).length < 4 := by simp [startCodePrefix]
    have hword : decide (ofBytes ((startCodePrefix true ++ tail).take 3) ≠ 0x000001) = true := rfl
    rw [decide_eq_false hlen] at hs₂
    rw [beforeStartCode, run_bind_ok hs₁, hword, Bool.or_true, if_pos rfl, hs₂]
    rfl

/-- The reader stands inside a unit: no byte triple of a start code is next. -/
theorem insideNalUnit_true {a : UInt8} (h : s.Ahead (a :: rest)) (hno : NoStartCode ((a :: rest).take 3)) :
    ∃ s', insideNalUnit s = .ok true s' ∧ s'.Ahead (a :: rest) ∧
      s'.numFutureBytes ≤ max s.numFutureBytes 3 := by
  obtain ⟨s₁, hs₁, h₁, hnum₁⟩ := lookAhead_spec h (show 3 ≤ 4 by decide) (· > 2)
  refine ⟨s₁, ?_, h₁, by omega⟩
  rw [insideNalUnit, hs₁]
  congr 1
  match rest, hno with
  | [], _ => simp
  | [_], _ => simp
  | b :: c :: rest, hno =>
    have hne : ¬(a = 0 ∧ b = 0 ∧ c ≤ 2) := hno.1
    have hbig : 2 < (a.toNat * 256 + b.toNat) * 256 + c.toNat := by
      by_contra hle
      refine hne ⟨UInt8.toNat_inj.mp ?_, UInt8.toNat_inj.mp ?_, UInt8.le_iff_toNat_le.mpr ?_⟩
      · simp; omega
      · simp; omega
      · simp; omega
    simp [ofBytes]
    omega

theorem insideNalUnit_eof (h : s.Ahead []) : ∃ s', insideNalUnit s = .ok true s' ∧ s'.Ahead [] := by
  obtain ⟨s₁, hs₁, h₁, -⟩ := lookAhead_spec h (show 3 ≤ 4 by decide) (· > 2)
  exact ⟨s₁, by rw [insideNalUnit, hs₁]; rfl, h₁⟩

theorem beforeStartCode_eof (h : s.Ahead []) :
    ∃ s', beforeStartCode s = .ok true s' ∧ s'.Ahead [] := by
  obtain ⟨s₁, hs₁, h₁, -⟩ := lookAhead_spec h (show 3 ≤ 4 by decide) (· ≠ 0x000001)
  obtain ⟨s₂, hs₂, h₂, -⟩ := lookAhead_spec h₁ (show 4 ≤ 4 by decide) (· ≠ 0x00000001)
  refine ⟨s₂, ?_, h₂⟩
  rw [beforeStartCode, run_bind_ok hs₁]
  exact hs₂

/-- The next three bytes end a unit: those of a start code, or three zeros. -/
def Stops (next : List UInt8) : Prop := 3 ≤ next.length ∧ ofBytes (next.take 3) ≤ 2

theorem stops_startCodePrefix (long : Bool) (tail : List UInt8) :
    Stops (startCodePrefix long ++ tail) := by
  cases long <;> simp [Stops, startCodePrefix, ofBytes]

theorem Stops.zero_cons {next : List UInt8} (h : Stops next) : Stops (0 :: next) := by
  obtain ⟨hlen, hword⟩ := h
  refine ⟨by rw [List.length_cons]; omega, ?_⟩
  calc ofBytes ((0 :: next).take 3)
      = ofBytes ((next.take 3).take 2) := by
        rw [List.take_succ_cons, List.take_take]
        simp [ofBytes]
    _ = ofBytes (next.take 3) / 2 ^ (8 * ((next.take 3).length - 2)) := ofBytes_take _ 2
    _ ≤ 2 := Nat.le_trans (Nat.div_le_self _ _) hword

theorem insideNalUnit_false {next : List UInt8} (h : s.Ahead next) (hstop : Stops next) :
    ∃ s', insideNalUnit s = .ok false s' ∧ s'.Ahead next ∧
      s'.numFutureBytes = max s.numFutureBytes 3 := by
  obtain ⟨hlen, hword⟩ := hstop
  obtain ⟨s₁, hs₁, h₁, hnum₁⟩ := lookAhead_spec h (show 3 ≤ 4 by decide) (· > 2)
  refine ⟨s₁, ?_, h₁, by omega⟩
  rw [insideNalUnit, hs₁, decide_eq_false (by omega), Bool.false_or, decide_eq_false (by omega)]

end InputByteStream

/-! ## The loops -/

open InputByteStream hiding get

variable {p : Parse} {rest : List UInt8}

theorem onStream_ok {α : Type} {x : StreamM α} {a : α} {bs : InputByteStream}
    (h : x p.bs = .ok a bs) : onStream x p = .ok a { p with bs } := by
  rw [onStream, h]

theorem onStream_error {α : Type} {x : StreamM α} {e : Thrown} {bs : InputByteStream}
    (h : x p.bs = .error e bs) : onStream x p = .error e { p with bs } := by
  rw [onStream, h]

theorem whileByte_eq (cond : StreamM Bool) (body : UInt8 → ParseM Unit) (h : p.bs.Ahead rest) :
    whileByte cond body p = readWhile cond body (rest.length + 1) p := by
  rw [h.length]
  rfl

/-- The loops that skip zero bytes do nothing at a start code. -/
theorem readWhile_beforeStartCode {long : Bool} (body : UInt8 → ParseM Unit) (fuel : Nat)
    (h : p.bs.Ahead (startCodePrefix long ++ rest)) :
    ∃ bs, readWhile beforeStartCode body (fuel + 1) p = .ok () { p with bs } ∧
      bs.Ahead (startCodePrefix long ++ rest) ∧
      bs.numFutureBytes = max p.bs.numFutureBytes (startCodePrefix long).length := by
  obtain ⟨bs, hbs, hahead, hnum⟩ := beforeStartCode_false h
  refine ⟨bs, ?_, hahead, hnum⟩
  rw [readWhile, run_bind_ok (onStream_ok hbs)]
  rfl

theorem whileByte_beforeStartCode {long : Bool} (body : UInt8 → ParseM Unit)
    (h : p.bs.Ahead (startCodePrefix long ++ rest)) :
    ∃ bs, whileByte beforeStartCode body p = .ok () { p with bs } ∧
      bs.Ahead (startCodePrefix long ++ rest) := by
  obtain ⟨bs, hbs, hahead, -⟩ := readWhile_beforeStartCode body _ h
  exact ⟨bs, by rw [whileByte_eq _ _ h, hbs], hahead⟩

/-- One round of the loop that collects the unit. -/
theorem readWhile_push {b : UInt8} {fuel : Nat} (h : p.bs.Ahead (b :: rest))
    (hno : NoStartCode ((b :: rest).take 3)) :
    ∃ bs, bs.Ahead rest ∧ bs.numFutureBytes ≤ max p.bs.numFutureBytes 3 ∧
      readWhile insideNalUnit pushByte (fuel + 1) p =
        readWhile insideNalUnit pushByte fuel { p with bs, nalUnit := p.nalUnit ++ [b] } := by
  obtain ⟨bs₁, hbs₁, h₁, hnum₁⟩ := insideNalUnit_true h hno
  obtain ⟨bs₂, hbs₂, h₂, hnum₂⟩ := readByte_ok h₁
  refine ⟨bs₂, h₂, by omega, ?_⟩
  rw [readWhile, run_bind_ok (onStream_ok hbs₁), if_pos rfl, run_bind_ok (onStream_ok hbs₂)]
  rfl

/-- No start code begins before the end of `unit` when `next` follows it. -/
def Delimits (unit next : List UInt8) : Prop :=
  ∀ pre b post, unit = pre ++ b :: post → NoStartCode ((b :: post ++ next).take 3)

theorem Delimits.tail {b : UInt8} {unit next : List UInt8} (h : Delimits (b :: unit) next) :
    Delimits unit next := fun pre c post heq => h (b :: pre) c post (by rw [heq]; rfl)

/-- The loop collects the unit up to the bytes that end it, and holds three of them. -/
theorem readWhile_unit {next : List UInt8} (hstop : Stops next) (unit : List UInt8) :
    ∀ {p : Parse} {fuel : Nat}, p.bs.Ahead (unit ++ next) → Delimits unit next →
    unit.length < fuel → p.bs.numFutureBytes ≤ 3 →
    ∃ bs, readWhile insideNalUnit pushByte fuel p =
        .ok () { p with bs, nalUnit := p.nalUnit ++ unit } ∧
      bs.Ahead next ∧ bs.numFutureBytes = 3 := by
  induction unit with
  | nil =>
    intro p fuel h _ hfuel hnum
    obtain ⟨fuel, rfl⟩ : ∃ k, fuel = k + 1 := ⟨fuel - 1, by rw [List.length_nil] at hfuel; omega⟩
    obtain ⟨bs, hbs, hahead, hnum'⟩ := insideNalUnit_false h hstop
    refine ⟨bs, ?_, hahead, by rw [hnum', Nat.max_eq_right hnum]⟩
    rw [readWhile, run_bind_ok (onStream_ok hbs), List.append_nil]
    rfl
  | cons b unit ih =>
    intro p fuel h hdel hfuel hnum
    rw [List.length_cons] at hfuel
    obtain ⟨fuel, rfl⟩ : ∃ k, fuel = k + 1 := ⟨fuel - 1, by omega⟩
    obtain ⟨bs₁, h₁, hnum₁, hstep⟩ := readWhile_push h (hdel [] b unit rfl)
    rw [Nat.max_eq_right hnum] at hnum₁
    obtain ⟨bs₂, hbs₂, h₂, hnum₂⟩ := ih (p := { p with bs := bs₁, nalUnit := p.nalUnit ++ [b] }) h₁
      hdel.tail (show unit.length < fuel by omega) hnum₁
    refine ⟨bs₂, ?_, h₂, hnum₂⟩
    rw [hstep, hbs₂, List.append_assoc]
    rfl

/-- At the end of the input the loop collects the unit and throws. -/
theorem readWhile_last (unit : List UInt8) : ∀ {p : Parse} {fuel : Nat},
    p.bs.Ahead unit → Delimits unit [] → unit.length < fuel →
    ∃ bs, readWhile insideNalUnit pushByte fuel p =
        .error .eof { p with bs, nalUnit := p.nalUnit ++ unit } ∧ bs.Ahead [] := by
  induction unit with
  | nil =>
    intro p fuel h _ hfuel
    obtain ⟨fuel, rfl⟩ : ∃ k, fuel = k + 1 := ⟨fuel - 1, by rw [List.length_nil] at hfuel; omega⟩
    obtain ⟨bs, hbs, hahead⟩ := insideNalUnit_eof h
    refine ⟨bs, ?_, hahead⟩
    rw [readWhile, run_bind_ok (onStream_ok hbs), if_pos rfl,
      run_bind_error (onStream_error (readByte_eof hahead)), List.append_nil]
  | cons b unit ih =>
    intro p fuel h hdel hfuel
    rw [List.length_cons] at hfuel
    obtain ⟨fuel, rfl⟩ : ∃ k, fuel = k + 1 := ⟨fuel - 1, by omega⟩
    have hno := hdel [] b unit rfl
    rw [List.append_nil] at hno
    obtain ⟨bs₁, h₁, -, hstep⟩ := readWhile_push h hno
    obtain ⟨bs₂, hbs₂, h₂⟩ := ih (p := { p with bs := bs₁, nalUnit := p.nalUnit ++ [b] }) h₁
      hdel.tail (show unit.length < fuel by omega)
    refine ⟨bs₂, ?_, h₂⟩
    rw [hstep, hbs₂, List.append_assoc]
    rfl

theorem whileByte_unit {unit next : List UInt8} (hstop : Stops next)
    (h : p.bs.Ahead (unit ++ next)) (hdel : Delimits unit next) (hnum : p.bs.numFutureBytes ≤ 3) :
    ∃ bs, whileByte insideNalUnit pushByte p = .ok () { p with bs, nalUnit := p.nalUnit ++ unit } ∧
      bs.Ahead next ∧ bs.numFutureBytes = 3 := by
  rw [whileByte_eq _ _ h]
  exact readWhile_unit hstop unit h hdel (by rw [List.length_append]; omega) hnum

theorem whileByte_last {unit : List UInt8} (h : p.bs.Ahead unit) (hdel : Delimits unit []) :
    ∃ bs, whileByte insideNalUnit pushByte p =
      .error .eof { p with bs, nalUnit := p.nalUnit ++ unit } ∧ bs.Ahead [] := by
  rw [whileByte_eq _ _ h]
  exact readWhile_last unit h hdel (by omega)

/-- A unit without start codes whose last byte is not zero ends where it should,
whatever follows. -/
theorem delimits_of_noStartCode (unit : List UInt8) {next : List UInt8} (hno : NoStartCode unit)
    (hlast : ∀ b, unit.getLast? = some b → b ≠ 0) : Delimits unit next := by
  intro pre b post heq
  have hsuffix : NoStartCode (b :: post) := NoStartCode.of_append pre (heq ▸ hno)
  have hlast' : ∀ c, (b :: post).getLast? = some c → c ≠ 0 := by
    intro c hc
    refine hlast c ?_
    rw [heq, List.getLast?_append, hc]
    rfl
  match post with
  | [] => exact noStartCode_take_of_ne (hlast' b rfl) next
  | [c] =>
    have hc := hlast' c rfl
    cases next with
    | nil => trivial
    | cons d next => exact ⟨fun h => hc h.2.1, trivial⟩
  | c :: d :: post => exact ⟨hsuffix.1, trivial⟩

/-! ## Trailing zeros -/

/-- One round of the loop that skips zero bytes. -/
theorem readWhile_skip (fuel : Nat) (h : p.bs.Ahead (0 :: rest))
    (hword : rest.length < 2 ∨ ofBytes ((0 :: rest).take 3) ≠ 1)
    (hword' : rest.length < 3 ∨ ofBytes ((0 :: rest).take 4) ≠ 1) :
    ∃ bs stats, bs.Ahead rest ∧ readWhile beforeStartCode skipTrailingZero (fuel + 1) p =
      readWhile beforeStartCode skipTrailingZero fuel { p with bs, stats } := by
  obtain ⟨bs₁, hbs₁, h₁, -⟩ := lookAhead_spec h (show 3 ≤ 4 by decide) (· ≠ 0x000001)
  obtain ⟨bs₂, hbs₂, h₂, -⟩ := lookAhead_spec h₁ (show 4 ≤ 4 by decide) (· ≠ 0x00000001)
  obtain ⟨bs₃, hbs₃, h₃, -⟩ := readByte_ok h₂
  have hcond₁ : (decide ((0 :: rest).length < 3) ||
      decide (ofBytes ((0 :: rest).take 3) ≠ 0x000001)) = true := by
    rw [List.length_cons, Bool.or_eq_true, decide_eq_true_iff, decide_eq_true_iff]
    omega
  have hcond₂ : (decide ((0 :: rest).length < 4) ||
      decide (ofBytes ((0 :: rest).take 4) ≠ 0x00000001)) = true := by
    rw [List.length_cons, Bool.or_eq_true, decide_eq_true_iff, decide_eq_true_iff]
    omega
  rw [hcond₁] at hbs₁
  rw [hcond₂] at hbs₂
  have hcond : beforeStartCode p.bs = .ok true bs₂ := by
    rw [beforeStartCode, run_bind_ok hbs₁, if_pos rfl, hbs₂]
  refine ⟨bs₃, { p.stats with
    numTrailingZero8BitsBytes := p.stats.numTrailingZero8BitsBytes + 1 }, h₃, ?_⟩
  rw [readWhile, run_bind_ok (onStream_ok hcond), if_pos rfl, run_bind_ok (onStream_ok hbs₃)]
  rfl

/-- Zeros before a long start code are skipped. -/
theorem readWhile_zeros (zeros : Nat) : ∀ {p : Parse} {fuel : Nat},
    p.bs.Ahead (List.replicate zeros 0 ++ (startCodePrefix true ++ rest)) → zeros < fuel →
    ∃ bs stats, readWhile beforeStartCode skipTrailingZero fuel p = .ok () { p with bs, stats } ∧
      bs.Ahead (startCodePrefix true ++ rest) ∧ bs.numFutureBytes = 4 := by
  induction zeros with
  | zero =>
    intro p fuel h hfuel
    obtain ⟨fuel, rfl⟩ : ∃ k, fuel = k + 1 := ⟨fuel - 1, by omega⟩
    obtain ⟨bs, hbs, hahead, hnum⟩ := readWhile_beforeStartCode skipTrailingZero fuel h
    refine ⟨bs, p.stats, hbs, hahead, ?_⟩
    exact hnum.trans (Nat.max_eq_right h.num_le)
  | succ zeros ih =>
    intro p fuel h hfuel
    obtain ⟨fuel, rfl⟩ : ∃ k, fuel = k + 1 := ⟨fuel - 1, by omega⟩
    rw [List.replicate_succ, List.cons_append] at h
    have hzeros : 0 :: (List.replicate zeros 0 ++ (startCodePrefix true ++ rest)) =
        List.replicate (zeros + 4) 0 ++ 1 :: rest := by
      rw [show startCodePrefix true = List.replicate 3 0 ++ [1] from rfl, List.append_assoc,
        ← List.append_assoc (List.replicate zeros 0), List.replicate_append_replicate,
        ← List.cons_append, ← List.replicate_succ]
      rfl
    have hword : ∀ n ≤ 4, ofBytes ((0 :: (List.replicate zeros 0 ++
        (startCodePrefix true ++ rest))).take n) ≠ 1 := by
      intro n hn
      rw [hzeros, List.take_append_of_le_length (by rw [List.length_replicate]; omega),
        List.take_replicate, ofBytes_replicate_zero]
      decide
    obtain ⟨bs₁, stats, h₁, hstep⟩ := readWhile_skip fuel h
      (.inr (hword 3 (by decide))) (.inr (hword 4 le_rfl))
    obtain ⟨bs₂, stats', hbs₂, h₂, hnum₂⟩ := ih (p := { p with bs := bs₁, stats }) h₁
      (show zeros < fuel by omega)
    exact ⟨bs₂, stats', by rw [hstep, hbs₂], h₂, hnum₂⟩

/-- At the end of the input the loops that skip zero bytes throw. -/
theorem readWhile_eof (body : UInt8 → ParseM Unit) (fuel : Nat) (h : p.bs.Ahead []) :
    ∃ bs, readWhile beforeStartCode body (fuel + 1) p = .error .eof { p with bs } ∧
      bs.Ahead [] := by
  obtain ⟨bs, hbs, hahead⟩ := beforeStartCode_eof h
  refine ⟨bs, ?_, hahead⟩
  rw [readWhile, run_bind_ok (onStream_ok hbs), if_pos rfl,
    run_bind_error (onStream_error (readByte_eof hahead))]

/-- Zeros at the end of the input are skipped, and the loop throws. -/
theorem readWhile_zeros_last (zeros : Nat) : ∀ {p : Parse} {fuel : Nat},
    p.bs.Ahead (List.replicate zeros 0) → zeros < fuel →
    ∃ bs stats, readWhile beforeStartCode skipTrailingZero fuel p =
        .error .eof { p with bs, stats } ∧ bs.Ahead [] := by
  induction zeros with
  | zero =>
    intro p fuel h hfuel
    obtain ⟨fuel, rfl⟩ : ∃ k, fuel = k + 1 := ⟨fuel - 1, by omega⟩
    obtain ⟨bs, hbs, hahead⟩ := readWhile_eof skipTrailingZero fuel h
    exact ⟨bs, p.stats, hbs, hahead⟩
  | succ zeros ih =>
    intro p fuel h hfuel
    obtain ⟨fuel, rfl⟩ : ∃ k, fuel = k + 1 := ⟨fuel - 1, by omega⟩
    have hword : ∀ n, ofBytes ((List.replicate (zeros + 1) (0 : UInt8)).take n) ≠ 1 := by
      intro n
      rw [List.take_replicate, ofBytes_replicate_zero]
      decide
    obtain ⟨bs₁, stats, h₁, hstep⟩ := readWhile_skip fuel h (.inr (hword 3))
      (.inr (hword 4))
    obtain ⟨bs₂, stats', hbs₂, h₂⟩ := ih (p := { p with bs := bs₁, stats }) h₁
      (show zeros < fuel by omega)
    exact ⟨bs₂, stats', by rw [hstep, hbs₂], h₂⟩

/-! ## One call -/

/-- The zero byte is taken off a long start code. -/
theorem readZeroByte_ok {long : Bool} (h : p.bs.Ahead (startCodePrefix long ++ rest)) :
    ∃ bs stats, readZeroByte p = .ok () { p with bs, stats } ∧
      bs.Ahead (startCodePrefix false ++ rest) ∧
      stats.startBytes = p.stats.startBytes + long.toNat := by
  obtain ⟨bs₁, hbs₁, h₁, -⟩ := peekBytes_spec (n := 3) h (by decide)
  cases long with
  | false =>
    refine ⟨bs₁, p.stats, ?_, h₁, rfl⟩
    rw [readZeroByte, run_bind_ok (onStream_ok hbs₁)]
    rfl
  | true =>
    obtain ⟨bs₂, hbs₂, h₂, -⟩ := readByte_ok h₁
    refine ⟨bs₂, { p.stats with numZeroByteBytes := p.stats.numZeroByteBytes + 1 }, ?_, h₂,
      Nat.add_right_comm _ 1 _⟩
    rw [readZeroByte, run_bind_ok (onStream_ok hbs₁)]
    change (onStream readByte >>= _) { p with bs := bs₁ } = _
    rw [run_bind_ok (onStream_ok hbs₂)]
    rfl

theorem readStartCodePrefix_ok (h : p.bs.Ahead (startCodePrefix false ++ rest)) :
    ∃ bs stats, readStartCodePrefix p = .ok () { p with bs, stats } ∧ bs.Ahead rest ∧
      bs.numFutureBytes ≤ 1 ∧ stats.startBytes = p.stats.startBytes + 3 := by
  obtain ⟨bs₁, hbs₁, h₁, hnum₁⟩ := readBytes_ok [0, 0, 1] h
    (show ofBytes [0, 0, 1] + 0 * _ < _ by decide)
  have hle := h.num_le
  refine ⟨bs₁, { p.stats with numStartCodePrefixBytes := p.stats.numStartCodePrefixBytes + 3 }, ?_,
    h₁, by rw [hnum₁]; exact Nat.sub_le_sub_right hle 3, rfl⟩
  have hread : onStream (readBytes 3 0) p = .ok 0x000001 { p with bs := bs₁ } := onStream_ok hbs₁
  rw [readStartCodePrefix, run_bind_ok hread]
  rfl

/-- A call that starts at a start code comes to the unit with at most one byte held. -/
theorem byteStreamNALUnit_start {long : Bool} (h : p.bs.Ahead (startCodePrefix long ++ rest)) :
    ∃ bs stats, byteStreamNALUnitBody p = (whileByte insideNalUnit pushByte >>= fun _ =>
        whileByte beforeStartCode skipTrailingZero) { p with bs, stats } ∧
      bs.Ahead rest ∧ bs.numFutureBytes ≤ 1 ∧
      stats.startBytes = p.stats.startBytes + (startCodePrefix long).length := by
  obtain ⟨bs₁, hbs₁, h₁⟩ := whileByte_beforeStartCode skipLeadingZero h
  obtain ⟨bs₂, stats₂, hbs₂, h₂, hstats₂⟩ := readZeroByte_ok (p := { p with bs := bs₁ }) h₁
  obtain ⟨bs₃, stats₃, hbs₃, h₃, hnum₃, hstats₃⟩ :=
    readStartCodePrefix_ok (p := { p with bs := bs₂, stats := stats₂ }) h₂
  have hlen : (startCodePrefix long).length = long.toNat + 3 := by cases long <;> rfl
  refine ⟨bs₃, stats₃, ?_, h₃, hnum₃, by rw [hstats₃, hstats₂, hlen, Nat.add_assoc]⟩
  rw [byteStreamNALUnitBody, run_bind_ok hbs₁, run_bind_ok hbs₂, run_bind_ok hbs₃]

/-- Zeros before a start code make it a long one. -/
theorem replicate_startCodePrefix (zeros : Nat) (long : Bool) :
    ∃ k, List.replicate zeros 0 ++ startCodePrefix long =
      List.replicate k 0 ++ startCodePrefix (long || decide (0 < zeros)) ∧
        ((long || decide (0 < zeros)) = false → k = 0) := by
  cases zeros with
  | zero => exact ⟨0, by rw [decide_eq_false (lt_irrefl 0), Bool.or_false], fun _ => rfl⟩
  | succ zeros =>
    rw [decide_eq_true (Nat.succ_pos zeros), Bool.or_true]
    cases long with
    | false =>
      exact ⟨zeros, by rw [List.replicate_succ', List.append_assoc]; rfl, fun h => by simp at h⟩
    | true => exact ⟨zeros + 1, rfl, fun h => by simp at h⟩

/-- The loop behind a unit stops at the next start code, and holds it. -/
theorem whileByte_zeros {zeros : Nat} {long : Bool}
    (h : p.bs.Ahead (List.replicate zeros 0 ++ (startCodePrefix long ++ rest)))
    (hnum : p.bs.numFutureBytes = 3) :
    ∃ bs stats, whileByte beforeStartCode skipTrailingZero p = .ok () { p with bs, stats } ∧
      bs.Ahead (startCodePrefix (long || decide (0 < zeros)) ++ rest) ∧
      bs.numFutureBytes = (startCodePrefix (long || decide (0 < zeros))).length := by
  obtain ⟨k, hk, hshort⟩ := replicate_startCodePrefix zeros long
  rw [← List.append_assoc, hk, List.append_assoc] at h
  rw [whileByte_eq _ _ h]
  cases hlong : (long || decide (0 < zeros)) with
  | false =>
    obtain rfl := hshort hlong
    rw [hlong, List.replicate_zero, List.nil_append] at h
    obtain ⟨bs, hbs, hahead, hnum'⟩ := readWhile_beforeStartCode skipTrailingZero
      (List.replicate 0 0 ++ (startCodePrefix false ++ rest)).length h
    exact ⟨bs, p.stats, hbs, hahead, by rw [hnum', hnum]; rfl⟩
  | true =>
    rw [hlong] at h
    exact readWhile_zeros k h (by rw [List.length_append, List.length_replicate]; omega)

/-- Trailing zeros end a unit when a start code follows. -/
theorem stops_zeros (zeros : Nat) (long : Bool) (tail : List UInt8) :
    Stops (List.replicate zeros 0 ++ (startCodePrefix long ++ tail)) := by
  induction zeros with
  | zero => exact stops_startCodePrefix long tail
  | succ zeros ih =>
    rw [List.replicate_succ, List.cons_append]
    exact ih.zero_cons

/-- A call that starts at a start code and finds another one stops there and
holds its bytes. -/
theorem byteStreamNALUnit_next {long long' : Bool} {unit : List UInt8} {z : Nat}
    (hp : p.nalUnit = [])
    (h : p.bs.Ahead (startCodePrefix long ++ (unit ++
      (List.replicate z 0 ++ (startCodePrefix long' ++ rest)))))
    (hdel : Delimits unit (List.replicate z 0 ++ (startCodePrefix long' ++ rest))) :
    ∃ bs stats, byteStreamNALUnitBody p = .ok () ⟨bs, unit, stats⟩ ∧
      bs.Ahead (startCodePrefix (long' || decide (0 < z)) ++ rest) ∧
      bs.numFutureBytes = (startCodePrefix (long' || decide (0 < z))).length := by
  obtain ⟨bs₁, stats₁, hbody, h₁, hnum₁, -⟩ := byteStreamNALUnit_start h
  obtain ⟨bs₂, hbs₂, h₂, hnum₂⟩ := whileByte_unit (p := { p with bs := bs₁, stats := stats₁ })
    (stops_zeros z long' rest) h₁ hdel (Nat.le_trans hnum₁ (by decide))
  obtain ⟨bs₃, stats₃, hbs₃, h₃, hnum₃⟩ := whileByte_zeros
    (p := { p with bs := bs₂, nalUnit := p.nalUnit ++ unit, stats := stats₁ }) h₂ hnum₂
  refine ⟨bs₃, stats₃, ?_, h₃, hnum₃⟩
  rw [hbody, run_bind_ok hbs₂, hbs₃]
  simp [hp]

/-- A call that finds the last unit. -/
theorem byteStreamNALUnit_last {long : Bool} {unit : List UInt8} (hp : p.nalUnit = [])
    (h : p.bs.Ahead (startCodePrefix long ++ unit)) (hdel : Delimits unit []) :
    ∃ bs stats, byteStreamNALUnitBody p = .error .eof ⟨bs, unit, stats⟩ ∧ bs.Ahead [] := by
  obtain ⟨bs₁, stats₁, hbody, h₁, -⟩ := byteStreamNALUnit_start h
  obtain ⟨bs₂, hbs₂, h₂⟩ := whileByte_last (p := { p with bs := bs₁, stats := stats₁ }) h₁ hdel
  refine ⟨bs₂, stats₁, ?_, h₂⟩
  rw [hbody, run_bind_error hbs₂]
  simp [hp]

/-- A call at the end of the input. -/
theorem byteStreamNALUnit_eof (h : p.bs.Ahead []) :
    ∃ bs, byteStreamNALUnitBody p = .error .eof { p with bs } ∧ bs.Ahead [] := by
  obtain ⟨bs, hbs, hahead⟩ := readWhile_eof skipLeadingZero 0 h
  refine ⟨bs, ?_, hahead⟩
  rw [byteStreamNALUnitBody, run_bind_error (by rw [whileByte_eq _ _ h]; exact hbs)]

/-- A call that finds the last unit and zeros behind it. -/
theorem byteStreamNALUnit_last_zeros {long : Bool} {unit : List UInt8} {zeros : Nat}
    (hp : p.nalUnit = []) (hzeros : 3 ≤ zeros)
    (h : p.bs.Ahead (startCodePrefix long ++ (unit ++ List.replicate zeros 0)))
    (hdel : Delimits unit (List.replicate zeros 0)) :
    ∃ bs stats, byteStreamNALUnitBody p = .error .eof ⟨bs, unit, stats⟩ ∧ bs.Ahead [] := by
  have hstop : Stops (List.replicate zeros 0) := by
    refine ⟨by rw [List.length_replicate]; exact hzeros, ?_⟩
    rw [List.take_replicate, ofBytes_replicate_zero]
    exact Nat.zero_le 2
  obtain ⟨bs₁, stats₁, hbody, h₁, hnum₁, -⟩ := byteStreamNALUnit_start h
  obtain ⟨bs₂, hbs₂, h₂, -⟩ := whileByte_unit (p := { p with bs := bs₁, stats := stats₁ })
    hstop h₁ hdel (Nat.le_trans hnum₁ (by decide))
  obtain ⟨bs₃, stats₃, hbs₃, h₃⟩ := readWhile_zeros_last zeros
    (p := { p with bs := bs₂, nalUnit := p.nalUnit ++ unit, stats := stats₁ }) h₂ (Nat.lt_succ_self _)
  refine ⟨bs₃, stats₃, ?_, h₃⟩
  rw [hbody, run_bind_ok hbs₂, whileByte_eq _ _ h₂, List.length_replicate, hbs₃]
  simp [hp]

/-! ## What is counted -/

/-- The call does not touch what was counted in front of the unit. -/
def KeepsStartBytes {α : Type} (x : ParseM α) : Prop := ∀ p,
  match x p with
  | .ok _ q | .error _ q => q.stats.startBytes = p.stats.startBytes

theorem keepsStartBytes_bind {α β : Type} {x : ParseM α} {f : α → ParseM β} (hx : KeepsStartBytes x)
    (hf : ∀ a, KeepsStartBytes (f a)) : KeepsStartBytes (x >>= f) := by
  intro p
  have hp := hx p
  cases hrun : x p with
  | error e q =>
    rw [hrun] at hp
    rw [run_bind_error hrun]
    exact hp
  | ok a q =>
    rw [hrun] at hp
    rw [run_bind_ok hrun]
    have hq := hf a q
    rw [hp] at hq
    exact hq

theorem keepsStartBytes_onStream {α : Type} (x : StreamM α) : KeepsStartBytes (onStream x) := by
  intro p
  rw [onStream]
  cases x p.bs <;> rfl

theorem keepsStartBytes_readWhile {cond : StreamM Bool} {body : UInt8 → ParseM Unit}
    (hbody : ∀ b, KeepsStartBytes (body b)) (fuel : Nat) :
    KeepsStartBytes (readWhile cond body fuel) := by
  induction fuel with
  | zero => exact fun _ => rfl
  | succ fuel ih =>
    refine keepsStartBytes_bind (keepsStartBytes_onStream cond) fun go => ?_
    cases go with
    | false => exact fun _ => rfl
    | true =>
      exact keepsStartBytes_bind (keepsStartBytes_onStream _) fun b =>
        keepsStartBytes_bind (hbody b) fun _ => ih

theorem keepsStartBytes_skipTrailingZero (b : UInt8) : KeepsStartBytes (skipTrailingZero b) := by
  intro p
  by_cases hb : b = 0
  · rw [hb]
    rfl
  · rw [skipTrailingZero, if_pos hb]
    rfl

/-- A call that starts at a start code counts its bytes. -/
theorem byteStreamNALUnit_startBytes {long : Bool} (h : p.bs.Ahead (startCodePrefix long ++ rest)) :
    (byteStreamNALUnit p).2.stats.startBytes =
      p.stats.startBytes + (startCodePrefix long).length := by
  obtain ⟨bs, stats, hbody, -, -, hstats⟩ := byteStreamNALUnit_start h
  have hloops : KeepsStartBytes (whileByte insideNalUnit pushByte >>= fun _ =>
      whileByte beforeStartCode skipTrailingZero) :=
    keepsStartBytes_bind (fun q => keepsStartBytes_readWhile (fun _ _ => rfl) _ q)
      fun _ q => keepsStartBytes_readWhile keepsStartBytes_skipTrailingZero _ q
  have hkeep := hloops { p with bs, stats }
  rw [← hbody] at hkeep
  rw [byteStreamNALUnit]
  cases hrun : byteStreamNALUnitBody p with
  | ok a q =>
    rw [hrun] at hkeep
    exact hkeep.trans hstats
  | error e q =>
    rw [hrun] at hkeep
    exact hkeep.trans hstats

end ECM.DecoderLib.AnnexBread
