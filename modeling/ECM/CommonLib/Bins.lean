import ECM.CommonLib.TypeDef
import ECM.Lib.Bits
import ECM.Lib.Codec

/-! # Bins

The bins that the writers of CTU syntax hand to the arithmetic coder, each bypass
bin on its own, and each other bin with its context. -/

namespace ECM.CommonLib.Bins
open Lib.Bits Lib.Codec

/-- The context sets `Ctx::…` that the modelled syntax uses; some of them are arrays of sets. -/
inductive CtxSet where
  | SaoMergeFlag
  | SaoTypeIdx
  | CcSaoControlIdc
  | BifCtrlFlags
  | ChromaBifCtrlFlagsCb
  | ChromaBifCtrlFlagsCr
  | ctbAlfFlag
  | ctbAlfAlternative
  | AlfUseTemporalFilt
  | CcAlfFilterControlFlag
  | RotationFlag
  | RunTypeFlag
  | IdxRunModel
  | CopyRunModel
  | DeltaQP
  | ChromaQpAdjFlag
  | ChromaQpAdjIdc
  | Mvd
  | Bvd
  | SigCoeffGroup (i : ℕ)
  | SigFlag (i : ℕ)
  | ParFlag (i : ℕ)
  | GtxFlag (i : ℕ)
  | TmpFlag
  | MipFlag
  | TimdFlag
  | MultiRefLineIdx
  | ISPMode
  | IntraLumaMpmFlag
  | IntraLumaPlanarFlag
  | IntraLumaMPMIdx
  | IntraLumaSecondMpmFlag
  | QtCbf (i : ℕ)
  | ImvFlag
  | MvsdIdx
  deriving DecidableEq, Repr

/-- A context: its set, and the increment in it. -/
structure CtxId where
  set : CtxSet
  inc : ℕ
  deriving DecidableEq, Repr

inductive Bin where
  | ctx (ctxId : CtxId) (b : Bool)
  | ep (b : Bool)
  deriving DecidableEq, Repr

abbrev BinPut := Put String Bin

abbrev BinGet := Get String Bin

/-! ## Truncated binary codes

Writer and reader find the threshold by the same lines. -/

/-- `while (threshVal <= maxSymbol) { thresh++; threshVal <<= 1; }`: `threshVal` is an `int`. -/
def threshLoop (maxSymbol : ℕ) : (rounds thresh : ℕ) → Checked ℕ
  | 0, _ => .error "shift out of range"
  | rounds + 1, thresh => if 1 <<< thresh ≤ maxSymbol then threshLoop maxSymbol rounds (thresh + 1) else .ok thresh

/-- The entries of `g_tbMax` are the positions of the highest bits. -/
def truncBinThresh (maxSymbol : ℕ) : Checked ℕ :=
  if maxSymbol > 256 then do
    let thresh ← threshLoop maxSymbol 24 8
    return thresh - 1
  else .ok maxSymbol.log2

theorem threshLoop_eq {n : ℕ} : ∀ {rounds thresh : ℕ}, thresh + rounds = 32 → 2 ^ thresh ≤ 2 * n →
    n < 2 ^ 31 → threshLoop n rounds thresh = .ok (n.log2 + 1)
  | 0, thresh, hsum, hle, h31 => by
    rw [show thresh = 32 by omega] at hle
    omega
  | rounds + 1, thresh, hsum, hle, h31 => by
    rw [threshLoop, Nat.one_shiftLeft]
    by_cases hmore : 2 ^ thresh ≤ n
    · rw [if_pos hmore]
      exact threshLoop_eq (by omega) (by rw [Nat.pow_succ]; omega) h31
    · have hn : n ≠ 0 := by
        have := Nat.two_pow_pos thresh
        omega
      obtain ⟨k, rfl⟩ : ∃ k, thresh = k + 1 := by
        refine Nat.exists_eq_succ_of_ne_zero fun hzero => ?_
        rw [hzero] at hmore
        omega
      have hlog : n.log2 = k := by
        rw [Nat.log2_eq_iff hn]
        rw [Nat.pow_succ] at hle hmore ⊢
        omega
      rw [if_neg hmore, hlog]

theorem truncBinThresh_eq {n : ℕ} (h31 : n < 2 ^ 31) : truncBinThresh n = .ok n.log2 := by
  rw [truncBinThresh]
  by_cases hlarge : n > 256
  · rw [if_pos hlarge, threshLoop_eq rfl (by omega) h31]
    rfl
  · rw [if_neg hlarge]

theorem threshLoop_error {n : ℕ} (h31 : 2 ^ 31 ≤ n) : ∀ {rounds thresh : ℕ}, thresh + rounds = 32 →
    threshLoop n rounds thresh = .error "shift out of range"
  | 0, _, _ => rfl
  | rounds + 1, thresh, hsum => by
    have hle : 2 ^ thresh ≤ 2 ^ 31 := Nat.pow_le_pow_right (by decide) (by omega)
    rw [threshLoop, Nat.one_shiftLeft, if_pos (Nat.le_trans hle h31)]
    exact threshLoop_error h31 (by omega)

theorem truncBinThresh_error {n : ℕ} (h31 : 2 ^ 31 ≤ n) : truncBinThresh n = .error "shift out of range" := by
  rw [truncBinThresh, if_pos (by omega), threshLoop_error h31 rfl]
  rfl

/-! ## Writing -/

def encodeBin (bin : Bool) (ctxId : CtxId) : BinPut Unit := Put.emit [.ctx ctxId bin]

def encodeBinEP (bin : Bool) : BinPut Unit := Put.emit [.ep bin]

/-- The coder takes at most 32 bins at once, and a word that fits them. -/
def encodeBinsEP (bins numBins : ℕ) : BinPut Unit := do
  check (numBins > 32 ∨ bins ≥ 2 ^ numBins) "bins out of range"
  Put.emit ((toBits numBins bins).map .ep)

/-! ## Reading -/

/-- A bin that was written with another context, or with none, is not the one asked for. -/
def decodeBin (ctxId : CtxId) : BinGet Bool := fun bins =>
  match bins with
  | .ctx id b :: rest => if id = ctxId then .ok (b, rest) else .error "another context"
  | _ => .error "no context-coded bin"

def decodeBinEP : BinGet Bool := fun bins =>
  match bins with
  | .ep b :: rest => .ok (b, rest)
  | _ => .error "no bypass bin"

/-- `numBins` bypass bins. -/
def decodeBypass : (numBins : ℕ) → BinGet (List Bool)
  | 0 => pure []
  | numBins + 1 => do
    let b ← decodeBinEP
    let bs ← decodeBypass numBins
    return b :: bs

def decodeBinsEP (numBins : ℕ) : BinGet ℕ := do
  let bs ← decodeBypass numBins
  return ofBits bs

/-! ## Round trips -/

variable {strict : Prop}

theorem decodeBypass_map (bs : List Bool) (rest : List Bin) :
    decodeBypass bs.length (bs.map .ep ++ rest) = .ok (bs, rest) := by
  induction bs with
  | nil => rfl
  | cons b bs ih =>
    change (decodeBypass bs.length (bs.map .ep ++ rest) >>= fun p => .ok (b :: p.1, p.2)) = _
    rw [ih]
    rfl

theorem roundTrips_bin (b : Bool) (ctxId : CtxId) :
    RoundTrips strict (encodeBin b ctxId) (decodeBin ctxId) fun _ b' => b' = b :=
  ⟨b, rfl, fun _ => if_pos rfl⟩

theorem roundTrips_binEP (b : Bool) :
    RoundTrips strict (encodeBinEP b) decodeBinEP fun _ b' => b' = b :=
  ⟨b, rfl, fun _ => rfl⟩

/-- A word of bypass bins. -/
theorem roundTrips_binsEP {v n : ℕ} (hfit : strict → n ≤ 32 ∧ v < 2 ^ n) :
    RoundTrips strict (encodeBinsEP v n) (decodeBinsEP n) fun _ v' => v' = v := by
  refine roundTrips_lift_left (fun e he hs => ?_) fun _ hc => ?_
  · obtain ⟨hn, hv⟩ := hfit hs
    rw [check_ok _ (by omega)] at he
    cases he
  · have hv : v < 2 ^ n := by
      have hfits := check_eq_ok hc
      omega
    refine ⟨v, rfl, fun rest => ?_⟩
    have hread := decodeBypass_map (toBits n v) rest
    rw [length_toBits] at hread
    change (decodeBypass n ((toBits n v).map .ep ++ rest) >>= fun p => .ok (ofBits p.1, p.2)) = _
    rw [hread, ok_bind, ofBits_toBits_of_lt hv]

/-- A word is the bins above the last one, and the last one. -/
theorem encodeBinsEP_succ {v n : ℕ} (hn : n + 1 ≤ 32) (hv : v < 2 ^ (n + 1)) :
    encodeBinsEP v (n + 1) = (encodeBinsEP (v / 2) n >>= fun _ => encodeBinEP (v.testBit 0)) := by
  have hhalf : v / 2 < 2 ^ n := by
    rw [Nat.pow_succ] at hv
    omega
  rw [encodeBinsEP, encodeBinsEP, check_ok _ (by omega), check_ok _ (by omega)]
  change Except.ok ((), (toBits (n + 1) v).map Bin.ep) =
    .ok ((), (toBits n (v / 2)).map Bin.ep ++ [Bin.ep (v.testBit 0)])
  rw [toBits_add n 1 v, Nat.pow_one, List.map_append]
  rfl

end ECM.CommonLib.Bins
