import Mathlib.Algebra.Ring.Int.Defs
import Mathlib.Logic.Function.Basic
import ECM.CommonLib.TypeDef

/-! # Dependent quantisation

The trellis search of `DepQuant::quant` and the reconstruction of
`Quantizer::dequantBlock`. The rate estimates a trellis state holds are given
for each scan position: how they follow from the neighbouring levels does not
matter here. Costs are `int64_t` in the source; none of its sums wraps while
they stay a factor two below its largest value. -/

namespace ECM.DepQuant
open CommonLib

/-- `g_stateTransTab`, by `slice->getDepQuantEnabledIdc()`. -/
def g_stateTransTab : List ℕ := [0, 587280912, 6274468666787591456]

/-- `state = int((stateTransTab >> ((state<<3)+((level&1)<<2))) & 15)`. -/
def transition (stateTransTab state : ℕ) (level : ℤ) : ℕ :=
  (stateTransTab >>> ((state <<< 3) + ((level % 2).toNat <<< 2))) &&& 15

/-! ## Scan -/

inductive ScanPosType
  | iscsbb
  | socsbb
  | eocsbb
  deriving DecidableEq

/-- The scan of a block: `scanId2BlkPos` is `m_scanId2BlkPos[scanIdx].idx`, and
visits each position once. -/
structure TUParameters where
  numCoeff : ℕ
  log2SbbSize : ℕ
  scanId2BlkPos : ℕ → ℕ
  injective : ∀ i < numCoeff, ∀ j < numCoeff, scanId2BlkPos i = scanId2BlkPos j → i = j

namespace TUParameters

def sbbSize (tuPars : TUParameters) : ℕ := 1 <<< tuPars.log2SbbSize

def insidePos (tuPars : TUParameters) (scanIdx : ℕ) : ℕ := scanIdx % tuPars.sbbSize

def eosbb (tuPars : TUParameters) (scanIdx : ℕ) : Prop := tuPars.insidePos scanIdx = 0

instance (tuPars : TUParameters) (scanIdx : ℕ) : Decidable (tuPars.eosbb scanIdx) :=
  inferInstanceAs (Decidable (_ = _))

/-- `xSetScanInfo`: the first and the last sub-block are not signalled. -/
def spt (tuPars : TUParameters) (scanIdx : ℕ) : ScanPosType :=
  if tuPars.insidePos scanIdx = tuPars.sbbSize - 1 ∧ scanIdx > tuPars.sbbSize
      ∧ scanIdx < tuPars.numCoeff - 1 then .socsbb
  else if tuPars.eosbb scanIdx ∧ scanIdx > 0 ∧ scanIdx < tuPars.numCoeff - tuPars.sbbSize then .eocsbb
  else .iscsbb

end TUParameters

/-! ## Pre-quantiser -/

structure PQData where
  absLevel : ℤ
  deltaDist : ℤ
  deriving DecidableEq, Inhabited

/-- What `initQuantBlock` computes (in floating point, from the QP and lambda). -/
structure Quantizer where
  QShift : ℕ
  QAdd : ℤ
  QScale : ℤ
  maxQIdx : ℤ
  thresLast : ℤ
  DistShift : ℕ
  DistAdd : ℤ
  DistStepAdd : ℤ
  DistOrgFact : ℤ

namespace Quantizer

/-- The quantisation index nearest to zero among the four that are tried. -/
def firstQIdx (q : Quantizer) (scaledOrg : ℤ) : ℤ :=
  max 1 (min q.maxQIdx (Int.bmod ((scaledOrg + q.QAdd) >>> q.QShift) (2 ^ 32)))

/-- `pqData[qIdx & 3]` for one quantisation index. -/
def pqEntry (q : Quantizer) (scaledOrg : ℤ) (qIdx : ℤ) : PQData where
  absLevel := (qIdx + 1) >>> (1 : ℕ)
  deltaDist := ((qIdx * q.DistStepAdd - scaledOrg * q.DistOrgFact) * qIdx + q.DistAdd) >>> q.DistShift

/-- `preQuantCoeff`: four consecutive indices, each in the entry of its residue. -/
def preQuantCoeff (q : Quantizer) (absCoeff quanCoeff : ℤ) : List PQData :=
  let scaledOrg := absCoeff * quanCoeff
  let qIdx := q.firstQIdx scaledOrg
  let pqData : List PQData := List.replicate 4 default
  let pqData := pqData.set (qIdx % 4).toNat (q.pqEntry scaledOrg qIdx)
  let pqData := pqData.set ((qIdx + 1) % 4).toNat (q.pqEntry scaledOrg (qIdx + 1))
  let pqData := pqData.set ((qIdx + 2) % 4).toNat (q.pqEntry scaledOrg (qIdx + 2))
  pqData.set ((qIdx + 3) % 4).toNat (q.pqEntry scaledOrg (qIdx + 3))

end Quantizer

/-! ## Trellis states -/

structure Decision where
  rdCost : ℤ
  absLevel : ℤ
  prevId : ℤ
  deriving DecidableEq, Inhabited

def SCALE_BITS : ℕ := 15

def RICEMAX : ℕ := 32

def g_goRiceBits : List (List ℕ) :=
  [[32768, 65536, 98304, 131072, 163840, 196608, 262144, 262144, 327680, 327680, 327680, 327680,
    393216, 393216, 393216, 393216, 393216, 393216, 393216, 393216, 458752, 458752, 458752, 458752,
    458752, 458752, 458752, 458752, 458752, 458752, 458752, 458752],
   [65536, 65536, 98304, 98304, 131072, 131072, 163840, 163840, 196608, 196608, 229376, 229376,
    294912, 294912, 294912, 294912, 360448, 360448, 360448, 360448, 360448, 360448, 360448, 360448,
    425984, 425984, 425984, 425984, 425984, 425984, 425984, 425984],
   [98304, 98304, 98304, 98304, 131072, 131072, 131072, 131072, 163840, 163840, 163840, 163840,
    196608, 196608, 196608, 196608, 229376, 229376, 229376, 229376, 262144, 262144, 262144, 262144,
    327680, 327680, 327680, 327680, 327680, 327680, 327680, 327680],
   [131072, 131072, 131072, 131072, 131072, 131072, 131072, 131072, 163840, 163840, 163840, 163840,
    163840, 163840, 163840, 163840, 196608, 196608, 196608, 196608, 196608, 196608, 196608, 196608,
    229376, 229376, 229376, 229376, 229376, 229376, 229376, 229376]]

/-- The rate estimates of a state; the members of a pair are the `intBits` of bins 0 and 1. -/
structure Rates where
  numSigSbb : ℕ
  remRegBins : ℤ
  goRicePar : ℕ
  goRiceZero : ℤ
  sbbFracBits : ℕ × ℕ
  sigFracBits : ℕ × ℕ
  coeffFracBits : List ℕ
  deriving Inhabited

namespace Rates

def goRiceTab (r : Rates) : List ℕ := g_goRiceBits.getD r.goRicePar []

/-- Bits of a level above zero while context-coded bins remain. -/
def levelBits (r : Rates) (absLevel : ℤ) : ℕ :=
  if absLevel < 4 then r.coeffFracBits.getD absLevel.toNat 0
  else
    let value := (absLevel - 4) >>> (1 : ℕ)
    r.coeffFracBits.getD (absLevel - value * 2).toNat 0
      + r.goRiceTab.getD (if value < RICEMAX then value.toNat else RICEMAX - 1) 0

/-- Bits of a level above zero in bypass mode. -/
def bypassBits (r : Rates) (absLevel : ℤ) : ℕ :=
  (1 <<< SCALE_BITS) + r.goRiceTab.getD
    (if absLevel ≤ r.goRiceZero then absLevel - 1
     else if absLevel < RICEMAX then absLevel else RICEMAX - 1).toNat 0

/-- What `checkRdCosts` adds for a level above zero. -/
def nonZeroBits (r : Rates) (spt : ScanPosType) (absLevel : ℤ) : ℕ :=
  if 4 ≤ r.remRegBins then
    r.levelBits absLevel + match spt with
      | .iscsbb => r.sigFracBits.2
      | .socsbb => r.sbbFracBits.2 + r.sigFracBits.2
      | .eocsbb => if r.numSigSbb ≠ 0 then r.sigFracBits.2 else 0
  else r.bypassBits absLevel

/-- What `checkRdCosts` adds for the level zero; a coded sub-block whose other
levels are zero cannot end in one. -/
def zeroBits (r : Rates) (spt : ScanPosType) : Option ℕ :=
  if 4 ≤ r.remRegBins then match spt with
    | .iscsbb => some r.sigFracBits.1
    | .socsbb => some (r.sbbFracBits.2 + r.sigFracBits.1)
    | .eocsbb => if r.numSigSbb ≠ 0 then some r.sigFracBits.1 else none
  else some (r.goRiceTab.getD r.goRiceZero.toNat 0)

end Rates

/-- A trellis state; `m_stateId` is its index in the array that holds it. -/
structure State where
  rdCost : ℤ
  rates : Rates
  deriving Inhabited

/-- The rate estimates of a block: those of each state after each position,
those that `init` sets, and the cost of the last position. -/
structure RateEstimator where
  rates : ℕ → ℕ → Rates
  initRates : ℕ → Rates
  startRates : Rates
  lastOffset : ℕ → ℕ

/-- `if( rdCost < decision.rdCost ) { ... }`. -/
def better (new decision : Decision) : Decision :=
  if new.rdCost < decision.rdCost then new else decision

namespace State

/-- `checkRdCosts`, on `decisionA`: the level of `pqDataA`, and zero. -/
def checkRdCostsA (s : State) (stateId : ℕ) (spt : ScanPosType) (pqDataA : PQData)
    (decisionA : Decision) : Decision :=
  let rdCostA := s.rdCost + pqDataA.deltaDist + s.rates.nonZeroBits spt pqDataA.absLevel
  let rdCostZ := match s.rates.zeroBits spt with
    | some bits => s.rdCost + bits
    | none => decisionA.rdCost
  better ⟨rdCostZ, 0, stateId⟩ (better ⟨rdCostA, pqDataA.absLevel, stateId⟩ decisionA)

/-- `checkRdCosts`, on `decisionB`. -/
def checkRdCostsB (s : State) (stateId : ℕ) (spt : ScanPosType) (pqDataB : PQData)
    (decisionB : Decision) : Decision :=
  let rdCostB := s.rdCost + pqDataB.deltaDist + s.rates.nonZeroBits spt pqDataB.absLevel
  better ⟨rdCostB, pqDataB.absLevel, stateId⟩ decisionB

def checkRdCostSkipSbb (s : State) (stateId skipOffset : ℕ) (decision : Decision) : Decision :=
  better ⟨s.rdCost + s.rates.sbbFracBits.1, 0, skipOffset + stateId⟩ decision

/-- `updateState`. -/
def updateState (est : RateEstimator) (scanIdx stateId : ℕ) (decision : Decision) (s : State) : State where
  rdCost := decision.rdCost
  rates := if decision.prevId > -2 then est.rates scanIdx stateId else s.rates

/-- `updateStateEOS`. -/
def updateStateEOS (est : RateEstimator) (scanIdx skipOffset stateId : ℕ) (decision : Decision)
    (s : State) : Checked State := do
  if decision.prevId > -2 then
    if decision.prevId ≥ skipOffset then
      check (decision.absLevel ≠ 0) "cannot happen"
  return s.updateState est scanIdx stateId decision

end State

def checkRdCostStart (est : RateEstimator) (lastOffset : ℕ) (pqData : PQData) (decision : Decision) :
    Decision :=
  better ⟨pqData.deltaDist + lastOffset + est.startRates.levelBits pqData.absLevel, pqData.absLevel, -1⟩
    decision

/-! ## Decisions of one position -/

/-- `std::numeric_limits<int64_t>::max()`. -/
def maxCost : ℤ := 9223372036854775807

/-- `startDec[numStates>>3]`: the upper half continues a skipped sub-block. -/
def startDec (numStates : ℕ) : List Decision :=
  List.replicate numStates ⟨maxCost >>> (2 : ℕ), -1, -2⟩
    ++ (List.range numStates).map fun k => ⟨maxCost >>> (2 : ℕ), 0, (numStates + k : ℕ)⟩

/-- One call of `checkRdCosts` in `xDecide`: the state it starts from, the
entries of `pqData` and the decisions they may improve. -/
structure Connection where
  prevId : ℕ
  pqA : ℕ
  pqB : ℕ
  decA : ℕ
  decB : ℕ
  deriving DecidableEq

def connections (numStates : ℕ) : List Connection :=
  if numStates > 4 then
    [⟨0, 0, 2, 0, 2⟩,
     ⟨1, 3, 1, 5, 7⟩,
     ⟨2, 0, 2, 1, 3⟩,
     ⟨3, 3, 1, 6, 4⟩,
     ⟨4, 0, 2, 2, 0⟩,
     ⟨5, 3, 1, 4, 6⟩,
     ⟨6, 0, 2, 3, 1⟩,
     ⟨7, 3, 1, 7, 5⟩]
  else
    [⟨0, 0, 2, 0, 1⟩,
     ⟨1, 3, 1, 2, 3⟩,
     ⟨2, 0, 2, 1, 0⟩,
     ⟨3, 3, 1, 3, 2⟩]

def Connection.checkRdCosts (c : Connection) (prevStates : List State) (spt : ScanPosType)
    (pqData : List PQData) (decisions : List Decision) : List Decision :=
  let s := prevStates.getD c.prevId default
  (decisions.modify c.decA (s.checkRdCostsA c.prevId spt (pqData.getD c.pqA default))).modify c.decB
    (s.checkRdCostsB c.prevId spt (pqData.getD c.pqB default))

/-- `xDecide`. All eight skip states are tried also when there are four states. -/
def xDecide (est : RateEstimator) (numStates : ℕ) (prevStates skipStates : List State)
    (spt : ScanPosType) (pqData : List PQData) (lastOffset : ℕ) : List Decision :=
  let decisions := startDec numStates
  let decisions := (connections numStates).foldl
    (fun decisions c => c.checkRdCosts prevStates spt pqData decisions) decisions
  let decisions :=
    if spt = .eocsbb then
      (List.range 8).foldl (fun decisions k =>
        decisions.modify k ((skipStates.getD k default).checkRdCostSkipSbb k numStates)) decisions
    else decisions
  let decisions := decisions.modify 0 (checkRdCostStart est lastOffset (pqData.getD 0 default))
  decisions.modify (if numStates > 4 then 2 else 1)
    (checkRdCostStart est lastOffset (pqData.getD 2 default))

/-! ## The trellis -/

/-- The three state arrays and the stages of `m_trellis` from the current scan position on. -/
structure Search where
  currStates : List State
  prevStates : List State
  skipStates : List State
  trellis : List (List Decision)

/-- Update of the states in use, by index. -/
def updateStates (numStates : ℕ) (f : ℕ → State → Checked State) (states : List State) :
    Checked (List State) :=
  (List.range 8).mapM fun k =>
    if k < numStates then f k (states.getD k default) else .ok (states.getD k default)

/-- `xDecideAndUpdate`. -/
def xDecideAndUpdate (est : RateEstimator) (tuPars : TUParameters) (numStates : ℕ)
    (pqData : List PQData) (scanIdx : ℕ) (s : Search) : Checked Search := do
  let prevStates := s.currStates
  let currStates := s.prevStates
  let spt := tuPars.spt scanIdx
  let decisions := xDecide est numStates prevStates s.skipStates spt pqData (est.lastOffset scanIdx)
  if scanIdx = 0 then
    return ⟨currStates, prevStates, s.skipStates, decisions :: s.trellis⟩
  if tuPars.eosbb scanIdx then
    let currStates ← updateStates numStates
      (fun k => State.updateStateEOS est scanIdx numStates k (decisions.getD k default)) currStates
    let decisions := decisions.take numStates ++ decisions.take numStates
    return ⟨currStates, prevStates, s.skipStates, decisions :: s.trellis⟩
  let currStates ← updateStates numStates
    (fun k s => .ok (s.updateState est scanIdx k (decisions.getD k default))) currStates
  if spt = .socsbb then
    return ⟨currStates, s.skipStates, prevStates, decisions :: s.trellis⟩
  return ⟨currStates, prevStates, s.skipStates, decisions :: s.trellis⟩

/-- The loop of `quant` over the positions below `n`, from the highest on. -/
def populate (est : RateEstimator) (tuPars : TUParameters) (numStates : ℕ)
    (pqData : ℕ → List PQData) : ℕ → Search → Checked Search
  | 0, s => .ok s
  | n + 1, s => do
    let s ← xDecideAndUpdate est tuPars numStates (pqData n) n s
    populate est tuPars numStates pqData n s

/-- `find best path`: the state of least cost below zero, else none. -/
def bestState (stage : List Decision) (numStates : ℕ) : ℤ :=
  ((List.range numStates).foldl (fun (best : ℤ × ℤ) stateId =>
    let pathCost := (stage.getD stateId default).rdCost
    if pathCost < best.2 then ((stateId : ℤ), pathCost) else best) (-2, 0)).1

/-- `backward scanning`: the decisions that are followed from `prevId` on. -/
def backtrack : List (List Decision) → ℤ → Checked (List Decision)
  | [], prevId => do
    check (prevId ≥ 0) "read past the trellis"
    return []
  | stage :: rest, prevId =>
    if prevId ≥ 0 then do
      let decision := stage.getD prevId.toNat default
      let path ← backtrack rest decision.prevId
      return decision :: path
    else .ok []

/-- The levels of a path, written at the positions of the scan. -/
def writeLevels (scanId2BlkPos : ℕ → ℕ) (tCoeff : ℕ → ℤ) :
    ℕ → List Decision → (ℕ → ℤ) → ℕ → ℤ
  | _, [], qCoeff => qCoeff
  | scanIdx, decision :: path, qCoeff =>
    let blkpos := scanId2BlkPos scanIdx
    writeLevels scanId2BlkPos tCoeff (scanIdx + 1) path
      (Function.update qCoeff blkpos (if tCoeff blkpos < 0 then -decision.absLevel else decision.absLevel))

/-- The highest scan position below `n` that satisfies `p`. -/
def highest (p : ℕ → Prop) [DecidablePred p] : ℕ → Option ℕ
  | 0 => none
  | n + 1 => if p n then some n else highest p n

/-! ## `quant` -/

/-- The block that is quantised: its coefficients by raster position, and
`PU::getLFNSTMatrixDim` when an LFNST limits the positions to be tested. -/
structure TransformUnit where
  tuPars : TUParameters
  tCoeff : ℕ → ℤ
  depQuantEnabledIdc : ℕ
  lfnstMatrixDim : Option ℕ
  lfnstMatrixDim_le : lfnstMatrixDim.getD tuPars.numCoeff ≤ tuPars.numCoeff
  enableScalingLists : Bool
  quantCoeff : ℕ → ℤ
  /-- By `gValue`. -/
  initQuantBlock : ℤ → Quantizer

namespace TransformUnit

def numStates (tu : TransformUnit) : ℕ := 2 <<< tu.depQuantEnabledIdc

def defaultQuantisationCoefficient (tu : TransformUnit) : ℤ := (tu.initQuantBlock (-1)).QScale

/-- The quantiser at a scan position. -/
def quantizer (tu : TransformUnit) (scanIdx : ℕ) : Quantizer :=
  if tu.enableScalingLists then tu.initQuantBlock (tu.quantCoeff (tu.tuPars.scanId2BlkPos scanIdx))
  else tu.initQuantBlock (-1)

def quanCoeff (tu : TransformUnit) (scanIdx : ℕ) : ℤ :=
  if tu.enableScalingLists then tu.quantCoeff (tu.tuPars.scanId2BlkPos scanIdx)
  else tu.defaultQuantisationCoefficient

def absCoeff (tu : TransformUnit) (scanIdx : ℕ) : ℤ :=
  (tu.tCoeff (tu.tuPars.scanId2BlkPos scanIdx)).natAbs

def pqData (tu : TransformUnit) (scanIdx : ℕ) : List PQData :=
  (tu.quantizer scanIdx).preQuantCoeff (tu.absCoeff scanIdx) (tu.quanCoeff scanIdx)

/-- A coefficient large enough to start the search. -/
def significant (tu : TransformUnit) (scanIdx : ℕ) : Prop :=
  tu.absCoeff scanIdx > (tu.initQuantBlock (-1)).thresLast.tdiv (4 * tu.quanCoeff scanIdx)

instance (tu : TransformUnit) : DecidablePred tu.significant :=
  fun _ => inferInstanceAs (Decidable (_ > _))

def firstTestPos (tu : TransformUnit) : Option ℕ :=
  highest tu.significant (tu.lfnstMatrixDim.getD tu.tuPars.numCoeff)

end TransformUnit

/-- What a `DepQuant` object holds between two calls. -/
structure Memory where
  currStates : List State
  prevStates : List State
  skipStates : List State
  trellis : List (List Decision)

/-- `init` of the states in use, of the array that starts at `base` of `m_allStates`. -/
def initStates (est : RateEstimator) (numStates base : ℕ) (states : List State) : List State :=
  (List.range 8).map fun k =>
    if k < numStates then ⟨maxCost >>> (1 : ℕ), est.initRates (base + k)⟩ else states.getD k default

/-- The levels by raster position, and the decisions that gave them by scan position. -/
structure QuantResult where
  qCoeff : ℕ → ℤ
  absSum : ℤ
  path : List Decision

def populated (est : RateEstimator) (tu : TransformUnit) (m : Memory) (firstTestPos : ℕ) : Checked Search :=
  populate est tu.tuPars tu.numStates tu.pqData (firstTestPos + 1)
    ⟨initStates est tu.numStates 0 m.currStates, initStates est tu.numStates 8 m.prevStates,
      initStates est tu.numStates 16 m.skipStates, []⟩

/-- `DepQuant::quant`. Stages above the first tested position are those of earlier calls. -/
def quant (est : RateEstimator) (tu : TransformUnit) (m : Memory) : Checked QuantResult :=
  match tu.firstTestPos with
  | none => .ok ⟨fun _ => 0, 0, []⟩
  | some firstTestPos => do
    let s ← populated est tu m firstTestPos
    let path ← backtrack (s.trellis ++ m.trellis.drop (firstTestPos + 1))
      (bestState (s.trellis.headD []) tu.numStates)
    return ⟨writeLevels tu.tuPars.scanId2BlkPos tu.tCoeff 0 path fun _ => 0,
      (path.map Decision.absLevel).sum, path⟩

/-! ## `dequantBlock` -/

structure DequantParameters where
  enableScalingLists : Bool
  piDequantCoef : ℕ → ℤ
  shift : ℤ
  invQScale : ℤ
  minTCoeff : ℤ
  maxTCoeff : ℤ

def DequantParameters.add (p : DequantParameters) : ℤ :=
  if p.shift < 0 then 0 else (1 <<< p.shift.toNat) >>> (1 : ℕ)

structure DequantState where
  state : ℕ
  invQScale : ℤ
  tCoeff : ℕ → ℤ

/-- The quantisation index of a level above or below zero. -/
def reconstructionIndex (level : ℤ) (state : ℕ) : ℤ :=
  level <<< (1 : ℕ) + if level > 0 then -((state &&& 1 : ℕ) : ℤ) else ((state &&& 1 : ℕ) : ℤ)

def dequantLevel (p : DequantParameters) (lastScanIdx scanIdx rasterPos : ℕ) (level : ℤ)
    (s : DequantState) : DequantState :=
  let invQScale := if p.enableScalingLists then p.piDequantCoef rasterPos else s.invQScale
  let invQScale := if p.shift < 0 ∧ (p.enableScalingLists ∨ scanIdx = lastScanIdx)
    then invQScale <<< (-p.shift).toNat else invQScale
  let qIdx := reconstructionIndex level s.state
  let nomTCoeff := (qIdx * invQScale + p.add) >>> (if p.shift < 0 then 0 else p.shift).toNat
  { s with
    invQScale := invQScale
    tCoeff := Function.update s.tCoeff rasterPos (max p.minTCoeff (min p.maxTCoeff nomTCoeff)) }

/-- One iteration of the loop. -/
def dequantStep (p : DequantParameters) (tuPars : TUParameters) (stateTransTab : ℕ)
    (qCoeff : ℕ → ℤ) (lastScanIdx scanIdx : ℕ) (s : DequantState) : DequantState :=
  let rasterPos := tuPars.scanId2BlkPos scanIdx
  let level := qCoeff rasterPos
  let s := if level ≠ 0 then dequantLevel p lastScanIdx scanIdx rasterPos level s else s
  { s with state := transition stateTransTab s.state level }

/-- The loop from `lastScanIdx` down to `lastScanIdx - n + 1`. -/
def dequantLoop (p : DequantParameters) (tuPars : TUParameters) (stateTransTab : ℕ)
    (qCoeff : ℕ → ℤ) (lastScanIdx : ℕ) : ℕ → DequantState
  | 0 => ⟨0, p.invQScale, fun _ => 0⟩
  | n + 1 => dequantStep p tuPars stateTransTab qCoeff lastScanIdx (lastScanIdx - n)
      (dequantLoop p tuPars stateTransTab qCoeff lastScanIdx n)

def lastScanIdx (tuPars : TUParameters) (qCoeff : ℕ → ℤ) : Option ℕ :=
  highest (fun scanIdx => qCoeff (tuPars.scanId2BlkPos scanIdx) ≠ 0) tuPars.numCoeff

/-- `Quantizer::dequantBlock`. -/
def dequantBlock (p : DequantParameters) (tuPars : TUParameters) (stateTransTab : ℕ)
    (qCoeff : ℕ → ℤ) : ℕ → ℤ :=
  match lastScanIdx tuPars qCoeff with
  | none => fun _ => 0
  | some last => (dequantLoop p tuPars stateTransTab qCoeff last (last + 1)).tCoeff

/-- `state` of the loop when it comes to `scanIdx`. -/
def dequantStateAt (p : DequantParameters) (tuPars : TUParameters) (stateTransTab : ℕ)
    (qCoeff : ℕ → ℤ) (scanIdx : ℕ) : ℕ :=
  match lastScanIdx tuPars qCoeff with
  | none => 0
  | some last => (dequantLoop p tuPars stateTransTab qCoeff last (last - scanIdx)).state

/-! ## States of the entropy coder -/

/-- `residual_coding_subblock` on `state`: a sub-block that is not coded is left
at once, one that is coded steps over each of its levels. -/
def codeSubblock (stateTransTab : ℕ) (isSigGroup : Bool) (levels : List ℤ) (state : ℕ) : ℕ :=
  if isSigGroup then levels.foldl (transition stateTransTab) state else state

end ECM.DepQuant
