import ECM.CommonLib.Rom
import ECM.CommonLib.TypeDef
import Mathlib.Logic.Function.Basic

/-! # Scaling lists

28 lists of three sizes, some with a DC value of their own, and the choice of how each
is coded: as a copy, as a difference to an earlier list or to the default, or by itself. -/

namespace ECM.CommonLib
open Rom

def SCALING_LIST_1D_START_2x2 : ℕ := 0
def SCALING_LIST_1D_START_4x4 : ℕ := 2
def SCALING_LIST_1D_START_8x8 : ℕ := 8
def SCALING_LIST_1D_START_16x16 : ℕ := 14
def SCALING_LIST_1D_START_64x64 : ℕ := 26

def SCALING_LIST_START_VALUE : ℤ := 8
def SCALING_LIST_DC : ℤ := 16

def g_quantTSDefault4x4 : List ℤ := List.replicate (4 * 4) 16
def g_quantInterDefault8x8 : List ℤ := List.replicate (8 * 8) 16
def g_quantIntraDefault8x8 : List ℤ := List.replicate (8 * 8) 16

/-- An `int` as an `int8_t`. -/
def i8 (v : ℤ) : ℤ := (v + 128) % 256 - 128

/-- The lists by their ids; the coefficients by their raster positions. -/
structure ScalingList where
  m_scalingListPredModeFlagIsCopy : ℕ → Bool
  m_scalingListDC : ℕ → ℤ
  m_refMatrixId : ℕ → ℕ
  m_scalingListPreditorModeFlag : ℕ → Bool
  m_scalingListCoef : ℕ → ℕ → ℤ
  m_chromaScalingListPresentFlag : Bool

namespace ScalingList

def matrixSize (scalingListId : ℕ) : ℕ :=
  if scalingListId < SCALING_LIST_1D_START_4x4 then 2
  else if scalingListId < SCALING_LIST_1D_START_8x8 then 4 else 8

def coefNum (scalingListId : ℕ) : ℕ := matrixSize scalingListId * matrixSize scalingListId

def scan (scalingListId i : ℕ) : ScanElement :=
  scanUngrouped (matrixSize scalingListId) (matrixSize scalingListId) i

/-- The quarter of the lists for 64x64 blocks that is not coded. -/
def Skipped (scalingListId : ℕ) (pos : ScanElement) : Prop :=
  scalingListId ≥ SCALING_LIST_1D_START_64x64 ∧ pos.x ≥ 4 ∧ pos.y ≥ 4

instance (scalingListId : ℕ) (pos : ScanElement) : Decidable (Skipped scalingListId pos) :=
  inferInstanceAs (Decidable (_ ∧ _ ∧ _))

def isLumaScalingList (scalingListId : ℕ) : Bool :=
  scalingListId % 3 = SCALING_LIST_1D_START_4x4 ∨ scalingListId = SCALING_LIST_1D_START_64x64 + 1

/-- The lists that refer to none but the default. -/
def IsStart (scalingListId : ℕ) : Prop :=
  scalingListId = SCALING_LIST_1D_START_2x2 ∨ scalingListId = SCALING_LIST_1D_START_4x4 ∨
    scalingListId = SCALING_LIST_1D_START_8x8

instance (scalingListId : ℕ) : Decidable (IsStart scalingListId) :=
  inferInstanceAs (Decidable (_ ∨ _ ∨ _))

def getScalingListDefaultAddress (scalingListId j : ℕ) : ℤ :=
  (if scalingListId < SCALING_LIST_1D_START_8x8 then g_quantTSDefault4x4 else g_quantInterDefault8x8).getD j 0

variable (sl : ScalingList)

/-! ## Lengths of the codes -/

/-- The length of an `ue(v)`. -/
def lengthUvlc (uiCode : ℕ) : ℕ :=
  (1 + 2 * (uiCode + 1).log2) >>> 1 + (1 + 2 * (uiCode + 1).log2 + 1) >>> 1

def lengthSvlc (uiCode : ℤ) : ℕ :=
  lengthUvlc (if uiCode ≤ 0 then (-uiCode * 2).toNat else (uiCode * 2 - 1).toNat)

/-- The length of the coefficients that `delta` gives, from `nextCoef` on. -/
def deltaLength (scalingListId : ℕ) (delta : ℕ → ℤ) (nextCoef : ℤ) (bitsCost : ℕ) : ℕ :=
  ((List.range (coefNum scalingListId)).foldl (fun (st : ℕ × ℤ) i =>
    if Skipped scalingListId (scan scalingListId i) then st
    else (st.1 + lengthSvlc (i8 (delta (scan scalingListId i).idx - st.2)), delta (scan scalingListId i).idx))
    (bitsCost, nextCoef)).1

def codePredScalingList (scalingList scalingListPred : ℕ → ℤ) (scalingListDC scalingListPredDC : ℤ)
    (scalingListId bitsCost : ℕ) : ℕ :=
  let delta := fun j => scalingList j - scalingListPred j
  if scalingListDC ≠ -1 ∧ scalingListPredDC ≠ -1 then
    deltaLength scalingListId delta (scalingListDC - scalingListPredDC)
      (bitsCost + lengthSvlc (i8 (scalingListDC - scalingListPredDC)))
  else if scalingListDC ≠ -1 ∧ scalingListPredDC = -1 then
    deltaLength scalingListId delta (scalingListDC - scalingListPred (scan scalingListId 0).idx)
      (bitsCost + lengthSvlc (i8 (scalingListDC - scalingListPred (scan scalingListId 0).idx)))
  else deltaLength scalingListId delta 0 bitsCost

/-- The length of a list that is coded by itself. -/
def codeScalingList (scalingListId bitsCost : ℕ) : ℕ :=
  if scalingListId ≥ SCALING_LIST_1D_START_16x16 then
    deltaLength scalingListId (sl.m_scalingListCoef scalingListId) (sl.m_scalingListDC scalingListId)
      (bitsCost + lengthSvlc (i8 (sl.m_scalingListDC scalingListId - SCALING_LIST_START_VALUE)))
  else deltaLength scalingListId (sl.m_scalingListCoef scalingListId) SCALING_LIST_START_VALUE bitsCost

def CheckBestPredScalingList (scalingListId predListId : ℕ) : ℕ :=
  let scalingListPred :=
    if scalingListId = predListId then
      fun j => (if predListId < SCALING_LIST_1D_START_8x8 then g_quantTSDefault4x4 else g_quantIntraDefault8x8).getD j 0
    else sl.m_scalingListCoef predListId
  let scalingListDC :=
    if scalingListId ≥ SCALING_LIST_1D_START_16x16 then sl.m_scalingListDC scalingListId else -1
  let scalingListPredDC :=
    if predListId ≥ SCALING_LIST_1D_START_16x16 then
      (if scalingListId = predListId then 16 else sl.m_scalingListDC predListId)
    else -1
  codePredScalingList (sl.m_scalingListCoef scalingListId) scalingListPred scalingListDC scalingListPredDC
    scalingListId (2 + lengthUvlc (scalingListId - predListId))

/-! ## The choice of the mode -/

/-- The list that `scalingListId` refers to. -/
def refScalingList (scalingListId refListId : ℕ) : ℕ → ℤ :=
  if scalingListId = refListId then getScalingListDefaultAddress scalingListId
  else sl.m_scalingListCoef refListId

def refDC (scalingListId refListId : ℕ) : ℤ :=
  if refListId < SCALING_LIST_1D_START_16x16 then sl.refScalingList scalingListId refListId 0
  else if scalingListId = refListId then 16 else sl.m_scalingListDC refListId

/-- The reference is the list itself, so that it can be copied. -/
def SameAsRef (scalingListId refListId : ℕ) : Prop :=
  (∀ j < coefNum scalingListId,
    sl.m_scalingListCoef scalingListId j = sl.refScalingList scalingListId refListId j) ∧
  (scalingListId < SCALING_LIST_1D_START_16x16 ∨ sl.m_scalingListDC scalingListId = sl.refDC scalingListId refListId)

instance (scalingListId refListId : ℕ) : Decidable (sl.SameAsRef scalingListId refListId) :=
  inferInstanceAs (Decidable (_ ∧ _))

def setMode (scalingListId : ℕ) (isCopy isPred : Bool) (refListId : ℕ) : ScalingList :=
  { sl with
    m_scalingListPredModeFlagIsCopy := Function.update sl.m_scalingListPredModeFlagIsCopy scalingListId isCopy
    m_scalingListPreditorModeFlag := Function.update sl.m_scalingListPreditorModeFlag scalingListId isPred
    m_refMatrixId := Function.update sl.m_refMatrixId scalingListId refListId }

def setScalingListCopyModeFlag (scalingListId : ℕ) (isCopy : Bool) : ScalingList :=
  { sl with
    m_scalingListPredModeFlagIsCopy := Function.update sl.m_scalingListPredModeFlagIsCopy scalingListId isCopy }

def setScalingListPreditorModeFlag (scalingListId : ℕ) (isPred : Bool) : ScalingList :=
  { sl with
    m_scalingListPreditorModeFlag := Function.update sl.m_scalingListPreditorModeFlag scalingListId isPred }

/-- The loop of `checkPredMode` over the references below `n`, from the last one on. -/
def checkRefs (scalingListId : ℕ) : (n bestBitsCount : ℕ) → ScalingList → ScalingList
  | 0, _, sl => sl.setScalingListCopyModeFlag scalingListId false
  | predListIdx + 1, bestBitsCount, sl =>
    if IsStart scalingListId ∧ predListIdx ≠ scalingListId ∨ matrixSize scalingListId ≠ matrixSize predListIdx then
      checkRefs scalingListId predListIdx bestBitsCount sl
    else if sl.SameAsRef scalingListId predListIdx then sl.setMode scalingListId true false predListIdx
    else if sl.CheckBestPredScalingList scalingListId predListIdx < bestBitsCount then
      checkRefs scalingListId predListIdx (sl.CheckBestPredScalingList scalingListId predListIdx)
        (sl.setMode scalingListId false true predListIdx)
    else checkRefs scalingListId predListIdx bestBitsCount sl

def checkPredMode (scalingListId : ℕ) : ScalingList :=
  checkRefs scalingListId (scalingListId + 1)
    ((sl.setScalingListPreditorModeFlag scalingListId false).codeScalingList scalingListId 2)
    (sl.setScalingListPreditorModeFlag scalingListId false)

/-- The modes of all lists. -/
def checkPredModes : ScalingList := (List.range 28).foldl checkPredMode sl

/-! ## What the choice leaves -/

theorem getScalingListDefaultAddress_eq {scalingListId j : ℕ} (hj : j < coefNum scalingListId) :
    getScalingListDefaultAddress scalingListId j = 16 := by
  rw [coefNum, matrixSize] at hj
  rw [getScalingListDefaultAddress]
  by_cases h8 : scalingListId < SCALING_LIST_1D_START_8x8
  · have hj : j < 4 * 4 := by
      split_ifs at hj <;> omega
    rw [if_pos h8, g_quantTSDefault4x4, List.getD_eq_getElem?_getD, List.getElem?_replicate, if_pos hj]
    rfl
  · rw [if_neg (fun h => h8 (Nat.lt_trans h (by decide))), if_neg h8] at hj
    rw [if_neg h8, g_quantInterDefault8x8, List.getD_eq_getElem?_getD, List.getElem?_replicate, if_pos hj]
    rfl

/-- The reference is an earlier list of the same size, or the list itself for the default. -/
structure RefInside (scalingListId refListId : ℕ) : Prop where
  le : refListId ≤ scalingListId
  matrixSize_eq : matrixSize refListId = matrixSize scalingListId
  start : IsStart scalingListId → refListId = scalingListId

/-- The flags of a list agree with its coefficients. -/
structure ModeChosen (scalingListId : ℕ) : Prop where
  ref : sl.m_scalingListPredModeFlagIsCopy scalingListId = true ∨
    sl.m_scalingListPreditorModeFlag scalingListId = true →
      RefInside scalingListId (sl.m_refMatrixId scalingListId)
  copy : sl.m_scalingListPredModeFlagIsCopy scalingListId = true →
    sl.m_scalingListPreditorModeFlag scalingListId = false ∧
      sl.SameAsRef scalingListId (sl.m_refMatrixId scalingListId)

/-- Only the flags of one list have changed. -/
structure SameBut (scalingListId : ℕ) (sl sl' : ScalingList) : Prop where
  coef : sl'.m_scalingListCoef = sl.m_scalingListCoef
  dc : sl'.m_scalingListDC = sl.m_scalingListDC
  isCopy : ∀ k, k ≠ scalingListId → sl'.m_scalingListPredModeFlagIsCopy k = sl.m_scalingListPredModeFlagIsCopy k
  isPred : ∀ k, k ≠ scalingListId → sl'.m_scalingListPreditorModeFlag k = sl.m_scalingListPreditorModeFlag k
  ref : ∀ k, k ≠ scalingListId → sl'.m_refMatrixId k = sl.m_refMatrixId k

theorem SameBut.trans {scalingListId : ℕ} {sl sl' sl'' : ScalingList} (h : SameBut scalingListId sl sl')
    (h' : SameBut scalingListId sl' sl'') : SameBut scalingListId sl sl'' where
  coef := h'.coef.trans h.coef
  dc := h'.dc.trans h.dc
  isCopy k hk := (h'.isCopy k hk).trans (h.isCopy k hk)
  isPred k hk := (h'.isPred k hk).trans (h.isPred k hk)
  ref k hk := (h'.ref k hk).trans (h.ref k hk)

theorem setMode_sameBut (scalingListId : ℕ) (isCopy isPred : Bool) (refListId : ℕ) :
    SameBut scalingListId sl (sl.setMode scalingListId isCopy isPred refListId) :=
  ⟨rfl, rfl, fun _ hk => Function.update_of_ne hk _ _, fun _ hk => Function.update_of_ne hk _ _,
    fun _ hk => Function.update_of_ne hk _ _⟩

theorem setScalingListCopyModeFlag_sameBut (scalingListId : ℕ) (isCopy : Bool) :
    SameBut scalingListId sl (sl.setScalingListCopyModeFlag scalingListId isCopy) :=
  ⟨rfl, rfl, fun _ hk => Function.update_of_ne hk _ _, fun _ _ => rfl, fun _ _ => rfl⟩

theorem setScalingListPreditorModeFlag_sameBut (scalingListId : ℕ) (isPred : Bool) :
    SameBut scalingListId sl (sl.setScalingListPreditorModeFlag scalingListId isPred) :=
  ⟨rfl, rfl, fun _ _ => rfl, fun _ hk => Function.update_of_ne hk _ _, fun _ _ => rfl⟩

/-- What has been chosen as a predictor so far stays a reference inside. -/
theorem checkRefs_spec (scalingListId n : ℕ) : ∀ (bestBitsCount : ℕ) (sl : ScalingList), n ≤ scalingListId + 1 →
    (sl.m_scalingListPreditorModeFlag scalingListId = true →
      RefInside scalingListId (sl.m_refMatrixId scalingListId)) →
    SameBut scalingListId sl (checkRefs scalingListId n bestBitsCount sl) ∧
      (checkRefs scalingListId n bestBitsCount sl).ModeChosen scalingListId := by
  induction n with
  | zero =>
    intro bestBitsCount sl _ hpred
    refine ⟨setScalingListCopyModeFlag_sameBut sl scalingListId false, ?_⟩
    have hcopy : (sl.setScalingListCopyModeFlag scalingListId false).m_scalingListPredModeFlagIsCopy scalingListId =
        false := Function.update_self ..
    exact ⟨fun h => hpred (h.resolve_left (by rw [checkRefs, hcopy]; exact Bool.false_ne_true)),
      fun h => absurd h (by rw [checkRefs, hcopy]; exact Bool.false_ne_true)⟩
  | succ predListIdx ih =>
    intro bestBitsCount sl hn hpred
    have hle : predListIdx ≤ scalingListId := Nat.le_of_succ_le_succ hn
    have hn : predListIdx ≤ scalingListId + 1 := Nat.le_succ_of_le hle
    rw [checkRefs]
    by_cases hskip : IsStart scalingListId ∧ predListIdx ≠ scalingListId ∨
        matrixSize scalingListId ≠ matrixSize predListIdx
    · rw [if_pos hskip]
      exact ih bestBitsCount sl hn hpred
    rw [if_neg hskip]
    obtain ⟨hstart, hsize⟩ := not_or.mp hskip
    have hinside : RefInside scalingListId predListIdx :=
      ⟨hle, (not_not.mp hsize).symm, fun h => by_contra fun hne => hstart ⟨h, hne⟩⟩
    by_cases hsame : sl.SameAsRef scalingListId predListIdx
    · rw [if_pos hsame]
      refine ⟨setMode_sameBut sl scalingListId true false predListIdx, ?_⟩
      have href : (sl.setMode scalingListId true false predListIdx).m_refMatrixId scalingListId = predListIdx :=
        Function.update_self ..
      exact ⟨fun _ => by rwa [href], fun _ => ⟨Function.update_self .., by rwa [href]⟩⟩
    rw [if_neg hsame]
    by_cases hless : sl.CheckBestPredScalingList scalingListId predListIdx < bestBitsCount
    · rw [if_pos hless]
      obtain ⟨hsameBut, hchosen⟩ := ih (sl.CheckBestPredScalingList scalingListId predListIdx)
        (sl.setMode scalingListId false true predListIdx) hn fun _ => by
          rw [show (sl.setMode scalingListId false true predListIdx).m_refMatrixId scalingListId = predListIdx from
            Function.update_self ..]
          exact hinside
      exact ⟨(setMode_sameBut sl scalingListId false true predListIdx).trans hsameBut, hchosen⟩
    · rw [if_neg hless]
      exact ih bestBitsCount sl hn hpred

theorem checkPredMode_spec (scalingListId : ℕ) :
    SameBut scalingListId sl (sl.checkPredMode scalingListId) ∧
      (sl.checkPredMode scalingListId).ModeChosen scalingListId := by
  have hpred : (sl.setScalingListPreditorModeFlag scalingListId false).m_scalingListPreditorModeFlag scalingListId =
      false := Function.update_self ..
  obtain ⟨hsame, hchosen⟩ := checkRefs_spec scalingListId (scalingListId + 1)
    ((sl.setScalingListPreditorModeFlag scalingListId false).codeScalingList scalingListId 2)
    (sl.setScalingListPreditorModeFlag scalingListId false) (Nat.le_refl _)
    fun h => absurd (hpred.symm.trans h) Bool.false_ne_true
  exact ⟨(setScalingListPreditorModeFlag_sameBut sl scalingListId false).trans hsame, hchosen⟩

theorem sameAsRef_congr {sl sl' : ScalingList} (hcoef : sl'.m_scalingListCoef = sl.m_scalingListCoef)
    (hdc : sl'.m_scalingListDC = sl.m_scalingListDC) (scalingListId r : ℕ) :
    sl'.SameAsRef scalingListId r = sl.SameAsRef scalingListId r := by
  simp only [SameAsRef, refScalingList, refDC, hcoef, hdc]

/-- The list itself is at the reference `ref`, and at none between. -/
structure NearestSame (scalingListId n ref : ℕ) : Prop where
  inside : RefInside scalingListId ref
  lt : ref < n
  same : sl.SameAsRef scalingListId ref
  none_between : ∀ k, ref < k → k < n → ¬sl.SameAsRef scalingListId k

theorem NearestSame.congr {sl sl' : ScalingList} {scalingListId n ref : ℕ} (h : sl.NearestSame scalingListId n ref)
    (hcoef : sl'.m_scalingListCoef = sl.m_scalingListCoef) (hdc : sl'.m_scalingListDC = sl.m_scalingListDC) :
    sl'.NearestSame scalingListId n ref := by
  obtain ⟨hinside, hlt, hsame, hnone⟩ := h
  have hsl := sameAsRef_congr hcoef hdc scalingListId
  exact ⟨hinside, hlt, by rwa [hsl], fun k hk hkn => by rw [hsl]; exact hnone k hk hkn⟩

/-- The list is copied, from `ref`. -/
def CopiesFrom (scalingListId ref : ℕ) : Prop :=
  sl.m_scalingListPredModeFlagIsCopy scalingListId = true ∧ sl.m_refMatrixId scalingListId = ref

theorem checkRefs_copies {scalingListId ref : ℕ} (n : ℕ) : ∀ (bestBitsCount : ℕ) (sl : ScalingList),
    sl.NearestSame scalingListId n ref → (checkRefs scalingListId n bestBitsCount sl).CopiesFrom scalingListId ref := by
  induction n with
  | zero => exact fun _ _ h => absurd h.lt (Nat.not_lt_zero ref)
  | succ predListIdx ih =>
    intro bestBitsCount sl h
    obtain ⟨hinside, hlt, hsame, hnone⟩ := h
    rw [checkRefs]
    rcases Nat.lt_succ_iff_lt_or_eq.mp hlt with hbelow | rfl
    · have hrest : sl.NearestSame scalingListId predListIdx ref :=
        ⟨hinside, hbelow, hsame, fun k hk hkn => hnone k hk (Nat.lt_succ_of_lt hkn)⟩
      rw [if_neg (hnone predListIdx hbelow (Nat.lt_succ_self _))]
      split_ifs
      · exact ih _ sl hrest
      · exact ih _ _ (hrest.congr rfl rfl)
      · exact ih _ sl hrest
    · rw [if_neg fun h => h.elim (fun h => h.2 (hinside.start h.1)) fun h => h hinside.matrixSize_eq.symm,
        if_pos hsame]
      exact ⟨Function.update_self .., Function.update_self ..⟩

theorem ModeChosen.of_sameBut {sl sl' : ScalingList} {scalingListId k : ℕ} (h : sl.ModeChosen scalingListId)
    (hsame : SameBut k sl sl') (hk : scalingListId ≠ k) : sl'.ModeChosen scalingListId := by
  obtain ⟨href, hcopy⟩ := h
  have hsl := sameAsRef_congr hsame.coef hsame.dc scalingListId
  constructor
  · rw [hsame.isCopy _ hk, hsame.isPred _ hk, hsame.ref _ hk]
    exact href
  · rw [hsame.isCopy _ hk, hsame.isPred _ hk, hsame.ref _ hk, hsl]
    exact hcopy

/-- Nothing but the flags of the lists changes, and these are those that each list gets. -/
theorem checkFirst_spec (n : ℕ) :
    ((List.range n).foldl checkPredMode sl).m_scalingListCoef = sl.m_scalingListCoef ∧
      ((List.range n).foldl checkPredMode sl).m_scalingListDC = sl.m_scalingListDC ∧
      ∀ scalingListId < n, ((List.range n).foldl checkPredMode sl).ModeChosen scalingListId := by
  induction n with
  | zero => exact ⟨rfl, rfl, fun k hk => absurd hk (Nat.not_lt_zero k)⟩
  | succ n ih =>
    rw [List.range_succ, List.foldl_append, List.foldl_cons, List.foldl_nil]
    obtain ⟨hcoef, hdc, hchosen⟩ := ih
    obtain ⟨hsame, hlast⟩ := checkPredMode_spec ((List.range n).foldl checkPredMode sl) n
    refine ⟨hsame.coef.trans hcoef, hsame.dc.trans hdc, fun k hk => ?_⟩
    rcases Nat.lt_succ_iff_lt_or_eq.mp hk with hlt | rfl
    · exact (hchosen k hlt).of_sameBut hsame (Nat.ne_of_lt hlt)
    · exact hlast

theorem checkPredModes_spec :
    sl.checkPredModes.m_scalingListCoef = sl.m_scalingListCoef ∧
      sl.checkPredModes.m_scalingListDC = sl.m_scalingListDC ∧
      ∀ scalingListId < 28, sl.checkPredModes.ModeChosen scalingListId := checkFirst_spec sl 28

/-- A list that equals earlier ones is copied from the last of them. -/
theorem checkPredModes_copies {scalingListId ref : ℕ} (hid : scalingListId < 28)
    (h : sl.NearestSame scalingListId (scalingListId + 1) ref) :
    sl.checkPredModes.CopiesFrom scalingListId ref := by
  rw [checkPredModes]
  generalize 28 = n at hid
  induction n with
  | zero => exact absurd hid (Nat.not_lt_zero _)
  | succ n ih =>
    rw [List.range_succ, List.foldl_append, List.foldl_cons, List.foldl_nil]
    rcases Nat.lt_succ_iff_lt_or_eq.mp hid with hlt | rfl
    · have hsame := (checkPredMode_spec ((List.range n).foldl checkPredMode sl) n).1
      have hne : scalingListId ≠ n := Nat.ne_of_lt hlt
      exact ⟨(hsame.isCopy _ hne).trans (ih hlt).1, (hsame.ref _ hne).trans (ih hlt).2⟩
    · obtain ⟨hcoef, hdc, -⟩ := checkFirst_spec sl scalingListId
      exact checkRefs_copies _ _ _ (h.congr hcoef hdc)

end ScalingList

end ECM.CommonLib
