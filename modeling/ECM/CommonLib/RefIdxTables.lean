import ECM.CommonLib.ScalingList
import ECM.CommonLib.Slice

/-! # Tables over the reference indices of a slice

Which reference indices can be used for the AMVP-merge mode, and the lists that combine the
two reference picture lists. -/

namespace ECM.CommonLib

inductive RefPicList where
  | REF_PIC_LIST_0 | REF_PIC_LIST_1
  deriving DecidableEq, Repr

namespace RefPicList

def other : RefPicList → RefPicList
  | REF_PIC_LIST_0 => REF_PIC_LIST_1
  | REF_PIC_LIST_1 => REF_PIC_LIST_0

end RefPicList

/-- One entry of a reference picture list, as far as the tables need it. -/
structure SliceRef where
  poc : ℤ
  longTerm : Bool
  /-- `isRefScaled(getPPS())`. -/
  isRefScaled : Bool
  /-- `getWpScaling` of the entry. -/
  wp : WpScaling
  deriving DecidableEq, Repr

structure RefSlice where
  poc : ℤ
  checkLDC : Bool
  rprEnabledFlag : Bool
  m_apcRefPicList : RefPicList → List SliceRef

def WpScaling.isWeighted (wp : WpScaling) : Bool :=
  wp.Y.presentFlag || wp.Cb.presentFlag || wp.Cr.presentFlag

namespace RefSlice

def getNumRefIdx (s : RefSlice) (l : RefPicList) : ℕ := (s.m_apcRefPicList l).length

def getRefPic (s : RefSlice) (l : RefPicList) (refIdx : ℕ) : SliceRef :=
  (s.m_apcRefPicList l).getD refIdx ⟨0, false, false, ⟨⟨false, 0, 0, 0⟩, ⟨false, 0, 0, 0⟩, ⟨false, 0, 0, 0⟩⟩⟩

end RefSlice

/-! ## `checkAmvpMergeModeAvailability` -/

/-- The availability tables of a slice. -/
structure AmvpMergeTables where
  m_useAmvpMergeMode : Bool
  m_amvpMergeModeOnlyOneValidRefIdx : RefPicList → ℤ
  m_amvpMergeModeValidRefIdx : RefPicList → ℕ → Bool
  m_amvpMergeModeValidCandPair : ℕ → ℕ → Bool

namespace AmvpMergeTables

/-- `m_amvpMergeModeValidRefIdx[l][refIdx] = valid`. -/
def setValidRefIdx (t : AmvpMergeTables) (l : RefPicList) (refIdx : ℕ) (valid : Bool) : AmvpMergeTables :=
  { t with
    m_amvpMergeModeValidRefIdx := Function.update t.m_amvpMergeModeValidRefIdx l
      (Function.update (t.m_amvpMergeModeValidRefIdx l) refIdx valid) }

/-- `m_amvpMergeModeValidCandPair[refIdxInList0][refIdxInList1] = valid`. -/
def setValidCandPair (t : AmvpMergeTables) (refIdxInList0 refIdxInList1 : ℕ) (valid : Bool) :
    AmvpMergeTables :=
  { t with
    m_amvpMergeModeValidCandPair := Function.update t.m_amvpMergeModeValidCandPair refIdxInList0
      (Function.update (t.m_amvpMergeModeValidCandPair refIdxInList0) refIdxInList1 valid) }

end AmvpMergeTables

section
variable (pcSlice : RefSlice)
open RefPicList

/-- The first loop; both lists are reset at the indices of list 0. -/
def resetAmvpMergeMode (t : AmvpMergeTables) : AmvpMergeTables :=
  let t := { t with
    m_useAmvpMergeMode := false
    m_amvpMergeModeOnlyOneValidRefIdx := fun _ => -1 }
  (List.range (pcSlice.getNumRefIdx REF_PIC_LIST_0)).foldl
    (fun t refIdxInList0 =>
      let t := (List.range (pcSlice.getNumRefIdx REF_PIC_LIST_1)).foldl
        (fun t refIdxInList1 => t.setValidCandPair refIdxInList0 refIdxInList1 false) t
      (t.setValidRefIdx REF_PIC_LIST_0 refIdxInList0 false).setValidRefIdx REF_PIC_LIST_1 refIdxInList0
        false) t

/-- The tests of a pair of reference pictures. -/
def isValidCandPair (refIdxInList0 refIdxInList1 : ℕ) : Bool :=
  let ref0 := pcSlice.getRefPic REF_PIC_LIST_0 refIdxInList0
  let ref1 := pcSlice.getRefPic REF_PIC_LIST_1 refIdxInList1
  if ref0.isRefScaled || ref1.isRefScaled then false
  else if ref0.longTerm || ref1.longTerm then false
  else if ref0.wp.isWeighted || ref1.wp.isWeighted then false
  else (ref0.poc - pcSlice.poc) * (ref1.poc - pcSlice.poc) < 0

/-- The pair of the index of one list and that of the other. -/
def isValidCandPairOf : RefPicList → ℕ → ℕ → Bool
  | REF_PIC_LIST_0, refIdx, otherIdx => isValidCandPair pcSlice refIdx otherIdx
  | REF_PIC_LIST_1, refIdx, otherIdx => isValidCandPair pcSlice otherIdx refIdx

/-- The inner loop of a pass: `validCandidate` and the table of pairs. -/
def collectCandPairs (l : RefPicList) (refIdx : ℕ) (t : AmvpMergeTables) : Bool × AmvpMergeTables :=
  (List.range (pcSlice.getNumRefIdx l.other)).foldl
    (fun (validCandidate, t) otherIdx =>
      if isValidCandPairOf pcSlice l refIdx otherIdx then
        (true, match l with
          | REF_PIC_LIST_0 => t.setValidCandPair refIdx otherIdx true
          | REF_PIC_LIST_1 => t.setValidCandPair otherIdx refIdx true)
      else (validCandidate, t)) (false, t)

/-- What a pass keeps: the tables, `onlyOneValidRefIdxAmvp` and `candidateRefIdxCount`. -/
structure AmvpMergePass where
  tables : AmvpMergeTables
  onlyOneValidRefIdxAmvp : ℤ
  candidateRefIdxCount : ℕ

def collectRefIdx (l : RefPicList) (pass : AmvpMergePass) (refIdx : ℕ) : AmvpMergePass :=
  let (validCandidate, t) := collectCandPairs pcSlice l refIdx pass.tables
  if validCandidate then
    { tables := { t with m_useAmvpMergeMode := true }.setValidRefIdx l refIdx true
      onlyOneValidRefIdxAmvp := refIdx
      candidateRefIdxCount := pass.candidateRefIdxCount + 1 }
  else { pass with tables := t }

/-- Collect the slice enabling condition from one list. -/
def collectList (l : RefPicList) (t : AmvpMergeTables) : AmvpMergeTables :=
  let pass := (List.range (pcSlice.getNumRefIdx l)).foldl (collectRefIdx pcSlice l) ⟨t, -1, 0⟩
  if pass.candidateRefIdxCount = 1 then
    { pass.tables with
      m_amvpMergeModeOnlyOneValidRefIdx :=
        Function.update pass.tables.m_amvpMergeModeOnlyOneValidRefIdx l pass.onlyOneValidRefIdxAmvp }
  else pass.tables

def checkAmvpMergeModeAvailability (t : AmvpMergeTables) : AmvpMergeTables :=
  let t := resetAmvpMergeMode pcSlice t
  if pcSlice.checkLDC then t
  else collectList pcSlice REF_PIC_LIST_1 (collectList pcSlice REF_PIC_LIST_0 t)

end

/-! ## Combined lists -/

/-- `std::numeric_limits<Distortion>::max()`. -/
def maxDistortion : ℕ := 2 ^ 64 - 1

structure RefListAndRefIdx where
  refList : RefPicList
  refIdx : ℕ
  cost : ℕ
  deriving DecidableEq, Repr

structure CombinedLists where
  m_refPicCombinedList : List RefListAndRefIdx
  m_iRefIdxOfLC : RefPicList → ℕ → ℤ
  m_numNonScaledRefPic : ℤ
  m_refPicCombinedListAmvpMerge : List RefListAndRefIdx
  m_iRefIdxOfLCAmvpMerge : RefPicList → ℕ → ℤ

/-- The value of one entry of a table, the others as they were. -/
def updateIdx (table : RefPicList → ℕ → ℤ) (l : RefPicList) (i : ℕ) (v : ℤ) : RefPicList → ℕ → ℤ :=
  Function.update table l (Function.update (table l) i v)

/-- `m_iRefIdxOfLC[l][i] = v`. -/
def writeIdx (table : RefPicList → ℕ → ℤ) (l : RefPicList) (i : ℕ) (v : ℤ) :
    Checked (RefPicList → ℕ → ℤ) :=
  if i < MAX_NUM_REF then .ok (updateIdx table l i v) else .error outOfRange

section
variable (s : RefSlice)
open RefPicList Lib.Loop

/-- `m_list1IdxToList0Idx`: the first entry of list 0 with the POC of the one of list 1. -/
def setList1IdxToList0Idx (idxL1 : ℕ) : ℤ :=
  match (s.m_apcRefPicList REF_PIC_LIST_0).findIdx? fun r =>
      r.poc = (s.getRefPic REF_PIC_LIST_1 idxL1).poc with
  | some idxL0 => idxL0
  | none => -1

def refCost (l : RefPicList) (refIdx : ℕ) : ℕ :=
  if !s.rprEnabledFlag || !(s.getRefPic l refIdx).isRefScaled then 0 else maxDistortion

/-- The entry goes to the list for AMVP-merge if it is valid there. -/
def pushAmvpMerge (l : RefPicList) (iNumRefIdx : ℕ) (entry : RefListAndRefIdx)
    (valid : RefPicList → ℕ → Bool) (c : CombinedLists) : CombinedLists :=
  if valid l iNumRefIdx then
    { c with
      m_iRefIdxOfLCAmvpMerge :=
        updateIdx c.m_iRefIdxOfLCAmvpMerge l iNumRefIdx (i8 c.m_refPicCombinedListAmvpMerge.length)
      m_refPicCombinedListAmvpMerge := c.m_refPicCombinedListAmvpMerge ++ [entry] }
  else c

/-- An entry of one of the lists. -/
def pushRef (valid : RefPicList → ℕ → Bool) (l : RefPicList) (iNumRefIdx : ℕ) (c : CombinedLists) :
    CombinedLists :=
  let entry : RefListAndRefIdx := ⟨l, iNumRefIdx, refCost s l iNumRefIdx⟩
  pushAmvpMerge l iNumRefIdx entry valid { c with
    m_iRefIdxOfLC := updateIdx c.m_iRefIdxOfLC l iNumRefIdx (i8 c.m_refPicCombinedList.length)
    m_numNonScaledRefPic := if entry.cost = 0 then c.m_numNonScaledRefPic + 1 else c.m_numNonScaledRefPic
    m_refPicCombinedList := c.m_refPicCombinedList ++ [entry] }

/-- One round of the main loop. -/
def combineRound (valid : RefPicList → ℕ → Bool) (c : CombinedLists) (iNumRefIdx : ℕ) : CombinedLists :=
  let c := if iNumRefIdx < s.getNumRefIdx REF_PIC_LIST_0 then pushRef s valid REF_PIC_LIST_0 iNumRefIdx c
    else c
  if iNumRefIdx < s.getNumRefIdx REF_PIC_LIST_1 ∧ setList1IdxToList0Idx s iNumRefIdx < 0 then
    pushRef s valid REF_PIC_LIST_1 iNumRefIdx c
  else c

/-- The loop for the entries of list 1 that are in list 0 too. -/
def amvpMergeRound (valid : RefPicList → ℕ → Bool) (c : CombinedLists) (iNumRefIdx : ℕ) : CombinedLists :=
  if setList1IdxToList0Idx s iNumRefIdx ≥ 0 then
    pushAmvpMerge REF_PIC_LIST_1 iNumRefIdx ⟨REF_PIC_LIST_1, iNumRefIdx, 0⟩ valid c
  else c

/-- After `setList1IdxToList0Idx`; `valid` is `getAmvpMergeModeValidRefIdx`. -/
def generateCombinedList (valid : RefPicList → ℕ → Bool) (c : CombinedLists) : Checked CombinedLists := do
  let n0 := s.getNumRefIdx REF_PIC_LIST_0
  let n1 := s.getNumRefIdx REF_PIC_LIST_1
  let m_iRefIdxOfLC ← loop (fun iNumCount table => do
    let table ← writeIdx table REF_PIC_LIST_0 iNumCount (-1)
    writeIdx table REF_PIC_LIST_1 iNumCount (-1)) (n0 + n1) c.m_iRefIdxOfLC
  let c := { c with
    m_refPicCombinedList := []
    m_refPicCombinedListAmvpMerge := []
    m_iRefIdxOfLC
    m_numNonScaledRefPic := 0 }
  let c := (List.range (max n0 n1)).foldl (combineRound s valid) c
  let c := (List.range n1).foldl (amvpMergeRound s valid) c
  return if s.rprEnabledFlag then
    { c with m_refPicCombinedList := c.m_refPicCombinedList.mergeSort fun l r => l.cost ≤ r.cost }
  else c

/-! ## Pairs -/

structure RefPicPair where
  refIdx0 : ℕ
  refIdx1 : ℕ
  /-- Zero before it is set. -/
  cost : ℕ
  deriving DecidableEq, Repr

structure PairLists where
  m_refPicPairList : List RefPicPair
  m_iRefPicPairIdx : ℕ → ℕ → ℤ
  m_numNonScaledRefPicPair : ℤ

/-- A pair of the list has the pictures of the other one, swapped. -/
def isDuplicatePair (refIdx0 refIdx1 : ℕ) (it : RefPicPair) : Bool :=
  (s.getRefPic REF_PIC_LIST_1 it.refIdx1).poc = (s.getRefPic REF_PIC_LIST_0 refIdx0).poc &&
    (s.getRefPic REF_PIC_LIST_0 it.refIdx0).poc = (s.getRefPic REF_PIC_LIST_1 refIdx1).poc

def pushPair (refIdx0 : ℕ) (pairs : List RefPicPair) (refIdx1 : ℕ) : List RefPicPair :=
  if !s.checkLDC && pairs.any (isDuplicatePair s refIdx0 refIdx1) then pairs
  else pairs ++ [⟨refIdx0, refIdx1, 0⟩]

/-- The loops that fill `m_refPicPairList`. -/
def buildPairs : List RefPicPair :=
  (List.range (s.getNumRefIdx REF_PIC_LIST_0)).foldl
    (fun pairs refIdx0 => (List.range (s.getNumRefIdx REF_PIC_LIST_1)).foldl (pushPair s refIdx0) pairs) []

def pairCost (pair : RefPicPair) : ℕ :=
  if !s.rprEnabledFlag ||
      (!(s.getRefPic REF_PIC_LIST_0 pair.refIdx0).isRefScaled &&
        !(s.getRefPic REF_PIC_LIST_1 pair.refIdx1).isRefScaled) then 0
  else maxDistortion

/-- One round of the loop that records the indices. -/
def recordPair (p : PairLists) (i : ℕ) : PairLists :=
  match p.m_refPicPairList[i]? with
  | none => p
  | some pair =>
    let cost := pairCost s pair
    { m_refPicPairList := p.m_refPicPairList.set i { pair with cost }
      m_iRefPicPairIdx := Function.update p.m_iRefPicPairIdx pair.refIdx0
        (Function.update (p.m_iRefPicPairIdx pair.refIdx0) pair.refIdx1 i)
      m_numNonScaledRefPicPair := if cost = 0 then p.m_numNonScaledRefPicPair + 1
        else p.m_numNonScaledRefPicPair }

/-- The size of the list is taken as an `int8_t`. -/
def generateRefPicPairList : PairLists :=
  let pairs := buildPairs s
  let p := (List.range (i8 pairs.length).toNat).foldl (recordPair s) ⟨pairs, fun _ _ => -1, 0⟩
  if s.rprEnabledFlag then
    { p with m_refPicPairList := p.m_refPicPairList.mergeSort fun l r => l.cost ≤ r.cost }
  else p

end

end ECM.CommonLib
