import ECM.Hls.RoundTrip

/-! # The syntax of reference picture lists

Short-term entries are coded by the difference to the short-term entry before, with
long-term and inter-layer entries in between. A list 1 that is signalled as identical to
list 0 is copied instead. -/

namespace ECM.CommonLib.Rpl
open CommonLib

def MAX_NUM_REF_PICS : ℕ := 29

structure Entry where
  m_refPicIdentifier : ℤ
  m_isLongtermRefPic : Bool
  m_deltaPocMSBPresentFlag : Bool
  m_deltaPOCMSBCycleLT : ℤ
  m_isInterLayerRefPic : Bool
  m_interLayerRefPicIdx : ℤ
  deriving DecidableEq, Repr

structure ReferencePictureList where
  m_numberOfShorttermPictures : ℕ
  m_numberOfLongtermPictures : ℕ
  m_numberOfInterLayerPictures : ℕ
  m_ltrp_in_slice_header_flag : Bool
  m_interLayerPresentFlag : Bool
  m_entries : List Entry
  length_entries : m_entries.length = MAX_NUM_REF_PICS

/-- What the syntax of the lists reads of a sequence parameter set. -/
structure SPS where
  m_longTermRefsPresent : Bool
  m_interLayerPresentFlag : Bool
  m_useWeightPred : Bool
  m_useWeightedBiPred : Bool
  m_bitsForPOC : ℕ
  deriving DecidableEq, Repr

namespace ReferencePictureList

/-- `ReferencePictureList()`. -/
def new : ReferencePictureList where
  m_numberOfShorttermPictures := 0
  m_numberOfLongtermPictures := 0
  m_numberOfInterLayerPictures := 0
  m_ltrp_in_slice_header_flag := false
  m_interLayerPresentFlag := false
  m_entries := List.replicate MAX_NUM_REF_PICS ⟨0, false, false, 0, false, 0⟩
  length_entries := List.length_replicate

/-- All entries of a list. -/
def numRefPic (rpl : ReferencePictureList) : ℕ :=
  rpl.m_numberOfShorttermPictures + rpl.m_numberOfLongtermPictures + rpl.m_numberOfInterLayerPictures

def setRefPicIdentifier (rpl : ReferencePictureList) (idx : ℕ) (identifier : ℤ)
    (isLongterm isInterLayerRefPic : Bool) (interLayerIdx : ℤ) : Checked ReferencePictureList :=
  if idx < MAX_NUM_REF_PICS then
    .ok { rpl with
      m_entries := rpl.m_entries.set idx
        ⟨identifier, isLongterm, false, 0, isInterLayerRefPic, interLayerIdx⟩
      length_entries := by rw [List.length_set]; exact rpl.length_entries }
  else .error outOfRange

end ReferencePictureList

end ECM.CommonLib.Rpl

namespace ECM.EncoderLib.VLCWriter
open CommonLib Lib.Loop
open CommonLib.Rpl (Entry)

/-- The short-term entry coded last. -/
structure DeltaPoc where
  prevDelta : ℤ
  firstSTRP : Bool
  deriving DecidableEq, Repr

/-- The difference to the entry before, as an `int`. -/
def DeltaPoc.deltaValue (d : DeltaPoc) (identifier : ℤ) : ℤ :=
  if d.firstSTRP then identifier else toI32 (toU32 (identifier - d.prevDelta))

def codeInterLayer (interLayerPresentFlag : Bool) (e : Entry) : WriteM Unit := do
  if interLayerPresentFlag then
    WRITE_FLAG e.m_isInterLayerRefPic
    if e.m_isInterLayerRefPic then
      check (e.m_interLayerRefPicIdx < 0) "Wrong inter-layer reference index"
      WRITE_UVLC (toU32 e.m_interLayerRefPicIdx)

/-- `abs_delta_poc_st` and `strp_entry_sign_flag`. -/
def codeDeltaPoc (deltaValue : ℤ) (isForbiddenZeroDeltaPoc : Bool) (ii : ℕ) : WriteM Unit := do
  let absDeltaValue := toU32 (if deltaValue < 0 then 0 - deltaValue else deltaValue)
  (if isForbiddenZeroDeltaPoc ∨ ii = 0 then do
      check (absDeltaValue = 0) "Zero delta POC is not used without WP or is the 0-th entry"
      WRITE_UVLC (sub32 absDeltaValue 1)
    else WRITE_UVLC absDeltaValue : WriteM Unit)
  if absDeltaValue > 0 then WRITE_FLAG (decide (deltaValue < 0))

/-- One round of the loop over the entries. -/
def codeRefPicEntry (rpl : Rpl.ReferencePictureList) (isLongTermPresent : Bool) (ltLsbBitsCount : ℕ)
    (isForbiddenZeroDeltaPoc : Bool) (ii : ℕ) (d : DeltaPoc) : WriteM DeltaPoc := do
  let e ← readAt rpl.m_entries ii
  codeInterLayer rpl.m_interLayerPresentFlag e
  if e.m_isInterLayerRefPic then return d
  else
    (if isLongTermPresent then WRITE_FLAG (!e.m_isLongtermRefPic) else pure () : WriteM Unit)
    if e.m_isLongtermRefPic then
      (if rpl.m_ltrp_in_slice_header_flag then pure ()
        else WRITE_CODE (toU32 e.m_refPicIdentifier) ltLsbBitsCount : WriteM Unit)
      return d
    else
      codeDeltaPoc (d.deltaValue e.m_refPicIdentifier) isForbiddenZeroDeltaPoc ii
      return ⟨e.m_refPicIdentifier, false⟩

def xCodeRefPicList (rpl : Rpl.ReferencePictureList) (isLongTermPresent : Bool) (ltLsbBitsCount : ℕ)
    (isForbiddenZeroDeltaPoc : Bool) (rplIdx : ℤ) : WriteM Unit := do
  WRITE_UVLC rpl.numRefPic
  (if isLongTermPresent ∧ rpl.numRefPic > 0 ∧ rplIdx ≠ -1 then WRITE_FLAG rpl.m_ltrp_in_slice_header_flag
    else pure () : WriteM Unit)
  let _ ← loop (codeRefPicEntry rpl isLongTermPresent ltLsbBitsCount isForbiddenZeroDeltaPoc) rpl.numRefPic
    ⟨MAX_INT, true⟩
  return ()

end ECM.EncoderLib.VLCWriter

namespace ECM.DecoderLib.VLCReader
open CommonLib Lib.Loop
open CommonLib.Rpl (SPS)
open EncoderLib.VLCWriter (DeltaPoc)

/-- What the loop over the entries keeps. -/
structure RplState where
  rpl : Rpl.ReferencePictureList
  numStrp : ℕ
  numLtrp : ℕ
  numIlrp : ℕ
  delta : DeltaPoc

/-- `ilrp_idx` of an inter-layer entry. -/
def parseInterLayer (interLayerPresentFlag : Bool) : ReadM (Option ℕ) := do
  if interLayerPresentFlag then
    let isInterLayerRefPic ← READ_FLAG
    if isInterLayerRefPic then
      let code ← READ_UVLC
      return some code
    else return none
  else return none

/-- `abs_delta_poc_st` and `strp_entry_sign_flag`. -/
def parseDeltaPoc (sps : SPS) (ii : ℕ) : ReadM ℤ := do
  let code ← READ_UVLC
  let code := if (sps.m_useWeightPred = false ∧ sps.m_useWeightedBiPred = false) ∨ ii = 0 then
    u32 (code + 1) else code
  let readValue := toI32 code
  if readValue > 0 then
    let sign ← READ_FLAG
    return if sign then -readValue else readValue
  else return readValue

/-- One round of the loop over the entries. -/
def parseRefPicEntry (sps : SPS) (ii : ℕ) (st : RplState) : ReadM RplState := do
  let interLayer ← parseInterLayer st.rpl.m_interLayerPresentFlag
  match interLayer with
  | some code =>
    let rpl ← st.rpl.setRefPicIdentifier ii 0 true true (toI32 code)
    return { st with rpl := rpl, numIlrp := st.numIlrp + 1 }
  | none =>
    let isLongTerm ← (if sps.m_longTermRefsPresent then (do
      let code ← READ_FLAG
      return !code) else pure false : ReadM Bool)
    if isLongTerm then
      -- without the LSBs the code is still `st_ref_pic_flag`
      let code ← (if st.rpl.m_ltrp_in_slice_header_flag then pure 0 else READ_CODE sps.m_bitsForPOC : ReadM ℕ)
      let rpl ← st.rpl.setRefPicIdentifier ii (toI32 code) isLongTerm false 0
      return { st with rpl := rpl, numLtrp := st.numLtrp + 1 }
    else
      let readValue ← parseDeltaPoc sps ii
      let deltaValue := if st.delta.firstSTRP then readValue
        else toI32 (toU32 (st.delta.prevDelta + readValue))
      let rpl ← st.rpl.setRefPicIdentifier ii deltaValue isLongTerm false 0
      return { st with rpl := rpl, numStrp := st.numStrp + 1, delta := ⟨deltaValue, false⟩ }

/-- `ltrp_in_slice_header_flag`, or what it is without being sent. -/
def parseLtrpInSliceHeaderFlag (sps : SPS) (rpl : Rpl.ReferencePictureList) (numRefPic : ℕ) (rplIdx : ℤ) :
    ReadM Rpl.ReferencePictureList := do
  if sps.m_longTermRefsPresent ∧ numRefPic > 0 ∧ rplIdx ≠ -1 then
    let code ← READ_FLAG
    return { rpl with m_ltrp_in_slice_header_flag := code }
  else if sps.m_longTermRefsPresent then return { rpl with m_ltrp_in_slice_header_flag := true }
  else return rpl

def parseRefPicList (sps : SPS) (rpl : Rpl.ReferencePictureList) (rplIdx : ℤ) :
    ReadM Rpl.ReferencePictureList := do
  let numRefPic ← READ_UVLC
  let rpl ← parseLtrpInSliceHeaderFlag sps rpl numRefPic rplIdx
  let rpl := { rpl with m_interLayerPresentFlag := sps.m_interLayerPresentFlag }
  let st ← loop (parseRefPicEntry sps) numRefPic ⟨rpl, 0, 0, 0, ⟨MAX_INT, true⟩⟩
  return { st.rpl with
    m_numberOfShorttermPictures := st.numStrp
    m_numberOfLongtermPictures := st.numLtrp
    m_numberOfInterLayerPictures := st.numIlrp }

def copyRefPicList (sps : SPS) (source_rpl dest_rp : Rpl.ReferencePictureList) :
    Checked Rpl.ReferencePictureList := do
  let dest_rp := { dest_rp with
    m_numberOfShorttermPictures := source_rpl.m_numberOfShorttermPictures
    m_numberOfInterLayerPictures :=
      if sps.m_interLayerPresentFlag then dest_rp.m_numberOfInterLayerPictures else 0
    m_numberOfLongtermPictures :=
      if sps.m_longTermRefsPresent then dest_rp.m_numberOfLongtermPictures else 0 }
  let numRefPic := dest_rp.m_numberOfShorttermPictures + dest_rp.m_numberOfLongtermPictures
  loop (fun ii (dest_rp : Rpl.ReferencePictureList) => do
    let e ← readAt source_rpl.m_entries ii
    dest_rp.setRefPicIdentifier ii e.m_refPicIdentifier e.m_isLongtermRefPic e.m_isInterLayerRefPic
      e.m_interLayerRefPicIdx) numRefPic dest_rp

end ECM.DecoderLib.VLCReader

namespace ECM.Hls
open CommonLib CommonLib.BitStream Lib.Bits Lib.Loop List
open EncoderLib.VLCWriter DecoderLib.VLCReader
open CommonLib.Rpl (SPS Entry MAX_NUM_REF_PICS)

/-! ## What is signalled -/

def isShortterm (e : Entry) : Bool := !e.m_isInterLayerRefPic && !e.m_isLongtermRefPic

def isLongterm (e : Entry) : Bool := !e.m_isInterLayerRefPic && e.m_isLongtermRefPic

/-- The entries in use. -/
def entries (rpl : Rpl.ReferencePictureList) : List Entry := rpl.m_entries.take rpl.numRefPic

def shortIds (es : List Entry) : List ℤ := (es.filter isShortterm).map (·.m_refPicIdentifier)

/-- The difference of two POCs has a negation that is an `int`. -/
def Negatable (a b : ℤ) : Prop := toI32 (toU32 (b - a)) ≠ -2 ^ 31

/-- A list that can be signalled under `sps`, in the parameter set or in a slice header. -/
structure Signalled (sps : SPS) (rpl : Rpl.ReferencePictureList) (rplIdx : ℤ) : Prop where
  shortterm : rpl.m_numberOfShorttermPictures = (entries rpl).countP isShortterm
  longterm : rpl.m_numberOfLongtermPictures = (entries rpl).countP isLongterm
  interLayer : rpl.m_numberOfInterLayerPictures = (entries rpl).countP (·.m_isInterLayerRefPic)
  interLayerFlag : rpl.m_interLayerPresentFlag = sps.m_interLayerPresentFlag
  interLayer_enabled : ∀ e ∈ entries rpl, e.m_isInterLayerRefPic = true → sps.m_interLayerPresentFlag = true
  longterm_enabled : ∀ e ∈ entries rpl, isLongterm e = true → sps.m_longTermRefsPresent = true
  sliceHeader : rplIdx = -1 → rpl.m_ltrp_in_slice_header_flag = true
  identifiers : ∀ e ∈ entries rpl, -2 ^ 31 ≤ e.m_refPicIdentifier ∧ e.m_refPicIdentifier < 2 ^ 31
  interLayerIdx : ∀ e ∈ entries rpl, e.m_interLayerRefPicIdx < 2 ^ 31
  deltas : (0 :: shortIds (entries rpl)).IsChain Negatable

/-- The entry `e'` says what was sent of `e`: its kind, the POC of a short-term picture, the
LSBs of a long-term one unless they are in the slice header, and the inter-layer index. -/
structure SameEntry (ltrpInSliceHeader : Bool) (e e' : Entry) : Prop where
  interLayer : e'.m_isInterLayerRefPic = e.m_isInterLayerRefPic
  interLayerIdx : e.m_isInterLayerRefPic = true → e'.m_interLayerRefPicIdx = e.m_interLayerRefPicIdx
  longterm : e.m_isInterLayerRefPic = false → e'.m_isLongtermRefPic = e.m_isLongtermRefPic
  shortterm_id : isShortterm e = true → e'.m_refPicIdentifier = e.m_refPicIdentifier
  longterm_id : isLongterm e = true → ltrpInSliceHeader = false →
    e'.m_refPicIdentifier = e.m_refPicIdentifier

/-- The list that was parsed is the one that was coded. -/
structure SameList (rpl rpl' : Rpl.ReferencePictureList) : Prop where
  shortterm : rpl'.m_numberOfShorttermPictures = rpl.m_numberOfShorttermPictures
  longterm : rpl'.m_numberOfLongtermPictures = rpl.m_numberOfLongtermPictures
  interLayer : rpl'.m_numberOfInterLayerPictures = rpl.m_numberOfInterLayerPictures
  entry : ∀ k < rpl.numRefPic, ∃ e e', rpl.m_entries[k]? = some e ∧ rpl'.m_entries[k]? = some e' ∧
    SameEntry rpl.m_ltrp_in_slice_header_flag e e'

/-! ## The parts of an entry -/

theorem toI32_toU32 {v : ℤ} (hlow : -2 ^ 31 ≤ v) (hhigh : v < 2 ^ 31) : toI32 (toU32 v) = v := by
  rw [toI32, toU32]
  split <;> omega

theorem toI32_range {n : ℕ} (h : n < 2 ^ 32) : -2 ^ 31 ≤ toI32 n ∧ toI32 n < 2 ^ 31 := by
  rw [toI32]
  split <;> omega

theorem toU32_lt (v : ℤ) : toU32 v < 2 ^ 32 := by
  rw [toU32]
  omega

theorem roundTrips_interLayer {flag : Bool} {e : Entry}
    (henabled : e.m_isInterLayerRefPic = true → flag = true) (hidx : e.m_interLayerRefPicIdx < 2 ^ 31) :
    RoundTrips False (codeInterLayer flag e) (parseInterLayer flag) fun _ o =>
      (e.m_isInterLayerRefPic = true → ∃ n, o = some n ∧ toI32 n = e.m_interLayerRefPicIdx) ∧
      (e.m_isInterLayerRefPic = false → o = none) := by
  rw [codeInterLayer, parseInterLayer]
  cases flag with
  | false =>
    refine roundTrips_pure ⟨fun h => absurd (henabled h) Bool.false_ne_true, fun _ => rfl⟩
  | true =>
    refine roundTrips_bind (roundTrips_flag e.m_isInterLayerRefPic) ?_
    rintro - _ rfl
    cases he : e.m_isInterLayerRefPic with
    | false => exact roundTrips_pure ⟨fun h => absurd h Bool.false_ne_true, fun _ => rfl⟩
    | true =>
      refine roundTrips_check (fun _ => not_false) fun hneg => ?_
      refine (roundTrips_uvlc_accepted (toU32_lt _)).then_right fun _ code hcode => ?_
      refine ⟨some code, rfl, fun _ => ⟨code, rfl, ?_⟩, fun h => absurd h.symm Bool.false_ne_true⟩
      rw [hcode, toI32_toU32 (by omega) hidx]

theorem roundTrips_deltaPoc {sps : SPS} {v : ℤ} {ii : ℕ} (hlow : -2 ^ 31 < v) (hhigh : v < 2 ^ 31) :
    RoundTrips False
      (codeDeltaPoc v (!sps.m_useWeightPred && !sps.m_useWeightedBiPred) ii) (parseDeltaPoc sps ii)
      fun _ readValue => readValue = v := by
  obtain ⟨n, hn⟩ : ∃ n, n = v.natAbs := ⟨_, rfl⟩
  have habs : toU32 (if v < 0 then 0 - v else v) = n := by
    rw [toU32]
    split <;> omega
  have hlt : n < 2 ^ 31 := by omega
  have hint : toI32 n = n := if_pos hlt
  rw [codeDeltaPoc, parseDeltaPoc, habs]
  have hcode : RoundTrips False
      (if (!sps.m_useWeightPred && !sps.m_useWeightedBiPred) = true ∨ ii = 0 then do
          check (n = 0) "Zero delta POC is not used without WP or is the 0-th entry"
          WRITE_UVLC (sub32 n 1)
        else WRITE_UVLC n : WriteM Unit) READ_UVLC fun _ code =>
        (if (sps.m_useWeightPred = false ∧ sps.m_useWeightedBiPred = false) ∨ ii = 0 then u32 (code + 1)
          else code) = n := by
    have hiff : ((!sps.m_useWeightPred && !sps.m_useWeightedBiPred) = true ∨ ii = 0) ↔
        ((sps.m_useWeightPred = false ∧ sps.m_useWeightedBiPred = false) ∨ ii = 0) := by simp
    by_cases hforbidden : (sps.m_useWeightPred = false ∧ sps.m_useWeightedBiPred = false) ∨ ii = 0
    · rw [if_pos (hiff.mpr hforbidden)]
      refine roundTrips_check (fun _ => not_false) fun hzero => ?_
      rw [sub32_of_le (by omega) (by omega)]
      refine (roundTrips_uvlc (by omega)).mono fun _ code h => ?_
      rw [if_pos hforbidden, h, Nat.sub_add_cancel (by omega)]
      exact u32_of_lt (by omega)
    · rw [if_neg fun h => hforbidden (hiff.mp h)]
      refine (roundTrips_uvlc (by omega)).mono fun _ code h => ?_
      rw [if_neg hforbidden, h]
  refine roundTrips_bind hcode fun _ code h => ?_
  dsimp only
  rw [h, hint]
  by_cases hpos : n > 0
  · rw [if_pos hpos, if_pos (by omega)]
    refine (roundTrips_flag (decide (v < 0))).then_right fun _ sign hsign => ⟨_, rfl, ?_⟩
    rw [hsign]
    by_cases hneg : v < 0
    · rw [decide_eq_true hneg, if_pos rfl]
      omega
    · rw [decide_eq_false hneg, if_neg Bool.false_ne_true]
      omega
  · rw [if_neg hpos, if_neg (by omega)]
    refine roundTrips_pure ?_
    omega

/-! ## One entry -/

theorem setRefPicIdentifier_ok (rpl : Rpl.ReferencePictureList) {ii : ℕ} (h : ii < MAX_NUM_REF_PICS)
    (id : ℤ) (lt il : Bool) (idx : ℤ) : ∃ rpl', rpl.setRefPicIdentifier ii id lt il idx = .ok rpl' ∧
      rpl'.m_entries = rpl.m_entries.set ii ⟨id, lt, false, 0, il, idx⟩ ∧
      rpl'.m_interLayerPresentFlag = rpl.m_interLayerPresentFlag ∧
      rpl'.m_ltrp_in_slice_header_flag = rpl.m_ltrp_in_slice_header_flag ∧
      rpl'.m_numberOfShorttermPictures = rpl.m_numberOfShorttermPictures ∧
      rpl'.m_numberOfLongtermPictures = rpl.m_numberOfLongtermPictures ∧
      rpl'.m_numberOfInterLayerPictures = rpl.m_numberOfInterLayerPictures :=
  ⟨_, if_pos h, rfl, rfl, rfl, rfl, rfl, rfl⟩

/-- The difference is taken against this POC. -/
def base (d : DeltaPoc) : ℤ := if d.firstSTRP then 0 else d.prevDelta

/-- Both loops when the first `ii` entries are done. -/
structure Inv (sps : SPS) (rpl : Rpl.ReferencePictureList) (ii : ℕ) (d : DeltaPoc) (st : RplState) :
    Prop where
  delta : st.delta = d
  chain : (base d :: shortIds ((entries rpl).drop ii)).IsChain Negatable
  interLayerFlag : st.rpl.m_interLayerPresentFlag = sps.m_interLayerPresentFlag
  ltrp : 0 < rpl.numRefPic → sps.m_longTermRefsPresent = true →
    st.rpl.m_ltrp_in_slice_header_flag = rpl.m_ltrp_in_slice_header_flag
  numStrp : st.numStrp = ((entries rpl).take ii).countP isShortterm
  numLtrp : st.numLtrp = ((entries rpl).take ii).countP isLongterm
  numIlrp : st.numIlrp = ((entries rpl).take ii).countP (·.m_isInterLayerRefPic)
  entry : ∀ k < ii, ∃ e e', rpl.m_entries[k]? = some e ∧ st.rpl.m_entries[k]? = some e' ∧
    SameEntry rpl.m_ltrp_in_slice_header_flag e e'

variable {sps : SPS} {rpl : Rpl.ReferencePictureList} {rplIdx : ℤ} {ii : ℕ} {d : DeltaPoc}
  {st : RplState} {e : Entry}

/-- What is known of the entry at hand. -/
structure Current (rpl : Rpl.ReferencePictureList) (ii : ℕ) (e : Entry) : Prop where
  inside : ii < MAX_NUM_REF_PICS
  entry : rpl.m_entries[ii]? = some e
  mem : e ∈ entries rpl
  take_succ : (entries rpl).take (ii + 1) = (entries rpl).take ii ++ [e]
  drop_eq : (entries rpl).drop ii = e :: (entries rpl).drop (ii + 1)

theorem current (hii : ii < rpl.numRefPic) (h : rpl.m_entries[ii]? = some e) : Current rpl ii e := by
  obtain ⟨hlt, he⟩ := List.getElem?_eq_some_iff.mp h
  have hentry : (entries rpl)[ii]? = some e := by rw [entries, List.getElem?_take_of_lt hii, h]
  obtain ⟨hlen, hget⟩ := List.getElem?_eq_some_iff.mp hentry
  refine ⟨by rwa [rpl.length_entries] at hlt, h, mem_of_getElem? hentry, ?_, ?_⟩
  · rw [take_succ_eq_append_getElem hlen, hget]
  · rw [drop_eq_getElem_cons hlen, hget]

/-- The entries before `ii` and the one that has been set. -/
theorem entry_succ {es : List Entry} {e' : Entry} {b : Bool} (hc : Current rpl ii e)
    (hlen : es.length = MAX_NUM_REF_PICS) (he : SameEntry b e e')
    (h : ∀ k < ii, ∃ e e', rpl.m_entries[k]? = some e ∧ es[k]? = some e' ∧ SameEntry b e e') :
    ∀ k < ii + 1, ∃ e e'', rpl.m_entries[k]? = some e ∧ (es.set ii e')[k]? = some e'' ∧
      SameEntry b e e'' := by
  intro k hk
  by_cases hki : k = ii
  · subst hki
    exact ⟨e, e', hc.entry, List.getElem?_set_self (by rw [hlen]; exact hc.inside), he⟩
  · rw [List.getElem?_set_ne (Ne.symm hki)]
    exact h k (by omega)

/-- Counting on by one entry. -/
theorem countP_succ (hc : Current rpl ii e) (p : Entry → Bool) :
    ((entries rpl).take (ii + 1)).countP p = ((entries rpl).take ii).countP p + if p e then 1 else 0 := by
  rw [hc.take_succ, countP_append, countP_singleton]

/-- The invariant when the entry at hand has been set to what was sent of it. -/
theorem Inv.step (hinv : Inv sps rpl ii d st) (hc : Current rpl ii e) (id : ℤ) (lt il : Bool) (idx : ℤ)
    (d' : DeltaPoc) (hchain : (base d' :: shortIds ((entries rpl).drop (ii + 1))).IsChain Negatable)
    (hsame : SameEntry rpl.m_ltrp_in_slice_header_flag e ⟨id, lt, false, 0, il, idx⟩) :
    ∃ rpl', st.rpl.setRefPicIdentifier ii id lt il idx = .ok rpl' ∧
      ∀ st' : RplState, st'.rpl = rpl' → st'.delta = d' →
        st'.numStrp = st.numStrp + (if isShortterm e then 1 else 0) →
        st'.numLtrp = st.numLtrp + (if isLongterm e then 1 else 0) →
        st'.numIlrp = st.numIlrp + (if e.m_isInterLayerRefPic then 1 else 0) →
        Inv sps rpl (ii + 1) d' st' := by
  obtain ⟨rpl', hset, hentries, hflag, hltrp, -⟩ :=
    setRefPicIdentifier_ok st.rpl hc.inside id lt il idx
  refine ⟨rpl', hset, ?_⟩
  rintro st' rfl hdelta hs hl hi
  refine ⟨hdelta, hchain, hflag.trans hinv.interLayerFlag, ?_, ?_, ?_, ?_, ?_⟩
  · exact fun hpos hlt => hltrp.trans (hinv.ltrp hpos hlt)
  · rw [hs, countP_succ hc, ← hinv.numStrp]
  · rw [hl, countP_succ hc, ← hinv.numLtrp]
  · rw [hi, countP_succ hc, ← hinv.numIlrp]
  · rw [hentries]
    exact entry_succ hc st.rpl.length_entries hsame hinv.entry

theorem shortIds_drop (hc : Current rpl ii e) :
    shortIds ((entries rpl).drop ii) =
      if isShortterm e then e.m_refPicIdentifier :: shortIds ((entries rpl).drop (ii + 1))
      else shortIds ((entries rpl).drop (ii + 1)) := by
  rw [hc.drop_eq, shortIds, filter_cons]
  split <;> rfl

/-- The difference comes back, and the POC from it. -/
theorem deltaValue_spec {id : ℤ} (hlow : -2 ^ 31 ≤ id) (hhigh : id < 2 ^ 31) (d : DeltaPoc)
    (h : Negatable (base d) id) :
    -2 ^ 31 < d.deltaValue id ∧ d.deltaValue id < 2 ^ 31 ∧
      (if d.firstSTRP then d.deltaValue id else toI32 (toU32 (d.prevDelta + d.deltaValue id))) = id := by
  rw [Negatable, base] at h
  rw [DeltaPoc.deltaValue]
  by_cases hfirst : d.firstSTRP = true
  · rw [if_pos hfirst] at h ⊢
    rw [sub_zero, toI32_toU32 hlow hhigh] at h
    rw [if_pos hfirst]
    exact ⟨lt_of_le_of_ne hlow (Ne.symm h), hhigh, rfl⟩
  · rw [if_neg hfirst] at h ⊢
    rw [if_neg hfirst]
    have hrange := toI32_range (toU32_lt (id - d.prevDelta))
    refine ⟨lt_of_le_of_ne hrange.1 (Ne.symm h), hrange.2, ?_⟩
    rw [toI32, toI32, toU32, toU32]
    split <;> split <;> omega

theorem roundTrips_entry (h : Signalled sps rpl rplIdx) (hii : ii < rpl.numRefPic)
    (hinv : Inv sps rpl ii d st) :
    RoundTrips False
      (codeRefPicEntry rpl sps.m_longTermRefsPresent sps.m_bitsForPOC
        (!sps.m_useWeightPred && !sps.m_useWeightedBiPred) ii d)
      (parseRefPicEntry sps ii st) (Inv sps rpl (ii + 1)) := by
  rw [codeRefPicEntry, parseRefPicEntry]
  refine roundTrips_lift_left (fun _ _ => not_false) fun e he => ?_
  have hc := current hii (readAt_eq_ok he)
  have hids := h.identifiers e hc.mem
  have hchain := hinv.chain
  rw [shortIds_drop hc] at hchain
  rw [hinv.interLayerFlag, ← h.interLayerFlag]
  refine roundTrips_bind (roundTrips_interLayer
    (fun hil => h.interLayerFlag.trans (h.interLayer_enabled e hc.mem hil)) (h.interLayerIdx e hc.mem)) ?_
  rintro - o ⟨hsome, hnone⟩
  cases hil : e.m_isInterLayerRefPic with
  | true =>
    have hshort : isShortterm e = false := by rw [isShortterm, hil]; rfl
    have hlong : isLongterm e = false := by rw [isLongterm, hil]; rfl
    rw [if_neg (by rw [hshort]; exact Bool.false_ne_true)] at hchain
    obtain ⟨code, rfl, hcode⟩ := hsome hil
    obtain ⟨rpl', hset, hstep⟩ := hinv.step hc 0 true true (toI32 code) d hchain
      ⟨hil.symm, fun _ => hcode, fun hf => absurd (hil.symm.trans hf) (by decide),
        fun hf => absurd (hshort.symm.trans hf) (by decide),
        fun hf => absurd (hlong.symm.trans hf) (by decide)⟩
    rw [if_pos rfl]
    dsimp only
    rw [hset]
    refine roundTrips_pure (hstep _ rfl hinv.delta ?_ ?_ ?_)
    · rw [hshort]; rfl
    · rw [hlong]; rfl
    · rw [hil]; rfl
  | false =>
    rw [hnone hil, if_neg Bool.false_ne_true]
    dsimp only
    -- `st_ref_pic_flag`, or short-term without it
    have hflag : RoundTrips False
        (if sps.m_longTermRefsPresent then WRITE_FLAG (!e.m_isLongtermRefPic) else pure () : WriteM Unit)
        (if sps.m_longTermRefsPresent then (do
          let code ← READ_FLAG
          return !code) else pure false : ReadM Bool) fun _ isLongTerm => isLongTerm = e.m_isLongtermRefPic := by
      refine roundTrips_ite Iff.rfl (fun _ => ?_) fun hlt => ?_
      · refine (roundTrips_flag _).then_right fun _ code hcode => ⟨_, rfl, ?_⟩
        rw [hcode, Bool.not_not]
      · refine roundTrips_pure (Eq.symm (Bool.eq_false_iff.mpr fun hlong => hlt ?_))
        exact h.longterm_enabled e hc.mem (by rw [isLongterm, hil, hlong]; rfl)
    refine roundTrips_bind hflag ?_
    rintro - _ rfl
    cases hlong : e.m_isLongtermRefPic with
    | true =>
      have hshort : isShortterm e = false := by rw [isShortterm, hil, hlong]; rfl
      have hlongterm : isLongterm e = true := by rw [isLongterm, hil, hlong]; rfl
      rw [if_neg (by rw [hshort]; exact Bool.false_ne_true)] at hchain
      have hltrp := hinv.ltrp (by omega) (h.longterm_enabled e hc.mem hlongterm)
      rw [if_pos rfl, if_pos rfl, hltrp]
      -- the LSBs, unless they are in the slice header
      have hlsb : RoundTrips False
          (if rpl.m_ltrp_in_slice_header_flag then pure ()
            else WRITE_CODE (toU32 e.m_refPicIdentifier) sps.m_bitsForPOC : WriteM Unit)
          (if rpl.m_ltrp_in_slice_header_flag then pure 0 else READ_CODE sps.m_bitsForPOC : ReadM ℕ)
          fun _ code => rpl.m_ltrp_in_slice_header_flag = false → toI32 code = e.m_refPicIdentifier := by
        refine roundTrips_ite Iff.rfl (fun hheader => ?_) fun _ => ?_
        · exact roundTrips_pure fun hf => absurd (hheader.symm.trans hf) (by decide)
        · refine (roundTrips_code_accepted (toU32_lt _)).mono fun _ code hcode _ => ?_
          rw [hcode, toI32_toU32 hids.1 hids.2]
      refine roundTrips_bind hlsb fun _ code hcode => ?_
      obtain ⟨rpl', hset, hstep⟩ := hinv.step hc (toI32 code) true false 0 d
        hchain ⟨hil.symm, fun hf => absurd (hil.symm.trans hf) (by decide), fun _ => hlong.symm,
          fun hf => absurd (hshort.symm.trans hf) (by decide), fun _ hheader => hcode hheader⟩
      rw [hset]
      refine roundTrips_pure (hstep _ rfl hinv.delta ?_ ?_ ?_)
      · rw [hshort]; rfl
      · rw [hlongterm]; rfl
      · rw [hil]; rfl
    | false =>
      have hshort : isShortterm e = true := by rw [isShortterm, hil, hlong]; rfl
      have hlongterm : isLongterm e = false := by rw [isLongterm, hil, hlong]; rfl
      rw [if_pos hshort, isChain_cons_cons] at hchain
      obtain ⟨hlow, hhigh, hback⟩ := deltaValue_spec hids.1 hids.2 d hchain.1
      rw [if_neg Bool.false_ne_true, if_neg Bool.false_ne_true]
      refine roundTrips_bind (roundTrips_deltaPoc hlow hhigh) ?_
      rintro - _ rfl
      rw [hinv.delta, hback]
      obtain ⟨rpl', hset, hstep⟩ := hinv.step hc e.m_refPicIdentifier false false 0
        ⟨e.m_refPicIdentifier, false⟩ hchain.2
        ⟨hil.symm, fun hf => absurd (hil.symm.trans hf) (by decide), fun _ => hlong.symm,
          fun _ => rfl, fun hf => absurd (hlongterm.symm.trans hf) (by decide)⟩
      rw [hset]
      refine roundTrips_pure (hstep _ rfl rfl ?_ ?_ ?_)
      · rw [hshort]; rfl
      · rw [hlongterm]; rfl
      · rw [hil]; rfl

/-! ## The whole list -/

theorem inv_init (h : Signalled sps rpl rplIdx) {rpl₀ : Rpl.ReferencePictureList}
    (hflag : rpl₀.m_interLayerPresentFlag = sps.m_interLayerPresentFlag)
    (hltrp : 0 < rpl.numRefPic → sps.m_longTermRefsPresent = true →
      rpl₀.m_ltrp_in_slice_header_flag = rpl.m_ltrp_in_slice_header_flag) :
    Inv sps rpl 0 ⟨MAX_INT, true⟩ ⟨rpl₀, 0, 0, 0, ⟨MAX_INT, true⟩⟩ :=
  ⟨rfl, h.deltas, hflag, hltrp, rfl, rfl, rfl, fun k hk => absurd hk (Nat.not_lt_zero k)⟩

theorem roundTrips_ltrpFlag (h : Signalled sps rpl rplIdx) (rpl₀ : Rpl.ReferencePictureList) :
    RoundTrips False
      (if sps.m_longTermRefsPresent ∧ rpl.numRefPic > 0 ∧ rplIdx ≠ -1 then
        WRITE_FLAG rpl.m_ltrp_in_slice_header_flag else pure () : WriteM Unit)
      (parseLtrpInSliceHeaderFlag sps rpl₀ rpl.numRefPic rplIdx) fun _ rpl₁ =>
        0 < rpl.numRefPic → sps.m_longTermRefsPresent = true →
          rpl₁.m_ltrp_in_slice_header_flag = rpl.m_ltrp_in_slice_header_flag := by
  rw [parseLtrpInSliceHeaderFlag]
  refine roundTrips_ite Iff.rfl (fun _ => ?_) fun hnot => ?_
  · exact (roundTrips_flag _).then_right fun _ code hcode => ⟨_, rfl, fun _ _ => hcode⟩
  · by_cases hlt : sps.m_longTermRefsPresent = true
    · rw [if_pos hlt]
      refine roundTrips_pure fun hpos _ => ?_
      have hidx : rplIdx = -1 := by
        by_contra hne
        exact hnot ⟨hlt, hpos, hne⟩
      exact (h.sliceHeader hidx).symm
    · rw [if_neg hlt]
      exact roundTrips_pure fun _ h => absurd h hlt

/-- Each entry is of one kind. -/
theorem countP_kinds (es : List Entry) :
    es.countP isShortterm + es.countP isLongterm + es.countP (·.m_isInterLayerRefPic) = es.length := by
  induction es with
  | nil => rfl
  | cons e es ih =>
    have hone : (if isShortterm e then 1 else 0) + (if isLongterm e then 1 else 0) +
        (if e.m_isInterLayerRefPic then 1 else 0) = 1 := by
      rw [isShortterm, isLongterm]
      cases e.m_isInterLayerRefPic <;> cases e.m_isLongtermRefPic <;> rfl
    rw [countP_cons, countP_cons, countP_cons, length_cons]
    omega

theorem Signalled.numRefPic_le (h : Signalled sps rpl rplIdx) : rpl.numRefPic ≤ MAX_NUM_REF_PICS := by
  have hlen : (entries rpl).length = rpl.numRefPic := by
    rw [← countP_kinds, ← h.shortterm, ← h.longterm, ← h.interLayer]
    rfl
  rw [entries, length_take, rpl.length_entries] at hlen
  omega

/-- What `xCodeRefPicList` accepts is read back by `parseRefPicList` into any list, with
exactly the bits that were written. -/
theorem refPicList_roundTrips (sps : SPS) (rpl : Rpl.ReferencePictureList) (rplIdx : ℤ)
    (h : Signalled sps rpl rplIdx) (rpl₀ : Rpl.ReferencePictureList) :
    RoundTrips False
      (xCodeRefPicList rpl sps.m_longTermRefsPresent sps.m_bitsForPOC
        (!sps.m_useWeightPred && !sps.m_useWeightedBiPred) rplIdx)
      (parseRefPicList sps rpl₀ rplIdx) fun _ rpl' => SameList rpl rpl' := by
  have hnum := h.numRefPic_le
  rw [MAX_NUM_REF_PICS] at hnum
  rw [xCodeRefPicList, parseRefPicList]
  refine roundTrips_bind (roundTrips_uvlc (show rpl.numRefPic + 1 < 2 ^ 32 by omega)) ?_
  rintro - _ rfl
  refine roundTrips_bind (roundTrips_ltrpFlag h rpl₀) fun _ rpl₁ hltrp => ?_
  have hloop : RoundTrips False
      (loop (codeRefPicEntry rpl sps.m_longTermRefsPresent sps.m_bitsForPOC
        (!sps.m_useWeightPred && !sps.m_useWeightedBiPred)) rpl.numRefPic ⟨MAX_INT, true⟩)
      (loop (parseRefPicEntry sps) rpl.numRefPic
        ⟨{ rpl₁ with m_interLayerPresentFlag := sps.m_interLayerPresentFlag }, 0, 0, 0, ⟨MAX_INT, true⟩⟩)
      (Inv sps rpl rpl.numRefPic) :=
    roundTrips_loop (inv_init h rfl hltrp) fun ii hii d st hinv => roundTrips_entry h hii hinv
  refine roundTrips_bind hloop fun _ st hinv => roundTrips_pure ?_
  have hall : (entries rpl).take rpl.numRefPic = entries rpl := by
    rw [entries, take_take, Nat.min_self]
  have hs := hinv.numStrp
  have hl := hinv.numLtrp
  have hi := hinv.numIlrp
  rw [hall] at hs hl hi
  exact ⟨hs.trans h.shortterm.symm, hl.trans h.longterm.symm, hi.trans h.interLayer.symm, hinv.entry⟩

instance : DecidableRel Negatable := fun _ _ => inferInstanceAs (Decidable (_ ≠ _))

/-- A short-term entry, a long-term one with its LSBs, an inter-layer one and again a
short-term one behind the first. -/
def mixedList : Rpl.ReferencePictureList where
  m_numberOfShorttermPictures := 2
  m_numberOfLongtermPictures := 1
  m_numberOfInterLayerPictures := 1
  m_ltrp_in_slice_header_flag := false
  m_interLayerPresentFlag := true
  m_entries := [⟨-4, false, false, 0, false, 0⟩, ⟨9, true, false, 0, false, 0⟩,
    ⟨0, true, false, 0, true, 2⟩, ⟨-8, false, false, 0, false, 0⟩] ++
      List.replicate 25 ⟨0, false, false, 0, false, 0⟩
  length_entries := rfl

def mixedSPS : SPS := ⟨true, true, false, false, 4⟩

theorem mixedList_roundTrips :
    (xCodeRefPicList mixedList true 4 true 0 .clear).toOption.isSome = true ∧
    RoundTrips False (xCodeRefPicList mixedList true 4 true 0) (parseRefPicList mixedSPS .new 0)
      fun _ rpl' => SameList mixedList rpl' :=
  ⟨by decide +kernel, refPicList_roundTrips mixedSPS mixedList 0
    ⟨by decide, by decide, by decide, rfl, by decide, by decide, by decide, by decide, by decide,
      by decide⟩ .new⟩

/-! ## Copying a list -/

/-- The entry `k` has been copied. -/
def CopiedEntry (source_rpl dest_rp : Rpl.ReferencePictureList) (k : ℕ) : Prop :=
  ∃ e e', source_rpl.m_entries[k]? = some e ∧ dest_rp.m_entries[k]? = some e' ∧
    e'.m_refPicIdentifier = e.m_refPicIdentifier ∧ e'.m_isLongtermRefPic = e.m_isLongtermRefPic ∧
    e'.m_isInterLayerRefPic = e.m_isInterLayerRefPic ∧ e'.m_interLayerRefPicIdx = e.m_interLayerRefPicIdx

/-- All that is said of a list is equal. -/
structure Copied (source_rpl dest_rp : Rpl.ReferencePictureList) : Prop where
  shortterm : dest_rp.m_numberOfShorttermPictures = source_rpl.m_numberOfShorttermPictures
  longterm : dest_rp.m_numberOfLongtermPictures = source_rpl.m_numberOfLongtermPictures
  interLayer : dest_rp.m_numberOfInterLayerPictures = source_rpl.m_numberOfInterLayerPictures
  entry : ∀ k < source_rpl.numRefPic, CopiedEntry source_rpl dest_rp k

theorem setRefPicIdentifier_eq_ok {rpl rpl' : Rpl.ReferencePictureList} {id : ℤ} {lt il : Bool} {idx : ℤ}
    (h : rpl.setRefPicIdentifier ii id lt il idx = .ok rpl') : ii < MAX_NUM_REF_PICS := by
  rw [Rpl.ReferencePictureList.setRefPicIdentifier] at h
  split at h
  · assumption
  · cases h

/-- Each round counts one entry that has a place in the list. -/
theorem returns_refPicEntry (hcount : st.numStrp + st.numLtrp + st.numIlrp = ii) :
    Returns (parseRefPicEntry sps ii st) fun st' =>
      st'.numStrp + st'.numLtrp + st'.numIlrp = ii + 1 ∧ ii + 1 ≤ MAX_NUM_REF_PICS := by
  rw [parseRefPicEntry]
  refine returns_then fun o => ?_
  cases o with
  | some code =>
    refine returns_bind (returns_lift _) fun rpl' h => returns_pure ?_
    exact ⟨by dsimp only; omega, setRefPicIdentifier_eq_ok h⟩
  | none =>
    refine returns_then fun isLongTerm => ?_
    cases isLongTerm with
    | true =>
      refine returns_then fun code => ?_
      refine returns_bind (returns_lift _) fun rpl' h => returns_pure ?_
      exact ⟨by dsimp only; omega, setRefPicIdentifier_eq_ok h⟩
    | false =>
      refine returns_then fun readValue => ?_
      refine returns_bind (returns_lift _) fun rpl' h => returns_pure ?_
      exact ⟨by dsimp only; omega, setRefPicIdentifier_eq_ok h⟩

/-- A list that has been parsed has a place for each of its entries. -/
theorem returns_refPicList (rpl₀ : Rpl.ReferencePictureList) :
    Returns (parseRefPicList sps rpl₀ rplIdx) fun rpl => rpl.numRefPic ≤ MAX_NUM_REF_PICS := by
  rw [parseRefPicList]
  refine returns_then fun numRefPic => returns_then fun rpl₁ => ?_
  refine returns_bind (returns_rounds (P := fun ii st =>
    st.numStrp + st.numLtrp + st.numIlrp = ii ∧ ii ≤ MAX_NUM_REF_PICS) ⟨rfl, Nat.zero_le _⟩
    fun ii _ st h => returns_refPicEntry h.1) fun st h => returns_pure ?_
  change st.numStrp + st.numLtrp + st.numIlrp ≤ MAX_NUM_REF_PICS
  rw [h.1]
  exact h.2

/-- The counts stay, and the entries are copied one after the other. -/
theorem copyEntries_ok (source_rpl dest_rp : Rpl.ReferencePictureList) {n : ℕ}
    (hn : n ≤ MAX_NUM_REF_PICS) :
    ∃ dest', loop (fun ii (dest_rp : Rpl.ReferencePictureList) => do
        let e ← readAt source_rpl.m_entries ii
        dest_rp.setRefPicIdentifier ii e.m_refPicIdentifier e.m_isLongtermRefPic e.m_isInterLayerRefPic
          e.m_interLayerRefPicIdx) n dest_rp = .ok dest' ∧
      dest'.m_numberOfShorttermPictures = dest_rp.m_numberOfShorttermPictures ∧
      dest'.m_numberOfLongtermPictures = dest_rp.m_numberOfLongtermPictures ∧
      dest'.m_numberOfInterLayerPictures = dest_rp.m_numberOfInterLayerPictures ∧
      ∀ k < n, CopiedEntry source_rpl dest' k := by
  refine loop_total (P := fun ii (dest' : Rpl.ReferencePictureList) =>
      dest'.m_numberOfShorttermPictures = dest_rp.m_numberOfShorttermPictures ∧
      dest'.m_numberOfLongtermPictures = dest_rp.m_numberOfLongtermPictures ∧
      dest'.m_numberOfInterLayerPictures = dest_rp.m_numberOfInterLayerPictures ∧
      ∀ k < ii, CopiedEntry source_rpl dest' k)
    ⟨rfl, rfl, rfl, fun k hk => absurd hk (Nat.not_lt_zero k)⟩ ?_
  rintro ii hii dest ⟨hs, hl, hi, hentries⟩
  have hlt : ii < MAX_NUM_REF_PICS := Nat.lt_of_lt_of_le hii hn
  obtain ⟨e, he⟩ : ∃ e, source_rpl.m_entries[ii]? = some e :=
    ⟨_, List.getElem?_eq_getElem (by rw [source_rpl.length_entries]; exact hlt)⟩
  obtain ⟨dest', hset, hes, -, -, hs', hl', hi'⟩ := setRefPicIdentifier_ok dest hlt e.m_refPicIdentifier
    e.m_isLongtermRefPic e.m_isInterLayerRefPic e.m_interLayerRefPicIdx
  refine ⟨dest', by rw [readAt_ok he, ok_bind, hset], hs'.trans hs, hl'.trans hl, hi'.trans hi,
    fun k hk => ?_⟩
  rw [CopiedEntry, hes]
  by_cases hki : k = ii
  · subst hki
    exact ⟨e, _, he, List.getElem?_set_self (by rw [dest.length_entries]; exact hlt), rfl, rfl, rfl, rfl⟩
  · obtain ⟨e₀, e', he₀, he', hsame⟩ := hentries k (by omega)
    exact ⟨e₀, e', he₀, (List.getElem?_set_ne (Ne.symm hki)).trans he', hsame⟩

/-- A list that has been parsed is copied into a new one if and only if all its entries
are short-term. -/
theorem copyRefPicList_copied_iff (sps : SPS) (source_rpl : Rpl.ReferencePictureList)
    (hparsed : ∃ rpl₀ rplIdx s s', parseRefPicList sps rpl₀ rplIdx s = .ok (source_rpl, s')) :
    (∃ dest_rp, copyRefPicList sps source_rpl .new = .ok dest_rp ∧ Copied source_rpl dest_rp) ↔
      source_rpl.m_numberOfLongtermPictures = 0 ∧ source_rpl.m_numberOfInterLayerPictures = 0 := by
  obtain ⟨rpl₀, rplIdx, s, s', hrun⟩ := hparsed
  have hnum : source_rpl.numRefPic ≤ MAX_NUM_REF_PICS := returns_refPicList rpl₀ s source_rpl s' hrun
  rw [Rpl.ReferencePictureList.numRefPic] at hnum
  obtain ⟨dest', hcopy, hs, hl, hi, hentries⟩ := copyEntries_ok source_rpl
    { Rpl.ReferencePictureList.new with
      m_numberOfShorttermPictures := source_rpl.m_numberOfShorttermPictures
      m_numberOfInterLayerPictures := if sps.m_interLayerPresentFlag then 0 else 0
      m_numberOfLongtermPictures := if sps.m_longTermRefsPresent then 0 else 0 }
    (n := source_rpl.m_numberOfShorttermPictures + if sps.m_longTermRefsPresent then 0 else 0)
    (by rw [ite_self]; omega)
  have hrun : copyRefPicList sps source_rpl .new = .ok dest' := hcopy
  have hi : dest'.m_numberOfInterLayerPictures = 0 := hi.trans (ite_self 0)
  have hl : dest'.m_numberOfLongtermPictures = 0 := hl.trans (ite_self 0)
  constructor
  · rintro ⟨dest_rp, hdest, hcopied⟩
    rw [hrun] at hdest
    cases hdest
    exact ⟨hcopied.longterm.symm.trans hl, hcopied.interLayer.symm.trans hi⟩
  · rintro ⟨hlong, hinter⟩
    refine ⟨dest', hrun, hs, hl.trans hlong.symm, hi.trans hinter.symm, fun k hk => ?_⟩
    rw [Rpl.ReferencePictureList.numRefPic, hlong, hinter] at hk
    exact hentries k (by rw [ite_self]; exact hk)

/-- One short-term entry. -/
theorem shorttermList_copied : ∃ source_rpl s',
    parseRefPicList ⟨false, false, false, false, 4⟩ .new 0 (.ofFifo [0x58]) = .ok (source_rpl, s') ∧
    ∃ dest_rp, copyRefPicList ⟨false, false, false, false, 4⟩ source_rpl .new = .ok dest_rp ∧
      Copied source_rpl dest_rp := by
  obtain ⟨⟨source_rpl, s'⟩, hrun, hkinds⟩ := @exists_ok_of_any _
    (parseRefPicList ⟨false, false, false, false, 4⟩ .new 0 (.ofFifo [0x58]))
    (fun r => decide (r.1.m_numberOfLongtermPictures = 0 ∧ r.1.m_numberOfInterLayerPictures = 0))
    (by decide +kernel)
  exact ⟨source_rpl, s', hrun, (copyRefPicList_copied_iff _ source_rpl ⟨_, _, _, _, hrun⟩).mpr
    (of_decide_eq_true hkinds)⟩

/-- One long-term entry: the copy counts none. -/
theorem longtermList_not_copied : ∃ source_rpl s',
    parseRefPicList ⟨true, false, false, false, 4⟩ .new 0 (.ofFifo [0x44, 0x80]) =
      .ok (source_rpl, s') ∧
    ¬∃ dest_rp, copyRefPicList ⟨true, false, false, false, 4⟩ source_rpl .new = .ok dest_rp ∧
      Copied source_rpl dest_rp := by
  obtain ⟨⟨source_rpl, s'⟩, hrun, hcounts⟩ := @exists_ok_of_any _
    (parseRefPicList ⟨true, false, false, false, 4⟩ .new 0 (.ofFifo [0x44, 0x80]))
    (fun r => decide (r.1.m_numberOfLongtermPictures = 1) &&
      (copyRefPicList ⟨true, false, false, false, 4⟩ r.1 .new).toOption.all
        fun (dest_rp : Rpl.ReferencePictureList) => decide (dest_rp.m_numberOfLongtermPictures = 0))
    (by decide +kernel)
  refine ⟨source_rpl, s', hrun, ?_⟩
  rintro ⟨dest_rp, hcopy, hcopied⟩
  rw [Bool.and_eq_true, hcopy] at hcounts
  have hone : source_rpl.m_numberOfLongtermPictures = 1 := of_decide_eq_true hcounts.1
  have hzero : dest_rp.m_numberOfLongtermPictures = 0 := of_decide_eq_true hcounts.2
  have heq := hcopied.longterm
  omega

end ECM.Hls
