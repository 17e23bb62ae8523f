import ECM.Output.Bumping

/-! # Reuse of picture buffers

`xGetNewPicBuffer` takes no buffer from a picture that is still needed, and over a
run the list of pictures grows with the number of pictures needed at a time. -/

namespace ECM.Output
open CommonLib DecoderLib ECM.DecoderApp

/-- A picture that waits for output, or is decoded and used for reference. -/
def Live (p : Picture) : Prop :=
  p.neededForOutput = true ∨ (p.referenced = true ∧ p.reconstructed = true)

instance (p : Picture) : Decidable (Live p) := by unfold Live; infer_instance

theorem isAvailable_iff (p : Picture) : isAvailable p = true ↔ ¬ Live p := by
  unfold isAvailable Live
  cases p.reconstructed <;> cases p.neededForOutput <;> cases p.referenced <;> simp

/-- The slot a call returns and the picture it holds for the caller. -/
inductive Returned (m_cListPic : List Picture) (layerId : ℤ) : ℕ → Picture → Prop
  | added : Returned m_cListPic layerId m_cListPic.length (Picture.new layerId)
  | reused (slot : ℕ) (p : Picture) (hslot : m_cListPic[slot]? = some p) (hlive : ¬ Live p) :
      Returned m_cListPic layerId slot { p with neededForOutput := false, reconstructed := false, layerId }

/-- Only the slot differs. -/
def Assigned (l l' : List Picture) (slot : ℕ) (p : Picture) : Prop :=
  l'[slot]? = some p ∧ ∀ i, i ≠ slot → l'[i]? = l[i]?

variable {l l' : List Picture} {layerId : ℤ} {use : Picture → Picture}

theorem assigned_append (l : List Picture) (p : Picture) : Assigned l (l ++ [p]) l.length p := by
  refine ⟨List.getElem?_concat_length, fun i hi => ?_⟩
  rcases Nat.lt_or_gt_of_ne hi with hi | hi
  · exact List.getElem?_append_left hi
  · rw [List.getElem?_eq_none (by simp; omega), List.getElem?_eq_none (by omega)]

theorem assigned_cons {slot : ℕ} {p q : Picture} (h : Assigned l l' slot p) :
    Assigned (q :: l) (q :: l') (slot + 1) p := by
  refine ⟨h.1, fun i hi => ?_⟩
  cases i with
  | zero => rfl
  | succ i => exact h.2 i fun heq => hi (congrArg (· + 1) heq)

theorem returned_cons {slot : ℕ} {p q : Picture} (h : Returned l layerId slot p) :
    Returned (q :: l) layerId (slot + 1) p := by
  cases h with
  | added => exact .added
  | reused _ p hslot hlive => exact .reused (slot + 1) p hslot hlive

theorem reuseBuffer_returned (l : List Picture) (layerId : ℤ) :
    ∃ slot buffer, Returned l layerId slot buffer ∧
      ∀ use, Assigned l (reuseBuffer layerId use l) slot (use buffer) := by
  induction l with
  | nil => exact ⟨0, Picture.new layerId, .added, fun use => assigned_append [] _⟩
  | cons p l ih =>
    by_cases h : isAvailable p = true
    · refine ⟨0, _, .reused 0 p rfl ((isAvailable_iff p).mp h), fun use => ?_⟩
      rw [reuseBuffer, if_pos h]
      refine ⟨rfl, fun i hi => ?_⟩
      cases i with
      | zero => exact absurd rfl hi
      | succ i => rfl
    · obtain ⟨slot, buffer, hret, hassigned⟩ := ih
      refine ⟨slot + 1, buffer, returned_cons hret, fun use => ?_⟩
      rw [reuseBuffer, if_neg h]
      exact assigned_cons (hassigned use)

/-- Every call adds a slot or takes that of a picture that is not live; all other
slots stay as they are. -/
theorem xGetNewPicBuffer_returned (l : List Picture) (m_iMaxRefPicNum : ℕ) (layerId : ℤ) :
    ∃ slot buffer, Returned l layerId slot buffer ∧
      ∀ use, Assigned l (xGetNewPicBuffer l m_iMaxRefPicNum layerId use) slot (use buffer) := by
  unfold xGetNewPicBuffer
  split
  · exact ⟨l.length, _, .added, fun use => assigned_append l _⟩
  · exact reuseBuffer_returned l layerId

/-! ## How the list grows -/

/-- The list grows by reuse only where every picture is live. -/
theorem reuseBuffer_length (layerId : ℤ) (use : Picture → Picture) (l : List Picture) :
    (reuseBuffer layerId use l).length = l.length ∨
      (reuseBuffer layerId use l).length = l.length + 1 ∧ ∀ p ∈ l, Live p := by
  induction l with
  | nil => exact .inr ⟨rfl, fun p hp => absurd hp List.not_mem_nil⟩
  | cons p l ih =>
    rw [reuseBuffer]
    split
    case isTrue h => exact .inl rfl
    case isFalse h =>
      have hp : Live p := not_not.mp fun hn => h ((isAvailable_iff p).mpr hn)
      rcases ih with ih | ⟨ih, hall⟩
      · exact .inl (congrArg (· + 1) ih)
      · exact .inr ⟨congrArg (· + 1) ih, List.forall_mem_cons.mpr ⟨hp, hall⟩⟩

/-- How many pictures are live. -/
def liveCount (l : List Picture) : ℕ := l.countP fun p => Live p

theorem xGetNewPicBuffer_length (l : List Picture) (m_iMaxRefPicNum : ℕ) (layerId : ℤ) (use : Picture → Picture) :
    (xGetNewPicBuffer l m_iMaxRefPicNum layerId use).length ≤
      max l.length (max (liveCount l + 1) m_iMaxRefPicNum) := by
  unfold xGetNewPicBuffer
  split
  case isTrue h =>
    rw [List.length_append, List.length_singleton]
    omega
  case isFalse h =>
    rcases reuseBuffer_length layerId use l with hlen | ⟨hlen, hall⟩
    · omega
    · have hcount : liveCount l = l.length := List.countP_eq_length.mpr fun p hp => by simp [hall p hp]
      omega

/-! ## Runs of the decoder -/

/-- The DPB parameters of a VPS. -/
structure VPS where
  m_numLayersInOls : ℕ → ℕ
  m_targetOlsIdx : ℕ
  m_olsDpbParamsIdx : ℕ → ℕ
  m_maxDecPicBuffering : ℕ → ℕ → ℕ

namespace VPS

def getMaxDecPicBuffering (vps : VPS) (temporalId : ℕ) : ℕ :=
  vps.m_maxDecPicBuffering (vps.m_olsDpbParamsIdx vps.m_targetOlsIdx) temporalId

end VPS

/-- A call of `xGetNewPicBuffer`, with what the caller then does with the picture. -/
structure Call where
  m_vps : Option VPS
  /-- `sps.getMaxDecPicBuffering`. -/
  m_uiMaxDecPicBuffering : ℕ → ℕ
  temporalLayer : ℕ
  layerId : ℤ
  use : Picture → Picture

namespace Call

/-- The limit of the SPS at the temporal layer. -/
def spsLimit (c : Call) : ℕ := c.m_uiMaxDecPicBuffering c.temporalLayer

/-- The limit the call takes: that of the VPS when the output layer set has several layers. -/
def m_iMaxRefPicNum (c : Call) : ℕ :=
  match c.m_vps with
  | none => c.spsLimit
  | some vps =>
    if vps.m_numLayersInOls vps.m_targetOlsIdx = 1 then c.spsLimit
    else vps.getMaxDecPicBuffering c.temporalLayer

def xGetNewPicBuffer (c : Call) (m_cListPic : List Picture) : List Picture :=
  DecoderLib.xGetNewPicBuffer m_cListPic c.m_iMaxRefPicNum c.layerId c.use

end Call

/-- The lists of pictures of a decoder. At each call at most `M` pictures are live and
`limit` holds of the call. Between the calls decoding, marking and output change the
pictures in any way; sorting changes their order and a flush removes some. -/
inductive Reachable (M : ℕ) (limit : Call → Prop) : List Picture → Prop
  | start : Reachable M limit []
  | request {l : List Picture} (c : Call) (hl : Reachable M limit l) (hlive : liveCount l ≤ M) (hlimit : limit c) :
      Reachable M limit (c.xGetNewPicBuffer l)
  | change {l : List Picture} (l' : List Picture) (hl : Reachable M limit l) (hlen : l'.length ≤ l.length) :
      Reachable M limit l'

variable {M L : ℕ} {limit : Call → Prop}

theorem reachable_length (h : Reachable M (fun c => c.m_iMaxRefPicNum ≤ L) l) : l.length ≤ max (M + 1) L := by
  induction h with
  | start => exact Nat.zero_le _
  | @request l c _ hlive hlimit ih =>
    have hlen := xGetNewPicBuffer_length l c.m_iMaxRefPicNum c.layerId c.use
    unfold Call.xGetNewPicBuffer
    omega
  | change l' _ hlen ih => exact hlen.trans ih

/-- The list of pictures of the application is one of them after any event. -/
theorem reachable_step (s : App) (e : Event) (hs : Reachable M limit s.m_cListPic)
    (he : ∀ c, e = .complete c → liveCount s.m_cListPic ≤ M ∧
      ∃ call : Call, limit call ∧ call.m_iMaxRefPicNum = c.m_iMaxRefPicNum ∧ call.layerId = layerId ∧
        call.use = c.picture s.m_decodingOrderCounter) :
    Reachable M limit (step layerId s e).1.m_cListPic := by
  cases e with
  | complete c =>
    obtain ⟨hlive, call, hlimit, hnum, hlayer, huse⟩ := he c rfl
    refine .change _ (.request call hs hlive hlimit) ?_
    rw [Call.xGetNewPicBuffer, hnum, hlayer, huse]
    exact (sortPicList_perm _).length_eq.le
  | mark referenced => exact .change _ hs (List.length_map _).le
  | write limits =>
    refine .change _ hs ?_
    have hmap := congrArg List.length
      (writePics_map (·.layerId) (fun _ => rfl) limits (countPics s.m_iPOCLastDisplay s.m_cListPic)
        s.m_iPOCLastDisplay s.m_cListPic)
    rw [List.length_map, List.length_map] at hmap
    exact hmap.le
  | flush =>
    refine .change _ hs ?_
    simp only [step, xFlushOutput]
    split
    · exact Nat.zero_le _
    · exact List.length_filter_le _ _

/-- A call takes no buffer of a live picture and changes no other slot, and the list
never holds more than one picture beyond the most that are live at a time, or the
largest limit of a call. -/
theorem picBuffers_kept :
    (∀ (l : List Picture) (c : Call), ∃ slot buffer, Returned l c.layerId slot buffer ∧
      Assigned l (c.xGetNewPicBuffer l) slot (c.use buffer)) ∧
    ∀ (M L : ℕ) (l : List Picture), Reachable M (fun c => c.m_iMaxRefPicNum ≤ L) l → l.length ≤ max (M + 1) L := by
  refine ⟨fun l c => ?_, fun M L l h => reachable_length h⟩
  obtain ⟨slot, buffer, hret, hassigned⟩ := xGetNewPicBuffer_returned l c.m_iMaxRefPicNum c.layerId
  exact ⟨slot, buffer, hret, hassigned c.use⟩

/-- Two layers, whose VPS has room for three pictures where the SPS has room for one. -/
def twoLayers : Call where
  m_vps := some
    { m_numLayersInOls := fun _ => 2, m_targetOlsIdx := 0, m_olsDpbParamsIdx := fun _ => 0,
      m_maxDecPicBuffering := fun _ _ => 3 }
  m_uiMaxDecPicBuffering := fun _ => 1
  temporalLayer := 0
  layerId := 0
  use := fun p => p

theorem twoLayers_reachable (hlimit : limit twoLayers) :
    Reachable 0 limit [Picture.new 0, Picture.new 0, Picture.new 0] :=
  .request twoLayers (.request twoLayers (.request twoLayers .start (by decide) hlimit) (by decide) hlimit)
    (by decide) hlimit

theorem picBuffers_kept_twoLayers : [Picture.new 0, Picture.new 0, Picture.new 0].length ≤ max (0 + 1) 3 :=
  picBuffers_kept.2 0 3 _ (twoLayers_reachable (by decide))

/-- Over several layers the list may outgrow the limit of the SPS. -/
theorem picBuffers_overSPS :
    ¬ ∀ (M L : ℕ) (l : List Picture), Reachable M (fun c => c.spsLimit ≤ L) l → l.length ≤ max (M + 1) L := by
  intro h
  exact absurd (h 0 1 _ (twoLayers_reachable (by decide))) (by decide)

end ECM.Output
