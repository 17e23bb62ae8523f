import ECM.CommonLib.ParameterSetManager

/-! # Ownership in the parameter set store

Every entry of the map owns a live object of its own, and so does the slot of
the last active parameter set. An operation then never deletes an object twice,
and seen from one id it is a step of a register that holds the parameter set,
its NAL data and the changed flag. -/

namespace ECM.CommonLib.ParameterSetMap
open Lib

/-- A call; what is stored was made by the caller for this call. -/
inductive Op (T : Type) where
  | storePS (psId : ℤ) (ps : T)
  | storePSNalu (psId : ℤ) (ps : T) (naluData : Option (List UInt8))
  | allocatePS (psId : ℤ)
  | setActive (psId : ℤ)
  | clear
  | setChangedFlag (psId : ℤ) (bChanged : Bool)
  | clearChangedFlag (psId : ℤ)
  deriving DecidableEq

variable {T : Type}

/-- The map after the caller's `new`. -/
def withNew (m : ParameterSetMap T) (ps : T) : ParameterSetMap T := { m with objects := m.objects.new ps }

def step [ParameterSet T] (m : ParameterSetMap T) : Op T → Checked (ParameterSetMap T)
  | .storePS psId ps => (m.withNew ps).storePS psId (some m.objects.next)
  | .storePSNalu psId ps naluData => (m.withNew ps).storePSNalu psId (some m.objects.next) naluData
  | .allocatePS psId => Prod.fst <$> m.allocatePS psId
  | .setActive psId => .ok (m.setActive psId)
  | .clear => .ok m.clear
  | .setChangedFlag psId bChanged => .ok (m.setChangedFlag psId bChanged)
  | .clearChangedFlag psId => .ok (m.clearChangedFlag psId)

def run [ParameterSet T] : ParameterSetMap T → List (Op T) → Checked (ParameterSetMap T)
  | m, [] => .ok m
  | m, op :: ops => do run (← m.step op) ops

/-- Who owns which object. -/
structure Owned (m : ParameterSetMap T) : Prop where
  heap : m.objects.Ok
  stored : ∀ {id data}, m.m_paramsetMap id = some data →
    ∃ a, data.parameterSet = some a ∧ m.objects.Live a
  distinct : ∀ {i j di dj}, m.m_paramsetMap i = some di → m.m_paramsetMap j = some dj →
    di.parameterSet = dj.parameterSet → i = j
  saved : ∀ {a}, m.m_lastActiveParameterSet = some a →
    m.objects.Live a ∧ ∀ {id data}, m.m_paramsetMap id = some data → data.parameterSet ≠ some a

/-- What one id sees of the store. -/
structure Slot (T : Type) where
  ps : T
  naluData : Option (List UInt8)
  changed : Bool
  deriving DecidableEq

def slotOf (m : ParameterSetMap T) (id : ℤ) : Option (Slot T) := do
  let data ← m.m_paramsetMap id
  let ps ← data.parameterSet >>= m.objects.cell
  return ⟨ps, data.pNaluData, data.bChanged⟩

/-- The register of one id. -/
def slotStep [ParameterSet T] (id : ℤ) (s : Option (Slot T)) : Op T → Option (Slot T)
  | .storePS psId ps =>
    if psId = id then some ⟨ps, s.bind (·.naluData), true⟩ else s
  | .storePSNalu psId ps naluData =>
    if psId = id then
      match s with
      | some old => if old.changed = true ∨ old.naluData ≠ naluData then some ⟨ps, naluData, true⟩ else some old
      | none => some ⟨ps, naluData, false⟩
    else s
  | .allocatePS psId =>
    if psId = id then some (s.getD ⟨ParameterSet.setID ParameterSet.default psId, none, true⟩) else s
  | .setChangedFlag psId bChanged =>
    if psId = id then s.map fun old => { old with changed := bChanged } else s
  | .clearChangedFlag psId =>
    if psId = id then s.map fun old => { old with changed := false } else s
  | .setActive _ => s
  | .clear => s

variable {m m' : ParameterSetMap T} {id i : ℤ} {a : ℕ} {v : T} {data e : MapData} {op : Op T}
  {dead kept : Ptr} {nalu : Option (List UInt8)}

theorem calculateParameterSetChangedFlag_eq (changed : Bool) (oldData newData : Option (List UInt8)) :
    calculateParameterSetChangedFlag changed oldData newData = true ↔ changed = true ∨ oldData ≠ newData := by
  unfold calculateParameterSetChangedFlag
  cases changed with
  | true => simp
  | false =>
    cases oldData with
    | none => cases newData <;> simp
    | some old =>
      cases newData with
      | none => simp
      | some new =>
        by_cases hlen : old.length = new.length
        · simp [hlen]
        · have hne : old ≠ new := fun h => hlen (congrArg _ h)
          simp [hlen, hne]

/-! ## The view of one id -/

theorem slotOf_eq (he : m.m_paramsetMap id = some e) (ha : e.parameterSet = some a)
    (hv : m.objects.cell a = some v) : m.slotOf id = some ⟨v, e.pNaluData, e.bChanged⟩ := by
  simp [slotOf, he, ha, hv]

theorem slotOf_none (he : m.m_paramsetMap id = none) : m.slotOf id = none := by
  simp [slotOf, he]

/-- An entry always has its object. -/
theorem Owned.slot (h : m.Owned) (he : m.m_paramsetMap id = some e) :
    ∃ v, m.slotOf id = some ⟨v, e.pNaluData, e.bChanged⟩ := by
  obtain ⟨a, ha, hlive⟩ := h.stored he
  obtain ⟨v, hv⟩ := Option.ne_none_iff_exists'.mp hlive
  exact ⟨v, slotOf_eq he ha hv⟩

/-- An id sees no change where its entry and its object stay. -/
theorem Owned.slotOf_congr (h : m.Owned) (hmap : m'.m_paramsetMap id = m.m_paramsetMap id)
    (hcell : ∀ {e a}, m.m_paramsetMap id = some e → e.parameterSet = some a →
      m'.objects.cell a = m.objects.cell a) : m'.slotOf id = m.slotOf id := by
  cases he : m.m_paramsetMap id with
  | none => rw [slotOf_none he, slotOf_none (hmap.trans he)]
  | some e =>
    obtain ⟨a, ha, hlive⟩ := h.stored he
    obtain ⟨v, hv⟩ := Option.ne_none_iff_exists'.mp hlive
    rw [slotOf_eq he ha hv, slotOf_eq (hmap.trans he) ha ((hcell he ha).trans hv)]

@[simp] theorem put_self : (m.put id data).m_paramsetMap id = some data := by simp [put]

theorem put_ne (hne : i ≠ id) : (m.put id data).m_paramsetMap i = m.m_paramsetMap i := by simp [put, hne]

/-- Where `old ≠ some a` for the object of every other entry, storing `a` under `id` keeps the owners apart. -/
theorem Owned.put_new (h : m.Owned) (hm : m'.m_paramsetMap = m.m_paramsetMap) (hheap : m'.objects.Ok)
    (ha : data.parameterSet = some a) (hlive : m'.objects.Live a) (hnew : ¬m.objects.Live a)
    (hother : ∀ {i e b}, i ≠ id → m.m_paramsetMap i = some e → e.parameterSet = some b → m'.objects.Live b)
    (hsaved : ∀ {b}, m'.m_lastActiveParameterSet = some b → m'.objects.Live b ∧ m.objects.Live b ∧
      ∀ {i e}, i ≠ id → m.m_paramsetMap i = some e → e.parameterSet ≠ some b) :
    (m'.put id data).Owned := by
  have hfresh : ∀ {i e}, m.m_paramsetMap i = some e → e.parameterSet ≠ some a := by
    intro i e he hea
    obtain ⟨b, hb, hlb⟩ := h.stored he
    rw [hea] at hb
    exact hnew (Option.some.inj hb ▸ hlb)
  have hget : ∀ {i e}, (m'.put id data).m_paramsetMap i = some e →
      i = id ∧ e = data ∨ i ≠ id ∧ m.m_paramsetMap i = some e := by
    intro i e he
    by_cases hi : i = id
    · subst hi
      rw [put_self] at he
      exact Or.inl ⟨rfl, (Option.some.inj he).symm⟩
    · rw [put_ne hi, hm] at he
      exact Or.inr ⟨hi, he⟩
  refine ⟨hheap, ?_, ?_, ?_⟩
  · intro i e he
    rcases hget he with ⟨-, rfl⟩ | ⟨hi, he⟩
    · exact ⟨a, ha, hlive⟩
    · obtain ⟨b, hb, -⟩ := h.stored he
      exact ⟨b, hb, hother hi he hb⟩
  · intro i j di dj hi hj heq
    rcases hget hi with ⟨hii, hdi⟩ | ⟨-, hmi⟩
    · rcases hget hj with ⟨hjj, -⟩ | ⟨-, hmj⟩
      · exact hii.trans hjj.symm
      · exact absurd (heq.symm.trans (hdi ▸ ha)) (hfresh hmj)
    · rcases hget hj with ⟨-, hdj⟩ | ⟨-, hmj⟩
      · exact absurd (heq.trans (hdj ▸ ha)) (hfresh hmi)
      · exact h.distinct hmi hmj heq
  · intro b hb
    obtain ⟨hl, hl0, hne⟩ := hsaved hb
    refine ⟨hl, ?_⟩
    intro i e he
    rcases hget he with ⟨-, rfl⟩ | ⟨hi, he⟩
    · intro heb
      rw [ha] at heb
      exact hnew (Option.some.inj heb ▸ hl0)
    · exact hne hi he

/-! ## Replacing an entry -/

/-- The object of `id` is replaced by the new one; of its former object and the saved one, `dead` is
deleted and `kept` saved. -/
def replaced (m : ParameterSetMap T) (id : ℤ) (v : T) (objects : Heap T) (kept : Ptr) (data : MapData) :
    ParameterSetMap T :=
  { m.withNew v with objects, m_lastActiveParameterSet := kept }.put id data

/-- Neither the saved object nor that of `id` belongs to another entry. -/
theorem Owned.outside (h : m.Owned) (he : m.m_paramsetMap id = some e) {p : Ptr}
    (hp : p = m.m_lastActiveParameterSet ∨ p = e.parameterSet) (hb : p = some a) :
    m.objects.Live a ∧ ∀ {i d}, i ≠ id → m.m_paramsetMap i = some d → d.parameterSet ≠ some a := by
  rcases hp with rfl | rfl
  · exact ⟨(h.saved hb).1, fun _ hd => (h.saved hb).2 hd⟩
  · obtain ⟨b, hb', hlive⟩ := h.stored he
    obtain rfl : b = a := Option.some.inj (hb'.symm.trans hb)
    exact ⟨hlive, fun hi hd hda => hi (h.distinct hd he (hda.trans hb.symm))⟩

theorem Owned.replace (h : m.Owned) (data : MapData) (he : m.m_paramsetMap id = some e)
    (hdk : dead = m.m_lastActiveParameterSet ∧ kept = e.parameterSet ∨
      dead = e.parameterSet ∧ kept = m.m_lastActiveParameterSet)
    (hdata : data.parameterSet = some m.objects.next) (v : T) :
    ∃ objects, (m.objects.new v).delete dead = .ok objects ∧
      (m.replaced id v objects kept data).Owned ∧
      (∀ i, (m.replaced id v objects kept data).slotOf i =
        if id = i then some ⟨v, data.pNaluData, data.bChanged⟩ else m.slotOf i) ∧
      (∀ a, m.objects.Live a → (objects.Live a ↔ dead ≠ some a)) ∧
      m.objects.next ≤ objects.next ∧ ∀ a, a < m.objects.next → ¬m.objects.Live a → ¬objects.Live a := by
  have hd : dead = m.m_lastActiveParameterSet ∨ dead = e.parameterSet := hdk.imp And.left And.left
  have hk : kept = m.m_lastActiveParameterSet ∨ kept = e.parameterSet :=
    hdk.symm.imp And.right And.right
  have hapart : ∀ b, kept = some b → dead ≠ some b := by
    obtain ⟨c, hc, -⟩ := h.stored he
    intro b hb hdb
    rcases hdk with ⟨rfl, rfl⟩ | ⟨rfl, rfl⟩
    · exact (h.saved hdb).2 he hb
    · exact (h.saved hb).2 he hdb
  obtain ⟨objects, hdel⟩ : ∃ objects, (m.objects.new v).delete dead = .ok objects := by
    cases dead with
    | none => exact ⟨_, rfl⟩
    | some b =>
      have hlive := (h.outside he hd rfl).1
      refine ⟨_, Heap.delete_live ?_⟩
      rwa [Heap.Live, Heap.new_cell (hlive.ne_next h.heap)]
  obtain ⟨hnext, hkeep, hgone⟩ := Heap.delete_spec hdel
  have hcell : ∀ b, m.objects.Live b → dead ≠ some b → objects.cell b = m.objects.cell b :=
    fun b hb hdb => (hkeep b hdb).trans (Heap.new_cell (hb.ne_next h.heap))
  have hnew : ¬m.objects.Live m.objects.next := fun hl => absurd (h.heap _ hl) (Nat.lt_irrefl _)
  have hdn : dead ≠ some m.objects.next := fun hdn => hnew (h.outside he hd hdn).1
  have hcellNext : objects.cell m.objects.next = some v :=
    (hkeep _ hdn).trans Heap.new_cell_next
  have hothers : ∀ {i d b}, i ≠ id → m.m_paramsetMap i = some d → d.parameterSet = some b →
      objects.cell b = m.objects.cell b ∧ m.objects.Live b := by
    intro i d b hi hid hdb
    obtain ⟨c, hc, hlive⟩ := h.stored hid
    obtain rfl : c = b := Option.some.inj (hc.symm.trans hdb)
    exact ⟨hcell _ hlive fun hdc => (h.outside he hd hdc).2 hi hid hdb, hlive⟩
  have howned : (m.replaced id v objects kept data).Owned := by
    refine h.put_new rfl (Heap.delete_ok (Heap.new_ok h.heap) hdel) hdata ?_ hnew ?_ ?_
    · intro hc
      rw [hcellNext] at hc
      cases hc
    · intro i d b hi hid hdb
      obtain ⟨hcb, hlive⟩ := hothers hi hid hdb
      exact fun hc => hlive (hcb.symm.trans hc)
    · intro b hb
      obtain ⟨hlive, hne⟩ := h.outside he hk hb
      exact ⟨fun hc => hlive ((hcell b hlive (hapart b hb)).symm.trans hc), hlive, hne⟩
  refine ⟨objects, hdel, howned, ?_, ?_, hnext ▸ Nat.le_succ _, ?_⟩
  · intro i
    split
    case isTrue hi =>
      subst hi
      exact slotOf_eq put_self hdata hcellNext
    case isFalse hi =>
      have hi' : i ≠ id := fun hii => hi hii.symm
      exact h.slotOf_congr (put_ne hi') fun hid hdb => (hothers hi' hid hdb).1
  · intro b hb
    constructor
    · intro hlive hdb
      exact hlive (hgone b hdb)
    · intro hdb hc
      exact hb ((hcell b hb hdb).symm.trans hc)
  · intro b hb hdead hlive
    have hdb : dead ≠ some b := fun hdb => hlive (hgone b hdb)
    exact hlive ((hkeep b hdb).trans ((Heap.new_cell (Nat.ne_of_lt hb)).trans (not_not.mp hdead)))

/-! ## What one call does -/

/-- The ids whose `setActive` is in force. -/
def activeStep (active : List ℤ) : Op T → List ℤ
  | .setActive psId => active ++ [psId]
  | .clear => []
  | _ => active

/-- `storePS` with this NAL data replaces the parameter set of `id`. -/
def Replaces (m : ParameterSetMap T) (id : ℤ) (naluData : Option (List UInt8)) : Prop :=
  ∃ e, m.m_paramsetMap id = some e ∧ (e.bChanged = true ∨ e.pNaluData ≠ naluData)

/-- The call replaces the parameter set of the active `id`, which is saved. -/
def Saves (m : ParameterSetMap T) (id : ℤ) : Op T → Prop
  | .storePSNalu psId _ naluData => psId = id ∧ id ∈ m.m_activePsId ∧ m.Replaces id naluData
  | _ => False

/-- The call releases an object that was there before it. -/
def Releases (m : ParameterSetMap T) (a : ℕ) : Op T → Prop
  | .storePS psId _ => m.getPS psId = some a
  | .storePSNalu psId _ naluData => m.Replaces psId naluData ∧
    if psId ∈ m.m_activePsId then m.m_lastActiveParameterSet = some a else m.getPS psId = some a
  | _ => False

/-- The id of a call that checks it. -/
def Op.InRange (maxId : ℤ) : Op T → Prop
  | .storePS psId _ => psId < maxId
  | .storePSNalu psId _ _ => psId < maxId
  | .allocatePS psId => psId < maxId
  | _ => True

structure StepSpec [ParameterSet T] (m : ParameterSetMap T) (op : Op T) (m' : ParameterSetMap T) : Prop where
  owned : m'.Owned
  maxId : m'.m_maxId = m.m_maxId
  active : m'.m_activePsId = activeStep m.m_activePsId op
  slots : ∀ id, m'.slotOf id = slotStep id (m.slotOf id) op
  saved : ∀ id, m.Saves id op → m'.m_lastActiveParameterSet = m.getPS id
  unsaved : (∀ id, ¬m.Saves id op) → m'.m_lastActiveParameterSet = m.m_lastActiveParameterSet
  live : ∀ a, m.objects.Live a → (m'.objects.Live a ↔ ¬m.Releases a op)
  gone : m.objects.next ≤ m'.objects.next ∧ ∀ a, a < m.objects.next → ¬m.objects.Live a → ¬m'.objects.Live a
  getPS : ∀ id a, m.getPS id = some a → (∀ ps, op ≠ .storePS id ps) →
    (∀ ps naluData, op = .storePSNalu id ps naluData → ¬m.Replaces id naluData) → m'.getPS id = some a

theorem put_entry (he : m.m_paramsetMap id = some e) : m.put id e = m := by
  have h : Function.update m.m_paramsetMap id (some e) = m.m_paramsetMap := by
    rw [← he]
    exact Function.update_eq_self _ _
  rw [put, h]

theorem getPS_eq (he : m.m_paramsetMap id = some e) : m.getPS id = e.parameterSet := by simp [getPS, he]

theorem getPS_none (he : m.m_paramsetMap id = none) : m.getPS id = none := by simp [getPS, he]

theorem not_replaces (he : m.m_paramsetMap id = none) : ¬m.Replaces id nalu := by
  rintro ⟨e, h, -⟩
  rw [he] at h
  cases h

/-- A new entry. -/
theorem Owned.insert [ParameterSet T] (h : m.Owned) (v : T) (data : MapData) (he : m.m_paramsetMap id = none)
    (hdata : data.parameterSet = some m.objects.next)
    (hslot : ∀ i, slotStep i (m.slotOf i) op =
      if id = i then some ⟨v, data.pNaluData, data.bChanged⟩ else m.slotOf i)
    (hact : activeStep m.m_activePsId op = m.m_activePsId) (hsave : ∀ i, ¬m.Saves i op)
    (hrel : ∀ a, ¬m.Releases a op) : m.StepSpec op ((m.withNew v).put id data) := by
  have hnew : ¬m.objects.Live m.objects.next := fun hl => absurd (h.heap _ hl) (Nat.lt_irrefl _)
  have hcell : ∀ b, m.objects.Live b → (m.objects.new v).cell b = m.objects.cell b :=
    fun b hb => Heap.new_cell (hb.ne_next h.heap)
  have hlive : ∀ {b}, m.objects.Live b → (m.objects.new v).Live b :=
    fun {b} hb hc => hb ((hcell b hb).symm.trans hc)
  have hentry : ∀ {i d b}, m.m_paramsetMap i = some d → d.parameterSet = some b → m.objects.Live b := by
    intro i d b hid hdb
    obtain ⟨c, hc, hlc⟩ := h.stored hid
    exact Option.some.inj (hc.symm.trans hdb) ▸ hlc
  have hput : ∀ {i}, m.m_paramsetMap i ≠ none → ((m.withNew v).put id data).m_paramsetMap i = m.m_paramsetMap i :=
    fun hi => put_ne fun hii => hi (hii ▸ he)
  refine ⟨?_, rfl, hact.symm, ?_, fun i hi => absurd hi (hsave i), fun _ => rfl, ?_, ⟨Nat.le_succ _, ?_⟩, ?_⟩
  · refine h.put_new rfl (Heap.new_ok h.heap) hdata ?_ hnew (fun _ hid hdb => hlive (hentry hid hdb)) ?_
    · intro hc
      rw [withNew, Heap.new_cell_next] at hc
      cases hc
    · intro b hb
      obtain ⟨hl, hne⟩ := h.saved hb
      exact ⟨hlive hl, hl, fun _ hid => hne hid⟩
  · intro i
    rw [hslot]
    split
    case isTrue hi =>
      subst hi
      exact slotOf_eq put_self hdata Heap.new_cell_next
    case isFalse hi =>
      exact h.slotOf_congr (put_ne fun hii => hi hii.symm) fun hid hdb => hcell _ (hentry hid hdb)
  · intro b hb
    exact iff_of_true (hlive hb) (hrel b)
  · intro b hb hdead hl
    exact hl ((Heap.new_cell (Nat.ne_of_lt hb)).trans (not_not.mp hdead))
  · intro i b hb _ _
    cases hid : m.m_paramsetMap i with
    | none => rw [getPS_none hid] at hb; cases hb
    | some d => rw [getPS_eq ((hput (by simp [hid])).trans hid), ← getPS_eq hid, hb]

/-- Entries and objects stay; only flags and active ids change. -/
theorem Owned.relabel [ParameterSet T] (h : m.Owned) (hmax : m'.m_maxId = m.m_maxId)
    (hact : m'.m_activePsId = activeStep m.m_activePsId op)
    (hlast : m'.m_lastActiveParameterSet = m.m_lastActiveParameterSet) (hheap : m'.objects.Ok)
    (hcell : ∀ a, a < m.objects.next → m'.objects.cell a = m.objects.cell a)
    (hnext : m.objects.next ≤ m'.objects.next)
    (hmap : ∀ i, (m'.m_paramsetMap i).map MapData.parameterSet = (m.m_paramsetMap i).map MapData.parameterSet)
    (hslot : ∀ i, m'.slotOf i = slotStep i (m.slotOf i) op)
    (hsave : ∀ i, ¬m.Saves i op) (hrel : ∀ a, ¬m.Releases a op) : m.StepSpec op m' := by
  have hentry : ∀ {i d'}, m'.m_paramsetMap i = some d' →
      ∃ d, m.m_paramsetMap i = some d ∧ d'.parameterSet = d.parameterSet := by
    intro i d' hd'
    have hm := hmap i
    rw [hd'] at hm
    cases hd : m.m_paramsetMap i with
    | none => rw [hd] at hm; cases hm
    | some d => rw [hd] at hm; exact ⟨d, rfl, Option.some.inj hm⟩
  have hlive : ∀ {a}, m.objects.Live a → m'.objects.Live a :=
    fun {a} ha hc => ha ((hcell a (h.heap a ha)).symm.trans hc)
  refine ⟨⟨hheap, ?_, ?_, ?_⟩, hmax, hact, hslot, fun i hi => absurd hi (hsave i), fun _ => hlast, ?_, ⟨hnext, ?_⟩, ?_⟩
  · intro i d' hd'
    obtain ⟨d, hd, hps⟩ := hentry hd'
    obtain ⟨a, ha, hla⟩ := h.stored hd
    exact ⟨a, hps.trans ha, hlive hla⟩
  · intro i j di' dj' hi hj heq
    obtain ⟨di, hdi, hpi⟩ := hentry hi
    obtain ⟨dj, hdj, hpj⟩ := hentry hj
    exact h.distinct hdi hdj (hpi.symm.trans (heq.trans hpj))
  · intro a ha
    rw [hlast] at ha
    obtain ⟨hla, hne⟩ := h.saved ha
    refine ⟨hlive hla, ?_⟩
    intro i d' hd' hda
    obtain ⟨d, hd, hps⟩ := hentry hd'
    exact hne hd (hps.symm.trans hda)
  · intro a ha
    exact iff_of_true (hlive ha) (hrel a)
  · intro a ha hdead hl
    exact hl ((hcell a ha).trans (not_not.mp hdead))
  · intro i a ha _ _
    have hm := hmap i
    cases hd : m.m_paramsetMap i with
    | none => rw [getPS_none hd] at ha; cases ha
    | some d =>
      rw [hd] at hm
      cases hd' : m'.m_paramsetMap i with
      | none => rw [hd'] at hm; cases hm
      | some d' =>
        rw [hd'] at hm
        rw [getPS_eq hd', Option.some.inj hm, ← getPS_eq hd, ha]

section
variable {p : Ptr} {objects : Heap T}

theorem storePS_none (hid : id < m.m_maxId) (he : m.m_paramsetMap id = none) :
    m.storePS id p = .ok (m.put id ⟨true, none, p⟩) := by
  rw [storePS, check_ok _ (Int.not_le.mpr hid), ok_bind, he]
  rfl

theorem storePS_some (hid : id < m.m_maxId) (he : m.m_paramsetMap id = some e)
    (hdel : m.objects.delete e.parameterSet = .ok objects) :
    m.storePS id p = .ok ({ m with objects }.put id { e with parameterSet := p, bChanged := true }) := by
  rw [storePS, check_ok _ (Int.not_le.mpr hid), ok_bind, he]
  simp only [hdel, ok_bind]
  rfl

theorem storePSNalu_none (hid : id < m.m_maxId) (he : m.m_paramsetMap id = none) :
    m.storePSNalu id p nalu = .ok (m.put id ⟨false, nalu, p⟩) := by
  rw [storePSNalu, check_ok _ (Int.not_le.mpr hid), ok_bind, he]
  rfl

theorem storePSNalu_same (hid : id < m.m_maxId) (he : m.m_paramsetMap id = some e)
    (hcalc : calculateParameterSetChangedFlag e.bChanged e.pNaluData nalu = false)
    (hdel : m.objects.delete p = .ok objects) :
    m.storePSNalu id p nalu = .ok ({ m with objects }.put id { e with bChanged := false }) := by
  rw [storePSNalu, check_ok _ (Int.not_le.mpr hid), ok_bind, he]
  simp only [hcalc, hdel, ok_bind, Bool.not_false, if_true]
  rfl

theorem storePSNalu_changed (hid : id < m.m_maxId) (he : m.m_paramsetMap id = some e)
    (hcalc : calculateParameterSetChangedFlag e.bChanged e.pNaluData nalu = true)
    (hdk : id ∈ m.m_activePsId ∧ dead = m.m_lastActiveParameterSet ∧ kept = e.parameterSet ∨
      id ∉ m.m_activePsId ∧ dead = e.parameterSet ∧ kept = m.m_lastActiveParameterSet)
    (hdel : m.objects.delete dead = .ok objects) :
    m.storePSNalu id p nalu =
      .ok ({ m with objects, m_lastActiveParameterSet := kept }.put id ⟨true, nalu, p⟩) := by
  rw [storePSNalu, check_ok _ (Int.not_le.mpr hid), ok_bind, he]
  rcases hdk with ⟨hact, rfl, rfl⟩ | ⟨hact, rfl, rfl⟩
  all_goals
    simp only [hcalc, hact, Bool.not_true, Bool.false_eq_true, if_true, if_false, hdel, ok_bind]
    rfl

end

section
variable [ParameterSet T] {ps : T} {bChanged : Bool}

theorem storePS_spec (h : m.Owned) (hid : id < m.m_maxId) :
    ∃ m', m.step (.storePS id ps) = .ok m' ∧ m.StepSpec (.storePS id ps) m' := by
  cases he : m.m_paramsetMap id with
  | none =>
    refine ⟨_, ?_, h.insert ps ⟨true, none, some m.objects.next⟩ he rfl ?_ rfl ?_ ?_⟩
    · exact storePS_none (m := m.withNew ps) hid he
    · intro i
      by_cases hi : id = i
      · subst hi
        simp [slotStep, slotOf_none he]
      · simp [slotStep, hi]
    · exact fun i hi => hi
    · intro a ha
      rw [Releases, getPS_none he] at ha
      cases ha
  | some e =>
    obtain ⟨objects, hdel, howned, hslot, hlive, hgone⟩ :=
      h.replace { e with parameterSet := some m.objects.next, bChanged := true } he
        (Or.inr ⟨rfl, rfl⟩) rfl ps
    refine ⟨_, ?_, howned, rfl, rfl, ?_, fun i hi => hi.elim, fun _ => rfl, ?_, hgone, ?_⟩
    · exact storePS_some (m := m.withNew ps) hid he hdel
    · intro i
      rw [hslot]
      by_cases hi : id = i
      · subst hi
        obtain ⟨w, hw⟩ := h.slot he
        simp [slotStep, hw]
      · simp [slotStep, hi]
    · intro a ha
      rw [Releases, getPS_eq he]
      exact hlive a ha
    · intro i a ha hne _
      have hi : i ≠ id := fun hi => hne ps (hi ▸ rfl)
      rw [← ha]
      simp only [getPS, replaced]
      rw [put_ne hi]
      rfl

/-- A replacing store, for the two objects it may release. -/
theorem storePSNalu_replace (h : m.Owned) (hid : id < m.m_maxId) (he : m.m_paramsetMap id = some e)
    (hch : e.bChanged = true ∨ e.pNaluData ≠ nalu)
    (hdk : id ∈ m.m_activePsId ∧ dead = m.m_lastActiveParameterSet ∧ kept = e.parameterSet ∨
      id ∉ m.m_activePsId ∧ dead = e.parameterSet ∧ kept = m.m_lastActiveParameterSet) :
    ∃ m', m.step (.storePSNalu id ps nalu) = .ok m' ∧ m.StepSpec (.storePSNalu id ps nalu) m' := by
  have hcalc := (calculateParameterSetChangedFlag_eq _ _ _).mpr hch
  have hrep : m.Replaces id nalu := ⟨e, he, hch⟩
  obtain ⟨objects, hdel, howned, hslot, hlive, hgone⟩ :=
    h.replace ⟨true, nalu, some m.objects.next⟩ he (hdk.imp And.right And.right) rfl ps
  refine ⟨m.replaced id ps objects kept ⟨true, nalu, some m.objects.next⟩, ?_, howned, rfl, rfl, ?_, ?_, ?_, ?_, hgone, ?_⟩
  · exact storePSNalu_changed (m := m.withNew ps) hid he hcalc hdk hdel
  · intro i
    rw [hslot]
    by_cases hi : id = i
    · subst hi
      obtain ⟨w, hw⟩ := h.slot he
      simp [slotStep, hw, hch]
    · simp [slotStep, hi]
  · rintro i ⟨rfl, hact, -⟩
    rcases hdk with ⟨-, -, rfl⟩ | ⟨hn, -, -⟩
    · exact (getPS_eq he).symm
    · exact absurd hact hn
  · intro hn
    rcases hdk with ⟨hact, -, -⟩ | ⟨-, -, rfl⟩
    · exact absurd ⟨rfl, hact, hrep⟩ (hn id)
    · rfl
  · intro a ha
    rw [replaced, Releases, getPS_eq he]
    refine (hlive a ha).trans (not_congr ?_)
    rcases hdk with ⟨hact, rfl, -⟩ | ⟨hact, rfl, -⟩
    · rw [if_pos hact]
      exact (and_iff_right hrep).symm
    · rw [if_neg hact]
      exact (and_iff_right hrep).symm
  · intro i a ha _ hne
    have hi : i ≠ id := fun hi => hne ps nalu (hi ▸ rfl) (hi ▸ hrep)
    rw [← ha]
    simp only [getPS, replaced]
    rw [put_ne hi]
    rfl

/-- A duplicate is released and nothing else changes. -/
theorem storePSNalu_rejected (ps : T) (h : m.Owned) (hid : id < m.m_maxId) (he : m.m_paramsetMap id = some e)
    (hch : e.bChanged = false) (hnalu : e.pNaluData = nalu) :
    ∃ objects, m.step (.storePSNalu id ps nalu) = .ok { m with objects } ∧ objects.Ok ∧
      m.objects.next ≤ objects.next ∧ ¬objects.Live m.objects.next ∧
      ∀ a, a < m.objects.next → objects.cell a = m.objects.cell a := by
  have hcalc : calculateParameterSetChangedFlag e.bChanged e.pNaluData nalu = false := by
    rw [← Bool.not_eq_true, calculateParameterSetChangedFlag_eq]
    simp [hch, hnalu]
  have hlive : (m.objects.new ps).Live m.objects.next := by
    intro hc
    rw [Heap.new_cell_next] at hc
    cases hc
  have hdel := Heap.delete_live hlive
  obtain ⟨hnext, hkeep, hgone⟩ := Heap.delete_spec hdel
  refine ⟨_, ?_, Heap.delete_ok (Heap.new_ok h.heap) hdel, hnext ▸ Nat.le_succ _,
    fun hl => hl (hgone _ rfl), ?_⟩
  · have hput : ∀ objects, ({ m with objects } : ParameterSetMap T).put id { e with bChanged := false } =
        { m with objects } := fun objects => put_entry (he.trans (by rw [← hch]))
    exact (storePSNalu_same (m := m.withNew ps) hid he hcalc hdel).trans (congrArg _ (hput _))
  · intro a ha
    have hne := Nat.ne_of_lt ha
    exact (hkeep a fun hn => hne (Option.some.inj hn).symm).trans (Heap.new_cell hne)

theorem storePSNalu_spec (h : m.Owned) (hid : id < m.m_maxId) :
    ∃ m', m.step (.storePSNalu id ps nalu) = .ok m' ∧ m.StepSpec (.storePSNalu id ps nalu) m' := by
  cases he : m.m_paramsetMap id with
  | none =>
    refine ⟨_, ?_, h.insert ps ⟨false, nalu, some m.objects.next⟩ he rfl ?_ rfl ?_ ?_⟩
    · exact storePSNalu_none (m := m.withNew ps) hid he
    · intro i
      by_cases hi : id = i
      · subst hi
        simp [slotStep, slotOf_none he]
      · simp [slotStep, hi]
    · rintro i ⟨rfl, -, hr⟩
      exact not_replaces he hr
    · rintro a ⟨hr, -⟩
      exact not_replaces he hr
  | some e =>
    by_cases hch : e.bChanged = true ∨ e.pNaluData ≠ nalu
    · by_cases hact : id ∈ m.m_activePsId
      · exact storePSNalu_replace h hid he hch (Or.inl ⟨hact, rfl, rfl⟩)
      · exact storePSNalu_replace h hid he hch (Or.inr ⟨hact, rfl, rfl⟩)
    · obtain ⟨hflag, hnalu⟩ := not_or.mp hch
      have hrep : ¬m.Replaces id nalu := by
        rintro ⟨d, hd, hdch⟩
        obtain rfl : e = d := Option.some.inj (he.symm.trans hd)
        exact hch hdch
      obtain ⟨objects, hstep, hheap, hnext, -, hcell⟩ :=
        storePSNalu_rejected ps h hid he (Bool.not_eq_true _ ▸ hflag) (not_not.mp hnalu)
      refine ⟨_, hstep, h.relabel rfl rfl rfl hheap hcell hnext (fun _ => rfl) ?_ ?_ ?_⟩
      · intro i
        rw [show slotOf { m with objects } i = m.slotOf i from h.slotOf_congr rfl fun hid hda => hcell _ ?_]
        · by_cases hi : id = i
          · subst hi
            obtain ⟨w, hw⟩ := h.slot he
            simp [slotStep, hw, hch]
          · simp [slotStep, hi]
        · obtain ⟨b, hb, hlb⟩ := h.stored hid
          exact h.heap _ (Option.some.inj (hb.symm.trans hda) ▸ hlb)
      · rintro i ⟨rfl, -, hr⟩
        exact hrep hr
      · rintro a ⟨hr, -⟩
        exact hrep hr

theorem allocatePS_spec (h : m.Owned) (hid : id < m.m_maxId) :
    ∃ m', m.step (.allocatePS id) = .ok m' ∧ m.StepSpec (.allocatePS id) m' := by
  have hcheck := check_ok "Invalid PS id" (Int.not_le.mpr hid)
  cases he : m.m_paramsetMap id with
  | none =>
    refine ⟨_, ?_, h.insert (ParameterSet.setID ParameterSet.default id) ⟨true, none, some m.objects.next⟩ he rfl ?_
      rfl (fun _ hi => hi) (fun _ ha => ha)⟩
    · rw [step, allocatePS, hcheck, ok_bind, he]
      rfl
    · intro i
      by_cases hi : id = i
      · subst hi
        simp [slotStep, slotOf_none he]
      · simp [slotStep, hi]
  | some e =>
    refine ⟨m, ?_, h.relabel rfl rfl rfl h.heap (fun _ _ => rfl) (Nat.le_refl _) (fun _ => rfl) ?_ (fun _ hi => hi) (fun _ ha => ha)⟩
    · rw [step, allocatePS, hcheck, ok_bind, he]
      rfl
    · intro i
      by_cases hi : id = i
      · subst hi
        obtain ⟨w, hw⟩ := h.slot he
        simp [slotStep, hw]
      · simp [slotStep, hi]

/-- Setting the flag of an entry. -/
theorem put_flag (h : m.Owned) (he : m.m_paramsetMap id = some e)
    (hslot : ∀ i, slotStep i (m.slotOf i) op =
      if id = i then (m.slotOf i).map fun old => { old with changed := bChanged } else m.slotOf i)
    (hact : activeStep m.m_activePsId op = m.m_activePsId) (hsave : ∀ i, ¬m.Saves i op)
    (hrel : ∀ a, ¬m.Releases a op) : m.StepSpec op (m.put id { e with bChanged }) := by
  refine h.relabel rfl hact.symm rfl h.heap (fun _ _ => rfl) (Nat.le_refl _) ?_ ?_ hsave hrel
  · intro i
    by_cases hi : i = id
    · subst hi
      rw [put_self, he]
      rfl
    · rw [put_ne hi]
  · intro i
    rw [hslot]
    split
    case isTrue hi =>
      subst hi
      obtain ⟨a, ha, hlive⟩ := h.stored he
      obtain ⟨w, hw⟩ := Option.ne_none_iff_exists'.mp hlive
      rw [slotOf_eq he ha hw]
      exact slotOf_eq put_self ha hw
    case isFalse hi =>
      exact h.slotOf_congr (put_ne fun hii => hi hii.symm) fun _ _ => rfl

/-- A call changes nothing where it finds no entry. -/
theorem no_entry (h : m.Owned) (hslot : ∀ i, slotStep i (m.slotOf i) op = m.slotOf i)
    (hact : activeStep m.m_activePsId op = m.m_activePsId) (hsave : ∀ i, ¬m.Saves i op)
    (hrel : ∀ a, ¬m.Releases a op) : m.StepSpec op m :=
  h.relabel rfl hact.symm rfl h.heap (fun _ _ => rfl) (Nat.le_refl _) (fun _ => rfl)
    (fun i => (hslot i).symm) hsave hrel

theorem setChangedFlag_spec (h : m.Owned) :
    m.StepSpec (.setChangedFlag id bChanged) (m.setChangedFlag id bChanged) := by
  cases he : m.m_paramsetMap id with
  | none =>
    rw [setChangedFlag, he]
    refine no_entry h (fun i => ?_) rfl (fun _ hi => hi) (fun _ ha => ha)
    by_cases hi : id = i
    · subst hi
      simp [slotStep, slotOf_none he]
    · simp [slotStep, hi]
  | some e =>
    rw [setChangedFlag, he]
    exact put_flag h he (fun _ => rfl) rfl (fun _ hi => hi) (fun _ ha => ha)

theorem clearChangedFlag_spec (h : m.Owned) :
    m.StepSpec (.clearChangedFlag id) (m.clearChangedFlag id) := by
  have hsc : m.StepSpec (.setChangedFlag id false) (m.setChangedFlag id false) := setChangedFlag_spec h
  exact ⟨hsc.owned, hsc.maxId, hsc.active, hsc.slots, hsc.saved, hsc.unsaved, hsc.live, hsc.gone,
    fun i a ha _ _ => hsc.getPS i a ha (fun _ hne => by cases hne) (fun _ _ hne => by cases hne)⟩

theorem step_spec (h : m.Owned) (hop : op.InRange m.m_maxId) :
    ∃ m', m.step op = .ok m' ∧ m.StepSpec op m' := by
  cases op with
  | storePS id ps => exact storePS_spec h hop
  | storePSNalu id ps nalu => exact storePSNalu_spec h hop
  | allocatePS id => exact allocatePS_spec h hop
  | setActive id =>
    exact ⟨_, rfl, h.relabel rfl rfl rfl h.heap (fun _ _ => rfl) (Nat.le_refl _) (fun _ => rfl) (fun _ => rfl)
      (fun _ hi => hi) (fun _ ha => ha)⟩
  | clear =>
    exact ⟨_, rfl, h.relabel rfl rfl rfl h.heap (fun _ _ => rfl) (Nat.le_refl _) (fun _ => rfl) (fun _ => rfl)
      (fun _ hi => hi) (fun _ ha => ha)⟩
  | setChangedFlag id b => exact ⟨_, rfl, setChangedFlag_spec h⟩
  | clearChangedFlag id => exact ⟨_, rfl, clearChangedFlag_spec h⟩

/-- Nothing but an id out of range stops a call. -/
theorem step_inRange {m' : ParameterSetMap T} (hs : m.step op = .ok m') : op.InRange m.m_maxId := by
  cases op with
  | setActive id => trivial
  | clear => trivial
  | setChangedFlag id b => trivial
  | clearChangedFlag id => trivial
  | storePS id ps =>
    obtain ⟨_, hcheck, -⟩ := bind_eq_ok hs
    exact Int.not_le.mp (check_eq_ok hcheck)
  | storePSNalu id ps nalu =>
    obtain ⟨_, hcheck, -⟩ := bind_eq_ok hs
    exact Int.not_le.mp (check_eq_ok hcheck)
  | allocatePS id =>
    simp only [step, allocatePS] at hs
    by_cases hid : id < m.m_maxId
    · exact hid
    · rw [check_error _ (Int.not_lt.mp hid)] at hs
      cases hs

theorem step_ok {m' : ParameterSetMap T} (h : m.Owned) (hs : m.step op = .ok m') : m.StepSpec op m' := by
  obtain ⟨m'', hs', hspec⟩ := step_spec h (step_inRange hs)
  rw [hs] at hs'
  exact Except.ok.inj hs' ▸ hspec

/-! ## Runs -/

theorem run_cons {ops : List (Op T)} {m' : ParameterSetMap T} (hs : m.run (op :: ops) = .ok m') :
    ∃ m1, m.step op = .ok m1 ∧ m1.run ops = .ok m' := bind_eq_ok hs

theorem run_append {ops ops' : List (Op T)} {m' : ParameterSetMap T} (hs : m.run (ops ++ ops') = .ok m') :
    ∃ m1, m.run ops = .ok m1 ∧ m1.run ops' = .ok m' := by
  induction ops generalizing m with
  | nil => exact ⟨m, rfl, hs⟩
  | cons op ops ih =>
    obtain ⟨m1, h1, h2⟩ := run_cons hs
    obtain ⟨m2, h3, h4⟩ := ih h2
    refine ⟨m2, ?_, h4⟩
    rw [run, h1]
    exact h3

/-- The register of one id after a run. -/
def slotRun (id : ℤ) (s : Option (Slot T)) (ops : List (Op T)) : Option (Slot T) := ops.foldl (slotStep id) s

/-- The store is the family of its registers, and every id is in range. -/
theorem run_spec {ops : List (Op T)} {m' : ParameterSetMap T} (h : m.Owned) (hs : m.run ops = .ok m') :
    m'.Owned ∧ m'.m_maxId = m.m_maxId ∧ m'.m_activePsId = ops.foldl activeStep m.m_activePsId ∧
      ∀ id, m'.slotOf id = slotRun id (m.slotOf id) ops := by
  induction ops generalizing m with
  | nil =>
    obtain rfl := Except.ok.inj hs
    exact ⟨h, rfl, rfl, fun _ => rfl⟩
  | cons op ops ih =>
    obtain ⟨m1, h1, h2⟩ := run_cons hs
    have hspec := step_ok h h1
    obtain ⟨howned, hmax, hact, hslot⟩ := ih hspec.owned h2
    refine ⟨howned, hmax.trans hspec.maxId, ?_, ?_⟩
    · rw [hact, hspec.active, List.foldl_cons]
    · intro id
      rw [hslot, hspec.slots]
      rfl

end

end ECM.CommonLib.ParameterSetMap

/-! ## Activation -/

namespace ECM.CommonLib.ParameterSetManager
open ParameterSetMap
variable {V S P A : Type} [ParameterSet V] [ParameterSet S] [ParameterSet P] [ParameterSet A]
  {p p' : ParameterSetManager V S P A} {ppsId apsId apsType : ℤ} {done : Bool}

/-- The maps of one manager after another, by calls of their own. -/
structure Calls (p p' : ParameterSetManager V S P A) : Prop where
  vps : ∃ ops, p.m_vpsMap.run ops = .ok p'.m_vpsMap
  sps : ∃ ops, p.m_spsMap.run ops = .ok p'.m_spsMap
  pps : ∃ ops, p.m_ppsMap.run ops = .ok p'.m_ppsMap
  aps : ∃ ops, p.m_apsMap.run ops = .ok p'.m_apsMap

omit [ParameterSet S] [ParameterSet P] [ParameterSet A] in
theorem activateVPS_calls {vpsId : ℤ} (h : p.activateVPS vpsId = .ok p') :
    (∃ ops, p.m_vpsMap.run ops = .ok p'.m_vpsMap) ∧ p'.m_spsMap = p.m_spsMap ∧ p'.m_ppsMap = p.m_ppsMap ∧
      p'.m_apsMap = p.m_apsMap := by
  unfold activateVPS at h
  split at h
  · split at h
    · obtain rfl := Except.ok.inj h
      exact ⟨⟨[.setActive vpsId], rfl⟩, rfl, rfl, rfl⟩
    · obtain rfl := Except.ok.inj h
      exact ⟨⟨[], rfl⟩, rfl, rfl, rfl⟩
  · obtain ⟨⟨vpsMap, ps⟩, halloc, hp⟩ := bind_eq_ok h
    obtain rfl := Except.ok.inj hp
    refine ⟨⟨[.clear, .allocatePS 0, .setActive 0], ?_⟩, rfl, rfl, rfl⟩
    have hstep : p.m_vpsMap.clear.step (.allocatePS 0) = .ok vpsMap := by
      rw [step, halloc]
      rfl
    rw [run, step, ok_bind, run, hstep]
    rfl

/-- Activation makes the PPS and its SPS the only active ones, and touches the maps by their calls alone. -/
theorem activatePPS_calls [RefersToVPS S] [RefersToSPS P] (h : p.activatePPS ppsId = .ok (p', done)) :
    p.Calls p' ∧ (done = true → ∃ pps sps, p.m_ppsMap.parameterSet ppsId = some pps ∧
      p.m_spsMap.parameterSet (RefersToSPS.getSPSId pps) = some sps ∧
      p'.m_activeSPSId = RefersToSPS.getSPSId pps ∧ p'.m_ppsMap.m_activePsId = [ppsId] ∧
      p'.m_spsMap.m_activePsId = [RefersToSPS.getSPSId pps]) := by
  have hfail : ∀ {p' : ParameterSetManager V S P A},
      (Except.ok ({ p with m_activeSPSId := -1 }, false) : Checked (ParameterSetManager V S P A × Bool)) =
        .ok (p', done) → p.Calls p' ∧ done = false := by
    intro p' h
    obtain ⟨rfl, rfl⟩ := Prod.mk.inj (Except.ok.inj h)
    exact ⟨⟨⟨[], rfl⟩, ⟨[], rfl⟩, ⟨[], rfl⟩, ⟨[], rfl⟩⟩, rfl⟩
  unfold activatePPS at h
  cases hpps : p.m_ppsMap.parameterSet ppsId with
  | none =>
    rw [hpps] at h
    obtain ⟨hcalls, rfl⟩ := hfail h
    exact ⟨hcalls, fun hd => by cases hd⟩
  | some pps =>
    rw [hpps] at h
    cases hsps : p.m_spsMap.parameterSet (RefersToSPS.getSPSId pps) with
    | none =>
      simp only [hsps] at h
      obtain ⟨hcalls, rfl⟩ := hfail h
      exact ⟨hcalls, fun hd => by cases hd⟩
    | some sps =>
      simp only [hsps] at h
      obtain ⟨p1, hvps, hp⟩ := bind_eq_ok h
      obtain ⟨hrun, hs, hpp, ha⟩ := activateVPS_calls hvps
      obtain ⟨rfl, rfl⟩ := Prod.mk.inj (Except.ok.inj hp)
      refine ⟨⟨hrun, ?_, ?_, ⟨[], congrArg _ ha.symm⟩⟩, fun _ => ⟨pps, sps, rfl, hsps, rfl, rfl, rfl⟩⟩
      · exact ⟨[.clear, .setActive (RefersToSPS.getSPSId pps)], by rw [← hs]; rfl⟩
      · exact ⟨[.clear, .setActive ppsId], by rw [← hpp]; rfl⟩

theorem activateAPS_calls : p.Calls (p.activateAPS apsId apsType).1 := by
  cases hget : p.m_apsMap.getPS (apsId * 2 ^ NUM_APS_TYPE_LEN + apsType) with
  | none =>
    simp only [activateAPS, hget]
    exact ⟨⟨[], rfl⟩, ⟨[], rfl⟩, ⟨[], rfl⟩, ⟨[], rfl⟩⟩
  | some a =>
    simp only [activateAPS, hget]
    exact ⟨⟨[], rfl⟩, ⟨[], rfl⟩, ⟨[], rfl⟩, ⟨[.setActive _], rfl⟩⟩

/-- Activation keeps the owners of all objects. -/
theorem Calls.owned (h : p.Calls p') (hv : p.m_vpsMap.Owned) (hs : p.m_spsMap.Owned) (hp : p.m_ppsMap.Owned)
    (ha : p.m_apsMap.Owned) :
    p'.m_vpsMap.Owned ∧ p'.m_spsMap.Owned ∧ p'.m_ppsMap.Owned ∧ p'.m_apsMap.Owned := by
  obtain ⟨⟨_, h1⟩, ⟨_, h2⟩, ⟨_, h3⟩, ⟨_, h4⟩⟩ := h
  exact ⟨(run_spec hv h1).1, (run_spec hs h2).1, (run_spec hp h3).1, (run_spec ha h4).1⟩

end ECM.CommonLib.ParameterSetManager
