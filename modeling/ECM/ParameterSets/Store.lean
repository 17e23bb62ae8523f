import ECM.CommonLib.ParameterSetManagerSoundness
import Mathlib.Data.List.Induction

/-! # What the parameter set store holds

Over any sequence of calls: which parameter set an id leads to, when its changed
flag is set, and how long an object that was activated lives. The map saves one
replaced active object; the next replacement of an active one releases it. -/

namespace ECM.ParameterSets
open CommonLib Lib ParameterSetMap

variable {T : Type} {id : ℤ} {op : Op T}

/-- The call makes the entry of `id` if there is none. -/
def Creates (id : ℤ) : Op T → Prop
  | .storePS psId _ => psId = id
  | .storePSNalu psId _ _ => psId = id
  | .allocatePS psId => psId = id
  | _ => False

/-- The call stores what `parse` makes of its NAL data. -/
def Parsed (parse : List UInt8 → T) (op : Op T) : Prop :=
  ∃ psId data, op = .storePSNalu psId (parse data) (some data)

/-- The NAL data stored last under `id`. -/
def latestNalu (id : ℤ) (ops : List (Op T)) : Option (List UInt8) :=
  ops.foldl (fun data op =>
    match op with
    | .storePSNalu psId _ naluData => if psId = id then naluData else data
    | _ => data) none

/-- After the calls `pre` the call changes the content of `id`, or says so. -/
def Changes (id : ℤ) (pre : List (Op T)) : Op T → Prop
  | .storePSNalu psId _ naluData => psId = id ∧ (∃ o ∈ pre, Creates id o) ∧ latestNalu id pre ≠ naluData
  | .storePS psId _ => psId = id
  | .allocatePS psId => psId = id ∧ ∀ o ∈ pre, ¬Creates id o
  | .setChangedFlag psId bChanged => psId = id ∧ bChanged = true ∧ ∃ o ∈ pre, Creates id o
  | _ => False

/-- The call clears the changed flag of `id`. -/
def ClearsFlag (id : ℤ) : Op T → Prop
  | .setChangedFlag psId bChanged => psId = id ∧ bChanged = false
  | .clearChangedFlag psId => psId = id
  | _ => False

/-- Some call replaces, and so saves, the parameter set of an active id. -/
inductive SavesOne [ParameterSet T] : ParameterSetMap T → List (Op T) → Prop
  | here {m id op ops} (h : m.Saves id op) : SavesOne m (op :: ops)
  | later {m m' op ops} (hs : m.step op = .ok m') (h : SavesOne m' ops) : SavesOne m (op :: ops)

/-- After the parameter set of the active `id` was replaced, that of an active id is replaced again. -/
inductive SavesAgain [ParameterSet T] (id : ℤ) : ParameterSetMap T → List (Op T) → Prop
  | here {m m' op ops} (h : m.Saves id op) (hs : m.step op = .ok m') (h' : SavesOne m' ops) :
    SavesAgain id m (op :: ops)
  | later {m m' op ops} (hs : m.step op = .ok m') (h : SavesAgain id m' ops) : SavesAgain id m (op :: ops)

/-! ## The register over a run -/

theorem latestNalu_append (ops : List (Op T)) (op : Op T) :
    latestNalu id (ops ++ [op]) =
      match op with
      | .storePSNalu psId _ naluData => if psId = id then naluData else latestNalu id ops
      | _ => latestNalu id ops := by
  simp [latestNalu]

variable {m m' : ParameterSetMap T}

section
variable [ParameterSet T] {ops : List (Op T)} {a : ℕ}

theorem slotRun_append (s : Option (Slot T)) (ops : List (Op T)) (op : Op T) :
    slotRun id s (ops ++ [op]) = slotStep id (slotRun id s ops) op := by
  simp [slotRun]

/-- There is an entry once some call has made it. -/
theorem slotRun_isSome (id : ℤ) (ops : List (Op T)) :
    (slotRun id none ops).isSome = true ↔ ∃ o ∈ ops, Creates id o := by
  induction ops using List.reverseRecOn with
  | nil => simp [slotRun]
  | append_singleton ops op ih =>
    rw [slotRun_append]
    have hsplit : (∃ o ∈ ops ++ [op], Creates id o) ↔ (∃ o ∈ ops, Creates id o) ∨ Creates id op := by
      simp [or_and_right, exists_or]
    rw [hsplit, ← ih]
    cases op <;> simp only [slotStep, Creates, or_false]
    case storePS psId ps => split <;> simp_all
    case storePSNalu psId ps naluData =>
      split
      · rename_i h
        cases slotRun id none ops with
        | none => simp [h]
        | some old => simp only; split <;> simp
      · rename_i h
        simp [h]
    case allocatePS psId => split <;> simp_all
    case setChangedFlag psId b => split <;> simp
    case clearChangedFlag psId => split <;> simp

/-- The entry records the NAL data stored last. -/
theorem slotRun_naluData (id : ℤ) (ops : List (Op T)) :
    (slotRun id none ops).bind (·.naluData) = latestNalu id ops := by
  induction ops using List.reverseRecOn with
  | nil => rfl
  | append_singleton ops op ih =>
    rw [slotRun_append, latestNalu_append, ← ih]
    cases op <;> simp only [slotStep]
    case storePS psId ps => split <;> simp
    case storePSNalu psId ps naluData =>
      split
      · cases slotRun id none ops with
        | none => simp
        | some old =>
          simp only
          split
          · simp
          · rename_i hch
            simp [not_not.mp (not_or.mp hch).2]
      · rfl
    case allocatePS psId =>
      split
      · cases slotRun id none ops <;> simp
      · rfl
    case setChangedFlag psId b =>
      split
      · cases slotRun id none ops <;> simp
      · rfl
    case clearChangedFlag psId =>
      split
      · cases slotRun id none ops <;> simp
      · rfl

theorem slotRun_creates {old : Slot T} (h : slotRun id none ops = some old) : ∃ o ∈ ops, Creates id o :=
  (slotRun_isSome id ops).mp (by rw [h]; rfl)

theorem slotRun_none (h : slotRun id none ops = none) : ¬∃ o ∈ ops, Creates id o := by
  intro hc
  rw [← slotRun_isSome, h] at hc
  cases hc

theorem slotRun_latest {old : Slot T} (h : slotRun id none ops = some old) :
    old.naluData = latestNalu id ops := by
  rw [← slotRun_naluData, h]
  rfl

/-- The flag after one more call. -/
theorem changed_step (id : ℤ) (ops : List (Op T)) (op : Op T) :
    (slotStep id (slotRun id none ops) op).any (·.changed) = true ↔
      Changes id ops op ∨ (slotRun id none ops).any (·.changed) = true ∧ ¬ClearsFlag id op := by
  cases hs : slotRun id none ops with
  | none =>
    have hn := slotRun_none hs
    cases op <;> simp only [slotStep, Changes, ClearsFlag]
    case storePS psId ps => split <;> simp_all
    case storePSNalu psId ps naluData => split <;> simp_all
    case allocatePS psId =>
      have hn' : ∀ o ∈ ops, ¬Creates id o := fun o ho hc => hn ⟨o, ho, hc⟩
      split <;> simp_all
    case setActive psId => simp
    case clear => simp
    case setChangedFlag psId b => split <;> simp_all
    case clearChangedFlag psId => split <;> simp_all
  | some old =>
    have hc := slotRun_creates hs
    have hl := slotRun_latest hs
    cases op <;> simp only [slotStep, Changes, ClearsFlag]
    case storePS psId ps => split <;> simp_all
    case storePSNalu psId ps naluData =>
      split
      · rename_i hid
        by_cases hch : old.changed = true ∨ old.naluData ≠ naluData
        · rw [if_pos hch]
          simpa [hid, hc, ← hl] using hch.symm
        · obtain ⟨hf, hd⟩ := not_or.mp hch
          simp_all
      · simp_all
    case allocatePS psId =>
      have hn : ¬∀ o ∈ ops, ¬Creates id o := fun hn => hc.elim fun o ho => hn o ho.1 ho.2
      split
      · simp only [hn, and_false, false_or, not_false_eq_true, and_true, Option.getD_some]
      · simp only [hn, and_false, false_or, not_false_eq_true, and_true]
    case setActive psId => simp
    case clear => simp
    case setChangedFlag psId b =>
      split
      · cases b <;> simp_all
      · simp_all
    case clearChangedFlag psId => split <;> simp_all

/-- After a second save there was a first one. -/
theorem SavesAgain.one (h : SavesAgain id m ops) : SavesOne m ops := by
  induction h with
  | here h _ _ => exact .here h
  | later hs _ ih => exact .later hs ih

/-- A parameter set of which only the id is known. -/
instance : ParameterSet ℤ := ⟨0, fun _ id => id⟩

end

end ECM.ParameterSets
