import ECM.CommonLib.CtxStateStore

/-! # The store of context states is a bounded map

What is in the store after any sequence of calls: at most five entries for each
slice type, each with the states saved last under its key. A sixth key takes the
place of the smallest one. -/

namespace ECM.Cabac.ContextStore
open CommonLib CommonLib.Contexts Lib CtxStateStore Function

inductive StoreOp where
  | storeCtx (slice : Slice) (ctx : Ctx)
  | loadCtx (slice : Slice) (ctx : Ctx)
  | clearValid

def step (store : CtxStateStore) : StoreOp → Checked CtxStateStore
  | .storeCtx slice ctx => store.storeCtx slice ctx
  | .loadCtx slice ctx => do
    let _ ← store.loadCtx slice ctx
    return store
  | .clearValid => return store.clearValid

def run (ops : List StoreOp) : Checked CtxStateStore := ops.foldlM step .new

/-- A context of the coder: one model for each of the `n` contexts. -/
def Std (n : ℕ) (ctx : Ctx) : Prop := ctx.m_BPMType = .BPM_Std ∧ ctx.m_CtxBuffer.length = n

def StoreOp.Std (n : ℕ) : StoreOp → Prop
  | .storeCtx _ ctx => ContextStore.Std n ctx
  | .loadCtx _ ctx => ContextStore.Std n ctx
  | .clearValid => True

/-- The call stores for the slice type and the key of `slice`. -/
def StoreOp.Stores (slice : Slice) : StoreOp → Prop
  | .storeCtx slice' _ => slice'.getSliceType = slice.getSliceType ∧ slice'.entry = slice.entry
  | _ => False

/-- `ctx` with the states and the weights of `saved`. -/
def restored (ctx saved : Ctx) : Ctx :=
  let restore (m s : BinProbModel) := (m.setState s.getState).setAdaptRateWeight s.weight
  { ctx with m_CtxBuffer := ctx.m_CtxBuffer.zipWith restore saved.m_CtxBuffer }

/-- The key of `slice` is stored for its slice type. -/
def Holds (store : CtxStateStore) (slice : Slice) : Prop :=
  slice.getSliceType ≠ .I_SLICE ∧ (store.m_stateBuf slice.getSliceType).Has slice.entry

/-- A store for `slice` drops the entry `e` of its slice type. -/
def Evicts (store : CtxStateStore) (slice : Slice) (e : Entry) : Prop :=
  slice.getSliceType ≠ .I_SLICE ∧ ¬(store.m_stateBuf slice.getSliceType).Has slice.entry ∧
    (store.m_stateBuf slice.getSliceType).size = TEMP_CABAC_BUFFER_SIZE ∧
    (store.m_stateBuf slice.getSliceType).IsMin e

variable {n : ℕ} {store store' : CtxStateStore} {slice slice' : Slice} {ctx saved : Ctx} {ops : List StoreOp}

/-! ## Buffers -/

theorem store_store (hc : Std n ctx) :
    (CtxStateArray.new.store saved).store ctx = CtxStateArray.new.store ctx := by
  simp only [CtxStateArray.store, CtxStateArray.new, CtxStateBuf.store, Ctx.savePStates, Ctx.saveWeights, hc.1]

theorem loadPStates_eq {states : List (ℕ × ℕ)} (hc : Std n ctx) (hlen : states.length = n) :
    ctx.loadPStates states = .ok { ctx with m_CtxBuffer := ctx.m_CtxBuffer.zipWith (·.setState ·) states } := by
  rw [Ctx.loadPStates, hc.1]
  dsimp only
  rw [check_ok _ (not_not_intro (hc.2.trans hlen.symm))]
  rfl

theorem loadWeights_eq {weights : List ℕ} (hc : Std n ctx) (hlen : weights.length = n) :
    ctx.loadWeights weights =
      .ok { ctx with m_CtxBuffer := ctx.m_CtxBuffer.zipWith (·.setAdaptRateWeight ·) weights } := by
  rw [Ctx.loadWeights, hc.1]
  dsimp only
  rw [check_ok _ (not_not_intro (hc.2.trans hlen.symm))]
  rfl

/-- What was saved is loaded back. -/
theorem getIfValid_store (hs : Std n saved) (hc : Std n ctx) :
    (CtxStateArray.new.store saved).getIfValid ctx = .ok (true, restored ctx saved) := by
  obtain ⟨mid, hmid⟩ : ∃ mid : Ctx, mid = { ctx with
      m_CtxBuffer := ctx.m_CtxBuffer.zipWith (·.setState ·) (saved.m_CtxBuffer.map (·.getState)) } := ⟨_, rfl⟩
  have hstd : Std n mid := by
    rw [hmid]
    exact ⟨hc.1, by simp [hc.2, hs.2]⟩
  have hload := loadPStates_eq hc (show (saved.m_CtxBuffer.map (·.getState)).length = n by simp [hs.2])
  have hweights := loadWeights_eq hstd (show (saved.m_CtxBuffer.map (·.weight)).length = n by simp [hs.2])
  simp only [CtxStateArray.getIfValid, CtxStateArray.store, CtxStateArray.new, CtxStateBuf.getIfValid,
    CtxStateBuf.store, Ctx.savePStates, Ctx.saveWeights, hs.1, if_true]
  rw [hload, ← hmid, ok_bind, hweights, ok_bind, hmid]
  refine congrArg (fun l => Except.ok (true, ({ ctx with m_CtxBuffer := l } : Ctx))) ?_
  refine List.ext_getElem (by simp) fun i h1 h2 => ?_
  simp

/-! ## One call -/

/-- The buffers are bounded, and hold what some call saved. -/
structure Inv (n : ℕ) (store : CtxStateStore) : Prop where
  size_le : ∀ t, (store.m_stateBuf t).size ≤ TEMP_CABAC_BUFFER_SIZE
  saved : ∀ t e arr, (store.m_stateBuf t).find? e = some arr →
    ∃ saved, Std n saved ∧ arr = CtxStateArray.new.store saved

theorem new_inv (n : ℕ) : Inv n .new where
  size_le _ := Nat.zero_le _
  saved _ _ _ h := by cases h

theorem clearValid_inv (h : Inv n store) : Inv n store.clearValid := by
  have hbuf (t : SliceType) : store.clearValid.m_stateBuf t = .empty ∨
      store.clearValid.m_stateBuf t = store.m_stateBuf t := by
    cases t
    · exact Or.inl rfl
    · exact Or.inl rfl
    · exact Or.inr rfl
  refine ⟨fun t => ?_, fun t e arr harr => ?_⟩
  · rcases hbuf t with hb | hb
    · rw [hb]
      exact Nat.zero_le _
    · rw [hb]
      exact h.size_le t
  · rcases hbuf t with hb | hb
    · rw [hb] at harr
      cases harr
    · rw [hb] at harr
      exact h.saved t e arr harr

/-- The entry that is stored is as if it were new. -/
theorem storeEntry_eq {buf : SortedMap Entry CtxStateArray} {e : Entry}
    (hsaved : ∀ arr, buf.find? e = some arr → ∃ saved, Std n saved ∧ arr = CtxStateArray.new.store saved)
    (hc : Std n ctx) : storeEntry buf e ctx = buf.insert e (CtxStateArray.new.store ctx) := by
  rw [storeEntry]
  cases hfind : buf.find? e with
  | none => rfl
  | some arr =>
    obtain ⟨saved, _, rfl⟩ := hsaved arr hfind
    rw [Option.getD_some, store_store hc]

/-- All that a call of `storeCtx` for a P or B slice does. -/
theorem storeCtx_spec (h : Inv n store) (hc : Std n ctx) (ht : slice.getSliceType ≠ .I_SLICE) :
    ∃ buf, store.storeCtx slice ctx = .ok ⟨update store.m_stateBuf slice.getSliceType buf⟩ ∧
      buf.size ≤ TEMP_CABAC_BUFFER_SIZE ∧ buf.find? slice.entry = some (CtxStateArray.new.store ctx) ∧
      ∀ e, e ≠ slice.entry → (Evicts store slice e → buf.find? e = none) ∧
        (¬Evicts store slice e → buf.find? e = (store.m_stateBuf slice.getSliceType).find? e) := by
  obtain ⟨old, hold⟩ : ∃ old, old = store.m_stateBuf slice.getSliceType := ⟨_, rfl⟩
  have hsize := h.size_le slice.getSliceType
  have hsaved := h.saved slice.getSliceType slice.entry
  rw [← hold] at hsize hsaved
  have hins := storeEntry_eq hsaved hc
  simp only [Evicts, ← hold]
  by_cases hroom : (old.find? slice.entry).isSome = true ∨ old.size < TEMP_CABAC_BUFFER_SIZE
  · refine ⟨old.insert slice.entry (CtxStateArray.new.store ctx), ?_, ?_, SortedMap.find?_insert_self _ _ _, ?_⟩
    · rw [storeCtx]
      dsimp only
      rw [if_pos ht, ← hold, if_pos hroom, hins]
      rfl
    · by_cases hhas : old.Has slice.entry
      · rw [SortedMap.size_insert_of_has hhas]
        exact hsize
      · rw [SortedMap.size_insert_of_not_has hhas]
        exact hroom.resolve_left hhas
    · intro e he
      refine ⟨fun hev => ?_, fun _ => SortedMap.find?_insert_ne he⟩
      obtain ⟨_, hnot, hfull, _⟩ := hev
      rcases hroom with hhas | hlt
      · exact absurd hhas hnot
      · exact absurd hfull hlt.ne
  · obtain ⟨hnot, hge⟩ := not_or.mp hroom
    have hfull : old.size = TEMP_CABAC_BUFFER_SIZE := Nat.le_antisymm hsize (Nat.not_lt.mp hge)
    have hnot' : ¬old.eraseBegin.Has slice.entry := by
      intro hhas
      by_cases hmin : old.IsMin slice.entry
      · exact hnot hmin.1
      · rw [SortedMap.Has, SortedMap.find?_eraseBegin hmin] at hhas
        exact hnot hhas
    have hfind' : old.eraseBegin.find? slice.entry = none := Option.not_isSome_iff_eq_none.mp hnot'
    have hins' : storeEntry old.eraseBegin slice.entry ctx =
        old.eraseBegin.insert slice.entry (CtxStateArray.new.store ctx) :=
      storeEntry_eq (n := n) (fun arr harr => by rw [hfind'] at harr; cases harr) hc
    have hsize' : (old.eraseBegin.insert slice.entry (CtxStateArray.new.store ctx)).size =
        TEMP_CABAC_BUFFER_SIZE := by
      rw [SortedMap.size_insert_of_not_has hnot', SortedMap.size_eraseBegin, hfull]
      rfl
    refine ⟨old.eraseBegin.insert slice.entry (CtxStateArray.new.store ctx), ?_, hsize'.le,
      SortedMap.find?_insert_self _ _ _, ?_⟩
    · rw [storeCtx]
      dsimp only
      rw [if_pos ht, ← hold, if_neg hroom, if_pos hfull, hins', check_ok _ (by rw [hsize']; exact Nat.lt_irrefl _)]
      rfl
    · intro e he
      rw [SortedMap.find?_insert_ne he]
      exact ⟨fun hev => SortedMap.find?_eraseBegin_min hev.2.2.2,
        fun hev => SortedMap.find?_eraseBegin fun hmin => hev ⟨ht, hnot, hfull, hmin⟩⟩

theorem storeCtx_I (ht : slice.getSliceType = .I_SLICE) : store.storeCtx slice ctx = .ok store := by
  rw [storeCtx]
  dsimp only
  rw [if_neg (not_not_intro ht)]
  rfl

theorem storeCtx_inv (h : Inv n store) (hc : Std n ctx) (hrun : store.storeCtx slice ctx = .ok store') :
    Inv n store' := by
  by_cases ht : slice.getSliceType = .I_SLICE
  · rw [storeCtx_I ht] at hrun
    cases hrun
    exact h
  · obtain ⟨buf, hbuf, hsize, hself, hother⟩ := storeCtx_spec h hc ht
    rw [hbuf] at hrun
    cases hrun
    refine ⟨fun t => ?_, fun t e arr harr => ?_⟩
    · by_cases hte : t = slice.getSliceType
      · subst hte
        simpa using hsize
      · simpa [hte] using h.size_le t
    · by_cases hte : t = slice.getSliceType
      · subst hte
        simp only [update_self] at harr
        by_cases he : e = slice.entry
        · subst he
          rw [hself] at harr
          exact ⟨ctx, hc, (Option.some.inj harr).symm⟩
        · by_cases hev : Evicts store slice e
          · rw [(hother e he).1 hev] at harr
            cases harr
          · rw [(hother e he).2 hev] at harr
            exact h.saved _ e arr harr
      · simp only [update_of_ne hte] at harr
        exact h.saved t e arr harr

/-- Where the key was saved last with `saved`, that is restored. -/
theorem loadCtx_restores (hs : Std n saved) (hc : Std n ctx) (ht : slice.getSliceType ≠ .I_SLICE)
    (hfind : (store.m_stateBuf slice.getSliceType).find? slice.entry = some (CtxStateArray.new.store saved)) :
    store.loadCtx slice ctx = .ok (true, restored ctx saved) := by
  rw [loadCtx, if_pos ht, hfind]
  exact getIfValid_store hs hc

theorem loadCtx_absent (h : ¬Holds store slice) (ctx : Ctx) : store.loadCtx slice ctx = .ok (false, ctx) := by
  rw [loadCtx]
  by_cases ht : slice.getSliceType = .I_SLICE
  · rw [if_neg (not_not_intro ht)]
    rfl
  · have hnone : (store.m_stateBuf slice.getSliceType).find? slice.entry = none :=
      Option.not_isSome_iff_eq_none.mp fun hhas => h ⟨ht, hhas⟩
    rw [if_pos ht, hnone]
    rfl

theorem loadCtx_total (h : Inv n store) (hc : Std n ctx) (slice : Slice) :
    ∃ r, store.loadCtx slice ctx = .ok r := by
  by_cases hhold : Holds store slice
  · obtain ⟨ht, hhas⟩ := hhold
    obtain ⟨arr, harr⟩ := Option.isSome_iff_exists.mp hhas
    obtain ⟨saved, hs, rfl⟩ := h.saved _ _ _ harr
    exact ⟨_, loadCtx_restores hs hc ht harr⟩
  · exact ⟨_, loadCtx_absent hhold ctx⟩

/-- Every call succeeds and keeps the invariant. -/
theorem step_ok (h : Inv n store) {op : StoreOp} (hop : op.Std n) :
    ∃ store', step store op = .ok store' ∧ Inv n store' := by
  cases op with
  | storeCtx slice ctx =>
    by_cases ht : slice.getSliceType = .I_SLICE
    · exact ⟨store, storeCtx_I ht, h⟩
    · obtain ⟨buf, hbuf, _⟩ := storeCtx_spec h hop ht
      exact ⟨_, hbuf, storeCtx_inv h hop hbuf⟩
  | loadCtx slice ctx =>
    obtain ⟨r, hr⟩ := loadCtx_total h hop slice
    refine ⟨store, ?_, h⟩
    rw [step, hr]
    rfl
  | clearValid => exact ⟨_, rfl, clearValid_inv h⟩

/-! ## Runs -/

theorem run_append (ops ops' : List StoreOp) :
    run (ops ++ ops') = run ops >>= fun store => ops'.foldlM step store := List.foldlM_append

theorem foldlM_ok (h : Inv n store) : ∀ {ops : List StoreOp}, (∀ op ∈ ops, op.Std n) →
    ∃ store', ops.foldlM step store = .ok store' ∧ Inv n store' := by
  intro ops
  induction ops generalizing store with
  | nil => exact fun _ => ⟨store, rfl, h⟩
  | cons op ops ih =>
    intro hops
    obtain ⟨store₁, h₁, hinv⟩ := step_ok h (hops op List.mem_cons_self)
    rw [List.foldlM_cons, h₁, ok_bind]
    exact ih hinv fun o ho => hops o (List.mem_cons_of_mem _ ho)

theorem run_ok (hops : ∀ op ∈ ops, op.Std n) : ∃ store, run ops = .ok store ∧ Inv n store :=
  foldlM_ok (new_inv n) hops

/-- What a run keeps under a key that no call stores, clears or evicts. -/
theorem foldlM_keeps {arr : CtxStateArray} : ∀ {post : List StoreOp}
    {store store' : CtxStateStore}, Inv n store → (∀ op ∈ post, op.Std n) →
    (∀ op ∈ post, ¬op.Stores slice ∧ op ≠ .clearValid) →
    (∀ mid s c left, post = mid ++ .storeCtx s c :: left → s.getSliceType = slice.getSliceType →
      ∀ st, mid.foldlM step store = .ok st → ¬Evicts st s slice.entry) →
    (store.m_stateBuf slice.getSliceType).find? slice.entry = some arr →
    post.foldlM step store = .ok store' →
    (store'.m_stateBuf slice.getSliceType).find? slice.entry = some arr := by
  intro post
  induction post with
  | nil =>
    intro store store' _ _ _ _ hfind hrun
    cases hrun
    exact hfind
  | cons op post ih =>
    intro store store' hinv hstd hquiet hkept hfind hrun
    rw [List.foldlM_cons] at hrun
    obtain ⟨store₁, h₁, hrun⟩ := bind_eq_ok hrun
    obtain ⟨store₁', h₁', hinv₁⟩ := step_ok hinv (hstd op List.mem_cons_self)
    obtain rfl : store₁' = store₁ := Except.ok.inj (h₁'.symm.trans h₁)
    have hfind₁ : (store₁'.m_stateBuf slice.getSliceType).find? slice.entry = some arr := by
      obtain ⟨hnot, hclear⟩ := hquiet op List.mem_cons_self
      cases op with
      | storeCtx s c =>
        by_cases hI : s.getSliceType = .I_SLICE
        · rw [step, storeCtx_I hI] at h₁
          cases h₁
          exact hfind
        · obtain ⟨buf, hbuf, _, _, hother⟩ := storeCtx_spec hinv (hstd _ List.mem_cons_self) hI
          rw [step, hbuf] at h₁
          cases h₁
          by_cases hte : s.getSliceType = slice.getSliceType
          · have hne : slice.entry ≠ s.entry := fun he => hnot ⟨hte, he.symm⟩
            have hev := hkept [] s c post rfl hte store rfl
            rw [hte] at hother ⊢
            simp only [update_self, (hother slice.entry hne).2 hev]
            exact hfind
          · simp only [update_of_ne (Ne.symm hte)]
            exact hfind
      | loadCtx s c =>
        rw [step] at h₁
        obtain ⟨_, _, h₁⟩ := bind_eq_ok h₁
        cases h₁
        exact hfind
      | clearValid => exact absurd rfl hclear
    refine ih hinv₁ (fun o ho => hstd o (List.mem_cons_of_mem _ ho))
      (fun o ho => hquiet o (List.mem_cons_of_mem _ ho)) (fun mid s c left hpost hte st hst => ?_) hfind₁ hrun
    refine hkept (op :: mid) s c left (by rw [hpost]; rfl) hte st ?_
    rw [List.foldlM_cons, h₁, ok_bind]
    exact hst

/-- What a state of the store is as a map. -/
structure BoundedMap (n : ℕ) (store : CtxStateStore) : Prop where
  size_le : ∀ t, (store.m_stateBuf t).size ≤ TEMP_CABAC_BUFFER_SIZE
  /-- A store succeeds and leaves the other slice types and, unless it evicts one, the other keys. -/
  stores : ∀ slice ctx, Std n ctx → ∃ store', store.storeCtx slice ctx = .ok store' ∧
    (∀ t, t ≠ slice.getSliceType ∨ slice.getSliceType = .I_SLICE → store'.m_stateBuf t = store.m_stateBuf t) ∧
    ∀ e, e ≠ slice.entry →
      (Evicts store slice e → (store'.m_stateBuf slice.getSliceType).find? e = none) ∧
      (¬Evicts store slice e → (store'.m_stateBuf slice.getSliceType).find? e =
        (store.m_stateBuf slice.getSliceType).find? e)
  absent : ∀ slice ctx, ¬Holds store slice → store.loadCtx slice ctx = .ok (false, ctx)

theorem Inv.boundedMap (h : Inv n store) : BoundedMap n store where
  size_le := h.size_le
  stores slice ctx hc := by
    by_cases ht : slice.getSliceType = .I_SLICE
    · refine ⟨store, storeCtx_I ht, fun _ _ => rfl, fun e _ => ⟨fun hev => absurd ht hev.1, fun _ => rfl⟩⟩
    · obtain ⟨buf, hbuf, _, _, hother⟩ := storeCtx_spec h hc ht
      refine ⟨_, hbuf, fun t hte => update_of_ne (hte.resolve_right ht) _ _, fun e he => ?_⟩
      simp only [update_self]
      exact hother e he
  absent slice ctx hnot := loadCtx_absent hnot ctx

/-- After any calls the store is a bounded map, and restores what was saved last under a
key that was neither cleared nor evicted since. -/
theorem contextStore_bounded (hops : ∀ op ∈ ops, op.Std n) :
    ∃ store, run ops = .ok store ∧ BoundedMap n store ∧
      ∀ pre slice saved post, ops = pre ++ .storeCtx slice saved :: post →
        slice.getSliceType ≠ .I_SLICE →
        (∀ op ∈ post, ¬op.Stores slice ∧ op ≠ .clearValid) →
        (∀ mid s c left, post = mid ++ .storeCtx s c :: left → s.getSliceType = slice.getSliceType →
          ∀ st, run (pre ++ .storeCtx slice saved :: mid) = .ok st → ¬Evicts st s slice.entry) →
        ∀ slice' ctx, slice'.getSliceType = slice.getSliceType → slice'.entry = slice.entry → Std n ctx →
          store.loadCtx slice' ctx = .ok (true, restored ctx saved) := by
  obtain ⟨store, hrun, hinv⟩ := run_ok hops
  refine ⟨store, hrun, hinv.boundedMap, ?_⟩
  intro pre slice saved post hsplit ht hquiet hkept slice' ctx hte he hc
  subst hsplit
  have hpre : ∀ op ∈ pre, op.Std n := fun op hop => hops op (List.mem_append_left _ hop)
  have hpost : ∀ op ∈ post, op.Std n :=
    fun op hop => hops op (List.mem_append_right _ (List.mem_cons_of_mem _ hop))
  have hsaved : Std n saved := hops (.storeCtx slice saved) (List.mem_append_right _ List.mem_cons_self)
  obtain ⟨before, hbefore, hinv₀⟩ := run_ok hpre
  obtain ⟨buf, hbuf, _, hself, _⟩ := storeCtx_spec hinv₀ hsaved ht
  have hinv₁ := storeCtx_inv hinv₀ hsaved hbuf
  have hfold (mid : List StoreOp) : run (pre ++ .storeCtx slice saved :: mid) =
      mid.foldlM step ⟨update before.m_stateBuf slice.getSliceType buf⟩ := by
    rw [run_append, hbefore, ok_bind, List.foldlM_cons, step, hbuf, ok_bind]
  rw [hfold] at hrun
  have hfind := foldlM_keeps hinv₁ hpost hquiet
    (fun mid s c left hmid hs st hst => hkept mid s c left hmid hs st ((hfold mid).trans hst))
    (by simpa using hself) hrun
  rw [← hte] at hfind ht
  rw [← he] at hfind
  exact loadCtx_restores hsaved hc ht hfind

/-- Two keys of P slices, one stored twice, and a B slice with the same key between. -/
theorem twoKeys_restored : ∃ store,
    run [.storeCtx ⟨.P_SLICE, 1, 30⟩ ⟨.BPM_Std, [.new]⟩,
      .storeCtx ⟨.P_SLICE, 1, 30⟩ ⟨.BPM_Std, [BinProbModel.new.update true]⟩,
      .storeCtx ⟨.B_SLICE, 1, 30⟩ ⟨.BPM_Std, [BinProbModel.new.update false]⟩,
      .storeCtx ⟨.P_SLICE, 2, 33⟩ ⟨.BPM_Std, [.new]⟩] = .ok store ∧
    BoundedMap 1 store ∧
    store.loadCtx ⟨.P_SLICE, 1, 30⟩ ⟨.BPM_Std, [.new]⟩ =
      .ok (true, restored ⟨.BPM_Std, [.new]⟩ ⟨.BPM_Std, [BinProbModel.new.update true]⟩) := by
  obtain ⟨store, hrun, hmap, hload⟩ := @contextStore_bounded 1
    [.storeCtx ⟨.P_SLICE, 1, 30⟩ ⟨.BPM_Std, [.new]⟩,
      .storeCtx ⟨.P_SLICE, 1, 30⟩ ⟨.BPM_Std, [BinProbModel.new.update true]⟩,
      .storeCtx ⟨.B_SLICE, 1, 30⟩ ⟨.BPM_Std, [BinProbModel.new.update false]⟩,
      .storeCtx ⟨.P_SLICE, 2, 33⟩ ⟨.BPM_Std, [.new]⟩] (by simp [StoreOp.Std, Std])
  refine ⟨store, hrun, hmap, hload [_] _ _ [_, _] rfl (by decide) ?_ ?_ _ _ rfl rfl ⟨rfl, rfl⟩⟩
  · simp [StoreOp.Stores, Slice.entry]
  · intro mid s c left hmid hs st hst hev
    obtain ⟨_, _, hsize, _⟩ := hev
    rcases mid with - | ⟨op, - | ⟨op', mid⟩⟩
    · cases hmid
      cases hs
    · cases hmid
      cases hst
      exact absurd hsize (by decide)
    · simp at hmid

end ECM.Cabac.ContextStore
