import Mathlib.Data.List.Basic
import Mathlib.Data.Nat.Notation
import Mathlib.Data.Set.Function
import Mathlib.Logic.Function.Basic

/-! # Counted loops

`loop n body s` runs `body 0`, ..., `body (n - 1)` on the state `s`. An invariant
`P i` that holds before the round `i` holds of the state the loop ends with. -/

namespace ECM.Lib.Loop

variable {ε σ : Type} {n : ℕ}

def loop {m : Type → Type} [Monad m] (body : ℕ → σ → m σ) : (n : ℕ) → σ → m σ
  | 0, s => pure s
  | n + 1, s => do
    let s ← loop body n s
    body n s

/-- `body lo`, ..., `body (hi - 1)`. -/
def forRange {m : Type → Type} [Monad m] (lo hi : ℕ) (body : ℕ → m Unit) : m Unit :=
  loop (fun k _ => body (lo + k)) (hi - lo) ()

variable {b : ℕ → σ → Except ε σ} {P : ℕ → σ → Prop} {s s' : σ}

theorem loop_succ_eq_ok (h : loop b (n + 1) s = .ok s') :
    ∃ t, loop b n s = .ok t ∧ b n t = .ok s' := by
  rw [loop] at h
  cases ht : loop b n s with
  | error e => rw [ht] at h; cases h
  | ok t => rw [ht] at h; exact ⟨t, rfl, h⟩

/-- Every round succeeds, and so does the loop. -/
theorem loop_total (hinit : P 0 s)
    (hstep : ∀ i < n, ∀ t, P i t → ∃ t', b i t = .ok t' ∧ P (i + 1) t') :
    ∃ s', loop b n s = .ok s' ∧ P n s' := by
  induction n with
  | zero => exact ⟨s, rfl, hinit⟩
  | succ n ih =>
    obtain ⟨t, ht, hP⟩ := ih fun i hi => hstep i (Nat.lt_succ_of_lt hi)
    obtain ⟨t', ht', hP'⟩ := hstep n (Nat.lt_succ_self n) t hP
    exact ⟨t', by rw [loop, ht]; exact ht', hP'⟩

/-- A loop without effects. -/
theorem loop_pure {m : Type → Type} [Monad m] [LawfulMonad m] {f : ℕ → σ → σ} (hinit : P 0 s)
    (hstep : ∀ i < n, ∀ t, P i t → P (i + 1) (f i t)) :
    ∃ s', loop (fun i t => (pure (f i t) : m σ)) n s = pure s' ∧ P n s' := by
  induction n with
  | zero => exact ⟨s, rfl, hinit⟩
  | succ n ih =>
    obtain ⟨t, ht, hP⟩ := ih fun i hi => hstep i (Nat.lt_succ_of_lt hi)
    exact ⟨f n t, by rw [loop, ht, pure_bind], hstep n (Nat.lt_succ_self n) t hP⟩

/-- A fold over the numbers below `n` is such a loop. -/
theorem foldl_range {f : σ → ℕ → σ} (hinit : P 0 s)
    (hstep : ∀ i < n, ∀ t, P i t → P (i + 1) (f t i)) : P n ((List.range n).foldl f s) := by
  induction n with
  | zero => exact hinit
  | succ n ih =>
    rw [List.range_succ, List.foldl_append]
    exact hstep n (Nat.lt_succ_self n) _ (ih fun i hi => hstep i (Nat.lt_succ_of_lt hi))

/-- A loop that ends ends with the invariant. -/
theorem loop_ok (hinit : P 0 s) (hstep : ∀ i < n, ∀ t t', P i t → b i t = .ok t' → P (i + 1) t')
    (h : loop b n s = .ok s') : P n s' := by
  induction n generalizing s' with
  | zero => cases h; exact hinit
  | succ n ih =>
    obtain ⟨t, ht, hbody⟩ := loop_succ_eq_ok h
    exact hstep n (Nat.lt_succ_self n) t s'
      (ih (fun i hi => hstep i (Nat.lt_succ_of_lt hi)) ht) hbody

/-- In a loop that ends every round ends. -/
theorem loop_rounds (hinit : P 0 s) (hstep : ∀ i < n, ∀ t t', P i t → b i t = .ok t' → P (i + 1) t')
    (h : loop b n s = .ok s') : ∀ i < n, ∃ t t', P i t ∧ b i t = .ok t' := by
  induction n generalizing s' with
  | zero => exact fun i hi => absurd hi (Nat.not_lt_zero i)
  | succ n ih =>
    intro i hi
    have hstep' : ∀ i < n, ∀ t t', P i t → b i t = .ok t' → P (i + 1) t' :=
      fun i hi => hstep i (Nat.lt_succ_of_lt hi)
    obtain ⟨t, ht, hbody⟩ := loop_succ_eq_ok h
    rcases Nat.lt_succ_iff_lt_or_eq.mp hi with hlt | rfl
    · exact ih hstep' ht i hlt
    · exact ⟨t, s', loop_ok hinit hstep' ht, hbody⟩

/-- A loop that throws throws in one of its rounds. -/
theorem loop_error {e : ε} (hinit : P 0 s)
    (hstep : ∀ i < n, ∀ t t', P i t → b i t = .ok t' → P (i + 1) t')
    (h : loop b n s = .error e) : ∃ i < n, ∃ t, P i t ∧ b i t = .error e := by
  induction n with
  | zero => cases h
  | succ n ih =>
    rw [loop] at h
    cases ht : loop b n s with
    | error e' =>
      rw [ht] at h
      cases h
      obtain ⟨i, hi, t, hP, hbody⟩ := ih (fun i hi => hstep i (Nat.lt_succ_of_lt hi)) ht
      exact ⟨i, Nat.lt_succ_of_lt hi, t, hP, hbody⟩
    | ok t =>
      rw [ht] at h
      exact ⟨n, Nat.lt_succ_self n, t,
        loop_ok hinit (fun i hi => hstep i (Nat.lt_succ_of_lt hi)) ht, h⟩

/-- Every result of a `mapM` that ends is that of an element. -/
theorem mapM_mem {α β : Type} {f : α → Except ε β} {xs : List α} {ys : List β} (h : xs.mapM f = .ok ys) :
    ∀ y ∈ ys, ∃ x ∈ xs, f x = .ok y := by
  induction xs generalizing ys with
  | nil =>
    cases h
    exact fun y hy => absurd hy List.not_mem_nil
  | cons x xs ih =>
    rw [List.mapM_cons] at h
    cases hx : f x with
    | error e => rw [hx] at h; cases h
    | ok y =>
      cases hxs : xs.mapM f with
      | error e => rw [hx, hxs] at h; cases h
      | ok ys' =>
        rw [hx, hxs] at h
        cases h
        intro y' hy'
        rcases List.mem_cons.mp hy' with rfl | hy'
        · exact ⟨x, List.mem_cons_self, hx⟩
        · obtain ⟨x', hx', heq⟩ := ih hxs y' hy'
          exact ⟨x', List.mem_cons_of_mem x hx', heq⟩

theorem mapM_ok {α β : Type} {f : α → Except ε β} {g : α → β} {xs : List α} (h : ∀ a ∈ xs, f a = .ok (g a)) :
    xs.mapM f = .ok (xs.map g) := by
  induction xs with
  | nil => rfl
  | cons a xs ih =>
    rw [List.mapM_cons, h a List.mem_cons_self, ih fun b hb => h b (List.mem_cons_of_mem a hb)]
    rfl

/-! ## Folds -/

section
variable {α : Type} {f : σ → α → Except ε σ} {xs : List α}

/-- A fold whose steps do not fail. -/
theorem foldlM_ok {g : σ → α → σ} (h : ∀ a ∈ xs, ∀ s, f s a = .ok (g s a)) (s : σ) :
    xs.foldlM f s = .ok (xs.foldl g s) := by
  induction xs generalizing s with
  | nil => rfl
  | cons a xs ih =>
    rw [List.foldlM_cons, h a List.mem_cons_self, List.foldl_cons]
    exact ih (fun b hb => h b (List.mem_cons_of_mem a hb)) (g s a)

/-- A fold with a step that fails on every state. -/
theorem foldlM_error {a : α} (ha : a ∈ xs) (h : ∀ s, ∃ e, f s a = .error e) (s : σ) :
    ∃ e, xs.foldlM f s = .error e := by
  induction xs generalizing s with
  | nil => exact absurd ha List.not_mem_nil
  | cons b xs ih =>
    rw [List.foldlM_cons]
    cases hb : f s b with
    | error e => exact ⟨e, rfl⟩
    | ok s' =>
      rcases List.mem_cons.mp ha with rfl | ha
      · obtain ⟨e, he⟩ := h s
        rw [he] at hb
        cases hb
      · exact ih ha s'

end

section
variable {ι α β : Type} [DecidableEq ι] {key : α → ι} {val : α → β} {xs : List α} {i : ι}

/-- Assignments leave the other places alone. -/
theorem foldl_assign_of_notMem (t : ι → β) (h : i ∉ xs.map key) :
    xs.foldl (fun t a => Function.update t (key a) (val a)) t i = t i := by
  induction xs generalizing t with
  | nil => rfl
  | cons a xs ih =>
    rw [List.map_cons, List.mem_cons, not_or] at h
    rw [List.foldl_cons, ih _ h.2, Function.update_of_ne h.1]

/-- An assignment to a place that no other one is made to. -/
theorem foldl_assign_of_mem {a : α} (t : ι → β) (hnodup : (xs.map key).Nodup) (h : a ∈ xs) :
    xs.foldl (fun t a => Function.update t (key a) (val a)) t (key a) = val a := by
  induction xs generalizing t with
  | nil => exact absurd h List.not_mem_nil
  | cons b xs ih =>
    rw [List.map_cons, List.nodup_cons] at hnodup
    rw [List.foldl_cons]
    rcases List.mem_cons.mp h with rfl | h
    · rw [foldl_assign_of_notMem _ hnodup.1, Function.update_self]
    · exact ih _ hnodup.2 h

end

section
variable {ι β : Type} [DecidableEq ι] {f : ι → β → β} {i : ι}

theorem foldl_update_of_notMem {keys : List ι} (t : ι → β) (h : i ∉ keys) :
    keys.foldl (fun t k => Function.update t k (f k (t k))) t i = t i := by
  induction keys generalizing t with
  | nil => rfl
  | cons k keys ih =>
    rw [List.mem_cons, not_or] at h
    rw [List.foldl_cons, ih _ h.2, Function.update_of_ne h.1]

/-- An entry that is visited has what a visit leaves, whatever it was. -/
theorem foldl_update_of_mem {P : β → Prop} {keys : List ι} (t : ι → β) (hP : ∀ b, P (f i b)) (h : i ∈ keys) :
    P (keys.foldl (fun t k => Function.update t k (f k (t k))) t i) := by
  induction keys generalizing t with
  | nil => exact absurd h List.not_mem_nil
  | cons k keys ih =>
    rw [List.foldl_cons]
    by_cases hmem : i ∈ keys
    · exact ih _ hmem
    · obtain rfl := (List.mem_cons.mp h).resolve_right hmem
      rw [foldl_update_of_notMem _ hmem, Function.update_self]
      exact hP _

end

/-! ## Loops over integers -/

/-- `body lo`, ..., `body (hi - 1)`. -/
def forTo (lo hi : ℤ) (body : σ → ℤ → σ) (s : σ) : σ :=
  (List.range (hi - lo).toNat).foldl (fun s (k : ℕ) => body s (lo + k)) s

theorem forTo_inv {lo hi : ℤ} {body : σ → ℤ → σ} {P : ℤ → σ → Prop} (h : lo ≤ hi) (hinit : P lo s)
    (hstep : ∀ x, lo ≤ x → x < hi → ∀ t, P x t → P (x + 1) (body t x)) : P hi (forTo lo hi body s) := by
  have hend : lo + ((hi - lo).toNat : ℤ) = hi := by omega
  have hfold := @foldl_range σ (hi - lo).toNat (fun k t => P (lo + (k : ℤ)) t) s
    (fun s k => body s (lo + k)) (by simpa using hinit) fun k hk t ht => by
      have hnext := hstep (lo + (k : ℤ)) (by omega) (by omega) t ht
      rwa [Int.add_assoc] at hnext
  rwa [hend] at hfold

/-- `f'` has the values of `f` on `D`, and those of `g` elsewhere. -/
structure Replaced {α β : Type} (D : Set α) (f g f' : α → β) : Prop where
  inside : Set.EqOn f' f D
  outside : Set.EqOn f' g Dᶜ

section
variable {α β : Type} {D E : Set α} {f g g' f' : α → β}

theorem Replaced.none (f g : α → β) : Replaced ∅ f g g :=
  ⟨Set.eqOn_empty _ _, fun _ _ => rfl⟩

theorem Replaced.trans (h : Replaced D f g g') (h' : Replaced E f g' f') : Replaced (D ∪ E) f g f' where
  inside a ha := by
    by_cases hE : a ∈ E
    · exact h'.inside hE
    · exact (h'.outside hE).trans (h.inside (ha.resolve_right hE))
  outside a ha :=
    (h'.outside fun hE => ha (.inr hE)).trans (h.outside fun hD => ha (.inl hD))

theorem Replaced.update [DecidableEq α] (f g : α → β) (a : α) : Replaced {a} f g (Function.update g a (f a)) where
  inside := by
    rintro b rfl
    exact Function.update_self b (f b) g
  outside b hb := Function.update_of_ne hb (f a) g

/-- A loop whose round `x` replaces the values on `D x`. -/
theorem forTo_replaced {lo hi : ℤ} {body : σ → ℤ → σ} {J : ℤ → σ → Prop} {res : σ → α → β} {D : ℤ → Set α}
    (h : lo ≤ hi) (hinit : J lo s) (hstep : ∀ x, lo ≤ x → x < hi → ∀ t, J x t →
      J (x + 1) (body t x) ∧ Replaced (D x) f (res t) (res (body t x))) :
    J hi (forTo lo hi body s) ∧
      Replaced {a | ∃ x, lo ≤ x ∧ x < hi ∧ a ∈ D x} f (res s) (res (forTo lo hi body s)) := by
  refine @forTo_inv σ s lo hi body (fun x t =>
    J x t ∧ Replaced {a | ∃ y, lo ≤ y ∧ y < x ∧ a ∈ D y} f (res s) (res t)) h ⟨hinit, ?_⟩ fun x hlo hhi t ht => ?_
  · have hempty : {a | ∃ y, lo ≤ y ∧ y < lo ∧ a ∈ D y} = (∅ : Set α) :=
      Set.eq_empty_of_forall_notMem fun a ⟨y, hy, hy', _⟩ => absurd hy' (not_lt.mpr hy)
    rw [hempty]
    exact .none f (res s)
  · obtain ⟨hJ, hD⟩ := hstep x hlo hhi t ht.1
    have hsplit : {a | ∃ y, lo ≤ y ∧ y < x + 1 ∧ a ∈ D y} = {a | ∃ y, lo ≤ y ∧ y < x ∧ a ∈ D y} ∪ D x := by
      ext a
      constructor
      · rintro ⟨y, hy, hy', ha⟩
        rcases Int.lt_or_eq_of_le (Int.lt_add_one_iff.mp hy') with hlt | rfl
        · exact .inl ⟨y, hy, hlt, ha⟩
        · exact .inr ha
      · rintro (⟨y, hy, hy', ha⟩ | ha)
        · exact ⟨y, hy, by omega, ha⟩
        · exact ⟨x, hlo, by omega, ha⟩
    exact ⟨hJ, hsplit ▸ ht.2.trans hD⟩

end

/-! ## Loops with a condition -/

/-- `while (cond(s)) body(s)`, stopped with `running` after `fuel` rounds that did not end it. -/
def whileLoop (running : σ → ε) (cond : σ → Bool) (body : σ → Except ε σ) : (fuel : ℕ) → σ → Except ε σ
  | 0, s => if cond s then .error (running s) else .ok s
  | fuel + 1, s =>
    if cond s then do
      let s ← body s
      whileLoop running cond body fuel s
    else .ok s

/-- What `f` gives for every number of rounds that is large enough. -/
def Settles {α : Type} (f : ℕ → Except ε α) (r : Except ε α) : Prop := ∃ n, ∀ fuel, n < fuel → f fuel = r

section
variable {α β : Type} {f : ℕ → Except ε α} {g : ℕ → α → Except ε β} {r r' : Except ε α} {q : Except ε β}

theorem settles_const (r : Except ε α) : Settles (fun _ => r) r := ⟨0, fun _ _ => rfl⟩

theorem Settles.unique (h : Settles f r) (h' : Settles f r') : r = r' := by
  obtain ⟨n, hn⟩ := h
  obtain ⟨n', hn'⟩ := h'
  have hmax := hn (max n n' + 1) (Nat.lt_succ_of_le (Nat.le_max_left n n'))
  rw [← hmax]
  exact hn' _ (Nat.lt_succ_of_le (Nat.le_max_right n n'))

theorem Settles.bind {a : α} (h : Settles f (.ok a)) (hg : Settles (fun fuel => g fuel a) q) :
    Settles (fun fuel => f fuel >>= g fuel) q := by
  obtain ⟨n, hn⟩ := h
  obtain ⟨n', hn'⟩ := hg
  refine ⟨max n n', fun fuel hfuel => ?_⟩
  obtain ⟨hlt, hlt'⟩ := Nat.max_lt.mp hfuel
  dsimp only
  rw [hn fuel hlt]
  exact hn' fuel hlt'

theorem Settles.bind_error {e : ε} (h : Settles f (.error e)) :
    Settles (fun fuel => f fuel >>= g fuel) (.error e) := by
  obtain ⟨n, hn⟩ := h
  refine ⟨n, fun fuel hfuel => ?_⟩
  dsimp only
  rw [hn fuel hfuel]
  rfl

end

/-- The loop ends where every round keeps the invariant `I` and makes the size smaller, or
throws an error `E`. -/
theorem whileLoop_settles {running : σ → ε} {cond : σ → Bool} {body : σ → Except ε σ} {I : σ → Prop}
    {E : ε → Prop} (size : σ → ℕ) (hbody : ∀ s, I s → cond s = true →
      (∃ s', body s = .ok s' ∧ I s' ∧ size s' < size s) ∨ ∃ e, body s = .error e ∧ E e) (hs : I s) :
    (∃ s', Settles (fun fuel => whileLoop running cond body fuel s) (.ok s') ∧ I s' ∧ cond s' = false) ∨
      ∃ e, Settles (fun fuel => whileLoop running cond body fuel s) (.error e) ∧ E e := by
  induction hsize : size s using Nat.strongRecOn generalizing s with
  | _ n ih =>
    have hround : ∀ {r}, Settles (fun fuel => body s >>= whileLoop running cond body fuel) r → cond s = true →
        Settles (fun fuel => whileLoop running cond body fuel s) r := by
      rintro r ⟨m, hm⟩ hc
      refine ⟨m + 1, fun fuel hfuel => ?_⟩
      obtain ⟨k, rfl⟩ := Nat.exists_eq_add_of_lt hfuel
      change whileLoop running cond body (m + 1 + k + 1) s = r
      rw [whileLoop, if_pos hc]
      exact hm _ (by omega)
    cases hc : cond s with
    | false =>
      refine .inl ⟨s, ⟨0, fun fuel _ => ?_⟩, hs, hc⟩
      cases fuel <;> simp [whileLoop, hc]
    | true =>
      rcases hbody s hs hc with ⟨s', hs', hI, hlt⟩ | ⟨e, he, hE⟩
      · have hnext : Settles (fun _ => body s) (.ok s') := hs' ▸ settles_const _
        rcases ih (size s') (hsize ▸ hlt) hI rfl with ⟨t, ht, hIt, hct⟩ | ⟨e, he, hE⟩
        · exact .inl ⟨t, hround (hnext.bind ht) hc, hIt, hct⟩
        · exact .inr ⟨e, hround (hnext.bind he) hc, hE⟩
      · have hthrow : Settles (fun _ => body s) (.error e) := he ▸ settles_const _
        exact .inr ⟨e, hround hthrow.bind_error hc, hE⟩

end ECM.Lib.Loop
