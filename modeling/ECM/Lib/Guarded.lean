import ECM.Lib.Codec

/-! # Readers with guarded accesses

A guard stands before an access and throws an error of its own when the access is not allowed. A reader
with guards gives what the reader without them gives, unless a guard throws. -/

namespace ECM.Lib.Guarded
open Lib.Codec Lib.Loop

variable {ε σ α β : Type} {e : ε}

/-- Throws `e` unless `p`. -/
def allowed (e : ε) (p : Prop) [Decidable p] : Get ε σ Unit := fun xs => if p then .ok ((), xs) else .error e

theorem bind_apply (r : Get ε σ α) (f : α → Get ε σ β) (xs : List σ) :
    (r >>= f) xs = r xs >>= fun p => f p.1 p.2 := rfl

/-! ## What never throws the error -/

/-- Whatever is read, `e` is not thrown, and `Q` holds of what is returned. -/
structure Avoids (e : ε) (r : Get ε σ α) (Q : α → Prop) : Prop where
  ne_error : ∀ xs, r xs ≠ .error e
  returns : Get.Returns r Q

variable {r r' : Get ε σ α} {Q R : α → Prop} {S : β → Prop} {f f' : α → Get ε σ β}

theorem Avoids.mono (h : Avoids e r Q) (hQ : ∀ a, Q a → R a) : Avoids e r R := ⟨h.ne_error, h.returns.mono hQ⟩

theorem avoids_pure {a : α} (h : Q a) : Avoids e (pure a : Get ε σ α) Q := ⟨nofun, Get.returns_pure h⟩

theorem avoids_bind (h : Avoids e r Q) (hf : ∀ a, Q a → Avoids e (f a) S) : Avoids e (r >>= f) S := by
  refine ⟨fun xs => ?_, Get.returns_bind h.returns fun a ha => (hf a ha).returns⟩
  rw [bind_apply]
  cases hr : r xs with
  | error e' =>
    intro herror
    have heq : (Except.error e' : Except ε (β × List σ)) = .error e := herror
    exact h.ne_error xs (by rw [hr, Except.error.inj heq])
  | ok p => exact (hf p.1 (h.returns xs p.1 p.2 hr)).ne_error p.2

theorem avoids_throw {e' : ε} (h : e' ≠ e) : Avoids e (throw e' : Get ε σ α) Q :=
  ⟨fun _ hthrow => h (Except.error.inj hthrow), nofun⟩

theorem avoids_lift {c : Except ε α} (h : ∀ e', c = .error e' → e' ≠ e) (hQ : ∀ a, c = .ok a → Q a) :
    Avoids e (liftM c : Get ε σ α) Q := by
  cases hc : c with
  | error e' => exact avoids_throw (h e' hc)
  | ok a => exact avoids_pure (hQ a hc)

theorem avoids_ite {c : Prop} [Decidable c] (h : c → Avoids e r Q) (h' : ¬c → Avoids e r' Q) :
    Avoids e (if c then r else r') Q := by
  by_cases hc : c
  · rw [if_pos hc]
    exact h hc
  · rw [if_neg hc]
    exact h' hc

theorem avoids_allowed {p : Prop} [Decidable p] (h : p) : Avoids e (allowed e p : Get ε σ Unit) fun _ => True :=
  ⟨fun xs => by rw [allowed, if_pos h]; exact nofun, Get.returns_any _⟩

theorem avoids_loop {n : ℕ} {g : ℕ → α → Get ε σ α} {P : ℕ → α → Prop} {a : α} (hinit : P 0 a)
    (hstep : ∀ i < n, ∀ a, P i a → Avoids e (g i a) (P (i + 1))) : Avoids e (loop g n a) (P n) := by
  induction n with
  | zero => exact avoids_pure hinit
  | succ n ih => exact avoids_bind (ih fun i hi => hstep i (Nat.lt_succ_of_lt hi)) (hstep n (Nat.lt_succ_self n))

theorem avoids_foldlM {g : β → α → Get ε σ β} {P : β → Prop} {xs : List α} {b : β} (hinit : P b)
    (hstep : ∀ x ∈ xs, ∀ b, P b → Avoids e (g b x) P) : Avoids e (xs.foldlM g b) P := by
  induction xs generalizing b with
  | nil => exact avoids_pure hinit
  | cons x xs ih =>
    rw [List.foldlM_cons]
    exact avoids_bind (hstep x List.mem_cons_self b hinit) fun b' hb' =>
      ih hb' fun y hy => hstep y (List.mem_cons_of_mem x hy)

/-! ## Readers that differ in guards alone -/

/-- `r` gives what `r'` gives, or throws `e`. -/
def Guards (e : ε) (r r' : Get ε σ α) : Prop := ∀ xs, r xs ≠ .error e → r xs = r' xs

theorem guards_refl (e : ε) (r : Get ε σ α) : Guards e r r := fun _ _ => rfl

theorem guards_bind (h : Guards e r r') (hf : ∀ a, Guards e (f a) (f' a)) : Guards e (r >>= f) (r' >>= f') := by
  intro xs hxs
  rw [bind_apply] at hxs ⊢
  have hr : r xs ≠ .error e := by
    intro herror
    rw [herror] at hxs
    exact hxs rfl
  rw [bind_apply, ← h xs hr]
  cases hcase : r xs with
  | error e' => rfl
  | ok p =>
    rw [hcase] at hxs
    exact hf p.1 p.2 hxs

theorem guards_allowed {p : Prop} [Decidable p] (h : Guards e r r') :
    Guards e ((allowed e p : Get ε σ Unit) >>= fun _ => r) r' := by
  intro xs hxs
  rw [bind_apply, allowed] at hxs ⊢
  by_cases hp : p
  · rw [if_pos hp] at hxs ⊢
    exact h xs hxs
  · rw [if_neg hp] at hxs
    exact absurd rfl hxs

theorem guards_ite {c : Prop} [Decidable c] {s s' : Get ε σ α} (h : Guards e r r') (h' : Guards e s s') :
    Guards e (if c then r else s) (if c then r' else s') := by
  by_cases hc : c
  · rw [if_pos hc, if_pos hc]
    exact h
  · rw [if_neg hc, if_neg hc]
    exact h'

theorem guards_loop {n : ℕ} {g g' : ℕ → α → Get ε σ α} (h : ∀ i a, Guards e (g i a) (g' i a)) (a : α) :
    Guards e (loop g n a) (loop g' n a) := by
  induction n with
  | zero => exact guards_refl e _
  | succ n ih => exact guards_bind ih (h n)

theorem guards_foldlM {g g' : β → α → Get ε σ β} (h : ∀ b x, Guards e (g b x) (g' b x)) (xs : List α) (b : β) :
    Guards e (xs.foldlM g b) (xs.foldlM g' b) := by
  induction xs generalizing b with
  | nil => exact guards_refl e _
  | cons x xs ih =>
    rw [List.foldlM_cons, List.foldlM_cons]
    exact guards_bind (h b x) ih

/-! ## When the error is thrown -/

/-- It is thrown by the first part alone, where the second one avoids it. -/
theorem bind_eq_error_iff (hf : ∀ a, Avoids e (f a) S) (xs : List σ) : (r >>= f) xs = .error e ↔ r xs = .error e := by
  rw [bind_apply]
  cases hr : r xs with
  | error e' =>
    change (Except.error e' : Except ε (β × List σ)) = .error e ↔ _
    rw [Except.error.injEq, Except.error.injEq]
  | ok p => exact iff_of_false ((hf p.1).ne_error p.2) nofun

/-- A loop that has thrown an error does not go on. -/
theorem loop_eq_error {n m : ℕ} {g : ℕ → α → Get ε σ α} {a : α} {xs : List σ} {e' : ε} (h : loop g m a xs = .error e')
    (hmn : m ≤ n) : loop g n a xs = .error e' := by
  obtain ⟨k, rfl⟩ := Nat.exists_eq_add_of_le hmn
  clear hmn
  induction k with
  | zero => exact h
  | succ k ih =>
    rw [← Nat.add_assoc, loop, bind_apply, ih]
    rfl

end ECM.Lib.Guarded
