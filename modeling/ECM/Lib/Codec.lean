import ECM.Lib.Loop
import Mathlib.Data.List.Forall2

/-! # Writers and readers of symbols

A writer puts out symbols, a reader takes them from the front of a list, and either
may throw. `RoundTrips` relates a writer to the reader of what it writes: it takes
exactly the symbols that were put out, whatever follows them. -/

namespace ECM.Lib.Codec
open Lib.Loop

/-- A writer: what it returns, and the symbols it puts out. -/
def Put (ε σ α : Type) : Type := Except ε (α × List σ)

/-- A reader: it takes symbols from the front. -/
abbrev Get (ε σ : Type) : Type → Type := StateT (List σ) (Except ε)

variable {ε σ α β γ δ : Type}

namespace Put

def bind (w : Put ε σ α) (f : α → Put ε σ β) : Put ε σ β :=
  match w with
  | .error e => .error e
  | .ok (a, xs) =>
    match f a with
    | .error e => .error e
    | .ok (b, ys) => .ok (b, xs ++ ys)

instance : Monad (Put ε σ) where
  pure a := .ok (a, [])
  bind := bind

instance : MonadLift (Except ε) (Put ε σ) where
  monadLift
    | .error e => .error e
    | .ok a => .ok (a, [])

/-- The symbols of a writer. -/
def symbols (w : Put ε σ α) : Except ε (List σ) :=
  match w with
  | .error e => .error e
  | .ok (_, xs) => .ok xs

/-- Puts out the symbols `xs`. -/
def emit (xs : List σ) : Put ε σ Unit := .ok ((), xs)

theorem lift_ok_bind (a : α) (f : α → Put ε σ β) :
    ((liftM (Except.ok a : Except ε α) : Put ε σ α) >>= f) = f a := by
  change bind (.ok (a, [])) f = f a
  rw [bind]
  cases f a with
  | error e => rfl
  | ok p => rfl

theorem pure_bind (a : α) (f : α → Put ε σ β) : ((pure a : Put ε σ α) >>= f) = f a := lift_ok_bind a f

theorem bind_assoc (w : Put ε σ α) (f : α → Put ε σ β) (g : β → Put ε σ γ) :
    w >>= f >>= g = w >>= fun a => f a >>= g := by
  change bind (bind w f) g = bind w fun a => bind (f a) g
  cases w with
  | error e => rfl
  | ok p =>
    rw [bind, bind]
    cases f p.1 with
    | error e => rfl
    | ok q =>
      simp only [bind]
      cases g q.1 with
      | error e => rfl
      | ok r => exact congrArg (fun xs => Except.ok (r.1, xs)) (List.append_assoc _ _ _)

theorem forM_eq_pure {xs : List α} {f : α → Put ε σ Unit} (h : ∀ x ∈ xs, f x = pure ()) :
    xs.forM f = pure () := by
  induction xs with
  | nil => rfl
  | cons x xs ih =>
    change (f x >>= fun _ => xs.forM f) = pure ()
    rw [h x List.mem_cons_self, pure_bind, ih fun y hy => h y (List.mem_cons_of_mem _ hy)]

end Put

/-! ## Round trips -/

variable {strict : Prop} {w : Put ε σ α} {r : Get ε σ β} {Q R : α → β → Prop}

/-- When the writer returns, the reader takes what was put out and returns something
that `Q` relates to what the writer returned. A strict round trip has a writer that
always returns. -/
def RoundTrips (strict : Prop) (w : Put ε σ α) (r : Get ε σ β) (Q : α → β → Prop) : Prop :=
  match w with
  | .error _ => ¬strict
  | .ok (a, xs) => ∃ b, Q a b ∧ ∀ rest, r (xs ++ rest) = .ok (b, rest)

theorem RoundTrips.mono (h : RoundTrips strict w r Q) (hQ : ∀ a b, Q a b → R a b) :
    RoundTrips strict w r R := by
  cases w with
  | error e => exact h
  | ok p =>
    obtain ⟨b, hb, hr⟩ := h
    exact ⟨b, hQ _ _ hb, hr⟩

theorem roundTrips_pure {a : α} {b : β} (h : Q a b) :
    RoundTrips strict (pure a : Put ε σ α) (pure b : Get ε σ β) Q :=
  ⟨b, h, fun _ => rfl⟩

/-- One after the other. -/
theorem roundTrips_bind {f : α → Put ε σ γ} {g : β → Get ε σ δ} {S : γ → δ → Prop}
    (h : RoundTrips strict w r Q) (hf : ∀ a b, Q a b → RoundTrips strict (f a) (g b) S) :
    RoundTrips strict (w >>= f) (r >>= g) S := by
  cases w with
  | error e => exact h
  | ok p =>
    obtain ⟨a, xs⟩ := p
    obtain ⟨b, hb, hr⟩ := h
    have hrest := hf a b hb
    change RoundTrips strict (Put.bind (.ok (a, xs)) f) (r >>= g) S
    rw [Put.bind]
    cases hfa : f a with
    | error e =>
      rw [hfa] at hrest
      exact hrest
    | ok q =>
      obtain ⟨c, ys⟩ := q
      rw [hfa] at hrest
      obtain ⟨d, hd, hg⟩ := hrest
      refine ⟨d, hd, fun rest => ?_⟩
      change (r (xs ++ ys ++ rest) >>= fun p => g p.1 p.2) = .ok (d, rest)
      rw [List.append_assoc, hr]
      exact hg rest

/-- What the reader makes of it in the end. -/
theorem RoundTrips.then_right {g : β → Get ε σ δ} {S : α → δ → Prop} (h : RoundTrips strict w r Q)
    (hg : ∀ a b, Q a b → ∃ d, g b = pure d ∧ S a d) : RoundTrips strict w (r >>= g) S := by
  cases w with
  | error e => exact h
  | ok p =>
    obtain ⟨b, hb, hr⟩ := h
    obtain ⟨d, hd, hS⟩ := hg _ b hb
    refine ⟨d, hS, fun rest => ?_⟩
    change (r (p.2 ++ rest) >>= fun q => g q.1 q.2) = .ok (d, rest)
    rw [hr]
    change g b rest = _
    rw [hd]
    rfl

/-- A computation of the writer alone. -/
theorem roundTrips_lift_left {c : Except ε α} {f : α → Put ε σ γ} {g : Get ε σ δ} {S : γ → δ → Prop}
    (herror : ∀ e, c = .error e → ¬strict) (h : ∀ a, c = .ok a → RoundTrips strict (f a) g S) :
    RoundTrips strict ((liftM c : Put ε σ α) >>= f) g S := by
  cases hc : c with
  | error e => exact herror e hc
  | ok a =>
    have hf := h a hc
    change RoundTrips strict (Put.bind (.ok (a, [])) f) g S
    rw [Put.bind]
    cases hfa : f a with
    | error e =>
      rw [hfa] at hf
      exact hf
    | ok q =>
      rw [hfa] at hf
      exact hf

/-- A computation of the writer alone, and nothing after it. -/
theorem roundTrips_lift {c : Except ε α} {b : β} (herror : ∀ e, c = .error e → ¬strict)
    (h : ∀ a, c = .ok a → Q a b) :
    RoundTrips strict (liftM c : Put ε σ α) (pure b : Get ε σ β) Q := by
  cases hc : c with
  | error e => exact herror e hc
  | ok a => exact roundTrips_pure (h a hc)

/-- A computation of the reader alone. -/
theorem roundTrips_lift_right {c : Except ε β} {b : β} {w : Put ε σ γ} {g : β → Get ε σ δ}
    {S : γ → δ → Prop} (hc : c = .ok b) (h : RoundTrips strict w (g b) S) :
    RoundTrips strict w ((liftM c : Get ε σ β) >>= g) S := by
  subst hc
  cases w with
  | error e => exact h
  | ok p =>
    obtain ⟨d, hd, hg⟩ := h
    exact ⟨d, hd, hg⟩

theorem roundTrips_ite {c d : Prop} [Decidable c] [Decidable d] {w' : Put ε σ α} {r' : Get ε σ β}
    (hiff : c ↔ d) (h : c → RoundTrips strict w r Q) (h' : ¬c → RoundTrips strict w' r' Q) :
    RoundTrips strict (if c then w else w') (if d then r else r') Q := by
  by_cases hc : c
  · rw [if_pos hc, if_pos (hiff.mp hc)]
    exact h hc
  · rw [if_neg hc, if_neg (mt hiff.mpr hc)]
    exact h' hc

/-- Loops of as many rounds, with an invariant that relates the two states. -/
theorem roundTrips_loop {n : ℕ} {f : ℕ → α → Put ε σ α} {g : ℕ → β → Get ε σ β}
    {P : ℕ → α → β → Prop} {a : α} {b : β} (hinit : P 0 a b)
    (hstep : ∀ i < n, ∀ a b, P i a b → RoundTrips strict (f i a) (g i b) (P (i + 1))) :
    RoundTrips strict (loop f n a) (loop g n b) (P n) := by
  induction n with
  | zero => exact roundTrips_pure hinit
  | succ n ih =>
    exact roundTrips_bind (ih fun i hi => hstep i (Nat.lt_succ_of_lt hi))
      (hstep n (Nat.lt_succ_self n))

/-- A list written and read item by item. -/
theorem roundTrips_mapM {f : α → Put ε σ Unit} {g : β → Get ε σ δ} {S : α → δ → Prop} {xs : List α}
    {ys : List β} (h : List.Forall₂ (fun x y => RoundTrips strict (f x) (g y) fun _ d => S x d) xs ys) :
    RoundTrips strict (xs.forM f) (ys.mapM g) fun _ ds => List.Forall₂ S xs ds := by
  induction h with
  | nil =>
    rw [List.mapM_nil]
    exact roundTrips_pure .nil
  | cons hxy _ ih =>
    rw [List.mapM_cons]
    exact roundTrips_bind hxy fun _ d hd =>
      ih.then_right fun _ ds hds => ⟨d :: ds, rfl, .cons hd hds⟩

/-- A list written and read item by item, where each item is reproduced up to `v`. -/
theorem roundTrips_map {f : α → Put ε σ Unit} {g : β → Get ε σ δ} {v : α → δ} {xs : List α} {ys : List β}
    (h : List.Forall₂ (fun x y => RoundTrips strict (f x) (g y) fun _ d => d = v x) xs ys) :
    RoundTrips strict (xs.forM f) (ys.mapM g) fun _ ds => ds = xs.map v :=
  (roundTrips_mapM h).mono fun _ ds hds => by
    have heq : List.Forall₂ (· = ·) (xs.map v) ds :=
      List.forall₂_map_left_iff.mpr (hds.imp fun _ _ hd => hd.symm)
    rw [List.forall₂_eq_eq_eq] at heq
    exact heq.symm

/-- A loop over a list; the invariant says what holds when the items of a prefix are done. -/
theorem roundTrips_foldlM {f : α → Put ε σ Unit} {g : β → α → Get ε σ β} {P : List α → β → Prop}
    {xs : List α} {b : β} (hinit : P [] b) (hstep : ∀ done x b, (∃ left, xs = done ++ x :: left) → P done b →
      RoundTrips strict (f x) (g b x) fun _ b' => P (done ++ [x]) b') :
    RoundTrips strict (xs.forM f) (xs.foldlM g b) fun _ b' => P xs b' := by
  have hrun : ∀ left done b, xs = done ++ left → P done b →
      RoundTrips strict (left.forM f) (left.foldlM g b) fun _ b' => P xs b' := by
    intro left
    induction left with
    | nil =>
      intro done b hxs hP
      rw [List.append_nil] at hxs
      exact roundTrips_pure (by rwa [hxs])
    | cons x left ih =>
      intro done b hxs hP
      rw [List.foldlM_cons]
      exact roundTrips_bind (hstep done x b ⟨left, hxs⟩ hP) fun _ b' hP' =>
        ih (done ++ [x]) b' (by rw [hxs, List.append_assoc]; rfl) hP'
  exact hrun xs [] b rfl hinit

/-! ## Runs -/

/-- What a strict round trip says of the run. -/
theorem RoundTrips.run (h : RoundTrips True w r Q) :
    ∃ a xs, w = .ok (a, xs) ∧ ∃ b, Q a b ∧ ∀ rest, r (xs ++ rest) = .ok (b, rest) := by
  cases w with
  | error e => exact absurd trivial h
  | ok p => exact ⟨p.1, p.2, rfl, h⟩

/-! ## Results of a reader -/

namespace Get

/-- Whatever is read, the reader returns only what `P` holds for. -/
def Returns (r : Get ε σ α) (P : α → Prop) : Prop := ∀ xs a rest, r xs = .ok (a, rest) → P a

variable {P P' : α → Prop} {T : β → Prop} {r : Get ε σ α} {f : α → Get ε σ β}

theorem returns_any (r : Get ε σ α) : Returns r fun _ => True := fun _ _ _ _ => trivial

theorem returns_pure {a : α} (h : P a) : Returns (pure a : Get ε σ α) P := by
  intro xs a' rest hr
  cases hr
  exact h

theorem returns_bind (hr : Returns r P) (hf : ∀ a, P a → Returns (f a) T) : Returns (r >>= f) T := by
  intro xs b rest hrun
  change (r xs >>= fun p => f p.1 p.2) = _ at hrun
  cases hx : r xs with
  | error e =>
    rw [hx] at hrun
    cases hrun
  | ok p =>
    rw [hx] at hrun
    exact hf p.1 (hr xs p.1 p.2 hx) p.2 b rest hrun

theorem returns_then (hf : ∀ a, Returns (f a) T) : Returns (r >>= f) T :=
  returns_bind (returns_any r) fun a _ => hf a

theorem returns_lift {c : Except ε α} (h : ∀ a, c = .ok a → P a) : Returns (liftM c : Get ε σ α) P := by
  intro xs a rest hrun
  cases c with
  | error e => cases hrun
  | ok a' =>
    cases hrun
    exact h a rfl

theorem returns_ite {c : Prop} [Decidable c] {r' : Get ε σ α} (h : c → Returns r P) (h' : ¬c → Returns r' P) :
    Returns (if c then r else r') P := by
  by_cases hc : c
  · rw [if_pos hc]
    exact h hc
  · rw [if_neg hc]
    exact h' hc

theorem Returns.mono (h : Returns r P) (hP : ∀ a, P a → P' a) : Returns r P' :=
  fun xs a rest hrun => hP a (h xs a rest hrun)

end Get

end ECM.Lib.Codec
