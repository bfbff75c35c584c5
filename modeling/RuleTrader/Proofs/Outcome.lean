import Mathlib.Data.List.Forall2

/-!
# Results that may be faults

How a chain of steps that may each fail came to its result.
-/

namespace RuleTrader

variable {ε α β : Type}

/-- A chain that has a result has one after its first step. -/
theorem bind_ok {x : Except ε α} {f : α → Except ε β} {b : β} (h : x >>= f = .ok b) :
    ∃ a, x = .ok a ∧ f a = .ok b := by
  cases x with
  | error fault => cases h
  | ok a => exact ⟨a, rfl, h⟩

/-- Chains have related results if the rest of the chain has, whatever the first step gives. -/
theorem bind_eq_map {γ : Type} {x : Except ε α} {f : α → Except ε β} {f' : α → Except ε γ}
    {g : β → γ} (h : ∀ a, f' a = g <$> f a) : x >>= f' = g <$> (x >>= f) := by
  cases x with
  | error fault => rfl
  | ok a => exact h a

/-- Steps that cannot fail give the results of all entries. -/
theorem mapM_ok (f : α → Except ε β) (g : α → β) (h : ∀ x, f x = .ok (g x)) (xs : List α) :
    xs.mapM f = .ok (xs.map g) := by
  induction xs with
  | nil => rfl
  | cons x xs ih => simp [List.mapM_cons, h, ih, bind, Except.bind, pure, Except.pure]

/-- Steps have results for all entries when each of them has its own. -/
theorem mapM_ok_iff {f : α → Except ε β} {xs : List α} {ys : List β} :
    xs.mapM f = .ok ys ↔ List.Forall₂ (fun x y => f x = .ok y) xs ys := by
  constructor
  · intro h
    induction xs generalizing ys with
    | nil =>
        cases h
        exact .nil
    | cons x xs ih =>
        rw [List.mapM_cons] at h
        rcases bind_ok h with ⟨y, hy, h⟩
        rcases bind_ok h with ⟨rest, hrest, h⟩
        cases h
        exact .cons hy (ih hrest)
  · intro h
    induction h with
    | nil => rfl
    | cons hy hrest ih =>
        rw [List.mapM_cons, hy, ih]
        rfl

/-- Steps have results for all entries if each of them has one. -/
theorem mapM_ok_of_forall {f : α → Except ε β} {xs : List α}
    (h : ∀ x ∈ xs, ∃ y, f x = .ok y) : ∃ ys, xs.mapM f = .ok ys := by
  induction xs with
  | nil => exact ⟨[], rfl⟩
  | cons x xs ih =>
      rcases h x (List.mem_cons_self ..) with ⟨y, hy⟩
      rcases ih fun x' hx' => h x' (List.mem_cons_of_mem _ hx') with ⟨ys, hys⟩
      exact ⟨y :: ys, mapM_ok_iff.2 (.cons hy (mapM_ok_iff.1 hys))⟩

/-- Steps have results for all entries exactly if each of them has one. -/
theorem exists_mapM_ok_iff {f : α → Except ε β} {xs : List α} :
    (∃ ys, xs.mapM f = .ok ys) ↔ ∀ x ∈ xs, ∃ y, f x = .ok y := by
  refine ⟨?_, mapM_ok_of_forall⟩
  rintro ⟨ys, h⟩
  induction mapM_ok_iff.1 h with
  | nil => simp
  | cons hy hrest ih =>
      rw [List.forall_mem_cons]
      exact ⟨⟨_, hy⟩, ih (mapM_ok_iff.2 hrest)⟩

theorem length_mapM {f : α → Except ε β} {xs : List α} {ys : List β} (h : xs.mapM f = .ok ys) :
    ys.length = xs.length :=
  (mapM_ok_iff.1 h).length_eq.symm

/-- Steps that have results for all entries have each result from one of them. -/
theorem mem_of_mapM {f : α → Except ε β} {xs : List α} {ys : List β} (h : xs.mapM f = .ok ys) {y : β}
    (hy : y ∈ ys) : ∃ x ∈ xs, f x = .ok y := by
  induction mapM_ok_iff.1 h with
  | nil => cases hy
  | @cons x _ xs _ hx hxs ih =>
      rcases List.mem_cons.1 hy with rfl | hy
      · exact ⟨x, List.mem_cons_self .., hx⟩
      · obtain ⟨x', hx', hfx'⟩ := ih (mapM_ok_iff.2 hxs) hy
        exact ⟨x', List.mem_cons_of_mem _ hx', hfx'⟩

/-- Steps that have results for all entries have the same results for the last ones. -/
theorem mapM_drop {f : α → Except ε β} {xs : List α} {ys : List β} (h : xs.mapM f = .ok ys)
    (n : Nat) : (xs.drop n).mapM f = .ok (ys.drop n) :=
  mapM_ok_iff.2 (List.forall₂_drop n (mapM_ok_iff.1 h))

/-- Steps that have results for all entries have those of the entries that are picked, when a result
tells whether its entry is. -/
theorem mapM_filter {f : α → Except ε β} {p : α → Bool} {q : β → Bool} {xs : List α} {ys : List β}
    (hpick : ∀ x y, f x = .ok y → p x = q y) (h : xs.mapM f = .ok ys) :
    (xs.filter p).mapM f = .ok (ys.filter q) := by
  refine mapM_ok_iff.2 (List.rel_filter ?_ (mapM_ok_iff.1 h))
  intro x y hxy
  show p x = true ↔ q y = true
  rw [hpick x y hxy]

@[simp] theorem mapError_ok {ε' : Type} (f : ε → ε') (a : α) :
    (Except.ok a).mapError f = .ok a := rfl

@[simp] theorem mapError_error {ε' : Type} (f : ε → ε') (fault : ε) :
    (Except.error fault : Except ε α).mapError f = .error (f fault) := rfl

theorem ok_of_mapError {ε' : Type} {f : ε → ε'} {x : Except ε α} {a : α}
    (h : x.mapError f = .ok a) : x = .ok a := by
  cases x with
  | error fault => cases h
  | ok b => simpa using h

/-! ## Faults -/

/-- The fault that a result is, if it is one. -/
def fault? : Except ε α → Option ε
  | .error fault => some fault
  | .ok _ => none

@[simp] theorem fault?_error (fault : ε) : fault? (.error fault : Except ε α) = some fault := rfl

@[simp] theorem fault?_ok (a : α) : fault? (.ok a : Except ε α) = none := rfl

@[simp] theorem fault?_pure (a : α) : fault? (pure a : Except ε α) = none := rfl

theorem fault?_bind (x : Except ε α) (f : α → Except ε β) :
    fault? (x >>= f) = match x with
      | .error fault => some fault
      | .ok a => fault? (f a) := by
  cases x <;> rfl

@[simp] theorem fault?_map (f : α → β) (x : Except ε α) : fault? (f <$> x) = fault? x := by
  cases x <;> rfl

@[simp] theorem fault?_bind_pure (f : α → β) (x : Except ε α) :
    fault? (x >>= fun a => pure (f a)) = fault? x := by
  cases x <;> rfl

@[simp] theorem fault?_mapError {ε' : Type} (f : ε → ε') (x : Except ε α) :
    fault? (x.mapError f) = (fault? x).map f := by
  cases x <;> rfl

theorem fault?_eq_some {x : Except ε α} {fault : ε} : fault? x = some fault ↔ x = .error fault := by
  cases x <;> simp

theorem fault?_eq_none {x : Except ε α} : fault? x = none ↔ ∃ a, x = .ok a := by
  cases x <;> simp

/-! ## Two results -/

/-- Two results that are the same fault, or related to each other. -/
inductive SameOutcome (R : α → β → Prop) : Except ε α → Except ε β → Prop where
  | error (fault : ε) : SameOutcome R (.error fault) (.error fault)
  | ok {a : α} {b : β} (related : R a b) : SameOutcome R (.ok a) (.ok b)

namespace SameOutcome

variable {γ δ : Type} {R : α → β → Prop} {S : γ → δ → Prop}

theorem refl (x : Except ε α) : SameOutcome Eq x x := by
  cases x with
  | error fault => exact .error fault
  | ok a => exact .ok rfl

theorem bind {x : Except ε α} {y : Except ε β} {f : α → Except ε γ} {g : β → Except ε δ}
    (h : SameOutcome R x y) (hnext : ∀ a b, R a b → SameOutcome S (f a) (g b)) :
    SameOutcome S (x >>= f) (y >>= g) := by
  cases h with
  | error fault => exact .error fault
  | ok related => exact hnext _ _ related

theorem cases {x : Except ε α} {y : Except ε β} (h : SameOutcome R x y) :
    (∃ fault, x = .error fault ∧ y = .error fault) ∨ ∃ a b, x = .ok a ∧ y = .ok b ∧ R a b := by
  cases h with
  | error fault => exact Or.inl ⟨fault, rfl, rfl⟩
  | ok related => exact Or.inr ⟨_, _, rfl, rfl, related⟩

theorem of_ok {a : α} {y : Except ε β} (h : SameOutcome R (.ok a) y) : ∃ b, y = .ok b ∧ R a b := by
  cases h with
  | ok related => exact ⟨_, rfl, related⟩

end SameOutcome

end RuleTrader
