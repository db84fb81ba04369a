/-!
# CrmEmulator.Proofs.Outcome — computations that may fail, taken apart

A computation in steps succeeds exactly when every step does.
-/

namespace CrmEmulator

variable {ε α β : Type}

theorem ok_bind (a : α) (f : α → Except ε β) : ((Except.ok a : Except ε α) >>= f) = f a := rfl

theorem error_bind (e : ε) (f : α → Except ε β) :
    ((Except.error e : Except ε α) >>= f) = .error e := rfl

/-- A sequence succeeds if both of its parts do. -/
theorem bind_eq_ok {x : Except ε α} {f : α → Except ε β} {b : β} :
    (x >>= f) = .ok b ↔ ∃ a, x = .ok a ∧ f a = .ok b := by
  cases x with
  | error e => exact ⟨nofun, nofun⟩
  | ok a =>
    refine ⟨fun h => ⟨a, rfl, h⟩, ?_⟩
    rintro ⟨_, ⟨⟩, h⟩
    exact h

/-- A computation ends without a result exactly when some step of it does. -/
theorem bind_eq_error {x : Except ε α} {f : α → Except ε β} {e : ε} :
    (x >>= f) = .error e ↔ x = .error e ∨ ∃ a, x = .ok a ∧ f a = .error e := by
  cases x with
  | error e' =>
    refine ⟨fun h => .inl (by cases h; rfl), ?_⟩
    rintro (⟨⟨⟩⟩ | ⟨_, ⟨⟩, -⟩)
    rfl
  | ok a =>
    refine ⟨fun h => .inr ⟨a, rfl, h⟩, ?_⟩
    rintro (⟨⟨⟩⟩ | ⟨_, ⟨⟩, h⟩)
    exact h

/-- A result that is mapped comes from a result. -/
theorem map_eq_ok {x : Except ε α} {f : α → β} {b : β} :
    (f <$> x) = .ok b ↔ ∃ a, x = .ok a ∧ f a = b := by
  cases x with
  | error e => exact ⟨nofun, nofun⟩
  | ok a =>
    refine ⟨?_, ?_⟩
    · rintro ⟨⟩
      exact ⟨a, rfl, rfl⟩
    · rintro ⟨_, ⟨⟩, rfl⟩
      rfl

/-- Renaming failures does not change results. -/
theorem mapError_eq_ok {ε' : Type} {x : Except ε α} {f : ε → ε'} {a : α} :
    x.mapError f = .ok a ↔ x = .ok a := by
  cases x with
  | error e => exact ⟨nofun, nofun⟩
  | ok b =>
    refine ⟨?_, ?_⟩
    · rintro ⟨⟩
      rfl
    · rintro ⟨⟩
      rfl

/-- What is in the list of results is the result of some element. -/
theorem exists_of_mem_mapM {f : α → Except ε β} {xs : List α} {ys : List β}
    (h : xs.mapM f = .ok ys) {y : β} (hy : y ∈ ys) : ∃ x ∈ xs, f x = .ok y := by
  induction xs generalizing ys with
  | nil =>
    cases h
    cases hy
  | cons x xs ih =>
    rw [List.mapM_cons] at h
    rcases bind_eq_ok.mp h with ⟨first, hfirst, hrest⟩
    rcases bind_eq_ok.mp hrest with ⟨others, hothers, heq⟩
    cases heq
    rcases List.mem_cons.mp hy with rfl | hy
    · exact ⟨x, List.mem_cons_self, hfirst⟩
    · rcases ih hothers hy with ⟨x', hx', hresult⟩
      exact ⟨x', List.mem_cons_of_mem _ hx', hresult⟩

/-- What is read off the results is what is known of the elements that they come from. -/
theorem map_of_mapM {γ : Type} {f : α → Except ε β} {g : β → γ} {known : α → γ} {xs : List α}
    (hf : ∀ x ∈ xs, ∀ y, f x = .ok y → g y = known x) {ys : List β} (h : xs.mapM f = .ok ys) :
    ys.map g = xs.map known := by
  induction xs generalizing ys with
  | nil =>
    cases h
    rfl
  | cons x xs ih =>
    obtain ⟨hfirst, hrest⟩ := List.forall_mem_cons.mp hf
    rw [List.mapM_cons] at h
    rcases bind_eq_ok.mp h with ⟨y, hy, h⟩
    rcases bind_eq_ok.mp h with ⟨others, hothers, heq⟩
    cases heq
    rw [List.map_cons, List.map_cons, hfirst y hy, ih hrest hothers]

end CrmEmulator
