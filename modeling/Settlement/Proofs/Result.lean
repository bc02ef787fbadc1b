import Settlement.Error

namespace Settlement.Result

variable {α β : Type}

/-- A chain of checks goes through exactly when each of its parts does, so what an accepted request
tells is read off its checks one by one. -/
theorem bind_eq_ok_iff {x : Result α} {f : α → Result β} {b : β} :
    (x >>= f) = .ok b ↔ ∃ a, x = .ok a ∧ f a = .ok b := by
  cases x <;> simp [bind, Except.bind]

theorem bind_eq_error_iff {x : Result α} {f : α → Result β} {e : Error} :
    (x >>= f) = .error e ↔ x = .error e ∨ ∃ a, x = .ok a ∧ f a = .error e := by
  cases x <;> simp [bind, Except.bind]

/-- A missing value is refused for the cause that is given for it, and for no other. -/
theorem orRefuse_eq_error_iff {x : Option α} {e cause : Error} :
    orRefuse cause x = .error e ↔ x = none ∧ cause = e := by
  cases x <;> simp [orRefuse]

theorem pure_eq_ok_iff {a b : α} : (pure a : Result α) = .ok b ↔ a = b := by
  simp [pure, Except.pure]

@[simp] theorem ok_bind (a : α) (f : α → Result β) : ((.ok a : Result α) >>= f) = f a := rfl

@[simp] theorem error_bind (e : Error) (f : α → Result β) :
    ((.error e : Result α) >>= f) = .error e := rfl

theorem orRefuse_some_bind (e : Error) (a : α) (f : α → Result β) :
    (orRefuse e (some a) >>= f) = f a := rfl

theorem map_eq_ok_iff {x : Result α} {f : α → β} {b : β} :
    x.map f = .ok b ↔ ∃ a, x = .ok a ∧ f a = b := by
  cases x <;> simp [Except.map]

theorem toOption_eq_some_iff {x : Result α} {a : α} : x.toOption = some a ↔ x = .ok a := by
  cases x <;> simp [Except.toOption]

theorem forM_eq_ok_iff {xs : List α} {f : α → Result Unit} :
    xs.forM f = .ok () ↔ ∀ x ∈ xs, f x = .ok () := by
  induction xs with
  | nil => exact ⟨fun _ _ hmem => (List.not_mem_nil hmem).elim, fun _ => rfl⟩
  | cons x xs ih =>
    have hcons : (x :: xs).forM f = (f x >>= fun _ => xs.forM f) := rfl
    rw [hcons, List.forall_mem_cons, ← ih]
    cases f x with
    | error e => simp
    | ok _ => simp

end Settlement.Result
