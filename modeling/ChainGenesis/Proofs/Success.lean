import ChainGenesis.Error

/-!
# Computations that succeed

A computation that stops at its first failure succeeds only if each of its steps does, and fails
for a reason only if one of them does. And two such computations that differ in a few steps are
the same but for the failures of those steps.
-/

namespace ChainGenesis

variable {ε δ α β : Type}

theorem bind_eq_ok {x : Except ε α} {f : α → Except ε β} {b : β} :
    x >>= f = .ok b ↔ ∃ a, x = .ok a ∧ f a = .ok b := by
  constructor
  · intro h
    cases x with
    | error e => exact absurd h (by simp [bind, Except.bind])
    | ok a => exact ⟨a, rfl, h⟩
  · rintro ⟨a, rfl, h⟩
    exact h

theorem ok_bind (a : α) (f : α → Except ε β) : (.ok a : Except ε α) >>= f = f a := rfl

theorem throw_ne_ok {e : ε} {a : α} : (throw e : Except ε α) ≠ .ok a := by
  simp [throw, throwThe, MonadExceptOf.throw]

/-- Nothing is done after a failure. -/
theorem throw_bind {e : ε} {f : α → Except ε β} : (throw e : Except ε α) >>= f = throw e := rfl

theorem map_eq_ok {x : Except ε α} {f : α → β} {b : β} :
    x.map f = .ok b ↔ ∃ a, x = .ok a ∧ f a = b := by
  cases x with
  | error e => exact ⟨fun h => absurd h (by simp [Except.map]), by simp⟩
  | ok a => simp [Except.map]

/-- Giving a failure another cause changes no success. -/
theorem wrapError_eq_ok {wrap : ε → δ} {x : Except ε α} {a : α} :
    wrapError wrap x = .ok a ↔ x = .ok a := by
  cases x <;> simp [wrapError]

/-! ## Failures known beforehand -/

/-- A value, unless there is something to fail for. -/
def okUnless (failure : Option ε) (a : α) : Except ε α := failure.elim (.ok a) .error

theorem okUnless_eq_ok_iff {failure : Option ε} {a b : α} :
    okUnless failure a = .ok b ↔ failure = none ∧ a = b := by
  cases failure <;> simp [okUnless]

/-! ## Reasons to fail -/

/-- A computation that does not fail for any of some reasons. -/
def NeverFails (reason : ε → Prop) (x : Except ε α) : Prop := ∀ e, x = .error e → ¬ reason e

theorem NeverFails.ok (reason : ε → Prop) (a : α) : NeverFails reason (.ok a) :=
  fun _ h => absurd h (by simp)

theorem NeverFails.error {reason : ε → Prop} {e : ε} (h : ¬ reason e) :
    NeverFails reason (.error e : Except ε α) := by
  intro e' heq
  injection heq with heq
  exact heq ▸ h

theorem NeverFails.bind {reason : ε → Prop} {x : Except ε α} {f : α → Except ε β}
    (h : NeverFails reason x) (hnext : ∀ a, NeverFails reason (f a)) :
    NeverFails reason (x >>= f) := by
  cases x with
  | error e => exact .error (h e rfl)
  | ok a => exact hnext a

theorem NeverFails.wrapError {reason : δ → Prop} {wrap : ε → δ} (h : ∀ e, ¬ reason (wrap e))
    (x : Except ε α) : NeverFails reason (wrapError wrap x) := by
  cases x with
  | error e => exact .error (h e)
  | ok a => exact .ok reason a

/-! ## The same but for some failures -/

/-- A computation that is another one, unless it fails for one of some reasons. -/
def FailsOrIs (reason : ε → Prop) (x y : Except ε α) : Prop :=
  (∃ e, reason e ∧ x = .error e) ∨ x = y

theorem FailsOrIs.refl (reason : ε → Prop) (x : Except ε α) : FailsOrIs reason x x := .inr rfl

/-- Without a reason to fail the two are the same. -/
theorem FailsOrIs.eq {x y : Except ε α} (h : FailsOrIs (fun _ => False) x y) : x = y := by
  rcases h with ⟨_, hfalse, _⟩ | h
  · exact hfalse.elim
  · exact h

/-- Step by step the same but for failures, the whole is the same but for failures. -/
theorem FailsOrIs.bind {reason : ε → Prop} {x y : Except ε α} {f g : α → Except ε β}
    (h : FailsOrIs reason x y) (hnext : ∀ a, x = .ok a → FailsOrIs reason (f a) (g a)) :
    FailsOrIs reason (x >>= f) (y >>= g) := by
  rcases h with ⟨e, he, rfl⟩ | rfl
  · exact .inl ⟨e, he, rfl⟩
  · cases x with
    | error e => exact .inr rfl
    | ok a => exact hnext a rfl

/-- What is the same but for failures stays so after a common first step. -/
theorem FailsOrIs.after {reason : ε → Prop} (x : Except ε α) {f g : α → Except ε β}
    (h : ∀ a, FailsOrIs reason (f a) (g a)) : FailsOrIs reason (x >>= f) (x >>= g) :=
  (FailsOrIs.refl reason x).bind fun a _ => h a

theorem FailsOrIs.wrapError {reason : ε → Prop} {reason' : δ → Prop} {wrap : ε → δ}
    {x y : Except ε α} (h : FailsOrIs reason x y) (hwrap : ∀ e, reason e → reason' (wrap e)) :
    FailsOrIs reason' (wrapError wrap x) (wrapError wrap y) := by
  rcases h with ⟨e, he, rfl⟩ | rfl
  · exact .inl ⟨wrap e, hwrap e he, rfl⟩
  · exact .inr rfl

end ChainGenesis
