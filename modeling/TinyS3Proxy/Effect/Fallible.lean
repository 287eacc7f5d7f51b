import Mathlib.Tactic

/-!
# Fallible code over a state

Code that changes a state and either returns a value or fails. A failure does not undo the
changes that were made before it.

A run that does not fail, `Returns`, and a run that does, `Fails`, are taken apart at each step of
the code. What the code does to the state in either case is said by `Moves`.
-/

namespace Effect

variable {σ ε α β : Type}

/-- Code over the state `σ` that may fail with an error of type `ε`. -/
abbrev Fallible (σ ε : Type) : Type → Type := ExceptT ε (StateM σ)

/-- Run the code from a state. -/
def exec (p : Fallible σ ε α) (s : σ) : Except ε α × σ := p.run.run s

/-- Read a part of the state. -/
def reads (f : σ → α) : Fallible σ ε α := f <$> get

/-- Run a function of the state that may fail, with the error that `fault` makes of its. -/
def attempt {ε' : Type} (f : σ → Except ε' α × σ) (fault : ε' → ε) : Fallible σ ε α := do
  let r ← modifyGet f
  match r with
  | .ok a => pure a
  | .error e => throw (fault e)

/-- Fail unless the condition holds. -/
def require (b : Bool) (e : ε) : Fallible σ ε Unit := if b then pure () else throw e

/-- The outcome of a function that does not touch the state. -/
def outcome (x : Except ε α) : Fallible σ ε α :=
  match x with
  | .ok a => pure a
  | .error e => throw e

/-- The value that is there, or a failure. -/
def demand (o : Option α) (e : ε) : Fallible σ ε α :=
  match o with
  | some a => pure a
  | none => throw e

/-- What a step of a computation that succeeds has returned. -/
theorem exists_of_bind_eq_ok
    {x : Except ε α} {f : α → Except ε β} {b : β} (h : x >>= f = .ok b) :
  ∃ a, x = .ok a ∧ f a = .ok b
  := by
  cases x with
  | error e => cases h
  | ok a => exact ⟨a, rfl, h⟩

@[simp]
theorem exec_bind
    (p : Fallible σ ε α) (q : α → Fallible σ ε β) (s : σ) :
  exec (p >>= q) s
    = match exec p s with
      | (.ok a, s') => exec (q a) s'
      | (.error e, s') => (.error e, s')
  := by
  change (ExceptT.bindCont (m := StateM σ) q (p.run.run s).1) (p.run.run s).2 = _
  rw [exec]
  rcases p.run.run s with ⟨e | a, s'⟩
  · rfl
  · rfl

@[simp]
theorem exec_pure
    (a : α) (s : σ) :
  exec (pure a : Fallible σ ε α) s = (.ok a, s)
  := rfl

@[simp]
theorem exec_throw
    (e : ε) (s : σ) :
  exec (throw e : Fallible σ ε α) s = (.error e, s)
  := rfl

@[simp]
theorem exec_reads
    (f : σ → α) (s : σ) :
  exec (reads f : Fallible σ ε α) s = (.ok (f s), s)
  := rfl

@[simp]
theorem exec_modify
    (f : σ → σ) (s : σ) :
  exec (modify f : Fallible σ ε Unit) s = (.ok (), f s)
  := rfl

@[simp]
theorem exec_attempt
    {ε' : Type} (f : σ → Except ε' α × σ) (fault : ε' → ε) (s : σ) :
  exec (attempt f fault) s
    = match f s with
      | (.ok a, s') => (.ok a, s')
      | (.error e, s') => (.error (fault e), s')
  := by
  have h : exec (modifyGet f : Fallible σ ε (Except ε' α)) s = (.ok (f s).1, (f s).2) := rfl
  rw [attempt, exec_bind, h]
  rcases f s with ⟨e | a, s'⟩
  · rfl
  · rfl

@[simp]
theorem exec_require
    (b : Bool) (e : ε) (s : σ) :
  exec (require b e) s = (if b then .ok () else .error e, s)
  := by
  cases b with
  | false => rfl
  | true => rfl

@[simp]
theorem exec_outcome
    (x : Except ε α) (s : σ) :
  exec (outcome x) s = (x, s)
  := by
  cases x with
  | error e => rfl
  | ok a => rfl

@[simp]
theorem exec_demand
    (o : Option α) (e : ε) (s : σ) :
  exec (demand o e) s = (o.elim (.error e) .ok, s)
  := by
  cases o with
  | none => rfl
  | some a => rfl

/-! ### Runs that do not fail -/

/-- Run from the state `s`, the code returns `a` and leaves the state `s'`. -/
def Returns (p : Fallible σ ε α) (s : σ) (a : α) (s' : σ) : Prop := exec p s = (.ok a, s')

variable {s s' : σ} {a : α} {b : β} {e : ε}

/-- Code in sequence returns if its parts return, one after the other. -/
theorem returns_bind
    {p : Fallible σ ε α} {q : α → Fallible σ ε β} :
  Returns (p >>= q) s b s' ↔ ∃ a s₁, Returns p s a s₁ ∧ Returns (q a) s₁ b s'
  := by
  rw [Returns, exec_bind]
  constructor
  · intro h
    rcases hp : exec p s with ⟨e | a, s₁⟩
    · rw [hp] at h
      cases (Prod.mk.inj h).1
    · rw [hp] at h
      exact ⟨a, s₁, hp, h⟩
  · rintro ⟨a, s₁, hp, hq⟩
    rw [Returns] at hp
    rw [hp]
    exact hq

theorem returns_pure
    {a' : α} :
  Returns (pure a : Fallible σ ε α) s a' s' ↔ a' = a ∧ s' = s
  := by
  rw [Returns, exec_pure, Prod.mk.injEq, Except.ok.injEq, eq_comm, @eq_comm _ s]

theorem not_returns_throw :
  ¬ Returns (throw e : Fallible σ ε α) s a s'
  := nofun

theorem returns_reads
    {f : σ → α} :
  Returns (reads f : Fallible σ ε α) s a s' ↔ a = f s ∧ s' = s
  := by
  rw [Returns, exec_reads, Prod.mk.injEq, Except.ok.injEq, eq_comm, @eq_comm _ s]

theorem returns_modify
    {f : σ → σ} {u : Unit} :
  Returns (modify f : Fallible σ ε Unit) s u s' ↔ s' = f s
  := by
  rw [Returns, exec_modify, Prod.mk.injEq, @eq_comm _ (f s)]
  simp

theorem returns_attempt
    {ε' : Type} {f : σ → Except ε' α × σ} {fault : ε' → ε} :
  Returns (attempt f fault) s a s' ↔ f s = (.ok a, s')
  := by
  rw [Returns, exec_attempt]
  rcases f s with ⟨e | b, s₁⟩
  · simp
  · simp

theorem returns_require
    {c : Bool} {u : Unit} :
  Returns (require c e) s u s' ↔ c = true ∧ s' = s
  := by
  rw [Returns, exec_require, Prod.mk.injEq, @eq_comm _ s]
  cases c with
  | false => simp
  | true => simp

theorem returns_outcome
    {x : Except ε α} :
  Returns (outcome x) s a s' ↔ x = .ok a ∧ s' = s
  := by
  rw [Returns, exec_outcome, Prod.mk.injEq, @eq_comm _ s]

theorem returns_demand
    {o : Option α} :
  Returns (demand o e) s a s' ↔ o = some a ∧ s' = s
  := by
  rw [Returns, exec_demand, Prod.mk.injEq, @eq_comm _ s]
  cases o with
  | none => simp
  | some b => simp

/-! ### Runs that fail -/

/-- Run from the state `s`, the code fails with `e` and leaves the state `s'`. -/
def Fails (p : Fallible σ ε α) (s : σ) (e : ε) (s' : σ) : Prop := exec p s = (.error e, s')

variable {e' : ε}

/-- Code in sequence fails if its first part does, or if the second does after the first. -/
theorem fails_bind
    {p : Fallible σ ε α} {q : α → Fallible σ ε β} :
  Fails (p >>= q) s e s' ↔ Fails p s e s' ∨ ∃ a s₁, Returns p s a s₁ ∧ Fails (q a) s₁ e s'
  := by
  rw [Fails, Fails, exec_bind]
  rcases hp : exec p s with ⟨e₁ | a, s₁⟩
  · simp [Returns, hp]
  · simp [Returns, Fails, hp]

theorem not_fails_pure :
  ¬ Fails (pure a : Fallible σ ε α) s e s'
  := nofun

theorem fails_throw :
  Fails (throw e : Fallible σ ε α) s e' s' ↔ e' = e ∧ s' = s
  := by
  rw [Fails, exec_throw, Prod.mk.injEq, Except.error.injEq, eq_comm, @eq_comm _ s]

theorem not_fails_reads
    {f : σ → α} :
  ¬ Fails (reads f : Fallible σ ε α) s e s'
  := nofun

theorem not_fails_modify
    {f : σ → σ} :
  ¬ Fails (modify f : Fallible σ ε Unit) s e s'
  := nofun

theorem fails_require
    {c : Bool} :
  Fails (require c e) s e' s' ↔ c = false ∧ e' = e ∧ s' = s
  := by
  rw [Fails, exec_require, Prod.mk.injEq, @eq_comm _ s]
  cases c with
  | false => simp [eq_comm]
  | true => simp

theorem fails_attempt
    {ε' : Type} {f : σ → Except ε' α × σ} {fault : ε' → ε} :
  Fails (attempt f fault) s e s' ↔ ∃ e₁, f s = (.error e₁, s') ∧ e = fault e₁
  := by
  rw [Fails, exec_attempt]
  rcases f s with ⟨e₁ | b, s₁⟩
  · simp [eq_comm, and_comm]
  · simp

/-! ### How code moves the state -/

/-- Whether the code returns or fails, it moves the state along the relation. -/
def Moves (R : σ → σ → Prop) (p : Fallible σ ε α) : Prop := ∀ s, R s (exec p s).2

variable {R : σ → σ → Prop}

theorem Moves.bind
    [IsTrans σ R] {p : Fallible σ ε α} {q : α → Fallible σ ε β} (hp : Moves R p)
    (hq : ∀ a, Moves R (q a)) :
  Moves R (p >>= q)
  := by
  intro s
  have h := hp s
  rw [exec_bind]
  rcases hx : exec p s with ⟨e | a, s₁⟩
  · rw [hx] at h
    exact h
  · rw [hx] at h
    exact IsTrans.trans _ _ _ h (hq a s₁)

theorem Moves.of_returns
    {p : Fallible σ ε α} (hp : Moves R p) (h : Returns p s a s') :
  R s s'
  := by
  have hs := hp s
  rw [Returns] at h
  rw [h] at hs
  exact hs

theorem Moves.of_fails
    {p : Fallible σ ε α} (hp : Moves R p) (h : Fails p s e s') :
  R s s'
  := by
  have hs := hp s
  rw [Fails] at h
  rw [h] at hs
  exact hs

theorem Moves.mono
    {R' : σ → σ → Prop} {p : Fallible σ ε α} (hp : Moves R p) (h : ∀ s s', R s s' → R' s s') :
  Moves R' p
  := fun s => h _ _ (hp s)

/-- The rest of the code moves on from where the first part stopped. -/
theorem Moves.after
    [Std.Refl R] {p : Fallible σ ε α} {q : α → Fallible σ ε β} (hq : ∀ a, Moves R (q a)) (s : σ) :
  R (exec p s).2 (exec (p >>= q) s).2
  := by
  rw [exec_bind]
  rcases exec p s with ⟨e | a, s₁⟩
  · exact refl s₁
  · exact hq a s₁

theorem moves_of_snd_eq
    [Std.Refl R] {p : Fallible σ ε α} (h : ∀ s, (exec p s).2 = s) :
  Moves R p
  := by
  intro s
  rw [h]
  exact refl s

theorem moves_pure
    [Std.Refl R] (a : α) :
  Moves R (pure a : Fallible σ ε α)
  := moves_of_snd_eq fun _ => rfl

theorem moves_throw
    [Std.Refl R] (e : ε) :
  Moves R (throw e : Fallible σ ε α)
  := moves_of_snd_eq fun _ => rfl

theorem moves_reads
    [Std.Refl R] (f : σ → α) :
  Moves R (reads f : Fallible σ ε α)
  := moves_of_snd_eq fun _ => rfl

theorem moves_require
    [Std.Refl R] (c : Bool) (e : ε) :
  Moves R (require c e)
  := moves_of_snd_eq fun s => by rw [exec_require]

theorem moves_demand
    [Std.Refl R] (o : Option α) (e : ε) :
  Moves R (demand o e)
  := moves_of_snd_eq fun s => by rw [exec_demand]

theorem moves_outcome
    [Std.Refl R] (x : Except ε α) :
  Moves R (outcome x)
  := moves_of_snd_eq fun s => by rw [exec_outcome]

theorem moves_modify
    {f : σ → σ} (h : ∀ s, R s (f s)) :
  Moves R (modify f : Fallible σ ε Unit)
  := h

theorem moves_attempt
    {ε' : Type} {f : σ → Except ε' α × σ} {fault : ε' → ε} (h : ∀ s, R s (f s).2) :
  Moves R (attempt f fault)
  := by
  intro s
  have hs := h s
  rw [exec_attempt]
  rcases hx : f s with ⟨e | a, s₁⟩
  · rw [hx] at hs
    exact hs
  · rw [hx] at hs
    exact hs

end Effect
