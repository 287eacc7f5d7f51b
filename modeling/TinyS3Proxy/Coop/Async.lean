import Mathlib.Tactic
import Mathlib.Logic.Relation

/-!
# Asynchronous code

Asynchronous code over a shared state is a tree whose inner nodes are of two kinds.

* A node `sync f k` changes the state by `f` and continues with `k` at once: no other
  code runs in between.
* A node `await f k` suspends. When the scheduler resumes the code, `f` says what the
  awaited operation does to the state it then finds, or that the code is still blocked.

Both kinds of node are told which task they run in, and an `await` node is also told a
choice, which stands for whatever the operation leaves open: whether it fails, and how.

The code between two `await` nodes is one atomic section of the task that runs it.
-/

namespace Coop

/-- Asynchronous code over the state `σ` that returns a value of type `α`. -/
inductive Async (σ α : Type) : Type 1
  | ret (a : α)
  | sync {β : Type} (f : ℕ → σ → β × σ) (k : β → Async σ α)
  | await {β : Type} (f : ℕ → ℕ → σ → Option (β × σ)) (k : β → Async σ α)

namespace Async

variable {σ α β γ : Type}

/-- Sequential composition. -/
def bind : Async σ α → (α → Async σ β) → Async σ β
  | ret a, q => q a
  | sync f k, q => sync f fun b => (k b).bind q
  | await f k, q => await f fun b => (k b).bind q

instance : Monad (Async σ) where
  pure := ret
  bind := bind

@[simp]
theorem pure_bind_eq (a : α) (q : α → Async σ β) :
  (pure a >>= q) = q a
  := rfl

@[simp]
theorem ret_bind (a : α) (q : α → Async σ β) :
  (ret a >>= q) = q a
  := rfl

@[simp]
theorem sync_bind (f : ℕ → σ → γ × σ) (k : γ → Async σ α) (q : α → Async σ β) :
  (sync f k >>= q) = sync f fun b => k b >>= q
  := rfl

@[simp]
theorem await_bind
    (f : ℕ → ℕ → σ → Option (γ × σ)) (k : γ → Async σ α) (q : α → Async σ β) :
  (await f k >>= q) = await f fun b => k b >>= q
  := rfl

/-- Sequential composition is associative. -/
theorem bind_assoc
    (p : Async σ α) (q : α → Async σ β) (r : β → Async σ γ) :
  (p >>= q) >>= r = p >>= fun a => q a >>= r
  := by
  induction p with
  | ret a => rfl
  | sync f k ih =>
      simp only [sync_bind]
      congr 1
      funext b
      apply ih
  | await f k ih =>
      simp only [await_bind]
      congr 1
      funext b
      apply ih

/-! ### Atomic sections -/

/-- Run the code up to its next suspension. -/
def settle (t : ℕ) : Async σ α → σ → Async σ α × σ
  | ret a, s => (ret a, s)
  | sync f k, s => (k (f t s).1).settle t (f t s).2
  | await f k, s => (await f k, s)

/-- Settled code has returned or is suspended. -/
def Settled : Async σ α → Prop
  | ret _ => True
  | sync _ _ => False
  | await _ _ => True

/-- Running code up to its next suspension settles it. -/
theorem settled_settle
    (t : ℕ) (p : Async σ α) (s : σ) :
  (p.settle t s).1.Settled
  := by
  induction p generalizing s with
  | ret a => trivial
  | sync f k ih => apply ih
  | await f k _ => trivial

/-! ### The two kinds of node as code -/

/-- Change the state, without suspending. -/
def act (f : ℕ → σ → β × σ) : Async σ β := sync f ret

/-- Suspend until the operation completes. -/
def suspend (f : ℕ → ℕ → σ → Option (β × σ)) : Async σ β := await f ret

/-- Read off the state, without suspending. -/
def reads (f : σ → β) : Async σ β := act fun _ s => (f s, s)

/-- Change the state as a function of the task and the state, without suspending. -/
def modifies (f : ℕ → σ → σ) : Async σ Unit := act fun t s => ((), f t s)

/-- Run the code when the condition holds. -/
def when (b : Bool) (p : Async σ Unit) : Async σ Unit := if b then p else pure ()

/-- Run the code for every element of a list, in order. -/
def forEach (xs : List γ) (p : γ → Async σ Unit) : Async σ Unit :=
  match xs with
  | [] => pure ()
  | x :: xs => p x >>= fun _ => forEach xs p

end Async

end Coop
