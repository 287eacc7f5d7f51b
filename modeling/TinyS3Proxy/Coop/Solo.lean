import TinyS3Proxy.Coop.Pool

/-!
# Undisturbed runs

What a task does when no other task runs meanwhile, as a function of the choices made at
its suspensions. It gives runs of a pool step by step, whatever the other tasks are.
-/

namespace Coop

variable {σ α β : Type}

namespace Async

/-- Run the code as task `t` through one suspension for each of the choices. -/
def go (t : ℕ) : List ℕ → Async σ α → σ → Option (Async σ α × σ)
  | [], p, s => some (p.settle t s)
  | c :: cs, p, s =>
      match p.settle t s with
      | (await f k, s₁) => (f t c s₁).bind fun r => (k r.1).go t cs r.2
      | _ => none

/-- Settled code stays as it is when it is settled again. -/
theorem Settled.settle_eq
    {p : Async σ α} (hp : p.Settled) (t : ℕ) (s : σ) :
  p.settle t s = (p, s)
  := by
  cases p with
  | ret a => rfl
  | sync f k => cases hp
  | await f k => rfl

theorem go_settle
    (t : ℕ) (cs : List ℕ) (p : Async σ α) (s : σ) :
  (p.settle t s).1.go t cs (p.settle t s).2 = p.go t cs s
  := by
  have h := (settled_settle t p s).settle_eq t (p.settle t s).2
  cases cs with
  | nil =>
      rw [go, go, h]
  | cons c cs =>
      rw [go, go, h]

/-! ### Whole undisturbed runs -/

/-- Run undisturbed with the given choices from the state `s`, the code returns `a` and
leaves the state `s'`. -/
def Runs (p : Async σ α) (t : ℕ) (cs : List ℕ) (s : σ) (a : α) (s' : σ) : Prop :=
  p.go t cs s = some (.ret a, s')

theorem go_sync
    (t : ℕ) (cs : List ℕ) (f : ℕ → σ → β × σ) (k : β → Async σ α) (s : σ) :
  (sync f k).go t cs s = (k (f t s).1).go t cs (f t s).2
  := by
  cases cs with
  | nil => rfl
  | cons c cs => rfl

/-- The undisturbed runs of code in sequence are those of its parts, one after the other. -/
theorem Runs.bind
    {t : ℕ} {c d : List ℕ} {p : Async σ α} {q : α → Async σ β} {s s₁ s' : σ} {a : α} {b : β}
    (hp : p.Runs t c s a s₁) (hq : (q a).Runs t d s₁ b s') :
  (p >>= q).Runs t (c ++ d) s b s'
  := by
  induction p generalizing c s with
  | ret a' =>
      cases c with
      | nil =>
          obtain ⟨rfl, rfl⟩ : a' = a ∧ s = s₁ := by simpa [Runs, go, settle] using hp
          exact hq
      | cons x c => cases hp
  | sync f k ih =>
      rw [Runs, sync_bind, go_sync]
      rw [Runs, go_sync] at hp
      exact ih _ hp
  | await f k ih =>
      cases c with
      | nil => cases hp
      | cons x c =>
          obtain ⟨⟨y, s₂⟩, hf, hgo⟩ := Option.bind_eq_some_iff.mp hp
          exact Option.bind_eq_some_iff.mpr ⟨(y, s₂), hf, ih y hgo⟩

end Async

namespace Pool

variable {S : System σ} {P : Pool σ} {t : ℕ} {cs : List ℕ} {p p' : Async σ Unit} {s' : σ}

/-- A task of the pool may run undisturbed. -/
theorem steps_go
    (hp : P.tasks t = some p) (hs : p.Settled) (h : p.go t cs P.st = some (p', s')) :
  Steps S P ⟨s', Function.update P.tasks t (some p'), P.next⟩
  := by
  induction cs generalizing P p with
  | nil =>
      rw [Async.go, hs.settle_eq] at h
      obtain ⟨rfl, rfl⟩ : p = p' ∧ P.st = s' := by simpa using h
      rw [← hp, Function.update_eq_self]
      exact Relation.ReflTransGen.refl
  | cons c cs ih =>
      cases p with
      | ret a => cases h
      | sync f k => cases hs
      | await f k =>
          obtain ⟨⟨b, s₁⟩, hf, hgo⟩ := Option.bind_eq_some_iff.mp h
          rw [← Async.go_settle] at hgo
          have hrun := ih (P := P.resume t (k b) s₁) (Function.update_self _ _ _)
            (Async.settled_settle t _ _) hgo
          simp only [resume, Function.update_idem] at hrun
          exact Relation.ReflTransGen.head (Step.run hp hf) hrun

/-- A new task may be started and run undisturbed. -/
theorem steps_start_go
    (hp : S.spawns p) (h : p.go P.next cs P.st = some (p', s')) :
  Steps S P ⟨s', Function.update P.tasks P.next (some p'), P.next + 1⟩
  := by
  rw [← Async.go_settle] at h
  have hrun := steps_go (S := S) (P := P.start p) (t := P.next) (Function.update_self _ _ _)
    (Async.settled_settle _ _ _) h
  simp only [start, resume, Function.update_idem] at hrun
  exact Relation.ReflTransGen.head (Step.spawn hp) hrun

end Pool

end Coop
