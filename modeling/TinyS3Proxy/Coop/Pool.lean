import TinyS3Proxy.Coop.Async

/-!
# Pools of tasks

A pool is a shared state together with the tasks that run over it. A step of the pool
starts a task, resumes a suspended one and runs it up to its next suspension, drops a
task at its suspension, lets the surroundings change the state, or restarts the whole
pool, which ends every task. Nothing is assumed about the order of the steps, so the
runs of a pool are all interleavings of the atomic sections of its tasks.
-/

namespace Coop

variable {σ : Type}

/-- A shared state with the tasks that run over it. The tasks numbered from `next` on
have not been started yet. -/
structure Pool (σ : Type) : Type 1 where
  st : σ
  tasks : ℕ → Option (Async σ Unit)
  next : ℕ

/-- What surrounds the tasks of a pool: the code that may be started, which tasks may be
dropped and what dropping a task does to the state, the changes made from outside, and the
effect of a restart. -/
structure System (σ : Type) : Type 1 where
  spawns : Async σ Unit → Prop
  droppable : ℕ → σ → Prop
  onDrop : ℕ → σ → σ
  env : σ → σ → Prop
  reset : σ → σ → Prop

namespace Pool

/-- The pool over the state `s` without any task. -/
def idle (s : σ) (next : ℕ) : Pool σ := ⟨s, fun _ => none, next⟩

/-- Run the code `p` as task `t`, up to its next suspension. -/
def resume (P : Pool σ) (t : ℕ) (p : Async σ Unit) (s : σ) : Pool σ :=
  ⟨(p.settle t s).2, Function.update P.tasks t (some (p.settle t s).1), P.next⟩

/-- Start the code `p` as a new task. -/
def start (P : Pool σ) (p : Async σ Unit) : Pool σ :=
  { P.resume P.next p P.st with next := P.next + 1 }

/-- Drop the task `t`. -/
def drop (S : System σ) (P : Pool σ) (t : ℕ) : Pool σ :=
  ⟨S.onDrop t P.st, Function.update P.tasks t none, P.next⟩

/-- One step of a pool. -/
inductive Step (S : System σ) (P : Pool σ) : Pool σ → Prop
  | spawn {p : Async σ Unit} (h : S.spawns p) : Step S P (P.start p)
  | run {t c : ℕ} {β : Type} {f : ℕ → ℕ → σ → Option (β × σ)} {k : β → Async σ Unit}
      {b : β} {s : σ} (h : P.tasks t = some (.await f k)) (hf : f t c P.st = some (b, s)) :
      Step S P (P.resume t (k b) s)
  | drop {t : ℕ} {p : Async σ Unit} (h : P.tasks t = some p) (hd : S.droppable t P.st) :
      Step S P (P.drop S t)
  | env {s : σ} (h : S.env P.st s) : Step S P { P with st := s }
  | reset {s : σ} (h : S.reset P.st s) : Step S P (idle s P.next)

/-- The runs of a pool. -/
def Steps (S : System σ) : Pool σ → Pool σ → Prop := Relation.ReflTransGen (Step S)

/-! ### Schedules

A schedule names the steps of the tasks one by one, so that a run can be computed. -/

/-- One entry of a schedule. -/
inductive Cmd (σ : Type) : Type 1
  | spawn (p : Async σ Unit)
  | run (t c : ℕ)

/-- The code that a command starts may be started. -/
def Cmd.Allowed (S : System σ) : Cmd σ → Prop
  | .spawn p => S.spawns p
  | .run _ _ => True

/-- Carry out one entry of a schedule, when it can be. -/
def exec (P : Pool σ) : Cmd σ → Option (Pool σ)
  | .spawn p => some (P.start p)
  | .run t c =>
      match P.tasks t with
      | some (.await f k) => (f t c P.st).map fun r => P.resume t (k r.1) r.2
      | _ => none

/-- Carry out a schedule. -/
def execAll (P : Pool σ) : List (Cmd σ) → Option (Pool σ)
  | [] => some P
  | c :: cs => (P.exec c).bind fun P' => P'.execAll cs

/-- An entry of a schedule that can be carried out is a step. -/
theorem exec_step
    {S : System σ} {P P' : Pool σ} {c : Cmd σ} (hc : c.Allowed S) (h : P.exec c = some P') :
  Step S P P'
  := by
  cases c with
  | spawn p =>
      obtain rfl : P.start p = P' := Option.some.inj h
      apply Step.spawn hc
  | run t c =>
      rw [exec] at h
      split at h
      next f k hk =>
        obtain ⟨r, hr, rfl⟩ := Option.map_eq_some_iff.mp h
        apply Step.run hk hr
      next => cases h

/-- A schedule that can be carried out is a run. -/
theorem execAll_steps
    {S : System σ} {P P' : Pool σ} {cs : List (Cmd σ)} (hcs : ∀ c ∈ cs, c.Allowed S)
    (h : P.execAll cs = some P') :
  Steps S P P'
  := by
  induction cs generalizing P with
  | nil =>
      obtain rfl : P = P' := Option.some.inj h
      apply Relation.ReflTransGen.refl
  | cons c cs ih =>
      obtain ⟨P₁, h₁, h₂⟩ := Option.bind_eq_some_iff.mp h
      apply Relation.ReflTransGen.head
      · apply exec_step (hcs c List.mem_cons_self) h₁
      · apply ih _ h₂
        intro c' hc'
        apply hcs c' (List.mem_cons_of_mem _ hc')

end Pool

end Coop
