import Mathlib.Tactic
import Mathlib.Data.List.Range
import Mathlib.Data.List.Perm.Basic

/-!
# The bounded scan

The scans of the shard directories run at the same time, but no more than a fixed number of them
(`cache/scan.rs`). The pump starts the first tasks, and then one more whenever a task is joined, in
the order of the paths. Running tasks finish in any order, and finished tasks are joined in any
order. The first failure drops the tasks that are there.
-/

namespace TinyS3Proxy.Pump

open scoped List

/-- A task that has been started: how many were started before it, and the path that it is for. -/
structure Task (P : Type) where
  id : ℕ
  path : P
deriving DecidableEq

/-- What the work for a path comes to. -/
inductive Work (T E : Type)
  | ok (value : T)
  | err (e : E)
  | panicked

/-- Where the pump is: it starts the first tasks, of which a number remains, or it joins tasks, or
it has returned. -/
inductive Phase (T E : Type)
  | topUp (remaining : ℕ)
  | joining
  | returned (result : Except E (List T))

/-- The pump, with the tasks that it has started. -/
structure State (P T E : Type) where
  iter : List P
  spawned : List (Task P)
  running : List (Task P)
  finished : List (Task P)
  results : List T
  phase : Phase T E

/-- A running task finishes, or the pump goes on, with one of the finished tasks if it joins. -/
inductive Event
  | finish (n : ℕ)
  | proceed (n : ℕ)

variable {P T E : Type}

namespace State

/-- Start a task. -/
def spawn (s : State P T E) (path : P) : State P T E :=
  let task : Task P := ⟨s.spawned.length, path⟩
  { s with spawned := s.spawned ++ [task], running := s.running ++ [task] }

/-- Return, which drops the tasks that are there. -/
def finishWith (s : State P T E) (result : Except E (List T)) : State P T E :=
  { s with running := [], finished := [], phase := .returned result }

/-- The number of tasks that are there. -/
def alive (s : State P T E) : ℕ := s.running.length + s.finished.length

end State

/-- The pump before it has done anything. -/
def start (paths : List P) (maxInFlight : ℕ) : State P T E :=
  ⟨paths, [], [], [], [], .topUp maxInFlight⟩

/-- What the pump does with a task that it has joined, where `work` says what tasks come to. -/
def joined (work : Task P → Work T E) (mapJoinError : Task P → E) (s : State P T E)
    (task : Task P) : State P T E :=
  match work task with
  | .ok value =>
      let s := { s with results := s.results ++ [value] }
      match s.iter with
      | [] => s
      | path :: iter => { s with iter }.spawn path
  | .err e => s.finishWith (.error e)
  | .panicked => s.finishWith (.error (mapJoinError task))

/-- One step, if it can be made. -/
def step (work : Task P → Work T E) (mapJoinError : Task P → E) :
    Event → State P T E → Option (State P T E)
  | .finish n, s =>
      s.running[n]?.map fun task =>
        { s with running := s.running.eraseIdx n, finished := s.finished ++ [task] }
  | .proceed n, s =>
      match s.phase with
      | .topUp 0 => some { s with phase := .joining }
      | .topUp (k + 1) =>
          match s.iter with
          | [] => some { s with phase := .joining }
          | path :: iter => some ({ s with iter, phase := .topUp k }.spawn path)
      | .joining =>
          if s.running.isEmpty && s.finished.isEmpty then some (s.finishWith (.ok s.results))
          else
            s.finished[n]?.map fun task =>
              joined work mapJoinError { s with finished := s.finished.eraseIdx n } task
      | .returned _ => none

/-- Steps, one after the other. -/
inductive Run (work : Task P → Work T E) (mapJoinError : Task P → E) :
    State P T E → List Event → State P T E → Prop
  | nil (s : State P T E) : Run work mapJoinError s [] s
  | cons {s s₁ s' : State P T E} {event : Event} {events : List Event} :
      step work mapJoinError event s = some s₁ → Run work mapJoinError s₁ events s' →
      Run work mapJoinError s (event :: events) s'

variable {work : Task P → Work T E} {mapJoinError : Task P → E} {s s' : State P T E}
  {paths : List P} {maxInFlight : ℕ}

/-! ### What a step can do -/

/-- The tasks of a list of paths. -/
def tasks (paths : List P) : List (Task P) :=
  List.zipWith Task.mk (List.range paths.length) paths

/-- The ways in which a step can go. -/
inductive Steps (work : Task P → Work T E) (mapJoinError : Task P → E) (s : State P T E) :
    State P T E → Prop
  | finish {n : ℕ} {task : Task P} : s.running[n]? = some task →
      Steps work mapJoinError s
        { s with running := s.running.eraseIdx n, finished := s.finished ++ [task] }
  | toppedUp {k : ℕ} : s.phase = .topUp k → k = 0 ∨ s.iter = [] →
      Steps work mapJoinError s { s with phase := .joining }
  | topUp {k : ℕ} {path : P} {iter : List P} : s.phase = .topUp (k + 1) → s.iter = path :: iter →
      Steps work mapJoinError s ({ s with iter, phase := .topUp k }.spawn path)
  | done : s.phase = .joining → s.running = [] → s.finished = [] →
      Steps work mapJoinError s (s.finishWith (.ok s.results))
  | join {n : ℕ} {task : Task P} : s.phase = .joining → s.finished[n]? = some task →
      Steps work mapJoinError s
        (joined work mapJoinError { s with finished := s.finished.eraseIdx n } task)

theorem steps_of_step
    {event : Event} (h : step work mapJoinError event s = some s') :
  Steps work mapJoinError s s'
  := by
  obtain ⟨iter, spawned, running, finished, results, phase⟩ := s
  cases event with
  | finish n =>
      obtain ⟨task, htask, rfl⟩ := Option.map_eq_some_iff.mp h
      exact .finish htask
  | proceed n =>
      rcases phase with (_ | k) | _ | result
      · obtain rfl := Option.some.inj h
        exact .toppedUp rfl (.inl rfl)
      · rcases iter with _ | ⟨path, iter⟩
        · obtain rfl := Option.some.inj h
          exact .toppedUp rfl (.inr rfl)
        · obtain rfl := Option.some.inj h
          exact .topUp rfl rfl
      · simp only [step] at h
        split at h
        next hnone =>
          obtain ⟨hrunning, hfinished⟩ := Bool.and_eq_true_iff.mp hnone
          obtain rfl := Option.some.inj h
          exact .done rfl (List.isEmpty_iff.mp hrunning) (List.isEmpty_iff.mp hfinished)
        next =>
          obtain ⟨task, htask, rfl⟩ := Option.map_eq_some_iff.mp h
          exact .join rfl htask
      · cases h

/-! ### Invariants -/

/-- The tasks that have been started are those of the first paths, in order. -/
structure InOrder (paths : List P) (s : State P T E) : Prop where
  paths_eq : s.spawned.map Task.path ++ s.iter = paths
  ids_eq : s.spawned.map Task.id = List.range s.spawned.length

/-- Each task that has been started is there, or has been joined with its result. -/
def Accounted (work : Task P → Work T E) (s : State P T E) (joined : List (Task P)) : Prop :=
  s.spawned.Perm (s.running ++ s.finished ++ joined) ∧
    List.Forall₂ (fun task value => work task = .ok value) joined s.results

/-- What is the case in each phase. -/
def InPhase (work : Task P → Work T E) (mapJoinError : Task P → E) (maxInFlight : ℕ)
    (s : State P T E) : Prop :=
  match s.phase with
  | .topUp k => Accounted work s [] ∧ s.spawned.length + k = maxInFlight
  | .joining => (∃ joined, Accounted work s joined) ∧ s.alive ≤ maxInFlight ∧
      (s.iter ≠ [] → s.alive = maxInFlight)
  | .returned (.ok results) => s.running = [] ∧ s.finished = [] ∧ s.iter = [] ∧
      ∃ joined, s.spawned.Perm joined ∧
        List.Forall₂ (fun task value => work task = .ok value) joined results
  | .returned (.error e) => s.running = [] ∧ s.finished = [] ∧
      ∃ task ∈ s.spawned, work task = .err e ∨ work task = .panicked ∧ mapJoinError task = e

/-- What is the case after every step. -/
structure Inv (work : Task P → Work T E) (mapJoinError : Task P → E) (paths : List P)
    (maxInFlight : ℕ) (s : State P T E) : Prop where
  inOrder : InOrder paths s
  inPhase : InPhase work mapJoinError maxInFlight s

theorem InOrder.spawn
    {path : P} {iter : List P} (h : InOrder paths s) (hiter : s.iter = path :: iter) :
  InOrder paths ({ s with iter }.spawn path)
  where
    paths_eq := by
      rw [← h.paths_eq, hiter]
      simp [State.spawn]
    ids_eq := by
      simp [State.spawn, h.ids_eq, List.range_succ]

theorem perm_eraseIdx
    {l : List (Task P)} {n : ℕ} {task : Task P} (h : l[n]? = some task) :
  l.Perm (task :: l.eraseIdx n)
  := by
  obtain ⟨hn, rfl⟩ := List.getElem?_eq_some_iff.mp h
  exact (List.getElem_cons_eraseIdx_perm hn).symm

namespace Accounted

variable {done : List (Task P)} {n : ℕ} {task : Task P}

/-- A running task finishes. -/
theorem finish
    (h : Accounted work s done) (htask : s.running[n]? = some task) :
  Accounted work
    { s with running := s.running.eraseIdx n, finished := s.finished ++ [task] } done
  := by
  refine ⟨?_, h.2⟩
  calc s.spawned
    _ ~ (s.running ++ s.finished ++ done) := h.1
    _ ~ (task :: s.running.eraseIdx n ++ s.finished ++ done) :=
      ((perm_eraseIdx htask).append_right _).append_right _
    _ ~ (s.running.eraseIdx n ++ (s.finished ++ [task]) ++ done) := by
      rw [← List.append_assoc (s.running.eraseIdx n)]
      exact (List.perm_append_singleton task _).symm.append_right done

/-- A task is joined with its result. -/
theorem join
    (h : Accounted work s done) (htask : s.finished[n]? = some task) {value : T}
    (hwork : work task = .ok value) :
  Accounted work
    { s with finished := s.finished.eraseIdx n, results := s.results ++ [value] } (done ++ [task])
  := by
  constructor
  · calc s.spawned
      _ ~ (s.running ++ s.finished ++ done) := h.1
      _ ~ (s.running ++ task :: s.finished.eraseIdx n ++ done) :=
        ((perm_eraseIdx htask).append_left _).append_right _
      _ ~ (task :: (s.running ++ s.finished.eraseIdx n) ++ done) :=
        List.perm_middle.append_right _
      _ ~ (s.running ++ s.finished.eraseIdx n ++ (done ++ [task])) := by
        rw [← List.append_assoc]
        exact (List.perm_append_singleton task _).symm
  · exact List.rel_append h.2 (.cons hwork .nil)

/-- A task is started. -/
theorem spawn
    (h : Accounted work s done) (path : P) (iter : List P) :
  Accounted work ({ s with iter }.spawn path) done
  := by
  refine ⟨?_, h.2⟩
  calc s.spawned ++ [Task.mk s.spawned.length path]
    _ ~ (Task.mk s.spawned.length path :: s.spawned) := List.perm_append_singleton _ _
    _ ~ (Task.mk s.spawned.length path :: (s.running ++ s.finished ++ done)) := h.1.cons _
    _ ~ (s.running ++ [Task.mk s.spawned.length path] ++ s.finished ++ done) := by
      rw [List.append_assoc, List.append_assoc, List.append_assoc]
      exact List.perm_middle.symm

end Accounted

/-! ### Steps -/

theorem InOrder.of_eq
    (h : InOrder paths s) (hspawned : s'.spawned = s.spawned) (hiter : s'.iter = s.iter) :
  InOrder paths s'
  where
    paths_eq := by rw [hspawned, hiter, h.paths_eq]
    ids_eq := by rw [hspawned, h.ids_eq]

/-- While the first tasks are started, those that have been are there. -/
theorem Accounted.length
    {done : List (Task P)} (h : Accounted work s done) :
  s.spawned.length = s.alive + done.length
  := by
  rw [h.1.length_eq, List.length_append, List.length_append, State.alive]

/-- A task is joined. -/
theorem InPhase.joined
    {done : List (Task P)} {n : ℕ} {task : Task P} (hphase : s.phase = .joining)
    (hdone : Accounted work s done) (halive : s.alive ≤ maxInFlight)
    (hfull : s.iter ≠ [] → s.alive = maxInFlight) (htask : s.finished[n]? = some task) :
  InPhase work mapJoinError maxInFlight
    (Pump.joined work mapJoinError { s with finished := s.finished.eraseIdx n } task)
  := by
  have hmem : task ∈ s.spawned := by
    rw [hdone.1.mem_iff, List.mem_append, List.mem_append]
    exact .inl (.inr (List.mem_of_getElem? htask))
  have hlength : (s.finished.eraseIdx n).length + 1 = s.finished.length :=
    (perm_eraseIdx htask).length_eq.symm
  rw [Pump.joined]
  rcases hwork : work task with value | e | _
  · have hjoin := hdone.join htask hwork
    rcases hiter : s.iter with _ | ⟨path, iter⟩
    · simp only [InPhase, hphase]
      refine ⟨⟨_, hjoin⟩, ?_, fun h => absurd rfl h⟩
      simp only [State.alive] at halive ⊢
      omega
    · simp only [InPhase, State.spawn, hphase]
      have hspawn := hjoin.spawn path iter
      have hfull' := hfull (by rw [hiter]; nofun)
      simp only [State.alive, List.length_append, List.length_singleton] at halive hfull' ⊢
      refine ⟨⟨_, hspawn⟩, ?_, fun _ => ?_⟩
      · omega
      · omega
  · exact ⟨rfl, rfl, task, hmem, .inl hwork⟩
  · exact ⟨rfl, rfl, task, hmem, .inr ⟨hwork, rfl⟩⟩

/-- Joining a task starts at most the next one. -/
theorem InOrder.joined
    (h : InOrder paths s) (task : Task P) :
  InOrder paths (Pump.joined work mapJoinError s task)
  := by
  rw [Pump.joined]
  rcases work task with value | e | _
  · rcases hiter : s.iter with _ | ⟨path, iter⟩
    · exact h.of_eq rfl hiter.symm
    · exact InOrder.spawn (s := { s with results := s.results ++ [value] }) (h.of_eq rfl rfl) hiter
  · exact h.of_eq rfl rfl
  · exact h.of_eq rfl rfl

/-- Every step keeps the invariant. -/
theorem Inv.step
    (hcap : 0 < maxInFlight) (h : Inv work mapJoinError paths maxInFlight s)
    (hstep : Steps work mapJoinError s s') :
  Inv work mapJoinError paths maxInFlight s'
  := by
  obtain ⟨hinOrder, hinPhase⟩ := h
  cases hstep with
  | @finish n task htask =>
      use hinOrder.of_eq rfl rfl
      have hlength : (s.running.eraseIdx n).length + 1 = s.running.length :=
        (perm_eraseIdx htask).length_eq.symm
      rcases hphase : s.phase with k | _ | (e | results)
      · simp only [InPhase, hphase] at hinPhase ⊢
        exact ⟨hinPhase.1.finish htask, hinPhase.2⟩
      · simp only [InPhase, hphase] at hinPhase ⊢
        obtain ⟨⟨done, hdone⟩, halive, hfull⟩ := hinPhase
        have hsame : State.alive
            { s with running := s.running.eraseIdx n, finished := s.finished ++ [task] }
            = s.alive := by
          simp only [State.alive, List.length_append, List.length_singleton]
          omega
        rw [State.alive] at hsame
        refine ⟨⟨done, hdone.finish htask⟩, ?_, ?_⟩
        · exact hsame.le.trans halive
        · exact fun hiter => hsame.trans (hfull hiter)
      · simp only [InPhase, hphase] at hinPhase
        rw [hinPhase.1] at htask
        cases htask
      · simp only [InPhase, hphase] at hinPhase
        rw [hinPhase.1] at htask
        cases htask
  | @toppedUp k hphase htop =>
      use hinOrder.of_eq rfl rfl
      simp only [InPhase, hphase] at hinPhase ⊢
      obtain ⟨hdone, hremaining⟩ := hinPhase
      have hlength := hdone.length
      rw [List.length_nil] at hlength
      refine ⟨⟨[], hdone⟩, ?_, fun hiter => ?_⟩
      · change s.alive ≤ maxInFlight
        omega
      · change s.alive = maxInFlight
        have hk := htop.resolve_right hiter
        omega
  | @topUp k path iter hphase hiter =>
      constructor
      · exact InOrder.spawn (s := { s with phase := .topUp k }) (hinOrder.of_eq rfl rfl) hiter
      · simp only [InPhase, hphase] at hinPhase
        obtain ⟨hdone, hremaining⟩ := hinPhase
        refine ⟨hdone.spawn path iter, ?_⟩
        simp only [State.spawn, List.length_append, List.length_singleton]
        omega
  | done hphase hrunning hfinished =>
      use hinOrder.of_eq rfl rfl
      simp only [InPhase, hphase] at hinPhase
      obtain ⟨⟨done, hdone⟩, -, hfull⟩ := hinPhase
      have hiter : s.iter = [] := by
        by_contra hne
        have halive := hfull hne
        rw [State.alive, hrunning, hfinished] at halive
        simp only [List.length_nil] at halive
        omega
      refine ⟨rfl, rfl, hiter, done, ?_, hdone.2⟩
      have hperm := hdone.1
      rw [hrunning, hfinished] at hperm
      exact hperm
  | @join n task hphase htask =>
      have hsame : InOrder paths { s with finished := s.finished.eraseIdx n } :=
        hinOrder.of_eq rfl rfl
      use hsame.joined task
      rw [InPhase, hphase] at hinPhase
      obtain ⟨⟨done, hdone⟩, halive, hfull⟩ := hinPhase
      exact InPhase.joined hphase hdone halive hfull htask

theorem inv_start
    (paths : List P) (maxInFlight : ℕ) :
  Inv work mapJoinError paths maxInFlight (start paths maxInFlight)
  where
    inOrder := ⟨rfl, rfl⟩
    inPhase := ⟨⟨.refl _, .nil⟩, Nat.zero_add _⟩

/-- Every run keeps the invariant. -/
theorem Inv.run
    (hcap : 0 < maxInFlight) {events : List Event} (hrun : Run work mapJoinError s events s')
    (h : Inv work mapJoinError paths maxInFlight s) :
  Inv work mapJoinError paths maxInFlight s'
  := by
  induction hrun with
  | nil => exact h
  | cons hstep hrun ih => exact ih (h.step hcap (steps_of_step hstep))

/-! ### Termination -/

/-- How many steps are left at most. -/
def measure (s : State P T E) : ℕ :=
  3 * s.iter.length + 2 * s.running.length + s.finished.length +
    match s.phase with
    | .topUp _ => 2
    | .joining => 1
    | .returned _ => 0

/-- Every step takes something off what is left. -/
theorem measure_lt
    (hstep : Steps work mapJoinError s s') :
  measure s' < measure s
  := by
  cases hstep with
  | @finish n task htask =>
      have hlength : (s.running.eraseIdx n).length + 1 = s.running.length :=
        (perm_eraseIdx htask).length_eq.symm
      simp only [measure, List.length_append, List.length_singleton]
      omega
  | toppedUp hphase htop =>
      simp only [measure, hphase]
      omega
  | topUp hphase hiter =>
      simp only [measure, hphase, hiter, State.spawn, List.length_append, List.length_cons,
        List.length_nil]
      omega
  | done hphase hrunning hfinished =>
      simp only [measure, hphase, State.finishWith, List.length_nil]
      omega
  | @join n task hphase htask =>
      have hlength : (s.finished.eraseIdx n).length + 1 = s.finished.length :=
        (perm_eraseIdx htask).length_eq.symm
      rw [joined]
      rcases work task with value | e | _
      · rcases hiter : s.iter with _ | ⟨path, iter⟩
        · simp only [measure, hphase, hiter]
          omega
        · simp only [measure, hphase, hiter, State.spawn, List.length_append,
            List.length_cons, List.length_nil]
          omega
      · simp only [measure, hphase, State.finishWith, List.length_nil]
        omega
      · simp only [measure, hphase, State.finishWith, List.length_nil]
        omega

theorem Run.length_le
    {events : List Event} (hrun : Run work mapJoinError s events s') :
  events.length + measure s' ≤ measure s
  := by
  induction hrun with
  | nil => simp
  | cons hstep hrun ih =>
      have hlt := measure_lt (steps_of_step hstep)
      rw [List.length_cons]
      omega

/-- As long as it has not returned the pump can go on once no task is running. -/
theorem exists_step
    (hrunning : s.running = []) (hphase : ∀ result, s.phase ≠ .returned result) :
  ∃ s', step work mapJoinError (.proceed 0) s = some s'
  := by
  obtain ⟨iter, spawned, running, finished, results, phase⟩ := s
  obtain rfl : running = [] := hrunning
  rcases phase with (_ | k) | _ | result
  · exact ⟨_, rfl⟩
  · rcases iter with _ | ⟨path, iter⟩
    · exact ⟨_, rfl⟩
    · exact ⟨_, rfl⟩
  · rcases finished with _ | ⟨task, finished⟩
    · exact ⟨_, rfl⟩
    · exact ⟨_, rfl⟩
  · exact absurd rfl (hphase result)

/-! ### Scans -/

/-- All paths have been started if none is left. -/
theorem InOrder.spawned_eq
    (h : InOrder paths s) (hiter : s.iter = []) :
  s.spawned = tasks paths
  := by
  have hpaths := h.paths_eq
  rw [hiter, List.append_nil] at hpaths
  have hzip : s.spawned = List.zipWith Task.mk (s.spawned.map Task.id) (s.spawned.map Task.path) := by
    rw [List.zipWith_map_left, List.zipWith_map_right, List.zipWith_self]
    exact (List.map_id _).symm
  have hlength : s.spawned.length = paths.length := by rw [← hpaths, List.length_map]
  rw [hzip, hpaths, h.ids_eq, hlength]
  rfl

/-- There are never more tasks than allowed. -/
theorem Inv.alive_le
    (h : Inv work mapJoinError paths maxInFlight s) :
  s.alive ≤ maxInFlight
  := by
  have hinPhase := h.inPhase
  rcases hphase : s.phase with k | _ | (e | results)
  · simp only [InPhase, hphase] at hinPhase
    have hlength := hinPhase.1.length
    rw [List.length_nil] at hlength
    omega
  · simp only [InPhase, hphase] at hinPhase
    exact hinPhase.2.1
  · simp only [InPhase, hphase] at hinPhase
    rw [State.alive, hinPhase.1, hinPhase.2.1]
    exact Nat.zero_le _
  · simp only [InPhase, hphase] at hinPhase
    rw [State.alive, hinPhase.1, hinPhase.2.1]
    exact Nat.zero_le _

/-- In every run of a scan there are never more tasks than allowed, and those that have been started
are those of the first paths, in order. A scan that returns results has the result of each path once,
in some order; one that returns an error has that of a task that failed. Nothing happens after that.
The number of steps is bounded, and there is one as long as the scan has not returned and no task is
running. -/
theorem boundedParallelScan_spec
    (paths : List P) (maxInFlight : ℕ) (hcap : 0 < maxInFlight) (work : Task P → Work T E)
    (mapJoinError : Task P → E) (events : List Event) (s : State P T E)
    (hrun : Run work mapJoinError (start paths maxInFlight) events s) :
  s.alive ≤ maxInFlight ∧
    (s.spawned.map Task.path <+: paths ∧ s.spawned.map Task.id = List.range s.spawned.length) ∧
    (∀ results, s.phase = .returned (.ok results) →
      ∃ values, List.Forall₂ (fun task value => work task = .ok value) (tasks paths) values ∧
        results ~ values) ∧
    (∀ e, s.phase = .returned (.error e) → ∃ task ∈ s.spawned,
      work task = .err e ∨ work task = .panicked ∧ mapJoinError task = e) ∧
    (∀ result, s.phase = .returned result →
      s.alive = 0 ∧ ∀ event, step work mapJoinError event s = none) ∧
    events.length ≤ 3 * paths.length + 2 ∧
    ((∀ result, s.phase ≠ .returned result) → s.running = [] →
      ∃ s', step work mapJoinError (.proceed 0) s = some s')
  := by
  have hinv := Inv.run hcap hrun (inv_start paths maxInFlight)
  refine ⟨hinv.alive_le, ⟨⟨s.iter, hinv.inOrder.paths_eq⟩, hinv.inOrder.ids_eq⟩, ?_, ?_, ?_, ?_,
    fun hphase hrunning => exists_step hrunning hphase⟩
  · intro results hphase
    have hinPhase := hinv.inPhase
    simp only [InPhase, hphase] at hinPhase
    obtain ⟨-, -, hiter, done, hperm, hdone⟩ := hinPhase
    rw [hinv.inOrder.spawned_eq hiter] at hperm
    obtain ⟨values, hvalues, hresults⟩ := List.perm_comp_forall₂ hperm hdone
    exact ⟨values, hvalues, hresults.symm⟩
  · intro e hphase
    have hinPhase := hinv.inPhase
    simp only [InPhase, hphase] at hinPhase
    exact hinPhase.2.2
  · intro result hphase
    have hnone : s.running = [] ∧ s.finished = [] := by
      have hinPhase := hinv.inPhase
      rcases result with e | results
      · simp only [InPhase, hphase] at hinPhase
        exact ⟨hinPhase.1, hinPhase.2.1⟩
      · simp only [InPhase, hphase] at hinPhase
        exact ⟨hinPhase.1, hinPhase.2.1⟩
    constructor
    · rw [State.alive, hnone.1, hnone.2]
      rfl
    · rintro (n | n)
      · rw [step, hnone.1]
        rfl
      · rw [step, hphase]
  · have hlength := hrun.length_le
    simp only [measure, start, List.length_nil] at hlength
    omega

/-- Two paths, one task at a time. -/
theorem boundedParallelScan_two :
  ∃ s : State ℕ ℕ Unit,
    Run (fun task => .ok task.path) (fun _ => ()) (start [7, 8] 1)
      [.proceed 0, .proceed 0, .finish 0, .proceed 0, .finish 0, .proceed 0, .proceed 0] s ∧
    s.results = [7, 8] ∧ s.alive ≤ 1
  := by
  have hrun : Run (E := Unit) (fun task : Task ℕ => .ok task.path) (fun _ => ()) (start [7, 8] 1)
      [.proceed 0, .proceed 0, .finish 0, .proceed 0, .finish 0, .proceed 0, .proceed 0]
      ⟨[], [⟨0, 7⟩, ⟨1, 8⟩], [], [], [7, 8], .returned (.ok [7, 8])⟩ :=
    .cons rfl (.cons rfl (.cons rfl (.cons rfl (.cons rfl (.cons rfl (.cons rfl (.nil _)))))))
  exact ⟨_, hrun, rfl, (boundedParallelScan_spec [7, 8] 1 Nat.one_pos _ _ _ _ hrun).1⟩

end TinyS3Proxy.Pump
