import TinyS3Proxy.Coop.Pool

/-!
# Rely and guarantee

A discipline says what the tasks of a pool owe each other: an invariant of the state,
what a task may rely on while it is suspended, and what every change of the state
guarantees. The weakest precondition `WP` of a piece of code is read off its tree: each
node must keep the discipline, from every state the node may be resumed in.

The rule `Good.step` is the soundness of the discipline: when all code that may be
started is verified by `WP`, the invariant holds along every run, and every step of a
run is made of changes that the discipline allows.
-/

namespace Coop

variable {σ α β γ : Type}

/-- What the tasks over a state owe each other. -/
structure Discipline (σ : Type) where
  /-- The invariant of the state. -/
  Inv : σ → Prop
  /-- What a task relies on while it is suspended. -/
  Rely : ℕ → σ → σ → Prop
  /-- What every change of the state guarantees. -/
  Change : σ → σ → Prop
  /-- What a task that has not been started does not own. -/
  Idle : ℕ → σ → Prop
  rely_refl : ∀ t s, Rely t s s
  rely_trans : ∀ {t s₁ s₂ s₃}, Rely t s₁ s₂ → Rely t s₂ s₃ → Rely t s₁ s₃
  rely_idle : ∀ {t s s'}, Rely t s s' → Idle t s → Idle t s'

namespace Discipline

/-- The change from `s` to `s'` by the task `t` keeps the discipline. -/
structure Guar (D : Discipline σ) (t : ℕ) (s s' : σ) : Prop where
  inv : D.Inv s'
  change : D.Change s s'
  rely : ∀ t', t' ≠ t → D.Rely t' s s'

/-- The code, run by the task `t` from the state `s`, keeps the discipline, and returns
only in states that satisfy `Q`. -/
def WP (D : Discipline σ) (t : ℕ) : Async σ α → (α → σ → Prop) → σ → Prop
  | .ret a, Q, s => Q a s
  | .sync f k, Q, s => D.Inv s → D.Guar t s (f t s).2 ∧ D.WP t (k (f t s).1) Q (f t s).2
  | .await f k, Q, s => ∀ s₁ c b s₂, D.Inv s₁ → D.Rely t s s₁ → f t c s₁ = some (b, s₂) →
      D.Guar t s₁ s₂ ∧ D.WP t (k b) Q s₂

variable {D : Discipline σ} {t : ℕ}

/-- The precondition of code is monotone in its postcondition. -/
theorem WP.mono
    {p : Async σ α} {Q Q' : α → σ → Prop} {s : σ}
    (h : D.WP t p Q s) (hQ : ∀ a s', Q a s' → Q' a s') :
  D.WP t p Q' s
  := by
  induction p generalizing s with
  | ret a => apply hQ a s h
  | sync f k ih =>
      intro hs
      obtain ⟨hG, hk⟩ := h hs
      use hG
      apply ih _ hk
  | await f k ih =>
      intro s₁ c b s₂ hs₁ hR hf
      obtain ⟨hG, hk⟩ := h s₁ c b s₂ hs₁ hR hf
      use hG
      apply ih _ hk

/-- The precondition of a sequential composition. -/
theorem WP.bind
    {p : Async σ α} {q : α → Async σ β} {Q : β → σ → Prop} {s : σ}
    (h : D.WP t p (fun a s' => D.WP t (q a) Q s') s) :
  D.WP t (p >>= q) Q s
  := by
  induction p generalizing s with
  | ret a => apply h
  | sync f k ih =>
      intro hs
      obtain ⟨hG, hk⟩ := h hs
      use hG
      apply ih _ hk
  | await f k ih =>
      intro s₁ c b s₂ hs₁ hR hf
      obtain ⟨hG, hk⟩ := h s₁ c b s₂ hs₁ hR hf
      use hG
      apply ih _ hk

/-- A composition whose first part is verified for `Q` needs its second part to be
verified wherever `Q` holds. -/
theorem WP.seq
    {p : Async σ α} {q : α → Async σ β} {Q : α → σ → Prop} {Q' : β → σ → Prop} {s : σ}
    (h : D.WP t p Q s) (hq : ∀ a s', Q a s' → D.WP t (q a) Q' s') :
  D.WP t (p >>= q) Q' s
  := by
  apply WP.bind
  apply WP.mono h hq

/-- Running code for every element of a list keeps what each run keeps. -/
theorem WP.forEach
    {p : γ → Async σ Unit} {J : σ → Prop} {xs : List γ} {s : σ}
    (h : ∀ x ∈ xs, ∀ s, J s → D.WP t (p x) (fun _ s' => J s') s) (hs : J s) :
  D.WP t (Async.forEach xs p) (fun _ s' => J s') s
  := by
  induction xs generalizing s with
  | nil => apply hs
  | cons x xs ih =>
      apply WP.seq (h x List.mem_cons_self s hs)
      intro _ s' hs'
      apply ih _ hs'
      intro y hy
      apply h y (List.mem_cons_of_mem x hy)

/-- Code that runs under a condition is verified when it is verified to keep what holds. -/
theorem WP.when
    {b : Bool} {p : Async σ Unit} {J : σ → Prop} {s : σ} (hs : J s)
    (hp : b = true → D.WP t p (fun _ s' => J s') s) :
  D.WP t (Async.when b p) (fun _ s' => J s') s
  := by
  cases b with
  | false => exact hs
  | true => exact hp rfl

/-- Suspended code is verified in every state its task may rely on. -/
theorem WP.rely
    {p : Async σ α} {Q : α → σ → Prop} {s s' : σ} (hp : p.Settled)
    (hQ : ∀ a, Q a s → Q a s') (h : D.WP t p Q s) (hR : D.Rely t s s') :
  D.WP t p Q s'
  := by
  cases p with
  | ret a => apply hQ a h
  | sync f k => cases hp
  | await f k =>
      intro s₁ c b s₂ hs₁ hR₁ hf
      apply h s₁ c b s₂ hs₁ _ hf
      apply D.rely_trans hR hR₁

/-! ### Atomic sections keep the discipline -/

/-- The states passed through by the changes of one atomic section of the task `t`. -/
def Section (D : Discipline σ) (t : ℕ) : σ → σ → Prop := Relation.ReflTransGen (D.Guar t)

/-- Another task may rely on an atomic section of the task `t`. -/
theorem Section.rely
    {s s' : σ} (h : D.Section t s s') {t' : ℕ} (ht : t' ≠ t) :
  D.Rely t' s s'
  := by
  induction h with
  | refl => apply D.rely_refl
  | tail _ hG ih => apply D.rely_trans ih (hG.rely t' ht)

/-- The state `s'` is reached from `s` by changes that the discipline allows, and the
invariant holds all along. -/
def Trace (D : Discipline σ) : σ → σ → Prop :=
  Relation.ReflTransGen fun s s' => D.Inv s' ∧ D.Change s s'

/-- The invariant holds at the end of a trace. -/
theorem Trace.inv
    {s s' : σ} (h : D.Trace s s') (hs : D.Inv s) :
  D.Inv s'
  := by
  induction h with
  | refl => apply hs
  | tail _ hC _ => apply hC.1

/-- An atomic section is made of changes that the discipline allows. -/
theorem Section.trace
    {s s' : σ} (h : D.Section t s s') :
  D.Trace s s'
  := by
  induction h with
  | refl => apply Relation.ReflTransGen.refl
  | tail _ hG ih => apply Relation.ReflTransGen.tail ih ⟨hG.inv, hG.change⟩

/-- An atomic section keeps the invariant. -/
theorem Section.inv
    {s s' : σ} (h : D.Section t s s') (hs : D.Inv s) :
  D.Inv s'
  := by
  induction h with
  | refl => apply hs
  | tail _ hG _ => apply hG.inv

/-- Running verified code up to its next suspension is an atomic section, and the
suspended code is verified. -/
theorem WP.settle
    {p : Async σ α} {Q : α → σ → Prop} {s : σ} (hs : D.Inv s) (h : D.WP t p Q s) :
  D.Section t s (p.settle t s).2 ∧ D.WP t (p.settle t s).1 Q (p.settle t s).2
  := by
  induction p generalizing s with
  | ret a =>
      constructor
      · apply Relation.ReflTransGen.refl
      · apply h
  | sync f k ih =>
      obtain ⟨hG, hk⟩ := h hs
      obtain ⟨hS, hW⟩ := ih _ hG.inv hk
      constructor
      · apply Relation.ReflTransGen.head hG hS
      · apply hW
  | await f k _ =>
      constructor
      · apply Relation.ReflTransGen.refl
      · apply h

/-! ### Soundness -/

/-- The surroundings of a pool keep the discipline, and all code that may be started in
it is verified. -/
structure Sound (D : Discipline σ) (S : System σ) : Prop where
  spawn : ∀ p, S.spawns p → ∀ t s, D.Inv s → D.Idle t s → D.WP t p (fun _ _ => True) s
  drop : ∀ t s, D.Inv s → S.droppable t s → D.Guar t s (S.onDrop t s)
  env : ∀ s s', D.Inv s → S.env s s' → D.Inv s' ∧ D.Change s s' ∧ ∀ t, D.Rely t s s'
  reset : ∀ s s', D.Inv s → S.reset s s' →
    D.Inv s' ∧ D.Change s s' ∧ ∀ t, D.Idle t s → D.Idle t s'

/-- The state of the pool satisfies the invariant, all its tasks are suspended and
verified, and the tasks that have not been started own nothing. -/
structure Good (D : Discipline σ) (P : Pool σ) : Prop where
  inv : D.Inv P.st
  idle : ∀ t, P.next ≤ t → D.Idle t P.st
  started : ∀ {t p}, P.tasks t = some p → t < P.next
  settled : ∀ t p, P.tasks t = some p → p.Settled
  verified : ∀ t p, P.tasks t = some p → D.WP t p (fun _ _ => True) P.st

/-- A pool without tasks is good when its state satisfies the invariant. -/
theorem Good.of_idle
    {s : σ} {n : ℕ} (hs : D.Inv s) (hi : ∀ t, n ≤ t → D.Idle t s) :
  D.Good (Pool.idle s n)
  where
  inv := hs
  idle := hi
  started := by
    intro t p h
    cases h
  settled := by
    intro t p h
    cases h
  verified := by
    intro t p h
    cases h

/-- Resuming a task of a good pool with verified code, in a state that the task has
reached within the discipline, gives a good pool. The tasks from `n` on are those that
have not been started afterwards. -/
theorem Good.resume
    {P : Pool σ} {p : Async σ Unit} {s : σ} {n : ℕ} (hP : D.Good P) (hn : P.next ≤ n)
    (htn : t < n) (hS : D.Section t P.st s) (hp : D.WP t p (fun _ _ => True) s) :
  D.Good { P.resume t p s with next := n } ∧ D.Section t P.st (P.resume t p s).st
  := by
  have hs : D.Inv s := hS.inv hP.inv
  obtain ⟨hS', hW⟩ := WP.settle hs hp
  have hSec : D.Section t P.st (p.settle t s).2 := Relation.ReflTransGen.trans hS hS'
  refine ⟨⟨hS'.inv hs, ?_, ?_, ?_, ?_⟩, hSec⟩
  · intro t' ht'
    apply D.rely_idle (hSec.rely (htn.trans_le ht').ne')
    apply hP.idle t' (hn.trans ht')
  · intro t' p' h'
    by_cases ht : t' = t
    · subst ht
      exact htn
    · apply lt_of_lt_of_le _ hn
      apply hP.started (t := t') (p := p')
      simpa [Pool.resume, ht] using h'
  · intro t' p' h'
    by_cases ht : t' = t
    · subst ht
      obtain rfl : (p.settle t' s).1 = p' := by simpa [Pool.resume] using h'
      apply Async.settled_settle
    · apply hP.settled t'
      simpa [Pool.resume, ht] using h'
  · intro t' p' h'
    by_cases ht : t' = t
    · subst ht
      obtain rfl : (p.settle t' s).1 = p' := by simpa [Pool.resume] using h'
      apply hW
    · have h₀ : P.tasks t' = some p' := by simpa [Pool.resume, ht] using h'
      apply WP.rely (hP.settled t' p' h₀) _ (hP.verified t' p' h₀)
      · apply hSec.rely ht
      · intro _ h
        apply h

/-- A step of a good pool gives a good pool, and is made of changes that the discipline
allows. -/
theorem Good.step
    {S : System σ} (hD : D.Sound S) {P P' : Pool σ} (hP : D.Good P) (h : Pool.Step S P P') :
  D.Good P' ∧ D.Trace P.st P'.st
  := by
  cases h with
  | spawn hp =>
      obtain ⟨hG, hS⟩ := hP.resume (Nat.le_succ P.next) (Nat.lt_succ_self P.next)
        Relation.ReflTransGen.refl
        (hD.spawn _ hp P.next P.st hP.inv (hP.idle P.next le_rfl))
      use hG
      apply hS.trace
  | @run t c _ f k b s hk hf =>
      obtain ⟨hG, hW⟩ := hP.verified _ _ hk P.st c b s hP.inv (D.rely_refl _ _) hf
      obtain ⟨hG', hS⟩ := hP.resume le_rfl (hP.started hk) (Relation.ReflTransGen.single hG) hW
      use hG'
      apply hS.trace
  | @drop t p h hd =>
      have hG : D.Guar t P.st (S.onDrop t P.st) := hD.drop t P.st hP.inv hd
      refine ⟨⟨hG.inv, ?_, ?_, ?_, ?_⟩, Relation.ReflTransGen.single ⟨hG.inv, hG.change⟩⟩
      · intro t' ht'
        apply D.rely_idle (hG.rely t' ((hP.started h).trans_le ht').ne')
        apply hP.idle t' ht'
      · intro t' p' h'
        by_cases ht : t' = t
        · simp [Pool.drop, ht] at h'
        · apply hP.started
          simpa [Pool.drop, ht] using h'
      · intro t' p' h'
        by_cases ht : t' = t
        · simp [Pool.drop, ht] at h'
        · apply hP.settled t'
          simpa [Pool.drop, ht] using h'
      · intro t' p' h'
        by_cases ht : t' = t
        · simp [Pool.drop, ht] at h'
        · have h₀ : P.tasks t' = some p' := by simpa [Pool.drop, ht] using h'
          apply WP.rely (hP.settled t' p' h₀) _ (hP.verified t' p' h₀) (hG.rely t' ht)
          intro _ h
          apply h
  | env h =>
      obtain ⟨hs, hC, hR⟩ := hD.env _ _ hP.inv h
      refine ⟨⟨hs, ?_, hP.started, hP.settled, ?_⟩, Relation.ReflTransGen.single ⟨hs, hC⟩⟩
      · intro t ht
        apply D.rely_idle (hR t) (hP.idle t ht)
      · intro t p hp
        apply WP.rely (hP.settled t p hp) _ (hP.verified t p hp) (hR t)
        intro _ h
        apply h
  | reset h =>
      obtain ⟨hs, hC, hi⟩ := hD.reset _ _ hP.inv h
      use Good.of_idle hs fun t ht => hi t (hP.idle t ht)
      apply Relation.ReflTransGen.single ⟨hs, hC⟩

/-- Every pool that a run of a good pool reaches is good, and the run is made of changes
that the discipline allows. -/
theorem Good.steps
    {S : System σ} (hD : D.Sound S) {P P' : Pool σ} (hP : D.Good P) (h : Pool.Steps S P P') :
  D.Good P' ∧ D.Trace P.st P'.st
  := by
  induction h with
  | refl => exact ⟨hP, Relation.ReflTransGen.refl⟩
  | tail _ h₂ ih =>
      obtain ⟨hG, hC⟩ := ih
      obtain ⟨hG', hC'⟩ := hG.step hD h₂
      use hG'
      apply Relation.ReflTransGen.trans hC hC'

end Discipline

end Coop
