import TinyS3Proxy.Effect.Fallible

/-!
# Two runs of the same code

Code agrees on related states when its runs from them have the same outcome, and end in related
states if they do not fail. Code in sequence agrees when its parts do.
-/

namespace Effect

variable {σ ε α β : Type} {R : σ → σ → Prop}

/-- Runs from related states have the same outcome, and when they return, they end in related
states. -/
structure Agrees (R : σ → σ → Prop) (p : Fallible σ ε α) : Prop where
  outcome : ∀ {s t}, R s t → (exec p s).1 = (exec p t).1
  state : ∀ {s t a}, R s t → (exec p s).1 = .ok a → R (exec p s).2 (exec p t).2

theorem Agrees.bind
    {p : Fallible σ ε α} {q : α → Fallible σ ε β} (hp : Agrees R p) (hq : ∀ a, Agrees R (q a)) :
  Agrees R (p >>= q)
  where
  outcome := by
    intro s t h
    have ho := hp.outcome h
    rw [exec_bind, exec_bind]
    rcases hs : exec p s with ⟨e | a, s'⟩
    · rcases ht : exec p t with ⟨e' | a', t'⟩
      · rw [hs, ht] at ho
        exact congrArg Except.error (Except.error.inj ho)
      · rw [hs, ht] at ho
        cases ho
    · have hst := hp.state h (congrArg Prod.fst hs)
      rcases ht : exec p t with ⟨e' | a', t'⟩
      · rw [hs, ht] at ho
        cases ho
      · rw [hs, ht] at ho hst
        obtain rfl := Except.ok.inj ho
        exact (hq a).outcome hst
  state := by
    intro s t b h hb
    have ho := hp.outcome h
    rw [exec_bind] at hb
    rw [exec_bind, exec_bind]
    rcases hs : exec p s with ⟨e | a, s'⟩
    · rw [hs] at hb
      cases hb
    · have hst := hp.state h (congrArg Prod.fst hs)
      rw [hs] at hb
      rcases ht : exec p t with ⟨e' | a', t'⟩
      · rw [hs, ht] at ho
        cases ho
      · rw [hs, ht] at ho hst
        obtain rfl := Except.ok.inj ho
        exact (hq a).state hst hb

/-- Code that does not touch the state, and whose outcome is that of related states, agrees. -/
theorem agrees_of_exec_eq
    {p : Fallible σ ε α} {f : σ → Except ε α} (h : ∀ s, exec p s = (f s, s))
    (hf : ∀ s t, R s t → f s = f t) :
  Agrees R p
  where
  outcome := by
    intro s t hst
    rw [h, h]
    exact hf s t hst
  state := by
    intro s t a hst _
    rw [h, h]
    exact hst

theorem agrees_pure
    (a : α) :
  Agrees R (pure a : Fallible σ ε α)
  := agrees_of_exec_eq (fun s => exec_pure a s) fun _ _ _ => rfl

theorem agrees_throw
    (e : ε) :
  Agrees R (throw e : Fallible σ ε α)
  := agrees_of_exec_eq (fun s => exec_throw e s) fun _ _ _ => rfl

theorem agrees_require
    (b : Bool) (e : ε) :
  Agrees R (require b e)
  := agrees_of_exec_eq (fun s => exec_require b e s) fun _ _ _ => rfl

theorem agrees_outcome
    (x : Except ε α) :
  Agrees R (outcome x)
  := agrees_of_exec_eq (fun s => exec_outcome x s) fun _ _ _ => rfl

theorem agrees_demand
    (o : Option α) (e : ε) :
  Agrees R (demand o e)
  := agrees_of_exec_eq (fun s => exec_demand o e s) fun _ _ _ => rfl

theorem agrees_reads
    {f : σ → α} (hf : ∀ s t, R s t → f s = f t) :
  Agrees R (reads f : Fallible σ ε α)
  := agrees_of_exec_eq (fun s => exec_reads f s) fun s t h => congrArg Except.ok (hf s t h)

theorem agrees_modify
    {f : σ → σ} (hf : ∀ s t, R s t → R (f s) (f t)) :
  Agrees R (modify f : Fallible σ ε Unit)
  where
  outcome := by
    intro s t _
    rfl
  state := by
    intro s t a h _
    exact hf s t h

/-- An operation on the state agrees when its outcomes do, up to the names of the errors. -/
theorem agrees_attempt
    {ε' : Type} {f : σ → Except ε' α × σ} {fault : ε' → ε}
    (hf : ∀ s t, R s t → (f s).1 = (f t).1)
    (hstate : ∀ s t a, R s t → (f s).1 = .ok a → R (f s).2 (f t).2) :
  Agrees R (attempt f fault)
  where
  outcome := by
    intro s t h
    have ho := hf s t h
    rw [exec_attempt, exec_attempt]
    rcases hs : f s with ⟨e | a, s'⟩
    · rcases ht : f t with ⟨e' | a', t'⟩
      · rw [hs, ht] at ho
        obtain rfl := Except.error.inj ho
        rfl
      · rw [hs, ht] at ho
        cases ho
    · rcases ht : f t with ⟨e' | a', t'⟩
      · rw [hs, ht] at ho
        cases ho
      · rw [hs, ht] at ho
        exact congrArg Except.ok (Except.ok.inj ho)
  state := by
    intro s t a h ha
    have ho := hf s t h
    rw [exec_attempt] at ha
    rw [exec_attempt, exec_attempt]
    rcases hs : f s with ⟨e | a', s'⟩
    · rw [hs] at ha
      cases ha
    · have hst := hstate s t a' h (congrArg Prod.fst hs)
      rcases ht : f t with ⟨e' | b, t'⟩
      · rw [hs, ht] at ho
        cases ho
      · rw [hs, ht] at hst
        exact hst

end Effect
