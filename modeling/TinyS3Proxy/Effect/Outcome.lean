import TinyS3Proxy.Effect.Fallible

/-!
# Outcomes of fallible code

What holds after a run of fallible code from a state: of the value and the state if it returns, and
of the error and the state if it fails. The rules follow the code.
-/

namespace Effect

variable {σ ε α β : Type}

/-- Run from the state `s`, the code returns with `Q` or fails with `F`. -/
structure Leads (p : Fallible σ ε α) (s : σ) (Q : α → σ → Prop) (F : ε → σ → Prop) : Prop where
  returns : ∀ a s', Returns p s a s' → Q a s'
  fails : ∀ e s', Fails p s e s' → F e s'

variable {s : σ} {Q Q' : α → σ → Prop} {F F' : ε → σ → Prop}

theorem Leads.mono
    {p : Fallible σ ε α} (h : Leads p s Q F) (hQ : ∀ a s', Q a s' → Q' a s')
    (hF : ∀ e s', F e s' → F' e s') :
  Leads p s Q' F'
  where
    returns a s' hrun := hQ a s' (h.returns a s' hrun)
    fails e s' hrun := hF e s' (h.fails e s' hrun)

theorem Leads.and
    {p : Fallible σ ε α} (h : Leads p s Q F) (h' : Leads p s Q' F') :
  Leads p s (fun a s' => Q a s' ∧ Q' a s') (fun e s' => F e s' ∧ F' e s')
  where
    returns a s' hrun := ⟨h.returns a s' hrun, h'.returns a s' hrun⟩
    fails e s' hrun := ⟨h.fails e s' hrun, h'.fails e s' hrun⟩

theorem leads_pure
    {a : α} (h : Q a s) :
  Leads (pure a) s Q F
  where
    returns a' s' hrun := by
      obtain ⟨rfl, rfl⟩ := returns_pure.mp hrun
      exact h
    fails e s' hrun := (not_fails_pure hrun).elim

theorem leads_throw
    {e : ε} (h : F e s) :
  Leads (throw e) s Q F
  where
    returns a s' hrun := (not_returns_throw hrun).elim
    fails e' s' hrun := by
      obtain ⟨rfl, rfl⟩ := fails_throw.mp hrun
      exact h

theorem leads_modify
    {f : σ → σ} {Q : Unit → σ → Prop} (h : Q () (f s)) :
  Leads (modify f) s Q F
  where
    returns a s' hrun := by
      obtain rfl := returns_modify.mp hrun
      exact h
    fails e s' hrun := (not_fails_modify hrun).elim

theorem leads_reads
    {f : σ → α} (h : Q (f s) s) :
  Leads (reads f) s Q F
  where
    returns a s' hrun := by
      obtain ⟨rfl, rfl⟩ := returns_reads.mp hrun
      exact h
    fails e s' hrun := (not_fails_reads hrun).elim

theorem leads_modifyGet
    {f : σ → α × σ} (h : Q (f s).1 (f s).2) :
  Leads (modifyGet f) s Q F
  where
    returns a s' hrun := by
      obtain ⟨rfl, rfl⟩ : (f s).1 = a ∧ (f s).2 = s' := by
        obtain ⟨ha, hs⟩ := Prod.mk.inj hrun
        exact ⟨Except.ok.inj ha, hs⟩
      exact h
    fails e s' hrun := by cases (Prod.mk.inj hrun).1

/-- Code in sequence does what its first part does if that fails, and what its second part does
from where the first one returns. -/
theorem Leads.bind
    {p : Fallible σ ε α} {q : α → Fallible σ ε β} {Q : β → σ → Prop}
    (h : Leads p s (fun a s₁ => Leads (q a) s₁ Q F) F) :
  Leads (p >>= q) s Q F
  where
    returns b s' hrun := by
      obtain ⟨a, s₁, hp, hq⟩ := returns_bind.mp hrun
      exact (h.returns a s₁ hp).returns b s' hq
    fails e s' hrun := by
      rcases fails_bind.mp hrun with hp | ⟨a, s₁, hp, hq⟩
      · exact h.fails e s' hp
      · exact (h.returns a s₁ hp).fails e s' hq

/-- Code in sequence, by what its first part leads to. -/
theorem Leads.seq
    {p : Fallible σ ε α} {q : α → Fallible σ ε β} {R : α → σ → Prop} {Q : β → σ → Prop}
    {G : ε → σ → Prop} (h : Leads p s R G) (hq : ∀ a s₁, R a s₁ → Leads (q a) s₁ Q F)
    (hF : ∀ e s', G e s' → F e s') :
  Leads (p >>= q) s Q F
  := (h.mono hq hF).bind

/-- Code that does not fail returns. -/
theorem Leads.exists_returns
    {p : Fallible σ ε α} (h : Leads p s Q fun _ _ => False) :
  ∃ a s', Returns p s a s' ∧ Q a s'
  := by
  rcases hrun : exec p s with ⟨e | a, s'⟩
  · exact (h.fails e s' hrun).elim
  · exact ⟨a, s', hrun, h.returns a s' hrun⟩

end Effect
