import Mathlib.Logic.Relation
import Mathlib.Data.List.Infix

/-!
# Logs

A run whose states carry a log, to which every step adds at most one event. From an event
in the log of the last state one gets back the step of the run that has added it.
-/

namespace Coop

variable {σ ε : Type} {log : σ → List ε} {R : σ → σ → Prop}

/-- Every step adds at most one event to the log. -/
def Logs (log : σ → List ε) (R : σ → σ → Prop) : Prop :=
  ∀ s s', R s s' → log s' = log s ∨ ∃ e, log s' = log s ++ [e]

/-- The log only grows. -/
theorem Logs.grows
    {s s' : σ} (hR : Logs log R) (h : Relation.ReflTransGen R s s') :
  log s <+: log s'
  := by
  induction h with
  | refl => exact List.prefix_rfl
  | tail _ hstep ih =>
      obtain hsame | ⟨e, he⟩ := hR _ _ hstep
      · rw [hsame]
        exact ih
      · rw [he]
        exact ih.trans (List.prefix_append _ _)

/-- An event that was not in the log at first has been added by some step. -/
theorem Logs.exists_step
    {s s' : σ} {a b : List ε} {e : ε} (hR : Logs log R) (h : Relation.ReflTransGen R s s')
    (hlog : log s' = log s ++ a ++ e :: b) :
  ∃ s₁ s₂, Relation.ReflTransGen R s s₁ ∧ R s₁ s₂ ∧ Relation.ReflTransGen R s₂ s' ∧
    log s₁ = log s ++ a ∧ log s₂ = log s ++ a ++ [e]
  := by
  induction h generalizing b with
  | refl =>
      have hlen := congrArg List.length hlog
      simp at hlen
  | @tail s₁ s₂ hrun hstep ih =>
      obtain hsame | ⟨e', he'⟩ := hR _ _ hstep
      · obtain ⟨s₃, s₄, h₃, h₃₄, h₄, hl⟩ := ih (hsame.symm.trans hlog)
        exact ⟨s₃, s₄, h₃, h₃₄, h₄.tail hstep, hl⟩
      · rw [hlog] at he'
        obtain rfl | ⟨b', x, rfl⟩ := List.eq_nil_or_concat' b
        · obtain ⟨hlog₁, hee⟩ := List.append_inj' he' rfl
          obtain rfl : e = e' := by simpa using hee
          exact ⟨s₁, s₂, hrun, hstep, Relation.ReflTransGen.refl, hlog₁.symm, hlog⟩
        · have hlog₁ : log s₁ = log s ++ a ++ e :: b' := by
            have h' : (log s ++ a ++ e :: b') ++ [x] = log s₁ ++ [e'] := by
              rw [← he']
              simp
            exact (List.append_inj' h' rfl).1.symm
          obtain ⟨s₃, s₄, h₃, h₃₄, h₄, hl⟩ := ih hlog₁
          exact ⟨s₃, s₄, h₃, h₃₄, h₄.tail hstep, hl⟩

end Coop
