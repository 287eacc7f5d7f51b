import TinyS3Proxy.Coop.Solo

/-!
# Outcomes of undisturbed runs

What holds at the end of every undisturbed run of a piece of code, of what it returns, of the
state it leaves and of the choices that were made on the way. The rules follow the tree of the
code: a run of a composition is a run of its first part and one of its second part.
-/

namespace Coop

namespace Async

variable {σ α β : Type}

/-- Every undisturbed run of the code from the state `s` ends in an outcome that satisfies `Q`. -/
structure Ends (p : Async σ α) (t : ℕ) (s : σ) (Q : List ℕ → α → σ → Prop) : Prop where
  post : ∀ cs a s', p.Runs t cs s a s' → Q cs a s'

variable {t : ℕ} {s : σ} {Q Q' : List ℕ → α → σ → Prop}

theorem Ends.mono
    {p : Async σ α} (h : p.Ends t s Q) (hQ : ∀ cs a s', Q cs a s' → Q' cs a s') :
  p.Ends t s Q'
  := ⟨fun cs a s' hrun => hQ cs a s' (h.post cs a s' hrun)⟩

theorem ends_ret
    {a : α} (h : Q [] a s) :
  (ret a).Ends t s Q
  := by
  constructor
  intro cs a' s' hrun
  cases cs with
  | nil =>
      obtain ⟨rfl, rfl⟩ : a = a' ∧ s = s' := by simpa [Runs, go, settle] using hrun
      exact h
  | cons c cs => cases hrun

theorem ends_act
    {f : ℕ → σ → α × σ} (h : Q [] (f t s).1 (f t s).2) :
  (act f).Ends t s Q
  := by
  constructor
  intro cs a s' hrun
  rw [Runs, act, go_sync] at hrun
  exact (ends_ret h).post cs a s' hrun

theorem ends_suspend
    {f : ℕ → ℕ → σ → Option (α × σ)} (h : ∀ c b s', f t c s = some (b, s') → Q [c] b s') :
  (suspend f).Ends t s Q
  := by
  constructor
  intro cs a s' hrun
  cases cs with
  | nil => cases hrun
  | cons c cs =>
      obtain ⟨⟨b, s₁⟩, hf, hgo⟩ := Option.bind_eq_some_iff.mp hrun
      have hend : (ret b).Ends t s₁ fun cs a s' => Q (c :: cs) a s' := ends_ret (h c b s₁ hf)
      exact hend.post cs a s' hgo

/-- The runs of a composition are made of runs of its parts. -/
theorem Runs.of_bind
    {p : Async σ α} {q : α → Async σ β} {cs : List ℕ} {b : β} {s' : σ}
    (h : (p >>= q).Runs t cs s b s') :
  ∃ c d a s₁, cs = c ++ d ∧ p.Runs t c s a s₁ ∧ (q a).Runs t d s₁ b s'
  := by
  induction p generalizing cs s with
  | ret a => exact ⟨[], cs, a, s, rfl, rfl, h⟩
  | sync f k ih =>
      rw [Runs, sync_bind, go_sync] at h
      obtain ⟨c, d, a, s₁, rfl, hp, hq⟩ := ih _ h
      refine ⟨c, d, a, s₁, rfl, ?_, hq⟩
      rw [Runs, go_sync]
      exact hp
  | await f k ih =>
      cases cs with
      | nil => cases h
      | cons x cs =>
          obtain ⟨⟨y, s₂⟩, hf, hgo⟩ := Option.bind_eq_some_iff.mp h
          obtain ⟨c, d, a, s₁, rfl, hp, hq⟩ := ih y hgo
          exact ⟨x :: c, d, a, s₁, rfl, Option.bind_eq_some_iff.mpr ⟨(y, s₂), hf, hp⟩, hq⟩

theorem Ends.bind
    {p : Async σ α} {q : α → Async σ β} {Q : List ℕ → β → σ → Prop}
    (h : p.Ends t s fun c a s₁ => (q a).Ends t s₁ fun d b s' => Q (c ++ d) b s') :
  (p >>= q).Ends t s Q
  := by
  constructor
  intro cs b s' hrun
  obtain ⟨c, d, a, s₁, rfl, hp, hq⟩ := hrun.of_bind
  exact (h.post c a s₁ hp).post d b s' hq

/-- A composition whose first part ends in `R` ends as its second part does from there. -/
theorem Ends.seq
    {p : Async σ α} {q : α → Async σ β} {R : List ℕ → α → σ → Prop}
    {Q : List ℕ → β → σ → Prop} (h : p.Ends t s R)
    (hq : ∀ c a s₁, R c a s₁ → (q a).Ends t s₁ fun d b s' => Q (c ++ d) b s') :
  (p >>= q).Ends t s Q
  := (h.mono hq).bind

end Async

end Coop
