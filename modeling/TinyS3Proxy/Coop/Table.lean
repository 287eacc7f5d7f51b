import Mathlib.Tactic
import Mathlib.Logic.Function.Basic

/-!
# Tables

A table is a function to an optional value. These are the entries that a table has after one
of them has been set or erased.
-/

namespace Coop

variable {α β : Type} [DecidableEq α] {f : α → Option β} {a x : α} {b y : β}

/-- The entries after the entry at `a` has been set. -/
theorem update_some_iff :
  Function.update f a (some b) x = some y ↔ x = a ∧ b = y ∨ x ≠ a ∧ f x = some y
  := by
  by_cases hx : x = a
  · subst hx
    simp
  · simp [hx]

/-- The entries after the entry at `a` has been erased. -/
theorem update_none_iff :
  Function.update f a none x = some y ↔ x ≠ a ∧ f x = some y
  := by
  by_cases hx : x = a
  · subst hx
    simp
  · simp [hx]

end Coop
