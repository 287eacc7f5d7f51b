import Mathlib.Tactic

/-!
# Chains of signatures

A list of messages is signed as a chain when every signature covers a message together with the
signature before it, and the first one covers a seed. `V p m s` says that the signature `s` covers
the message `m` after the link `p`, and `next` is what a signature contributes to the next link.

When a link and a signature leave only one message, the signatures of a chain determine its
messages.
-/

namespace Chain

variable {π μ σ : Type} (V : π → μ → σ → Prop) (next : σ → π)

/-- The messages are signed as a chain that starts at the given link. -/
def Linked : π → List (μ × σ) → Prop
  | _, [] => True
  | p, (m, s) :: rest => V p m s ∧ Linked (next s) rest

/-- The link at the end of a chain. -/
def last (p : π) (links : List (μ × σ)) : π := links.foldl (fun _ link => next link.2) p

variable {V next}

theorem linked_append
    {p : π} {l r : List (μ × σ)} :
  Linked V next p (l ++ r) ↔ Linked V next p l ∧ Linked V next (last next p l) r
  := by
  induction l generalizing p with
  | nil => simp [Linked, last]
  | cons link l ih =>
      obtain ⟨m, s⟩ := link
      rw [List.cons_append, Linked, Linked, ih, and_assoc]
      rfl

/-- Chains with the same signatures end at the same link. -/
theorem last_eq_of_map_eq
    {p : π} {l r : List (μ × σ)}
    (h : l.map (fun link => next link.2) = r.map fun link => next link.2) :
  last next p l = last next p r
  := by
  have hfold : ∀ q : π, ∀ k : List (μ × σ),
      last next q k = (k.map fun link => next link.2).foldl (fun _ n => n) q := by
    intro q k
    rw [last, List.foldl_map]
  rw [hfold, hfold, h]

/-- The signatures of a chain determine its messages. -/
theorem Linked.messages_eq
    (hV : ∀ p m m' s s', V p m s → V p m' s' → next s = next s' → m = m')
    {p : π} {l r : List (μ × σ)} (hl : Linked V next p l) (hr : Linked V next p r)
    (h : l.map (fun link => next link.2) = r.map fun link => next link.2) :
  l.map Prod.fst = r.map Prod.fst
  := by
  induction l generalizing p r with
  | nil =>
      cases r with
      | nil => rfl
      | cons link r => cases h
  | cons link l ih =>
      cases r with
      | nil => cases h
      | cons link' r =>
          obtain ⟨m, s⟩ := link
          obtain ⟨m', s'⟩ := link'
          obtain ⟨hs, hrest⟩ := List.cons.inj h
          have hm : m = m' := hV p m m' s s' hl.1 hr.1 hs
          have hlink : next s = next s' := hs
          have htail := ih hl.2 (hlink ▸ hr.2) hrest
          rw [List.map_cons, List.map_cons, htail]
          exact congrArg (· :: r.map Prod.fst) hm

end Chain
