import Mathlib.Tactic
import Mathlib.Data.List.Nodup
import Mathlib.Algebra.Order.BigOperators.Group.List

/-!
# Keyed listings

A keyed listing is a list of entries in which no key occurs twice, such as what a directory lists.
The entries have weights. The weight of a listing is that of its entries, and it is at most the
weight at a list of keys if every entry that weighs anything has its key in the list.
-/

namespace Keyed

/-- A list of entries in which no key occurs twice. -/
structure Listing (α β : Type) where
  entries : List (α × β)
  nodup : (entries.map Prod.fst).Nodup

namespace Listing

variable {α β : Type}

/-- The listing without any entry. -/
def empty : Listing α β := ⟨[], List.nodup_nil⟩

/-- The keys of the entries, in order. -/
def keys (l : Listing α β) : List α := l.entries.map Prod.fst

/-- The weight of all entries. -/
def total (w : α → β → ℕ) (l : Listing α β) : ℕ := (l.entries.map fun e => w e.1 e.2).sum

variable [DecidableEq α]

/-- The entry of a key. -/
def get (l : Listing α β) (a : α) : Option β := (l.entries.find? fun e => e.1 = a).map Prod.snd

/-- The listing without the entry of a key. -/
def erase (l : Listing α β) (a : α) : Listing α β :=
  ⟨l.entries.filter fun e => e.1 ≠ a, l.nodup.sublist (List.filter_sublist.map Prod.fst)⟩

/-- The weight of the entry of a key, if there is one. -/
def weightAt (w : α → β → ℕ) (l : Listing α β) (a : α) : ℕ := ((l.get a).map (w a)).getD 0

variable {l l' l'' : Listing α β} {a a' : α} {b : β} {w : α → β → ℕ}

/-! ### Entries -/

theorem get_eq_some_iff :
  l.get a = some b ↔ (a, b) ∈ l.entries
  := by
  rw [get, Option.map_eq_some_iff]
  constructor
  · rintro ⟨⟨a', b'⟩, hfind, rfl⟩
    have hkey := List.find?_some hfind
    obtain rfl : a' = a := of_decide_eq_true hkey
    exact List.mem_of_find?_eq_some hfind
  · intro hmem
    rcases hfind : l.entries.find? fun e => e.1 = a with _ | ⟨a', b'⟩
    · exact absurd (decide_eq_true rfl) (List.find?_eq_none.mp hfind (a, b) hmem)
    · have hkey := List.find?_some hfind
      obtain rfl : a' = a := of_decide_eq_true hkey
      have heq := List.inj_on_of_nodup_map l.nodup (List.mem_of_find?_eq_some hfind) hmem rfl
      exact ⟨_, hfind, congrArg Prod.snd heq⟩

theorem get_eq_none_iff :
  l.get a = none ↔ a ∉ l.keys
  := by
  rw [get, Option.map_eq_none_iff, List.find?_eq_none, keys, List.mem_map]
  constructor
  · rintro h ⟨e, he, heq⟩
    exact h e he (decide_eq_true heq)
  · intro h e he heq
    exact h ⟨e, he, of_decide_eq_true heq⟩

theorem exists_get_of_mem_keys
    (h : a ∈ l.keys) :
  ∃ b, l.get a = some b
  := by
  rw [← Option.ne_none_iff_exists', ne_eq, get_eq_none_iff, not_not]
  exact h

theorem get_erase_self :
  (l.erase a).get a = none
  := by
  rw [get_eq_none_iff, keys, erase]
  simp

theorem get_erase_of_ne
    (h : a' ≠ a) :
  (l.erase a).get a' = l.get a'
  := by
  ext b
  rw [get_eq_some_iff, get_eq_some_iff, erase, List.mem_filter, decide_eq_true_eq]
  exact and_iff_left h

/-- There is nothing to erase if there is no entry. -/
theorem erase_of_get_eq_none
    (h : l.get a = none) :
  l.erase a = l
  := by
  obtain ⟨entries, hnodup⟩ := l
  have hentries : entries.filter (fun e => e.1 ≠ a) = entries := by
    rw [List.filter_eq_self]
    intro e he
    apply decide_eq_true
    rintro rfl
    exact get_eq_none_iff.mp h (List.mem_map_of_mem he)
  simp only [erase, hentries]

/-! ### Listings with fewer entries -/

/-- The entries of a listing are among those of another. -/
def Sub (l' l : Listing α β) : Prop := ∀ a b, l'.get a = some b → l.get a = some b

theorem Sub.refl
    (l : Listing α β) :
  l.Sub l
  := fun _ _ h => h

theorem Sub.trans
    (h : l''.Sub l') (h' : l'.Sub l) :
  l''.Sub l
  := fun a b hb => h' a b (h a b hb)

theorem erase_sub
    (l : Listing α β) (a : α) :
  (l.erase a).Sub l
  := by
  intro a' b h
  rw [get_eq_some_iff, erase, List.mem_filter] at h
  exact get_eq_some_iff.mpr h.1

theorem keys_erase_subset
    (l : Listing α β) (a : α) :
  (l.erase a).keys ⊆ l.keys
  := (List.filter_sublist.map Prod.fst).subset

theorem Sub.get_eq_none
    (h : l'.Sub l) (ha : l.get a = none) :
  l'.get a = none
  := by
  rcases hget : l'.get a with _ | b
  · rfl
  · rw [h a b hget] at ha
    cases ha

/-! ### Weights -/

theorem weightAt_eq_zero
    (h : l.get a = none) :
  l.weightAt w a = 0
  := by
  rw [weightAt, h]
  rfl

theorem weightAt_of_get
    (h : l.get a = some b) :
  l.weightAt w a = w a b
  := by
  rw [weightAt, h]
  rfl

theorem Sub.weightAt_le
    (h : l'.Sub l) (w : α → β → ℕ) (a : α) :
  l'.weightAt w a ≤ l.weightAt w a
  := by
  rcases hget : l'.get a with _ | b
  · rw [weightAt_eq_zero hget]
    exact Nat.zero_le _
  · rw [weightAt_of_get hget, weightAt_of_get (h a b hget)]

theorem Sub.sum_weightAt_le
    (h : l'.Sub l) (w : α → β → ℕ) (as : List α) :
  (as.map (l'.weightAt w)).sum ≤ (as.map (l.weightAt w)).sum
  := List.sum_le_sum fun a _ => h.weightAt_le w a

/-- What is erased no longer counts. -/
theorem total_erase
    (l : Listing α β) (w : α → β → ℕ) (a : α) :
  (l.erase a).total w + l.weightAt w a = l.total w
  := by
  obtain ⟨entries, hnodup⟩ := l
  simp only [total, erase, weightAt, get]
  induction entries with
  | nil => rfl
  | cons e es ih =>
      obtain ⟨hnot, hnodup'⟩ := List.nodup_cons.mp hnodup
      by_cases he : e.1 = a
      · subst he
        have hes : es.filter (fun e' => e'.1 ≠ e.1) = es := by
          rw [List.filter_eq_self]
          intro e' he'
          apply decide_eq_true
          intro heq
          exact hnot (heq ▸ List.mem_map_of_mem he')
        rw [List.filter_cons_of_neg (by simp), hes, List.find?_cons_of_pos (by simp)]
        simp [add_comm]
      · rw [List.filter_cons_of_pos (by simp [he]), List.find?_cons_of_neg (by simp [he]),
          List.map_cons, List.sum_cons, List.map_cons, List.sum_cons, add_assoc, ih hnodup']

/-- The weight of a listing by its keys, in any order. -/
theorem total_eq_of_perm
    {as : List α} (h : l.keys.Perm as) :
  l.total w = (as.map (l.weightAt w)).sum
  := by
  have hentries : l.entries.map (fun e => w e.1 e.2) = l.keys.map (l.weightAt w) := by
    rw [keys, List.map_map]
    apply List.map_congr_left
    intro e he
    exact (weightAt_of_get (get_eq_some_iff.mpr he)).symm
  rw [total, hentries]
  exact (h.map _).sum_eq

end Listing

end Keyed
