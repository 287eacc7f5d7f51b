import TinyS3Proxy.Text.Bytes
import Mathlib.Data.Prod.Lex

/-!
# Fields

Lists of strings that are written as one string, with a separator between any two of them. The
strings are read back if the separator does not occur in them. A list of pairs is brought into a
normal form by sorting.
-/

namespace Text

/-! ### Separators -/

/-- The separator does not occur in what a string is split into. -/
theorem notMem_of_mem_splitOn
    {sep : UInt8} {bs field : Bytes} (h : field ∈ bs.splitOn sep) :
  sep ∉ field
  := by
  induction bs generalizing field with
  | nil =>
      rw [List.splitOn_nil, List.mem_singleton] at h
      subst h
      exact List.not_mem_nil
  | cons b bs ih =>
      rw [List.splitOn_cons_eq_if_modifyHead] at h
      split at h
      next =>
        rcases List.mem_cons.mp h with rfl | h
        · exact List.not_mem_nil
        · exact ih h
      next hb =>
        obtain ⟨front, rest, hsplit⟩ := List.exists_cons_of_ne_nil (List.splitOn_ne_nil sep bs)
        rw [hsplit, List.modifyHead_cons] at h
        rcases List.mem_cons.mp h with rfl | h
        · have hfront : sep ∉ front := ih (hsplit ▸ List.mem_cons_self)
          have hne : sep ≠ b := fun heq => hb (by rw [heq]; exact BEq.refl b)
          exact List.not_mem_cons_of_ne_of_not_mem hne hfront
        · exact ih (hsplit ▸ List.mem_cons_of_mem _ h)

/-- The first string that a string is split into is what is before the first separator. -/
theorem head?_splitOn
    (sep : UInt8) (bs : Bytes) :
  (bs.splitOn sep).head? = some ((splitOnce sep bs).getD (bs, [])).1
  := by
  induction bs with
  | nil => rfl
  | cons b bs ih =>
      rw [List.splitOn_cons_eq_if_modifyHead, splitOnce]
      by_cases hb : b = sep
      · subst hb
        simp
      · obtain ⟨front, rest, hsplit⟩ := List.exists_cons_of_ne_nil (List.splitOn_ne_nil sep bs)
        rw [hsplit, List.head?_cons] at ih
        rw [if_neg (by simpa using hb), if_neg hb, hsplit, List.modifyHead_cons, List.head?_cons,
          Option.some.inj ih]
        rcases splitOnce sep bs with _ | r
        · rfl
        · rfl

/-- The strings, with a separator between any two of them. -/
def joinFields (sep : UInt8) : List Bytes → Bytes
  | [] => []
  | [field] => field
  | field :: next :: fields => field ++ sep :: joinFields sep (next :: fields)

/-- The join as a loop that appends one string after the other. -/
theorem joinFields_cons
    (sep : UInt8) (field : Bytes) (fields : List Bytes) :
  joinFields sep (field :: fields) = fields.foldl (fun acc f => acc ++ sep :: f) field
  := by
  have happend : ∀ (fs : List Bytes) (front acc : Bytes),
      fs.foldl (fun acc f => acc ++ sep :: f) (front ++ acc)
        = front ++ fs.foldl (fun acc f => acc ++ sep :: f) acc := by
    intro fs
    induction fs with
    | nil => exact fun _ _ => rfl
    | cons f fs ih =>
        intro front acc
        rw [List.foldl_cons, List.append_assoc, ih, List.foldl_cons]
  induction fields generalizing field with
  | nil => rfl
  | cons next fields ih =>
      have hcons : field ++ sep :: next = (field ++ [sep]) ++ next := by simp
      rw [joinFields, ih, List.foldl_cons, hcons, happend, List.append_assoc]
      rfl

theorem joinFields_eq_intercalate
    (sep : UInt8) (fields : List Bytes) :
  joinFields sep fields = [sep].intercalate fields
  := by
  induction fields with
  | nil => rfl
  | cons field fields ih =>
      cases fields with
      | nil => rw [joinFields, List.intercalate_singleton]
      | cons next fields => rw [joinFields, ih, List.intercalate_cons_cons]; simp

/-- The strings that are joined are read back, if there are any. -/
theorem splitOn_joinFields
    {sep : UInt8} {fields : List Bytes} (hsep : ∀ field ∈ fields, sep ∉ field)
    (hne : fields ≠ []) :
  (joinFields sep fields).splitOn sep = fields
  := by
  rw [joinFields_eq_intercalate]
  exact List.splitOn_intercalate sep hsep hne

/-- What occurs neither in the strings nor as the separator does not occur in the join. -/
theorem notMem_joinFields
    {sep b : UInt8} {fields : List Bytes} (hb : b ≠ sep) (h : ∀ field ∈ fields, b ∉ field) :
  b ∉ joinFields sep fields
  := by
  induction fields with
  | nil => exact List.not_mem_nil
  | cons field fields ih =>
      have hfield := h field List.mem_cons_self
      have hrest := ih fun f hf => h f (List.mem_cons_of_mem _ hf)
      cases fields with
      | nil => exact hfield
      | cons next fields =>
          rw [joinFields, List.mem_append, List.mem_cons]
          rintro (hm | hm | hm)
          · exact hfield hm
          · exact hb hm
          · exact hrest hm

/-- The strings other than the empty one that a string consists of. -/
def nonemptyFields (sep : UInt8) (bs : Bytes) : List Bytes := (bs.splitOn sep).filter (· ≠ [])

@[simp]
theorem nonemptyFields_nil
    (sep : UInt8) :
  nonemptyFields sep [] = []
  := by
  rw [nonemptyFields, List.splitOn_nil]
  rfl

theorem notMem_of_mem_nonemptyFields
    {sep : UInt8} {bs field : Bytes} (h : field ∈ nonemptyFields sep bs) :
  sep ∉ field
  := notMem_of_mem_splitOn (List.mem_of_mem_filter h)

theorem ne_nil_of_mem_nonemptyFields
    {sep : UInt8} {bs field : Bytes} (h : field ∈ nonemptyFields sep bs) :
  field ≠ []
  := of_decide_eq_true (List.mem_filter.mp h).2

/-- The strings that are joined are read back, except for empty ones. -/
theorem nonemptyFields_joinFields
    {sep : UInt8} {fields : List Bytes} (hsep : ∀ field ∈ fields, sep ∉ field) :
  nonemptyFields sep (joinFields sep fields) = fields.filter (· ≠ [])
  := by
  by_cases h : fields = []
  · subst h
    exact nonemptyFields_nil sep
  · rw [nonemptyFields, splitOn_joinFields hsep h]

/-! ### Lexicographic order -/

/-- The numbers of the bytes, by which strings are compared. -/
def ordinals (bs : Bytes) : List ℕ := bs.map UInt8.toNat

theorem ordinals_injective :
  Function.Injective ordinals
  := List.map_injective_iff.mpr fun _ _ h => UInt8.toNat_inj.mp h

/-- Sort a list by a key. -/
def sortBy {α β : Type} [LinearOrder β] (key : α → β) (l : List α) : List α :=
  l.mergeSort fun a b => decide (key a ≤ key b)

section Sorting

variable {α β : Type} [LinearOrder β] {key : α → β}

@[simp]
theorem sortBy_nil :
  sortBy key [] = []
  := List.mergeSort_nil

theorem sortBy_perm
    (l : List α) :
  (sortBy key l).Perm l
  := List.mergeSort_perm _ _

theorem pairwise_sortBy
    (l : List α) :
  (sortBy key l).Pairwise fun a b => key a ≤ key b
  := by
  have h := @List.pairwise_mergeSort _ (fun a b => decide (key a ≤ key b)) (by
      intro a b c hab hbc
      exact decide_eq_true ((of_decide_eq_true hab).trans (of_decide_eq_true hbc))) (by
      intro a b
      rcases le_total (key a) (key b) with h | h
      · simp [h]
      · simp [h]) l
  exact h.imp fun h => of_decide_eq_true h

/-- Lists are the same after sorting if they have the same elements equally often. -/
theorem sortBy_eq_sortBy_iff
    (hkey : Function.Injective key) {l₁ l₂ : List α} :
  sortBy key l₁ = sortBy key l₂ ↔ l₁.Perm l₂
  := by
  constructor
  · intro h
    exact (sortBy_perm l₁).symm.trans (h ▸ sortBy_perm l₂)
  · intro h
    have hperm : (sortBy key l₁).Perm (sortBy key l₂) :=
      (sortBy_perm l₁).trans (h.trans (sortBy_perm l₂).symm)
    apply hperm.eq_of_pairwise _ (pairwise_sortBy l₁) (pairwise_sortBy l₂)
    intro a b _ _ hab hba
    exact hkey (le_antisymm hab hba)

end Sorting

end Text
