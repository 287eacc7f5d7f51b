import TinyS3Proxy.Text.Fields
import Mathlib.Data.Nat.Digits.Lemmas

/-!
# Names in parts

Strings that end with a suffix, strings that are cut at the last separator, and groups of decimal
digits. A suffix that starts with a character which does not occur in the stem is found in the name
if and only if it is found in what follows the stem.
-/

namespace Text

/-! ### Ends -/

/-- Cut a suffix off the end. -/
def stripSuffix (suffix bs : Bytes) : Option Bytes :=
  (strip suffix.reverse bs.reverse).map List.reverse

theorem stripSuffix_eq_some
    {suffix bs front : Bytes} :
  stripSuffix suffix bs = some front ↔ bs = front ++ suffix
  := by
  rw [stripSuffix, Option.map_eq_some_iff]
  constructor
  · rintro ⟨rest, hrest, rfl⟩
    rw [strip_eq_some, ← List.reverse_reverse rest, ← List.reverse_append, List.reverse_inj] at hrest
    exact hrest
  · rintro rfl
    refine ⟨front.reverse, ?_, List.reverse_reverse front⟩
    rw [strip_eq_some, List.reverse_append]

theorem stripSuffix_append
    (front suffix : Bytes) :
  stripSuffix suffix (front ++ suffix) = some front
  := stripSuffix_eq_some.mpr rfl

/-- A suffix whose first character does not occur in the stem is not found unless it is found in
what follows the stem. -/
theorem stripSuffix_append_eq_none
    {c : UInt8} {stem suffix bs : Bytes} (hhead : suffix.head? = some c) (h : c ∉ stem)
    (hnone : stripSuffix suffix bs = none) :
  stripSuffix suffix (stem ++ bs) = none
  := by
  rw [Option.eq_none_iff_forall_not_mem] at hnone ⊢
  intro front hfront
  rcases List.append_eq_append_iff.mp (stripSuffix_eq_some.mp hfront) with
    ⟨rest, rfl, hbs⟩ | ⟨rest, rfl, hsuffix⟩
  · exact hnone rest (stripSuffix_eq_some.mpr hbs)
  · cases rest with
    | nil =>
        apply hnone []
        rw [List.nil_append] at hsuffix
        exact stripSuffix_eq_some.mpr hsuffix.symm
    | cons b rest =>
        rw [hsuffix] at hhead
        obtain rfl := Option.some.inj hhead
        exact h (List.mem_append_right _ List.mem_cons_self)

/-- Cut a string at the last occurrence of a separator. -/
def rsplitOnce (sep : UInt8) (bs : Bytes) : Option (Bytes × Bytes) :=
  (splitOnce sep bs.reverse).map fun r => (r.2.reverse, r.1.reverse)

theorem rsplitOnce_eq_some
    {sep : UInt8} {bs l r : Bytes} :
  rsplitOnce sep bs = some (l, r) ↔ bs = l ++ sep :: r ∧ sep ∉ r
  := by
  rw [rsplitOnce, Option.map_eq_some_iff]
  constructor
  · rintro ⟨⟨a, b⟩, hsplit, heq⟩
    obtain ⟨rfl, rfl⟩ := Prod.mk.inj heq
    obtain ⟨hbs, hnot⟩ := splitOnce_eq_some.mp hsplit
    constructor
    · rw [← List.reverse_reverse bs, hbs]
      simp
    · rwa [List.mem_reverse]
  · rintro ⟨rfl, hnot⟩
    refine ⟨(r.reverse, l.reverse), splitOnce_eq_some.mpr ⟨by simp, ?_⟩, by simp⟩
    rwa [List.mem_reverse]

/-! ### Decimal digits -/

/-- The byte is a decimal digit. -/
def isDigit (b : UInt8) : Bool := 48 ≤ b && b ≤ 57

/-- The string is not empty and consists of decimal digits. -/
def isDigits (bs : Bytes) : Bool := !bs.isEmpty && bs.all isDigit

theorem isDigits_eq_true
    {bs : Bytes} :
  isDigits bs = true ↔ bs ≠ [] ∧ ∀ b ∈ bs, isDigit b = true
  := by simp [isDigits]

/-- The decimal digits of a number. -/
def toDecimal (n : ℕ) : Bytes :=
  if n = 0 then [48] else (Nat.digits 10 n).reverse.map fun d => UInt8.ofNat (48 + d)

theorem isDigit_ofNat
    {d : ℕ} (h : d < 10) :
  isDigit (UInt8.ofNat (48 + d)) = true
  := by
  revert d
  decide

theorem isDigits_toDecimal
    (n : ℕ) :
  isDigits (toDecimal n) = true
  := by
  rw [toDecimal]
  split
  next => decide
  next hn =>
    rw [isDigits_eq_true]
    constructor
    · simp [Nat.digits_ne_nil_iff_ne_zero.mpr hn]
    · intro b hb
      obtain ⟨d, hd, rfl⟩ := List.mem_map.mp hb
      exact isDigit_ofNat (Nat.digits_lt_base (by decide) (List.mem_reverse.mp hd))

/-- A byte that is no digit does not occur in digits. -/
theorem notMem_of_isDigits
    {bs : Bytes} (h : isDigits bs = true) {b : UInt8} (hb : isDigit b = false) :
  b ∉ bs
  := by
  intro hmem
  rw [(isDigits_eq_true.mp h).2 b hmem] at hb
  cases hb

end Text
