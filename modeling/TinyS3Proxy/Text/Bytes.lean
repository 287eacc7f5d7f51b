import Mathlib.Tactic
import Mathlib.Data.Nat.Digits.Defs

/-!
# Strings of bytes

Text as it comes over the wire is a list of bytes. A string is a list of bytes that is valid
UTF-8, and the operations on strings are those on its bytes: an ASCII character is a single
byte that occurs in no other character, so splitting a string at an ASCII character or cutting
an ASCII string off its front does not depend on where the other characters begin.
-/

namespace Text

/-- A string of bytes. -/
abbrev Bytes := List UInt8

-- Bytes are finitely many, but what holds of the bytes of a string is decided along the string.
instance (priority := high) decidableForallMem {p : UInt8 → Prop} [DecidablePred p] (bs : Bytes) :
    Decidable (∀ b ∈ bs, p b) :=
  List.decidableBAll p bs

instance lawfulBEqBytes : LawfulBEq Bytes := inferInstance

/-- The bytes of a string of ASCII characters. -/
def ascii (s : String) : Bytes := s.toList.map fun c => UInt8.ofNat c.toNat

/-- The line feed. -/
def lf : UInt8 := 10

/-- The line terminator. -/
def crlf : Bytes := [13, 10]

/-! ### Splitting -/

/-- Split a string at the first occurrence of an ASCII character. -/
def splitOnce (sep : UInt8) : Bytes → Option (Bytes × Bytes)
  | [] => none
  | b :: bs => if b = sep then some ([], bs) else (splitOnce sep bs).map fun r => (b :: r.1, r.2)

theorem splitOnce_eq_some
    {sep : UInt8} {bs l r : Bytes} :
  splitOnce sep bs = some (l, r) ↔ bs = l ++ sep :: r ∧ sep ∉ l
  := by
  induction bs generalizing l with
  | nil => simp [splitOnce]
  | cons b bs ih =>
      rw [splitOnce]
      by_cases hb : b = sep
      · subst hb
        rw [if_pos rfl]
        constructor
        · intro h
          obtain ⟨rfl, rfl⟩ := Prod.mk.inj (Option.some.inj h)
          exact ⟨rfl, by simp⟩
        · rintro ⟨h, hl⟩
          cases l with
          | nil =>
              obtain rfl := (List.cons.inj h).2
              rfl
          | cons c l =>
              obtain ⟨rfl, -⟩ := List.cons.inj h
              exact absurd List.mem_cons_self hl
      · rw [if_neg hb, Option.map_eq_some_iff]
        constructor
        · rintro ⟨⟨l', r'⟩, h, he⟩
          obtain ⟨rfl, rfl⟩ := Prod.mk.inj he
          obtain ⟨rfl, hl⟩ := ih.mp h
          exact ⟨rfl, List.not_mem_cons_of_ne_of_not_mem (Ne.symm hb) hl⟩
        · rintro ⟨h, hl⟩
          cases l with
          | nil => exact absurd (List.cons.inj h).1 hb
          | cons c l =>
              obtain ⟨rfl, h'⟩ := List.cons.inj h
              exact ⟨(l, r), ih.mpr ⟨h', List.not_mem_of_not_mem_cons hl⟩, rfl⟩

theorem splitOnce_eq_none
    {sep : UInt8} {bs : Bytes} :
  splitOnce sep bs = none ↔ sep ∉ bs
  := by
  induction bs with
  | nil => simp [splitOnce]
  | cons b bs ih =>
      rw [splitOnce]
      by_cases hb : b = sep
      · simp [hb]
      · rw [if_neg hb, Option.map_eq_none_iff, ih, List.mem_cons]
        simp [Ne.symm hb]

/-- A string without the separator goes to the first part. -/
theorem splitOnce_append
    {sep : UInt8} {front rest : Bytes} (h : sep ∉ front) :
  splitOnce sep (front ++ rest) = (splitOnce sep rest).map fun r => (front ++ r.1, r.2)
  := by
  induction front with
  | nil => simp
  | cons b front ih =>
      have hne : b ≠ sep := fun heq => h (heq ▸ List.mem_cons_self)
      rw [List.cons_append, splitOnce, if_neg hne, ih fun hm => h (List.mem_cons_of_mem _ hm)]
      simp [Function.comp_def]

/-- Strings without the separator are the same if they and what follows the separator are. -/
theorem append_cons_inj
    {sep : UInt8} {l₁ l₂ r₁ r₂ : Bytes} (h₁ : sep ∉ l₁) (h₂ : sep ∉ l₂) :
  l₁ ++ sep :: r₁ = l₂ ++ sep :: r₂ ↔ l₁ = l₂ ∧ r₁ = r₂
  := by
  constructor
  · intro h
    have hsplit : splitOnce sep (l₁ ++ sep :: r₁) = some (l₁, r₁) :=
      splitOnce_eq_some.mpr ⟨rfl, h₁⟩
    rw [h, splitOnce_eq_some.mpr ⟨rfl, h₂⟩] at hsplit
    obtain ⟨rfl, rfl⟩ := Prod.mk.inj (Option.some.inj hsplit)
    exact ⟨rfl, rfl⟩
  · rintro ⟨rfl, rfl⟩
    rfl

/-- Cut a string off the front. -/
def strip : Bytes → Bytes → Option Bytes
  | [], bs => some bs
  | p :: ps, b :: bs => if b = p then strip ps bs else none
  | _ :: _, [] => none

theorem strip_eq_some
    {p bs r : Bytes} :
  strip p bs = some r ↔ bs = p ++ r
  := by
  induction p generalizing bs with
  | nil => simp [strip]
  | cons c p ih =>
      cases bs with
      | nil => simp [strip]
      | cons b bs =>
          rw [strip]
          by_cases hb : b = c
          · subst hb
            rw [if_pos rfl, ih]
            simp
          · simp [hb]

/-! ### Letters -/

/-- The lower-case form of an ASCII letter. -/
def lowerByte (b : UInt8) : UInt8 := if 65 ≤ b ∧ b ≤ 90 then b + 32 else b

/-- A string with its ASCII letters in lower case. -/
def lower (bs : Bytes) : Bytes := bs.map lowerByte

/-- The upper-case form of an ASCII letter. -/
def upperByte (b : UInt8) : UInt8 := if 97 ≤ b ∧ b ≤ 122 then b - 32 else b

/-- A string with its ASCII letters in upper case. -/
def upper (bs : Bytes) : Bytes := bs.map upperByte

/-- Equality up to the case of ASCII letters. -/
def eqIgnoreCase (a b : Bytes) : Bool := lower a = lower b

/-! ### White space -/

/-- The encodings of the white-space characters. -/
def whitespace : List Bytes :=
  [[9], [10], [11], [12], [13], [32], [0xC2, 0x85], [0xC2, 0xA0], [0xE1, 0x9A, 0x80],
    [0xE2, 0x80, 0x80], [0xE2, 0x80, 0x81], [0xE2, 0x80, 0x82], [0xE2, 0x80, 0x83],
    [0xE2, 0x80, 0x84], [0xE2, 0x80, 0x85], [0xE2, 0x80, 0x86], [0xE2, 0x80, 0x87],
    [0xE2, 0x80, 0x88], [0xE2, 0x80, 0x89], [0xE2, 0x80, 0x8A], [0xE2, 0x80, 0xA8],
    [0xE2, 0x80, 0xA9], [0xE2, 0x80, 0xAF], [0xE2, 0x81, 0x9F], [0xE3, 0x80, 0x80]]

/-- Cut white space off the front of a string that is at most `n` bytes long. -/
def trimFront (n : ℕ) (space : List Bytes) (bs : Bytes) : Bytes :=
  match n with
  | 0 => bs
  | n + 1 =>
      match space.findSome? fun w => strip w bs with
      | some rest => trimFront n space rest
      | none => bs

/-- Cut white space off both ends of a string. -/
def trim (bs : Bytes) : Bytes :=
  let front := trimFront bs.length whitespace bs
  (trimFront front.length (whitespace.map List.reverse) front.reverse).reverse

/-! ### Suffixes -/

/-- The string ends with a suffix. -/
def endsWith (suffix bs : Bytes) : Bool := (strip suffix.reverse bs.reverse).isSome

/-- Cut a suffix off the end of a string as often as it is there. -/
def trimEndMatches (suffix bs : Bytes) : Bytes :=
  (trimFront bs.length [suffix.reverse] bs.reverse).reverse

theorem endsWith_append
    (front suffix : Bytes) :
  endsWith suffix (front ++ suffix) = true
  := by
  rw [endsWith, List.reverse_append, strip_eq_some.mpr rfl]
  rfl

theorem endsWith_eq_true
    {suffix bs : Bytes} :
  endsWith suffix bs = true ↔ ∃ front, bs = front ++ suffix
  := by
  constructor
  · intro h
    obtain ⟨rest, hrest⟩ := Option.isSome_iff_exists.mp h
    use rest.reverse
    rw [strip_eq_some, ← List.reverse_reverse rest, ← List.reverse_append,
      List.reverse_inj] at hrest
    exact hrest
  · rintro ⟨front, rfl⟩
    exact endsWith_append front suffix

/-- A suffix whose first character does not occur in a string is cut off once. -/
theorem trimEndMatches_append
    {c : UInt8} {front : Bytes} (h : c ∉ front) (suffix : Bytes) :
  trimEndMatches (c :: suffix) (front ++ c :: suffix) = front
  := by
  have honce : (([(c :: suffix).reverse]).findSome? fun w => strip w front.reverse) = none := by
    rw [List.findSome?_eq_none_iff]
    intro w hw
    obtain rfl := List.mem_singleton.mp hw
    rw [Option.eq_none_iff_forall_not_mem]
    intro rest hrest
    have heq := strip_eq_some.mp (Option.mem_def.mp hrest)
    apply h
    rw [← List.mem_reverse, heq]
    simp
  have htwice : ∀ n, trimFront n [(c :: suffix).reverse] front.reverse = front.reverse := by
    intro n
    cases n with
    | zero => rfl
    | succ n => rw [trimFront, honce]
  have hstrip : (([(c :: suffix).reverse]).findSome? fun w => strip w (front ++ c :: suffix).reverse)
      = some front.reverse := by
    rw [List.findSome?_cons, List.reverse_append, strip_eq_some.mpr rfl]
  rw [trimEndMatches, List.length_append, List.length_cons, ← Nat.add_assoc, trimFront, hstrip]
  simp only [htwice]
  exact List.reverse_reverse front

/-! ### Hexadecimal numbers -/

/-- The value of a hexadecimal digit. -/
def hexDigit (b : UInt8) : Option ℕ :=
  if 48 ≤ b ∧ b ≤ 57 then some (b.toNat - 48)
  else if 97 ≤ b ∧ b ≤ 102 then some (b.toNat - 87)
  else if 65 ≤ b ∧ b ≤ 70 then some (b.toNat - 55)
  else none

/-- The byte is a hexadecimal digit. -/
def isHexDigit (b : UInt8) : Bool := (hexDigit b).isSome

/-- The byte is a hexadecimal digit in lower case. -/
def isLowerHex (b : UInt8) : Bool := (48 ≤ b && b ≤ 57) || (97 ≤ b && b ≤ 102)

/-- The number that a string of hexadecimal digits stands for. -/
def hexValue (bs : Bytes) : ℕ := bs.foldl (fun n b => 16 * n + (hexDigit b).getD 0) 0

/-- The string consists of hexadecimal digits that stand for the number `n`, which fits into
64 bits. -/
structure HexNumber (bs : Bytes) (n : ℕ) : Prop where
  nonempty : bs ≠ []
  digits : ∀ b ∈ bs, isHexDigit b = true
  value : hexValue bs = n
  small : n < 2 ^ 64

/-- Parse a string of hexadecimal digits. -/
def parseHexDigits (bs : Bytes) : Option ℕ :=
  if bs ≠ [] ∧ (∀ b ∈ bs, isHexDigit b = true) ∧ hexValue bs < 2 ^ 64 then some (hexValue bs)
  else none

theorem parseHexDigits_eq_some
    {bs : Bytes} {n : ℕ} :
  parseHexDigits bs = some n ↔ HexNumber bs n
  := by
  rw [parseHexDigits]
  constructor
  · intro h
    split at h
    next hc =>
      obtain rfl := Option.some.inj h
      exact ⟨hc.1, hc.2.1, rfl, hc.2.2⟩
    next => cases h
  · rintro ⟨hne, hd, rfl, hlt⟩
    rw [if_pos ⟨hne, hd, hlt⟩]

/-- Parse a hexadecimal number of 64 bits: digits, with at most one plus sign before them. -/
def fromStrRadix16 : Bytes → Option ℕ
  | [] => none
  | b :: bs => if b = 43 then parseHexDigits bs else parseHexDigits (b :: bs)

/-- What is parsed as a hexadecimal number: digits, or digits after a plus sign. -/
theorem fromStrRadix16_eq_some
    {bs : Bytes} {n : ℕ} :
  fromStrRadix16 bs = some n ↔ HexNumber bs n ∨ ∃ digits, bs = 43 :: digits ∧ HexNumber digits n
  := by
  have hplus : isHexDigit 43 = false := by decide
  cases bs with
  | nil =>
      constructor
      · intro h
        cases h
      · rintro (h | ⟨ds, h, -⟩)
        · exact absurd rfl h.nonempty
        · cases h
  | cons b bs =>
      rw [fromStrRadix16]
      by_cases hb : b = 43
      · subst hb
        rw [if_pos rfl, parseHexDigits_eq_some]
        constructor
        · exact fun h => Or.inr ⟨bs, rfl, h⟩
        · rintro (h | ⟨ds, h, hn⟩)
          · have hdigit := h.digits 43 List.mem_cons_self
            rw [hplus] at hdigit
            cases hdigit
          · obtain rfl := (List.cons.inj h).2
            exact hn
      · rw [if_neg hb, parseHexDigits_eq_some]
        constructor
        · exact Or.inl
        · rintro (h | ⟨ds, h, -⟩)
          · exact h
          · exact absurd (List.cons.inj h).1 hb

/-- The digit for a number below sixteen, in lower case. -/
def lowerHexDigit (n : ℕ) : UInt8 := UInt8.ofNat (if n < 10 then 48 + n else 87 + n)

/-- A number in hexadecimal digits. -/
def toHex (n : ℕ) : Bytes :=
  if n = 0 then [48] else (Nat.digits 16 n).reverse.map lowerHexDigit

theorem hexDigit_lowerHexDigit
    {n : ℕ} (hn : n < 16) :
  hexDigit (lowerHexDigit n) = some n
  := by
  revert n
  decide

theorem hexValue_reverse_map
    (ds : List ℕ) (hds : ∀ d ∈ ds, d < 16) :
  hexValue (ds.reverse.map lowerHexDigit) = Nat.ofDigits 16 ds
  := by
  induction ds with
  | nil => rfl
  | cons d ds ih =>
      have hd := hexDigit_lowerHexDigit (hds d List.mem_cons_self)
      have ih' := ih fun e he => hds e (List.mem_cons_of_mem _ he)
      rw [hexValue] at ih'
      rw [List.reverse_cons, List.map_append, hexValue, List.foldl_append, ih', Nat.ofDigits_cons]
      simp [hd, add_comm]

/-- A number is read back from its hexadecimal digits. -/
theorem hexNumber_toHex
    {n : ℕ} (hn : n < 2 ^ 64) :
  HexNumber (toHex n) n
  := by
  by_cases h0 : n = 0
  · subst h0
    exact ⟨by decide, by decide, by decide, hn⟩
  · have hlt : ∀ d ∈ Nat.digits 16 n, d < 16 := fun d hd => Nat.digits_lt_base (by decide) hd
    rw [toHex, if_neg h0]
    refine ⟨?_, ?_, ?_, hn⟩
    · simp [Nat.digits_ne_nil_iff_ne_zero.mpr h0]
    · intro b hb
      obtain ⟨d, hd, rfl⟩ := List.mem_map.mp hb
      rw [isHexDigit, hexDigit_lowerHexDigit (hlt d (List.mem_reverse.mp hd))]
      rfl
    · rw [hexValue_reverse_map _ hlt, Nat.ofDigits_digits]

/-- The hexadecimal form of a string of bytes. -/
def hexEncode (bs : Bytes) : Bytes :=
  bs.flatMap fun b => [lowerHexDigit (b.toNat / 16), lowerHexDigit (b.toNat % 16)]

/-- Bytes are determined by their hexadecimal form. -/
theorem hexEncode_injective :
  Function.Injective hexEncode
  := by
  have hinj : ∀ m n : ℕ, m < 16 → n < 16 → lowerHexDigit m = lowerHexDigit n → m = n := by
    intro m n hm hn h
    have hd := congrArg hexDigit h
    rw [hexDigit_lowerHexDigit hm, hexDigit_lowerHexDigit hn] at hd
    exact Option.some.inj hd
  intro a
  induction a with
  | nil =>
      intro b h
      cases b with
      | nil => rfl
      | cons y ys => cases h
  | cons x xs ih =>
      intro b h
      cases b with
      | nil => cases h
      | cons y ys =>
          obtain ⟨hhi, h⟩ := List.cons.inj h
          obtain ⟨hlo, h⟩ := List.cons.inj h
          have hx := x.toNat_lt
          have hy := y.toNat_lt
          have h₁ := hinj _ _ (by omega) (by omega) hhi
          have h₂ := hinj _ _ (by omega) (by omega) hlo
          have hxy : x = y := UInt8.toNat_inj.mp (by omega)
          rw [hxy, ih h]

/-! ### Decimal numbers -/

/-- The number that a string of decimal digits stands for. -/
def parseDecimalDigits (bs : Bytes) : Option ℕ :=
  if bs = [] then none
  else
    bs.foldlM (fun n b => if 48 ≤ b ∧ b ≤ 57 then some (10 * n + (b.toNat - 48)) else none) 0

/-- Parse a signed decimal number of `w` bits: digits, with at most one sign before them. -/
def fromStrSigned (w : ℕ) (bs : Bytes) : Option ℤ :=
  let parsed : Option ℤ :=
    match bs with
    | [] => none
    | b :: digits =>
        if b = 45 then (parseDecimalDigits digits).map fun n => -(n : ℤ)
        else if b = 43 then (parseDecimalDigits digits).map fun n => (n : ℤ)
        else (parseDecimalDigits (b :: digits)).map fun n => (n : ℤ)
  parsed.filter fun n => -2 ^ (w - 1) ≤ n ∧ n < 2 ^ (w - 1)

/-- Parse an unsigned decimal number of `w` bits: digits, with at most a plus sign before them. -/
def fromStrUnsigned (w : ℕ) (bs : Bytes) : Option ℕ :=
  let parsed :=
    match bs with
    | [] => none
    | b :: digits => parseDecimalDigits (if b = 43 then digits else b :: digits)
  parsed.filter fun n => n < 2 ^ w

/-! ### UTF-8 -/

/-- A continuation byte of UTF-8. -/
def isContinuation (b : UInt8) : Bool := 0x80 ≤ b && b ≤ 0xBF

/-- A character of a valid string starts or ends at a position. -/
def isCharBoundary (bs : Bytes) (i : ℕ) : Bool :=
  i = 0 ||
    match bs[i]? with
    | none => i = bs.length
    | some b => !isContinuation b

/-- The part of a string between two positions, if characters start or end there. -/
def slice (bs : Bytes) (i j : ℕ) : Option Bytes :=
  if i ≤ j ∧ isCharBoundary bs i ∧ isCharBoundary bs j then some ((bs.drop i).take (j - i))
  else none

/-- The length of the character that a string starts with, if there is one: no overlong form,
no surrogate, nothing beyond the last code point. -/
def charLength : Bytes → Option ℕ
  | a :: b :: c :: d :: _ =>
      if a < 0x80 then some 1
      else if 0xC2 ≤ a && a ≤ 0xDF && isContinuation b then some 2
      else if 0xE0 ≤ a && a ≤ 0xEF && isContinuation b && isContinuation c &&
          (a != 0xE0 || 0xA0 ≤ b) && (a != 0xED || b ≤ 0x9F) then some 3
      else if 0xF0 ≤ a && a ≤ 0xF4 && isContinuation b && isContinuation c && isContinuation d &&
          (a != 0xF0 || 0x90 ≤ b) && (a != 0xF4 || b ≤ 0x8F) then some 4
      else none
  | [a, b, c] =>
      if a < 0x80 then some 1
      else if 0xC2 ≤ a && a ≤ 0xDF && isContinuation b then some 2
      else if 0xE0 ≤ a && a ≤ 0xEF && isContinuation b && isContinuation c &&
          (a != 0xE0 || 0xA0 ≤ b) && (a != 0xED || b ≤ 0x9F) then some 3
      else none
  | [a, b] =>
      if a < 0x80 then some 1
      else if 0xC2 ≤ a && a ≤ 0xDF && isContinuation b then some 2
      else none
  | [a] => if a < 0x80 then some 1 else none
  | [] => none

/-- The string consists of valid characters, at most `n` of them. -/
def validFor (n : ℕ) (bs : Bytes) : Bool :=
  match n, bs with
  | _, [] => true
  | 0, _ :: _ => false
  | n + 1, b :: bs =>
      match charLength (b :: bs) with
      | some k => validFor n ((b :: bs).drop k)
      | none => false

/-- The string is valid UTF-8. -/
def validUtf8 (bs : Bytes) : Bool := validFor bs.length bs

theorem charLength_of_lt
    {b : UInt8} {bs : Bytes} (h : b < 0x80) :
  charLength (b :: bs) = some 1
  := by
  rcases bs with _ | ⟨c, _ | ⟨d, _ | ⟨e, bs⟩⟩⟩
  all_goals
    rw [charLength, if_pos h]

/-- A string of ASCII characters is valid UTF-8. -/
theorem validUtf8_of_lt
    {bs : Bytes} (h : ∀ b ∈ bs, b < 0x80) :
  validUtf8 bs = true
  := by
  rw [validUtf8]
  induction bs with
  | nil => rfl
  | cons b bs ih =>
      rw [List.length_cons, validFor, charLength_of_lt (h b List.mem_cons_self)]
      exact ih fun c hc => h c (List.mem_cons_of_mem _ hc)

end Text
