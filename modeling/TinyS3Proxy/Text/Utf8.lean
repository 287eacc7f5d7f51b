import TinyS3Proxy.Text.Bytes

/-!
# Lossy decoding

Bytes that are no valid UTF-8 are made a string by putting the replacement character for what is
no character. Strings are valid UTF-8 if they are characters one after the other, and the proofs
go by induction over these. A string is decoded to itself only if it is valid, and different
strings may be decoded to the same one: a string has no other that is decoded to the same string
exactly if it is valid and the replacement character does not occur in it.
-/

namespace Text

/-! ### Characters -/

/-- The bytes of one character. -/
inductive Character : Bytes → Prop where
  | one {a : UInt8} : a < 0x80 → Character [a]
  | two {a b : UInt8} : (0xC2 ≤ a && a ≤ 0xDF && isContinuation b) = true → Character [a, b]
  | three {a b c : UInt8} :
      (0xE0 ≤ a && a ≤ 0xEF && isContinuation b && isContinuation c &&
        (a != 0xE0 || 0xA0 ≤ b) && (a != 0xED || b ≤ 0x9F)) = true →
      Character [a, b, c]
  | four {a b c d : UInt8} :
      (0xF0 ≤ a && a ≤ 0xF4 && isContinuation b && isContinuation c && isContinuation d &&
        (a != 0xF0 || 0x90 ≤ b) && (a != 0xF4 || b ≤ 0x8F)) = true →
      Character [a, b, c, d]

theorem Character.ne_nil
    {c : Bytes} (h : Character c) :
  c ≠ []
  := by
  cases h <;> exact List.cons_ne_nil _ _

theorem Character.length_pos
    {c : Bytes} (h : Character c) :
  0 < c.length
  := List.length_pos_of_ne_nil h.ne_nil

/-- A string that starts with a character is found to do so. -/
theorem Character.charLength_append
    {c : Bytes} (h : Character c) (rest : Bytes) :
  charLength (c ++ rest) = some c.length
  := by
  cases h with
  | one h => exact charLength_of_lt h
  | @two a b h =>
      have hlead : ¬ a < 0x80 := by
        simp only [Bool.and_eq_true, decide_eq_true_eq] at h
        simp only [UInt8.le_iff_toNat_le, UInt8.lt_iff_toNat_lt, UInt8.toNat_ofNat] at h ⊢
        omega
      rcases rest with _ | ⟨c, _ | ⟨d, rest⟩⟩
      all_goals
        simp only [List.cons_append, List.nil_append]
        rw [charLength, if_neg hlead, if_pos h]
        rfl
  | @three a b c h =>
      have hlead : ¬ a < 0x80 ∧ ¬ a ≤ 0xDF := by
        simp only [Bool.and_eq_true, decide_eq_true_eq] at h
        simp only [UInt8.le_iff_toNat_le, UInt8.lt_iff_toNat_lt, UInt8.toNat_ofNat] at h ⊢
        omega
      rcases rest with _ | ⟨d, rest⟩
      all_goals
        simp only [List.cons_append, List.nil_append]
        rw [charLength, if_neg hlead.1, if_neg (by simp [hlead.2]), if_pos h]
        rfl
  | @four a b c d h =>
      have hlead : ¬ a < 0x80 ∧ ¬ a ≤ 0xDF ∧ ¬ a ≤ 0xEF := by
        simp only [Bool.and_eq_true, decide_eq_true_eq] at h
        simp only [UInt8.le_iff_toNat_le, UInt8.lt_iff_toNat_lt, UInt8.toNat_ofNat] at h ⊢
        omega
      simp only [List.cons_append, List.nil_append]
      rw [charLength, if_neg hlead.1, if_neg (by simp [hlead.2.1]),
        if_neg (by simp [hlead.2.2]), if_pos h]
      rfl

/-- A string that is found to start with a character does so. -/
theorem exists_character
    {bs : Bytes} {k : ℕ} (h : charLength bs = some k) :
  ∃ c rest, bs = c ++ rest ∧ Character c ∧ c.length = k
  := by
  rcases bs with _ | ⟨a, _ | ⟨b, _ | ⟨c, _ | ⟨d, rest⟩⟩⟩⟩
  · cases h
  · rw [charLength] at h
    split at h
    next ha => exact ⟨[a], [], rfl, .one ha, Option.some.inj h⟩
    next => cases h
  · rw [charLength] at h
    split at h
    next ha => exact ⟨[a], [b], rfl, .one ha, Option.some.inj h⟩
    next =>
      split at h
      next hb => exact ⟨[a, b], [], rfl, .two hb, Option.some.inj h⟩
      next => cases h
  · rw [charLength] at h
    split at h
    next ha => exact ⟨[a], [b, c], rfl, .one ha, Option.some.inj h⟩
    next =>
      split at h
      next hb => exact ⟨[a, b], [c], rfl, .two hb, Option.some.inj h⟩
      next =>
        split at h
        next hc => exact ⟨[a, b, c], [], rfl, .three hc, Option.some.inj h⟩
        next => cases h
  · rw [charLength] at h
    split at h
    next ha => exact ⟨[a], b :: c :: d :: rest, rfl, .one ha, Option.some.inj h⟩
    next =>
      split at h
      next hb => exact ⟨[a, b], c :: d :: rest, rfl, .two hb, Option.some.inj h⟩
      next =>
        split at h
        next hc => exact ⟨[a, b, c], d :: rest, rfl, .three hc, Option.some.inj h⟩
        next =>
          split at h
          next hd => exact ⟨[a, b, c, d], rest, rfl, .four hd, Option.some.inj h⟩
          next => cases h

/-- The bytes after the first one of a character continue it. -/
theorem Character.isContinuation_of_mem_tail
    {c : Bytes} (h : Character c) {b : UInt8} (hb : b ∈ c.tail) :
  isContinuation b = true
  := by
  cases h with
  | one h => cases hb
  | two h =>
      simp only [Bool.and_eq_true] at h
      obtain rfl := List.mem_singleton.mp hb
      exact h.2
  | three h =>
      simp only [Bool.and_eq_true] at h
      simp only [List.tail_cons, List.mem_cons, List.not_mem_nil, or_false] at hb
      rcases hb with rfl | rfl
      · exact h.1.1.1.2
      · exact h.1.1.2
  | four h =>
      simp only [Bool.and_eq_true] at h
      simp only [List.tail_cons, List.mem_cons, List.not_mem_nil, or_false] at hb
      rcases hb with rfl | rfl | rfl
      · exact h.1.1.1.1.2
      · exact h.1.1.1.2
      · exact h.1.1.2

/-! ### Valid strings -/

theorem validFor_eq_of_le
    {n m : ℕ} {bs : Bytes} (hn : bs.length ≤ n) (hm : bs.length ≤ m) :
  validFor n bs = validFor m bs
  := by
  induction n generalizing m bs with
  | zero =>
      obtain rfl := List.length_eq_zero_iff.mp (Nat.le_zero.mp hn)
      cases m <;> rfl
  | succ n ih =>
      cases bs with
      | nil => cases m <;> rfl
      | cons b bs =>
          cases m with
          | zero => cases hm
          | succ m =>
              rw [validFor, validFor]
              rcases hlen : charLength (b :: bs) with _ | k
              · rfl
              · obtain ⟨c, rest, heq, hc, rfl⟩ := exists_character hlen
                have hpos := hc.length_pos
                rw [heq] at hn hm
                simp only [heq, List.drop_left]
                rw [List.length_append] at hn hm
                exact ih (by omega) (by omega)

@[simp]
theorem validUtf8_nil :
  validUtf8 [] = true
  := rfl

/-- A string after a character is valid if the whole is. -/
theorem validUtf8_append
    {c : Bytes} (hc : Character c) (rest : Bytes) :
  validUtf8 (c ++ rest) = validUtf8 rest
  := by
  obtain ⟨b, bs, hcons⟩ := List.exists_cons_of_ne_nil (l := c ++ rest) (by
    intro h
    exact hc.ne_nil (List.append_eq_nil_iff.mp h).1)
  have hlen := hc.charLength_append rest
  have hpos := hc.length_pos
  have hlength : bs.length + 1 = c.length + rest.length := by
    rw [← List.length_append, hcons, List.length_cons]
  rw [validUtf8, hcons, List.length_cons, validFor, ← hcons, hlen]
  simp only [List.drop_left]
  apply validFor_eq_of_le
  · omega
  · exact le_rfl

theorem validUtf8_of_charLength_eq_none
    {bs : Bytes} (hne : bs ≠ []) (h : charLength bs = none) :
  validUtf8 bs = false
  := by
  obtain ⟨b, rest, rfl⟩ := List.exists_cons_of_ne_nil hne
  rw [validUtf8, List.length_cons, validFor, h]

/-! ### Decoding -/

/-- The replacement character. -/
def replacement : Bytes := [0xEF, 0xBF, 0xBD]

/-- The byte may come second in a character that starts with another. -/
def maySecond (a b : UInt8) : Bool :=
  isContinuation b && (a != 0xE0 || 0xA0 ≤ b) && (a != 0xED || b ≤ 0x9F) &&
    (a != 0xF0 || 0x90 ≤ b) && (a != 0xF4 || b ≤ 0x8F)

/-- The number of bytes for which one replacement character is put where there is no character:
the front part of some character, or a single byte. -/
def invalidLength : Bytes → ℕ
  | a :: b :: c :: _ =>
      if 0xE0 ≤ a && a ≤ 0xF4 && maySecond a b then
        if 0xF0 ≤ a && isContinuation c then 3 else 2
      else 1
  | [a, b] => if 0xE0 ≤ a && a ≤ 0xF4 && maySecond a b then 2 else 1
  | _ => 1

/-- Decode a string of at most `n` bytes. -/
def lossyFor (n : ℕ) (bs : Bytes) : Bytes :=
  match n, bs with
  | _, [] => []
  | 0, _ :: _ => []
  | n + 1, b :: bs =>
      match charLength (b :: bs) with
      | some k => (b :: bs).take k ++ lossyFor n ((b :: bs).drop k)
      | none => replacement ++ lossyFor n ((b :: bs).drop (invalidLength (b :: bs)))

/-- The string with the replacement character for what is no character. -/
def fromUtf8Lossy (bs : Bytes) : Bytes := lossyFor bs.length bs

theorem invalidLength_pos
    (bs : Bytes) :
  0 < invalidLength bs
  := by
  rcases bs with _ | ⟨a, _ | ⟨b, _ | ⟨c, rest⟩⟩⟩
  · exact Nat.one_pos
  · exact Nat.one_pos
  · rw [invalidLength]
    split <;> decide
  · rw [invalidLength]
    split
    next => split <;> decide
    next => decide

theorem lossyFor_eq_of_le
    {n m : ℕ} {bs : Bytes} (hn : bs.length ≤ n) (hm : bs.length ≤ m) :
  lossyFor n bs = lossyFor m bs
  := by
  induction n generalizing m bs with
  | zero =>
      obtain rfl := List.length_eq_zero_iff.mp (Nat.le_zero.mp hn)
      cases m <;> rfl
  | succ n ih =>
      cases bs with
      | nil => cases m <;> rfl
      | cons b bs =>
          cases m with
          | zero => cases hm
          | succ m =>
              have hdrop : ∀ k, 0 < k → ((b :: bs).drop k).length ≤ bs.length := by
                intro k hk
                rw [List.length_drop, List.length_cons]
                omega
              rw [List.length_cons] at hn hm
              rw [lossyFor, lossyFor]
              rcases hlen : charLength (b :: bs) with _ | k
              · have hle := hdrop _ (invalidLength_pos (b :: bs))
                exact congrArg (replacement ++ ·) (ih (by omega) (by omega))
              · obtain ⟨c, rest, -, hc, rfl⟩ := exists_character hlen
                have hle := hdrop _ hc.length_pos
                exact congrArg ((b :: bs).take c.length ++ ·) (ih (by omega) (by omega))

@[simp]
theorem fromUtf8Lossy_nil :
  fromUtf8Lossy [] = []
  := rfl

/-- A character is kept. -/
theorem fromUtf8Lossy_append
    {c : Bytes} (hc : Character c) (rest : Bytes) :
  fromUtf8Lossy (c ++ rest) = c ++ fromUtf8Lossy rest
  := by
  obtain ⟨b, bs, hcons⟩ := List.exists_cons_of_ne_nil (l := c ++ rest) (by
    intro h
    exact hc.ne_nil (List.append_eq_nil_iff.mp h).1)
  have hlen := hc.charLength_append rest
  have hpos := hc.length_pos
  have hlength : bs.length + 1 = c.length + rest.length := by
    rw [← List.length_append, hcons, List.length_cons]
  rw [fromUtf8Lossy, hcons, List.length_cons, lossyFor, ← hcons, hlen]
  simp only [List.take_left, List.drop_left]
  apply congrArg (c ++ ·)
  apply lossyFor_eq_of_le
  · omega
  · exact le_rfl

/-- What is no character is replaced. -/
theorem fromUtf8Lossy_of_charLength_eq_none
    {bs : Bytes} (hne : bs ≠ []) (h : charLength bs = none) :
  fromUtf8Lossy bs = replacement ++ fromUtf8Lossy (bs.drop (invalidLength bs))
  := by
  obtain ⟨b, rest, rfl⟩ := List.exists_cons_of_ne_nil hne
  have hpos := invalidLength_pos (b :: rest)
  rw [fromUtf8Lossy, List.length_cons, lossyFor, h]
  apply congrArg (replacement ++ ·)
  apply lossyFor_eq_of_le
  · rw [List.length_drop, List.length_cons]
    omega
  · exact le_rfl

/-- A string starts with a character, or with bytes that are replaced. -/
@[elab_as_elim]
theorem utf8_induction
    {P : Bytes → Prop} (nil : P [])
    (character : ∀ c rest, Character c → P rest → P (c ++ rest))
    (invalid : ∀ bs, bs ≠ [] → charLength bs = none → P (bs.drop (invalidLength bs)) → P bs)
    (bs : Bytes) :
  P bs
  := by
  induction hn : bs.length using Nat.strong_induction_on generalizing bs with
  | _ n ih =>
      by_cases hne : bs = []
      · subst hne
        exact nil
      have hpos := List.length_pos_of_ne_nil hne
      rcases hlen : charLength bs with _ | k
      · have hinvalid := invalidLength_pos bs
        apply invalid bs hne hlen
        apply ih _ _ _ rfl
        rw [List.length_drop]
        omega
      · obtain ⟨c, rest, rfl, hc, -⟩ := exists_character hlen
        have hc' := hc.length_pos
        apply character c rest hc
        apply ih _ _ _ rfl
        rw [List.length_append] at hn
        omega

/-! ### What is decoded -/

/-- A valid string is decoded to itself. -/
theorem fromUtf8Lossy_of_validUtf8
    {bs : Bytes} (h : validUtf8 bs = true) :
  fromUtf8Lossy bs = bs
  := by
  induction bs using utf8_induction with
  | nil => rfl
  | character c rest hc ih =>
      rw [validUtf8_append hc] at h
      rw [fromUtf8Lossy_append hc, ih h]
  | invalid bs hne hlen _ =>
      rw [validUtf8_of_charLength_eq_none hne hlen] at h
      cases h

theorem character_replacement :
  Character replacement
  := .three (by decide)

/-- What a string is decoded to is valid. -/
theorem validUtf8_fromUtf8Lossy
    (bs : Bytes) :
  validUtf8 (fromUtf8Lossy bs) = true
  := by
  induction bs using utf8_induction with
  | nil => rfl
  | character c rest hc ih => rw [fromUtf8Lossy_append hc, validUtf8_append hc, ih]
  | invalid bs hne hlen ih =>
      rw [fromUtf8Lossy_of_charLength_eq_none hne hlen, validUtf8_append character_replacement, ih]

/-- The replacement character occurs in what an invalid string is decoded to. -/
theorem replacement_infix_of_not_validUtf8
    {bs : Bytes} (h : validUtf8 bs = false) :
  replacement <:+: fromUtf8Lossy bs
  := by
  induction bs using utf8_induction with
  | nil => cases h
  | character c rest hc ih =>
      rw [validUtf8_append hc] at h
      rw [fromUtf8Lossy_append hc]
      exact (ih h).trans (List.suffix_append c _).isInfix
  | invalid bs hne hlen _ =>
      rw [fromUtf8Lossy_of_charLength_eq_none hne hlen]
      exact (List.prefix_append _ _).isInfix

/-- A byte that starts no character is decoded to the replacement character. -/
theorem fromUtf8Lossy_ff
    (bs : Bytes) :
  fromUtf8Lossy (0xFF :: bs) = replacement ++ fromUtf8Lossy bs
  := by
  have hlen : charLength (0xFF :: bs) = none := by
    rcases bs with _ | ⟨b, _ | ⟨c, _ | ⟨d, bs⟩⟩⟩
    all_goals
      simp [charLength]
  have hone : invalidLength (0xFF :: bs) = 1 := by
    rcases bs with _ | ⟨b, _ | ⟨c, bs⟩⟩
    all_goals
      simp [invalidLength]
  rw [fromUtf8Lossy_of_charLength_eq_none (List.cons_ne_nil _ _) hlen, hone, List.drop_one,
    List.tail_cons]

/-- Where a replacement character starts in a valid string, a character starts. -/
theorem Character.append_eq_replacement_append
    {c : Bytes} (hc : Character c) {front rest tail : Bytes}
    (h : c ++ tail = front ++ (replacement ++ rest)) :
  (∃ more, front = c ++ more ∧ tail = more ++ (replacement ++ rest)) ∨
    front = [] ∧ c = replacement ∧ tail = rest
  := by
  rcases List.append_eq_append_iff.mp h with ⟨more, hfront, htail⟩ | ⟨more, hfront, htail⟩
  · exact .inl ⟨more, hfront, htail⟩
  · cases front with
    | nil =>
        right
        rw [List.nil_append] at h
        have hlen := hc.charLength_append tail
        rw [h, character_replacement.charLength_append] at hlen
        have hsame := List.append_inj h.symm (Option.some.inj hlen)
        exact ⟨rfl, hsame.1.symm, hsame.2.symm⟩
    | cons a front =>
        left
        cases more with
        | nil =>
            rw [List.append_nil] at hfront
            exact ⟨[], by rw [hfront, List.append_nil], htail.symm⟩
        | cons b more =>
            -- the first byte of a replacement character continues no character
            obtain rfl : (0xEF : UInt8) = b := (List.cons.inj htail).1
            have hmem : (0xEF : UInt8) ∈ c.tail := by
              rw [hfront]
              exact List.mem_append_right _ List.mem_cons_self
            exact absurd (hc.isContinuation_of_mem_tail hmem) (by decide)

/-- A valid string in which the replacement character occurs is also what a string is decoded to
that has there a byte that starts no character. -/
theorem fromUtf8Lossy_replace
    {bs : Bytes} (h : validUtf8 bs = true) {front rest : Bytes}
    (heq : bs = front ++ (replacement ++ rest)) :
  fromUtf8Lossy (front ++ 0xFF :: rest) = bs
  := by
  induction bs using utf8_induction generalizing front with
  | nil =>
      rw [eq_comm, List.append_eq_nil_iff] at heq
      cases heq.2
  | invalid bs hne hlen _ =>
      rw [validUtf8_of_charLength_eq_none hne hlen] at h
      cases h
  | character c tail hc ih =>
      rw [validUtf8_append hc] at h
      rcases hc.append_eq_replacement_append heq with ⟨more, rfl, htail⟩ | ⟨rfl, rfl, rfl⟩
      · rw [List.append_assoc, fromUtf8Lossy_append hc, ih h htail]
      · rw [List.nil_append, fromUtf8Lossy_ff, fromUtf8Lossy_of_validUtf8 h]

/-- No other string is decoded to the same string exactly if the string is valid and the
replacement character does not occur in it. -/
theorem fromUtf8Lossy_inj_iff
    {bs : Bytes} :
  (∀ other, fromUtf8Lossy other = fromUtf8Lossy bs → other = bs) ↔
    validUtf8 bs = true ∧ ¬ replacement <:+: bs
  := by
  constructor
  · intro h
    have hself : fromUtf8Lossy bs = bs :=
      h _ (fromUtf8Lossy_of_validUtf8 (validUtf8_fromUtf8Lossy bs))
    have hvalid : validUtf8 bs = true := by
      rw [← hself]
      exact validUtf8_fromUtf8Lossy bs
    use hvalid
    rintro ⟨front, rest, heq⟩
    rw [List.append_assoc] at heq
    have hother := h (front ++ 0xFF :: rest)
      ((fromUtf8Lossy_replace hvalid heq.symm).trans hself.symm)
    have hlen : (front ++ 0xFF :: rest).length = (front ++ (replacement ++ rest)).length := by
      rw [hother, heq]
    simp [replacement] at hlen
  · rintro ⟨hvalid, hnot⟩ other heq
    rw [fromUtf8Lossy_of_validUtf8 hvalid] at heq
    rcases hother : validUtf8 other with _ | _
    · exact absurd (heq ▸ replacement_infix_of_not_validUtf8 hother) hnot
    · rw [← heq, fromUtf8Lossy_of_validUtf8 hother]

end Text
