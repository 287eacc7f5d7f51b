import TinyS3Proxy.Text.Bytes
import Mathlib.Data.Nat.Digits.Lemmas

/-!
# Encodings of bytes as text

The hexadecimal and the base64 form of a string of bytes, and what the two have in common: they
consist of visible ASCII characters, so that such text is valid UTF-8, spans no line and has no
white space to be cut off.
-/

namespace Text

/-! ### Visible characters -/

/-- The string consists of visible ASCII characters. -/
def Visible (bs : Bytes) : Prop := ∀ b ∈ bs, 33 ≤ b ∧ b ≤ 126

instance (bs : Bytes) : Decidable (Visible bs) :=
  inferInstanceAs (Decidable (∀ b ∈ bs, 33 ≤ b ∧ b ≤ 126))

theorem visible_append
    {a b : Bytes} :
  Visible (a ++ b) ↔ Visible a ∧ Visible b
  := List.forall_mem_append

theorem visible_cons
    {b : UInt8} {bs : Bytes} :
  Visible (b :: bs) ↔ (33 ≤ b ∧ b ≤ 126) ∧ Visible bs
  := List.forall_mem_cons

theorem Visible.reverse
    {bs : Bytes} (h : Visible bs) :
  Visible bs.reverse
  := fun b hb => h b (List.mem_reverse.mp hb)

/-- Visible text is valid UTF-8. -/
theorem Visible.validUtf8
    {bs : Bytes} (h : Visible bs) :
  validUtf8 bs = true
  := by
  apply validUtf8_of_lt
  intro b hb
  exact UInt8.lt_of_le_of_lt (h b hb).2 (by decide)

/-- Visible text has no line feed. -/
theorem Visible.lf_notMem
    {bs : Bytes} (h : Visible bs) :
  lf ∉ bs
  := by
  intro hm
  exact absurd (h lf hm).1 (by decide)

theorem visible_of_isHexDigit
    {b : UInt8} (h : isHexDigit b = true) :
  33 ≤ b ∧ b ≤ 126
  := by
  rw [isHexDigit, hexDigit] at h
  simp only [UInt8.le_iff_toNat_le, UInt8.toNat_ofNat] at h ⊢
  split at h
  next => omega
  next =>
    split at h
    next => omega
    next =>
      split at h
      next => omega
      next => cases h

theorem HexNumber.visible
    {bs : Bytes} {n : ℕ} (h : HexNumber bs n) :
  Visible bs
  := fun b hb => visible_of_isHexDigit (h.digits b hb)

/-- The hexadecimal form of a number of 64 bits has at most sixteen digits. -/
theorem toHex_length_le
    {n : ℕ} (hn : n < 2 ^ 64) :
  (toHex n).length ≤ 16
  := by
  rw [toHex]
  split
  next => decide
  next =>
    rw [List.length_map, List.length_reverse, Nat.digits_length_le_iff (by decide)]
    exact hn

theorem lowerByte_visible
    {b : UInt8} (h : 33 ≤ lowerByte b ∧ lowerByte b ≤ 126) :
  33 ≤ b ∧ b ≤ 126
  := by
  rw [lowerByte] at h
  simp only [UInt8.le_iff_toNat_le, UInt8.toNat_ofNat] at h ⊢
  split at h
  next => omega
  next => exact h

/-- Visible text stays visible in either case of its letters. -/
theorem visible_of_lower
    {bs : Bytes} (h : Visible (lower bs)) :
  Visible bs
  := fun b hb => lowerByte_visible (h (lowerByte b) (List.mem_map_of_mem hb))

/-- A white-space character does not start with a visible one, in either direction. -/
theorem strip_whitespace
    {w : Bytes} (hw : w ∈ whitespace ++ whitespace.map List.reverse) {b : UInt8} {bs : Bytes}
    (hb : 33 ≤ b ∧ b ≤ 126) :
  strip w (b :: bs) = none
  := by
  have hhead : ∀ w ∈ whitespace ++ whitespace.map List.reverse,
      w ≠ [] ∧ ∀ c ∈ w.head?, c < 33 ∨ 126 < c := by decide +kernel
  obtain ⟨hne, hc⟩ := hhead w hw
  obtain ⟨c, rest, rfl⟩ := List.exists_cons_of_ne_nil hne
  rw [strip, if_neg]
  rintro rfl
  obtain hc | hc := hc b rfl
  · exact absurd hb.1 (UInt8.not_le.mpr hc)
  · exact absurd hb.2 (UInt8.not_le.mpr hc)

theorem trimFront_of_visible
    {space : List Bytes} (hs : ∀ w ∈ space, w ∈ whitespace ++ whitespace.map List.reverse)
    {bs : Bytes} (h : Visible bs) (n : ℕ) :
  trimFront n space bs = bs
  := by
  cases n with
  | zero => rfl
  | succ n =>
      cases bs with
      | nil =>
          have hnone : (space.findSome? fun w => strip w []) = none := by
            rw [List.findSome?_eq_none_iff]
            intro w hw
            obtain ⟨c, rest, rfl⟩ := List.exists_cons_of_ne_nil
              (show w ≠ [] by
                have hne : ∀ w ∈ whitespace ++ whitespace.map List.reverse, w ≠ [] := by
                  decide +kernel
                exact hne w (hs w hw))
            rfl
          rw [trimFront, hnone]
      | cons b bs =>
          have hnone : (space.findSome? fun w => strip w (b :: bs)) = none := by
            rw [List.findSome?_eq_none_iff]
            intro w hw
            exact strip_whitespace (hs w hw) (visible_cons.mp h).1
          rw [trimFront, hnone]

/-- Visible text has no white space to be cut off. -/
theorem Visible.trim
    {bs : Bytes} (h : Visible bs) :
  trim bs = bs
  := by
  have hfront : trimFront bs.length whitespace bs = bs :=
    trimFront_of_visible (fun w hw => List.mem_append_left _ hw) h _
  have hback : trimFront bs.length (whitespace.map List.reverse) bs.reverse = bs.reverse :=
    trimFront_of_visible (fun w hw => List.mem_append_right _ hw) h.reverse _
  rw [Text.trim, hfront]
  simp only [hback, List.reverse_reverse]

/-! ### The end of a string -/

/-- Cut a string off the end. -/
def stripEnd (suffix bs : Bytes) : Option Bytes :=
  (strip suffix.reverse bs.reverse).map List.reverse

theorem stripEnd_eq_some
    {suffix bs r : Bytes} :
  stripEnd suffix bs = some r ↔ bs = r ++ suffix
  := by
  rw [stripEnd, Option.map_eq_some_iff]
  constructor
  · rintro ⟨t, ht, rfl⟩
    have h := congrArg List.reverse (strip_eq_some.mp ht)
    rw [List.reverse_reverse, List.reverse_append, List.reverse_reverse] at h
    exact h
  · rintro rfl
    use r.reverse
    exact ⟨strip_eq_some.mpr (List.reverse_append ..), List.reverse_reverse r⟩

/-! ### Hexadecimal text -/

/-- The value of a hexadecimal digit in lower case. -/
def hexNibble (b : UInt8) : Option ℕ :=
  if 48 ≤ b ∧ b ≤ 57 then some (b.toNat - 48)
  else if 97 ≤ b ∧ b ≤ 102 then some (b.toNat - 87)
  else none

/-- The bytes that pairs of digits stand for. -/
def decodePairs (nibble : UInt8 → Option ℕ) : Bytes → Option Bytes
  | [] => some []
  | [_] => none
  | hi :: lo :: rest => do
      let h ← nibble hi
      let l ← nibble lo
      let bs ← decodePairs nibble rest
      some (UInt8.ofNat (16 * h + l) :: bs)

theorem hexNibble_lowerHexDigit
    {n : ℕ} (hn : n < 16) :
  hexNibble (lowerHexDigit n) = some n
  := by
  revert n
  decide

/-- Bytes are read back from their hexadecimal form. -/
theorem decodePairs_hexEncode
    (bs : Bytes) :
  decodePairs hexNibble (hexEncode bs) = some bs
  := by
  induction bs with
  | nil => rfl
  | cons b bs ih =>
      have hlt := b.toNat_lt
      have hhi := hexNibble_lowerHexDigit (n := b.toNat / 16) (by omega)
      have hlo := hexNibble_lowerHexDigit (n := b.toNat % 16) (by omega)
      change decodePairs hexNibble (lowerHexDigit (b.toNat / 16) ::
        lowerHexDigit (b.toNat % 16) :: hexEncode bs) = some (b :: bs)
      rw [decodePairs, hhi, hlo, ih]
      have hb : UInt8.ofNat (16 * (b.toNat / 16) + b.toNat % 16) = b := by
        rw [Nat.div_add_mod]
        exact UInt8.ofNat_toNat
      simp only [Option.bind_eq_bind, Option.bind_some, hb]

theorem isLowerHex_of_hexNibble
    {b : UInt8} {n : ℕ} (h : hexNibble b = some n) :
  isLowerHex b = true
  := by
  rw [hexNibble] at h
  rw [isLowerHex]
  split at h
  next hdigit => simp [hdigit]
  next =>
    split at h
    next hletter => simp [hletter]
    next => cases h

/-- What is decoded consists of digits in lower case. -/
theorem isLowerHex_of_decodePairs
    {bs out : Bytes} (h : decodePairs hexNibble bs = some out) :
  ∀ b ∈ bs, isLowerHex b = true
  := by
  induction bs using decodePairs.induct generalizing out with
  | case1 => simp
  | case2 b => cases h
  | case3 hi lo rest ih =>
      rw [decodePairs] at h
      obtain ⟨x, hx, h⟩ := Option.bind_eq_some_iff.mp h
      obtain ⟨y, hy, h⟩ := Option.bind_eq_some_iff.mp h
      obtain ⟨tail, htail, -⟩ := Option.bind_eq_some_iff.mp h
      intro b hb
      rcases List.mem_cons.mp hb with rfl | hb
      · exact isLowerHex_of_hexNibble hx
      · rcases List.mem_cons.mp hb with rfl | hb
        · exact isLowerHex_of_hexNibble hy
        · exact ih htail b hb

@[simp]
theorem hexEncode_length
    (bs : Bytes) :
  (hexEncode bs).length = 2 * bs.length
  := by
  induction bs with
  | nil => rfl
  | cons b bs ih =>
      change (hexEncode bs).length + 1 + 1 = _
      rw [ih, List.length_cons]
      omega

theorem isLowerHex_lowerHexDigit
    {n : ℕ} (hn : n < 16) :
  isLowerHex (lowerHexDigit n) = true
  := by
  revert n
  decide

/-- Hexadecimal text is in lower case. -/
theorem isLowerHex_of_mem_hexEncode
    {bs : Bytes} {b : UInt8} (h : b ∈ hexEncode bs) :
  isLowerHex b = true
  := by
  obtain ⟨c, -, hc⟩ := List.mem_flatMap.mp h
  have hlt := c.toNat_lt
  obtain rfl | hc := List.mem_cons.mp hc
  · exact isLowerHex_lowerHexDigit (by omega)
  · obtain rfl := List.mem_singleton.mp hc
    exact isLowerHex_lowerHexDigit (by omega)

theorem visible_of_isLowerHex
    {bs : Bytes} (h : ∀ b ∈ bs, isLowerHex b = true) :
  Visible bs
  := by
  intro b hb
  have hb' := h b hb
  simp only [isLowerHex, Bool.or_eq_true, Bool.and_eq_true, decide_eq_true_eq,
    UInt8.le_iff_toNat_le, UInt8.toNat_ofNat] at hb' ⊢
  omega

/-! ### Base64 -/

/-- The character for a number below sixty-four. -/
def base64Char (n : ℕ) : UInt8 :=
  UInt8.ofNat
    (if n < 26 then 65 + n
      else if n < 52 then 71 + n
      else if n < 62 then n - 4
      else if n = 62 then 43
      else 47)

/-- The base64 form of a string of bytes, padded to a multiple of four characters. -/
def base64Encode : Bytes → Bytes
  | [] => []
  | [a] => [base64Char (a.toNat / 4), base64Char (a.toNat % 4 * 16), 61, 61]
  | [a, b] =>
      [base64Char (a.toNat / 4), base64Char (a.toNat % 4 * 16 + b.toNat / 16),
        base64Char (b.toNat % 16 * 4), 61]
  | a :: b :: c :: rest =>
      base64Char (a.toNat / 4) :: base64Char (a.toNat % 4 * 16 + b.toNat / 16) ::
        base64Char (b.toNat % 16 * 4 + c.toNat / 64) :: base64Char (c.toNat % 64) ::
        base64Encode rest

theorem visible_base64Char
    {n : ℕ} (hn : n < 64) :
  33 ≤ base64Char n ∧ base64Char n ≤ 126
  := by
  revert n
  decide +kernel

/-- Base64 text consists of visible characters. -/
theorem visible_base64Encode
    (bs : Bytes) :
  Visible (base64Encode bs)
  := by
  have hpad : (33 : UInt8) ≤ 61 ∧ (61 : UInt8) ≤ 126 := by decide
  induction bs using base64Encode.induct with
  | case1 => nofun
  | case2 a =>
      have ha := a.toNat_lt
      simp only [base64Encode, visible_cons]
      exact ⟨visible_base64Char (by omega), visible_base64Char (by omega), hpad, hpad, nofun⟩
  | case3 a b =>
      have ha := a.toNat_lt
      have hb := b.toNat_lt
      simp only [base64Encode, visible_cons]
      exact ⟨visible_base64Char (by omega), visible_base64Char (by omega),
        visible_base64Char (by omega), hpad, nofun⟩
  | case4 a b c rest ih =>
      have ha := a.toNat_lt
      have hb := b.toNat_lt
      have hc := c.toNat_lt
      simp only [base64Encode, visible_cons]
      exact ⟨visible_base64Char (by omega), visible_base64Char (by omega),
        visible_base64Char (by omega), visible_base64Char (by omega), ih⟩

theorem base64Encode_length
    (bs : Bytes) :
  (base64Encode bs).length = 4 * ((bs.length + 2) / 3)
  := by
  induction bs using base64Encode.induct with
  | case1 => rfl
  | case2 a => simp [base64Encode]
  | case3 a b => simp [base64Encode]
  | case4 a b c rest ih =>
      simp only [base64Encode, List.length_cons, ih]
      omega

/-- The number that a base64 character stands for. -/
def base64Value (b : UInt8) : Option ℕ :=
  if 65 ≤ b ∧ b ≤ 90 then some (b.toNat - 65)
  else if 97 ≤ b ∧ b ≤ 122 then some (b.toNat - 71)
  else if 48 ≤ b ∧ b ≤ 57 then some (b.toNat + 4)
  else if b = 43 then some 62
  else if b = 47 then some 63
  else none

/-- Decode base64 text that is padded to a multiple of four characters. -/
def base64Decode : Bytes → Option Bytes
  | [] => some []
  | [w, x, 61, 61] => do
      let i ← base64Value w
      let j ← base64Value x
      some [UInt8.ofNat (i * 4 + j / 16)]
  | [w, x, y, 61] => do
      let i ← base64Value w
      let j ← base64Value x
      let k ← base64Value y
      some [UInt8.ofNat (i * 4 + j / 16), UInt8.ofNat (j % 16 * 16 + k / 4)]
  | w :: x :: y :: z :: rest => do
      let i ← base64Value w
      let j ← base64Value x
      let k ← base64Value y
      let l ← base64Value z
      let bs ← base64Decode rest
      some (UInt8.ofNat (i * 4 + j / 16) :: UInt8.ofNat (j % 16 * 16 + k / 4) ::
        UInt8.ofNat (k % 4 * 64 + l) :: bs)
  | _ => none

theorem base64Value_base64Char
    {n : ℕ} (hn : n < 64) :
  base64Value (base64Char n) = some n
  := by
  revert n
  decide +kernel

theorem base64Char_ne_pad
    {n : ℕ} (hn : n < 64) :
  base64Char n ≠ 61
  := by
  revert n
  decide +kernel

theorem ofNat_eq_of_toNat
    {b : UInt8} {n : ℕ} (h : n = b.toNat) :
  UInt8.ofNat n = b
  := by
  rw [h]
  exact UInt8.ofNat_toNat

/-- Bytes are read back from their base64 form. -/
theorem base64Decode_base64Encode
    (bs : Bytes) :
  base64Decode (base64Encode bs) = some bs
  := by
  induction bs using base64Encode.induct with
  | case1 => rfl
  | case2 a =>
      have ha := a.toNat_lt
      rw [base64Encode, base64Decode, base64Value_base64Char (by omega),
        base64Value_base64Char (by omega)]
      simp only [Option.bind_eq_bind, Option.bind_some, Option.some.injEq, List.cons.injEq,
        and_true]
      exact ofNat_eq_of_toNat (by omega)
  | case3 a b =>
      have ha := a.toNat_lt
      have hb := b.toNat_lt
      rw [base64Encode, base64Decode, base64Value_base64Char (by omega),
        base64Value_base64Char (by omega), base64Value_base64Char (by omega)]
      · simp only [Option.bind_eq_bind, Option.bind_some, Option.some.injEq, List.cons.injEq,
          and_true]
        exact ⟨ofNat_eq_of_toNat (by omega), ofNat_eq_of_toNat (by omega)⟩
      · exact fun h => base64Char_ne_pad (by omega) h
  | case4 a b c rest ih =>
      have ha := a.toNat_lt
      have hb := b.toNat_lt
      have hc := c.toNat_lt
      rw [base64Encode, base64Decode, base64Value_base64Char (by omega),
        base64Value_base64Char (by omega), base64Value_base64Char (by omega),
        base64Value_base64Char (by omega), ih]
      · simp only [Option.bind_eq_bind, Option.bind_some, Option.some.injEq, List.cons.injEq,
          and_true]
        exact ⟨ofNat_eq_of_toNat (by omega), ofNat_eq_of_toNat (by omega),
          ofNat_eq_of_toNat (by omega)⟩
      · exact fun _ h => absurd h (base64Char_ne_pad (by omega))
      · exact fun h => absurd h (base64Char_ne_pad (by omega))

end Text
