import TinyS3Proxy.Text.Bytes

/-!
# Percent-encoding

A string of bytes is written with escapes for those bytes that are not to appear in it: a percent
sign and two digits. Decoding takes escapes for the bytes they stand for, and a percent sign that
does not start an escape for itself, so that it is defined on every string.
-/

namespace Text

/-- The upper-case hexadecimal digit of a number. -/
def upperDigit (n : ℕ) : UInt8 := if n < 10 then UInt8.ofNat (48 + n) else UInt8.ofNat (55 + n)

/-- A byte, or the escape for it unless it is to be kept. -/
def percentEncodeByte (keep : UInt8 → Bool) (b : UInt8) : Bytes :=
  if keep b then [b] else [37, upperDigit (b.toNat / 16), upperDigit (b.toNat % 16)]

/-- A string with escapes for the bytes that are not to be kept. -/
def percentEncode (keep : UInt8 → Bool) (bs : Bytes) : Bytes :=
  bs.flatMap (percentEncodeByte keep)

/-- A string with its escapes replaced by the bytes they stand for. -/
def percentDecode : Bytes → Bytes
  | [] => []
  | [a] => [a]
  | [a, b] => [a, b]
  | a :: b :: c :: bs =>
      match if a = 37 then (hexDigit b).bind fun x => (hexDigit c).map fun y => 16 * x + y
        else none with
      | some n => UInt8.ofNat n :: percentDecode bs
      | none => a :: percentDecode (b :: c :: bs)

theorem hexDigit_upperDigit
    {n : ℕ} (h : n < 16) :
  hexDigit (upperDigit n) = some n
  := by
  have hall : ∀ n < 16, hexDigit (upperDigit n) = some n := by decide
  exact hall n h

/-- A byte other than a percent sign stands for itself. -/
theorem percentDecode_cons
    {a : UInt8} (ha : a ≠ 37) (bs : Bytes) :
  percentDecode (a :: bs) = a :: percentDecode bs
  := by
  rcases bs with _ | ⟨b, _ | ⟨c, bs⟩⟩
  · rfl
  · rfl
  · rw [percentDecode, if_neg ha]

theorem percentDecode_encodeByte
    {keep : UInt8 → Bool} (hkeep : keep 37 = false) (b : UInt8) (bs : Bytes) :
  percentDecode (percentEncodeByte keep b ++ bs) = b :: percentDecode bs
  := by
  rw [percentEncodeByte]
  split
  next hb =>
    apply percentDecode_cons
    rintro rfl
    rw [hkeep] at hb
    cases hb
  next =>
    have hlt := b.toNat_lt
    have hvalue : 16 * (b.toNat / 16) + b.toNat % 16 = b.toNat := Nat.div_add_mod _ _
    simp only [List.cons_append, List.nil_append]
    rw [percentDecode, if_pos rfl, hexDigit_upperDigit (by omega), hexDigit_upperDigit (by omega)]
    simp [hvalue]

/-- What was encoded is decoded. -/
theorem percentDecode_encode_append
    {keep : UInt8 → Bool} (hkeep : keep 37 = false) (bs rest : Bytes) :
  percentDecode (percentEncode keep bs ++ rest) = bs ++ percentDecode rest
  := by
  induction bs with
  | nil => rfl
  | cons b bs ih =>
      rw [percentEncode, List.flatMap_cons, List.append_assoc, percentDecode_encodeByte hkeep]
      exact congrArg (b :: ·) ih

theorem percentDecode_encode
    {keep : UInt8 → Bool} (hkeep : keep 37 = false) (bs : Bytes) :
  percentDecode (percentEncode keep bs) = bs
  := by
  have h := percentDecode_encode_append hkeep bs []
  rw [List.append_nil] at h
  exact h.trans (List.append_nil bs)

/-- Different strings are encoded differently. -/
theorem percentEncode_injective
    {keep : UInt8 → Bool} (hkeep : keep 37 = false) :
  Function.Injective (percentEncode keep)
  := Function.LeftInverse.injective (percentDecode_encode hkeep)

/-- A byte that is not kept, and is no part of an escape, does not appear. -/
theorem notMem_percentEncode
    {keep : UInt8 → Bool} {a : UInt8} (hkeep : keep a = false)
    (hescape : a ≠ 37 ∧ ∀ n < 16, a ≠ upperDigit n) (bs : Bytes) :
  a ∉ percentEncode keep bs
  := by
  intro h
  obtain ⟨b, -, hb⟩ := List.mem_flatMap.mp h
  rw [percentEncodeByte] at hb
  split at hb
  next hk =>
    obtain rfl := List.mem_singleton.mp hb
    rw [hkeep] at hk
    cases hk
  next =>
    have hlt := b.toNat_lt
    simp only [List.mem_cons, List.not_mem_nil, or_false] at hb
    rcases hb with hb | hb | hb
    · exact hescape.1 hb
    · exact hescape.2 _ (by omega) hb
    · exact hescape.2 _ (by omega) hb

end Text
