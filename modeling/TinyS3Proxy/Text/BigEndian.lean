import TinyS3Proxy.Text.Bytes

/-!
# Big-endian numbers

The number that a string of bytes stands for, the most significant byte first. Strings of the same
length are compared as numbers byte by byte from the front, and the successor of a number is found
by carrying from the end.
-/

namespace Text

/-- The number that a string of bytes stands for, the most significant byte first. -/
def beValue (bs : Bytes) : ℕ := bs.foldl (fun n b => 256 * n + b.toNat) 0

theorem beValue_concat
    (a : Bytes) (x : UInt8) :
  beValue (a ++ [x]) = 256 * beValue a + x.toNat
  := by
  rw [beValue, List.foldl_append]
  rfl

theorem beValue_append
    (a b : Bytes) :
  beValue (a ++ b) = beValue a * 256 ^ b.length + beValue b
  := by
  induction b using List.reverseRecOn with
  | nil => simp [beValue]
  | append_singleton b x ih =>
      rw [← List.append_assoc, beValue_concat, beValue_concat, ih, List.length_append, pow_add]
      simp only [List.length_singleton, pow_one]
      ring

theorem beValue_singleton
    (x : UInt8) :
  beValue [x] = x.toNat
  := by simp [beValue]

theorem beValue_cons
    (x : UInt8) (bs : Bytes) :
  beValue (x :: bs) = x.toNat * 256 ^ bs.length + beValue bs
  := by
  have h := beValue_append [x] bs
  rw [beValue_singleton] at h
  exact h

theorem beValue_lt
    (bs : Bytes) :
  beValue bs < 256 ^ bs.length
  := by
  induction bs with
  | nil => decide
  | cons x bs ih =>
      have hx := x.toNat_lt
      have hmul : (x.toNat + 1) * 256 ^ bs.length ≤ 256 * 256 ^ bs.length :=
        Nat.mul_le_mul_right _ (by omega)
      rw [beValue_cons, List.length_cons, pow_succ]
      linarith

/-- Strings of the same length that stand for the same number are the same. -/
theorem beValue_inj
    {a b : Bytes} (hlength : a.length = b.length) (h : beValue a = beValue b) :
  a = b
  := by
  induction a generalizing b with
  | nil => exact (List.eq_nil_of_length_eq_zero hlength.symm).symm
  | cons x a ih =>
      cases b with
      | nil => cases hlength
      | cons y b =>
          have hlength' := Nat.succ.inj hlength
          have ha := beValue_lt a
          have hb := beValue_lt b
          rw [beValue_cons, beValue_cons, hlength'] at h
          rw [hlength'] at ha
          have hxy : x.toNat = y.toNat := by
            rcases Nat.lt_trichotomy x.toNat y.toNat with hlt | heq | hlt
            · have := Nat.mul_le_mul_right (256 ^ b.length) hlt
              rw [Nat.succ_mul] at this
              omega
            · exact heq
            · have := Nat.mul_le_mul_right (256 ^ b.length) hlt
              rw [Nat.succ_mul] at this
              omega
          rw [hxy] at h
          rw [UInt8.toNat_inj.mp hxy, ih hlength' (Nat.add_left_cancel h)]

/-! ### Comparison -/

/-- Compare strings of the same length byte by byte. -/
def beLessOrEqual : Bytes → Bytes → Bool
  | x :: a, y :: b => if x < y then true else if y < x then false else beLessOrEqual a b
  | _, _ => true

/-- Strings of the same length are compared as numbers. -/
theorem beLessOrEqual_iff
    {a b : Bytes} (hlength : a.length = b.length) :
  beLessOrEqual a b = true ↔ beValue a ≤ beValue b
  := by
  induction a generalizing b with
  | nil =>
      rw [List.eq_nil_of_length_eq_zero hlength.symm]
      simp [beLessOrEqual]
  | cons x a ih =>
      cases b with
      | nil => cases hlength
      | cons y b =>
          have hlength' := Nat.succ.inj hlength
          have ha := beValue_lt a
          have hb := beValue_lt b
          rw [hlength'] at ha
          rw [beLessOrEqual, beValue_cons, beValue_cons, hlength']
          split
          next hlt =>
            have hmul := Nat.mul_le_mul_right (256 ^ b.length) (UInt8.lt_iff_toNat_lt.mp hlt)
            rw [Nat.succ_mul] at hmul
            simp only [true_iff]
            omega
          next hle =>
            split
            next hlt =>
              have hmul := Nat.mul_le_mul_right (256 ^ b.length) (UInt8.lt_iff_toNat_lt.mp hlt)
              rw [Nat.succ_mul] at hmul
              simp only [Bool.false_eq_true, false_iff]
              omega
            next hge =>
              rw [UInt8.le_antisymm (UInt8.not_lt.mp hge) (UInt8.not_lt.mp hle), ih hlength']
              omega

/-! ### Successor -/

/-- Add a carry to a number whose least significant byte comes first. -/
def addCarry (carry : ℕ) : Bytes → Bytes
  | [] => []
  | b :: bs =>
      let sum := b.toNat + carry
      UInt8.ofNat (sum &&& 0xff) :: if sum >>> 8 = 0 then bs else addCarry (sum >>> 8) bs

/-- The successor of a number. It has the same number of bytes. -/
def beAddOne (bs : Bytes) : Bytes := (addCarry 1 bs.reverse).reverse

@[simp]
theorem length_addCarry
    (carry : ℕ) (bs : Bytes) :
  (addCarry carry bs).length = bs.length
  := by
  induction bs generalizing carry with
  | nil => rfl
  | cons b bs ih =>
      simp only [addCarry, List.length_cons]
      split
      · rfl
      · rw [ih]

@[simp]
theorem length_beAddOne
    (bs : Bytes) :
  (beAddOne bs).length = bs.length
  := by rw [beAddOne, List.length_reverse, length_addCarry, List.length_reverse]

/-- Adding one carries as long as there are bytes of the greatest value. -/
theorem beValue_addCarry
    {bs : Bytes} (h : beValue bs.reverse + 1 < 256 ^ bs.length) :
  beValue (addCarry 1 bs).reverse = beValue bs.reverse + 1
  := by
  induction bs with
  | nil => simp [beValue] at h
  | cons b bs ih =>
      have hb := b.toNat_lt
      have hmask : (b.toNat + 1) &&& 0xff = (b.toNat + 1) % 256 :=
        Nat.and_two_pow_sub_one_eq_mod (b.toNat + 1) 8
      have hshift : (b.toNat + 1) >>> 8 = (b.toNat + 1) / 256 := Nat.shiftRight_eq_div_pow _ 8
      rw [List.reverse_cons, beValue_concat, List.length_cons, pow_succ] at h
      simp only [addCarry, hmask, hshift]
      rw [List.reverse_cons, beValue_concat, List.reverse_cons, beValue_concat, UInt8.toNat_ofNat']
      by_cases hmax : b.toNat = 255
      · rw [if_neg (by omega), show (b.toNat + 1) / 256 = 1 from by omega, ih (by omega), hmax]
        omega
      · rw [if_pos (by omega)]
        omega

/-- The successor stands for the successor, unless all bytes have the greatest value. -/
theorem beValue_beAddOne
    {bs : Bytes} (h : beValue bs + 1 < 256 ^ bs.length) :
  beValue (beAddOne bs) = beValue bs + 1
  := by
  have hreverse := @beValue_addCarry bs.reverse (by simpa using h)
  rw [List.reverse_reverse] at hreverse
  exact hreverse

end Text
