import TinyS3Proxy.Auth.Crypto
import TinyS3Proxy.Text.BigEndian

/-!
# Derivation of the elliptic-curve key

The private scalar of an access key is the first output of a keyed hash, over a counter, that is
small enough, plus one (`auth/sigv4a/crypto.rs`). It is always a valid scalar of the curve, so that
deriving the key fails only if no counter has an output that is small enough.
-/

namespace TinyS3Proxy

open Text (Bytes ascii beValue beLessOrEqual beAddOne)

/-! ### The derivation -/

def sigV4aKdfLabel : Bytes := ascii "AWS4-ECDSA-P256-SHA256"

/-- The order of the curve minus two. -/
def nMinus2Be : Bytes :=
  [0xff, 0xff, 0xff, 0xff, 0x00, 0x00, 0x00, 0x00, 0xff, 0xff, 0xff, 0xff, 0xff, 0xff, 0xff, 0xff,
    0xbc, 0xe6, 0xfa, 0xad, 0xa7, 0x17, 0x9e, 0x84, 0xf3, 0xb9, 0xca, 0xc2, 0xfc, 0x63, 0x25, 0x4f]

/-- The order of the P-256 group. -/
def groupOrder : ℕ := 0xffffffff00000000ffffffffffffffffbce6faada7179e84f3b9cac2fc632551

/-- The key of the hash. -/
def kdfInputKey (secretAccessKey : Bytes) : Bytes := ascii "AWS4A" ++ secretAccessKey

/-- The message that is hashed for a counter. -/
def kdfMessage (accessKeyId : Bytes) (counter : UInt8) : Bytes :=
  let fixedInput := sigV4aKdfLabel ++ [0x00] ++ accessKeyId ++ [counter] ++ [0, 0, 1, 0]
  [0, 0, 0, 1] ++ fixedInput

/-- The counters, in order. -/
def kdfCounters : List UInt8 := (List.range' 1 254).map UInt8.ofNat

/-- The first output that is small enough, plus one. -/
def firstScalar (k0 : UInt8 → Bytes) : List UInt8 → Except SigV4aCryptoError Bytes
  | [] => .error .kdfExhausted
  | counter :: counters =>
      if beLessOrEqual (k0 counter) nMinus2Be then .ok (beAddOne (k0 counter))
      else firstScalar k0 counters

/-- The private scalar of an access key, where `hmac` is the keyed hash. -/
def deriveSigV4aPrivateScalar (hmac : Bytes → Bytes → Bytes)
    (accessKeyId secretAccessKey : Bytes) : Except SigV4aCryptoError Bytes :=
  firstScalar (fun counter => hmac (kdfInputKey secretAccessKey) (kdfMessage accessKeyId counter))
    kdfCounters

/-- The verifying key of an access key, where `fromSlice` makes the key of a scalar. -/
def deriveSigV4aVerifyingKey {K : Type} (hmac : Bytes → Bytes → Bytes)
    (fromSlice : Bytes → Option K) (accessKeyId secretAccessKey : Bytes) :
    Except SigV4aCryptoError K := do
  let scalar ← deriveSigV4aPrivateScalar hmac accessKeyId secretAccessKey
  match fromSlice scalar with
  | some key => return key
  | none => throw .invalidDerivedScalar

/-- What is documented of making a key: it succeeds for thirty-two bytes that stand for a number
other than zero below the order of the group. -/
def MakesKeys {K : Type} (fromSlice : Bytes → Option K) : Prop :=
  ∀ bs : Bytes, bs.length = 32 → 0 < beValue bs → beValue bs < groupOrder → (fromSlice bs).isSome

/-! ### What is derived -/

theorem beValue_nMinus2Be :
  beValue nMinus2Be = groupOrder - 2
  := by decide

/-- An output that is small enough plus one is a valid scalar. -/
structure IsScalarOf (k0 scalar : Bytes) : Prop where
  length : scalar.length = 32
  value : beValue scalar = beValue k0 + 1
  pos : 1 ≤ beValue scalar
  le : beValue scalar ≤ groupOrder - 1

theorem isScalarOf_beAddOne
    {k0 : Bytes} (hlength : k0.length = 32) (hle : beValue k0 ≤ groupOrder - 2) :
  IsScalarOf k0 (beAddOne k0)
  := by
  have horder : groupOrder - 2 + 1 < 256 ^ 32 ∧ groupOrder - 2 + 1 = groupOrder - 1 := by decide
  have hvalue : beValue (beAddOne k0) = beValue k0 + 1 := by
    apply Text.beValue_beAddOne
    rw [hlength]
    omega
  exact {
    length := by rw [Text.length_beAddOne, hlength]
    value := hvalue
    pos := by omega
    le := by omega }

section Counters

variable {k0 : UInt8 → Bytes} (hlength : ∀ counter, (k0 counter).length = 32)
  {counters : List UInt8}

include hlength

/-- The output is small enough. -/
theorem beLessOrEqual_nMinus2Be
    (counter : UInt8) :
  beLessOrEqual (k0 counter) nMinus2Be = true ↔ beValue (k0 counter) ≤ groupOrder - 2
  := by
  rw [Text.beLessOrEqual_iff (by rw [hlength]; rfl), beValue_nMinus2Be]

/-- The scalar is that of the first counter whose output is small enough. -/
theorem firstScalar_eq_ok
    {front back : List UInt8} {counter : UInt8}
    (hfront : ∀ c ∈ front, groupOrder - 2 < beValue (k0 c))
    (hle : beValue (k0 counter) ≤ groupOrder - 2) :
  firstScalar k0 (front ++ counter :: back) = .ok (beAddOne (k0 counter))
  := by
  induction front with
  | nil => exact if_pos ((beLessOrEqual_nMinus2Be hlength counter).mpr hle)
  | cons c front ih =>
      have hc := hfront c List.mem_cons_self
      have hnot : ¬ beLessOrEqual (k0 c) nMinus2Be = true := by
        rw [beLessOrEqual_nMinus2Be hlength]
        omega
      rw [List.cons_append, firstScalar, if_neg hnot]
      exact ih fun c' hc' => hfront c' (List.mem_cons_of_mem _ hc')

/-- There is no scalar if no output is small enough. -/
theorem firstScalar_eq_error
    (h : ∀ c ∈ counters, groupOrder - 2 < beValue (k0 c)) :
  firstScalar k0 counters = .error .kdfExhausted
  := by
  induction counters with
  | nil => rfl
  | cons c counters ih =>
      have hc := h c List.mem_cons_self
      have hnot : ¬ beLessOrEqual (k0 c) nMinus2Be = true := by
        rw [beLessOrEqual_nMinus2Be hlength]
        omega
      rw [firstScalar, if_neg hnot]
      exact ih fun c' hc' => h c' (List.mem_cons_of_mem _ hc')

/-- A failure means that no output is small enough. -/
theorem firstScalar_eq_error_iff
    {e : SigV4aCryptoError} :
  firstScalar k0 counters = .error e
    ↔ e = .kdfExhausted ∧ ∀ c ∈ counters, groupOrder - 2 < beValue (k0 c)
  := by
  constructor
  · intro h
    rcases hfind : counters.find? fun c => decide (beValue (k0 c) ≤ groupOrder - 2) with _ | c
    · have hall : ∀ c ∈ counters, groupOrder - 2 < beValue (k0 c) := by
        intro c hc
        have hc' := List.find?_eq_none.mp hfind c hc
        rw [decide_eq_true_eq, not_le] at hc'
        exact hc'
      rw [firstScalar_eq_error hlength hall] at h
      exact ⟨(Except.error.inj h).symm, hall⟩
    · obtain ⟨hle, front, back, rfl, hfront⟩ := List.find?_eq_some_iff_append.mp hfind
      have hfront' : ∀ c ∈ front, groupOrder - 2 < beValue (k0 c) := by
        intro c hc
        simpa using hfront c hc
      rw [firstScalar_eq_ok hlength hfront' (of_decide_eq_true hle)] at h
      cases h
  · rintro ⟨rfl, h⟩
    exact firstScalar_eq_error hlength h

/-- What is returned is a valid scalar. -/
theorem firstScalar_isScalarOf
    {scalar : Bytes} (h : firstScalar k0 counters = .ok scalar) :
  ∃ counter, IsScalarOf (k0 counter) scalar
  := by
  induction counters with
  | nil => cases h
  | cons c counters ih =>
      rw [firstScalar] at h
      split at h
      next hle =>
        obtain rfl := Except.ok.inj h
        exact ⟨c, isScalarOf_beAddOne (hlength c) ((beLessOrEqual_nMinus2Be hlength c).mp hle)⟩
      next => exact ih h

end Counters

/-! ### Counters -/

theorem mem_kdfCounters
    {c : UInt8} :
  c ∈ kdfCounters ↔ 1 ≤ c ∧ c ≤ 254
  := by
  rw [UInt8.le_iff_toNat_le, UInt8.le_iff_toNat_le, kdfCounters, List.mem_map]
  constructor
  · rintro ⟨n, hn, rfl⟩
    rw [List.mem_range'_1] at hn
    rw [UInt8.toNat_ofNat', Nat.mod_eq_of_lt (by omega)]
    exact ⟨hn.1, Nat.lt_succ_iff.mp hn.2⟩
  · rintro ⟨h₁, h₂⟩
    use c.toNat
    rw [List.mem_range'_1]
    exact ⟨⟨h₁, Nat.lt_succ_of_le h₂⟩, UInt8.ofNat_toNat⟩

theorem pairwise_kdfCounters :
  kdfCounters.Pairwise (· < ·)
  := by
  rw [kdfCounters, List.pairwise_map]
  apply List.Pairwise.imp_of_mem _ (List.pairwise_lt_range' (s := 1) (n := 254))
  intro m n hm hn hlt
  rw [List.mem_range'_1] at hm hn
  rw [UInt8.lt_iff_toNat_lt, UInt8.toNat_ofNat', UInt8.toNat_ofNat', Nat.mod_eq_of_lt (by omega),
    Nat.mod_eq_of_lt (by omega)]
  exact hlt

/-- The counters before a counter are the smaller ones. -/
theorem kdfCounters_eq_append
    {c : UInt8} (h : 1 ≤ c) (h' : c ≤ 254) :
  ∃ front back, kdfCounters = front ++ c :: back ∧ ∀ c' ∈ front, 1 ≤ c' ∧ c' < c
  := by
  obtain ⟨front, back, hsplit⟩ := List.append_of_mem (mem_kdfCounters.mpr ⟨h, h'⟩)
  use front, back, hsplit
  intro c' hc'
  have hmem : c' ∈ kdfCounters := hsplit ▸ List.mem_append_left _ hc'
  have hpairwise := pairwise_kdfCounters
  rw [hsplit, List.pairwise_append] at hpairwise
  exact ⟨(mem_kdfCounters.mp hmem).1, hpairwise.2.2 c' hc' c List.mem_cons_self⟩

/-! ### Keys -/

/-- The derivation returns the scalar of the first counter whose output is small enough, which is
the successor of the output and a valid scalar, so that it is a key. It fails exactly if no output
is small enough. The comparison and the successor are those of numbers. -/
theorem deriveSigV4aPrivateScalar_spec
    {K : Type} (hmac : Bytes → Bytes → Bytes) (hhmac : ∀ key bs, (hmac key bs).length = 32)
    (fromSlice : Bytes → Option K) (hkeys : MakesKeys fromSlice)
    (accessKeyId secretAccessKey : Bytes) :
  let k0 : UInt8 → Bytes := fun counter =>
    hmac (kdfInputKey secretAccessKey) (kdfMessage accessKeyId counter)
  (∀ counter, 1 ≤ counter → counter ≤ 254 → beValue (k0 counter) ≤ groupOrder - 2 →
      (∀ c, 1 ≤ c → c < counter → groupOrder - 2 < beValue (k0 c)) →
      ∃ scalar, deriveSigV4aPrivateScalar hmac accessKeyId secretAccessKey = .ok scalar ∧
        IsScalarOf (k0 counter) scalar) ∧
    (∀ e, deriveSigV4aPrivateScalar hmac accessKeyId secretAccessKey = .error e ↔
      e = .kdfExhausted ∧ ∀ c, 1 ≤ c → c ≤ 254 → groupOrder - 2 < beValue (k0 c)) ∧
    deriveSigV4aVerifyingKey hmac fromSlice accessKeyId secretAccessKey
      ≠ .error .invalidDerivedScalar ∧
    (∀ a b : Bytes, a.length = b.length →
      (beLessOrEqual a b = true ↔ beValue a ≤ beValue b)) ∧
    ∀ a : Bytes, beValue a + 1 < 256 ^ a.length →
      (beAddOne a).length = a.length ∧ beValue (beAddOne a) = beValue a + 1
  := by
  intro k0
  have hlength : ∀ counter, (k0 counter).length = 32 := fun _ => hhmac _ _
  refine ⟨?_, ?_, ?_, fun a b => Text.beLessOrEqual_iff, fun a h => ⟨Text.length_beAddOne a,
    Text.beValue_beAddOne h⟩⟩
  · intro counter h₁ h₂ hle hfirst
    obtain ⟨front, back, hsplit, hfront⟩ := kdfCounters_eq_append h₁ h₂
    refine ⟨_, ?_, isScalarOf_beAddOne (hlength counter) hle⟩
    rw [deriveSigV4aPrivateScalar, hsplit]
    exact firstScalar_eq_ok hlength (fun c hc => hfirst c (hfront c hc).1 (hfront c hc).2) hle
  · intro e
    rw [deriveSigV4aPrivateScalar, firstScalar_eq_error_iff hlength]
    simp only [mem_kdfCounters, and_imp, k0]
  · rw [deriveSigV4aVerifyingKey]
    rcases hscalar : deriveSigV4aPrivateScalar hmac accessKeyId secretAccessKey with e | scalar
    · obtain ⟨rfl, -⟩ := (firstScalar_eq_error_iff hlength).mp hscalar
      nofun
    · obtain ⟨counter, hvalid⟩ := firstScalar_isScalarOf hlength hscalar
      have horder : groupOrder - 1 < groupOrder := by decide
      have hlt : beValue scalar < groupOrder := by
        have hle := hvalid.le
        omega
      obtain ⟨key, hkey⟩ := Option.isSome_iff_exists.mp (hkeys scalar hvalid.length hvalid.pos hlt)
      change (match fromSlice scalar with
        | some key => Except.ok key
        | none => Except.error SigV4aCryptoError.invalidDerivedScalar) ≠ _
      rw [hkey]
      nofun

/-- A hash all of whose outputs are thirty-two zeros, and keys that are numbers. -/
theorem deriveSigV4aPrivateScalar_zero :
  let hmac : Bytes → Bytes → Bytes := fun _ _ => List.replicate 32 0
  let fromSlice : Bytes → Option ℕ := fun bs =>
    if bs.length = 32 ∧ 0 < beValue bs ∧ beValue bs < groupOrder then some (beValue bs) else none
  (∀ key bs, (hmac key bs).length = 32) ∧ MakesKeys fromSlice ∧
    deriveSigV4aVerifyingKey hmac fromSlice (ascii "AKID") (ascii "secret")
      ≠ .error .invalidDerivedScalar
  := by
  have hhmac : ∀ _ _ : Bytes, (List.replicate 32 (0 : UInt8)).length = 32 := fun _ _ => rfl
  have hkeys : MakesKeys fun bs : Bytes =>
      if bs.length = 32 ∧ 0 < beValue bs ∧ beValue bs < groupOrder then some (beValue bs)
      else none := by
    intro bs hlength hpos hlt
    simp [hlength, hpos, hlt]
  exact ⟨hhmac, hkeys, (deriveSigV4aPrivateScalar_spec _ hhmac _ hkeys (ascii "AKID")
    (ascii "secret")).2.2.1⟩

end TinyS3Proxy
