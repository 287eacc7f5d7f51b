import TinyS3Proxy.Auth.Crypto
import TinyS3Proxy.S3.Errors

/-!
# Payload declarations

What a request declares about its body in the header `x-amz-content-sha256`
(`auth/sigv4/payload.rs`): the hash of the body, that it is not signed, or that its chunks are
signed one by one.
-/

namespace TinyS3Proxy

open Text (Bytes ascii)

/-- The hash of a body with its hexadecimal form. -/
structure SignedHash where
  hex : Bytes
  bytes : Bytes
  parse_hex : parseHex32 hex = some bytes
deriving DecidableEq

/-- What a request declares about its body. -/
inductive PayloadHashForSigning
  | signedSha256 (hash : SignedHash)
  | unsignedPayload
  | streamingUnsignedPayloadTrailer
  | streamingAws4HmacSha256Payload
  | streamingAws4HmacSha256PayloadTrailer
  | streamingAws4EcdsaP256Sha256Payload
  | streamingAws4EcdsaP256Sha256PayloadTrailer
deriving DecidableEq

namespace PayloadHashForSigning

/-- The form of a declaration in the canonical request. -/
def canonicalString : PayloadHashForSigning → Bytes
  | signedSha256 hash => hash.hex
  | unsignedPayload => ascii "UNSIGNED-PAYLOAD"
  | streamingUnsignedPayloadTrailer => ascii "STREAMING-UNSIGNED-PAYLOAD-TRAILER"
  | streamingAws4HmacSha256Payload => ascii "STREAMING-AWS4-HMAC-SHA256-PAYLOAD"
  | streamingAws4HmacSha256PayloadTrailer => ascii "STREAMING-AWS4-HMAC-SHA256-PAYLOAD-TRAILER"
  | streamingAws4EcdsaP256Sha256Payload => ascii "STREAMING-AWS4-ECDSA-P256-SHA256-PAYLOAD"
  | streamingAws4EcdsaP256Sha256PayloadTrailer =>
      ascii "STREAMING-AWS4-ECDSA-P256-SHA256-PAYLOAD-TRAILER"

/-- The declarations other than a hash. -/
def sentinels : List PayloadHashForSigning :=
  [unsignedPayload, streamingUnsignedPayloadTrailer, streamingAws4HmacSha256Payload,
    streamingAws4HmacSha256PayloadTrailer, streamingAws4EcdsaP256Sha256Payload,
    streamingAws4EcdsaP256Sha256PayloadTrailer]

end PayloadHashForSigning

/-- The byte is a lower-case letter or a digit. -/
def isLowerAlphanumeric (b : UInt8) : Bool := (97 ≤ b && b ≤ 122) || (48 ≤ b && b ≤ 57)

/-- What the value of the header declares. -/
def classifyPayloadHeader (value requestId : Bytes) : Except S3Error PayloadHashForSigning :=
  match PayloadHashForSigning.sentinels.find? fun p => value = p.canonicalString with
  | some p => .ok p
  | none =>
      if value.length = 64 ∧ value.all isLowerAlphanumeric then
        match h : parseHex32 value with
        | some bytes => .ok (.signedSha256 ⟨value, bytes, h⟩)
        | none =>
            .error (.authorizationHeaderMalformed
              (ascii "x-amz-content-sha256 contains non-hex characters") requestId)
      else
        .error (.authorizationHeaderMalformed (ascii ("x-amz-content-sha256 is not a valid " ++
          "SHA-256 hex digest, UNSIGNED-PAYLOAD, or supported streaming sentinel")) requestId)

namespace PayloadHashForSigning

theorem mem_sentinels
    {p : PayloadHashForSigning} (h : ∀ hash, p ≠ signedSha256 hash) :
  p ∈ sentinels
  := by
  cases p with
  | signedSha256 hash => exact absurd rfl (h hash)
  | unsignedPayload => decide
  | streamingUnsignedPayloadTrailer => decide
  | streamingAws4HmacSha256Payload => decide
  | streamingAws4HmacSha256PayloadTrailer => decide
  | streamingAws4EcdsaP256Sha256Payload => decide
  | streamingAws4EcdsaP256Sha256PayloadTrailer => decide

end PayloadHashForSigning

/-- The hexadecimal form of a hash has 64 digits. -/
theorem SignedHash.hex_length
    (hash : SignedHash) :
  hash.hex.length = 64
  := by
  have h := hash.parse_hex
  rw [parseHex32] at h
  split at h
  next => cases h
  next hlen => exact not_not.mp hlen

theorem SignedHash.lf_notMem_hex
    (hash : SignedHash) :
  Text.lf ∉ hash.hex
  := by
  have h := hash.parse_hex
  rw [parseHex32, if_neg (not_not.mpr hash.hex_length)] at h
  exact (Text.visible_of_isLowerHex (Text.isLowerHex_of_decodePairs h)).lf_notMem

theorem SignedHash.ext_hex
    {a b : SignedHash} (h : a.hex = b.hex) :
  a = b
  := by
  obtain ⟨hex, bytes, hbytes⟩ := a
  obtain ⟨hex', bytes', hbytes'⟩ := b
  obtain rfl : hex = hex' := h
  obtain rfl := Option.some.inj (hbytes.symm.trans hbytes')
  rfl

namespace PayloadHashForSigning

/-- Different declarations have different forms. -/
theorem canonicalString_injective :
  Function.Injective canonicalString
  := by
  have hlength : ∀ p ∈ sentinels, p.canonicalString.length ≠ 64 := by decide
  have hinj : ∀ p ∈ sentinels, ∀ q ∈ sentinels, p.canonicalString = q.canonicalString → p = q := by
    decide
  have hmixed : ∀ (hash : SignedHash) q, (∀ hash, q ≠ signedSha256 hash) →
      hash.hex ≠ q.canonicalString := by
    intro hash q hq h
    exact hlength q (mem_sentinels hq) (h ▸ hash.hex_length)
  intro p q h
  by_cases hp : ∀ hash, p ≠ signedSha256 hash
  · by_cases hq : ∀ hash, q ≠ signedSha256 hash
    · exact hinj p (mem_sentinels hp) q (mem_sentinels hq) h
    · obtain ⟨hash, rfl⟩ := not_forall_not.mp hq
      exact absurd h.symm (hmixed hash p hp)
  · obtain ⟨hash, rfl⟩ := not_forall_not.mp hp
    by_cases hq : ∀ hash, q ≠ signedSha256 hash
    · exact absurd h (hmixed hash q hq)
    · obtain ⟨hash', rfl⟩ := not_forall_not.mp hq
      rw [SignedHash.ext_hex h]

/-- The form of a declaration is a line. -/
theorem lf_notMem_canonicalString
    (p : PayloadHashForSigning) :
  Text.lf ∉ p.canonicalString
  := by
  by_cases hp : ∀ hash, p ≠ signedSha256 hash
  · have hall : ∀ p ∈ sentinels, Text.lf ∉ p.canonicalString := by decide
    exact hall p (mem_sentinels hp)
  · obtain ⟨hash, rfl⟩ := not_forall_not.mp hp
    exact hash.lf_notMem_hex

end PayloadHashForSigning

end TinyS3Proxy
