import TinyS3Proxy.S3.Checksum

/-!
# Cryptographic primitives

The hash functions, the two signature schemes, the checksums and base64 come from libraries, and
are parameters of the model. What is said here of the form of a signature is the code's own:
`auth/sigv4a/crypto.rs` for the elliptic-curve signatures, `auth/sigv4/streaming.rs` for the
keyed hashes.
-/

namespace TinyS3Proxy

open Text (Bytes ascii)

/-- The primitives that come from libraries. `K` is the type of the verifying keys. -/
structure Crypto (K : Type) where
  sha256 : Bytes → Bytes
  /-- The keyed hash of a message, under a key. -/
  hmacSha256 : Bytes → Bytes → Bytes
  /-- Whether the bytes are the DER form of a P-256 signature. -/
  fromDer : Bytes → Bool
  /-- Whether a P-256 signature in DER form verifies a message, under a key. -/
  verify : K → Bytes → Bytes → Bool
  checksum : ChecksumAlgorithm → Bytes → Bytes
  /-- Decode base64, or say what is wrong with it. -/
  base64Decode : Bytes → Except Bytes Bytes

/-- What is documented of the primitives: the lengths of hashes, and that base64 is decoded. -/
structure Crypto.Lawful {K : Type} (c : Crypto K) : Prop where
  sha256_length : ∀ bs, (c.sha256 bs).length = 32
  hmacSha256_length : ∀ key bs, (c.hmacSha256 key bs).length = 32
  checksum_length : ∀ a bs, (c.checksum a bs).length = a.digestLen
  base64Decode_encode : ∀ bs, c.base64Decode (Text.base64Encode bs) = .ok bs

/-! ### Hexadecimal signatures -/

/-- Parse the hexadecimal form of thirty-two bytes. -/
def parseHex32 (s : Bytes) : Option Bytes :=
  if s.length ≠ 64 then none else Text.decodePairs Text.hexNibble s

/-- Why a key was not derived, or an elliptic-curve signature was not accepted. -/
inductive SigV4aCryptoError
  | kdfExhausted
  | invalidDerivedScalar
  | invalidSignatureHex
  | invalidDerSignature
  | verificationFailed
deriving DecidableEq

/-- The text of the error. -/
def SigV4aCryptoError.message : SigV4aCryptoError → Bytes
  | kdfExhausted => ascii "KDF failed to derive a valid P-256 scalar within 254 attempts"
  | invalidDerivedScalar => ascii "derived scalar is not a valid P-256 signing key"
  | invalidSignatureHex =>
      ascii "signature hex is not lowercase, even length, and within 144 bytes"
  | invalidDerSignature => ascii "signature is not valid DER"
  | verificationFailed => ascii "signature verification failed"

/-- The length of the longest elliptic-curve signature, in hexadecimal digits. -/
def maxSigV4aDerSignatureHexLen : ℕ := 144

variable {K : Type} (c : Crypto K)

/-- Parse the hexadecimal form of a signature in DER form. -/
def parseDerSignatureHex (s : Bytes) : Except SigV4aCryptoError Bytes :=
  if s = [] ∨ s.length % 2 ≠ 0 ∨ maxSigV4aDerSignatureHexLen < s.length then
    .error .invalidSignatureHex
  else if s.any fun b => !Text.isLowerHex b then .error .invalidSignatureHex
  else
    match Text.decodePairs Text.hexDigit s with
    | none => .error .invalidSignatureHex
    | some bs => if c.fromDer bs then .ok bs else .error .invalidDerSignature

/-- Parse a chunk signature, which may be padded with stars to its greatest length. -/
def parseStreamingDerSignatureHexPadded (s : Bytes) : Except SigV4aCryptoError Bytes :=
  if maxSigV4aDerSignatureHexLen < s.length then .error .invalidSignatureHex
  else
    match Text.splitOnce 42 s with
    | some (hex, stars) =>
        if s.length ≠ maxSigV4aDerSignatureHexLen then .error .invalidSignatureHex
        else if stars.any (· ≠ 42) then .error .invalidSignatureHex
        else parseDerSignatureHex c hex
    | none => parseDerSignatureHex c s

/-- Verify an elliptic-curve signature over a message. -/
def verifySigV4aDerSignature (key : K) (stringToSign der : Bytes) :
    Except SigV4aCryptoError Unit :=
  if !c.fromDer der then .error .invalidDerSignature
  else if c.verify key stringToSign der then .ok ()
  else .error .verificationFailed

/-- Cut the stars off the end. -/
def trimStars (s : Bytes) : Bytes := (s.reverse.dropWhile (· = 42)).reverse

end TinyS3Proxy
