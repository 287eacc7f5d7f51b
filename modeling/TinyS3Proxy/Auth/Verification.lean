import TinyS3Proxy.Auth.Unambiguity
import TinyS3Proxy.Auth.Verifier

/-!
# What verification says

A request that was verified was signed by the holder of a credential that the resolver has for it,
over the canonical request for its signed headers, and at about the time at which it was verified.
What the code checks on the way is said here once, for each way in which a request is signed.
-/

namespace TinyS3Proxy

open Text (Bytes ascii lf)
open Effect (exists_of_bind_eq_ok)

theorem required_eq_ok
    {α : Type} {value : Option α} {message : String} {requestId : Bytes} {a : α} :
  required value message requestId = .ok a ↔ value = some a
  := by
  cases value with
  | none =>
      constructor
      · intro h
        cases h
      · intro h
        cases h
  | some b =>
      rw [required, Except.ok.injEq, Option.some.injEq]

/-! ### Lists of signed headers -/

theorem checkAscending_eq_ok
    {requestId : Bytes} {names : List HeaderName} (h : checkAscending requestId names = .ok ()) :
  names.IsChain fun a b => Text.ordinals a.bytes < Text.ordinals b.bytes
  := by
  induction names with
  | nil => exact .nil
  | cons a names ih =>
      cases names with
      | nil => exact .singleton a
      | cons b names =>
          rw [checkAscending] at h
          split at h
          next => cases h
          next hle =>
            split at h
            next => cases h
            next hne =>
              have hlt : Text.ordinals a.bytes < Text.ordinals b.bytes := by
                apply lt_of_le_of_ne (not_lt.mp hle)
                exact fun heq => hne (Text.ordinals_injective heq)
              exact .cons_cons hlt (ih h)

/-- A list of signed headers is in ascending order, and has the host. -/
structure IsSignedHeaders (names : List HeaderName) : Prop where
  ascending : names.IsChain fun a b => Text.ordinals a.bytes < Text.ordinals b.bytes
  host : hostName ∈ names

theorem isSignedHeaders_of_parse
    {value requestId : Bytes} {names : List HeaderName}
    (h : parseSignedHeaders value requestId = .ok names) :
  IsSignedHeaders names
  := by
  rw [parseSignedHeaders] at h
  split at h
  next => cases h
  next =>
    obtain ⟨names', -, h⟩ := exists_of_bind_eq_ok h
    obtain ⟨⟨⟩, hascending, h⟩ := exists_of_bind_eq_ok h
    split at h
    next hany =>
      obtain rfl := Except.ok.inj h
      obtain ⟨name, hmem, hname⟩ := List.any_eq_true.mp hany
      have heq : name = hostName := HeaderName.ext_bytes (of_decide_eq_true hname)
      exact ⟨checkAscending_eq_ok hascending, heq ▸ hmem⟩
    next => cases h

variable {K : Type}

/-! ### Signatures -/

/-- The signature is right for a canonical request, under the key that is derived for a scope. -/
inductive SignatureValid (verifier : SigV4Verifier K) (accessKeyId secretAccessKey amzDate
    canonicalRequest signatureHex : Bytes) :
    VerifiedCredentialScope → VerifiedSigningContext K → Prop
  | hmac {date region service key : Bytes}
      (derived : key = deriveSigningKey verifier.crypto secretAccessKey date region service)
      (signature : parseHex32 signatureHex = some (verifier.crypto.hmacSha256 key
        (stringToSign verifier.crypto hmacAlgorithm amzDate
          (VerifiedCredentialScope.sigV4 date region service).credentialScopeString
          canonicalRequest))) :
      SignatureValid verifier accessKeyId secretAccessKey amzDate canonicalRequest signatureHex
        (.sigV4 date region service) (.hmacSha256 key)
  | ecdsa {date service der : Bytes} {key : K}
      (derived : deriveSigV4aVerifyingKey verifier.crypto.hmacSha256 verifier.fromSlice accessKeyId
        secretAccessKey = .ok key)
      (parsed : parseDerSignatureHex verifier.crypto signatureHex = .ok der)
      (signature : verifier.crypto.verify key
        (stringToSign verifier.crypto ecdsaAlgorithm amzDate
          (VerifiedCredentialScope.sigV4a date service).credentialScopeString canonicalRequest) der
        = true) :
      SignatureValid verifier accessKeyId secretAccessKey amzDate canonicalRequest signatureHex
        (.sigV4a date service) (.ecdsaP256 key)

theorem parseHex32_hexEncode
    {bs out : Bytes} (h : parseHex32 (Text.hexEncode bs) = some out) :
  out = bs
  := by
  rw [parseHex32] at h
  split at h
  next => cases h
  next =>
    rw [Text.decodePairs_hexEncode] at h
    exact (Option.some.inj h).symm

theorem parseSignatureHex_eq_ok
    {value requestId signature : Bytes} (h : parseSignatureHex value requestId = .ok signature) :
  parseHex32 value = some signature
  := by
  rw [parseSignatureHex] at h
  split at h
  next => cases h
  next =>
    split at h
    next => cases h
    next => exact required_eq_ok.mp h

theorem parseSignatureDer_eq_ok
    {c : Crypto K} {place : String} {value requestId der : Bytes}
    (h : parseSignatureDer c place value requestId = .ok der) :
  parseDerSignatureHex c value = .ok der
  := by
  rw [parseSignatureDer] at h
  split at h
  next der' hder => rw [hder, Except.ok.inj h]
  next => cases h

variable {verifier : SigV4Verifier K}

/-- A keyed hash that was accepted is right. -/
theorem signatureValid_of_checkHmac
    {credential : InboundCredential} {scope : CredentialScope}
    {accessKeyId amzDate canonicalRequest signature signatureHex requestId key : Bytes}
    {mismatch : String} (hparsed : parseHex32 signatureHex = some signature)
    (h : verifier.checkHmac credential scope amzDate canonicalRequest signature mismatch requestId
      = .ok key) :
  SignatureValid verifier accessKeyId credential.secretAccessKey amzDate canonicalRequest
    signatureHex scope.verified (.hmacSha256 key)
  := by
  rw [SigV4Verifier.checkHmac] at h
  split at h
  next => cases h
  next expected hexpected =>
    split at h
    next => cases h
    next hne =>
      obtain rfl := Except.ok.inj h
      obtain rfl := not_not.mp hne
      apply SignatureValid.hmac rfl
      rw [hparsed, parseHex32_hexEncode hexpected]
      rfl

/-- An elliptic-curve signature that was accepted is right. -/
theorem signatureValid_of_checkEcdsa
    {credential : InboundCredential} {scope : SigV4aCredentialScope} {key : K}
    {accessKeyId amzDate canonicalRequest der signatureHex requestId : Bytes} {mismatch : String}
    (hparsed : parseDerSignatureHex verifier.crypto signatureHex = .ok der)
    (h : verifier.checkEcdsa accessKeyId credential scope amzDate canonicalRequest der mismatch
      requestId = .ok key) :
  SignatureValid verifier accessKeyId credential.secretAccessKey amzDate canonicalRequest
    signatureHex scope.verified (.ecdsaP256 key)
  := by
  rw [SigV4Verifier.checkEcdsa] at h
  split at h
  next => cases h
  next key' hderived =>
    split at h
    next => cases h
    next hverified =>
      obtain rfl := Except.ok.inj h
      apply SignatureValid.ecdsa hderived hparsed
      rw [verifySigV4aDerSignature] at hverified
      split at hverified
      next => cases hverified
      next =>
        split at hverified
        next hvalid => exact hvalid
        next => cases hverified

/-! ### Verified requests -/

/-- The holder of a credential has signed the request, with the canonical query of a mode and for the
token of a session. -/
structure IsSigned (verifier : SigV4Verifier K) (parts : Parts) (requestId : Bytes) (now : Instant)
    (mode : CanonicalQueryMode) (token : Option Bytes) (v : VerifiedRequest K)
    (accessKeyId : Bytes) (credential : InboundCredential) (canonical : CanonicalRequest) :
    Prop where
  resolved : verifier.resolver accessKeyId token now = .ok (some credential)
  accessKeyId_eq : v.accessKeyId = credential.accessKeyId
  headers : IsSignedHeaders v.signedHeaders
  canonical_eq : buildCanonicalRequestFromSignedHeaders parts v.signedHeaders v.payload mode
    requestId = .ok canonical
  signature : SignatureValid verifier accessKeyId credential.secretAccessKey v.amzDate
    canonical.canonicalRequest v.requestSignatureHex v.credentialScope v.signingContext

/-- The request was verified by its header. -/
structure HeaderVerified (verifier : SigV4Verifier K) (parts : Parts) (requestId : Bytes)
    (now : Instant) (v : VerifiedRequest K) : Prop where
  noQuery : hasPresignedSignatureQuery (parts.query.getD []) = false
  signed : ∃ token accessKeyId credential canonical,
    extractHeaderSessionToken parts v.signedHeaders requestId = .ok token ∧
    IsSigned verifier parts requestId now .includeAll token v accessKeyId credential canonical
  fresh : ∃ time, resolveRequestTime verifier.calendar parts.headers requestId
      = .ok (v.amzDate, time) ∧ |now.nanos - time.nanos| ≤ verifier.maxSkew
  payload : SigV4Verifier.payloadOf parts requestId = .ok v.payload
  regionSet : (∃ key, v.signingContext = .ecdsaP256 key) →
    ensureSigV4aRegionSetSigned parts.headers v.signedHeaders requestId = .ok ()

/-- The request was verified by its query. -/
structure QueryVerified (verifier : SigV4Verifier K) (parts : Parts) (requestId : Bytes)
    (now : Instant) (v : VerifiedRequest K) : Prop where
  noHeader : parts.headers.containsKey (ascii "authorization") = false
  signed : ∃ token accessKeyId credential canonical,
    IsSigned verifier parts requestId now .excludePresignedSignature token v accessKeyId credential
      canonical
  fresh : ∃ time : Instant, verifier.calendar.parseAmzDate v.amzDate = some time ∧
    time.nanos ≤ now.nanos ∧ now.nanos ≤ time.nanos + maxPresignedExpiresSecs * 10 ^ 9
  payload : v.payload = .unsignedPayload
  notChunked : rejectPresignedAwsChunked parts requestId = .ok ()
  markers : checkPresignedPayloadMarker parts requestId = .ok ()

theorem resolveCredential_eq_ok
    {resolver : InboundCredentialResolver} {accessKeyId requestId : Bytes} {token : Option Bytes}
    {now : Instant} {credential : InboundCredential}
    (h : resolveCredentialForSigV4 resolver accessKeyId token now requestId = .ok credential) :
  resolver accessKeyId token now = .ok (some credential)
  := by
  rw [resolveCredentialForSigV4] at h
  split at h
  next credential' heq => rw [heq, Except.ok.inj h]
  next => cases h
  next => cases h
  next => cases h
  next => cases h

theorem enforceSkew_eq_ok
    {requestTime now : Instant} {maxSkew : ℤ} {requestId : Bytes}
    (h : enforceSkew requestTime now maxSkew requestId = .ok ()) :
  |now.nanos - requestTime.nanos| ≤ maxSkew
  := by
  rw [enforceSkew] at h
  split at h
  next => cases h
  next hle => exact not_lt.mp hle

theorem parseExpires_eq_ok
    {value requestId : Bytes} {n : ℕ} (h : parseExpires value requestId = .ok n) :
  1 ≤ n ∧ n ≤ maxPresignedExpiresSecs
  := by
  rw [parseExpires] at h
  split at h
  next => cases h
  next =>
    obtain ⟨secs, -, h⟩ := exists_of_bind_eq_ok h
    split at h
    next => cases h
    next hrange =>
      obtain rfl := Except.ok.inj h
      omega

theorem enforcePresignedWindow_eq_ok
    {requestTime now : Instant} {expires : ℕ} {requestId : Bytes}
    (h : enforcePresignedWindow requestTime expires now requestId = .ok ()) :
  requestTime.nanos ≤ now.nanos ∧ now.nanos ≤ requestTime.nanos + expires * 10 ^ 9
  := by
  rw [enforcePresignedWindow] at h
  split at h
  next => cases h
  next hwindow =>
    rw [not_or, not_lt, not_lt] at hwindow
    exact hwindow

section

variable {parts : Parts} {requestId : Bytes} {now : Instant} {v : VerifiedRequest K}

theorem headerVerified_of_hmac
    (hquery : hasPresignedSignatureQuery (parts.query.getD []) = false)
    (h : verifier.verifyAuthorizationHeaderAt parts requestId now = .ok v) :
  HeaderVerified verifier parts requestId now v
  := by
  obtain ⟨authStr, -, h⟩ := exists_of_bind_eq_ok h
  obtain ⟨auth, hauth, h⟩ := exists_of_bind_eq_ok h
  obtain ⟨⟨amzDate, time⟩, htime, h⟩ := exists_of_bind_eq_ok h
  obtain ⟨⟨⟩, hskew, h⟩ := exists_of_bind_eq_ok h
  obtain ⟨⟨⟩, -, h⟩ := exists_of_bind_eq_ok h
  obtain ⟨payload, hpayload, h⟩ := exists_of_bind_eq_ok h
  obtain ⟨token, htoken, h⟩ := exists_of_bind_eq_ok h
  obtain ⟨credential, hcredential, h⟩ := exists_of_bind_eq_ok h
  obtain ⟨canonical, hcanonical, h⟩ := exists_of_bind_eq_ok h
  obtain ⟨key, hkey, h⟩ := exists_of_bind_eq_ok h
  obtain rfl := Except.ok.inj h
  obtain ⟨⟨credentialRaw, headersRaw, signatureRaw⟩, -, hauth⟩ := exists_of_bind_eq_ok hauth
  obtain ⟨⟨accessKeyId, scope⟩, -, hauth⟩ := exists_of_bind_eq_ok hauth
  obtain ⟨names, hnames, hauth⟩ := exists_of_bind_eq_ok hauth
  obtain ⟨signature, hsignature, hauth⟩ := exists_of_bind_eq_ok hauth
  obtain rfl := Except.ok.inj hauth
  exact {
    noQuery := hquery
    signed := by
      use token, accessKeyId, credential, canonical, htoken
      exact {
        resolved := resolveCredential_eq_ok hcredential
        accessKeyId_eq := rfl
        headers := isSignedHeaders_of_parse hnames
        canonical_eq := hcanonical
        signature := signatureValid_of_checkHmac (parseSignatureHex_eq_ok hsignature) hkey }
    fresh := ⟨time, htime, enforceSkew_eq_ok hskew⟩
    payload := hpayload
    regionSet := by
      rintro ⟨key', hkey'⟩
      cases hkey' }

theorem headerVerified_of_ecdsa
    (hquery : hasPresignedSignatureQuery (parts.query.getD []) = false)
    (h : verifier.verifySigV4aAuthorizationHeaderAt parts requestId now = .ok v) :
  HeaderVerified verifier parts requestId now v
  := by
  obtain ⟨authStr, -, h⟩ := exists_of_bind_eq_ok h
  obtain ⟨auth, hauth, h⟩ := exists_of_bind_eq_ok h
  obtain ⟨⟨amzDate, time⟩, htime, h⟩ := exists_of_bind_eq_ok h
  obtain ⟨⟨⟩, hskew, h⟩ := exists_of_bind_eq_ok h
  obtain ⟨⟨⟩, -, h⟩ := exists_of_bind_eq_ok h
  obtain ⟨⟨⟩, hregion, h⟩ := exists_of_bind_eq_ok h
  obtain ⟨payload, hpayload, h⟩ := exists_of_bind_eq_ok h
  obtain ⟨token, htoken, h⟩ := exists_of_bind_eq_ok h
  obtain ⟨credential, hcredential, h⟩ := exists_of_bind_eq_ok h
  obtain ⟨canonical, hcanonical, h⟩ := exists_of_bind_eq_ok h
  obtain ⟨key, hkey, h⟩ := exists_of_bind_eq_ok h
  obtain rfl := Except.ok.inj h
  obtain ⟨⟨credentialRaw, headersRaw, signatureRaw⟩, -, hauth⟩ := exists_of_bind_eq_ok hauth
  obtain ⟨⟨accessKeyId, scope⟩, -, hauth⟩ := exists_of_bind_eq_ok hauth
  obtain ⟨names, hnames, hauth⟩ := exists_of_bind_eq_ok hauth
  obtain ⟨der, hder, hauth⟩ := exists_of_bind_eq_ok hauth
  obtain rfl := Except.ok.inj hauth
  exact {
    noQuery := hquery
    signed := by
      use token, accessKeyId, credential, canonical, htoken
      exact {
        resolved := resolveCredential_eq_ok hcredential
        accessKeyId_eq := rfl
        headers := isSignedHeaders_of_parse hnames
        canonical_eq := hcanonical
        signature := signatureValid_of_checkEcdsa (parseSignatureDer_eq_ok hder) hkey }
    fresh := ⟨time, htime, enforceSkew_eq_ok hskew⟩
    payload := hpayload
    regionSet := fun _ => hregion }

/-- What is read from a query, for a keyed hash. -/
theorem parsePresignedAuthorization_eq_ok
    {cal : Calendar} {rawQuery : Bytes} {pres : PresignedAuthorization}
    (h : parsePresignedAuthorization cal rawQuery requestId = .ok pres) :
  IsSignedHeaders pres.signedHeaders ∧ parseHex32 pres.signatureHex = some pres.signature ∧
    cal.parseAmzDate pres.amzDate = some pres.requestTime ∧ pres.expires ≤ maxPresignedExpiresSecs
  := by
  obtain ⟨slots, -, h⟩ := exists_of_bind_eq_ok h
  obtain ⟨⟨⟩, -, h⟩ := exists_of_bind_eq_ok h
  obtain ⟨credentialV, -, h⟩ := exists_of_bind_eq_ok h
  obtain ⟨amzDate, -, h⟩ := exists_of_bind_eq_ok h
  obtain ⟨expiresV, -, h⟩ := exists_of_bind_eq_ok h
  obtain ⟨headersV, -, h⟩ := exists_of_bind_eq_ok h
  obtain ⟨signatureHex, -, h⟩ := exists_of_bind_eq_ok h
  obtain ⟨⟨accessKeyId, scope⟩, -, h⟩ := exists_of_bind_eq_ok h
  obtain ⟨names, hnames, h⟩ := exists_of_bind_eq_ok h
  obtain ⟨signature, hsignature, h⟩ := exists_of_bind_eq_ok h
  obtain ⟨time, htime, h⟩ := exists_of_bind_eq_ok h
  obtain ⟨expires, hexpires, h⟩ := exists_of_bind_eq_ok h
  obtain rfl := Except.ok.inj h
  exact ⟨isSignedHeaders_of_parse hnames, parseSignatureHex_eq_ok hsignature,
    required_eq_ok.mp htime, (parseExpires_eq_ok hexpires).2⟩

/-- What is read from a query, for an elliptic-curve signature. -/
theorem parseSigV4aPresignedAuthorization_eq_ok
    {c : Crypto K} {cal : Calendar} {rawQuery : Bytes} {pres : SigV4aPresignedAuthorization}
    (h : parseSigV4aPresignedAuthorization c cal rawQuery requestId = .ok pres) :
  IsSignedHeaders pres.signedHeaders ∧
    parseDerSignatureHex c pres.signatureHex = .ok pres.signatureDer ∧
    cal.parseAmzDate pres.amzDate = some pres.requestTime ∧
    pres.expires ≤ maxPresignedExpiresSecs ∧ pres.regionSet ≠ []
  := by
  obtain ⟨slots, -, h⟩ := exists_of_bind_eq_ok h
  obtain ⟨⟨⟩, -, h⟩ := exists_of_bind_eq_ok h
  obtain ⟨credentialV, -, h⟩ := exists_of_bind_eq_ok h
  obtain ⟨amzDate, -, h⟩ := exists_of_bind_eq_ok h
  obtain ⟨expiresV, -, h⟩ := exists_of_bind_eq_ok h
  obtain ⟨headersV, -, h⟩ := exists_of_bind_eq_ok h
  obtain ⟨signatureHex, -, h⟩ := exists_of_bind_eq_ok h
  obtain ⟨regionSet, -, h⟩ := exists_of_bind_eq_ok h
  split at h
  next => cases h
  next hregion =>
    obtain ⟨⟨accessKeyId, scope⟩, -, h⟩ := exists_of_bind_eq_ok h
    obtain ⟨names, hnames, h⟩ := exists_of_bind_eq_ok h
    obtain ⟨der, hder, h⟩ := exists_of_bind_eq_ok h
    obtain ⟨time, htime, h⟩ := exists_of_bind_eq_ok h
    obtain ⟨expires, hexpires, h⟩ := exists_of_bind_eq_ok h
    obtain rfl := Except.ok.inj h
    exact ⟨isSignedHeaders_of_parse hnames, parseSignatureDer_eq_ok hder,
      required_eq_ok.mp htime, (parseExpires_eq_ok hexpires).2, hregion⟩

/-- A request is not valid for longer than presigned requests may be. -/
theorem fresh_of_window
    {time now : Instant} {expires : ℕ} (hexpires : expires ≤ maxPresignedExpiresSecs)
    (h : enforcePresignedWindow time expires now requestId = .ok ()) :
  time.nanos ≤ now.nanos ∧ now.nanos ≤ time.nanos + maxPresignedExpiresSecs * 10 ^ 9
  := by
  obtain ⟨hstart, hend⟩ := enforcePresignedWindow_eq_ok h
  use hstart
  have hle : (expires : ℤ) * 10 ^ 9 ≤ (maxPresignedExpiresSecs : ℤ) * 10 ^ 9 := by
    have := Int.ofNat_le.mpr hexpires
    omega
  omega

theorem queryVerified_of_hmac
    (hheader : parts.headers.containsKey (ascii "authorization") = false)
    (h : verifier.verifyPresignedRequest parts requestId now = .ok v) :
  QueryVerified verifier parts requestId now v
  := by
  obtain ⟨⟨⟩, hchunked, h⟩ := exists_of_bind_eq_ok h
  obtain ⟨pres, hpres, h⟩ := exists_of_bind_eq_ok h
  obtain ⟨⟨⟩, -, h⟩ := exists_of_bind_eq_ok h
  obtain ⟨⟨⟩, hwindow, h⟩ := exists_of_bind_eq_ok h
  obtain ⟨⟨⟩, hmarkers, h⟩ := exists_of_bind_eq_ok h
  obtain ⟨credential, hcredential, h⟩ := exists_of_bind_eq_ok h
  obtain ⟨canonical, hcanonical, h⟩ := exists_of_bind_eq_ok h
  obtain ⟨key, hkey, h⟩ := exists_of_bind_eq_ok h
  obtain rfl := Except.ok.inj h
  obtain ⟨hheaders, hsignature, htime, hexpires⟩ := parsePresignedAuthorization_eq_ok hpres
  exact {
    noHeader := hheader
    signed := by
      use pres.sessionToken, pres.accessKeyId, credential, canonical
      exact {
        resolved := resolveCredential_eq_ok hcredential
        accessKeyId_eq := rfl
        headers := hheaders
        canonical_eq := hcanonical
        signature := signatureValid_of_checkHmac hsignature hkey }
    fresh := ⟨pres.requestTime, htime, fresh_of_window hexpires hwindow⟩
    payload := rfl
    notChunked := hchunked
    markers := hmarkers }

theorem queryVerified_of_ecdsa
    (hheader : parts.headers.containsKey (ascii "authorization") = false)
    (h : verifier.verifySigV4aPresignedRequest parts requestId now = .ok v) :
  QueryVerified verifier parts requestId now v
  := by
  obtain ⟨⟨⟩, hchunked, h⟩ := exists_of_bind_eq_ok h
  obtain ⟨pres, hpres, h⟩ := exists_of_bind_eq_ok h
  obtain ⟨⟨⟩, -, h⟩ := exists_of_bind_eq_ok h
  obtain ⟨⟨⟩, hwindow, h⟩ := exists_of_bind_eq_ok h
  obtain ⟨⟨⟩, hmarkers, h⟩ := exists_of_bind_eq_ok h
  obtain ⟨credential, hcredential, h⟩ := exists_of_bind_eq_ok h
  obtain ⟨canonical, hcanonical, h⟩ := exists_of_bind_eq_ok h
  obtain ⟨key, hkey, h⟩ := exists_of_bind_eq_ok h
  obtain rfl := Except.ok.inj h
  obtain ⟨hheaders, hder, htime, hexpires, -⟩ := parseSigV4aPresignedAuthorization_eq_ok hpres
  exact {
    noHeader := hheader
    signed := by
      use pres.sessionToken, pres.accessKeyId, credential, canonical
      exact {
        resolved := resolveCredential_eq_ok hcredential
        accessKeyId_eq := rfl
        headers := hheaders
        canonical_eq := hcanonical
        signature := signatureValid_of_checkEcdsa hder hkey }
    fresh := ⟨pres.requestTime, htime, fresh_of_window hexpires hwindow⟩
    payload := rfl
    notChunked := hchunked
    markers := hmarkers }

/-- A request is verified by its header or by its query. -/
theorem verified_of_verifyAt
    (h : verifier.verifyAt parts requestId now = .ok v) :
  HeaderVerified verifier parts requestId now v ∨ QueryVerified verifier parts requestId now v
  := by
  rw [SigV4Verifier.verifyAt] at h
  rcases hheader : parts.headers.containsKey (ascii "authorization")
  · rcases hquery : hasPresignedSignatureQuery (parts.query.getD [])
    · rw [hheader, hquery] at h
      cases h
    · rw [hheader, hquery] at h
      right
      change (if _ then _ else _) = _ at h
      split at h
      next => exact queryVerified_of_ecdsa hheader h
      next => exact queryVerified_of_hmac hheader h
  · rcases hquery : hasPresignedSignatureQuery (parts.query.getD [])
    · rw [hheader, hquery] at h
      left
      change (if _ then _ else _) = _ at h
      split at h
      next => exact headerVerified_of_ecdsa hquery h
      next => exact headerVerified_of_hmac hquery h
    · rw [hheader, hquery] at h
      cases h

end

/-! ### Signed requests -/

/-- A header, if the strings are a name and a value. -/
def sampleHeader (name value : String) : HeaderMap :=
  if h : ∀ b ∈ ascii value, isValueByte b = true then
    ((HeaderName.fromStr (ascii name)).map fun n => (n, ⟨ascii value, h⟩)).toList
  else []

/-- A request that is signed in the header. -/
def signedRequest (method : Bytes) (hmethod : lf ∉ method) (declared signature : String) :
    Parts where
  method
  path := ascii "/front/key"
  query := none
  headers := sampleHeader "host" "localhost" ++ sampleHeader "x-amz-content-sha256" declared ++
    sampleHeader "x-amz-date" "20260101T000000Z" ++ sampleHeader "authorization"
      ("AWS4-HMAC-SHA256 Credential=AKID/20260101/us-east-1/s3/aws4_request, " ++
        "SignedHeaders=host;x-amz-content-sha256;x-amz-date, Signature=" ++ signature)
  lf_notMem_method := hmethod
  lf_notMem_path := lf_notMem_frontKey

/-- A request to store the object `hello`. -/
def helloRequest : Parts :=
  signedRequest (ascii "PUT") lf_notMem_put
    "2cf24dba5fb0a30e26e83b2ac5b9e29e1b161e5c1fa7425e73043362938b9824"
    "e57c7754254b0f0f4b9ed698f27d1187e92bde49fa9975285ba8e3a75d9cc530"

/-- The bytes of a hash. -/
def hashBytes (s : String) : Bytes := (parseHex32 (ascii s)).getD []

/-- The canonical form of a request of the above. -/
def signedCanonical (method declared : String) : Bytes :=
  ascii method ++ lf :: (ascii "/front/key" ++ lf :: lf :: (ascii "host:localhost" ++ lf ::
    (ascii "x-amz-content-sha256:" ++ ascii declared ++ lf ::
      (ascii "x-amz-date:20260101T000000Z" ++ lf :: lf ::
        (ascii "host;x-amz-content-sha256;x-amz-date" ++ lf :: ascii declared)))))

/-- What is signed for a canonical form with a hash. -/
def signedText (hash : String) : Bytes :=
  hmacAlgorithm ++ lf :: (ascii "20260101T000000Z" ++ lf ::
    (ascii "20260101/us-east-1/s3/aws4_request" ++ lf :: ascii hash))

/-- The key of the day. -/
def sampleKey32 : Bytes :=
  hashBytes "6b95e287ba20436c0bfdf825c5a7188ff572310ba45bc1e74f0ea77aba912a0f"

/-- The hashes of the requests. -/
def sampleHashes : List (Bytes × Bytes) :=
  [(ascii "hello", hashBytes "2cf24dba5fb0a30e26e83b2ac5b9e29e1b161e5c1fa7425e73043362938b9824"),
    (signedCanonical "PUT" "2cf24dba5fb0a30e26e83b2ac5b9e29e1b161e5c1fa7425e73043362938b9824",
      hashBytes "6457cf8481c262475c0e0694217ada3b63550d685ce97c6928f40f2e75807358"),
    (signedCanonical "DELETE" "STREAMING-AWS4-HMAC-SHA256-PAYLOAD",
      hashBytes "324010859108fa63bbca65c67cd0c15d5b11cb8e13caa176ee3452665d6b4b03")]

/-- The keyed hashes of the requests. -/
def sampleKeyedHashes : List ((Bytes × Bytes) × Bytes) :=
  [((ascii "AWS4secret", ascii "20260101"),
      hashBytes "e81e6845853d816ca4aebc23524a5d19b9b7781857ba20e5117b00aa2cce2618"),
    ((hashBytes "e81e6845853d816ca4aebc23524a5d19b9b7781857ba20e5117b00aa2cce2618",
      ascii "us-east-1"),
      hashBytes "8ac866bba49bb3360f593db3e55750cd82b90146da0f823a7d09af599498d8e0"),
    ((hashBytes "8ac866bba49bb3360f593db3e55750cd82b90146da0f823a7d09af599498d8e0", ascii "s3"),
      hashBytes "92e300e998d47ade1ed7dc430cd1842f64e3833001ec0367a296b65e5ed267b3"),
    ((hashBytes "92e300e998d47ade1ed7dc430cd1842f64e3833001ec0367a296b65e5ed267b3",
      ascii "aws4_request"), sampleKey32),
    ((sampleKey32, signedText "6457cf8481c262475c0e0694217ada3b63550d685ce97c6928f40f2e75807358"),
      hashBytes "e57c7754254b0f0f4b9ed698f27d1187e92bde49fa9975285ba8e3a75d9cc530"),
    ((sampleKey32, signedText "324010859108fa63bbca65c67cd0c15d5b11cb8e13caa176ee3452665d6b4b03"),
      hashBytes "37e0a0d5318ce578afb7adb32ce5018c884462f8e8b9c32b17b52f1c8f001a1e")]

/-- Primitives with the real values for the requests. -/
def requestCrypto : Crypto Unit where
  sha256 bs := (sampleHashes.lookup bs).getD (List.replicate 32 0)
  hmacSha256 key bs := (sampleKeyedHashes.lookup (key, bs)).getD (List.replicate 32 0)
  fromDer _ := false
  verify _ _ _ := false
  checksum a _ := List.replicate a.digestLen 0
  base64Decode _ := .error []

/-- The first second of the year 2026. -/
def sampleNow : Instant := { date := 20454, nanos := 1767225600 * 10 ^ 9 }

/-- A verifier that knows one client, on one day. -/
def sampleVerifier : SigV4Verifier Unit where
  crypto := requestCrypto
  calendar :=
    { parseDate := fun s => if s = ascii "20260101" then some 20454 else none
      parseAmzDate := fun s => if s = ascii "20260101T000000Z" then some sampleNow else none
      parseHttpDate := fun _ => none
      formatAmzDate := fun _ => [] }
  fromSlice _ := none
  resolver := fun accessKeyId token _ =>
    if accessKeyId = ascii "AKID" ∧ token = none then
      .ok (some ⟨ascii "AKID", ascii "secret", none, none⟩)
    else .ok none
  maxSkew := 900 * 10 ^ 9

end TinyS3Proxy
