import TinyS3Proxy.S3.AwsChunked

/-!
# The grammar of aws-chunked bodies

A body is a sequence of chunks, then a chunk of size zero, then in some modes a trailer and its
signature, then an empty line. This is a description of the format, and not of the decoder: it
says which strings of bytes are bodies, in terms of the parts they consist of.

The size of a chunk is a hexadecimal number. What counts as one is left open here, as a relation
between a string and a number, because the decoder accepts more than digits.
-/

namespace TinyS3Proxy

open Text (Bytes ascii lf crlf)

variable {K : Type} (c : Crypto K)

/-! ### Signatures -/

/-- The form of a signature: sixty-four digits in lower case, or the digits of a signature in DER
form, which stars can fill up to their greatest length. -/
inductive SignatureShape : SignedChunkAlgorithm → Bytes → Prop
  | hmac {sig : Bytes} (length : sig.length = 64) (digits : ∀ b ∈ sig, Text.isLowerHex b = true) :
      SignatureShape .hmacSha256 sig
  | der {hex der : Bytes} {stars : ℕ} (nonempty : hex ≠ []) (even : hex.length % 2 = 0)
      (short : hex.length ≤ 144) (padded : stars = 0 ∨ hex.length + stars = 144)
      (digits : ∀ b ∈ hex, Text.isLowerHex b = true)
      (bytes : Text.decodePairs Text.hexDigit hex = some der) (valid : c.fromDer der = true) :
      SignatureShape .ecdsaP256 (hex ++ List.replicate stars 42)

variable {c}

theorem parseDerSignatureHex_eq_ok
    {s der : Bytes} :
  parseDerSignatureHex c s = .ok der ↔
    s ≠ [] ∧ s.length % 2 = 0 ∧ s.length ≤ 144 ∧ (∀ b ∈ s, Text.isLowerHex b = true) ∧
      Text.decodePairs Text.hexDigit s = some der ∧ c.fromDer der = true
  := by
  have hmax : maxSigV4aDerSignatureHexLen = 144 := rfl
  rw [parseDerSignatureHex, hmax]
  constructor
  · intro h
    split at h
    next => cases h
    next hs =>
      split at h
      next => cases h
      next hl =>
        split at h
        next => cases h
        next bs hbs =>
          split at h
          next hder =>
            obtain rfl := Except.ok.inj h
            push Not at hs
            refine ⟨hs.1, hs.2.1, hs.2.2, ?_, hbs, hder⟩
            simpa using hl
          next => cases h
  · rintro ⟨hne, heven, hlen, hlow, hbs, hder⟩
    rw [if_neg (by simp [hne, heven, hlen]), if_neg (by simpa using hlow), hbs]
    exact if_pos hder

theorem lowerHex_ne_star
    {s : Bytes} (h : ∀ b ∈ s, Text.isLowerHex b = true) :
  (42 : UInt8) ∉ s
  := by
  intro hm
  exact absurd (h 42 hm) (by decide)

theorem parsePadded_eq_ok
    {s : Bytes} :
  (∃ der, parseStreamingDerSignatureHexPadded c s = .ok der) ↔ SignatureShape c .ecdsaP256 s
  := by
  have hmax : maxSigV4aDerSignatureHexLen = 144 := rfl
  constructor
  · rintro ⟨der, h⟩
    rw [parseStreamingDerSignatureHexPadded, hmax] at h
    split at h
    next => cases h
    next hlen =>
      split at h
      next hex stars hs =>
        obtain ⟨rfl, -⟩ := Text.splitOnce_eq_some.mp hs
        split at h
        next => cases h
        next htotal =>
          split at h
          next => cases h
          next hstars =>
            obtain ⟨hne, heven, hshort, hlow, hbs, hder⟩ := parseDerSignatureHex_eq_ok.mp h
            have hrep : 42 :: stars = List.replicate (stars.length + 1) 42 := by
              apply List.eq_replicate_of_mem
              simpa using hstars
            rw [hrep]
            apply SignatureShape.der hne heven hshort (Or.inr ?_) hlow hbs hder
            simpa using htotal
      next =>
        obtain ⟨hne, heven, hshort, hlow, hbs, hder⟩ := parseDerSignatureHex_eq_ok.mp h
        have hform := SignatureShape.der (c := c) hne heven hshort (Or.inl rfl) hlow hbs hder
        simpa using hform
  · rintro (_ | ⟨hne, heven, hshort, hpad, hlow, hbs, hder⟩)
    rename_i hex der stars
    use der
    have hparse : parseDerSignatureHex c hex = .ok der :=
      parseDerSignatureHex_eq_ok.mpr ⟨hne, heven, hshort, hlow, hbs, hder⟩
    have hlen : (hex ++ List.replicate stars 42).length = hex.length + stars := by simp
    rw [parseStreamingDerSignatureHexPadded, hmax, if_neg (by omega)]
    cases stars with
    | zero =>
        have hnone : Text.splitOnce 42 hex = none :=
          Text.splitOnce_eq_none.mpr (lowerHex_ne_star hlow)
        rw [List.replicate_zero, List.append_nil, hnone]
        exact hparse
    | succ n =>
        have hsome : Text.splitOnce 42 (hex ++ List.replicate (n + 1) 42)
            = some (hex, List.replicate n 42) :=
          Text.splitOnce_eq_some.mpr ⟨rfl, lowerHex_ne_star hlow⟩
        rw [hsome]
        simp only [hlen]
        rw [if_neg (by omega), if_neg (by simp)]
        exact hparse

/-- The decoder checks the form of signatures. -/
theorem validateChunkSignatureShape_eq_ok
    {sig : Bytes} {a : SignedChunkAlgorithm} :
  validateChunkSignatureShape c sig a = .ok () ↔ SignatureShape c a sig
  := by
  cases a with
  | hmacSha256 =>
      rw [validateChunkSignatureShape]
      constructor
      · intro h
        split at h
        next => cases h
        next hlen =>
          split at h
          next => cases h
          next hlow => exact .hmac (not_not.mp hlen) (by simpa using hlow)
      · rintro ⟨hlen, hlow⟩
        have hmax : sig.length = chunkSignatureHexLen := hlen
        rw [if_neg (not_not.mpr hmax), if_neg (by simpa using hlow)]
  | ecdsaP256 =>
      rw [validateChunkSignatureShape, ← parsePadded_eq_ok]
      cases parseStreamingDerSignatureHexPadded c sig with
      | error e => simp
      | ok der => simp

/-- A signature consists of visible characters. -/
theorem SignatureShape.visible
    {a : SignedChunkAlgorithm} {sig : Bytes} (h : SignatureShape c a sig) :
  Text.Visible sig
  := by
  cases h with
  | hmac _ hlow => exact Text.visible_of_isLowerHex hlow
  | der _ _ _ _ hlow _ _ =>
      rw [Text.visible_append]
      constructor
      · exact Text.visible_of_isLowerHex hlow
      · intro b hb
        rw [List.eq_of_mem_replicate hb]
        decide

variable (c)

/-! ### Chunk headers -/

/-- The text of a chunk header. -/
def headerText (a : Option SignedChunkAlgorithm) (sizeField signature : Bytes) : Bytes :=
  match a with
  | none => sizeField
  | some _ => sizeField ++ 59 :: (signatureExtension ++ signature)

/-- The size field and the signature make up the header of a chunk of size `n`. -/
structure HeaderOk (Size : Bytes → ℕ → Prop) (a : Option SignedChunkAlgorithm)
    (sizeField signature : Bytes) (n : ℕ) : Prop where
  size : Size sizeField n
  signed : ∀ b, a = some b → SignatureShape c b signature
  unsigned : a = none → signature = []
  short : (headerText a sizeField signature ++ crlf).length ≤ 4096

/-- What the decoder accepts as the size of a chunk. -/
def ParsedSize (sizeField : Bytes) (n : ℕ) : Prop := Text.fromStrRadix16 sizeField = some n

variable {c}

theorem HeaderOk.mono
    {Size Size' : Bytes → ℕ → Prop} {a : Option SignedChunkAlgorithm}
    {sizeField signature : Bytes} {n : ℕ} (h : HeaderOk c Size a sizeField signature n)
    (hsize : Size sizeField n → Size' sizeField n) :
  HeaderOk c Size' a sizeField signature n
  := { h with size := hsize h.size }

/-- Digits are accepted as a size. -/
theorem parsedSize_of_hexNumber
    {sizeField : Bytes} {n : ℕ} (h : Text.HexNumber sizeField n) :
  ParsedSize sizeField n
  := Text.fromStrRadix16_eq_some.mpr (Or.inl h)

theorem ParsedSize.lt
    {sizeField : Bytes} {n : ℕ} (h : ParsedSize sizeField n) :
  n < 2 ^ 64
  := by
  obtain h | ⟨ds, -, h⟩ := Text.fromStrRadix16_eq_some.mp h
  · exact h.small
  · exact h.small

/-- What is accepted as a size consists of visible characters. -/
theorem ParsedSize.visible
    {sizeField : Bytes} {n : ℕ} (h : ParsedSize sizeField n) :
  Text.Visible sizeField
  := by
  obtain hn | ⟨ds, rfl, hn⟩ := Text.fromStrRadix16_eq_some.mp h
  · exact hn.visible
  · exact Text.visible_cons.mpr ⟨by decide, hn.visible⟩

theorem ParsedSize.semicolon_notMem
    {sizeField : Bytes} {n : ℕ} (h : ParsedSize sizeField n) :
  (59 : UInt8) ∉ sizeField
  := by
  have hdigits : ∀ {ds : Bytes}, Text.HexNumber ds n → (59 : UInt8) ∉ ds := by
    intro ds hds hm
    exact absurd (hds.digits 59 hm) (by decide)
  obtain hn | ⟨ds, rfl, hn⟩ := Text.fromStrRadix16_eq_some.mp h
  · exact hdigits hn
  · exact List.not_mem_cons_of_ne_of_not_mem (by decide) (hdigits hn)

theorem parseChunkSize_eq_ok
    {sizeField : Bytes} {n : UInt64} :
  parseChunkSize sizeField = .ok n ↔ ParsedSize sizeField n.toNat
  := by
  rw [parseChunkSize, ParsedSize]
  constructor
  · intro h
    split at h
    next => cases h
    next =>
      split at h
      next m hm =>
        obtain rfl := Except.ok.inj h
        have hlt : m < 2 ^ 64 := ParsedSize.lt hm
        rw [hm, UInt64.toNat_ofNat_of_lt' hlt]
      next => cases h
  · intro h
    have hne : sizeField ≠ [] := by
      rintro rfl
      cases h
    rw [if_neg hne, h]
    simp

/-- The decoder parses the header of a chunk into its size and its signature. -/
theorem parseChunkHeader_eq_ok
    {line : Bytes} {a : Option SignedChunkAlgorithm} {p : ParsedChunkHeader}
    (hshort : (line ++ crlf).length ≤ 4096) :
  parseChunkHeader c line a = .ok p ↔
    ∃ sizeField signature, line = headerText a sizeField signature ∧
      HeaderOk c ParsedSize a sizeField signature p.size.toNat ∧
      p.signatureHex = a.map fun _ => signature
  := by
  cases a with
  | none =>
      rw [parseChunkHeader]
      constructor
      · intro h
        split at h
        next => cases h
        next =>
          cases hn : parseChunkSize line with
          | error e =>
              rw [hn] at h
              cases h
          | ok n =>
              rw [hn] at h
              obtain rfl := Except.ok.inj h
              use line, []
              exact ⟨rfl, ⟨parseChunkSize_eq_ok.mp hn, fun b hb => (by cases hb), fun _ => rfl, hshort⟩,
                rfl⟩
      · rintro ⟨sizeField, signature, hline, hok, hsig⟩
        have hsize : ParsedSize line p.size.toNat := hline ▸ hok.size
        rw [if_neg hsize.semicolon_notMem, parseChunkSize_eq_ok.mpr hsize]
        obtain ⟨size, sig⟩ := p
        obtain rfl : sig = none := hsig
        rfl
  | some b =>
      rw [parseChunkHeader]
      constructor
      · intro h
        split at h
        next => cases h
        next sizePart sigPart hs =>
          obtain ⟨rfl, -⟩ := Text.splitOnce_eq_some.mp hs
          cases hn : parseChunkSize sizePart with
          | error e =>
              rw [hn] at h
              cases h
          | ok n =>
              cases hstrip : Text.strip signatureExtension sigPart with
              | none =>
                rw [hn, hstrip] at h
                cases h
              | some sigHex =>
                rw [hn, hstrip] at h
                obtain rfl := Text.strip_eq_some.mp hstrip
                cases hv : validateChunkSignatureShape c sigHex b with
                | error e =>
                    simp only [bind, Except.bind, hv] at h
                    cases h
                | ok u =>
                    simp only [bind, Except.bind, hv] at h
                    obtain rfl := Except.ok.inj h
                    use sizePart, sigHex
                    refine ⟨rfl, ⟨parseChunkSize_eq_ok.mp hn, ?_, fun hb => (by cases hb), hshort⟩, rfl⟩
                    intro b' hb'
                    obtain rfl := Option.some.inj hb'
                    exact validateChunkSignatureShape_eq_ok.mp hv
      · rintro ⟨sizeField, signature, rfl, hok, hsig⟩
        have hsplit : Text.splitOnce 59 (headerText (some b) sizeField signature)
            = some (sizeField, signatureExtension ++ signature) :=
          Text.splitOnce_eq_some.mpr ⟨rfl, hok.size.semicolon_notMem⟩
        have hstrip : Text.strip signatureExtension (signatureExtension ++ signature)
            = some signature := Text.strip_eq_some.mpr rfl
        have hshape := validateChunkSignatureShape_eq_ok.mpr (hok.signed b rfl)
        obtain ⟨size, sig⟩ := p
        obtain rfl : sig = some signature := hsig
        simp only [hsplit, parseChunkSize_eq_ok.mpr hok.size, hstrip, hshape]
        rfl

/-- The header of a chunk consists of visible characters. -/
theorem HeaderOk.visible
    {a : Option SignedChunkAlgorithm} {sizeField signature : Bytes} {n : ℕ}
    (h : HeaderOk c ParsedSize a sizeField signature n) :
  Text.Visible (headerText a sizeField signature)
  := by
  cases a with
  | none => exact h.size.visible
  | some b =>
      have hext : Text.Visible signatureExtension := by decide
      rw [headerText, Text.visible_append, Text.visible_cons, Text.visible_append]
      exact ⟨h.size.visible, by decide, hext, (h.signed b rfl).visible⟩

/-! ### Trailer lines -/

/-- A line of a trailer: a name, a colon, a value and a terminator. -/
structure TrailerLine where
  name : Bytes
  value : Bytes
  newline : Bytes
deriving DecidableEq

namespace TrailerLine

/-- The line without its terminator. -/
def text (t : TrailerLine) : Bytes := t.name ++ 58 :: t.value

def bytes (t : TrailerLine) : Bytes := t.text ++ t.newline

/-- The line has one name, one terminator and the allowed length. -/
structure Ok (t : TrailerLine) : Prop where
  name : 58 ∉ t.name
  line : lf ∉ t.text
  utf8 : Text.validUtf8 t.text = true
  newline : t.newline = crlf ∨ t.newline = [lf] ∧ ∀ front, t.text ≠ front ++ [13]
  short : t.bytes.length ≤ 4096

end TrailerLine

/-! ### Bodies -/

/-- A chunk that has data. -/
structure Chunk where
  sizeField : Bytes
  signature : Bytes
  data : Bytes
deriving DecidableEq

/-- The parts of a body. -/
structure Frames where
  chunks : List Chunk
  /-- The size field of the chunk of size zero. -/
  zeroField : Bytes
  /-- The signature of the chunk of size zero. -/
  zeroSignature : Bytes
  trailer : Option TrailerLine
  trailerSignature : Option TrailerLine
deriving DecidableEq

/-- The data of a list of chunks. -/
def payload (chunks : List Chunk) : Bytes := chunks.flatMap Chunk.data

/-- A chunk on the wire. -/
def Chunk.bytes (a : Option SignedChunkAlgorithm) (ch : Chunk) : Bytes :=
  headerText a ch.sizeField ch.signature ++ crlf ++ (ch.data ++ crlf)

/-- What follows the chunk of size zero. -/
def endingBytes (t u : Option TrailerLine) : Bytes :=
  t.elim [] TrailerLine.bytes ++ (u.elim [] TrailerLine.bytes ++ crlf)

namespace Frames

/-- The decoded body. -/
def body (F : Frames) : Bytes := payload F.chunks

/-- The body on the wire. -/
def bytes (a : Option SignedChunkAlgorithm) (F : Frames) : Bytes :=
  F.chunks.flatMap (Chunk.bytes a) ++
    (headerText a F.zeroField F.zeroSignature ++ crlf ++
      endingBytes F.trailer F.trailerSignature)

end Frames

variable (c)

/-- The checksum of a body. -/
def bodyDigest (a : ChecksumAlgorithm) (body : Bytes) : Bytes :=
  match a with
  | .sha256 => c.sha256 body
  | a => c.checksum a body

/-- A chunk is well formed. -/
structure ChunkOk (Size : Bytes → ℕ → Prop) (a : Option SignedChunkAlgorithm) (ch : Chunk) :
    Prop where
  nonempty : ch.data ≠ []
  header : HeaderOk c Size a ch.sizeField ch.signature ch.data.length

/-- The line names the expected trailer, and declares the checksum of the body. -/
structure TrailerOk (name : Bytes) (a : ChecksumAlgorithm) (body : Bytes) (t : TrailerLine) :
    Prop where
  line : t.Ok
  name : Text.eqIgnoreCase (Text.trim t.name) name = true
  checksum : c.base64Decode (Text.trim t.value) = .ok (bodyDigest c a body)
  length : (bodyDigest c a body).length = a.digestLen

/-- The line carries the signature of a trailer. -/
structure TrailerSignatureOk (a : SignedChunkAlgorithm) (t : TrailerLine) : Prop where
  line : t.Ok
  name : Text.eqIgnoreCase (Text.trim t.name) AwsChunkedDecoder.trailerSignatureName = true
  shape : SignatureShape c a (Text.trim t.value)

/-- The trailer of a mode and the line that signs it. -/
inductive EndingOk (body : Bytes) : DecoderMode → Option TrailerLine → Option TrailerLine → Prop
  | nonTrailer {a : SignedChunkAlgorithm} : EndingOk body (.nonTrailer a) none none
  | unsignedTrailer {name : Bytes} {a : ChecksumAlgorithm} {t : TrailerLine}
      (trailer : TrailerOk c name a body t) :
      EndingOk body (.unsignedTrailer name a) (some t) none
  | signedTrailer {name : Bytes} {a : ChecksumAlgorithm} {b : SignedChunkAlgorithm}
      {t u : TrailerLine} (trailer : TrailerOk c name a body t)
      (signature : TrailerSignatureOk c b u) :
      EndingOk body (.signedTrailer name a b) (some t) (some u)

/-- The parts of a body are well formed: every chunk is, those that another chunk follows are
large enough, and the ending is that of the mode. -/
structure Framed (Size : Bytes → ℕ → Prop) (mode : DecoderMode) (F : Frames) : Prop where
  chunks : ∀ ch ∈ F.chunks, ChunkOk c Size mode.signedChunkAlgorithm ch
  large : ∀ ch ∈ F.chunks.dropLast, 8192 ≤ ch.data.length
  zero : HeaderOk c Size mode.signedChunkAlgorithm F.zeroField F.zeroSignature 0
  ending : EndingOk c F.body mode F.trailer F.trailerSignature

/-- A body is well formed: its parts are, and the sizes add up to the declared length. -/
structure FramesOk (Size : Bytes → ℕ → Prop) (mode : DecoderMode) (declared : ℕ) (F : Frames) :
    Prop extends Framed c Size mode F where
  length : F.body.length = declared

end TinyS3Proxy
