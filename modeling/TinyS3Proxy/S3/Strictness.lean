import TinyS3Proxy.S3.Counters
import TinyS3Proxy.S3.Authenticity

/-!
# How strict the decoder is

The decoder is to accept the bodies whose sizes are written in digits and add up to the declared
length, and no others, and to write no more than the declared length whatever it is given. There
are two kinds of bodies on which it is not that strict. A size may be preceded by a plus sign. And
where the declared length is the greatest machine word, payload that goes beyond it is copied.
-/

namespace TinyS3Proxy

open Text (Bytes Reader ascii lf crlf)
open Effect

variable {K : Type} {c : Crypto K}

/-! ### Accepting every signature -/

theorem advances_shapeOnly
    (signed : Bool) (hashHex signature : Bytes) :
  Advances c signed .shapeOnly hashHex signature .shapeOnly
  := by
  cases signed with
  | false => rfl
  | true => rfl

theorem follows_shapeOnly
    (signed : Bool) (chunks : List Chunk) :
  Follows c signed .shapeOnly chunks .shapeOnly
  := by
  induction chunks with
  | nil => rfl
  | cons ch chunks ih => exact ⟨.shapeOnly, advances_shapeOnly _ _ _, ih⟩

theorem acceptsSignatures_shapeOnly
    (mode : DecoderMode) (F : Frames) :
  AcceptsSignatures c .shapeOnly mode F
  := ⟨.shapeOnly, .shapeOnly, follows_shapeOnly _ _, advances_shapeOnly _ _ _,
    fun _ _ _ _ => rfl⟩

namespace AwsChunkedDecoder

variable {α : Type} {s s' : AwsChunkedDecoder K}

/-! ### What is written stays written -/

/-- The file has not become shorter. -/
def Grows (s s' : AwsChunkedDecoder K) : Prop :=
  s.writer.written.length ≤ s'.writer.written.length

instance : Std.Refl (Grows (K := K)) where
  refl _ := le_rfl

instance : IsTrans (AwsChunkedDecoder K) Grows where
  trans _ _ _ h h' := le_trans h h'

theorem Quiet.grows
    (h : Quiet s s') :
  Grows s s'
  := by
  rw [Grows, h.writer]

theorem moves_counters
    {f : AwsChunkedDecoder K → AwsChunkedDecoder K} (h : ∀ s, (f s).writer = s.writer) :
  Moves Grows (modify f : Dec K Unit)
  := by
  apply moves_modify
  intro s
  rw [Grows, h]

theorem moves_toWriter
    (part : Bytes) :
  Moves Grows (toWriter part : Dec K Unit)
  := by
  apply moves_attempt
  intro s
  change s.writer.written.length ≤ (s.writer.writeAll part).2.written.length
  rw [Sink.writeAll]
  split
  next => simp
  next =>
    split
    next => simp
    next => simp

theorem moves_copyRemaining
    (fuel : ℕ) (remaining : UInt64) (chunkHasher : Bytes) :
  Moves Grows (copyRemaining fuel remaining chunkHasher : Dec K Bytes)
  := by
  induction fuel generalizing remaining chunkHasher with
  | zero => exact moves_pure _
  | succ fuel ih =>
      rw [copyRemaining]
      split
      next => exact moves_pure _
      next =>
        exact ((moves_fromInner _ _).mono fun _ _ => Quiet.grows).bind fun _ =>
          (moves_require _ _).bind fun _ => (moves_counters (by intro; rfl)).bind fun _ =>
          (moves_toWriter _).bind fun _ => (moves_counters (by intro; rfl)).bind fun _ => ih _ _

/-- What is done with a chunk after its payload has been copied. -/
theorem moves_afterCopy
    (decodedLen : UInt64) (parsed : ParsedChunkHeader) (chunkSha : Bytes) :
  Moves Grows (do
    verifyIfSigned c (Text.hexEncode chunkSha) parsed.signatureHex
    expectCrlf
    note (2 ^ 64 ≤ decodedLen.toNat + parsed.size.toNat)
    modify fun s =>
      { s with
        decodedLen := s.decodedLen + parsed.size
        previousDataChunkSize := some parsed.size }
    let chunkIndex ← reads (·.chunkIndex)
    note (2 ^ 64 ≤ chunkIndex.toNat + 1)
    modify fun s => { s with chunkIndex := s.chunkIndex + 1 } : Dec K Unit)
  := ((moves_verifyIfSigned _ _).mono fun _ _ => Quiet.grows).bind fun _ =>
    (moves_expectCrlf.mono fun _ _ => Quiet.grows).bind fun _ =>
    (moves_counters (by intro; rfl)).bind fun _ => (moves_counters (by intro; rfl)).bind fun _ =>
    (moves_reads _).bind fun _ => (moves_counters (by intro; rfl)).bind fun _ =>
    moves_counters (by intro; rfl)

theorem moves_checkPreviousChunk :
  Moves Grows (checkPreviousChunk : Dec K Unit)
  := by
  refine (moves_reads _).bind fun previous => ?_
  cases previous with
  | none => exact moves_pure _
  | some size =>
      simp only
      split
      next =>
        exact (moves_reads _).bind fun _ => (moves_counters (by intro; rfl)).bind fun _ =>
          moves_throw _
      next => exact moves_pure _

theorem moves_decodeData
    (parsed : ParsedChunkHeader) :
  Moves Grows (decodeData c parsed)
  := moves_checkPreviousChunk.bind fun _ => (moves_reads _).bind fun _ =>
    (moves_reads _).bind fun decodedLen => (moves_require _ _).bind fun _ =>
    ((moves_copyRemaining _ _ _).bind fun _ => moves_pure _).bind fun chunkSha =>
    moves_afterCopy decodedLen parsed chunkSha

theorem moves_decodeChunk :
  Moves Grows (decodeChunk c)
  := by
  refine (moves_reads _).bind fun mode =>
    ((moves_readHeader _).mono fun _ _ => Quiet.grows).bind fun parsed => ?_
  split
  next => exact ((moves_finalize _).mono fun _ _ => Quiet.grows).bind fun _ => moves_pure _
  next => exact (moves_decodeData _).bind fun _ => moves_pure _

theorem moves_decodeLoop
    (fuel : ℕ) :
  Moves Grows (decodeLoop c fuel)
  := by
  induction fuel with
  | zero => exact moves_throw _
  | succ fuel ih =>
      refine moves_decodeChunk.bind fun result => ?_
      cases result with
      | none => exact ih
      | some summary => exact moves_pure _

/-! ### Payload beyond the greatest machine word -/

/-- A chunk that the checks let through is written as far as it is there. -/
theorem le_written_of_decodeData
    {parsed : ParsedChunkHeader} (hroom : s.writer.room = none)
    (hprev : ∀ p ∈ s.previousDataChunkSize, 8192 ≤ p.toNat)
    (hle : (saturatingAdd s.decodedLen parsed.size).toNat ≤ s.declaredDecodedLen.toNat) :
  s.writer.written.length + min parsed.size.toNat s.inner.bytes.length
    ≤ (exec (decodeData c parsed) s).2.writer.written.length
  := by
  have hcheck : exec checkPreviousChunk s = (.ok (), s) :=
    returns_checkPreviousChunk.mpr ⟨hprev, rfl⟩
  have hfits : decide (saturatingAdd s.decodedLen parsed.size ≤ s.declaredDecodedLen) = true :=
    decide_eq_true (UInt64.le_iff_toNat_le.mpr hle)
  have hrun : exec (decodeData c parsed) s = exec (do
      let chunkSha ← copyChunkPayload c parsed.size
      verifyIfSigned c (Text.hexEncode chunkSha) parsed.signatureHex
      expectCrlf
      note (2 ^ 64 ≤ s.decodedLen.toNat + parsed.size.toNat)
      modify fun s =>
        { s with
          decodedLen := s.decodedLen + parsed.size
          previousDataChunkSize := some parsed.size }
      let chunkIndex ← reads (·.chunkIndex)
      note (2 ^ 64 ≤ chunkIndex.toNat + 1)
      modify fun s => { s with chunkIndex := s.chunkIndex + 1 } : Dec K Unit) s := by
    rw [decodeData, exec_bind, hcheck]
    simp only [exec_bind, exec_reads, exec_require, hfits, if_true]
  have hcopy := (@wrote_copyRemaining K s parsed.size.toNat parsed.size [] le_rfl).ge hroom
  rw [hrun]
  have hpure := Moves.after (R := Grows) (p := copyRemaining parsed.size.toNat parsed.size [])
    (q := fun chunkHasher => (pure (c.sha256 chunkHasher) : Dec K Bytes)) (fun _ => moves_pure _) s
  exact hcopy.trans (le_trans hpure (Moves.after (moves_afterCopy s.decodedLen parsed) s))

variable {inner : Reader} {declared : UInt64} {mode : DecoderMode} {writer : Sink}

/-- A body that overruns the greatest machine word is written beyond a declared length that is
this word. -/
theorem declared_lt_written
    (h : Overruns c mode declared inner.bytes) (hroom : writer.room = none) :
  writer.written.length + declared.toNat <
    (exec (decodeToWriter c)
      (withModeAndSignaturePolicy inner declared mode .shapeOnly writer)).2.writer.written.length
  := by
  obtain ⟨hdeclared, chunks, sizeField, signature, rest, n, hover⟩ := h
  have hzero : (0 : UInt64).toNat = 0 := rfl
  have hbefore := hover.before
  have hsize := hover.size
  have hthere := hover.there
  have hn : (UInt64.ofNat n).toNat = n := UInt64.toNat_ofNat_of_lt' hover.header.size.lt
  obtain ⟨s₁, hreach, hrun⟩ := exists_reached
    (s := withModeAndSignaturePolicy inner declared mode .shapeOnly writer) (c := c)
    fed_withModeAndSignaturePolicy hover.framed hover.whole hroom
    (nonFinalSizes_none.mpr fun ch hch => hover.large ch (List.mem_of_mem_dropLast hch))
    (by
      change (0 : UInt64).toNat + (payload chunks).length ≤ declared.toNat
      omega) (follows_shapeOnly _ _)
  have hmode : s₁.mode = mode := hreach.mode
  have hprev := hreach.previous nofun hover.large
  have hdecoded : s₁.decodedLen.toNat = (payload chunks).length := by
    rw [hreach.decodedLen]
    exact Nat.zero_add _
  have hbound : s₁.declaredDecodedLen = declared := hreach.declared
  have hwritten : s₁.writer.written.length = writer.written.length + (payload chunks).length := by
    rw [hreach.writer]
    exact List.length_append
  -- The header of the chunk is read, and the chunk is let through.
  obtain ⟨r, hread, hr, -⟩ := (recognises_readHeader c mode.signedChunkAlgorithm).complete
    (a := ⟨UInt64.ofNat n, mode.signedChunkAlgorithm.map fun _ => signature⟩) hreach.bytes
    ⟨sizeField, signature, rfl, by simpa only [hn] using hover.header, rfl⟩
  have hne : UInt64.ofNat n ≠ 0 := by
    intro h0
    rw [h0] at hn
    omega
  have hdata := @le_written_of_decodeData K c { s₁ with inner := r }
    ⟨UInt64.ofNat n, mode.signedChunkAlgorithm.map fun _ => signature⟩
    (by change s₁.writer.room = none; rw [hreach.writer]) hprev
    (by
      change (saturatingAdd s₁.decodedLen (UInt64.ofNat n)).toNat ≤ s₁.declaredDecodedLen.toNat
      rw [toNat_saturatingAdd, hbound]
      omega)
  have hturn : exec (decodeChunk c) s₁ = exec (do
      decodeData c ⟨UInt64.ofNat n, mode.signedChunkAlgorithm.map fun _ => signature⟩
      pure none : Dec K (Option DecodedSummary)) { s₁ with inner := r } := by
    rw [Returns] at hread
    rw [← hmode] at hread ⊢
    rw [decodeChunk, exec_bind, exec_reads]
    simp only
    rw [exec_bind, hread]
    change exec (if UInt64.ofNat n = 0 then _ else _) _ = _
    rw [if_neg hne]
  have hchunk : writer.written.length + declared.toNat <
      (exec (decodeChunk c) s₁).2.writer.written.length := by
    rw [hturn]
    refine lt_of_lt_of_le ?_ (Moves.after (R := Grows) (fun _ => moves_pure _) _)
    refine lt_of_lt_of_le ?_ hdata
    change _ < s₁.writer.written.length + min (UInt64.ofNat n).toNat r.bytes.length
    rw [hwritten, hr, hn]
    omega
  -- What follows in the run only adds to the file.
  have hfuel : chunks.length ≤ inner.bytes.length := by
    rw [hover.whole, List.length_append]
    exact (length_le_flatMap_bytes _ _).trans (Nat.le_add_right _ _)
  obtain ⟨k, hk⟩ := Nat.exists_eq_add_of_le hfuel
  have hall : exec (decodeToWriter c)
      (withModeAndSignaturePolicy inner declared mode .shapeOnly writer)
      = exec (decodeLoop c (k + 1)) s₁ := by
    rw [← hrun, decodeToWriter, exec_bind, exec_reads]
    change exec (decodeLoop c (inner.bytes.length + 1)) _ = _
    rw [hk, Nat.add_assoc]
  rw [hall]
  refine lt_of_lt_of_le hchunk (Moves.after (R := Grows) (fun result => ?_) s₁)
  cases result with
  | none => exact moves_decodeLoop k
  | some summary => exact moves_pure _

/-! ### Strictness -/

/-- The sizes of the chunks add up to the declared length in the arithmetic of machine words. -/
theorem Fits.length_mod
    {n : UInt64} {chunks : List Chunk} (h : Fits declared n chunks) :
  (n.toNat + (payload chunks).length) % 2 ^ 64 = declared.toNat
  := by
  induction chunks generalizing n with
  | nil =>
      have hn : n = declared := h
      rw [← hn]
      exact Nat.mod_eq_of_lt n.toNat_lt
  | cons ch chunks ih =>
      have hrest := ih h.2
      rw [UInt64.toNat_add, UInt64.toNat_ofNat'] at hrest
      rw [payload, List.flatMap_cons, List.length_append, ← hrest, payload]
      omega

end AwsChunkedDecoder

open AwsChunkedDecoder

variable (c) in
/-- What is asked of the decoder for a mode, a declared length and the bytes of a body, for every
stream of these bytes and every file: it accepts well-formed bodies only, it writes no more than
the declared length, and no counter leaves its range. -/
structure Strict (mode : DecoderMode) (declared : UInt64) (bytes : Bytes) : Prop where
  accepted : ∀ (inner : Reader) (writer : Sink) (summary : DecodedSummary)
    (s' : AwsChunkedDecoder K), inner.bytes = bytes →
    Returns (decodeToWriter c) (withModeAndSignaturePolicy inner declared mode .shapeOnly writer)
      summary s' →
    ∃ F : Frames, FramesOk c Text.HexNumber mode declared.toNat F ∧
      bytes = F.bytes mode.signedChunkAlgorithm
  written : ∀ (inner : Reader) (writer : Sink), inner.bytes = bytes →
    (exec (decodeToWriter c)
      (withModeAndSignaturePolicy inner declared mode .shapeOnly writer)).2.writer.written.length
      ≤ writer.written.length + declared.toNat
  wrapped : ∀ (inner : Reader) (writer : Sink), inner.bytes = bytes →
    (exec (decodeToWriter c)
      (withModeAndSignaturePolicy inner declared mode .shapeOnly writer)).2.wrapped = false

/-- The size fields of a body. -/
def Frames.sizeFields (F : Frames) : List Bytes := F.zeroField :: F.chunks.map Chunk.sizeField

variable (c) in
/-- The bytes are those of a body that is well formed but for a plus sign before some size. -/
def SignedSize (mode : DecoderMode) (declared : UInt64) (bytes : Bytes) : Prop :=
  ∃ F : Frames, FramesOk c ParsedSize mode declared.toNat F ∧
    bytes = F.bytes mode.signedChunkAlgorithm ∧ ∃ field ∈ F.sizeFields, field.head? = some 43

/-- A size without a plus sign is written in digits. -/
theorem hexNumber_of_parsedSize
    {field : Bytes} {n : ℕ} (h : ParsedSize field n) (hplus : field.head? ≠ some 43) :
  Text.HexNumber field n
  := by
  obtain hn | ⟨ds, rfl, hn⟩ := Text.fromStrRadix16_eq_some.mp h
  · exact hn
  · exact absurd rfl hplus

theorem FramesOk.hexNumber
    {mode : DecoderMode} {n : ℕ} {F : Frames} (h : FramesOk c ParsedSize mode n F)
    (hplus : ∀ field ∈ F.sizeFields, field.head? ≠ some 43) :
  FramesOk c Text.HexNumber mode n F
  where
  chunks := by
    intro ch hch
    have hok := h.chunks ch hch
    have hfield : ch.sizeField.head? ≠ some 43 :=
      hplus _ (List.mem_cons_of_mem _ (List.mem_map_of_mem hch))
    exact ⟨hok.nonempty, hok.header.mono fun hs => hexNumber_of_parsedSize hs hfield⟩
  large := h.large
  zero := h.zero.mono fun hs => hexNumber_of_parsedSize hs (hplus _ List.mem_cons_self)
  ending := h.ending
  length := h.length

theorem FramesOk.parsedSize
    {mode : DecoderMode} {n : ℕ} {F : Frames} (h : FramesOk c Text.HexNumber mode n F) :
  FramesOk c ParsedSize mode n F
  where
  chunks := by
    intro ch hch
    have hok := h.chunks ch hch
    exact ⟨hok.nonempty, hok.header.mono parsedSize_of_hexNumber⟩
  large := h.large
  zero := h.zero.mono parsedSize_of_hexNumber
  ending := h.ending
  length := h.length

theorem head_ne_plus_of_hexNumber
    {field : Bytes} {n : ℕ} (h : Text.HexNumber field n) :
  field.head? ≠ some 43
  := by
  intro hhead
  have hdigit := h.digits 43 (List.mem_of_head? hhead)
  exact absurd hdigit (by decide)

/-- In a body whose sizes are written in digits, no size field starts with a plus sign. -/
theorem FramesOk.head_ne_plus
    {mode : DecoderMode} {n : ℕ} {F : Frames} (h : FramesOk c Text.HexNumber mode n F) :
  ∀ field ∈ F.sizeFields, field.head? ≠ some 43
  := by
  intro field hfield
  rcases List.mem_cons.mp hfield with rfl | hfield
  · exact head_ne_plus_of_hexNumber h.zero.size
  · obtain ⟨ch, hch, rfl⟩ := List.mem_map.mp hfield
    exact head_ne_plus_of_hexNumber (h.chunks ch hch).header.size

/-- A body with a plus sign before some size is not a body whose sizes are written in digits. -/
theorem SignedSize.not_hexNumber
    {mode : DecoderMode} {declared : UInt64} {bytes : Bytes} (h : SignedSize c mode declared bytes) :
  ¬ ∃ F : Frames, FramesOk c Text.HexNumber mode declared.toNat F ∧
    bytes = F.bytes mode.signedChunkAlgorithm
  := by
  obtain ⟨F, hok, hbytes, field, hfield, hplus⟩ := h
  rintro ⟨G, hG, hGbytes⟩
  obtain rfl := frames_unique hok.toFramed hG.parsedSize.toFramed (hbytes.symm.trans hGbytes)
  exact hG.head_ne_plus field hfield hplus

/-- The decoder is strict on a body if and only if the body has no plus sign before a size and
does not overrun the greatest machine word. -/
theorem strict_iff
    {mode : DecoderMode} {declared : UInt64} {bytes : Bytes} :
  Strict c mode declared bytes ↔
    ¬ SignedSize c mode declared bytes ∧ ¬ Overruns c mode declared bytes
  := by
  constructor
  · intro h
    constructor
    · intro hsigned
      obtain ⟨F, hok, hbytes, -⟩ := id hsigned
      obtain ⟨s', hrun, -⟩ := @exists_decodeToWriter K c ⟨[bytes], false⟩ declared mode .shapeOnly
        ⟨[], none⟩ F hok ((List.append_nil _).trans hbytes) rfl rfl
        (acceptsSignatures_shapeOnly mode F)
      exact hsigned.not_hexNumber
        (h.accepted ⟨[bytes], false⟩ ⟨[], none⟩ _ s' (List.append_nil _) hrun)
    · intro hover
      have hbytes : Reader.bytes ⟨[bytes], false⟩ = bytes := List.append_nil _
      have hle := h.written ⟨[bytes], false⟩ ⟨[], none⟩ hbytes
      rw [← hbytes] at hover
      exact absurd hle (not_le.mpr (declared_lt_written hover rfl))
  · rintro ⟨hsigned, hover⟩
    have hsafe : ∀ (inner : Reader) (writer : Sink), inner.bytes = bytes →
        (exec (decodeToWriter c)
          (withModeAndSignaturePolicy inner declared mode .shapeOnly writer)).2.writer.written.length
          ≤ writer.written.length + declared.toNat ∧
        (exec (decodeToWriter c)
          (withModeAndSignaturePolicy inner declared mode .shapeOnly writer)).2.wrapped = false := by
      intro inner writer hbytes
      have hstart : Counted c declared bytes writer.written.length
          (withModeAndSignaturePolicy inner declared mode .shapeOnly writer) [] :=
        ⟨hbytes.symm, nofun, nofun, rfl, rfl, rfl, rfl, rfl, rfl, Nat.zero_le _⟩
      exact hstart.run hover _
    constructor
    · intro inner writer summary s' hbytes hrun
      obtain ⟨F, hF, hfail, hframed, hfits, -, -, hw⟩ := frames_of_decodeToWriter hrun
      have hle := (hsafe inner writer hbytes).1
      rw [Returns] at hrun
      rw [hrun] at hle
      have hmod := hfits.length_mod
      have hlen : F.body.length = declared.toNat := by
        have hlt := declared.toNat_lt
        have hzero : (0 : UInt64).toNat = 0 := rfl
        simp only [hw, List.length_append] at hle
        rw [hzero, Nat.zero_add] at hmod
        rw [Frames.body] at hle ⊢
        rw [← hmod]
        exact (Nat.mod_eq_of_lt (by omega)).symm
      have hok : FramesOk c ParsedSize mode declared.toNat F := ⟨hframed, hlen⟩
      use F
      refine ⟨hok.hexNumber ?_, hbytes.symm.trans hF⟩
      intro field hfield hplus
      exact hsigned ⟨F, hok, hbytes.symm.trans hF, field, hfield, hplus⟩
    · intro inner writer hbytes
      exact (hsafe inner writer hbytes).1
    · intro inner writer hbytes
      exact (hsafe inner writer hbytes).2

/-- A body of one chunk, whose size is written with a plus sign, is accepted. -/
theorem not_strict_plus :
  ¬ Strict (sampleCrypto longer) (.nonTrailer .hmacSha256) 5
    ((helloFrames (ascii "+5")).bytes (some .hmacSha256))
  := by
  have hsize : Text.fromStrRadix16 (ascii "+5") = some 5 := by decide
  have hlen : (ascii "+5").length ≤ 2 := by decide
  have hplus : (ascii "+5").head? = some 43 := by decide
  have hsigned : SignedSize (sampleCrypto longer) (.nonTrailer .hmacSha256) 5
      ((helloFrames (ascii "+5")).bytes (some .hmacSha256)) :=
    ⟨helloFrames (ascii "+5"), ⟨helloFrames_framed hsize hlen, rfl⟩, rfl, ascii "+5",
      List.mem_cons_of_mem _ List.mem_cons_self, hplus⟩
  obtain ⟨s', hrun, -⟩ := @exists_decodeToWriter Unit (sampleCrypto longer)
    (helloReader (ascii "+5")) 5 (.nonTrailer .hmacSha256) .shapeOnly ⟨[], none⟩
    (helloFrames (ascii "+5")) ⟨helloFrames_framed hsize hlen, rfl⟩ (List.append_nil _) rfl rfl
    (acceptsSignatures_shapeOnly _ _)
  intro h
  exact hsigned.not_hexNumber (h.accepted (helloReader (ascii "+5")) ⟨[], none⟩ _ s'
    (List.append_nil _) hrun)

end TinyS3Proxy
