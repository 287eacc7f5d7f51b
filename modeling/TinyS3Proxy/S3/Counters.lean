import TinyS3Proxy.S3.Unambiguous

/-!
# The counters of the decoder

What the decoder writes and how far its counters go, on every body and however the run ends. The
length of the next chunk is added to a counter that stays at the greatest machine word when the
sum is beyond it, so a body that overruns this word gets past the comparison with a declared length
that is this word. On every other body no more than the declared length is written, and the
counters stay in their range.
-/

namespace TinyS3Proxy

open Text (Bytes Reader ascii lf crlf)
open Effect

namespace AwsChunkedDecoder

variable {K α : Type} {c : Crypto K} {s s' : AwsChunkedDecoder K}

/-! ### Code that does not write -/

/-- The file has not changed, and no counter has left its range. -/
structure Quiet (s s' : AwsChunkedDecoder K) : Prop where
  writer : s'.writer = s.writer
  wrapped : s'.wrapped = s.wrapped

instance : Std.Refl (Quiet (K := K)) where
  refl _ := ⟨rfl, rfl⟩

instance : IsTrans (AwsChunkedDecoder K) Quiet where
  trans _ _ _ h h' := ⟨h'.writer.trans h.writer, h'.wrapped.trans h.wrapped⟩

theorem moves_fromInner
    {ε : Type} (f : Reader → Except ε α × Reader) (fault : ε → AwsChunkedError) :
  Moves Quiet (fromInner f fault : Dec K α)
  := moves_attempt fun _ => ⟨rfl, rfl⟩

theorem moves_readHeader
    (a : Option SignedChunkAlgorithm) :
  Moves Quiet (readHeader c a)
  := ((moves_fromInner _ _).bind fun _ => (moves_demand _ _).bind fun header =>
    (moves_require _ _).bind fun _ => moves_pure header).bind fun _ => moves_outcome _

theorem moves_expectCrlf :
  Moves Quiet (expectCrlf : Dec K Unit)
  := (moves_fromInner _ _).bind fun _ => moves_require _ _

theorem moves_expectEof :
  Moves Quiet (expectEof : Dec K Unit)
  := (moves_fromInner _ _).bind fun _ => moves_require _ _

theorem moves_readTrailerFields
    (expectedName : Bytes) (fault : AwsChunkedError → AwsChunkedError)
    (missing : Bytes → AwsChunkedError) :
  Moves Quiet (readTrailerFields expectedName fault missing : Dec K (Bytes × Bytes))
  := ((moves_fromInner _ _).bind fun _ => (moves_demand _ _).bind fun line =>
    (moves_require _ _).bind fun _ => (moves_require _ _).bind fun _ =>
      moves_pure line).bind fun _ => moves_demand _ _

theorem moves_readAndValidateTrailer
    (expectedName : Bytes) (algorithm : ChecksumAlgorithm) :
  Moves Quiet (readAndValidateTrailer c expectedName algorithm)
  := (moves_readTrailerFields _ _ _).bind fun _ => (moves_require _ _).bind fun _ =>
    (moves_outcome _).bind fun _ => (moves_require _ _).bind fun _ => moves_pure _

theorem moves_readAndValidateTrailerSignature
    (algorithm : SignedChunkAlgorithm) :
  Moves Quiet (readAndValidateTrailerSignature c algorithm)
  := (moves_readTrailerFields _ _ _).bind fun _ => (moves_require _ _).bind fun _ =>
    (moves_outcome _).bind fun _ => moves_pure _

theorem moves_verifyTrailerSignature
    (header : ChecksumHeader) :
  Moves Quiet (verifyTrailerSignature c header)
  := (moves_reads _).bind fun _ => (moves_demand _ _).bind fun algorithm =>
    (moves_readAndValidateTrailerSignature algorithm).bind fun _ =>
      (moves_reads _).bind fun _ => moves_outcome _

theorem moves_end
    (x : α) :
  Moves Quiet (do expectCrlf; expectEof; pure x : Dec K α)
  := moves_expectCrlf.bind fun _ => moves_expectEof.bind fun _ => moves_pure x

theorem moves_readTrailer :
  Moves Quiet (readTrailer c)
  := by
  refine (moves_reads _).bind fun mode => ?_
  cases mode with
  | nonTrailer a => exact moves_end none
  | unsignedTrailer name a =>
      exact (moves_readAndValidateTrailer name a).bind fun header => moves_end (some header)
  | signedTrailer name a b =>
      exact (moves_readAndValidateTrailer name a).bind fun header =>
        (moves_verifyTrailerSignature header).bind fun _ => moves_end (some header)

theorem moves_verifyIfSigned
    (hashHex : Bytes) (signatureHex : Option Bytes) :
  Moves Quiet (verifyIfSigned c hashHex signatureHex)
  := by
  refine (moves_reads _).bind fun mode => ?_
  split
  next =>
    exact (moves_demand _ _).bind fun _ => (moves_reads _).bind fun _ => (moves_reads _).bind fun _ =>
      (moves_outcome _).bind fun _ => moves_modify fun _ => ⟨rfl, rfl⟩
  next => exact moves_pure ()

theorem moves_checkTrailer
    (sha256 : Bytes) (algoHasher : Option Bytes) (header : ChecksumHeader) :
  Moves Quiet (checkTrailer c sha256 algoHasher header)
  := by
  refine (moves_outcome _).bind fun expected => ?_
  have hside : ∀ f : Bytes → Bytes, Moves Quiet (do
      let hasher ← demand algoHasher .panicked
      let computed ← pure (f hasher)
      require (computed = expected) (.trailerChecksumMismatch header.name) : Dec K Unit) :=
    fun f => (moves_demand _ _).bind fun _ => (moves_pure _).bind fun _ => moves_require _ _
  cases header.algorithm with
  | sha256 => exact (moves_pure _).bind fun _ => moves_require _ _
  | crc32 => exact hside _
  | crc32C => exact hside _
  | crc64Nvme => exact hside _
  | sha1 => exact hside _

theorem moves_finalize
    (signatureHex : Option Bytes) :
  Moves Quiet (finalize c signatureHex)
  := by
  refine (moves_verifyIfSigned _ _).bind fun _ => (moves_reads _).bind fun _ =>
    moves_readTrailer.bind fun trailer => (moves_reads _).bind fun _ => (moves_reads _).bind fun _ =>
      (moves_require _ _).bind fun _ => (moves_reads _).bind fun _ => ?_
  cases trailer with
  | none => exact moves_pure _
  | some header => exact (moves_checkTrailer _ _ _).bind fun _ => moves_pure _

/-! ### Payload -/

theorem written_of_writeAll_error
    {part : Bytes} {w w' : Sink} {u : Unit} (h : w.writeAll part = (.error u, w')) :
  w.room ≠ none ∧ w'.written.length ≤ w.written.length + part.length
  := by
  rw [Sink.writeAll] at h
  split at h
  next => cases (Prod.mk.inj h).1
  next n hroom =>
    split at h
    next => cases (Prod.mk.inj h).1
    next =>
      obtain ⟨-, rfl⟩ := Prod.mk.inj h
      rw [hroom, List.length_append, List.length_take]
      exact ⟨Option.some_ne_none n, by omega⟩

theorem writeAll_of_room
    {part : Bytes} {w w' : Sink} {u : Unit} (hroom : w.room = none)
    (h : w.writeAll part = (.ok u, w')) :
  w'.room = none
  := by
  rw [Sink.writeAll, hroom] at h
  obtain ⟨-, rfl⟩ := Prod.mk.inj h
  rfl

/-- From `s` to `s'`, up to `n` bytes were written, and all of them if there is no limit. -/
structure Wrote (n : ℕ) (s s' : AwsChunkedDecoder K) : Prop where
  wrapped : s'.wrapped = s.wrapped
  le : s'.writer.written.length ≤ s.writer.written.length + n
  ge : s.writer.room = none → s.writer.written.length + n ≤ s'.writer.written.length

theorem Quiet.wrote
    (h : Quiet s s') :
  Wrote 0 s s'
  where
  wrapped := h.wrapped
  le := by rw [h.writer]; exact le_rfl
  ge := by
    intro _
    rw [h.writer]
    exact le_rfl

/-- However copying ends, what was there of the payload has been written. -/
theorem wrote_copyRemaining
    {fuel : ℕ} {remaining : UInt64} {chunkHasher : Bytes} (hf : remaining.toNat ≤ fuel) :
  Wrote (min remaining.toNat s.inner.bytes.length) s
    (exec (copyRemaining fuel remaining chunkHasher) s).2
  := by
  induction fuel generalizing s remaining chunkHasher with
  | zero =>
      rw [Nat.le_zero.mp hf, Nat.zero_min]
      exact Quiet.wrote ⟨rfl, rfl⟩
  | succ fuel ih =>
      by_cases hne : remaining = 0
      · rw [copyRemaining, if_pos hne, hne, UInt64.toNat_zero, Nat.zero_min]
        exact Quiet.wrote ⟨rfl, rfl⟩
      · obtain ⟨hpos, hle⟩ := want_bounds hne
        rw [exec_copyRemaining hne]
        rcases hr : s.inner.read (min remaining copyBuffer).toNat with ⟨_ | part, r⟩
        · rw [Reader.end_of_read_error hpos hr, List.length_nil, Nat.min_zero]
          exact Quiet.wrote ⟨rfl, rfl⟩
        · obtain ⟨hbytes, hlen, -⟩ := Reader.bytes_of_read hr
          simp only
          split
          next hpart =>
            rw [hpart] at hr
            rw [(Reader.end_of_read hpos hr).1, List.length_nil, Nat.min_zero]
            exact Quiet.wrote ⟨rfl, rfl⟩
          next hpart =>
            have hplen : 0 < part.length := List.length_pos_of_ne_nil hpart
            have hsub := toNat_remaining (hlen.trans hle)
            have htotal : s.inner.bytes.length = part.length + r.bytes.length := by
              rw [hbytes, List.length_append]
            rcases hw : s.writer.writeAll part with ⟨_ | _, w⟩
            · obtain ⟨hroom, hwritten⟩ := written_of_writeAll_error hw
              refine ⟨rfl, ?_, fun h => absurd h hroom⟩
              change w.written.length ≤ _
              omega
            · have hwrap : (s.wrapped || decide (remaining.toNat < part.length)) = s.wrapped := by
                rw [decide_eq_false (by omega), Bool.or_false]
              have hwritten : w.written.length = s.writer.written.length + part.length := by
                rw [written_of_writeAll hw, List.length_append]
              rw [hwrap]
              have hrest := @ih (s.copied r w part) (remaining - UInt64.ofNat part.length)
                (chunkHasher ++ part) (by omega)
              have hcopied : (s.copied r w part).writer.written.length
                  + min (remaining - UInt64.ofNat part.length).toNat r.bytes.length
                  = s.writer.written.length
                    + min remaining.toNat s.inner.bytes.length := by
                change w.written.length + _ = _
                omega
              refine ⟨hrest.wrapped, hcopied ▸ hrest.le, ?_⟩
              intro hroom
              rw [← hcopied]
              exact hrest.ge (writeAll_of_room hroom hw)

/-! ### Chunks that are not taken -/

/-- A chunk is turned down for the one before it when that one was too small. -/
theorem fails_checkPreviousChunk
    {e : AwsChunkedError} (h : Fails checkPreviousChunk s e s') :
  s'.writer = s.writer ∧
    s'.wrapped = (s.wrapped || decide (s.chunkIndex.toNat < 1)) ∧
    s.previousDataChunkSize.isSome
  := by
  obtain h | ⟨previous, s₁, hreads, h⟩ := fails_bind.mp h
  · exact absurd h not_fails_reads
  · obtain ⟨rfl, rfl⟩ := returns_reads.mp hreads
    cases hprev : s₁.previousDataChunkSize with
    | none =>
        rw [hprev] at h
        exact absurd h not_fails_pure
    | some size =>
        rw [hprev] at h
        simp only at h
        split at h
        next =>
          obtain h | ⟨i, s₂, hi, h⟩ := fails_bind.mp h
          · exact absurd h not_fails_reads
          · obtain ⟨rfl, rfl⟩ := returns_reads.mp hi
            obtain h | ⟨u, s₃, hnote, h⟩ := fails_bind.mp h
            · exact absurd h not_fails_modify
            · obtain rfl := returns_modify.mp hnote
              obtain ⟨-, rfl⟩ := fails_throw.mp h
              exact ⟨rfl, rfl, rfl⟩
        next => exact absurd h not_fails_pure

/-- A chunk whose header has been read fails before anything is written, or after what there is
of its payload. -/
theorem fails_decodeData
    {parsed : ParsedChunkHeader} {e : AwsChunkedError} (h : Fails (decodeData c parsed) s e s')
    (hindex : s.previousDataChunkSize.isSome → 1 ≤ s.chunkIndex.toNat) :
  Quiet s s' ∨
    (∀ p ∈ s.previousDataChunkSize, 8192 ≤ p.toNat) ∧
      (saturatingAdd s.decodedLen parsed.size).toNat ≤ s.declaredDecodedLen.toNat ∧
      Wrote (min parsed.size.toNat s.inner.bytes.length) s s'
  := by
  rcases fails_bind.mp h with h₀ | ⟨u₀, s₀, hprev, h₀⟩
  · obtain ⟨hw, hwrapped, hsome⟩ := fails_checkPreviousChunk h₀
    left
    refine ⟨hw, ?_⟩
    have hpos := hindex hsome
    rw [hwrapped, decide_eq_false (by omega), Bool.or_false]
  obtain ⟨hprev, rfl⟩ := returns_checkPreviousChunk.mp hprev
  rcases fails_bind.mp h₀ with h₁ | ⟨declared, s₁, hd, h₁⟩
  · exact absurd h₁ not_fails_reads
  obtain ⟨rfl, rfl⟩ := returns_reads.mp hd
  rcases fails_bind.mp h₁ with h₂ | ⟨decoded, s₂, hd, h₂⟩
  · exact absurd h₂ not_fails_reads
  obtain ⟨rfl, rfl⟩ := returns_reads.mp hd
  rcases fails_bind.mp h₂ with h₃ | ⟨u₃, s₃, hle, h₃⟩
  · obtain ⟨-, -, rfl⟩ := fails_require.mp h₃
    exact Or.inl ⟨rfl, rfl⟩
  obtain ⟨hle, rfl⟩ := returns_require.mp hle
  right
  refine ⟨hprev, UInt64.le_iff_toNat_le.mp (of_decide_eq_true hle), ?_⟩
  have hcopy := @wrote_copyRemaining K s₃ parsed.size.toNat parsed.size [] le_rfl
  rcases fails_bind.mp h₃ with h₄ | ⟨sha, s₄, hsha, h₄⟩
  · rcases fails_bind.mp h₄ with h₅ | ⟨hasher, s₄, -, h₅⟩
    · rw [Fails] at h₅
      rw [h₅] at hcopy
      exact hcopy
    · exact absurd h₅ not_fails_pure
  obtain ⟨hasher, s₅, hc, hp⟩ := returns_bind.mp hsha
  obtain ⟨-, rfl⟩ := returns_pure.mp hp
  rw [Returns] at hc
  rw [hc] at hcopy
  -- After the payload, the file is left alone.
  have hquiet : ∀ {t : AwsChunkedDecoder K}, Quiet s₄ t →
      Wrote (min parsed.size.toNat s₃.inner.bytes.length) s₃ t := by
    intro t ht
    refine ⟨ht.wrapped.trans hcopy.wrapped, ht.writer ▸ hcopy.le, ?_⟩
    rw [ht.writer]
    exact hcopy.ge
  rcases fails_bind.mp h₄ with h₅ | ⟨u₆, s₆, hv, h₅⟩
  · exact hquiet ((moves_verifyIfSigned _ _).of_fails h₅)
  have hver := (moves_verifyIfSigned _ _).of_returns hv
  rcases fails_bind.mp h₅ with h₆ | ⟨u₇, s₇, -, h₆⟩
  · exact hquiet (IsTrans.trans _ _ _ hver (moves_expectCrlf.of_fails h₆))
  exact absurd h₆ (by simp [note, fails_bind, not_fails_modify, not_fails_reads])

/-! ### Turns of the loop -/

/-- The turn that ends the loop does not write. -/
theorem quiet_of_decodeChunk
    {summary : DecodedSummary} (h : Returns (decodeChunk c) s (some summary) s') :
  Quiet s s'
  := by
  simp only [decodeChunk, returns_bind, returns_reads] at h
  obtain ⟨mode, s₁, ⟨rfl, rfl⟩, parsed, s₂, hread, h⟩ := h
  have hheader := (moves_readHeader _).of_returns hread
  split at h
  next =>
    obtain ⟨summary', s₃, hfin, h⟩ := returns_bind.mp h
    obtain ⟨-, rfl⟩ := returns_pure.mp h
    exact IsTrans.trans _ _ _ hheader ((moves_finalize _).of_returns hfin)
  next =>
    obtain ⟨u, s₃, -, h⟩ := returns_bind.mp h
    cases (returns_pure.mp h).1

/-- A turn that fails has written nothing, or what there is of the payload of a chunk that the
checks have let through. -/
theorem fails_decodeChunk
    {e : AwsChunkedError} (h : Fails (decodeChunk c) s e s')
    (hindex : s.previousDataChunkSize.isSome → 1 ≤ s.chunkIndex.toNat) :
  Quiet s s' ∨ ∃ sizeField signature rest, ∃ size : UInt64,
    s.inner.bytes = headerText s.mode.signedChunkAlgorithm sizeField signature ++ crlf ++ rest ∧
    HeaderOk c ParsedSize s.mode.signedChunkAlgorithm sizeField signature size.toNat ∧
    (∀ p ∈ s.previousDataChunkSize, 8192 ≤ p.toNat) ∧
    (saturatingAdd s.decodedLen size).toNat ≤ s.declaredDecodedLen.toNat ∧
    Wrote (min size.toNat rest.length) s s'
  := by
  rcases fails_bind.mp h with h₀ | ⟨mode, s₀, hmode, h₀⟩
  · exact absurd h₀ not_fails_reads
  obtain ⟨rfl, rfl⟩ := returns_reads.mp hmode
  rcases fails_bind.mp h₀ with h₁ | ⟨⟨size, sig⟩, s₁, hread, h₁⟩
  · exact Or.inl ((moves_readHeader _).of_fails h₁)
  have hheader := (moves_readHeader _).of_returns hread
  obtain ⟨front, r, rfl, hbytes, -, sizeField, signature, rfl, hok, -⟩ :=
    (recognises_readHeader c _).sound hread
  split at h₁
  next =>
    rcases fails_bind.mp h₁ with h₂ | ⟨summary, s₂, -, h₂⟩
    · exact Or.inl (IsTrans.trans _ _ _ hheader ((moves_finalize _).of_fails h₂))
    · exact absurd h₂ not_fails_pure
  next =>
    rcases fails_bind.mp h₁ with h₂ | ⟨u, s₂, -, h₂⟩
    · obtain hq | ⟨hprev, hle, hwrote⟩ := fails_decodeData h₂ hindex
      · exact Or.inl (IsTrans.trans _ _ _ hheader hq)
      · exact Or.inr ⟨sizeField, signature, r.bytes, size, hbytes, hok, hprev, hle,
          hwrote.wrapped, hwrote.le, hwrote.ge⟩
    · exact absurd h₂ not_fails_pure

/-! ### Runs of the loop -/

variable (c) in
/-- The body starts with chunks that another chunk follows, and with them the payload of that
chunk goes beyond the greatest machine word. -/
structure Overrun (a : Option SignedChunkAlgorithm) (bytes : Bytes) (chunks : List Chunk)
    (sizeField signature rest : Bytes) (n : ℕ) : Prop where
  whole : bytes = chunks.flatMap (Chunk.bytes a) ++
    (headerText a sizeField signature ++ crlf ++ rest)
  framed : ∀ ch ∈ chunks, ChunkOk c ParsedSize a ch
  large : ∀ ch ∈ chunks, 8192 ≤ ch.data.length
  header : HeaderOk c ParsedSize a sizeField signature n
  before : (payload chunks).length < 2 ^ 64
  size : 2 ^ 64 ≤ (payload chunks).length + n
  there : 2 ^ 64 ≤ (payload chunks).length + rest.length

variable (c) in
/-- The declared length is the greatest machine word, and the payload goes beyond it. -/
def Overruns (mode : DecoderMode) (declared : UInt64) (bytes : Bytes) : Prop :=
  declared.toNat = 2 ^ 64 - 1 ∧ ∃ chunks sizeField signature rest n,
    Overrun c mode.signedChunkAlgorithm bytes chunks sizeField signature rest n

variable (c) in
/-- The decoder has taken the chunks off the front of the body, and its counters are right. -/
structure Counted (declared : UInt64) (bytes : Bytes) (start : ℕ) (s : AwsChunkedDecoder K)
    (chunks : List Chunk) : Prop where
  whole : bytes = chunks.flatMap (Chunk.bytes s.mode.signedChunkAlgorithm) ++ s.inner.bytes
  framed : ∀ ch ∈ chunks, ChunkOk c ParsedSize s.mode.signedChunkAlgorithm ch
  large : ∀ ch ∈ chunks.dropLast, 8192 ≤ ch.data.length
  previous : s.previousDataChunkSize.map UInt64.toNat
    = chunks.getLast?.map fun ch => ch.data.length
  bound : s.declaredDecodedLen = declared
  decodedLen : s.decodedLen.toNat = (payload chunks).length
  chunkIndex : s.chunkIndex.toNat = chunks.length
  written : s.writer.written.length = start + (payload chunks).length
  wrapped : s.wrapped = false
  le : (payload chunks).length ≤ declared.toNat

theorem length_le_payload
    {a : Option SignedChunkAlgorithm} {chunks : List Chunk}
    (h : ∀ ch ∈ chunks, ChunkOk c ParsedSize a ch) :
  chunks.length ≤ (payload chunks).length
  := by
  induction chunks with
  | nil => exact le_rfl
  | cons ch chunks ih =>
      obtain ⟨hok, hrest⟩ := List.forall_mem_cons.mp h
      have hpos : 0 < ch.data.length := List.length_pos_of_ne_nil hok.nonempty
      have hle := ih hrest
      rw [payload, List.flatMap_cons, List.length_append, List.length_cons]
      rw [payload] at hle
      omega

namespace Counted

variable {declared : UInt64} {bytes : Bytes} {start : ℕ} {chunks : List Chunk}

/-- A chunk is followed by another one only if it is large. -/
theorem large_of_previous
    (h : Counted c declared bytes start s chunks)
    (hprev : ∀ p ∈ s.previousDataChunkSize, 8192 ≤ p.toNat) :
  ∀ ch ∈ chunks, 8192 ≤ ch.data.length
  := by
  have hmap := h.previous
  rcases List.eq_nil_or_concat chunks with rfl | ⟨front, last, rfl⟩
  · exact fun ch hch => absurd hch List.not_mem_nil
  · rw [List.concat_eq_append] at *
    have hlarge := h.large
    rw [List.dropLast_concat] at hlarge
    rw [List.getLast?_concat] at hmap
    intro ch hch
    rcases List.mem_append.mp hch with hch | hch
    · exact hlarge ch hch
    · obtain rfl := List.mem_singleton.mp hch
      obtain ⟨p, hp, hpl⟩ := Option.map_eq_some_iff.mp hmap
      exact (hprev p hp).trans hpl.le

theorem index_pos
    (h : Counted c declared bytes start s chunks) (hsome : s.previousDataChunkSize.isSome) :
  1 ≤ s.chunkIndex.toNat
  := by
  have hmap := h.previous
  rw [h.chunkIndex]
  cases chunks with
  | nil =>
      obtain ⟨p, hp⟩ := Option.isSome_iff_exists.mp hsome
      rw [hp] at hmap
      cases hmap
  | cons ch chunks => exact Nat.le_add_left 1 _

/-- Where the comparison with the declared length lets a chunk through, the sum is right unless
the body overruns the counter. -/
theorem sum_le
    (h : Counted c declared bytes start s chunks) {size : UInt64} {sizeField signature rest : Bytes}
    (hno : ¬ Overruns c s.mode declared bytes)
    (hbytes : s.inner.bytes
      = headerText s.mode.signedChunkAlgorithm sizeField signature ++ crlf ++ rest)
    (hok : HeaderOk c ParsedSize s.mode.signedChunkAlgorithm sizeField signature size.toNat)
    (hprev : ∀ p ∈ s.previousDataChunkSize, 8192 ≤ p.toNat)
    (hle : (saturatingAdd s.decodedLen size).toNat ≤ s.declaredDecodedLen.toNat) :
  (payload chunks).length + min size.toNat rest.length ≤ declared.toNat
  := by
  have hlt := s.decodedLen.toNat_lt
  have hdeclared := declared.toNat_lt
  rw [toNat_saturatingAdd, h.bound, h.decodedLen] at hle
  rw [h.decodedLen] at hlt
  by_contra hbeyond
  apply hno
  refine ⟨by omega, chunks, sizeField, signature, rest, size.toNat, ?_⟩
  exact {
    whole := by
      rw [h.whole, hbytes]
    framed := h.framed
    large := h.large_of_previous hprev
    header := hok
    before := hlt
    size := by omega
    there := by omega }

/-- A turn of the loop that takes a chunk keeps the counters right. -/
theorem step
    (h : Counted c declared bytes start s chunks) (hno : ¬ Overruns c s.mode declared bytes)
    (hturn : Returns (decodeChunk c) s none s') :
  s'.mode = s.mode ∧ ∃ ch, Counted c declared bytes start s' (chunks ++ [ch])
  := by
  obtain ⟨ch, r, w, d, hok, hbytes, -, hw, hprev, hle, -, rfl⟩ := chunk_of_decodeChunk hturn
  have hsize : (UInt64.ofNat ch.data.length).toNat = ch.data.length :=
    UInt64.toNat_ofNat_of_lt' hok.header.size.lt
  have hsum : (payload chunks).length + ch.data.length ≤ declared.toNat := by
    have hfront : s.inner.bytes = headerText s.mode.signedChunkAlgorithm ch.sizeField ch.signature
        ++ crlf ++ (ch.data ++ (crlf ++ r.bytes)) := by
      rw [hbytes, Chunk.bytes]
      simp
    have hall := h.sum_le hno hfront (by rw [hsize]; exact hok.header) hprev hle
    rw [hsize, List.length_append] at hall
    omega
  have hdeclared := declared.toNat_lt
  have hall : ∀ x ∈ chunks ++ [ch], ChunkOk c ParsedSize s.mode.signedChunkAlgorithm x := by
    intro x hx
    rcases List.mem_append.mp hx with hx | hx
    · exact h.framed x hx
    · rw [List.mem_singleton.mp hx]
      exact hok
  have hpay : (payload (chunks ++ [ch])).length = (payload chunks).length + ch.data.length := by
    simp [payload]
  have hcount := length_le_payload hall
  rw [hpay, List.length_append, List.length_singleton] at hcount
  have hdecoded := h.decodedLen
  have hindex := h.chunkIndex
  refine ⟨rfl, ch, ?_⟩
  exact {
    whole := by
      rw [h.whole, hbytes, List.flatMap_append]
      simp [turned, copied]
    framed := hall
    large := by
      rw [List.dropLast_concat]
      exact h.large_of_previous hprev
    previous := by
      rw [List.getLast?_concat]
      exact congrArg some hsize
    bound := h.bound
    decodedLen := by
      rw [hpay]
      exact (toNat_add_ofNat (by omega)).trans (by omega)
    chunkIndex := by
      change (s.chunkIndex + 1).toNat = _
      rw [UInt64.toNat_add, List.length_append, List.length_singleton]
      have hone : (1 : UInt64).toNat = 1 := rfl
      omega
    written := by
      change w.written.length = _
      rw [hw, List.length_append, h.written, hpay]
      omega
    wrapped := by
      change (s.wrapped || _ || _) = false
      rw [h.wrapped, hsize, decide_eq_false (by omega), decide_eq_false (by omega)]
      rfl
    le := hpay.le.trans hsum }

theorem within
    (h : Counted c declared bytes start s chunks) (hq : Quiet s s') :
  s'.writer.written.length ≤ start + declared.toNat ∧ s'.wrapped = false
  := by
  have hle := h.le
  rw [hq.writer, hq.wrapped, h.written]
  exact ⟨by omega, h.wrapped⟩

/-- However a run of the loop ends, it has not written more than the declared length, and no
counter has left its range. -/
theorem run
    (h : Counted c declared bytes start s chunks) (hno : ¬ Overruns c s.mode declared bytes)
    (fuel : ℕ) :
  (exec (decodeLoop c fuel) s).2.writer.written.length ≤ start + declared.toNat ∧
    (exec (decodeLoop c fuel) s).2.wrapped = false
  := by
  induction fuel generalizing s chunks with
  | zero => exact h.within ⟨rfl, rfl⟩
  | succ fuel ih =>
      rcases hturn : exec (decodeChunk c) s with ⟨e | result, s'⟩
      · rw [decodeLoop, exec_bind, hturn]
        rcases fails_decodeChunk hturn h.index_pos with hq |
          ⟨sizeField, signature, rest, size, hbytes, hok, hprev, hsat, hwrote⟩
        · exact h.within hq
        · have hsum := h.sum_le hno hbytes hok hprev hsat
          have hw := hwrote.le
          rw [h.written] at hw
          refine ⟨?_, hwrote.wrapped.trans h.wrapped⟩
          simp only
          omega
      · cases result with
        | some summary =>
            rw [decodeLoop, exec_bind, hturn]
            exact h.within (quiet_of_decodeChunk hturn)
        | none =>
            rw [exec_decodeLoop_of_none fuel hturn]
            obtain ⟨hmode, ch, hs'⟩ := h.step hno hturn
            exact ih hs' (hmode ▸ hno)

end Counted

end AwsChunkedDecoder

end TinyS3Proxy
