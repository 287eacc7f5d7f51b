import TinyS3Proxy.S3.Grammar

/-!
# What the decoder reads

Much of the decoder only reads: it takes bytes off the front of the body and leaves the rest of
its state alone. Such code recognises a language, the strings of bytes that it accepts together
with the values that it makes of them. `Recognises` says that it does so exactly: it accepts
nothing else, and it accepts all of it, however the body is cut into batches.

The languages of the parts of a piece of code determine its own, so that those of the decoder's
readers are put together from those of the operations on the body.
-/

namespace TinyS3Proxy.AwsChunkedDecoder

open Text (Bytes Reader ascii lf crlf)
open Effect

variable {K α β : Type}

/-- The code only takes bytes off the front of the body, and it takes precisely the strings that
are related to the value it returns. -/
structure Recognises (p : Dec K α)
    (L : DecoderMode → ChunkSignaturePolicy K → α → Bytes → Prop) : Prop where
  sound : ∀ {s s' : AwsChunkedDecoder K} {a : α}, Returns p s a s' →
    ∃ front r, s' = { s with inner := r } ∧ s.inner.bytes = front ++ r.bytes ∧
      r.failing = s.inner.failing ∧ L s.mode s.signaturePolicy a front
  complete : ∀ {s : AwsChunkedDecoder K} {a : α} {front tail : Bytes},
    s.inner.bytes = front ++ tail → L s.mode s.signaturePolicy a front →
    ∃ r, Returns p s a { s with inner := r } ∧ r.bytes = tail ∧ r.failing = s.inner.failing

variable {L L' : DecoderMode → ChunkSignaturePolicy K → α → Bytes → Prop}

theorem Recognises.congr
    {p : Dec K α} (h : Recognises p L) (hL : ∀ m d a front, L m d a front ↔ L' m d a front) :
  Recognises p L'
  := by
  have heq : L = L' := by
    funext m d a front
    exact propext (hL m d a front)
  exact heq ▸ h

/-- Code in sequence takes one string after the other. -/
theorem Recognises.bind
    {p : Dec K α} {q : α → Dec K β} {M : α → DecoderMode → ChunkSignaturePolicy K → β → Bytes → Prop}
    (hp : Recognises p L) (hq : ∀ a, Recognises (q a) (M a)) :
  Recognises (p >>= q) fun m d b front =>
    ∃ a f g, front = f ++ g ∧ L m d a f ∧ M a m d b g
  where
  sound := by
    intro s s' b h
    obtain ⟨a, s₁, h₁, h₂⟩ := returns_bind.mp h
    obtain ⟨f, r, rfl, hf, hfail, hL⟩ := hp.sound h₁
    obtain ⟨g, r', rfl, hg, hfail', hM⟩ := (hq a).sound h₂
    use f ++ g, r'
    refine ⟨rfl, ?_, hfail'.trans hfail, a, f, g, rfl, hL, hM⟩
    rw [hf, List.append_assoc]
    exact congrArg (f ++ ·) hg
  complete := by
    rintro s b front tail hbytes ⟨a, f, g, rfl, hL, hM⟩
    rw [List.append_assoc] at hbytes
    obtain ⟨r, h₁, hr, hfail⟩ := hp.complete hbytes hL
    obtain ⟨r', h₂, hr', hfail'⟩ := (hq a).complete (s := { s with inner := r }) hr hM
    use r'
    exact ⟨returns_bind.mpr ⟨a, _, h₁, h₂⟩, hr', hfail'.trans hfail⟩

/-- Code that does not change the state takes the empty string. -/
theorem recognises_of_iff
    {p : Dec K α} {T : DecoderMode → ChunkSignaturePolicy K → α → Prop}
    (h : ∀ {s s' : AwsChunkedDecoder K} {a : α},
      Returns p s a s' ↔ T s.mode s.signaturePolicy a ∧ s' = s) :
  Recognises p fun m d a front => T m d a ∧ front = []
  where
  sound := by
    intro s s' a hp
    obtain ⟨hT, rfl⟩ := h.mp hp
    exact ⟨[], s'.inner, rfl, rfl, rfl, hT, rfl⟩
  complete := by
    rintro s a front tail hbytes ⟨hT, rfl⟩
    exact ⟨s.inner, h.mpr ⟨hT, rfl⟩, hbytes, rfl⟩

theorem recognises_pure
    (a : α) :
  Recognises (pure a : Dec K α) fun _ _ b front => b = a ∧ front = []
  := recognises_of_iff returns_pure

theorem recognises_require
    (b : Bool) (e : AwsChunkedError) :
  Recognises (require b e : Dec K Unit) fun _ _ _ front => b = true ∧ front = []
  := recognises_of_iff returns_require

theorem recognises_demand
    (o : Option α) (e : AwsChunkedError) :
  Recognises (demand o e : Dec K α) fun _ _ a front => o = some a ∧ front = []
  := recognises_of_iff returns_demand

theorem recognises_outcome
    (x : Except AwsChunkedError α) :
  Recognises (outcome x : Dec K α) fun _ _ a front => x = .ok a ∧ front = []
  := recognises_of_iff returns_outcome

theorem recognises_mode :
  Recognises (reads (·.mode) : Dec K DecoderMode) fun m _ a front => a = m ∧ front = []
  := recognises_of_iff returns_reads

theorem recognises_policy :
  Recognises (reads (·.signaturePolicy) : Dec K (ChunkSignaturePolicy K))
    fun _ d a front => a = d ∧ front = []
  := recognises_of_iff returns_reads

/-! ### Operations on the body -/

theorem returns_fromInner
    {ε : Type} {f : Reader → Except ε α × Reader} {fault : ε → AwsChunkedError}
    {s s' : AwsChunkedDecoder K} {a : α} :
  Returns (fromInner f fault) s a s' ↔
    ∃ r, f s.inner = (.ok a, r) ∧ s' = { s with inner := r }
  := by
  rw [fromInner, returns_attempt, Prod.mk.injEq]
  constructor
  · rintro ⟨h, rfl⟩
    exact ⟨_, Prod.ext h rfl, rfl⟩
  · rintro ⟨r, h, rfl⟩
    rw [h]
    exact ⟨rfl, rfl⟩

/-- A line, together with the line feed at its end. -/
theorem recognises_readLine
    (limit : ℕ) (fault : Reader.LineFault → AwsChunkedError) :
  Recognises (fromInner (Reader.readLine limit) fault : Dec K Bytes) fun _ _ raw front =>
    front = raw ∧ (∃ line, raw = line ++ [lf] ∧ lf ∉ line) ∧ raw.length ≤ limit
  where
  sound := by
    intro s s' raw h
    obtain ⟨r, hr, rfl⟩ := returns_fromInner.mp h
    obtain ⟨line, hraw, hlf, hbytes, hlen, hfail⟩ := Reader.bytes_of_readLine hr
    exact ⟨raw, r, rfl, hbytes, hfail, rfl, ⟨line, hraw, hlf⟩, hlen⟩
  complete := by
    rintro s raw front tail hbytes ⟨rfl, ⟨line, rfl, hlf⟩, hlen⟩
    rw [List.length_append, List.length_singleton] at hlen
    have hbytes' : s.inner.bytes = line ++ lf :: tail := by simpa using hbytes
    obtain ⟨r, hr⟩ := Reader.exists_readLine hbytes' hlf hlen
    obtain ⟨-, -, -, hrest, -, hfail⟩ := Reader.bytes_of_readLine hr
    use r
    refine ⟨returns_fromInner.mpr ⟨r, hr, rfl⟩, ?_, hfail⟩
    exact List.append_cancel_left (hrest.symm.trans hbytes)

/-- A carriage return and a line feed. -/
theorem recognises_expectCrlf :
  Recognises (expectCrlf : Dec K Unit) fun _ _ _ front => front = crlf
  where
  sound := by
    intro s s' u h
    obtain ⟨bs, s₁, h₁, h₂⟩ := returns_bind.mp h
    obtain ⟨r, hr, rfl⟩ := returns_fromInner.mp h₁
    obtain ⟨hcrlf, rfl⟩ := returns_require.mp h₂
    obtain rfl := of_decide_eq_true hcrlf
    obtain ⟨hbytes, -, hfail⟩ := Reader.bytes_of_readExact le_rfl hr
    exact ⟨crlf, r, rfl, hbytes, hfail, rfl⟩
  complete := by
    rintro s u front tail hbytes rfl
    have hlen : 2 ≤ s.inner.bytes.length := by
      rw [hbytes]
      exact Nat.le_add_left 2 tail.length
    obtain ⟨bs, r, hr⟩ := @Reader.exists_readExact 2 2 s.inner hlen
    obtain ⟨hbytes', hlen, hfail⟩ := Reader.bytes_of_readExact le_rfl hr
    obtain ⟨hbs, hrest⟩ := List.append_inj (hbytes'.symm.trans hbytes) hlen
    use r
    refine ⟨returns_bind.mpr ⟨bs, _, returns_fromInner.mpr ⟨r, hr, rfl⟩, ?_⟩, hrest, hfail⟩
    exact returns_require.mpr ⟨decide_eq_true hbs, rfl⟩

/-- The end of the body is where there is nothing left and reading does not fail. -/
theorem returns_expectEof
    {s : AwsChunkedDecoder K} :
  (∃ s', Returns expectEof s () s') ↔ s.inner.bytes = [] ∧ s.inner.failing = false
  := by
  constructor
  · rintro ⟨s', h⟩
    obtain ⟨bs, s₁, h₁, h₂⟩ := returns_bind.mp h
    obtain ⟨r, hr, rfl⟩ := returns_fromInner.mp h₁
    obtain ⟨hnil, rfl⟩ := returns_require.mp h₂
    obtain rfl := of_decide_eq_true hnil
    exact Reader.end_of_read one_pos hr
  · rintro ⟨hbytes, hfail⟩
    obtain ⟨r, hr⟩ := Reader.exists_read_end 1 hbytes hfail
    use { s with inner := r }
    exact returns_bind.mpr ⟨[], _, returns_fromInner.mpr ⟨r, hr, rfl⟩,
      returns_require.mpr ⟨rfl, rfl⟩⟩

theorem inner_of_expectEof
    {s s' : AwsChunkedDecoder K} {u : Unit} (h : Returns expectEof s u s') :
  ∃ r, s' = { s with inner := r }
  := by
  obtain ⟨bs, s₁, h₁, h₂⟩ := returns_bind.mp h
  obtain ⟨r, -, rfl⟩ := returns_fromInner.mp h₁
  obtain ⟨-, rfl⟩ := returns_require.mp h₂
  exact ⟨r, rfl⟩

/-! ### Lines -/

/-- The header of a chunk and its terminator. -/
theorem recognises_readChunkHeaderLine :
  Recognises (readChunkHeaderLine : Dec K Bytes) fun _ _ header front =>
    front = header ++ crlf ∧ lf ∉ header ∧ Text.validUtf8 header = true ∧ front.length ≤ 4096
  := by
  apply ((recognises_readLine _ _).bind fun raw => (recognises_demand _ _).bind fun header =>
    (recognises_require _ _).bind fun _ => recognises_pure header).congr
  intro m d header front
  constructor
  · rintro ⟨raw, f, g, rfl, ⟨rfl, ⟨line, hline, hlf⟩, hlen⟩, header', f', g', rfl,
      ⟨hstrip, rfl⟩, u, f'', g'', rfl, ⟨hutf, rfl⟩, rfl, rfl⟩
    have hraw := Text.stripEnd_eq_some.mp hstrip
    simp only [List.append_nil]
    refine ⟨hraw, ?_, hutf, hlen⟩
    have hpre : line = header ++ [13] := by
      have heq : line ++ [lf] = (header ++ [13]) ++ [lf] := by
        rw [← hline, hraw]
        simp [crlf, lf]
      exact (List.append_left_inj [lf]).mp heq
    rw [hpre] at hlf
    exact fun hm => hlf (List.mem_append_left _ hm)
  · rintro ⟨rfl, hlf, hutf, hlen⟩
    use header ++ crlf, header ++ crlf, []
    refine ⟨by simp, ⟨rfl, ⟨header ++ [13], by simp [crlf, lf], ?_⟩, hlen⟩, header, [], [], rfl,
      ⟨Text.stripEnd_eq_some.mpr rfl, rfl⟩, (), [], [], rfl, ⟨hutf, rfl⟩, rfl, rfl⟩
    rw [List.mem_append]
    exact not_or_intro hlf (by decide)

/-- The header of a chunk, parsed. -/
theorem recognises_readHeader
    (c : Crypto K) (a : Option SignedChunkAlgorithm) :
  Recognises (readHeader c a) fun _ _ p front =>
    ∃ sizeField signature, front = headerText a sizeField signature ++ crlf ∧
      HeaderOk c ParsedSize a sizeField signature p.size.toNat ∧
      p.signatureHex = a.map fun _ => signature
  := by
  apply (recognises_readChunkHeaderLine.bind fun header => recognises_outcome _).congr
  intro m d p front
  constructor
  · rintro ⟨header, f, g, rfl, ⟨rfl, -, -, hlen⟩, hparse, rfl⟩
    obtain ⟨sizeField, signature, rfl, hok, hsig⟩ := (parseChunkHeader_eq_ok hlen).mp hparse
    use sizeField, signature
    exact ⟨List.append_nil _, hok, hsig⟩
  · rintro ⟨sizeField, signature, rfl, hok, hsig⟩
    use headerText a sizeField signature, headerText a sizeField signature ++ crlf, []
    refine ⟨(List.append_nil _).symm, ⟨rfl, ?_, ?_, hok.short⟩, ?_, rfl⟩
    · exact hok.visible.lf_notMem
    · exact hok.visible.validUtf8
    · exact (parseChunkHeader_eq_ok hok.short).mpr ⟨sizeField, signature, rfl, hok, hsig⟩

/-- A line has a terminator with or without a carriage return. -/
theorem stripTerminator_eq_some
    {raw line : Bytes} :
  stripTerminator raw = some line ↔
    raw = line ++ crlf ∨ raw = line ++ [lf] ∧ ∀ front, line ≠ front ++ [13]
  := by
  have hsplit : ∀ l : Bytes, l ++ crlf = (l ++ [13]) ++ [lf] := by
    intro l
    simp [crlf, lf]
  rw [stripTerminator]
  cases hs : Text.stripEnd crlf raw with
  | some l =>
      obtain rfl := Text.stripEnd_eq_some.mp hs
      constructor
      · intro h
        obtain rfl := Option.some.inj h
        exact Or.inl rfl
      · rintro (h | ⟨h, hne⟩)
        · rw [(List.append_left_inj crlf).mp h]
        · rw [hsplit, List.append_left_inj] at h
          exact absurd h.symm (hne l)
  | none =>
      constructor
      · intro h
        have hraw := Text.stripEnd_eq_some.mp h
        refine Or.inr ⟨hraw, ?_⟩
        rintro front rfl
        have hcrlf := Text.stripEnd_eq_some.mpr (hraw.trans (hsplit front).symm)
        rw [hs] at hcrlf
        cases hcrlf
      · rintro (h | ⟨h, -⟩)
        · rw [Text.stripEnd_eq_some.mpr h] at hs
          cases hs
        · exact Text.stripEnd_eq_some.mpr h

/-- A line of a trailer, split at its colon. -/
theorem recognises_readTrailerFields
    (expectedName : Bytes) (fault : AwsChunkedError → AwsChunkedError)
    (missing : Bytes → AwsChunkedError) :
  Recognises (readTrailerFields expectedName fault missing : Dec K (Bytes × Bytes))
    fun _ _ r front => ∃ newline, front = TrailerLine.bytes ⟨r.1, r.2, newline⟩ ∧
      TrailerLine.Ok ⟨r.1, r.2, newline⟩
  := by
  apply (((recognises_readLine _ _).bind fun raw => (recognises_demand _ _).bind fun line =>
    (recognises_require _ _).bind fun _ => (recognises_require _ _).bind fun _ =>
      recognises_pure line).bind fun line => recognises_demand _ _).congr
  rintro m d ⟨name, value⟩ front
  constructor
  · rintro ⟨line, f, g, rfl, ⟨raw, f₁, g₁, rfl, ⟨rfl, ⟨body, hbody, hlf⟩, hlen⟩, line', f₂, g₂, rfl,
      ⟨hstrip, rfl⟩, u, f₃, g₃, rfl, ⟨hne, rfl⟩, u', f₄, g₄, rfl, ⟨hutf, rfl⟩, rfl, rfl⟩,
      hsplit, rfl⟩
    obtain ⟨rfl, hcolon⟩ := Text.splitOnce_eq_some.mp hsplit
    simp only [List.append_nil]
    obtain hraw | ⟨hraw, hend⟩ := stripTerminator_eq_some.mp hstrip
    · use crlf
      rw [hraw] at hlen
      refine ⟨hraw, hcolon, ?_, hutf, Or.inl rfl, hlen⟩
      have hpre : body = (name ++ 58 :: value) ++ [13] := by
        have heq : body ++ [lf] = ((name ++ 58 :: value) ++ [13]) ++ [lf] := by
          rw [← hbody, hraw]
          simp [crlf, lf]
        exact (List.append_left_inj [lf]).mp heq
      rw [hpre] at hlf
      exact fun hm => hlf (List.mem_append_left _ hm)
    · use [lf]
      rw [hraw] at hlen
      refine ⟨hraw, hcolon, ?_, hutf, Or.inr ⟨rfl, hend⟩, hlen⟩
      have hpre : body = name ++ 58 :: value :=
        (List.append_left_inj [lf]).mp (hbody.symm.trans hraw)
      rw [hpre] at hlf
      exact hlf
  · rintro ⟨newline, rfl, hok⟩
    have hterm : stripTerminator (TrailerLine.bytes ⟨name, value, newline⟩)
        = some (name ++ 58 :: value) := by
      apply stripTerminator_eq_some.mpr
      obtain rfl | ⟨rfl, hend⟩ := hok.newline
      · exact Or.inl rfl
      · exact Or.inr ⟨rfl, hend⟩
    have hline : ∃ line, TrailerLine.bytes ⟨name, value, newline⟩ = line ++ [lf] ∧ lf ∉ line := by
      obtain rfl | ⟨rfl, hend⟩ := hok.newline
      · use (name ++ 58 :: value) ++ [13]
        refine ⟨by simp [TrailerLine.bytes, TrailerLine.text, crlf, lf], ?_⟩
        rw [List.mem_append]
        exact not_or_intro hok.line (by decide)
      · exact ⟨name ++ 58 :: value, rfl, hok.line⟩
    have hne : name ++ 58 :: value ≠ [] := by simp
    use name ++ 58 :: value, TrailerLine.bytes ⟨name, value, newline⟩, []
    refine ⟨(List.append_nil _).symm, ⟨_, _, [], (List.append_nil _).symm, ⟨rfl, hline, hok.short⟩, _,
      [], [], rfl, ⟨hterm, rfl⟩, (), [], [], rfl, ⟨decide_eq_true hne, rfl⟩, (), [], [], rfl,
      ⟨hok.utf8, rfl⟩, rfl, rfl⟩, Text.splitOnce_eq_some.mpr ⟨rfl, hok.name⟩, rfl⟩

/-! ### Trailers -/

theorem mapError_eq_ok
    {ε ε' : Type} {x : Except ε α} {f : ε → ε'} {a : α} :
  x.mapError f = .ok a ↔ x = .ok a
  := by
  cases x with
  | error e => simp [Except.mapError]
  | ok b => simp [Except.mapError]

/-- The line that declares a checksum, of the right length. -/
theorem recognises_readAndValidateTrailer
    (c : Crypto K) (name : Bytes) (a : ChecksumAlgorithm) :
  Recognises (readAndValidateTrailer c name a) fun _ _ header front =>
    ∃ t digest, front = TrailerLine.bytes t ∧ t.Ok ∧
      Text.eqIgnoreCase (Text.trim t.name) name = true ∧
      c.base64Decode (Text.trim t.value) = .ok digest ∧ digest.length = a.digestLen ∧
      header = ⟨a, a.headerName, Text.trim t.value⟩
  := by
  apply ((recognises_readTrailerFields _ _ _).bind fun r => (recognises_require _ _).bind fun _ =>
    (recognises_outcome _).bind fun decoded => (recognises_require _ _).bind fun _ =>
      recognises_pure _).congr
  intro m d header front
  constructor
  · rintro ⟨⟨n, v⟩, f, g, rfl, ⟨newline, rfl, hok⟩, u, f₁, g₁, rfl, ⟨hname, rfl⟩, digest, f₂, g₂, rfl,
      ⟨hdec, rfl⟩, u', f₃, g₃, rfl, ⟨hlen, rfl⟩, rfl, rfl⟩
    use ⟨n, v, newline⟩, digest
    exact ⟨by simp, hok, hname, mapError_eq_ok.mp hdec, of_decide_eq_true hlen, rfl⟩
  · rintro ⟨⟨n, v, newline⟩, digest, rfl, hok, hname, hdec, hlen, rfl⟩
    use (n, v), TrailerLine.bytes ⟨n, v, newline⟩, []
    exact ⟨(List.append_nil _).symm, ⟨newline, rfl, hok⟩, (), [], [], rfl, ⟨hname, rfl⟩, digest, [], [],
      rfl, ⟨mapError_eq_ok.mpr hdec, rfl⟩, (), [], [], rfl, ⟨decide_eq_true hlen, rfl⟩, rfl, rfl⟩

/-- The line that signs a trailer. -/
theorem recognises_readAndValidateTrailerSignature
    (c : Crypto K) (b : SignedChunkAlgorithm) :
  Recognises (readAndValidateTrailerSignature c b) fun _ _ sig front =>
    ∃ t, front = TrailerLine.bytes t ∧ TrailerSignatureOk c b t ∧ sig = Text.trim t.value
  := by
  apply ((recognises_readTrailerFields _ _ _).bind fun r => (recognises_require _ _).bind fun _ =>
    (recognises_outcome _).bind fun _ => recognises_pure _).congr
  intro m d sig front
  constructor
  · rintro ⟨⟨n, v⟩, f, g, rfl, ⟨newline, rfl, hok⟩, u, f₁, g₁, rfl, ⟨hname, rfl⟩, u', f₂, g₂, rfl,
      ⟨hshape, rfl⟩, rfl, rfl⟩
    use ⟨n, v, newline⟩
    exact ⟨by simp, ⟨hok, hname, validateChunkSignatureShape_eq_ok.mp (mapError_eq_ok.mp hshape)⟩, rfl⟩
  · rintro ⟨⟨n, v, newline⟩, rfl, hok, rfl⟩
    use (n, v), TrailerLine.bytes ⟨n, v, newline⟩, []
    exact ⟨(List.append_nil _).symm, ⟨newline, rfl, hok.line⟩, (), [], [], rfl, ⟨hok.name, rfl⟩, (), [],
      [], rfl, ⟨mapError_eq_ok.mpr (validateChunkSignatureShape_eq_ok.mpr hok.shape), rfl⟩, rfl, rfl⟩

/-- The line that signs a trailer, with a signature that the policy accepts. -/
theorem recognises_verifyTrailerSignature
    (c : Crypto K) (header : ChecksumHeader) :
  Recognises (verifyTrailerSignature c header) fun m d _ front =>
    ∃ b t, m.signedChunkAlgorithm = some b ∧ front = TrailerLine.bytes t ∧
      TrailerSignatureOk c b t ∧
      d.verifyTrailer c (canonicalTrailer header) (Text.trim t.value) = .ok ()
  := by
  apply (recognises_mode.bind fun mode => (recognises_demand _ _).bind fun b =>
    (recognises_readAndValidateTrailerSignature c b).bind fun sig =>
      recognises_policy.bind fun policy => recognises_outcome _).congr
  intro m d u front
  constructor
  · rintro ⟨mode, f, g, rfl, ⟨rfl, rfl⟩, b, f₁, g₁, rfl, ⟨hb, rfl⟩, sig, f₂, g₂, rfl, ⟨t, rfl, hok, rfl⟩,
      policy, f₃, g₃, rfl, ⟨rfl, rfl⟩, hv, rfl⟩
    exact ⟨b, t, hb, by simp, hok, hv⟩
  · rintro ⟨b, t, hb, rfl, hok, hv⟩
    exact ⟨m, [], _, rfl, ⟨rfl, rfl⟩, b, [], _, rfl, ⟨hb, rfl⟩, Text.trim t.value, _, [],
      (List.append_nil _).symm, ⟨t, rfl, hok, rfl⟩, d, [], [], rfl, ⟨rfl, rfl⟩, hv, rfl⟩

end TinyS3Proxy.AwsChunkedDecoder
