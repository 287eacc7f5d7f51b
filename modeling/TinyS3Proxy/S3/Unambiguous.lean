import TinyS3Proxy.S3.Acceptance

/-!
# The grammar is unambiguous

A string of bytes is a body in at most one way: where it can be taken apart, the parts are
determined. The readers of the decoder are functions of the bytes, and they recognise the parts,
so two ways to take a string apart agree from part to part.
-/

namespace TinyS3Proxy

open Text (Bytes Reader ascii lf crlf)
open Effect

namespace AwsChunkedDecoder

variable {K α : Type} {c : Crypto K}

/-- Code that recognises a language takes one string off a given front, and makes one value of
it. -/
theorem Recognises.unique
    {p : Dec K α} {L : DecoderMode → ChunkSignaturePolicy K → α → Bytes → Prop}
    (hp : Recognises p L) {m : DecoderMode} {d : ChunkSignaturePolicy K} {x y : α}
    {front front' tail tail' : Bytes} (hbytes : front ++ tail = front' ++ tail')
    (h : L m d x front) (h' : L m d y front') :
  x = y ∧ front = front' ∧ tail = tail'
  := by
  obtain ⟨r, hrun, hr, -⟩ := hp.complete
    (s := withModeAndSignaturePolicy ⟨[front ++ tail], false⟩ 0 m d ⟨[], none⟩)
    (List.append_nil _) h
  obtain ⟨r', hrun', hr', -⟩ := hp.complete
    (s := withModeAndSignaturePolicy ⟨[front ++ tail], false⟩ 0 m d ⟨[], none⟩)
    ((List.append_nil _).trans hbytes) h'
  obtain ⟨ha, hs⟩ := Prod.mk.inj (hrun.symm.trans hrun')
  obtain rfl : r = r' := congrArg AwsChunkedDecoder.inner hs
  obtain rfl : tail = tail' := hr.symm.trans hr'
  exact ⟨Except.ok.inj ha, List.append_cancel_right hbytes, rfl⟩

end AwsChunkedDecoder

open AwsChunkedDecoder

variable {K : Type} {c : Crypto K}

/-- The header of a chunk is read in one way. -/
theorem header_unique
    {a : Option SignedChunkAlgorithm} {sizeField signature sizeField' signature' : Bytes}
    {n n' : ℕ} {tail tail' : Bytes} (h : HeaderOk c ParsedSize a sizeField signature n)
    (h' : HeaderOk c ParsedSize a sizeField' signature' n')
    (hbytes : headerText a sizeField signature ++ crlf ++ tail
      = headerText a sizeField' signature' ++ crlf ++ tail') :
  sizeField = sizeField' ∧ signature = signature' ∧ n = n' ∧ tail = tail'
  := by
  have hn : (UInt64.ofNat n).toNat = n := UInt64.toNat_ofNat_of_lt' h.size.lt
  have hn' : (UInt64.ofNat n').toNat = n' := UInt64.toNat_ofNat_of_lt' h'.size.lt
  obtain ⟨hparsed, hfront, htail⟩ := (recognises_readHeader c a).unique
    (m := .nonTrailer .hmacSha256) (d := .shapeOnly)
    (x := ⟨UInt64.ofNat n, a.map fun _ => signature⟩)
    (y := ⟨UInt64.ofNat n', a.map fun _ => signature'⟩) hbytes
    ⟨sizeField, signature, rfl, by simpa only [hn] using h, rfl⟩
    ⟨sizeField', signature', rfl, by simpa only [hn'] using h', rfl⟩
  obtain ⟨hsize, hsig⟩ := ParsedChunkHeader.mk.inj hparsed
  have hnn : n = n' := by
    rw [← hn, ← hn', hsize]
  have htext : headerText a sizeField signature = headerText a sizeField' signature' :=
    List.append_cancel_right hfront
  cases a with
  | none =>
      have hs : sizeField = sizeField' := htext
      exact ⟨hs, (h.unsigned rfl).trans (h'.unsigned rfl).symm, hnn, htail⟩
  | some b =>
      have hs : signature = signature' := Option.some.inj hsig
      subst hs
      exact ⟨List.append_cancel_right htext, rfl, hnn, htail⟩

/-- A trailer line is read in one way. -/
theorem trailerLine_unique
    {t t' : TrailerLine} {tail tail' : Bytes} (h : t.Ok) (h' : t'.Ok)
    (hbytes : t.bytes ++ tail = t'.bytes ++ tail') :
  t = t' ∧ tail = tail'
  := by
  obtain ⟨name, value, newline⟩ := t
  obtain ⟨name', value', newline'⟩ := t'
  obtain ⟨hfields, hfront, htail⟩ :=
    (recognises_readTrailerFields (K := Unit) [] id fun _ => .truncated).unique
      (m := .nonTrailer .hmacSha256) (d := .shapeOnly) (x := (name, value)) (y := (name', value'))
      hbytes ⟨newline, rfl, h⟩ ⟨newline', rfl, h'⟩
  obtain ⟨rfl, rfl⟩ := Prod.mk.inj hfields
  obtain rfl : newline = newline' := List.append_cancel_left hfront
  exact ⟨rfl, htail⟩

theorem ending_unique
    {mode : DecoderMode} {body body' : Bytes} {t u t' u' : Option TrailerLine}
    (h : EndingOk c body mode t u) (h' : EndingOk c body' mode t' u')
    (hbytes : endingBytes t u = endingBytes t' u') :
  t = t' ∧ u = u'
  := by
  cases h with
  | nonTrailer =>
      cases h'
      exact ⟨rfl, rfl⟩
  | unsignedTrailer ht =>
      cases h' with
      | unsignedTrailer ht' =>
          obtain ⟨rfl, -⟩ := trailerLine_unique ht.line ht'.line hbytes
          exact ⟨rfl, rfl⟩
  | signedTrailer ht hu =>
      cases h' with
      | signedTrailer ht' hu' =>
          obtain ⟨rfl, hrest⟩ := trailerLine_unique ht.line ht'.line hbytes
          obtain ⟨rfl, -⟩ := trailerLine_unique hu.line hu'.line hrest
          exact ⟨rfl, rfl⟩

theorem flatMap_bytes_cons
    (a : Option SignedChunkAlgorithm) (ch : Chunk) (chunks : List Chunk) (tail : Bytes) :
  (ch :: chunks).flatMap (Chunk.bytes a) ++ tail
    = headerText a ch.sizeField ch.signature ++ crlf ++
      (ch.data ++ (crlf ++ (chunks.flatMap (Chunk.bytes a) ++ tail)))
  := by
  simp [Chunk.bytes]

/-- The chunks of a body are read in one way. -/
theorem chunks_unique
    {a : Option SignedChunkAlgorithm} {chunks chunks' : List Chunk}
    {zeroField zeroSignature zeroField' zeroSignature' tail tail' : Bytes}
    (h : ∀ ch ∈ chunks, ChunkOk c ParsedSize a ch) (h' : ∀ ch ∈ chunks', ChunkOk c ParsedSize a ch)
    (hz : HeaderOk c ParsedSize a zeroField zeroSignature 0)
    (hz' : HeaderOk c ParsedSize a zeroField' zeroSignature' 0)
    (hbytes : chunks.flatMap (Chunk.bytes a) ++ (headerText a zeroField zeroSignature ++ crlf ++ tail)
      = chunks'.flatMap (Chunk.bytes a)
        ++ (headerText a zeroField' zeroSignature' ++ crlf ++ tail')) :
  chunks = chunks' ∧ zeroField = zeroField' ∧ zeroSignature = zeroSignature' ∧ tail = tail'
  := by
  induction chunks generalizing chunks' with
  | nil =>
      cases chunks' with
      | nil =>
          obtain ⟨hf, hs, -, ht⟩ := header_unique hz hz' hbytes
          exact ⟨rfl, hf, hs, ht⟩
      | cons ch' chunks' =>
          have hok := h' ch' List.mem_cons_self
          rw [flatMap_bytes_cons] at hbytes
          obtain ⟨-, -, h0, -⟩ := header_unique hz hok.header hbytes
          exact absurd (List.length_eq_zero_iff.mp h0.symm) hok.nonempty
  | cons ch chunks ih =>
      have hok := h ch List.mem_cons_self
      rw [flatMap_bytes_cons] at hbytes
      cases chunks' with
      | nil =>
          obtain ⟨-, -, h0, -⟩ := header_unique hok.header hz' hbytes
          exact absurd (List.length_eq_zero_iff.mp h0) hok.nonempty
      | cons ch' chunks' =>
          have hok' := h' ch' List.mem_cons_self
          rw [flatMap_bytes_cons] at hbytes
          obtain ⟨hf, hs, hlen, hrest⟩ := header_unique hok.header hok'.header hbytes
          obtain ⟨hdata, hrest⟩ := List.append_inj hrest hlen
          obtain ⟨rfl, htail⟩ := ih (fun x hx => h x (List.mem_cons_of_mem _ hx))
            (fun x hx => h' x (List.mem_cons_of_mem _ hx)) (List.append_cancel_left hrest)
          obtain ⟨sizeField, signature, data⟩ := ch
          obtain ⟨sizeField', signature', data'⟩ := ch'
          obtain rfl : sizeField = sizeField' := hf
          obtain rfl : signature = signature' := hs
          obtain rfl : data = data' := hdata
          exact ⟨rfl, htail⟩

/-- A string of bytes is a body in at most one way. -/
theorem frames_unique
    {mode : DecoderMode} {F F' : Frames} (h : Framed c ParsedSize mode F)
    (h' : Framed c ParsedSize mode F')
    (hbytes : F.bytes mode.signedChunkAlgorithm = F'.bytes mode.signedChunkAlgorithm) :
  F = F'
  := by
  obtain ⟨hchunks, hfield, hsig, hend⟩ := chunks_unique h.chunks h'.chunks h.zero h'.zero hbytes
  obtain ⟨ht, hu⟩ := ending_unique h.ending h'.ending hend
  obtain ⟨chunks, zeroField, zeroSignature, t, u⟩ := F
  obtain ⟨chunks', zeroField', zeroSignature', t', u'⟩ := F'
  obtain rfl : chunks = chunks' := hchunks
  obtain rfl : zeroField = zeroField' := hfield
  obtain rfl : zeroSignature = zeroSignature' := hsig
  obtain rfl : t = t' := ht
  obtain rfl : u = u' := hu
  rfl

end TinyS3Proxy
