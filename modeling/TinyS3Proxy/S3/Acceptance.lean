import TinyS3Proxy.S3.Decoding

/-!
# Runs of the decoder

A run of the decoder that succeeds has taken a body apart into its chunks and its ending, and a
body that can be taken apart is decoded. The length of the body is compared with the declared
length chunk by chunk, in machine words; `Fits` says what the comparisons amount to.
-/

namespace TinyS3Proxy

open Text (Bytes Reader ascii lf crlf)
open Effect

namespace AwsChunkedDecoder

variable {K : Type} {c : Crypto K} {s s' : AwsChunkedDecoder K}

/-- The comparisons with the declared length that the decoder makes for a list of chunks, after
it has decoded `n` bytes. -/
def Fits (declared : UInt64) : UInt64 → List Chunk → Prop
  | n, [] => n = declared
  | n, ch :: chunks =>
      (saturatingAdd n (UInt64.ofNat ch.data.length)).toNat ≤ declared.toNat ∧
        Fits declared (n + UInt64.ofNat ch.data.length) chunks

/-- The sizes of the chunks that must be large: the one before, and those that are followed by
another one. -/
def nonFinalSizes (previous : Option UInt64) (chunks : List Chunk) : List ℕ :=
  (previous.toList.map UInt64.toNat ++ chunks.map fun ch => ch.data.length).dropLast

theorem nonFinalSizes_cons
    (previous : Option UInt64) (ch : Chunk) (chunks : List Chunk)
    (hlt : ch.data.length < 2 ^ 64) :
  nonFinalSizes previous (ch :: chunks)
    = previous.toList.map UInt64.toNat ++
      nonFinalSizes (some (UInt64.ofNat ch.data.length)) chunks
  := by
  have hsize : (UInt64.ofNat ch.data.length).toNat = ch.data.length :=
    UInt64.toNat_ofNat_of_lt' hlt
  simp [nonFinalSizes, List.dropLast_append_of_ne_nil, hsize]

/-- A run of the loop that succeeds has taken apart the whole body. -/
theorem frames_of_decodeLoop
    {fuel : ℕ} {summary : DecodedSummary} (hfed : s.Fed)
    (h : Returns (decodeLoop c fuel) s summary s') :
  ∃ F : Frames, s.inner.bytes = F.bytes s.mode.signedChunkAlgorithm ∧ s.inner.failing = false ∧
    (∀ ch ∈ F.chunks, ChunkOk c ParsedSize s.mode.signedChunkAlgorithm ch) ∧
    (∀ n ∈ nonFinalSizes s.previousDataChunkSize F.chunks, 8192 ≤ n) ∧
    HeaderOk c ParsedSize s.mode.signedChunkAlgorithm F.zeroField F.zeroSignature 0 ∧
    EndingOk c (s.hasher ++ F.body) s.mode F.trailer F.trailerSignature ∧
    AcceptsSignatures c s.signaturePolicy s.mode F ∧
    Fits s.declaredDecodedLen s.decodedLen F.chunks ∧
    summary = ⟨s.declaredDecodedLen, c.sha256 (s.hasher ++ F.body),
      Text.hexEncode (c.sha256 (s.hasher ++ F.body)), declaredChecksum s.mode F.trailer⟩ ∧
    s'.writer.written = s.writer.written ++ F.body
  := by
  induction fuel generalizing s with
  | zero => exact absurd h not_returns_throw
  | succ fuel ih =>
      obtain ⟨result, s₁, hchunk, h⟩ := returns_bind.mp h
      cases result with
      | some summary' =>
          obtain ⟨rfl, rfl⟩ := returns_pure.mp h
          obtain ⟨zeroField, zeroSignature, t, u, d, hzero, hbytes, hfail, had, hacc, hending, hlen,
            rfl, hw⟩ := ending_of_decodeChunk hfed hchunk
          use ⟨[], zeroField, zeroSignature, t, u⟩
          have hbody : (Frames.mk [] zeroField zeroSignature t u).body = [] := rfl
          simp only [hbody, List.append_nil]
          refine ⟨hbytes, hfail, nofun, ?_, hzero, hending, ⟨_, d, rfl, had, hacc⟩, hlen, ?_, ?_⟩
          · cases hprev : s.previousDataChunkSize with
            | none => nofun
            | some p => nofun
          · rw [hlen]
          · rw [hw]
      | none =>
          obtain ⟨ch, r, w, d, hok, hbytes, hfail, hw, hprev, hle, had, rfl⟩ :=
            chunk_of_decodeChunk hchunk
          obtain ⟨F, hFbytes, hFfail, hFchunks, hFlarge, hFzero, hFending, ⟨d₁, d₂, hfol, hadv, hacc⟩,
            hFfits, hFsummary, hFw⟩ := ih hfed.turned h
          have hbody : (Frames.mk (ch :: F.chunks) F.zeroField F.zeroSignature F.trailer
              F.trailerSignature).body = ch.data ++ F.body := rfl
          have hassoc : (s.turned r w ch.data (UInt64.ofNat ch.data.length) d).hasher ++ F.body
              = s.hasher ++ (ch.data ++ F.body) := List.append_assoc ..
          have hr : r.bytes = F.bytes s.mode.signedChunkAlgorithm := hFbytes
          rw [hassoc] at hFending hFsummary
          use ⟨ch :: F.chunks, F.zeroField, F.zeroSignature, F.trailer, F.trailerSignature⟩
          rw [hbody]
          refine ⟨?_, hfail.symm.trans hFfail, ?_, ?_, hFzero, hFending, ?_, ⟨hle, hFfits⟩,
            hFsummary, ?_⟩
          · rw [hbytes, hr]
            simp [Frames.bytes]
          · exact List.forall_mem_cons.mpr ⟨hok, hFchunks⟩
          · rw [nonFinalSizes_cons _ _ _ hok.header.size.lt, List.forall_mem_append]
            refine ⟨?_, hFlarge⟩
            intro n hn
            obtain ⟨p, hp, rfl⟩ := List.mem_map.mp hn
            exact hprev p (Option.mem_toList.mp hp)
          · exact ⟨d₁, d₂, ⟨d, had, hfol⟩, hadv, hacc⟩
          · rw [hFw]
            exact (congrArg (· ++ F.body) hw).trans (List.append_assoc ..)

/-! ### Bodies that are decoded -/

theorem toNat_saturatingAdd
    (a b : UInt64) :
  (saturatingAdd a b).toNat = min (a.toNat + b.toNat) (2 ^ 64 - 1)
  := UInt64.toNat_ofNat_of_lt' (lt_of_le_of_lt (min_le_right _ _) (by decide))

theorem toNat_add_ofNat
    {n : UInt64} {m : ℕ} (h : n.toNat + m < 2 ^ 64) :
  (n + UInt64.ofNat m).toNat = n.toNat + m
  := by
  have hlt : m < 2 ^ 64 := by omega
  have hm : (UInt64.ofNat m).toNat = m := UInt64.toNat_ofNat_of_lt' hlt
  rw [UInt64.toNat_add, hm]
  exact Nat.mod_eq_of_lt h

/-- The decoder `s₁` is what the decoder `s` becomes after it has taken the chunks off its body. -/
structure Reached (s s₁ : AwsChunkedDecoder K) (chunks : List Chunk) (tail : Bytes)
    (d : ChunkSignaturePolicy K) : Prop where
  bytes : s₁.inner.bytes = tail
  failing : s₁.inner.failing = s.inner.failing
  mode : s₁.mode = s.mode
  declared : s₁.declaredDecodedLen = s.declaredDecodedLen
  decodedLen : s₁.decodedLen.toNat = s.decodedLen.toNat + (payload chunks).length
  hasher : s₁.hasher = s.hasher ++ payload chunks
  writer : s₁.writer = ⟨s.writer.written ++ payload chunks, none⟩
  policy : s₁.signaturePolicy = d
  fed : s₁.Fed
  previous : (∀ p ∈ s.previousDataChunkSize, 8192 ≤ p.toNat) →
    (∀ ch ∈ chunks, 8192 ≤ ch.data.length) → ∀ p ∈ s₁.previousDataChunkSize, 8192 ≤ p.toNat

theorem exec_decodeLoop_of_none
    (fuel : ℕ) (h : Returns (decodeChunk c) s none s') :
  exec (decodeLoop c (fuel + 1)) s = exec (decodeLoop c fuel) s'
  := by
  have hchunk : exec (decodeChunk c) s = (.ok none, s') := h
  rw [decodeLoop, exec_bind, hchunk]

/-- Every turn takes some bytes, so more turns than there are bytes make no difference. -/
theorem exec_decodeLoop_of_lt
    {fuel fuel' : ℕ} (h : s.inner.bytes.length < fuel) (h' : s.inner.bytes.length < fuel') :
  exec (decodeLoop c fuel) s = exec (decodeLoop c fuel') s
  := by
  induction fuel generalizing s fuel' with
  | zero => omega
  | succ fuel ih =>
      obtain ⟨n, rfl⟩ : ∃ n, fuel' = n + 1 := ⟨fuel' - 1, by omega⟩
      rcases hturn : exec (decodeChunk c) s with ⟨e | summary | _, s'⟩
      · rw [decodeLoop, decodeLoop, exec_bind, exec_bind, hturn]
      · obtain ⟨ch, r, w, d, hok, hbytes, -, -, -, -, -, rfl⟩ := chunk_of_decodeChunk hturn
        have hlen : r.bytes.length < s.inner.bytes.length := by
          have hpos := List.length_pos_of_ne_nil hok.nonempty
          rw [hbytes, Chunk.bytes]
          simp only [List.length_append]
          omega
        rw [exec_decodeLoop_of_none fuel hturn, exec_decodeLoop_of_none n hturn]
        apply ih
        · change r.bytes.length < fuel
          omega
        · change r.bytes.length < n
          omega
      · rw [decodeLoop, decodeLoop, exec_bind, exec_bind, hturn]

/-- The loop takes the chunks at the front of the body, as long as they fit. -/
theorem exists_reached
    {chunks : List Chunk} {tail : Bytes} {d : ChunkSignaturePolicy K} (hfed : s.Fed)
    (hchunks : ∀ ch ∈ chunks, ChunkOk c ParsedSize s.mode.signedChunkAlgorithm ch)
    (hbytes : s.inner.bytes = chunks.flatMap (Chunk.bytes s.mode.signedChunkAlgorithm) ++ tail)
    (hroom : s.writer.room = none)
    (hlarge : ∀ n ∈ nonFinalSizes s.previousDataChunkSize chunks, 8192 ≤ n)
    (hlen : s.decodedLen.toNat + (payload chunks).length ≤ s.declaredDecodedLen.toNat)
    (hfol : Follows c s.mode.expectsChunkSignature s.signaturePolicy chunks d) :
  ∃ s₁, Reached s s₁ chunks tail d ∧
    ∀ fuel, exec (decodeLoop c (chunks.length + fuel)) s = exec (decodeLoop c fuel) s₁
  := by
  induction chunks generalizing s with
  | nil =>
      use s
      have hwriter : s.writer = ⟨s.writer.written ++ [], none⟩ := by
        rw [List.append_nil, ← hroom]
      constructor
      · exact ⟨hbytes, rfl, rfl, rfl, rfl, (List.append_nil _).symm, hwriter, hfol.symm, hfed,
          fun h _ => h⟩
      · intro fuel
        rw [List.length_nil, Nat.zero_add]
  | cons ch chunks ih =>
      obtain ⟨hok, hchunks⟩ := List.forall_mem_cons.mp hchunks
      obtain ⟨d₁, had, hfol⟩ := hfol
      have hpay : (payload (ch :: chunks)).length = ch.data.length + (payload chunks).length :=
        List.length_append
      have hdeclared := s.declaredDecodedLen.toNat_lt
      have hsize : (UInt64.ofNat ch.data.length).toNat = ch.data.length :=
        UInt64.toNat_ofNat_of_lt' hok.header.size.lt
      rw [nonFinalSizes_cons _ _ _ hok.header.size.lt, List.forall_mem_append] at hlarge
      have hprev : ∀ p ∈ s.previousDataChunkSize, 8192 ≤ p.toNat := by
        intro p hp
        exact hlarge.1 _ (List.mem_map_of_mem (Option.mem_toList.mpr hp))
      rw [List.flatMap_cons, List.append_assoc] at hbytes
      obtain ⟨r, hchunk, hr, hfail⟩ := exists_decodeChunk hok hbytes hroom hprev
        (by rw [toNat_saturatingAdd, hsize]; omega) had
      have hnext : (s.decodedLen + UInt64.ofNat ch.data.length).toNat
          = s.decodedLen.toNat + ch.data.length := toNat_add_ofNat (by omega)
      obtain ⟨s₁, hreach, hrun⟩ := ih (s := s.turned r ⟨s.writer.written ++ ch.data, none⟩ ch.data
        (UInt64.ofNat ch.data.length) d₁) hfed.turned hchunks hr rfl hlarge.2
        (show (s.decodedLen + UInt64.ofNat ch.data.length).toNat + (payload chunks).length
            ≤ s.declaredDecodedLen.toNat by omega) hfol
      use s₁
      constructor
      · exact {
          bytes := hreach.bytes
          failing := hreach.failing.trans hfail
          mode := hreach.mode
          declared := hreach.declared
          decodedLen := by
            rw [hreach.decodedLen, hpay]
            change (s.decodedLen + UInt64.ofNat ch.data.length).toNat + _ = _
            omega
          hasher := hreach.hasher.trans (List.append_assoc ..)
          writer := by
            rw [hreach.writer]
            exact congrArg (Sink.mk · none) (List.append_assoc ..)
          policy := hreach.policy
          fed := hreach.fed
          previous := by
            intro _ hall
            obtain ⟨hch, hall⟩ := List.forall_mem_cons.mp hall
            apply hreach.previous _ hall
            intro p hp
            obtain rfl := Option.some.inj hp
            exact hch.trans hsize.ge }
      · intro fuel
        rw [List.length_cons, Nat.add_right_comm, exec_decodeLoop_of_none _ hchunk, hrun]

theorem length_le_flatMap_bytes
    (a : Option SignedChunkAlgorithm) (chunks : List Chunk) :
  chunks.length ≤ (chunks.flatMap (Chunk.bytes a)).length
  := by
  induction chunks with
  | nil => exact le_rfl
  | cons ch chunks ih =>
      have hcrlf : crlf.length = 2 := rfl
      simp only [List.flatMap_cons, List.length_append, List.length_cons, Chunk.bytes, hcrlf]
      omega

theorem nonFinalSizes_none
    {chunks : List Chunk} :
  (∀ n ∈ nonFinalSizes none chunks, 8192 ≤ n) ↔ ∀ ch ∈ chunks.dropLast, 8192 ≤ ch.data.length
  := by
  simp [nonFinalSizes, ← List.map_dropLast]

variable {inner : Reader} {declared : UInt64} {mode : DecoderMode}
  {policy : ChunkSignaturePolicy K} {writer : Sink}

theorem fed_withModeAndSignaturePolicy :
  (withModeAndSignaturePolicy inner declared mode policy writer).Fed
  := rfl

/-- What the decoder returns for a body. -/
def summaryOf (c : Crypto K) (mode : DecoderMode) (declared : UInt64) (F : Frames) :
    DecodedSummary :=
  ⟨declared, c.sha256 F.body, Text.hexEncode (c.sha256 F.body), declaredChecksum mode F.trailer⟩

/-- A run that succeeds has decoded a body whose parts are well formed and whose signatures the
policy accepts. -/
theorem frames_of_decodeToWriter
    {summary : DecodedSummary}
    (h : Returns (decodeToWriter c)
      (withModeAndSignaturePolicy inner declared mode policy writer) summary s') :
  ∃ F : Frames, inner.bytes = F.bytes mode.signedChunkAlgorithm ∧ inner.failing = false ∧
    Framed c ParsedSize mode F ∧ Fits declared 0 F.chunks ∧ AcceptsSignatures c policy mode F ∧
    summary = summaryOf c mode declared F ∧ s'.writer.written = writer.written ++ F.body
  := by
  obtain ⟨r, s₁, hr, h⟩ := returns_bind.mp h
  obtain ⟨rfl, rfl⟩ := returns_reads.mp hr
  obtain ⟨F, hbytes, hfail, hchunks, hlarge, hzero, hending, hacc, hfits, hsummary, hw⟩ :=
    frames_of_decodeLoop fed_withModeAndSignaturePolicy h
  exact ⟨F, hbytes, hfail, ⟨hchunks, nonFinalSizes_none.mp hlarge, hzero, hending⟩, hfits, hacc,
    hsummary, hw⟩

/-- A body that is well formed, and whose signatures the policy accepts, is decoded. -/
theorem exists_decodeToWriter
    {F : Frames} (hok : FramesOk c ParsedSize mode declared.toNat F)
    (hbytes : inner.bytes = F.bytes mode.signedChunkAlgorithm) (hfail : inner.failing = false)
    (hroom : writer.room = none) (hacc : AcceptsSignatures c policy mode F) :
  ∃ s', Returns (decodeToWriter c)
      (withModeAndSignaturePolicy inner declared mode policy writer)
      (summaryOf c mode declared F) s' ∧
    s'.writer.written = writer.written ++ F.body
  := by
  obtain ⟨d₁, d₂, hfol, hadv, htrailer⟩ := hacc
  have hlen : F.body.length = declared.toNat := hok.length
  have hzero : (0 : UInt64).toNat = 0 := rfl
  obtain ⟨s₁, hreach, hrun⟩ := exists_reached
    (s := withModeAndSignaturePolicy inner declared mode policy writer) (c := c)
    fed_withModeAndSignaturePolicy hok.chunks hbytes hroom (nonFinalSizes_none.mpr hok.large)
    (by
      change (0 : UInt64).toNat + F.body.length ≤ declared.toNat
      omega) hfol
  have hmode : s₁.mode = mode := hreach.mode
  have hhasher : s₁.hasher = F.body := hreach.hasher
  have hdecoded : s₁.decodedLen = declared := by
    apply UInt64.toNat_inj.mp
    rw [hreach.decodedLen, ← hlen]
    exact Nat.zero_add _
  obtain ⟨s', hend⟩ := @exists_decodeChunk_ending K c s₁ F.zeroField F.zeroSignature F.trailer
    F.trailerSignature d₂ hreach.fed (hmode ▸ hok.zero) (hmode ▸ hreach.bytes)
    (hreach.failing.trans hfail) (by rw [hmode, hreach.policy]; exact hadv) (hmode ▸ htrailer)
    (by rw [hhasher, hmode]; exact hok.ending) (hdecoded.trans hreach.declared.symm)
  have hwriter : s'.writer = s₁.writer := by
    obtain ⟨-, -, -, -, -, -, -, -, -, -, -, -, -, hw⟩ := ending_of_decodeChunk hreach.fed hend
    exact hw
  rw [hdecoded, hhasher, hmode] at hend
  use s'
  constructor
  · refine returns_bind.mpr ⟨inner, _, returns_reads.mpr ⟨rfl, rfl⟩, ?_⟩
    have hfuel : F.chunks.length ≤ inner.bytes.length := by
      rw [hbytes, Frames.bytes, List.length_append]
      exact (length_le_flatMap_bytes _ _).trans (Nat.le_add_right _ _)
    obtain ⟨k, hk⟩ := Nat.exists_eq_add_of_le hfuel
    rw [hk, Nat.add_assoc, Returns, hrun]
    exact returns_bind.mpr ⟨_, s', hend, returns_pure.mpr ⟨rfl, rfl⟩⟩
  · rw [hwriter, hreach.writer]
    rfl

end AwsChunkedDecoder

end TinyS3Proxy
