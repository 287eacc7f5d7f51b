import TinyS3Proxy.S3.Authenticity
import TinyS3Proxy.Effect.Relational

/-!
# How the body comes in

The body of a request comes in batches, and a batch may end anywhere. The decoder looks at one
batch at a time, but what it returns, what it writes and the error it fails with depend on the bytes
of the body alone.
-/

namespace Text.Reader

/-- What comes of an operation on a stream is determined by the bytes to come. -/
structure Determined {ε α : Type} (f : Reader → Except ε α × Reader) : Prop where
  outcome : ∀ {r r' : Reader}, r.bytes = r'.bytes → r.failing = r'.failing → (f r).1 = (f r').1
  rest : ∀ {r r' : Reader} {a : α}, r.bytes = r'.bytes → r.failing = r'.failing →
    (f r).1 = .ok a → (f r).2.bytes = (f r').2.bytes ∧ (f r).2.failing = (f r').2.failing

/-- An operation whose outcome is a function of the bytes, and which takes what it returns off the
front of the stream, is determined. -/
theorem determined_of_outcome
    {ε : Type} {f : Reader → Except ε Bytes × Reader} {g : Bool → Bytes → Except ε Bytes}
    (hout : ∀ r, (f r).1 = g r.failing r.bytes)
    (hrest : ∀ {r r' : Reader} {bs : Bytes}, f r = (.ok bs, r') →
      r.bytes = bs ++ r'.bytes ∧ r'.failing = r.failing) :
  Determined f
  where
  outcome := by
    intro r r' hb hf
    rw [hout, hout, hb, hf]
  rest := by
    intro r r' a hb hf ha
    have ha' : (f r').1 = .ok a := by
      rw [hout, ← hb, ← hf, ← hout]
      exact ha
    obtain ⟨hbytes, hfail⟩ := hrest (Prod.ext ha rfl)
    obtain ⟨hbytes', hfail'⟩ := hrest (Prod.ext ha' rfl)
    constructor
    · apply @List.append_cancel_left _ a
      rw [← hbytes, ← hbytes', hb]
    · rw [hfail, hfail', hf]

theorem determined_readLine
    (limit : ℕ) :
  Determined (readLine limit)
  := by
  apply determined_of_outcome (g := fun failing bs => lineOutcome limit failing [] bs)
  · intro r
    exact readLine_outcome limit r
  · intro r r' bs h
    obtain ⟨-, -, -, hbytes, -, hfail⟩ := bytes_of_readLine h
    exact ⟨hbytes, hfail⟩

theorem determined_readExact
    (want : ℕ) :
  Determined (readExact want want)
  := by
  apply determined_of_outcome (g := fun failing bs =>
    if want ≤ bs.length then .ok (bs.take want)
    else .error (if failing then .failed else .unexpectedEof))
  · intro r
    split
    next hlen =>
      obtain ⟨bs, r', hr⟩ := @exists_readExact want want r hlen
      obtain ⟨hbytes, hbs, -⟩ := bytes_of_readExact le_rfl hr
      rw [hr, hbytes, ← hbs, List.take_left]
    next hlen => exact readExact_of_lt le_rfl (not_le.mp hlen)
  · intro r r' bs h
    obtain ⟨hbytes, -, hfail⟩ := bytes_of_readExact le_rfl h
    exact ⟨hbytes, hfail⟩

/-- Reading where there is nothing to come, ends or fails. -/
theorem read_of_nil
    {r : Reader} (want : ℕ) (h : r.bytes = []) :
  (r.read want).1 = if r.failing then .error () else .ok []
  := by
  have ht : (takeBatch want r.batches).1 = [] := by
    have happ := takeBatch_append want r.batches
    rw [bytes] at h
    rw [h] at happ
    exact (List.append_eq_nil_iff.mp happ).1
  rw [read, ht]
  simp

/-- The next byte does not depend on the batches. -/
theorem determined_read_one :
  Determined (read 1)
  := by
  apply determined_of_outcome (g := fun failing bs =>
    if bs = [] then if failing then .error () else .ok [] else .ok (bs.take 1))
  · intro r
    cases hb : r.bytes with
    | nil => exact read_of_nil 1 hb
    | cons b bs =>
        obtain ⟨b', part, r', hr⟩ := @exists_read 1 r one_pos (by rw [hb]; exact List.cons_ne_nil _ _)
        obtain ⟨hbytes, hlen, -⟩ := bytes_of_read hr
        obtain rfl : part = [] := List.length_eq_zero_iff.mp (by simpa using hlen)
        rw [hb] at hbytes
        rw [hr, if_neg (List.cons_ne_nil b bs), (List.cons.inj hbytes).1]
        rfl
  · intro r r' bs h
    obtain ⟨hbytes, -, hfail⟩ := bytes_of_read h
    exact ⟨hbytes, hfail⟩

end Text.Reader

namespace TinyS3Proxy

open Text (Bytes Reader ascii lf crlf)
open Effect

namespace AwsChunkedDecoder

variable {K α : Type} {c : Crypto K} {s t : AwsChunkedDecoder K}

/-- The decoders differ in the batches of the body only. -/
structure Refragmented (s t : AwsChunkedDecoder K) : Prop where
  rest : t = { s with inner := t.inner }
  bytes : s.inner.bytes = t.inner.bytes
  failing : s.inner.failing = t.inner.failing

/-- A part of the decoder other than the body is the same. -/
theorem Refragmented.congr
    (h : Refragmented s t) (f : AwsChunkedDecoder K → α)
    (hf : ∀ r, f { s with inner := r } = f s) :
  f s = f t
  := ((congrArg f h.rest).trans (hf _)).symm

/-! ### Code that only reads -/

theorem agrees_fromInner
    {ε : Type} {f : Reader → Except ε α × Reader} (hf : Reader.Determined f)
    (fault : ε → AwsChunkedError) :
  Agrees Refragmented (fromInner f fault : Dec K α)
  := by
  apply agrees_attempt
  · intro s t h
    exact hf.outcome h.bytes h.failing
  · intro s t a h ha
    obtain ⟨hbytes, hfailing⟩ := hf.rest h.bytes h.failing ha
    refine ⟨?_, hbytes, hfailing⟩
    rw [h.rest]

theorem agrees_field
    {f : AwsChunkedDecoder K → α} (hf : ∀ s r, f { s with inner := r } = f s) :
  Agrees Refragmented (reads f : Dec K α)
  := agrees_reads fun s _ h => h.congr f (hf s)

theorem agrees_update
    {f : AwsChunkedDecoder K → AwsChunkedDecoder K}
    (hf : ∀ s r, f { s with inner := r } = { f s with inner := r })
    (hinner : ∀ s, (f s).inner = s.inner) :
  Agrees Refragmented (modify f : Dec K Unit)
  := by
  apply agrees_modify
  intro s t h
  refine ⟨?_, ?_, ?_⟩
  · rw [hinner, h.rest, hf]
  · rw [hinner, hinner]
    exact h.bytes
  · rw [hinner, hinner]
    exact h.failing

theorem agrees_readHeader
    (a : Option SignedChunkAlgorithm) :
  Agrees Refragmented (readHeader c a)
  := ((agrees_fromInner (Reader.determined_readLine _) _).bind fun _ =>
    (agrees_demand _ _).bind fun header => (agrees_require _ _).bind fun _ =>
      agrees_pure header).bind fun _ => agrees_outcome _

theorem agrees_expectCrlf :
  Agrees Refragmented (expectCrlf : Dec K Unit)
  := (agrees_fromInner (Reader.determined_readExact 2) _).bind fun _ => agrees_require _ _

theorem agrees_expectEof :
  Agrees Refragmented (expectEof : Dec K Unit)
  := (agrees_fromInner Reader.determined_read_one _).bind fun _ => agrees_require _ _

theorem agrees_readTrailerFields
    (expectedName : Bytes) (fault : AwsChunkedError → AwsChunkedError)
    (missing : Bytes → AwsChunkedError) :
  Agrees Refragmented (readTrailerFields expectedName fault missing : Dec K (Bytes × Bytes))
  := ((agrees_fromInner (Reader.determined_readLine _) _).bind fun _ =>
    (agrees_demand _ _).bind fun line => (agrees_require _ _).bind fun _ =>
      (agrees_require _ _).bind fun _ => agrees_pure line).bind fun _ => agrees_demand _ _

theorem agrees_readAndValidateTrailer
    (expectedName : Bytes) (algorithm : ChecksumAlgorithm) :
  Agrees Refragmented (readAndValidateTrailer c expectedName algorithm)
  := (agrees_readTrailerFields _ _ _).bind fun _ => (agrees_require _ _).bind fun _ =>
    (agrees_outcome _).bind fun _ => (agrees_require _ _).bind fun _ => agrees_pure _

theorem agrees_readAndValidateTrailerSignature
    (algorithm : SignedChunkAlgorithm) :
  Agrees Refragmented (readAndValidateTrailerSignature c algorithm)
  := (agrees_readTrailerFields _ _ _).bind fun _ => (agrees_require _ _).bind fun _ =>
    (agrees_outcome _).bind fun _ => agrees_pure _

theorem agrees_verifyTrailerSignature
    (header : ChecksumHeader) :
  Agrees Refragmented (verifyTrailerSignature c header)
  := (agrees_field fun _ _ => rfl).bind fun _ => (agrees_demand _ _).bind fun algorithm =>
    (agrees_readAndValidateTrailerSignature algorithm).bind fun _ =>
      (agrees_field fun _ _ => rfl).bind fun _ => agrees_outcome _

theorem agrees_end
    (x : α) :
  Agrees Refragmented (do expectCrlf; expectEof; pure x : Dec K α)
  := agrees_expectCrlf.bind fun _ => agrees_expectEof.bind fun _ => agrees_pure x

theorem agrees_readTrailer :
  Agrees Refragmented (readTrailer c)
  := by
  refine (agrees_field fun _ _ => rfl).bind fun mode => ?_
  cases mode with
  | nonTrailer a => exact agrees_end none
  | unsignedTrailer name a =>
      exact (agrees_readAndValidateTrailer name a).bind fun header => agrees_end (some header)
  | signedTrailer name a b =>
      exact (agrees_readAndValidateTrailer name a).bind fun header =>
        (agrees_verifyTrailerSignature header).bind fun _ => agrees_end (some header)

theorem agrees_verifyIfSigned
    (hashHex : Bytes) (signatureHex : Option Bytes) :
  Agrees Refragmented (verifyIfSigned c hashHex signatureHex)
  := by
  refine (agrees_field fun _ _ => rfl).bind fun mode => ?_
  split
  next =>
    exact (agrees_demand _ _).bind fun _ => (agrees_field fun _ _ => rfl).bind fun _ =>
      (agrees_field fun _ _ => rfl).bind fun _ => (agrees_outcome _).bind fun _ =>
        agrees_update (by intros; rfl) (by intros; rfl)
  next => exact agrees_pure ()

theorem agrees_checkTrailer
    (sha256 : Bytes) (algoHasher : Option Bytes) (header : ChecksumHeader) :
  Agrees Refragmented (checkTrailer c sha256 algoHasher header)
  := by
  refine (agrees_outcome _).bind fun expected => ?_
  have hside : ∀ f : Bytes → Bytes, Agrees Refragmented (do
      let hasher ← demand algoHasher .panicked
      let computed ← pure (f hasher)
      require (computed = expected) (.trailerChecksumMismatch header.name) : Dec K Unit) :=
    fun f => (agrees_demand _ _).bind fun _ => (agrees_pure _).bind fun _ => agrees_require _ _
  cases header.algorithm with
  | sha256 => exact (agrees_pure _).bind fun _ => agrees_require _ _
  | crc32 => exact hside _
  | crc32C => exact hside _
  | crc64Nvme => exact hside _
  | sha1 => exact hside _

theorem agrees_finalize
    (signatureHex : Option Bytes) :
  Agrees Refragmented (finalize c signatureHex)
  := by
  refine (agrees_verifyIfSigned _ _).bind fun _ => (agrees_field fun _ _ => rfl).bind fun _ =>
    agrees_readTrailer.bind fun trailer => (agrees_field fun _ _ => rfl).bind fun _ =>
      (agrees_field fun _ _ => rfl).bind fun _ => (agrees_require _ _).bind fun _ =>
        (agrees_field fun _ _ => rfl).bind fun _ => ?_
  cases trailer with
  | none => exact agrees_pure _
  | some header => exact (agrees_checkTrailer _ _ _).bind fun _ => agrees_pure _

/-! ### Payload -/

/-- What comes of copying a payload, by the bytes to come and the room in the file: the data and
the file after it, or an error. -/
def copyOutcome (failing : Bool) (bytes : Bytes) (w : Sink) (remaining : ℕ) :
    Except AwsChunkedError (Bytes × Sink) :=
  let data := bytes.take remaining
  if w.room.all (data.length ≤ ·) then
    if remaining ≤ bytes.length then
      .ok (data, ⟨w.written ++ data, w.room.map (· - data.length)⟩)
    else .error (if failing then .inboundIo else .truncated)
  else .error .spoolIo

/-- The payload is what the bytes determine. -/
def CopiedAs (fuel : ℕ) (remaining : UInt64) (chunkHasher : Bytes) (s : AwsChunkedDecoder K) :
    Except AwsChunkedError (Bytes × Sink) → Prop
  | .ok (data, w) =>
      ∃ r, Returns (copyRemaining fuel remaining chunkHasher) s (chunkHasher ++ data)
          (s.copied r w data) ∧
        r.bytes = s.inner.bytes.drop remaining.toNat ∧ r.failing = s.inner.failing
  | .error e => ∃ s', Fails (copyRemaining fuel remaining chunkHasher) s e s'

theorem copiedAs_zero
    {fuel : ℕ} {remaining : UInt64} {chunkHasher : Bytes}
    (hrun : copyRemaining fuel remaining chunkHasher = (pure chunkHasher : Dec K Bytes))
    (hzero : remaining.toNat = 0) :
  CopiedAs fuel remaining chunkHasher s
    (copyOutcome s.inner.failing s.inner.bytes s.writer remaining.toNat)
  := by
  have hsink : Sink.mk (s.writer.written ++ []) (s.writer.room.map (· - 0)) = s.writer := by
    simp
  rw [hzero, copyOutcome, List.take_zero, List.length_nil, if_pos (by simp),
    if_pos (Nat.zero_le _), hsink]
  refine ⟨s.inner, ?_, ?_, rfl⟩
  · rw [hrun, List.append_nil]
    exact returns_pure.mpr ⟨rfl, by simp [copied]⟩
  · rw [hzero, List.drop_zero]

/-- Bytes are written when there is room for them. -/
theorem writeAll_eq_ok
    {part : Bytes} {w w' : Sink} {u : Unit} (h : w.writeAll part = (.ok u, w')) :
  w.room.all (part.length ≤ ·) = true ∧
    w' = ⟨w.written ++ part, w.room.map (· - part.length)⟩
  := by
  obtain ⟨written, room⟩ := w
  cases room with
  | none =>
      obtain ⟨-, rfl⟩ := Prod.mk.inj h
      exact ⟨rfl, rfl⟩
  | some n =>
      simp only [Sink.writeAll] at h
      split at h
      next hfit =>
        obtain ⟨-, rfl⟩ := Prod.mk.inj h
        exact ⟨decide_eq_true hfit, rfl⟩
      next => cases (Prod.mk.inj h).1

theorem writeAll_eq_error
    {part : Bytes} {w w' : Sink} {u : Unit} (h : w.writeAll part = (.error u, w')) :
  w.room.all (part.length ≤ ·) = false
  := by
  obtain ⟨written, room⟩ := w
  cases room with
  | none => cases (Prod.mk.inj h).1
  | some n =>
      simp only [Sink.writeAll] at h
      split at h
      next => cases (Prod.mk.inj h).1
      next hfit => exact decide_eq_false hfit

/-- There is room for two parts if there is room for the second after the first. -/
theorem all_room_add
    {room : Option ℕ} {m : ℕ} (h : room.all (m ≤ ·) = true) (n : ℕ) :
  room.all (m + n ≤ ·) = (room.map (· - m)).all (n ≤ ·)
  := by
  cases room with
  | none => rfl
  | some k =>
      have hle : m ≤ k := of_decide_eq_true h
      have hiff : m + n ≤ k ↔ n ≤ k - m := by omega
      exact decide_eq_decide.mpr hiff

/-- What comes of copying the first part of a payload, and then the rest. -/
theorem copyOutcome_append
    {failing : Bool} {part bytes : Bytes} {w : Sink} {remaining : ℕ}
    (hle : part.length ≤ remaining) (hroom : w.room.all (part.length ≤ ·) = true) :
  copyOutcome failing (part ++ bytes) w remaining
    = (copyOutcome failing bytes ⟨w.written ++ part, w.room.map (· - part.length)⟩
        (remaining - part.length)).map fun r => (part ++ r.1, r.2)
  := by
  have htake : (part ++ bytes).take remaining = part ++ bytes.take (remaining - part.length) := by
    rw [List.take_append, List.take_of_length_le hle]
  have hlen : remaining ≤ (part ++ bytes).length ↔ remaining - part.length ≤ bytes.length := by
    rw [List.length_append]
    omega
  simp only [copyOutcome]
  rw [htake, List.length_append, all_room_add hroom, if_congr hlen rfl rfl]
  split
  next =>
    split
    next => simp [Except.map, Nat.sub_sub, Function.comp_def]
    next => rfl
  next => rfl

/-- Where nothing is to come, copying fails. -/
theorem copyOutcome_nil
    {failing : Bool} {w : Sink} {remaining : ℕ} (h : 0 < remaining) :
  copyOutcome failing [] w remaining = .error (if failing then .inboundIo else .truncated)
  := by
  have hall : w.room.all ((([] : Bytes).take remaining).length ≤ ·) = true := by simp
  rw [copyOutcome, if_pos hall, if_neg (by simpa using h.ne')]

/-- Where the first part does not fit, writing fails. -/
theorem copyOutcome_full
    {failing : Bool} {part bytes : Bytes} {w : Sink} {remaining : ℕ}
    (hle : part.length ≤ remaining) (hroom : w.room.all (part.length ≤ ·) = false) :
  copyOutcome failing (part ++ bytes) w remaining = .error .spoolIo
  := by
  have hlen : part.length ≤ ((part ++ bytes).take remaining).length := by
    rw [List.length_take, List.length_append]
    omega
  have hall : ¬ w.room.all (((part ++ bytes).take remaining).length ≤ ·) = true := by
    cases hw : w.room with
    | none =>
        rw [hw] at hroom
        cases hroom
    | some n =>
        rw [hw] at hroom
        have hnot : ¬ part.length ≤ n := of_decide_eq_false hroom
        intro h
        exact hnot (hlen.trans (of_decide_eq_true h))
  rw [copyOutcome, if_neg hall]

theorem CopiedAs.append
    {fuel : ℕ} {remaining : UInt64} {chunkHasher part : Bytes} {r : Reader} {w : Sink}
    {x : Except AwsChunkedError (Bytes × Sink)} (hlen : part.length ≤ remaining.toNat)
    (hbytes : s.inner.bytes = part ++ r.bytes) (hfail : r.failing = s.inner.failing)
    (hrun : exec (copyRemaining (fuel + 1) remaining chunkHasher) s
      = exec (copyRemaining fuel (remaining - UInt64.ofNat part.length) (chunkHasher ++ part))
        (s.copied r w part))
    (h : CopiedAs fuel (remaining - UInt64.ofNat part.length) (chunkHasher ++ part)
      (s.copied r w part) x) :
  CopiedAs (fuel + 1) remaining chunkHasher s (x.map fun r => (part ++ r.1, r.2))
  := by
  rcases x with e | ⟨data, w'⟩
  · obtain ⟨s', h⟩ := h
    use s'
    rw [Fails, hrun]
    exact h
  · obtain ⟨r', h, hr', hf'⟩ := h
    use r'
    refine ⟨?_, ?_, hf'.trans hfail⟩
    · rw [Returns, hrun, ← List.append_assoc, ← copied_copied r r' w w' part data]
      exact h
    · have hrest : r'.bytes = r.bytes.drop (remaining - UInt64.ofNat part.length).toNat := hr'
      rw [hrest, hbytes, toNat_remaining hlen, List.drop_append, List.drop_of_length_le hlen,
        List.nil_append]

theorem copiedAs_copyRemaining
    {fuel : ℕ} {remaining : UInt64} {chunkHasher : Bytes} (hf : remaining.toNat ≤ fuel) :
  CopiedAs fuel remaining chunkHasher s
    (copyOutcome s.inner.failing s.inner.bytes s.writer remaining.toNat)
  := by
  induction fuel generalizing s remaining chunkHasher with
  | zero => exact copiedAs_zero rfl (Nat.le_zero.mp hf)
  | succ fuel ih =>
      by_cases hne : remaining = 0
      · exact copiedAs_zero (by rw [copyRemaining, if_pos hne]) (by rw [hne]; rfl)
      · obtain ⟨hpos, hle⟩ := want_bounds hne
        have hrun := @exec_copyRemaining _ s fuel _ chunkHasher hne
        rcases hr : s.inner.read (min remaining copyBuffer).toNat with ⟨_ | part, r⟩
        · have hnil := Reader.end_of_read_error hpos hr
          have hfail := Reader.read_of_nil (min remaining copyBuffer).toNat hnil
          rw [hr] at hrun hfail
          rw [hnil, copyOutcome_nil (hpos.trans_le hle)]
          split at hfail
          next hf => exact ⟨_, by rw [if_pos hf]; exact hrun⟩
          next => cases hfail
        · obtain ⟨hbytes, hlen, hfail⟩ := Reader.bytes_of_read hr
          rw [hr] at hrun
          by_cases hpart : part = []
          · rw [hpart] at hr
            obtain ⟨hnil, hend⟩ := Reader.end_of_read hpos hr
            rw [hnil, copyOutcome_nil (hpos.trans_le hle), hend]
            simp only [if_pos hpart] at hrun
            exact ⟨_, hrun⟩
          · simp only [if_neg hpart] at hrun
            have hplen : 0 < part.length := List.length_pos_of_ne_nil hpart
            have hsub := toNat_remaining (hlen.trans hle)
            rcases hw : s.writer.writeAll part with ⟨_ | _, w⟩
            · rw [hw] at hrun
              rw [hbytes, copyOutcome_full (hlen.trans hle) (writeAll_eq_error hw)]
              exact ⟨_, hrun⟩
            · obtain ⟨hroom, rfl⟩ := writeAll_eq_ok hw
              have hwrap : (s.wrapped || decide (remaining.toNat < part.length)) = s.wrapped := by
                rw [decide_eq_false (by omega), Bool.or_false]
              rw [hw, hwrap] at hrun
              rw [hbytes, copyOutcome_append (hlen.trans hle) hroom, ← hsub, ← hfail]
              exact (ih (by omega)).append (hlen.trans hle) hbytes hfail hrun

theorem agrees_copyRemaining
    {fuel : ℕ} {remaining : UInt64} {chunkHasher : Bytes} (hf : remaining.toNat ≤ fuel) :
  Agrees Refragmented (copyRemaining fuel remaining chunkHasher : Dec K Bytes)
  := by
  -- The runs from both decoders follow the same outcome.
  have hcases : ∀ {s t : AwsChunkedDecoder K}, Refragmented s t →
      (∃ e s' t', Fails (copyRemaining fuel remaining chunkHasher) s e s' ∧
        Fails (copyRemaining fuel remaining chunkHasher) t e t') ∨
      ∃ out s' t', Returns (copyRemaining fuel remaining chunkHasher) s out s' ∧
        Returns (copyRemaining fuel remaining chunkHasher) t out t' ∧ Refragmented s' t' := by
    intro s t h
    have hs := @copiedAs_copyRemaining _ s _ _ chunkHasher hf
    have ht := @copiedAs_copyRemaining _ t _ _ chunkHasher hf
    rw [← h.bytes, ← h.failing, ← h.congr AwsChunkedDecoder.writer fun _ => rfl] at ht
    rcases hx : copyOutcome s.inner.failing s.inner.bytes s.writer remaining.toNat with
      e | ⟨data, w⟩
    · rw [hx] at hs ht
      obtain ⟨s', hs⟩ := hs
      obtain ⟨t', ht⟩ := ht
      exact Or.inl ⟨e, s', t', hs, ht⟩
    · rw [hx] at hs ht
      obtain ⟨r, hs, hr, hfail⟩ := hs
      obtain ⟨r', ht, hr', hfail'⟩ := ht
      refine Or.inr ⟨_, _, _, hs, ht, ?_, ?_, ?_⟩
      · rw [h.rest]
        rfl
      · exact hr.trans ((congrArg (List.drop _) h.bytes).trans hr'.symm)
      · exact hfail.trans (h.failing.trans hfail'.symm)
  constructor
  · intro s t h
    obtain ⟨e, s', t', hs, ht⟩ | ⟨out, s', t', hs, ht, -⟩ := hcases h
    · rw [Fails] at hs ht
      rw [hs, ht]
    · rw [Returns] at hs ht
      rw [hs, ht]
  · intro s t a h ha
    obtain ⟨e, s', t', hs, -⟩ | ⟨out, s', t', hs, ht, hrest⟩ := hcases h
    · rw [Fails] at hs
      rw [hs] at ha
      cases ha
    · rw [Returns] at hs ht
      rw [hs, ht]
      exact hrest

/-! ### Runs -/

theorem agrees_checkPreviousChunk :
  Agrees Refragmented (checkPreviousChunk : Dec K Unit)
  := by
  refine (agrees_field fun _ _ => rfl).bind fun previous => ?_
  cases previous with
  | none => exact agrees_pure _
  | some size =>
      simp only
      split
      next =>
        exact (agrees_field fun _ _ => rfl).bind fun _ =>
          (agrees_update (by intros; rfl) (by intros; rfl)).bind fun _ => agrees_throw _
      next => exact agrees_pure _

theorem agrees_decodeData
    (parsed : ParsedChunkHeader) :
  Agrees Refragmented (decodeData c parsed)
  := agrees_checkPreviousChunk.bind fun _ => (agrees_field fun _ _ => rfl).bind fun _ =>
    (agrees_field fun _ _ => rfl).bind fun _ => (agrees_require _ _).bind fun _ =>
    ((agrees_copyRemaining le_rfl).bind fun _ => agrees_pure _).bind fun _ =>
    (agrees_verifyIfSigned _ _).bind fun _ => agrees_expectCrlf.bind fun _ =>
    (agrees_update (by intros; rfl) (by intros; rfl)).bind fun _ =>
    (agrees_update (by intros; rfl) (by intros; rfl)).bind fun _ =>
    (agrees_field fun _ _ => rfl).bind fun _ =>
    (agrees_update (by intros; rfl) (by intros; rfl)).bind fun _ =>
    agrees_update (by intros; rfl) (by intros; rfl)

theorem agrees_decodeChunk :
  Agrees Refragmented (decodeChunk c)
  := by
  refine (agrees_field fun _ _ => rfl).bind fun mode => (agrees_readHeader _).bind fun parsed => ?_
  split
  next => exact (agrees_finalize _).bind fun _ => agrees_pure _
  next => exact (agrees_decodeData _).bind fun _ => agrees_pure _

theorem agrees_decodeLoop
    (fuel : ℕ) :
  Agrees Refragmented (decodeLoop c fuel)
  := by
  induction fuel with
  | zero => exact agrees_throw _
  | succ fuel ih =>
      refine agrees_decodeChunk.bind fun result => ?_
      cases result with
      | none => exact ih
      | some summary => exact agrees_pure _

theorem agrees_decodeToWriter :
  Agrees Refragmented (decodeToWriter c)
  := by
  have hloop : ∀ s : AwsChunkedDecoder K,
      exec (decodeToWriter c) s = exec (decodeLoop c (s.inner.bytes.length + 1)) s := fun s => rfl
  constructor
  · intro s t h
    rw [hloop, hloop, h.bytes]
    exact (agrees_decodeLoop _).outcome h
  · intro s t a h ha
    rw [hloop, h.bytes] at ha
    rw [hloop, hloop, h.bytes]
    exact (agrees_decodeLoop _).state h ha

/-- Two streams of the same bytes are decoded alike: both runs fail with the same error, or they
return the same summary and have written the same bytes. -/
theorem decoded_alike
    {batches batches' : List Bytes} (h : batches.flatten = batches'.flatten) (failing : Bool)
    (declared : UInt64) (mode : DecoderMode) (policy : ChunkSignaturePolicy K) (writer : Sink) :
  (∃ e s s', Fails (decodeToWriter c)
      (withModeAndSignaturePolicy ⟨batches, failing⟩ declared mode policy writer) e s ∧
    Fails (decodeToWriter c)
      (withModeAndSignaturePolicy ⟨batches', failing⟩ declared mode policy writer) e s') ∨
  ∃ summary s s', Returns (decodeToWriter c)
      (withModeAndSignaturePolicy ⟨batches, failing⟩ declared mode policy writer) summary s ∧
    Returns (decodeToWriter c)
      (withModeAndSignaturePolicy ⟨batches', failing⟩ declared mode policy writer) summary s' ∧
    s.writer = s'.writer
  := by
  have hstart : Refragmented
      (withModeAndSignaturePolicy ⟨batches, failing⟩ declared mode policy writer)
      (withModeAndSignaturePolicy ⟨batches', failing⟩ declared mode policy writer) := ⟨rfl, h, rfl⟩
  have hout := (agrees_decodeToWriter (c := c)).outcome hstart
  rcases hs : exec (decodeToWriter c)
    (withModeAndSignaturePolicy ⟨batches, failing⟩ declared mode policy writer) with ⟨e | summary, s⟩
  · rcases ht : exec (decodeToWriter c)
      (withModeAndSignaturePolicy ⟨batches', failing⟩ declared mode policy writer) with ⟨e' | x, s'⟩
    · rw [hs, ht] at hout
      obtain rfl := Except.error.inj hout
      exact Or.inl ⟨e, s, s', hs, ht⟩
    · rw [hs, ht] at hout
      cases hout
  · have hstate := agrees_decodeToWriter.state hstart (congrArg Prod.fst hs)
    rcases ht : exec (decodeToWriter c)
      (withModeAndSignaturePolicy ⟨batches', failing⟩ declared mode policy writer) with ⟨e' | x, s'⟩
    · rw [hs, ht] at hout
      cases hout
    · rw [hs, ht] at hout hstate
      obtain rfl := Except.ok.inj hout
      exact Or.inr ⟨summary, s, s', hs, ht, hstate.congr AwsChunkedDecoder.writer fun _ => rfl⟩

/-- A body that comes in with its first carriage return at the end of a batch is decoded as in one
piece. -/
theorem decoded_alike_hello :
  ∃ summary s s', Returns (decodeToWriter (sampleCrypto longer))
      (.withModeAndSignaturePolicy (helloReader (ascii "5")) 5 (.nonTrailer .hmacSha256)
        (.verifyHmac sampleContext) ⟨[], none⟩) summary s ∧
    Returns (decodeToWriter (sampleCrypto longer))
      (.withModeAndSignaturePolicy
        ⟨[((helloFrames (ascii "5")).bytes (some .hmacSha256)).take 83,
          ((helloFrames (ascii "5")).bytes (some .hmacSha256)).drop 83], false⟩
        5 (.nonTrailer .hmacSha256) (.verifyHmac sampleContext) ⟨[], none⟩) summary s' ∧
    s.writer = s'.writer
  := by
  have hsize : Text.fromStrRadix16 (ascii "5") = some 5 := by decide
  have hlen : (ascii "5").length ≤ 2 := by decide
  have hflat : [(helloFrames (ascii "5")).bytes (some .hmacSha256)].flatten
      = [((helloFrames (ascii "5")).bytes (some .hmacSha256)).take 83,
        ((helloFrames (ascii "5")).bytes (some .hmacSha256)).drop 83].flatten := by
    simp
  obtain ⟨summary, s, hrun⟩ := helloReader_decoded hsize hlen
  obtain ⟨e, s₁, -, hfail, -⟩ | h := decoded_alike (c := sampleCrypto longer) hflat false 5
    (.nonTrailer .hmacSha256) (.verifyHmac sampleContext) ⟨[], none⟩
  · cases (Prod.mk.inj (hfail.symm.trans hrun)).1
  · exact h

end AwsChunkedDecoder

end TinyS3Proxy
