import TinyS3Proxy.Text.Bytes

/-!
# Buffered streams of bytes

A stream comes in batch after batch, and after the last batch it ends or fails. Reading takes
bytes off the batch at hand and never looks beyond it, so that an operation which needs more
bytes than one batch has runs in a loop. What such a loop returns is determined by the bytes
that the batches hold together: where one batch ends and the next begins makes no difference.
-/

namespace Text

/-- A stream of bytes, as it comes in. -/
structure Reader where
  /-- The batches to come. -/
  batches : List Bytes
  /-- Whether reading fails after the last batch. -/
  failing : Bool

namespace Reader

/-- The bytes to come. -/
def bytes (r : Reader) : Bytes := r.batches.flatten

/-! ### Reading some bytes -/

/-- Take up to `want` bytes off the first batch that has any. -/
def takeBatch (want : ℕ) : List Bytes → Bytes × List Bytes
  | [] => ([], [])
  | [] :: rest => takeBatch want rest
  | (b :: bs) :: rest => ((b :: bs).take want, (b :: bs).drop want :: rest)

/-- Read up to `want` bytes: some bytes if there are any, none of them at the end, or a
failure. -/
def read (want : ℕ) (r : Reader) : Except Unit Bytes × Reader :=
  let taken := takeBatch want r.batches
  (if taken.1 = [] ∧ r.failing = true then .error () else .ok taken.1,
    { r with batches := taken.2 })

theorem takeBatch_append
    (want : ℕ) (bs : List Bytes) :
  (takeBatch want bs).1 ++ (takeBatch want bs).2.flatten = bs.flatten
  := by
  induction bs with
  | nil => rfl
  | cons b bs ih =>
      cases b with
      | nil => exact ih
      | cons c b => simp [takeBatch, ← List.append_assoc]

theorem takeBatch_length_le
    (want : ℕ) (bs : List Bytes) :
  (takeBatch want bs).1.length ≤ want
  := by
  induction bs with
  | nil => exact Nat.zero_le _
  | cons b bs ih =>
      cases b with
      | nil => exact ih
      | cons c b => exact List.length_take_le _ _

theorem flatten_of_takeBatch
    {want : ℕ} {bs : List Bytes} (hw : 0 < want) (h : (takeBatch want bs).1 = []) :
  bs.flatten = []
  := by
  induction bs with
  | nil => rfl
  | cons b bs ih =>
      cases b with
      | nil => exact ih h
      | cons c b =>
          obtain ⟨n, rfl⟩ := Nat.exists_eq_add_of_lt hw
          simp [takeBatch] at h

@[simp]
theorem read_failing
    (want : ℕ) (r : Reader) :
  (r.read want).2.failing = r.failing
  := rfl

/-- What is read comes off the front of the stream. -/
theorem bytes_of_read
    {want : ℕ} {r r' : Reader} {part : Bytes} (h : r.read want = (.ok part, r')) :
  r.bytes = part ++ r'.bytes ∧ part.length ≤ want ∧ r'.failing = r.failing
  := by
  rw [read, Prod.mk.injEq] at h
  obtain ⟨h, rfl⟩ := h
  split at h
  next => cases h
  next =>
    obtain rfl := Except.ok.inj h
    exact ⟨(takeBatch_append want r.batches).symm, takeBatch_length_le want r.batches, rfl⟩

/-- Nothing is read only at the end of a stream that ends. -/
theorem end_of_read
    {want : ℕ} {r r' : Reader} (hw : 0 < want) (h : r.read want = (.ok [], r')) :
  r.bytes = [] ∧ r.failing = false
  := by
  rw [read, Prod.mk.injEq] at h
  obtain ⟨h, rfl⟩ := h
  split at h
  next => cases h
  next hc =>
    have ht := Except.ok.inj h
    constructor
    · exact flatten_of_takeBatch hw ht
    · simpa [ht] using hc

/-- Reading fails only after the last byte. -/
theorem end_of_read_error
    {want : ℕ} {r r' : Reader} {u : Unit} (hw : 0 < want) (h : r.read want = (.error u, r')) :
  r.bytes = []
  := by
  rw [read, Prod.mk.injEq] at h
  obtain ⟨h, rfl⟩ := h
  split at h
  next hc => exact flatten_of_takeBatch hw hc.1
  next => cases h

/-- Where there are bytes to come, some are read. -/
theorem exists_read
    {want : ℕ} {r : Reader} (hw : 0 < want) (h : r.bytes ≠ []) :
  ∃ b part r', r.read want = (.ok (b :: part), r')
  := by
  have hne : (takeBatch want r.batches).1 ≠ [] := fun ht => h (flatten_of_takeBatch hw ht)
  obtain ⟨b, part, hb⟩ := List.exists_cons_of_ne_nil hne
  use b, part, { r with batches := (takeBatch want r.batches).2 }
  rw [read, if_neg (fun hc => hne hc.1), hb]

/-- At the end of a stream that ends, nothing is read. -/
theorem exists_read_end
    {r : Reader} (want : ℕ) (h : r.bytes = []) (hf : r.failing = false) :
  ∃ r', r.read want = (.ok [], r')
  := by
  have ht : (takeBatch want r.batches).1 = [] := by
    have happ := takeBatch_append want r.batches
    rw [bytes] at h
    rw [h] at happ
    exact (List.append_eq_nil_iff.mp happ).1
  use { r with batches := (takeBatch want r.batches).2 }
  rw [read, ht, hf]
  rfl

/-! ### Reading a number of bytes -/

/-- Why a number of bytes could not be read. -/
inductive ExactFault
  | failed
  | unexpectedEof
deriving DecidableEq

/-- Read exactly `want` bytes, in at most `fuel` reads. -/
def readExact : ℕ → ℕ → Reader → Except ExactFault Bytes × Reader
  | 0, _, r => (.ok [], r)
  | fuel + 1, want, r =>
      if want = 0 then (.ok [], r)
      else
        match r.read want with
        | (.error _, r') => (.error .failed, r')
        | (.ok [], r') => (.error .unexpectedEof, r')
        | (.ok (b :: part), r') =>
            match readExact fuel (want - (b :: part).length) r' with
            | (.ok rest, r'') => (.ok (b :: part ++ rest), r'')
            | (.error e, r'') => (.error e, r'')

/-- The bytes that are read come off the front of the stream. -/
theorem bytes_of_readExact
    {fuel want : ℕ} {r r' : Reader} {bs : Bytes} (hf : want ≤ fuel)
    (h : readExact fuel want r = (.ok bs, r')) :
  r.bytes = bs ++ r'.bytes ∧ bs.length = want ∧ r'.failing = r.failing
  := by
  induction fuel generalizing want r bs with
  | zero =>
      obtain ⟨hb, rfl⟩ := Prod.mk.inj h
      obtain rfl := Except.ok.inj hb
      exact ⟨rfl, (Nat.le_zero.mp hf).symm, rfl⟩
  | succ fuel ih =>
      rw [readExact] at h
      split at h
      next hz =>
        obtain ⟨hb, rfl⟩ := Prod.mk.inj h
        obtain rfl := Except.ok.inj hb
        exact ⟨rfl, hz.symm, rfl⟩
      next hz =>
        split at h
        next => cases (Prod.mk.inj h).1
        next => cases (Prod.mk.inj h).1
        next b part r₁ hr =>
          obtain ⟨hbytes, hlen, hfail⟩ := bytes_of_read hr
          rw [List.length_cons] at hlen h
          split at h
          next rest r₂ hrest =>
            obtain ⟨hb, rfl⟩ := Prod.mk.inj h
            obtain rfl := Except.ok.inj hb
            obtain ⟨hbytes', hlen', hfail'⟩ := ih (by omega) hrest
            rw [hbytes, hbytes', hfail', hfail]
            exact ⟨(List.append_assoc _ _ _).symm, by simp; omega, rfl⟩
          next => cases (Prod.mk.inj h).1

/-- Where the stream has enough bytes, they are read. -/
theorem exists_readExact
    {fuel want : ℕ} {r : Reader} (h : want ≤ r.bytes.length) :
  ∃ bs r', readExact fuel want r = (.ok bs, r')
  := by
  induction fuel generalizing want r with
  | zero => exact ⟨[], r, rfl⟩
  | succ fuel ih =>
      rw [readExact]
      by_cases hz : want = 0
      · exact ⟨[], r, if_pos hz⟩
      · have hne : r.bytes ≠ [] := by
          intro hnil
          rw [hnil, List.length_nil] at h
          exact hz (Nat.le_zero.mp h)
        obtain ⟨b, part, r₁, hr⟩ := exists_read (Nat.pos_of_ne_zero hz) hne
        obtain ⟨hbytes, -, -⟩ := bytes_of_read hr
        rw [hbytes, List.length_append] at h
        obtain ⟨bs, r₂, hrest⟩ := @ih (want - (b :: part).length) r₁ (by omega)
        use b :: part ++ bs, r₂
        simp only [if_neg hz, hr, hrest]

/-- Where the stream has too few bytes, it says whether it ended or failed. -/
theorem readExact_of_lt
    {fuel want : ℕ} {r : Reader} (hf : want ≤ fuel) (h : r.bytes.length < want) :
  (readExact fuel want r).1 = .error (if r.failing then .failed else .unexpectedEof)
  := by
  induction fuel generalizing want r with
  | zero => omega
  | succ fuel ih =>
      have hz : want ≠ 0 := by omega
      have hpos : 0 < want := Nat.pos_of_ne_zero hz
      rw [readExact, if_neg hz]
      rcases hr : r.read want with ⟨_ | part, r'⟩
      · have hfail : r.failing = true := by
          rw [read, Prod.mk.injEq] at hr
          by_contra hne
          rw [if_neg (fun hc => hne hc.2)] at hr
          cases hr.1
        rw [hfail]
        rfl
      · cases part with
        | nil =>
            rw [(end_of_read hpos hr).2]
            rfl
        | cons b part =>
            obtain ⟨hbytes, hlen, hfail⟩ := bytes_of_read hr
            rw [hbytes, List.length_append] at h
            rw [List.length_cons] at h hlen
            have hrest := @ih (want - (b :: part).length) r' (by simp; omega) (by simp; omega)
            rw [hfail] at hrest
            simp only
            rcases hx : readExact fuel (want - (b :: part).length) r' with ⟨e | rest, r''⟩
            · rw [hx] at hrest
              exact hrest
            · rw [hx] at hrest
              cases hrest

/-! ### Reading a line -/

/-- Why a line could not be read. -/
inductive LineFault
  | failed
  | missing
  | unterminated
  | tooLong
deriving DecidableEq

/-- Read up to the next line feed, after the bytes `buf` of the same line: at most `limit`
bytes in all. -/
def takeLine (limit : ℕ) (failing : Bool) : Bytes → List Bytes → Except LineFault Bytes × List Bytes
  | buf, [] =>
      (.error (if failing then .failed else if buf = [] then .missing else .unterminated), [])
  | buf, batch :: rest =>
      match splitOnce lf batch with
      | some (before, after) =>
          if limit < buf.length + (before.length + 1) then (.error .tooLong, batch :: rest)
          else (.ok (buf ++ (before ++ [lf])), after :: rest)
      | none =>
          if limit < buf.length + batch.length then (.error .tooLong, batch :: rest)
          else takeLine limit failing (buf ++ batch) rest

/-- Read a line of at most `limit` bytes, together with the line feed at its end. -/
def readLine (limit : ℕ) (r : Reader) : Except LineFault Bytes × Reader :=
  let taken := takeLine limit r.failing [] r.batches
  (taken.1, { r with batches := taken.2 })

theorem flatten_of_takeLine
    {limit : ℕ} {failing : Bool} {buf raw : Bytes} {bs bs' : List Bytes}
    (h : takeLine limit failing buf bs = (.ok raw, bs')) :
  ∃ line, raw = buf ++ (line ++ [lf]) ∧ lf ∉ line ∧ bs.flatten = line ++ lf :: bs'.flatten ∧
    raw.length ≤ limit
  := by
  induction bs generalizing buf with
  | nil => cases (Prod.mk.inj h).1
  | cons batch rest ih =>
      rw [takeLine] at h
      split at h
      next before after hs =>
        obtain ⟨rfl, hlf⟩ := splitOnce_eq_some.mp hs
        split at h
        next => cases (Prod.mk.inj h).1
        next hle =>
          obtain ⟨hraw, rfl⟩ := Prod.mk.inj h
          obtain rfl := Except.ok.inj hraw
          use before
          refine ⟨rfl, hlf, by simp, ?_⟩
          simp only [List.length_append, List.length_singleton]
          omega
      next hs =>
        split at h
        next => cases (Prod.mk.inj h).1
        next =>
          obtain ⟨line, rfl, hlf, hflat, hlen⟩ := ih h
          use batch ++ line
          refine ⟨by simp, ?_, by simp [hflat], hlen⟩
          rw [List.mem_append]
          exact not_or_intro (splitOnce_eq_none.mp hs) hlf

theorem exists_takeLine
    {limit : ℕ} (failing : Bool) {buf line tail : Bytes} {bs : List Bytes}
    (hflat : bs.flatten = line ++ lf :: tail) (hlf : lf ∉ line)
    (hlen : buf.length + (line.length + 1) ≤ limit) :
  ∃ bs', takeLine limit failing buf bs = (.ok (buf ++ (line ++ [lf])), bs') ∧ bs'.flatten = tail
  := by
  induction bs generalizing buf line with
  | nil => simp at hflat
  | cons batch rest ih =>
      rw [takeLine]
      rw [List.flatten_cons] at hflat
      cases hs : splitOnce lf batch with
      | some p =>
          obtain ⟨before, after⟩ := p
          obtain ⟨rfl, hbefore⟩ := splitOnce_eq_some.mp hs
          -- The first line feed is the same in the batch and in the whole stream.
          have hsplit := splitOnce_eq_some.mpr ⟨hflat, hlf⟩
          have hsplit' : splitOnce lf (before ++ lf :: after ++ rest.flatten)
              = some (before, after ++ rest.flatten) :=
            splitOnce_eq_some.mpr ⟨by simp, hbefore⟩
          obtain ⟨rfl, rfl⟩ := Prod.mk.inj (Option.some.inj (hsplit'.symm.trans hsplit))
          use after :: rest
          exact ⟨if_neg (by omega), rfl⟩
      | none =>
          have hnot := splitOnce_eq_none.mp hs
          obtain ⟨line', rfl⟩ : ∃ line', line = batch ++ line' := by
            obtain ⟨l, hl⟩ | ⟨l, hl⟩ := List.append_eq_append_iff.mp hflat
            · exact ⟨l, hl.1⟩
            · cases l with
              | nil => exact ⟨[], by simpa using hl.1.symm⟩
              | cons c l =>
                  obtain ⟨rfl, -⟩ := List.cons.inj hl.2
                  exact absurd (by rw [hl.1]; simp) hnot
          rw [List.append_assoc, List.append_cancel_left_eq] at hflat
          rw [List.length_append] at hlen
          obtain ⟨bs', htake, hbs'⟩ := @ih (buf ++ batch) line' hflat
            (fun hm => hlf (List.mem_append_right _ hm)) (by rw [List.length_append]; omega)
          use bs'
          refine ⟨?_, hbs'⟩
          simp only [if_neg (show ¬ limit < buf.length + batch.length by omega), htake]
          simp

/-- What comes of reading a line, by the bytes to come and those of the line read before. -/
def lineOutcome (limit : ℕ) (failing : Bool) (buf rest : Bytes) : Except LineFault Bytes :=
  match splitOnce lf rest with
  | some (before, _) =>
      if limit < buf.length + (before.length + 1) then .error .tooLong
      else .ok (buf ++ (before ++ [lf]))
  | none =>
      if limit < buf.length + rest.length then .error .tooLong
      else .error (if failing then .failed else if buf ++ rest = [] then .missing
        else .unterminated)

theorem takeLine_outcome
    {limit : ℕ} {failing : Bool} {buf : Bytes} {bs : List Bytes} (hbuf : buf.length ≤ limit) :
  (takeLine limit failing buf bs).1 = lineOutcome limit failing buf bs.flatten
  := by
  induction bs generalizing buf with
  | nil =>
      rw [takeLine, lineOutcome, List.flatten_nil, splitOnce_eq_none.mpr List.not_mem_nil]
      simp only [List.append_nil, List.length_nil, Nat.add_zero]
      rw [if_neg (show ¬ limit < buf.length by omega)]
  | cons batch rest ih =>
      rw [takeLine, lineOutcome, List.flatten_cons]
      cases hs : splitOnce lf batch with
      | some p =>
          obtain ⟨before, after⟩ := p
          obtain ⟨rfl, hbefore⟩ := splitOnce_eq_some.mp hs
          have hsplit : splitOnce lf (before ++ lf :: after ++ rest.flatten)
              = some (before, after ++ rest.flatten) :=
            splitOnce_eq_some.mpr ⟨by simp, hbefore⟩
          rw [hsplit]
          simp only
          split
          next => rfl
          next => rfl
      | none =>
          rw [splitOnce_append (splitOnce_eq_none.mp hs)]
          simp only
          -- A line that ends in a later batch is longer than this one.
          split
          next hlong =>
            cases splitOnce lf rest.flatten with
            | some p =>
                simp only [Option.map_some, List.length_append]
                rw [if_pos (by omega)]
            | none =>
                simp only [Option.map_none, List.length_append]
                rw [if_pos (by omega)]
          next hshort =>
            rw [ih (by rw [List.length_append]; omega), lineOutcome]
            cases splitOnce lf rest.flatten with
            | some p => simp [Nat.add_assoc]
            | none => simp [Nat.add_assoc]

/-- What comes of reading a line is determined by the bytes to come. -/
theorem readLine_outcome
    (limit : ℕ) (r : Reader) :
  (r.readLine limit).1 = lineOutcome limit r.failing [] r.bytes
  := takeLine_outcome (Nat.zero_le _)

/-- A line that is read comes off the front of the stream. -/
theorem bytes_of_readLine
    {limit : ℕ} {r r' : Reader} {raw : Bytes} (h : r.readLine limit = (.ok raw, r')) :
  ∃ line, raw = line ++ [lf] ∧ lf ∉ line ∧ r.bytes = raw ++ r'.bytes ∧ raw.length ≤ limit ∧
    r'.failing = r.failing
  := by
  rw [readLine, Prod.mk.injEq] at h
  obtain ⟨h, rfl⟩ := h
  obtain ⟨line, hraw, hlf, hflat, hlen⟩ := flatten_of_takeLine (Prod.ext h rfl)
  rw [List.nil_append] at hraw
  refine ⟨line, hraw, hlf, ?_, hlen, rfl⟩
  rw [bytes, hflat, hraw]
  simp [bytes]

/-- Where the stream starts with a line that is not too long, it is read. -/
theorem exists_readLine
    {limit : ℕ} {r : Reader} {line tail : Bytes} (h : r.bytes = line ++ lf :: tail)
    (hlf : lf ∉ line) (hlen : line.length + 1 ≤ limit) :
  ∃ r', r.readLine limit = (.ok (line ++ [lf]), r')
  := by
  obtain ⟨bs', htake, -⟩ := @exists_takeLine limit r.failing [] line tail r.batches h hlf
    (by simpa using hlen)
  use { r with batches := bs' }
  rw [readLine, htake, List.nil_append]

end Reader

end Text
