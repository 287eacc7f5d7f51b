import TinyS3Proxy.Cache.State
import TinyS3Proxy.Effect.Outcome
import TinyS3Proxy.Keyed.Listing
import TinyS3Proxy.Text.Encoding
import TinyS3Proxy.Text.Ends

/-!
# Names of temporary files

The files that the writers of the cache leave in `tmp` when the process ends are recognised by their
names, and removed at the next start (`cache/tmp_sweep.rs`). The names that are recognised are those
that have the shape of the names of some writer.
-/

namespace TinyS3Proxy.TmpSweep

open Text (Bytes ascii stripSuffix splitOnce rsplitOnce isDigits toDecimal)
open Effect

/-- The writers of temporary files. -/
inductive TmpSweepKind
  | fillBody
  | fillIdCounter
  | commitMeta
  | metadataTmp
  | publishBackupBody
  | publishBackupMeta
  | uploadSpool
  | readyzProbe
deriving DecidableEq

/-! ### Recognising names -/

/-- The string consists of thirty-two hexadecimal digits in lower case. -/
def isLowercaseHex32 (s : Bytes) : Bool := s.length = 32 && s.all Text.isLowerHex

def isTwoDigitSegments (stem : Bytes) : Bool :=
  match splitOnce 45 stem with
  | some (a, b) => isDigits a && isDigits b
  | none => false

def isThreeDigitSegments (stem : Bytes) : Bool :=
  match stem.splitOn 45 with
  | [a, b, c] => isDigits a && isDigits b && isDigits c
  | _ => false

/-- The process, the hash and the counter of a name. -/
def isMetadataStem (stem : Bytes) : Bool :=
  match splitOnce 45 stem with
  | none => false
  | some (pid, rest) =>
      match rsplitOnce 45 rest with
      | none => false
      | some (hash, counter) => isDigits pid && isLowercaseHex32 hash && isDigits counter

/-- The writer that a name is recognised as, if there is one. -/
def classify (name : Bytes) : Option TmpSweepKind :=
  if name = ascii ".readyz-probe" then some .readyzProbe
  else
  match stripSuffix (ascii ".prev.body") name with
  | some stem => if isTwoDigitSegments stem then some .publishBackupBody else none
  | none =>
  match stripSuffix (ascii ".prev.meta.json") name with
  | some stem => if isTwoDigitSegments stem then some .publishBackupMeta else none
  | none =>
  match stripSuffix (ascii ".fill_id_counter.tmp") name with
  | some stem => if isTwoDigitSegments stem then some .fillIdCounter else none
  | none =>
  match stripSuffix (ascii ".upload-spool.tmp") name with
  | some stem => if isTwoDigitSegments stem then some .uploadSpool else none
  | none =>
  match stripSuffix (ascii ".meta.tmp") name with
  | some stem => if isMetadataStem stem then some .metadataTmp else none
  | none =>
  match stripSuffix (ascii ".meta.json") name with
  | some stem => if isTwoDigitSegments stem then some .commitMeta else none
  | none =>
  match stripSuffix (ascii ".body") name with
  | some stem => if isThreeDigitSegments stem then some .fillBody else none
  | none => none

/-! ### Names of the writers -/

/-- The identifier of a request: the process, and a counter. -/
def requestId (pid count : ℕ) : Bytes := toDecimal pid ++ ascii "-" ++ toDecimal count

/-- The body of a fill (`handlers/get.rs`). -/
def tempBodyName (pid count : ℕ) : Bytes :=
  toDecimal pid ++ ascii "-" ++ requestId pid count ++ ascii ".body"

/-- The metadata of a fill that is committed (`commit_fill_inner`). -/
def tempMetaName (pid id : ℕ) : Bytes :=
  toDecimal pid ++ ascii "-" ++ toDecimal id ++ ascii ".meta.json"

/-- The body that a fill which is committed replaces. -/
def backupBodyName (pid id : ℕ) : Bytes :=
  toDecimal pid ++ ascii "-" ++ toDecimal id ++ ascii ".prev.body"

/-- The metadata that a fill which is committed replaces. -/
def backupMetaName (pid id : ℕ) : Bytes :=
  toDecimal pid ++ ascii "-" ++ toDecimal id ++ ascii ".prev.meta.json"

/-- The counter of fills (`persist_fill_id_counter`). -/
def counterTmpName (pid id : ℕ) : Bytes :=
  toDecimal pid ++ ascii "-" ++ toDecimal id ++ ascii ".fill_id_counter.tmp"

/-- Metadata with another time of access (`rewrite_last_accessed`), or updated metadata
(`update_metadata_if_unchanged`). -/
def metaTmpName (pid : ℕ) (hash : Bytes) (counter : ℕ) : Bytes :=
  toDecimal pid ++ ascii "-" ++ hash ++ ascii "-" ++ toDecimal counter ++ ascii ".meta.tmp"

/-- The decoded body of an upload (`handlers/aws_chunked.rs`). -/
def uploadSpoolName (pid counter : ℕ) : Bytes :=
  toDecimal pid ++ ascii "-" ++ toDecimal counter ++ ascii ".upload-spool.tmp"

/-- The file of the readiness check (`admin/health.rs`). -/
def readyzProbeName : Bytes := ascii ".readyz-probe"

/-! ### Shapes -/

/-- Groups of digits, with hyphens between them. -/
inductive Groups : ℕ → Bytes → Prop
  | one {a : Bytes} : isDigits a = true → Groups 1 a
  | cons {n : ℕ} {a rest : Bytes} : isDigits a = true → Groups n rest →
      Groups (n + 1) (a ++ 45 :: rest)

/-- Digits, a hash and digits, with hyphens between them. -/
inductive MetadataStem : Bytes → Prop
  | intro {pid hash counter : Bytes} : isDigits pid = true → isLowercaseHex32 hash = true →
      isDigits counter = true → MetadataStem (pid ++ 45 :: (hash ++ 45 :: counter))

/-- The shapes of the names of the writers. -/
inductive HasShape : TmpSweepKind → Bytes → Prop
  | fillBody {stem : Bytes} : Groups 3 stem → HasShape .fillBody (stem ++ ascii ".body")
  | fillIdCounter {stem : Bytes} : Groups 2 stem →
      HasShape .fillIdCounter (stem ++ ascii ".fill_id_counter.tmp")
  | commitMeta {stem : Bytes} : Groups 2 stem → HasShape .commitMeta (stem ++ ascii ".meta.json")
  | metadataTmp {stem : Bytes} : MetadataStem stem →
      HasShape .metadataTmp (stem ++ ascii ".meta.tmp")
  | publishBackupBody {stem : Bytes} : Groups 2 stem →
      HasShape .publishBackupBody (stem ++ ascii ".prev.body")
  | publishBackupMeta {stem : Bytes} : Groups 2 stem →
      HasShape .publishBackupMeta (stem ++ ascii ".prev.meta.json")
  | uploadSpool {stem : Bytes} : Groups 2 stem →
      HasShape .uploadSpool (stem ++ ascii ".upload-spool.tmp")
  | readyzProbe : HasShape .readyzProbe (ascii ".readyz-probe")

/-! ### Stems -/

theorem groups_one_iff
    {bs : Bytes} :
  Groups 1 bs ↔ isDigits bs = true
  := by
  constructor
  · intro h
    cases h with
    | one h => exact h
    | cons _ h => cases h
  · exact .one

theorem groups_succ_iff
    {n : ℕ} {bs : Bytes} :
  Groups (n + 2) bs ↔ ∃ a rest, bs = a ++ 45 :: rest ∧ isDigits a = true ∧ Groups (n + 1) rest
  := by
  constructor
  · intro h
    cases h with
    | cons ha hrest => exact ⟨_, _, rfl, ha, hrest⟩
  · rintro ⟨a, rest, rfl, ha, hrest⟩
    exact .cons ha hrest

theorem hyphen_notMem
    {bs : Bytes} (h : isDigits bs = true) :
  45 ∉ bs
  := Text.notMem_of_isDigits h (by decide)

theorem isTwoDigitSegments_iff
    {stem : Bytes} :
  isTwoDigitSegments stem = true ↔ Groups 2 stem
  := by
  rw [groups_succ_iff, isTwoDigitSegments]
  constructor
  · intro h
    rcases hsplit : splitOnce 45 stem with _ | ⟨a, b⟩
    · rw [hsplit] at h
      cases h
    · rw [hsplit] at h
      obtain ⟨ha, hb⟩ := Bool.and_eq_true_iff.mp h
      exact ⟨a, b, (Text.splitOnce_eq_some.mp hsplit).1, ha, .one hb⟩
  · rintro ⟨a, b, rfl, ha, hb⟩
    rw [Text.splitOnce_eq_some.mpr ⟨rfl, hyphen_notMem ha⟩]
    exact Bool.and_eq_true_iff.mpr ⟨ha, groups_one_iff.mp hb⟩

theorem isThreeDigitSegments_iff
    {stem : Bytes} :
  isThreeDigitSegments stem = true ↔ Groups 3 stem
  := by
  rw [groups_succ_iff, isThreeDigitSegments]
  constructor
  · intro h
    split at h
    next a b c hsplit =>
      obtain ⟨hab, hc⟩ := Bool.and_eq_true_iff.mp h
      obtain ⟨ha, hb⟩ := Bool.and_eq_true_iff.mp hab
      have hstem : [45].intercalate (stem.splitOn 45) = stem := List.intercalate_splitOn 45
      rw [hsplit, ← Text.joinFields_eq_intercalate] at hstem
      exact ⟨a, b ++ 45 :: c, hstem.symm, ha, .cons hb (.one hc)⟩
    next => cases h
  · rintro ⟨a, rest, rfl, ha, hrest⟩
    obtain ⟨b, c, rfl, hb, hc⟩ := groups_succ_iff.mp hrest
    have hc' := groups_one_iff.mp hc
    have hsplit := @Text.splitOn_joinFields 45 [a, b, c]
      (by simp [hyphen_notMem ha, hyphen_notMem hb, hyphen_notMem hc']) (by simp)
    rw [Text.joinFields, Text.joinFields, Text.joinFields] at hsplit
    rw [hsplit]
    simp [ha, hb, hc']

theorem isMetadataStem_iff
    {stem : Bytes} :
  isMetadataStem stem = true ↔ MetadataStem stem
  := by
  rw [isMetadataStem]
  constructor
  · intro h
    rcases hsplit : splitOnce 45 stem with _ | ⟨pid, rest⟩
    · rw [hsplit] at h
      cases h
    · rcases hrsplit : rsplitOnce 45 rest with _ | ⟨hash, counter⟩
      · simp only [hsplit, hrsplit] at h
        cases h
      · simp only [hsplit, hrsplit] at h
        obtain ⟨hpid, hcounter⟩ := Bool.and_eq_true_iff.mp h
        obtain ⟨hpid, hhash⟩ := Bool.and_eq_true_iff.mp hpid
        rw [(Text.splitOnce_eq_some.mp hsplit).1, (Text.rsplitOnce_eq_some.mp hrsplit).1]
        exact .intro hpid hhash hcounter
  · rintro ⟨hpid, hhash, hcounter⟩
    rw [Text.splitOnce_eq_some.mpr ⟨rfl, hyphen_notMem hpid⟩]
    simp only
    rw [Text.rsplitOnce_eq_some.mpr ⟨rfl, hyphen_notMem hcounter⟩]
    simp [hpid, hhash, hcounter]

/-- A stem consists of visible characters, is not empty, and has no dot. -/
structure IsStem (stem : Bytes) : Prop where
  visible : Text.Visible stem
  ne_nil : stem ≠ []
  dot_notMem : 46 ∉ stem

theorem isStem_of_isDigits
    {bs : Bytes} (h : isDigits bs = true) :
  IsStem bs
  where
    visible b hb := by
      have hdigit := (Text.isDigits_eq_true.mp h).2 b hb
      obtain ⟨hlo, hhi⟩ := Bool.and_eq_true_iff.mp hdigit
      rw [decide_eq_true_eq] at hlo hhi
      exact ⟨UInt8.le_trans (by decide) hlo, UInt8.le_trans hhi (by decide)⟩
    ne_nil := (Text.isDigits_eq_true.mp h).1
    dot_notMem := Text.notMem_of_isDigits h (by decide)

/-- A hyphen between stems makes a stem. -/
theorem IsStem.append
    {a b : Bytes} (ha : IsStem a) (hb : IsStem b) :
  IsStem (a ++ 45 :: b)
  where
    visible := Text.visible_append.mpr ⟨ha.visible, Text.visible_cons.mpr ⟨by decide, hb.visible⟩⟩
    ne_nil := by simp
    dot_notMem := by simp [ha.dot_notMem, hb.dot_notMem]

theorem Groups.isStem
    {n : ℕ} {bs : Bytes} (h : Groups n bs) :
  IsStem bs
  := by
  induction h with
  | one ha => exact isStem_of_isDigits ha
  | cons ha hrest ih => exact (isStem_of_isDigits ha).append ih

theorem isStem_of_isLowercaseHex32
    {hash : Bytes} (h : isLowercaseHex32 hash = true) :
  IsStem hash
  := by
  obtain ⟨hlength, hall⟩ := Bool.and_eq_true_iff.mp h
  rw [decide_eq_true_eq] at hlength
  rw [List.all_eq_true] at hall
  exact {
    visible := by
      intro b hb
      have hlower := hall b hb
      rw [Text.isLowerHex, Bool.or_eq_true, Bool.and_eq_true, Bool.and_eq_true, decide_eq_true_eq,
        decide_eq_true_eq, decide_eq_true_eq, decide_eq_true_eq] at hlower
      rcases hlower with ⟨hlo, hhi⟩ | ⟨hlo, hhi⟩
      · exact ⟨UInt8.le_trans (by decide) hlo, UInt8.le_trans hhi (by decide)⟩
      · exact ⟨UInt8.le_trans (by decide) hlo, UInt8.le_trans hhi (by decide)⟩
    ne_nil := by
      rintro rfl
      cases hlength
    dot_notMem := fun hdot => absurd (hall 46 hdot) (by decide) }

theorem MetadataStem.isStem
    {stem : Bytes} (h : MetadataStem stem) :
  IsStem stem
  := by
  obtain ⟨hpid, hhash, hcounter⟩ := h
  apply (isStem_of_isDigits hpid).append
  exact (isStem_of_isLowercaseHex32 hhash).append (isStem_of_isDigits hcounter)

/-! ### Names and shapes -/

theorem ne_readyzProbe
    {stem : Bytes} (h : IsStem stem) (suffix : Bytes) :
  stem ++ suffix ≠ ascii ".readyz-probe"
  := by
  obtain ⟨b, rest, rfl⟩ := List.exists_cons_of_ne_nil h.ne_nil
  intro heq
  obtain ⟨rfl, -⟩ := List.cons.inj heq
  exact h.dot_notMem List.mem_cons_self

/-- A suffix is not found after a stem that is followed by another one. -/
theorem IsStem.strip
    {stem : Bytes} (h : IsStem stem) (suffix suffix' : Bytes) (hhead : suffix'.head? = some 46)
    (hnone : stripSuffix suffix' suffix = none) :
  stripSuffix suffix' (stem ++ suffix) = none
  := Text.stripSuffix_append_eq_none hhead h.dot_notMem hnone

/-- A name that has the shape of the names of a writer is recognised. -/
theorem classify_of_hasShape
    {kind : TmpSweepKind} {name : Bytes} (h : HasShape kind name) :
  classify name = some kind
  := by
  cases h with
  | publishBackupBody hstem =>
      have hs := hstem.isStem
      simp only [classify, if_neg (ne_readyzProbe hs _), Text.stripSuffix_append]
      exact if_pos (isTwoDigitSegments_iff.mpr hstem)
  | publishBackupMeta hstem =>
      have hs := hstem.isStem
      simp only [classify, if_neg (ne_readyzProbe hs _),
        hs.strip (ascii ".prev.meta.json") (ascii ".prev.body") rfl (by decide),
        Text.stripSuffix_append]
      exact if_pos (isTwoDigitSegments_iff.mpr hstem)
  | fillIdCounter hstem =>
      have hs := hstem.isStem
      simp only [classify, if_neg (ne_readyzProbe hs _),
        hs.strip (ascii ".fill_id_counter.tmp") (ascii ".prev.body") rfl (by decide),
        hs.strip (ascii ".fill_id_counter.tmp") (ascii ".prev.meta.json") rfl (by decide),
        Text.stripSuffix_append]
      exact if_pos (isTwoDigitSegments_iff.mpr hstem)
  | uploadSpool hstem =>
      have hs := hstem.isStem
      simp only [classify, if_neg (ne_readyzProbe hs _),
        hs.strip (ascii ".upload-spool.tmp") (ascii ".prev.body") rfl (by decide),
        hs.strip (ascii ".upload-spool.tmp") (ascii ".prev.meta.json") rfl (by decide),
        hs.strip (ascii ".upload-spool.tmp") (ascii ".fill_id_counter.tmp") rfl (by decide),
        Text.stripSuffix_append]
      exact if_pos (isTwoDigitSegments_iff.mpr hstem)
  | metadataTmp hstem =>
      have hs := hstem.isStem
      simp only [classify, if_neg (ne_readyzProbe hs _),
        hs.strip (ascii ".meta.tmp") (ascii ".prev.body") rfl (by decide),
        hs.strip (ascii ".meta.tmp") (ascii ".prev.meta.json") rfl (by decide),
        hs.strip (ascii ".meta.tmp") (ascii ".fill_id_counter.tmp") rfl (by decide),
        hs.strip (ascii ".meta.tmp") (ascii ".upload-spool.tmp") rfl (by decide),
        Text.stripSuffix_append]
      exact if_pos (isMetadataStem_iff.mpr hstem)
  | commitMeta hstem =>
      have hs := hstem.isStem
      simp only [classify, if_neg (ne_readyzProbe hs _),
        hs.strip (ascii ".meta.json") (ascii ".prev.body") rfl (by decide),
        hs.strip (ascii ".meta.json") (ascii ".prev.meta.json") rfl (by decide),
        hs.strip (ascii ".meta.json") (ascii ".fill_id_counter.tmp") rfl (by decide),
        hs.strip (ascii ".meta.json") (ascii ".upload-spool.tmp") rfl (by decide),
        hs.strip (ascii ".meta.json") (ascii ".meta.tmp") rfl (by decide),
        Text.stripSuffix_append]
      exact if_pos (isTwoDigitSegments_iff.mpr hstem)
  | fillBody hstem =>
      have hs := hstem.isStem
      simp only [classify, if_neg (ne_readyzProbe hs _),
        hs.strip (ascii ".body") (ascii ".prev.body") rfl (by decide),
        hs.strip (ascii ".body") (ascii ".prev.meta.json") rfl (by decide),
        hs.strip (ascii ".body") (ascii ".fill_id_counter.tmp") rfl (by decide),
        hs.strip (ascii ".body") (ascii ".upload-spool.tmp") rfl (by decide),
        hs.strip (ascii ".body") (ascii ".meta.tmp") rfl (by decide),
        hs.strip (ascii ".body") (ascii ".meta.json") rfl (by decide), Text.stripSuffix_append]
      exact if_pos (isThreeDigitSegments_iff.mpr hstem)
  | readyzProbe => rfl

/-- A name that is recognised has the shape of the names of that writer. -/
theorem hasShape_of_classify
    {kind : TmpSweepKind} {name : Bytes} (h : classify name = some kind) :
  HasShape kind name
  := by
  have hsplit : ∀ {b : Bool} {k : TmpSweepKind}, (if b = true then some k else none) = some kind →
      b = true ∧ k = kind := by
    intro b k hb
    cases b with
    | false => cases hb
    | true => exact ⟨rfl, Option.some.inj hb⟩
  rw [classify] at h
  split at h
  next hname =>
    obtain rfl := Option.some.inj h
    rw [hname]
    exact .readyzProbe
  next =>
  split at h
  next stem hstem =>
    obtain ⟨hseg, rfl⟩ := hsplit h
    rw [Text.stripSuffix_eq_some.mp hstem]
    exact .publishBackupBody (isTwoDigitSegments_iff.mp hseg)
  next =>
  split at h
  next stem hstem =>
    obtain ⟨hseg, rfl⟩ := hsplit h
    rw [Text.stripSuffix_eq_some.mp hstem]
    exact .publishBackupMeta (isTwoDigitSegments_iff.mp hseg)
  next =>
  split at h
  next stem hstem =>
    obtain ⟨hseg, rfl⟩ := hsplit h
    rw [Text.stripSuffix_eq_some.mp hstem]
    exact .fillIdCounter (isTwoDigitSegments_iff.mp hseg)
  next =>
  split at h
  next stem hstem =>
    obtain ⟨hseg, rfl⟩ := hsplit h
    rw [Text.stripSuffix_eq_some.mp hstem]
    exact .uploadSpool (isTwoDigitSegments_iff.mp hseg)
  next =>
  split at h
  next stem hstem =>
    obtain ⟨hseg, rfl⟩ := hsplit h
    rw [Text.stripSuffix_eq_some.mp hstem]
    exact .metadataTmp (isMetadataStem_iff.mp hseg)
  next =>
  split at h
  next stem hstem =>
    obtain ⟨hseg, rfl⟩ := hsplit h
    rw [Text.stripSuffix_eq_some.mp hstem]
    exact .commitMeta (isTwoDigitSegments_iff.mp hseg)
  next =>
  split at h
  next stem hstem =>
    obtain ⟨hseg, rfl⟩ := hsplit h
    rw [Text.stripSuffix_eq_some.mp hstem]
    exact .fillBody (isThreeDigitSegments_iff.mp hseg)
  next => cases h

theorem classify_eq_some_iff
    {kind : TmpSweepKind} {name : Bytes} :
  classify name = some kind ↔ HasShape kind name
  := ⟨hasShape_of_classify, classify_of_hasShape⟩

/-- A name does not have two shapes. -/
theorem HasShape.unique
    {kind kind' : TmpSweepKind} {name : Bytes} (h : HasShape kind name)
    (h' : HasShape kind' name) :
  kind = kind'
  := Option.some.inj ((classify_of_hasShape h).symm.trans (classify_of_hasShape h'))

/-- A name that has a shape is a string. -/
theorem HasShape.validUtf8
    {kind : TmpSweepKind} {name : Bytes} (h : HasShape kind name) :
  Text.validUtf8 name = true
  := by
  apply Text.Visible.validUtf8
  cases h with
  | readyzProbe => decide
  | metadataTmp hstem => exact Text.visible_append.mpr ⟨hstem.isStem.visible, by decide⟩
  | _ hstem => exact Text.visible_append.mpr ⟨hstem.isStem.visible, by decide⟩

theorem groups_two
    (pid id : ℕ) :
  Groups 2 (toDecimal pid ++ ascii "-" ++ toDecimal id)
  := by
  rw [List.append_assoc]
  exact .cons (Text.isDigits_toDecimal pid) (.one (Text.isDigits_toDecimal id))

/-- The names of the writers have their shapes. -/
theorem hasShape_of_writer
    (pid counter : ℕ) :
  HasShape .fillBody (tempBodyName pid counter) ∧ HasShape .commitMeta (tempMetaName pid counter) ∧
    HasShape .publishBackupBody (backupBodyName pid counter) ∧
    HasShape .publishBackupMeta (backupMetaName pid counter) ∧
    HasShape .fillIdCounter (counterTmpName pid counter) ∧
    (∀ hash, isLowercaseHex32 hash = true →
      HasShape .metadataTmp (metaTmpName pid hash counter)) ∧
    HasShape .uploadSpool (uploadSpoolName pid counter) ∧ HasShape .readyzProbe readyzProbeName
  := by
  have hgroups := groups_two pid counter
  refine ⟨.fillBody ?_, .commitMeta hgroups, .publishBackupBody hgroups,
    .publishBackupMeta hgroups, .fillIdCounter hgroups, ?_, .uploadSpool hgroups, .readyzProbe⟩
  · rw [List.append_assoc]
    exact .cons (Text.isDigits_toDecimal pid) hgroups
  · intro hash hhash
    apply HasShape.metadataTmp
    rw [List.append_assoc, List.append_assoc, List.append_assoc]
    exact .intro (Text.isDigits_toDecimal pid) hhash (Text.isDigits_toDecimal counter)

/-! ### The sweep -/

/-- What an entry of a directory is. -/
inductive FileType
  | regular
  | symlink
  | other
deriving DecidableEq

/-- The directory of temporary files. The calls of the file system are counted, and `faulty` says
which of them fail. -/
structure TmpDir where
  entries : Keyed.Listing Bytes FileType
  calls : ℕ
  faulty : ℕ → Bool

/-- The directory after a call. -/
def TmpDir.next (s : TmpDir) : TmpDir := { s with calls := s.calls + 1 }

/-- The directory without an entry. -/
def TmpDir.erase (s : TmpDir) (name : Bytes) : TmpDir :=
  { s with entries := s.entries.erase name }

section Calls

variable {ε α : Type}

/-- A call of the file system. A call that fails has no effect. -/
def call (f : TmpDir → Except IoError α × TmpDir) : Fallible TmpDir ε (Except IoError α) :=
  modifyGet fun s => if s.faulty s.calls then (.error .other, s.next) else f s.next

/-- The names of the entries. -/
def readDir : Fallible TmpDir ε (Except IoError (List Bytes)) :=
  call fun s => (.ok s.entries.keys, s)

/-- Go on to the next entry. -/
def nextEntry : Fallible TmpDir ε (Except IoError Unit) := call fun s => (.ok (), s)

/-- What an entry is, without following links. -/
def symlinkMetadata (name : Bytes) : Fallible TmpDir ε (Except IoError FileType) :=
  call fun s =>
    match s.entries.get name with
    | some fileType => (.ok fileType, s)
    | none => (.error .notFound, s)

/-- Remove a file. -/
def removeFile (name : Bytes) : Fallible TmpDir ε (Except IoError Unit) :=
  call fun s =>
    match s.entries.get name with
    | some _ => (.ok (), s.erase name)
    | none => (.error .notFound, s)

/-- Remove an entry if it is a regular file with a name that is recognised. -/
def sweepEntry (name : Bytes) : Fallible TmpDir ε Unit := do
  match ← symlinkMetadata name with
  | .error _ => return ()
  | .ok .symlink => return ()
  | .ok .other => return ()
  | .ok .regular =>
      if !Text.validUtf8 name then return ()
      else
      match classify name with
      | none => return ()
      | some _ =>
          let _ ← removeFile name
          return ()

/-- Go through the entries. An entry that cannot be read is left out. -/
def sweepEntries : List Bytes → Fallible TmpDir ε Unit
  | [] => do
      let _ ← nextEntry
      return ()
  | name :: names => do
      match ← nextEntry with
      | .error _ => sweepEntries names
      | .ok () =>
          sweepEntry name
          sweepEntries names

/-- Remove what the writers have left. -/
def sweepTmpDir : Fallible TmpDir ε Unit := do
  match ← readDir with
  | .error _ => return ()
  | .ok names => sweepEntries names

end Calls

/-- All calls succeed. -/
def TmpDir.Sound (s : TmpDir) : Prop := ∀ n, s.faulty n = false

/-- The entry is a regular file, and its name has the shape of the names of some writer. -/
def TmpDir.Leftover (s : TmpDir) (name : Bytes) : Prop :=
  s.entries.get name = some .regular ∧ ∃ kind, HasShape kind name

/-- Leftovers are removed, all of those on a list if no call fails, and nothing else. -/
structure Swept (s : TmpDir) (names : List Bytes) (s' : TmpDir) : Prop where
  get_eq : ∀ name, s'.entries.get name = s.entries.get name ∨
    s'.entries.get name = none ∧ s.Leftover name
  faulty : s'.faulty = s.faulty
  gone : s.Sound → ∀ name ∈ names, s.Leftover name → s'.entries.get name = none

variable {s s' s'' : TmpDir} {names names' : List Bytes}

theorem swept_next
    (s : TmpDir) :
  Swept s [] s.next
  where
    get_eq _ := .inl rfl
    faulty := rfl
    gone _ _ hname := (List.not_mem_nil hname).elim

theorem Swept.trans
    (h : Swept s names s') (h' : Swept s' names' s'') :
  Swept s (names ++ names') s''
  where
    get_eq name := by
      rcases h'.get_eq name with heq | ⟨hnone, hleft⟩
      · rw [heq]
        exact h.get_eq name
      · right
        use hnone
        rcases h.get_eq name with heq' | ⟨hnone', -⟩
        · exact ⟨heq' ▸ hleft.1, hleft.2⟩
        · cases hnone'.symm.trans hleft.1
    faulty := h'.faulty.trans h.faulty
    gone hsound name hname hleft := by
      have hkept : s'.entries.get name = none → s''.entries.get name = none := by
        intro hnone
        rcases h'.get_eq name with heq | ⟨hnone', -⟩
        · rw [heq, hnone]
        · exact hnone'
      rcases h.get_eq name with heq | ⟨hnone, -⟩
      · rcases List.mem_append.mp hname with hname | hname
        · exact hkept (h.gone hsound name hname hleft)
        · exact h'.gone (fun n => by rw [h.faulty, hsound n]) name hname ⟨heq ▸ hleft.1, hleft.2⟩
      · exact hkept hnone

/-- A call that fails goes on with an error, and leaves the directory as it is. -/
theorem leads_call
    {ε α : Type} {f : TmpDir → Except IoError α × TmpDir} {Q : Except IoError α → TmpDir → Prop}
    {F : ε → TmpDir → Prop} (hfault : s.faulty s.calls = true → Q (.error .other) s.next)
    (hok : s.faulty s.calls = false → Q (f s.next).1 (f s.next).2) :
  Leads (call f) s Q F
  := by
  apply leads_modifyGet
  split
  next h => exact hfault h
  next h => exact hok (Bool.eq_false_iff.mpr h)

/-- An entry that stays is not a leftover, or a call has failed. -/
theorem swept_of_kept
    {s' : TmpDir} (name : Bytes) (hentries : s'.entries = s.entries) (hfaulty : s'.faulty = s.faulty)
    (hleft : s.Sound → ¬s.Leftover name) :
  Swept s [name] s'
  where
    get_eq _ := .inl (by rw [hentries])
    faulty := hfaulty
    gone hsound name' hname' hleft' := by
      obtain rfl := List.mem_singleton.mp hname'
      exact (hleft hsound hleft').elim

theorem not_sound
    (h : s.faulty s.calls = true) :
  ¬s.Sound
  := by
  intro hsound
  rw [hsound] at h
  cases h

theorem swept_erase
    {name : Bytes} (hleft : s.Leftover name) {s' : TmpDir}
    (hentries : s'.entries = s.entries.erase name) (hfaulty : s'.faulty = s.faulty) :
  Swept s [name] s'
  where
    get_eq name' := by
      by_cases hname : name' = name
      · subst hname
        exact .inr ⟨by rw [hentries, Keyed.Listing.get_erase_self], hleft⟩
      · exact .inl (by rw [hentries, Keyed.Listing.get_erase_of_ne hname])
    faulty := hfaulty
    gone _ name' hname' _ := by
      obtain rfl := List.mem_singleton.mp hname'
      rw [hentries, Keyed.Listing.get_erase_self]

theorem leads_symlinkMetadata
    {ε : Type} {name : Bytes} {Q : Except IoError FileType → TmpDir → Prop} {F : ε → TmpDir → Prop}
    (herror : ∀ e, s.faulty s.calls = true ∨ s.entries.get name = none → Q (.error e) s.next)
    (hok : ∀ fileType, s.entries.get name = some fileType → Q (.ok fileType) s.next) :
  Leads (symlinkMetadata name) s Q F
  := by
  apply leads_call
  · intro hfault
    exact herror .other (.inl hfault)
  · intro _
    rcases hget : s.entries.get name with _ | fileType
    · simp only [TmpDir.next, hget]
      exact herror .notFound (.inr hget)
    · simp only [TmpDir.next, hget]
      exact hok fileType hget

theorem leads_removeFile
    {ε : Type} {name : Bytes} {Q : Except IoError Unit → TmpDir → Prop} {F : ε → TmpDir → Prop}
    (herror : ∀ e, s.faulty s.calls = true ∨ s.entries.get name = none → Q (.error e) s.next)
    (hok : Q (.ok ()) (s.next.erase name)) :
  Leads (removeFile name) s Q F
  := by
  apply leads_call
  · intro hfault
    exact herror .other (.inl hfault)
  · intro _
    rcases hget : s.entries.get name with _ | fileType
    · simp only [TmpDir.next, hget]
      exact herror .notFound (.inr hget)
    · simp only [TmpDir.next, hget]
      exact hok

/-- A leftover is removed, unless a call fails. -/
theorem leads_sweepEntry
    {ε : Type} {F : ε → TmpDir → Prop} (name : Bytes) (s : TmpDir) :
  Leads (sweepEntry name) s (fun _ s' => Swept s [name] s') F
  := by
  have hkept : (s.Sound → ¬s.Leftover name) →
      Leads (pure () : Fallible TmpDir ε Unit) s.next (fun _ s' => Swept s [name] s') F := by
    intro h
    apply leads_pure
    exact swept_of_kept name rfl rfl h
  apply Leads.bind
  apply leads_symlinkMetadata
  · rintro e (hfault | hnone)
    · exact hkept fun hsound => (not_sound hfault hsound).elim
    · exact hkept fun _ hleft => by cases hnone.symm.trans hleft.1
  · intro fileType hget
    cases fileType with
    | symlink => exact hkept fun _ hleft => by cases hget.symm.trans hleft.1
    | other => exact hkept fun _ hleft => by cases hget.symm.trans hleft.1
    | regular =>
        change Leads (if (!Text.validUtf8 name) = true then _ else _) s.next _ _
        split
        next hinvalid =>
          apply hkept
          rintro _ ⟨-, kind, hshape⟩
          rw [hshape.validUtf8] at hinvalid
          cases hinvalid
        next =>
          split
          next hclass =>
            apply hkept
            rintro _ ⟨-, kind, hshape⟩
            cases hclass.symm.trans (classify_of_hasShape hshape)
          next kind hclass =>
            have hleft : s.Leftover name := ⟨hget, kind, hasShape_of_classify hclass⟩
            apply Leads.bind
            apply leads_removeFile
            · rintro e (hfault | hnone)
              · apply leads_pure
                exact swept_of_kept name rfl rfl fun hsound =>
                  (not_sound (s := s.next) hfault hsound).elim
              · cases hnone.symm.trans hget
            · apply leads_pure
              exact swept_erase hleft rfl rfl

theorem leads_nextEntry
    {ε : Type} {Q : Except IoError Unit → TmpDir → Prop} {F : ε → TmpDir → Prop}
    (hfault : s.faulty s.calls = true → Q (.error .other) s.next) (hok : Q (.ok ()) s.next) :
  Leads nextEntry s Q F
  := by
  apply leads_call
  · exact hfault
  · exact fun _ => hok

theorem Swept.cons
    {name : Bytes} {s' : TmpDir} (h : Swept s [] s') (hleft : ¬s.Sound) :
  Swept s [name] s'
  where
    get_eq := h.get_eq
    faulty := h.faulty
    gone hsound := (hleft hsound).elim

/-- Leftovers on the list are removed, unless a call fails. The induction is on the list. -/
theorem leads_sweepEntries
    {ε : Type} {F : ε → TmpDir → Prop} (names : List Bytes) (s : TmpDir) :
  Leads (sweepEntries names) s (fun _ s' => Swept s names s') F
  := by
  induction names generalizing s with
  | nil =>
      apply Leads.bind
      apply leads_nextEntry
      · intro _
        apply leads_pure
        exact swept_next s
      · apply leads_pure
        exact swept_next s
  | cons name names ih =>
      apply Leads.bind
      apply leads_nextEntry
      · intro hfault
        apply (ih s.next).mono
        · intro _ s' h
          exact ((swept_next s).cons (not_sound hfault)).trans h
        · exact fun _ _ h => h
      · apply Leads.bind
        apply (leads_sweepEntry name s.next).mono
        · intro _ s₁ h₁
          apply (ih s₁).mono
          · intro _ s₂ h₂
            exact ((swept_next s).trans h₁).trans h₂
          · exact fun _ _ h => h
        · exact fun _ _ h => h

theorem leads_sweepTmpDir
    {ε : Type} {F : ε → TmpDir → Prop} (s : TmpDir) :
  Leads sweepTmpDir s (fun _ s' => Swept s s.entries.keys s') F
  := by
  apply Leads.bind
  apply leads_call
  · intro hfault
    apply leads_pure
    exact {
      get_eq := fun _ => .inl rfl
      faulty := rfl
      gone := fun hsound => (not_sound hfault hsound).elim }
  · intro _
    apply (leads_sweepEntries s.entries.keys s.next).mono
    · intro _ s' h
      exact (swept_next s).trans h
    · exact fun _ _ h => h

/-- What the sweep leaves when no call fails. -/
theorem Swept.get_of_sound
    (h : Swept s s.entries.keys s') (hsound : s.Sound) (name : Bytes) :
  (s.Leftover name → s'.entries.get name = none) ∧
    (¬s.Leftover name → s'.entries.get name = s.entries.get name)
  := by
  constructor
  · intro hleft
    apply h.gone hsound name _ hleft
    by_contra hmem
    cases (Keyed.Listing.get_eq_none_iff.mpr hmem).symm.trans hleft.1
  · intro hleft
    rcases h.get_eq name with heq | ⟨-, hleft'⟩
    · exact heq
    · exact (hleft hleft').elim

/-- The name of every writer is recognised as that writer's, a name that is recognised has the shape
of the names of that writer and of no other one, and the sweep returns and has then removed the
regular files with such names, and nothing else, if no call fails. -/
theorem sweepTmpDir_spec :
  (∀ pid counter : ℕ, classify (tempBodyName pid counter) = some .fillBody ∧
      classify (tempMetaName pid counter) = some .commitMeta ∧
      classify (backupBodyName pid counter) = some .publishBackupBody ∧
      classify (backupMetaName pid counter) = some .publishBackupMeta ∧
      classify (counterTmpName pid counter) = some .fillIdCounter ∧
      (∀ hash, isLowercaseHex32 hash = true →
        classify (metaTmpName pid hash counter) = some .metadataTmp) ∧
      classify (uploadSpoolName pid counter) = some .uploadSpool ∧
      classify readyzProbeName = some .readyzProbe) ∧
    (∀ name kind, classify name = some kind ↔ HasShape kind name) ∧
    (∀ name kind kind', HasShape kind name → HasShape kind' name → kind = kind') ∧
    ∀ s : TmpDir, s.Sound →
      ∃ s', Returns (ε := Empty) sweepTmpDir s () s' ∧
        ∀ name, (s.Leftover name → s'.entries.get name = none) ∧
          (¬s.Leftover name → s'.entries.get name = s.entries.get name)
  := by
  constructor
  · intro pid counter
    obtain ⟨h₁, h₂, h₃, h₄, h₅, h₆, h₇, h₈⟩ := hasShape_of_writer pid counter
    exact ⟨classify_of_hasShape h₁, classify_of_hasShape h₂, classify_of_hasShape h₃,
      classify_of_hasShape h₄, classify_of_hasShape h₅,
      fun hash hhash => classify_of_hasShape (h₆ hash hhash), classify_of_hasShape h₇,
      classify_of_hasShape h₈⟩
  constructor
  · exact fun _ _ => classify_eq_some_iff
  constructor
  · exact fun _ _ _ => HasShape.unique
  · intro s hsound
    obtain ⟨⟨⟩, s', hreturns, hswept⟩ :=
      (leads_sweepTmpDir (ε := Empty) (F := fun _ _ => False) s).exists_returns
    exact ⟨s', hreturns, hswept.get_of_sound hsound⟩

/-- A backup and a file that no writer has made, before a sweep. -/
def leftBehind : TmpDir where
  entries := ⟨[(ascii "17-4.prev.body", .regular), (ascii "17-4-2.prev.body", .regular)],
    by decide⟩
  calls := 0
  faulty _ := false

theorem sweepTmpDir_leftBehind :
  leftBehind.Sound ∧
    ∃ s', Returns (ε := Empty) sweepTmpDir leftBehind () s' ∧
      s'.entries.get (ascii "17-4.prev.body") = none ∧
      classify (metaTmpName 17 (List.replicate 32 97) 4) = some .metadataTmp
  := by
  use fun _ => rfl
  obtain ⟨s', hswept, hget⟩ := sweepTmpDir_spec.2.2.2 leftBehind fun _ => rfl
  refine ⟨s', hswept, ?_, ?_⟩
  · exact (hget _).1 ⟨rfl, .publishBackupBody, (sweepTmpDir_spec.2.1 _ _).mp (by decide)⟩
  · exact (sweepTmpDir_spec.1 17 4).2.2.2.2.2.1 _ (by decide)

end TinyS3Proxy.TmpSweep
