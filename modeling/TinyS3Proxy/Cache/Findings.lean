import TinyS3Proxy.Cache.Cleaning

/-!
# Broken and complete entries

When a file is a leftover of a broken entry, and when it is the metadata of a complete one. What is
to be cleaned up does not get into the way of another cleanup, so that a pass during which no call
fails makes all of them.
-/

namespace TinyS3Proxy.Shards

open Text (Bytes ascii)
open Effect

/-! ### Hashes -/

/-- The string may be the hash of an entry: at least five hexadecimal digits. -/
def IsHash (hash : Bytes) : Prop := 5 ≤ hash.length ∧ ∀ b ∈ hash, Text.isHexDigit b = true

instance (hash : Bytes) : Decidable (IsHash hash) :=
  inferInstanceAs (Decidable (5 ≤ hash.length ∧ ∀ b ∈ hash, Text.isHexDigit b = true))

theorem malformed_eq_false
    {hash : Bytes} :
  (hash.length < 5 || !hash.all Text.isHexDigit) = false ↔ IsHash hash
  := by
  rw [Bool.or_eq_false_iff, decide_eq_false_iff_not, not_lt, Bool.not_eq_false', List.all_eq_true]
  rfl

/-- There is no dot in a hash. -/
theorem IsHash.dot_notMem
    {hash : Bytes} (h : IsHash hash) :
  46 ∉ hash
  := by
  intro hmem
  exact absurd (h.2 46 hmem) (by decide)

/-! ### Names -/

/-- The name of a file without a suffix. -/
def stem (suffix : Bytes) (p : ShardPath) : Bytes := Text.trimEndMatches suffix p.name

theorem stem_append
    {hash : Bytes} (h : IsHash hash) (dir : ShardDir) :
  stem metaSuffix ⟨dir, hash ++ metaSuffix⟩ = hash ∧
    stem bodySuffix ⟨dir, hash ++ bodySuffix⟩ = hash ∧
    stem poisonSuffix ⟨dir, hash ++ poisonSuffix⟩ = hash
  := ⟨Text.trimEndMatches_append h.dot_notMem _, Text.trimEndMatches_append h.dot_notMem _,
    Text.trimEndMatches_append h.dot_notMem _⟩

/-- Names with suffixes that end differently are different. -/
theorem append_ne_append
    {a b suffix suffix' : Bytes} (hne : suffix ≠ []) (hne' : suffix' ≠ [])
    (h : suffix.getLast? ≠ suffix'.getLast?) :
  a ++ suffix ≠ b ++ suffix'
  := by
  intro heq
  apply h
  have hlast := congrArg List.getLast? heq
  rw [List.getLast?_append_of_ne_nil _ hne, List.getLast?_append_of_ne_nil _ hne'] at hlast
  exact hlast

theorem body_ne_meta
    (a b : Bytes) :
  a ++ bodySuffix ≠ b ++ metaSuffix
  := append_ne_append (by decide) (by decide) (by decide)

theorem poison_ne_meta
    (a b : Bytes) :
  a ++ poisonSuffix ≠ b ++ metaSuffix
  := append_ne_append (by decide) (by decide) (by decide)

theorem body_ne_poison
    (a b : Bytes) :
  a ++ bodySuffix ≠ b ++ poisonSuffix
  := append_ne_append (by decide) (by decide) (by decide)

theorem endsWith_meta_body
    (a : Bytes) :
  Text.endsWith metaSuffix (a ++ bodySuffix) = false
  := by
  rw [Bool.eq_false_iff, ne_eq, Text.endsWith_eq_true]
  rintro ⟨b, h⟩
  exact body_ne_meta a b h

theorem endsWith_meta_poison
    (a : Bytes) :
  Text.endsWith metaSuffix (a ++ poisonSuffix) = false
  := by
  rw [Bool.eq_false_iff, ne_eq, Text.endsWith_eq_true]
  rintro ⟨b, h⟩
  exact poison_ne_meta a b h

theorem endsWith_body_poison
    (a : Bytes) :
  Text.endsWith bodySuffix (a ++ poisonSuffix) = false
  := by
  rw [Bool.eq_false_iff, ne_eq, Text.endsWith_eq_true]
  rintro ⟨b, h⟩
  exact body_ne_poison b a h.symm

/-! ### Broken entries -/

/-- The file is what is left of an entry, and is to be cleaned up. -/
inductive IsBroken (files : Keyed.Listing ShardPath StoredFile) (p : ShardPath) :
    DeferredCleanup → Prop
  | orphanBody :
      Text.endsWith metaSuffix p.name = false → Text.endsWith bodySuffix p.name = true →
      files.get ⟨p.dir, stem bodySuffix p ++ metaSuffix⟩ = none →
      IsBroken files p (.orphanBody p (stem bodySuffix p))
  | orphanPoison :
      Text.endsWith metaSuffix p.name = false → Text.endsWith bodySuffix p.name = false →
      Text.endsWith poisonSuffix p.name = true →
      files.get ⟨p.dir, stem poisonSuffix p ++ metaSuffix⟩ = none →
      IsBroken files p (.orphanPoison p (stem poisonSuffix p))
  | corruptEntry {file : StoredFile} :
      Text.endsWith metaSuffix p.name = true → files.get p = some file → file.parsed = none →
      IsBroken files p (.corruptEntry (entryPaths p.dir p.name (stem metaSuffix p)))
  | malformedHash {file : StoredFile} {info : CacheMeta} :
      Text.endsWith metaSuffix p.name = true → files.get p = some file →
      file.parsed = some info → ¬ IsHash (stem metaSuffix p) →
      IsBroken files p (.malformedHash (entryPaths p.dir p.name (stem metaSuffix p)))
  | missingBody {file : StoredFile} {info : CacheMeta} :
      Text.endsWith metaSuffix p.name = true → files.get p = some file →
      file.parsed = some info → IsHash (stem metaSuffix p) →
      files.get ⟨p.dir, stem metaSuffix p ++ bodySuffix⟩ = none →
      IsBroken files p (.missingBody (entryPaths p.dir p.name (stem metaSuffix p)))

/-- The file is the metadata of a complete entry. -/
inductive IsComplete (files : Keyed.Listing ShardPath StoredFile) (p : ShardPath) :
    EvictionCandidate → Prop
  | intro {file body : StoredFile} {info : CacheMeta} :
      Text.endsWith metaSuffix p.name = true → files.get p = some file →
      file.parsed = some info → IsHash (stem metaSuffix p) →
      files.get ⟨p.dir, stem metaSuffix p ++ bodySuffix⟩ = some body →
      IsComplete files p
        (candidateFor (entryPaths p.dir p.name (stem metaSuffix p)) body.size file.size info)

variable {files : Keyed.Listing ShardPath StoredFile} {p q : ShardPath} {c : DeferredCleanup}

theorem foundAt_of_isBroken
    (h : IsBroken files p c) :
  foundAt files p = .broken c
  := by
  rw [foundAt]
  cases h with
  | orphanBody hmeta hbody hnone =>
      simp only [hmeta, hbody, Bool.false_eq_true, if_false, if_true, orphanAt]
      rw [stem] at hnone
      rw [hnone]
      rfl
  | orphanPoison hmeta hbody hpoison hnone =>
      simp only [hmeta, hbody, hpoison, Bool.false_eq_true, if_false, if_true, orphanAt]
      rw [stem] at hnone
      rw [hnone]
      rfl
  | corruptEntry hmeta hget hparsed =>
      simp only [hmeta, if_true, hget, hparsed]
      rfl
  | malformedHash hmeta hget hparsed hhash =>
      rw [← malformed_eq_false, Bool.not_eq_false] at hhash
      simp only [hmeta, if_true, hget, hparsed]
      exact if_pos hhash
  | missingBody hmeta hget hparsed hhash hbody =>
      simp only [hmeta, if_true, hget, hparsed]
      rw [entryAt, if_neg (by rw [Bool.not_eq_true]; exact malformed_eq_false.mpr hhash)]
      simp only [entryPaths]
      rw [stem] at hbody
      rw [hbody]
      rfl

theorem foundAt_of_isComplete
    {candidate : EvictionCandidate} (h : IsComplete files p candidate) :
  foundAt files p = .complete candidate
  := by
  obtain ⟨hmeta, hget, hparsed, hhash, hbody⟩ := h
  rw [foundAt]
  simp only [hmeta, if_true, hget, hparsed]
  rw [entryAt, if_neg (by rw [Bool.not_eq_true]; exact malformed_eq_false.mpr hhash)]
  simp only [entryPaths]
  rw [stem] at hbody
  rw [hbody]
  rfl

/-- What there is at a file. -/
theorem foundAt_cases
    (files : Keyed.Listing ShardPath StoredFile) (p : ShardPath) :
  foundAt files p = .nothing ∨ (∃ c, IsBroken files p c) ∨ ∃ c, IsComplete files p c
  := by
  rcases hmeta : Text.endsWith metaSuffix p.name with _ | _
  · rcases hbody : Text.endsWith bodySuffix p.name with _ | _
    · rcases hpoison : Text.endsWith poisonSuffix p.name with _ | _
      · left
        simp [foundAt, hmeta, hbody, hpoison]
      · rcases hget : files.get ⟨p.dir, stem poisonSuffix p ++ metaSuffix⟩ with _ | file
        · exact .inr (.inl ⟨_, .orphanPoison hmeta hbody hpoison hget⟩)
        · left
          rw [stem] at hget
          simp [foundAt, orphanAt, hmeta, hbody, hpoison, hget]
    · rcases hget : files.get ⟨p.dir, stem bodySuffix p ++ metaSuffix⟩ with _ | file
      · exact .inr (.inl ⟨_, .orphanBody hmeta hbody hget⟩)
      · left
        rw [stem] at hget
        simp [foundAt, orphanAt, hmeta, hbody, hget]
  · rcases hget : files.get p with _ | file
    · left
      simp [foundAt, hmeta, hget]
    · rcases hparsed : file.parsed with _ | info
      · exact .inr (.inl ⟨_, .corruptEntry hmeta hget hparsed⟩)
      · by_cases hhash : IsHash (stem metaSuffix p)
        · rcases hbody : files.get ⟨p.dir, stem metaSuffix p ++ bodySuffix⟩ with _ | body
          · exact .inr (.inl ⟨_, .missingBody hmeta hget hparsed hhash hbody⟩)
          · exact .inr (.inr ⟨_, .intro hmeta hget hparsed hhash hbody⟩)
        · exact .inr (.inl ⟨_, .malformedHash hmeta hget hparsed hhash⟩)

theorem foundAt_eq_broken_iff :
  foundAt files p = .broken c ↔ IsBroken files p c
  := by
  constructor
  · intro h
    rcases foundAt_cases files p with hnothing | ⟨c', hbroken⟩ | ⟨c', hcomplete⟩
    · cases hnothing.symm.trans h
    · cases (foundAt_of_isBroken hbroken).symm.trans h
      exact hbroken
    · cases (foundAt_of_isComplete hcomplete).symm.trans h
  · exact foundAt_of_isBroken

theorem foundAt_eq_complete_iff
    {candidate : EvictionCandidate} :
  foundAt files p = .complete candidate ↔ IsComplete files p candidate
  := by
  constructor
  · intro h
    rcases foundAt_cases files p with hnothing | ⟨c', hbroken⟩ | ⟨c', hcomplete⟩
    · cases hnothing.symm.trans h
    · cases (foundAt_of_isBroken hbroken).symm.trans h
    · cases (foundAt_of_isComplete hcomplete).symm.trans h
      exact hcomplete
  · exact foundAt_of_isComplete

theorem cleanup?_eq_some
    {finding : Finding} :
  finding.cleanup? = some c ↔ finding = .broken c
  := by
  cases finding <;> simp [Finding.cleanup?]

theorem candidate?_eq_some
    {finding : Finding} {candidate : EvictionCandidate} :
  finding.candidate? = some candidate ↔ finding = .complete candidate
  := by
  cases finding <;> simp [Finding.candidate?]

theorem mem_cleanupsAt
    {paths : List ShardPath} :
  c ∈ cleanupsAt files paths ↔ ∃ p ∈ paths, IsBroken files p c
  := by
  simp only [cleanupsAt, List.mem_filterMap, cleanup?_eq_some, foundAt_eq_broken_iff]

theorem mem_candidatesAt
    {paths : List ShardPath} {candidate : EvictionCandidate} :
  candidate ∈ candidatesAt files paths ↔ ∃ p ∈ paths, IsComplete files p candidate
  := by
  simp only [candidatesAt, List.mem_filterMap, candidate?_eq_some, foundAt_eq_complete_iff]

/-! ### Independence of the cleanups -/

/-- What is found broken is so. -/
theorem IsBroken.holds
    (h : IsBroken files p c) :
  c.Holds files
  := by
  cases h with
  | orphanBody _ _ hnone => exact hnone
  | orphanPoison _ _ _ hnone => exact hnone
  | corruptEntry _ hget hparsed => exact ⟨_, hget, hparsed⟩
  | malformedHash _ _ _ _ => trivial
  | missingBody _ _ _ _ hbody => exact hbody

/-- The metadata that a cleanup may remove is the file that it was found at. -/
theorem IsBroken.eq_of_mem_owned
    (h : IsBroken files p c) (hq : q ∈ c.owned) (hmeta : Text.endsWith metaSuffix q.name = true) :
  q = p
  := by
  cases h with
  | orphanBody _ _ _ => exact List.mem_singleton.mp hq
  | orphanPoison _ _ _ _ => exact List.mem_singleton.mp hq
  | _ =>
      simp only [DeferredCleanup.owned, EntryPaths.all, entryPaths, List.mem_cons,
        List.not_mem_nil, or_false] at hq
      rcases hq with rfl | rfl | rfl
      · rfl
      · rw [endsWith_meta_body] at hmeta
        cases hmeta
      · rw [endsWith_meta_poison] at hmeta
        cases hmeta

theorem IsBroken.needed
    (h : IsBroken files p c) (hq : q ∈ c.needed) :
  q = p ∧ Text.endsWith metaSuffix q.name = true
  := by
  cases h with
  | corruptEntry hmeta _ _ =>
      obtain rfl := List.mem_singleton.mp hq
      exact ⟨rfl, hmeta⟩
  | _ => cases hq

/-- What is found at different files is cleaned up independently. -/
theorem IsBroken.independent
    {c' : DeferredCleanup} (h : IsBroken files p c) (h' : IsBroken files q c') (hne : p ≠ q) :
  Independent c c'
  := by
  intro r hr hmem
  obtain ⟨rfl, hmeta⟩ := h'.needed hr
  exact hne (h.eq_of_mem_owned hmem hmeta).symm

theorem pairwise_cleanupsAt
    {paths : List ShardPath} (h : paths.Nodup) :
  (cleanupsAt files paths).Pairwise Independent
  := by
  rw [cleanupsAt, List.pairwise_filterMap]
  apply h.imp
  intro p q hne c hc c' hc'
  rw [cleanup?_eq_some, foundAt_eq_broken_iff] at hc hc'
  exact hc.independent hc' hne

/-! ### The order of the scan -/

/-- Every file is scanned. -/
theorem Store.mem_scanOrder
    {s : Store} :
  p ∈ scanOrder s.files (s.dirs.getD []) ↔ p ∈ s.files.keys
  := by
  simp only [scanOrder, List.mem_flatMap, List.mem_filter, decide_eq_true_eq]
  constructor
  · rintro ⟨dir, _, hp, _⟩
    exact hp
  · intro hp
    exact ⟨p.dir, s.dir_mem p hp, hp, rfl⟩

/-- No file is scanned twice. -/
theorem Store.nodup_scanOrder
    (s : Store) :
  (scanOrder s.files (s.dirs.getD [])).Nodup
  := by
  rw [scanOrder, List.nodup_flatMap]
  constructor
  · intro dir _
    exact s.files.nodup.filter _
  · apply s.nodup_dirs.imp
    intro dir dir' hne p hp hp'
    have hdir : p.dir = dir := of_decide_eq_true (List.mem_filter.mp hp).2
    have hdir' : p.dir = dir' := of_decide_eq_true (List.mem_filter.mp hp').2
    exact hne (hdir.symm.trans hdir')

/-- The complete entries in the order in which they are scanned. -/
def Store.candidates (s : Store) : List EvictionCandidate :=
  candidatesAt s.files (scanOrder s.files (s.dirs.getD []))

/-- What is to be cleaned up, in the order in which it is scanned. -/
def Store.cleanups (s : Store) : List DeferredCleanup :=
  cleanupsAt s.files (scanOrder s.files (s.dirs.getD []))

theorem Store.mem_candidates
    {s : Store} {candidate : EvictionCandidate} :
  candidate ∈ s.candidates ↔ ∃ p, IsComplete s.files p candidate
  := by
  rw [Store.candidates, mem_candidatesAt]
  constructor
  · rintro ⟨p, -, h⟩
    exact ⟨p, h⟩
  · rintro ⟨p, h⟩
    use p, ?_, h
    obtain ⟨-, hget, -, -, -⟩ := h
    rw [Store.mem_scanOrder]
    exact List.mem_map_of_mem (Keyed.Listing.get_eq_some_iff.mp hget)

theorem Store.mem_cleanups
    {s : Store} :
  c ∈ s.cleanups ↔ ∃ p ∈ s.files.keys, IsBroken s.files p c
  := by
  simp only [Store.cleanups, mem_cleanupsAt, Store.mem_scanOrder]

end TinyS3Proxy.Shards
