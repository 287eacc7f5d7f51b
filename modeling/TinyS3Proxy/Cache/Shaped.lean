import TinyS3Proxy.Cache.Findings
import TinyS3Proxy.Cache.Removing

/-!
# Files of the writer

The writer names the files of an entry by its hash, so that entries have no files in common. An
eviction of one entry, and a cleanup, leave the files of a complete entry alone.
-/

namespace TinyS3Proxy.Shards

open Text (Bytes ascii)

/-- The files are bodies, metadata and empty poison markers. -/
def Store.WriterShaped (s : Store) : Prop :=
  ∀ p file, s.files.get p = some file → ∃ hash, IsHash hash ∧
    (p.name = hash ++ bodySuffix ∨ p.name = hash ++ metaSuffix ∨
      p.name = hash ++ poisonSuffix ∧ file.size = 0)

variable {s s' : Store} {p q : ShardPath} {c c' : EvictionCandidate}

/-! ### The entry of a file -/

/-- The entry that a file belongs to: its directory, and its name up to the first dot. -/
def ShardPath.entry (p : ShardPath) : ShardDir × Bytes := (p.dir, p.name.takeWhile (· ≠ 46))

theorem IsHash.entry
    {hash : Bytes} (h : IsHash hash) (dir : ShardDir) (suffix : Bytes) :
  (ShardPath.mk dir (hash ++ 46 :: suffix)).entry = (dir, hash)
  := by
  have hall : ∀ b ∈ hash, decide (b ≠ 46) = true := by
    intro b hb
    apply decide_eq_true
    rintro rfl
    exact h.dot_notMem hb
  rw [ShardPath.entry, List.takeWhile_append_of_pos hall, List.takeWhile_cons_of_neg (by simp),
    List.append_nil]

/-- The poison marker has the name of the body with another suffix. -/
theorem IsHash.withExtension
    {hash : Bytes} (h : IsHash hash) :
  withExtension (ascii "poisoned") (hash ++ bodySuffix) = hash ++ poisonSuffix
  := by
  have hsplit : Text.splitOnce 46 (hash ++ bodySuffix).reverse
      = some ((ascii "body").reverse, hash.reverse) := by
    apply Text.splitOnce_eq_some.mpr
    constructor
    · rw [List.reverse_append]
      rfl
    · decide
  have hne : hash.reverse ≠ [] := by
    rw [ne_eq, List.reverse_eq_nil_iff]
    rintro rfl
    exact absurd h.1 (by decide)
  rw [Shards.withExtension, hsplit]
  simp only [if_pos hne, List.reverse_reverse]
  rfl

/-! ### Candidates -/

/-- The files of a candidate are named by its hash. -/
structure Shaped (c : EvictionCandidate) : Prop where
  isHash : IsHash c.hash
  bodyPath : c.bodyPath = ⟨c.metaPath.dir, c.hash ++ bodySuffix⟩
  name : c.metaPath.name = c.hash ++ metaSuffix

namespace Shaped

/-- The files that are removed with a candidate belong to its entry. -/
theorem entry
    (h : Shaped c) (hp : p ∈ c.evictable) :
  p.entry = c.metaPath.entry
  := by
  have hmeta : c.metaPath.entry = (c.metaPath.dir, c.hash) := by
    rw [← h.isHash.entry c.metaPath.dir (ascii "meta.json")]
    congr 1
    rw [show c.hash ++ 46 :: ascii "meta.json" = c.metaPath.name from h.name.symm]
  rw [hmeta]
  simp only [EvictionCandidate.evictable, List.mem_cons, List.not_mem_nil, or_false] at hp
  rcases hp with rfl | rfl | rfl
  · rw [h.bodyPath]
    exact h.isHash.entry _ _
  · exact hmeta
  · rw [EvictionCandidate.poisonPath, h.bodyPath, h.isHash.withExtension]
    exact h.isHash.entry _ _

theorem nodup_evictable
    (h : Shaped c) :
  c.evictable.Nodup
  := by
  have hpoison : c.poisonPath.name = c.hash ++ poisonSuffix := by
    rw [EvictionCandidate.poisonPath, h.bodyPath]
    exact h.isHash.withExtension
  have hbody : c.bodyPath.name = c.hash ++ bodySuffix := by rw [h.bodyPath]
  simp only [EvictionCandidate.evictable, List.nodup_cons, List.mem_cons, List.not_mem_nil,
    or_false, not_or, not_false_eq_true, List.nodup_nil, and_true]
  refine ⟨⟨?_, ?_⟩, ?_⟩
  · rintro heq
    rw [heq, h.name] at hbody
    exact body_ne_meta _ _ hbody.symm
  · rintro heq
    rw [heq, hpoison] at hbody
    exact body_ne_poison _ _ hbody.symm
  · rintro heq
    have hname := h.name
    rw [heq, hpoison] at hname
    exact poison_ne_meta _ _ hname

/-- Candidates whose metadata are different have no files in common. -/
theorem disjoint
    (h : Shaped c) (h' : Shaped c') (hne : c.metaPath ≠ c'.metaPath) :
  c.evictable.Disjoint c'.evictable
  := by
  intro q hq hq'
  apply hne
  have heq := (h.entry hq).symm.trans (h'.entry hq')
  have hentry := h.entry (p := c.bodyPath) List.mem_cons_self
  have hentry' := h'.entry (p := c'.bodyPath) List.mem_cons_self
  rw [← hentry, ← hentry', h.bodyPath, h'.bodyPath] at heq
  obtain ⟨hdir, hhash⟩ := Prod.mk.inj
    (((h.isHash.entry _ _).symm.trans heq).trans (h'.isHash.entry _ _))
  have hname := h.name
  rw [hhash, ← h'.name] at hname
  exact congrArg₂ ShardPath.mk hdir hname

end Shaped

theorem intact_of_mem_candidates
    (h : c ∈ s.candidates) :
  Intact s c
  := by
  obtain ⟨p, hmeta, hget, hparsed, hhash, hbody⟩ := Store.mem_candidates.mp h
  exact ⟨_, _, _, hbody, hget, hparsed, rfl, rfl, rfl⟩

/-- The metadata that there are. -/
theorem Store.WriterShaped.name_of_meta
    (h : s.WriterShaped) {file : StoredFile} (hget : s.files.get p = some file)
    (hmeta : Text.endsWith metaSuffix p.name = true) :
  ∃ hash, IsHash hash ∧ p.name = hash ++ metaSuffix ∧ stem metaSuffix p = hash
  := by
  obtain ⟨dir, name⟩ := p
  obtain ⟨hash, hhash, hname⟩ := h _ _ hget
  rcases hname with rfl | rfl | ⟨rfl, -⟩
  · rw [endsWith_meta_body] at hmeta
    cases hmeta
  · exact ⟨hash, hhash, rfl, (stem_append hhash dir).1⟩
  · rw [endsWith_meta_poison] at hmeta
    cases hmeta

theorem Store.WriterShaped.shaped
    (h : s.WriterShaped) (hc : c ∈ s.candidates) :
  Shaped c
  := by
  obtain ⟨p, hmeta, hget, hparsed, hhash, hbody⟩ := Store.mem_candidates.mp hc
  obtain ⟨hash, hhash', hname, hstem⟩ := h.name_of_meta hget hmeta
  exact ⟨hhash, rfl, by rw [candidateFor]; simp only [entryPaths, hstem, hname]⟩

/-- Different entries have different metadata. -/
theorem Store.pairwise_candidates
    (s : Store) :
  s.candidates.Pairwise fun c c' => c.metaPath ≠ c'.metaPath
  := by
  rw [Store.candidates, candidatesAt, List.pairwise_filterMap]
  apply s.nodup_scanOrder.imp
  intro p q hne c hc c' hc'
  rw [candidate?_eq_some, foundAt_eq_complete_iff] at hc hc'
  obtain ⟨-, -, -, -, -⟩ := hc
  obtain ⟨-, -, -, -, -⟩ := hc'
  exact hne

/-- Candidates in any order, and any number of them, have no files in common. -/
theorem Store.WriterShaped.nodup_evictable
    (h : s.WriterShaped) {cs order : List EvictionCandidate} (hperm : order.Perm s.candidates)
    (hsub : cs.Sublist order) :
  (cs.flatMap EvictionCandidate.evictable).Nodup
  := by
  rw [List.nodup_flatMap]
  constructor
  · intro c hc
    exact (h.shaped (hperm.mem_iff.mp (hsub.subset hc))).nodup_evictable
  · have hpairwise := (hperm.pairwise_iff Ne.symm).mpr s.pairwise_candidates
    apply (hpairwise.sublist hsub).imp_of_mem
    intro c c' hc hc' hne
    exact (h.shaped (hperm.mem_iff.mp (hsub.subset hc))).disjoint
      (h.shaped (hperm.mem_iff.mp (hsub.subset hc'))) hne

/-- The metadata of a hash belongs to a complete entry, or is cleaned up with all its files. -/
theorem found_of_meta
    {dir : ShardDir} {hash : Bytes} {file : StoredFile} (hhash : IsHash hash)
    (hget : s.files.get ⟨dir, hash ++ metaSuffix⟩ = some file) :
  (∃ c ∈ s.cleanups, c.counted = (entryPaths dir (hash ++ metaSuffix) hash).all) ∨
    ∃ c ∈ s.candidates, c.metaPath = ⟨dir, hash ++ metaSuffix⟩ ∧
      c.bodyPath = ⟨dir, hash ++ bodySuffix⟩
  := by
  have hmeta : Text.endsWith metaSuffix (hash ++ metaSuffix) = true := Text.endsWith_append _ _
  have hkey := List.mem_map_of_mem (f := Prod.fst) (Keyed.Listing.get_eq_some_iff.mp hget)
  obtain ⟨hstem, -, -⟩ := stem_append hhash dir
  rcases hparsed : file.parsed with _ | info
  · left
    have hbroken := IsBroken.corruptEntry hmeta hget hparsed
    rw [hstem] at hbroken
    exact ⟨_, Store.mem_cleanups.mpr ⟨_, hkey, hbroken⟩, rfl⟩
  · have hhash' : IsHash (stem metaSuffix ⟨dir, hash ++ metaSuffix⟩) := hstem.symm ▸ hhash
    rcases hbody :
        s.files.get ⟨dir, stem metaSuffix ⟨dir, hash ++ metaSuffix⟩ ++ bodySuffix⟩ with _ | body
    · left
      have hbroken := IsBroken.missingBody hmeta hget hparsed hhash' hbody
      rw [hstem] at hbroken
      exact ⟨_, Store.mem_cleanups.mpr ⟨_, hkey, hbroken⟩, rfl⟩
    · right
      have hcomplete := IsComplete.intro hmeta hget hparsed hhash' hbody
      rw [hstem] at hcomplete
      exact ⟨_, Store.mem_candidates.mpr ⟨_, hcomplete⟩, rfl, rfl⟩

/-- The files of complete entries. -/
def candidateFiles (candidates : List EvictionCandidate) : List ShardPath :=
  candidates.flatMap fun c => [c.bodyPath, c.metaPath]

/-- Candidates that are intact take as many bytes as their sizes say. -/
theorem sum_sizeAt_candidateFiles
    {candidates : List EvictionCandidate} (h : ∀ c ∈ candidates, Intact s c) :
  ((candidateFiles candidates).map s.sizeAt).sum = sizes candidates
  := by
  induction candidates with
  | nil => rfl
  | cons c cs ih =>
      obtain ⟨body, file, info, hbody, hmeta, -, -, -, hsize⟩ := h c List.mem_cons_self
      have ih' := ih fun c' hc' => h c' (List.mem_cons_of_mem _ hc')
      rw [candidateFiles] at ih'
      rw [candidateFiles, List.flatMap_cons, List.map_append, List.sum_append, sizes_cons, ih']
      simp only [List.map_cons, List.map_nil, List.sum_cons, List.sum_nil]
      rw [Store.sizeAt_of_get hbody, Store.sizeAt_of_get hmeta, hsize]
      omega

/-! ### Cleanups -/

theorem IsHash.entry_of_mem_all
    {hash : Bytes} (h : IsHash hash) {dir : ShardDir}
    (hp : p ∈ (entryPaths dir (hash ++ metaSuffix) hash).all) :
  p.entry = (dir, hash)
  := by
  simp only [EntryPaths.all, entryPaths, List.mem_cons, List.not_mem_nil, or_false] at hp
  rcases hp with rfl | rfl | rfl
  · exact h.entry _ _
  · exact h.entry _ _
  · exact h.entry _ _

theorem Store.WriterShaped.entry_of_mem_all
    (h : s.WriterShaped) {file : StoredFile} (hget : s.files.get q = some file)
    (hmeta : Text.endsWith metaSuffix q.name = true)
    (hp : p ∈ (entryPaths q.dir q.name (stem metaSuffix q)).all) :
  p.entry = q.entry
  := by
  obtain ⟨dir, name⟩ := q
  obtain ⟨hash, hhash, rfl, hstem⟩ := h.name_of_meta hget hmeta
  rw [hstem] at hp
  rw [hhash.entry_of_mem_all hp]
  exact (hhash.entry _ _).symm

/-- The files that a cleanup may remove belong to the entry of the file that it was found at. -/
theorem Store.WriterShaped.entry_of_mem_owned
    (h : s.WriterShaped) {cleanup : DeferredCleanup} (hbroken : IsBroken s.files q cleanup)
    (hp : p ∈ cleanup.owned) :
  p.entry = q.entry
  := by
  cases hbroken with
  | orphanBody _ _ _ => rw [List.mem_singleton.mp hp]
  | orphanPoison _ _ _ _ => rw [List.mem_singleton.mp hp]
  | corruptEntry hmeta hget _ =>
      exact h.entry_of_mem_all hget hmeta hp
  | malformedHash hmeta hget _ _ =>
      exact h.entry_of_mem_all hget hmeta hp
  | missingBody hmeta hget _ _ _ =>
      exact h.entry_of_mem_all hget hmeta hp

/-- A complete entry is not that of a broken file. -/
theorem Store.WriterShaped.entry_ne
    (h : s.WriterShaped) {cleanup : DeferredCleanup} (hq : q ∈ s.files.keys)
    (hbroken : IsBroken s.files q cleanup) (hcomplete : IsComplete s.files p c) :
  p.entry ≠ q.entry
  := by
  intro heq
  have hfound := foundAt_of_isComplete hcomplete
  obtain ⟨hmeta, hget, -, -, -⟩ := hcomplete
  obtain ⟨dir, name⟩ := p
  obtain ⟨hash, hhash, rfl, -⟩ := h.name_of_meta hget hmeta
  obtain ⟨file, hfile⟩ := Keyed.Listing.exists_get_of_mem_keys hq
  obtain ⟨dir', name'⟩ := q
  obtain ⟨hash', hhash', hname'⟩ := h _ _ hfile
  obtain ⟨hstem₁, hstem₂, hstem₃⟩ := stem_append hhash' dir'
  have hentry : (dir, hash) = (dir', hash') := by
    rw [← hhash.entry dir (ascii "meta.json")]
    apply heq.trans
    rcases hname' with rfl | rfl | ⟨rfl, -⟩
    · exact hhash'.entry _ _
    · exact hhash'.entry _ _
    · exact hhash'.entry _ _
  obtain ⟨rfl, rfl⟩ := Prod.mk.inj hentry
  rcases hname' with rfl | rfl | ⟨rfl, -⟩
  · cases hbroken with
    | orphanBody _ _ hnone =>
        rw [hstem₂, hget] at hnone
        cases hnone
    | orphanPoison _ hbody _ _ =>
        rw [Text.endsWith_append] at hbody
        cases hbody
    | corruptEntry hmeta' _ _ =>
        rw [endsWith_meta_body] at hmeta'
        cases hmeta'
    | malformedHash hmeta' _ _ _ =>
        rw [endsWith_meta_body] at hmeta'
        cases hmeta'
    | missingBody hmeta' _ _ _ _ =>
        rw [endsWith_meta_body] at hmeta'
        cases hmeta'
  · rw [foundAt_of_isBroken hbroken] at hfound
    cases hfound
  · cases hbroken with
    | orphanBody _ hbody _ =>
        rw [endsWith_body_poison] at hbody
        cases hbody
    | orphanPoison _ _ _ hnone =>
        rw [hstem₃, hget] at hnone
        cases hnone
    | corruptEntry hmeta' _ _ =>
        rw [endsWith_meta_poison] at hmeta'
        cases hmeta'
    | malformedHash hmeta' _ _ _ =>
        rw [endsWith_meta_poison] at hmeta'
        cases hmeta'
    | missingBody hmeta' _ _ _ _ =>
        rw [endsWith_meta_poison] at hmeta'
        cases hmeta'

/-- The cleanups leave the files of complete entries alone. -/
theorem Store.WriterShaped.intact_of_works
    (h : s.WriterShaped) {hashes : List Bytes}
    (hworks : s.Works (s.cleanups.flatMap DeferredCleanup.owned) hashes s')
    (hc : c ∈ s.candidates) :
  Intact s' c
  := by
  have hkept : ∀ r ∈ c.evictable, s'.files.get r = s.files.get r := by
    intro r hr
    apply hworks.get_eq
    intro hmem
    obtain ⟨cleanup, hcleanup, howned⟩ := List.mem_flatMap.mp hmem
    obtain ⟨q, hq, hbroken⟩ := Store.mem_cleanups.mp hcleanup
    obtain ⟨p, hcomplete⟩ := Store.mem_candidates.mp hc
    have hne := h.entry_ne hq hbroken hcomplete
    obtain ⟨-, -, -, -, -⟩ := hcomplete
    exact hne (((h.shaped hc).entry hr).symm.trans (h.entry_of_mem_owned hbroken howned))
  obtain ⟨body, file, info, hbody, hmeta, hrest⟩ := intact_of_mem_candidates hc
  refine ⟨body, file, info, ?_, ?_, hrest⟩
  · rw [hkept c.bodyPath (by simp [EvictionCandidate.evictable]), hbody]
  · rw [hkept c.metaPath (by simp [EvictionCandidate.evictable]), hmeta]

end TinyS3Proxy.Shards
