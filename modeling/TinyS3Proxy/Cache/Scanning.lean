import TinyS3Proxy.Cache.Pass

/-!
# What a scan finds

A scan does not change any file, and it is given up as soon as a call fails. So a scan that is
completed has found what is there: at each file an entry that is complete, something that is to be
cleaned up, or nothing.
-/

namespace TinyS3Proxy.Shards

open Text (Bytes ascii)
open Effect

/-! ### Runs that change no file -/

/-- Nothing has been done except for calls. -/
def Store.Quiet (s s' : Store) : Prop := ∃ n, s' = { s with calls := n }

theorem Store.Quiet.refl
    (s : Store) :
  s.Quiet s
  := ⟨s.calls, rfl⟩

theorem Store.quiet_next
    (s : Store) :
  s.Quiet s.next
  := ⟨s.calls + 1, rfl⟩

theorem Store.Quiet.trans
    {s s' s'' : Store} (h : s.Quiet s') (h' : s'.Quiet s'') :
  s.Quiet s''
  := by
  obtain ⟨n, rfl⟩ := h
  obtain ⟨m, rfl⟩ := h'
  exact ⟨m, rfl⟩

/-- Some call fails. -/
def Store.Faulty (s : Store) : Prop := ∃ n, s.faulty n = true

/-- All calls succeed. -/
def Store.Sound (s : Store) : Prop := ∀ n, s.faulty n = false

theorem Store.Sound.not_faulty
    {s : Store} (h : s.Sound) :
  ¬ s.Faulty
  := by
  rintro ⟨n, hn⟩
  rw [h n] at hn
  cases hn

/-! ### Findings -/

/-- What there is at a file. -/
inductive Finding
  | nothing
  | broken (cleanup : DeferredCleanup)
  | complete (candidate : EvictionCandidate)
deriving DecidableEq

namespace Finding

/-- The entry that may be evicted. -/
def candidate? : Finding → Option EvictionCandidate
  | complete candidate => some candidate
  | _ => none

/-- What is to be cleaned up. -/
def cleanup? : Finding → Option DeferredCleanup
  | broken cleanup => some cleanup
  | _ => none

end Finding

/-- The result of a scan with what there is at one more file. -/
def DirScanResult.add (result : DirScanResult) : Finding → DirScanResult
  | .nothing => result
  | .broken cleanup => result.defer cleanup
  | .complete candidate => result.count candidate

/-- The candidate for an entry with a body. -/
def candidateFor (paths : EntryPaths) (bodySize metaBytes : ℕ) (info : CacheMeta) :
    EvictionCandidate :=
  { bodyPath := paths.bodyPath
    metaPath := paths.metaPath
    hash := paths.hash
    fillId := info.fillId
    lastAccessedAt := info.lastAccessedAt
    size := bodySize + metaBytes }

/-- What there is at a file without metadata, unless the metadata of its entry is there. -/
def orphanAt (files : Keyed.Listing ShardPath StoredFile) (dir : ShardDir) (hash : Bytes)
    (cleanup : DeferredCleanup) : Finding :=
  match files.get ⟨dir, hash ++ metaSuffix⟩ with
  | none => .broken cleanup
  | some _ => .nothing

/-- What there is at metadata. -/
def entryAt (files : Keyed.Listing ShardPath StoredFile) (paths : EntryPaths) (metaBytes : ℕ)
    (info : CacheMeta) : Finding :=
  if paths.hash.length < 5 || !paths.hash.all Text.isHexDigit then .broken (.malformedHash paths)
  else
    match files.get paths.bodyPath with
    | none => .broken (.missingBody paths)
    | some body => .complete (candidateFor paths body.size metaBytes info)

/-- What there is at a file. -/
def foundAt (files : Keyed.Listing ShardPath StoredFile) (p : ShardPath) : Finding :=
  if Text.endsWith metaSuffix p.name then
    let paths := entryPaths p.dir p.name (Text.trimEndMatches metaSuffix p.name)
    match files.get p with
    | none => .nothing
    | some file =>
        match file.parsed with
        | none => .broken (.corruptEntry paths)
        | some info => entryAt files paths file.size info
  else if Text.endsWith bodySuffix p.name then
    let hash := Text.trimEndMatches bodySuffix p.name
    orphanAt files p.dir hash (.orphanBody p hash)
  else if Text.endsWith poisonSuffix p.name then
    let hash := Text.trimEndMatches poisonSuffix p.name
    orphanAt files p.dir hash (.orphanPoison p hash)
  else .nothing

/-! ### Scans of directories -/

variable {s : Store}

theorem leads_scanOrphan
    (dir : ShardDir) (result : DirScanResult) (hash : Bytes) (cleanup : DeferredCleanup) :
  Leads (scanOrphan dir result hash cleanup) s
    (fun r s' => r = result.add (orphanAt s.files dir hash cleanup) ∧ s.Quiet s')
    (fun _ s' => s.Quiet s' ∧ s.Faulty)
  := by
  apply Leads.bind
  apply leads_tryExists
  · intro hfault
    apply leads_throw
    exact ⟨s.quiet_next, _, hfault⟩
  · intro file hfile
    apply leads_pure
    rw [orphanAt, hfile]
    exact ⟨rfl, s.quiet_next⟩
  · intro hnone
    apply leads_pure
    rw [orphanAt, hnone]
    exact ⟨rfl, s.quiet_next⟩

theorem leads_scanEntry
    (dir : ShardDir) (result : DirScanResult) (fileName hash : Bytes) (metaBytes : ℕ)
    (info : CacheMeta) :
  Leads (scanEntry dir result fileName hash metaBytes info) s
    (fun r s' => r = result.add (entryAt s.files (entryPaths dir fileName hash) metaBytes info) ∧
      s.Quiet s')
    (fun _ s' => s.Quiet s' ∧ s.Faulty)
  := by
  have hhash : (entryPaths dir fileName hash).hash = hash := rfl
  rw [scanEntry, entryAt, hhash]
  split
  next =>
    apply leads_pure
    exact ⟨rfl, .refl s⟩
  next =>
    apply Leads.bind
    apply leads_metadata
    · intro hfault
      apply leads_throw
      exact ⟨s.quiet_next, _, hfault⟩
    · intro file hfile
      apply leads_pure
      rw [hfile]
      exact ⟨rfl, s.quiet_next⟩
    · intro hnone
      apply leads_pure
      rw [hnone]
      exact ⟨rfl, s.quiet_next⟩

/-- The scan of a file finds what there is, or is given up. -/
theorem leads_scanFile
    (dir : ShardDir) (result : DirScanResult) (fileName : Bytes) :
  Leads (scanFile dir result fileName) s
    (fun r s' => r = result.add (foundAt s.files ⟨dir, fileName⟩) ∧ s.Quiet s')
    (fun _ s' => s.Quiet s' ∧ (s.Faulty ∨ Text.validUtf8 fileName = false))
  := by
  rw [scanFile, foundAt]
  split
  next hvalid =>
    apply leads_throw
    exact ⟨.refl s, .inr (by simpa using hvalid)⟩
  next =>
    split
    next hmeta =>
      have hmeta' : Text.endsWith metaSuffix fileName = false := by simpa using hmeta
      simp only [hmeta', Bool.false_eq_true, if_false]
      split
      next =>
        apply (leads_scanOrphan _ _ _ _).mono
        · exact fun _ _ h => h
        · exact fun _ _ h => ⟨h.1, .inl h.2⟩
      next =>
        split
        next =>
          apply (leads_scanOrphan _ _ _ _).mono
          · exact fun _ _ h => h
          · exact fun _ _ h => ⟨h.1, .inl h.2⟩
        next =>
          apply leads_pure
          exact ⟨rfl, .refl s⟩
    next hmeta =>
      have hmeta' : Text.endsWith metaSuffix fileName = true := by simpa using hmeta
      simp only [hmeta', if_true]
      apply Leads.bind
      apply leads_read
      · intro hfault
        apply leads_throw
        exact ⟨s.quiet_next, .inl ⟨_, hfault⟩⟩
      · intro file hfile
        simp only [hfile]
        rcases file.parsed with _ | info
        · apply leads_pure
          exact ⟨rfl, s.quiet_next⟩
        · apply (leads_scanEntry _ _ _ _ _ _).mono
          · exact fun _ _ h => ⟨h.1, s.quiet_next.trans h.2⟩
          · exact fun _ _ h => ⟨s.quiet_next.trans h.1, .inl h.2⟩
      · intro hnone
        apply leads_pure
        simp only [hnone]
        exact ⟨rfl, s.quiet_next⟩

/-- What is found at files of a directory. -/
def addFindings (files : Keyed.Listing ShardPath StoredFile) (dir : ShardDir)
    (result : DirScanResult) (fileNames : List Bytes) : DirScanResult :=
  fileNames.foldl (fun result fileName => result.add (foundAt files ⟨dir, fileName⟩)) result

theorem leads_scanFiles
    (dir : ShardDir) (result : DirScanResult) (fileNames : List Bytes) :
  Leads (scanFiles dir result fileNames) s
    (fun r s' => r = addFindings s.files dir result fileNames ∧ s.Quiet s')
    (fun _ s' => s.Quiet s' ∧ (s.Faulty ∨ ∃ name ∈ fileNames, Text.validUtf8 name = false))
  := by
  induction fileNames generalizing s result with
  | nil =>
      apply Leads.bind
      apply leads_asks
      · intro hfault
        apply leads_throw
        exact ⟨s.quiet_next, .inl ⟨_, hfault⟩⟩
      · apply leads_pure
        exact ⟨rfl, s.quiet_next⟩
  | cons fileName fileNames ih =>
      apply Leads.bind
      apply leads_asks
      · intro hfault
        apply leads_throw
        exact ⟨s.quiet_next, .inl ⟨_, hfault⟩⟩
      · apply Leads.seq (leads_scanFile dir result fileName)
        · rintro r s₁ ⟨rfl, hquiet⟩
          have hquiet' := s.quiet_next.trans hquiet
          apply (ih _).mono
          · rintro r s₂ ⟨rfl, hquiet₂⟩
            obtain ⟨n, rfl⟩ := hquiet'
            exact ⟨rfl, Store.Quiet.trans ⟨n, rfl⟩ hquiet₂⟩
          · rintro e s₂ ⟨hquiet₂, hwhy⟩
            obtain ⟨n, rfl⟩ := hquiet'
            use Store.Quiet.trans ⟨n, rfl⟩ hquiet₂
            apply hwhy.imp id
            rintro ⟨name, hname, hvalid⟩
            exact ⟨name, List.mem_cons_of_mem _ hname, hvalid⟩
        · rintro e s₁ ⟨hquiet, hwhy⟩
          use s.quiet_next.trans hquiet
          exact hwhy.imp id fun h => ⟨fileName, List.mem_cons_self, h⟩

/-- The names of the files of a directory. -/
def namesIn (files : Keyed.Listing ShardPath StoredFile) (dir : ShardDir) : List Bytes :=
  (files.keys.filter fun p => p.dir = dir).map ShardPath.name

/-- The name of some file is no string. -/
def Store.HasBadName (s : Store) : Prop := ∃ p ∈ s.files.keys, Text.validUtf8 p.name = false

theorem leads_scanHashDirForEviction
    {dir : ShardDir} (hdir : dir ∈ s.dirs.getD []) :
  Leads (scanHashDirForEviction dir) s
    (fun r s' => r = addFindings s.files dir .init (namesIn s.files dir) ∧ s.Quiet s')
    (fun _ s' => s.Quiet s' ∧ (s.Faulty ∨ s.HasBadName))
  := by
  apply Leads.bind
  apply leads_asks
  · intro hfault
    apply leads_throw
    exact ⟨s.quiet_next, .inl ⟨_, hfault⟩⟩
  · rw [if_pos (show dir ∈ s.next.dirs.getD [] from hdir)]
    apply (leads_scanFiles dir .init _).mono
    · rintro r s' ⟨rfl, hquiet⟩
      exact ⟨rfl, s.quiet_next.trans hquiet⟩
    · rintro e s' ⟨hquiet, hwhy⟩
      use s.quiet_next.trans hquiet
      apply hwhy.imp id
      rintro ⟨name, hname, hvalid⟩
      obtain ⟨p, hp, rfl⟩ := List.mem_map.mp hname
      exact ⟨p, (List.mem_filter.mp hp).1, hvalid⟩

theorem leads_boundedParallelScan
    {dirs : List ShardDir} (hdirs : ∀ dir ∈ dirs, dir ∈ s.dirs.getD []) :
  Leads (boundedParallelScan dirs) s
    (fun rs s' =>
      rs = dirs.map (fun dir => addFindings s.files dir .init (namesIn s.files dir)) ∧ s.Quiet s')
    (fun _ s' => s.Quiet s' ∧ (s.Faulty ∨ s.HasBadName))
  := by
  induction dirs generalizing s with
  | nil =>
      apply leads_pure
      exact ⟨rfl, .refl s⟩
  | cons dir dirs ih =>
      apply Leads.seq (leads_scanHashDirForEviction (hdirs dir List.mem_cons_self))
      · rintro r s₁ ⟨rfl, n, rfl⟩
        apply Leads.seq (ih (s := { s with calls := n }) fun d hd =>
          hdirs d (List.mem_cons_of_mem _ hd))
        · rintro rs s₂ ⟨rfl, hquiet⟩
          apply leads_pure
          exact ⟨rfl, Store.Quiet.trans ⟨n, rfl⟩ hquiet⟩
        · rintro e s₂ ⟨hquiet, hwhy⟩
          exact ⟨Store.Quiet.trans ⟨n, rfl⟩ hquiet, hwhy⟩
      · exact fun _ _ h => h

/-! ### Taken together -/

/-- The files in the order in which they are scanned. -/
def scanOrder (files : Keyed.Listing ShardPath StoredFile) (dirs : List ShardDir) :
    List ShardPath :=
  dirs.flatMap fun dir => files.keys.filter fun p => p.dir = dir

/-- The complete entries among files. -/
def candidatesAt (files : Keyed.Listing ShardPath StoredFile) (paths : List ShardPath) :
    List EvictionCandidate :=
  paths.filterMap fun p => (foundAt files p).candidate?

/-- What is to be cleaned up among files. -/
def cleanupsAt (files : Keyed.Listing ShardPath StoredFile) (paths : List ShardPath) :
    List DeferredCleanup :=
  paths.filterMap fun p => (foundAt files p).cleanup?

/-- The number of bytes of candidates. -/
def sizes (candidates : List EvictionCandidate) : ℕ :=
  (candidates.map EvictionCandidate.size).sum

@[simp]
theorem sizes_nil :
  sizes [] = 0
  := rfl

@[simp]
theorem sizes_cons
    (c : EvictionCandidate) (cs : List EvictionCandidate) :
  sizes (c :: cs) = c.size + sizes cs
  := by rw [sizes, List.map_cons, List.sum_cons, sizes]

@[simp]
theorem sizes_append
    (cs ds : List EvictionCandidate) :
  sizes (cs ++ ds) = sizes cs + sizes ds
  := by rw [sizes, List.map_append, List.sum_append, sizes, sizes]

/-- The results of a scan are the entries and the leftovers that it has found. -/
theorem addFindings_eq
    (files : Keyed.Listing ShardPath StoredFile) (dir : ShardDir) (result : DirScanResult)
    (fileNames : List Bytes) :
  let paths := fileNames.map (ShardPath.mk dir)
  addFindings files dir result fileNames
    = { candidates := result.candidates ++ candidatesAt files paths
        totalBytes := result.totalBytes + sizes (candidatesAt files paths)
        entryCount := result.entryCount + (candidatesAt files paths).length
        deferredCleanups := result.deferredCleanups ++ cleanupsAt files paths }
  := by
  induction fileNames generalizing result with
  | nil => simp [addFindings, candidatesAt, cleanupsAt]
  | cons fileName fileNames ih =>
      simp only [addFindings, List.foldl_cons] at ih ⊢
      rw [ih]
      rcases hfound : foundAt files ⟨dir, fileName⟩ with _ | cleanup | candidate
      · simp [candidatesAt, cleanupsAt, hfound, DirScanResult.add, Finding.candidate?,
          Finding.cleanup?]
      · simp [candidatesAt, cleanupsAt, hfound, DirScanResult.add, DirScanResult.defer,
          Finding.candidate?, Finding.cleanup?]
      · simp [candidatesAt, cleanupsAt, hfound, DirScanResult.add, DirScanResult.count,
          Finding.candidate?, Finding.cleanup?, add_assoc, add_comm]

theorem map_mk_namesIn
    (files : Keyed.Listing ShardPath StoredFile) (dir : ShardDir) :
  (namesIn files dir).map (ShardPath.mk dir) = files.keys.filter fun p => p.dir = dir
  := by
  rw [namesIn, List.map_map]
  conv_rhs => rw [← List.map_id (files.keys.filter fun p => p.dir = dir)]
  apply List.map_congr_left
  intro p hp
  obtain rfl : p.dir = dir := of_decide_eq_true (List.mem_filter.mp hp).2
  rfl

/-- The scans of directories, taken together. -/
theorem aggregate_map
    (files : Keyed.Listing ShardPath StoredFile) (dirs : List ShardDir) :
  let paths := scanOrder files dirs
  aggregate (dirs.map fun dir => addFindings files dir .init (namesIn files dir))
    = (⟨candidatesAt files paths, sizes (candidatesAt files paths),
        (candidatesAt files paths).length, 0⟩, cleanupsAt files paths)
  := by
  have hfold : ∀ (tally : Tally) (cleanups : List DeferredCleanup),
      (dirs.map fun dir => addFindings files dir .init (namesIn files dir)).foldl
        (fun acc result =>
          ({ acc.1 with
              candidates := acc.1.candidates ++ result.candidates
              scanTotalBytes := acc.1.scanTotalBytes + result.totalBytes
              scanEntryCount := acc.1.scanEntryCount + result.entryCount },
            acc.2 ++ result.deferredCleanups)) (tally, cleanups)
      = ({ tally with
            candidates := tally.candidates ++ candidatesAt files (scanOrder files dirs)
            scanTotalBytes := tally.scanTotalBytes + sizes (candidatesAt files (scanOrder files dirs))
            scanEntryCount :=
              tally.scanEntryCount + (candidatesAt files (scanOrder files dirs)).length },
          cleanups ++ cleanupsAt files (scanOrder files dirs)) := by
    induction dirs with
    | nil => simp [scanOrder, candidatesAt, cleanupsAt]
    | cons dir dirs ih =>
        intro tally cleanups
        have hdir := addFindings_eq files dir .init (namesIn files dir)
        simp only [map_mk_namesIn, DirScanResult.init, List.nil_append, Nat.zero_add] at hdir
        rw [List.map_cons, List.foldl_cons, ih, DirScanResult.init, hdir]
        simp [scanOrder, candidatesAt, cleanupsAt, add_assoc]
  have h := hfold ⟨[], 0, 0, 0⟩ []
  simp only [List.nil_append, Nat.zero_add] at h
  exact h

end TinyS3Proxy.Shards
