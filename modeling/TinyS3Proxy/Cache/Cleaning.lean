import TinyS3Proxy.Cache.Scanning

/-!
# What a cleanup does

A cleanup removes some of the files of its entry, and no others, and counts the bytes of those that
it could not remove. It is given up only if a call fails, provided that what the scan has found is
still the case.
-/

namespace TinyS3Proxy.Shards

open Text (Bytes ascii)
open Effect

/-! ### Work on files -/

/-- Files are removed, all of them from a list, and locks are got, all of them for hashes from a
list. -/
structure Store.Works (s : Store) (paths : List ShardPath) (hashes : List Bytes) (s' : Store) :
    Prop where
  sub : s'.files.Sub s.files
  get_eq : ∀ p, p ∉ paths → s'.files.get p = s.files.get p
  faulty : s'.faulty = s.faulty
  locks : s.metaLocks ⊆ s'.metaLocks
  mem_locks : ∀ h ∈ s'.metaLocks, h ∈ s.metaLocks ∨ h ∈ hashes

variable {s s' s'' : Store} {paths paths' : List ShardPath} {hashes hashes' : List Bytes}
  {p : ShardPath}

theorem Store.Works.refl
    (s : Store) (paths : List ShardPath) (hashes : List Bytes) :
  s.Works paths hashes s
  where
    sub := .refl _
    get_eq _ _ := rfl
    faulty := rfl
    locks := List.Subset.refl _
    mem_locks _ h := .inl h

theorem Store.Works.trans
    (h : s.Works paths hashes s') (h' : s'.Works paths hashes s'') :
  s.Works paths hashes s''
  where
    sub := h'.sub.trans h.sub
    get_eq p hp := (h'.get_eq p hp).trans (h.get_eq p hp)
    faulty := h'.faulty.trans h.faulty
    locks := List.Subset.trans h.locks h'.locks
    mem_locks a ha := (h'.mem_locks a ha).elim (h.mem_locks a) .inr

theorem Store.Works.mono
    (h : s.Works paths hashes s') (hpaths : paths ⊆ paths') (hhashes : hashes ⊆ hashes') :
  s.Works paths' hashes' s'
  where
    sub := h.sub
    get_eq p hp := h.get_eq p fun hm => hp (hpaths hm)
    faulty := h.faulty
    locks := h.locks
    mem_locks a ha := (h.mem_locks a ha).imp id fun hm => hhashes hm

theorem Store.Quiet.works
    (h : s.Quiet s') :
  s.Works paths hashes s'
  := by
  obtain ⟨n, rfl⟩ := h
  exact {
    sub := .refl _
    get_eq := fun _ _ => rfl
    faulty := rfl
    locks := List.Subset.refl _
    mem_locks := fun _ h => .inl h }

/-- Statistics do not matter to what has been done with files and locks. -/
theorem Store.Works.withStats
    (h : s.Works paths hashes s') (stats : CacheStats) :
  s.Works paths hashes { s' with stats }
  := ⟨h.sub, h.get_eq, h.faulty, h.locks, h.mem_locks⟩

theorem works_erase
    (hp : p ∈ paths) :
  s.Works paths hashes (s.next.erase p)
  where
    sub := Keyed.Listing.erase_sub _ p
    get_eq q hq := by
      apply Keyed.Listing.get_erase_of_ne
      rintro rfl
      exact hq hp
    faulty := rfl
    locks := List.Subset.refl _
    mem_locks _ h := .inl h

theorem Store.Works.sizeAt_le
    (h : s.Works paths hashes s') (p : ShardPath) :
  s'.sizeAt p ≤ s.sizeAt p
  := h.sub.weightAt_le _ p

theorem Store.Works.sizeAt_eq
    (h : s.Works paths hashes s') (hp : p ∉ paths) :
  s'.sizeAt p = s.sizeAt p
  := by
  rw [Store.sizeAt, Keyed.Listing.weightAt, h.get_eq p hp]
  rfl

theorem Store.Works.faulty_iff
    (h : s.Works paths hashes s') :
  s'.Faulty ↔ s.Faulty
  := by rw [Store.Faulty, h.faulty, Store.Faulty]

theorem leads_acquireMetaLock
    {ε : Type} {hash : Bytes} {Q : Unit → Store → Prop} {F : ε → Store → Prop}
    (h : ∀ s', s.Works paths [hash] s' → s'.files = s.files → s'.stats = s.stats →
      hash ∈ s'.metaLocks → Q () s') :
  Leads (acquireMetaLock hash) s Q F
  := by
  apply leads_modify
  by_cases hmem : hash ∈ s.metaLocks
  · rw [if_pos hmem]
    exact h s (.refl s _ _) rfl rfl hmem
  · rw [if_neg hmem]
    apply h
    · exact {
        sub := .refl _
        get_eq := fun _ _ => rfl
        faulty := rfl
        locks := List.subset_append_left _ _
        mem_locks := fun a ha => List.mem_append.mp ha }
    · rfl
    · rfl
    · exact List.mem_append_right _ List.mem_cons_self

/-! ### Removing files -/

theorem Store.sizeAt_of_get
    {file : StoredFile} (h : s.files.get p = some file) :
  s.sizeAt p = file.size
  := Keyed.Listing.weightAt_of_get h

theorem Store.sizeAt_eq_zero
    (h : s.files.get p = none) :
  s.sizeAt p = 0
  := Keyed.Listing.weightAt_eq_zero h

/-- A size that is known before a removal is right. -/
theorem leads_preStatSize
    {ε : Type} (p : ShardPath) {F : ε → Store → Prop} :
  Leads (preStatSize p) s (fun o s' => s.Quiet s' ∧ ∀ n, o = some n → s.sizeAt p = n) F
  := by
  apply Leads.bind
  apply leads_metadata
  · intro _
    apply leads_pure
    exact ⟨s.quiet_next, nofun⟩
  · intro file hfile
    apply leads_pure
    use s.quiet_next
    rintro n hn
    obtain rfl := Option.some.inj hn
    exact Store.sizeAt_of_get hfile
  · intro hnone
    apply leads_pure
    use s.quiet_next
    rintro n hn
    obtain rfl := Option.some.inj hn
    exact Store.sizeAt_eq_zero hnone

theorem leads_measureUnreclaimedAfterFailedRemove
    {preKnown : Option ℕ} (hpre : ∀ n, preKnown = some n → s.sizeAt p = n) :
  Leads (measureUnreclaimedAfterFailedRemove p preKnown) s
    (fun n s' => s.Quiet s' ∧ s.sizeAt p = n) (fun _ s' => s.Quiet s' ∧ s.Faulty)
  := by
  apply Leads.bind
  apply leads_metadata
  · intro hfault
    rcases preKnown with _ | n
    · apply leads_throw
      exact ⟨s.quiet_next, _, hfault⟩
    · apply leads_pure
      exact ⟨s.quiet_next, hpre n rfl⟩
  · intro file hfile
    apply leads_pure
    exact ⟨s.quiet_next, Store.sizeAt_of_get hfile⟩
  · intro hnone
    apply leads_pure
    exact ⟨s.quiet_next, Store.sizeAt_eq_zero hnone⟩

/-- The code removes files from a list, and leaves the statistics as they are. If it returns, the
files take no more bytes than `count` says of its value, and it fails only if some call does. -/
def Removal {α : Type} (p : Fallible Store EvictionScanError α) (paths : List ShardPath)
    (count : α → ℕ) : Prop :=
  ∀ s, Leads p s
    (fun a s' => s.Works paths [] s' ∧ s'.stats = s.stats ∧
      (paths.map s'.sizeAt).sum ≤ count a)
    (fun _ s' => s.Works paths [] s' ∧ s'.stats = s.stats ∧ s.Faulty)

theorem removal_removeFileOrReclaimSize
    (p : ShardPath) :
  Removal (removeFileOrReclaimSize p) [p] id
  := by
  intro s
  apply Leads.seq (leads_preStatSize p)
  · rintro pre s₁ ⟨hquiet, hpre⟩
    have hpre' : ∀ n, pre = some n → s₁.next.sizeAt p = n := by
      obtain ⟨n, rfl⟩ := hquiet
      exact hpre
    have hstats : s₁.stats = s.stats := by
      obtain ⟨n, rfl⟩ := hquiet
      rfl
    have hfaulty : s₁.Faulty → s.Faulty := (@Store.Quiet.works _ _ [] [] hquiet).faulty_iff.mp
    apply Leads.bind
    apply leads_removeFile
    · intro hfault
      apply (leads_measureUnreclaimedAfterFailedRemove hpre').mono
      · rintro a s' ⟨hquiet', ha⟩
        have hall := (hquiet.trans s₁.quiet_next).trans hquiet'
        obtain ⟨m, rfl⟩ := hquiet'
        use hall.works, hstats
        have hle : Store.sizeAt { s₁.next with calls := m } p ≤ a := ha.le
        simpa using hle
      · rintro e s' ⟨hquiet', -⟩
        have hall := (hquiet.trans s₁.quiet_next).trans hquiet'
        obtain ⟨m, rfl⟩ := hquiet'
        exact ⟨hall.works, hstats, hfaulty ⟨_, hfault⟩⟩
    · intro file _
      apply leads_pure
      use hquiet.works.trans (works_erase List.mem_cons_self), hstats
      have hzero : (s₁.next.erase p).sizeAt p = 0 :=
        Store.sizeAt_eq_zero Keyed.Listing.get_erase_self
      simpa using hzero
    · intro hnone
      apply leads_pure
      use (hquiet.trans s₁.quiet_next).works, hstats
      have hzero : s₁.next.sizeAt p = 0 := Store.sizeAt_eq_zero hnone
      simpa using hzero
  · exact fun _ _ h => h

/-- One removal after the other. -/
theorem Removal.append
    {α β γ : Type} {p : Fallible Store EvictionScanError α} {q : Fallible Store EvictionScanError β}
    {m : α → ℕ} {n : β → ℕ} {f : α → β → γ} {k : γ → ℕ} (hp : Removal p paths m)
    (hq : Removal q paths' n) (hk : ∀ a b, m a + n b ≤ k (f a b)) :
  Removal (do let a ← p; let b ← q; pure (f a b)) (paths ++ paths') k
  := by
  intro s
  apply Leads.seq (hp s)
  · rintro a s₁ ⟨hwork, hstats, hsum⟩
    have hwork' := hwork.mono (List.subset_append_left paths paths') (List.Subset.refl [])
    apply Leads.seq (hq s₁)
    · rintro b s₂ ⟨hwork₂, hstats₂, hsum₂⟩
      have hwork₂' := hwork₂.mono (List.subset_append_right paths paths') (List.Subset.refl [])
      apply leads_pure
      use hwork'.trans hwork₂', hstats₂.trans hstats
      have hle := hwork₂.sub.sum_weightAt_le fileSize paths
      rw [List.map_append, List.sum_append]
      exact (Nat.add_le_add (hle.trans hsum) hsum₂).trans (hk a b)
    · rintro e s₂ ⟨hwork₂, hstats₂, hfault⟩
      have hwork₂' := hwork₂.mono (List.subset_append_right paths paths') (List.Subset.refl [])
      exact ⟨hwork'.trans hwork₂', hstats₂.trans hstats, hwork.faulty_iff.mp hfault⟩
  · rintro e s₁ ⟨hwork, hstats, hfault⟩
    exact ⟨hwork.mono (List.subset_append_left _ _) (List.Subset.refl []), hstats, hfault⟩

theorem removal_removeEntryFiles
    (paths : EntryPaths) :
  Removal (removeEntryFiles paths) [paths.metaPath, paths.bodyPath, paths.poisonPath] id
  := by
  have hmeta := removal_removeFileOrReclaimSize paths.metaPath
  have hbody := removal_removeFileOrReclaimSize paths.bodyPath
  have hpoison := removal_removeFileOrReclaimSize paths.poisonPath
  have hrest := hbody.append (f := Prod.mk) (k := fun x => x.1 + x.2) hpoison fun _ _ => le_rfl
  have hall := hmeta.append (f := fun a x => a + x.1 + x.2) (k := id) hrest fun a x => by
    simp only [id]
    omega
  intro s
  have h := hall s
  simp only [bind_assoc, pure_bind] at h
  exact h

/-! ### Cleanups -/

namespace EntryPaths

/-- The files of an entry. -/
def all (paths : EntryPaths) : List ShardPath := [paths.metaPath, paths.bodyPath, paths.poisonPath]

end EntryPaths

namespace DeferredCleanup

/-- The hash that the name of the file stands for. -/
def hash : DeferredCleanup → Bytes
  | orphanBody _ hash => hash
  | orphanPoison _ hash => hash
  | corruptEntry paths => paths.hash
  | malformedHash paths => paths.hash
  | missingBody paths => paths.hash

/-- The files that may be removed. -/
def owned : DeferredCleanup → List ShardPath
  | orphanBody bodyPath _ => [bodyPath]
  | orphanPoison poisonPath _ => [poisonPath]
  | corruptEntry paths => paths.all
  | malformedHash paths => paths.all
  | missingBody paths => paths.all

/-- The files whose bytes are counted if they are not removed. -/
def counted : DeferredCleanup → List ShardPath
  | orphanPoison _ _ => []
  | cleanup => cleanup.owned

/-- The files that have to be there for what the scan has found. -/
def needed : DeferredCleanup → List ShardPath
  | corruptEntry paths => [paths.metaPath]
  | _ => []

/-- What the scan has found is the case. -/
def Holds (files : Keyed.Listing ShardPath StoredFile) : DeferredCleanup → Prop
  | orphanBody bodyPath hash => files.get ⟨bodyPath.dir, hash ++ metaSuffix⟩ = none
  | orphanPoison poisonPath hash => files.get ⟨poisonPath.dir, hash ++ metaSuffix⟩ = none
  | corruptEntry paths => ∃ file, files.get paths.metaPath = some file ∧ file.parsed = none
  | malformedHash _ => True
  | missingBody paths => files.get paths.bodyPath = none

end DeferredCleanup

/-- Bytes are added to those that have been counted, and the entries are the same. -/
structure Tally.Grows (tally : Tally) (n : ℕ) (tally' : Tally) : Prop where
  candidates : tally'.candidates = tally.candidates
  scanEntryCount : tally'.scanEntryCount = tally.scanEntryCount
  scanTotalBytes : tally.scanTotalBytes + n ≤ tally'.scanTotalBytes

theorem Tally.grows_refl
    (tally : Tally) :
  tally.Grows 0 tally
  := ⟨rfl, rfl, le_rfl⟩

theorem Tally.grows_accountUnreclaimed
    (tally : Tally) {m n : ℕ} (h : m ≤ n) :
  tally.Grows m (tally.accountUnreclaimed n)
  := ⟨rfl, rfl, Nat.add_le_add_left h _⟩

/-- Cleanups have been made: files of the entries have been removed, and the bytes of those that
are still there have been counted. -/
structure Cleaned (s : Store) (tally : Tally) (owned counted : List ShardPath)
    (hashes : List Bytes) (tally' : Tally) (s' : Store) : Prop where
  works : s.Works owned hashes s'
  stats : s'.stats = s.stats
  locked : hashes ⊆ s'.metaLocks
  grows : tally.Grows (counted.map s'.sizeAt).sum tally'

/-- Cleanups have been given up since a call has failed. -/
structure GivenUp (s : Store) (owned : List ShardPath) (hashes : List Bytes) (s' : Store) :
    Prop where
  works : s.Works owned hashes s'
  stats : s'.stats = s.stats
  faulty : s.Faulty

/-- The lock for a cleanup is held, and nothing has been removed yet. -/
structure Locked (s : Store) (hash : Bytes) (s₁ : Store) : Prop where
  works : s.Works [] [hash] s₁
  files : s₁.files = s.files
  stats : s₁.stats = s.stats
  locked : hash ∈ s₁.metaLocks

theorem Locked.quiet
    {hash : Bytes} {s₁ s₂ : Store} (h : Locked s hash s₁) (hquiet : s₁.Quiet s₂) :
  Locked s hash s₂
  := by
  obtain ⟨n, rfl⟩ := hquiet
  have hquiet' : s₁.Quiet { s₁ with calls := n } := ⟨n, rfl⟩
  exact ⟨h.works.trans hquiet'.works, h.files, h.stats, h.locked⟩

theorem leads_lock
    {ε : Type} {hash : Bytes} {Q : Unit → Store → Prop} {F : ε → Store → Prop}
    (h : ∀ s₁, Locked s hash s₁ → Q () s₁) :
  Leads (acquireMetaLock hash) s Q F
  := leads_acquireMetaLock fun s₁ hworks hfiles hstats hlock => h s₁ ⟨hworks, hfiles, hstats, hlock⟩

theorem Locked.cleaned
    {tally tally' : Tally} {owned counted : List ShardPath} {hash : Bytes} {s₁ : Store}
    (h : Locked s hash s₁) (hwork : s₁.Works owned [] s') (hstats : s'.stats = s₁.stats)
    (hgrows : tally.Grows (counted.map s'.sizeAt).sum tally') :
  Cleaned s tally owned counted [hash] tally' s'
  where
    works := (h.works.mono (List.nil_subset _) (List.Subset.refl _)).trans
      (hwork.mono (List.Subset.refl _) (List.nil_subset _))
    stats := hstats.trans h.stats
    locked := List.cons_subset.mpr ⟨hwork.locks h.locked, List.nil_subset _⟩
    grows := hgrows

theorem Locked.givenUp
    {owned : List ShardPath} {hash : Bytes} {s₁ : Store} (h : Locked s hash s₁)
    (hwork : s₁.Works owned [] s') (hstats : s'.stats = s₁.stats) (hfaulty : s₁.Faulty) :
  GivenUp s owned [hash] s'
  where
    works := (h.works.mono (List.nil_subset _) (List.Subset.refl _)).trans
      (hwork.mono (List.Subset.refl _) (List.nil_subset _))
    stats := hstats.trans h.stats
    faulty := h.works.faulty_iff.mp hfaulty

/-- A removal under a lock makes a cleanup. -/
theorem Removal.cleaned
    {r : Fallible Store EvictionScanError ℕ} {removed owned : List ShardPath}
    (hr : Removal r removed id) (hsub : removed ⊆ owned) (tally : Tally) {hash : Bytes}
    {s₁ : Store} (hlocked : Locked s hash s₁) (counted : List ShardPath)
    (hcounted : ∀ s' : Store, s₁.Works removed [] s' →
      (counted.map s'.sizeAt).sum ≤ (removed.map s'.sizeAt).sum) :
  Leads (do let n ← r; pure (tally.accountUnreclaimed n)) s₁
    (Cleaned s tally owned counted [hash]) (fun _ => GivenUp s owned [hash])
  := by
  apply Leads.seq (hr s₁)
  · rintro n s₂ ⟨hwork₂, hstats₂, hsum⟩
    apply leads_pure
    exact hlocked.cleaned (hwork₂.mono hsub (List.Subset.refl _)) hstats₂
      (tally.grows_accountUnreclaimed ((hcounted s₂ hwork₂).trans hsum))
  · rintro e s₂ ⟨hwork₂, hstats₂, hfaulty⟩
    exact hlocked.givenUp (hwork₂.mono hsub (List.Subset.refl _)) hstats₂ hfaulty

/-- A file without metadata is removed or counted. -/
theorem leads_cleanUpOrphan
    (tally : Tally) {path : ShardPath} {hash : Bytes}
    {recheckFailed : Fallible Store EvictionScanError Tally} {counted : List ShardPath}
    (hnone : s.files.get ⟨path.dir, hash ++ metaSuffix⟩ = none)
    (hcounted : counted = [] ∨ counted = [path])
    (hrecheck : ∀ s₁, Locked s hash s₁ → s₁.Faulty →
      Leads recheckFailed s₁ (Cleaned s tally [path] counted [hash])
        (fun _ => GivenUp s [path] [hash])) :
  Leads (cleanUpOrphan tally path hash recheckFailed) s (Cleaned s tally [path] counted [hash])
    (fun _ => GivenUp s [path] [hash])
  := by
  apply Leads.bind
  apply leads_lock
  intro s₁ hlocked
  have hnext := hlocked.quiet s₁.quiet_next
  apply Leads.bind
  apply leads_tryExists
  · intro hfault
    exact hrecheck _ hnext ⟨_, hfault⟩
  · intro file hfile
    rw [hlocked.files, hnone] at hfile
    cases hfile
  · intro _
    apply (removal_removeFileOrReclaimSize path).cleaned (List.Subset.refl _) tally hnext
    intro s' _
    rcases hcounted with rfl | rfl
    · exact Nat.zero_le _
    · exact le_rfl

/-- A second look at a broken entry finds that it still is. -/
theorem leads_tryRecoverEntry
    {ε : Type} {paths : EntryPaths} {F : ε → Store → Prop}
    (hbroken : s.files.get paths.bodyPath = none ∨
      ∃ file, s.files.get paths.metaPath = some file ∧ file.parsed = none) :
  Leads (tryRecoverEntry paths) s
    (fun o s' => s.Quiet s' ∧
      (o = .missingBody ∧ s.files.get paths.bodyPath = none ∨ o = .metaParseError ∨
        (o = .bodyStatError ∨ o = .metaReadError) ∧ s.Faulty)) F
  := by
  apply Leads.bind
  apply leads_metadata
  · intro hfault
    apply leads_pure
    exact ⟨s.quiet_next, .inr (.inr ⟨.inl rfl, _, hfault⟩)⟩
  · intro body hbody
    rw [hbody] at hbroken
    obtain ⟨meta', hmeta, hparsed⟩ := hbroken.resolve_left nofun
    apply Leads.bind
    apply leads_read
    · intro hfault
      apply leads_pure
      exact ⟨s.quiet_next.trans s.next.quiet_next, .inr (.inr ⟨.inr rfl, _, hfault⟩)⟩
    · intro file hfile
      obtain rfl := Option.some.inj (hmeta.symm.trans hfile)
      simp only [hparsed]
      apply leads_pure
      exact ⟨s.quiet_next.trans s.next.quiet_next, .inr (.inl rfl)⟩
    · intro hnone
      exact absurd (hmeta.symm.trans hnone) nofun
  · intro hnone
    apply leads_pure
    exact ⟨s.quiet_next, .inl ⟨rfl, hnone⟩⟩

/-- The files of a broken entry are removed or counted. -/
theorem leads_cleanUpBroken
    (tally : Tally) {paths : EntryPaths} (statError readError : String)
    (hbroken : s.files.get paths.bodyPath = none ∨
      ∃ file, s.files.get paths.metaPath = some file ∧ file.parsed = none) :
  Leads (cleanUpBroken tally paths statError readError) s
    (Cleaned s tally paths.all paths.all [paths.hash])
    (fun _ => GivenUp s paths.all [paths.hash])
  := by
  apply Leads.bind
  apply leads_lock
  intro s₁ hlocked
  rw [← hlocked.files] at hbroken
  apply Leads.seq (leads_tryRecoverEntry hbroken)
  · rintro o s₂ ⟨hquiet, hcases⟩
    have hlocked₂ := hlocked.quiet hquiet
    rcases hcases with ⟨rfl, hbody⟩ | rfl | ⟨rfl | rfl, hfaulty⟩
    · have hremoval := (removal_removeFileOrReclaimSize paths.metaPath).append
        (f := fun m n => m + n) (k := id) (removal_removeFileOrReclaimSize paths.poisonPath)
        fun _ _ => le_rfl
      have hsub : [paths.metaPath] ++ [paths.poisonPath] ⊆ paths.all := by
        simp [EntryPaths.all]
      have h := hremoval.cleaned hsub tally hlocked₂ paths.all fun s' hworks => by
        have hzero : s₂.sizeAt paths.bodyPath = 0 := by
          obtain ⟨n, rfl⟩ := hquiet
          exact Store.sizeAt_eq_zero hbody
        have hle := hworks.sizeAt_le paths.bodyPath
        simp only [EntryPaths.all, List.map_cons, List.sum_cons, List.map_append, List.sum_append,
          List.map_nil, List.sum_nil]
        omega
      simp only [bind_assoc, pure_bind] at h
      exact h
    · exact (removal_removeEntryFiles paths).cleaned (List.Subset.refl _) tally hlocked₂ _
        fun _ _ => le_rfl
    · apply leads_throw
      have hfaulty₂ := (@Store.Quiet.works _ _ [] [] hquiet).faulty_iff.mpr hfaulty
      exact hlocked₂.givenUp (.refl s₂ _ _) rfl hfaulty₂
    · apply leads_throw
      have hfaulty₂ := (@Store.Quiet.works _ _ [] [] hquiet).faulty_iff.mpr hfaulty
      exact hlocked₂.givenUp (.refl s₂ _ _) rfl hfaulty₂
  · exact fun _ _ h => False.elim h

/-- If what the scan has found is the case, a cleanup is made, or it is given up since a call has
failed. -/
theorem leads_processDeferredCleanup
    (tally : Tally) {cleanup : DeferredCleanup} (h : cleanup.Holds s.files) :
  Leads (processDeferredCleanup tally cleanup) s
    (Cleaned s tally cleanup.owned cleanup.counted [cleanup.hash])
    (fun _ => GivenUp s cleanup.owned [cleanup.hash])
  := by
  cases cleanup with
  | orphanBody bodyPath hash =>
      apply leads_cleanUpOrphan tally h (.inr rfl)
      intro s₁ hlocked hfaulty
      have hnext := hlocked.quiet s₁.quiet_next
      apply Leads.bind
      apply leads_metadata
      · intro _
        apply leads_throw
        exact hnext.givenUp (.refl _ _ _) rfl hfaulty
      · intro file hfile
        apply leads_pure
        apply hnext.cleaned (.refl _ _ _) rfl
        have hsize : s₁.next.sizeAt bodyPath = file.size := Store.sizeAt_of_get hfile
        exact ⟨rfl, rfl, by simp [hsize]⟩
      · intro hnone
        apply leads_pure
        apply hnext.cleaned (.refl _ _ _) rfl
        have hsize : s₁.next.sizeAt bodyPath = 0 := Store.sizeAt_eq_zero hnone
        exact ⟨rfl, rfl, by simp [hsize]⟩
  | orphanPoison poisonPath hash =>
      apply leads_cleanUpOrphan tally h (.inl rfl)
      intro s₁ hlocked _
      apply leads_pure
      exact hlocked.cleaned (.refl _ _ _) rfl ⟨rfl, rfl, le_rfl⟩
  | corruptEntry paths => exact leads_cleanUpBroken tally _ _ (.inr h)
  | missingBody paths => exact leads_cleanUpBroken tally _ _ (.inl h)
  | malformedHash paths =>
      apply Leads.bind
      apply leads_lock
      intro s₁ hlocked
      exact (removal_removeEntryFiles paths).cleaned (List.Subset.refl _) tally hlocked _
        fun _ _ => le_rfl

/-! ### All cleanups -/

theorem cleaned_of_quiet
    {tally : Tally} (h : s.Quiet s') :
  Cleaned s tally [] [] [] tally s'
  where
    works := h.works
    stats := by
      obtain ⟨n, rfl⟩ := h
      rfl
    locked := List.nil_subset _
    grows := tally.grows_refl

section Composition

variable {tally tally' tally'' : Tally} {owned owned' counted counted' : List ShardPath}

/-- Cleanups one after the other. -/
theorem Cleaned.trans
    (h : Cleaned s tally owned counted hashes tally' s')
    (h' : Cleaned s' tally' owned' counted' hashes' tally'' s'') :
  Cleaned s tally (owned ++ owned') (counted ++ counted') (hashes ++ hashes') tally'' s''
  where
    works :=
      (h.works.mono (List.subset_append_left _ _) (List.subset_append_left _ _)).trans
        (h'.works.mono (List.subset_append_right _ _) (List.subset_append_right _ _))
    stats := h'.stats.trans h.stats
    locked := List.append_subset.mpr ⟨List.Subset.trans h.locked h'.works.locks, h'.locked⟩
    grows := by
      have hle := h'.works.sub.sum_weightAt_le fileSize counted
      have hgrows := h.grows.scanTotalBytes
      have hgrows' := h'.grows.scanTotalBytes
      refine ⟨h'.grows.candidates.trans h.grows.candidates,
        h'.grows.scanEntryCount.trans h.grows.scanEntryCount, ?_⟩
      rw [List.map_append, List.sum_append]
      have hle' : (counted.map s''.sizeAt).sum ≤ (counted.map s'.sizeAt).sum := hle
      omega

theorem Cleaned.givenUp
    (h : Cleaned s tally owned counted hashes tally' s') (h' : GivenUp s' owned' hashes' s'') :
  GivenUp s (owned ++ owned') (hashes ++ hashes') s''
  where
    works :=
      (h.works.mono (List.subset_append_left _ _) (List.subset_append_left _ _)).trans
        (h'.works.mono (List.subset_append_right _ _) (List.subset_append_right _ _))
    stats := h'.stats.trans h.stats
    faulty := h.works.faulty_iff.mp h'.faulty

theorem GivenUp.mono
    (h : GivenUp s owned hashes s') (howned : owned ⊆ owned') (hhashes : hashes ⊆ hashes') :
  GivenUp s owned' hashes' s'
  := ⟨h.works.mono howned hhashes, h.stats, h.faulty⟩

end Composition

/-- What the scan has found stays the case while other files are removed. -/
theorem DeferredCleanup.Holds.of_works
    {cleanup : DeferredCleanup} (h : cleanup.Holds s.files) (hwork : s.Works paths hashes s')
    (hneeded : ∀ p ∈ cleanup.needed, p ∉ paths) :
  cleanup.Holds s'.files
  := by
  cases cleanup with
  | orphanBody bodyPath hash => exact hwork.sub.get_eq_none h
  | orphanPoison poisonPath hash => exact hwork.sub.get_eq_none h
  | corruptEntry paths =>
      obtain ⟨file, hget, hparsed⟩ := h
      exact ⟨file, (hwork.get_eq _ (hneeded _ List.mem_cons_self)).trans hget, hparsed⟩
  | malformedHash paths => exact h
  | missingBody paths => exact hwork.sub.get_eq_none h

/-- A later cleanup does not need what an earlier one removes. -/
def Independent (cleanup cleanup' : DeferredCleanup) : Prop :=
  ∀ p ∈ cleanup'.needed, p ∉ cleanup.owned

/-- All cleanups are made, or they are given up since a call has failed. -/
theorem leads_processDeferredCleanups
    (tally : Tally) {cleanups : List DeferredCleanup}
    (hholds : ∀ cleanup ∈ cleanups, cleanup.Holds s.files)
    (hindep : cleanups.Pairwise Independent) :
  Leads (processDeferredCleanups tally cleanups) s
    (Cleaned s tally (cleanups.flatMap DeferredCleanup.owned)
      (cleanups.flatMap DeferredCleanup.counted) (cleanups.map DeferredCleanup.hash))
    (fun _ => GivenUp s (cleanups.flatMap DeferredCleanup.owned)
      (cleanups.map DeferredCleanup.hash))
  := by
  induction cleanups generalizing s tally with
  | nil =>
      apply leads_pure
      exact cleaned_of_quiet (.refl s)
  | cons cleanup cleanups ih =>
      obtain ⟨hhead, htail⟩ := List.pairwise_cons.mp hindep
      apply Leads.seq (leads_processDeferredCleanup tally (hholds cleanup List.mem_cons_self))
      · intro tally₁ s₁ hcleaned
        have hholds₁ : ∀ c ∈ cleanups, c.Holds s₁.files := by
          intro c hc
          exact (hholds c (List.mem_cons_of_mem _ hc)).of_works hcleaned.works (hhead c hc)
        apply (ih tally₁ hholds₁ htail).mono
        · exact fun _ _ h => hcleaned.trans h
        · exact fun _ _ h => hcleaned.givenUp h
      · intro e s₁ hgivenUp
        exact hgivenUp.mono (List.subset_append_left _ _) (by simp)

end TinyS3Proxy.Shards
