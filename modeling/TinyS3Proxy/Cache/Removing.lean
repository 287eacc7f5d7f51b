import TinyS3Proxy.Cache.Cleaning

/-!
# What an eviction does

An eviction removes files of its candidate, and no others. The size of the cache goes down by no
more than what has been removed, and if no call fails, by the size of the candidate.
-/

namespace TinyS3Proxy.Shards

open Text (Bytes ascii)
open Effect

variable {s s' : Store} {p : ShardPath}

/-! ### Removing a file -/

/-- A file was to be removed. If it is not gone, a call has failed. -/
structure Removed (s : Store) (p : ShardPath) (gone : Bool) (s' : Store) : Prop where
  works : s.Works [p] [] s'
  stats : s'.stats = s.stats
  bytes : s'.bytes + s.sizeAt p = s.bytes + s'.sizeAt p
  of_gone : gone = true → s'.files.get p = none
  of_not_gone : gone = false → s.Faulty

theorem leads_removeFile_removed
    {ε : Type} {F : ε → Store → Prop} (p : ShardPath) :
  Leads (removeFile p) s (fun r s' => Removed s p (isGone r) s') F
  := by
  apply leads_removeFile
  · intro hfault
    exact {
      works := s.quiet_next.works
      stats := rfl
      bytes := rfl
      of_gone := nofun
      of_not_gone := fun _ => ⟨_, hfault⟩ }
  · intro file _
    have hnone : (s.next.erase p).files.get p = none := Keyed.Listing.get_erase_self
    exact {
      works := works_erase List.mem_cons_self
      stats := rfl
      bytes := by
        rw [Store.sizeAt_eq_zero hnone]
        exact s.files.total_erase fileSize p
      of_gone := fun _ => hnone
      of_not_gone := nofun }
  · intro hnone
    exact {
      works := s.quiet_next.works
      stats := rfl
      bytes := rfl
      of_gone := fun _ => hnone
      of_not_gone := nofun }

/-- The size that is found out is right. -/
theorem leads_knownSize
    {ε : Type} {F : ε → Store → Prop} (p : ShardPath) :
  Leads (knownSize p) s (fun o s' => s.Quiet s' ∧ ∀ n, o = some n → s.sizeAt p = n) F
  := leads_preStatSize p

theorem leads_remainingBytesAfterFailedRemove
    {ε : Type} {F : ε → Store → Prop} {gone : Bool} (h : gone = true → s.files.get p = none) :
  Leads (remainingBytesAfterFailedRemove gone p) s
    (fun o s' => s.Quiet s' ∧ ∀ n, o = some n → s.sizeAt p = n) F
  := by
  rw [remainingBytesAfterFailedRemove]
  split
  next hgone =>
    apply leads_pure
    use .refl s
    rintro n hn
    obtain rfl := Option.some.inj hn
    exact Store.sizeAt_eq_zero (h hgone)
  next => exact leads_knownSize p

/-! ### Removing a candidate -/

namespace EvictionCandidate

/-- The poison marker of a candidate. -/
def poisonPath (c : EvictionCandidate) : ShardPath :=
  ⟨c.bodyPath.dir, withExtension (ascii "poisoned") c.bodyPath.name⟩

/-- The files that are removed with a candidate. -/
def evictable (c : EvictionCandidate) : List ShardPath := [c.bodyPath, c.metaPath, c.poisonPath]

/-- The files of a candidate take at least as many bytes as its size says. -/
def Backed (s : Store) (c : EvictionCandidate) : Prop :=
  c.size ≤ s.sizeAt c.bodyPath + s.sizeAt c.metaPath

end EvictionCandidate

variable {c : EvictionCandidate}

/-- The body and the metadata of a candidate were to be removed, and perhaps the poison marker. -/
structure Taken (s : Store) (c : EvictionCandidate) (bodyGone metaGone : Bool) (s' : Store) :
    Prop where
  works : s.Works c.evictable [] s'
  stats : s'.stats = s.stats
  bytes : c.evictable.Nodup →
    s'.bytes + (s.sizeAt c.bodyPath + s.sizeAt c.metaPath)
      ≤ s.bytes + (s'.sizeAt c.bodyPath + s'.sizeAt c.metaPath)
  body_of_gone : bodyGone = true → s'.files.get c.bodyPath = none
  meta_of_gone : metaGone = true → s'.files.get c.metaPath = none
  gone_of_sound : s.Sound → bodyGone = true ∧ metaGone = true

/-- Body and metadata are removed one after the other. -/
theorem taken_of_removed
    {bodyGone metaGone : Bool} {s₁ s₂ : Store} (hbody : Removed s c.bodyPath bodyGone s₁)
    (hmeta : Removed s₁ c.metaPath metaGone s₂) :
  Taken s c bodyGone metaGone s₂
  where
    works := (hbody.works.mono (by simp [EvictionCandidate.evictable]) (List.Subset.refl _)).trans
      (hmeta.works.mono (by simp [EvictionCandidate.evictable]) (List.Subset.refl _))
    stats := hmeta.stats.trans hbody.stats
    bytes h := by
      have hne : c.bodyPath ≠ c.metaPath := by
        rintro heq
        rw [EvictionCandidate.evictable, heq, List.nodup_cons] at h
        exact h.1 List.mem_cons_self
      have hbytes := hbody.bytes
      have hbytes' := hmeta.bytes
      have hb := hmeta.works.sizeAt_eq (p := c.bodyPath) (by simpa using hne)
      have hm := hbody.works.sizeAt_eq (p := c.metaPath) (by simpa using hne.symm)
      omega
    body_of_gone h := hmeta.works.sub.get_eq_none (hbody.of_gone h)
    meta_of_gone h := hmeta.of_gone h
    gone_of_sound h := by
      have h₁ : s₁.Sound := fun n => by rw [hbody.works.faulty, h n]
      constructor
      · rcases bodyGone with _ | _
        · exact absurd (hbody.of_not_gone rfl) h.not_faulty
        · rfl
      · rcases metaGone with _ | _
        · exact absurd (hmeta.of_not_gone rfl) h₁.not_faulty
        · rfl

/-- The poison marker is removed after body and metadata. -/
theorem Taken.removed_poison
    {bodyGone metaGone gone : Bool} {s₁ : Store} (h : Taken s c bodyGone metaGone s₁)
    (hpoison : Removed s₁ c.poisonPath gone s') :
  Taken s c bodyGone metaGone s'
  where
    works := h.works.trans
      (hpoison.works.mono (by simp [EvictionCandidate.evictable]) (List.Subset.refl _))
    stats := hpoison.stats.trans h.stats
    bytes hnodup := by
      have hbytes := h.bytes hnodup
      have hbytes' := hpoison.bytes
      have hle := hpoison.works.sizeAt_le c.poisonPath
      simp only [EvictionCandidate.evictable, List.nodup_cons, List.mem_cons, List.not_mem_nil,
        or_false, not_or] at hnodup
      have hb := hpoison.works.sizeAt_eq (p := c.bodyPath) (by simpa using hnodup.1.2)
      have hm := hpoison.works.sizeAt_eq (p := c.metaPath) (by simpa using hnodup.2.1)
      omega
    body_of_gone hgone := hpoison.works.sub.get_eq_none (h.body_of_gone hgone)
    meta_of_gone hgone := hpoison.works.sub.get_eq_none (h.meta_of_gone hgone)
    gone_of_sound hsound := h.gone_of_sound hsound

/-- What an eviction has come to: the size of the cache has gone down by no more than what has been
removed. -/
structure Attempted (s : Store) (c : EvictionCandidate) (hashes : List Bytes)
    (progress progress' : Progress) (s' : Store) : Prop where
  works : s.Works c.evictable hashes s'
  bytes : c.evictable.Nodup → c.Backed s → s.bytes ≤ progress.currentSize →
    s'.bytes ≤ progress'.currentSize

/-- What an eviction has come to if no call has failed. -/
structure Evicted (s : Store) (c : EvictionCandidate) (progress progress' : Progress)
    (s' : Store) : Prop where
  progress_eq : progress' = ⟨progress.currentSize - c.size, progress.evicted + 1⟩
  stats : s'.stats = { s.stats with
    entryCount := s.stats.entryCount - 1, totalBytes := s.stats.totalBytes - c.size }
  body : s'.files.get c.bodyPath = none
  metadata : s'.files.get c.metaPath = none

/-- Measuring the files of a candidate does not lose any bytes. -/
theorem le_remeasure
    {progress : Progress} {b m : Option ℕ} {n total total' : ℕ}
    (hb : ∀ i, b = some i → s'.sizeAt c.bodyPath = i)
    (hm : ∀ i, m = some i → s'.sizeAt c.metaPath = i) (hle : total ≤ progress.currentSize)
    (hsize : c.size ≤ n) (hgone : s'.sizeAt c.bodyPath + s'.sizeAt c.metaPath ≤ n)
    (htotal : total' + n ≤ total + (s'.sizeAt c.bodyPath + s'.sizeAt c.metaPath)) :
  total' ≤ (progress.remeasure c b m).currentSize
  := by
  rcases b with _ | i
  · simp only [Progress.remeasure]
    omega
  · rcases m with _ | j
    · simp only [Progress.remeasure]
      omega
    · have hi := hb i rfl
      have hj := hm j rfl
      simp only [Progress.remeasure]
      omega

/-- The size of the cache is brought up to date once body and metadata were to be removed. -/
theorem Taken.leads_finish
    {ε : Type} {F : ε → Store → Prop} {bodyGone metaGone : Bool} {s₁ : Store}
    (h : Taken s c bodyGone metaGone s₁) (progress : Progress) :
  Leads (if (bodyGone && metaGone) = true then do
      updateStats fun stats =>
        { stats with
          entryCount := stats.entryCount - 1
          totalBytes := stats.totalBytes - c.size }
      pure { currentSize := progress.currentSize - c.size, evicted := progress.evicted + 1 }
    else do
      let bodyRemaining ← remainingBytesAfterFailedRemove bodyGone c.bodyPath
      let metaRemaining ← remainingBytesAfterFailedRemove metaGone c.metaPath
      pure (progress.remeasure c bodyRemaining metaRemaining)) s₁
    (fun progress' s' => Attempted s c [] progress progress' s' ∧
      (s.Sound → Evicted s c progress progress' s')) F
  := by
  split
  next hgone =>
    obtain ⟨rfl, rfl⟩ := Bool.and_eq_true_iff.mp hgone
    have hb := Store.sizeAt_eq_zero (h.body_of_gone rfl)
    have hm := Store.sizeAt_eq_zero (h.meta_of_gone rfl)
    apply Leads.bind
    apply leads_modify
    apply leads_pure
    constructor
    · use h.works.withStats _
      intro hnodup hbacked hle
      have hbytes := h.bytes hnodup
      rw [EvictionCandidate.Backed] at hbacked
      change s₁.bytes ≤ progress.currentSize - c.size
      omega
    · intro _
      exact {
        progress_eq := rfl
        stats := by
          change { s₁.stats with
            entryCount := s₁.stats.entryCount - 1
            totalBytes := s₁.stats.totalBytes - c.size } = _
          rw [h.stats]
        body := h.body_of_gone rfl
        metadata := h.meta_of_gone rfl }
  next hgone =>
    apply Leads.seq (leads_remainingBytesAfterFailedRemove h.body_of_gone)
    · rintro b _ ⟨⟨n, rfl⟩, hb⟩
      apply Leads.seq (leads_remainingBytesAfterFailedRemove (s := { s₁ with calls := n })
        h.meta_of_gone)
      · rintro m _ ⟨⟨n', rfl⟩, hm⟩
        apply leads_pure
        constructor
        · have hquiet : s₁.Quiet { s₁ with calls := n' } := ⟨n', rfl⟩
          use h.works.trans hquiet.works
          intro hnodup hbacked hle
          have hb' := h.works.sizeAt_le c.bodyPath
          have hm' := h.works.sizeAt_le c.metaPath
          exact le_remeasure hb hm hle hbacked (Nat.add_le_add hb' hm') (h.bytes hnodup)
        · intro hsound
          rw [(h.gone_of_sound hsound).1, (h.gone_of_sound hsound).2] at hgone
          exact absurd rfl hgone
      · exact fun _ _ h => h
    · exact fun _ _ h => h

/-- The files of a candidate are removed, or what is left of them is measured. -/
theorem leads_removeCandidate
    {ε : Type} {F : ε → Store → Prop} (c : EvictionCandidate) (progress : Progress) :
  Leads (removeCandidate c progress) s
    (fun progress' s' => Attempted s c [] progress progress' s' ∧
      (s.Sound → Evicted s c progress progress' s')) F
  := by
  apply Leads.seq (leads_removeFile_removed c.bodyPath)
  · intro bodyRes s₁ hbody
    apply Leads.seq (leads_removeFile_removed c.metaPath)
    · intro metaRes s₂ hmeta
      have htaken := taken_of_removed hbody hmeta
      simp only
      split
      next =>
        apply Leads.seq (leads_removeFile_removed c.poisonPath)
        · intro poisonRes s₃ hpoison
          exact (htaken.removed_poison hpoison).leads_finish progress
        · exact fun _ _ h => h
      next => exact htaken.leads_finish progress
    · exact fun _ _ h => h
  · exact fun _ _ h => h

/-! ### Evicting a candidate -/

/-- The files of a candidate are as the scan has found them. -/
def Intact (s : Store) (c : EvictionCandidate) : Prop :=
  ∃ body file info, s.files.get c.bodyPath = some body ∧ s.files.get c.metaPath = some file ∧
    file.parsed = some info ∧ info.fillId = c.fillId ∧ info.lastAccessedAt = c.lastAccessedAt ∧
    c.size = body.size + file.size

theorem EvictionCandidate.Backed.of_files
    {s₁ : Store} (h : c.Backed s) (hfiles : s₁.files = s.files) :
  c.Backed s₁
  := by
  rw [EvictionCandidate.Backed, Store.sizeAt, Store.sizeAt, hfiles]
  exact h

section Locks

variable {s₁ : Store} {progress progress' : Progress} {hashes : List Bytes}

/-- An eviction goes on from where the lock has been got. -/
theorem Locked.attempted
    (h : Locked s c.hash s₁) (h' : Attempted s₁ c [] progress progress' s') :
  Attempted s c [c.hash] progress progress' s'
  where
    works := (h.works.mono (List.nil_subset _) (List.Subset.refl _)).trans
      (h'.works.mono (List.Subset.refl _) (List.nil_subset _))
    bytes hnodup hbacked hle := by
      apply h'.bytes hnodup (hbacked.of_files h.files)
      rw [Store.bytes, h.files]
      exact hle

theorem Locked.evicted
    (h : Locked s c.hash s₁) (h' : Evicted s₁ c progress progress' s') :
  Evicted s c progress progress' s'
  where
    progress_eq := h'.progress_eq
    stats := by rw [h'.stats, h.stats]
    body := h'.body
    metadata := h'.metadata

theorem attempted_of_quiet
    (h : s.Quiet s') :
  Attempted s c hashes progress progress s'
  where
    works := h.works
    bytes _ _ hle := by
      obtain ⟨n, rfl⟩ := h
      exact hle

end Locks

/-- A candidate is evicted, unless it has changed or a call has failed. -/
theorem leads_tryEvictCandidate
    {ε : Type} {F : ε → Store → Prop} (c : EvictionCandidate) (progress : Progress) :
  Leads (tryEvictCandidate c progress) s
    (fun progress' s' => Attempted s c [c.hash] progress progress' s' ∧ c.hash ∈ s'.metaLocks ∧
      (s.Sound → Intact s c → Evicted s c progress progress' s')) F
  := by
  apply Leads.bind
  apply leads_lock
  intro s₁ hlocked
  have hnext := hlocked.quiet s₁.quiet_next
  have hsound : s.Sound → s₁.next.Sound := fun h n => by rw [hnext.works.faulty, h n]
  have hremove : Leads (removeCandidate c progress) s₁.next
      (fun progress' s' => Attempted s c [c.hash] progress progress' s' ∧ c.hash ∈ s'.metaLocks ∧
        (s.Sound → Intact s c → Evicted s c progress progress' s')) F := by
    apply (leads_removeCandidate c progress).mono
    · rintro progress' s' ⟨hattempted, hevicted⟩
      use hnext.attempted hattempted, hattempted.works.locks hnext.locked
      intro hs _
      exact hnext.evicted (hevicted (hsound hs))
    · exact fun _ _ h => h
  apply Leads.bind
  apply leads_read
  · intro hfault
    apply leads_pure
    use hnext.attempted (attempted_of_quiet (.refl _)), hnext.locked
    intro hs _
    rw [show s₁.faulty s₁.calls = false from by rw [hlocked.works.faulty, hs]] at hfault
    cases hfault
  · intro file hfile
    simp only
    rcases hparsed : file.parsed with _ | info
    · exact hremove
    · simp only
      split
      next hchanged =>
        apply Leads.seq (leads_knownSize c.bodyPath)
        · rintro b _ ⟨⟨n, rfl⟩, hb⟩
          apply Leads.seq (leads_knownSize (s := { s₁.next with calls := n }) c.metaPath)
          · rintro m _ ⟨⟨n', rfl⟩, hm⟩
            apply leads_pure
            have hquiet : s₁.next.Quiet { s₁.next with calls := n' } := ⟨n', rfl⟩
            refine ⟨hnext.attempted ⟨hquiet.works, ?_⟩, hnext.locked, ?_⟩
            · intro _ hbacked hle
              exact le_remeasure hb hm hle hbacked le_rfl le_rfl
            · rintro - ⟨_, file', info', -, hmeta, hparsed', hfill, haccess, -⟩
              rw [hlocked.files, hmeta] at hfile
              obtain rfl := Option.some.inj hfile
              rw [hparsed] at hparsed'
              obtain rfl := Option.some.inj hparsed'
              exact absurd hchanged (by simp [hfill, haccess])
          · exact fun _ _ h => h
        · exact fun _ _ h => h
      next => exact hremove
  · intro _
    exact hremove

/-! ### Evicting candidates -/

/-- Evictions remove files of their candidates only, and the size of the cache stays at least the
number of bytes that are there. -/
theorem leads_evictUntilUnder
    {ε : Type} {F : ε → Store → Prop} (maxBytes : ℕ) (progress : Progress)
    (cs : List EvictionCandidate) :
  Leads (evictUntilUnder maxBytes progress cs) s
    (fun progress' s' => s.Works (cs.flatMap EvictionCandidate.evictable)
        (cs.map EvictionCandidate.hash) s' ∧
      ((cs.flatMap EvictionCandidate.evictable).Nodup → (∀ c ∈ cs, c.Backed s) →
        s.bytes ≤ progress.currentSize → s'.bytes ≤ progress'.currentSize)) F
  := by
  induction cs generalizing s progress with
  | nil =>
      apply leads_pure
      exact ⟨.refl s _ _, fun _ _ hle => hle⟩
  | cons c cs ih =>
      rw [evictUntilUnder]
      split
      next =>
        apply leads_pure
        exact ⟨.refl s _ _, fun _ _ hle => hle⟩
      next =>
        apply Leads.seq (leads_tryEvictCandidate c progress)
        · rintro progress₁ s₁ ⟨hattempted, -, -⟩
          apply (ih progress₁).mono
          · rintro progress' s' ⟨hworks, hbytes⟩
            constructor
            · exact (hattempted.works.mono (List.subset_append_left _ _) (by simp)).trans
                (hworks.mono (List.subset_append_right _ _) (List.subset_cons_self _ _))
            · intro hnodup hbacked hle
              rw [List.flatMap_cons, List.nodup_append'] at hnodup
              obtain ⟨hnodup₁, hnodup₂, hdisjoint⟩ := hnodup
              apply hbytes hnodup₂
              · intro c' hc'
                have hevictable : ∀ p ∈ c'.evictable, s₁.sizeAt p = s.sizeAt p := by
                  intro p hp
                  apply hattempted.works.sizeAt_eq
                  exact fun hmem => hdisjoint hmem (List.mem_flatMap.mpr ⟨c', hc', hp⟩)
                have hbacked' := hbacked c' (List.mem_cons_of_mem _ hc')
                rw [EvictionCandidate.Backed] at hbacked' ⊢
                rw [hevictable c'.bodyPath (by simp [EvictionCandidate.evictable]),
                  hevictable c'.metaPath (by simp [EvictionCandidate.evictable])]
                exact hbacked'
              · exact hattempted.bytes hnodup₁ (hbacked c List.mem_cons_self) hle
          · exact fun _ _ h => h
        · exact fun _ _ h => h

theorem leads_evictOverBudget
    {ε : Type} {F : ε → Store → Prop} (maxBytes : ℕ) (scan : ScanResult) :
  Leads (evictOverBudget maxBytes scan) s
    (fun _ s' => s.Works ((evictionOrder scan.candidates).flatMap EvictionCandidate.evictable)
      ((evictionOrder scan.candidates).map EvictionCandidate.hash) s') F
  := by
  rw [evictOverBudget]
  split
  next =>
    apply Leads.seq (leads_evictUntilUnder maxBytes _ _)
    · rintro progress s₁ ⟨hworks, -⟩
      apply Leads.bind
      apply leads_modify
      apply leads_pure
      exact hworks.withStats _
    · exact fun _ _ h => h
  next =>
    apply leads_pure
    exact .refl s _ _

end TinyS3Proxy.Shards
