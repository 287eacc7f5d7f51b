import TinyS3Proxy.Cache.Findings

/-!
# The scan of the whole cache

What is the case once a scan of the cache has been completed, with its cleanups, and what is the
case if it has been given up.
-/

namespace TinyS3Proxy.Shards

open Text (Bytes)
open Effect

variable {s : Store}

/-- What a scan of the cache leads to if it is completed: the complete entries have been found, the
files of broken ones have been removed or counted, and the statistics have been set. -/
structure Collected (s : Store) (scan : ScanResult) (s' : Store) : Prop where
  works : s.Works (s.cleanups.flatMap DeferredCleanup.owned)
    (s.cleanups.map DeferredCleanup.hash) s'
  locked : s.cleanups.map DeferredCleanup.hash ⊆ s'.metaLocks
  candidates : scan.candidates = s.candidates
  totalBytes : sizes s.candidates
    + ((s.cleanups.flatMap DeferredCleanup.counted).map s'.sizeAt).sum ≤ scan.totalBytes
  stats : s'.stats = { s.stats with
    totalBytes := scan.totalBytes, entryCount := s.candidates.length }
  of_no_cleanups : s.cleanups = [] → scan.totalBytes = sizes s.candidates ∧ s'.files = s.files

/-- What a scan of the cache leads to if it is given up. -/
structure ScanGivenUp (s s' : Store) : Prop where
  works : s.Works (s.cleanups.flatMap DeferredCleanup.owned)
    (s.cleanups.map DeferredCleanup.hash) s'
  stats : s'.stats = s.stats
  faulty : s.Faulty ∨ s.HasBadName

/-- The cleanups are made that the scan has found. -/
theorem leads_cleanups
    (tally : Tally) {s₁ : Store} (hquiet : s.Quiet s₁) :
  Leads (processDeferredCleanups tally s.cleanups) s₁
    (fun tally' s' =>
      Cleaned s tally (s.cleanups.flatMap DeferredCleanup.owned)
        (s.cleanups.flatMap DeferredCleanup.counted) (s.cleanups.map DeferredCleanup.hash)
        tally' s' ∧
      (s.cleanups = [] → tally' = tally ∧ s'.files = s.files))
    (fun _ => ScanGivenUp s)
  := by
  have hfiles : s₁.files = s.files := by
    obtain ⟨n, rfl⟩ := hquiet
    rfl
  have hstats : s₁.stats = s.stats := by
    obtain ⟨n, rfl⟩ := hquiet
    rfl
  have hholds : ∀ c ∈ s.cleanups, c.Holds s₁.files := by
    intro c hc
    obtain ⟨p, -, hp⟩ := Store.mem_cleanups.mp hc
    exact hfiles ▸ hp.holds
  have hnone : Leads (processDeferredCleanups tally s.cleanups) s₁
      (fun tally' s' => s.cleanups = [] → tally' = tally ∧ s'.files = s.files)
      (fun _ _ => True) := by
    by_cases h : s.cleanups = []
    · rw [h]
      apply leads_pure
      exact fun _ => ⟨rfl, hfiles⟩
    · exact ⟨fun _ _ _ hnil => absurd hnil h, fun _ _ _ => trivial⟩
  have hall := leads_processDeferredCleanups tally hholds (pairwise_cleanupsAt s.nodup_scanOrder)
  apply (hall.and hnone).mono
  · rintro tally' s' ⟨hcleaned, hnil⟩
    exact ⟨(cleaned_of_quiet hquiet).trans hcleaned, hnil⟩
  · rintro e s' ⟨hgivenUp, -⟩
    exact {
      works := hquiet.works.trans hgivenUp.works
      stats := hgivenUp.stats.trans hstats
      faulty := .inl (((@cleaned_of_quiet _ _ tally hquiet).givenUp hgivenUp).faulty) }

/-- If there are no directories there is nothing to be found. -/
theorem collected_nothing
    (hdirs : s.dirs.getD [] = []) :
  Collected s .nothing { s.next with stats := { s.stats with totalBytes := 0, entryCount := 0 } }
  := by
  have hcandidates : s.candidates = [] := by
    rw [Store.candidates, hdirs]
    rfl
  have hcleanups : s.cleanups = [] := by
    rw [Store.cleanups, hdirs]
    rfl
  exact {
    works := s.quiet_next.works.withStats _
    locked := by simp [hcleanups]
    candidates := hcandidates.symm
    totalBytes := by simp [hcandidates, hcleanups, ScanResult.nothing]
    stats := by simp [hcandidates, ScanResult.nothing]
    of_no_cleanups := fun _ => ⟨by simp [hcandidates, ScanResult.nothing], rfl⟩ }

/-- A scan of the cache finds everything that is there, or is given up since a call has failed or
the name of a file is no string. -/
theorem leads_collectCandidates
    (s : Store) :
  Leads collectCandidates s (Collected s) (fun _ => ScanGivenUp s)
  := by
  apply Leads.bind
  apply leads_asks
  · intro hfault
    apply leads_throw
    exact ⟨s.quiet_next.works, rfl, .inl ⟨_, hfault⟩⟩
  · change Leads (if s.dirs.getD [] = [] then _ else _) s.next _ _
    split
    next hdirs =>
      apply Leads.bind
      apply leads_modify
      apply leads_pure
      exact collected_nothing hdirs
    next =>
      apply Leads.seq (leads_boundedParallelScan fun dir hdir => hdir)
      · rintro results s₁ ⟨rfl, hquiet⟩
        rw [aggregate_map]
        apply Leads.seq (leads_cleanups _ (s.quiet_next.trans hquiet))
        · rintro tally s₂ ⟨hcleaned, hnil⟩
          apply Leads.bind
          apply leads_modify
          apply leads_pure
          exact {
            works := hcleaned.works.withStats _
            locked := hcleaned.locked
            candidates := hcleaned.grows.candidates
            totalBytes := hcleaned.grows.scanTotalBytes
            stats := by rw [hcleaned.stats, hcleaned.grows.scanEntryCount]; rfl
            of_no_cleanups := fun h => by
              obtain ⟨rfl, hfiles⟩ := hnil h
              exact ⟨rfl, hfiles⟩ }
        · exact fun _ _ h => h
      · rintro e s₁ ⟨hquiet, hwhy⟩
        have hquiet' := s.quiet_next.trans hquiet
        have hstats : s₁.stats = s.stats := by
          obtain ⟨n, rfl⟩ := hquiet'
          rfl
        exact ⟨hquiet'.works, hstats, hwhy⟩

theorem Collected.of_next
    {scan : ScanResult} {s' : Store} (h : Collected s.next scan s') :
  Collected s scan s'
  where
    works := s.quiet_next.works.trans h.works
    locked := h.locked
    candidates := h.candidates
    totalBytes := h.totalBytes
    stats := h.stats
    of_no_cleanups := h.of_no_cleanups

/-- The cache is scanned, unless it cannot be found out whether there is one. -/
theorem leads_scanForEviction
    (s : Store) :
  Leads scanForEviction s
    (fun o s' => (o = none ∧ s.Quiet s' ∧ s.faulty s.calls = true) ∨
      ∃ scan, o = some scan ∧ Collected s scan s')
    (fun _ => ScanGivenUp s)
  := by
  apply Leads.bind
  apply leads_asks
  · intro hfault
    apply leads_pure
    exact .inl ⟨rfl, s.quiet_next, hfault⟩
  · rcases hdirs : s.next.dirs with _ | dirs
    · apply Leads.bind
      apply leads_modify
      apply leads_pure
      have hnone : s.dirs.getD [] = [] := by
        change s.next.dirs.getD [] = []
        rw [hdirs]
        rfl
      exact .inr ⟨.nothing, rfl, collected_nothing hnone⟩
    · apply Leads.seq (leads_collectCandidates s.next)
      · intro scan s' hcollected
        apply leads_pure
        exact .inr ⟨scan, rfl, hcollected.of_next⟩
      · intro e s' hgivenUp
        exact ⟨s.quiet_next.works.trans hgivenUp.works, hgivenUp.stats, hgivenUp.faulty⟩

end TinyS3Proxy.Shards
