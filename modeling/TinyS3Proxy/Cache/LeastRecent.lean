import TinyS3Proxy.Cache.Accounting
import TinyS3Proxy.Cache.Collecting
import TinyS3Proxy.Cache.Shaped
import TinyS3Proxy.Text.Encoding

/-!
# Eviction of the least recently used

If every file belongs to a complete entry and no call fails, a pass evicts the entries that have not
been used for the longest time, as few of them as are enough, and leaves the statistics as the files
that remain say.
-/

namespace TinyS3Proxy.Shards

open Text (Bytes ascii)
open Effect

variable {s s' : Store} {p : ShardPath} {c : EvictionCandidate} {cs : List EvictionCandidate}

/-! ### Runs of evictions -/

/-- What evictions have come to if no call has failed: the first `k` candidates are gone, as few as
are enough. -/
structure EvictedFirst (s : Store) (maxBytes : ℕ) (progress : Progress)
    (cs : List EvictionCandidate) (k : ℕ) (progress' : Progress) (s' : Store) : Prop where
  le_length : k ≤ cs.length
  needed : ∀ j < k, maxBytes < progress.currentSize - sizes (cs.take j)
  enough : progress.currentSize - sizes (cs.take k) ≤ maxBytes ∨ k = cs.length
  stats : s'.stats = { s.stats with
    entryCount := s.stats.entryCount - k
    totalBytes := s.stats.totalBytes - sizes (cs.take k) }
  get_eq : ∀ p, p ∉ (cs.take k).flatMap EvictionCandidate.evictable →
    s'.files.get p = s.files.get p
  sub : s'.files.Sub s.files
  gone : ∀ c ∈ cs.take k, s'.files.get c.bodyPath = none ∧ s'.files.get c.metaPath = none

theorem evictedFirst_zero
    {maxBytes : ℕ} {progress : Progress} (h : progress.currentSize ≤ maxBytes ∨ cs = []) :
  EvictedFirst s maxBytes progress cs 0 progress s
  where
    le_length := Nat.zero_le _
    needed _ hj := (Nat.not_lt_zero _ hj).elim
    enough := h.imp (fun h => by simpa using h) (fun h => by simp [h])
    stats := rfl
    get_eq _ _ := rfl
    sub := .refl _
    gone _ hc := (List.not_mem_nil hc).elim

/-- One eviction, and then the others. -/
theorem EvictedFirst.cons
    {maxBytes k : ℕ} {progress progress₁ progress' : Progress} {s₁ : Store} {hashes : List Bytes}
    (hover : maxBytes < progress.currentSize) (hworks : s.Works c.evictable hashes s₁)
    (hevicted : Evicted s c progress progress₁ s₁)
    (h : EvictedFirst s₁ maxBytes progress₁ cs k progress' s') :
  EvictedFirst s maxBytes progress (c :: cs) (k + 1) progress' s'
  where
    le_length := Nat.succ_le_succ h.le_length
    needed j hj := by
      cases j with
      | zero => simpa using hover
      | succ j =>
          have hneeded := h.needed j (Nat.lt_of_succ_lt_succ hj)
          rw [hevicted.progress_eq] at hneeded
          rw [List.take_succ_cons, sizes_cons]
          simp only at hneeded
          omega
    enough := by
      have henough := h.enough
      rw [hevicted.progress_eq] at henough
      rw [List.take_succ_cons, sizes_cons, List.length_cons]
      simp only at henough
      omega
    stats := by
      rw [h.stats, hevicted.stats, List.take_succ_cons, sizes_cons]
      simp only [CacheStats.mk.injEq, and_true]
      omega
    get_eq p hp := by
      rw [List.take_succ_cons, List.flatMap_cons, List.mem_append, not_or] at hp
      exact (h.get_eq p hp.2).trans (hworks.get_eq p hp.1)
    sub := h.sub.trans hworks.sub
    gone c' hc' := by
      rw [List.take_succ_cons] at hc'
      rcases List.mem_cons.mp hc' with rfl | hc'
      · exact ⟨h.sub.get_eq_none hevicted.body, h.sub.get_eq_none hevicted.metadata⟩
      · exact h.gone c' hc'

/-- A candidate is intact as long as none of its files is removed. -/
theorem Intact.of_get_eq
    (h : Intact s c) (hget : ∀ p ∈ c.evictable, s'.files.get p = s.files.get p) :
  Intact s' c
  := by
  obtain ⟨body, file, info, hbody, hmeta, hrest⟩ := h
  refine ⟨body, file, info, ?_, ?_, hrest⟩
  · rw [hget c.bodyPath (by simp [EvictionCandidate.evictable]), hbody]
  · rw [hget c.metaPath (by simp [EvictionCandidate.evictable]), hmeta]

/-- If no call fails candidates are evicted until the cache is small enough. -/
theorem leads_evictUntilUnder_first
    {ε : Type} {F : ε → Store → Prop} (maxBytes : ℕ) (progress : Progress) (hsound : s.Sound)
    (hintact : ∀ c ∈ cs, Intact s c) (hnodup : (cs.flatMap EvictionCandidate.evictable).Nodup) :
  Leads (evictUntilUnder maxBytes progress cs) s
    (fun progress' s' => ∃ k, EvictedFirst s maxBytes progress cs k progress' s' ∧
      progress'.evicted = progress.evicted + k) F
  := by
  induction cs generalizing s progress with
  | nil =>
      apply leads_pure
      exact ⟨0, evictedFirst_zero (.inr rfl), rfl⟩
  | cons c cs ih =>
      rw [List.flatMap_cons, List.nodup_append'] at hnodup
      obtain ⟨-, hnodup', hdisjoint⟩ := hnodup
      rw [evictUntilUnder]
      split
      next hle =>
        apply leads_pure
        exact ⟨0, evictedFirst_zero (.inl hle), rfl⟩
      next hover =>
        apply Leads.seq (leads_tryEvictCandidate c progress)
        · rintro progress₁ s₁ ⟨hattempted, -, hevicted⟩
          have hevicted := hevicted hsound (hintact c List.mem_cons_self)
          have hworks := hattempted.works
          have hsound₁ : s₁.Sound := fun n => by rw [hworks.faulty, hsound]
          have hintact₁ : ∀ c' ∈ cs, Intact s₁ c' := by
            intro c' hc'
            apply (hintact c' (List.mem_cons_of_mem _ hc')).of_get_eq
            intro p hp
            apply hworks.get_eq
            exact fun hmem => hdisjoint hmem (List.mem_flatMap.mpr ⟨c', hc', hp⟩)
          apply (ih progress₁ hsound₁ hintact₁ hnodup').mono
          · rintro progress' s' ⟨k, hfirst, hcount⟩
            use k + 1, hfirst.cons (not_le.mp hover) hworks hevicted
            have hone : progress₁.evicted = progress.evicted + 1 := by rw [hevicted.progress_eq]
            omega
          · exact fun _ _ h => h
        · exact fun _ _ h => h

/-! ### Complete entries -/

/-- The file is metadata. -/
def ShardPath.isMeta (p : ShardPath) : Bool := Text.endsWith metaSuffix p.name

/-- Every file belongs to a complete entry: a body, and metadata that are parsed. -/
def Store.Complete (s : Store) : Prop :=
  ∀ p file, s.files.get p = some file → ∃ hash, IsHash hash ∧
    (p.name = hash ++ bodySuffix ∧ (s.files.get ⟨p.dir, hash ++ metaSuffix⟩).isSome ∨
      p.name = hash ++ metaSuffix ∧ file.parsed.isSome ∧
        (s.files.get ⟨p.dir, hash ++ bodySuffix⟩).isSome)

/-- The number of entries. -/
def Store.entryCount (s : Store) : ℕ := (s.files.keys.filter ShardPath.isMeta).length

namespace Store.Complete

theorem writerShaped
    (h : s.Complete) :
  s.WriterShaped
  := by
  intro p file hget
  obtain ⟨hash, hhash, hname⟩ := h p file hget
  use hash, hhash
  rcases hname with ⟨hbody, -⟩ | ⟨hmeta, -⟩
  · exact .inl hbody
  · exact .inr (.inl hmeta)

/-- The names are strings. -/
theorem not_hasBadName
    (h : s.Complete) :
  ¬ s.HasBadName
  := by
  rintro ⟨p, hp, hbad⟩
  obtain ⟨file, hget⟩ := Keyed.Listing.exists_get_of_mem_keys hp
  have hvisible : Text.Visible p.name := by
    obtain ⟨hash, hhash, hname⟩ := h p file hget
    have hdigits : Text.Visible hash := fun b hb => Text.visible_of_isHexDigit (hhash.2 b hb)
    rcases hname with ⟨hbody, -⟩ | ⟨hmeta, -⟩
    · rw [hbody]
      exact Text.visible_append.mpr ⟨hdigits, by decide⟩
    · rw [hmeta]
      exact Text.visible_append.mpr ⟨hdigits, by decide⟩
  rw [hvisible.validUtf8] at hbad
  cases hbad

/-- What there is at a file: nothing at a body, and a complete entry at metadata. -/
theorem found
    (h : s.Complete) {file : StoredFile} (hget : s.files.get p = some file) :
  (p.isMeta = false ∧ foundAt s.files p = .nothing) ∨
    (p.isMeta = true ∧ ∃ c, IsComplete s.files p c)
  := by
  obtain ⟨dir, name⟩ := p
  obtain ⟨hash, hhash, ⟨rfl, hpartner⟩ | ⟨rfl, hparsed, hpartner⟩⟩ := h _ file hget
  · left
    have hstem := (stem_append hhash dir).2.1
    obtain ⟨metaFile, hmeta⟩ := Option.isSome_iff_exists.mp hpartner
    use endsWith_meta_body hash
    rw [foundAt]
    simp only [endsWith_meta_body, Text.endsWith_append, Bool.false_eq_true, if_false, if_true,
      orphanAt]
    rw [stem] at hstem
    rw [hstem, hmeta]
  · right
    have hstem := (stem_append hhash dir).1
    obtain ⟨info, hinfo⟩ := Option.isSome_iff_exists.mp hparsed
    obtain ⟨body, hbody⟩ := Option.isSome_iff_exists.mp hpartner
    use Text.endsWith_append hash metaSuffix
    exact ⟨_, .intro (Text.endsWith_append hash metaSuffix) hget hinfo (hstem.symm ▸ hhash)
      (hstem.symm ▸ hbody)⟩

/-- There is nothing to be cleaned up. -/
theorem cleanups_eq_nil
    (h : s.Complete) :
  s.cleanups = []
  := by
  rw [List.eq_nil_iff_forall_not_mem]
  intro cleanup hmem
  obtain ⟨p, hp, hbroken⟩ := Store.mem_cleanups.mp hmem
  obtain ⟨file, hget⟩ := Keyed.Listing.exists_get_of_mem_keys hp
  have hfound := foundAt_of_isBroken hbroken
  rcases h.found hget with ⟨-, hnothing⟩ | ⟨-, c, hcomplete⟩
  · cases hnothing.symm.trans hfound
  · cases (foundAt_of_isComplete hcomplete).symm.trans hfound

/-- The files are those of the complete entries. -/
theorem mem_keys
    (h : s.Complete) :
  p ∈ s.files.keys ↔ p ∈ candidateFiles s.candidates
  := by
  constructor
  · intro hp
    obtain ⟨file, hget⟩ := Keyed.Listing.exists_get_of_mem_keys hp
    obtain ⟨dir, name⟩ := p
    apply List.mem_flatMap.mpr
    obtain ⟨hash, hhash, ⟨rfl, hpartner⟩ | ⟨rfl, hparsed, hpartner⟩⟩ := h _ file hget
    · obtain ⟨metaFile, hmeta⟩ := Option.isSome_iff_exists.mp hpartner
      rcases found_of_meta hhash hmeta with ⟨cleanup, hcleanup, -⟩ | ⟨c, hc, -, hbody⟩
      · rw [h.cleanups_eq_nil] at hcleanup
        exact (List.not_mem_nil hcleanup).elim
      · use c, hc
        rw [hbody]
        exact List.mem_cons_self
    · rcases found_of_meta hhash hget with ⟨cleanup, hcleanup, -⟩ | ⟨c, hc, hmeta, -⟩
      · rw [h.cleanups_eq_nil] at hcleanup
        exact (List.not_mem_nil hcleanup).elim
      · use c, hc
        rw [hmeta]
        exact List.mem_cons_of_mem _ List.mem_cons_self
  · intro hp
    obtain ⟨c, hc, hp⟩ := List.mem_flatMap.mp hp
    obtain ⟨body, file, -, hbody, hmeta, -⟩ := intact_of_mem_candidates hc
    simp only [List.mem_cons, List.not_mem_nil, or_false] at hp
    rcases hp with rfl | rfl
    · exact List.mem_map_of_mem (f := Prod.fst) (Keyed.Listing.get_eq_some_iff.mp hbody)
    · exact List.mem_map_of_mem (f := Prod.fst) (Keyed.Listing.get_eq_some_iff.mp hmeta)

end Store.Complete

/-! ### What remains -/

theorem sublist_candidateFiles
    (cs : List EvictionCandidate) :
  (candidateFiles cs).Sublist (cs.flatMap EvictionCandidate.evictable)
  := by
  induction cs with
  | nil => exact List.Sublist.refl _
  | cons c cs ih =>
      rw [candidateFiles, List.flatMap_cons, List.flatMap_cons]
      apply List.Sublist.append
      · exact List.prefix_append [c.bodyPath, c.metaPath] [c.poisonPath] |>.sublist
      · exact ih

theorem filter_candidateFiles
    (h : ∀ c ∈ cs, Shaped c) :
  (candidateFiles cs).filter ShardPath.isMeta = cs.map EvictionCandidate.metaPath
  := by
  induction cs with
  | nil => rfl
  | cons c cs ih =>
      have hshaped := h c List.mem_cons_self
      have hbody : c.bodyPath.isMeta = false := by
        rw [hshaped.bodyPath]
        exact endsWith_meta_body _
      have hmeta : c.metaPath.isMeta = true := by
        rw [ShardPath.isMeta, hshaped.name]
        exact Text.endsWith_append _ _
      have ih' := ih fun c' hc' => h c' (List.mem_cons_of_mem _ hc')
      rw [candidateFiles] at ih'
      rw [candidateFiles, List.flatMap_cons, List.filter_append, ih', List.map_cons,
        List.filter_cons_of_neg (by simp [hbody]), List.filter_cons_of_pos hmeta]
      rfl

/-- What is the case of the files once the first candidates are gone. -/
structure Remains (s : Store) (order : List EvictionCandidate) (k : ℕ) (s' : Store) : Prop where
  get_eq : ∀ p, s'.files.get p
    = if p ∈ candidateFiles (order.take k) then none else s.files.get p
  bytes : s'.bytes = sizes (order.drop k)
  entryCount : s'.entryCount = (order.drop k).length

/-- The files that are not those of candidates which are gone are those of the others. -/
theorem Store.Complete.remains
    (h : s.Complete) {order : List EvictionCandidate} (hperm : order.Perm s.candidates) {k : ℕ}
    (hgone : ∀ c ∈ order.take k, s'.files.get c.bodyPath = none ∧ s'.files.get c.metaPath = none)
    (hsub : s'.files.Sub s.files)
    (hkept : ∀ p, p ∉ (order.take k).flatMap EvictionCandidate.evictable →
      s'.files.get p = s.files.get p) :
  Remains s order k s'
  := by
  have hnodup := h.writerShaped.nodup_evictable hperm (List.Sublist.refl order)
  have hsplit : candidateFiles order
      = candidateFiles (order.take k) ++ candidateFiles (order.drop k) := by
    rw [candidateFiles, candidateFiles, candidateFiles, ← List.flatMap_append,
      List.take_append_drop]
  have hfiles : (candidateFiles order).Nodup := hnodup.sublist (sublist_candidateFiles order)
  have hmem : ∀ {p}, p ∈ s.files.keys ↔ p ∈ candidateFiles order := by
    intro p
    rw [h.mem_keys]
    exact (hperm.flatMap_right _).mem_iff.symm
  have hdisjoint : ((order.take k).flatMap EvictionCandidate.evictable).Disjoint
      ((order.drop k).flatMap EvictionCandidate.evictable) := by
    apply List.disjoint_of_nodup_append
    rw [← List.flatMap_append, List.take_append_drop]
    exact hnodup
  have hget : ∀ p, s'.files.get p
      = if p ∈ candidateFiles (order.take k) then none else s.files.get p := by
    intro p
    split
    next hp =>
      obtain ⟨c, hc, hp⟩ := List.mem_flatMap.mp hp
      simp only [List.mem_cons, List.not_mem_nil, or_false] at hp
      rcases hp with rfl | rfl
      · exact (hgone c hc).1
      · exact (hgone c hc).2
    next hp =>
      by_cases hevictable : p ∈ (order.take k).flatMap EvictionCandidate.evictable
      · -- a poison marker of one of the candidates, and there is none
        have hnone : s.files.get p = none := by
          rw [Keyed.Listing.get_eq_none_iff, hmem, hsplit, List.mem_append, not_or]
          use hp
          exact fun hdrop => hdisjoint hevictable ((sublist_candidateFiles _).subset hdrop)
        rw [hnone]
        exact hsub.get_eq_none hnone
      · exact hkept p hevictable
  have hkeys : s'.files.keys.Perm (candidateFiles (order.drop k)) := by
    rw [hsplit, List.nodup_append'] at hfiles
    apply (List.perm_ext_iff_of_nodup s'.files.nodup hfiles.2.1).mpr
    intro p
    have hp := hmem (p := p)
    rw [hsplit, List.mem_append] at hp
    change p ∈ s'.files.keys ↔ _
    rw [← not_iff_not, ← Keyed.Listing.get_eq_none_iff, hget]
    split
    next htake =>
      simp only [true_iff]
      exact fun hdrop => hfiles.2.2 htake hdrop
    next htake => rw [Keyed.Listing.get_eq_none_iff, hp, or_iff_right htake]
  have hdrop : ∀ c ∈ order.drop k, c ∈ s.candidates := fun c hc =>
    hperm.mem_iff.mp (List.mem_of_mem_drop hc)
  have hintact : ∀ c ∈ order.drop k, Intact s' c := by
    intro c hc
    apply (intact_of_mem_candidates (hdrop c hc)).of_get_eq
    intro p hp
    rw [hget, if_neg]
    intro htake
    exact hdisjoint ((sublist_candidateFiles _).subset htake) (List.mem_flatMap.mpr ⟨c, hc, hp⟩)
  exact {
    get_eq := hget
    bytes := by
      rw [Store.bytes, Keyed.Listing.total_eq_of_perm hkeys]
      exact sum_sizeAt_candidateFiles hintact
    entryCount := by
      rw [Store.entryCount, (hkeys.filter _).length_eq,
        filter_candidateFiles fun c hc => h.writerShaped.shaped (hdrop c hc), List.length_map] }

/-! ### Passes -/

/-- The candidates are those of the store, in the order in which they are evicted. -/
theorem evictionOrder_perm
    (s : Store) :
  (evictionOrder s.candidates).Perm s.candidates
  := Text.sortBy_perm _

/-- A pass evicts the first entries in the order of their last use, as few of them as are enough,
and leaves the statistics as the files that remain say. -/
structure EvictsFirst (maxBytes : ℕ) (s : Store) (entries : List EvictionCandidate) (k : ℕ)
    (s' : Store) : Prop where
  le_length : k ≤ (evictionOrder entries).length
  needed : ∀ j < k, maxBytes < sizes ((evictionOrder entries).drop j)
  enough : sizes ((evictionOrder entries).drop k) ≤ maxBytes ∨ k = (evictionOrder entries).length
  remains : Remains s (evictionOrder entries) k s'
  totalBytes : s'.stats.totalBytes = s'.bytes
  entryCount : s'.stats.entryCount = s'.entryCount

theorem sizes_sub_take
    (cs : List EvictionCandidate) (j : ℕ) :
  sizes cs - sizes (cs.take j) = sizes (cs.drop j)
  := by
  have h := sizes_append (cs.take j) (cs.drop j)
  rw [List.take_append_drop] at h
  omega

/-- Evictions after a scan that has found complete entries only. -/
theorem Store.Complete.evictsFirst
    (hcomplete : s.Complete) {scan : ScanResult} {s₁ s₂ : Store}
    (hcollected : Collected s scan s₁) {maxBytes k : ℕ} {progress : Progress}
    (h : EvictedFirst s₁ maxBytes ⟨sizes s.candidates, 0⟩ (evictionOrder s.candidates) k progress s₂)
    (n : ℕ) :
  EvictsFirst maxBytes s s.candidates k { s₂ with stats := { s₂.stats with evictionCount := n } }
  := by
  have hperm := evictionOrder_perm s
  have hsizes : sizes s.candidates = sizes (evictionOrder s.candidates) :=
    (hperm.map EvictionCandidate.size).sum_eq.symm
  obtain ⟨htotal, hfiles⟩ := hcollected.of_no_cleanups hcomplete.cleanups_eq_nil
  have hstats := h.stats
  rw [hcollected.stats] at hstats
  have hremains : Remains s (evictionOrder s.candidates) k s₂ := by
    apply hcomplete.remains hperm h.gone
    · rw [← hfiles]
      exact h.sub
    · rw [← hfiles]
      exact h.get_eq
  exact {
    le_length := h.le_length
    needed := by
      intro j hj
      rw [← sizes_sub_take, ← hsizes]
      exact h.needed j hj
    enough := by
      rw [← sizes_sub_take, ← hsizes]
      exact h.enough
    remains := ⟨hremains.get_eq, hremains.bytes, hremains.entryCount⟩
    totalBytes := by
      change s₂.stats.totalBytes = s₂.bytes
      rw [hremains.bytes, ← sizes_sub_take, ← hsizes, hstats, htotal]
    entryCount := by
      change s₂.stats.entryCount = s₂.entryCount
      rw [hremains.entryCount, hstats, List.length_drop, hperm.length_eq] }

/-- What a pass leads to if every file belongs to a complete entry and no call fails. -/
theorem Store.Complete.leads_runEvictionPassInner
    (hcomplete : s.Complete) (hsound : s.Sound) (maxBytes : ℕ) :
  Leads (runEvictionPassInner maxBytes) s (fun _ s' => ∃ k, EvictsFirst maxBytes s s.candidates k s')
    (fun _ _ => False)
  := by
  have hperm := evictionOrder_perm s
  apply Leads.seq (leads_scanForEviction s)
  · rintro o s₁ (⟨rfl, -, hfault⟩ | ⟨scan, rfl, hcollected⟩)
    · exact absurd ⟨_, hfault⟩ hsound.not_faulty
    · obtain ⟨htotal, -⟩ := hcollected.of_no_cleanups hcomplete.cleanups_eq_nil
      have hsound₁ : s₁.Sound := fun n => by rw [hcollected.works.faulty, hsound]
      simp only
      rw [evictOverBudget, hcollected.candidates, htotal]
      split
      next =>
        have hintact : ∀ c ∈ evictionOrder s.candidates, Intact s₁ c := by
          intro c hc
          exact hcomplete.writerShaped.intact_of_works hcollected.works (hperm.mem_iff.mp hc)
        have hnodup := hcomplete.writerShaped.nodup_evictable hperm
          (List.Sublist.refl (evictionOrder s.candidates))
        rw [bind_assoc]
        apply Leads.seq (leads_evictUntilUnder_first maxBytes _ hsound₁ hintact hnodup)
        · rintro progress s₂ ⟨k, hfirst, -⟩
          apply Leads.bind
          apply Leads.bind
          apply leads_modify
          apply leads_pure
          apply leads_pure
          exact ⟨k, hcomplete.evictsFirst hcollected hfirst _⟩
        · exact fun _ _ h => h
      next hle =>
        apply Leads.bind
        apply leads_pure
        apply leads_pure
        exact ⟨0, hcomplete.evictsFirst hcollected (evictedFirst_zero (.inl (not_lt.mp hle))) _⟩
  · intro e s₁ hgivenUp
    exact (hgivenUp.faulty.elim hsound.not_faulty hcomplete.not_hasBadName).elim

end TinyS3Proxy.Shards
