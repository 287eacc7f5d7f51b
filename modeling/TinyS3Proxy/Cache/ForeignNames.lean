import TinyS3Proxy.Cache.Collecting
import TinyS3Proxy.Cache.Removing
import TinyS3Proxy.Text.Encoding

/-!
# Foreign names

The locks of a pass are registered under what the names of files say the hashes are. The sweep that
follows cuts each of these strings after two and after four bytes, and panics if a character does
not end there. Only the names of broken entries can make it panic, since those of complete ones have
been checked.
-/

namespace TinyS3Proxy.Shards

open Text (Bytes ascii)
open Effect

variable {s s' : Store}

/-! ### Hashes that can be cut -/

/-- The sweep can take the directories of an entry from its hash, or does not need them. -/
def Sliceable (hash : Bytes) : Prop :=
  hash.length < 5 ∨ Text.isCharBoundary hash 2 = true ∧ Text.isCharBoundary hash 4 = true

instance (hash : Bytes) : Decidable (Sliceable hash) :=
  inferInstanceAs (Decidable (_ ∨ _ ∧ _))

theorem slice_eq_some
    {hash : Bytes} (h₂ : Text.isCharBoundary hash 2 = true)
    (h₄ : Text.isCharBoundary hash 4 = true) :
  Text.slice hash 0 2 = some (hash.take 2) ∧ Text.slice hash 2 4 = some ((hash.drop 2).take 2)
  := by
  constructor
  · rw [Text.slice, if_pos ⟨by decide, rfl, h₂⟩]
    rfl
  · rw [Text.slice, if_pos ⟨by decide, h₂, h₄⟩]

/-- A hexadecimal digit is a character. -/
theorem isContinuation_eq_false
    {b : UInt8} (h : Text.isHexDigit b = true) :
  Text.isContinuation b = false
  := by
  have hle := (Text.visible_of_isHexDigit h).2
  have hlt : ¬ 0x80 ≤ b := UInt8.not_le.mpr (UInt8.lt_of_le_of_lt hle (by decide))
  rw [Text.isContinuation, decide_eq_false hlt]
  rfl

/-- A hash that is checked can be cut. -/
theorem IsHash.sliceable
    {hash : Bytes} (h : IsHash hash) :
  Sliceable hash
  := by
  have hboundary : ∀ i, i < hash.length → Text.isCharBoundary hash i = true := by
    intro i hi
    have hdigit := isContinuation_eq_false (h.2 _ (List.getElem_mem hi))
    rw [Text.isCharBoundary, List.getElem?_eq_getElem hi]
    simp [hdigit]
  have hlength := h.1
  exact .inr ⟨hboundary 2 (by omega), hboundary 4 (by omega)⟩

/-! ### The sweep -/

/-- Looking at a lock panics if its hash cannot be cut. -/
theorem leads_isStale
    (hash : Bytes) :
  Leads (isStale hash) s (fun _ s' => s.Quiet s' ∧ Sliceable hash) (fun _ _ => ¬ Sliceable hash)
  := by
  rw [isStale]
  split
  next hshort =>
    apply leads_pure
    exact ⟨.refl s, .inl hshort⟩
  next hlong =>
    by_cases hslice : Sliceable hash
    · obtain ⟨h₂, h₄⟩ := hslice.resolve_left hlong
      obtain ⟨hd₁, hd₂⟩ := slice_eq_some h₂ h₄
      rw [hd₁, hd₂]
      apply Leads.bind
      apply leads_pure
      apply Leads.bind
      apply leads_pure
      apply Leads.bind
      apply leads_tryExists
      · intro _
        apply leads_pure
        exact ⟨s.quiet_next, hslice⟩
      · intro _ _
        apply leads_pure
        exact ⟨s.quiet_next, hslice⟩
      · intro _
        apply leads_pure
        exact ⟨s.quiet_next, hslice⟩
    · have hcut : Text.slice hash 0 2 = none ∨ Text.slice hash 2 4 = none := by
        by_contra hboth
        rw [not_or, Text.slice, Text.slice] at hboth
        have h₂ := of_not_not fun h => hboth.1 (if_neg h)
        have h₄ := of_not_not fun h => hboth.2 (if_neg h)
        exact hslice (.inr ⟨h₂.2.2, h₄.2.2⟩)
      apply Leads.bind
      rcases hd₁ : Text.slice hash 0 2 with _ | d₁
      · exact leads_throw hslice
      · apply leads_pure
        rw [hcut.resolve_left (by rw [hd₁]; nofun)]
        apply Leads.bind
        exact leads_throw hslice

theorem leads_staleLocks
    (hashes : List Bytes) :
  Leads (staleLocks hashes) s (fun _ s' => s.Quiet s' ∧ ∀ hash ∈ hashes, Sliceable hash)
    (fun _ _ => ∃ hash ∈ hashes, ¬ Sliceable hash)
  := by
  induction hashes generalizing s with
  | nil =>
      apply leads_pure
      exact ⟨.refl s, fun _ h => (List.not_mem_nil h).elim⟩
  | cons hash hashes ih =>
      apply Leads.seq (leads_isStale hash)
      · rintro stale s₁ ⟨hquiet, hslice⟩
        apply Leads.seq ih
        · rintro rest s₂ ⟨hquiet₂, hslices⟩
          apply leads_pure
          exact ⟨hquiet.trans hquiet₂, List.forall_mem_cons.mpr ⟨hslice, hslices⟩⟩
        · rintro e s₂ ⟨hash', hmem, hnot⟩
          exact ⟨hash', List.mem_cons_of_mem _ hmem, hnot⟩
      · intro e s₁ hnot
        exact ⟨hash, List.mem_cons_self, hnot⟩

/-- The sweep panics if the hash of some lock cannot be cut. -/
theorem leads_sweepStaleMetaLocks
    (s : Store) :
  Leads sweepStaleMetaLocks s (fun _ _ => ∀ hash ∈ s.metaLocks, Sliceable hash)
    (fun _ _ => ∃ hash ∈ s.metaLocks, ¬ Sliceable hash)
  := by
  apply Leads.bind
  apply leads_reads
  apply Leads.seq (leads_staleLocks s.metaLocks)
  · rintro stale s₁ ⟨-, hslices⟩
    apply leads_modify
    exact hslices
  · exact fun _ _ h => h

/-! ### The locks of a pass -/

/-- The locks after a pass: those from before, and those of broken and of complete entries. -/
structure Locks (s s' : Store) : Prop where
  mem : ∀ hash ∈ s'.metaLocks, hash ∈ s.metaLocks ∨ hash ∈ s.cleanups.map DeferredCleanup.hash ∨
    hash ∈ s.candidates.map EvictionCandidate.hash
  kept : s.metaLocks ⊆ s'.metaLocks

theorem Store.Works.locked
    {paths : List ShardPath} {hashes : List Bytes} (h : s.Works paths hashes s')
    (hhashes : ∀ hash ∈ hashes, hash ∈ s.cleanups.map DeferredCleanup.hash ∨
      hash ∈ s.candidates.map EvictionCandidate.hash) :
  Locks s s'
  := ⟨fun hash hmem => (h.mem_locks hash hmem).imp id (hhashes hash), h.locks⟩

/-- A pass gets locks for broken entries, all of them if no call fails, and for complete ones. -/
theorem leads_runEvictionPassInner
    (maxBytes : ℕ) (s : Store) :
  Leads (runEvictionPassInner maxBytes) s
    (fun _ s' => Locks s s' ∧
      (s.Sound → s.cleanups.map DeferredCleanup.hash ⊆ s'.metaLocks))
    (fun _ s' => Locks s s' ∧ (s.Faulty ∨ s.HasBadName))
  := by
  apply Leads.seq (leads_scanForEviction s)
  · rintro o s₁ (⟨rfl, hquiet, hfault⟩ | ⟨scan, rfl, hcollected⟩)
    · apply leads_pure
      use @Store.Works.locked _ _ [] _ hquiet.works fun _ h => (List.not_mem_nil h).elim
      exact fun hsound => absurd ⟨_, hfault⟩ hsound.not_faulty
    · apply Leads.seq (leads_evictOverBudget maxBytes scan)
      · intro progress s₂ hworks
        apply leads_pure
        have hlocks := List.Subset.trans hcollected.works.locks hworks.locks
        refine ⟨⟨fun hash hmem => ?_, hlocks⟩, fun _ => ?_⟩
        · rcases hworks.mem_locks hash hmem with hmem | hmem
          · exact (hcollected.works.mem_locks hash hmem).imp id .inl
          · obtain ⟨c, hc, rfl⟩ := List.mem_map.mp hmem
            have hc' := (Text.sortBy_perm _).mem_iff.mp hc
            rw [hcollected.candidates] at hc'
            exact .inr (.inr (List.mem_map_of_mem hc'))
        · exact List.Subset.trans hcollected.locked hworks.locks
      · exact fun _ _ h => h
  · intro e s₁ hgivenUp
    exact ⟨hgivenUp.works.locked fun _ h => .inl h, hgivenUp.faulty⟩

/-! ### Rounds -/

/-- A round of the loop panics. -/
def Panics (maxBytes : ℕ) (s : Store) : Prop := ∃ e s', Fails (evictionRound maxBytes) s e s'

theorem panics_iff
    {maxBytes : ℕ} :
  Panics maxBytes s
    ↔ ∃ hash ∈ (exec (runEvictionPassInner maxBytes) s).2.metaLocks, ¬ Sliceable hash
  := by
  have hround : Leads (evictionRound maxBytes) s
      (fun _ _ => ∀ hash ∈ (exec (runEvictionPassInner maxBytes) s).2.metaLocks, Sliceable hash)
      (fun _ _ => ∃ hash ∈ (exec (runEvictionPassInner maxBytes) s).2.metaLocks,
        ¬ Sliceable hash) := by
    apply Leads.bind
    apply leads_modify
    exact leads_sweepStaleMetaLocks _
  constructor
  · rintro ⟨e, s', hfails⟩
    exact hround.fails e s' hfails
  · rintro ⟨hash, hmem, hnot⟩
    rcases hrun : exec (evictionRound maxBytes) s with ⟨e | u, s'⟩
    · exact ⟨e, s', hrun⟩
    · exact absurd (hround.returns u s' hrun hash hmem) hnot

/-- The locks after a pass, whether it is completed or given up. -/
theorem locks_exec
    (maxBytes : ℕ) (s : Store) :
  Locks s (exec (runEvictionPassInner maxBytes) s).2 ∧ (s.Sound → ¬ s.HasBadName →
    s.cleanups.map DeferredCleanup.hash ⊆ (exec (runEvictionPassInner maxBytes) s).2.metaLocks)
  := by
  have h := leads_runEvictionPassInner maxBytes s
  rcases hrun : exec (runEvictionPassInner maxBytes) s with ⟨e | u, s'⟩
  · obtain ⟨hlocks, hwhy⟩ := h.fails e s' hrun
    use hlocks
    intro hsound hgood
    exact (hwhy.elim hsound.not_faulty hgood).elim
  · obtain ⟨hlocks, hall⟩ := h.returns u s' hrun
    exact ⟨hlocks, fun hsound _ => hall hsound⟩

/-- The store with other calls that fail. -/
def Store.withFaults (s : Store) (faulty : ℕ → Bool) : Store := { s with faulty }

/-- Whichever calls fail, a round does not panic, exactly if the hashes of the locks can be cut and
those that the names of broken entries stand for, too. -/
theorem not_panics_iff
    (maxBytes : ℕ) (s : Store) (hnames : ∀ p ∈ s.files.keys, Text.validUtf8 p.name = true) :
  (∀ faulty, ¬ Panics maxBytes (s.withFaults faulty))
    ↔ (∀ hash ∈ s.metaLocks, Sliceable hash) ∧
      ∀ p cleanup, p ∈ s.files.keys → IsBroken s.files p cleanup → Sliceable cleanup.hash
  := by
  constructor
  · intro h
    have hgood : ¬ (s.withFaults fun _ => false).HasBadName := by
      rintro ⟨p, hp, hbad⟩
      rw [hnames p hp] at hbad
      cases hbad
    obtain ⟨hlocks, hall⟩ := locks_exec maxBytes (s.withFaults fun _ => false)
    have hcut := h fun _ => false
    simp only [panics_iff, not_exists, not_and, not_not] at hcut
    constructor
    · exact fun hash hmem => hcut hash (hlocks.kept hmem)
    · intro p cleanup hp hbroken
      apply hcut
      apply hall (fun _ => rfl) hgood
      exact List.mem_map_of_mem (Store.mem_cleanups.mpr ⟨p, hp, hbroken⟩)
  · rintro ⟨hregistered, hbroken⟩ faulty hpanics
    obtain ⟨hash, hmem, hnot⟩ := panics_iff.mp hpanics
    apply hnot
    rcases (locks_exec maxBytes (s.withFaults faulty)).1.mem hash hmem with hmem | hmem | hmem
    · exact hregistered hash hmem
    · obtain ⟨cleanup, hcleanup, rfl⟩ := List.mem_map.mp hmem
      obtain ⟨p, hp, hp'⟩ := Store.mem_cleanups.mp hcleanup
      exact hbroken p cleanup hp hp'
    · obtain ⟨c, hc, rfl⟩ := List.mem_map.mp hmem
      obtain ⟨p, hcomplete⟩ := Store.mem_candidates.mp hc
      obtain ⟨-, -, -, hhash, -⟩ := hcomplete
      exact hhash.sliceable

/-- A directory. -/
def shardAABB : ShardDir := ⟨ascii "aa", ascii "bb"⟩

/-- The only file is a body without metadata. Its name is not that of an entry. -/
def foreignBody : Store :=
  { files := ⟨[(⟨shardAABB, [0xE6, 0x97, 0xA5, 0xE6, 0x9C, 0xAC] ++ bodySuffix⟩, ⟨10, none⟩)],
      by decide⟩
    dirs := some [shardAABB]
    nodup_dirs := by decide
    dir_mem := by decide
    stats := ⟨0, 0, 0⟩
    metaLocks := []
    calls := 0
    faulty := fun _ => false }

theorem not_panics_foreignBody :
  (∀ p ∈ foreignBody.files.keys, Text.validUtf8 p.name = true) ∧
    ((∀ faulty, ¬ Panics 0 (foreignBody.withFaults faulty))
      ↔ (∀ hash ∈ foreignBody.metaLocks, Sliceable hash) ∧
        ∀ p cleanup, p ∈ foreignBody.files.keys → IsBroken foreignBody.files p cleanup →
          Sliceable cleanup.hash)
  := ⟨by decide, not_panics_iff 0 foreignBody (by decide)⟩

/-- The name of a single foreign file makes a round panic. -/
theorem panics_foreignBody :
  (∀ p ∈ foreignBody.files.keys, Text.validUtf8 p.name = true) ∧
    foreignBody.metaLocks = [] ∧ Panics 100 foreignBody
  := by
  refine ⟨by decide, rfl, .charBoundary, ?_⟩
  exact ⟨_, rfl⟩

end TinyS3Proxy.Shards
