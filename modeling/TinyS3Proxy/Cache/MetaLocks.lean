import TinyS3Proxy.Coop.Table
import Mathlib.Data.List.AList

/-!
# The table of metadata locks

The metadata lock of a hash is a mutex that is created when it is first asked for, and kept in
a table together with those of all other hashes. Whoever asks for it gets a reference to it,
waits for it and holds it for a while, and then drops the reference. From time to time the
table is swept, so that it does not grow without bound: a sweep takes a snapshot of the table,
looks for entries that nobody else refers to and whose metadata file does not exist, drops the
snapshot, and then removes those of them that nobody refers to at that moment.

The strong count of a mutex is the number of references to it: that of the table, those of
the handles, and those of the snapshots that are still around. The table itself is guarded by
a lock that is never held across a suspension, so that each operation on it is one step.

The main results are that there is one mutex for each hash at any time, whatever the sweeps do,
and that the table therefore amounts to a single lock for each hash, which is what the model of
the disk cache has.
-/

namespace TinyS3Proxy

open Coop

/-- A reference to the mutex of a hash, and whether the mutex is held by way of it. -/
structure LockHandle where
  hash : String
  mutex : ℕ
  locked : Bool

/-- How far a sweep has come. It has the snapshot until it has been through all of it, and
collects the hashes that it takes to be stale. -/
inductive LockSweep
  | scanning (entries todo : List (String × ℕ)) (stale : List String)
  | probing (entries : List (String × ℕ)) (hash : String) (todo : List (String × ℕ))
      (stale : List String)
  | scanned (stale : List String)

/-- The mutexes that a sweep refers to. -/
def LockSweep.refs : LockSweep → List ℕ
  | scanning entries _ _ => entries.map Prod.snd
  | probing entries _ _ _ => entries.map Prod.snd
  | scanned _ => []

/-- The table of metadata locks, with everything that refers to its mutexes. -/
structure MetaLocks where
  table : AList fun _ : String => ℕ
  nextMutex : ℕ
  /-- The mutexes that are locked. -/
  locked : ℕ → Bool
  handles : ℕ → Option LockHandle
  nextHandle : ℕ
  sweeps : ℕ → Option LockSweep
  nextSweep : ℕ

namespace MetaLocks

/-! ### Operations -/

/-- An empty table. -/
def new : MetaLocks where
  table := ∅
  nextMutex := 0
  locked _ := false
  handles _ := none
  nextHandle := 0
  sweeps _ := none
  nextSweep := 0

/-- The references to mutexes. -/
def refs (s : MetaLocks) : List ℕ :=
  s.table.entries.map Sigma.snd ++
    ((List.range s.nextHandle).filterMap fun i => (s.handles i).map LockHandle.mutex) ++
    (List.range s.nextSweep).flatMap fun j => ((s.sweeps j).map LockSweep.refs).getD []

/-- The number of references to a mutex. -/
def strongCount (s : MetaLocks) (m : ℕ) : ℕ := s.refs.count m

/-- A new handle on the mutex `m` of a hash. -/
def addHandle (s : MetaLocks) (hash : String) (m : ℕ) : MetaLocks :=
  { s with
    handles := Function.update s.handles s.nextHandle (some ⟨hash, m, false⟩)
    nextHandle := s.nextHandle + 1 }

/-- Get or create the mutex of a hash. -/
def metaLockForHash (s : MetaLocks) (hash : String) : MetaLocks :=
  match s.table.lookup hash with
  | some m => s.addHandle hash m
  | none =>
      { s with
        table := s.table.insert hash s.nextMutex
        nextMutex := s.nextMutex + 1 }.addHandle hash s.nextMutex

/-- Lock the mutex of the handle `i`. -/
def lock (s : MetaLocks) (i : ℕ) (x : LockHandle) : MetaLocks :=
  { s with
    locked := Function.update s.locked x.mutex true
    handles := Function.update s.handles i (some { x with locked := true }) }

/-- Unlock the mutex of the handle `i`, and keep the handle. -/
def unlock (s : MetaLocks) (i : ℕ) (x : LockHandle) : MetaLocks :=
  { s with
    locked := Function.update s.locked x.mutex false
    handles := Function.update s.handles i (some { x with locked := false }) }

/-- Drop the handle `i`. When it is that of an owned guard, this unlocks the mutex. -/
def dropHandle (s : MetaLocks) (i : ℕ) (x : LockHandle) : MetaLocks :=
  { s with
    locked := if x.locked then Function.update s.locked x.mutex false else s.locked
    handles := Function.update s.handles i none }

/-- The sweep `j` has come further. -/
def setSweep (s : MetaLocks) (j : ℕ) (w : Option LockSweep) : MetaLocks :=
  { s with sweeps := Function.update s.sweeps j w }

/-- Start a sweep, with a snapshot of the table. -/
def startSweep (s : MetaLocks) (entries : List (String × ℕ)) : MetaLocks :=
  { s.setSweep s.nextSweep (some (.scanning entries entries [])) with
    nextSweep := s.nextSweep + 1 }

/-- What a sweep does with the next entry of its snapshot: entries that others refer to are
passed over, malformed hashes are stale, and for all others the file system is asked. The
snapshot is dropped at its end. -/
def nextEntry (s : MetaLocks) (entries : List (String × ℕ)) :
    List (String × ℕ) → List String → LockSweep
  | [], stale => .scanned stale
  | (hash, m) :: todo, stale =>
      if 2 < s.strongCount m then .scanning entries todo stale
      else if hash.utf8ByteSize < 5 then .scanning entries todo (stale ++ [hash])
      else .probing entries hash todo stale

/-- Remove the entry of a stale hash, if nobody but the table refers to its mutex. -/
def removeStale (s : MetaLocks) (hash : String) : MetaLocks :=
  match s.table.lookup hash with
  | some m => if s.strongCount m = 1 then { s with table := s.table.erase hash } else s
  | none => s

/-! ### Runs -/

/-- One step of those who use the table: of a handle, of a sweep, or of one who asks for a
handle. -/
inductive Step (s : MetaLocks) : MetaLocks → Prop
  | metaLockForHash (hash : String) : Step s (s.metaLockForHash hash)
  | lock {i : ℕ} {x : LockHandle} (hx : s.handles i = some x) (hu : x.locked = false)
      (hfree : s.locked x.mutex = false) : Step s (s.lock i x)
  | unlock {i : ℕ} {x : LockHandle} (hx : s.handles i = some x) (hl : x.locked = true) :
      Step s (s.unlock i x)
  | dropHandle {i : ℕ} {x : LockHandle} (hx : s.handles i = some x) : Step s (s.dropHandle i x)
  /-- The snapshot of a sweep may be in any order. -/
  | startSweep {entries : List (String × ℕ)}
      (h : entries.Perm (s.table.entries.map fun e => (e.1, e.2))) : Step s (s.startSweep entries)
  | nextEntry {j : ℕ} {entries todo : List (String × ℕ)} {stale : List String}
      (hj : s.sweeps j = some (.scanning entries todo stale)) :
      Step s (s.setSweep j (some (s.nextEntry entries todo stale)))
  /-- The file system has told whether the metadata file exists. -/
  | probed {j : ℕ} {entries todo : List (String × ℕ)} {hash : String} {stale : List String}
      (hj : s.sweeps j = some (.probing entries hash todo stale)) (found : Bool) :
      Step s (s.setSweep j (some (.scanning entries todo
        (if found then stale else stale ++ [hash]))))
  /-- At its end, a sweep removes the stale entries under the lock of the table. -/
  | finishSweep {j : ℕ} {stale : List String} (hj : s.sweeps j = some (.scanned stale)) :
      Step s (stale.foldl removeStale (s.setSweep j none))
  /-- The task of a sweep may be dropped. -/
  | dropSweep {j : ℕ} {w : LockSweep} (hj : s.sweeps j = some w) : Step s (s.setSweep j none)

/-- The states that any interleaving can lead to. -/
def Reachable (s : MetaLocks) : Prop := Relation.ReflTransGen Step new s

/-! ### Handles refer to the mutex in the table -/

variable {s s' : MetaLocks} {i m : ℕ} {x : LockHandle} {hash : String}

/-- A mutex in the table that has a strong count of one is that of no handle. -/
theorem not_handle_of_strongCount
    (ht : s.table.lookup hash = some m) (hc : s.strongCount m = 1) (hi : i < s.nextHandle)
    (hx : s.handles i = some x) :
  x.mutex ≠ m
  := by
  rintro rfl
  have htable : x.mutex ∈ s.table.entries.map Sigma.snd :=
    List.mem_map.mpr ⟨⟨hash, x.mutex⟩, AList.mem_lookup_iff.mp ht, rfl⟩
  have hhandle : x.mutex ∈ (List.range s.nextHandle).filterMap
      fun i => (s.handles i).map LockHandle.mutex := by
    apply List.mem_filterMap.mpr
    exact ⟨i, List.mem_range.mpr hi, by rw [hx]; rfl⟩
  have h₁ := List.count_pos_iff.mpr htable
  have h₂ := List.count_pos_iff.mpr hhandle
  rw [strongCount, refs, List.count_append, List.count_append] at hc
  omega

/-- Every handle refers to the mutex that the table has for its hash, a handle that holds its
mutex has it locked, and no two handles hold one mutex. -/
structure Linked (s : MetaLocks) : Prop where
  linked : ∀ i x, s.handles i = some x → s.table.lookup x.hash = some x.mutex
  numbered : ∀ i x, s.handles i = some x → i < s.nextHandle
  locked : ∀ i x, s.handles i = some x → x.locked = true → s.locked x.mutex = true
  alone : ∀ i j x y, s.handles i = some x → s.handles j = some y → x.locked = true →
    y.locked = true → x.mutex = y.mutex → i = j

theorem linked_new :
  new.Linked
  where
  linked _ _ h := by cases h
  numbered _ _ h := by cases h
  locked _ _ h := by cases h
  alone _ _ _ _ h := by cases h

/-- A new handle on the mutex in the table is linked. -/
theorem Linked.addHandle
    (h : s.Linked) (ht : s.table.lookup hash = some m) :
  (s.addHandle hash m).Linked
  := by
  refine ⟨?_, ?_, ?_, ?_⟩
  · intro i x hx
    obtain ⟨rfl, rfl⟩ | ⟨-, hx⟩ := update_some_iff.mp hx
    · exact ht
    · exact h.linked i x hx
  · intro i x hx
    obtain ⟨rfl, rfl⟩ | ⟨-, hx⟩ := update_some_iff.mp hx
    · exact Nat.lt_succ_self _
    · exact (h.numbered i x hx).trans (Nat.lt_succ_self _)
  · intro i x hx hl
    obtain ⟨rfl, rfl⟩ | ⟨-, hx⟩ := update_some_iff.mp hx
    · cases hl
    · exact h.locked i x hx hl
  · intro i j x y hx hy hxl hyl
    obtain ⟨rfl, rfl⟩ | ⟨-, hx⟩ := update_some_iff.mp hx
    · cases hxl
    · obtain ⟨rfl, rfl⟩ | ⟨-, hy⟩ := update_some_iff.mp hy
      · cases hyl
      · exact h.alone i j x y hx hy hxl hyl

theorem Linked.metaLockForHash
    (h : s.Linked) (hash : String) :
  (s.metaLockForHash hash).Linked
  := by
  unfold MetaLocks.metaLockForHash
  split
  next m ht => exact h.addHandle ht
  next ht =>
    apply Linked.addHandle _ (AList.lookup_insert s.table)
    refine ⟨?_, h.numbered, h.locked, h.alone⟩
    intro i x hx
    have hx' := h.linked i x hx
    have hne : x.hash ≠ hash := by
      rintro rfl
      rw [ht] at hx'
      cases hx'
    exact (AList.lookup_insert_ne hne).trans hx'

theorem Linked.lock
    (h : s.Linked) (hx : s.handles i = some x) (hfree : s.locked x.mutex = false) :
  (s.lock i x).Linked
  := by
  have hnone : ∀ j y, s.handles j = some y → y.locked = true → y.mutex ≠ x.mutex := by
    intro j y hy hl he
    have hlocked := h.locked j y hy hl
    rw [he, hfree] at hlocked
    cases hlocked
  refine ⟨?_, ?_, ?_, ?_⟩
  · intro j y hy
    obtain ⟨rfl, rfl⟩ | ⟨-, hy⟩ := update_some_iff.mp hy
    · exact h.linked j x hx
    · exact h.linked j y hy
  · intro j y hy
    obtain ⟨rfl, rfl⟩ | ⟨-, hy⟩ := update_some_iff.mp hy
    · exact h.numbered j x hx
    · exact h.numbered j y hy
  · intro j y hy hl
    obtain ⟨rfl, rfl⟩ | ⟨-, hy⟩ := update_some_iff.mp hy
    · exact Function.update_self _ _ _
    · exact (Function.update_of_ne (hnone j y hy hl) _ _).trans (h.locked j y hy hl)
  · intro j₁ j₂ y₁ y₂ hy₁ hy₂ hl₁ hl₂ he
    obtain ⟨rfl, rfl⟩ | ⟨-, hy₁'⟩ := update_some_iff.mp hy₁
    · obtain ⟨rfl, rfl⟩ | ⟨-, hy₂'⟩ := update_some_iff.mp hy₂
      · rfl
      · exact absurd he.symm (hnone j₂ y₂ hy₂' hl₂)
    · obtain ⟨rfl, rfl⟩ | ⟨-, hy₂'⟩ := update_some_iff.mp hy₂
      · exact absurd he (hnone j₁ y₁ hy₁' hl₁)
      · exact h.alone j₁ j₂ y₁ y₂ hy₁' hy₂' hl₁ hl₂ he

/-- Handles stay linked when one of them, which may hold its mutex, lets go of it or is
dropped. -/
theorem Linked.release
    (h : s.Linked) (hx : s.handles i = some x) (htable : s'.table = s.table)
    (hnext : s'.nextHandle = s.nextHandle)
    (hlocked : ∀ m, s'.locked m = s.locked m ∨ x.locked = true ∧ m = x.mutex)
    (hhandles : ∀ j y, s'.handles j = some y →
      j = i ∧ y = { x with locked := false } ∨ j ≠ i ∧ s.handles j = some y) :
  s'.Linked
  := by
  refine ⟨?_, ?_, ?_, ?_⟩
  · intro j y hy
    rw [htable]
    obtain ⟨rfl, rfl⟩ | ⟨-, hy⟩ := hhandles j y hy
    · exact h.linked j x hx
    · exact h.linked j y hy
  · intro j y hy
    rw [hnext]
    obtain ⟨rfl, rfl⟩ | ⟨-, hy⟩ := hhandles j y hy
    · exact h.numbered j x hx
    · exact h.numbered j y hy
  · intro j y hy hl
    obtain ⟨rfl, rfl⟩ | ⟨hne, hy⟩ := hhandles j y hy
    · cases hl
    · obtain hsame | ⟨hxl, he⟩ := hlocked y.mutex
      · rw [hsame]
        exact h.locked j y hy hl
      · exact absurd (h.alone j i y x hy hx hl hxl he) hne
  · intro j₁ j₂ y₁ y₂ hy₁ hy₂ hl₁ hl₂ he
    obtain ⟨rfl, rfl⟩ | ⟨-, hy₁⟩ := hhandles j₁ y₁ hy₁
    · cases hl₁
    · obtain ⟨rfl, rfl⟩ | ⟨-, hy₂⟩ := hhandles j₂ y₂ hy₂
      · cases hl₂
      · exact h.alone j₁ j₂ y₁ y₂ hy₁ hy₂ hl₁ hl₂ he

/-- What happens to a mutex other than the given one. -/
theorem update_locked
    (f : ℕ → Bool) (m : ℕ) (b : Bool) (k : ℕ) :
  Function.update f m b k = f k ∨ k = m
  := by
  by_cases hk : k = m
  · exact Or.inr hk
  · exact Or.inl (Function.update_of_ne hk _ _)

theorem Linked.unlock
    (h : s.Linked) (hx : s.handles i = some x) (hl : x.locked = true) :
  (s.unlock i x).Linked
  := by
  refine h.release hx rfl rfl ?_ ?_
  · intro m
    obtain hsame | rfl := update_locked s.locked x.mutex false m
    · exact Or.inl hsame
    · exact Or.inr ⟨hl, rfl⟩
  · intro j y hy
    obtain ⟨rfl, rfl⟩ | hy := update_some_iff.mp hy
    · exact Or.inl ⟨rfl, rfl⟩
    · exact Or.inr hy

theorem Linked.dropHandle
    (h : s.Linked) (hx : s.handles i = some x) :
  (s.dropHandle i x).Linked
  := by
  refine h.release hx rfl rfl ?_ ?_
  · intro m
    unfold MetaLocks.dropHandle
    cases hl : x.locked with
    | false => exact Or.inl rfl
    | true =>
        obtain hsame | rfl := update_locked s.locked x.mutex false m
        · exact Or.inl hsame
        · exact Or.inr ⟨rfl, rfl⟩
  · intro j y hy
    exact Or.inr (update_none_iff.mp hy)

/-- An entry that a sweep removes is that of no handle. -/
theorem Linked.removeStale
    (h : s.Linked) (hash : String) :
  (s.removeStale hash).Linked
  := by
  unfold MetaLocks.removeStale
  split
  next m ht =>
    split
    next hc =>
      refine ⟨?_, h.numbered, h.locked, h.alone⟩
      intro i x hx
      have hx' := h.linked i x hx
      have hne : x.hash ≠ hash := by
        rintro rfl
        rw [ht] at hx'
        exact not_handle_of_strongCount ht hc (h.numbered i x hx) hx (Option.some.inj hx').symm
      exact (AList.lookup_erase_ne hne).trans hx'
    next => exact h
  next => exact h

theorem Linked.foldl_removeStale
    (h : s.Linked) (stale : List String) :
  (stale.foldl MetaLocks.removeStale s).Linked
  := by
  induction stale generalizing s with
  | nil => exact h
  | cons hash stale ih => exact ih (h.removeStale hash)

/-- Sweeps do not touch handles until they remove entries. -/
theorem Linked.setSweep
    (h : s.Linked) (j : ℕ) (w : Option LockSweep) :
  (s.setSweep j w).Linked
  := ⟨h.linked, h.numbered, h.locked, h.alone⟩

theorem Linked.step
    (h : s.Linked) (hs : Step s s') :
  s'.Linked
  := by
  cases hs with
  | metaLockForHash hash => exact h.metaLockForHash hash
  | lock hx _ hfree => exact h.lock hx hfree
  | unlock hx hl => exact h.unlock hx hl
  | dropHandle hx => exact h.dropHandle hx
  | startSweep => exact ⟨h.linked, h.numbered, h.locked, h.alone⟩
  | nextEntry => exact h.setSweep _ _
  | probed => exact h.setSweep _ _
  | finishSweep => exact (h.setSweep _ _).foldl_removeStale _
  | dropSweep => exact h.setSweep _ _

theorem Reachable.linked
    (h : Reachable s) :
  s.Linked
  := by
  induction h with
  | refl => exact linked_new
  | tail _ hs ih => exact ih.step hs

/-- The metadata lock of a hash stays a single lock under sweeping: whatever the interleaving,
all handles for a hash, whether they hold the mutex, wait for it or have not yet come to that,
refer to the mutex that the table has for the hash, and no two of them hold it. -/
theorem single_lock
    (h : Reachable s) :
  (∀ i x, s.handles i = some x → s.table.lookup x.hash = some x.mutex) ∧
    (∀ i j x y, s.handles i = some x → s.handles j = some y → x.hash = y.hash →
      x.mutex = y.mutex) ∧
    ∀ i j x y, s.handles i = some x → s.handles j = some y → x.hash = y.hash →
      x.locked = true → y.locked = true → i = j
  := by
  have hlinked := h.linked
  have hmutex : ∀ i j x y, s.handles i = some x → s.handles j = some y → x.hash = y.hash →
      x.mutex = y.mutex := by
    intro i j x y hx hy hh
    have hx' := hlinked.linked i x hx
    rw [hh, hlinked.linked j y hy] at hx'
    exact (Option.some.inj hx').symm
  refine ⟨hlinked.linked, hmutex, ?_⟩
  intro i j x y hx hy hh hxl hyl
  exact hlinked.alone i j x y hx hy hxl hyl (hmutex i j x y hx hy hh)

theorem single_lock_waiting :
  ∃ (s : MetaLocks) (i j : ℕ) (x y : LockHandle), Reachable s ∧ s.handles i = some x ∧
    s.handles j = some y ∧ i ≠ j ∧ x.locked = true ∧ x.mutex = y.mutex
  := by
  let s₁ := new.metaLockForHash "hash"
  let s₂ := s₁.lock 0 ⟨"hash", 0, false⟩
  have h₁ : Step new s₁ := Step.metaLockForHash "hash"
  have h₂ : Step s₁ s₂ := Step.lock rfl rfl rfl
  have h₃ : Step s₂ (s₂.metaLockForHash "hash") := Step.metaLockForHash "hash"
  have hr : Reachable (s₂.metaLockForHash "hash") :=
    ((Relation.ReflTransGen.single h₁).tail h₂).tail h₃
  exact ⟨_, 0, 1, ⟨"hash", 0, true⟩, ⟨"hash", 0, false⟩, hr, rfl, rfl, by decide, rfl,
    (single_lock hr).2.1 0 1 _ _ rfl rfl rfl⟩

/-! ### A lock for each hash

What the disk cache relies on: for each hash there is at most one handle that holds its lock,
and the holder only changes when a handle takes the free lock or its holder releases it. -/

/-- The holders of the locks of all hashes. -/
def Holders (s : MetaLocks) (owner : String → Option ℕ) : Prop :=
  ∀ hash i, owner hash = some i ↔ ∃ x, s.handles i = some x ∧ x.hash = hash ∧ x.locked = true

/-- What may happen to the locks of all hashes: nothing, a free lock is taken, or a lock is
released by its holder. -/
def LockStep (owner owner' : String → Option ℕ) : Prop :=
  owner' = owner ∨
    (∃ hash i, owner hash = none ∧ owner' = Function.update owner hash (some i)) ∨
    ∃ hash i, owner hash = some i ∧ owner' = Function.update owner hash none

/-- Holders stay the same when handles that hold their mutex stay the same. -/
theorem Holders.congr
    {owner : String → Option ℕ} (ho : s.Holders owner)
    (hh : ∀ i x, x.locked = true → (s'.handles i = some x ↔ s.handles i = some x)) :
  s'.Holders owner
  := by
  intro hash i
  rw [ho hash i]
  constructor
  · rintro ⟨x, hx, hrest, hl⟩
    exact ⟨x, (hh i x hl).mpr hx, hrest, hl⟩
  · rintro ⟨x, hx, hrest, hl⟩
    exact ⟨x, (hh i x hl).mp hx, hrest, hl⟩

theorem handles_foldl_removeStale
    (stale : List String) (s : MetaLocks) :
  (stale.foldl removeStale s).handles = s.handles
  := by
  induction stale generalizing s with
  | nil => rfl
  | cons hash stale ih =>
      rw [List.foldl_cons, ih, removeStale]
      split
      · split
        · rfl
        · rfl
      · rfl

/-- The release of a lock by its holder. -/
theorem Holders.release
    {owner : String → Option ℕ} (h : s.Linked) (ho : s.Holders owner)
    (hx : s.handles i = some x) (hl : x.locked = true)
    (hh : ∀ j y, y.locked = true → (s'.handles j = some y ↔ j ≠ i ∧ s.handles j = some y)) :
  ∃ owner', s'.Holders owner' ∧ LockStep owner owner'
  := by
  refine ⟨Function.update owner x.hash none, ?_, Or.inr (Or.inr ⟨x.hash, i, ?_, rfl⟩)⟩
  · intro hash j
    rw [update_none_iff, ho hash j]
    constructor
    · rintro ⟨hne, y, hy, rfl, hyl⟩
      refine ⟨y, (hh j y hyl).mpr ⟨?_, hy⟩, rfl, hyl⟩
      rintro rfl
      obtain rfl := Option.some.inj (hx.symm.trans hy)
      exact hne rfl
    · rintro ⟨y, hy, rfl, hyl⟩
      obtain ⟨hne, hy⟩ := (hh j y hyl).mp hy
      refine ⟨?_, y, hy, rfl, hyl⟩
      intro he
      have hm := (h.linked j y hy).symm.trans (he ▸ h.linked i x hx)
      exact hne (h.alone j i y x hy hx hyl hl (Option.some.inj hm))
  · exact (ho x.hash i).mpr ⟨x, hx, rfl, hl⟩

/-- The table of metadata locks refines a lock for each hash. -/
theorem refines_locks
    {owner : String → Option ℕ} (h : s.Linked) (ho : s.Holders owner) (hs : Step s s') :
  ∃ owner', s'.Holders owner' ∧ LockStep owner owner'
  := by
  cases hs with
  | metaLockForHash hash =>
      refine ⟨owner, ho.congr ?_, Or.inl rfl⟩
      intro i x hl
      have hadd : ∀ (s : MetaLocks) m, (s.addHandle hash m).handles i = some x ↔
          i ≠ s.nextHandle ∧ s.handles i = some x := by
        intro s m
        rw [addHandle, update_some_iff]
        constructor
        · rintro (⟨rfl, rfl⟩ | hx)
          · cases hl
          · exact hx
        · exact Or.inr
      have hne : s.handles i = some x → i ≠ s.nextHandle := fun hx => (h.numbered i x hx).ne
      unfold metaLockForHash
      split
      · rw [hadd]
        exact ⟨And.right, fun hx => ⟨hne hx, hx⟩⟩
      · rw [hadd]
        exact ⟨And.right, fun hx => ⟨hne hx, hx⟩⟩
  | @lock i x hx hu hfree =>
      refine ⟨Function.update owner x.hash (some i), ?_, Or.inr (Or.inl ⟨x.hash, i, ?_, rfl⟩)⟩
      · intro hash j
        rw [update_some_iff, ho hash j]
        constructor
        · rintro (⟨rfl, rfl⟩ | ⟨hne, y, hy, rfl, hyl⟩)
          · exact ⟨_, Function.update_self _ _ _, rfl, rfl⟩
          · refine ⟨y, update_some_iff.mpr (Or.inr ⟨?_, hy⟩), rfl, hyl⟩
            rintro rfl
            obtain rfl := Option.some.inj (hx.symm.trans hy)
            exact hne rfl
        · rintro ⟨y, hy, rfl, hyl⟩
          obtain ⟨rfl, rfl⟩ | ⟨hne, hy⟩ := update_some_iff.mp hy
          · exact Or.inl ⟨rfl, rfl⟩
          · refine Or.inr ⟨?_, y, hy, rfl, hyl⟩
            intro he
            have hm := (h.linked j y hy).symm.trans (he ▸ h.linked i x hx)
            have hlocked := h.locked j y hy hyl
            rw [Option.some.inj hm, hfree] at hlocked
            cases hlocked
      · cases hown : owner x.hash with
        | none => rfl
        | some j =>
            obtain ⟨y, hy, hh, hyl⟩ := (ho x.hash j).mp hown
            have hm := (h.linked j y hy).symm.trans (hh ▸ h.linked i x hx)
            have hlocked := h.locked j y hy hyl
            rw [Option.some.inj hm, hfree] at hlocked
            cases hlocked
  | @unlock i x hx hl =>
      apply ho.release h hx hl
      intro j y hyl
      rw [unlock, update_some_iff]
      constructor
      · rintro (⟨rfl, rfl⟩ | hy)
        · cases hyl
        · exact hy
      · exact Or.inr
  | @dropHandle i x hx =>
      cases hl : x.locked with
      | true =>
          apply ho.release h hx hl
          intro j y _
          exact update_none_iff
      | false =>
          refine ⟨owner, ho.congr ?_, Or.inl rfl⟩
          intro j y hyl
          rw [dropHandle, update_none_iff]
          refine ⟨And.right, fun hy => ⟨?_, hy⟩⟩
          rintro rfl
          obtain rfl := Option.some.inj (hx.symm.trans hy)
          rw [hl] at hyl
          cases hyl
  | startSweep | nextEntry | probed | dropSweep =>
      exact ⟨owner, ho.congr fun _ _ _ => Iff.rfl, Or.inl rfl⟩
  | finishSweep =>
      refine ⟨owner, ho.congr ?_, Or.inl rfl⟩
      intro i x _
      rw [handles_foldl_removeStale]
      exact Iff.rfl

end MetaLocks

end TinyS3Proxy
