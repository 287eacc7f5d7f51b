import TinyS3Proxy.Cache.State

/-!
# The primitive operations of the disk cache

Every operation of the cache is made of the file-system calls, the lock operations and
the accesses to shared memory in this module. An operation that awaits is a suspension
point; the others run at once.

A file-system call fails whenever the scheduler chooses so, by a choice other than
zero, and then has no effect on the files, except that a failed write may leave a file
with part of the contents behind.
-/

namespace TinyS3Proxy

open Coop

namespace DiskCache

variable {E : Type}

/-! ### Bookkeeping -/

/-- Some file-system call has failed. -/
def fault (s : DiskCache E) : DiskCache E := { s with faulted := true }

/-- Give the name `p` to the inode `i`, or remove the name. -/
def link (s : DiskCache E) (p : Path) (i : Option ℕ) : DiskCache E :=
  { s with files := Function.update s.files p i }

/-- Leave the entry with the files it has. -/
def leave (s : DiskCache E) (h : String) : DiskCache E :=
  { s with slot := Function.update s.slot h (s.view h) }

/-- Remove the name `p`. The entry it belongs to is left without the file. -/
def unlink (s : DiskCache E) (p : Path) : DiskCache E :=
  match p with
  | .body h =>
      { s.link p none with slot := Function.update s.slot h { s.slot h with body := none } }
  | .metaJson h =>
      { s.link p none with slot := Function.update s.slot h { s.slot h with info := none } }
  | _ => s.link p none

/-- Create a file with the given contents. -/
def create (s : DiskCache E) (p : Path) (d : File) : DiskCache E :=
  { s.link p (some s.nextIno) with
    data := Function.update s.data s.nextIno d
    nextIno := s.nextIno + 1 }

/-- Record that the task `t` has written the metadata file of the entry in place. -/
def recordWrite (t : ℕ) (h : String) (kind : WriteKind) (s s' : DiskCache E) : DiskCache E :=
  match s'.parseAt (s'.files (.metaJson h)) with
  | some (fill, new) =>
      { s'.leave h with
        writes := s'.writes ++ [⟨t, h, kind, fill, s.parseAt (s.slot h).info, new⟩] }
  | none => s'.leave h

/-- Set whether the hash is poisoned in memory. -/
def setPoisoned (s : DiskCache E) (h : String) (b : Bool) : DiskCache E :=
  { s with
    poisonedHashes := Function.update s.poisonedHashes h b
    slot := Function.update s.slot h { s.slot h with poisoned := b } }

/-- Replace the tracking record `e`. -/
def setEntry (s : DiskCache E) (e : ℕ) (x : FillEntry) : DiskCache E :=
  { s with entries := Function.update s.entries e x }

/-- Replace what is remembered about the fill `f`. -/
def setFill (s : DiskCache E) (f : ℕ) (x : Fill E) : DiskCache E :=
  { s with fills := Function.update s.fills f (some x) }

/-! ### File-system calls -/

/-- A file-system call that does `f` unless it fails. -/
def fsCall {β : Type} (f : DiskCache E → Except IoError β × DiskCache E) :
    Async (DiskCache E) (Except IoError β) :=
  .suspend fun _ c s => some (if c = 0 then f s else (.error .other, s.fault))

/-- Read the contents of a file. -/
def readFile (p : Path) : Async (DiskCache E) (Except IoError File) :=
  fsCall fun s =>
    match s.files p with
    | some i => (.ok (s.data i), s)
    | none => (.error .notFound, s)

/-- Ask whether a file exists. -/
def tryExists (p : Path) : Async (DiskCache E) (Except IoError Bool) :=
  fsCall fun s => (.ok (s.files p).isSome, s)

/-- Ask for the attributes of a file, which tells whether it exists. -/
def fileMetadata (p : Path) : Async (DiskCache E) (Except IoError Unit) :=
  fsCall fun s =>
    match s.files p with
    | some _ => (.ok (), s)
    | none => (.error .notFound, s)

/-- Open a file, which gives a handle on its inode. -/
def openFile (p : Path) : Async (DiskCache E) (Except IoError ℕ) :=
  fsCall fun s =>
    match s.files p with
    | some i => (.ok i, s)
    | none => (.error .notFound, s)

/-- A call that only succeeds or fails: `fsync`, the creation of directories, the opening
of a directory. -/
def fsEffect : Async (DiskCache E) (Except IoError Unit) :=
  fsCall fun s => (.ok (), s)

/-- Remove a file. -/
def removeFile (p : Path) : Async (DiskCache E) (Except IoError Unit) :=
  fsCall fun s =>
    match s.files p with
    | some _ => (.ok (), s.unlink p)
    | none => (.error .notFound, s)

/-- Remove a file that a probe takes for a leftover. -/
def cleanFile (p : Path) : Async (DiskCache E) (Except IoError Unit) :=
  fsCall fun s =>
    match s.files p with
    | some i => (.ok (), { s.unlink p with cleaned := s.cleaned ++ [i] })
    | none => (.error .notFound, s)

/-- Rename a file. What is recorded about it is a function of the states before and
after. -/
def rename (src dst : Path) (note : DiskCache E → DiskCache E → DiskCache E) :
    Async (DiskCache E) (Except IoError Unit) :=
  fsCall fun s =>
    match s.files src with
    | some i => (.ok (), note s ((s.link src none).link dst (some i)))
    | none => (.error .notFound, s)

/-- Rename a file, with nothing to be recorded. -/
def renameFile (src dst : Path) : Async (DiskCache E) (Except IoError Unit) :=
  rename src dst fun _ s => s

/-- Write a new file. A failed write may leave a file with part of the contents. -/
def writeFileSecure (p : Path) (d : File) : Async (DiskCache E) (Except IoError Unit) :=
  .suspend fun _ c s => some (
    match s.files p with
    | some _ => (.error .alreadyExists, s)
    | none =>
        if c = 0 then (.ok (), s.create p d)
        else if c = 1 then (.error .other, s.fault)
        else (.error .other, (s.create p (.raw [])).fault))

/-- Remove temporary files, whatever comes of it. -/
def discard (ps : List Path) : Async (DiskCache E) Unit :=
  .forEach ps fun p => do
    let _ ← removeFile p

/-! ### Locks -/

/-- Acquire the metadata lock of a hash. -/
def lockMeta (h : String) : Async (DiskCache E) Unit :=
  .suspend fun t _ s =>
    if s.metaLocks h = none then
      some ((), { s with metaLocks := Function.update s.metaLocks h (some t) })
    else none

/-- Release the metadata lock of a hash, leaving the entry with the files it has. -/
def unlockMeta (h : String) : Async (DiskCache E) Unit :=
  .modifies fun _ s =>
    { s.leave h with metaLocks := Function.update s.metaLocks h none }

/-- Run code under the metadata lock of a hash. -/
def withMetaLock {α : Type} (h : String) (p : Async (DiskCache E) α) :
    Async (DiskCache E) α := do
  lockMeta h
  let a ← p
  unlockMeta h
  return a

/-- Acquire the commit lock of a tracking record. -/
def lockCommit (e : ℕ) : Async (DiskCache E) Unit :=
  .suspend fun t _ s =>
    if (s.entries e).commitLock = none then
      some ((), s.setEntry e { s.entries e with commitLock := some t })
    else none

/-- Release the commit lock of a tracking record. -/
def unlockCommit (e : ℕ) : Async (DiskCache E) Unit :=
  .modifies fun _ s => s.setEntry e { s.entries e with commitLock := none }

/-- Run code under the commit lock of a tracking record, when there is one. -/
def withCommitLock {α : Type} (e : Option ℕ) (p : Async (DiskCache E) α) :
    Async (DiskCache E) α :=
  match e with
  | none => p
  | some e => do
      lockCommit e
      let a ← p
      unlockCommit e
      return a

/-- Acquire the lock under which the fill id counter is persisted. -/
def lockPersist : Async (DiskCache E) Unit :=
  .suspend fun t _ s =>
    if s.fillIdPersistLock = none then some ((), { s with fillIdPersistLock := some t })
    else none

/-- Release the lock under which the fill id counter is persisted. -/
def unlockPersist : Async (DiskCache E) Unit :=
  .modifies fun _ s => { s with fillIdPersistLock := none }

/-! ### The fills in progress

The accesses to the table of fills wait for its lock, which is only ever held for one
access; so each access is a suspension point and is always possible. -/

/-- Look up the tracking record of a key. -/
def activeFill (key : CacheKey) : Async (DiskCache E) (Option ℕ) :=
  .suspend fun _ _ s => some (s.activeFills key, s)

/-- Read the generation of a key, which is zero when no fill of it is in progress. -/
def currentGeneration (key : CacheKey) : Async (DiskCache E) UInt64 :=
  .suspend fun _ _ s =>
    some (((s.activeFills key).map fun e => (s.entries e).generation).getD 0, s)

/-- Some fill in progress at the record has seen all its generations go by. -/
def wraps (s : DiskCache E) (e : ℕ) : Bool :=
  decide (∃ f ∈ (s.entries e).live, ∃ r ∈ s.fills f, r.bumps₀ + 2 ^ 64 ≤ (s.entries e).bumps + 1)

/-- The tracking record `e` with its generation bumped. -/
def bumped (s : DiskCache E) (e : ℕ) : DiskCache E :=
  { s.setEntry e { s.entries e with bumps := (s.entries e).bumps + 1 } with
    wrapped := s.wrapped || s.wraps e }

/-- Bump the generation of a tracking record. -/
def bump (e : ℕ) : Async (DiskCache E) Unit := .modifies fun _ s => s.bumped e

/-- Bump the generation of the tracking record, when there is one. -/
def bumpAny (e : Option ℕ) : Async (DiskCache E) Unit :=
  match e with
  | none => pure ()
  | some e => bump e

/-- Register a fill at the tracking record `e`. -/
def register (s : DiskCache E) (t : ℕ) (key : CacheKey) (e : ℕ) : DiskCache E :=
  let x := s.entries e
  { (s.setEntry e { x with
      refcount := x.refcount + 1
      live := insert s.nextFill x.live }).setFill s.nextFill
        ⟨key, e, x.bumps, s.env, some t, false, none, 0⟩ with
    nextFill := s.nextFill + 1 }

/-- The tracking record of a key, created when no fill of the key is in progress. -/
def orInsert (s : DiskCache E) (key : CacheKey) : ℕ × DiskCache E :=
  match s.activeFills key with
  | some e => (e, s)
  | none =>
      (s.nextEntry,
        { s.setEntry s.nextEntry ⟨0, 0, none, ∅⟩ with
          activeFills := Function.update s.activeFills key (some s.nextEntry)
          nextEntry := s.nextEntry + 1 })

/-- Begin a fill: register it and capture the generation. -/
def beginFill (key : CacheKey) : Async (DiskCache E) FillGuard :=
  .suspend fun t _ s =>
    let (e, s₁) := s.orInsert key
    some (⟨key, (s₁.entries e).generation, s.nextFill⟩, s₁.register t key e)

/-- Note that the fill is over. -/
def retire (s : DiskCache E) (f : ℕ) : DiskCache E :=
  match s.fills f with
  | none => s
  | some r =>
      (s.setEntry r.entry
        { s.entries r.entry with live := (s.entries r.entry).live.erase f }).setFill f
          { r with finished := true, owner := none }

/-- Drop the reference of a fill to the tracking record of its key, and the record with
the last reference. -/
def release (s : DiskCache E) (key : CacheKey) (f : ℕ) : DiskCache E :=
  match s.activeFills key with
  | none => s.retire f
  | some e =>
      let x := s.entries e
      let s₁ := (s.setEntry e { x with refcount := x.refcount - 1 }).retire f
      if x.refcount ≤ 1 then
        { s₁ with activeFills := Function.update s₁.activeFills key none }
      else s₁

/-- Finish a fill. -/
def finishFill (guard : FillGuard) : Async (DiskCache E) Unit :=
  .suspend fun _ _ s => some ((), s.release guard.key guard.fill)

/-! ### Counters -/

/-- A number for the temporary files of one operation. -/
def nextTmp : Async (DiskCache E) ℕ :=
  .act fun _ s => (s.tmpCounter, { s with tmpCounter := s.tmpCounter + 1 })

/-- The task that runs the code. -/
def currentTask : Async (DiskCache E) ℕ :=
  .act fun t s => (t, s)

/-- Remember the fill id that the fill `f` has been given. -/
def reserve (s : DiskCache E) (f : ℕ) (id : FillId) : DiskCache E :=
  match s.fills f with
  | none => s
  | some r => s.setFill f { r with fillId := some id, reservedAt := s.writes.length }

/-- The next fill id has been given to the fill `f`. -/
def taken (s : DiskCache E) (f : ℕ) : DiskCache E :=
  { s.reserve f s.nextFillId with nextFillId := s.nextFillId + 1 }

/-- Take the next fill id for the fill `f`, unless there is none left. -/
def takeFillId (f : ℕ) : Async (DiskCache E) (Option FillId) :=
  .act fun _ s =>
    if s.nextFillId = UInt64.ofNat (2 ^ 64 - 1) then (none, s)
    else (some s.nextFillId, s.taken f)

/-! ### The poison fence in memory -/

/-- Ask whether the hash is poisoned in memory. -/
def isPoisonedInMemory (h : String) : Async (DiskCache E) Bool :=
  .reads fun s => s.poisonedHashes h

/-- Poison the hash in memory. -/
def markPoisonedInMemory (h : String) : Async (DiskCache E) Unit :=
  .modifies fun _ s => s.setPoisoned h true

/-- Clear the poison of the hash in memory. -/
def clearPoisonedInMemory (h : String) : Async (DiskCache E) Unit :=
  .modifies fun _ s => s.setPoisoned h false

end DiskCache

end TinyS3Proxy
