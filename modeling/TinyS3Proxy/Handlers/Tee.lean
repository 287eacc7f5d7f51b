import TinyS3Proxy.Cache.Calls
import TinyS3Proxy.Text.Bytes

/-!
# The tee

A body that is fetched from the backend is written to a temporary file and is sent to the client at
the same time, by a task of its own (`spawn_cache_tee` of `handlers/get.rs`). The task has been given
the guard of a fill, which it has to commit or to abort, and the handle of a flight, which it has to
complete; and it has to leave no temporary file behind.

What the task meets on its way is given as a list of turns, one for each chunk that it waits for.
-/

namespace TinyS3Proxy

open Text (Bytes)

/-! ### What the task meets -/

/-- What comes of waiting for the next chunk. -/
inductive Yield
  | chunk (bytes : Bytes)
  | failed
  | ended
  | timedOut
deriving DecidableEq

/-- What comes of sending a message to the client. -/
inductive Delivery
  | sent
  | gone
  | timedOut
deriving DecidableEq

/-- One turn of the task: what it is yielded, whether that can be written, and what comes of sending
it to the client. -/
structure Turn where
  yields : Yield
  writes : Bool
  delivery : Delivery
deriving DecidableEq

/-- Which calls succeed: the creation of the temporary file, its synchronization, and the commit. -/
structure TeeFaults where
  opens : Bool
  syncs : Bool
  commits : Bool
deriving DecidableEq

/-- What the task has been given. -/
structure TeeTask where
  fillGuard : Option FillGuard
  info : CacheMeta

/-! ### What the task does -/

/-- What the task does besides writing to its file and sending to its client. -/
inductive TeeAction
  | commitFill (guard : FillGuard) (body : Bytes) (info : CacheMeta)
  | abortFill (guard : FillGuard)
  | complete

/-- The state of the task while it copies the body. A message to the client is a chunk, or `none` for
an error. -/
structure Copying where
  ok : Bool
  clientAlive : Bool
  waiterHeld : Bool
  body : Bytes
  toClient : List (Option Bytes)
  actions : List TeeAction

/-- What the task has done: `finished` says that it no longer waits for chunks to copy. -/
structure Tee where
  actions : List TeeAction
  toClient : List (Option Bytes)
  tempBody : Option Bytes
  finished : Bool

namespace Copying

/-- The state in which the task begins to copy. -/
def start : Copying where
  ok := true
  clientAlive := true
  waiterHeld := true
  body := []
  toClient := []
  actions := []

/-- Complete the waiter, unless that has been done. -/
def completeWaiter (s : Copying) : Copying :=
  if s.waiterHeld then { s with waiterHeld := false, actions := s.actions ++ [.complete] } else s

/-- Write a chunk, unless writing has failed. The followers are released when it fails. -/
def write (s : Copying) (bytes : Bytes) (writes : Bool) : Copying :=
  if s.ok then
    if writes then { s with body := s.body ++ bytes }
    else { s with ok := false }.completeWaiter
  else s

/-- Send a message to the client, unless it is gone. -/
def send (s : Copying) (message : Option Bytes) (delivery : Delivery) : Copying :=
  if s.clientAlive then
    match delivery with
    | .sent => { s with toClient := s.toClient ++ [message] }
    | .gone | .timedOut => { s with clientAlive := false }
  else s

/-- Take one turn. The result says whether it is the last. -/
def turn (s : Copying) (t : Turn) : Copying × Bool :=
  match t.yields with
  | .chunk bytes =>
      let s' := (s.write bytes t.writes).send (some bytes) t.delivery
      (s', !s'.ok && !s'.clientAlive)
  | .failed | .timedOut => ({ s.send none t.delivery with ok := false }, true)
  | .ended => (s, true)

/-- Take turns up to the last. The result says whether that has come. -/
def copy (s : Copying) : List Turn → Copying × Bool
  | [] => (s, false)
  | t :: turns => if (s.turn t).2 then ((s.turn t).1, true) else (s.turn t).1.copy turns

end Copying

namespace Tee

/-- Do more. -/
def act (tee : Tee) (actions : List TeeAction) : Tee :=
  { tee with actions := tee.actions ++ actions }

/-- Remove the temporary file. -/
def removeTemp (tee : Tee) : Tee := { tee with tempBody := none }

/-- Commit the fill. A commit that succeeds has taken the file; one that fails may have left it. -/
def commit (tee : Tee) (guard : FillGuard) (body : Bytes) (info : CacheMeta) (commits : Bool) :
    Tee :=
  { tee.act [.commitFill guard body info] with
    tempBody := if commits then none else tee.tempBody }

end Tee

/-- Give up the guard, if there is one. -/
def abortIfGuarded (guard : Option FillGuard) : List TeeAction :=
  guard.toList.map .abortFill

/-- Commit what has been copied, or abort the fill. -/
def settle (task : TeeTask) (faults : TeeFaults) (s : Copying) (tee : Tee) : Tee :=
  if s.ok then
    if !faults.syncs then (tee.act (abortIfGuarded task.fillGuard)).removeTemp
    else
      match task.fillGuard with
      | some guard =>
          let tee' := tee.commit guard s.body task.info faults.commits
          if faults.commits then tee' else tee'.removeTemp
      | none => tee.removeTemp
  else (tee.act (abortIfGuarded task.fillGuard)).removeTemp

/-- End the task when it no longer copies. -/
def finishCopy (task : TeeTask) (faults : TeeFaults) (s : Copying) : Tee :=
  let tee := settle task faults s ⟨s.actions, s.toClient, some s.body, true⟩
  if s.waiterHeld then tee.act [.complete] else tee

/-- What the task has done while it still copies. -/
def Copying.running (s : Copying) : Tee := ⟨s.actions, s.toClient, some s.body, false⟩

/-- Send the body to the client alone. There is no time limit on its chunks. -/
def drain : List Turn → List (Option Bytes)
  | [] => []
  | t :: turns =>
      let message : Option (Option Bytes) :=
        match t.yields with
        | .chunk bytes => some (some bytes)
        | .failed => some none
        | .ended | .timedOut => none
      match message, t.delivery with
      | some m, .sent => m :: drain turns
      | _, _ => []

/-- What the task does when it meets the given turns. -/
def spawnCacheTee (task : TeeTask) (faults : TeeFaults) (turns : List Turn) : Tee :=
  if faults.opens then
    if (Copying.start.copy turns).2 then finishCopy task faults (Copying.start.copy turns).1
    else (Copying.start.copy turns).1.running
  else ⟨abortIfGuarded task.fillGuard ++ [.complete], drain turns, none, true⟩

/-! ### Copying -/

namespace Copying

/-- The waiter has been completed if it is not held, and nothing else has been done. It is held as
long as nothing has failed. -/
structure Pending (s : Copying) : Prop where
  actions : s.actions = if s.waiterHeld then [] else [.complete]
  held : s.ok = true → s.waiterHeld = true

variable {s s' : Copying}

theorem Pending.completeWaiter
    (h : s.Pending) (hok : s.ok = false) :
  s.completeWaiter.Pending
  := by
  have hactions := h.actions
  rw [Copying.completeWaiter]
  split
  next hheld =>
    rw [hheld] at hactions
    exact ⟨by simpa using hactions, fun htrue => absurd (hok.symm.trans htrue) Bool.false_ne_true⟩
  next => exact h

theorem Pending.write
    (h : s.Pending) (bytes : Bytes) (writes : Bool) :
  (s.write bytes writes).Pending
  := by
  rw [Copying.write]
  split
  next hok =>
    cases writes with
    | true => exact ⟨h.actions, h.held⟩
    | false =>
        refine Pending.completeWaiter ⟨h.actions, ?_⟩ rfl
        intro htrue
        cases htrue
  next => exact h

theorem Pending.send
    (h : s.Pending) (message : Option Bytes) (delivery : Delivery) :
  (s.send message delivery).Pending
  := by
  simp only [Copying.send]
  split
  next =>
    cases delivery with
    | sent | gone | timedOut => exact ⟨h.actions, h.held⟩
  next => exact h

theorem Pending.turn
    (h : s.Pending) (t : Turn) :
  (s.turn t).1.Pending
  := by
  obtain ⟨yields, writes, delivery⟩ := t
  cases yields with
  | chunk bytes => exact (h.write bytes writes).send _ _
  | failed | timedOut =>
      refine ⟨(h.send none delivery).actions, ?_⟩
      intro htrue
      cases htrue
  | ended => exact h

theorem Pending.copy
    {turns : List Turn} (h : s.Pending) :
  (s.copy turns).1.Pending
  := by
  induction turns generalizing s with
  | nil => exact h
  | cons t turns ih =>
      rw [Copying.copy]
      split
      · exact h.turn t
      · exact ih (h.turn t)

end Copying

/-- The body that has been copied, if the stream has ended and every chunk could be written. -/
def copied : List Turn → Option Bytes
  | [] => none
  | t :: turns =>
      match t.yields with
      | .chunk bytes => if t.writes then (copied turns).map (bytes ++ ·) else none
      | .ended => some []
      | .failed | .timedOut => none

namespace Copying

variable {s s' : Copying}

@[simp]
theorem completeWaiter_ok :
  s.completeWaiter.ok = s.ok
  := by
  rw [completeWaiter]
  split
  · rfl
  · rfl

end Copying

/-! ### Settling -/

section

variable {task : TeeTask} {faults : TeeFaults} {turns : List Turn} {s : Copying} {tee : Tee}

/-- What is done to give back the guard. -/
def settlement (task : TeeTask) (faults : TeeFaults) (s : Copying) : List TeeAction :=
  if s.ok && faults.syncs then
    task.fillGuard.toList.map fun guard => .commitFill guard s.body task.info
  else abortIfGuarded task.fillGuard

theorem settle_eq
    (s : Copying) (tee : Tee) :
  settle task faults s tee
    = { tee with actions := tee.actions ++ settlement task faults s, tempBody := none }
  := by
  simp only [settle, settlement]
  cases s.ok with
  | false => rfl
  | true =>
      cases faults.syncs with
      | false => rfl
      | true =>
          cases task.fillGuard with
          | none => simp [Tee.removeTemp]
          | some guard =>
              cases hcommits : faults.commits with
              | true => simp [Tee.commit, Tee.act]
              | false => simp [Tee.commit, Tee.act, Tee.removeTemp]

/-- While the body is copied, nothing is done but that the waiter may be completed. -/
theorem Copying.Pending.notMem
    (h : s.Pending) {guard : FillGuard} {body : Bytes} {info : CacheMeta} :
  .commitFill guard body info ∉ s.actions
  := by
  rw [h.actions]
  split
  · exact List.not_mem_nil
  · intro hmem
    cases List.mem_singleton.mp hmem

end

/-- A fill of an object of ten bytes. -/
def tenBytes : TeeTask where
  fillGuard := some ⟨DiskCache.sampleKey, 0, 0⟩
  info := { DiskCache.sampleMeta with contentLength := 10 }

/-- The chunks of a stream that ends cleanly, if the client is sent them all. -/
def sentChunks : List Turn → Option (List Bytes)
  | [] => none
  | t :: turns =>
      match t.yields, t.delivery with
      | .chunk bytes, .sent => (sentChunks turns).map (bytes :: ·)
      | .ended, _ => some []
      | _, _ => none

theorem sentChunks_cons
    {t : Turn} {turns : List Turn} {chunks : List Bytes} (h : sentChunks (t :: turns) = some chunks) :
  (t.yields = .ended ∧ chunks = []) ∨
    ∃ bytes rest, t.yields = .chunk bytes ∧ t.delivery = .sent ∧ sentChunks turns = some rest ∧
      chunks = bytes :: rest
  := by
  obtain ⟨yields, writes, delivery⟩ := t
  cases yields with
  | ended => exact Or.inl ⟨rfl, (Option.some.inj h).symm⟩
  | failed | timedOut => cases h
  | chunk bytes =>
      cases delivery with
      | gone | timedOut => cases h
      | sent =>
          obtain ⟨rest, hrest, rfl⟩ := Option.map_eq_some_iff.mp h
          exact Or.inr ⟨bytes, rest, rfl, rfl, hrest, rfl⟩

namespace Copying

variable {s : Copying}

@[simp]
theorem completeWaiter_clientAlive :
  s.completeWaiter.clientAlive = s.clientAlive
  := by
  rw [completeWaiter]
  split
  · rfl
  · rfl

@[simp]
theorem completeWaiter_toClient :
  s.completeWaiter.toClient = s.toClient
  := by
  rw [completeWaiter]
  split
  · rfl
  · rfl

/-- Writing a chunk is nothing that the client notices. -/
theorem write_client
    (bytes : Bytes) (writes : Bool) :
  (s.write bytes writes).clientAlive = s.clientAlive ∧ (s.write bytes writes).toClient = s.toClient
  := by
  rw [write]
  split
  · cases writes with
    | true => exact ⟨rfl, rfl⟩
    | false => simp
  · exact ⟨rfl, rfl⟩

theorem copy_toClient
    {turns : List Turn} {chunks : List Bytes} (halive : s.clientAlive = true)
    (h : sentChunks turns = some chunks) :
  (s.copy turns).2 = true ∧ (s.copy turns).1.toClient = s.toClient ++ chunks.map some
  := by
  induction turns generalizing s chunks with
  | nil => cases h
  | cons t turns ih =>
      obtain ⟨yields, writes, delivery⟩ := t
      obtain ⟨rfl, rfl⟩ | ⟨bytes, rest, rfl, rfl, hrest, rfl⟩ := sentChunks_cons h
      · exact ⟨rfl, (List.append_nil _).symm⟩
      · obtain ⟨halive', htoClient⟩ := s.write_client bytes writes
        rw [halive] at halive'
        have hsend : (s.write bytes writes).send (some bytes) .sent
            = { s.write bytes writes with toClient := s.toClient ++ [some bytes] } := by
          rw [send, if_pos halive', htoClient]
        have hturn : s.turn ⟨.chunk bytes, writes, .sent⟩
            = ({ s.write bytes writes with toClient := s.toClient ++ [some bytes] }, false) := by
          simp only [turn, hsend, halive', Bool.not_true, Bool.and_false]
        rw [copy, hturn, if_neg Bool.false_ne_true]
        obtain ⟨hdone, hclient⟩ := ih (s := { s.write bytes writes with
          toClient := s.toClient ++ [some bytes] }) halive' hrest
        refine ⟨hdone, ?_⟩
        rw [hclient, List.append_assoc]
        rfl

end Copying

theorem settle_toClient
    {task : TeeTask} {faults : TeeFaults} {s : Copying} :
  (finishCopy task faults s).toClient = s.toClient
  := by
  simp only [finishCopy, settle_eq]
  split
  · rfl
  · rfl

theorem drain_of_sentChunks
    {turns : List Turn} {chunks : List Bytes} (h : sentChunks turns = some chunks) :
  drain turns = chunks.map some
  := by
  induction turns generalizing chunks with
  | nil => cases h
  | cons t turns ih =>
      obtain ⟨yields, writes, delivery⟩ := t
      obtain ⟨rfl, rfl⟩ | ⟨bytes, rest, rfl, rfl, hrest, rfl⟩ := sentChunks_cons h
      · rfl
      · rw [drain, ih hrest]
        rfl

/-- A client that takes all messages is sent the whole body of a stream that ends cleanly, whatever
becomes of the file and of the fill. -/
theorem toClient_of_sentChunks
    {task : TeeTask} {faults : TeeFaults} {turns : List Turn} {chunks : List Bytes}
    (h : sentChunks turns = some chunks) :
  (spawnCacheTee task faults turns).toClient = chunks.map some
  := by
  obtain ⟨hdone, hclient⟩ := Copying.copy_toClient (s := Copying.start) rfl h
  rw [spawnCacheTee]
  split
  · rw [settle_toClient, hclient]
    rfl
  · exact drain_of_sentChunks h

theorem toClient_of_full_disk :
  (spawnCacheTee tenBytes ⟨true, true, true⟩
    [⟨.chunk [1, 2], true, .sent⟩, ⟨.chunk [3, 4], false, .sent⟩, ⟨.ended, true, .sent⟩]).toClient
      = [some [1, 2], some [3, 4]]
  := by
  have hchunks : sentChunks
      [⟨.chunk [1, 2], true, .sent⟩, ⟨.chunk [3, 4], false, .sent⟩, ⟨.ended, true, .sent⟩]
      = some [[1, 2], [3, 4]] := rfl
  exact toClient_of_sentChunks hchunks

end TinyS3Proxy
