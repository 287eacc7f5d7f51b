import TinyS3Proxy.Cache.Metadata
import TinyS3Proxy.Coop.Table

/-!
# Single flight

Concurrent requests that miss the same key elect a leader, which fetches the object, while
the others subscribe to the channel of the leader and wait. The registry has, for each key
with a flight under way, a sender for the channel of its leader and the generation of the
flight. Flights are numbered in the order in which they were started, and the channel of a
flight has the number of the flight.

A leader that completes first sends a message and then, under the lock of the registry,
removes its entry; when its handle is dropped, it removes the entry at once if it can get
hold of the lock, and otherwise leaves that to a task of its own. Each of these is one step
here, and so is every other operation under the lock.
-/

namespace TinyS3Proxy

open Coop

/-- What the registry has for a key: the channel and the generation of its flight. -/
structure FlightEntry where
  sender : ℕ
  generation : UInt64
  deriving DecidableEq

/-- How far the leader of a flight has come. -/
inductive FlightPhase
  /-- The leader is fetching. -/
  | fetching
  /-- The leader completes and has sent the message. -/
  | sent
  /-- The leader completes and has looked after the registry. -/
  | deregistered
  deriving DecidableEq

/-- The handle of a leader. The number of cancellations of its key when it became the leader
is only referred to by the theorems. -/
structure FlightWaiter where
  key : CacheKey
  generation : UInt64
  phase : FlightPhase
  epoch : ℕ

/-- The handle of a follower: the channel it has subscribed to, and whether a message has
been sent to it since. -/
structure FlightReceiver where
  sender : ℕ
  received : Bool

/-- A task that is to remove the entry of a flight whose handle has been dropped. -/
structure FlightCleanup where
  key : CacheKey
  generation : UInt64
  flight : ℕ

/-- The registry of flights, together with all handles and tasks that refer to it. -/
structure SingleFlight where
  registry : CacheKey → Option FlightEntry
  nextGeneration : UInt64
  /-- The number of flights that have been started. -/
  flights : ℕ
  waiters : ℕ → Option FlightWaiter
  receivers : ℕ → Option FlightReceiver
  nextReceiver : ℕ
  cleanups : ℕ → Option FlightCleanup
  nextCleanup : ℕ
  /-- How often each key has been cancelled. -/
  cancels : CacheKey → ℕ

/-- The result of trying to become the leader of a key. -/
inductive FlightResult
  | leader (waiter : ℕ)
  | follower (receiver : ℕ)
  deriving DecidableEq

namespace SingleFlight

/-! ### Operations -/

/-- A registry without flights. -/
def new : SingleFlight where
  registry _ := none
  nextGeneration := 1
  flights := 0
  waiters _ := none
  receivers _ := none
  nextReceiver := 0
  cleanups _ := none
  nextCleanup := 0
  cancels _ := 0

/-- Become a follower of the flight of an entry. -/
def follow (s : SingleFlight) (entry : FlightEntry) : SingleFlight :=
  { s with
    receivers := Function.update s.receivers s.nextReceiver (some ⟨entry.sender, false⟩)
    nextReceiver := s.nextReceiver + 1 }

/-- Become the leader of the key. -/
def lead (s : SingleFlight) (key : CacheKey) : SingleFlight :=
  { s with
    registry := Function.update s.registry key (some ⟨s.flights, s.nextGeneration⟩)
    nextGeneration := s.nextGeneration + 1
    flights := s.flights + 1
    waiters := Function.update s.waiters s.flights
      (some ⟨key, s.nextGeneration, .fetching, s.cancels key⟩) }

/-- Try to become the leader of the key. -/
def tryAcquire (s : SingleFlight) (key : CacheKey) : FlightResult × SingleFlight :=
  match s.registry key with
  | some entry => (.follower s.nextReceiver, s.follow entry)
  | none => (.leader s.flights, s.lead key)

/-- Remove the entry of the key if it has the given generation. -/
def removeIfOwn (s : SingleFlight) (key : CacheKey) (generation : UInt64) : SingleFlight :=
  match s.registry key with
  | some entry =>
      if entry.generation = generation then
        { s with registry := Function.update s.registry key none }
      else s
  | none => s

/-- The leader `n` has come further. -/
def advance (s : SingleFlight) (n : ℕ) (w : FlightWaiter) (phase : FlightPhase) : SingleFlight :=
  { s with waiters := Function.update s.waiters n (some { w with phase := phase }) }

/-- The first half of completing: send a message to all that have subscribed. -/
def send (s : SingleFlight) (n : ℕ) (w : FlightWaiter) : SingleFlight :=
  { s.advance n w .sent with
    receivers := fun i => (s.receivers i).map fun r =>
      if r.sender = n then { r with received := true } else r }

/-- The second half of completing: remove the entry. -/
def deregister (s : SingleFlight) (n : ℕ) (w : FlightWaiter) : SingleFlight :=
  (s.advance n w .deregistered).removeIfOwn w.key w.generation

/-- The registry with the handle of the leader `n` gone. -/
def without (s : SingleFlight) (n : ℕ) : SingleFlight :=
  { s with waiters := Function.update s.waiters n none }

/-- Drop the handle of the leader `n`. When the registry is locked, a task is started to
remove the entry. -/
def dropWaiter (s : SingleFlight) (n : ℕ) (w : FlightWaiter) (locked : Bool) : SingleFlight :=
  if locked then
    { s.without n with
      cleanups := Function.update s.cleanups s.nextCleanup (some ⟨w.key, w.generation, n⟩)
      nextCleanup := s.nextCleanup + 1 }
  else (s.without n).removeIfOwn w.key w.generation

/-- Run the cleanup task `i`. -/
def cleanUp (s : SingleFlight) (i : ℕ) (c : FlightCleanup) : SingleFlight :=
  { s with cleanups := Function.update s.cleanups i none }.removeIfOwn c.key c.generation

/-- Cancel the flight of a key, which only removes its entry. -/
def cancel (s : SingleFlight) (key : CacheKey) : SingleFlight :=
  { s with
    registry := Function.update s.registry key none
    cancels := Function.update s.cancels key (s.cancels key + 1) }

/-! ### Runs -/

/-- The steps of the handles and tasks. -/
inductive Action
  | tryAcquire (key : CacheKey)
  | send (n : ℕ)
  | deregister (n : ℕ)
  | dropWaiter (n : ℕ) (locked : Bool)
  | cleanUp (i : ℕ)
  | cancel (key : CacheKey)
  | dropReceiver (i : ℕ)

/-- Take a step, if it can be taken. -/
def act (s : SingleFlight) : Action → Option SingleFlight
  | .tryAcquire key => some (s.tryAcquire key).2
  | .send n =>
      match s.waiters n with
      | some w => if w.phase = .fetching then some (s.send n w) else none
      | none => none
  | .deregister n =>
      match s.waiters n with
      | some w => if w.phase = .sent then some (s.deregister n w) else none
      | none => none
  | .dropWaiter n locked => (s.waiters n).map fun w => s.dropWaiter n w locked
  | .cleanUp i => (s.cleanups i).map fun c => s.cleanUp i c
  | .cancel key => some (s.cancel key)
  | .dropReceiver i => some { s with receivers := Function.update s.receivers i none }

/-- One step of any handle or task. -/
def Step (s s' : SingleFlight) : Prop := ∃ a, s.act a = some s'

/-- The states that any interleaving can lead to. -/
def Reachable (s : SingleFlight) : Prop := Relation.ReflTransGen Step new s

/-- The channel of the flight `n` is closed: nothing that could send to it is left. -/
def Closed (s : SingleFlight) (n : ℕ) : Prop :=
  s.waiters n = none ∧ ∀ key entry, s.registry key = some entry → entry.sender ≠ n

/-- The leader `n` has not yet completed. -/
def Uncompleted (s : SingleFlight) (n : ℕ) (w : FlightWaiter) : Prop :=
  s.waiters n = some w ∧ w.phase ≠ .deregistered

/-! ### The entries of the registry are looked after -/

variable {s s' : SingleFlight} {key : CacheKey} {n i : ℕ} {w : FlightWaiter} {c : FlightCleanup}

/-- Only the registry changes when an entry is removed. -/
theorem removeIfOwn_eq
    (s : SingleFlight) (key : CacheKey) (g : UInt64) :
  s.removeIfOwn key g = { s with registry := (s.removeIfOwn key g).registry }
  := by
  unfold removeIfOwn
  split
  · split
    · rfl
    · rfl
  · rfl

/-- What is left when the entry of a key has been removed if it has a given generation. -/
theorem removeIfOwn_registry
    {k : CacheKey} {e : FlightEntry} {g : UInt64} :
  (s.removeIfOwn key g).registry k = some e ↔
    s.registry k = some e ∧ ¬ (k = key ∧ e.generation = g)
  := by
  unfold removeIfOwn
  by_cases hk : k = key
  · subst hk
    cases hr : s.registry k with
    | none => simp [hr]
    | some e' =>
        by_cases hg : e'.generation = g
        · simp only [hg, if_true, Function.update_self]
          constructor
          · intro h
            cases h
          · rintro ⟨he, hne⟩
            obtain rfl := Option.some.inj he
            exact absurd ⟨trivial, hg⟩ hne
        · simp only [hg, if_false, hr, true_and]
          constructor
          · intro h
            obtain rfl := Option.some.inj h
            exact ⟨rfl, hg⟩
          · exact And.left
  · cases hr : s.registry key with
    | none => simp [hk]
    | some e' =>
        by_cases hg : e'.generation = g
        · simp [hg, hk]
        · simp [hg, hk]

/-- The entry is looked after: its leader has not completed yet, or has left it to a task. -/
def Tended (s : SingleFlight) (key : CacheKey) (e : FlightEntry) : Prop :=
  (∃ w, s.Uncompleted e.sender w ∧ w.key = key ∧ w.generation = e.generation) ∨
    ∃ i c, s.cleanups i = some c ∧ c.flight = e.sender ∧ c.key = key ∧
      c.generation = e.generation

/-- Handles and tasks are numbered by their flights. -/
structure Numbered (s : SingleFlight) : Prop where
  next : s.nextGeneration = UInt64.ofNat (s.flights + 1)
  started : ∀ n w, s.waiters n = some w → n < s.flights ∧ w.generation = UInt64.ofNat (n + 1)
  left : ∀ i c, s.cleanups i = some c →
    c.flight < s.flights ∧ c.generation = UInt64.ofNat (c.flight + 1) ∧ s.waiters c.flight = none
  unused : ∀ i, s.nextCleanup ≤ i → s.cleanups i = none

/-- Every entry is looked after. -/
structure Sound (s : SingleFlight) : Prop extends s.Numbered where
  tended : ∀ key e, s.registry key = some e → s.Tended key e

theorem sound_new :
  new.Sound
  where
  tended _ _ h := by cases h
  next := rfl
  started _ _ h := by cases h
  left _ _ h := by cases h
  unused _ _ := rfl

theorem Numbered.lead
    (h : s.Numbered) (key : CacheKey) :
  (s.lead key).Numbered
  := by
  refine ⟨?_, ?_, ?_, h.unused⟩
  · change s.nextGeneration + 1 = UInt64.ofNat (s.flights + 1 + 1)
    rw [h.next, UInt64.ofNat_add (s.flights + 1) 1]
    rfl
  · intro n w hw
    obtain ⟨rfl, rfl⟩ | ⟨-, hw⟩ := update_some_iff.mp hw
    · exact ⟨Nat.lt_succ_self _, h.next⟩
    · obtain ⟨hlt, hg⟩ := h.started n w hw
      exact ⟨hlt.trans (Nat.lt_succ_self _), hg⟩
  · intro i c hc
    obtain ⟨hlt, hg, hw⟩ := h.left i c hc
    exact ⟨hlt.trans (Nat.lt_succ_self _), hg, (Function.update_of_ne hlt.ne _ _).trans hw⟩

theorem Sound.lead
    (h : s.Sound) (key : CacheKey) :
  (s.lead key).Sound
  := by
  refine ⟨h.toNumbered.lead key, ?_⟩
  intro k e he
  obtain ⟨rfl, rfl⟩ | ⟨-, he⟩ := update_some_iff.mp he
  · exact Or.inl ⟨_, ⟨Function.update_self _ _ _, by simp⟩, rfl, rfl⟩
  · obtain ⟨w, ⟨hw, hp⟩, hrest⟩ | hc := h.tended k e he
    · have hne : e.sender ≠ s.flights := (h.started _ w hw).1.ne
      exact Or.inl ⟨w, ⟨update_some_iff.mpr (Or.inr ⟨hne, hw⟩), hp⟩, hrest⟩
    · exact Or.inr hc

theorem Sound.tryAcquire
    (h : s.Sound) (key : CacheKey) :
  (s.tryAcquire key).2.Sound
  := by
  unfold SingleFlight.tryAcquire
  split
  · exact ⟨⟨h.next, h.started, h.left, h.unused⟩, h.tended⟩
  · exact h.lead key

/-- Removing an entry is sound once all the others are looked after. -/
theorem Numbered.removeIfOwn
    {g : UInt64} (h : s.Numbered)
    (htended : ∀ k e, s.registry k = some e → ¬ (k = key ∧ e.generation = g) → s.Tended k e) :
  (s.removeIfOwn key g).Sound
  := by
  have hreg := @removeIfOwn_registry s key
  rw [removeIfOwn_eq]
  refine ⟨⟨h.next, h.started, h.left, h.unused⟩, ?_⟩
  intro k e he
  obtain ⟨he, hne⟩ := hreg.mp he
  exact htended k e he hne

/-- A leader that has come further still looks after its entry, unless it has deregistered. -/
theorem Tended.advance
    {k : CacheKey} {e : FlightEntry} {phase : FlightPhase} (h : s.Tended k e)
    (hw : s.waiters n = some w)
    (hp : phase ≠ .deregistered ∨ ¬ (k = w.key ∧ e.generation = w.generation)) :
  (s.advance n w phase).Tended k e
  := by
  obtain ⟨w', ⟨hw', hp'⟩, hkey, hg⟩ | hc := h
  · by_cases hn : e.sender = n
    · subst hn
      obtain rfl := Option.some.inj (hw.symm.trans hw')
      have hphase : phase ≠ .deregistered := by
        rintro rfl
        obtain hne | hne := hp
        · exact hne rfl
        · exact hne ⟨hkey.symm, hg.symm⟩
      exact Or.inl ⟨_, ⟨Function.update_self _ _ _, hphase⟩, hkey, hg⟩
    · exact Or.inl ⟨w', ⟨(Function.update_of_ne hn _ _).trans hw', hp'⟩, hkey, hg⟩
  · exact Or.inr hc

theorem Numbered.advance
    (h : s.Numbered) (hw : s.waiters n = some w) (phase : FlightPhase) :
  (s.advance n w phase).Numbered
  := by
  refine ⟨h.next, ?_, ?_, h.unused⟩
  · intro m v hv
    obtain ⟨rfl, rfl⟩ | ⟨-, hv⟩ := update_some_iff.mp hv
    · exact h.started m w hw
    · exact h.started m v hv
  · intro i c hc
    obtain ⟨hlt, hg, hnone⟩ := h.left i c hc
    have hne : c.flight ≠ n := by
      rintro rfl
      rw [hw] at hnone
      cases hnone
    exact ⟨hlt, hg, (Function.update_of_ne hne _ _).trans hnone⟩

theorem Sound.send
    (h : s.Sound) (hw : s.waiters n = some w) :
  (s.send n w).Sound
  := by
  have hN := h.toNumbered.advance hw .sent
  refine ⟨⟨hN.next, hN.started, hN.left, hN.unused⟩, ?_⟩
  intro k e he
  exact (h.tended k e he).advance hw (Or.inl (by simp))

theorem Sound.deregister
    (h : s.Sound) (hw : s.waiters n = some w) :
  (s.deregister n w).Sound
  := by
  apply (h.toNumbered.advance hw .deregistered).removeIfOwn
  intro k e he hne
  exact (h.tended k e he).advance hw (Or.inr hne)

theorem Numbered.without
    (h : s.Numbered) (n : ℕ) :
  (s.without n).Numbered
  := by
  refine ⟨h.next, ?_, ?_, h.unused⟩
  · intro m v hv
    exact h.started m v (update_none_iff.mp hv).2
  · intro i c hc
    obtain ⟨hlt, hg, hnone⟩ := h.left i c hc
    refine ⟨hlt, hg, ?_⟩
    by_cases hne : c.flight = n
    · rw [hne]
      exact Function.update_self _ _ _
    · exact (Function.update_of_ne hne _ _).trans hnone

/-- When a handle is gone, the entries of the other leaders are still looked after. -/
theorem Tended.without
    {k : CacheKey} {e : FlightEntry} (h : s.Tended k e) (hw : s.waiters n = some w)
    (hne : ¬ (k = w.key ∧ e.generation = w.generation ∧ e.sender = n)) :
  (s.without n).Tended k e
  := by
  obtain ⟨w', ⟨hw', hp'⟩, hkey, hg⟩ | hc := h
  · have hn : e.sender ≠ n := by
      rintro rfl
      obtain rfl := Option.some.inj (hw.symm.trans hw')
      exact hne ⟨hkey.symm, hg.symm, rfl⟩
    exact Or.inl ⟨w', ⟨update_none_iff.mpr ⟨hn, hw'⟩, hp'⟩, hkey, hg⟩
  · exact Or.inr hc

theorem Sound.dropWaiter_locked
    (h : s.Sound) (hw : s.waiters n = some w) :
  (s.dropWaiter n w true).Sound
  := by
  have hN := h.toNumbered.without n
  refine ⟨⟨hN.next, hN.started, ?_, ?_⟩, ?_⟩
  · intro i c hc
    obtain ⟨rfl, rfl⟩ | ⟨-, hc⟩ := update_some_iff.mp hc
    · obtain ⟨hlt, hg⟩ := h.started n w hw
      exact ⟨hlt, hg, Function.update_self _ _ _⟩
    · exact hN.left i c hc
  · intro i hi
    have hle : s.nextCleanup + 1 ≤ i := hi
    have hne : i ≠ s.nextCleanup := by omega
    exact (Function.update_of_ne hne _ _).trans (h.unused i (by omega))
  · intro k e he
    by_cases hown : k = w.key ∧ e.generation = w.generation ∧ e.sender = n
    · obtain ⟨rfl, hg, rfl⟩ := hown
      exact Or.inr ⟨s.nextCleanup, _, Function.update_self _ _ _, rfl, rfl, hg.symm⟩
    · obtain hw' | ⟨i, c, hc, hrest⟩ := (h.tended k e he).without hw hown
      · exact Or.inl hw'
      · have hi : i ≠ s.nextCleanup := by
          rintro rfl
          cases hc.symm.trans (hN.unused _ le_rfl)
        exact Or.inr ⟨i, c, update_some_iff.mpr (Or.inr ⟨hi, hc⟩), hrest⟩

theorem Sound.dropWaiter
    (h : s.Sound) (hw : s.waiters n = some w) (locked : Bool) :
  (s.dropWaiter n w locked).Sound
  := by
  cases locked with
  | true => exact h.dropWaiter_locked hw
  | false =>
      apply (h.toNumbered.without n).removeIfOwn
      intro k e he hne
      apply (h.tended k e he).without hw
      rintro ⟨hkey, hg, -⟩
      exact hne ⟨hkey, hg⟩

theorem Sound.cleanUp
    (h : s.Sound) (hc : s.cleanups i = some c) :
  (s.cleanUp i c).Sound
  := by
  apply Numbered.removeIfOwn (s := { s with cleanups := Function.update s.cleanups i none })
  · refine ⟨h.next, h.started, ?_, ?_⟩
    · intro j d hd
      exact h.left j d (update_none_iff.mp hd).2
    · intro j hj
      by_cases hji : j = i
      · subst hji
        exact Function.update_self _ _ _
      · exact (Function.update_of_ne hji _ _).trans (h.unused j hj)
  · intro k e he hne
    obtain hw | ⟨j, d, hd, hf, hkey, hg⟩ := h.tended k e he
    · exact Or.inl hw
    · have hj : j ≠ i := by
        rintro rfl
        obtain rfl := Option.some.inj (hc.symm.trans hd)
        exact hne ⟨hkey.symm, hg.symm⟩
      exact Or.inr ⟨j, d, update_none_iff.mpr ⟨hj, hd⟩, hf, hkey, hg⟩

theorem Sound.cancel
    (h : s.Sound) (key : CacheKey) :
  (s.cancel key).Sound
  := by
  refine ⟨⟨h.next, h.started, h.left, h.unused⟩, ?_⟩
  intro k e he
  exact h.tended k e (update_none_iff.mp he).2

/-- What the steps are, and when they can be taken. -/
theorem act_cases
    {a : Action} (h : s.act a = some s') :
  (∃ key, a = .tryAcquire key ∧ s' = (s.tryAcquire key).2) ∨
    (∃ n w, a = .send n ∧ s.waiters n = some w ∧ w.phase = .fetching ∧ s' = s.send n w) ∨
    (∃ n w, a = .deregister n ∧ s.waiters n = some w ∧ w.phase = .sent ∧
      s' = s.deregister n w) ∨
    (∃ n w locked, a = .dropWaiter n locked ∧ s.waiters n = some w ∧
      s' = s.dropWaiter n w locked) ∨
    (∃ i c, a = .cleanUp i ∧ s.cleanups i = some c ∧ s' = s.cleanUp i c) ∨
    (∃ key, a = .cancel key ∧ s' = s.cancel key) ∨
    ∃ i, a = .dropReceiver i ∧ s' = { s with receivers := Function.update s.receivers i none }
  := by
  cases a with
  | tryAcquire key => exact Or.inl ⟨key, rfl, (Option.some.inj h).symm⟩
  | send n =>
      rw [act] at h
      split at h
      next w hw =>
        split at h
        next hp => exact Or.inr (Or.inl ⟨n, w, rfl, hw, hp, (Option.some.inj h).symm⟩)
        next => cases h
      next => cases h
  | deregister n =>
      rw [act] at h
      split at h
      next w hw =>
        split at h
        next hp => exact Or.inr (Or.inr (Or.inl ⟨n, w, rfl, hw, hp, (Option.some.inj h).symm⟩))
        next => cases h
      next => cases h
  | dropWaiter n locked =>
      obtain ⟨w, hw, rfl⟩ := Option.map_eq_some_iff.mp h
      exact Or.inr (Or.inr (Or.inr (Or.inl ⟨n, w, locked, rfl, hw, rfl⟩)))
  | cleanUp i =>
      obtain ⟨c, hc, rfl⟩ := Option.map_eq_some_iff.mp h
      exact Or.inr (Or.inr (Or.inr (Or.inr (Or.inl ⟨i, c, rfl, hc, rfl⟩))))
  | cancel key =>
      exact Or.inr (Or.inr (Or.inr (Or.inr (Or.inr (Or.inl
        ⟨key, rfl, (Option.some.inj h).symm⟩)))))
  | dropReceiver i =>
      exact Or.inr (Or.inr (Or.inr (Or.inr (Or.inr (Or.inr
        ⟨i, rfl, (Option.some.inj h).symm⟩)))))

theorem Sound.step
    (h : s.Sound) (hs : Step s s') :
  s'.Sound
  := by
  obtain ⟨a, ha⟩ := hs
  obtain ⟨key, -, rfl⟩ | ⟨n, w, -, hw, -, rfl⟩ | ⟨n, w, -, hw, -, rfl⟩ | ⟨n, w, b, -, hw, rfl⟩ |
    ⟨i, c, -, hc, rfl⟩ | ⟨key, -, rfl⟩ | ⟨i, -, rfl⟩ := act_cases ha
  · exact h.tryAcquire key
  · exact h.send hw
  · exact h.deregister hw
  · exact h.dropWaiter hw b
  · exact h.cleanUp hc
  · exact h.cancel key
  · exact ⟨⟨h.next, h.started, h.left, h.unused⟩, h.tended⟩

theorem Reachable.sound
    (h : Reachable s) :
  s.Sound
  := by
  induction h with
  | refl => exact sound_new
  | tail _ hs ih => exact ih.step hs

/-! ### One leader at a time

As long as the generation has not wrapped around, a leader that has not been cancelled has its
entry in the registry, so that no other one can come up. -/

/-- Leaders that have not been cancelled are registered, and leaders of one key between two
cancellations are the same. -/
structure Alone (s : SingleFlight) : Prop where
  registered : ∀ n w, s.Uncompleted n w → w.epoch = s.cancels w.key →
    s.registry w.key = some ⟨n, w.generation⟩
  epoch_le : ∀ n w, s.Uncompleted n w → w.epoch ≤ s.cancels w.key
  unique : ∀ n n' w w', s.Uncompleted n w → s.Uncompleted n' w' → w.key = w'.key →
    w.epoch = w'.epoch → n = n'

theorem alone_new :
  new.Alone
  where
  registered _ _ h := by cases h.1
  epoch_le _ _ h := by cases h.1
  unique _ _ _ _ h := by cases h.1

theorem generation_injective
    {m n : ℕ} (hm : m < 2 ^ 64) (hn : n < 2 ^ 64)
    (h : UInt64.ofNat (m + 1) = UInt64.ofNat (n + 1)) :
  m = n
  := by
  have htoNat := congrArg UInt64.toNat h
  rw [UInt64.toNat_ofNat', UInt64.toNat_ofNat'] at htoNat
  omega

/-- Leaders stay alone when entries and cancellations stay as they are and all leaders that
have not completed are as they were. -/
theorem Alone.congr
    (h : s.Alone) (hr : s'.registry = s.registry) (hc : s'.cancels = s.cancels)
    (hu : ∀ n w, s'.Uncompleted n w → ∃ w', s.Uncompleted n w' ∧ w'.key = w.key ∧
      w'.generation = w.generation ∧ w'.epoch = w.epoch) :
  s'.Alone
  := by
  refine ⟨?_, ?_, ?_⟩
  · intro n w hw he
    obtain ⟨w', hw', hkey, hg, hepoch⟩ := hu n w hw
    rw [hr, ← hkey, ← hg]
    apply h.registered n w' hw'
    rw [hepoch, he, hc, hkey]
  · intro n w hw
    obtain ⟨w', hw', hkey, -, hepoch⟩ := hu n w hw
    rw [hc, ← hkey, ← hepoch]
    exact h.epoch_le n w' hw'
  · intro n₁ n₂ w₁ w₂ hw₁ hw₂ hk he
    obtain ⟨w₁', hw₁', hkey₁, -, hepoch₁⟩ := hu n₁ w₁ hw₁
    obtain ⟨w₂', hw₂', hkey₂, -, hepoch₂⟩ := hu n₂ w₂ hw₂
    apply h.unique n₁ n₂ w₁' w₂' hw₁' hw₂'
    · rw [hkey₁, hkey₂, hk]
    · rw [hepoch₁, hepoch₂, he]

/-- Removing an entry leaves leaders alone when no leader has its key and generation. -/
theorem Alone.removeIfOwn
    {g : UInt64} (h : s.Alone)
    (hne : ∀ n w, s.Uncompleted n w → ¬ (w.key = key ∧ w.generation = g)) :
  (s.removeIfOwn key g).Alone
  := by
  have hreg := @removeIfOwn_registry s key
  rw [removeIfOwn_eq]
  refine ⟨?_, h.epoch_le, h.unique⟩
  intro n w hw he
  exact hreg.mpr ⟨h.registered n w hw he, hne n w hw⟩

/-- A flight that has ended has another generation than every leader. -/
theorem Numbered.generation_ne
    (h : s.Numbered) (hf : s.flights ≤ 2 ^ 64) {m n : ℕ} (hm : m < s.flights)
    (hw : s.waiters n = some w) (hne : n ≠ m) :
  w.generation ≠ UInt64.ofNat (m + 1)
  := by
  obtain ⟨hlt, hg⟩ := h.started n w hw
  rw [hg]
  intro he
  exact hne (generation_injective (hlt.trans_le hf) (hm.trans_le hf) he)

theorem Alone.lead
    (h : s.Alone) (hkey : s.registry key = none) :
  (s.lead key).Alone
  := by
  have hnone : ∀ m v, s.Uncompleted m v → v.key = key → v.epoch ≠ s.cancels key := by
    rintro m v hv rfl he
    rw [h.registered m v hv he] at hkey
    cases hkey
  refine ⟨?_, ?_, ?_⟩
  · rintro m v ⟨hv, hp⟩ he
    obtain ⟨rfl, rfl⟩ | ⟨-, hv⟩ := update_some_iff.mp hv
    · exact Function.update_self _ _ _
    · have hk : v.key ≠ key := by
        intro hk
        exact hnone m v ⟨hv, hp⟩ hk (hk ▸ he)
      exact (Function.update_of_ne hk _ _).trans (h.registered m v ⟨hv, hp⟩ he)
  · rintro m v ⟨hv, hp⟩
    obtain ⟨rfl, rfl⟩ | ⟨-, hv⟩ := update_some_iff.mp hv
    · exact le_rfl
    · exact h.epoch_le m v ⟨hv, hp⟩
  · rintro m₁ m₂ v₁ v₂ ⟨hv₁, hp₁⟩ ⟨hv₂, hp₂⟩ hk he
    obtain ⟨rfl, rfl⟩ | ⟨-, hv₁⟩ := update_some_iff.mp hv₁
    · obtain ⟨rfl, rfl⟩ | ⟨-, hv₂⟩ := update_some_iff.mp hv₂
      · rfl
      · exact absurd he.symm (hnone m₂ v₂ ⟨hv₂, hp₂⟩ hk.symm)
    · obtain ⟨rfl, rfl⟩ | ⟨-, hv₂⟩ := update_some_iff.mp hv₂
      · exact absurd he (hnone m₁ v₁ ⟨hv₁, hp₁⟩ hk)
      · exact h.unique m₁ m₂ v₁ v₂ ⟨hv₁, hp₁⟩ ⟨hv₂, hp₂⟩ hk he

theorem Alone.cancel
    (h : s.Alone) (key : CacheKey) :
  (s.cancel key).Alone
  := by
  refine ⟨?_, ?_, h.unique⟩
  · intro n w hw he
    have hk : w.key ≠ key := by
      rintro rfl
      have hepoch : w.epoch = s.cancels w.key + 1 := he.trans (Function.update_self _ _ _)
      have hle := h.epoch_le n w hw
      omega
    exact (Function.update_of_ne hk _ _).trans
      (h.registered n w hw (he.trans (Function.update_of_ne hk _ _)))
  · intro n w hw
    have hle := h.epoch_le n w hw
    by_cases hk : w.key = key
    · subst hk
      have hcancels : (s.cancel w.key).cancels w.key = s.cancels w.key + 1 :=
        Function.update_self _ _ _
      omega
    · exact hle.trans (Function.update_of_ne hk _ _).ge

theorem Alone.step
    (h : s.Alone) (hs : s.Sound) (hf : s.flights ≤ 2 ^ 64) (hstep : Step s s') :
  s'.Alone
  := by
  obtain ⟨a, ha⟩ := hstep
  obtain ⟨key, -, rfl⟩ | ⟨n, w, -, hw, hp, rfl⟩ | ⟨n, w, -, hw, hp, rfl⟩ | ⟨n, w, b, -, hw, rfl⟩ |
    ⟨i, c, -, hc, rfl⟩ | ⟨key, -, rfl⟩ | ⟨i, -, rfl⟩ := act_cases ha
  · unfold tryAcquire
    split
    next => exact h.congr rfl rfl fun n w hw => ⟨w, hw, rfl, rfl, rfl⟩
    next hnone => exact h.lead hnone
  · refine h.congr rfl rfl ?_
    rintro m v ⟨hv, hp'⟩
    obtain ⟨rfl, rfl⟩ | ⟨-, hv⟩ := update_some_iff.mp hv
    · exact ⟨w, ⟨hw, by simp [hp]⟩, rfl, rfl, rfl⟩
    · exact ⟨v, ⟨hv, hp'⟩, rfl, rfl, rfl⟩
  · have hother : ∀ m v, (s.advance n w .deregistered).Uncompleted m v →
        m ≠ n ∧ s.Uncompleted m v := by
      rintro m v ⟨hv, hp'⟩
      obtain ⟨rfl, rfl⟩ | ⟨hne, hv⟩ := update_some_iff.mp hv
      · exact absurd rfl hp'
      · exact ⟨hne, hv, hp'⟩
    apply Alone.removeIfOwn
    · refine h.congr rfl rfl ?_
      intro m v hv
      exact ⟨v, (hother m v hv).2, rfl, rfl, rfl⟩
    · rintro m v hv ⟨-, hg⟩
      obtain ⟨hlt, hgw⟩ := hs.started n w hw
      exact hs.generation_ne hf hlt (hother m v hv).2.1 (hother m v hv).1 (hg.trans hgw)
  · have hother : ∀ m v, (s.without n).Uncompleted m v → m ≠ n ∧ s.Uncompleted m v := by
      rintro m v ⟨hv, hp'⟩
      obtain ⟨hne, hv⟩ := update_none_iff.mp hv
      exact ⟨hne, hv, hp'⟩
    have hwithout : (s.without n).Alone := by
      refine h.congr rfl rfl ?_
      intro m v hv
      exact ⟨v, (hother m v hv).2, rfl, rfl, rfl⟩
    cases b with
    | true => exact hwithout.congr rfl rfl fun m v hv => ⟨v, hv, rfl, rfl, rfl⟩
    | false =>
        apply hwithout.removeIfOwn
        rintro m v hv ⟨-, hg⟩
        obtain ⟨hlt, hgw⟩ := hs.started n w hw
        exact hs.generation_ne hf hlt (hother m v hv).2.1 (hother m v hv).1 (hg.trans hgw)
  · apply Alone.removeIfOwn
    · exact h.congr rfl rfl fun m v hv => ⟨v, hv, rfl, rfl, rfl⟩
    · rintro m v ⟨hv, -⟩ ⟨-, hg⟩
      obtain ⟨hlt, hgc, hnone⟩ := hs.left i c hc
      have hne : m ≠ c.flight := by
        rintro rfl
        cases hnone.symm.trans hv
      exact hs.generation_ne hf hlt hv hne (hg.trans hgc)
  · exact h.cancel key
  · exact h.congr rfl rfl fun n w hw => ⟨w, hw, rfl, rfl, rfl⟩

/-- Flights are only ever started. -/
theorem Step.flights_le
    (h : Step s s') :
  s.flights ≤ s'.flights
  := by
  have hremove : ∀ (s : SingleFlight) key g, (s.removeIfOwn key g).flights = s.flights := by
    intro s key g
    rw [removeIfOwn_eq]
  obtain ⟨a, ha⟩ := h
  obtain ⟨key, -, rfl⟩ | ⟨n, w, -, hw, hp, rfl⟩ | ⟨n, w, -, hw, hp, rfl⟩ | ⟨n, w, b, -, hw, rfl⟩ |
    ⟨i, c, -, hc, rfl⟩ | ⟨key, -, rfl⟩ | ⟨i, -, rfl⟩ := act_cases ha
  · unfold tryAcquire
    split
    · exact le_rfl
    · exact Nat.le_succ _
  · exact le_rfl
  · exact (hremove (s.advance n w .deregistered) w.key w.generation).ge
  · cases b with
    | true => exact le_rfl
    | false => exact (hremove (s.without n) w.key w.generation).ge
  · exact (hremove { s with cleanups := Function.update s.cleanups i none } c.key c.generation).ge
  · exact le_rfl
  · exact le_rfl

theorem Reachable.alone
    (h : Reachable s) (hf : s.flights ≤ 2 ^ 64) :
  s.Alone
  := by
  induction h with
  | refl => exact alone_new
  | tail hr hs ih =>
      have hf' := hs.flights_le.trans hf
      exact (ih hf').step (Reachable.sound hr) hf' hs

/-! ### No flight is leaked and no follower is stranded -/

/-- The flight whose entry a step may remove: that of the leader or the task that takes the
step. -/
def Action.flight (s : SingleFlight) : Action → Option (CacheKey × UInt64)
  | .deregister n => (s.waiters n).map fun w => (w.key, w.generation)
  | .dropWaiter n _ => (s.waiters n).map fun w => (w.key, w.generation)
  | .cleanUp i => (s.cleanups i).map fun c => (c.key, c.generation)
  | _ => none

theorem removed_own
    {a : Action} {k : CacheKey} {g : UInt64} {e : FlightEntry} (ha : s.act a = some s')
    (hown : a.flight s = some (k, g)) (he : s.registry key = some e)
    (hgone : s'.registry key ≠ some e) :
  key = k ∧ e.generation = g
  := by
  by_contra hne
  apply hgone
  obtain ⟨_, rfl, rfl⟩ | ⟨n, w, rfl, hw, hp, rfl⟩ | ⟨n, w, rfl, hw, hp, rfl⟩ |
    ⟨n, w, b, rfl, hw, rfl⟩ | ⟨i, c, rfl, hc, rfl⟩ | ⟨_, rfl, rfl⟩ | ⟨i, rfl, rfl⟩ := act_cases ha
  · cases hown
  · cases hown
  · rw [Action.flight, hw] at hown
    obtain ⟨rfl, rfl⟩ := Prod.mk.inj (Option.some.inj hown)
    exact removeIfOwn_registry.mpr ⟨he, hne⟩
  · rw [Action.flight, hw] at hown
    obtain ⟨rfl, rfl⟩ := Prod.mk.inj (Option.some.inj hown)
    cases b with
    | true => exact he
    | false => exact removeIfOwn_registry.mpr ⟨he, hne⟩
  · rw [Action.flight, hc] at hown
    obtain ⟨rfl, rfl⟩ := Prod.mk.inj (Option.some.inj hown)
    exact removeIfOwn_registry.mpr ⟨he, hne⟩
  · cases hown
  · cases hown

/-- No flight is leaked and no follower is stranded, whatever the interleaving.

* Every entry has the generation of a leader of its key whose handle is alive, or of a task
  that is still to remove it; so once they are gone, the next to try becomes the leader.
* A step of a leader, or of the task it has left, removes no entry of a different generation.
* While the generation has not wrapped around, there is at most one leader of a key between
  two cancellations of the key that has not completed.
* A follower has been sent a message, or its channel is closed, or its leader is still alive
  or has left a task. -/
theorem no_leak_no_strand
    (h : Reachable s) :
  (∀ key e, s.registry key = some e →
      (∃ n w, s.waiters n = some w ∧ w.key = key ∧ w.generation = e.generation) ∨
        ∃ i c, s.cleanups i = some c ∧ c.key = key ∧ c.generation = e.generation) ∧
    (∀ key, (∀ n w, s.waiters n = some w → w.key ≠ key) →
      (∀ i c, s.cleanups i = some c → c.key ≠ key) →
      (s.tryAcquire key).1 = .leader s.flights) ∧
    (∀ a s' key e k g, s.act a = some s' → a.flight s = some (k, g) →
      s.registry key = some e → s'.registry key ≠ some e → key = k ∧ e.generation = g) ∧
    (s.flights ≤ 2 ^ 64 → ∀ n n' w w', s.Uncompleted n w → s.Uncompleted n' w' →
      w.key = w'.key → w.epoch = w'.epoch → n = n') ∧
    ∀ i r, s.receivers i = some r → r.received = true ∨ s.Closed r.sender ∨
      (∃ w, s.waiters r.sender = some w) ∨ ∃ j c, s.cleanups j = some c ∧ c.flight = r.sender
  := by
  have hs := h.sound
  have htended : ∀ key e, s.registry key = some e →
      (∃ n w, s.waiters n = some w ∧ w.key = key ∧ w.generation = e.generation) ∨
        ∃ i c, s.cleanups i = some c ∧ c.key = key ∧ c.generation = e.generation := by
    intro key e he
    obtain ⟨w, ⟨hw, -⟩, hkey, hg⟩ | ⟨i, c, hc, -, hkey, hg⟩ := hs.tended key e he
    · exact Or.inl ⟨_, w, hw, hkey, hg⟩
    · exact Or.inr ⟨i, c, hc, hkey, hg⟩
  refine ⟨htended, ?_, ?_, ?_, ?_⟩
  · intro key hw hc
    have hnone : s.registry key = none := by
      cases he : s.registry key with
      | none => rfl
      | some e =>
          obtain ⟨n, w, hn, hkey, -⟩ | ⟨i, c, hi, hkey, -⟩ := htended key e he
          · exact absurd hkey (hw n w hn)
          · exact absurd hkey (hc i c hi)
    rw [tryAcquire, hnone]
  · intro a s' key e k g ha hown he hgone
    exact removed_own ha hown he hgone
  · intro hf
    exact (h.alone hf).unique
  · intro i r _
    by_cases hw : ∃ w, s.waiters r.sender = some w
    · exact Or.inr (Or.inr (Or.inl hw))
    by_cases hc : ∃ j c, s.cleanups j = some c ∧ c.flight = r.sender
    · exact Or.inr (Or.inr (Or.inr hc))
    refine Or.inr (Or.inl ⟨?_, ?_⟩)
    · cases hn : s.waiters r.sender with
      | none => rfl
      | some w => exact absurd ⟨w, hn⟩ hw
    · rintro key e he hsender
      obtain ⟨w, ⟨hn, -⟩, -⟩ | ⟨j, c, hj, hfl, -⟩ := hs.tended key e he
      · exact hw ⟨w, hsender ▸ hn⟩
      · exact hc ⟨j, c, hj, hfl.trans hsender⟩

/-- A flight that is started and dropped leaves nothing behind. -/
theorem step_lead_drop
    (hkey : s.registry key = none) (hw : s.waiters s.flights = none) :
  Relation.ReflTransGen Step s
    { s with nextGeneration := s.nextGeneration + 1, flights := s.flights + 1 }
  := by
  have hlead : Step s (s.lead key) := by
    refine ⟨.tryAcquire key, ?_⟩
    rw [act, tryAcquire, hkey]
  apply (Relation.ReflTransGen.single hlead).tail
  refine ⟨.dropWaiter s.flights false, ?_⟩
  have hreg : Function.update (Function.update s.registry key (some ⟨s.flights, s.nextGeneration⟩))
      key none = s.registry := by
    rw [Function.update_idem, ← hkey, Function.update_eq_self]
  have hwaiters : Function.update (s.lead key).waiters s.flights none = s.waiters := by
    rw [lead, Function.update_idem, ← hw, Function.update_eq_self]
  have hlw : (s.lead key).waiters s.flights =
      some ⟨key, s.nextGeneration, .fetching, s.cancels key⟩ := Function.update_self _ _ _
  have hlr : (s.lead key).registry key = some ⟨s.flights, s.nextGeneration⟩ :=
    Function.update_self _ _ _
  simp only [act, hlw, Option.map_some, dropWaiter, Bool.false_eq_true, if_false, removeIfOwn, without,
    hlr, hwaiters, if_true]
  simp only [lead, hreg]

theorem no_leak_no_strand_first :
  ∃ (s : SingleFlight) (key : CacheKey), Reachable s ∧ (s.tryAcquire key).1 = .leader 1
  := by
  have hr : Reachable { new with nextGeneration := 2, flights := 1 } :=
    @step_lead_drop _ ⟨"bucket", "object", "hash"⟩ rfl rfl
  refine ⟨_, ⟨"bucket", "object", "hash"⟩, hr, (no_leak_no_strand hr).2.1 _ ?_ ?_⟩
  · intro n w hw
    cases hw
  · intro i c hc
    cases hc

/-! ### A generation that wraps around

After `2 ^ 64` flights a leader that was cancelled before all of them has the generation of a
new flight of its key, and removes its entry. -/

/-- A key whose leader is cancelled at the start. -/
def cancelledKey : CacheKey := ⟨"bucket", "object", "hash"⟩

/-- The first leader has been cancelled, and `n` flights of other keys have ended since. -/
def cancelledFirst (n : ℕ) : SingleFlight :=
  { new with
    nextGeneration := UInt64.ofNat (n + 2)
    flights := n + 1
    waiters := Function.update new.waiters 0 (some ⟨cancelledKey, 1, .fetching, 0⟩)
    cancels := Function.update new.cancels cancelledKey 1 }

theorem reachable_cancelledFirst
    (n : ℕ) :
  Reachable (cancelledFirst n)
  := by
  induction n with
  | zero =>
      have hlead : Step new (new.lead cancelledKey) := ⟨.tryAcquire cancelledKey, rfl⟩
      apply (Relation.ReflTransGen.single hlead).tail
      refine ⟨.cancel cancelledKey, ?_⟩
      have hreg : Function.update (new.lead cancelledKey).registry cancelledKey none =
          new.registry := by
        rw [lead, Function.update_idem]
        exact Function.update_eq_self cancelledKey new.registry
      rw [act, cancel, hreg]
      rfl
  | succ n ih =>
      have hfree : (cancelledFirst n).waiters (cancelledFirst n).flights = none := by
        cases hw : (cancelledFirst n).waiters (cancelledFirst n).flights with
        | none => rfl
        | some w => exact absurd ((Reachable.sound ih).started _ w hw).1 (lt_irrefl _)
      have hsteps := @step_lead_drop (cancelledFirst n) cancelledKey rfl hfree
      have hnext : UInt64.ofNat (n + 1 + 2) = UInt64.ofNat (n + 2) + 1 := UInt64.ofNat_add (n + 2) 1
      have hsucc : cancelledFirst (n + 1) = { cancelledFirst n with
          nextGeneration := (cancelledFirst n).nextGeneration + 1
          flights := (cancelledFirst n).flights + 1 } := by
        rw [cancelledFirst, hnext]
        rfl
      rw [hsucc]
      exact Relation.ReflTransGen.trans ih hsteps

/-- A leader that is dropped removes the entry of a new flight of its key that has the same
generation, and so makes room for another leader. -/
theorem exists_two_leaders
    (hr : Reachable s) (hkey : s.registry w.key = none) (hw : s.waiters n = some w)
    (hg : s.nextGeneration = w.generation) :
  ∃ (s' : SingleFlight) (m m' : ℕ) (v v' : FlightWaiter), Reachable s' ∧ s'.Uncompleted m v ∧
    s'.Uncompleted m' v' ∧ v.key = v'.key ∧ v.epoch = v'.epoch ∧ m ≠ m'
  := by
  have hn : n ≠ s.flights := (hr.sound.started n w hw).1.ne
  have h₁ : Step s (s.lead w.key) := by
    refine ⟨.tryAcquire w.key, ?_⟩
    rw [act, tryAcquire, hkey]
  have hw₁ : (s.lead w.key).waiters n = some w := update_some_iff.mpr (Or.inr ⟨hn, hw⟩)
  have hv₁ : (s.lead w.key).waiters s.flights =
      some ⟨w.key, s.nextGeneration, .fetching, s.cancels w.key⟩ := Function.update_self _ _ _
  have hreg₁ : (s.lead w.key).registry w.key = some ⟨s.flights, s.nextGeneration⟩ :=
    Function.update_self _ _ _
  -- The cancelled leader is dropped, and removes the entry of the new one.
  let s₂ : SingleFlight := { (s.lead w.key).without n with
    registry := Function.update (s.lead w.key).registry w.key none }
  have h₂ : Step (s.lead w.key) s₂ := by
    refine ⟨.dropWaiter n false, ?_⟩
    simp only [act, hw₁, Option.map_some, dropWaiter, Bool.false_eq_true, if_false, removeIfOwn,
      without, hreg₁, hg, if_true, s₂]
  have h₃ : Step s₂ (s₂.lead w.key) := by
    refine ⟨.tryAcquire w.key, ?_⟩
    rw [act, tryAcquire, show s₂.registry w.key = none from Function.update_self _ _ _]
  have hv₂ : s₂.waiters s.flights =
      some ⟨w.key, s.nextGeneration, .fetching, s.cancels w.key⟩ :=
    update_none_iff.mpr ⟨hn.symm, hv₁⟩
  have hv₃ : (s₂.lead w.key).waiters s.flights =
      some ⟨w.key, s.nextGeneration, .fetching, s.cancels w.key⟩ :=
    update_some_iff.mpr (Or.inr ⟨(Nat.lt_succ_self _).ne, hv₂⟩)
  have hv₄ : (s₂.lead w.key).waiters (s.flights + 1) =
      some ⟨w.key, s₂.nextGeneration, .fetching, s.cancels w.key⟩ := Function.update_self _ _ _
  exact ⟨s₂.lead w.key, s.flights, s.flights + 1, _, _, ((hr.tail h₁).tail h₂).tail h₃,
    ⟨hv₃, by simp⟩, ⟨hv₄, by simp⟩, rfl, rfl, (Nat.lt_succ_self _).ne⟩

/-- Once the generation has wrapped around, there may be two leaders of a key at a time that
have not completed, with no cancellation between them. -/
theorem two_leaders_wrapped :
  ∃ (s : SingleFlight) (n n' : ℕ) (w w' : FlightWaiter), Reachable s ∧ s.Uncompleted n w ∧
    s.Uncompleted n' w' ∧ w.key = w'.key ∧ w.epoch = w'.epoch ∧ n ≠ n'
  := by
  apply exists_two_leaders (reachable_cancelledFirst (2 ^ 64 - 1)) (n := 0)
    (w := ⟨cancelledKey, 1, .fetching, 0⟩)
  · rfl
  · rfl
  · decide

end SingleFlight

end TinyS3Proxy
