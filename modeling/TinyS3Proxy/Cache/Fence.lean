import Mathlib
import TinyS3Proxy.Cache.Runs
import TinyS3Proxy.Coop.Solo

/-!
# The invalidation fence

Once an invalidation of a key has succeeded, no probe of the key returns anything of a
fill that was begun before the invalidation: the fill cannot publish any more, and what it
may have published is gone or poisoned.
-/

namespace TinyS3Proxy

open Coop Coop.Discipline

namespace DiskCache

variable {P : Pool (DiskCache (List Event))} {s s' : DiskCache (List Event)}

/-! ### The log of a run -/

/-- A run adds its events to the log one by one. -/
theorem logs_change :
  Logs (fun s : DiskCache (List Event) => s.env)
    (fun s s' => disciplined.Inv s' ∧ disciplined.Change s s')
  := by
  rintro s s' ⟨-, ⟨-, he | ⟨e, rfl, -⟩⟩ | hr⟩
  · exact Or.inl he
  · exact Or.inr ⟨e, rfl⟩
  · exact Or.inr ⟨_, reset_env hr⟩

/-- An event in the log of a run tells what held when it was noted. -/
theorem Trace.exists_noted
    {a : ℕ} {e : Event} (h : disciplined.Trace (fresh []) s) (he : s.env[a]? = some e)
    (hne : e ≠ .restarted) :
  ∃ s₁, disciplined.Trace (fresh []) s₁ ∧ s₁.env = s.env.take a ∧ s₁.Tells e ∧
    disciplined.Trace (s₁.note e) s
  := by
  obtain ⟨halt, hget⟩ := List.getElem?_eq_some_iff.mp he
  have hlog : s.env = (fresh ([] : List Event)).env ++ s.env.take a ++ e :: s.env.drop (a + 1) := by
    rw [← hget]
    simp [fresh]
  obtain ⟨s₁, s₂, h₁, ⟨-, h₁₂⟩, h₂, hl₁, hl₂⟩ := logs_change.exists_step h hlog
  refine ⟨s₁, h₁, hl₁, ?_⟩
  rw [← hl₁] at hl₂
  obtain ⟨-, hsame | ⟨e', rfl, hT⟩⟩ | hr := h₁₂
  · rw [hsame] at hl₂
    simp at hl₂
  · obtain rfl : e' = e := by simpa [note, setEnv] using hl₂
    exact ⟨hT, h₂⟩
  · rw [reset_env hr] at hl₂
    obtain rfl : Event.restarted = e := by simpa using hl₂
    exact absurd rfl hne

/-- What only grows does so while the process is not restarted. -/
theorem Trace.mono
    (h : disciplined.Trace s s')
    (hno : ∀ n, s.env.length ≤ n → s'.env[n]? ≠ some .restarted) :
  s.Mono calling s'
  := by
  induction h with
  | refl => exact Mono.refl calling s
  | @tail s₁ s₂ h₁ h₁₂ ih =>
      have hpre : s₁.env <+: s₂.env := logs_change.grows (Relation.ReflTransGen.single h₁₂)
      have hm₁ : s.Mono calling s₁ := by
        apply ih
        intro n hn he
        apply hno n hn
        obtain ⟨hlt, -⟩ := List.getElem?_eq_some_iff.mp he
        obtain ⟨l, hl⟩ := hpre
        rw [← he, ← hl, List.getElem?_append_left hlt]
      obtain ⟨-, ⟨hm, -⟩ | hr⟩ := h₁₂
      · exact hm₁.trans hm
      · exfalso
        have hle : s.env.length ≤ s₁.env.length := (logs_change.grows h₁).length_le
        apply hno s₁.env.length hle
        rw [reset_env hr]
        simp

/-- What only grows does so from the moment an event is noted on, while the process is not
restarted. -/
theorem Trace.mono_noted
    {e : Event} (h : disciplined.Trace (s.note e) s')
    (hno : ∀ n, s.env.length < n → s'.env[n]? ≠ some .restarted) :
  s.Mono calling s'
  := by
  apply (mono_setEnv (S := calling) (List.prefix_append s.env [e])).trans
  apply Trace.mono h
  intro n hn
  have hlen : (s.note e).env.length = s.env.length + 1 := List.length_append
  exact hno n (by omega)

/-! ### The fence -/

/-- The call invalidates the key, and the result says that it has succeeded. -/
def Succeeds (key : CacheKey) : (c : Call) → c.Result → Prop
  | .purge k, .ok _ => k = key
  | .poison k, .ok _ => k = key
  | .purgeIfUnchanged k _, .ok b => k = key ∧ b = true
  | .poisonIfUnchanged k _, .ok b => k = key ∧ b = true
  | _, _ => False

/-- The call probes the key, and the result is the given entry. -/
def Finds (key : CacheKey) (entry : CacheEntry) : (c : Call) → c.Result → Prop
  | .lookup k, .ok (some x) => k = key ∧ x = entry
  | .peek k, .ok (some x) => k = key ∧ x = entry
  | .peekBody k, .ok (some x) => k = key ∧ x = entry
  | _, _ => False

/-- The entry has neither the body nor the fill id of the fill `f`. -/
def NotOf (s : DiskCache (List Event)) (f : ℕ) (entry : CacheEntry) : Prop :=
  (∀ i b, entry.bodyFile = some i → s.data i ≠ .body f b) ∧
    ∀ r, s.fills f = some r → r.fillId ≠ some entry.info.fillId

theorem Succeeds.fenced
    {key : CacheKey} {i t : ℕ} {c : Call} {r : c.Result} (hs : Succeeds key c r)
    (hT : s.Told i t c r) :
  s.FencedAll (s.Before key i)
  := by
  cases c with
  | purge k | poison k =>
      cases r with
      | error e => exact hs.elim
      | ok b =>
          obtain rfl : k = key := hs
          exact hT trivial
  | purgeIfUnchanged k expected | poisonIfUnchanged k expected =>
      cases r with
      | error e => exact hs.elim
      | ok b =>
          obtain ⟨rfl, hb⟩ : k = key ∧ b = true := hs
          exact hT hb
  | beginFill | commitFill | abortFill | lookup | peek | peekBody | updateMetadataIfUnchanged
  | rewriteLastAccessed | runEvictionPass => exact hs.elim

theorem Finds.hit
    {key : CacheKey} {entry : CacheEntry} {i t : ℕ} {c : Call} {r : c.Result}
    (hf : Finds key entry c r) (hT : s.Told i t c r) :
  ∃ pinBody, s.Hit key pinBody (s.slot key.hash) entry
  := by
  cases c with
  | lookup k | peek k | peekBody k =>
      cases r with
      | error e => exact hf.elim
      | ok o =>
          cases o with
          | none => exact hf.elim
          | some x =>
              obtain ⟨rfl, rfl⟩ : k = key ∧ x = entry := hf
              exact ⟨_, hT⟩
  | beginFill | commitFill | abortFill | purge | poison | purgeIfUnchanged | poisonIfUnchanged
  | updateMetadataIfUnchanged | rewriteLastAccessed | runEvictionPass => exact hf.elim

/-- What a probe finds is not of a fill that is fenced. -/
theorem Hit.notOf
    {key : CacheKey} {pinBody : Bool} {entry : CacheEntry} {f : ℕ} {r : Fill (List Event)}
    (hI : s.Inv calling) (hh : s.Hit key pinBody (s.slot key.hash) entry) (hf : s.Fenced f)
    (hr : s.fills f = some r) (hk : r.key = key) (hboot : s.bootFill ≤ f)
    (hm : s.Mono calling s') :
  s'.NotOf f entry
  := by
  obtain ⟨r₀, ⟨hr₀, -⟩, htrace⟩ := hf
  obtain rfl := Option.some.inj (hr.symm.trans hr₀)
  rw [hk] at htrace
  obtain hp | ⟨hnb, hni⟩ := htrace
  · rw [hh.fresh] at hp
    cases hp
  obtain ⟨g, j, hj, -, hd⟩ := hh.info
  have hat := hI.infos key.hash j g entry.info hj hd
  constructor
  · intro i b hi
    obtain ⟨k, hkb, he⟩ := hh.body
    rw [hi] at he
    have hki : k = i := by
      cases pinBody with
      | true => exact (Option.some.inj he).symm
      | false => cases he
    subst hki
    rw [hm.data k (hI.slot_body_lt _ k hkb)]
    exact hnb k b hkb
  · intro r' hr' hid
    obtain hle | ⟨r₁, hr₁, hid₁⟩ := hm.ids f r' _ hr' hid
    · exact absurd hat.id_lt (UInt64.not_lt.mpr hle)
    · obtain rfl := hat.id_unique f r₁ hboot hr₁ hid₁
      exact hni j entry.info hj hd

/-- Cache invalidation is a fence: if a fill of the key was begun, at position `a` of the
log, before an invalidation of the key was called, at position `j`, and the invalidation has
succeeded, then no probe of the key that returns later returns an entry of that fill. The
generation of no fill may have wrapped around, and the process has not been restarted since
the fill was begun. -/
theorem fence
    {key : CacheKey} {guard : FillGuard} {entry : CacheEntry} {a j k l i t t' t'' i' : ℕ}
    {c c' : Call} {r : c.Result} {r' : c'.Result} (h : Run P) (hw : P.st.wrapped = false)
    (ha : P.st.env[a]? = some (.returned i t (.beginFill key) guard))
    (haj : a < j) (hk : P.st.env[k]? = some (.returned j t' c r)) (hs : Succeeds key c r)
    (hl : P.st.env[l]? = some (.returned i' t'' c' r')) (hkl : k < l)
    (hf : Finds key entry c' r')
    (hno : ∀ n, a < n → P.st.env[n]? ≠ some .restarted) :
  P.st.NotOf guard.fill entry
  := by
  obtain ⟨-, hT⟩ := h.trace
  -- The probe returns in the state `s₃`, the invalidation in `s₂`, and `begin_fill` in `s₁`.
  obtain ⟨s₃, hT₃, henv₃, ⟨-, -, htold₃⟩, hrest₃⟩ := Trace.exists_noted hT hl (by simp)
  obtain ⟨s₂, hT₂, henv₂, ⟨hinv₂, -, htold₂⟩, hrest₂⟩ :=
    Trace.exists_noted hT₃ (a := k) (by rw [henv₃, List.getElem?_take_of_lt hkl, hk]) (by simp)
  have hjk : j < k := by
    rw [henv₂, henv₃] at hinv₂
    obtain ⟨hlt, -⟩ := List.getElem?_eq_some_iff.mp hinv₂
    simp only [List.length_take] at hlt
    omega
  obtain ⟨s₁, hT₁, henv₁, ⟨-, -, htold₁⟩, hrest₁⟩ :=
    Trace.exists_noted hT₂ (a := a)
      (by rw [henv₂, henv₃, List.take_take, List.getElem?_take_of_lt (by omega), ha]) (by simp)
  have hlen₁ : s₁.env.length = a := by
    rw [henv₁, henv₂, henv₃]
    have := (List.getElem?_eq_some_iff.mp hl).1
    simp only [List.length_take]
    omega
  have hlen₂ : s₂.env.length = k := by
    rw [henv₂, henv₃]
    have := (List.getElem?_eq_some_iff.mp hl).1
    simp only [List.length_take]
    omega
  have hlen₃ : s₃.env.length = l := by
    rw [henv₃]
    have := (List.getElem?_eq_some_iff.mp hl).1
    simp only [List.length_take]
    omega
  have hm₃ : s₃.Mono calling P.st := by
    apply Trace.mono_noted hrest₃
    intro n hn
    exact hno n (by omega)
  have hm₂ : s₂.Mono calling s₃ := by
    apply Trace.mono_noted hrest₂
    intro n hn
    rw [henv₃, List.getElem?_take]
    split
    · exact hno n (by omega)
    · exact (Option.some_ne_none _).symm
  have hm₁ : s₁.Mono calling s₂ := by
    apply Trace.mono_noted hrest₁
    intro n hn
    rw [henv₂, henv₃, List.take_take, List.getElem?_take]
    split
    · exact hno n (by omega)
    · exact (Option.some_ne_none _).symm
  have hw₃ : s₃.wrapped = false := by
    by_contra hw₃
    rw [hm₃.wrapped (by simpa using hw₃)] at hw
    cases hw
  have hw₂ : s₂.wrapped = false := by
    by_contra hw₂
    rw [hm₂.wrapped (by simpa using hw₂)] at hw₃
    cases hw₃
  obtain ⟨hboot, r₁, hr₁, hkey, hborn⟩ := htold₁
  obtain ⟨r₂, hr₂, hg₂⟩ := hm₁.fills _ r₁ hr₁
  obtain ⟨r₃, hr₃, hg₃⟩ := hm₂.fills _ r₂ hr₂
  have hbefore : s₂.Before key j guard.fill := by
    refine ⟨r₂, hr₂, hg₂.key.trans hkey, ?_⟩
    have := hborn.length_le
    rw [hg₂.born]
    omega
  have hfenced := hm₂.fenced hw₃ _ (hs.fenced htold₂ hw₂ _ hbefore)
  obtain ⟨pinBody, hhit⟩ := hf.hit htold₃
  apply hhit.notOf (hT₃.inv (fresh_inv trivial)) hfenced hr₃ _ _ hm₃
  · rw [hg₃.key, hg₂.key, hkey]
  · rw [hm₂.bootFill, hm₁.bootFill]
    exact hboot

/-- A fill is begun, its key is purged, and a second fill is published, which a lookup
finds. -/
def purgedSchedule : List (Pool.Cmd (DiskCache (List Event))) :=
  .spawn (filler sampleKey [] (some sampleMeta)) :: (runs 0 1 ++
    .spawn (caller (.purge sampleKey)) :: (runs 1 6 ++
      .spawn (filler sampleKey [1] (some sampleMeta)) :: (runs 2 27 ++
        .spawn (caller (.lookup sampleKey)) :: runs 3 5)))

/-- The log tells that a fill was begun, that its key was purged, and that a lookup has then
found an entry. -/
def foundAfterPurge (s : DiskCache (List Event)) : Bool :=
  !s.wrapped && s.env.all (fun e => e matches .invoked _ _ | .returned _ _ _ _) &&
    match s.env[1]?, s.env[3]?, s.env[9]? with
    | some (Event.returned _ _ (.beginFill k) guard),
      some (Event.returned j _ (.purge k') (.ok _)),
      some (Event.returned _ _ (.lookup k'') (.ok (some entry))) =>
        k = sampleKey && k' = sampleKey && k'' = sampleKey && j = 2 && guard.fill = 0 &&
          entry.bodyFile.isSome
    | _, _, _ => false

theorem fence_second_fill :
  ∃ (P : Pool (DiskCache (List Event))) (entry : CacheEntry), Run P ∧ entry.bodyFile.isSome ∧
    P.st.NotOf 0 entry
  := by
  have hcs : ∀ c ∈ purgedSchedule, c.Allowed callers := by
    simp only [purgedSchedule, List.forall_mem_cons, List.forall_mem_append]
    exact ⟨allowed_filler _ _ _, allowed_runs _ _, allowed_caller trivial, allowed_runs _ _,
      allowed_filler _ _ _, allowed_runs _ _, allowed_caller trivial, allowed_runs _ _⟩
  obtain ⟨P, hr, hp⟩ := exists_run (p := foundAfterPurge) hcs (by decide +kernel)
  rw [foundAfterPurge, Bool.and_eq_true, Bool.and_eq_true, Bool.not_eq_true'] at hp
  obtain ⟨⟨hw, hall⟩, hp⟩ := hp
  split at hp
  next i t k guard j t' k' b i' t'' k'' entry h₁ h₂ h₃ =>
    simp only [Bool.and_eq_true, decide_eq_true_eq] at hp
    obtain ⟨⟨⟨⟨⟨rfl, rfl⟩, rfl⟩, rfl⟩, hfill⟩, hbody⟩ := hp
    refine ⟨P, entry, hr, hbody, ?_⟩
    rw [← hfill]
    apply fence hr hw h₁ (by decide) h₂ rfl h₃ (by decide) ⟨rfl, rfl⟩
    intro n _ he
    cases List.all_eq_true.mp hall _ (List.mem_of_getElem? he)
  next => cases hp

/-! ### A generation that wraps around

The generation is a machine word, so after `2 ^ 64` invalidations a fill that was begun before
all of them finds its own generation again. -/

/-- What is left of a filler once its fill has been begun, and the cache at that moment. -/
def begun : Async (DiskCache (List Event)) Unit × DiskCache (List Event) :=
  ((filler sampleKey [] (some sampleMeta)).go 0 [0] (fresh [])).getD (.ret (), fresh [])

/-- The cache when one fill has been begun and its key has been purged `n` times since. -/
def purgedTimes (l : List Event) (w : Bool) (n : ℕ) : DiskCache (List Event) :=
  { begun.2.setEntry 0 { begun.2.entries 0 with bumps := n } with
    env := l
    wrapped := w }

/-- The events of one purge. -/
def purgeEvents (l : List Event) (t : ℕ) : List Event :=
  l ++ [.invoked t (.purge sampleKey)] ++
    [.returned l.length t (.purge sampleKey) (.ok false)]

/-- The state after one purge, section by section. -/
def purgedOnce (s : DiskCache (List Event)) (t : ℕ) : DiskCache (List Event) :=
  let s₁ := s.note (.invoked t (.purge sampleKey))
  let s₂ := (s₁.setEntry 0 { s₁.entries 0 with commitLock := some t }).bumped 0
  let s₃ := { s₂ with metaLocks := Function.update s₂.metaLocks "hash" (some t) }
  let s₄ := s₃.setPoisoned "hash" false
  let s₅ := { s₄.leave "hash" with metaLocks := Function.update s₄.metaLocks "hash" none }
  let s₆ := s₅.setEntry 0 { s₅.entries 0 with commitLock := none }
  s₆.note (.returned s.env.length t (.purge sampleKey) (.ok false))

theorem purge_go
    (l : List Event) (w : Bool) (n t : ℕ) :
  (caller (.purge sampleKey)).go t (List.replicate 6 0) (purgedTimes l w n) =
    some (.ret (), purgedOnce (purgedTimes l w n) t)
  := rfl

theorem purgedOnce_eq
    (l : List Event) (w : Bool) (n t : ℕ) :
  purgedOnce (purgedTimes l w n) t =
    purgedTimes (purgeEvents l t) (purgedOnce (purgedTimes l w n) t).wrapped (n + 1)
  := by
  have hentries : (purgedOnce (purgedTimes l w n) t).entries =
      (purgedTimes l w (n + 1)).entries := by
    funext e
    by_cases he : e = 0
    · subst he
      rfl
    · simp [purgedOnce, purgedTimes, note, setEnv, setEntry, bumped, setPoisoned, leave, he]
  have hash_cases : (purgedOnce (purgedTimes l w n) t).metaLocks = (purgedTimes l w n).metaLocks ∧
      (purgedOnce (purgedTimes l w n) t).poisonedHashes = (purgedTimes l w n).poisonedHashes ∧
      (purgedOnce (purgedTimes l w n) t).slot = (purgedTimes l w n).slot := by
    refine ⟨?_, ?_, ?_⟩
    all_goals
      funext h
      by_cases he : h = "hash"
      · subst he
        rfl
      · simp [purgedOnce, purgedTimes, note, setEnv, setEntry, bumped, setPoisoned, leave, he]
  obtain ⟨hlocks, hpoisoned, hslot⟩ := hash_cases
  have hrest : ∀ a b : DiskCache (List Event), a.entries = b.entries →
      a.metaLocks = b.metaLocks → a.poisonedHashes = b.poisonedHashes → a.slot = b.slot →
      a = { a with
        entries := b.entries
        metaLocks := b.metaLocks
        poisonedHashes := b.poisonedHashes
        slot := b.slot } := by
    intro a b h₁ h₂ h₃ h₄
    rw [← h₁, ← h₂, ← h₃, ← h₄]
  exact hrest _ (purgedTimes l w (n + 1)) hentries hlocks hpoisoned hslot

/-- The log tells that the fill `0` was begun, and, after some purges, that one of them
succeeded later. -/
structure PurgedLog (n : ℕ) (l : List Event) : Prop where
  begun : l[1]? = some (.returned 0 0 (.beginFill sampleKey) ⟨sampleKey, 0, 0⟩)
  running : .restarted ∉ l
  purged : 0 < n → ∃ j k t : ℕ, 1 < j ∧ l[k]? = some (Event.returned j t (.purge sampleKey) (.ok false))

theorem PurgedLog.succ
    {n : ℕ} {l : List Event} (h : PurgedLog n l) (t : ℕ) :
  PurgedLog (n + 1) (purgeEvents l t)
  := by
  have hlen : 1 < l.length := (List.getElem?_eq_some_iff.mp h.begun).1
  refine ⟨?_, ?_, ?_⟩
  · rw [purgeEvents, List.append_assoc, List.getElem?_append_left hlen, h.begun]
  · simpa [purgeEvents] using h.running
  · intro _
    exact ⟨l.length, l.length + 1, t, hlen, by simp [purgeEvents]⟩

/-- A fill may be begun and its key purged any number of times. -/
theorem exists_purgedTimes
    (n : ℕ) :
  ∃ P l w, Run P ∧ P.tasks 0 = some begun.1 ∧ 0 < P.next ∧ P.st = purgedTimes l w n ∧
    PurgedLog n l
  := by
  induction n with
  | zero =>
      have hfill : (filler sampleKey [] (some sampleMeta)).go 0 [0] (fresh []) = some begun := rfl
      have hrun := Pool.steps_start_go (S := callers) (P := Pool.idle (fresh []) 0)
        (Or.inr ⟨_, _, _, rfl⟩) hfill
      have henv : begun.2.env = [.invoked 0 (.beginFill sampleKey),
          .returned 0 0 (.beginFill sampleKey) ⟨sampleKey, 0, 0⟩] := rfl
      have hst : begun.2 = purgedTimes begun.2.env begun.2.wrapped 0 := by
        have hentries : Function.update begun.2.entries 0 (begun.2.entries 0) = begun.2.entries :=
          Function.update_eq_self 0 begun.2.entries
        change begun.2 = { begun.2 with
          entries := Function.update begun.2.entries 0 (begun.2.entries 0) }
        rw [hentries]
      refine ⟨_, begun.2.env, begun.2.wrapped, hrun, rfl, Nat.zero_lt_one, hst, ?_, ?_, ?_⟩
      · rw [henv]
        rfl
      · rw [henv]
        simp
      · intro h
        cases h
  | succ n ih =>
      obtain ⟨P, l, w, hr, htask, hnext, hst, hl⟩ := ih
      have hgo := purge_go l w n P.next
      rw [← hst] at hgo
      have hrun := Pool.steps_start_go (allowed_caller (c := .purge sampleKey) trivial) hgo
      have hst' := (congrArg (purgedOnce · P.next) hst).trans (purgedOnce_eq l w n P.next)
      refine ⟨_, _, _, Relation.ReflTransGen.trans hr hrun, ?_, Nat.succ_pos _, hst',
        hl.succ P.next⟩
      exact (Function.update_of_ne hnext.ne _ _).trans htask

/-- The events when the fill is committed after all and a lookup finds it. -/
def committedEvents (l : List Event) (t : ℕ) : List Event :=
  let c := Call.commitFill ⟨sampleKey, 0, 0⟩ (.tmp 0 0 .body) sampleMeta
  let l₁ := l ++ [.invoked 0 c] ++ [.returned l.length 0 c (.ok ())]
  l₁ ++ [.invoked t (.lookup sampleKey)] ++
    [.returned l₁.length t (.lookup sampleKey) (.ok (some ⟨sampleMeta.stamped 1, some 0⟩))]

theorem committed_go
    (l : List Event) (w : Bool) (t : ℕ) :
  (((begun.1.go 0 (List.replicate 26 0) (purgedTimes l w (2 ^ 64))).bind fun r =>
      (caller (.lookup sampleKey)).go t (List.replicate 5 0) r.2).map fun r =>
    (r.2.env, r.2.data 0)) = some (committedEvents l t, .body 0 [])
  := by
  cbv

/-- Without the assumption that no generation has wrapped around, the fence does not hold:
the entry of the fill `0` is found after its key has been purged `2 ^ 64` times. -/
theorem fence_wrapped :
  ∃ (P : Pool (DiskCache (List Event))) (entry : CacheEntry) (j k l t t' i' : ℕ), Run P ∧
    P.st.env[1]? = some (.returned 0 0 (.beginFill sampleKey) ⟨sampleKey, 0, 0⟩) ∧ 1 < j ∧
    P.st.env[k]? = some (.returned j t (.purge sampleKey) (.ok false)) ∧ k < l ∧
    P.st.env[l]? = some (.returned i' t' (.lookup sampleKey) (.ok (some entry))) ∧
    .restarted ∉ P.st.env ∧ ¬ P.st.NotOf 0 entry
  := by
  obtain ⟨P, l, w, hr, htask, hnext, hst, hl⟩ := exists_purgedTimes (2 ^ 64)
  have hgo := committed_go l w P.next
  rw [← hst, Option.map_eq_some_iff] at hgo
  obtain ⟨⟨q', s'⟩, hgo, hobs⟩ := hgo
  obtain ⟨⟨q, s⟩, hgo₁, hgo₂⟩ := Option.bind_eq_some_iff.mp hgo
  obtain ⟨henv, hdata⟩ : s'.env = committedEvents l P.next ∧ s'.data 0 = .body 0 [] :=
    Prod.mk.inj hobs
  have hrun₁ := Pool.steps_go (S := callers) htask trivial hgo₁
  have hrun₂ := Pool.steps_start_go (P := ⟨s, Function.update P.tasks 0 (some q), P.next⟩)
    (allowed_caller (c := .lookup sampleKey) trivial) hgo₂
  obtain ⟨j, k, t, hj, hk⟩ := hl.purged (by decide)
  have hk' : k < l.length := (List.getElem?_eq_some_iff.mp hk).1
  have hl' : 1 < l.length := (List.getElem?_eq_some_iff.mp hl.begun).1
  refine ⟨_, ⟨sampleMeta.stamped 1, some 0⟩, j, k, l.length + 3, t, P.next, l.length + 2,
    (Relation.ReflTransGen.trans hr hrun₁).trans hrun₂, ?_, hj, ?_, by omega, ?_, ?_, ?_⟩
  · simp only [henv, committedEvents, List.append_assoc]
    rw [List.getElem?_append_left hl', hl.begun]
  · simp only [henv, committedEvents, List.append_assoc]
    rw [List.getElem?_append_left hk', hk]
  · simp [henv, committedEvents]
  · simpa [henv, committedEvents] using hl.running
  · rintro ⟨hbody, -⟩
    exact hbody 0 [] rfl hdata

end DiskCache

end TinyS3Proxy
