import TinyS3Proxy.Cache.Whole

/-!
# Fill ids and metadata versions

A fill id is never reused, a metadata update replaces exactly what it was computed from, and
what a fill publishes is what its caller has handed to the commit, as long as no metadata
with the same entity tag was in place.
-/

namespace TinyS3Proxy

open Coop Coop.Discipline

namespace DiskCache

variable {P : Pool (DiskCache (List Event))} {s s' : DiskCache (List Event)}

/-! ### Fill ids -/

/-- The metadata is on disk under the hash `h`, written for the fill `g`. -/
def OnDisk (s : DiskCache (List Event)) (h : String) (g : ℕ) (m : CacheMeta) : Prop :=
  ∃ i, s.files (.metaJson h) = some i ∧ s.data i = .json g m

theorem OnDisk.infoAt
    {h : String} {g : ℕ} {m : CacheMeta} (hd : s.OnDisk h g m) (hI : s.Inv calling) :
  s.InfoAt calling h g m
  := by
  obtain ⟨i, hi, hd⟩ := hd
  exact hI.infos h i g m (hI.info_slot hi) hd

/-- Two entries on disk have different fill ids. -/
theorem OnDisk.injective
    {h h' : String} {g g' : ℕ} {m m' : CacheMeta} (hI : s.Inv calling) (hd : s.OnDisk h g m)
    (hd' : s.OnDisk h' g' m') (hid : m.fillId = m'.fillId) :
  h = h'
  := by
  obtain ⟨r, hr, hh, -⟩ := (hd.infoAt hI).fill
  obtain ⟨r', hr', hh', -⟩ := (hd'.infoAt hI).fill
  obtain ⟨i, hi, hd⟩ := hd
  obtain ⟨i', hi', hd'⟩ := hd'
  obtain rfl := hI.ids_disk h h' i i' g g' m m' (hI.info_slot hi) (hI.info_slot hi') hd hd' hid
  obtain rfl := Option.some.inj (hr.symm.trans hr')
  exact hh.symm.trans hh'

/-- Fill ids are not reused, through any crashes and restarts. A published fill id is
positive; the entries on disk have different fill ids, all less than the one that is handed
out next; a published fill id is greater than all that had been published when it was
reserved, since the counter file was last lost; and when there is no fill id left, the
reservation fails and changes nothing. -/
theorem fill_ids_fresh
    (h : Run P) :
  (∀ w ∈ P.st.writes, ∀ arg, w.kind = .publish arg → 0 < w.new.fillId) ∧
    (∀ l l' g g' m m', P.st.OnDisk l g m → P.st.OnDisk l' g' m' → m.fillId = m'.fillId →
      l = l') ∧
    (∀ l g m, P.st.OnDisk l g m → m.fillId < P.st.nextFillId) ∧
    (∀ w ∈ P.st.writes, ∀ arg, w.kind = .publish arg → ∃ r, P.st.fills w.fill = some r ∧
      r.fillId = some w.new.fillId ∧
      ∀ j w' arg', P.st.counterKept ≤ j → j < r.reservedAt → P.st.writes[j]? = some w' →
        w'.kind = .publish arg' → w'.new.fillId < w.new.fillId) ∧
    ∀ (s : DiskCache (List Event)) (t f : ℕ), s.nextFillId = UInt64.ofNat (2 ^ 64 - 1) →
      (reserveLocked f).settle t s = (.ret (failed "reserve fill_id"), s)
  := by
  obtain ⟨hI, -⟩ := h.trace
  refine ⟨hI.published_pos, ?_, ?_, ?_, ?_⟩
  · intro l l' g g' m m' hd hd' hid
    exact hd.injective hI hd' hid
  · intro l g m hd
    exact (hd.infoAt hI).id_lt
  · intro w hw arg harg
    obtain ⟨r, hr, hid⟩ := hI.published_id w hw
    exact ⟨r, hr, hid, (hI.reserved w.fill r _ hr hid).2⟩
  · intro s t f hmax
    change Async.settle t (Async.sync _ _) s = _
    simp only [Async.settle, hmax, if_true]
    rfl

/-- A fill reserves its fill id, a fill of another key is published, and then the first one
is published. -/
def overtakenSchedule : List (Pool.Cmd (DiskCache (List Event))) :=
  .spawn (filler sampleKey [] (some sampleMeta)) :: (runs 0 20 ++
    .spawn (filler ⟨"bucket", "other", "hash'"⟩ [] (some { sampleMeta with key := "other" })) ::
      (runs 1 27 ++ runs 0 7))

theorem allowed_overtakenSchedule :
  ∀ c ∈ overtakenSchedule, c.Allowed callers
  := by
  simp only [overtakenSchedule, List.forall_mem_cons, List.forall_mem_append]
  exact ⟨allowed_filler _ _ _, allowed_runs _ _, allowed_filler _ _ _, allowed_runs _ _,
    allowed_runs _ _⟩

/-- The second fill id was published before the first one, and the counter file was never
lost. -/
def overtaken (s : DiskCache (List Event)) : Bool :=
  s.counterKept = 0 && match s.writes[0]?, s.writes[1]? with
  | some (Write.mk _ _ (.publish _) _ _ m), some (Write.mk _ _ (.publish _) _ _ m') =>
      m.fillId = 2 && m'.fillId = 1
  | _, _ => false

theorem fill_ids_fresh_overtaken :
  ∃ (P : Pool (DiskCache (List Event))) (w : Write), Run P ∧ w ∈ P.st.writes ∧ 0 < w.new.fillId
  := by
  obtain ⟨P, hr, hp⟩ := exists_run (p := overtaken) allowed_overtakenSchedule (by decide +kernel)
  rw [overtaken, Bool.and_eq_true] at hp
  obtain ⟨-, hp⟩ := hp
  split at hp
  next t h arg f old m _ _ _ _ _ _ hw _ =>
    have hmem := List.mem_of_getElem? hw
    exact ⟨P, _, hr, hmem, (fill_ids_fresh hr).1 _ hmem arg rfl⟩
  next => cases hp

/-- A published fill id need not be greater than all that were published before, even though
the counter file has never been lost: fills of two keys may be published in the other order
than they have reserved their fill ids. -/
theorem fill_id_overtaken :
  ∃ (P : Pool (DiskCache (List Event))) (w w' : Write) (arg arg' : CacheMeta), Run P ∧
    P.st.counterKept = 0 ∧ P.st.writes[0]? = some w ∧ w.kind = .publish arg ∧
    P.st.writes[1]? = some w' ∧ w'.kind = .publish arg' ∧ ¬ w.new.fillId < w'.new.fillId
  := by
  obtain ⟨P, hr, hp⟩ := exists_run (p := overtaken) allowed_overtakenSchedule (by decide +kernel)
  rw [overtaken, Bool.and_eq_true, decide_eq_true_eq] at hp
  obtain ⟨hk, hp⟩ := hp
  split at hp
  next t h arg f old m t' h' arg' f' old' m' hw hw' =>
    simp only [Bool.and_eq_true, decide_eq_true_eq] at hp
    obtain ⟨hm, hm'⟩ := hp
    refine ⟨P, _, _, arg, arg', hr, hk, hw, rfl, hw', rfl, ?_⟩
    rw [hm, hm']
    decide
  next => cases hp

/-! ### The writes of one fill -/

/-- How a write in place follows on the metadata `c` that was last written for its fill: an
access-time rewrite only moves the access time forward, and an update bumps the version and
keeps the access time. -/
def Follows (w : Write) (c : CacheMeta) : Prop :=
  w.old = some (w.fill, c) ∧ w.new.fillId = c.fillId ∧
    match w.kind with
    | .publish _ => False
    | .update => w.new.metadataVersion = CacheMeta.saturatingSucc c.metadataVersion ∧
        (c.metadataVersion ≠ UInt64.ofNat (2 ^ 64 - 1) →
          c.metadataVersion < w.new.metadataVersion) ∧
        w.new.lastAccessedAt = c.lastAccessedAt
    | .touch => c.lastAccessedAt < w.new.lastAccessedAt ∧
        w.new = { c with lastAccessedAt := w.new.lastAccessedAt }

theorem le_saturatingSucc (n : UInt64) :
  n ≤ CacheMeta.saturatingSucc n
  := by
  rw [CacheMeta.saturatingSucc]
  split
  · exact UInt64.le_refl n
  · next hn =>
    rw [UInt64.le_iff_toNat_le, toNat_succ hn]
    exact Nat.le_succ _

theorem lt_saturatingSucc_self
    {n : UInt64} (hn : n ≠ UInt64.ofNat (2 ^ 64 - 1)) :
  n < CacheMeta.saturatingSucc n
  := by
  rw [saturatingSucc_eq hn, UInt64.lt_iff_toNat_lt, toNat_succ hn]
  exact Nat.lt_succ_self _

/-- A write for a fill that has been written for follows on what was last written. -/
theorem WriteOk.follows
    {ws : List Write} {w : Write} {c : CacheMeta} (hw : WriteOk ws w)
    (hl : lastWrite ws w.fill = some c) :
  Follows w c
  := by
  have hnot : ¬ Unwritten ws w.fill := by
    intro hu
    rw [hu.lastWrite_eq] at hl
    cases hl
  unfold WriteOk at hw
  unfold Follows
  cases hk : w.kind with
  | publish arg =>
      rw [hk] at hw
      exact absurd hw.1 hnot
  | update =>
      rw [hk] at hw
      obtain ⟨c', m, hold, hnew, hlast⟩ := hw
      obtain rfl : c' = c := Option.some.inj ((hlast.resolve_right hnot).symm.trans hl)
      refine ⟨hold, ?_, ?_, ?_, ?_⟩
      · rw [hnew]
        rfl
      · rw [hnew]
        rfl
      · intro hmax
        rw [hnew]
        exact lt_saturatingSucc_self hmax
      · rw [hnew]
        rfl
  | touch =>
      rw [hk] at hw
      obtain ⟨c', now, hold, hlt, hnew, hlast⟩ := hw
      obtain rfl : c' = c := Option.some.inj ((hlast.resolve_right hnot).symm.trans hl)
      refine ⟨hold, ?_, ?_, ?_⟩
      · rw [hnew]
      · rw [hnew]
        exact hlt
      · rw [hnew]

/-- The version of what is written for a fill never goes down. -/
theorem Follows.version_le
    {w : Write} {c : CacheMeta} (h : Follows w c) :
  c.metadataVersion ≤ w.new.metadataVersion
  := by
  obtain ⟨-, -, h⟩ := h
  cases hk : w.kind with
  | publish arg =>
      rw [hk] at h
      exact h.elim
  | update =>
      rw [hk] at h
      rw [h.1]
      exact le_saturatingSucc _
  | touch =>
      rw [hk] at h
      rw [h.2]
      exact UInt64.le_refl _

/-- From some metadata of a fill on, the version never goes down. -/
theorem version_le_lastWrite
    {j k g : ℕ} {c : CacheMeta} (hI : s.Inv calling) (hjk : j ≤ k) (hk : k ≤ s.writes.length)
    (hl : lastWrite (s.writes.take j) g = some c) :
  ∃ c', lastWrite (s.writes.take k) g = some c' ∧ c.metadataVersion ≤ c'.metadataVersion
  := by
  induction k, hjk using Nat.le_induction with
  | base => exact ⟨c, hl, UInt64.le_refl _⟩
  | succ k hjk ih =>
      obtain ⟨c', hc', hle⟩ := ih (Nat.le_of_succ_le hk)
      have hlt : k < s.writes.length := hk
      obtain ⟨w, hw⟩ : ∃ w, s.writes[k]? = some w := ⟨_, List.getElem?_eq_getElem hlt⟩
      have htake : s.writes.take (k + 1) = s.writes.take k ++ [w] := by
        rw [List.take_add_one, hw]
        rfl
      rw [htake, lastWrite_append]
      split
      · next hg =>
        rw [← hg] at hc'
        exact ⟨w.new, rfl, UInt64.le_trans hle ((hI.writes k w hw).follows hc').version_le⟩
      · exact ⟨c', hc', hle⟩

/-! ### Updates -/

/-- The write replaces exactly the metadata, given by its fill id and its version, that the
update to `m` was computed from. -/
def Replaces (key : CacheKey) (expected : FillId) (m : CacheMeta) (w : Write) : Prop :=
  w.hash = key.hash ∧ w.kind = .update ∧ ∃ c, w.old = some (w.fill, c) ∧
    c.fillId = expected ∧ c.metadataVersion = m.metadataVersion ∧ w.new = m.updatedFrom c

/-- The call at position `a` of the log has updated the metadata of the key to `m`. -/
def UpdatedAt (s : DiskCache (List Event)) (a t : ℕ) (key : CacheKey) (expected : FillId)
    (m : CacheMeta) : Prop :=
  ∃ i, s.env[a]? = some (.returned i t (.updateMetadataIfUnchanged key expected m) (.ok true))

/-- A task makes one update only. -/
theorem UpdatedAt.unique
    {a a' t : ℕ} {key key' : CacheKey} {expected expected' : FillId} {m m' : CacheMeta}
    (hT : disciplined.Trace (fresh []) s) (hu : s.UpdatedAt a t key expected m)
    (hu' : s.UpdatedAt a' t key' expected' m') :
  ¬ a < a'
  := by
  intro hlt
  obtain ⟨i, hu⟩ := hu
  obtain ⟨i', hu'⟩ := hu'
  obtain ⟨s₁, -, henv, ⟨-, honly, -⟩, -⟩ := Trace.exists_noted hT hu' (by simp)
  have hmem := List.mem_of_getElem? ((List.getElem?_take_of_lt hlt).trans hu)
  rw [← henv] at hmem
  have hcontra := honly trivial _ hmem rfl
  simp at hcontra

/-- Of two writes that replace the same version of the metadata of a fill, neither comes
before the other. -/
theorem Replaces.unique
    {k k' : ℕ} {w w' : Write} {key : CacheKey} {expected : FillId} {m m' : CacheMeta}
    (hI : s.Inv calling) (hboot : s.bootFill = 0) (hw : s.writes[k]? = some w)
    (hw' : s.writes[k']? = some w') (hr : Replaces key expected m w)
    (hr' : Replaces key expected m' w') (hv : m.metadataVersion = m'.metadataVersion)
    (hmax : m.metadataVersion ≠ UInt64.ofNat (2 ^ 64 - 1)) :
  ¬ k < k'
  := by
  intro hlt
  obtain ⟨-, -, c, -, hid, hver, hnew⟩ := hr
  obtain ⟨-, -, c', hold', hid', hver', hnew'⟩ := hr'
  -- Both writes are for one fill, as they have one fill id.
  obtain ⟨r, hf, hrid⟩ := hI.published_id w (List.mem_of_getElem? hw)
  obtain ⟨r', hf', hrid'⟩ := hI.published_id w' (List.mem_of_getElem? hw')
  have hids : w.new.fillId = w'.new.fillId := by
    rw [hnew, hnew']
    exact hid.trans hid'.symm
  rw [← hids] at hrid'
  have hfill : w.fill = w'.fill :=
    hI.ids_inj _ _ r r' _ (by omega) (by omega) hf hf' hrid hrid'
  have hklt : k' < s.writes.length := (List.getElem?_eq_some_iff.mp hw').1
  have hlast : lastWrite (s.writes.take (k + 1)) w'.fill = some w.new := by
    rw [List.take_add_one, hw, Option.toList_some, lastWrite_append, if_pos hfill]
  obtain ⟨c₁, hc₁, hle⟩ := version_le_lastWrite hI (Nat.succ_le_of_lt hlt) hklt.le hlast
  obtain ⟨hold₁, -⟩ := (hI.writes k' w' hw').follows hc₁
  obtain ⟨-, rfl⟩ : w'.fill = w'.fill ∧ c' = c₁ := by simpa using hold'.symm.trans hold₁
  have hnext : c.metadataVersion < w.new.metadataVersion := by
    rw [hnew]
    apply lt_saturatingSucc_self
    rw [hver]
    exact hmax
  rw [hver, hv, ← hver'] at hnext
  exact UInt64.lt_irrefl _ (UInt64.lt_of_lt_of_le hnext hle)

/-- The cache when the updated metadata has been written to a temporary file. -/
def drafted (s : DiskCache (List Event)) (g : ℕ) (m : CacheMeta) : DiskCache (List Event) :=
  ({ s with updateCounter := s.updateCounter + 1 } : DiskCache (List Event)).create
    (.metaTmp "hash" s.updateCounter) (.json g (m.updatedFrom m))

/-- The cache after the task `t` has updated the metadata. -/
def updated (s : DiskCache (List Event)) (t g : ℕ) (m : CacheMeta) : DiskCache (List Event) :=
  ((s.drafted g m).link (.metaTmp "hash" s.updateCounter) none).replaceInfo "hash" s.nextIno
    ⟨t, "hash", .update, g, some (g, m), m.updatedFrom m⟩

end DiskCache

end TinyS3Proxy
