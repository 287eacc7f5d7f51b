import TinyS3Proxy.Cache.Guarantee

/-!
# Startup

A crash ends every task and loses the memory of the process. The next startup sweeps the
temporary files, scans the entries that are there, and finds out which fill id comes next:
from the counter file, and from the fill ids that the scan has seen.

What the file system makes of a startup is given by a `Startup`. Nothing else runs
meanwhile, so a startup is a function of the state that the crash has left.
-/

namespace TinyS3Proxy

/-- What the file system makes of a startup: the hashes that the directory walk lists,
whether the walk is incomplete, the removals, the probes and the reads that fail, and
whether the counter file has been lost. -/
structure Startup where
  hashDirs : List String
  layoutIncomplete : Bool
  unremoved : Path → Bool
  unprobed : Path → Bool
  unread : Path → Bool
  counterLost : Bool

/-- What the startup scan contributes to the next fill id. -/
structure ScanResult where
  maxFillId : FillId
  sawCacheFiles : Bool
  fillIdIncomplete : Bool

/-- The scan of some files is followed by the scan of others. -/
def ScanResult.merge (a b : ScanResult) : ScanResult where
  maxFillId := max a.maxFillId b.maxFillId
  sawCacheFiles := a.sawCacheFiles || b.sawCacheFiles
  fillIdIncomplete := a.fillIdIncomplete || b.fillIdIncomplete

namespace DiskCache

variable {E : Type}

/-! ### The sweep -/

/-- The files that are left by the sweep of the temporary directory. -/
def sweepTmpDir (u : Startup) (s : DiskCache E) : DiskCache E :=
  { s with
    files := fun p =>
      match p with
      | .tmp _ _ _ => if u.unremoved p then s.files p else none
      | .metaTmp _ _ => if u.unremoved p then s.files p else none
      | .fillIdCounter => if u.counterLost then none else s.files p
      | p => s.files p }

/-! ### The scan -/

/-- Read the fill id in a metadata file. -/
def scanMetadata (u : Startup) (s : DiskCache E) (h : String) : ScanResult :=
  if u.unread (.metaJson h) then ⟨0, true, true⟩
  else
    match s.files (.metaJson h) with
    | none => ⟨0, true, false⟩
    | some i =>
        match (s.data i).parse with
        | some (_, m) => ⟨m.fillId, true, false⟩
        | none => ⟨0, true, true⟩

/-- Scan a body: its metadata is read, when there is any. -/
def scanBody (u : Startup) (s : DiskCache E) (h : String) : ScanResult :=
  if u.unprobed (.metaJson h) then ⟨0, true, true⟩
  else if (s.files (.metaJson h)).isSome then s.scanMetadata u h
  else ⟨0, true, false⟩

/-- Scan a metadata file: it is read when it has no body, and has been read with its body
otherwise. -/
def scanMeta (u : Startup) (s : DiskCache E) (h : String) : ScanResult :=
  if u.unprobed (.body h) then ⟨0, true, true⟩
  else if (s.files (.body h)).isSome then ⟨0, true, false⟩
  else s.scanMetadata u h

/-- Scan the files with the given hash. -/
def scanHash (u : Startup) (s : DiskCache E) (h : String) : ScanResult :=
  (if (s.files (.body h)).isSome then s.scanBody u h else ⟨0, false, false⟩).merge
    (if (s.files (.metaJson h)).isSome then s.scanMeta u h else ⟨0, false, false⟩)

/-- Scan all that the directory walk lists. -/
def scanExistingStats (u : Startup) (s : DiskCache E) : ScanResult :=
  (u.hashDirs.map (s.scanHash u)).foldl ScanResult.merge ⟨0, false, u.layoutIncomplete⟩

/-- A body without metadata is removed by the scan. -/
def removeOrphans (u : Startup) (s : DiskCache E) : DiskCache E :=
  { s with
    files := fun p =>
      match p with
      | .body h =>
          if h ∈ u.hashDirs ∧ s.files (.metaJson h) = none ∧ u.unprobed (.metaJson h) = false ∧
            u.unremoved p = false then none
          else s.files p
      | p => s.files p }

/-! ### The next fill id -/

/-- Read the counter file. -/
def readPersistedFillIdCounter (u : Startup) (s : DiskCache E) :
    Except CacheError (Option UInt64) :=
  match s.files .fillIdCounter with
  | none => .ok none
  | some i =>
      if u.unread .fillIdCounter then .error ⟨"read fill_id counter"⟩
      else
        match s.data i with
        | .counter n => if n = 0 then .error ⟨"parse fill_id counter"⟩ else .ok (some n)
        | _ => .error ⟨"parse fill_id counter"⟩

/-- The fill id to begin with. The startup is refused when the counter file is missing and
the scan may have missed a fill id. -/
def loadNextFillId (u : Startup) (s : DiskCache E) (scan : ScanResult) :
    Except CacheError UInt64 :=
  match s.readPersistedFillIdCounter u with
  | .error e => .error e
  | .ok (some n) => .ok (max n (max (CacheMeta.saturatingSucc scan.maxFillId) 1))
  | .ok none =>
      if scan.fillIdIncomplete then .error ⟨"load_next_fill_id"⟩
      else if scan.sawCacheFiles then .ok (max (CacheMeta.saturatingSucc scan.maxFillId) 1)
      else .ok 1

/-! ### The restart -/

/-- The state of a new process over the files that are there. The fills of the process
before it are over. -/
def boot (s : DiskCache E) (nextFillId : UInt64) : DiskCache E :=
  { s with
    activeFills := fun _ => none
    entries := fun e => ⟨0, (s.entries e).bumps, none, ∅⟩
    metaLocks := fun _ => none
    poisonedHashes := fun _ => false
    nextFillId
    fillIdPersistLock := none
    tmpCounter := 0
    accessCounter := 0
    updateCounter := 0
    fills := fun f => (s.fills f).map fun r => { r with finished := true, owner := none }
    bootFill := s.nextFill
    slot := fun h => ⟨s.files (.body h), s.files (.metaJson h), false⟩
    counterKept := if (s.files .fillIdCounter).isSome then s.counterKept else s.writes.length }

/-- Restart the process, unless the startup is refused. -/
def restart (u : Startup) (s : DiskCache E) : Option (DiskCache E) :=
  let s₁ := s.sweepTmpDir u
  match s₁.loadNextFillId u (s₁.scanExistingStats u) with
  | .error _ => none
  | .ok n => some ((s₁.removeOrphans u).boot n)

/-- A directory walk that is not flagged as incomplete lists every hash that has files. -/
def Lists (u : Startup) (s : DiskCache E) : Prop :=
  u.layoutIncomplete = false → ∀ h, s.files (.body h) ≠ none ∨ s.files (.metaJson h) ≠ none →
    h ∈ u.hashDirs

/-- The cache over an empty directory. -/
def fresh (env : E) : DiskCache E where
  files _ := none
  data _ := .raw []
  nextIno := 0
  activeFills _ := none
  entries _ := ⟨0, 0, none, ∅⟩
  nextEntry := 0
  metaLocks _ := none
  poisonedHashes _ := false
  nextFillId := 1
  fillIdPersistLock := none
  tmpCounter := 0
  accessCounter := 0
  updateCounter := 0
  fills _ := none
  nextFill := 0
  bootFill := 0
  slot _ := ⟨none, none, false⟩
  writes := []
  counterKept := 0
  cleaned := []
  faulted := false
  dropped := false
  wrapped := false
  env := env

/-! ### What the scan has seen -/

section Scan

variable {u : Startup} {s : DiskCache E}

theorem le_max_id (a b : UInt64) :
  a ≤ max a b ∧ b ≤ max a b
  := by
  change a ≤ (if a ≤ b then b else a) ∧ b ≤ (if a ≤ b then b else a)
  split
  · next h => exact ⟨h, UInt64.le_refl b⟩
  · next h => exact ⟨UInt64.le_refl a, UInt64.le_of_lt (UInt64.not_le.mp h)⟩

/-- The merged scan has seen what each part has seen, and is complete when each part
is. -/
theorem foldl_merge (xs : List ScanResult) (a : ScanResult) :
  a.maxFillId ≤ (xs.foldl ScanResult.merge a).maxFillId ∧
    (∀ x ∈ xs, x.maxFillId ≤ (xs.foldl ScanResult.merge a).maxFillId) ∧
    ((xs.foldl ScanResult.merge a).fillIdIncomplete = false →
      a.fillIdIncomplete = false ∧ ∀ x ∈ xs, x.fillIdIncomplete = false) ∧
    ((xs.foldl ScanResult.merge a).sawCacheFiles = false →
      a.sawCacheFiles = false ∧ ∀ x ∈ xs, x.sawCacheFiles = false)
  := by
  induction xs generalizing a with
  | nil => exact ⟨UInt64.le_refl _, by simp, fun h => ⟨h, by simp⟩, fun h => ⟨h, by simp⟩⟩
  | cons x xs ih =>
      obtain ⟨hle, hall, hinc, hsaw⟩ := ih (a.merge x)
      have hparts : ∀ {p : ScanResult → Bool}, (p (a.merge x) = (p a || p x)) →
          (p (a.merge x) = false ∧ ∀ y ∈ xs, p y = false) →
          p a = false ∧ ∀ y ∈ x :: xs, p y = false := by
        rintro p hp ⟨h₁, h₂⟩
        rw [hp] at h₁
        obtain ⟨ha, hx⟩ := Bool.or_eq_false_iff.mp h₁
        refine ⟨ha, ?_⟩
        intro y hy
        obtain rfl | hy := List.mem_cons.mp hy
        · exact hx
        · exact h₂ y hy
      refine ⟨UInt64.le_trans (le_max_id _ _).1 hle, ?_, fun h => hparts rfl (hinc h),
        fun h => hparts rfl (hsaw h)⟩
      · intro y hy
        obtain rfl | hy := List.mem_cons.mp hy
        · exact UInt64.le_trans (le_max_id _ _).2 hle
        · exact hall y hy

/-- A complete scan of the files with the given hash has seen the fill id of its
metadata. -/
theorem le_scanHash
    {h : String} {i g : ℕ} {m : CacheMeta} (hc : (s.scanHash u h).fillIdIncomplete = false)
    (hi : s.files (.metaJson h) = some i) (hd : s.data i = .json g m) :
  m.fillId ≤ (s.scanHash u h).maxFillId
  := by
  have hmeta : (s.scanMetadata u h).fillIdIncomplete = false →
      (s.scanMetadata u h).maxFillId = m.fillId := by
    intro hc'
    unfold scanMetadata at hc' ⊢
    split at hc'
    · cases hc'
    next hr =>
    rw [if_neg hr]
    simp only [hi, hd, File.parse]
  obtain ⟨hcb, hcm⟩ := Bool.or_eq_false_iff.mp hc
  rw [hi, Option.isSome_some, if_pos rfl] at hcm
  cases hb : s.files (.body h) with
  | some j =>
      apply UInt64.le_trans _ (le_max_id _ _).1
      rw [hb, Option.isSome_some, if_pos rfl] at hcb ⊢
      unfold scanBody at hcb ⊢
      split at hcb
      · cases hcb
      next hp =>
      rw [if_neg hp]
      rw [hi, Option.isSome_some, if_pos rfl] at hcb ⊢
      rw [hmeta hcb]
      exact UInt64.le_refl _
  | none =>
      apply UInt64.le_trans _ (le_max_id _ _).2
      rw [hi, Option.isSome_some, if_pos rfl]
      unfold scanMeta at hcm ⊢
      split at hcm
      · cases hcm
      next hp =>
      rw [if_neg hp]
      rw [hb, Option.isSome_none, if_neg Bool.false_ne_true] at hcm ⊢
      rw [hmeta hcm]
      exact UInt64.le_refl _

/-- The scan of a metadata file has seen a file. -/
theorem scanHash_saw
    {h : String} {i : ℕ} (hi : s.files (.metaJson h) = some i) :
  (s.scanHash u h).sawCacheFiles = true
  := by
  have hmeta : (s.scanMeta u h).sawCacheFiles = true := by
    unfold scanMeta scanMetadata
    repeat' split
    all_goals rfl
  apply Bool.or_eq_true_iff.mpr
  right
  rw [hi, Option.isSome_some, if_pos rfl]
  exact hmeta

/-- A complete scan has seen the fill ids of all metadata, and has seen files if there is
any. -/
theorem le_scanExistingStats
    {h : String} {i g : ℕ} {m : CacheMeta} (hu : s.Lists u)
    (hc : (s.scanExistingStats u).fillIdIncomplete = false)
    (hi : s.files (.metaJson h) = some i) (hd : s.data i = .json g m) :
  m.fillId ≤ (s.scanExistingStats u).maxFillId ∧ (s.scanExistingStats u).sawCacheFiles = true
  := by
  obtain ⟨-, hall, hinc, hsaw⟩ := foldl_merge (u.hashDirs.map (s.scanHash u))
    ⟨0, false, u.layoutIncomplete⟩
  obtain ⟨hl, hinc⟩ := hinc hc
  have hmem : s.scanHash u h ∈ u.hashDirs.map (s.scanHash u) := by
    apply List.mem_map_of_mem
    apply hu hl
    right
    rw [hi]
    exact Option.some_ne_none i
  refine ⟨UInt64.le_trans (le_scanHash (hinc _ hmem) hi hd) (hall _ hmem), ?_⟩
  by_contra hn
  have h' := (hsaw (Bool.not_eq_true _ ▸ hn)).2 _ hmem
  rw [scanHash_saw hi] at h'
  cases h'

theorem lt_saturatingSucc
    {a b n : UInt64} (hab : a ≤ b) (han : a < n) :
  a < CacheMeta.saturatingSucc b
  := by
  rw [CacheMeta.saturatingSucc]
  split
  · next hb =>
    have hmax : (UInt64.ofNat (2 ^ 64 - 1)).toNat = 2 ^ 64 - 1 := rfl
    rw [hb, UInt64.lt_iff_toNat_lt, hmax]
    rw [UInt64.lt_iff_toNat_lt] at han
    have hn := n.toNat_lt
    omega
  · next hb =>
    have hb' : b.toNat ≠ 2 ^ 64 - 1 := by
      intro h
      apply hb
      rw [← UInt64.toNat_inj, h]
      rfl
    rw [UInt64.lt_iff_toNat_lt, UInt64.toNat_add]
    rw [UInt64.le_iff_toNat_le] at hab
    have hlt := b.toNat_lt
    simp only [UInt64.toNat_one]
    omega

/-- The fill id to begin with is greater than the fill ids on disk, and at least the
counter. -/
theorem loadNextFillId_spec
    {n : UInt64} (hu : s.Lists u)
    (h : s.loadNextFillId u (s.scanExistingStats u) = .ok n)
    (hcounter : ∀ i, s.files .fillIdCounter = some i → ∃ c, s.data i = .counter c ∧ 0 < c)
    (hlt : s.counterValue ≠ 0 → ∀ h i g m, s.files (.metaJson h) = some i →
      s.data i = .json g m → m.fillId.toNat < s.counterValue)
    (hbound : ∀ h i g m, s.files (.metaJson h) = some i → s.data i = .json g m →
      ∃ n, m.fillId < n) :
  0 < n ∧ s.counterValue ≤ n.toNat ∧
    ∀ h i g m, s.files (.metaJson h) = some i → s.data i = .json g m → m.fillId < n
  := by
  have hone : (0 : UInt64) < 1 := by decide
  cases hf : s.files .fillIdCounter with
  | some i =>
      obtain ⟨c, hd, hc⟩ := hcounter i hf
      have hcv : s.counterValue = c.toNat := by simp only [counterValue, hf, hd]
      have hc0 : c ≠ 0 := by
        rintro rfl
        exact UInt64.lt_irrefl 0 hc
      have hn : c ≤ n := by
        simp only [loadNextFillId, readPersistedFillIdCounter, hf, hd, if_neg hc0] at h
        split at h
        · cases h
        · next hr =>
          split at hr
          · cases hr
          · obtain rfl : c = _ := by simpa using hr
            rw [← Except.ok.inj h]
            exact (le_max_id _ _).1
        · next hr =>
          split at hr
          · cases hr
          · cases hr
      rw [hcv]
      refine ⟨UInt64.lt_of_lt_of_le hc hn, UInt64.le_iff_toNat_le.mp hn, ?_⟩
      intro l i' g m hi' hd'
      apply UInt64.lt_of_lt_of_le _ hn
      rw [UInt64.lt_iff_toNat_lt, ← hcv]
      apply hlt _ l i' g m hi' hd'
      rw [hcv]
      intro h0
      apply hc0
      rw [← UInt64.toNat_inj, h0]
      rfl
  | none =>
      have hcv : s.counterValue = 0 := by simp only [counterValue, hf]
      simp only [loadNextFillId, readPersistedFillIdCounter, hf] at h
      rw [hcv]
      split at h
      · cases h
      next hinc =>
      have hinc : (s.scanExistingStats u).fillIdIncomplete = false := by simpa using hinc
      split at h
      · obtain rfl := Except.ok.inj h
        refine ⟨UInt64.lt_of_lt_of_le hone (le_max_id _ _).2, Nat.zero_le _, ?_⟩
        intro l i g m hi hd
        obtain ⟨n, hn⟩ := hbound l i g m hi hd
        exact UInt64.lt_of_lt_of_le
          (lt_saturatingSucc (le_scanExistingStats hu hinc hi hd).1 hn) (le_max_id _ _).1
      · next hsaw =>
        obtain rfl := Except.ok.inj h
        refine ⟨hone, Nat.zero_le _, ?_⟩
        intro l i g m hi hd
        exact absurd (le_scanExistingStats hu hinc hi hd).2 hsaw

end Scan

/-! ### The invariant across a restart -/

section Restart

variable {S : Setting E} {u : Startup} {s s' : DiskCache E}

/-- The metadata of an entry is what the entry was last left with. -/
theorem Inv.info_slot
    {h : String} {i : ℕ} (hI : s.Inv S) (hi : s.files (.metaJson h) = some i) :
  (s.slot h).info = some i
  := by
  cases hl : s.metaLocks h with
  | none =>
      rw [← hI.free h hl]
      exact hi
  | some t =>
      obtain hn | hs := (hI.held h t hl).info
      · rw [hn] at hi
        cases hi
      · rw [← hs, hi]

/-- The body of an entry was written by a fill, even while it is being published. -/
theorem Inv.body_at
    {h : String} {i : ℕ} (hI : s.Inv S) (hi : s.files (.body h) = some i) :
  s.BodyAt S h i
  := by
  cases hl : s.metaLocks h with
  | none =>
      apply hI.bodies h i
      rw [← hI.free h hl]
      exact hi
  | some t =>
      obtain hn | hs | ⟨j, f, b, r, hj, hd, hp, hok⟩ := (hI.held h t hl).body
      · rw [hn] at hi
        cases hi
      · apply hI.bodies h i
        rw [← hs, hi]
      · obtain rfl := Option.some.inj (hj.symm.trans hi)
        exact ⟨f, b, r, hd, hp.1, hp.2.2.2.1, hok⟩

theorem sweep_files
    {p : Path} {i : ℕ} (h : (s.sweepTmpDir u).files p = some i) :
  s.files p = some i
  := by
  cases p with
  | body | metaJson | poisoned => exact h
  | tmp | metaTmp =>
      simp only [sweepTmpDir] at h
      split at h
      · exact h
      · cases h
  | fillIdCounter =>
      simp only [sweepTmpDir] at h
      split at h
      · cases h
      · exact h

theorem removeOrphans_files
    {p : Path} {i : ℕ} (h : (s.removeOrphans u).files p = some i) :
  s.files p = some i
  := by
  cases p with
  | body =>
      simp only [removeOrphans] at h
      split at h
      · cases h
      · exact h
  | metaJson | poisoned | tmp | metaTmp | fillIdCounter => exact h

/-- The counter file is there as it was, or it has been lost. -/
theorem sweep_counter :
  (s.sweepTmpDir u).counterValue = s.counterValue ∨ (s.sweepTmpDir u).files .fillIdCounter = none
  := by
  cases hu : u.counterLost with
  | true => exact Or.inr (by simp [sweepTmpDir, hu])
  | false => exact Or.inl (by simp [counterValue, sweepTmpDir, hu])

/-- What a restart makes of the state, when the startup is not refused. -/
theorem restart_eq
    (h : s.restart u = some s') :
  ∃ n, (s.sweepTmpDir u).loadNextFillId u ((s.sweepTmpDir u).scanExistingStats u) = .ok n ∧
    s' = ((s.sweepTmpDir u).removeOrphans u).boot n
  := by
  simp only [DiskCache.restart] at h
  split at h
  · cases h
  next n hn =>
  exact ⟨n, hn, (Option.some.inj h).symm⟩

/-- The invariant holds after a restart. -/
theorem Inv.restart
    (hI : s.Inv S) (hu : s.Lists u) (h : s.restart u = some s') :
  s'.Inv S
  := by
  obtain ⟨n, hn, rfl⟩ := restart_eq h
  have hinfo : ∀ h i g m, s.files (.metaJson h) = some i → s.data i = .json g m →
      s.InfoAt S h g m := fun h i g m hi hd => hI.infos h i g m (hI.info_slot hi) hd
  have hsub : ∀ p i, (((s.sweepTmpDir u).removeOrphans u).boot n).files p = some i →
      s.files p = some i := fun p i hi => sweep_files (removeOrphans_files hi)
  have hcount : ∀ i, (s.sweepTmpDir u).files .fillIdCounter = some i →
      ∃ c, s.data i = .counter c ∧ 0 < c := fun i hi => hI.counter i (sweep_files hi)
  have hdisk : (s.sweepTmpDir u).counterValue ≠ 0 → ∀ h i g m, s.files (.metaJson h) = some i →
      s.data i = .json g m → m.fillId.toNat < (s.sweepTmpDir u).counterValue := by
    intro h0 h i g m hi hd
    obtain hc | hc := sweep_counter (s := s) (u := u)
    · rw [hc] at h0 ⊢
      exact hI.disk_lt_counter h0 h i g m (hI.info_slot hi) hd
    · simp [counterValue, hc] at h0
  obtain ⟨hpos, hcv, hids⟩ := loadNextFillId_spec (s := s.sweepTmpDir u) hu hn hcount hdisk
    (fun h i g m hi hd => ⟨_, (hinfo h i g m hi hd).id_lt⟩)
  have hfin : ∀ f r, (((s.sweepTmpDir u).removeOrphans u).boot n).fills f = some r →
      ∃ r₀, s.fills f = some r₀ ∧ r = { r₀ with finished := true, owner := none } := by
    intro f r hf
    obtain ⟨r₀, hf₀, rfl⟩ := Option.map_eq_some_iff.mp hf
    exact ⟨r₀, hf₀, rfl⟩
  have hnofill : ∀ f r, (((s.sweepTmpDir u).removeOrphans u).boot n).fills f = some r →
      ¬ s.nextFill ≤ f := by
    intro f r hf hle
    obtain ⟨r₀, hf₀, -⟩ := hfin f r hf
    exact absurd (hI.fill_lt f r₀ hf₀).1 (not_lt.mpr hle)
  have hkept : ∀ k, (((s.sweepTmpDir u).removeOrphans u).boot n).counterKept ≤ k →
      k < s.writes.length →
      s.counterKept ≤ k ∧ (s.sweepTmpDir u).counterValue = s.counterValue := by
    intro k hk hlt
    cases hc : (s.sweepTmpDir u).files .fillIdCounter with
    | none =>
        simp only [boot, removeOrphans, hc] at hk
        exact absurd hlt (not_lt.mpr hk)
    | some i =>
        simp only [boot, removeOrphans, hc] at hk
        refine ⟨hk, (sweep_counter (s := s) (u := u)).resolve_right ?_⟩
        rw [hc]
        exact Option.some_ne_none i
  have hold : ∀ h i, s.files (.body h) = some i ∨ s.files (.metaJson h) = some i →
      (((s.sweepTmpDir u).removeOrphans u).boot n).Old i := by
    intro h i hi
    constructor
    · intro f b hd
      obtain hb | hm := hi
      · obtain ⟨f', b', r, hd', hf', -⟩ := hI.body_at hb
        obtain ⟨rfl, -⟩ : f' = f ∧ b' = b := by simpa using hd'.symm.trans hd
        exact (hI.fill_lt f' r hf').1
      · exact absurd hd (hI.info_not_body h i f b (hI.info_slot hm))
    · intro f m hd
      obtain hb | hm := hi
      · obtain ⟨f', b', r, hd', -⟩ := hI.body_at hb
        cases hd'.symm.trans hd
      · obtain ⟨r, hf, -⟩ := (hinfo h i f m hm hd).fill
        exact (hI.fill_lt f r hf).1
  exact
  { hI with
    linked := fun p i hi => hI.linked p i (hsub p i hi)
    slot_body_lt := fun h i hi => hI.linked _ i (hsub (.body h) i hi)
    slot_info_lt := fun h i hi => hI.linked _ i (hsub (.metaJson h) i hi)
    fill_lt := by
      intro f r hf
      obtain ⟨r₀, hf₀, rfl⟩ := hfin f r hf
      exact hI.fill_lt f r₀ hf₀
    boot_fill := le_refl s.nextFill
    active_lt := by
      intro k e he
      cases he
    entry_new := by
      intro e he
      have h₀ := hI.entry_new e he
      simp only [boot, removeOrphans, sweepTmpDir, h₀]
    live := by
      intro e f
      constructor
      · intro hf
        simp [boot] at hf
      · rintro ⟨r, hf, -, hr⟩
        obtain ⟨r₀, -, rfl⟩ := hfin f r hf
        cases hr
    active := by
      intro f r hf hr
      obtain ⟨r₀, -, rfl⟩ := hfin f r hf
      cases hr
    refcount := fun e => rfl
    bumps := by
      intro f r hf hr
      obtain ⟨r₀, -, rfl⟩ := hfin f r hf
      cases hr
    unwrapped := by
      intro _ f r hf hr
      obtain ⟨r₀, -, rfl⟩ := hfin f r hf
      cases hr
    poisoned := fun h => rfl
    free := fun h _ => rfl
    held := by
      intro h t hl
      cases hl
    bodies := by
      intro h i hi
      obtain ⟨f, b, r, hd, hf, hh, hok⟩ := hI.body_at (hsub (.body h) i hi)
      exact ⟨f, b, _, hd, Option.map_eq_some_iff.mpr ⟨r, hf, rfl⟩, hh, hok⟩
    infos := by
      intro h i g m hi hd
      have hat := hinfo h i g m (hsub (.metaJson h) i hi) hd
      obtain ⟨r, hf, hh, hid, hok⟩ := hat.fill
      refine ⟨⟨_, Option.map_eq_some_iff.mpr ⟨r, hf, rfl⟩, hh, hid, hok⟩,
        hids h i g m (hsub (.metaJson h) i hi) hd, ?_, ?_⟩
      · intro f r' hle hf' _
        exact absurd hle (hnofill f r' hf')
      · obtain hl | ⟨hu, -⟩ := hat.last
        · exact Or.inl hl
        · exact Or.inr ⟨hu, (hI.fill_lt g r hf).1⟩
    info_not_body := fun h i f b hi =>
      hI.info_not_body h i f b (hI.info_slot (hsub (.metaJson h) i hi))
    slot_paired := by
      intro hf h i j f b g m hi hj
      exact hI.view_paired hf h i j f b g m (hsub (.body h) i hi) (hsub (.metaJson h) j hj)
    view_paired := by
      intro hf h i j f b g m hi hj
      exact hI.view_paired hf h i j f b g m (hsub (.body h) i hi) (hsub (.metaJson h) j hj)
    quiet := by
      intro _ _ h _
      right
      exact ⟨fun i hi => hold h i (Or.inl (hsub (.body h) i hi)),
        fun j hj => hold h j (Or.inr (hsub (.metaJson h) j hj))⟩
    cleaned := by
      intro hf hd i hi
      obtain ⟨hlt, hb, hm⟩ := hI.cleaned hf hd i hi
      exact ⟨hlt, fun f b hfb => (hb f b hfb).trans_le hI.boot_fill,
        fun f m hfm => (hm f m hfm).trans_le hI.boot_fill⟩
    ids_pos := hpos
    ids_lt := by
      intro f r n' hle hf
      exact absurd hle (hnofill f r hf)
    ids_inj := by
      intro f g r r' n' hle _ hf
      exact absurd hle (hnofill f r hf)
    ids_disk := by
      intro h h' i i' g g' m m' hi hi'
      exact hI.ids_disk h h' i i' g g' m m' (hI.info_slot (hsub (.metaJson h) i hi))
        (hI.info_slot (hsub (.metaJson h') i' hi'))
    counter := fun i hi => hcount i hi
    counter_le := hcv
    disk_lt_counter := by
      intro h0 h i g m hi hd
      exact hdisk h0 h i g m (hsub (.metaJson h) i hi) hd
    published_lt := by
      intro k w arg hk hw ha
      obtain ⟨hle, hc⟩ := hkept k hk (List.getElem?_eq_some_iff.mp hw).1
      exact (hI.published_lt k w arg hle hw ha).trans_eq hc.symm
    reserved := by
      intro f r n' hf hid
      obtain ⟨r₀, hf₀, rfl⟩ := hfin f r hf
      obtain ⟨hlen, hres⟩ := hI.reserved f r₀ n' hf₀ hid
      refine ⟨hlen, ?_⟩
      intro j w arg hj hlt
      exact hres j w arg (hkept j hj (hlt.trans_le hlen)).1 hlt
    published_id := by
      intro w hw
      obtain ⟨r, hf, hid⟩ := hI.published_id w hw
      exact ⟨_, Option.map_eq_some_iff.mpr ⟨r, hf, rfl⟩, hid⟩
    floating := by
      intro f r hf hr
      obtain ⟨r₀, -, rfl⟩ := hfin f r hf
      cases hr
    owned := by
      intro f r t hf ho
      obtain ⟨r₀, -, rfl⟩ := hfin f r hf
      cases ho }

/-- The invariant holds of an empty cache. -/
theorem fresh_inv
    {env : E} (he : S.inv env) :
  (fresh env).Inv S
  where
  env := he
  linked := by
    intro p i hi
    cases hi
  slot_body_lt := by
    intro h i hi
    cases hi
  slot_info_lt := by
    intro h i hi
    cases hi
  fill_lt := by
    intro f r hf
    cases hf
  boot_fill := le_rfl
  active_lt := by
    intro k e he
    cases he
  entry_new := fun _ _ => rfl
  live := by
    intro e f
    simp [fresh]
  active := by
    intro f r hf
    cases hf
  refcount := fun _ => rfl
  bumps := by
    intro f r hf
    cases hf
  unwrapped := by
    intro _ f r hf
    cases hf
  poisoned := fun _ => rfl
  free := fun _ _ => rfl
  held := by
    intro h t hl
    cases hl
  bodies := by
    intro h i hi
    cases hi
  infos := by
    intro h i g m hi
    cases hi
  info_not_body := by
    intro h i f b hi
    cases hi
  slot_paired := by
    intro _ h i j f b g m hi
    cases hi
  view_paired := by
    intro _ h i j f b g m hi
    cases hi
  quiet := by
    intro _ _ h _
    right
    constructor
    · intro i hi
      cases hi
    · intro j hj
      cases hj
  cleaned := by
    intro _ _ i hi
    cases hi
  ids_pos := show (0 : UInt64) < 1 by decide
  ids_lt := by
    intro f r n _ hf
    cases hf
  ids_inj := by
    intro f g r r' n _ _ hf
    cases hf
  ids_disk := by
    intro h h' i i' g g' m m' hi
    cases hi
  counter := by
    intro i hi
    cases hi
  counter_le := Nat.zero_le _
  disk_lt_counter := fun h => absurd rfl h
  published_lt := by
    intro k w arg _ hw
    cases hw
  published_pos := by
    intro w hw
    cases hw
  reserved := by
    intro f r n hf
    cases hf
  published_id := by
    intro w hw
    cases hw
  writes := by
    intro k w hw
    cases hw
  floating := by
    intro f r hf
    cases hf
  owned := by
    intro f r t hf
    cases hf

end Restart

end DiskCache

end TinyS3Proxy
