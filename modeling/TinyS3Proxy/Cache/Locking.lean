import TinyS3Proxy.Cache.Guarantee

/-!
# Locks, poison and counters

The operations on the locks, on the poison fence and on the counters in memory keep the
invariant.
-/

namespace TinyS3Proxy

open Coop

namespace DiskCache

variable {E : Type} {S : Setting E} {t : ℕ} {s : DiskCache E}

/-! ### The metadata locks -/

/-- Set the holder of the metadata lock of a hash. -/
def setMetaLock (s : DiskCache E) (h : String) (x : Option ℕ) : DiskCache E :=
  { s with metaLocks := Function.update s.metaLocks h x }

theorem setMetaLock_of_ne
    {h l : String} {x : Option ℕ} (hl : l ≠ h) :
  (s.setMetaLock h x).metaLocks l = s.metaLocks l
  := Function.update_of_ne hl _ _

@[simp]
theorem setMetaLock_self (h : String) (x : Option ℕ) :
  (s.setMetaLock h x).metaLocks h = x
  := Function.update_self _ _ _

/-- Only the task `t` holds the lock or takes it, so other tasks see no difference. -/
theorem setMetaLock_iff
    {h : String} {x : Option ℕ} (hs : ∀ t', s.metaLocks h = some t' → t' = t)
    (hx : ∀ t', x = some t' → t' = t) {t' : ℕ} (ht : t' ≠ t) (l : String) :
  (s.setMetaLock h x).metaLocks l = some t' ↔ s.metaLocks l = some t'
  := by
  by_cases hl : l = h
  · subst hl
    rw [setMetaLock_self]
    constructor
    · intro hx'
      exact absurd (hx t' hx') ht
    · intro hs'
      exact absurd (hs t' hs') ht
  · rw [setMetaLock_of_ne hl]

/-- Acquire a metadata lock. -/
theorem moves_lockMeta
    {h : String} (hI : s.Inv S) (hl : s.metaLocks h = none) :
  Moves S t s (s.setMetaLock h (some t))
  where
  inv :=
    { hI with
      free := by
        intro l hlf
        have hlh : l ≠ h := by
          rintro rfl
          rw [setMetaLock_self] at hlf
          cases hlf
        rw [setMetaLock_of_ne hlh] at hlf
        apply hI.free l hlf
      held := by
        intro l t' ht'
        by_cases hlh : l = h
        · subst hlh
          have hv := hI.free l hl
          constructor
          · right; left
            exact congrArg View.body hv
          · right
            exact congrArg View.info hv
        · rw [setMetaLock_of_ne hlh] at ht'
          exact (hI.held l t' ht').congr rfl rfl rfl (fun _ _ => rfl) (fun _ r h => ⟨r, h, rfl, rfl⟩)
      infos := fun l i g m hi hd => (hI.infos l i g m hi hd).congr rfl rfl rfl rfl
      quiet := by
        intro hf hd l hlf
        have hlh : l ≠ h := by
          rintro rfl
          rw [setMetaLock_self] at hlf
          cases hlf
        rw [setMetaLock_of_ne hlh] at hlf
        apply hI.quiet hf hd l hlf }
  env := rfl
  mono := { Mono.refl S s with }
  kept := fun t' ht' =>
    { Rely.refl S t' s with
      mono := { Mono.refl S s with }
      metaLock := by
        apply setMetaLock_iff _ _ ht'
        · intro u hu
          rw [hl] at hu
          cases hu
        · intro u hu
          exact (Option.some.inj hu).symm }

/-- Release a metadata lock, of an entry that is left with the files it has. -/
theorem moves_unlockMeta
    {h : String} (hI : s.Inv S) (hl : s.metaLocks h = some t) (hv : s.view h = s.slot h)
    (hq : s.faulted = false → s.dropped = false → s.Quiet (s.slot h)) :
  Moves S t s (s.setMetaLock h none)
  where
  inv :=
    { hI with
      free := by
        intro l hlf
        by_cases hlh : l = h
        · subst hlh
          exact hv
        · rw [setMetaLock_of_ne hlh] at hlf
          apply hI.free l hlf
      held := by
        intro l t' ht'
        by_cases hlh : l = h
        · subst hlh
          rw [setMetaLock_self] at ht'
          cases ht'
        · rw [setMetaLock_of_ne hlh] at ht'
          exact (hI.held l t' ht').congr rfl rfl rfl (fun _ _ => rfl) (fun _ r h => ⟨r, h, rfl, rfl⟩)
      infos := fun l i g m hi hd => (hI.infos l i g m hi hd).congr rfl rfl rfl rfl
      quiet := by
        intro hf hd l hlf
        by_cases hlh : l = h
        · subst hlh
          apply hq hf hd
        · rw [setMetaLock_of_ne hlh] at hlf
          apply hI.quiet hf hd l hlf }
  env := rfl
  mono := { Mono.refl S s with }
  kept := fun t' ht' =>
    { Rely.refl S t' s with
      mono := { Mono.refl S s with }
      metaLock := by
        apply setMetaLock_iff _ _ ht'
        · intro u hu
          exact Option.some.inj (hu.symm.trans hl)
        · intro u hu
          cases hu }

/-! ### The commit locks -/

/-- Set the holder of the commit lock of a tracking record. -/
def setCommitLock (s : DiskCache E) (e : ℕ) (x : Option ℕ) : DiskCache E :=
  s.setEntry e { s.entries e with commitLock := x }

theorem setEntry_of_ne
    {e e' : ℕ} {x : FillEntry} (h : e' ≠ e) :
  (s.setEntry e x).entries e' = s.entries e'
  := Function.update_of_ne h _ _

@[simp]
theorem setEntry_self (e : ℕ) (x : FillEntry) :
  (s.setEntry e x).entries e = x
  := Function.update_self _ _ _

/-- Only the lock of the record changes. -/
theorem setCommitLock_fields (e : ℕ) (x : Option ℕ) (e' : ℕ) :
  ((s.setCommitLock e x).entries e').refcount = (s.entries e').refcount ∧
  ((s.setCommitLock e x).entries e').bumps = (s.entries e').bumps ∧
  ((s.setCommitLock e x).entries e').live = (s.entries e').live
  := by
  by_cases h : e' = e
  · subst h
    rw [setCommitLock, setEntry_self]
    exact ⟨rfl, rfl, rfl⟩
  · rw [setCommitLock, setEntry_of_ne h]
    exact ⟨rfl, rfl, rfl⟩

theorem mono_setCommitLock (e : ℕ) (x : Option ℕ) :
  s.Mono S (s.setCommitLock e x)
  :=
  { Mono.refl S s with
    bumps := fun e' => (setCommitLock_fields e x e').2.1.ge
    fenced := by
      rintro _ f ⟨r, ⟨hf, hbar⟩, htrace⟩
      refine ⟨r, ⟨hf, ?_⟩, htrace⟩
      rw [(setCommitLock_fields e x _).2.1]
      exact hbar }

/-- Acquire or release a commit lock. It is released by a task that holds no metadata
lock. -/
theorem moves_setCommitLock
    {e : ℕ} {x : Option ℕ} (hI : s.Inv S) (he : e < s.nextEntry)
    (hold : ∀ t', t' ≠ t → (s.entries e).commitLock ≠ some t')
    (hx : x = some t ∨ s.Idle t) :
  Moves S t s (s.setCommitLock e x)
  := by
  have hr := fun e' => (setCommitLock_fields (s := s) e x e').1
  have hb := fun e' => (setCommitLock_fields (s := s) e x e').2.1
  have hlv := fun e' => (setCommitLock_fields (s := s) e x e').2.2
  have hmono : s.Mono S (s.setCommitLock e x) := mono_setCommitLock e x
  refine ⟨?_, rfl, hmono, ?_⟩
  · exact
    { hI with
      entry_new := by
        intro e' he'
        rw [setCommitLock, setEntry_of_ne (he.trans_le he').ne']
        apply hI.entry_new e' he'
      live := by
        intro e' f
        rw [hlv]
        apply hI.live
      refcount := by
        intro e'
        rw [hr, hlv]
        apply hI.refcount
      bumps := by
        intro f r hf hfin
        rw [hb]
        apply hI.bumps f r hf hfin
      unwrapped := by
        intro hw f r hf hfin
        rw [hb]
        apply hI.unwrapped hw f r hf hfin
      held := by
        intro l t' ht'
        refine (hI.held l t' ht').congr rfl rfl rfl (fun _ _ => rfl) ?_
        rintro f r ⟨hf, ho, hfin, hk, hc, hg⟩
        refine ⟨r, ⟨hf, ho, hfin, hk, ?_, ?_⟩, rfl, rfl⟩
        · by_cases hre : r.entry = e
          · rw [hre] at hc ⊢
            obtain rfl : t' = t := by
              by_contra hne
              exact hold t' hne hc
            rw [setCommitLock, setEntry_self]
            obtain rfl | hidle := hx
            · rfl
            · exact absurd ht' (hidle l)
          · rw [setCommitLock, setEntry_of_ne hre]
            exact hc
        · rw [FillEntry.generation, hb]
          exact hg
      infos := fun l i g m hi hd => (hI.infos l i g m hi hd).congr rfl rfl rfl rfl }
  · intro t' ht'
    exact
    { Rely.refl S t' s with
      mono := hmono
      commitLock := by
        intro e' he'
        have hne : e' ≠ e := by
          rintro rfl
          exact hold t' ht' he'
        rw [setCommitLock, setEntry_of_ne hne]
        exact he'
      bumps := fun e' _ _ => (setCommitLock_fields e x e').2.1 }

/-! ### The lock of the fill id counter -/

/-- Acquire or release the lock under which the counter is persisted. -/
theorem moves_setPersistLock
    {x : Option ℕ} (hI : s.Inv S) (hold : ∀ t', t' ≠ t → s.fillIdPersistLock ≠ some t') :
  Moves S t s { s with fillIdPersistLock := x }
  where
  inv :=
    { hI with
      held := fun l t' ht => (hI.held l t' ht).congr rfl rfl rfl (fun _ _ => rfl)
        (fun _ r h => ⟨r, h, rfl, rfl⟩)
      infos := fun l i g m hi hd => (hI.infos l i g m hi hd).congr rfl rfl rfl rfl }
  env := rfl
  mono := { Mono.refl S s with }
  kept := fun t' ht' =>
    { Rely.refl S t' s with
      mono := { Mono.refl S s with }
      persistLock := fun h => absurd h (hold t' ht') }

/-! ### Counters -/

/-- Set the counters that number temporary files. -/
theorem moves_counters
    (hI : s.Inv S) (i j k : ℕ) :
  Moves S t s { s with tmpCounter := i, accessCounter := j, updateCounter := k }
  where
  inv :=
    { hI with
      held := fun l t' ht => (hI.held l t' ht).congr rfl rfl rfl (fun _ _ => rfl)
        (fun _ r h => ⟨r, h, rfl, rfl⟩)
      infos := fun l i g m hi hd => (hI.infos l i g m hi hd).congr rfl rfl rfl rfl }
  env := rfl
  mono := { Mono.refl S s with }
  kept := fun t' _ => { Rely.refl S t' s with mono := { Mono.refl S s with } }

/-- Record that a probe has removed an inode, one that is left over from before the
restart unless a call has failed or a task has been dropped. -/
theorem moves_cleaned
    {i : ℕ} (hI : s.Inv S)
    (hi : s.faulted = false → s.dropped = false → i < s.nextIno ∧ s.Old i) :
  Moves S t s { s with cleaned := s.cleaned ++ [i] }
  where
  inv :=
    { hI with
      held := fun l t' ht => (hI.held l t' ht).congr rfl rfl rfl (fun _ _ => rfl)
        (fun _ r h => ⟨r, h, rfl, rfl⟩)
      infos := fun l i g m hi hd => (hI.infos l i g m hi hd).congr rfl rfl rfl rfl
      cleaned := by
        intro hf hd j hj
        rw [List.mem_append, List.mem_singleton] at hj
        obtain hj | rfl := hj
        · apply hI.cleaned hf hd j hj
        · apply hi hf hd }
  env := rfl
  mono := { Mono.refl S s with }
  kept := fun t' _ => { Rely.refl S t' s with mono := { Mono.refl S s with } }

/-! ### The environment -/

/-- Set the environment. -/
def setEnv (s : DiskCache E) (e : E) : DiskCache E := { s with env := e }

theorem Inv.setEnv
    {e : E} (hI : s.Inv S) (he : S.inv e) :
  (s.setEnv e).Inv S
  :=
  { hI with
    env := he
    held := fun l t' ht => (hI.held l t' ht).congr rfl rfl rfl (fun _ _ => rfl)
      (fun _ r h => ⟨r, h, rfl, rfl⟩)
    infos := fun l i g m hi hd => (hI.infos l i g m hi hd).congr rfl rfl rfl rfl }

theorem mono_setEnv
    {e : E} (hl : S.later s.env e) :
  s.Mono S (s.setEnv e)
  := { Mono.refl S s with later := hl }

/-- A change of the environment alone. -/
theorem guar_setEnv
    {Restart : DiskCache E → DiskCache E → Prop} {e : E} (hI : s.Inv S) (he : S.inv e)
    (hl : S.later s.env e) (hemits : S.emits s (s.setEnv e))
    (hr : ∀ t', t' ≠ t → S.rely t' s.env e) :
  (discipline S Restart).Guar t s (s.setEnv e)
  where
  inv := hI.setEnv he
  change := Or.inl ⟨mono_setEnv hl, hemits⟩
  rely := fun t' ht' => { Rely.refl S t' s with mono := mono_setEnv hl, env := hr t' ht' }

/-! ### The poison fence in memory -/

/-- Poison a hash in memory or clear its poison, under its metadata lock. The poison is
cleared when the entry has no trace of a fill that is barred. -/
theorem moves_setPoisoned
    {h : String} {b : Bool} (hI : s.Inv S) (hl : s.metaLocks h = some t)
    (hb : s.wrapped = false → b = false → ∀ f r, s.Barred f r → r.key.hash = h →
      (s.slot h).poisoned = true → s.NoTrace f (s.slot h)) :
  Moves S t s (s.setPoisoned h b)
  := by
  have hslot : ∀ l, l ≠ h → (s.setPoisoned h b).slot l = s.slot l :=
    fun l hlh => Function.update_of_ne hlh _ _
  have hself : (s.setPoisoned h b).slot h = { s.slot h with poisoned := b } :=
    Function.update_self _ _ _
  have hbody : ∀ l, ((s.setPoisoned h b).slot l).body = (s.slot l).body := by
    intro l
    by_cases hlh : l = h
    · subst hlh
      rw [hself]
    · rw [hslot l hlh]
  have hinfo : ∀ l, ((s.setPoisoned h b).slot l).info = (s.slot l).info := by
    intro l
    by_cases hlh : l = h
    · subst hlh
      rw [hself]
    · rw [hslot l hlh]
  have hpois : ∀ l, l ≠ h → (s.setPoisoned h b).poisonedHashes l = s.poisonedHashes l :=
    fun l hlh => Function.update_of_ne hlh _ _
  have hne : ∀ l t', t' ≠ t → s.metaLocks l = some t' → l ≠ h := by
    rintro l t' ht' hlt rfl
    exact ht' (Option.some.inj (hlt.symm.trans hl))
  have hmono : s.Mono S (s.setPoisoned h b) :=
    { Mono.refl S s with
      fenced := by
        rintro hw f ⟨r, hr, htrace⟩
        refine ⟨r, hr, ?_⟩
        by_cases hlh : r.key.hash = h
        · rw [hlh] at htrace ⊢
          rw [hself]
          cases hbv : b with
          | true =>
              left
              rfl
          | false =>
              right
              obtain hpoi | hn := htrace
              · exact hb hw hbv f r hr hlh hpoi
              · exact hn
        · rw [hslot _ hlh]
          exact htrace }
  refine ⟨?_, rfl, hmono, ?_⟩
  · exact
    { hI with
      slot_body_lt := fun l i hi => hI.slot_body_lt l i ((hbody l).symm.trans hi)
      slot_info_lt := fun l i hi => hI.slot_info_lt l i ((hinfo l).symm.trans hi)
      poisoned := by
        intro l
        by_cases hlh : l = h
        · subst hlh
          rw [hself]
          exact Function.update_self _ _ _
        · rw [hslot l hlh, hpois l hlh]
          apply hI.poisoned
      free := by
        intro l hlf
        have hlh : l ≠ h := by
          rintro rfl
          cases hl.symm.trans hlf
        rw [hslot l hlh, ← hI.free l hlf]
        exact view_congr rfl rfl (hpois l hlh)
      held := by
        intro l t' ht'
        have hprog := hI.held l t' ht'
        constructor
        · rw [hbody]
          exact hprog.body
        · rw [hinfo]
          exact hprog.info
      bodies := fun l i hi => hI.bodies l i ((hbody l).symm.trans hi)
      infos := fun l i g m hi hd =>
        (hI.infos l i g m ((hinfo l).symm.trans hi) hd).congr rfl rfl rfl rfl
      info_not_body := fun l i f bs hi => hI.info_not_body l i f bs ((hinfo l).symm.trans hi)
      slot_paired := by
        intro hf l i j f bs g m hvb hvi
        apply hI.slot_paired hf l i j f bs g m
        · rw [← hbody, hvb]
        · rw [← hinfo, hvi]
      quiet := by
        intro hf hd l hlf
        have hlh : l ≠ h := by
          rintro rfl
          cases hl.symm.trans hlf
        rw [hslot l hlh]
        apply hI.quiet hf hd l hlf
      ids_disk := fun l l' i i' g g' m m' hi hi' =>
        hI.ids_disk l l' i i' g g' m m' ((hinfo l).symm.trans hi) ((hinfo l').symm.trans hi')
      disk_lt_counter := fun hc l i g m hi =>
        hI.disk_lt_counter hc l i g m ((hinfo l).symm.trans hi) }
  · intro t' ht'
    exact
    { Rely.refl S t' s with
      mono := hmono
      slot := fun l _ hlt => ⟨hslot l (hne l t' ht' hlt), hpois l (hne l t' ht' hlt)⟩ }

end DiskCache

end TinyS3Proxy
