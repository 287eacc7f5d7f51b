import TinyS3Proxy.Cache.Fencing

/-!
# Eviction passes

An eviction pass removes whole entries, and what it cleans up are leftovers, unless some
call fails.
-/

namespace TinyS3Proxy

open Coop Coop.Discipline

/-- The entry without the files of the given names. -/
def View.without (v : View) (ps : List Path) : View := ps.foldl (fun v p => v.set p none) v

namespace DiskCache

variable {E : Type} {S : Setting E} {Restart : DiskCache E → DiskCache E → Prop}
  {t : ℕ} {s s' s₀ : DiskCache E} {h : String} {v : View}

/-! ### Removing files for a pass -/

/-- What removing a file of an entry, or its poison marker, tells: the file is gone, or a
call has failed. -/
def Cleared (S : Setting E) (t : ℕ) (h : String) (s₀ : DiskCache E) (v : View) (p : Path)
    (gone : Bool) (s : DiskCache E) : Prop :=
  ∃ v', Inside S t h s₀ v' s ∧ (v' = v.set p none ∨ v' = v ∧ s.faulted = true) ∧
    (gone = true ∨ s.faulted = true)

theorem wp_removeAny
    {p : Path} (hs : Inside S t h s₀ v s) (hp : p.OfEntry h ∨ p = .poisoned h) :
  (discipline S Restart).WP t (removeFile p)
    (fun r s' => s.Mono S s' ∧ Cleared S t h s₀ v p (isGone r) s') s
  := by
  obtain hp | rfl := hp
  · apply WP.mono (wp_remove hs hp)
    rintro r s' ⟨hm, hr⟩
    refine ⟨hm, ?_⟩
    cases hr with
    | removed hs' => exact ⟨_, hs', Or.inl rfl, Or.inl rfl⟩
    | missing hv hs' => exact ⟨v, hs', Or.inl (View.set_get hv).symm, Or.inl rfl⟩
    | failed _ hf hs' => exact ⟨v, hs', Or.inr ⟨rfl, hf⟩, Or.inr hf⟩
  · apply WP.mono (wp_removeMine (X := Scope.name (.poisoned h)) (p := .poisoned h) trivial rfl)
    rintro r s' ⟨hk, hI, hg⟩
    exact ⟨hk.mono, v, hs.side hI hk id (Or.inr (Or.inl rfl)), Or.inl rfl, hg⟩

theorem wp_removeFileOrReclaimSize
    {p : Path} (hs : Inside S t h s₀ v s) (hp : p.OfEntry h ∨ p = .poisoned h) :
  (discipline S Restart).WP t (removeFileOrReclaimSize p)
    (fun r s' => s.Mono S s' ∧ (r = .ok () ∨ s'.faulted = true) ∧ ∃ v', Inside S t h s₀ v' s' ∧
      (v' = v.set p none ∨ v' = v ∧ s'.faulted = true)) s
  := by
  apply WP.seq (wp_stat p hs)
  rintro before s₁ ⟨hs₁, hm₁, -⟩
  apply WP.seq (wp_removeAny hs₁ hp)
  rintro r s₂ ⟨hm₂, v', hs₂, hv', hg⟩
  have hm := hm₁.trans hm₂
  change WP _ t (if _ then _ else _) _ _
  split
  · exact ⟨hm, Or.inl rfl, v', hs₂, hv'⟩
  · next hr =>
    have hf : s₂.faulted = true := hg.resolve_left hr
    apply WP.seq (wp_stat p hs₂)
    rintro after s₃ ⟨hs₃, hm₃, -⟩
    have hf₃ : s₃.faulted = true := hm₃.faulted hf
    have hv₃ : v' = v.set p none ∨ v' = v ∧ s₃.faulted = true :=
      hv'.imp_right fun hv => ⟨hv.1, hf₃⟩
    match after with
    | .ok () => exact ⟨hm.trans hm₃, Or.inr hf₃, v', hs₃, hv₃⟩
    | .error .notFound => exact ⟨hm.trans hm₃, Or.inr hf₃, v', hs₃, hv₃⟩
    | .error .alreadyExists | .error .other =>
        match before with
        | .ok () => exact ⟨hm.trans hm₃, Or.inr hf₃, v', hs₃, hv₃⟩
        | .error .notFound => exact ⟨hm.trans hm₃, Or.inr hf₃, v', hs₃, hv₃⟩
        | .error .alreadyExists => exact ⟨hm.trans hm₃, Or.inr hf₃, v', hs₃, hv₃⟩
        | .error .other => exact ⟨hm.trans hm₃, Or.inr hf₃, v', hs₃, hv₃⟩

theorem wp_removeFilesOrReclaimSize
    {ps : List Path} (hs : Inside S t h s₀ v s) (hp : ∀ p ∈ ps, p.OfEntry h ∨ p = .poisoned h) :
  (discipline S Restart).WP t (removeFilesOrReclaimSize ps)
    (fun _ s' => s.Mono S s' ∧
      ∃ v', Inside S t h s₀ v' s' ∧ (s'.faulted = true ∨ v' = v.without ps)) s
  := by
  induction ps generalizing v s with
  | nil => exact ⟨Mono.refl S s, v, hs, Or.inr rfl⟩
  | cons p ps ih =>
      apply WP.seq (wp_removeFileOrReclaimSize hs (hp p List.mem_cons_self))
      rintro r s₁ ⟨hm₁, hr, v', hs₁, hv'⟩
      cases r with
      | error e =>
          obtain hr | hf := hr
          · cases hr
          · exact ⟨hm₁, v', hs₁, Or.inl hf⟩
      | ok u =>
          apply WP.mono (ih hs₁ fun q hq => hp q (List.mem_cons_of_mem p hq))
          rintro _ s₂ ⟨hm₂, v₂, hs₂, hv₂⟩
          refine ⟨hm₁.trans hm₂, v₂, hs₂, ?_⟩
          obtain rfl | ⟨-, hf⟩ := hv'
          · exact hv₂
          · exact Or.inl (hm₂.faulted hf)

/-- Removing files for a pass leaves a tidy entry, if nothing is left of the entry once
they are gone. -/
theorem wp_removeFiles_tidy
    {ps : List Path} (hs : Inside S t h s₀ v s) (hp : ∀ p ∈ ps, p.OfEntry h ∨ p = .poisoned h)
    (hb : (v.without ps).body = none) (hi : (v.without ps).info = none) :
  (discipline S Restart).WP t (removeFilesOrReclaimSize ps)
    (fun _ s' => ∃ v', Inside S t h s₀ v' s' ∧ s'.Tidy v') s
  := by
  apply WP.mono (wp_removeFilesOrReclaimSize hs hp)
  rintro _ s' ⟨-, v', hs', hf | rfl⟩
  · exact ⟨v', hs', Tidy.of_faulted hf⟩
  · exact ⟨_, hs', Tidy.of_empty hb hi⟩

theorem wp_removeEntryFiles
    (hs : Inside S t h s₀ v s) :
  (discipline S Restart).WP t (removeEntryFiles h)
    (fun _ s' => ∃ v', Inside S t h s₀ v' s' ∧ s'.Tidy v') s
  := by
  apply wp_removeFiles_tidy hs _ rfl rfl
  simp [Path.OfEntry]

/-! ### Cleanups -/

/-- What a second look at an entry tells. -/
def Recovered (v : View) : RecoverOutcome → Prop
  | .missingBody => v.body = none
  | _ => True

theorem wp_tryRecoverEntry
    (hs : Inside S t h s₀ v s) :
  (discipline S Restart).WP t (tryRecoverEntry h)
    (fun r s' => Inside S t h s₀ v s' ∧ s.Mono S s' ∧ Recovered v r) s
  := by
  apply WP.seq (wp_stat (.body h) hs)
  rintro r s₁ ⟨hs₁, hm₁, hr⟩
  match r, hr with
  | .error .notFound, hn => exact ⟨hs₁, hm₁, hs₁.held.body_eq.symm.trans hn⟩
  | .error .alreadyExists, _ => exact ⟨hs₁, hm₁, trivial⟩
  | .error .other, _ => exact ⟨hs₁, hm₁, trivial⟩
  | .ok (), _ =>
  apply WP.seq (wp_readMeta hs₁)
  rintro r s₂ ⟨hs₂, hm₂, hr⟩
  have hm := hm₁.trans hm₂
  cases hr with
  | missing => exact ⟨hs₂, hm, trivial⟩
  | failed => exact ⟨hs₂, hm, trivial⟩
  | corrupt hd =>
      simp only [hd]
      exact ⟨hs₂, hm, trivial⟩
  | parsed hd =>
      simp only [hd]
      exact ⟨hs₂, hm, trivial⟩

theorem wp_cleanupBrokenEntry
    (statError readError : String) (hs : Inside S t h s₀ v s) (hT : s.Tidy v) :
  (discipline S Restart).WP t (cleanupBrokenEntry h statError readError)
    (fun _ s' => ∃ v', Inside S t h s₀ v' s' ∧ s'.Tidy v') s
  := by
  apply WP.seq (wp_tryRecoverEntry hs)
  rintro r s₁ ⟨hs₁, hm₁, hr⟩
  have hT₁ := hT.mono hs.inv hs.held hm₁
  cases r with
  | recovered | bodyStatError | metaReadError => exact ⟨v, hs₁, hT₁⟩
  | missingBody =>
      have hp : ∀ p ∈ [Path.metaJson h, .poisoned h], p.OfEntry h ∨ p = .poisoned h := by
        simp [Path.OfEntry]
      exact wp_removeFiles_tidy hs₁ hp hr rfl
  | metaParseError => exact wp_removeEntryFiles hs₁

theorem wp_cleanupOrphanBody
    (hs : Inside S t h s₀ v s) (hT : s.Tidy v) :
  (discipline S Restart).WP t (cleanupOrphanBody h)
    (fun _ s' => ∃ v', Inside S t h s₀ v' s' ∧ s'.Tidy v') s
  := by
  apply WP.seq (wp_tryExists (X := Scope.none) (.metaJson h))
  rintro r s₁ ⟨hR, hI₁, hr⟩
  have hs₁ := hs.rely hI₁ hR
  have hT₁ := hT.mono hs.inv hs.held hR.mono
  match r, hr with
  | .ok true, _ => exact ⟨v, hs₁, hT₁⟩
  | .ok false, hn =>
      have hi : v.info = none := by
        rw [← hs₁.held.info_eq]
        simpa using hn.symm
      apply WP.mono (wp_removeFileOrReclaimSize hs₁ (p := .body h) (Or.inl rfl))
      rintro _ s₂ ⟨hm₂, -, v', hs₂, rfl | ⟨-, hf⟩⟩
      · exact ⟨_, hs₂, Tidy.of_empty rfl hi⟩
      · exact ⟨v', hs₂, Tidy.of_faulted hf⟩
  | .error .alreadyExists, _ | .error .other, _ =>
      apply WP.seq (wp_stat (.body h) hs₁)
      rintro r s₂ ⟨hs₂, hm₂, -⟩
      have hT₂ := hT₁.mono hs₁.inv hs₁.held hm₂
      match r with
      | .ok () => exact ⟨v, hs₂, hT₂⟩
      | .error .notFound => exact ⟨v, hs₂, hT₂⟩
      | .error .alreadyExists => exact ⟨v, hs₂, hT₂⟩
      | .error .other => exact ⟨v, hs₂, hT₂⟩

theorem wp_cleanupOrphanPoison
    (hs : Inside S t h s₀ v s) (hT : s.Tidy v) :
  (discipline S Restart).WP t (cleanupOrphanPoison h)
    (fun _ s' => ∃ v', Inside S t h s₀ v' s' ∧ s'.Tidy v') s
  := by
  apply WP.seq (wp_tryExists (X := Scope.none) (.metaJson h))
  rintro r s₁ ⟨hR, hI₁, hr⟩
  have hs₁ := hs.rely hI₁ hR
  have hT₁ := hT.mono hs.inv hs.held hR.mono
  match r, hr with
  | .ok true, _ => exact ⟨v, hs₁, hT₁⟩
  | .ok false, _ =>
      apply WP.mono (wp_removeFileOrReclaimSize hs₁ (p := .poisoned h) (Or.inr rfl))
      rintro _ s₂ ⟨hm₂, -, v', hs₂, rfl | ⟨rfl, -⟩⟩
      · exact ⟨_, hs₂, hT₁.mono hs₁.inv hs₁.held hm₂⟩
      · exact ⟨_, hs₂, hT₁.mono hs₁.inv hs₁.held hm₂⟩
  | .error .alreadyExists, _ | .error .other, _ => exact ⟨v, hs₁, hT₁⟩

/-- The scope of code that works on any entries. -/
def Scope.entries : Scope where
  names p := ∃ h, (Scope.entry h).names p
  hashes _ := True
  records _ := True
  fills _ := False

/-- Code under the lock of an entry that leaves a tidy entry, and of which nothing else
is asked. -/
theorem wp_tidying
    {α : Type} {q : Async (DiskCache E) α} (hi : s.Idle t)
    (hq : ∀ s₁ v, Inside S t h s₁ v s₁ → s₁.Tidy v →
      (discipline S Restart).WP t q (fun _ s₂ => ∃ v', Inside S t h s₁ v' s₂ ∧ s₂.Tidy v') s₁) :
  (discipline S Restart).WP t (withMetaLock h q)
    (fun _ s' => s.Kept S t Scope.entries s' ∧ s'.Inv S ∧ s'.Idle t) s
  := by
  apply WP.mono
  · apply wp_inside (Q := fun _ _ => True) hi
    intro s₁ v _ hs₁ hT₁
    apply WP.mono (hq s₁ v hs₁ hT₁)
    rintro _ s₂ hs₂
    exact ⟨trivial, hs₂⟩
  · rintro _ s' ⟨hk, hI, hi', -⟩
    refine ⟨hk.weaken ?_ ?_ ?_ ?_, hI, hi'⟩
    · exact fun _ hp => ⟨h, hp⟩
    · exact fun _ _ => trivial
    · exact fun _ _ => trivial
    · exact fun _ => id

theorem wp_processDeferredCleanup
    (c : DeferredCleanup) (hi : s.Idle t) :
  (discipline S Restart).WP t (processDeferredCleanup c)
    (fun _ s' => s.Kept S t Scope.entries s' ∧ s'.Inv S ∧ s'.Idle t) s
  := by
  cases c with
  | orphanBody h => exact wp_tidying hi fun _ _ hs hT => wp_cleanupOrphanBody hs hT
  | orphanPoison h => exact wp_tidying hi fun _ _ hs hT => wp_cleanupOrphanPoison hs hT
  | corruptEntry h => exact wp_tidying hi fun _ _ hs hT => wp_cleanupBrokenEntry _ _ hs hT
  | malformedHash h => exact wp_tidying hi fun _ _ hs _ => wp_removeEntryFiles hs
  | missingBody h => exact wp_tidying hi fun _ _ hs hT => wp_cleanupBrokenEntry _ _ hs hT

theorem wp_processDeferredCleanups
    {cs : List DeferredCleanup} (hI : s.Inv S) (hi : s.Idle t) :
  (discipline S Restart).WP t (processDeferredCleanups cs)
    (fun _ s' => s.Kept S t Scope.entries s' ∧ s'.Inv S ∧ s'.Idle t) s
  := by
  induction cs generalizing s with
  | nil => exact ⟨Kept.refl S t _ s, hI, hi⟩
  | cons c cs ih =>
      apply WP.seq (wp_processDeferredCleanup c hi)
      rintro r s₁ ⟨hk₁, hI₁, hi₁⟩
      cases r with
      | error e => exact ⟨hk₁, hI₁, hi₁⟩
      | ok u =>
          apply WP.mono (ih hI₁ hi₁)
          rintro _ s₂ ⟨hk₂, hI₂, hi₂⟩
          exact ⟨hk₁.trans hk₂, hI₂, hi₂⟩

/-! ### Evicting -/

theorem wp_evictEntry
    (hs : Inside S t h s₀ v s) :
  (discipline S Restart).WP t (evictEntry h)
    (fun _ s' => ∃ v', Inside S t h s₀ v' s' ∧ s'.Tidy v') s
  := by
  apply WP.seq (wp_removeAny hs (p := .body h) (Or.inl rfl))
  rintro rb s₁ ⟨-, v₁, hs₁, hv₁, -⟩
  apply WP.seq (wp_removeAny hs₁ (p := .metaJson h) (Or.inl rfl))
  rintro ri s₂ ⟨hm₂, v₂, hs₂, hv₂, -⟩
  have hT₂ : s₂.Tidy v₂ := by
    obtain rfl | ⟨-, hf⟩ := hv₂
    · obtain rfl | ⟨-, hf⟩ := hv₁
      · exact Tidy.of_empty rfl rfl
      · exact Tidy.of_faulted (hm₂.faulted hf)
    · exact Tidy.of_faulted hf
  -- Nothing of the entry changes from here on.
  let J : DiskCache E → Prop := fun s' => Inside S t h s₀ v₂ s' ∧ s'.Tidy v₂
  have hrest : ∀ s', J s' → ∀ p,
      (discipline S Restart).WP t (do let _ ← fileMetadata p) (fun _ s'' => J s'') s' := by
    rintro s' ⟨hs', hT'⟩ p
    apply WP.seq (wp_stat p hs')
    rintro _ s'' ⟨hs'', hm, -⟩
    exact ⟨hs'', hT'.mono hs'.inv hs'.held hm⟩
  apply WP.seq
  · apply WP.when (J := J) ⟨hs₂, hT₂⟩
    intro _
    apply WP.mono (wp_unmark hs₂)
    rintro _ s' ⟨hs', hm⟩
    exact ⟨hs', hT₂.mono hs₂.inv hs₂.held hm⟩
  intro _ s₃ hs₃
  apply WP.seq (WP.when (J := J) hs₃ fun _ => hrest s₃ hs₃ _)
  intro _ s₄ hs₄
  apply WP.mono (WP.when (J := J) hs₄ fun _ => hrest s₄ hs₄ _)
  intro _ s₅ hs₅
  exact ⟨v₂, hs₅⟩

theorem wp_tryEvictCandidate
    (c : EvictionCandidate) (hi : s.Idle t) :
  (discipline S Restart).WP t (tryEvictCandidate c)
    (fun _ s' => s.Kept S t Scope.entries s' ∧ s'.Inv S ∧ s'.Idle t) s
  := by
  apply wp_tidying hi
  intro s₁ v hs₁ hT₁
  apply WP.seq (wp_readMeta hs₁)
  rintro r s₂ ⟨hs₂, hm₂, hr⟩
  have hT₂ := hT₁.mono hs₁.inv hs₁.held hm₂
  cases hr with
  | missing => exact wp_evictEntry hs₂
  | @failed e he =>
      cases e with
      | notFound => exact absurd rfl he
      | alreadyExists | other => exact ⟨v, hs₂, hT₂⟩
  | corrupt hd =>
      simp only [hd]
      exact wp_evictEntry hs₂
  | parsed hd =>
      simp only [hd]
      split
      · apply WP.seq (wp_stat (.body c.hash) hs₂)
        rintro _ s₃ ⟨hs₃, hm₃, -⟩
        apply WP.seq (wp_stat (.metaJson c.hash) hs₃)
        rintro _ s₄ ⟨hs₄, hm₄, -⟩
        exact ⟨v, hs₄, (hT₂.mono hs₂.inv hs₂.held hm₃).mono hs₃.inv hs₃.held hm₄⟩
      · exact wp_evictEntry hs₂

/-- An eviction pass. -/
theorem wp_runEvictionPass
    (cleanups : List DeferredCleanup) (candidates : List EvictionCandidate) (hI : s.Inv S)
    (hi : s.Idle t) :
  (discipline S Restart).WP t (runEvictionPass cleanups candidates)
    (fun _ s' => s.Kept S t Scope.entries s' ∧ s'.Inv S ∧ s'.Idle t) s
  := by
  apply WP.seq (wp_processDeferredCleanups hI hi)
  rintro r s₁ ⟨hk₁, hI₁, hi₁⟩
  cases r with
  | error e => exact ⟨hk₁, hI₁, hi₁⟩
  | ok u =>
      apply WP.seq
      · apply WP.forEach (J := fun s' => s.Kept S t Scope.entries s' ∧ s'.Inv S ∧ s'.Idle t)
        · rintro c _ s₂ ⟨hk₂, -, hi₂⟩
          apply WP.mono (wp_tryEvictCandidate c hi₂)
          rintro _ s₃ ⟨hk₃, hI₃, hi₃⟩
          exact ⟨hk₂.trans hk₃, hI₃, hi₃⟩
        · exact ⟨hk₁, hI₁, hi₁⟩
      · intro _ s₂ hs₂
        exact hs₂

end DiskCache

end TinyS3Proxy
