import TinyS3Proxy.Cache.Calls

/-!
# The runs of the cache

The callers of the cache keep its discipline, and so do crashes and restarts. So the
invariant holds along every run, and every event in the log tells what held of the cache
when it was noted.
-/

namespace TinyS3Proxy

open Coop Coop.Discipline

namespace DiskCache

variable {t i : ℕ} {s s' : DiskCache (List Event)} {c : Call}

/-! ### What events tell -/

/-- The fill `f` of the key was begun before position `i` of the log. -/
def Before (s : DiskCache (List Event)) (key : CacheKey) (i f : ℕ) : Prop :=
  ∃ r, s.fills f = some r ∧ r.key = key ∧ r.born.length ≤ i

/-- The guard is that of a fill of the key, begun since the last restart. -/
def Begun (s : DiskCache (List Event)) (key : CacheKey) (guard : FillGuard) : Prop :=
  s.bootFill ≤ guard.fill ∧ ∃ r, s.fills guard.fill = some r ∧ r.key = key ∧ r.born <+: s.env

/-- What it tells about the cache that the call, made at position `i` of the log by the
task `t`, returns the given result. -/
def Told (s : DiskCache (List Event)) (i t : ℕ) : (c : Call) → c.Result → Prop
  | .beginFill key, guard => s.Begun key guard
  | .lookup key, r => LookupResult key true r (s.slot key.hash) s
  | .peek key, r => LookupResult key false r (s.slot key.hash) s
  | .peekBody key, r => LookupResult key true r (s.slot key.hash) s
  | .purge key, r => Invalidated (s.Before key i) (fun _ => True) r s
  | .poison key, r => Invalidated (s.Before key i) (fun _ => True) r s
  | .purgeIfUnchanged key _, r => Invalidated (s.Before key i) (· = true) r s
  | .poisonIfUnchanged key _, r => Invalidated (s.Before key i) (· = true) r s
  | .updateMetadataIfUnchanged key expected m, r => Updated t key expected m r s
  | .commitFill _ _ _, _ => True
  | .abortFill _, _ => True
  | .rewriteLastAccessed _ _ _, _ => True
  | .runEvictionPass _ _, _ => True

/-- What an event tells about the cache when it is noted. A task that makes a single call
has noted nothing else. -/
def Tells (s : DiskCache (List Event)) : Event → Prop
  | .invoked _ _ => True
  | .returned i t c r => s.env[i]? = some (.invoked t c) ∧
      (c.Standalone → ∀ e ∈ s.env, e.task = some t → e = .invoked t c) ∧ s.Told i t c r
  | .restarted => False

/-- The callers of the cache as its surroundings. -/
def calling : Setting (List Event) where
  later l l' := l <+: l'
  rely t l l' := l <+: l' ∧ ∀ e ∈ l', e.task = some t → e ∈ l
  emits s s' := s'.env = s.env ∨ ∃ e, s' = s.note e ∧ s.Tells e
  inv _ := True
  idle t l := ∀ e ∈ l, e.task ≠ some t
  drops := false
  BodyOk _ _ _ := True
  InfoOk _ _ := True
  later_refl _ := List.prefix_rfl
  later_trans h h' := h.trans h'
  rely_refl _ _ := ⟨List.prefix_rfl, fun _ h _ => h⟩
  rely_trans h h' := ⟨h.1.trans h'.1, fun e he ht => h.2 e (h'.2 e he ht) ht⟩
  rely_idle h hi := fun e he ht => hi e (h.2 e he ht) ht
  emits_of_env_eq _ _ h := Or.inl h
  info_stamped _ _ := trivial
  info_preserve _ _ _ := trivial
  info_updated _ _ _ := trivial
  info_touched _ _ := trivial

/-- The discipline of the callers. -/
abbrev disciplined : Discipline (DiskCache (List Event)) := discipline calling callers.reset

/-! ### Noting events -/

/-- A task notes its own events. -/
theorem guar_note
    {e : Event} (hI : s.Inv calling) (ht : e.task = some t) (hT : s.Tells e) :
  disciplined.Guar t s (s.note e)
  := by
  apply guar_setEnv hI trivial (List.prefix_append _ _) (Or.inr ⟨e, rfl, hT⟩)
  intro t' ht'
  refine ⟨List.prefix_append _ _, ?_⟩
  intro e' he' htask
  obtain he' | he' := List.mem_append.mp he'
  · exact he'
  · obtain rfl := List.mem_singleton.mp he'
    exact absurd (Option.some.inj (htask.symm.trans ht)) ht'

/-- A call is verified when its code is. -/
theorem wp_perform
    {Q : c.Result → DiskCache (List Event) → Prop} (hI : s.Inv calling)
    (hown : c.Standalone → calling.idle t s.env) (hQ : ∀ r s' e, Q r s' → Q r (s'.note e))
    (hcode : disciplined.WP t c.code (fun r s' =>
      calling.rely t (s.note (.invoked t c)).env s'.env ∧ s'.Inv calling ∧
        s'.Told s.env.length t c r ∧ Q r s') (s.note (.invoked t c))) :
  disciplined.WP t (perform c) (fun r s' => s'.Inv calling ∧ Q r s') s
  := by
  intro _
  refine ⟨guar_note hI rfl trivial, ?_⟩
  apply WP.seq hcode
  rintro r s₁ ⟨⟨hpre, hmine⟩, hI₁, hT, hr⟩ -
  have hpos : s₁.env[s.env.length]? = some (.invoked t c) := by
    obtain ⟨l, hl⟩ := hpre
    rw [← hl]
    simp [note, setEnv]
  have honly : c.Standalone → ∀ e ∈ s₁.env, e.task = some t → e = .invoked t c := by
    intro hc e he ht
    obtain he | he := List.mem_append.mp (hmine e he ht)
    · exact absurd ht (hown hc e he)
    · exact List.mem_singleton.mp he
  have hG : disciplined.Guar t s₁ (s₁.note (.returned s.env.length t c r)) :=
    guar_note hI₁ rfl ⟨hpos, honly, hT⟩
  exact ⟨hG, hG.inv, hQ r s₁ _ hr⟩

/-! ### Calls that stand alone -/

/-- A fill that was begun before the call was made was there when the call was made. -/
theorem Before.fillsOf
    {key : CacheKey} {f : ℕ} (hm : (s.note (.invoked t c)).Mono calling s')
    (hf : s'.Before key s.env.length f) :
  (s.note (.invoked t c)).FillsOf key f
  := by
  obtain ⟨r', hf', hk, hlen⟩ := hf
  cases hf₀ : (s.note (.invoked t c)).fills f with
  | none =>
      have hpre := (hm.fresh f r' hf' hf₀).length_le
      simp only [note, setEnv, List.length_append, List.length_singleton] at hpre
      omega
  | some r =>
      obtain ⟨r'', hf'', hg⟩ := hm.fills f r hf₀
      obtain rfl := Option.some.inj (hf'.symm.trans hf'')
      exact ⟨r, hf₀, hg.key.symm.trans hk⟩

theorem Invalidated.before
    {α : Type} {P : α → Prop} {key : CacheKey} {r : Except CacheError α}
    (hr : Invalidated ((s.note (.invoked t c)).FillsOf key) P r s')
    (hm : (s.note (.invoked t c)).Mono calling s') :
  Invalidated (s'.Before key s.env.length) P r s'
  := by
  cases r with
  | error e => trivial
  | ok a =>
      intro hP hw f hf
      exact hr hP hw f (hf.fillsOf hm)

/-- The code of a call that stands alone keeps the discipline, and its result tells what it
should. -/
theorem wp_code
    (hI : s.Inv calling) (hi : s.Idle t) (hc : c.Standalone) :
  disciplined.WP t c.code (fun r s' =>
    calling.rely t (s.note (.invoked t c)).env s'.env ∧ s'.Inv calling ∧
      s'.Told s.env.length t c r ∧ True) (s.note (.invoked t c))
  := by
  have hI₁ : (s.note (.invoked t c)).Inv calling := hI.setEnv trivial
  have hi₁ : (s.note (.invoked t c)).Idle t := hi
  cases c with
  | beginFill | commitFill | abortFill => cases hc
  | lookup key | peekBody key =>
      change disciplined.WP t (lookupInner key true) _ _
      apply WP.mono (wp_lookupInner key true hi₁)
      rintro r s' ⟨hk, hI', -, hr⟩
      exact ⟨hk.env, hI', hr, trivial⟩
  | peek key =>
      change disciplined.WP t (lookupInner key false) _ _
      apply WP.mono (wp_lookupInner key false hi₁)
      rintro r s' ⟨hk, hI', -, hr⟩
      exact ⟨hk.env, hI', hr, trivial⟩
  | purge key =>
      change disciplined.WP t (DiskCache.purge key) _ _
      apply WP.mono (wp_purge key hi₁)
      rintro r s' ⟨hk, hI', -, hr⟩
      exact ⟨hk.env, hI', hr.before hk.mono, trivial⟩
  | poison key =>
      change disciplined.WP t (DiskCache.poison key) _ _
      apply WP.mono (wp_poison key hi₁)
      rintro r s' ⟨hk, hI', -, hr⟩
      exact ⟨hk.env, hI', hr.before hk.mono, trivial⟩
  | purgeIfUnchanged key expected =>
      change disciplined.WP t (DiskCache.purgeIfUnchanged key expected) _ _
      apply WP.mono (wp_purgeIfUnchanged key expected hi₁)
      rintro r s' ⟨hk, hI', -, hr⟩
      exact ⟨hk.env, hI', hr.before hk.mono, trivial⟩
  | poisonIfUnchanged key expected =>
      change disciplined.WP t (DiskCache.poisonIfUnchanged key expected) _ _
      apply WP.mono (wp_poisonIfUnchanged key expected hi₁)
      rintro r s' ⟨hk, hI', -, hr⟩
      exact ⟨hk.env, hI', hr.before hk.mono, trivial⟩
  | updateMetadataIfUnchanged key expected m =>
      change disciplined.WP t (DiskCache.updateMetadataIfUnchanged key expected m) _ _
      apply WP.mono (wp_updateMetadata trivial hi₁)
      rintro r s' ⟨hk, hI', -, hr⟩
      exact ⟨hk.env, hI', hr, trivial⟩
  | rewriteLastAccessed h expected now =>
      change disciplined.WP t (DiskCache.rewriteLastAccessed h expected now) _ _
      apply WP.mono (wp_rewriteLastAccessed h expected now hi₁)
      rintro r s' ⟨hk, hI', -⟩
      exact ⟨hk.env, hI', trivial, trivial⟩
  | runEvictionPass cleanups candidates =>
      change disciplined.WP t (DiskCache.runEvictionPass cleanups candidates) _ _
      apply WP.mono (wp_runEvictionPass cleanups candidates hI₁ hi₁)
      rintro r s' ⟨hk, hI', -⟩
      exact ⟨hk.env, hI', trivial, trivial⟩

theorem wp_caller
    (hI : s.Inv calling) (hi : s.Idle t) (hown : calling.idle t s.env) (hc : c.Standalone) :
  disciplined.WP t (caller c) (fun _ _ => True) s
  := by
  apply WP.seq (wp_perform (Q := fun _ _ => True) hI (fun _ => hown) (fun _ _ _ h => h)
    (wp_code hI hi hc))
  intro _ _ _
  exact trivial

/-! ### Fills -/

theorem Guarded.note
    {guard : FillGuard} {r : Fill (List Event)} (hg : s.Guarded t guard r) (e : Event) :
  (s.note e).Guarded t guard r
  := ⟨hg.fill, hg.key, hg.owner, hg.generation, hg.fillId, hg.unwritten⟩

theorem Ready.note
    {nb : ℕ} {guard : FillGuard} {m : CacheMeta} {r : Fill (List Event)}
    (hr : Ready calling t nb guard m r s) (e : Event) :
  Ready calling t nb guard m r (s.note e)
  := ⟨hr.guarded.note e, hr.body, hr.info⟩

/-- Begin a fill, as a call. -/
theorem wp_performBegin
    (key : CacheKey) (hI : s.Inv calling) (hi : s.Idle t) :
  disciplined.WP t (perform (.beginFill key))
    (fun g s' => s'.Inv calling ∧ s'.Idle t ∧ ∃ r, s'.Guarded t g r) s
  := by
  apply wp_perform hI False.elim
  · rintro g s' e ⟨hi', r, hg⟩
    exact ⟨hi', r, hg.note e⟩
  · apply WP.mono (wp_beginFill key)
    rintro g s' ⟨hR, hI', hk, r, hg, hborn⟩
    have hi₁ : (s.note (.invoked t (.beginFill key))).Idle t := hi
    have hboot := (hI'.active _ r hg.fill (hI'.owned _ r t hg.fill hg.owner)).2
    refine ⟨hR.env, hI', ⟨hboot, r, hg.fill, hg.key.trans hk, ?_⟩, hi₁.kept hR, r, hg⟩
    rw [hborn]

/-- Commit a fill, as a call. -/
theorem wp_performCommit
    {nb : ℕ} {guard : FillGuard} {m : CacheMeta} {r : Fill (List Event)} (hI : s.Inv calling)
    (hi : s.Idle t) (hr : Ready calling t nb guard m r s) :
  disciplined.WP t (perform (.commitFill guard (.tmp t nb .body) m)) (fun _ _ => True) s
  := by
  have hi₁ : (s.note (.invoked t (.commitFill guard (.tmp t nb .body) m))).Idle t := hi
  apply WP.mono (wp_perform (Q := fun _ _ => True) hI False.elim (fun _ _ _ h => h) _)
  · intro _ _ _
    trivial
  · apply WP.mono (wp_commitFill hi₁ (hr.note _))
    rintro res s' ⟨hk, hI', -⟩
    exact ⟨hk.env, hI', trivial, trivial⟩

/-- Abandon a fill, as a call. -/
theorem wp_performAbort
    {guard : FillGuard} {r : Fill (List Event)} (hI : s.Inv calling) (hi : s.Idle t)
    (hg : s.Guarded t guard r) :
  disciplined.WP t (perform (.abortFill guard)) (fun _ _ => True) s
  := by
  have hi₁ : (s.note (.invoked t (.abortFill guard))).Idle t := hi
  apply WP.mono (wp_perform (Q := fun _ _ => True) hI False.elim (fun _ _ _ h => h) _)
  · intro _ _ _
    trivial
  · apply WP.mono (wp_abortFill (hg.note _) hi₁)
    rintro res s' ⟨hk, hI', -⟩
    exact ⟨hk.env, hI', trivial, trivial⟩

theorem wp_filler
    (key : CacheKey) (body : List UInt8) (info : Option CacheMeta) (hI : s.Inv calling)
    (hi : s.Idle t) :
  disciplined.WP t (filler key body info) (fun _ _ => True) s
  := by
  apply WP.seq (wp_performBegin key hI hi)
  rintro guard s₁ ⟨hI₁, hi₁, r, hg₁⟩ -
  refine ⟨(Moves.refl hI₁).guar, ?_⟩
  apply WP.seq wp_nextTmp
  rintro nb s₂ ⟨hR₂, hI₂⟩
  have hg₂ := hg₁.kept hR₂ id
  apply WP.seq (wp_writeFile (X := Scope.name (.tmp t nb .body)) (p := .tmp t nb .body) _ rfl rfl)
  rintro res s₃ ⟨hk₃, hI₃, hres⟩
  have hi₃ := (hi₁.kept hR₂).kept hk₃
  have hg₃ := hg₂.kept hk₃ id
  match res, info, hres with
  | .ok (), some m, ⟨i, hi, hd⟩ =>
      apply WP.seq (wp_performCommit hI₃ hi₃ (r := r) ⟨hg₃, _, trivial⟩)
      · intro _ _ _
        trivial
      · rintro j hj
        obtain rfl := Option.some.inj (hi.symm.trans hj)
        exact ⟨hI₃.linked _ i hi, body, hd, trivial⟩
  | .ok (), none, _ | .error _, _, _ =>
      apply WP.seq (wp_performAbort hI₃ hi₃ hg₃)
      intro _ _ _
      trivial

/-! ### Soundness -/

/-- A restart keeps the invariant. -/
theorem reset_inv
    (hI : s.Inv calling) (h : callers.reset s s') :
  s'.Inv calling
  := by
  obtain ⟨u, s₁, hu, hr, rfl⟩ := h
  exact (hI.restart hu hr).setEnv trivial

theorem reset_env
    (h : callers.reset s s') :
  s'.env = s.env ++ [.restarted]
  := by
  obtain ⟨u, s₁, -, hr, rfl⟩ := h
  obtain ⟨n, -, rfl⟩ := restart_eq hr
  rfl

/-- All that happens in a run of the cache keeps the discipline. -/
theorem sound_callers :
  disciplined.Sound callers
  where
  spawn := by
    rintro p (⟨c, hc, rfl⟩ | ⟨key, body, info, rfl⟩) t s hI ⟨hi, hown⟩
    · exact wp_caller hI hi hown hc
    · exact wp_filler key body info hI hi
  drop := by
    intro t s _ h
    cases h
  env := by
    intro s s' _ h
    cases h
  reset := by
    intro s s' hI h
    refine ⟨reset_inv hI h, Or.inr h, ?_⟩
    rintro t ⟨-, hown⟩
    constructor
    · obtain ⟨u, s₁, -, hr, rfl⟩ := h
      obtain ⟨n, -, rfl⟩ := restart_eq hr
      intro l hl
      cases hl
    · intro e he
      rw [reset_env h, List.mem_append, List.mem_singleton] at he
      obtain he | rfl := he
      · exact hown e he
      · exact (Option.some_ne_none t).symm

/-- The invariant holds at the end of a run, which is made of changes that the discipline
allows. -/
theorem Run.trace
    {P : Pool (DiskCache (List Event))} (h : Run P) :
  P.st.Inv calling ∧ disciplined.Trace (fresh []) P.st
  := by
  have hgood : disciplined.Good (Pool.idle (fresh []) 0) := by
    apply Good.of_idle (fresh_inv trivial)
    intro t _
    constructor
    · intro l hl
      cases hl
    · intro e he
      cases he
  obtain ⟨hG, hT⟩ := hgood.steps sound_callers h
  exact ⟨hG.inv, hT⟩

end DiskCache

end TinyS3Proxy
