import TinyS3Proxy.Cache.Probing

/-!
# Invalidation

A purge, a poisoning, and their conditional forms, when they succeed, fence every fill of
the key that was begun before: the fill cannot publish any more, and what it may have
published is gone or poisoned.
-/

namespace TinyS3Proxy

open Coop Coop.Discipline

namespace DiskCache

variable {E : Type} {S : Setting E} {Restart : DiskCache E → DiskCache E → Prop}
  {t : ℕ} {s s' s₀ : DiskCache E} {h : String} {v : View} {B : ℕ → Prop}

/-! ### Barred fills -/

/-- The fills in `B`, all of which work for the hash `h`, cannot publish any more. -/
def BarredAll (s : DiskCache E) (h : String) (B : ℕ → Prop) : Prop :=
  ∀ f, B f → ∃ r, s.Barred f r ∧ r.key.hash = h

/-- The fills in `B` are fenced, unless the generation of some fill has wrapped around. -/
def FencedAll (s : DiskCache E) (B : ℕ → Prop) : Prop :=
  s.wrapped = false → ∀ f, B f → s.Fenced f

theorem BarredAll.mono
    (hB : s.BarredAll h B) (hm : s.Mono S s') :
  s'.BarredAll h B
  := by
  intro f hf
  obtain ⟨r, ⟨hr, hb⟩, hh⟩ := hB f hf
  obtain ⟨r', hr', hg⟩ := hm.fills f r hr
  refine ⟨r', ⟨hr', ?_⟩, ?_⟩
  · obtain hfin | hlt := hb
    · exact Or.inl (hg.finished hfin)
    · right
      rw [hg.bumps₀, hg.entry]
      exact hlt.trans_le (hm.bumps r.entry)
  · rw [hg.key, hh]

theorem FencedAll.mono
    (hB : s.FencedAll B) (hm : s.Mono S s') :
  s'.FencedAll B
  := by
  intro hw f hf
  have hw₀ : s.wrapped = false := by
    by_contra hw'
    rw [hm.wrapped (by simpa using hw')] at hw
    cases hw
  exact hm.fenced hw f (hB hw₀ f hf)

/-- Barred fills are fenced when the entry has no files. -/
theorem BarredAll.fenced_of_empty
    (hB : s.BarredAll h B) (hs : s.slot h = v) (hb : v.body = none) (hi : v.info = none) :
  s.FencedAll B
  := by
  intro _ f hf
  obtain ⟨r, hr, hh⟩ := hB f hf
  refine ⟨r, hr, Or.inr ⟨?_, ?_⟩⟩
  · intro i b hbi
    rw [hh, hs, hb] at hbi
    cases hbi
  · intro i m hii
    rw [hh, hs, hi] at hii
    cases hii

/-- Barred fills are fenced when the entry is poisoned. -/
theorem BarredAll.fenced_of_poisoned
    (hB : s.BarredAll h B) (hp : (s.slot h).poisoned = true) :
  s.FencedAll B
  := by
  intro _ f hf
  obtain ⟨r, hr, hh⟩ := hB f hf
  refine ⟨r, hr, Or.inl ?_⟩
  rw [hh]
  exact hp

/-! ### Bumping the generation -/

/-- The tracking record, if any, of all fills of the key that are in progress. -/
def Tracks (s : DiskCache E) (key : CacheKey) (o : Option ℕ) : Prop :=
  (∀ f r, s.fills f = some r → r.key = key → r.finished = false → o = some r.entry) ∧
    ∀ e, o = some e → e < s.nextEntry

theorem wp_activeFill
    (key : CacheKey) :
  (discipline S Restart).WP t (activeFill key)
    (fun o s' => s.Rely S t s' ∧ s'.Inv S ∧ s'.Tracks key o) s
  := by
  intro s₁ c b s₂ hI hR hf
  obtain ⟨rfl, rfl⟩ := Prod.mk.inj (Option.some.inj hf)
  refine ⟨(Moves.refl hI).guar, hR, hI, ?_, ?_⟩
  · rintro f r hr rfl hfin
    exact (hI.active f r hr hfin).1
  · intro e he
    exact hI.active_lt key e he

/-- The fills of the key that there are in the state. -/
def FillsOf (s : DiskCache E) (key : CacheKey) (f : ℕ) : Prop :=
  ∃ r, s.fills f = some r ∧ r.key = key

theorem FillsOf.mono
    {key : CacheKey} {f : ℕ} (hf : s.FillsOf key f) (hm : s.Mono S s') :
  s'.FillsOf key f
  := by
  obtain ⟨r, hr, hk⟩ := hf
  obtain ⟨r', hr', hg⟩ := hm.fills f r hr
  exact ⟨r', hr', hg.key.trans hk⟩

/-- Once their record has been bumped, all fills of the key that were in progress when the
record was looked up are barred, and so are those that had finished. -/
theorem Tracks.barred
    {key : CacheKey} {o : Option ℕ} (hT : s₀.Tracks key o) (hm₀ : s₀.Mono S s) (hI : s.Inv S)
    (hm : s.Mono S s') (hb : ∀ e, o = some e → (s.entries e).bumps < (s'.entries e).bumps) :
  s'.BarredAll key.hash (s₀.FillsOf key)
  := by
  rintro f ⟨r, hr, hk⟩
  obtain ⟨r₁, hr₁, hg₁⟩ := hm₀.fills f r hr
  obtain ⟨r₂, hr₂, hg₂⟩ := hm.fills f r₁ hr₁
  refine ⟨r₂, ⟨hr₂, ?_⟩, by rw [hg₂.key, hg₁.key, hk]⟩
  cases hfin : r₁.finished with
  | true => exact Or.inl (hg₂.finished hfin)
  | false =>
      have hfin₀ : r.finished = false := by
        by_contra hn
        rw [hg₁.finished (by simpa using hn)] at hfin
        cases hfin
      have ho := hT.1 f r hr hk hfin₀
      have hlt := hb r.entry ho
      have hle := hI.bumps f r₁ hr₁ hfin
      right
      rw [hg₂.bumps₀, hg₂.entry]
      rw [hg₁.entry] at hle ⊢
      exact hle.trans_lt hlt

/-- Bump the record, when there is one, under its commit lock. -/
theorem wp_bumpAny
    {key : CacheKey} {o : Option ℕ} {X : Scope} (hI : s.Inv S) (hT : s₀.Tracks key o)
    (hm₀ : s₀.Mono S s) (hc : ∀ e, o = some e → (s.entries e).commitLock = some t)
    (hn : ∀ l, s.metaLocks l = some t → s.files (.body l) = (s.slot l).body)
    (hX : ∀ e, X.records e) :
  (discipline S Restart).WP t (bumpAny o)
    (fun _ s' => s.Kept S t X s' ∧ s'.Inv S ∧ s'.BarredAll key.hash (s₀.FillsOf key) ∧
      s'.slot = s.slot ∧ s'.view = s.view ∧ s'.metaLocks = s.metaLocks) s
  := by
  cases o with
  | none => exact ⟨Kept.refl S t X s, hI,
      hT.barred hm₀ hI (Mono.refl S s) (fun e he => by cases he), rfl, rfl, rfl⟩
  | some e =>
      have he : e < s.nextEntry := (hT.2 e rfl).trans_le hm₀.nextEntry
      have hM := moves_bump hI he (hc e rfl) fun l hl => Or.inr (hn l hl)
      apply wp_modifies
      intro _
      refine ⟨hM, ?_, hM.inv, ?_, rfl, rfl, rfl⟩
      · exact
        { Kept.refl S t X s with
          mono := hM.mono
          commitLock := by
            intro e' he'
            by_cases hee : e' = e
            · subst hee
              rw [bumped_self]
              exact he'
            · rw [bumped_of_ne hee]
              exact he'
          bumps := fun e' hX' => absurd (hX e') hX' }
      · apply hT.barred hm₀ hI hM.mono
        intro e' he'
        obtain rfl := Option.some.inj he'
        rw [bumped_self]
        exact Nat.lt_succ_self _

/-! ### Clearing and setting the poison -/

theorem kept_setPoisoned
    {X : Scope} {b : Bool} (hm : s.Mono S (s.setPoisoned h b)) (hX : X.hashes h) :
  s.Kept S t X (s.setPoisoned h b)
  :=
  { Kept.refl S t X s with
    mono := hm
    slot := by
      intro l hl _
      have hne : l ≠ h := by
        rintro rfl
        exact hl hX
      exact ⟨Function.update_of_ne hne _ _, Function.update_of_ne hne _ _⟩ }

theorem Held.setPoisoned
    (hH : s.Held t h v v) (b : Bool) :
  (s.setPoisoned h b).Held t h { v with poisoned := b } { v with poisoned := b }
  := by
  refine ⟨hH.lock, hH.only, ?_, ?_⟩
  · rw [← hH.slot]
    exact Function.update_self _ _ _
  · rw [← hH.view]
    exact View.ext rfl rfl (Function.update_self _ _ _)

/-- Poison the entry in memory. -/
theorem wp_markPoisoned
    (hs : Inside S t h s₀ v s) :
  (discipline S Restart).WP t (markPoisonedInMemory h)
    (fun _ s' => Inside S t h s₀ { v with poisoned := true } s' ∧ s.Mono S s') s
  := by
  apply wp_modifies
  intro _
  have hM : Moves S t s (s.setPoisoned h true) :=
    moves_setPoisoned hs.inv hs.held.lock fun _ hb => by cases hb
  exact ⟨hM, ⟨hs.kept.trans (kept_setPoisoned hM.mono rfl), hM.inv, hs.held.setPoisoned true⟩,
    hM.mono⟩

/-- Clear the poison of an entry that has no files. -/
theorem wp_clearPoison
    (hs : Inside S t h s₀ v s) (hb : v.body = none) (hi : v.info = none) :
  (discipline S Restart).WP t (clearPoison h)
    (fun _ s' => Inside S t h s₀ { v with poisoned := false } s' ∧ s.Mono S s') s
  := by
  have hM : Moves S t s (s.setPoisoned h false) := by
    apply moves_setPoisoned hs.inv hs.held.lock
    intro _ _ f r _ _ _
    rw [hs.held.slot]
    constructor
    · intro i b hbi
      rw [hb] at hbi
      cases hbi
    · intro i m hii
      rw [hi] at hii
      cases hii
  have hs' : Inside S t h s₀ { v with poisoned := false } (s.setPoisoned h false) :=
    ⟨hs.kept.trans (kept_setPoisoned hM.mono rfl), hM.inv, hs.held.setPoisoned false⟩
  intro _
  refine ⟨hM.guar, ?_⟩
  apply WP.mono (wp_unmark hs')
  rintro _ s' ⟨hs'', hm⟩
  exact ⟨hs'', hM.mono.trans hm⟩

theorem Tidy.of_empty
    (hb : v.body = none) (hi : v.info = none) :
  s.Tidy v
  := by
  intro _ _
  right
  constructor
  · intro i h
    rw [hb] at h
    cases h
  · intro j h
    rw [hi] at h
    cases h

theorem Tidy.of_faulted
    (hf : s.faulted = true) :
  s.Tidy v
  := (Leftover.of_faulted hf).tidy

/-! ### Purging under the lock -/

/-- Clear the poison of an entry without files, which fences the barred fills. -/
theorem wp_clearEmpty
    {α : Type} {a : α} (hs : Inside S t h s₀ v s) (hB : s.BarredAll h B) (hb : v.body = none)
    (hi : v.info = none) :
  (discipline S Restart).WP t (do clearPoison h; return a)
    (fun _ s' => s'.FencedAll B ∧ ∃ v', Inside S t h s₀ v' s' ∧ s'.Tidy v') s
  := by
  apply WP.seq (wp_clearPoison hs hb hi)
  rintro _ s₁ ⟨hs₁, hm₁⟩
  exact ⟨(hB.mono hm₁).fenced_of_empty hs₁.held.slot hb hi, _, hs₁, Tidy.of_empty hb hi⟩

/-- Remove a file of an entry if it is there. -/
theorem wp_removeIf
    {p : Path} {present : Bool} (hs : Inside S t h s₀ v s) (hp : p.OfEntry h)
    (hv : present = (v.get p).isSome) :
  (discipline S Restart).WP t (if present then removeFile p else return .ok ())
    (fun r s' => s.Mono S s' ∧
      (r = .ok () ∧ Inside S t h s₀ (v.set p none) s' ∨
        (∃ e, r = .error e) ∧ s'.faulted = true ∧ Inside S t h s₀ v s')) s
  := by
  cases present with
  | false =>
      have hn : v.get p = none := by simpa using hv.symm
      refine ⟨Mono.refl S s, Or.inl ⟨rfl, ?_⟩⟩
      rw [View.set_get hn]
      exact hs
  | true =>
      apply WP.mono (wp_remove hs hp)
      rintro r s' ⟨hm, hr⟩
      refine ⟨hm, ?_⟩
      cases hr with
      | removed hs' => exact Or.inl ⟨rfl, hs'⟩
      | missing hn =>
          rw [hn] at hv
          cases hv
      | failed _ hf hs' => exact Or.inr ⟨⟨_, rfl⟩, hf, hs'⟩

/-- Remove the files of an entry. When both are gone, the barred fills are fenced. -/
theorem wp_removeEntry
    {bodyExists metaExists : Bool} (hs : Inside S t h s₀ v s) (hB : s.BarredAll h B)
    (hb : bodyExists = v.body.isSome) (hi : metaExists = v.info.isSome) :
  (discipline S Restart).WP t (removeEntry h bodyExists metaExists)
    (fun r s' => (∀ b, r = .ok b → s'.FencedAll B) ∧
      ∃ v', Inside S t h s₀ v' s' ∧ s'.Tidy v') s
  := by
  apply WP.seq (wp_stat (.body h) hs)
  rintro _ s₁ ⟨hs₁, hm₁, -⟩
  apply WP.seq (wp_stat (.metaJson h) hs₁)
  rintro _ s₂ ⟨hs₂, hm₂, -⟩
  have hB₂ := (hB.mono hm₁).mono hm₂
  apply WP.seq (wp_removeIf hs₂ (p := .body h) rfl hb)
  rintro r s₃ ⟨hm₃, ⟨rfl, hs₃⟩ | ⟨⟨e, rfl⟩, hf, hs₃⟩⟩
  · apply WP.seq (wp_removeIf hs₃ (p := .metaJson h) rfl hi)
    rintro r s₄ ⟨hm₄, ⟨rfl, hs₄⟩ | ⟨⟨e, rfl⟩, hf, hs₄⟩⟩
    · apply WP.mono (wp_clearEmpty hs₄ ((hB₂.mono hm₃).mono hm₄) rfl rfl)
      rintro r s₅ ⟨hF, hv⟩
      exact ⟨fun _ _ => hF, hv⟩
    · exact ⟨nofun, _, hs₄, Tidy.of_faulted hf⟩
  · exact ⟨nofun, _, hs₃, Tidy.of_faulted hf⟩

/-- What an invalidation that has returned tells: if it succeeded, the barred fills are
fenced. -/
def Invalidated {α : Type} (B : ℕ → Prop) (P : α → Prop) (r : Except CacheError α)
    (s : DiskCache E) : Prop :=
  match r with
  | .ok a => P a → s.FencedAll B
  | .error _ => True

theorem Invalidated.mono
    {α : Type} {P : α → Prop} {r : Except CacheError α} (hr : Invalidated B P r s)
    (hm : s.Mono S s') :
  Invalidated B P r s'
  := by
  cases r with
  | ok a => exact fun hP => (hr hP).mono hm
  | error e => trivial

/-- Purge an entry under its lock. -/
theorem wp_purgeLocked
    (hs : Inside S t h s₀ v s) (hT : s.Tidy v) (hB : s.BarredAll h B) :
  (discipline S Restart).WP t (purgeLocked h)
    (fun r s' => Invalidated B (fun _ => True) r s' ∧ ∃ v', Inside S t h s₀ v' s' ∧ s'.Tidy v') s
  := by
  apply WP.seq (wp_check (.body h) _ hs)
  rintro r s₁ ⟨hs₁, hm₁, hr₁⟩
  have hT₁ := hT.mono hs.inv hs.held hm₁
  match r, hr₁ with
  | .error e, _ => exact ⟨trivial, v, hs₁, hT₁⟩
  | .ok bodyExists, hb =>
  apply WP.seq (wp_check (.metaJson h) _ hs₁)
  rintro r s₂ ⟨hs₂, hm₂, hr₂⟩
  have hT₂ := hT₁.mono hs₁.inv hs₁.held hm₂
  have hB₂ := (hB.mono hm₁).mono hm₂
  match r, hr₂ with
  | .error e, _ => exact ⟨trivial, v, hs₂, hT₂⟩
  | .ok metaExists, hi =>
  have hb' : bodyExists = v.body.isSome := by
    rw [← hs₁.held.body_eq]
    exact hb
  have hi' : metaExists = v.info.isSome := by
    rw [← hs₂.held.info_eq]
    exact hi
  change WP _ t (if _ then _ else _) _ _
  split
  · next hn =>
    rw [hb', hi'] at hn
    have hn' : v.body = none ∧ v.info = none := by simpa using hn
    apply WP.seq (wp_clearPoison hs₂ hn'.1 hn'.2)
    rintro _ s₃ ⟨hs₃, hm₃⟩
    exact ⟨fun _ => (hB₂.mono hm₃).fenced_of_empty hs₃.held.slot hn'.1 hn'.2, _, hs₃,
      Tidy.of_empty hn'.1 hn'.2⟩
  · apply WP.mono (wp_removeEntry hs₂ hB₂ hb' hi')
    rintro r s₃ ⟨hF, hv⟩
    refine ⟨?_, hv⟩
    cases r with
    | ok b => exact fun _ => hF b rfl
    | error e => trivial

theorem Idle.kept
    {X : Scope} (hi : s.Idle t) (hk : s.Kept S t X s') :
  s'.Idle t
  := fun l hl => hi l ((hk.metaLock l).mp hl)

/-- Code under the commit lock of a tracking record, if there is one, whose result still
says something when the state has grown. -/
theorem wp_withCommitLockAny
    {α : Type} {q : Async (DiskCache E) α} {Q : α → DiskCache E → Prop} {o : Option ℕ} {X : Scope}
    (hQ : ∀ a s₁ s₂, s₁.Mono S s₂ → Q a s₁ → Q a s₂) (hI : s.Inv S) (hi : s.Idle t)
    (ho : ∀ e, o = some e → e < s.nextEntry)
    (hq : ∀ s₁, s.Kept S t X s₁ → s₁.Inv S → s₁.Idle t →
      (∀ e, o = some e → (s₁.entries e).commitLock = some t) →
      (discipline S Restart).WP t q
        (fun a s₂ => s₁.Kept S t X s₂ ∧ s₂.Inv S ∧ s₂.Idle t ∧ Q a s₂) s₁) :
  (discipline S Restart).WP t (withCommitLock o q)
    (fun a s' => s.Kept S t X s' ∧ s'.Inv S ∧ s'.Idle t ∧ Q a s') s
  := by
  cases o with
  | none =>
      apply hq s (Kept.refl S t X s) hI hi
      intro e he
      cases he
  | some e =>
      apply wp_withCommitLock hi (ho e rfl)
      intro s₁ hk₁ hI₁ hi₁ hc
      apply WP.mono
      · apply hq s₁ (Rely.kept hk₁) hI₁ hi₁
        intro e' he'
        obtain rfl := Option.some.inj he'
        exact hc
      · rintro a s₂ ⟨hk₂, hI₂, hi₂, ha⟩
        exact ⟨hk₂, hI₂, hi₂, hQ a s₂ _ (mono_setCommitLock e none) ha⟩

/-- What an invalidation does: look the tracking record of the key up, and run the rest
under the commit lock of the record. The rest has to fence the fills that the record
tracks. -/
theorem wp_invalidation
    {α : Type} {P : α → Prop} {q : Option ℕ → Async (DiskCache E) (Except CacheError α)}
    (key : CacheKey) (hi : s.Idle t)
    (hq : ∀ o (s₀ s₁ : DiskCache E), s₀.Tracks key o → s₀.Mono S s₁ → s₁.Inv S → s₁.Idle t →
      (∀ e, o = some e → (s₁.entries e).commitLock = some t) →
      (discipline S Restart).WP t (q o)
        (fun r s₂ => s₁.Kept S t (Scope.entry key.hash) s₂ ∧ s₂.Inv S ∧ s₂.Idle t ∧
          Invalidated (s₀.FillsOf key) P r s₂) s₁) :
  (discipline S Restart).WP t (activeFill key >>= fun o => withCommitLock o (q o))
    (fun r s' => s.Kept S t (Scope.entry key.hash) s' ∧ s'.Inv S ∧ s'.Idle t ∧
      Invalidated (s.FillsOf key) P r s') s
  := by
  apply WP.seq (wp_activeFill key)
  rintro o s₀ ⟨hR, hI₀, hT⟩
  apply WP.mono
  · apply wp_withCommitLockAny (X := Scope.entry key.hash)
      (Q := fun r s' => Invalidated (s₀.FillsOf key) P r s')
      (fun _ _ _ hm hr => Invalidated.mono hr hm) hI₀ (hi.kept hR) hT.2
    intro s₁ hk₁ hI₁ hi₁ hc
    exact hq o s₀ s₁ hT hk₁.mono hI₁ hi₁ hc
  · rintro r s' ⟨hk, hI, hi', hr⟩
    refine ⟨(Rely.kept hR).trans hk, hI, hi', ?_⟩
    cases r with
    | ok a =>
        intro hP hw f hf
        exact hr hP hw f (hf.mono hR.mono)
    | error e => trivial

theorem Entered.mono
    (hE : Entered S t h s s') :
  s.Mono S s'
  := by
  obtain ⟨s₁, hR, hI, hl, rfl⟩ := hE
  exact hR.mono.trans (moves_lockMeta (t := t) hI hl).mono

theorem Entered.commitLock
    (hE : Entered S t h s s') {e : ℕ} (he : (s.entries e).commitLock = some t) :
  (s'.entries e).commitLock = some t
  := by
  obtain ⟨s₁, hR, hI, hl, rfl⟩ := hE
  exact hR.commitLock e he

/-- An invalidation under the lock of the entry leaves a tidy entry. -/
theorem wp_invalidateInside
    {α : Type} {P : α → Prop} {q : Async (DiskCache E) (Except CacheError α)} (hi : s.Idle t)
    (hq : ∀ s₁ v, Entered S t h s s₁ → Inside S t h s₁ v s₁ → s₁.Tidy v →
      (discipline S Restart).WP t q
        (fun r s₂ => Invalidated B P r s₂ ∧ ∃ v', Inside S t h s₁ v' s₂ ∧ s₂.Tidy v') s₁) :
  (discipline S Restart).WP t (withMetaLock h q)
    (fun r s' => s.Kept S t (Scope.entry h) s' ∧ s'.Inv S ∧ s'.Idle t ∧ Invalidated B P r s') s
  := by
  apply wp_inside hi
  intro s₁ v hE hs₁ hT₁
  apply WP.mono (hq s₁ v hE hs₁ hT₁)
  rintro r s₂ ⟨hr, v', hs₂, hT₂⟩
  exact ⟨hr.mono (moves_unlock hs₂.inv hs₂.held hT₂).mono, v', hs₂, hT₂⟩

/-- A bump by a task that holds no metadata lock. -/
theorem wp_bumpIdle
    {key : CacheKey} {o : Option ℕ} (hI : s.Inv S) (hi : s.Idle t) (hT : s₀.Tracks key o)
    (hm₀ : s₀.Mono S s) (hc : ∀ e, o = some e → (s.entries e).commitLock = some t) :
  (discipline S Restart).WP t (bumpAny o)
    (fun _ s' => s.Kept S t (Scope.entry h) s' ∧ s'.Inv S ∧ s'.Idle t ∧
      s'.BarredAll key.hash (s₀.FillsOf key)) s
  := by
  apply WP.mono (wp_bumpAny (X := Scope.entry h) hI hT hm₀ hc (fun l hl => absurd hl (hi l))
    fun _ => trivial)
  rintro _ s' ⟨hk, hI', hB, -, -, -⟩
  exact ⟨hk, hI', hi.kept hk, hB⟩

/-- A bump under the lock of the entry. -/
theorem wp_bumpInside
    {key : CacheKey} {o : Option ℕ} {s₁ : DiskCache E} (hs : Inside S t h s₁ v s)
    (hT : s₀.Tracks key o) (hm₀ : s₀.Mono S s)
    (hc : ∀ e, o = some e → (s.entries e).commitLock = some t) :
  (discipline S Restart).WP t (bumpAny o)
    (fun _ s' => Inside S t h s₁ v s' ∧ s.Mono S s' ∧ s'.BarredAll key.hash (s₀.FillsOf key)) s
  := by
  apply WP.mono (wp_bumpAny (X := Scope.entry h) hs.inv hT hm₀ hc _ fun _ => trivial)
  · rintro _ s' ⟨hk, hI', hB, hsl, hv, hl⟩
    refine ⟨⟨hs.kept.trans hk, hI', ?_, ?_, ?_, ?_⟩, hk.mono, hB⟩
    · rw [hl]
      exact hs.held.lock
    · rw [hl]
      exact hs.held.only
    · rw [hsl]
      exact hs.held.slot
    · rw [hv]
      exact hs.held.view
  · intro l hl
    obtain rfl := hs.held.only l hl
    rw [hs.held.body_eq, hs.held.slot]

/-- Purge an entry. When the purge succeeds, all fills of the key begun before it was
called are fenced. -/
theorem wp_purge
    (key : CacheKey) (hi : s.Idle t) :
  (discipline S Restart).WP t (purge key)
    (fun r s' => s.Kept S t (Scope.entry key.hash) s' ∧ s'.Inv S ∧ s'.Idle t ∧
      Invalidated (s.FillsOf key) (fun _ => True) r s') s
  := by
  apply wp_invalidation key hi
  intro o s₀ s₁ hT hm hI₁ hi₁ hc
  apply WP.seq (wp_bumpIdle hI₁ hi₁ hT hm hc)
  rintro _ s₂ ⟨hk₂, hI₂, hi₂, hB⟩
  apply WP.mono
  · apply wp_invalidateInside (B := s₀.FillsOf key) (P := fun _ => True) hi₂
    intro s₃ v hE hs₃ hT₃
    exact wp_purgeLocked hs₃ hT₃ (hB.mono hE.mono)
  · rintro r s' ⟨hk, hI', hi', hr⟩
    exact ⟨hk₂.trans hk, hI', hi', hr⟩

theorem wp_cleanupOrphanedBody
    (operation : String) (hs : Inside S t h s₀ v s) (hT : s.Tidy v) (hi : v.info = none) :
  (discipline S Restart).WP t (cleanupOrphanedBodyAfterMetadataMiss h operation)
    (fun r s' => ∃ v', Inside S t h s₀ v' s' ∧ s'.Tidy v' ∧
      (r = .ok () → v'.body = none ∧ v'.info = none)) s
  := by
  apply WP.seq (wp_stat (.body h) hs)
  rintro _ s₁ ⟨hs₁, hm₁, -⟩
  have hT₁ := hT.mono hs.inv hs.held hm₁
  apply WP.seq (wp_remove hs₁ (p := .body h) rfl)
  rintro r s₂ ⟨hm₂, hr⟩
  have hT₂ := hT₁.mono hs₁.inv hs₁.held hm₂
  cases hr with
  | removed hs₂ => exact ⟨_, hs₂, Tidy.of_empty rfl hi, fun _ => ⟨rfl, hi⟩⟩
  | missing hn hs₂ => exact ⟨v, hs₂, hT₂, fun _ => ⟨hn, hi⟩⟩
  | @failed e he hf hs₂ =>
      cases e with
      | notFound => exact absurd rfl he
      | alreadyExists | other =>
          refine ⟨v, hs₂, hT₂, ?_⟩
          intro hr
          cases hr

/-- Purge an entry under its lock, if it still has the expected fill id. -/
theorem wp_purgeIfUnchangedLocked
    {key : CacheKey} {o : Option ℕ} {expected : FillId} {s₁ : DiskCache E}
    (hs : Inside S t key.hash s₁ v s) (hT : s.Tidy v) (htr : s₀.Tracks key o) (hm₀ : s₀.Mono S s)
    (hc : ∀ e, o = some e → (s₁.entries e).commitLock = some t) :
  (discipline S Restart).WP t (purgeIfUnchangedLocked key.hash o expected)
    (fun r s' => Invalidated (s₀.FillsOf key) (· = true) r s' ∧
      ∃ v', Inside S t key.hash s₁ v' s' ∧ s'.Tidy v') s
  := by
  apply WP.seq (wp_readMeta hs)
  rintro r s₂ ⟨hs₂, hm₂, hr⟩
  have hT₂ := hT.mono hs.inv hs.held hm₂
  cases hr with
  | missing hn =>
      apply WP.seq (wp_cleanupOrphanedBody _ hs₂ hT₂ hn)
      rintro r s₃ ⟨v₃, hs₃, hT₃, hr⟩
      cases r with
      | error e => exact ⟨trivial, v₃, hs₃, hT₃⟩
      | ok u =>
          obtain ⟨hb, hi⟩ := hr rfl
          apply WP.seq (wp_clearPoison hs₃ hb hi)
          rintro _ s₄ ⟨hs₄, -⟩
          refine ⟨?_, _, hs₄, Tidy.of_empty hb hi⟩
          intro hP
          cases hP
  | @failed e he hf =>
      cases e with
      | notFound => exact absurd rfl he
      | alreadyExists | other => exact ⟨trivial, v, hs₂, hT₂⟩
  | corrupt hd hn =>
      simp only [hd]
      exact ⟨trivial, v, hs₂, hT₂⟩
  | @parsed _ g info hd htells =>
      simp only [hd]
      split
      · refine ⟨?_, v, hs₂, hT₂⟩
        intro hP
        cases hP
      obtain ⟨j, hj, -, -⟩ := htells
      have hc₂ : ∀ e, o = some e → (s₂.entries e).commitLock = some t :=
        fun e he => hs₂.kept.commitLock e (hc e he)
      apply WP.seq (wp_bumpInside hs₂ htr (hm₀.trans hm₂) hc₂)
      rintro _ s₃ ⟨hs₃, hm₃, hB⟩
      have hT₃ := hT₂.mono hs₂.inv hs₂.held hm₃
      apply WP.seq (wp_check (.body key.hash) _ hs₃)
      rintro r s₄ ⟨hs₄, hm₄, hr₄⟩
      have hT₄ := hT₃.mono hs₃.inv hs₃.held hm₄
      match r, hr₄ with
      | .error e, _ => exact ⟨trivial, v, hs₄, hT₄⟩
      | .ok bodyExists, hb =>
      have hb' : bodyExists = v.body.isSome := by
        rw [← hs₄.held.body_eq]
        exact hb
      have hi' : true = v.info.isSome := by
        rw [hj]
        rfl
      apply WP.mono (wp_removeEntry hs₄ (hB.mono hm₄) hb' hi')
      rintro r s₅ ⟨hF, hv⟩
      refine ⟨?_, hv⟩
      cases r with
      | ok b => exact fun _ => hF b rfl
      | error e => trivial

/-- Purge an entry if it still has the expected fill id. -/
theorem wp_purgeIfUnchanged
    (key : CacheKey) (expected : FillId) (hi : s.Idle t) :
  (discipline S Restart).WP t (purgeIfUnchanged key expected)
    (fun r s' => s.Kept S t (Scope.entry key.hash) s' ∧ s'.Inv S ∧ s'.Idle t ∧
      Invalidated (s.FillsOf key) (· = true) r s') s
  := by
  apply wp_invalidation key hi
  intro o s₀ s₁ hT hm hI₁ hi₁ hc
  apply wp_invalidateInside hi₁
  intro s₂ v hE hs₂ hT₂
  exact wp_purgeIfUnchangedLocked hs₂ hT₂ hT (hm.trans hE.mono)
    fun e he => hE.commitLock (hc e he)

/-! ### Poisoning -/

/-- Write the poison marker, under the lock of the entry. -/
theorem wp_writePoisonMarker
    (hs : Inside S t h s₀ v s) :
  (discipline S Restart).WP t (writePoisonMarker h)
    (fun _ s' => Inside S t h s₀ v s' ∧ s.Mono S s') s
  := by
  apply WP.seq (wp_fsEffect (X := Scope.none))
  rintro r s₁ ⟨hR, hI₁, -⟩
  have hs₁ := hs.rely hI₁ hR
  match r with
  | .error e => exact ⟨hs₁, hR.mono⟩
  | .ok () =>
  apply WP.seq (wp_writeFile (X := Scope.name (.poisoned h)) (p := .poisoned h) (.raw []) trivial rfl)
  rintro r s₂ ⟨hk, hI₂, -⟩
  have hs₂ := hs₁.side hI₂ hk id (Or.inr (Or.inl rfl))
  have hm := hR.mono.trans hk.mono
  match r with
  | .ok () => exact ⟨hs₂, hm⟩
  | .error .alreadyExists => exact ⟨hs₂, hm⟩
  | .error .notFound => exact ⟨hs₂, hm⟩
  | .error .other => exact ⟨hs₂, hm⟩

/-- Poison an entry under its lock: the barred fills are fenced. -/
theorem wp_poisonLocked
    (hs : Inside S t h s₀ v s) (hT : s.Tidy v) (hB : s.BarredAll h B) :
  (discipline S Restart).WP t (do markPoisonedInMemory h; writePoisonMarker h)
    (fun _ s' => s'.FencedAll B ∧ ∃ v', Inside S t h s₀ v' s' ∧ s'.Tidy v') s
  := by
  apply WP.seq (wp_markPoisoned hs)
  rintro _ s₁ ⟨hs₁, hm₁⟩
  have hT₁ : s₁.Tidy { v with poisoned := true } := hT.mono hs.inv hs.held hm₁
  apply WP.mono (wp_writePoisonMarker hs₁)
  rintro _ s₂ ⟨hs₂, hm₂⟩
  refine ⟨((hB.mono hm₁).mono hm₂).fenced_of_poisoned ?_, _, hs₂,
    hT₁.mono hs₁.inv hs₁.held hm₂⟩
  rw [hs₂.held.slot]

/-- Poison an entry. When this succeeds, all fills of the key begun before it was called
are fenced. -/
theorem wp_poison
    (key : CacheKey) (hi : s.Idle t) :
  (discipline S Restart).WP t (poison key)
    (fun r s' => s.Kept S t (Scope.entry key.hash) s' ∧ s'.Inv S ∧ s'.Idle t ∧
      Invalidated (s.FillsOf key) (fun _ => True) r s') s
  := by
  apply wp_invalidation key hi
  intro o s₀ s₁ hT hm hI₁ hi₁ hc
  apply WP.seq (wp_bumpIdle hI₁ hi₁ hT hm hc)
  rintro _ s₂ ⟨hk₂, hI₂, hi₂, hB⟩
  apply WP.mono
  · apply wp_invalidateInside (B := s₀.FillsOf key) (P := fun _ => True) hi₂
    intro s₃ v hE hs₃ hT₃
    apply WP.mono (wp_poisonLocked hs₃ hT₃ (hB.mono hE.mono))
    rintro r s₄ ⟨hF, hv⟩
    refine ⟨?_, hv⟩
    cases r with
    | ok a => exact fun _ => hF
    | error e => trivial
  · rintro r s' ⟨hk, hI', hi', hr⟩
    exact ⟨hk₂.trans hk, hI', hi', hr⟩

/-- Poison an entry under its lock, if it still has the expected fill id. -/
theorem wp_poisonIfUnchangedLocked
    {key : CacheKey} {o : Option ℕ} {expected : FillId} {s₁ : DiskCache E}
    (hs : Inside S t key.hash s₁ v s) (hT : s.Tidy v) (htr : s₀.Tracks key o) (hm₀ : s₀.Mono S s)
    (hc : ∀ e, o = some e → (s₁.entries e).commitLock = some t) :
  (discipline S Restart).WP t (poisonIfUnchangedLocked key.hash o expected)
    (fun r s' => Invalidated (s₀.FillsOf key) (· = true) r s' ∧
      ∃ v', Inside S t key.hash s₁ v' s' ∧ s'.Tidy v') s
  := by
  apply WP.seq (wp_readMeta hs)
  rintro r s₂ ⟨hs₂, hm₂, hr⟩
  have hT₂ := hT.mono hs.inv hs.held hm₂
  cases hr with
  | missing hn =>
      refine ⟨?_, v, hs₂, hT₂⟩
      intro hP
      cases hP
  | @failed e he hf =>
      cases e with
      | notFound => exact absurd rfl he
      | alreadyExists | other => exact ⟨trivial, v, hs₂, hT₂⟩
  | corrupt hd hn =>
      simp only [hd]
      exact ⟨trivial, v, hs₂, hT₂⟩
  | @parsed _ g info hd htells =>
      simp only [hd]
      split
      · refine ⟨?_, v, hs₂, hT₂⟩
        intro hP
        cases hP
      apply WP.seq (wp_bumpInside hs₂ htr (hm₀.trans hm₂)
        fun e he => hs₂.kept.commitLock e (hc e he))
      rintro _ s₃ ⟨hs₃, hm₃, hB⟩
      have hT₃ := hT₂.mono hs₂.inv hs₂.held hm₃
      rw [← Async.bind_assoc]
      apply WP.seq (wp_poisonLocked hs₃ hT₃ hB)
      rintro r s₄ ⟨hF, hv⟩
      cases r with
      | ok a => exact ⟨fun _ => hF, hv⟩
      | error e => exact ⟨trivial, hv⟩

/-- Poison an entry if it still has the expected fill id. -/
theorem wp_poisonIfUnchanged
    (key : CacheKey) (expected : FillId) (hi : s.Idle t) :
  (discipline S Restart).WP t (poisonIfUnchanged key expected)
    (fun r s' => s.Kept S t (Scope.entry key.hash) s' ∧ s'.Inv S ∧ s'.Idle t ∧
      Invalidated (s.FillsOf key) (· = true) r s') s
  := by
  apply wp_invalidation key hi
  intro o s₀ s₁ hT hm hI₁ hi₁ hc
  apply wp_invalidateInside hi₁
  intro s₂ v hE hs₂ hT₂
  exact wp_poisonIfUnchangedLocked hs₂ hT₂ hT (hm.trans hE.mono)
    fun e he => hE.commitLock (hc e he)

end DiskCache

end TinyS3Proxy
