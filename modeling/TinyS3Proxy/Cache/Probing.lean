import TinyS3Proxy.Cache.Holding

/-!
# Probes

What a probe of the cache returns: an entry that is there, that is not poisoned, and
whose body and metadata are both in place. The files that a probe removes on its way are
left over from before the restart.
-/

namespace TinyS3Proxy

open Coop Coop.Discipline

/-- The scope of the code that works on the entry with the hash `h`. -/
def DiskCache.Scope.entry (h : String) : DiskCache.Scope where
  names p := p.OfEntry h ∨ p = .poisoned h ∨ ∃ n, p = .metaTmp h n
  hashes l := l = h
  records _ := True
  fills _ := False

namespace DiskCache

variable {E : Type} {S : Setting E} {Restart : DiskCache E → DiskCache E → Prop}
  {t : ℕ} {s s' : DiskCache E} {h : String} {v : View}

/-- The metadata file of the entry was written by the fill `g` and says `m`. -/
def Says (s : DiskCache E) (v : View) (g : ℕ) (m : CacheMeta) : Prop :=
  ∃ j, v.info = some j ∧ j < s.nextIno ∧ s.data j = .json g m

theorem Says.mono
    {g : ℕ} {m : CacheMeta} (hv : s.Says v g m) (hm : s.Mono S s') :
  s'.Says v g m
  := by
  obtain ⟨j, hj, hlt, hd⟩ := hv
  exact ⟨j, hj, hlt.trans_le hm.ino, (hm.data j hlt).trans hd⟩

/-- The result of reading the metadata file of an entry under its lock. -/
inductive ReadMeta (s : DiskCache E) (v : View) : Except IoError File → Prop
  | missing (h : v.info = none) : ReadMeta s v (.error .notFound)
  | corrupt {d : File} (hd : d.parse = none)
      (h : ∀ j f m, v.info = some j → s.data j ≠ .json f m) : ReadMeta s v (.ok d)
  | parsed {d : File} {g : ℕ} {m : CacheMeta} (hd : d.parse = some (g, m)) (h : s.Says v g m) :
      ReadMeta s v (.ok d)
  | failed {e : IoError} (he : e ≠ .notFound) (h : s.faulted = true) : ReadMeta s v (.error e)

theorem readMeta_of_result
    {sl : View} {r : Except IoError File} (hI : s.Inv S) (hH : s.Held t h sl v)
    (hr : ReadResult (.metaJson h) r s) :
  ReadMeta s v r
  := by
  match r, hr with
  | .error .notFound, hr => exact .missing (hH.info_eq.symm.trans hr)
  | .error .alreadyExists, hr => exact .failed (by simp) hr
  | .error .other, hr => exact .failed (by simp) hr
  | .ok d, ⟨j, hj, hd⟩ =>
      have hv : v.info = some j := hH.info_eq.symm.trans hj
      cases d with
      | json g m => exact .parsed rfl ⟨j, hv, hI.linked _ j hj, hd⟩
      | body | counter | raw =>
          apply ReadMeta.corrupt rfl
          intro j' f m hj' hd'
          obtain rfl := Option.some.inj (hv.symm.trans hj')
          rw [hd] at hd'
          cases hd'

/-! ### Inside the lock of an entry -/

/-- The task `t` works under the lock of the entry with the hash `h`, which it acquired in
the state `s₀`. The entry has the files in `v`, and was last left with them. -/
structure Inside (S : Setting E) (t : ℕ) (h : String) (s₀ : DiskCache E) (v : View)
    (s : DiskCache E) : Prop where
  kept : s₀.Kept S t (Scope.entry h) s
  inv : s.Inv S
  held : s.Held t h v v

variable {s₀ : DiskCache E}

theorem Inside.rely
    (hs : Inside S t h s₀ v s) (hI : s'.Inv S) (hR : s.Rely S t s') :
  Inside S t h s₀ v s'
  := ⟨hs.kept.trans (Rely.kept hR), hI, hs.held.rely hR⟩

/-- The scope of code that gives or takes away the name `p`. -/
def Scope.name (p : Path) : Scope := { Scope.none with names := fun q => q = p }

/-- Giving or taking away a name that goes with the entry, but is not one of its files. -/
theorem Inside.side
    {p : Path} (hs : Inside S t h s₀ v s) (hI : s'.Inv S) (hk : s.Kept S t (Scope.name p) s')
    (hp : ¬ p.OfEntry h) (hn : (Scope.entry h).names p) :
  Inside S t h s₀ v s'
  := by
  refine ⟨hs.kept.trans (hk.weaken ?_ (fun _ => False.elim) (fun _ => False.elim)
    (fun _ => False.elim)), hI, hs.held.kept hk ?_ ?_ id⟩
  · rintro q rfl
    exact hn
  · rintro rfl
    exact hp rfl
  · rintro rfl
    exact hp rfl

/-- Reading the metadata file. -/
theorem wp_readMeta
    (hs : Inside S t h s₀ v s) :
  (discipline S Restart).WP t (readFile (.metaJson h))
    (fun r s' => Inside S t h s₀ v s' ∧ s.Mono S s' ∧ ReadMeta s' v r) s
  := by
  apply WP.mono (wp_readFile (X := Scope.none) (.metaJson h))
  rintro r s' ⟨hR, hI, hr⟩
  have hs' := hs.rely hI hR
  exact ⟨hs', hR.mono, readMeta_of_result hI hs'.held hr⟩

/-- Asking for the attributes of a file, for the size that it has. -/
theorem wp_stat
    (p : Path) (hs : Inside S t h s₀ v s) :
  (discipline S Restart).WP t (fileMetadata p)
    (fun r s' => Inside S t h s₀ v s' ∧ s.Mono S s' ∧ FoundResult p r s') s
  := by
  apply WP.mono (wp_fileMetadata (X := Scope.none) p)
  rintro r s' ⟨hR, hI, hr⟩
  exact ⟨hs.rely hI hR, hR.mono, hr⟩

/-- Checking for a file. -/
theorem wp_check
    (p : Path) (operation : String) (hs : Inside S t h s₀ v s) :
  (discipline S Restart).WP t (checkExists p operation)
    (fun r s' => Inside S t h s₀ v s' ∧ s.Mono S s' ∧ CheckResult p r s') s
  := by
  apply WP.mono (wp_checkExists (X := Scope.none) p operation)
  rintro r s' ⟨hR, hI, hr⟩
  exact ⟨hs.rely hI hR, hR.mono, hr⟩

/-- A probe removes a file, of an entry that is left over. -/
theorem wp_clean
    {p : Path} (hs : Inside S t h s₀ v s) (hL : s.Leftover v) (hp : p.OfEntry h) :
  (discipline S Restart).WP t (cleanFile p)
    (fun _ s' => ∃ v', Inside S t h s₀ v' s' ∧ s'.Leftover v') s
  := by
  apply WP.mono (wp_cleanFile (X := Scope.entry h) hs.inv hs.held hL hp (Or.inl hp) rfl)
  rintro r s' ⟨hk, hI, v', hH, hL'⟩
  exact ⟨v', ⟨hs.kept.trans hk, hI, hH⟩, hL'⟩

/-- Removing a file of the entry. -/
theorem wp_remove
    {p : Path} (hs : Inside S t h s₀ v s) (hp : p.OfEntry h) :
  (discipline S Restart).WP t (removeFile p)
    (fun r s' => s.Mono S s' ∧ RemoveResult (Inside S t h s₀) v p s' r) s
  := by
  apply WP.mono (wp_removeHeld (X := Scope.entry h) hs.held hp (Or.inl hp) rfl)
  rintro r s' ⟨hk, hI, hr⟩
  have hk' := hs.kept.trans hk
  refine ⟨hk.mono, ?_⟩
  cases hr with
  | removed hH => exact .removed ⟨hk', hI, hH⟩
  | missing hv hH => exact .missing hv ⟨hk', hI, hH⟩
  | failed he hf hH => exact .failed he hf ⟨hk', hI, hH⟩

/-- Removing the poison marker of the entry. -/
theorem wp_unmark
    (hs : Inside S t h s₀ v s) :
  (discipline S Restart).WP t (discard [.poisoned h])
    (fun _ s' => Inside S t h s₀ v s' ∧ s.Mono S s') s
  := by
  apply WP.mono (wp_discard (X := Scope.name (.poisoned h)) hs.inv (by simp [Mine])
    (by simp [Scope.name]))
  rintro _ s' ⟨hk, hI⟩
  exact ⟨hs.side hI hk id (Or.inr (Or.inl rfl)), hk.mono⟩

/-- Code under the lock of an entry finds a tidy entry, and has to leave one. -/
theorem wp_inside
    {α : Type} {q : Async (DiskCache E) α} {Q : α → DiskCache E → Prop} (hi : s.Idle t)
    (hq : ∀ s₁ v, Entered S t h s s₁ → Inside S t h s₁ v s₁ → s₁.Tidy v →
      (discipline S Restart).WP t q
        (fun a s₂ => Q a (s₂.unlock h) ∧ ∃ v', Inside S t h s₁ v' s₂ ∧ s₂.Tidy v') s₁) :
  (discipline S Restart).WP t (withMetaLock h q)
    (fun a s' => s.Kept S t (Scope.entry h) s' ∧ s'.Inv S ∧ s'.Idle t ∧ Q a s') s
  := by
  apply wp_withMetaLock hi
  intro s₁ v hE hI hH hT
  apply WP.mono (hq s₁ v hE ⟨Kept.refl S t _ s₁, hI, hH⟩ hT)
  rintro a s₂ ⟨hQ, v', hs, hT'⟩
  exact ⟨hs.kept, hs.inv, hQ, v', v', hs.held, hT'⟩

/-! ### Lookups -/

/-- The entry is in the cache: it is not poisoned, and its metadata and its body are in
place. -/
structure Hit (s : DiskCache E) (key : CacheKey) (pinBody : Bool) (v : View) (entry : CacheEntry) :
    Prop where
  fresh : v.poisoned = false
  info : ∃ g, s.Says v g entry.info
  bucket : entry.info.bucket = key.bucket
  objectKey : entry.info.key = key.objectKey
  body : ∃ i, v.body = some i ∧ entry.bodyFile = if pinBody then some i else none

/-- Removing the body of an entry that has no metadata. -/
theorem wp_cleanOrphanedBody
    (hs : Inside S t h s₀ v s) (hL : s.Leftover v) :
  (discipline S Restart).WP t (cleanOrphanedBody h)
    (fun _ s' => ∃ v', Inside S t h s₀ v' s' ∧ s'.Leftover v') s
  := by
  apply WP.seq (wp_stat (.body h) hs)
  rintro _ s₁ ⟨hs₁, hm, -⟩
  apply WP.seq (wp_clean hs₁ (hL.mono hs.inv hs.held hm) (p := .body h) rfl)
  intro _ s₂ hs₂
  exact hs₂

/-- A hash that is found not to be poisoned is not poisoned in memory. -/
theorem wp_checkPoisoned
    (h : String) (operation : String) :
  (discipline S Restart).WP t (checkPoisoned h operation)
    (fun r s' => s.Rely S t s' ∧ s'.Inv S ∧ (r = .ok false → s.poisonedHashes h = false)) s
  := by
  intro hI
  refine ⟨(Moves.refl hI).guar, ?_⟩
  change WP _ t (if s.poisonedHashes h = true then _ else _) _ _
  split
  · refine ⟨Rely.refl S t s, hI, ?_⟩
    intro hr
    cases hr
  · next hn =>
    apply WP.mono (wp_checkExists (X := Scope.none) (.poisoned h) operation)
    rintro r s' ⟨hR, hI', -⟩
    exact ⟨hR, hI', fun _ => by simpa using hn⟩

/-- What looking for the body of an entry tells. -/
def ProbeResult (pinBody : Bool) (v : View) (r : Except CacheError (Option (Option ℕ))) : Prop :=
  match r with
  | .ok none => v.body = none
  | .ok (some b) => ∃ i, v.body = some i ∧ b = if pinBody then some i else none
  | .error _ => True

theorem wp_probeBody
    (pinBody : Bool) (hs : Inside S t h s₀ v s) :
  (discipline S Restart).WP t (probeBody h pinBody)
    (fun r s' => Inside S t h s₀ v s' ∧ s.Mono S s' ∧ ProbeResult pinBody v r) s
  := by
  cases pinBody with
  | true =>
      apply WP.seq (wp_openFile (X := Scope.none) (.body h))
      rintro r s' ⟨hR, hI, hr⟩
      have hs' := hs.rely hI hR
      match r, hr with
      | .ok i, hr => exact ⟨hs', hR.mono, i, hs'.held.body_eq.symm.trans hr, rfl⟩
      | .error .notFound, hr => exact ⟨hs', hR.mono, hs'.held.body_eq.symm.trans hr⟩
      | .error .alreadyExists, hr => exact ⟨hs', hR.mono, trivial⟩
      | .error .other, hr => exact ⟨hs', hR.mono, trivial⟩
  | false =>
      apply WP.seq (wp_tryExists (X := Scope.none) (.body h))
      rintro r s' ⟨hR, hI, hr⟩
      have hs' := hs.rely hI hR
      match r, hr with
      | .ok true, hr =>
          obtain ⟨i, hi⟩ := Option.isSome_iff_exists.mp hr.symm
          exact ⟨hs', hR.mono, i, hs'.held.body_eq.symm.trans hi, rfl⟩
      | .ok false, hr =>
          refine ⟨hs', hR.mono, ?_⟩
          rw [ProbeResult, ← hs'.held.body_eq]
          simpa using hr.symm
      | .error .alreadyExists, hr => exact ⟨hs', hR.mono, trivial⟩
      | .error .other, hr => exact ⟨hs', hR.mono, trivial⟩

/-- What the result of a probe tells. -/
def LookupResult (key : CacheKey) (pinBody : Bool) (r : Except CacheError (Option CacheEntry))
    (v : View) (s : DiskCache E) : Prop :=
  match r with
  | .ok (some entry) => s.Hit key pinBody v entry
  | .ok none => True
  | .error _ => True

theorem wp_lookupLocked
    (key : CacheKey) (pinBody : Bool) (hs : Inside S t key.hash s₀ v s) (hT : s.Tidy v) :
  (discipline S Restart).WP t (lookupLocked key pinBody)
    (fun r s' => ∃ v', Inside S t key.hash s₀ v' s' ∧ s'.Tidy v' ∧
      LookupResult key pinBody r v' s') s
  := by
  apply WP.seq (wp_checkPoisoned key.hash _)
  rintro r s₁ ⟨hR, hI₁, hp⟩
  have hs₁ := hs.rely hI₁ hR
  have hT₁ := hT.mono hs.inv hs.held hR.mono
  match r, hp with
  | .error e, _ => exact ⟨v, hs₁, hT₁, trivial⟩
  | .ok true, _ => exact ⟨v, hs₁, hT₁, trivial⟩
  | .ok false, hp =>
  have hfresh : v.poisoned = false := by
    rw [← hp rfl, ← hs.held.view]
    rfl
  apply WP.seq (wp_readMeta hs₁)
  rintro r s₂ ⟨hs₂, hm₂, hr⟩
  have hT₂ := hT₁.mono hs₁.inv hs₁.held hm₂
  cases hr with
  | missing hn =>
      have hL : s₂.Leftover v := by
        apply hT₂.leftover
        intro i j f m _ hj
        rw [hn] at hj
        cases hj
      apply WP.seq (wp_cleanOrphanedBody hs₂ hL)
      rintro _ s₃ ⟨v', hs₃, hL₃⟩
      exact ⟨v', hs₃, hL₃.tidy, trivial⟩
  | failed he hf =>
      next e =>
      cases e with
      | notFound => exact absurd rfl he
      | alreadyExists | other => exact ⟨v, hs₂, hT₂, trivial⟩
  | corrupt hd hn =>
      have hL : s₂.Leftover v := hT₂.leftover fun i j f m _ hj => hn j f m hj
      simp only [hd]
      apply WP.seq (wp_stat (.body key.hash) hs₂)
      rintro _ s₃ ⟨hs₃, hm₃, -⟩
      apply WP.seq (wp_clean hs₃ (hL.mono hs₂.inv hs₂.held hm₃) (p := .metaJson key.hash) rfl)
      rintro _ s₄ ⟨v₄, hs₄, hL₄⟩
      apply WP.seq (wp_clean hs₄ hL₄ (p := .body key.hash) rfl)
      rintro _ s₅ ⟨v₅, hs₅, hL₅⟩
      exact ⟨v₅, hs₅, hL₅.tidy, trivial⟩
  | @parsed _ g info hd htells =>
      simp only [hd]
      split
      · exact ⟨v, hs₂, hT₂, trivial⟩
      next hkey =>
      obtain ⟨hbucket, hobject⟩ : info.bucket = key.bucket ∧ info.key = key.objectKey := by
        simpa using hkey
      apply WP.seq (wp_probeBody pinBody hs₂)
      rintro r s₃ ⟨hs₃, hm₃, hr⟩
      have hT₃ := hT₂.mono hs₂.inv hs₂.held hm₃
      match r, hr with
      | .error e, _ => exact ⟨v, hs₃, hT₃, trivial⟩
      | .ok none, hb =>
          have hL : s₃.Leftover v := by
            apply hT₃.leftover
            intro i j f m hi
            rw [show v.body = none from hb] at hi
            cases hi
          apply WP.seq (wp_clean hs₃ hL (p := .metaJson key.hash) rfl)
          rintro _ s₄ ⟨v₄, hs₄, hL₄⟩
          exact ⟨v₄, hs₄, hL₄.tidy, trivial⟩
      | .ok (some b), hb =>
          exact ⟨v, hs₃, hT₃, hfresh, ⟨g, htells.mono hm₃⟩, hbucket, hobject, hb⟩

theorem LookupResult.unlock
    {key : CacheKey} {pinBody : Bool} {r : Except CacheError (Option CacheEntry)} {sl : View}
    (hr : LookupResult key pinBody r v s) (hH : s.Held t key.hash sl v) :
  LookupResult key pinBody r ((s.unlock key.hash).slot key.hash) (s.unlock key.hash)
  := by
  rw [unlock_slot_self, hH.view]
  match r, hr with
  | .ok (some _), ⟨hf, hi, hb, hk, hbody⟩ => exact ⟨hf, hi, hb, hk, hbody⟩
  | .ok none, _ => trivial
  | .error _, _ => trivial

/-- A probe returns an entry only when it is in the cache. -/
theorem wp_lookupInner
    (key : CacheKey) (pinBody : Bool) (hi : s.Idle t) :
  (discipline S Restart).WP t (lookupInner key pinBody)
    (fun r s' => s.Kept S t (Scope.entry key.hash) s' ∧ s'.Inv S ∧ s'.Idle t ∧
      LookupResult key pinBody r (s'.slot key.hash) s') s
  := by
  apply WP.seq (wp_checkPoisoned key.hash _)
  rintro r s₁ ⟨hR, hI₁, -⟩
  have hi₁ : s₁.Idle t := fun l hl => hi l ((hR.metaLock l).mp hl)
  match r with
  | .error e => exact ⟨Rely.kept hR, hI₁, hi₁, trivial⟩
  | .ok true => exact ⟨Rely.kept hR, hI₁, hi₁, trivial⟩
  | .ok false =>
      apply WP.mono
      · apply wp_inside hi₁
          (Q := fun r s' => LookupResult key pinBody r (s'.slot key.hash) s')
        intro s₂ v _ hs₂ hT₂
        apply WP.mono (wp_lookupLocked key pinBody hs₂ hT₂)
        rintro r s₃ ⟨v', hs₃, hT₃, hr⟩
        exact ⟨hr.unlock hs₃.held, v', hs₃, hT₃⟩
      · rintro r s' ⟨hk, hI', hi', hr⟩
        exact ⟨(Rely.kept hR).trans hk, hI', hi', hr⟩

end DiskCache

end TinyS3Proxy
