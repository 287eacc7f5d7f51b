import TinyS3Proxy.Cache.Rules

/-!
# Rules for holding locks

What a task may do to the files of an entry while it holds the metadata lock of the
entry, and the rules for code that runs under a lock.
-/

namespace TinyS3Proxy

open Coop Coop.Discipline

namespace View

/-- The file of the entry that has the name `p`. -/
def get (v : View) : Path → Option ℕ
  | .body _ => v.body
  | .metaJson _ => v.info
  | _ => none

/-- The entry with another file under the name `p`. -/
def set (v : View) (p : Path) (i : Option ℕ) : View :=
  match p with
  | .body _ => { v with body := i }
  | .metaJson _ => { v with info := i }
  | _ => v

theorem set_get
    {v : View} {p : Path} (hv : v.get p = none) :
  v.set p none = v
  := by
  cases p with
  | body => exact View.ext hv.symm rfl rfl
  | metaJson => exact View.ext rfl hv.symm rfl
  | poisoned | fillIdCounter | metaTmp | tmp => rfl

end View

/-- The name `p` is that of the body or the metadata of the entry with the hash `h`. -/
def Path.OfEntry (h : String) : Path → Prop
  | .body l => l = h
  | .metaJson l => l = h
  | _ => False

namespace DiskCache

variable {E : Type} {S : Setting E} {Restart : DiskCache E → DiskCache E → Prop}
  {t : ℕ} {s s' : DiskCache E} {X : Scope} {h : String} {p : Path} {v sl : View}

/-! ### Tidy entries -/

/-- The entry is complete or left over from before the restart, unless some call has
failed or some task has been dropped. -/
def Tidy (s : DiskCache E) (v : View) : Prop :=
  s.faulted = false → s.dropped = false → s.Quiet v

/-- All that the entry has is left over from before the restart, unless some call has
failed or some task has been dropped. -/
def Leftover (s : DiskCache E) (v : View) : Prop :=
  s.faulted = false → s.dropped = false →
    (∀ i, v.body = some i → s.Old i) ∧ ∀ j, v.info = some j → s.Old j

theorem Leftover.tidy
    (hv : s.Leftover v) :
  s.Tidy v
  := fun hf hd => Or.inr (hv hf hd)

theorem Leftover.set_none
    (hv : s.Leftover v) (p : Path) :
  s.Leftover (v.set p none)
  := by
  intro hf hd
  obtain ⟨hb, hi⟩ := hv hf hd
  cases p with
  | body =>
      refine ⟨?_, hi⟩
      intro i hn
      cases hn
  | metaJson =>
      refine ⟨hb, ?_⟩
      intro j hn
      cases hn
  | poisoned | fillIdCounter | metaTmp | tmp => exact ⟨hb, hi⟩

theorem Leftover.of_faulted
    (hf : s.faulted = true) :
  s.Leftover v
  := by
  intro hf'
  rw [hf] at hf'
  cases hf'

/-- An entry that is tidy but not complete is left over. -/
theorem Tidy.leftover
    (hv : s.Tidy v)
    (hn : ∀ i j f m, v.body = some i → v.info = some j → s.data j ≠ .json f m) :
  s.Leftover v
  := by
  intro hf hd
  obtain ⟨i, j, f, b, m, hb, hi, -, hj⟩ | hq := hv hf hd
  · exact absurd hj (hn i j f m hb hi)
  · exact hq

theorem unfaulted_of_mono
    (hm : s.Mono S s') (hf : s'.faulted = false) :
  s.faulted = false
  := by
  by_contra hf'
  rw [hm.faulted (by simpa using hf')] at hf
  cases hf

theorem undropped_of_mono
    (hm : s.Mono S s') (hd : s'.dropped = false) :
  s.dropped = false
  := by
  by_contra hd'
  rw [hm.dropped (by simpa using hd')] at hd
  cases hd

theorem Held.body_eq
    (hH : s.Held t h sl v) :
  s.files (.body h) = v.body
  := congrArg View.body hH.view

theorem Held.info_eq
    (hH : s.Held t h sl v) :
  s.files (.metaJson h) = v.info
  := congrArg View.info hH.view

/-- The files of an entry that a task holds keep their contents. -/
theorem Held.data
    (hH : s.Held t h sl v) (hI : s.Inv S) (hm : s.Mono S s') :
  (∀ i, v.body = some i → s'.data i = s.data i) ∧ ∀ j, v.info = some j → s'.data j = s.data j
  := by
  rw [← hH.body_eq, ← hH.info_eq]
  exact ⟨fun i hi => hm.data i (hI.linked _ i hi), fun j hj => hm.data j (hI.linked _ j hj)⟩

theorem Leftover.mono
    (hv : s.Leftover v) (hI : s.Inv S) (hH : s.Held t h sl v) (hm : s.Mono S s') :
  s'.Leftover v
  := by
  intro hf hd
  obtain ⟨hb, hi⟩ := hv (unfaulted_of_mono hm hf) (undropped_of_mono hm hd)
  obtain ⟨hdb, hdi⟩ := hH.data hI hm
  constructor
  · intro i hvb
    exact (hb i hvb).congr hm.bootFill (hdb i hvb)
  · intro j hvi
    exact (hi j hvi).congr hm.bootFill (hdi j hvi)

/-- A tidy entry stays tidy as long as it has the same files. -/
theorem Tidy.mono
    (hv : s.Tidy v) (hI : s.Inv S) (hH : s.Held t h sl v) (hm : s.Mono S s') :
  s'.Tidy v
  := by
  intro hf hd
  obtain ⟨hdb, hdi⟩ := hH.data hI hm
  exact (hv (unfaulted_of_mono hm hf) (undropped_of_mono hm hd)).congr hm.bootFill hdb hdi

/-! ### Removing the files of an entry -/

theorem Paired.of_body_none
    (hb : v.body = none) :
  s.Paired v
  := by
  intro i j f b g m hi
  rw [hb] at hi
  cases hi

theorem Paired.of_info_none
    (hi : v.info = none) :
  s.Paired v
  := by
  intro i j f b g m _ hj
  rw [hi] at hj
  cases hj

/-- Removing a file of an entry takes it from the entry, as it is and as it was left. -/
theorem unlink_eq
    (hp : p.OfEntry h) :
  s.unlink p = (s.link p none).setSlot h ((s.slot h).set p none)
  := by
  cases p with
  | body l =>
      obtain rfl : l = h := hp
      rfl
  | metaJson l =>
      obtain rfl : l = h := hp
      rfl
  | poisoned | fillIdCounter | metaTmp | tmp => cases hp

theorem moves_unlink
    (hI : s.Inv S) (hl : s.metaLocks h = some t) (hp : p.OfEntry h)
    (hb : p ≠ .body h → s.files (.body h) = (s.slot h).body) :
  Moves S t s (s.unlink p)
  := by
  rw [unlink_eq hp]
  cases p with
  | body l =>
      obtain rfl : l = h := hp
      have hM : Moves S t s (s.link (.body l) none) := by
        apply moves_link_body hI hl _ (Or.inl rfl)
        · intro _
          exact Paired.of_body_none rfl
        · intro j hj
          cases hj
      apply hM.trans
      have hfi := (hI.held l t hl).info
      rw [← link_files_of_ne (p := .body l) (i := none) (by simp)] at hfi
      exact moves_setSlot (v := { s.slot l with body := none }) hM.inv hl rfl (Or.inl rfl)
        (Or.inr rfl) (Or.inl (link_files_self _ _)) hfi fun _ => Paired.of_body_none rfl
  | metaJson l =>
      obtain rfl : l = h := hp
      have hM : Moves S t s (s.link (.metaJson l) none) := by
        apply moves_link_info hI hl (Or.inl rfl)
        intro _
        exact Paired.of_info_none rfl
      apply hM.trans
      have hfb := hb (by simp)
      rw [← link_files_of_ne (p := .metaJson l) (i := none) (by simp)] at hfb
      exact moves_setSlot (v := { s.slot l with info := none }) hM.inv hl rfl (Or.inr (Or.inl rfl))
        (Or.inl rfl) (Or.inr hfb) (Or.inl (link_files_self _ _)) fun _ => Paired.of_info_none rfl
  | poisoned | fillIdCounter | metaTmp | tmp => cases hp

theorem kept_unlink
    (hm : s.Mono S (s.unlink p)) (hp : p.OfEntry h) (hX : X.names p) (hXh : X.hashes h) :
  s.Kept S t X (s.unlink p)
  := by
  rw [unlink_eq hp] at hm ⊢
  exact
  { Kept.refl S t X s with
    mono := hm
    files := by
      intro q hq _
      apply link_files_of_ne
      rintro rfl
      exact hq hX
    slot := by
      intro l hl _
      refine ⟨?_, rfl⟩
      apply setSlot_slot_of_ne
      rintro rfl
      exact hl hXh }

theorem link_view
    (hp : p.OfEntry h) (i : Option ℕ) :
  (s.link p i).view h = (s.view h).set p i
  := by
  cases p with
  | body l =>
      obtain rfl : l = h := hp
      apply View.ext
      · exact link_files_self _ _
      · exact link_files_of_ne (p := .body l) (q := .metaJson l) (i := i) (by simp)
      · rfl
  | metaJson l =>
      obtain rfl : l = h := hp
      apply View.ext
      · exact link_files_of_ne (p := .metaJson l) (q := .body l) (i := i) (by simp)
      · exact link_files_self _ _
      · rfl
  | poisoned | fillIdCounter | metaTmp | tmp => cases hp

/-- Giving or taking away another name does not change the entry. -/
theorem link_view_of_not
    (hp : ¬ p.OfEntry h) (i : Option ℕ) :
  (s.link p i).view h = s.view h
  := by
  apply view_congr
  · apply link_files_of_ne
    rintro rfl
    exact hp rfl
  · apply link_files_of_ne
    rintro rfl
    exact hp rfl
  · rfl

theorem Held.unlink
    (hH : s.Held t h sl v) (hp : p.OfEntry h) :
  (s.unlink p).Held t h (sl.set p none) (v.set p none)
  := by
  rw [unlink_eq hp]
  constructor
  · exact hH.lock
  · exact hH.only
  · rw [setSlot_slot_self, hH.slot]
  · rw [← hH.view]
    exact link_view hp none

theorem Held.get_eq
    (hH : s.Held t h sl v) (hp : p.OfEntry h) :
  s.files p = v.get p
  := by
  rw [← hH.view]
  cases p with
  | body l =>
      obtain rfl : l = h := hp
      rfl
  | metaJson l =>
      obtain rfl : l = h := hp
      rfl
  | poisoned | fillIdCounter | metaTmp | tmp => cases hp

theorem Held.fault
    (hH : s.Held t h sl v) :
  s.fault.Held t h sl v
  := ⟨hH.lock, hH.only, hH.slot, hH.view⟩

/-- What the result of removing a file of an entry tells. -/
inductive RemoveResult (P : View → DiskCache E → Prop) (v : View) (p : Path) (s : DiskCache E) :
    Except IoError Unit → Prop
  | removed (hP : P (v.set p none) s) : RemoveResult P v p s (.ok ())
  | missing (hv : v.get p = none) (hP : P v s) : RemoveResult P v p s (.error .notFound)
  | failed {e : IoError} (he : e ≠ .notFound) (hf : s.faulted = true) (hP : P v s) :
      RemoveResult P v p s (.error e)

theorem wp_removeHeld
    (hH : s.Held t h v v) (hp : p.OfEntry h) (hX : X.names p) (hXh : X.hashes h) :
  (discipline S Restart).WP t (removeFile p)
    (fun r s' => s.Kept S t X s' ∧ s'.Inv S ∧
      RemoveResult (fun v s => s.Held t h v v) v p s' r) s
  := by
  apply wp_fsCall
  · intro s₁ hI hR
    have hH₁ := hH.rely hR
    cases hf : s₁.files p with
    | none =>
        exact ⟨Moves.refl hI, Rely.kept hR, hI, .missing ((hH₁.get_eq hp).symm.trans hf) hH₁⟩
    | some i =>
        have hM : Moves S t s₁ (s₁.unlink p) := by
          apply moves_unlink hI hH₁.lock hp
          intro _
          rw [hH₁.slot, hH₁.body_eq]
        exact ⟨hM, (Rely.kept hR).trans (kept_unlink hM.mono hp hX hXh), hM.inv,
          .removed (hH₁.unlink hp)⟩
  · intro s₁ hI hR
    exact ⟨(Rely.kept hR).trans (kept_fault hI), (moves_fault (t := t) hI).inv,
      .failed (by simp) rfl (hH.rely hR).fault⟩

/-- A probe that removes a file of an entry only removes what is left over. -/
theorem wp_cleanFile
    (hI₀ : s.Inv S) (hH : s.Held t h v v) (hL : s.Leftover v) (hp : p.OfEntry h) (hX : X.names p)
    (hXh : X.hashes h) :
  (discipline S Restart).WP t (cleanFile p)
    (fun _ s' => s.Kept S t X s' ∧ s'.Inv S ∧ ∃ v', s'.Held t h v' v' ∧ s'.Leftover v') s
  := by
  apply wp_fsCall
  · intro s₁ hI hR
    have hH₁ := hH.rely hR
    cases hf : s₁.files p with
    | none => exact ⟨Moves.refl hI, Rely.kept hR, hI, v, hH₁, hL.mono hI₀ hH hR.mono⟩
    | some i =>
        have hM : Moves S t s₁ (s₁.unlink p) := by
          apply moves_unlink hI hH₁.lock hp
          intro _
          rw [hH₁.slot, hH₁.body_eq]
        have hL₁ : (s₁.unlink p).Leftover v := (hL.mono hI₀ hH hR.mono).mono hI hH₁ hM.mono
        have hM' : Moves S t (s₁.unlink p)
            { s₁.unlink p with cleaned := (s₁.unlink p).cleaned ++ [i] } := by
          apply moves_cleaned hM.inv
          intro hf₁ hd₁
          obtain ⟨hb, hi⟩ := hL₁ hf₁ hd₁
          have hg : v.get p = some i := (hH₁.get_eq hp).symm.trans hf
          refine ⟨(hI.linked p i hf).trans_le hM.mono.ino, ?_⟩
          cases p with
          | body l => exact hb i hg
          | metaJson l => exact hi i hg
          | poisoned | fillIdCounter | metaTmp | tmp => cases hp
        have hc : (s₁.unlink p).cleaned = s₁.cleaned := by
          rw [unlink_eq hp]
          rfl
        rw [hc] at hM'
        refine ⟨hM.trans hM', ?_, hM'.inv, v.set p none, ?_, ?_⟩
        · apply ((Rely.kept hR).trans (kept_unlink hM.mono hp hX hXh)).trans
          exact { Kept.refl S t X (s₁.unlink p) with mono := hM'.mono }
        · obtain ⟨hl, ho, hs, hv⟩ := hH₁.unlink hp
          exact ⟨hl, ho, hs, hv⟩
        · exact hL₁.set_none p
  · intro s₁ hI hR
    exact ⟨(Rely.kept hR).trans (kept_fault hI), (moves_fault (t := t) hI).inv, v,
      (hH.rely hR).fault, Leftover.of_faulted rfl⟩

/-! ### Code under a metadata lock -/

/-- Code that runs at once is verified when its change keeps the discipline. -/
theorem wp_modifies
    {f : ℕ → DiskCache E → DiskCache E} {Q : Unit → DiskCache E → Prop}
    (hf : s.Inv S → Moves S t s (f t s) ∧ Q () (f t s)) :
  (discipline S Restart).WP t (.modifies f) Q s
  := by
  intro hI
  exact ⟨(hf hI).1.guar, (hf hI).2⟩

/-- The state in which the metadata lock of the hash is given up: the entry is left with
the files it has. -/
def unlock (s : DiskCache E) (h : String) : DiskCache E := (s.leave h).setMetaLock h none

@[simp]
theorem unlock_slot_self (s : DiskCache E) (h : String) :
  (s.unlock h).slot h = s.view h
  := Function.update_self _ _ _

theorem unlock_slot_of_ne
    {l : String} (hl : l ≠ h) :
  (s.unlock h).slot l = s.slot l
  := Function.update_of_ne hl _ _

theorem moves_unlock
    (hI : s.Inv S) (hH : s.Held t h sl v) (hT : s.Tidy v) :
  Moves S t s (s.unlock h)
  := by
  have hM : Moves S t s (s.leave h) := moves_leave hI hH.lock
  have hs : (s.leave h).slot h = s.view h := Function.update_self _ _ _
  apply hM.trans
  apply moves_unlockMeta hM.inv hH.lock hs.symm
  rw [hs, hH.view]
  exact hT

/-- The task `t` has acquired the metadata lock of the hash `h` since the state `s`. -/
def Entered (S : Setting E) (t : ℕ) (h : String) (s s₁ : DiskCache E) : Prop :=
  ∃ s₀, s.Rely S t s₀ ∧ s₀.Inv S ∧ s₀.metaLocks h = none ∧ s₁ = s₀.setMetaLock h (some t)

/-- What a task keeps while it holds a metadata lock, it keeps from before it acquired the
lock to after it released it. -/
theorem Kept.locked
    {s₁ s₂ : DiskCache E} (hi : s.Idle t) (hE : Entered S t h s s₁) (hk : s₁.Kept S t X s₂)
    (hH : s₂.Held t h sl v) (hm : s₂.Mono S (s₂.unlock h)) :
  s.Kept S t X (s₂.unlock h) ∧ (s₂.unlock h).Idle t
  := by
  obtain ⟨s₀, hR, hI₀, hl, rfl⟩ := hE
  have hidle : (s₂.unlock h).Idle t := by
    intro l hl'
    by_cases hlh : l = h
    · subst hlh
      rw [unlock, setMetaLock_self] at hl'
      cases hl'
    · rw [unlock, setMetaLock_of_ne hlh] at hl'
      exact hlh (hH.only l hl')
  refine ⟨⟨?_, ?_, ?_, ?_, ?_, ?_, ?_, ?_, ?_, ?_⟩, hidle⟩
  · exact (hR.mono.trans (moves_lockMeta (t := t) hI₀ hl).mono).trans (hk.mono.trans hm)
  · exact S.rely_trans hR.env hk.env
  · intro l
    exact ⟨fun h' => absurd h' (hidle l), fun h' => absurd h' (hi l)⟩
  · intro e he
    exact hk.commitLock e (hR.commitLock e he)
  · intro e hX he
    exact (hk.bumps e hX (hR.commitLock e he)).trans (hR.bumps e id he)
  · intro hp
    obtain ⟨h₁, e₁⟩ := hR.persistLock hp
    obtain ⟨h₂, e₂⟩ := hk.persistLock h₁
    exact ⟨h₂, e₂.trans e₁⟩
  · intro p hX hp
    have hp₁ : (s₀.setMetaLock h (some t)).Owns t p := by
      cases p with
      | body l | metaJson l | metaTmp l n => exact absurd hp (hi l)
      | poisoned l => cases hp
      | fillIdCounter => exact (hR.persistLock hp).1
      | tmp t' n k => exact hp
    exact (hk.files p hX hp₁).trans (hR.files p id hp)
  · intro l _ hl'
    exact absurd hl' (hi l)
  · intro f r hX hf ho
    exact hk.fills f r hX (hR.fills f r id hf ho) ho
  · intro f r hX hf ho hw
    exact hk.unwritten f r hX (hR.fills f r id hf ho) ho (hR.unwritten f r id hf ho hw)

/-- Code under a metadata lock finds a tidy entry, and has to leave one. -/
theorem wp_withMetaLock
    {α : Type} {q : Async (DiskCache E) α} {Q : α → DiskCache E → Prop} (hi : s.Idle t)
    (hq : ∀ s₁ v, Entered S t h s s₁ → s₁.Inv S → s₁.Held t h v v → s₁.Tidy v →
      (discipline S Restart).WP t q
        (fun a s₂ => s₁.Kept S t X s₂ ∧ s₂.Inv S ∧ Q a (s₂.unlock h) ∧
          ∃ sl v', s₂.Held t h sl v' ∧ s₂.Tidy v') s₁) :
  (discipline S Restart).WP t (withMetaLock h q)
    (fun a s' => s.Kept S t X s' ∧ s'.Inv S ∧ s'.Idle t ∧ Q a s') s
  := by
  intro s₀ c b s₁ hI hR hf
  obtain ⟨hl, hf⟩ := Option.ite_none_right_eq_some.mp hf
  obtain ⟨rfl, rfl⟩ := Prod.mk.inj (Option.some.inj hf)
  have hM : Moves S t s₀ (s₀.setMetaLock h (some t)) := moves_lockMeta hI hl
  have hv : s₀.view h = s₀.slot h := hI.free h hl
  have hH : (s₀.setMetaLock h (some t)).Held t h (s₀.slot h) (s₀.slot h) := by
    refine ⟨setMetaLock_self _ _, ?_, rfl, hv⟩
    intro l hl'
    by_contra hlh
    rw [setMetaLock_of_ne hlh] at hl'
    exact hi l ((hR.metaLock l).mp hl')
  have hE : Entered S t h s (s₀.setMetaLock h (some t)) := ⟨s₀, hR, hI, hl, rfl⟩
  refine ⟨hM.guar, ?_⟩
  apply WP.seq (hq _ _ hE hM.inv hH fun hf hd => hI.quiet hf hd h hl)
  rintro a s₂ ⟨hk, hI₂, hQ, sl, v', hH₂, hT⟩ -
  have hU : Moves S t s₂ (s₂.unlock h) := moves_unlock hI₂ hH₂ hT
  obtain ⟨hk', hi'⟩ := Kept.locked hi hE hk hH₂ hU.mono
  exact ⟨hU.guar, hk', hU.inv, hi', hQ⟩

/-! ### Code under a commit lock -/

/-- Code under a commit lock keeps the lock until it returns. -/
theorem wp_withCommitLock
    {α : Type} {q : Async (DiskCache E) α} {Q : α → DiskCache E → Prop} {e : ℕ} (hi : s.Idle t)
    (he : e < s.nextEntry)
    (hq : ∀ s₁, s.Rely S t s₁ → s₁.Inv S → s₁.Idle t → (s₁.entries e).commitLock = some t →
      (discipline S Restart).WP t q
        (fun a s₂ => s₁.Kept S t X s₂ ∧ s₂.Inv S ∧ s₂.Idle t ∧ Q a (s₂.setCommitLock e none)) s₁) :
  (discipline S Restart).WP t (withCommitLock (some e) q)
    (fun a s' => s.Kept S t X s' ∧ s'.Inv S ∧ s'.Idle t ∧ Q a s') s
  := by
  intro s₀ c b s₁ hI hR hf
  obtain ⟨hl, hf⟩ := Option.ite_none_right_eq_some.mp hf
  obtain ⟨rfl, rfl⟩ := Prod.mk.inj (Option.some.inj hf)
  have he₀ : e < s₀.nextEntry := he.trans_le hR.mono.nextEntry
  have hne : ∀ e', (s.entries e').commitLock = some t → e' ≠ e := by
    rintro e' he' rfl
    rw [hR.commitLock e' he'] at hl
    cases hl
  have hM : Moves S t s₀ (s₀.setCommitLock e (some t)) := by
    apply moves_setCommitLock hI he₀ _ (Or.inl rfl)
    intro t' _ hc
    rw [hl] at hc
    cases hc
  have hk₀ : s₀.Rely S t (s₀.setCommitLock e (some t)) :=
    { Kept.refl S t Scope.none s₀ with
      mono := hM.mono
      commitLock := by
        intro e' he'
        by_cases hee : e' = e
        · subst hee
          simp [setCommitLock]
        · rw [setCommitLock, setEntry_of_ne hee, he']
      bumps := fun e' _ _ => (setCommitLock_fields e _ e').2.1 }
  have hk₁ : s.Rely S t (s₀.setCommitLock e (some t)) := Kept.trans hR hk₀
  refine ⟨hM.guar, ?_⟩
  have hi₁ : (s₀.setCommitLock e (some t)).Idle t := fun l hl' => hi l ((hk₁.metaLock l).mp hl')
  have hc₁ : ((s₀.setCommitLock e (some t)).entries e).commitLock = some t := by
    simp [setCommitLock]
  apply WP.seq (hq _ hk₁ hM.inv hi₁ hc₁)
  rintro a s₂ ⟨hk, hI₂, hi₂, hQ⟩ -
  have hU : Moves S t s₂ (s₂.setCommitLock e none) := by
    apply moves_setCommitLock hI₂ (he₀.trans_le (hM.mono.trans hk.mono).nextEntry) _
      (Or.inr hi₂)
    intro t' ht hc
    exact ht (Option.some.inj (hc.symm.trans (hk.commitLock e hc₁)))
  have hk₂ := (Rely.kept hk₁).trans hk
  have hk₃ : s.Kept S t X (s₂.setCommitLock e none) :=
    { hk₂ with
      mono := hk₂.mono.trans hU.mono
      commitLock := by
        intro e' he'
        rw [setCommitLock, setEntry_of_ne (hne e' he')]
        exact hk₂.commitLock e' he'
      bumps := by
        intro e' hX he'
        rw [(setCommitLock_fields e none e').2.1]
        exact hk₂.bumps e' hX he' }
  exact ⟨hU.guar, hk₃, hU.inv, hi₂, hQ⟩

end DiskCache

end TinyS3Proxy
