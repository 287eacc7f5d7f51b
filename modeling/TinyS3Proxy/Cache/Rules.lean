import TinyS3Proxy.Cache.Publication

/-!
# Rules for the primitive operations

A rule for each primitive operation: what a task that runs it knows afterwards. The
rules relate the state in which the operation is reached to the state in which it
returns, and say which of the things the task owns are kept in between.
-/

namespace TinyS3Proxy

open Coop Coop.Discipline

namespace DiskCache

variable {E : Type} {S : Setting E} {Restart : DiskCache E → DiskCache E → Prop}
  {t : ℕ} {s s' : DiskCache E} {X : Scope}

/-! ### Owning an entry -/

/-- The task `t` holds the metadata lock of the hash `h` and no other. The entry was last
left with the files in `sl`, and has those in `v`. -/
structure Held (s : DiskCache E) (t : ℕ) (h : String) (sl v : View) : Prop where
  lock : s.metaLocks h = some t
  only : ∀ l, s.metaLocks l = some t → l = h
  slot : s.slot h = sl
  view : s.view h = v

/-- A task keeps the entry that it holds. -/
theorem Held.kept
    {h : String} {sl v : View} (hH : s.Held t h sl v) (hk : s.Kept S t X s')
    (hb : ¬ X.names (.body h)) (hi : ¬ X.names (.metaJson h)) (hX : ¬ X.hashes h) :
  s'.Held t h sl v
  where
  lock := (hk.metaLock h).mpr hH.lock
  only := fun l hl => hH.only l ((hk.metaLock l).mp hl)
  slot := (hk.slot h hX hH.lock).1.trans hH.slot
  view := by
    rw [← hH.view]
    apply view_congr
    · apply hk.files _ hb hH.lock
    · apply hk.files _ hi hH.lock
    · exact (hk.slot h hX hH.lock).2

theorem Held.rely
    {h : String} {sl v : View} (hH : s.Held t h sl v) (hR : s.Rely S t s') :
  s'.Held t h sl v
  := hH.kept hR id id id

/-- A task that relies on what it owns keeps it, whatever is excepted. -/
theorem Rely.kept
    (hR : s.Rely S t s') :
  s.Kept S t X s'
  := Kept.weaken hR (fun _ => False.elim) (fun _ => False.elim) (fun _ => False.elim)
    (fun _ => False.elim)

/-! ### What a task keeps by its own steps -/

theorem kept_fault
    (hI : s.Inv S) :
  s.Kept S t X s.fault
  := { Kept.refl S t X s with mono := (moves_fault (t := t) hI).mono }

/-- Giving or taking away a name keeps all else. -/
theorem kept_link
    {p : Path} {i : Option ℕ} (hm : s.Mono S (s.link p i)) (hp : X.names p) :
  s.Kept S t X (s.link p i)
  :=
  { Kept.refl S t X s with
    mono := hm
    files := by
      intro q hq _
      apply link_files_of_ne
      rintro rfl
      exact hq hp }

theorem kept_setSlot
    {h : String} {v : View} (hm : s.Mono S (s.setSlot h v)) (hX : X.hashes h) :
  s.Kept S t X (s.setSlot h v)
  :=
  { Kept.refl S t X s with
    mono := hm
    slot := by
      intro l hl _
      refine ⟨?_, rfl⟩
      apply setSlot_slot_of_ne
      rintro rfl
      exact hl hX }

/-! ### File-system calls -/

/-- A file-system call is verified when it is verified as it succeeds and as it fails. -/
theorem wp_fsCall
    {β : Type} {f : DiskCache E → Except IoError β × DiskCache E}
    {Q : Except IoError β → DiskCache E → Prop}
    (hok : ∀ s₁, s₁.Inv S → s.Rely S t s₁ → Moves S t s₁ (f s₁).2 ∧ Q (f s₁).1 (f s₁).2)
    (herr : ∀ s₁, s₁.Inv S → s.Rely S t s₁ → Q (.error .other) s₁.fault) :
  (discipline S Restart).WP t (fsCall f) Q s
  := by
  intro s₁ c b s₂ hI hR hf
  obtain hf' := Option.some.inj hf
  split at hf'
  · obtain ⟨hM, hQ⟩ := hok s₁ hI hR
    rw [hf'] at hM hQ
    exact ⟨hM.guar, hQ⟩
  · obtain ⟨rfl, rfl⟩ := Prod.mk.inj hf'
    exact ⟨(moves_fault hI).guar, herr s₁ hI hR⟩

/-- What the result of reading a file tells. -/
def ReadResult (p : Path) (r : Except IoError File) (s : DiskCache E) : Prop :=
  match r with
  | .ok d => ∃ i, s.files p = some i ∧ s.data i = d
  | .error .notFound => s.files p = none
  | .error _ => s.faulted = true

theorem wp_readFile (p : Path) :
  (discipline S Restart).WP t (readFile p)
    (fun r s' => s.Kept S t X s' ∧ s'.Inv S ∧ ReadResult p r s') s
  := by
  apply wp_fsCall
  · intro s₁ hI hR
    cases hp : s₁.files p with
    | none => exact ⟨Moves.refl hI, Rely.kept hR, hI, hp⟩
    | some i => exact ⟨Moves.refl hI, Rely.kept hR, hI, i, hp, rfl⟩
  · intro s₁ hI hR
    exact ⟨(Rely.kept hR).trans (kept_fault hI), (moves_fault (t := t) hI).inv, rfl⟩

/-- What the result of looking for a file tells. -/
def ExistsResult (p : Path) (r : Except IoError Bool) (s : DiskCache E) : Prop :=
  match r with
  | .ok b => b = (s.files p).isSome
  | .error .notFound => False
  | .error _ => s.faulted = true

theorem wp_tryExists (p : Path) :
  (discipline S Restart).WP t (tryExists p)
    (fun r s' => s.Kept S t X s' ∧ s'.Inv S ∧ ExistsResult p r s') s
  := by
  apply wp_fsCall
  · intro s₁ hI hR
    exact ⟨Moves.refl hI, Rely.kept hR, hI, rfl⟩
  · intro s₁ hI hR
    exact ⟨(Rely.kept hR).trans (kept_fault hI), (moves_fault (t := t) hI).inv, rfl⟩

/-- What the result of a call that finds a file or fails tells. -/
def FoundResult {β : Type} (p : Path) (r : Except IoError β) (s : DiskCache E) : Prop :=
  match r with
  | .ok _ => ∃ i, s.files p = some i
  | .error .notFound => s.files p = none
  | .error _ => s.faulted = true

theorem wp_fileMetadata (p : Path) :
  (discipline S Restart).WP t (fileMetadata p)
    (fun r s' => s.Kept S t X s' ∧ s'.Inv S ∧ FoundResult p r s') s
  := by
  apply wp_fsCall
  · intro s₁ hI hR
    cases hp : s₁.files p with
    | none => exact ⟨Moves.refl hI, Rely.kept hR, hI, hp⟩
    | some i => exact ⟨Moves.refl hI, Rely.kept hR, hI, i, hp⟩
  · intro s₁ hI hR
    exact ⟨(Rely.kept hR).trans (kept_fault hI), (moves_fault (t := t) hI).inv, rfl⟩

/-- What the result of opening a file tells. -/
def OpenResult (p : Path) (r : Except IoError ℕ) (s : DiskCache E) : Prop :=
  match r with
  | .ok i => s.files p = some i
  | .error .notFound => s.files p = none
  | .error _ => s.faulted = true

theorem wp_openFile (p : Path) :
  (discipline S Restart).WP t (openFile p)
    (fun r s' => s.Kept S t X s' ∧ s'.Inv S ∧ OpenResult p r s') s
  := by
  apply wp_fsCall
  · intro s₁ hI hR
    cases hp : s₁.files p with
    | none => exact ⟨Moves.refl hI, Rely.kept hR, hI, hp⟩
    | some i => exact ⟨Moves.refl hI, Rely.kept hR, hI, hp⟩
  · intro s₁ hI hR
    exact ⟨(Rely.kept hR).trans (kept_fault hI), (moves_fault (t := t) hI).inv, rfl⟩

theorem wp_fsEffect :
  (discipline S Restart).WP t fsEffect
    (fun r s' => s.Kept S t X s' ∧ s'.Inv S ∧ (r = .ok () ∨ s'.faulted = true)) s
  := by
  apply wp_fsCall
  · intro s₁ hI hR
    exact ⟨Moves.refl hI, Rely.kept hR, hI, Or.inl rfl⟩
  · intro s₁ hI hR
    exact ⟨(Rely.kept hR).trans (kept_fault hI), (moves_fault (t := t) hI).inv, Or.inr rfl⟩

/-- What the result of checking for a file tells. -/
def CheckResult (p : Path) (r : Except CacheError Bool) (s : DiskCache E) : Prop :=
  match r with
  | .ok b => b = (s.files p).isSome
  | .error _ => s.faulted = true

theorem wp_checkExists (p : Path) (operation : String) :
  (discipline S Restart).WP t (checkExists p operation)
    (fun r s' => s.Kept S t X s' ∧ s'.Inv S ∧ CheckResult p r s') s
  := by
  apply WP.seq (wp_tryExists p)
  rintro r s' ⟨hk, hI, hr⟩
  match r, hr with
  | .ok b, hr => exact ⟨hk, hI, hr⟩
  | .error .alreadyExists, hr => exact ⟨hk, hI, hr⟩
  | .error .other, hr => exact ⟨hk, hI, hr⟩

/-! ### Names that belong to no entry -/

/-- The task `t` may give and take away the name `p`, which belongs to no entry. -/
def Mine (s : DiskCache E) (t : ℕ) : Path → Prop
  | .metaTmp h _ => s.metaLocks h = some t
  | .tmp t' _ _ => t' = t
  | .poisoned _ => True
  | _ => False

theorem Mine.side
    {p : Path} (hp : s.Mine t p) :
  Side p
  := by
  cases p with
  | body | metaJson | fillIdCounter => cases hp
  | poisoned | metaTmp | tmp => trivial

theorem Mine.not_owned
    {p : Path} (hp : s.Mine t p) {t' : ℕ} (ht : t' ≠ t) :
  ¬ s.Owns t' p
  := by
  cases p with
  | body | metaJson | fillIdCounter => cases hp
  | poisoned => exact id
  | metaTmp h n =>
      intro h'
      exact ht (Option.some.inj (h'.symm.trans hp))
  | tmp t₀ n k =>
      rintro rfl
      exact ht hp

theorem Mine.kept
    {p : Path} (hp : s.Mine t p) (hk : s.Kept S t X s') :
  s'.Mine t p
  := by
  cases p with
  | body | metaJson | fillIdCounter => cases hp
  | poisoned => trivial
  | metaTmp h n => exact (hk.metaLock h).mpr hp
  | tmp t₀ n k => exact hp

/-- Give or take away a name of the task's own. -/
theorem moves_link_mine
    {p : Path} {i : Option ℕ} (hI : s.Inv S) (hp : s.Mine t p)
    (hi : ∀ j, i = some j → j < s.nextIno) :
  Moves S t s (s.link p i)
  := moves_link_side hI hp.side hi fun _ ht => hp.not_owned ht

theorem wp_removeMine
    {p : Path} (hp : s.Mine t p) (hX : X.names p) :
  (discipline S Restart).WP t (removeFile p)
    (fun r s' => s.Kept S t X s' ∧ s'.Inv S ∧ (isGone r = true ∨ s'.faulted = true)) s
  := by
  have hu : ∀ s₁ : DiskCache E, s₁.unlink p = s₁.link p none := by
    intro s₁
    cases p with
    | body | metaJson | fillIdCounter => cases hp
    | poisoned | metaTmp | tmp => rfl
  apply wp_fsCall
  · intro s₁ hI hR
    cases hf : s₁.files p with
    | none => exact ⟨Moves.refl hI, Rely.kept hR, hI, Or.inl rfl⟩
    | some i =>
        have hM : Moves S t s₁ (s₁.link p none) :=
          moves_link_mine hI (hp.kept hR) fun j hj => by cases hj
        simp only [hu]
        exact ⟨hM, (Rely.kept hR).trans (kept_link hM.mono hX), hM.inv, Or.inl rfl⟩
  · intro s₁ hI hR
    exact ⟨(Rely.kept hR).trans (kept_fault hI), (moves_fault (t := t) hI).inv, Or.inr rfl⟩

/-- Discarding temporary files of the task keeps all else. -/
theorem wp_discard
    {ps : List Path} (hI : s.Inv S) (hp : ∀ p ∈ ps, s.Mine t p) (hX : ∀ p ∈ ps, X.names p) :
  (discipline S Restart).WP t (discard ps) (fun _ s' => s.Kept S t X s' ∧ s'.Inv S) s
  := by
  apply WP.forEach (J := fun s' => s.Kept S t X s' ∧ s'.Inv S)
  · rintro p hps s₁ ⟨hk, -⟩
    apply WP.seq (wp_removeMine ((hp p hps).kept hk) (hX p hps))
    rintro _ s₂ ⟨hk', hI', -⟩
    exact ⟨hk.trans hk', hI'⟩
  · exact ⟨Kept.refl S t X s, hI⟩

/-- What the result of writing a new file tells. -/
def WriteResult (p : Path) (d : File) (r : Except IoError Unit) (s : DiskCache E) : Prop :=
  match r with
  | .ok () => ∃ i, s.files p = some i ∧ s.data i = d
  | .error .alreadyExists => True
  | .error .notFound => False
  | .error .other => s.faulted = true

/-- Creating a file under a name of the task's own. -/
theorem moves_create
    {p : Path} (hI : s.Inv S) (hp : s.Mine t p) (d : File) :
  Moves S t s (s.create p d)
  := by
  have hA : Moves S t s (s.alloc d) := moves_alloc hI d
  have hp' : (s.alloc d).Mine t p := by
    cases p <;> exact hp
  rw [create_eq]
  apply hA.trans
  apply moves_link_mine hA.inv hp'
  rintro j hj
  obtain rfl := Option.some.inj hj
  exact Nat.lt_succ_self _

theorem kept_create
    {p : Path} {d : File} (hm : s.Mono S (s.create p d)) (hX : X.names p) :
  s.Kept S t X (s.create p d)
  :=
  { Kept.refl S t X s with
    mono := hm
    files := by
      intro q hq _
      apply Function.update_of_ne
      rintro rfl
      exact hq hX }

theorem wp_writeFile
    {p : Path} (d : File) (hp : s.Mine t p) (hX : X.names p) :
  (discipline S Restart).WP t (writeFileSecure p d)
    (fun r s' => s.Kept S t X s' ∧ s'.Inv S ∧ WriteResult p d r s') s
  := by
  intro s₁ c b s₂ hI hR hf
  have hp₁ : s₁.Mine t p := hp.kept hR
  obtain hf' := Option.some.inj hf
  clear hf
  cases hp₀ : s₁.files p with
  | some i =>
      simp only [hp₀] at hf'
      obtain ⟨rfl, rfl⟩ := Prod.mk.inj hf'
      exact ⟨(Moves.refl hI).guar, Rely.kept hR, hI, trivial⟩
  | none =>
      simp only [hp₀] at hf'
      split at hf'
      · obtain ⟨rfl, rfl⟩ := Prod.mk.inj hf'
        have hM : Moves S t s₁ (s₁.create p d) := moves_create hI hp₁ d
        refine ⟨hM.guar, (Rely.kept hR).trans (kept_create hM.mono hX), hM.inv, s₁.nextIno, ?_, ?_⟩
        · exact Function.update_self _ _ _
        · exact Function.update_self _ _ _
      split at hf'
      · obtain ⟨rfl, rfl⟩ := Prod.mk.inj hf'
        exact ⟨(moves_fault hI).guar, (Rely.kept hR).trans (kept_fault hI),
          (moves_fault (t := t) hI).inv, rfl⟩
      · obtain ⟨rfl, rfl⟩ := Prod.mk.inj hf'
        have hM : Moves S t s₁ (s₁.create p (.raw [])) := moves_create hI hp₁ _
        have hF := moves_fault (t := t) hM.inv
        exact ⟨(hM.trans hF).guar,
          ((Rely.kept hR).trans (kept_create hM.mono hX)).trans (kept_fault hM.inv), hF.inv, rfl⟩

end DiskCache

end TinyS3Proxy
