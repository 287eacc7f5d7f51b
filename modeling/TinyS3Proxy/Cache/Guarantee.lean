import TinyS3Proxy.Cache.Invariant

/-!
# The primitive changes keep the invariant

Each primitive change of the state of the cache keeps the invariant and all that other
tasks own. A change of the disk is made of the elementary ones in this module: giving a
name to an inode, taking it away, and allocating an inode.
-/

namespace TinyS3Proxy

open Coop

namespace DiskCache

variable {E : Type} {S : Setting E} {t : ℕ} {s s' : DiskCache E}

/-- A change of the state by the task `t` that does not touch the environment, and that
keeps the invariant and all that other tasks own. -/
structure Moves (S : Setting E) (t : ℕ) (s s' : DiskCache E) : Prop where
  inv : s'.Inv S
  env : s'.env = s.env
  mono : s.Mono S s'
  kept : ∀ t', t' ≠ t → s.Rely S t' s'

/-- One change after another is a change. -/
theorem Moves.trans
    {s₁ s₂ s₃ : DiskCache E} (h : Moves S t s₁ s₂) (h' : Moves S t s₂ s₃) :
  Moves S t s₁ s₃
  where
  inv := h'.inv
  env := h'.env.trans h.env
  mono := h.mono.trans h'.mono
  kept := fun t' ht => Kept.trans (h.kept t' ht) (h'.kept t' ht)

/-- A change that does not touch the environment keeps the discipline. -/
theorem Moves.guar
    {Restart : DiskCache E → DiskCache E → Prop} (h : Moves S t s s') :
  (discipline S Restart).Guar t s s'
  where
  inv := h.inv
  change := Or.inl ⟨h.mono, S.emits_of_env_eq _ _ h.env⟩
  rely := h.kept

/-- No change at all. -/
theorem Moves.refl
    (hI : s.Inv S) :
  Moves S t s s
  where
  inv := hI
  env := rfl
  mono := Mono.refl S s
  kept := fun t' _ => Rely.refl S t' s

/-! ### Transfer between states

The statements about an entry only depend on the contents of its files, which stay the
same, and on what is remembered about fills. -/

theorem NoTrace.congr
    {f : ℕ} {v : View} (h : s.NoTrace f v)
    (hb : ∀ i, v.body = some i → s'.data i = s.data i)
    (hi : ∀ i, v.info = some i → s'.data i = s.data i) :
  s'.NoTrace f v
  := by
  constructor
  · intro i b hv
    rw [hb i hv]
    apply h.1 i b hv
  · intro i m hv
    rw [hi i hv]
    apply h.2 i m hv

theorem Paired.congr
    {v : View} (h : s.Paired v)
    (hb : ∀ i, v.body = some i → s'.data i = s.data i)
    (hi : ∀ i, v.info = some i → s'.data i = s.data i) :
  s'.Paired v
  := by
  intro i j f b g m hvb hvi hf hg
  apply h i j f b g m hvb hvi
  · rw [← hb i hvb, hf]
  · rw [← hi j hvi, hg]

theorem Old.congr
    {i : ℕ} (h : s.Old i) (hboot : s'.bootFill = s.bootFill) (hd : s'.data i = s.data i) :
  s'.Old i
  := by
  rw [Old, hboot, hd]
  exact h

theorem Quiet.congr
    {v : View} (h : s.Quiet v) (hboot : s'.bootFill = s.bootFill)
    (hb : ∀ i, v.body = some i → s'.data i = s.data i)
    (hi : ∀ i, v.info = some i → s'.data i = s.data i) :
  s'.Quiet v
  := by
  obtain ⟨i, j, f, b, m, hvb, hvi, hf, hg⟩ | hleft := h
  · left
    use i, j, f, b, m, hvb, hvi
    rw [hb i hvb, hi j hvi]
    exact ⟨hf, hg⟩
  · right
    constructor
    · intro i hvb
      exact (hleft.1 i hvb).congr hboot (hb i hvb)
    · intro j hvi
      exact (hleft.2 j hvi).congr hboot (hi j hvi)

theorem InProgress.congr
    {l : String} (h : s.InProgress S t l)
    (hb : s'.files (.body l) = s.files (.body l))
    (hi : s'.files (.metaJson l) = s.files (.metaJson l))
    (hs : s'.slot l = s.slot l)
    (hd : ∀ i, s.files (.body l) = some i → s'.data i = s.data i)
    (hp : ∀ f r, s.Publishing t f l r →
      ∃ r', s'.Publishing t f l r' ∧ r'.born = r.born ∧ r'.key = r.key) :
  s'.InProgress S t l
  where
  body := by
    rw [hb, hs]
    obtain hn | he | ⟨i, f, b, r, hfi, hdi, hpub, hok⟩ := h.body
    · left
      exact hn
    · right; left
      exact he
    · right; right
      obtain ⟨r', hpub', hborn, hkey⟩ := hp f r hpub
      use i, f, b, r', hfi, (hd i hfi).trans hdi, hpub'
      rw [hborn, hkey]
      exact hok
  info := by
    rw [hi, hs]
    exact h.info

theorem BodyAt.congr
    {l : String} {i : ℕ} (h : s.BodyAt S l i) (hd : s'.data i = s.data i)
    (hf : ∀ f r, s.fills f = some r → ∃ r', s'.fills f = some r' ∧ Grows r r') :
  s'.BodyAt S l i
  := by
  obtain ⟨f, b, r, hdi, hfr, hkey, hok⟩ := h
  obtain ⟨r', hfr', hg⟩ := hf f r hfr
  use f, b, r', hd.trans hdi, hfr'
  rw [hg.key, hg.born]
  exact ⟨hkey, hok⟩

theorem InfoAt.congr
    {l : String} {g : ℕ} {m : CacheMeta} (h : s.InfoAt S l g m)
    (hf : s'.fills = s.fills) (hid : s'.nextFillId = s.nextFillId)
    (hb : s'.bootFill = s.bootFill) (hw : s'.writes = s.writes) :
  s'.InfoAt S l g m
  where
  fill := by
    rw [hf]
    exact h.fill
  id_lt := by
    rw [hid]
    exact h.id_lt
  id_unique := by
    rw [hf, hb]
    exact h.id_unique
  last := by
    rw [hw, hb]
    exact h.last

theorem view_congr
    {l : String} (hb : s'.files (.body l) = s.files (.body l))
    (hi : s'.files (.metaJson l) = s.files (.metaJson l))
    (hp : s'.poisonedHashes l = s.poisonedHashes l) :
  s'.view l = s.view l
  := by
  rw [view, view, hb, hi, hp]

theorem counterValue_congr
    (hf : s'.files .fillIdCounter = s.files .fillIdCounter)
    (hd : ∀ i, s.files .fillIdCounter = some i → s'.data i = s.data i) :
  s'.counterValue = s.counterValue
  := by
  rw [counterValue, counterValue, hf]
  cases h : s.files .fillIdCounter with
  | none => rfl
  | some i =>
      dsimp only
      rw [hd i h]

/-! ### Failing calls -/

/-- A file-system call fails. -/
theorem moves_fault
    (hI : s.Inv S) :
  Moves S t s s.fault
  where
  inv :=
    { hI with
      held := fun l t' ht => (hI.held l t' ht).congr rfl rfl rfl (fun _ _ => rfl) (fun _ r h => ⟨r, h, rfl, rfl⟩)
      infos := fun l i g m hi hd => (hI.infos l i g m hi hd).congr rfl rfl rfl rfl
      slot_paired := by
        intro h
        cases h
      view_paired := by
        intro h
        cases h
      quiet := by
        intro h
        cases h
      cleaned := by
        intro h
        cases h }
  env := rfl
  mono := { Mono.refl S s with faulted := fun _ => rfl }
  kept := fun t' _ =>
    { Rely.refl S t' s with mono := { Mono.refl S s with faulted := fun _ => rfl } }

/-! ### Names that belong to no entry -/

/-- The name is not one of the body or the metadata of an entry, nor that of the counter
file. -/
def Side : Path → Prop
  | .body _ => False
  | .metaJson _ => False
  | .fillIdCounter => False
  | _ => True

theorem link_files_of_ne
    {p q : Path} {i : Option ℕ} (h : q ≠ p) :
  (s.link p i).files q = s.files q
  := Function.update_of_ne h _ _

@[simp]
theorem link_files_self (p : Path) (i : Option ℕ) :
  (s.link p i).files p = i
  := Function.update_self _ _ _

/-- Give or take away a name that belongs to no entry. -/
theorem moves_link_side
    {p : Path} {i : Option ℕ} (hI : s.Inv S) (hp : Side p)
    (hi : ∀ j, i = some j → j < s.nextIno) (ho : ∀ t', t' ≠ t → ¬ s.Owns t' p) :
  Moves S t s (s.link p i)
  := by
  have hb : ∀ l, (s.link p i).files (.body l) = s.files (.body l) := by
    intro l
    apply link_files_of_ne
    rintro rfl
    apply hp
  have hm : ∀ l, (s.link p i).files (.metaJson l) = s.files (.metaJson l) := by
    intro l
    apply link_files_of_ne
    rintro rfl
    apply hp
  have hc : (s.link p i).files .fillIdCounter = s.files .fillIdCounter := by
    apply link_files_of_ne
    rintro rfl
    apply hp
  have hv : ∀ l, (s.link p i).view l = s.view l := fun l => view_congr (hb l) (hm l) rfl
  have hcv : (s.link p i).counterValue = s.counterValue :=
    counterValue_congr hc fun _ _ => rfl
  have hmono : s.Mono S (s.link p i) := { Mono.refl S s with counter := hcv.ge }
  refine ⟨?_, rfl, hmono, ?_⟩
  · exact
    { hI with
      linked := by
        intro q j hj
        by_cases hq : q = p
        · subst hq
          apply hi
          rwa [link_files_self] at hj
        · rw [link_files_of_ne hq] at hj
          apply hI.linked q j hj
      free := fun l hl => (hv l).trans (hI.free l hl)
      held := fun l t' ht => (hI.held l t' ht).congr (hb l) (hm l) rfl (fun _ _ => rfl)
        (fun _ r h => ⟨r, h, rfl, rfl⟩)
      infos := fun l i g m hi hd => (hI.infos l i g m hi hd).congr rfl rfl rfl rfl
      view_paired := by
        intro hf l
        rw [hv]
        apply (hI.view_paired hf l).congr <;> exact fun _ _ => rfl
      counter := by
        rw [hc]
        exact hI.counter
      counter_le := by
        rw [hcv]
        exact hI.counter_le
      disk_lt_counter := by
        rw [hcv]
        exact hI.disk_lt_counter
      published_lt := by
        rw [hcv]
        exact hI.published_lt }
  · intro t' ht'
    exact
    { Rely.refl S t' s with
      mono := hmono
      files := by
        intro q _ hq
        apply link_files_of_ne
        rintro rfl
        apply ho t' ht' hq }

/-! ### Allocating an inode -/

/-- Allocate an inode with the given contents. -/
def alloc (s : DiskCache E) (d : File) : DiskCache E :=
  { s with
    data := Function.update s.data s.nextIno d
    nextIno := s.nextIno + 1 }

/-- A new file is a new inode with a name. -/
theorem create_eq (s : DiskCache E) (p : Path) (d : File) :
  s.create p d = (s.alloc d).link p (some s.nextIno)
  := rfl

theorem alloc_data
    {i : ℕ} (d : File) (hi : i < s.nextIno) :
  (s.alloc d).data i = s.data i
  := Function.update_of_ne hi.ne _ _

/-- Allocate an inode. -/
theorem moves_alloc
    (hI : s.Inv S) (d : File) :
  Moves S t s (s.alloc d)
  := by
  have hsb : ∀ l i, (s.slot l).body = some i → (s.alloc d).data i = s.data i :=
    fun l i h => alloc_data d (hI.slot_body_lt l i h)
  have hsi : ∀ l i, (s.slot l).info = some i → (s.alloc d).data i = s.data i :=
    fun l i h => alloc_data d (hI.slot_info_lt l i h)
  have hf : ∀ p i, s.files p = some i → (s.alloc d).data i = s.data i :=
    fun p i h => alloc_data d (hI.linked p i h)
  have hcv : (s.alloc d).counterValue = s.counterValue :=
    counterValue_congr rfl (hf .fillIdCounter)
  have hmono : s.Mono S (s.alloc d) :=
    { Mono.refl S s with
      ino := Nat.le_succ _
      data := fun i hi => alloc_data d hi
      fenced := by
        rintro _ f ⟨r, hr, hp | hn⟩
        · exact ⟨r, hr, Or.inl hp⟩
        · exact ⟨r, hr, Or.inr (hn.congr (hsb _) (hsi _))⟩
      counter := hcv.ge }
  refine ⟨?_, rfl, hmono, ?_⟩
  · exact
    { hI with
      linked := fun p i h => Nat.lt_succ_of_lt (hI.linked p i h)
      slot_body_lt := fun l i h => Nat.lt_succ_of_lt (hI.slot_body_lt l i h)
      slot_info_lt := fun l i h => Nat.lt_succ_of_lt (hI.slot_info_lt l i h)
      held := fun l t' ht => (hI.held l t' ht).congr rfl rfl rfl (hf (.body l)) (fun _ r h => ⟨r, h, rfl, rfl⟩)
      bodies := fun l i h => (hI.bodies l i h).congr (hsb l i h) (fun f r hr => ⟨r, hr, Grows.refl r⟩)
      infos := by
        intro l i g m hi hd
        rw [hsi l i hi] at hd
        exact (hI.infos l i g m hi hd).congr rfl rfl rfl rfl
      info_not_body := by
        intro l i f b hi
        rw [hsi l i hi]
        exact hI.info_not_body l i f b hi
      slot_paired := fun h l => (hI.slot_paired h l).congr (hsb l) (hsi l)
      view_paired := fun h l => (hI.view_paired h l).congr (hf (.body l)) (hf (.metaJson l))
      quiet := fun h h' l hl => (hI.quiet h h' l hl).congr rfl (hsb l) (hsi l)
      cleaned := by
        intro h h' i hi
        obtain ⟨hlt, hold⟩ := hI.cleaned h h' i hi
        exact ⟨Nat.lt_succ_of_lt hlt, hold.congr rfl (alloc_data d hlt)⟩
      ids_disk := by
        intro l l' i i' g g' m m' hi hi' hd hd'
        rw [hsi l i hi] at hd
        rw [hsi l' i' hi'] at hd'
        apply hI.ids_disk l l' i i' g g' m m' hi hi' hd hd'
      counter := by
        intro i hi
        rw [hf _ i hi]
        apply hI.counter i hi
      counter_le := by
        rw [hcv]
        exact hI.counter_le
      disk_lt_counter := by
        rw [hcv]
        intro hc l i g m hi hd
        rw [hsi l i hi] at hd
        apply hI.disk_lt_counter hc l i g m hi hd
      published_lt := by
        rw [hcv]
        exact hI.published_lt }
  · intro t' _
    exact { Rely.refl S t' s with mono := hmono }

/-! ### The files of an entry -/

/-- Give or take away the name of the body of an entry, under its lock. -/
theorem moves_link_body
    {h : String} {i : Option ℕ} (hI : s.Inv S) (hl : s.metaLocks h = some t)
    (hi : ∀ j, i = some j → j < s.nextIno)
    (hbody : i = none ∨ i = (s.slot h).body ∨ ∃ j f b r, i = some j ∧ s.data j = .body f b ∧
      s.Publishing t f h r ∧ S.BodyOk r.born r.key b)
    (hpair : s.faulted = false → s.Paired { s.view h with body := i }) :
  Moves S t s (s.link (.body h) i)
  := by
  have hb : ∀ l, l ≠ h → (s.link (.body h) i).files (.body l) = s.files (.body l) := by
    intro l hlh
    apply link_files_of_ne
    simpa using hlh
  have hm : ∀ l, (s.link (.body h) i).files (.metaJson l) = s.files (.metaJson l) := by
    intro l
    apply link_files_of_ne
    simp
  have hc : (s.link (.body h) i).files .fillIdCounter = s.files .fillIdCounter := by
    apply link_files_of_ne
    simp
  have hv : ∀ l, l ≠ h → (s.link (.body h) i).view l = s.view l :=
    fun l hlh => view_congr (hb l hlh) (hm l) rfl
  have hvh : (s.link (.body h) i).view h = { s.view h with body := i } := by
    rw [view, link_files_self, hm]
    rfl
  have hcv : (s.link (.body h) i).counterValue = s.counterValue :=
    counterValue_congr hc fun _ _ => rfl
  have hmono : s.Mono S (s.link (.body h) i) := { Mono.refl S s with counter := hcv.ge }
  refine ⟨?_, rfl, hmono, ?_⟩
  · exact
    { hI with
      linked := by
        intro q j hj
        by_cases hq : q = .body h
        · subst hq
          apply hi
          rwa [link_files_self] at hj
        · rw [link_files_of_ne hq] at hj
          apply hI.linked q j hj
      free := by
        intro l hlf
        have hlh : l ≠ h := by
          rintro rfl
          cases hl.symm.trans hlf
        exact (hv l hlh).trans (hI.free l hlf)
      held := by
        intro l t' ht'
        by_cases hlh : l = h
        · subst hlh
          obtain rfl : t = t' := Option.some.inj (hl.symm.trans ht')
          constructor
          · rw [link_files_self]
            exact hbody
          · rw [hm]
            exact (hI.held l t ht').info
        · exact (hI.held l t' ht').congr (hb l hlh) (hm l) rfl (fun _ _ => rfl) (fun _ r h => ⟨r, h, rfl, rfl⟩)
      infos := fun l i g m hi hd => (hI.infos l i g m hi hd).congr rfl rfl rfl rfl
      view_paired := by
        intro hf l
        by_cases hlh : l = h
        · subst hlh
          rw [hvh]
          apply hpair hf
        · rw [hv l hlh]
          apply hI.view_paired hf l
      counter := by
        rw [hc]
        exact hI.counter
      counter_le := by
        rw [hcv]
        exact hI.counter_le
      disk_lt_counter := by
        rw [hcv]
        exact hI.disk_lt_counter
      published_lt := by
        rw [hcv]
        exact hI.published_lt }
  · intro t' ht'
    exact
    { Rely.refl S t' s with
      mono := hmono
      files := by
        intro q _ hq
        apply link_files_of_ne
        rintro rfl
        apply ht'
        exact Option.some.inj (hq.symm.trans hl) }

/-- Give or take away the name of the metadata of an entry, under its lock. -/
theorem moves_link_info
    {h : String} {i : Option ℕ} (hI : s.Inv S) (hl : s.metaLocks h = some t)
    (hinfo : i = none ∨ i = (s.slot h).info)
    (hpair : s.faulted = false → s.Paired { s.view h with info := i }) :
  Moves S t s (s.link (.metaJson h) i)
  := by
  have hb : ∀ l, (s.link (.metaJson h) i).files (.body l) = s.files (.body l) := by
    intro l
    apply link_files_of_ne
    simp
  have hm : ∀ l, l ≠ h → (s.link (.metaJson h) i).files (.metaJson l) = s.files (.metaJson l) := by
    intro l hlh
    apply link_files_of_ne
    simpa using hlh
  have hc : (s.link (.metaJson h) i).files .fillIdCounter = s.files .fillIdCounter := by
    apply link_files_of_ne
    simp
  have hv : ∀ l, l ≠ h → (s.link (.metaJson h) i).view l = s.view l :=
    fun l hlh => view_congr (hb l) (hm l hlh) rfl
  have hvh : (s.link (.metaJson h) i).view h = { s.view h with info := i } := by
    rw [view, link_files_self, hb]
    rfl
  have hcv : (s.link (.metaJson h) i).counterValue = s.counterValue :=
    counterValue_congr hc fun _ _ => rfl
  have hmono : s.Mono S (s.link (.metaJson h) i) := { Mono.refl S s with counter := hcv.ge }
  refine ⟨?_, rfl, hmono, ?_⟩
  · exact
    { hI with
      linked := by
        intro q j hj
        by_cases hq : q = .metaJson h
        · subst hq
          rw [link_files_self] at hj
          subst hj
          obtain hn | hs := hinfo
          · cases hn
          · apply hI.slot_info_lt h j hs.symm
        · rw [link_files_of_ne hq] at hj
          apply hI.linked q j hj
      free := by
        intro l hlf
        have hlh : l ≠ h := by
          rintro rfl
          cases hl.symm.trans hlf
        exact (hv l hlh).trans (hI.free l hlf)
      held := by
        intro l t' ht'
        by_cases hlh : l = h
        · subst hlh
          obtain rfl : t = t' := Option.some.inj (hl.symm.trans ht')
          constructor
          · rw [hb]
            exact (hI.held l t ht').body
          · rw [link_files_self]
            exact hinfo
        · exact (hI.held l t' ht').congr (hb l) (hm l hlh) rfl (fun _ _ => rfl) (fun _ r h => ⟨r, h, rfl, rfl⟩)
      infos := fun l i g m hi hd => (hI.infos l i g m hi hd).congr rfl rfl rfl rfl
      view_paired := by
        intro hf l
        by_cases hlh : l = h
        · subst hlh
          rw [hvh]
          apply hpair hf
        · rw [hv l hlh]
          apply hI.view_paired hf l
      counter := by
        rw [hc]
        exact hI.counter
      counter_le := by
        rw [hcv]
        exact hI.counter_le
      disk_lt_counter := by
        rw [hcv]
        exact hI.disk_lt_counter
      published_lt := by
        rw [hcv]
        exact hI.published_lt }
  · intro t' ht'
    exact
    { Rely.refl S t' s with
      mono := hmono
      files := by
        intro q _ hq
        apply link_files_of_ne
        rintro rfl
        apply ht'
        exact Option.some.inj (hq.symm.trans hl) }

/-! ### What an entry is left with -/

/-- Set the files that an entry is left with. -/
def setSlot (s : DiskCache E) (h : String) (v : View) : DiskCache E :=
  { s with slot := Function.update s.slot h v }

theorem setSlot_slot_of_ne
    {h l : String} {v : View} (hl : l ≠ h) :
  (s.setSlot h v).slot l = s.slot l
  := Function.update_of_ne hl _ _

@[simp]
theorem setSlot_slot_self (h : String) (v : View) :
  (s.setSlot h v).slot h = v
  := Function.update_self _ _ _

/-- A fill that is being published is not barred, unless its generation has wrapped
around. -/
theorem Publishing.not_barred
    {f : ℕ} {h : String} {r r' : Fill E} (hI : s.Inv S) (hw : s.wrapped = false)
    (hp : s.Publishing t f h r) :
  ¬ s.Barred f r'
  := by
  obtain ⟨hf, _, hfin, _, _, hgen⟩ := hp
  rintro ⟨hf', hbar⟩
  obtain rfl : r = r' := Option.some.inj (hf.symm.trans hf')
  obtain hfin' | hlt := hbar
  · rw [hfin] at hfin'
    cases hfin'
  · have hub := hI.unwrapped hw f r hf hfin
    have hmod : (s.entries r.entry).bumps % 2 ^ 64 = r.bumps₀ % 2 ^ 64 := by
      have := congrArg UInt64.toNat hgen
      simpa [FillEntry.generation] using this
    omega

/-- Leave an entry with other files, under its lock: the body that it had, or that is
being published, and the metadata that it had. -/
theorem moves_setSlot
    {h : String} {v : View} (hI : s.Inv S) (hl : s.metaLocks h = some t)
    (hp : v.poisoned = (s.slot h).poisoned)
    (hb : v.body = none ∨ v.body = (s.slot h).body ∨ ∃ j f b r, v.body = some j ∧
      j < s.nextIno ∧ s.data j = .body f b ∧ s.Publishing t f h r ∧ S.BodyOk r.born r.key b)
    (hi : v.info = none ∨ v.info = (s.slot h).info)
    (hfb : s.files (.body h) = none ∨ s.files (.body h) = v.body)
    (hfi : s.files (.metaJson h) = none ∨ s.files (.metaJson h) = v.info)
    (hpair : s.faulted = false → s.Paired v) :
  Moves S t s (s.setSlot h v)
  := by
  have hinfo : ∀ l i, ((s.setSlot h v).slot l).info = some i → (s.slot l).info = some i := by
    intro l i hli
    by_cases hlh : l = h
    · subst hlh
      rw [setSlot_slot_self] at hli
      obtain hn | hs := hi
      · rw [hn] at hli
        cases hli
      · rw [← hs, hli]
    · rwa [setSlot_slot_of_ne hlh] at hli
  have hfenced : s.wrapped = false → ∀ f, s.Fenced f → (s.setSlot h v).Fenced f := by
    rintro hw f ⟨r, hr, htrace⟩
    refine ⟨r, hr, ?_⟩
    by_cases hlh : r.key.hash = h
    · rw [hlh, setSlot_slot_self]
      rw [hlh] at htrace
      obtain hpois | ⟨hnb, hni⟩ := htrace
      · left
        rw [hp, hpois]
      · right
        constructor
        · intro i b hvb hd
          obtain hn | hs | ⟨j, f', b', r', hvj, _, hdj, hpub, _⟩ := hb
          · rw [hn] at hvb
            cases hvb
          · rw [hs] at hvb
            apply hnb i b hvb hd
          · obtain rfl : j = i := Option.some.inj (hvj.symm.trans hvb)
            obtain ⟨rfl, rfl⟩ : f' = f ∧ b' = b := by simpa using hdj.symm.trans hd
            apply hpub.not_barred hI hw hr
        · intro i m hvi hd
          obtain hn | hs := hi
          · rw [hn] at hvi
            cases hvi
          · rw [hs] at hvi
            apply hni i m hvi hd
    · rw [setSlot_slot_of_ne hlh]
      exact htrace
  have hmono : s.Mono S (s.setSlot h v) := { Mono.refl S s with fenced := hfenced }
  refine ⟨?_, rfl, hmono, ?_⟩
  · exact
    { hI with
      slot_body_lt := by
        intro l i hli
        by_cases hlh : l = h
        · subst hlh
          rw [setSlot_slot_self] at hli
          obtain hn | hs | ⟨j, _, _, _, hvj, hj, _⟩ := hb
          · rw [hn] at hli
            cases hli
          · apply hI.slot_body_lt l i
            rw [← hs, hli]
          · obtain rfl : j = i := Option.some.inj (hvj.symm.trans hli)
            exact hj
        · rw [setSlot_slot_of_ne hlh] at hli
          apply hI.slot_body_lt l i hli
      slot_info_lt := fun l i hli => hI.slot_info_lt l i (hinfo l i hli)
      poisoned := by
        intro l
        by_cases hlh : l = h
        · subst hlh
          rw [setSlot_slot_self, hp]
          apply hI.poisoned
        · rw [setSlot_slot_of_ne hlh]
          apply hI.poisoned
      free := by
        intro l hlf
        have hlh : l ≠ h := by
          rintro rfl
          cases hl.symm.trans hlf
        rw [setSlot_slot_of_ne hlh]
        apply hI.free l hlf
      held := by
        intro l t' ht'
        by_cases hlh : l = h
        · subst hlh
          obtain rfl : t = t' := Option.some.inj (hl.symm.trans ht')
          constructor
          · rw [setSlot_slot_self]
            obtain hn | hs := hfb
            · left
              exact hn
            · right; left
              exact hs
          · rw [setSlot_slot_self]
            exact hfi
        · exact (hI.held l t' ht').congr rfl rfl (setSlot_slot_of_ne hlh) (fun _ _ => rfl)
            (fun _ r h => ⟨r, h, rfl, rfl⟩)
      bodies := by
        intro l i hli
        by_cases hlh : l = h
        · subst hlh
          rw [setSlot_slot_self] at hli
          obtain hn | hs | ⟨j, f, b, r, hvj, _, hdj, hpub, hok⟩ := hb
          · rw [hn] at hli
            cases hli
          · apply hI.bodies l i
            rw [← hs, hli]
          · obtain rfl : j = i := Option.some.inj (hvj.symm.trans hli)
            obtain ⟨hf, _, _, hkey, _⟩ := hpub
            exact ⟨f, b, r, hdj, hf, hkey, hok⟩
        · rw [setSlot_slot_of_ne hlh] at hli
          apply hI.bodies l i hli
      infos := by
        intro l i g m hli hd
        exact (hI.infos l i g m (hinfo l i hli) hd).congr rfl rfl rfl rfl
      info_not_body := fun l i f b hli => hI.info_not_body l i f b (hinfo l i hli)
      slot_paired := by
        intro hf l
        by_cases hlh : l = h
        · subst hlh
          rw [setSlot_slot_self]
          apply hpair hf
        · rw [setSlot_slot_of_ne hlh]
          apply hI.slot_paired hf l
      quiet := by
        intro hf hd l hlf
        have hlh : l ≠ h := by
          rintro rfl
          cases hl.symm.trans hlf
        rw [setSlot_slot_of_ne hlh]
        apply hI.quiet hf hd l hlf
      ids_disk := fun l l' i i' g g' m m' hli hli' =>
        hI.ids_disk l l' i i' g g' m m' (hinfo l i hli) (hinfo l' i' hli')
      disk_lt_counter := fun hc l i g m hli => hI.disk_lt_counter hc l i g m (hinfo l i hli) }
  · intro t' ht'
    exact
    { Rely.refl S t' s with
      mono := hmono
      slot := by
        intro l _ hlt
        refine ⟨?_, rfl⟩
        apply setSlot_slot_of_ne
        rintro rfl
        apply ht'
        exact Option.some.inj (hlt.symm.trans hl) }

/-- Leave an entry with the files it has, under its lock. -/
theorem moves_leave
    {h : String} (hI : s.Inv S) (hl : s.metaLocks h = some t) :
  Moves S t s (s.leave h)
  := by
  have hprog := hI.held h t hl
  apply moves_setSlot hI hl
  · apply hI.poisoned
  · obtain hn | hs | ⟨i, f, b, r, hfi, hd, hpub, hok⟩ := hprog.body
    · left
      exact hn
    · right; left
      exact hs
    · right; right
      exact ⟨i, f, b, r, hfi, hI.linked _ i hfi, hd, hpub, hok⟩
  · exact hprog.info
  · right
    rfl
  · right
    rfl
  · intro hf
    apply hI.view_paired hf

end DiskCache

end TinyS3Proxy
