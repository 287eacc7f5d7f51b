import TinyS3Proxy.Cache.Locking

/-!
# The tracking of fills

Beginning a fill, finishing it, bumping the generation of a key and reserving a fill id
keep the invariant.
-/

namespace TinyS3Proxy

open Coop

namespace DiskCache

variable {E : Type} {S : Setting E} {t : ℕ} {s s' : DiskCache E}

/-- The metadata of an entry stays what it is when what is remembered about fills only
grows, and no fill is given the fill id of the entry. -/
theorem InfoAt.grow
    {l : String} {g : ℕ} {m : CacheMeta} (h : s.InfoAt S l g m)
    (hf : ∀ f r, s.fills f = some r → ∃ r', s'.fills f = some r' ∧ Grows r r')
    (hid : s.nextFillId ≤ s'.nextFillId) (hb : s'.bootFill = s.bootFill)
    (hw : s'.writes = s.writes)
    (hu : ∀ f r', s.bootFill ≤ f → s'.fills f = some r' → r'.fillId = some m.fillId →
      ∃ r, s.fills f = some r ∧ r.fillId = some m.fillId) :
  s'.InfoAt S l g m
  where
  fill := by
    obtain ⟨r, hr, hk, hid', hok⟩ := h.fill
    obtain ⟨r', hr', hg⟩ := hf g r hr
    use r', hr'
    rw [hg.key]
    exact ⟨hk, (hg.fillId _ hid').1, hok⟩
  id_lt := UInt64.lt_of_lt_of_le h.id_lt hid
  id_unique := by
    rw [hb]
    intro f r' hbf hr' hid'
    obtain ⟨r, hr, hid₀⟩ := hu f r' hbf hr' hid'
    exact h.id_unique f r hbf hr hid₀
  last := by
    rw [hw, hb]
    exact h.last

/-! ### Bumping a generation -/

theorem bumped_of_ne
    {e e' : ℕ} (he : e' ≠ e) :
  (s.bumped e).entries e' = s.entries e'
  := setEntry_of_ne he

theorem bumped_self (s : DiskCache E) (e : ℕ) :
  (s.bumped e).entries e = { s.entries e with bumps := (s.entries e).bumps + 1 }
  := setEntry_self e _

/-- Bump the generation of a tracking record, under its commit lock, by a task that has
no new body in place. -/
theorem moves_bump
    {e : ℕ} (hI : s.Inv S) (he : e < s.nextEntry) (hc : (s.entries e).commitLock = some t)
    (hn : ∀ l, s.metaLocks l = some t →
      s.files (.body l) = none ∨ s.files (.body l) = (s.slot l).body) :
  Moves S t s (s.bumped e)
  := by
  have hne : ∀ e', e' ≠ e → (s.bumped e).entries e' = s.entries e' :=
    fun e' h => bumped_of_ne h
  have hself := bumped_self s e
  have hlive : ∀ e', ((s.bumped e).entries e').live = (s.entries e').live := by
    intro e'
    by_cases h : e' = e
    · rw [h, hself]
    · rw [hne e' h]
  have href : ∀ e', ((s.bumped e).entries e').refcount = (s.entries e').refcount := by
    intro e'
    by_cases h : e' = e
    · rw [h, hself]
    · rw [hne e' h]
  have hb : ∀ e', (s.entries e').bumps ≤ ((s.bumped e).entries e').bumps := by
    intro e'
    by_cases h : e' = e
    · rw [h, hself]
      exact Nat.le_succ _
    · rw [hne e' h]
  have hmono : s.Mono S (s.bumped e) :=
    { Mono.refl S s with
      bumps := hb
      wrapped := by
        intro h
        simp [bumped, h]
      fenced := by
        rintro _ f ⟨r, ⟨hf, hbar⟩, htrace⟩
        refine ⟨r, ⟨hf, ?_⟩, htrace⟩
        obtain hfin | hlt := hbar
        · left
          exact hfin
        · right
          exact hlt.trans_le (hb _) }
  refine ⟨?_, rfl, hmono, ?_⟩
  · exact
    { hI with
      entry_new := by
        intro e' he'
        rw [hne e' (he.trans_le he').ne']
        apply hI.entry_new e' he'
      live := by
        intro e' f
        rw [hlive]
        apply hI.live
      refcount := by
        intro e'
        rw [href, hlive]
        apply hI.refcount
      bumps := fun f r hf hfin => (hI.bumps f r hf hfin).trans (hb _)
      unwrapped := by
        intro hw f r hf hfin
        have hw' : s.wrapped = false ∧ s.wraps e = false := by simpa [bumped] using hw
        by_cases hre : r.entry = e
        · have hlv : f ∈ (s.entries e).live := (hI.live e f).mpr ⟨r, hf, hre, hfin⟩
          have hnw := hw'.2
          rw [wraps, decide_eq_false_iff_not] at hnw
          rw [hre, hself]
          by_contra hge
          exact hnw ⟨f, hlv, r, hf, not_lt.mp hge⟩
        · rw [hne _ hre]
          apply hI.unwrapped hw'.1 f r hf hfin
      held := by
        intro l t' ht'
        have hprog := hI.held l t' ht'
        refine ⟨?_, hprog.info⟩
        obtain h₁ | h₂ | ⟨i, f, b, r, hfi, hd, hpub, hok⟩ := hprog.body
        · left
          exact h₁
        · right; left
          exact h₂
        · by_cases htt : t' = t
          · subst htt
            obtain h₁ | h₂ := hn l ht'
            · left
              exact h₁
            · right; left
              exact h₂
          · right; right
            obtain ⟨hf, ho, hfin, hk, hcl, hg⟩ := hpub
            have hre : r.entry ≠ e := by
              intro h
              rw [h, hc] at hcl
              exact htt (Option.some.inj hcl).symm
            refine ⟨i, f, b, r, hfi, hd, ⟨hf, ho, hfin, hk, ?_, ?_⟩, hok⟩
            · rw [hne _ hre]
              exact hcl
            · rw [hne _ hre]
              exact hg
      infos := fun l i g m hi hd => (hI.infos l i g m hi hd).congr rfl rfl rfl rfl }
  · intro t' ht'
    exact
    { Rely.refl S t' s with
      mono := hmono
      commitLock := by
        intro e' he'
        have hee : e' ≠ e := by
          rintro rfl
          exact ht' (Option.some.inj (he'.symm.trans hc))
        rw [hne e' hee]
        exact he'
      bumps := by
        intro e' _ he'
        have hee : e' ≠ e := by
          rintro rfl
          exact ht' (Option.some.inj (he'.symm.trans hc))
        rw [hne e' hee] }

/-! ### Beginning a fill -/

/-- Find or create the tracking record of a key. -/
theorem moves_orInsert
    (key : CacheKey) (hI : s.Inv S) :
  Moves S t s (s.orInsert key).2 ∧
    (s.orInsert key).2.activeFills key = some (s.orInsert key).1 ∧
    (s.orInsert key).2.nextFill = s.nextFill ∧ (s.orInsert key).2.fills = s.fills
  := by
  cases hk : s.activeFills key with
  | some e =>
      have heq : s.orInsert key = (e, s) := by simp [orInsert, hk]
      rw [heq]
      exact ⟨Moves.refl hI, hk, rfl, rfl⟩
  | none =>
      have hent : (s.setEntry s.nextEntry ⟨0, 0, none, ∅⟩).entries = s.entries := by
        rw [setEntry, ← hI.entry_new s.nextEntry le_rfl]
        exact Function.update_eq_self _ _
      have heq : s.orInsert key =
          (s.nextEntry,
            { s with
              activeFills := Function.update s.activeFills key (some s.nextEntry)
              nextEntry := s.nextEntry + 1 }) := by
        simp only [orInsert, hk]
        congr 1
        rw [← hent]
        rfl
      have hmono : s.Mono S
          { s with
            activeFills := Function.update s.activeFills key (some s.nextEntry)
            nextEntry := s.nextEntry + 1 } :=
        { Mono.refl S s with nextEntry := Nat.le_succ _ }
      rw [heq]
      refine ⟨⟨?_, rfl, hmono, ?_⟩, Function.update_self _ _ _, rfl, rfl⟩
      · exact
        { hI with
          fill_lt := fun f r hf => ⟨(hI.fill_lt f r hf).1, Nat.lt_succ_of_lt (hI.fill_lt f r hf).2⟩
          active_lt := by
            intro k e he
            by_cases hkk : k = key
            · subst hkk
              have he' : s.nextEntry = e := by simpa using he
              exact Nat.lt_succ_of_le he'.ge
            · have he' : s.activeFills k = some e := by simpa [hkk] using he
              exact Nat.lt_succ_of_lt (hI.active_lt k e he')
          entry_new := fun e he => hI.entry_new e (Nat.le_of_succ_le he)
          active := by
            intro f r hf hfin
            obtain ⟨hact, hboot⟩ := hI.active f r hf hfin
            refine ⟨?_, hboot⟩
            have hkk : r.key ≠ key := by
              intro h
              rw [h, hk] at hact
              cases hact
            simpa [hkk] using hact
          held := fun l t' ht => (hI.held l t' ht).congr rfl rfl rfl (fun _ _ => rfl)
            (fun _ r h => ⟨r, h, rfl, rfl⟩)
          infos := fun l i g m hi hd => (hI.infos l i g m hi hd).congr rfl rfl rfl rfl }
      · intro t' _
        exact { Rely.refl S t' s with mono := hmono }

theorem setFill_of_ne
    {f f' : ℕ} {x : Fill E} (h : f' ≠ f) :
  (s.setFill f x).fills f' = s.fills f'
  := Function.update_of_ne h _ _

@[simp]
theorem setFill_self (f : ℕ) (x : Fill E) :
  (s.setFill f x).fills f = some x
  := Function.update_self _ _ _

/-- Register a fill at the tracking record of its key. -/
theorem moves_register
    {key : CacheKey} {e u : ℕ} (hI : s.Inv S) (hk : s.activeFills key = some e) :
  Moves S u s (s.register t key e)
  := by
  have hfresh : s.fills s.nextFill = none := by
    cases h : s.fills s.nextFill with
    | none => rfl
    | some r => exact absurd (hI.fill_lt _ r h).1 (lt_irrefl _)
  have hlt : ∀ f r, s.fills f = some r → f ≠ s.nextFill :=
    fun f r hf => (hI.fill_lt f r hf).1.ne
  have hfills : ∀ f, f ≠ s.nextFill → (s.register t key e).fills f = s.fills f :=
    fun f hf => setFill_of_ne hf
  have hnew : (s.register t key e).fills s.nextFill =
      some ⟨key, e, (s.entries e).bumps, s.env, some t, false, none, 0⟩ := setFill_self _ _
  have hent : ∀ e', e' ≠ e → (s.register t key e).entries e' = s.entries e' :=
    fun e' h => setEntry_of_ne h
  have hself : (s.register t key e).entries e =
      { s.entries e with
        refcount := (s.entries e).refcount + 1
        live := insert s.nextFill (s.entries e).live } := setEntry_self e _
  have hbumps : ∀ e', ((s.register t key e).entries e').bumps = (s.entries e').bumps := by
    intro e'
    by_cases h : e' = e
    · rw [h, hself]
    · rw [hent e' h]
  have hlock : ∀ e', ((s.register t key e).entries e').commitLock = (s.entries e').commitLock := by
    intro e'
    by_cases h : e' = e
    · rw [h, hself]
    · rw [hent e' h]
  have hgrow : ∀ f r, s.fills f = some r →
      ∃ r', (s.register t key e).fills f = some r' ∧ Grows r r' :=
    fun f r hf => ⟨r, (hfills f (hlt f r hf)).trans hf, Grows.refl r⟩
  have hold : ∀ f r, (s.register t key e).fills f = some r → f ≠ s.nextFill →
      s.fills f = some r := fun f r hf hne => (hfills f hne).symm.trans hf
  have hmono : s.Mono S (s.register t key e) :=
    { Mono.refl S s with
      fills := hgrow
      fresh := by
        intro f r hf hf₀
        by_cases hff : f = s.nextFill
        · subst hff
          obtain rfl := Option.some.inj (hnew.symm.trans hf)
          exact S.later_refl _
        · rw [hold f r hf hff] at hf₀
          cases hf₀
      ids := by
        intro f r n hf hn
        by_cases hff : f = s.nextFill
        · subst hff
          obtain rfl := Option.some.inj (hnew.symm.trans hf)
          cases hn
        · exact Or.inr ⟨r, hold f r hf hff, hn⟩
      bumps := fun e' => (hbumps e').ge
      fenced := by
        rintro _ f ⟨r, ⟨hf, hbar⟩, htrace⟩
        refine ⟨r, ⟨(hfills f (hlt f r hf)).trans hf, ?_⟩, htrace⟩
        rw [hbumps]
        exact hbar }
  refine ⟨?_, rfl, hmono, ?_⟩
  · exact
    { hI with
      fill_lt := by
        intro f r hf
        by_cases hff : f = s.nextFill
        · subst hff
          obtain rfl := Option.some.inj (hnew.symm.trans hf)
          exact ⟨Nat.lt_succ_self _, hI.active_lt key e hk⟩
        · obtain ⟨h₁, h₂⟩ := hI.fill_lt f r (hold f r hf hff)
          exact ⟨Nat.lt_succ_of_lt h₁, h₂⟩
      boot_fill := Nat.le_succ_of_le hI.boot_fill
      entry_new := by
        intro e' he'
        rw [hent e' ((hI.active_lt key e hk).trans_le he').ne']
        apply hI.entry_new e' he'
      live := by
        intro e' f
        by_cases hff : f = s.nextFill
        · subst hff
          rw [hnew]
          by_cases hee : e' = e
          · subst hee
            rw [hself]
            simp
          · rw [hent e' hee, hI.live]
            simp [hfresh, Ne.symm hee]
        · rw [hfills f hff, ← hI.live]
          by_cases hee : e' = e
          · subst hee
            rw [hself]
            simp [hff]
          · rw [hent e' hee]
      active := by
        intro f r hf hfin
        by_cases hff : f = s.nextFill
        · subst hff
          obtain rfl := Option.some.inj (hnew.symm.trans hf)
          exact ⟨hk, hI.boot_fill⟩
        · exact hI.active f r (hold f r hf hff) hfin
      refcount := by
        intro e'
        by_cases hee : e' = e
        · subst hee
          rw [hself]
          have hnot : s.nextFill ∉ (s.entries e').live := by
            rw [hI.live, hfresh]
            simp
          rw [Finset.card_insert_of_notMem hnot, hI.refcount]
        · rw [hent e' hee]
          apply hI.refcount
      bumps := by
        intro f r hf hfin
        rw [hbumps]
        by_cases hff : f = s.nextFill
        · subst hff
          obtain rfl := Option.some.inj (hnew.symm.trans hf)
          exact le_rfl
        · exact hI.bumps f r (hold f r hf hff) hfin
      unwrapped := by
        intro hw f r hf hfin
        rw [hbumps]
        by_cases hff : f = s.nextFill
        · subst hff
          obtain rfl := Option.some.inj (hnew.symm.trans hf)
          exact Nat.lt_add_of_pos_right (by decide)
        · exact hI.unwrapped hw f r (hold f r hf hff) hfin
      held := by
        intro l t' ht'
        refine (hI.held l t' ht').congr rfl rfl rfl (fun _ _ => rfl) ?_
        rintro f r ⟨hf, ho, hfin, hkey, hc, hg⟩
        refine ⟨r, ⟨(hfills f (hlt f r hf)).trans hf, ho, hfin, hkey, ?_, ?_⟩, rfl, rfl⟩
        · rw [hlock]
          exact hc
        · rw [FillEntry.generation, hbumps]
          exact hg
      bodies := fun l i hi => (hI.bodies l i hi).congr rfl hgrow
      infos := by
        intro l i g m hi hd
        refine (hI.infos l i g m hi hd).grow hgrow (UInt64.le_refl _) rfl rfl ?_
        intro f r' _ hf hid
        by_cases hff : f = s.nextFill
        · subst hff
          obtain rfl := Option.some.inj (hnew.symm.trans hf)
          cases hid
        · exact ⟨r', hold f r' hf hff, hid⟩
      ids_lt := by
        intro f r n hb hf hid
        by_cases hff : f = s.nextFill
        · subst hff
          obtain rfl := Option.some.inj (hnew.symm.trans hf)
          cases hid
        · exact hI.ids_lt f r n hb (hold f r hf hff) hid
      ids_inj := by
        intro f g r r' n hb hb' hf hg hid hid'
        by_cases hff : f = s.nextFill
        · subst hff
          obtain rfl := Option.some.inj (hnew.symm.trans hf)
          cases hid
        · by_cases hgg : g = s.nextFill
          · subst hgg
            obtain rfl := Option.some.inj (hnew.symm.trans hg)
            cases hid'
          · exact hI.ids_inj f g r r' n hb hb' (hold f r hf hff) (hold g r' hg hgg) hid hid'
      reserved := by
        intro f r n hf hid
        by_cases hff : f = s.nextFill
        · subst hff
          obtain rfl := Option.some.inj (hnew.symm.trans hf)
          cases hid
        · exact hI.reserved f r n (hold f r hf hff) hid
      published_id := by
        intro w hw
        obtain ⟨r, hr, hid⟩ := hI.published_id w hw
        exact ⟨r, (hfills _ (hlt _ r hr)).trans hr, hid⟩
      floating := by
        intro f r hf hfin ho
        by_cases hff : f = s.nextFill
        · subst hff
          obtain rfl := Option.some.inj (hnew.symm.trans hf)
          cases ho
        · exact hI.floating f r (hold f r hf hff) hfin ho
      owned := by
        intro f r u hf ho
        by_cases hff : f = s.nextFill
        · subst hff
          obtain rfl := Option.some.inj (hnew.symm.trans hf)
          rfl
        · exact hI.owned f r u (hold f r hf hff) ho }
  · intro t' ht'
    exact
    { Rely.refl S t' s with
      mono := hmono
      commitLock := fun e' he' => (hlock e').trans he'
      bumps := fun e' _ _ => hbumps e'
      fills := fun f r _ hf _ => (hfills f (hlt f r hf)).trans hf
      unwritten := fun f r _ _ _ h => h }

/-! ### Finishing a fill -/

/-- What finishing a fill does to the tracking records, the fills and the table. -/
theorem release_eq
    {f : ℕ} {r : Fill E} (hI : s.Inv S) (hf : s.fills f = some r) (hfin : r.finished = false) :
  s.release r.key f =
    { s with
      entries := Function.update s.entries r.entry
        { s.entries r.entry with
          refcount := (s.entries r.entry).refcount - 1
          live := (s.entries r.entry).live.erase f }
      fills := Function.update s.fills f (some { r with finished := true, owner := none })
      activeFills :=
        if (s.entries r.entry).refcount ≤ 1 then Function.update s.activeFills r.key none
        else s.activeFills }
  := by
  have hact := (hI.active f r hf hfin).1
  have hf₁ : (s.setEntry r.entry
      { s.entries r.entry with refcount := (s.entries r.entry).refcount - 1 }).fills f = some r := hf
  simp only [release, hact, retire, hf₁]
  simp only [setEntry, setFill, Function.update_self, Function.update_idem]
  split <;> rfl

/-- Finish a fill, by the task that owns it and that holds no metadata lock. -/
theorem moves_release
    {f : ℕ} {r : Fill E} (hI : s.Inv S) (hf : s.fills f = some r) (ho : r.owner = some t)
    (hfin : r.finished = false) (hidle : s.Idle t) :
  Moves S t s (s.release r.key f)
  := by
  rw [release_eq hI hf hfin]
  set s₁ : DiskCache E :=
    { s with
      entries := Function.update s.entries r.entry
        { s.entries r.entry with
          refcount := (s.entries r.entry).refcount - 1
          live := (s.entries r.entry).live.erase f }
      fills := Function.update s.fills f (some { r with finished := true, owner := none })
      activeFills :=
        if (s.entries r.entry).refcount ≤ 1 then Function.update s.activeFills r.key none
        else s.activeFills } with hs₁
  have hent : ∀ e', e' ≠ r.entry → s₁.entries e' = s.entries e' :=
    fun e' h => Function.update_of_ne h _ _
  have hself : s₁.entries r.entry =
      { s.entries r.entry with
        refcount := (s.entries r.entry).refcount - 1
        live := (s.entries r.entry).live.erase f } := Function.update_self _ _ _
  have hfills : ∀ f', f' ≠ f → s₁.fills f' = s.fills f' :=
    fun f' h => Function.update_of_ne h _ _
  have hdone : s₁.fills f = some { r with finished := true, owner := none } :=
    Function.update_self _ _ _
  have hlive : f ∈ (s.entries r.entry).live := (hI.live _ _).mpr ⟨r, hf, rfl, hfin⟩
  have hbumps : ∀ e', (s₁.entries e').bumps = (s.entries e').bumps := by
    intro e'
    by_cases h : e' = r.entry
    · rw [h, hself]
    · rw [hent e' h]
  have hlock : ∀ e', (s₁.entries e').commitLock = (s.entries e').commitLock := by
    intro e'
    by_cases h : e' = r.entry
    · rw [h, hself]
    · rw [hent e' h]
  have hgrow : ∀ f' r', s.fills f' = some r' → ∃ r'', s₁.fills f' = some r'' ∧ Grows r' r'' := by
    intro f' r' hf'
    by_cases hff : f' = f
    · subst hff
      obtain rfl := Option.some.inj (hf.symm.trans hf')
      exact ⟨_, hdone, rfl, rfl, rfl, rfl, fun _ => rfl, fun _ h => ⟨h, rfl⟩⟩
    · exact ⟨r', (hfills f' hff).trans hf', Grows.refl r'⟩
  have hold : ∀ f' r', s₁.fills f' = some r' → r'.finished = false →
      f' ≠ f ∧ s.fills f' = some r' := by
    intro f' r' hf' hfin'
    have hne : f' ≠ f := by
      rintro rfl
      obtain rfl := Option.some.inj (hdone.symm.trans hf')
      cases hfin'
    exact ⟨hne, (hfills f' hne).symm.trans hf'⟩
  have hid : ∀ f' r' n, s₁.fills f' = some r' → r'.fillId = some n →
      ∃ r'', s.fills f' = some r'' ∧ r''.fillId = some n := by
    intro f' r' n hf' hn
    by_cases hff : f' = f
    · subst hff
      obtain rfl := Option.some.inj (hdone.symm.trans hf')
      exact ⟨r, hf, hn⟩
    · exact ⟨r', (hfills f' hff).symm.trans hf', hn⟩
  have hmono : s.Mono S s₁ :=
    { Mono.refl S s with
      fills := hgrow
      fresh := by
        intro f' r' hf' hf₀
        by_cases hff : f' = f
        · subst hff
          cases hf.symm.trans hf₀
        · rw [hfills f' hff, hf₀] at hf'
          cases hf'
      ids := fun f' r' n hf' hn => Or.inr (hid f' r' n hf' hn)
      bumps := fun e' => (hbumps e').ge
      fenced := by
        rintro _ f' ⟨r', ⟨hf', hbar⟩, htrace⟩
        by_cases hff : f' = f
        · subst hff
          obtain rfl := Option.some.inj (hf.symm.trans hf')
          exact ⟨_, ⟨hdone, Or.inl rfl⟩, htrace⟩
        · refine ⟨r', ⟨(hfills f' hff).trans hf', ?_⟩, htrace⟩
          rw [hbumps]
          exact hbar }
  refine ⟨?_, rfl, hmono, ?_⟩
  · exact
    { hI with
      fill_lt := by
        intro f' r' hf'
        by_cases hff : f' = f
        · subst hff
          obtain rfl := Option.some.inj (hdone.symm.trans hf')
          exact hI.fill_lt f' r hf
        · exact hI.fill_lt f' r' ((hfills f' hff).symm.trans hf')
      active_lt := by
        intro k e he
        apply hI.active_lt k e
        rw [hs₁] at he
        dsimp only at he
        split at he
        · by_cases hk : k = r.key
          · subst hk
            simp at he
          · simpa [hk] using he
        · exact he
      entry_new := by
        intro e' he'
        rw [hent e' ((hI.fill_lt f r hf).2.trans_le he').ne']
        apply hI.entry_new e' he'
      live := by
        intro e' f'
        by_cases hff : f' = f
        · subst hff
          rw [hdone]
          by_cases hee : e' = r.entry
          · subst hee
            rw [hself]
            simp
          · rw [hent e' hee, hI.live, hf]
            simp [Ne.symm hee]
        · rw [hfills f' hff, ← hI.live]
          by_cases hee : e' = r.entry
          · subst hee
            rw [hself]
            simp [hff]
          · rw [hent e' hee]
      active := by
        intro f' r' hf' hfin'
        obtain ⟨hne, hf₀⟩ := hold f' r' hf' hfin'
        obtain ⟨hact, hboot⟩ := hI.active f' r' hf₀ hfin'
        refine ⟨?_, hboot⟩
        rw [hs₁]
        dsimp only
        split
        next hle =>
          -- The record keeps the references of all other fills of the key.
          have hkey : r'.key ≠ r.key := by
            intro hk
            rw [hk, (hI.active f r hf hfin).1] at hact
            have hlive' : f' ∈ (s.entries r.entry).live :=
              (hI.live _ _).mpr ⟨r', hf₀, (Option.some.inj hact).symm, hfin'⟩
            have hcard := Finset.one_lt_card.mpr ⟨f', hlive', f, hlive, hne⟩
            rw [← hI.refcount] at hcard
            omega
          simpa [hkey] using hact
        next => exact hact
      refcount := by
        intro e'
        by_cases hee : e' = r.entry
        · subst hee
          rw [hself]
          dsimp only
          rw [Finset.card_erase_of_mem hlive, hI.refcount]
        · rw [hent e' hee]
          apply hI.refcount
      bumps := by
        intro f' r' hf' hfin'
        rw [hbumps]
        exact hI.bumps f' r' (hold f' r' hf' hfin').2 hfin'
      unwrapped := by
        intro hw f' r' hf' hfin'
        rw [hbumps]
        exact hI.unwrapped hw f' r' (hold f' r' hf' hfin').2 hfin'
      held := by
        intro l t' ht'
        refine (hI.held l t' ht').congr rfl rfl rfl (fun _ _ => rfl) ?_
        rintro f' r' ⟨hf', ho', hfin', hkey, hc, hg⟩
        have hne : f' ≠ f := by
          rintro rfl
          obtain rfl := Option.some.inj (hf.symm.trans hf')
          rw [ho] at ho'
          obtain rfl := Option.some.inj ho'
          exact hidle l ht'
        refine ⟨r', ⟨(hfills f' hne).trans hf', ho', hfin', hkey, ?_, ?_⟩, rfl, rfl⟩
        · rw [hlock]
          exact hc
        · rw [FillEntry.generation, hbumps]
          exact hg
      bodies := fun l i hi => (hI.bodies l i hi).congr rfl hgrow
      infos := by
        intro l i g m hi hd
        refine (hI.infos l i g m hi hd).grow hgrow (UInt64.le_refl _) rfl rfl ?_
        intro f' r' _ hf' hn
        exact hid f' r' _ hf' hn
      ids_lt := by
        intro f' r' n hb hf' hn
        obtain ⟨r'', hf'', hn'⟩ := hid f' r' n hf' hn
        exact hI.ids_lt f' r'' n hb hf'' hn'
      ids_inj := by
        intro f' g r' r'' n hb hb' hf' hg hn hn'
        obtain ⟨q, hq, hqn⟩ := hid f' r' n hf' hn
        obtain ⟨q', hq', hqn'⟩ := hid g r'' n hg hn'
        exact hI.ids_inj f' g q q' n hb hb' hq hq' hqn hqn'
      reserved := by
        intro f' r' n hf' hn
        by_cases hff : f' = f
        · subst hff
          obtain rfl := Option.some.inj (hdone.symm.trans hf')
          exact hI.reserved f' r n hf hn
        · exact hI.reserved f' r' n ((hfills f' hff).symm.trans hf') hn
      published_id := by
        intro w hw
        obtain ⟨r', hr', hn⟩ := hI.published_id w hw
        obtain ⟨r'', hr'', hg⟩ := hgrow _ r' hr'
        exact ⟨r'', hr'', (hg.fillId _ hn).1⟩
      floating := fun f' r' hf' hfin' ho' =>
        hI.floating f' r' (hold f' r' hf' hfin').2 hfin' ho'
      owned := by
        intro f' r' u hf' ho'
        by_cases hff : f' = f
        · subst hff
          obtain rfl := Option.some.inj (hdone.symm.trans hf')
          cases ho'
        · exact hI.owned f' r' u ((hfills f' hff).symm.trans hf') ho' }
  · intro t' ht'
    exact
    { Rely.refl S t' s with
      mono := hmono
      commitLock := fun e' he' => (hlock e').trans he'
      bumps := fun e' _ _ => hbumps e'
      fills := by
        intro f' r' _ hf' ho'
        have hne : f' ≠ f := by
          rintro rfl
          obtain rfl := Option.some.inj (hf.symm.trans hf')
          exact ht' (Option.some.inj (ho'.symm.trans ho))
        exact (hfills f' hne).trans hf'
      unwritten := fun _ _ _ _ _ h => h }

/-! ### Reserving a fill id -/

/-- Below the largest value, adding one does not wrap around. -/
theorem toNat_succ
    {n : UInt64} (hn : n ≠ UInt64.ofNat (2 ^ 64 - 1)) :
  (n + 1).toNat = n.toNat + 1
  := by
  have hlt := n.toNat_lt
  have hne : n.toNat ≠ 2 ^ 64 - 1 := by
    intro h
    apply hn
    rw [← h, UInt64.ofNat_toNat]
  rw [UInt64.toNat_add, UInt64.toNat_one]
  omega

/-- The record of a fill that has been given the next fill id. -/
def Fill.reserved (r : Fill E) (s : DiskCache E) : Fill E :=
  { r with fillId := some s.nextFillId, reservedAt := s.writes.length }

theorem taken_eq
    {f : ℕ} {r : Fill E} (hf : s.fills f = some r) :
  s.taken f =
    { s with
      fills := Function.update s.fills f (some (Fill.reserved r s))
      nextFillId := s.nextFillId + 1 }
  := by
  simp only [taken, reserve, hf, setFill, Fill.reserved]

/-- Reserve a fill id for a fill that has none, under the lock of the counter. -/
theorem moves_take
    {f : ℕ} {r : Fill E} (hI : s.Inv S) (hf : s.fills f = some r) (ho : r.owner = some t)
    (hn : r.fillId = none) (hp : s.fillIdPersistLock = some t)
    (hmax : s.nextFillId ≠ UInt64.ofNat (2 ^ 64 - 1)) :
  Moves S t s (s.taken f)
  := by
  rw [taken_eq hf]
  set s₁ : DiskCache E :=
    { s with
      fills := Function.update s.fills f
        (some { r with fillId := some s.nextFillId, reservedAt := s.writes.length })
      nextFillId := s.nextFillId + 1 } with hs₁
  have hsucc : s₁.nextFillId.toNat = s.nextFillId.toNat + 1 := toNat_succ hmax
  have hle : s.nextFillId ≤ s₁.nextFillId := by
    rw [UInt64.le_iff_toNat_le, hsucc]
    exact Nat.le_succ _
  have hlt : s.nextFillId < s₁.nextFillId := by
    rw [UInt64.lt_iff_toNat_lt, hsucc]
    exact Nat.lt_succ_self _
  have hfills : ∀ f', f' ≠ f → s₁.fills f' = s.fills f' :=
    fun f' h => Function.update_of_ne h _ _
  have hnew : s₁.fills f =
      some { r with fillId := some s.nextFillId, reservedAt := s.writes.length } :=
    Function.update_self _ _ _
  have hgrow : ∀ f' r', s.fills f' = some r' → ∃ r'', s₁.fills f' = some r'' ∧ Grows r' r'' := by
    intro f' r' hf'
    by_cases hff : f' = f
    · subst hff
      obtain rfl := Option.some.inj (hf.symm.trans hf')
      refine ⟨_, hnew, rfl, rfl, rfl, rfl, fun h => h, ?_⟩
      intro n hn'
      rw [hn] at hn'
      cases hn'
    · exact ⟨r', (hfills f' hff).trans hf', Grows.refl r'⟩
  -- The records agree, except for the fill id of `f`.
  have hback : ∀ f' r', s₁.fills f' = some r' → ∃ r'', s.fills f' = some r'' ∧
      r'.key = r''.key ∧ r'.entry = r''.entry ∧ r'.bumps₀ = r''.bumps₀ ∧ r'.born = r''.born ∧
      r'.owner = r''.owner ∧ r'.finished = r''.finished ∧
      (r'.fillId = r''.fillId ∨ f' = f ∧ r'.fillId = some s.nextFillId) := by
    intro f' r' hf'
    by_cases hff : f' = f
    · subst hff
      obtain rfl := Option.some.inj (hnew.symm.trans hf')
      exact ⟨r, hf, rfl, rfl, rfl, rfl, rfl, rfl, Or.inr ⟨rfl, rfl⟩⟩
    · exact ⟨r', (hfills f' hff).symm.trans hf', rfl, rfl, rfl, rfl, rfl, rfl, Or.inl rfl⟩
  have hmono : s.Mono S s₁ :=
    { Mono.refl S s with
      fills := hgrow
      fresh := by
        intro f' r' hf' hf₀
        obtain ⟨r'', hr'', _⟩ := hback f' r' hf'
        rw [hr''] at hf₀
        cases hf₀
      ids := by
        intro f' r' n hf' hn'
        obtain ⟨r'', hr'', _, _, _, _, _, _, he | ⟨_, he⟩⟩ := hback f' r' hf'
        · exact Or.inr ⟨r'', hr'', he.symm.trans hn'⟩
        · left
          obtain rfl := Option.some.inj (he.symm.trans hn')
          exact UInt64.le_refl _
      fenced := by
        rintro _ f' ⟨r', ⟨hf', hbar⟩, htrace⟩
        obtain ⟨r'', hr'', hg⟩ := hgrow f' r' hf'
        refine ⟨r'', ⟨hr'', ?_⟩, ?_⟩
        · rw [hg.bumps₀, hg.entry]
          exact hbar.imp hg.finished id
        · rw [hg.key]
          exact htrace
      nextFillId := hle }
  refine ⟨?_, rfl, hmono, ?_⟩
  · exact
    { hI with
      fill_lt := by
        intro f' r' hf'
        obtain ⟨r'', hr'', _, he, _⟩ := hback f' r' hf'
        rw [he]
        exact hI.fill_lt f' r'' hr''
      live := by
        intro e' f'
        rw [hI.live]
        constructor
        · rintro ⟨r', hf', he, hfin⟩
          obtain ⟨r'', hr'', hg⟩ := hgrow f' r' hf'
          obtain ⟨q, hq, _, _, _, _, _, hqf, _⟩ := hback f' r'' hr''
          obtain rfl := Option.some.inj (hf'.symm.trans hq)
          exact ⟨r'', hr'', hg.entry.trans he, hqf.trans hfin⟩
        · rintro ⟨r', hf', he, hfin⟩
          obtain ⟨q, hq, _, hqe, _, _, _, hqf, _⟩ := hback f' r' hf'
          exact ⟨q, hq, hqe.symm.trans he, hqf.symm.trans hfin⟩
      active := by
        intro f' r' hf' hfin
        obtain ⟨q, hq, hk, he, _, _, _, hqf, _⟩ := hback f' r' hf'
        rw [hk, he]
        exact hI.active f' q hq (hqf.symm.trans hfin)
      bumps := by
        intro f' r' hf' hfin
        obtain ⟨q, hq, _, he, hb, _, _, hqf, _⟩ := hback f' r' hf'
        rw [he, hb]
        exact hI.bumps f' q hq (hqf.symm.trans hfin)
      unwrapped := by
        intro hw f' r' hf' hfin
        obtain ⟨q, hq, _, he, hb, _, _, hqf, _⟩ := hback f' r' hf'
        rw [he, hb]
        exact hI.unwrapped hw f' q hq (hqf.symm.trans hfin)
      held := by
        intro l t' ht'
        refine (hI.held l t' ht').congr rfl rfl rfl (fun _ _ => rfl) ?_
        rintro f' r' ⟨hf', ho', hfin', hkey, hc, hg⟩
        obtain ⟨r'', hr'', hgr⟩ := hgrow f' r' hf'
        obtain ⟨q, hq, _, _, _, _, hqo, hqf, _⟩ := hback f' r'' hr''
        obtain rfl := Option.some.inj (hf'.symm.trans hq)
        refine ⟨r'', ⟨hr'', hqo.trans ho', hqf.trans hfin', ?_, ?_, ?_⟩, hgr.born, hgr.key⟩
        · rw [hgr.key]
          exact hkey
        · rw [hgr.entry]
          exact hc
        · rw [hgr.entry, hgr.bumps₀]
          exact hg
      bodies := fun l i hi => (hI.bodies l i hi).congr rfl hgrow
      infos := by
        intro l i g m hi hd
        have hinfo := hI.infos l i g m hi hd
        refine hinfo.grow hgrow hle rfl rfl ?_
        intro f' r' _ hf' hid
        obtain ⟨q, hq, _, _, _, _, _, _, hqid⟩ := hback f' r' hf'
        obtain hqid | ⟨_, hqid⟩ := hqid
        · exact ⟨q, hq, hqid.symm.trans hid⟩
        · -- The new fill id is above all that are on disk.
          have hlt' := hinfo.id_lt
          rw [Option.some.inj (hqid.symm.trans hid)] at hlt'
          exact absurd hlt' (UInt64.lt_irrefl _)
      ids_pos := UInt64.lt_of_lt_of_le hI.ids_pos hle
      ids_lt := by
        intro f' r' n hb hf' hid
        obtain ⟨q, hq, _, _, _, _, _, _, hqid⟩ := hback f' r' hf'
        obtain hqid | ⟨_, hqid⟩ := hqid
        · exact UInt64.lt_of_lt_of_le (hI.ids_lt f' q n hb hq (hqid.symm.trans hid)) hle
        · rw [← Option.some.inj (hqid.symm.trans hid)]
          exact hlt
      ids_inj := by
        intro f' g r' r'' n hb hb' hf' hg hid hid'
        obtain ⟨q, hq, _, _, _, _, _, _, hqid⟩ := hback f' r' hf'
        obtain ⟨q', hq', _, _, _, _, _, _, hqid'⟩ := hback g r'' hg
        obtain hqid | ⟨hff, hqid⟩ := hqid
        · obtain hqid' | ⟨_, hqid'⟩ := hqid'
          · exact hI.ids_inj f' g q q' n hb hb' hq hq' (hqid.symm.trans hid)
              (hqid'.symm.trans hid')
          · have hlt' := hI.ids_lt f' q n hb hq (hqid.symm.trans hid)
            rw [Option.some.inj (hqid'.symm.trans hid')] at hlt'
            exact absurd hlt' (UInt64.lt_irrefl _)
        · obtain hqid' | ⟨hgf, _⟩ := hqid'
          · have hlt' := hI.ids_lt g q' n hb' hq' (hqid'.symm.trans hid')
            rw [Option.some.inj (hqid.symm.trans hid)] at hlt'
            exact absurd hlt' (UInt64.lt_irrefl _)
          · rw [hff, hgf]
      counter_le := by
        rw [hsucc]
        exact Nat.le_succ_of_le hI.counter_le
      reserved := by
        intro f' r' n hf' hid
        by_cases hff : f' = f
        · subst hff
          obtain rfl := Option.some.inj (hnew.symm.trans hf')
          obtain rfl := Option.some.inj hid
          refine ⟨le_rfl, ?_⟩
          intro j w arg hj _ hw hkind
          rw [UInt64.lt_iff_toNat_lt]
          exact (hI.published_lt j w arg hj hw hkind).trans_le hI.counter_le
        · exact hI.reserved f' r' n ((hfills f' hff).symm.trans hf') hid
      published_id := by
        intro w hw
        obtain ⟨r', hr', hid⟩ := hI.published_id w hw
        obtain ⟨r'', hr'', hg⟩ := hgrow _ r' hr'
        exact ⟨r'', hr'', (hg.fillId _ hid).1⟩
      floating := by
        intro f' r' hf' hfin ho'
        obtain ⟨q, hq, _, _, _, _, hqo, hqf, _⟩ := hback f' r' hf'
        exact hI.floating f' q hq (hqf.symm.trans hfin) (hqo.symm.trans ho')
      owned := by
        intro f' r' u hf' ho'
        obtain ⟨q, hq, _, _, _, _, hqo, hqf, _⟩ := hback f' r' hf'
        exact hqf.trans (hI.owned f' q u hq (hqo.symm.trans ho')) }
  · intro t' ht'
    exact
    { Rely.refl S t' s with
      mono := hmono
      persistLock := fun h => absurd (Option.some.inj (h.symm.trans hp)) ht'
      fills := by
        intro f' r' _ hf' ho'
        have hne : f' ≠ f := by
          rintro rfl
          obtain rfl := Option.some.inj (hf.symm.trans hf')
          exact ht' (Option.some.inj (ho'.symm.trans ho))
        exact (hfills f' hne).trans hf'
      unwritten := fun _ _ _ _ _ h => h }

/-! ### Handing a guard over -/

/-- Set the task that holds the guard of a fill. -/
def setOwner (s : DiskCache E) (f : ℕ) (r : Fill E) (x : Option ℕ) : DiskCache E :=
  s.setFill f { r with owner := x }

/-- Take or give up the guard of a fill, by a task that holds no metadata lock. A guard
that is given up has not been used. -/
theorem moves_setOwner
    {f : ℕ} {r : Fill E} {x : Option ℕ} (hI : s.Inv S) (hf : s.fills f = some r)
    (ho : ∀ t', t' ≠ t → r.owner ≠ some t') (hidle : s.Idle t) (hfin : r.finished = false)
    (hx : x = none → Unwritten s.writes f) :
  Moves S t s (s.setOwner f r x)
  := by
  have hfills : ∀ f', f' ≠ f → (s.setOwner f r x).fills f' = s.fills f' :=
    fun f' h => setFill_of_ne h
  have hnew : (s.setOwner f r x).fills f = some { r with owner := x } := setFill_self _ _
  have hgrow : ∀ f' r', s.fills f' = some r' →
      ∃ r'', (s.setOwner f r x).fills f' = some r'' ∧ Grows r' r'' := by
    intro f' r' hf'
    by_cases hff : f' = f
    · subst hff
      obtain rfl := Option.some.inj (hf.symm.trans hf')
      exact ⟨_, hnew, rfl, rfl, rfl, rfl, fun h => h, fun _ h => ⟨h, rfl⟩⟩
    · exact ⟨r', (hfills f' hff).trans hf', Grows.refl r'⟩
  have hback : ∀ f' r', (s.setOwner f r x).fills f' = some r' → ∃ r'', s.fills f' = some r'' ∧
      r'.key = r''.key ∧ r'.entry = r''.entry ∧ r'.bumps₀ = r''.bumps₀ ∧
      r'.finished = r''.finished ∧ r'.fillId = r''.fillId ∧
      (r'.owner = r''.owner ∨ f' = f ∧ r'.owner = x) := by
    intro f' r' hf'
    by_cases hff : f' = f
    · subst hff
      obtain rfl := Option.some.inj (hnew.symm.trans hf')
      exact ⟨r, hf, rfl, rfl, rfl, rfl, rfl, Or.inr ⟨rfl, rfl⟩⟩
    · exact ⟨r', (hfills f' hff).symm.trans hf', rfl, rfl, rfl, rfl, rfl, Or.inl rfl⟩
  have hmono : s.Mono S (s.setOwner f r x) :=
    { Mono.refl S s with
      fills := hgrow
      fresh := by
        intro f' r' hf' hf₀
        obtain ⟨r'', hr'', _⟩ := hback f' r' hf'
        rw [hr''] at hf₀
        cases hf₀
      ids := by
        intro f' r' n hf' hn
        obtain ⟨r'', hr'', _, _, _, _, he, _⟩ := hback f' r' hf'
        exact Or.inr ⟨r'', hr'', he.symm.trans hn⟩
      fenced := by
        rintro _ f' ⟨r', ⟨hf', hbar⟩, htrace⟩
        obtain ⟨r'', hr'', hg⟩ := hgrow f' r' hf'
        refine ⟨r'', ⟨hr'', ?_⟩, ?_⟩
        · rw [hg.bumps₀, hg.entry]
          exact hbar.imp hg.finished id
        · rw [hg.key]
          exact htrace }
  refine ⟨?_, rfl, hmono, ?_⟩
  · exact
    { hI with
      fill_lt := by
        intro f' r' hf'
        obtain ⟨r'', hr'', _, he, _⟩ := hback f' r' hf'
        rw [he]
        exact hI.fill_lt f' r'' hr''
      live := by
        intro e' f'
        refine (hI.live e' f').trans ?_
        constructor
        · rintro ⟨r', hf', he, hfin⟩
          obtain ⟨r'', hr'', hg⟩ := hgrow f' r' hf'
          obtain ⟨q, hq, _, _, _, hqf, _⟩ := hback f' r'' hr''
          obtain rfl := Option.some.inj (hf'.symm.trans hq)
          exact ⟨r'', hr'', hg.entry.trans he, hqf.trans hfin⟩
        · rintro ⟨r', hf', he, hfin⟩
          obtain ⟨q, hq, _, hqe, _, hqf, _⟩ := hback f' r' hf'
          exact ⟨q, hq, hqe.symm.trans he, hqf.symm.trans hfin⟩
      active := by
        intro f' r' hf' hfin
        obtain ⟨q, hq, hk, he, _, hqf, _⟩ := hback f' r' hf'
        rw [hk, he]
        exact hI.active f' q hq (hqf.symm.trans hfin)
      bumps := by
        intro f' r' hf' hfin
        obtain ⟨q, hq, _, he, hb, hqf, _⟩ := hback f' r' hf'
        rw [he, hb]
        exact hI.bumps f' q hq (hqf.symm.trans hfin)
      unwrapped := by
        intro hw f' r' hf' hfin
        obtain ⟨q, hq, _, he, hb, hqf, _⟩ := hback f' r' hf'
        rw [he, hb]
        exact hI.unwrapped hw f' q hq (hqf.symm.trans hfin)
      held := by
        intro l t' ht'
        refine (hI.held l t' ht').congr rfl rfl rfl (fun _ _ => rfl) ?_
        rintro f' r' ⟨hf', ho', hfin', hkey, hc, hg⟩
        have hne : f' ≠ f := by
          rintro rfl
          obtain rfl := Option.some.inj (hf.symm.trans hf')
          by_cases htt : t' = t
          · exact hidle l (htt ▸ ht')
          · exact ho t' htt ho'
        exact ⟨r', ⟨(hfills f' hne).trans hf', ho', hfin', hkey, hc, hg⟩, rfl, rfl⟩
      bodies := fun l i hi => (hI.bodies l i hi).congr rfl hgrow
      infos := by
        intro l i g m hi hd
        refine (hI.infos l i g m hi hd).grow hgrow (UInt64.le_refl _) rfl rfl ?_
        intro f' r' _ hf' hid
        obtain ⟨q, hq, _, _, _, _, hqid, _⟩ := hback f' r' hf'
        exact ⟨q, hq, hqid.symm.trans hid⟩
      ids_lt := by
        intro f' r' n hb hf' hid
        obtain ⟨q, hq, _, _, _, _, hqid, _⟩ := hback f' r' hf'
        exact hI.ids_lt f' q n hb hq (hqid.symm.trans hid)
      ids_inj := by
        intro f' g r' r'' n hb hb' hf' hg hid hid'
        obtain ⟨q, hq, _, _, _, _, hqid, _⟩ := hback f' r' hf'
        obtain ⟨q', hq', _, _, _, _, hqid', _⟩ := hback g r'' hg
        exact hI.ids_inj f' g q q' n hb hb' hq hq' (hqid.symm.trans hid) (hqid'.symm.trans hid')
      reserved := by
        intro f' r' n hf' hid
        by_cases hff : f' = f
        · subst hff
          obtain rfl := Option.some.inj (hnew.symm.trans hf')
          exact hI.reserved f' r n hf hid
        · exact hI.reserved f' r' n ((hfills f' hff).symm.trans hf') hid
      published_id := by
        intro w hw
        obtain ⟨r', hr', hid⟩ := hI.published_id w hw
        obtain ⟨r'', hr'', hg⟩ := hgrow _ r' hr'
        exact ⟨r'', hr'', (hg.fillId _ hid).1⟩
      floating := by
        intro f' r' hf' hfin ho'
        obtain ⟨q, hq, _, _, _, hqf, _, hqo⟩ := hback f' r' hf'
        obtain hqo | ⟨rfl, hqo⟩ := hqo
        · exact hI.floating f' q hq (hqf.symm.trans hfin) (hqo.symm.trans ho')
        · exact hx (hqo.symm.trans ho')
      owned := by
        intro f' r' u hf' ho'
        obtain ⟨q, hq, _, _, _, hqf, _, hqo⟩ := hback f' r' hf'
        obtain hqo | ⟨rfl, _⟩ := hqo
        · exact hqf.trans (hI.owned f' q u hq (hqo.symm.trans ho'))
        · obtain rfl := Option.some.inj (hf.symm.trans hq)
          exact hqf.trans hfin }
  · intro t' ht'
    exact
    { Rely.refl S t' s with
      mono := hmono
      fills := by
        intro f' r' _ hf' ho'
        have hne : f' ≠ f := by
          rintro rfl
          obtain rfl := Option.some.inj (hf.symm.trans hf')
          exact ho t' ht' ho'
        exact (hfills f' hne).trans hf'
      unwritten := fun _ _ _ _ _ h => h }

end DiskCache

end TinyS3Proxy
