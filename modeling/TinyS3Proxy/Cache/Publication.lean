import TinyS3Proxy.Cache.Tracking

/-!
# Publication

Renaming a metadata file into place, which publishes a fill or rewrites the metadata of
an entry, and renaming the counter file into place keep the invariant.
-/

namespace TinyS3Proxy

open Coop

namespace DiskCache

variable {E : Type} {S : Setting E} {t : ℕ} {s : DiskCache E}

/-! ### The record of writes -/

theorem lastWrite_append (ws : List Write) (w : Write) (g : ℕ) :
  lastWrite (ws ++ [w]) g = if w.fill = g then some w.new else lastWrite ws g
  := by
  unfold lastWrite
  rw [List.filter_append]
  split_ifs with h
  · simp [h]
  · simp [h]

theorem Unwritten.append
    {ws : List Write} {w : Write} {g : ℕ} (h : Unwritten ws g) (hw : w.fill ≠ g) :
  Unwritten (ws ++ [w]) g
  := by
  intro w' hw'
  rw [List.mem_append, List.mem_singleton] at hw'
  obtain hw' | rfl := hw'
  · apply h w' hw'
  · apply hw

/-- A fill without writes has no last write. -/
theorem Unwritten.lastWrite_eq
    {ws : List Write} {g : ℕ} (h : Unwritten ws g) :
  lastWrite ws g = none
  := by
  have hnil : ws.filter (fun w => w.fill = g) = [] := by
    rw [List.filter_eq_nil_iff]
    intro w hw
    simpa using h w hw
  rw [lastWrite, hnil]
  rfl

/-! ### The counter file -/

/-- Rename a counter file with the next fill id into place, under the lock of the
counter. -/
theorem moves_link_counter
    {i : ℕ} (hI : s.Inv S) (hp : s.fillIdPersistLock = some t) (hi : i < s.nextIno)
    (hd : s.data i = .counter s.nextFillId) :
  Moves S t s (s.link .fillIdCounter (some i))
  := by
  have hb : ∀ l, (s.link .fillIdCounter (some i)).files (.body l) = s.files (.body l) := by
    intro l
    apply link_files_of_ne
    simp
  have hm : ∀ l, (s.link .fillIdCounter (some i)).files (.metaJson l) = s.files (.metaJson l) := by
    intro l
    apply link_files_of_ne
    simp
  have hv : ∀ l, (s.link .fillIdCounter (some i)).view l = s.view l :=
    fun l => view_congr (hb l) (hm l) rfl
  have hcv : (s.link .fillIdCounter (some i)).counterValue = s.nextFillId.toNat := by
    have hdi : (s.link .fillIdCounter (some i)).data i = .counter s.nextFillId := hd
    simp only [counterValue, link_files_self, hdi]
  have hge : s.counterValue ≤ (s.link .fillIdCounter (some i)).counterValue := by
    rw [hcv]
    exact hI.counter_le
  have hmono : s.Mono S (s.link .fillIdCounter (some i)) := { Mono.refl S s with counter := hge }
  refine ⟨?_, rfl, hmono, ?_⟩
  · exact
    { hI with
      linked := by
        intro q j hj
        by_cases hq : q = .fillIdCounter
        · subst hq
          rw [link_files_self] at hj
          rw [← Option.some.inj hj]
          exact hi
        · rw [link_files_of_ne hq] at hj
          apply hI.linked q j hj
      free := fun l hl => (hv l).trans (hI.free l hl)
      held := fun l t' ht => (hI.held l t' ht).congr (hb l) (hm l) rfl (fun _ _ => rfl)
        (fun _ r h => ⟨r, h, rfl, rfl⟩)
      infos := fun l i g m hi hd => (hI.infos l i g m hi hd).congr rfl rfl rfl rfl
      view_paired := by
        intro hf l
        rw [hv]
        apply hI.view_paired hf l
      counter := by
        intro j hj
        rw [link_files_self] at hj
        obtain rfl := Option.some.inj hj
        exact ⟨s.nextFillId, hd, hI.ids_pos⟩
      counter_le := hcv.le
      disk_lt_counter := by
        intro _ l j g m hj hdj
        rw [hcv]
        exact UInt64.lt_iff_toNat_lt.mp (hI.infos l j g m hj hdj).id_lt
      published_lt := fun k w arg hk hw hkind =>
        (hI.published_lt k w arg hk hw hkind).trans_le hge }
  · intro t' ht'
    exact
    { Rely.refl S t' s with
      mono := hmono
      files := by
        intro q _ hq
        apply link_files_of_ne
        rintro rfl
        apply ht'
        exact Option.some.inj (hq.symm.trans hp) }

/-! ### Metadata files -/

/-- The metadata file of the entry is replaced in place by the inode `j`. -/
def replaceInfo (s : DiskCache E) (h : String) (j : ℕ) (w : Write) : DiskCache E :=
  { (s.link (.metaJson h) (some j)).leave h with writes := s.writes ++ [w] }

/-- Renaming a metadata file into place replaces the metadata of the entry. -/
theorem recordWrite_eq
    (s₀ : DiskCache E) (kind : WriteKind) {h : String} {j g : ℕ} {m : CacheMeta}
    (hd : s.data j = .json g m) (hs : s₀.slot = s.slot) (hd₀ : s₀.data = s.data) :
  recordWrite t h kind s₀ (s.link (.metaJson h) (some j)) =
    s.replaceInfo h j ⟨t, h, kind, g, s.parseAt (s.slot h).info, m⟩
  := by
  have hparse : (s.link (.metaJson h) (some j)).parseAt
      ((s.link (.metaJson h) (some j)).files (.metaJson h)) = some (g, m) := by
    rw [link_files_self]
    change (s.data j).parse = some (g, m)
    rw [hd]
    rfl
  have hold : s₀.parseAt (s₀.slot h).info = s.parseAt (s.slot h).info := by
    rw [hs, parseAt, parseAt, hd₀]
  simp only [recordWrite, hparse, hold]
  rfl

/-- The metadata file of an entry is replaced in place, under the lock of the entry: by
that of a fill that is being published, or by a newer one of the fill it is of. -/
theorem moves_replaceInfo
    {h : String} {j : ℕ} {w : Write} (hI : s.Inv S) (hl : s.metaLocks h = some t)
    (hj : j < s.nextIno) (hd : s.data j = .json w.fill w.new)
    (hfill : ∃ r, s.fills w.fill = some r ∧ r.key.hash = h ∧ r.fillId = some w.new.fillId ∧
      S.InfoOk r.key w.new)
    (hsrc : (∃ r, s.Publishing t w.fill h r) ∨ ∃ i₀ m₀, (s.slot h).info = some i₀ ∧
      s.data i₀ = .json w.fill m₀ ∧ m₀.fillId = w.new.fillId)
    (hpair : s.faulted = false → s.Paired { s.view h with info := some j })
    (hw : WriteOk s.writes w)
    (hcount : s.counterValue ≠ 0 → w.new.fillId.toNat < s.counterValue)
    (hpub : ∀ arg, w.kind = .publish arg →
      0 < w.new.fillId ∧ w.new.fillId.toNat < s.counterValue) :
  Moves S t s (s.replaceInfo h j w)
  := by
  set s₁ := s.replaceInfo h j w with hs₁
  have hfiles : ∀ q, q ≠ .metaJson h → s₁.files q = s.files q :=
    fun q hq => Function.update_of_ne hq _ _
  have hb : ∀ l, s₁.files (.body l) = s.files (.body l) := fun l => hfiles _ (by simp)
  have hm : ∀ l, l ≠ h → s₁.files (.metaJson l) = s.files (.metaJson l) :=
    fun l hlh => hfiles _ (by simpa using hlh)
  have hmh : s₁.files (.metaJson h) = some j := Function.update_self _ _ _
  have hc : s₁.files .fillIdCounter = s.files .fillIdCounter := hfiles _ (by simp)
  have hv : ∀ l, l ≠ h → s₁.view l = s.view l :=
    fun l hlh => view_congr (hb l) (hm l hlh) rfl
  have hvh : s₁.view h = { s.view h with info := some j } := by
    rw [view, hmh, hb]
    rfl
  have hslot : ∀ l, l ≠ h → s₁.slot l = s.slot l := fun l hlh => setSlot_slot_of_ne hlh
  have hself : s₁.slot h = s₁.view h := setSlot_slot_self h _
  have hcv : s₁.counterValue = s.counterValue := counterValue_congr hc fun _ _ => rfl
  have hbody := (hI.held h t hl).body
  have hboot : (∃ r, s.Publishing t w.fill h r) → s.bootFill ≤ w.fill := by
    rintro ⟨r, hf, _, hfin, _⟩
    exact (hI.active _ r hf hfin).2
  -- The new metadata is what the invariant asks of an entry.
  have hinfo : s₁.InfoAt S h w.fill w.new := by
    obtain ⟨r, hr, hkey, hid, hok⟩ := hfill
    refine ⟨⟨r, hr, hkey, hid, hok⟩, ?_, ?_, ?_⟩
    · obtain hp | ⟨i₀, m₀, hi₀, hd₀, hm₀⟩ := hsrc
      · exact hI.ids_lt _ r _ (hboot hp) hr hid
      · rw [← hm₀]
        exact (hI.infos h i₀ _ m₀ hi₀ hd₀).id_lt
    · intro f r' hbf hf hid'
      obtain hp | ⟨i₀, m₀, hi₀, hd₀, hm₀⟩ := hsrc
      · exact hI.ids_inj f _ r' r _ hbf (hboot hp) hf hr hid' hid
      · rw [← hm₀] at hid'
        exact (hI.infos h i₀ _ m₀ hi₀ hd₀).id_unique f r' hbf hf hid'
    · left
      change lastWrite (s.writes ++ [w]) w.fill = some w.new
      rw [lastWrite_append, if_pos rfl]
  -- Fills that are known elsewhere are not the one that is written.
  have hother : ∀ l i g m, l ≠ h → (s.slot l).info = some i → s.data i = .json g m →
      w.fill ≠ g := by
    rintro l i g m hlh hi hdi rfl
    obtain ⟨r, hr, hkey, _⟩ := hfill
    obtain ⟨r', hr', hkey', _⟩ := (hI.infos l i _ m hi hdi).fill
    obtain rfl := Option.some.inj (hr.symm.trans hr')
    exact hlh (hkey'.symm.trans hkey)
  have hfresh : ∀ f r, s.fills f = some r → r.finished = false → r.owner ≠ some t →
      Unwritten s.writes f → w.fill ≠ f := by
    rintro f r hf hfin ho hun rfl
    obtain ⟨r', hf', ho', _⟩ | ⟨i₀, m₀, hi₀, hd₀, _⟩ := hsrc
    · obtain rfl := Option.some.inj (hf.symm.trans hf')
      exact ho ho'
    · obtain hlast | ⟨_, hlt⟩ := (hI.infos h i₀ _ m₀ hi₀ hd₀).last
      · rw [hun.lastWrite_eq] at hlast
        cases hlast
      · exact absurd (hI.active _ r hf hfin).2 (not_le.mpr hlt)
  have hids : ∀ l i g m, (s₁.slot l).info = some i → s₁.data i = .json g m →
      l = h ∧ i = j ∧ g = w.fill ∧ m = w.new ∨ l ≠ h ∧ (s.slot l).info = some i := by
    intro l i g m hi hdi
    by_cases hlh : l = h
    · left
      subst hlh
      rw [hself, hvh] at hi
      obtain rfl := Option.some.inj hi
      have hdj : File.json g m = File.json w.fill w.new := hdi.symm.trans hd
      injection hdj with hg hm'
      exact ⟨rfl, rfl, hg, hm'⟩
    · right
      rw [hslot l hlh] at hi
      exact ⟨hlh, hi⟩
  have hmono : s.Mono S s₁ :=
    { Mono.refl S s with
      writes := List.prefix_append _ _
      fenced := by
        rintro hwr f ⟨r, hr, htrace⟩
        refine ⟨r, hr, ?_⟩
        by_cases hlh : r.key.hash = h
        · rw [hlh] at htrace ⊢
          rw [hself, hvh]
          by_cases hpois : (s.slot h).poisoned = true
          · left
            change s.poisonedHashes h = true
            rw [hI.poisoned, hpois]
          · obtain hn : s.NoTrace f (s.slot h) := htrace.resolve_left hpois
            right
            constructor
            · intro i b hvb hdi
              change s.files (.body h) = some i at hvb
              obtain h₁ | h₂ | ⟨k, f', b', r', hfk, hdk, hp, _⟩ := hbody
              · rw [h₁] at hvb
                cases hvb
              · apply hn.1 i b _ hdi
                rw [← h₂, hvb]
              · obtain rfl := Option.some.inj (hfk.symm.trans hvb)
                obtain ⟨rfl, rfl⟩ : f' = f ∧ b' = b := by simpa using hdk.symm.trans hdi
                exact hp.not_barred hI hwr hr
            · intro i m hvi hdi
              obtain rfl : j = i := Option.some.inj hvi
              have hdj : File.json w.fill w.new = File.json f m := hd.symm.trans hdi
              injection hdj with hwf _
              obtain ⟨r', hp⟩ | ⟨i₀, m₀, hi₀, hd₀, _⟩ := hsrc
              · rw [hwf] at hp
                exact hp.not_barred hI hwr hr
              · rw [hwf] at hd₀
                exact hn.2 i₀ m₀ hi₀ hd₀
        · rw [hslot _ hlh]
          exact htrace
      counter := hcv.ge }
  refine ⟨?_, rfl, hmono, ?_⟩
  · exact
    { hI with
      linked := by
        intro q k hk
        by_cases hq : q = .metaJson h
        · subst hq
          rw [← Option.some.inj (hmh.symm.trans hk)]
          exact hj
        · apply hI.linked q k
          rw [← hk, hfiles q hq]
      slot_body_lt := by
        intro l i hi
        by_cases hlh : l = h
        · subst hlh
          rw [hself, hvh] at hi
          exact hI.linked _ i hi
        · rw [hslot l hlh] at hi
          exact hI.slot_body_lt l i hi
      slot_info_lt := by
        intro l i hi
        by_cases hlh : l = h
        · subst hlh
          rw [hself, hvh] at hi
          rw [← Option.some.inj hi]
          exact hj
        · rw [hslot l hlh] at hi
          exact hI.slot_info_lt l i hi
      poisoned := by
        intro l
        by_cases hlh : l = h
        · subst hlh
          rw [hself]
          rfl
        · rw [hslot l hlh]
          exact hI.poisoned l
      free := by
        intro l hlf
        by_cases hlh : l = h
        · subst hlh
          exact hself.symm
        · rw [hv l hlh, hslot l hlh]
          exact hI.free l hlf
      held := by
        intro l t' ht'
        by_cases hlh : l = h
        · subst hlh
          constructor
          · right; left
            rw [hself]
            rfl
          · right
            rw [hself]
            rfl
        · exact (hI.held l t' ht').congr (hb l) (hm l hlh) (hslot l hlh) (fun _ _ => rfl)
            (fun _ r h => ⟨r, h, rfl, rfl⟩)
      bodies := by
        intro l i hi
        by_cases hlh : l = h
        · subst hlh
          rw [hself, hvh] at hi
          change s.files (.body l) = some i at hi
          obtain h₁ | h₂ | ⟨k, f, b, r, hfk, hdk, hp, hok⟩ := hbody
          · rw [h₁] at hi
            cases hi
          · apply hI.bodies l i
            rw [← h₂, hi]
          · obtain rfl := Option.some.inj (hfk.symm.trans hi)
            obtain ⟨hf, _, _, hkey, _⟩ := hp
            exact ⟨f, b, r, hdk, hf, hkey, hok⟩
        · rw [hslot l hlh] at hi
          exact hI.bodies l i hi
      infos := by
        intro l i g m hi hdi
        obtain ⟨rfl, _, rfl, rfl⟩ | ⟨hlh, hi⟩ := hids l i g m hi hdi
        · exact hinfo
        · have hold := hI.infos l i g m hi hdi
          have hne := hother l i g m hlh hi hdi
          refine ⟨hold.fill, hold.id_lt, hold.id_unique, ?_⟩
          change lastWrite (s.writes ++ [w]) g = some m ∨
            Unwritten (s.writes ++ [w]) g ∧ g < s.bootFill
          rw [lastWrite_append, if_neg hne]
          exact hold.last.imp id (And.imp_left fun hun => hun.append hne)
      info_not_body := by
        intro l i f b hi hdi
        by_cases hlh : l = h
        · subst hlh
          rw [hself, hvh] at hi
          obtain rfl : j = i := Option.some.inj hi
          cases hd.symm.trans hdi
        · rw [hslot l hlh] at hi
          exact hI.info_not_body l i f b hi hdi
      slot_paired := by
        intro hf l
        by_cases hlh : l = h
        · subst hlh
          rw [hself, hvh]
          exact hpair hf
        · rw [hslot l hlh]
          exact hI.slot_paired hf l
      view_paired := by
        intro hf l
        by_cases hlh : l = h
        · subst hlh
          rw [hvh]
          exact hpair hf
        · rw [hv l hlh]
          exact hI.view_paired hf l
      quiet := by
        intro hf hdr l hlf
        have hlh : l ≠ h := by
          rintro rfl
          cases hl.symm.trans hlf
        rw [hslot l hlh]
        exact hI.quiet hf hdr l hlf
      ids_disk := by
        intro l l' i i' g g' m m' hi hi' hdi hdi' hid
        obtain ⟨_, _, rfl, rfl⟩ | ⟨hlh, hi⟩ := hids l i g m hi hdi
        · obtain ⟨_, _, rfl, rfl⟩ | ⟨hlh', hi'⟩ := hids l' i' g' m' hi' hdi'
          · rfl
          · obtain hp | ⟨i₀, m₀, hi₀, hd₀, hm₀⟩ := hsrc
            · obtain ⟨r, hr, _, hrid, _⟩ := hfill
              rw [hid] at hrid
              exact (hI.infos l' i' g' m' hi' hdi').id_unique _ r (hboot hp) hr hrid
            · exact hI.ids_disk h l' i₀ i' _ g' m₀ m' hi₀ hi' hd₀ hdi' (hm₀.trans hid)
        · obtain ⟨_, _, rfl, rfl⟩ | ⟨hlh', hi'⟩ := hids l' i' g' m' hi' hdi'
          · obtain hp | ⟨i₀, m₀, hi₀, hd₀, hm₀⟩ := hsrc
            · obtain ⟨r, hr, _, hrid, _⟩ := hfill
              rw [← hid] at hrid
              exact ((hI.infos l i g m hi hdi).id_unique _ r (hboot hp) hr hrid).symm
            · exact hI.ids_disk l h i i₀ g _ m m₀ hi hi₀ hdi hd₀ (hid.trans hm₀.symm)
          · exact hI.ids_disk l l' i i' g g' m m' hi hi' hdi hdi' hid
      counter := by
        rw [hc]
        exact hI.counter
      counter_le := by
        rw [hcv]
        exact hI.counter_le
      disk_lt_counter := by
        rw [hcv]
        intro hne l i g m hi hdi
        obtain ⟨_, _, rfl, rfl⟩ | ⟨hlh, hi⟩ := hids l i g m hi hdi
        · exact hcount hne
        · exact hI.disk_lt_counter hne l i g m hi hdi
      published_lt := by
        rw [hcv]
        intro k w' arg hk hw' hkind
        change (s.writes ++ [w])[k]? = some w' at hw'
        rw [List.getElem?_append] at hw'
        split at hw'
        · exact hI.published_lt k w' arg hk hw' hkind
        · obtain rfl : w' = w := List.mem_singleton.mp (List.mem_of_getElem? hw')
          exact (hpub arg hkind).2
      published_pos := by
        intro w' hw' arg hkind
        change w' ∈ s.writes ++ [w] at hw'
        rw [List.mem_append, List.mem_singleton] at hw'
        obtain hw' | rfl := hw'
        · exact hI.published_pos w' hw' arg hkind
        · exact (hpub arg hkind).1
      reserved := by
        intro f r n hf hn
        obtain ⟨hle, hgt⟩ := hI.reserved f r n hf hn
        refine ⟨hle.trans (List.prefix_append s.writes [w]).length_le, ?_⟩
        intro j w' arg hj hjk hw' hkind
        change (s.writes ++ [w])[j]? = some w' at hw'
        rw [List.getElem?_append_left (hjk.trans_le hle)] at hw'
        exact hgt j w' arg hj hjk hw' hkind
      published_id := by
        intro w' hw'
        change w' ∈ s.writes ++ [w] at hw'
        rw [List.mem_append, List.mem_singleton] at hw'
        obtain hw' | rfl := hw'
        · exact hI.published_id w' hw'
        · obtain ⟨r, hr, _, hid, _⟩ := hfill
          exact ⟨r, hr, hid⟩
      writes := by
        intro k w' hw'
        change (s.writes ++ [w])[k]? = some w' at hw'
        change WriteOk ((s.writes ++ [w]).take k) w'
        by_cases hk : k < s.writes.length
        · rw [List.getElem?_append_left hk] at hw'
          rw [List.take_append_of_le_length hk.le]
          exact hI.writes k w' hw'
        · obtain ⟨hk', hget⟩ := List.getElem?_eq_some_iff.mp hw'
          have hkl : k = s.writes.length := by
            simp at hk'
            omega
          subst hkl
          obtain rfl : w = w' := by simpa using hw'
          simpa using hw
      floating := by
        intro f r hf hfin ho
        have hun := hI.floating f r hf hfin ho
        apply hun.append
        apply hfresh f r hf hfin _ hun
        rw [ho]
        simp }
  · intro t' ht'
    have hne : ∀ l, s.metaLocks l = some t' → l ≠ h := by
      rintro l hlt rfl
      exact ht' (Option.some.inj (hlt.symm.trans hl))
    exact
    { Rely.refl S t' s with
      mono := hmono
      files := by
        intro q _ hq
        apply hfiles
        rintro rfl
        exact hne h hq rfl
      slot := fun l _ hlt => ⟨hslot l (hne l hlt), rfl⟩
      unwritten := by
        intro f r _ hf ho hun
        apply hun.append
        apply hfresh f r hf (hI.owned f r t' hf ho) _ hun
        rw [ho]
        simpa using ht' }

end DiskCache

end TinyS3Proxy
