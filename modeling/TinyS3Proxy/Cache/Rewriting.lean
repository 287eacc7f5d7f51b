import TinyS3Proxy.Cache.Probing

/-!
# Rewriting metadata

An update of the metadata of an entry and a rewrite of its access time: both read the
metadata in place, write what is to replace it to a temporary file, and rename that file
into place, all under the lock of the entry.
-/

namespace TinyS3Proxy

open Coop Coop.Discipline

namespace DiskCache

variable {E : Type} {S : Setting E} {Restart : DiskCache E → DiskCache E → Prop}
  {t : ℕ} {s s' s₀ : DiskCache E} {h : String} {v sl : View} {X : Scope}

/-! ### Replacing the metadata file -/

theorem Held.replaceInfo
    {j : ℕ} {w : Write} (hH : s.Held t h sl v) :
  (s.replaceInfo h j w).Held t h { v with info := some j } { v with info := some j }
  := by
  have hv : (s.link (.metaJson h) (some j)).view h = { v with info := some j } := by
    rw [link_view (p := .metaJson h) rfl, hH.view]
    rfl
  refine ⟨hH.lock, hH.only, ?_, hv⟩
  rw [← hv]
  exact Function.update_self _ _ _

theorem kept_replaceInfo
    {j : ℕ} {w : Write} (hm : s.Mono S (s.replaceInfo h j w)) (hX : X.names (.metaJson h))
    (hXh : X.hashes h)
    (hun : ∀ f r, ¬ X.fills f → s.fills f = some r → r.owner = some t → Unwritten s.writes f →
      w.fill ≠ f) :
  s.Kept S t X (s.replaceInfo h j w)
  :=
  { Kept.refl S t X s with
    mono := hm
    files := by
      intro q hq _
      apply link_files_of_ne
      rintro rfl
      exact hq hX
    slot := by
      intro l hl _
      refine ⟨?_, rfl⟩
      apply Function.update_of_ne
      rintro rfl
      exact hl hXh
    unwritten := fun f r hf hr ho hw => hw.append (hun f r hf hr ho hw) }

/-- Giving or taking away another name keeps the entry that is held. -/
theorem Held.link
    {p : Path} {i : Option ℕ} (hH : s.Held t h sl v) (hp : ¬ p.OfEntry h) :
  (s.link p i).Held t h sl v
  := ⟨hH.lock, hH.only, hH.slot, (link_view_of_not hp i).trans hH.view⟩

/-- A rewrite of the metadata `m₀` of the fill `g` by `m₁`. -/
structure Rewrites (S : Setting E) (t : ℕ) (h : String) (kind : WriteKind) (g : ℕ)
    (m₀ m₁ : CacheMeta) : Prop where
  fillId : m₁.fillId = m₀.fillId
  ok : ∀ k, k.hash = h → S.InfoOk k m₀ → S.InfoOk k m₁
  unpublished : ∀ arg, kind ≠ .publish arg
  write : ∀ ws, lastWrite ws g = some m₀ ∨ Unwritten ws g →
    WriteOk ws ⟨t, h, kind, g, some (g, m₀), m₁⟩

theorem Paired.rewrite
    {j g : ℕ} {m₀ m₁ : CacheMeta} (hv : s.Paired v) (htells : s.Says v g m₀)
    (hd : s.data j = .json g m₁) :
  s.Paired { v with info := some j }
  := by
  obtain ⟨j₀, hj₀, -, hd₀⟩ := htells
  rintro i j' f b g' m' hi hj' hdi hdj'
  obtain rfl : j = j' := by simpa using hj'
  obtain ⟨rfl, -⟩ : g = g' ∧ m₁ = m' := by simpa using hd.symm.trans hdj'
  exact hv i j₀ f b g m₀ hi hj₀ hdi hd₀

/-- Renaming a rewritten metadata file into place. -/
theorem moves_rewrite
    {j g : ℕ} {m₀ m₁ : CacheMeta} {kind : WriteKind} (hI : s.Inv S) (hH : s.Held t h v v)
    (htells : s.Says v g m₀) (hj : j < s.nextIno) (hd : s.data j = .json g m₁)
    (hr : Rewrites S t h kind g m₀ m₁) :
  Moves S t s (s.replaceInfo h j ⟨t, h, kind, g, some (g, m₀), m₁⟩)
  := by
  obtain ⟨j₀, hj₀, -, hd₀⟩ := htells
  have hslot : (s.slot h).info = some j₀ := by rw [hH.slot, hj₀]
  have hA : s.InfoAt S h g m₀ := hI.infos h j₀ g m₀ hslot hd₀
  obtain ⟨r, hrf, hrh, hrid, hrok⟩ := hA.fill
  have hcount : s.counterValue ≠ 0 → m₁.fillId.toNat < s.counterValue := by
    rw [hr.fillId]
    intro hc
    exact hI.disk_lt_counter hc h j₀ g m₀ hslot hd₀
  apply moves_replaceInfo hI hH.lock hj hd
  · exact ⟨r, hrf, hrh, hrid.trans (congrArg some hr.fillId.symm), hr.ok r.key hrh hrok⟩
  · exact Or.inr ⟨j₀, m₀, hslot, hd₀, hr.fillId.symm⟩
  · intro hf
    have hp : s.Paired v := by
      rw [← hH.slot]
      exact hI.slot_paired hf h
    rw [hH.view]
    exact hp.rewrite ⟨j₀, hj₀, hI.slot_info_lt h j₀ hslot, hd₀⟩ hd
  · apply hr.write
    obtain hl | ⟨hu, -⟩ := hA.last
    · exact Or.inl hl
    · exact Or.inr hu
  · exact hcount
  · intro arg harg
    exact absurd harg (hr.unpublished arg)

/-- What the result of a rewrite tells. -/
def RewriteResult (S : Setting E) (t : ℕ) (h : String) (s₀ : DiskCache E) (v : View)
    (w : Write) (r : Except IoError Unit) (s : DiskCache E) : Prop :=
  match r with
  | .ok () => ∃ j, Inside S t h s₀ { v with info := some j } s ∧
      s.Says { v with info := some j } w.fill w.new ∧ ∃ ws, s.writes = ws ++ [w]
  | .error _ => Inside S t h s₀ v s

theorem wp_rewrite
    {n j g : ℕ} {m₀ m₁ : CacheMeta} {kind : WriteKind} (hs : Inside S t h s₀ v s)
    (hj : s.files (.metaTmp h n) = some j) (hd : s.data j = .json g m₁) (htells : s.Says v g m₀)
    (hr : Rewrites S t h kind g m₀ m₁) :
  (discipline S Restart).WP t (rename (.metaTmp h n) (.metaJson h) (recordWrite t h kind))
    (fun r s' => s.Mono S s' ∧
      RewriteResult S t h s₀ v ⟨t, h, kind, g, some (g, m₀), m₁⟩ r s') s
  := by
  apply wp_fsCall
  · intro s₁ hI hR
    have hH₁ := hs.held.rely hR
    have hj₁ : s₁.files (.metaTmp h n) = some j := (hR.files (.metaTmp h n) id hs.held.lock).trans hj
    have hlt : j < s.nextIno := hs.inv.linked _ j hj
    have hd₁ : s₁.data j = .json g m₁ := (hR.mono.data j hlt).trans hd
    have hM₁ : Moves S t s₁ (s₁.link (.metaTmp h n) none) :=
      moves_link_mine hI hH₁.lock fun i hi => by cases hi
    have hH₂ : (s₁.link (.metaTmp h n) none).Held t h v v := hH₁.link id
    obtain ⟨j₀, hj₀, hlt₀, hd₀⟩ := htells.mono hR.mono
    have hold : (s₁.link (.metaTmp h n) none).parseAt
        ((s₁.link (.metaTmp h n) none).slot h).info = some (g, m₀) := by
      rw [hH₂.slot, hj₀]
      exact congrArg File.parse hd₀
    have hM₂ := moves_rewrite hM₁.inv hH₂ ⟨j₀, hj₀, hlt₀, hd₀⟩ (hlt.trans_le hR.mono.ino) hd₁ hr
    have heq := recordWrite_eq (t := t) (h := h) (s := s₁.link (.metaTmp h n) none) (j := j)
      s₁ kind hd₁ rfl rfl
    rw [hold] at heq
    have hM := hM₁.trans hM₂
    simp only [hj₁, heq]
    have hA := hM₁.inv.infos h j₀ g m₀ (by rw [hH₂.slot, hj₀]) hd₀
    refine ⟨hM, hR.mono.trans hM.mono, j, ⟨?_, hM.inv, hH₂.replaceInfo⟩, ?_, s₁.writes, rfl⟩
    · apply (hs.kept.trans (Rely.kept hR)).trans
      apply (kept_link hM₁.mono (Or.inr (Or.inr ⟨n, rfl⟩))).trans
      apply kept_replaceInfo hM₂.mono (Or.inl rfl) rfl
      rintro f r - hf ho hw rfl
      obtain hl | ⟨-, hb⟩ := hA.last
      · rw [hw.lastWrite_eq] at hl
        cases hl
      · have hle := (hM₁.inv.active _ r hf (hM₁.inv.owned _ r t hf ho)).2
        exact absurd hb (not_lt.mpr hle)
    · exact ⟨j, rfl, hlt.trans_le hR.mono.ino, hd₁⟩
  · intro s₁ hI hR
    have hs₁ := hs.rely hI hR
    exact ⟨hR.mono.trans (moves_fault (t := t) hI).mono,
      hs₁.kept.trans (kept_fault hI), (moves_fault (t := t) hI).inv, hs₁.held.fault⟩

/-- A complete entry whose metadata has been rewritten is complete, and one that is left
over stays so. -/
theorem Tidy.rewrite
    {j g : ℕ} {m₀ m₁ : CacheMeta} (hv : s.Tidy v) (htells : s.Says v g m₀)
    (hd : s.data j = .json g m₁) :
  s.Tidy { v with info := some j }
  := by
  obtain ⟨j₀, hj₀, -, hd₀⟩ := htells
  intro hf hdr
  obtain ⟨i, j', f, b, m, hb, hj', hdb, hdj⟩ | ⟨hb, hi⟩ := hv hf hdr
  · left
    obtain rfl := Option.some.inj (hj₀.symm.trans hj')
    obtain ⟨rfl, -⟩ : g = f ∧ m₀ = m := by simpa using hd₀.symm.trans hdj
    exact ⟨i, j, g, b, m₁, hb, rfl, hdb, hd⟩
  · right
    refine ⟨hb, ?_⟩
    rintro j' hj'
    obtain rfl : j = j' := by simpa using hj'
    have hg := (hi j₀ hj₀).2 g m₀ hd₀
    constructor
    · intro f b hdj
      rw [hd] at hdj
      cases hdj
    · intro f m hdj
      obtain ⟨rfl, -⟩ : g = f ∧ m₁ = m := by simpa using hd.symm.trans hdj
      exact hg

/-! ### The common part of an update and a rewrite -/

/-- Write metadata to a temporary file of the entry. -/
theorem wp_writeMetaTmp
    (n : ℕ) (d : File) (hs : Inside S t h s₀ v s) :
  (discipline S Restart).WP t (writeFileSecure (.metaTmp h n) d)
    (fun r s' => Inside S t h s₀ v s' ∧ s.Mono S s' ∧ WriteResult (.metaTmp h n) d r s') s
  := by
  apply WP.mono (wp_writeFile (X := Scope.name (.metaTmp h n)) (p := .metaTmp h n) d hs.held.lock rfl)
  rintro r s' ⟨hk, hI, hr⟩
  exact ⟨hs.side hI hk id (Or.inr (Or.inr ⟨n, rfl⟩)), hk.mono, hr⟩

/-- Discard a temporary file of the entry. -/
theorem wp_discardMetaTmp
    (n : ℕ) (hs : Inside S t h s₀ v s) :
  (discipline S Restart).WP t (discard [.metaTmp h n])
    (fun _ s' => Inside S t h s₀ v s' ∧ s.Mono S s') s
  := by
  apply WP.mono (wp_discard (X := Scope.name (.metaTmp h n)) hs.inv
    (by simpa [Mine] using hs.held.lock) (by simp [Scope.name]))
  rintro _ s' ⟨hk, hI⟩
  exact ⟨hs.side hI hk id (Or.inr (Or.inr ⟨n, rfl⟩)), hk.mono⟩

/-- Numbering a temporary file. -/
theorem wp_counters
    {f : DiskCache E → ℕ × DiskCache E} (hs : Inside S t h s₀ v s)
    (hf : ∃ i j k, (f s).2 = { s with tmpCounter := i, accessCounter := j, updateCounter := k }) :
  (discipline S Restart).WP t (.act fun _ s => f s)
    (fun _ s' => Inside S t h s₀ v s' ∧ s.Mono S s') s
  := by
  intro hI
  obtain ⟨i, j, k, hf⟩ := hf
  have hM : Moves S t s (f s).2 := by
    rw [hf]
    exact moves_counters hI i j k
  refine ⟨hM.guar, ⟨hs.kept.trans ?_, hM.inv, ?_⟩, hM.mono⟩
  · have hm := hM.mono
    simp only [hf] at hm ⊢
    exact { Kept.refl S t _ s with mono := hm }
  · simp only [hf]
    exact ⟨hs.held.lock, hs.held.only, hs.held.slot, hs.held.view⟩

/-- Write metadata to a temporary file and rename it into place. -/
theorem wp_rewriteVia
    {α : Type} {n g : ℕ} {m₀ m₁ : CacheMeta} {kind : WriteKind} {a b c : α}
    (hs : Inside S t h s₀ v s) (hT : s.Tidy v) (htells : s.Says v g m₀)
    (hr : Rewrites S t h kind g m₀ m₁) :
  (discipline S Restart).WP t
    (do
      match ← writeFileSecure (.metaTmp h n) (.json g m₁) with
      | .error _ =>
          discard [.metaTmp h n]
          return a
      | .ok () =>
      let t ← currentTask
      match ← rename (.metaTmp h n) (.metaJson h) (recordWrite t h kind) with
      | .error _ =>
          discard [.metaTmp h n]
          return b
      | .ok () => return c)
    (fun x s' => ∃ v', Inside S t h s₀ v' s' ∧ s'.Tidy v' ∧
      (x = a ∨ x = b ∨
        x = c ∧ ∃ ws, s'.writes = ws ++ [⟨t, h, kind, g, some (g, m₀), m₁⟩])) s
  := by
  apply WP.seq (wp_writeMetaTmp n (.json g m₁) hs)
  rintro r s₁ ⟨hs₁, hm₁, hw⟩
  have hT₁ := hT.mono hs.inv hs.held hm₁
  match r, hw with
  | .error e, _ =>
      apply WP.seq (wp_discardMetaTmp n hs₁)
      rintro _ s₂ ⟨hs₂, hm₂⟩
      exact ⟨v, hs₂, hT₁.mono hs₁.inv hs₁.held hm₂, Or.inl rfl⟩
  | .ok (), ⟨j, hj, hd⟩ =>
  intro _
  refine ⟨(Moves.refl hs₁.inv).guar, ?_⟩
  apply WP.seq (wp_rewrite hs₁ hj hd (htells.mono hm₁) hr)
  rintro r s₂ ⟨hm₂, hr₂⟩
  have hT₂ := hT₁.mono hs₁.inv hs₁.held hm₂
  match r, hr₂ with
  | .error e, hs₂ =>
      apply WP.seq (wp_discardMetaTmp n hs₂)
      rintro _ s₃ ⟨hs₃, hm₃⟩
      exact ⟨v, hs₃, hT₂.mono (Inside.inv hs₂) (Inside.held hs₂) hm₃, Or.inr (Or.inl rfl)⟩
  | .ok (), ⟨j', hs₂, ⟨j'', hj'', _, hd''⟩, hws⟩ =>
      obtain rfl : j' = j'' := by simpa using hj''
      exact ⟨_, hs₂, hT₂.rewrite ((htells.mono hm₁).mono hm₂) hd'', Or.inr (Or.inr ⟨rfl, hws⟩)⟩

/-! ### Updates -/

theorem rewrites_update
    {key : CacheKey} {g : ℕ} {m c : CacheMeta} (hok : S.InfoOk key m) :
  Rewrites S t key.hash .update g c (m.updatedFrom c)
  where
  fillId := rfl
  ok := fun _ hk hc => S.info_updated hok hc hk
  unpublished := by
    intro arg h
    cases h
  write := fun _ hl => ⟨c, m, rfl, rfl, hl⟩

/-- An update that has returned `true` has just replaced the metadata that it was computed
from. -/
def Updated (t : ℕ) (key : CacheKey) (expected : FillId) (m : CacheMeta)
    (r : Except CacheError Bool) (s : DiskCache E) : Prop :=
  match r with
  | .ok true => ∃ ws g c, c.fillId = expected ∧ c.metadataVersion = m.metadataVersion ∧
      s.writes = ws ++ [⟨t, key.hash, .update, g, some (g, c), m.updatedFrom c⟩]
  | .ok false => True
  | .error _ => True

theorem wp_updateMetadataLocked
    {key : CacheKey} {expected : FillId} {m : CacheMeta} (hok : S.InfoOk key m)
    (hs : Inside S t key.hash s₀ v s) (hT : s.Tidy v) :
  (discipline S Restart).WP t (updateMetadataLocked key.hash expected m)
    (fun r s' => ∃ v', Inside S t key.hash s₀ v' s' ∧ s'.Tidy v' ∧
      Updated t key expected m r s') s
  := by
  apply WP.seq (wp_check (.body key.hash) _ hs)
  rintro r s₁ ⟨hs₁, hm₁, -⟩
  have hT₁ := hT.mono hs.inv hs.held hm₁
  match r with
  | .error e => exact ⟨v, hs₁, hT₁, trivial⟩
  | .ok false => exact ⟨v, hs₁, hT₁, trivial⟩
  | .ok true =>
  apply WP.seq (wp_check (.metaJson key.hash) _ hs₁)
  rintro r s₂ ⟨hs₂, hm₂, -⟩
  have hT₂ := hT₁.mono hs₁.inv hs₁.held hm₂
  match r with
  | .error e => exact ⟨v, hs₂, hT₂, trivial⟩
  | .ok false => exact ⟨v, hs₂, hT₂, trivial⟩
  | .ok true =>
  apply WP.seq (wp_readMeta hs₂)
  rintro r s₃ ⟨hs₃, hm₃, hr⟩
  have hT₃ := hT₂.mono hs₂.inv hs₂.held hm₃
  cases hr with
  | missing => exact ⟨v, hs₃, hT₃, trivial⟩
  | @failed e he =>
      cases e with
      | notFound => exact absurd rfl he
      | alreadyExists | other => exact ⟨v, hs₃, hT₃, trivial⟩
  | corrupt hd =>
      simp only [hd]
      exact ⟨v, hs₃, hT₃, trivial⟩
  | @parsed _ g c hd htells =>
      simp only [hd]
      split
      · exact ⟨v, hs₃, hT₃, trivial⟩
      next hc =>
      push Not at hc
      apply WP.seq (wp_counters hs₃ ⟨_, _, _, rfl⟩)
      rintro n s₄ ⟨hs₄, hm₄⟩
      apply WP.mono (wp_rewriteVia hs₄ (hT₃.mono hs₃.inv hs₃.held hm₄) (htells.mono hm₄)
        (rewrites_update hok))
      rintro r s₅ ⟨v', hs₅, hT₅, rfl | rfl | ⟨rfl, ws, hws⟩⟩
      · exact ⟨v', hs₅, hT₅, trivial⟩
      · exact ⟨v', hs₅, hT₅, trivial⟩
      · exact ⟨v', hs₅, hT₅, ws, g, c, hc.1, hc.2, hws⟩

/-- An update of the metadata of an entry. -/
theorem wp_updateMetadata
    {key : CacheKey} {expected : FillId} {m : CacheMeta} (hok : S.InfoOk key m) (hi : s.Idle t) :
  (discipline S Restart).WP t (updateMetadataIfUnchanged key expected m)
    (fun r s' => s.Kept S t (Scope.entry key.hash) s' ∧ s'.Inv S ∧ s'.Idle t ∧
      Updated t key expected m r s') s
  := by
  apply wp_inside hi
  intro s₁ v _ hs₁ hT₁
  apply WP.mono (wp_updateMetadataLocked hok hs₁ hT₁)
  rintro r s₂ ⟨v', hs₂, hT₂, hr⟩
  exact ⟨hr, v', hs₂, hT₂⟩

/-! ### Access times -/

theorem rewrites_touch
    {g : ℕ} {c : CacheMeta} {now : Time} (hlt : c.lastAccessedAt < now) :
  Rewrites S t h .touch g c { c with lastAccessedAt := now }
  where
  fillId := rfl
  ok := fun _ _ hc => S.info_touched now hc
  unpublished := by
    intro arg h
    cases h
  write := fun _ hl => ⟨c, now, rfl, hlt, rfl, hl⟩

theorem wp_rewriteLastAccessedLocked
    {expected : FillId} {now : Time} (hs : Inside S t h s₀ v s) (hT : s.Tidy v) :
  (discipline S Restart).WP t (rewriteLastAccessedLocked h expected now)
    (fun _ s' => ∃ v', Inside S t h s₀ v' s' ∧ s'.Tidy v') s
  := by
  apply WP.seq (wp_readMeta hs)
  rintro r s₁ ⟨hs₁, hm₁, hr⟩
  have hT₁ := hT.mono hs.inv hs.held hm₁
  cases hr with
  | missing => exact ⟨v, hs₁, hT₁⟩
  | failed => exact ⟨v, hs₁, hT₁⟩
  | corrupt hd =>
      simp only [hd]
      exact ⟨v, hs₁, hT₁⟩
  | @parsed _ g c hd htells =>
      simp only [hd]
      split
      · exact ⟨v, hs₁, hT₁⟩
      split
      · exact ⟨v, hs₁, hT₁⟩
      next hlt =>
      apply WP.seq (wp_counters hs₁ ⟨_, _, _, rfl⟩)
      rintro n s₂ ⟨hs₂, hm₂⟩
      apply WP.mono (wp_rewriteVia hs₂ (hT₁.mono hs₁.inv hs₁.held hm₂) (htells.mono hm₂)
        (rewrites_touch (not_le.mp hlt)))
      rintro _ s₃ ⟨v', hs₃, hT₃, -⟩
      exact ⟨v', hs₃, hT₃⟩

/-- A rewrite of the access time of an entry. -/
theorem wp_rewriteLastAccessed
    (h : String) (expected : FillId) (now : Time) (hi : s.Idle t) :
  (discipline S Restart).WP t (rewriteLastAccessed h expected now)
    (fun _ s' => s.Kept S t (Scope.entry h) s' ∧ s'.Inv S ∧ s'.Idle t) s
  := by
  apply WP.mono
  · apply wp_inside (Q := fun _ _ => True) hi
    intro s₁ v _ hs₁ hT₁
    apply WP.mono (wp_rewriteLastAccessedLocked hs₁ hT₁)
    rintro _ s₂ hs₂
    exact ⟨trivial, hs₂⟩
  · rintro _ s' ⟨hk, hI, hi', -⟩
    exact ⟨hk, hI, hi'⟩

end DiskCache

end TinyS3Proxy
