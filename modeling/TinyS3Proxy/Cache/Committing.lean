import TinyS3Proxy.Cache.Fills
import TinyS3Proxy.Cache.Rewriting

/-!
# Committing a fill

A commit moves the files of the old entry away and those of the new one into place, all
under the lock of the entry and the commit lock of the tracking record. The entry is left
with the new files, or, when the publication is given up, with the old ones, unless some
call has failed.
-/

namespace TinyS3Proxy

open Coop Coop.Discipline

/-- The temporary files of a commit by the task `t`: the body that was handed to it, under
the number `nb`, and the files that it numbers by `nc`. -/
def tempPath (t nb nc : ℕ) : TmpKind → Path
  | .body => .tmp t nb .body
  | k => .tmp t nc k

theorem tempPath_eq (t nb nc : ℕ) (k : TmpKind) :
  ∃ i, tempPath t nb nc k = .tmp t i k
  := by
  cases k with
  | body => exact ⟨nb, rfl⟩
  | metaJson | prevBody | prevMetaJson | fillIdCounter => exact ⟨nc, rfl⟩

theorem tempPath_ne
    {t nb nc : ℕ} {k k' : TmpKind} (hk : k' ≠ k) :
  tempPath t nb nc k' ≠ tempPath t nb nc k
  := by
  obtain ⟨i, hi⟩ := tempPath_eq t nb nc k
  obtain ⟨i', hi'⟩ := tempPath_eq t nb nc k'
  rw [hi, hi']
  intro h
  injection h with _ _ h
  exact hk h

theorem tempPath_not_entry (t nb nc : ℕ) (k : TmpKind) (h : String) :
  ¬ (tempPath t nb nc k).OfEntry h
  := by
  obtain ⟨i, hi⟩ := tempPath_eq t nb nc k
  rw [hi]
  exact id

namespace DiskCache

variable {E : Type} {S : Setting E} {Restart : DiskCache E → DiskCache E → Prop}
  {t : ℕ} {s s' s₀ : DiskCache E} {h : String} {sl v : View} {f nb nc : ℕ} {r : Fill E}
  {T : TmpKind → Option ℕ} {p : Path}

theorem tempPath_mine (s : DiskCache E) (t nb nc : ℕ) (k : TmpKind) :
  s.Mine t (tempPath t nb nc k)
  := by
  obtain ⟨i, hi⟩ := tempPath_eq t nb nc k
  rw [hi]
  exact rfl

theorem tempPath_owns (s : DiskCache E) (t nb nc : ℕ) (k : TmpKind) :
  s.Owns t (tempPath t nb nc k)
  := by
  obtain ⟨i, hi⟩ := tempPath_eq t nb nc k
  rw [hi]
  exact rfl

/-! ### The state of a publication -/

/-- The scope of a commit of the fill `f`. -/
def Scope.commit (t : ℕ) (h : String) (f : ℕ) : Scope where
  names p := (Scope.entry h).names p ∨ p = .fillIdCounter ∨ ∃ n k, p = .tmp t n k
  hashes l := l = h
  records _ := False
  fills f' := f' = f

theorem tempPath_commit (t nb nc : ℕ) (k : TmpKind) (h : String) (f : ℕ) :
  (Scope.commit t h f).names (tempPath t nb nc k)
  := by
  obtain ⟨i, hi⟩ := tempPath_eq t nb nc k
  exact Or.inr (Or.inr ⟨i, k, hi⟩)

/-- The task `t` is publishing the fill `f`. The entry was last left with the files in
`sl`, and has those in `v`; the temporary files of the commit are those in `T`. -/
structure Publication (S : Setting E) (t nb nc f : ℕ) (h : String) (s₀ : DiskCache E)
    (r : Fill E) (T : TmpKind → Option ℕ) (sl v : View) (s : DiskCache E) : Prop where
  kept : s₀.Kept S t (Scope.commit t h f) s
  inv : s.Inv S
  held : s.Held t h sl v
  pub : s.Publishing t f h r
  unwritten : Unwritten s.writes f
  temps : ∀ k, s.files (tempPath t nb nc k) = T k

/-- A task goes on publishing while it is suspended. -/
theorem Publishing.kept
    {X : Scope} (hp : s.Publishing t f h r) (hk : s.Kept S t X s') (hf : ¬ X.fills f)
    (he : ∀ e, ¬ X.records e) :
  s'.Publishing t f h r
  := by
  obtain ⟨hr, ho, hfin, hh, hc, hg⟩ := hp
  refine ⟨hk.fills f r hf hr ho, ho, hfin, hh, hk.commitLock _ hc, ?_⟩
  rw [FillEntry.generation, hk.bumps _ (he _) hc]
  exact hg

namespace Publication

theorem rely
    (hP : Publication S t nb nc f h s₀ r T sl v s) (hI : s'.Inv S) (hR : s.Rely S t s') :
  Publication S t nb nc f h s₀ r T sl v s'
  where
  kept := hP.kept.trans (Rely.kept hR)
  inv := hI
  held := hP.held.rely hR
  pub := hP.pub.kept hR id fun _ => id
  unwritten := hR.unwritten f r id hP.pub.1 hP.pub.2.1 hP.unwritten
  temps := fun k => (hR.files _ id (tempPath_owns s t nb nc k)).trans (hP.temps k)

theorem fault
    (hP : Publication S t nb nc f h s₀ r T sl v s) :
  Publication S t nb nc f h s₀ r T sl v s.fault
  := ⟨hP.kept.trans (kept_fault hP.inv), (moves_fault (t := t) hP.inv).inv, hP.held.fault, hP.pub,
    hP.unwritten, hP.temps⟩

/-- Giving or taking away the name of a file of the entry. -/
theorem link_entry
    {i : Option ℕ} (hP : Publication S t nb nc f h s₀ r T sl v s) (hp : p.OfEntry h)
    (hM : Moves S t s (s.link p i)) :
  Publication S t nb nc f h s₀ r T sl (v.set p i) (s.link p i)
  where
  kept := hP.kept.trans (kept_link hM.mono (Or.inl (Or.inl hp)))
  inv := hM.inv
  held := by
    refine ⟨hP.held.lock, hP.held.only, hP.held.slot, ?_⟩
    rw [link_view hp, hP.held.view]
  pub := hP.pub
  unwritten := hP.unwritten
  temps := by
    intro k
    rw [← hP.temps k]
    apply link_files_of_ne
    rintro rfl
    exact tempPath_not_entry t nb nc k h hp

/-- Giving or taking away the name of a temporary file. -/
theorem link_temp
    {i : Option ℕ} {k : TmpKind} (hP : Publication S t nb nc f h s₀ r T sl v s)
    (hi : ∀ j, i = some j → j < s.nextIno) :
  Moves S t s (s.link (tempPath t nb nc k) i) ∧
    Publication S t nb nc f h s₀ r (Function.update T k i) sl v
      (s.link (tempPath t nb nc k) i)
  := by
  have hM : Moves S t s (s.link (tempPath t nb nc k) i) :=
    moves_link_mine hP.inv (tempPath_mine s t nb nc k) hi
  refine ⟨hM, hP.kept.trans (kept_link hM.mono (tempPath_commit t nb nc k h f)), hM.inv,
    hP.held.link (tempPath_not_entry t nb nc k h), hP.pub, hP.unwritten, ?_⟩
  intro k'
  by_cases hk : k' = k
  · subst hk
    rw [link_files_self, Function.update_self]
  · rw [link_files_of_ne (tempPath_ne hk), Function.update_of_ne hk]
    exact hP.temps k'

end Publication

/-! ### Moving files -/

/-- Move a file of the entry away. -/
theorem wp_moveOut
    (k : TmpKind) (hP : Publication S t nb nc f h s₀ r T sl v s) (hp : p.OfEntry h) :
  (discipline S Restart).WP t (renameFile p (tempPath t nb nc k))
    (fun res s' => s.Mono S s' ∧
      match res with
      | .ok () => Publication S t nb nc f h s₀ r (Function.update T k (v.get p)) sl
          (v.set p none) s'
      | .error _ => Publication S t nb nc f h s₀ r T sl v s' ∧
          (v.get p = none ∨ s'.faulted = true)) s
  := by
  apply wp_fsCall
  · intro s₁ hI hR
    have hP₁ := hP.rely hI hR
    have hget : s₁.files p = v.get p := hP₁.held.get_eq hp
    cases hf : s₁.files p with
    | none => exact ⟨Moves.refl hI, hR.mono, hP₁, Or.inl (hget.symm.trans hf)⟩
    | some i =>
        have hM₁ : Moves S t s₁ (s₁.link p none) := by
          cases p with
          | body l =>
              obtain rfl : l = h := hp
              apply moves_link_body hI hP₁.held.lock _ (Or.inl rfl)
              · intro _
                exact Paired.of_body_none rfl
              · intro j hj
                cases hj
          | metaJson l =>
              obtain rfl : l = h := hp
              apply moves_link_info hI hP₁.held.lock (Or.inl rfl)
              intro _
              exact Paired.of_info_none rfl
          | poisoned | fillIdCounter | metaTmp | tmp => cases hp
        have hP₂ := hP₁.link_entry hp hM₁
        obtain ⟨hM₂, hP₃⟩ := hP₂.link_temp (i := some i) (k := k) (by
          rintro j hj
          obtain rfl := Option.some.inj hj
          exact hI.linked p i hf)
        rw [hf] at hget
        refine ⟨hM₁.trans hM₂, hR.mono.trans (hM₁.trans hM₂).mono, ?_⟩
        rw [← hget]
        exact hP₃
  · intro s₁ hI hR
    exact ⟨hR.mono.trans (moves_fault (t := t) hI).mono, (hP.rely hI hR).fault, Or.inr rfl⟩

/-- Move a temporary file into place. -/
theorem wp_moveIn
    (k : TmpKind) (hP : Publication S t nb nc f h s₀ r T sl v s) (hp : p.OfEntry h)
    (hin : ∀ i s₁, T k = some i → s.Mono S s₁ →
      Publication S t nb nc f h s₀ r (Function.update T k none) sl v s₁ →
      Moves S t s₁ (s₁.link p (some i))) :
  (discipline S Restart).WP t (renameFile (tempPath t nb nc k) p)
    (fun res s' => s.Mono S s' ∧
      match res with
      | .ok () => T k ≠ none ∧
          Publication S t nb nc f h s₀ r (Function.update T k none) sl (v.set p (T k)) s'
      | .error _ => Publication S t nb nc f h s₀ r T sl v s' ∧
          (T k = none ∨ s'.faulted = true)) s
  := by
  apply wp_fsCall
  · intro s₁ hI hR
    have hP₁ := hP.rely hI hR
    have hget : s₁.files (tempPath t nb nc k) = T k := hP₁.temps k
    cases hf : s₁.files (tempPath t nb nc k) with
    | none => exact ⟨Moves.refl hI, hR.mono, hP₁, Or.inl (hget.symm.trans hf)⟩
    | some i =>
        rw [hf] at hget
        obtain ⟨hM₁, hP₂⟩ := hP₁.link_temp (i := none) (k := k) (by
          intro j hj
          cases hj)
        have hM₂ := hin i _ hget.symm (hR.mono.trans hM₁.mono) hP₂
        have hP₃ := hP₂.link_entry hp hM₂
        refine ⟨hM₁.trans hM₂, hR.mono.trans (hM₁.trans hM₂).mono, ?_⟩
        rw [← hget]
        exact ⟨by simp, hP₃⟩
  · intro s₁ hI hR
    exact ⟨hR.mono.trans (moves_fault (t := t) hI).mono, (hP.rely hI hR).fault, Or.inr rfl⟩

/-- Move a file of the entry away if it is there. -/
theorem wp_moveAway
    {present : Bool} (k : TmpKind) (hP : Publication S t nb nc f h s₀ r T sl v s)
    (hp : p.OfEntry h) (hv : present = true → v.get p ≠ none) :
  (discipline S Restart).WP t (moveAway present p (tempPath t nb nc k))
    (fun res s' => s.Mono S s' ∧
      match res with
      | .ok () => ∃ T' v', Publication S t nb nc f h s₀ r T' sl v' s' ∧
          if present then T' = Function.update T k (v.get p) ∧ v' = v.set p none
          else T' = T ∧ v' = v
      | .error _ => Publication S t nb nc f h s₀ r T sl v s' ∧ s'.faulted = true) s
  := by
  cases present with
  | false => exact ⟨Mono.refl S s, T, v, hP, rfl, rfl⟩
  | true =>
      apply WP.seq (wp_moveOut k hP hp)
      rintro res s₁ ⟨hm₁, hres⟩
      match res, hres with
      | .error e, hres => exact ⟨hm₁, hres.1, hres.2.resolve_left (hv rfl)⟩
      | .ok (), hP₁ =>
          apply WP.seq (wp_fsEffect (X := Scope.none))
          rintro _ s₂ ⟨hR, hI₂, -⟩
          exact ⟨hm₁.trans hR.mono, _, _, Publication.rely hP₁ hI₂ hR, rfl, rfl⟩

/-! ### Putting files back -/

/-- Put the old body back, if there was one. -/
theorem wp_restoreBody
    {oldBody : Bool} (hP : Publication S t nb nc f h s₀ r T sl v s)
    (hsaved : oldBody = true → T .prevBody = sl.body)
    (hgone : s.faulted = false → oldBody = false → sl.body = none)
    (hv : s.faulted = false → v.body = none ∧ v.info = none) :
  (discipline S Restart).WP t
    (Async.when oldBody (restorePublishBackup (.body h) (tempPath t nb nc .prevBody)))
    (fun _ s' => s.Mono S s' ∧ ∃ T' v', Publication S t nb nc f h s₀ r T' sl v' s' ∧
      T' .prevMetaJson = T .prevMetaJson ∧ v'.info = v.info ∧
      (s'.faulted = false → v'.body = sl.body)) s
  := by
  cases oldBody with
  | false =>
      refine ⟨Mono.refl S s, T, v, hP, rfl, rfl, ?_⟩
      intro hf
      rw [(hv hf).1, hgone hf rfl]
  | true =>
      apply WP.seq (wp_moveIn .prevBody hP (p := .body h) rfl _)
      · rintro res s₁ ⟨hm₁, hres⟩
        match res, hres with
        | .ok (), ⟨_, hP₁⟩ => exact ⟨hm₁, _, _, hP₁, rfl, rfl, fun _ => hsaved rfl⟩
        | .error e, ⟨hP₁, hT⟩ =>
            refine ⟨hm₁, T, v, hP₁, rfl, rfl, ?_⟩
            intro hf
            have hn := hT.resolve_right (by simp [hf])
            rw [(hv (unfaulted_of_mono hm₁ hf)).1, ← hsaved rfl, hn]
      · intro i s₁ hi hm hP₁
        have hb : (s₁.slot h).body = some i := by rw [hP₁.held.slot, ← hsaved rfl, hi]
        apply moves_link_body hP₁.inv hP₁.held.lock _ (Or.inr (Or.inl hb.symm))
        · intro hf
          apply Paired.of_info_none
          rw [hP₁.held.view]
          exact (hv (unfaulted_of_mono hm hf)).2
        · rintro j hj
          obtain rfl := Option.some.inj hj
          exact hP₁.inv.slot_body_lt h i hb

/-- Put the old metadata back, if there was any. -/
theorem wp_restoreMeta
    {oldMeta : Bool} (hP : Publication S t nb nc f h s₀ r T sl v s)
    (hsaved : oldMeta = true → T .prevMetaJson = sl.info)
    (hgone : s.faulted = false → oldMeta = false → sl.info = none)
    (hv : s.faulted = false → v.body = sl.body ∧ v.info = none) :
  (discipline S Restart).WP t
    (Async.when oldMeta (restorePublishBackup (.metaJson h) (tempPath t nb nc .prevMetaJson)))
    (fun _ s' => s.Mono S s' ∧ ∃ T' v', Publication S t nb nc f h s₀ r T' sl v' s' ∧
      (s'.faulted = false → v'.body = sl.body ∧ v'.info = sl.info)) s
  := by
  cases oldMeta with
  | false =>
      refine ⟨Mono.refl S s, T, v, hP, ?_⟩
      intro hf
      exact ⟨(hv hf).1, (hv hf).2.trans (hgone hf rfl).symm⟩
  | true =>
      apply WP.seq (wp_moveIn .prevMetaJson hP (p := .metaJson h) rfl _)
      · rintro res s₁ ⟨hm₁, hres⟩
        match res, hres with
        | .ok (), ⟨_, hP₁⟩ =>
            refine ⟨hm₁, _, _, hP₁, ?_⟩
            intro hf
            exact ⟨(hv (unfaulted_of_mono hm₁ hf)).1, hsaved rfl⟩
        | .error e, ⟨hP₁, hT⟩ =>
            refine ⟨hm₁, T, v, hP₁, ?_⟩
            intro hf
            have hn := hT.resolve_right (by simp [hf])
            obtain ⟨hb, hi⟩ := hv (unfaulted_of_mono hm₁ hf)
            exact ⟨hb, by rw [hi, ← hsaved rfl, hn]⟩
      · intro i s₁ hi hm hP₁
        have hs : (s₁.slot h).info = some i := by rw [hP₁.held.slot, ← hsaved rfl, hi]
        apply moves_link_info hP₁.inv hP₁.held.lock (Or.inr hs.symm)
        intro hf
        obtain ⟨hb, -⟩ := hv (unfaulted_of_mono hm hf)
        have hp := hP₁.inv.slot_paired hf h
        rw [hP₁.held.view]
        intro i' j' f' b' g' m' hi' hj'
        apply hp i' j' f' b' g' m'
        · rw [hP₁.held.slot, ← hb]
          exact hi'
        · rw [hs]
          exact hj'

/-! ### Giving up a publication -/

/-- The state in which a commit leaves the entry: it is tidy, and the fill is still the
task's own. -/
def Left (S : Setting E) (t f : ℕ) (h : String) (s₀ : DiskCache E) (r : Fill E)
    (s : DiskCache E) : Prop :=
  s₀.Kept S t (Scope.commit t h f) s ∧ s.Inv S ∧ s.fills f = some r ∧
    ∃ sl v, s.Held t h sl v ∧ s.Tidy v

/-- The scope of code that discards temporary files of the task. -/
def Scope.temps (t : ℕ) : Scope := { Scope.none with names := fun p => ∃ n k, p = .tmp t n k }

theorem Scope.temps_commit
    {s s' : DiskCache E} (hk : s.Kept S t (Scope.temps t) s') (h : String) (f : ℕ) :
  s.Kept S t (Scope.commit t h f) s'
  := hk.weaken (fun _ h => Or.inr (Or.inr h)) (fun _ => False.elim) (fun _ => False.elim)
    (fun _ => False.elim)

theorem Held.temps
    (hH : s.Held t h sl v) (hk : s.Kept S t (Scope.temps t) s') :
  s'.Held t h sl v
  := by
  apply hH.kept hk _ _ id
  · rintro ⟨n, k, hp⟩
    cases hp
  · rintro ⟨n, k, hp⟩
    cases hp

theorem Left.temps
    (hL : Left S t f h s₀ r s) (ho : r.owner = some t) (hI' : s'.Inv S)
    (hk : s.Kept S t (Scope.temps t) s') :
  Left S t f h s₀ r s'
  := by
  obtain ⟨hk₀, hI, hf, sl, v, hH, hT⟩ := hL
  exact ⟨hk₀.trans (Scope.temps_commit hk h f), hI', hk.fills f r id hf ho, sl, v, hH.temps hk,
    hT.mono hI hH hk.mono⟩

theorem wp_discardTemps
    {ps : List Path} (hI : s.Inv S) (hp : ∀ p ∈ ps, ∃ n k, p = .tmp t n k) :
  (discipline S Restart).WP t (discard ps) (fun _ s' => s.Kept S t (Scope.temps t) s' ∧ s'.Inv S) s
  := wp_discardTmp hI hp fun n k => ⟨n, k, rfl⟩

/-- Discarding temporary files and returning leaves the entry as it is. -/
theorem Left.giveUp
    {α : Type} {a : α} {ps : List Path} (hL : Left S t f h s₀ r s) (ho : r.owner = some t)
    (hp : ∀ p ∈ ps, ∃ n k, p = .tmp t n k) :
  (discipline S Restart).WP t (do discard ps; return a)
    (fun b s' => b = a ∧ Left S t f h s₀ r s') s
  := by
  apply WP.seq (wp_discardTemps hL.2.1 hp)
  rintro _ s' ⟨hk, hI'⟩
  exact ⟨rfl, hL.temps ho hI' hk⟩

theorem Publication.left
    (hP : Publication S t nb nc f h s₀ r T sl v s) (hT : s.Tidy v) :
  Left S t f h s₀ r s
  := ⟨hP.kept, hP.inv, hP.pub.1, sl, v, hP.held, hT⟩

theorem Publication.left_of_faulted
    (hP : Publication S t nb nc f h s₀ r T sl v s) (hf : s.faulted = true) :
  Left S t f h s₀ r s
  := hP.left (Tidy.of_faulted hf)

/-! ### Publishing the metadata -/

/-- The metadata `m` is ready to be published for the fill `f`: it has the id of the fill,
and it is the metadata `arg` handed to the commit, reconciled with that of the entry. -/
structure Publishable (S : Setting E) (f : ℕ) (r : Fill E) (arg m : CacheMeta) (sl : View)
    (s : DiskCache E) : Prop where
  fillId : r.fillId = some m.fillId
  pos : 0 < m.fillId
  counter : m.fillId.toNat < s.counterValue
  ok : S.InfoOk r.key m
  source : m = arg.stamped m.fillId ∨ ∃ g c, s.parseAt sl.info = some (g, c) ∧
    m = (arg.preserveSameEtagHeadStateFrom c).stamped m.fillId

theorem parseAt_mono
    {i : Option ℕ} (hi : ∀ j, i = some j → j < s.nextIno) (hm : s.Mono S s') :
  s'.parseAt i = s.parseAt i
  := by
  cases i with
  | none => rfl
  | some j => exact congrArg File.parse (hm.data j (hi j rfl))

theorem Publishable.mono
    {arg m : CacheMeta} (hp : Publishable S f r arg m sl s)
    (hi : ∀ j, sl.info = some j → j < s.nextIno) (hm : s.Mono S s') :
  Publishable S f r arg m sl s'
  :=
  { hp with
    counter := hp.counter.trans_le hm.counter
    source := by
      rw [parseAt_mono hi hm]
      exact hp.source }

/-- The fill `f` has been published: the entry is complete, and it is the fill's. -/
structure Published (S : Setting E) (t f : ℕ) (h : String) (s₀ : DiskCache E) (r : Fill E)
    (v : View) (s : DiskCache E) : Prop where
  kept : s₀.Kept S t (Scope.commit t h f) s
  inv : s.Inv S
  held : s.Held t h v v
  pub : s.Publishing t f h r
  whole : ∃ i j b m, v.body = some i ∧ v.info = some j ∧ i < s.nextIno ∧ j < s.nextIno ∧
    s.data i = .body f b ∧ s.data j = .json f m

theorem Published.left
    (hP : Published S t f h s₀ r v s) :
  Left S t f h s₀ r s
  := by
  obtain ⟨i, j, b, m, hb, hi, -, -, hdb, hdi⟩ := hP.whole
  exact ⟨hP.kept, hP.inv, hP.pub.1, v, v, hP.held,
    fun _ _ => Or.inl ⟨i, j, f, b, m, hb, hi, hdb, hdi⟩⟩

/-- Rename the metadata of the fill into place, its body being there already. -/
theorem wp_publishMeta
    {arg m : CacheMeta} {i j : ℕ} {b : List UInt8}
    (hP : Publication S t nb nc f h s₀ r T sl v s) (hp : Publishable S f r arg m sl s)
    (hT : T .metaJson = some j) (hd : s.data j = .json f m) (hvb : v.body = some i)
    (hdb : s.data i = .body f b) :
  (discipline S Restart).WP t
    (rename (tempPath t nb nc .metaJson) (.metaJson h) (recordWrite t h (.publish arg)))
    (fun res s' => s.Mono S s' ∧
      match res with
      | .ok () => ∃ v', Published S t f h s₀ r v' s'
      | .error _ => Publication S t nb nc f h s₀ r T sl v s' ∧ s'.faulted = true) s
  := by
  have hj : j < s.nextIno := hP.inv.linked _ j ((hP.temps .metaJson).trans hT)
  have hib : i < s.nextIno := hP.inv.linked _ i (hP.held.body_eq.trans hvb)
  have hsl : ∀ j, sl.info = some j → j < s.nextIno := by
    intro j hj
    rw [← hP.held.slot] at hj
    exact hP.inv.slot_info_lt h j hj
  apply wp_fsCall
  · intro s₁ hI hR
    have hP₁ := hP.rely hI hR
    have hj₁ : s₁.files (tempPath t nb nc .metaJson) = some j := (hP₁.temps .metaJson).trans hT
    obtain ⟨hM₁, hP₂⟩ := hP₁.link_temp (i := none) (k := .metaJson) (by
      intro j hj
      cases hj)
    have hm := hR.mono.trans hM₁.mono
    have hp₂ := hp.mono hsl hm
    have hd₂ := (hm.data j hj).trans hd
    have hdb₂ := (hm.data i hib).trans hdb
    obtain ⟨hf, ho, hfin, hh, -, -⟩ := hP₂.pub
    have heq := recordWrite_eq (t := t) (h := h) (j := j) s₁ (.publish arg) hd₂ rfl rfl
    have hM₂ := moves_replaceInfo (w := ⟨t, h, .publish arg, f, _, m⟩) hP₂.inv hP₂.held.lock
      (hj.trans_le hm.ino) hd₂ ⟨r, hf, hh, hp₂.fillId, hp₂.ok⟩ (Or.inl ⟨r, hP₂.pub⟩)
      (by
        intro _ i' j' f' b' g' m' hi' hj' hdi' hdj'
        rw [hP₂.held.view] at hi'
        obtain rfl := Option.some.inj (hvb.symm.trans hi')
        obtain rfl : j = j' := by simpa using hj'
        obtain ⟨rfl, -⟩ : f = f' ∧ b = b' := by simpa using hdb₂.symm.trans hdi'
        obtain ⟨rfl, -⟩ : f = g' ∧ m = m' := by simpa using hd₂.symm.trans hdj'
        rfl)
      (by
        refine ⟨hP₂.unwritten, ?_⟩
        rw [← hP₂.held.slot] at hp₂
        exact hp₂.source)
      (fun _ => hp₂.counter) (fun _ _ => ⟨hp₂.pos, hp₂.counter⟩)
    have hM := hM₁.trans hM₂
    simp only [hj₁, heq]
    refine ⟨hM, hR.mono.trans hM.mono, _, ?_, hM.inv, hP₂.held.replaceInfo, hP₂.pub, ?_⟩
    · apply hP₂.kept.trans
      apply kept_replaceInfo hM₂.mono (Or.inl (Or.inl rfl)) rfl
      rintro f' r' hX - - - rfl
      exact hX rfl
    · exact ⟨i, j, b, m, hvb, rfl, hib.trans_le hm.ino, hj.trans_le hm.ino, hdb₂, hd₂⟩
  · intro s₁ hI hR
    exact ⟨hR.mono.trans (moves_fault (t := t) hI).mono, (hP.rely hI hR).fault, rfl⟩

theorem Published.temps
    (hP : Published S t f h s₀ r v s) (hI' : s'.Inv S) (hk : s.Kept S t (Scope.temps t) s') :
  Published S t f h s₀ r v s'
  := by
  obtain ⟨i, j, b, m, hb, hi, hlb, hli, hdb, hdi⟩ := hP.whole
  exact ⟨hP.kept.trans (Scope.temps_commit hk h f), hI', hP.held.temps hk,
    hP.pub.kept hk id fun _ => id, i, j, b, m, hb, hi, hlb.trans_le hk.mono.ino,
    hli.trans_le hk.mono.ino, (hk.mono.data i hlb).trans hdb, (hk.mono.data j hli).trans hdi⟩

/-- Discard temporary files once the fill is published. -/
theorem wp_whenDiscard
    {b : Bool} {p : Path} (hP : Published S t f h s₀ r v s) (hp : ∃ n k, p = .tmp t n k) :
  (discipline S Restart).WP t (Async.when b (discard [p]))
    (fun _ s' => Published S t f h s₀ r v s') s
  := by
  apply WP.when hP
  intro _
  apply WP.mono (wp_discardTemps hP.inv (by simpa using hp))
  rintro _ s' ⟨hk, hI'⟩
  exact hP.temps hI' hk

/-! ### Moving the new files into place -/

/-- Remove the new body, when its metadata could not be moved into place. -/
theorem wp_dropBody
    (hP : Publication S t nb nc f h s₀ r T sl v s) :
  (discipline S Restart).WP t (discard [.body h])
    (fun _ s' => s.Mono S s' ∧ ∃ sl' v', Publication S t nb nc f h s₀ r T sl' v' s' ∧
      sl'.info = sl.info) s
  := by
  have hrm : (discipline S Restart).WP t (removeFile (.body h))
      (fun _ s' => s.Mono S s' ∧ ∃ sl' v', Publication S t nb nc f h s₀ r T sl' v' s' ∧
        sl'.info = sl.info) s := by
    apply wp_fsCall
    · intro s₁ hI hR
      have hP₁ := hP.rely hI hR
      cases hf : s₁.files (.body h) with
      | none => exact ⟨Moves.refl hI, hR.mono, sl, v, hP₁, rfl⟩
      | some i =>
          have hM : Moves S t s₁ (s₁.unlink (.body h)) :=
            moves_unlink hI hP₁.held.lock rfl fun hne => absurd rfl hne
          refine ⟨hM, hR.mono.trans hM.mono, _, _, ⟨?_, hM.inv, hP₁.held.unlink (p := .body h) rfl, hP₁.pub,
            hP₁.unwritten, ?_⟩, rfl⟩
          · exact hP₁.kept.trans (kept_unlink hM.mono rfl (Or.inl (Or.inl rfl)) rfl)
          · intro k
            rw [← hP₁.temps k]
            apply link_files_of_ne
            intro hk
            have hn := tempPath_not_entry t nb nc k h
            rw [hk] at hn
            exact hn rfl
    · intro s₁ hI hR
      exact ⟨hR.mono.trans (moves_fault (t := t) hI).mono, sl, v, (hP.rely hI hR).fault, rfl⟩
  apply WP.seq (Q := fun _ s' => s.Mono S s' ∧
    ∃ sl' v', Publication S t nb nc f h s₀ r T sl' v' s' ∧ sl'.info = sl.info)
  · apply WP.seq hrm
    intro _ s' hs'
    exact hs'
  · intro _ s' hs'
    exact hs'

/-- The old files have been moved away, unless some call has failed. -/
structure Backed (T : TmpKind → Option ℕ) (sl v : View) (oldBody oldMeta : Bool)
    (s : DiskCache E) : Prop where
  body_saved : oldBody = true → T .prevBody = sl.body
  meta_saved : oldMeta = true → T .prevMetaJson = sl.info
  body_gone : s.faulted = false → oldBody = false → sl.body = none
  meta_gone : s.faulted = false → oldMeta = false → sl.info = none
  empty : s.faulted = false → v.body = none ∧ v.info = none

/-- The body handed to the commit was written for the fill. -/
def BodyReady (S : Setting E) (f : ℕ) (r : Fill E) (i : Option ℕ) (s : DiskCache E) : Prop :=
  ∀ j, i = some j → j < s.nextIno ∧ ∃ b, s.data j = .body f b ∧ S.BodyOk r.born r.key b

theorem BodyReady.mono
    {i : Option ℕ} (hb : BodyReady S f r i s) (hm : s.Mono S s') :
  BodyReady S f r i s'
  := by
  intro j hj
  obtain ⟨hlt, b, hd, hok⟩ := hb j hj
  exact ⟨hlt.trans_le hm.ino, b, (hm.data j hlt).trans hd, hok⟩

theorem Backed.mono
    {oldBody oldMeta : Bool} (hB : Backed T sl v oldBody oldMeta s) (hm : s.Mono S s') :
  Backed T sl v oldBody oldMeta s'
  :=
  { hB with
    body_gone := fun hf => hB.body_gone (unfaulted_of_mono hm hf)
    meta_gone := fun hf => hB.meta_gone (unfaulted_of_mono hm hf)
    empty := fun hf => hB.empty (unfaulted_of_mono hm hf) }

/-- The files that the entry was last left with keep it tidy. -/
theorem Tidy.slot_mono
    (hT : s.Tidy sl) (hI : s.Inv S) (hH : s.Held t h sl v) (hm : s.Mono S s') :
  s'.Tidy sl
  := by
  intro hf hd
  rw [← hH.slot] at hT ⊢
  exact (hT (unfaulted_of_mono hm hf) (undropped_of_mono hm hd)).congr hm.bootFill
    (fun i hi => hm.data i (hI.slot_body_lt h i hi))
    (fun j hj => hm.data j (hI.slot_info_lt h j hj))

theorem Tidy.congr
    {v' : View} (hT : s.Tidy v)
    (hv : s.faulted = false → v'.body = v.body ∧ v'.info = v.info) :
  s.Tidy v'
  := by
  intro hf hd
  obtain ⟨hb, hi⟩ := hv hf
  exact (hT hf hd).imp (by rw [hb, hi]; exact id) (by rw [hb, hi]; exact id)

/-- Give the publication up before the new body is in place: the old files are put back. -/
theorem wp_undoBody
    {e : CacheError} {oldBody oldMeta : Bool} {ps : List Path}
    (hP : Publication S t nb nc f h s₀ r T sl v s) (hB : Backed T sl v oldBody oldMeta s)
    (hT : s.Tidy sl) (hps : ∀ p ∈ ps, ∃ n k, p = .tmp t n k) :
  (discipline S Restart).WP t
    (do
      Async.when oldBody (restorePublishBackup (.body h) (.tmp t nc .prevBody))
      Async.when oldMeta (restorePublishBackup (.metaJson h) (.tmp t nc .prevMetaJson))
      discard ps
      return (.error e : Except CacheError Unit))
    (fun res s' => res = .error e ∧ Left S t f h s₀ r s') s
  := by
  apply WP.seq (wp_restoreBody hP hB.body_saved hB.body_gone hB.empty)
  rintro _ s₁ ⟨hm₁, T₁, v₁, hP₁, hT₁, hi₁, hb₁⟩
  apply WP.seq (wp_restoreMeta hP₁ _ _ _)
  · rintro _ s₂ ⟨hm₂, T₂, v₂, hP₂, hv₂⟩
    apply Left.giveUp _ hP.pub.2.1 hps
    apply hP₂.left
    exact (hT.slot_mono hP.inv hP.held (hm₁.trans hm₂)).congr hv₂
  · intro ho
    rw [hT₁, hB.meta_saved ho]
  · intro hf
    exact hB.meta_gone (unfaulted_of_mono hm₁ hf)
  · intro hf
    exact ⟨hb₁ hf, hi₁.trans (hB.empty (unfaulted_of_mono hm₁ hf)).2⟩

/-- Give the publication up when the new metadata could not be moved into place. Some call
has failed, so nothing is owed about the files that the entry is left with. -/
theorem wp_undoMeta
    {e : CacheError} {oldBody oldMeta : Bool} {ps : List Path}
    (hP : Publication S t nb nc f h s₀ r T sl v s) (hf : s.faulted = true)
    (hbody : oldBody = true → T .prevBody = sl.body)
    (hmeta : oldMeta = true → T .prevMetaJson = sl.info)
    (hps : ∀ p ∈ ps, ∃ n k, p = .tmp t n k) :
  (discipline S Restart).WP t
    (do
      Async.when oldBody (restorePublishBackup (.body h) (.tmp t nc .prevBody))
      Async.when (!oldBody) (discard [.body h])
      Async.when oldMeta (restorePublishBackup (.metaJson h) (.tmp t nc .prevMetaJson))
      discard ps
      return (.error e : Except CacheError Unit))
    (fun res s' => res = .error e ∧ Left S t f h s₀ r s') s
  := by
  have hnot : ∀ {s' : DiskCache E} {q : Prop}, s.Mono S s' → s'.faulted = false → q := by
    intro s' q hm hf'
    rw [hm.faulted hf] at hf'
    cases hf'
  apply WP.seq (wp_restoreBody hP hbody (hnot (Mono.refl S s)) (hnot (Mono.refl S s)))
  rintro _ s₁ ⟨hm₁, T₁, v₁, hP₁, hT₁, -, -⟩
  apply WP.seq (Q := fun _ s' => s.Mono S s' ∧
    ∃ sl' v', Publication S t nb nc f h s₀ r T₁ sl' v' s' ∧ sl'.info = sl.info)
  · apply WP.when ⟨hm₁, sl, v₁, hP₁, rfl⟩
    intro _
    apply WP.mono (wp_dropBody hP₁)
    rintro _ s₂ ⟨hm₂, hex⟩
    exact ⟨hm₁.trans hm₂, hex⟩
  rintro _ s₂ ⟨hm₂, sl₂, v₂, hP₂, hi₂⟩
  apply WP.seq (wp_restoreMeta hP₂ _ (hnot hm₂) (hnot hm₂))
  · rintro _ s₃ ⟨hm₃, T₃, v₃, hP₃, -⟩
    apply Left.giveUp _ hP.pub.2.1 hps
    exact hP₃.left_of_faulted (hm₃.faulted (hm₂.faulted hf))
  · intro ho
    rw [hT₁, hmeta ho, hi₂]

/-- What a commit comes to: the fill is published, or the commit has failed. -/
def Outcome (S : Setting E) (t f : ℕ) (h : String) (s₀ : DiskCache E) (r : Fill E)
    (res : Except CacheError Unit) (s : DiskCache E) : Prop :=
  match res with
  | .ok () => ∃ v, Published S t f h s₀ r v s
  | .error _ => Left S t f h s₀ r s

theorem Outcome.of_error
    {e : CacheError} {res : Except CacheError Unit} (hr : res = .error e ∧ Left S t f h s₀ r s) :
  Outcome S t f h s₀ r res s
  := by
  obtain ⟨rfl, hL⟩ := hr
  exact hL

/-- Move the new files into place. -/
theorem wp_installFiles
    {arg m : CacheMeta} {j : ℕ} {oldBody oldMeta : Bool}
    (hP : Publication S t nb nc f h s₀ r T sl v s) (hB : Backed T sl v oldBody oldMeta s)
    (hT : s.Tidy sl) (hbody : BodyReady S f r (T .body) s) (hp : Publishable S f r arg m sl s)
    (hj : T .metaJson = some j) (hd : s.data j = .json f m) :
  (discipline S Restart).WP t
    (installFiles arg h t nc oldBody oldMeta (.tmp t nb .body) (.tmp t nc .metaJson))
    (Outcome S t f h s₀ r) s
  := by
  have htmp : ∀ n k, ∃ n' k', Path.tmp t n k = .tmp t n' k' := fun n k => ⟨n, k, rfl⟩
  have hsl : ∀ i, sl.info = some i → i < s.nextIno := by
    intro i hi
    rw [← hP.held.slot] at hi
    exact hP.inv.slot_info_lt h i hi
  have hjlt : j < s.nextIno := hP.inv.linked _ j ((hP.temps .metaJson).trans hj)
  apply WP.seq (wp_moveIn .body hP (p := .body h) rfl _)
  · rintro res s₁ ⟨hm₁, hres⟩
    match res, hres with
    | .error e, ⟨hP₁, _⟩ =>
        apply WP.mono (wp_undoBody hP₁ (hB.mono hm₁) (hT.slot_mono hP.inv hP.held hm₁)
          (by simp))
        intro res s₂ hres
        exact Outcome.of_error hres
    | .ok (), ⟨hsome, hP₁⟩ =>
        obtain ⟨i, hi⟩ := Option.ne_none_iff_exists'.mp hsome
        obtain ⟨hlt, b, hdb, hok⟩ := (hbody.mono hm₁) i hi
        apply WP.seq (wp_publishMeta hP₁ (hp.mono hsl hm₁) (j := j) hj
          ((hm₁.data j hjlt).trans hd) hi hdb)
        rintro res s₂ ⟨hm₂, hres⟩
        match res, hres with
        | .error e, ⟨hP₂, hf⟩ =>
            apply WP.mono (wp_undoMeta hP₂ hf hB.body_saved hB.meta_saved (by simp))
            intro res s₃ hres
            exact Outcome.of_error hres
        | .ok (), ⟨v', hP₂⟩ =>
            apply WP.seq (wp_whenDiscard hP₂ (htmp _ _))
            intro _ s₃ hP₃
            apply WP.seq (wp_whenDiscard hP₃ (htmp _ _))
            intro _ s₄ hP₄
            exact ⟨v', hP₄⟩
  · intro i s₁ hi hm hP₁
    obtain ⟨hlt, b, hdb, hok⟩ := (hbody.mono hm) i hi
    apply moves_link_body hP₁.inv hP₁.held.lock _
      (Or.inr (Or.inr ⟨i, f, b, r, rfl, hdb, hP₁.pub, hok⟩))
    · intro hf
      apply Paired.of_info_none
      rw [hP₁.held.view]
      exact (hB.empty (unfaulted_of_mono hm hf)).2
    · rintro j hj
      obtain rfl := Option.some.inj hj
      exact hlt

/-! ### Moving the old files away -/

theorem FoundResult.toBool
    {β : Type} {res : Except IoError β} (hr : FoundResult p res s) :
  (res.toBool = true → s.files p ≠ none) ∧
    (s.faulted = false → res.toBool = false → s.files p = none)
  := by
  match res, hr with
  | .ok _, ⟨i, hi⟩ =>
      constructor
      · intro _
        rw [hi]
        exact Option.some_ne_none i
      · intro _ hb
        cases hb
  | .error .notFound, hr =>
      constructor
      · intro hb
        cases hb
      · intro _ _
        exact hr
  | .error .alreadyExists, hr | .error .other, hr =>
      constructor
      · intro hb
        cases hb
      · intro hf
        rw [show s.faulted = true from hr] at hf
        cases hf

theorem backed_of_moves
    {oldBody oldMeta : Bool} {T₁ T₂ : TmpKind → Option ℕ} {v₁ v₂ : View}
    (h₁ : if oldBody then T₁ = Function.update T .prevBody v.body ∧ v₁ = { v with body := none }
      else T₁ = T ∧ v₁ = v)
    (h₂ : if oldMeta then T₂ = Function.update T₁ .prevMetaJson v₁.info ∧
        v₂ = { v₁ with info := none }
      else T₂ = T₁ ∧ v₂ = v₁)
    (hb : s.faulted = false → oldBody = false → v.body = none)
    (hm : s.faulted = false → oldMeta = false → v.info = none) :
  Backed T₂ v v₂ oldBody oldMeta s ∧ T₂ .body = T .body ∧ T₂ .metaJson = T .metaJson
  := by
  cases oldBody with
  | false =>
      obtain ⟨rfl, rfl⟩ := h₁
      cases oldMeta with
      | false =>
          obtain ⟨rfl, rfl⟩ := h₂
          exact ⟨⟨nofun, nofun, hb, hm, fun hf => ⟨hb hf rfl, hm hf rfl⟩⟩, rfl, rfl⟩
      | true =>
          obtain ⟨rfl, rfl⟩ := h₂
          exact ⟨⟨nofun, fun _ => rfl, hb, hm, fun hf => ⟨hb hf rfl, rfl⟩⟩, rfl, rfl⟩
  | true =>
      obtain ⟨rfl, rfl⟩ := h₁
      cases oldMeta with
      | false =>
          obtain ⟨rfl, rfl⟩ := h₂
          exact ⟨⟨fun _ => rfl, nofun, hb, hm, fun hf => ⟨rfl, hm hf rfl⟩⟩, rfl, rfl⟩
      | true =>
          obtain ⟨rfl, rfl⟩ := h₂
          exact ⟨⟨fun _ => rfl, fun _ => rfl, hb, hm, fun _ => ⟨rfl, rfl⟩⟩, rfl, rfl⟩

/-- Move the old files away and the new ones into place. -/
theorem wp_publishFiles
    {arg m : CacheMeta} {j : ℕ} (hP : Publication S t nb nc f h s₀ r T v v s) (hT : s.Tidy v)
    (hbody : BodyReady S f r (T .body) s) (hp : Publishable S f r arg m v s)
    (hj : T .metaJson = some j) (hd : s.data j = .json f m) :
  (discipline S Restart).WP t
    (publishFiles arg h t nc (.tmp t nb .body) (.tmp t nc .metaJson)) (Outcome S t f h s₀ r) s
  := by
  have hvi : ∀ i, v.info = some i → i < s.nextIno := by
    intro i hi
    exact hP.inv.linked _ i (hP.held.info_eq.trans hi)
  have hjlt : j < s.nextIno := hP.inv.linked _ j ((hP.temps .metaJson).trans hj)
  -- When a file could not be moved, some call has failed.
  have hfail : ∀ s' T' v', Publication S t nb nc f h s₀ r T' v v' s' → s'.faulted = true →
      ∀ e : CacheError, (discipline S Restart).WP t
        (do
          discard [.tmp t nb .body, .tmp t nc .metaJson]
          return (.error e : Except CacheError Unit))
        (Outcome S t f h s₀ r) s' := by
    intro s' T' v' hP' hf e
    apply WP.mono (Left.giveUp (hP'.left_of_faulted hf) hP.pub.2.1 (by simp))
    intro res s'' hres
    exact Outcome.of_error hres
  apply WP.seq (wp_fileMetadata (X := Scope.none) (.body h))
  rintro resb s₁ ⟨hR₁, hI₁, hb⟩
  have hP₁ := hP.rely hI₁ hR₁
  obtain ⟨hb, hb'⟩ := hb.toBool
  rw [hP₁.held.body_eq] at hb hb'
  apply WP.seq (wp_fileMetadata (X := Scope.none) (.metaJson h))
  rintro resm s₂ ⟨hR₂, hI₂, hm⟩
  have hP₂ := hP₁.rely hI₂ hR₂
  obtain ⟨hm, hm'⟩ := hm.toBool
  rw [hP₂.held.info_eq] at hm hm'
  generalize resb.toBool = oldBody at hb hb' ⊢
  generalize resm.toBool = oldMeta at hm hm' ⊢
  apply WP.seq (wp_moveAway .prevBody hP₂ (p := .body h) rfl hb)
  rintro res s₃ ⟨hm₃, hres⟩
  match res, hres with
  | .error e, ⟨hP₃, hf⟩ => exact hfail s₃ T v hP₃ hf _
  | .ok (), ⟨T₁, v₁, hP₃, h₁⟩ =>
  have hi₁ : v₁.info = v.info := by
    cases oldBody with
    | false => rw [h₁.2]
    | true =>
        rw [h₁.2]
        rfl
  apply WP.seq (wp_moveAway .prevMetaJson hP₃ (p := .metaJson h) rfl (by
    intro ho
    change v₁.info ≠ none
    rw [hi₁]
    exact hm ho))
  rintro res s₄ ⟨hm₄, hres⟩
  match res, hres with
  | .error e, ⟨hP₄, hf⟩ =>
      have hnot : ∀ {q : Prop}, s₄.faulted = false → q := by
        intro q hf'
        rw [hf] at hf'
        cases hf'
      apply WP.seq (wp_restoreBody hP₄ _ hnot hnot)
      · rintro _ s₅ ⟨hm₅, T₅, v₅, hP₅, -⟩
        exact hfail s₅ T₅ v₅ hP₅ (hm₅.faulted hf) _
      · rintro rfl
        rw [h₁.1]
        rfl
  | .ok (), ⟨T₂, v₂, hP₄, h₂⟩ =>
      have hm₁ : s.Mono S s₄ := ((hR₁.mono.trans hR₂.mono).trans hm₃).trans hm₄
      obtain ⟨hB, hTb, hTm⟩ := backed_of_moves (s := s₄) (T := T) (v := v) h₁ h₂
        (fun hf => hb' (unfaulted_of_mono ((hR₂.mono.trans hm₃).trans hm₄) hf))
        (fun hf => hm' (unfaulted_of_mono (hm₃.trans hm₄) hf))
      apply wp_installFiles hP₄ hB (hT.mono hP.inv hP.held hm₁) _ (hp.mono hvi hm₁)
        (hTm.trans hj) ((hm₁.data j hjlt).trans hd)
      rw [hTb]
      exact hbody.mono hm₁

/-! ### Writing the new metadata -/

/-- Write the new metadata to its temporary file. -/
theorem wp_writeTempMeta
    {guard : FillGuard} {m : CacheMeta} (hg : guard.fill = f)
    (hP : Publication S t nb nc f h s₀ r T sl v s) (hT : s.Tidy v) :
  (discipline S Restart).WP t (writeTempMeta guard m (.tmp t nb .body) (.tmp t nc .metaJson))
    (fun res s' =>
      match res with
      | .ok () => s.Mono S s' ∧ ∃ T' j, Publication S t nb nc f h s₀ r T' sl v s' ∧
          T' .body = T .body ∧ T' .metaJson = some j ∧ s'.data j = .json f m
      | .error _ => Left S t f h s₀ r s') s
  := by
  subst hg
  have hfail : ∀ s', Left S t guard.fill h s₀ r s' → ∀ e : CacheError,
      (discipline S Restart).WP t
        (do
          discard [.tmp t nb .body, .tmp t nc .metaJson]
          return (.error e : Except CacheError Unit))
        (fun res s' =>
          match res with
          | .ok () => s.Mono S s' ∧ ∃ T' j, Publication S t nb nc guard.fill h s₀ r T' sl v s' ∧
              T' .body = T .body ∧ T' .metaJson = some j ∧ s'.data j = .json guard.fill m
          | .error _ => Left S t guard.fill h s₀ r s') s' := by
    intro s' hL e
    apply WP.mono (Left.giveUp hL hP.pub.2.1 (by simp))
    rintro res s'' ⟨rfl, hL'⟩
    exact hL'
  apply WP.seq (wp_writeFile (X := Scope.name (.tmp t nc .metaJson))
    (p := .tmp t nc .metaJson) _ rfl rfl)
  rintro res s₁ ⟨hk₁, hI₁, hres⟩
  have hkt : s.Kept S t (Scope.temps t) s₁ :=
    hk₁.weaken (fun p hp => ⟨nc, .metaJson, hp⟩) (fun _ => id) (fun _ => id) (fun _ => id)
  have hP₁ : Publication S t nb nc guard.fill h s₀ r
      (fun k => s₁.files (tempPath t nb nc k)) sl v s₁ :=
    ⟨hP.kept.trans (Scope.temps_commit hkt h _), hI₁, hP.held.temps hkt,
      hP.pub.kept hk₁ id (fun _ => id), hk₁.unwritten _ r id hP.pub.1 hP.pub.2.1 hP.unwritten,
      fun _ => rfl⟩
  have hT₁ := hT.mono hP.inv hP.held hk₁.mono
  have hbody : s₁.files (tempPath t nb nc .body) = T .body := by
    refine (hk₁.files _ ?_ (tempPath_owns s t nb nc .body)).trans (hP.temps .body)
    intro hp
    cases hp
  match res, hres with
  | .error e, _ => exact hfail s₁ (hP₁.left hT₁) _
  | .ok (), ⟨j, hj, hd⟩ =>
  apply WP.seq (wp_openFile (X := Scope.none) (.tmp t nc .metaJson))
  rintro res s₂ ⟨hR₂, hI₂, -⟩
  have hP₂ := hP₁.rely hI₂ hR₂
  have hT₂ := hT₁.mono hP₁.inv hP₁.held hR₂.mono
  match res with
  | .error e => exact hfail s₂ (hP₂.left hT₂) _
  | .ok _ =>
  apply WP.seq (wp_fsEffect (X := Scope.none))
  rintro res s₃ ⟨hR₃, hI₃, -⟩
  have hP₃ := hP₂.rely hI₃ hR₃
  have hT₃ := hT₂.mono hP₂.inv hP₂.held hR₃.mono
  have hm := hR₂.mono.trans hR₃.mono
  match res with
  | .error e => exact hfail s₃ (hP₃.left hT₃) _
  | .ok () =>
      exact ⟨hk₁.mono.trans hm, _, j, hP₃, hbody, hj,
        (hm.data j (hI₁.linked _ j hj)).trans hd⟩

/-! ### The commit under the locks -/

/-- The metadata that is published agrees with what the callers promise. -/
theorem reconciled_spec
    {guard : FillGuard} {arg : CacheMeta} {res : Except IoError File} (hI : s.Inv S)
    (hH : s.Held t h v v) (hh : guard.key.hash = h) (hr : ReadResult (.metaJson h) res s)
    (ha : S.InfoOk guard.key arg) :
  S.InfoOk guard.key (reconciled arg res) ∧
    (reconciled arg res = arg ∨ ∃ g c, s.parseAt v.info = some (g, c) ∧
      reconciled arg res = arg.preserveSameEtagHeadStateFrom c)
  := by
  match res, hr with
  | .error _, _ => exact ⟨ha, Or.inl rfl⟩
  | .ok (.body _ _), _ => exact ⟨ha, Or.inl rfl⟩
  | .ok (.counter _), _ => exact ⟨ha, Or.inl rfl⟩
  | .ok (.raw _), _ => exact ⟨ha, Or.inl rfl⟩
  | .ok (.json g c), ⟨i, hi, hd⟩ =>
      rw [hH.info_eq] at hi
      have hs : (s.slot h).info = some i := by rw [hH.slot, hi]
      obtain ⟨r', -, hh', -, hok⟩ := (hI.infos h i g c hs hd).fill
      refine ⟨S.info_preserve ha hok (hh'.trans hh.symm), Or.inr ⟨g, c, ?_, rfl⟩⟩
      rw [hi]
      exact congrArg File.parse hd

/-- The generation of the key of a fill in progress. -/
theorem wp_currentGeneration
    {guard : FillGuard} (hg : s.Guarded t guard r) :
  (discipline S Restart).WP t (currentGeneration guard.key)
    (fun g s' => s.Rely S t s' ∧ s'.Inv S ∧ g = (s'.entries r.entry).generation) s
  := by
  intro s₁ c g s₂ hI hR hf
  obtain ⟨rfl, rfl⟩ := Prod.mk.inj (Option.some.inj hf)
  have hg₁ := hg.kept hR id
  have hact := (hI.active _ r hg₁.fill (hI.owned _ r t hg₁.fill hg.owner)).1
  rw [hg.key] at hact
  refine ⟨(Moves.refl hI).guar, hR, hI, ?_⟩
  rw [hact]
  rfl

/-- A commit is over: the entry is tidy, and the task still has the guard of the fill. -/
def Ended (S : Setting E) (t f : ℕ) (h : String) (s₀ : DiskCache E) (key : CacheKey)
    (s : DiskCache E) : Prop :=
  ∃ r, r.key = key ∧ r.owner = some t ∧ Left S t f h s₀ r s

/-- Once the fill is published, the poison of the entry is cleared: it was not the fill
that was poisoned. -/
theorem wp_clearPublished
    (hP : Published S t f h s₀ r v s) :
  (discipline S Restart).WP t
    (do
      clearPoisonedInMemory h
      discard [.poisoned h]
      return (.ok () : Except CacheError Unit))
    (fun _ s' => Left S t f h s₀ r s') s
  := by
  obtain ⟨i, j, b, m, hb, hi, -, -, hdb, hdi⟩ := hP.whole
  have hM : Moves S t s (s.setPoisoned h false) := by
    apply moves_setPoisoned hP.inv hP.held.lock
    intro hw _ f' r' hbar _ _
    have hne : f ≠ f' := by
      rintro rfl
      exact hP.pub.not_barred hP.inv hw hbar
    rw [hP.held.slot]
    constructor
    · intro i' b' hi' hd'
      obtain rfl := Option.some.inj (hb.symm.trans hi')
      rw [hdb] at hd'
      injection hd' with hff _
      exact hne hff
    · intro j' m' hj' hd'
      obtain rfl := Option.some.inj (hi.symm.trans hj')
      rw [hdi] at hd'
      injection hd' with hff _
      exact hne hff
  intro _
  refine ⟨hM.guar, ?_⟩
  apply WP.seq (wp_discard (X := Scope.name (.poisoned h)) hM.inv (by simp [Mine])
    (by simp [Scope.name]))
  rintro _ s' ⟨hk, hI'⟩
  have hH : (s.setPoisoned h false).Held t h _ _ := hP.held.setPoisoned false
  have hT : (s.setPoisoned h false).Tidy { v with poisoned := false } :=
    fun _ _ => Or.inl ⟨i, j, f, b, m, hb, hi, hdb, hdi⟩
  refine ⟨?_, hI', hk.fills f r id hP.pub.1 hP.pub.2.1, _, _, hH.kept hk ?_ ?_ id,
    hT.mono hM.inv hH hk.mono⟩
  · apply (hP.kept.trans (kept_setPoisoned hM.mono rfl)).trans
    apply hk.weaken _ (fun _ => False.elim) (fun _ => False.elim) (fun _ => False.elim)
    rintro p rfl
    exact Or.inl (Or.inr (Or.inl rfl))
  · intro hp
    cases hp
  · intro hp
    cases hp

/-- The publication of the fill once it has been given an id. -/
theorem publication_of_reserved
    {r' : Fill E} {res : Except CacheError FillId} (hI : s'.Inv S) (hH : s.Held t h v v)
    (hp : s.Publishing t f h r) (hk₀ : s₀.Kept S t (Scope.commit t h f) s)
    (hk : s.Kept S t (Scope.reserve t f) s') (hr : Reserved f r res r' s') :
  Publication S t nb nc f h s₀ r' (fun k => s'.files (tempPath t nb nc k)) v v s'
  := by
  obtain ⟨-, ho, hfin, hh, hc, hg⟩ := hp
  refine ⟨?_, hI, ?_, ?_, hr.unwritten, fun _ => rfl⟩
  · apply hk₀.trans
    refine hk.weaken ?_ (fun _ => False.elim) (fun _ => False.elim) (fun _ hf => hf)
    rintro p (rfl | ⟨n, rfl⟩)
    · exact Or.inr (Or.inl rfl)
    · exact Or.inr (Or.inr ⟨n, _, rfl⟩)
  · apply hH.kept hk _ _ id
    · rintro (hp | ⟨n, hp⟩)
      · cases hp
      · cases hp
    · rintro (hp | ⟨n, hp⟩)
      · cases hp
      · cases hp
  · rw [hr.same]
    refine ⟨?_, ho, hfin, hh, hk.commitLock _ hc, ?_⟩
    · rw [hr.fill, ← hr.same]
    · rw [FillEntry.generation, hk.bumps _ id hc]
      exact hg

theorem BodyReady.congr
    {r' : Fill E} {i : Option ℕ} (hb : BodyReady S f r i s) (hborn : r'.born = r.born)
    (hkey : r'.key = r.key) :
  BodyReady S f r' i s
  := by
  intro j hj
  rw [hborn, hkey]
  exact hb j hj

/-- Commit a fill under the commit lock of its record and the lock of its entry. -/
theorem wp_commitLocked
    {guard : FillGuard} {arg : CacheMeta} (hI : s.Inv S) (hh : guard.key.hash = h)
    (hH : s.Held t h v v) (hT : s.Tidy v) (hg : s.Guarded t guard r)
    (hc : (s.entries r.entry).commitLock = some t)
    (hbody : BodyReady S guard.fill r (s.files (.tmp t nb .body)) s)
    (ha : S.InfoOk guard.key arg) :
  (discipline S Restart).WP t
    (commitLocked guard t nc (.tmp t nb .body) (.tmp t nc .metaJson) arg)
    (fun _ s' => Ended S t guard.fill h s guard.key s') s
  := by
  -- A commit that is given up leaves the entry as it is.
  have hgive : ∀ {s₁ : DiskCache E} {r₁ : Fill E} {ps : List Path} {a : Except CacheError Unit},
      Left S t guard.fill h s r₁ s₁ → r₁.key = guard.key → r₁.owner = some t →
      (∀ p ∈ ps, ∃ n k, p = .tmp t n k) →
      (discipline S Restart).WP t (do discard ps; return a)
        (fun _ s' => Ended S t guard.fill h s guard.key s') s₁ := by
    intro s₁ r₁ ps a hL hk ho hps
    apply WP.mono (Left.giveUp hL ho hps)
    rintro _ s' ⟨-, hL'⟩
    exact ⟨r₁, hk, ho, hL'⟩
  have hfin := hI.owned _ r t hg.fill hg.owner
  apply WP.seq (wp_currentGeneration hg)
  rintro g s₁ ⟨hR₁, hI₁, rfl⟩
  have hg₁ := hg.kept hR₁ id
  have hH₁ := hH.rely hR₁
  have hT₁ := hT.mono hI hH hR₁.mono
  split
  · exact hgive ⟨Rely.kept hR₁, hI₁, hg₁.fill, v, v, hH₁, hT₁⟩ hg.key hg.owner (by simp)
  next hgen =>
  have hp₁ : s₁.Publishing t guard.fill h r :=
    ⟨hg₁.fill, hg.owner, hfin, by rw [hg.key, hh], hR₁.commitLock _ hc,
      (not_not.mp hgen).trans hg.generation⟩
  rw [hh]
  apply WP.seq (wp_readFile (X := Scope.none) (.metaJson h))
  rintro cur s₂ ⟨hR₂, hI₂, hcur⟩
  have hR : s.Rely S t s₂ := Kept.trans hR₁ hR₂
  have hg₂ := hg.kept hR id
  have hH₂ := hH.rely hR
  have hT₂ := hT.mono hI hH hR.mono
  obtain ⟨hok, hsrc⟩ := reconciled_spec hI₂ hH₂ hh hcur ha
  have hv₂ : ∀ i, v.info = some i → i < s₂.nextIno :=
    fun i hi => hI₂.linked _ i (hH₂.info_eq.trans hi)
  generalize reconciled arg cur = m at hok hsrc ⊢
  apply WP.seq (wp_reserveFillId hg₂.fill hg.owner hg.fillId hg₂.unwritten)
  rintro res s₃ ⟨hk₃, hI₃, r', hr⟩
  have hkey : r'.key = guard.key := by
    rw [hr.same]
    exact hg.key
  have ho' : r'.owner = some t := by
    rw [hr.same]
    exact hg.owner
  have hP₃ : Publication S t nb nc guard.fill h s r' _ v v s₃ :=
    publication_of_reserved hI₃ hH₂ (hp₁.kept hR₂ id fun _ => id) (Rely.kept hR) hk₃ hr
  have hT₃ := hT₂.mono hI₂ hH₂ hk₃.mono
  cases res with
  | error e => exact hgive (hP₃.left hT₃) hkey ho' (by simp)
  | ok n =>
  have hb₃ : BodyReady S guard.fill r' (s₃.files (tempPath t nb nc .body)) s₃ := by
    have hfile : s₃.files (.tmp t nb .body) = s.files (.tmp t nb .body) := by
      refine (hk₃.files (.tmp t nb .body) ?_ rfl).trans (hR.files (.tmp t nb .body) id rfl)
      rintro (hp | ⟨n, hp⟩)
      · cases hp
      · cases hp
    rw [tempPath, hfile]
    apply (hbody.mono (hR.mono.trans hk₃.mono)).congr
    · rw [hr.same]
    · rw [hr.same]
  obtain ⟨hid, hpos, hcnt⟩ := hr.id n rfl
  have hpub₃ : Publishable S guard.fill r' arg (m.stamped n) v s₃ := by
    refine ⟨hid, hpos, hcnt, ?_, ?_⟩
    · rw [hkey]
      exact S.info_stamped n hok
    · obtain rfl | ⟨g, c, hpar, rfl⟩ := hsrc
      · exact Or.inl rfl
      · refine Or.inr ⟨g, c, ?_, rfl⟩
        rw [parseAt_mono hv₂ hk₃.mono, hpar]
  have hv₃ : ∀ i, v.info = some i → i < s₃.nextIno :=
    fun i hi => (hv₂ i hi).trans_le hk₃.mono.ino
  apply WP.seq (wp_writeTempMeta (m := m.stamped n) rfl hP₃ hT₃)
  intro res s₄ hres
  match res, hres with
  | .error e, hL => exact ⟨r', hkey, ho', hL⟩
  | .ok (), ⟨hm₄, T₄, j, hP₄, hTb, hTj, hdj⟩ =>
  have hT₄ := hT₃.mono hI₃ hP₃.held hm₄
  have hb₄ : BodyReady S guard.fill r' (T₄ .body) s₄ := by
    rw [hTb]
    exact hb₃.mono hm₄
  apply WP.seq (wp_publishFiles hP₄ hT₄ hb₄ (hpub₃.mono hv₃ hm₄) hTj hdj)
  intro res s₅ hres
  match res, hres with
  | .error e, hL => exact ⟨r', hkey, ho', hL⟩
  | .ok (), ⟨v', hP₅⟩ =>
      apply WP.mono (wp_clearPublished hP₅)
      intro _ s₆ hL
      exact ⟨r', hkey, ho', hL⟩

/-! ### Commits -/

/-- A task has all that it needs to commit a fill: the guard, a body that was written for
the fill, if any, and metadata that agrees with what the callers promise. -/
structure Ready (S : Setting E) (t nb : ℕ) (guard : FillGuard) (arg : CacheMeta) (r : Fill E)
    (s : DiskCache E) : Prop where
  guarded : s.Guarded t guard r
  body : BodyReady S guard.fill r (s.files (.tmp t nb .body)) s
  info : S.InfoOk guard.key arg

theorem Ready.kept
    {X : Scope} {guard : FillGuard} {arg : CacheMeta} (hr : Ready S t nb guard arg r s)
    (hk : s.Kept S t X s') (hX : ¬ X.fills guard.fill) (hn : ¬ X.names (.tmp t nb .body)) :
  Ready S t nb guard arg r s'
  where
  guarded := hr.guarded.kept hk hX
  body := by
    rw [hk.files (.tmp t nb .body) hn rfl]
    exact hr.body.mono hk.mono
  info := hr.info

theorem Ready.entered
    {guard : FillGuard} {arg : CacheMeta} (hr : Ready S t nb guard arg r s)
    (hE : Entered S t h s s') :
  Ready S t nb guard arg r s'
  := by
  obtain ⟨s₁, hR, -, -, rfl⟩ := hE
  have hr₁ := hr.kept hR id id
  exact ⟨⟨hr₁.guarded.fill, hr₁.guarded.key, hr₁.guarded.owner, hr₁.guarded.generation,
    hr₁.guarded.fillId, hr₁.guarded.unwritten⟩, hr₁.body, hr₁.info⟩

/-- The task still has the guard of the fill, which works for the key. -/
def Keeps (s : DiskCache E) (t f : ℕ) (key : CacheKey) : Prop :=
  ∃ r, s.fills f = some r ∧ r.key = key ∧ r.owner = some t

/-- Commit a fill. The task keeps the guard. -/
theorem wp_commitFillInner
    {guard : FillGuard} {arg : CacheMeta} (hi : s.Idle t)
    (hr : Ready S t nb guard arg r s) :
  (discipline S Restart).WP t (commitFillInner guard (.tmp t nb .body) arg)
    (fun _ s' => s.Kept S t (Scope.commit t guard.key.hash guard.fill) s' ∧ s'.Inv S ∧
      s'.Idle t ∧ s'.Keeps t guard.fill guard.key) s
  := by
  -- A commit that is given up before it has acquired the locks.
  have hgive : ∀ {s₁ : DiskCache E} {ps : List Path} {a : Except CacheError Unit},
      s.Rely S t s₁ → s₁.Inv S → (∀ p ∈ ps, ∃ n k, p = .tmp t n k) →
      (discipline S Restart).WP t (do discard ps; return a)
        (fun _ s' => s.Kept S t (Scope.commit t guard.key.hash guard.fill) s' ∧ s'.Inv S ∧
          s'.Idle t ∧ s'.Keeps t guard.fill guard.key) s₁ := by
    intro s₁ ps a hR hI₁ hps
    apply WP.seq (wp_discardTemps hI₁ hps)
    rintro _ s₂ ⟨hk, hI₂⟩
    have hk' : s.Kept S t (Scope.temps t) s₂ := (Rely.kept hR).trans hk
    exact ⟨Scope.temps_commit hk' _ _, hI₂, hi.kept hk', r,
      hk'.fills _ r id hr.guarded.fill hr.guarded.owner, hr.guarded.key, hr.guarded.owner⟩
  apply WP.seq (wp_currentGeneration hr.guarded)
  rintro g s₁ ⟨hR₁, hI₁, -⟩
  split
  · exact hgive hR₁ hI₁ (by simp)
  intro _
  refine ⟨(Moves.refl hI₁).guar, ?_⟩
  apply WP.seq wp_nextTmp
  rintro nc s₂ ⟨hR₂, hI₂⟩
  have hR₂ : s.Rely S t s₂ := Kept.trans hR₁ hR₂
  apply WP.seq (wp_fileMetadata (X := Scope.none) _)
  rintro _ s₃ ⟨hR₃, hI₃, -⟩
  have hR₃ : s.Rely S t s₃ := Kept.trans hR₂ hR₃
  apply WP.seq (wp_fsEffect (X := Scope.none))
  rintro res s₄ ⟨hR₄, hI₄, -⟩
  have hR₄ : s.Rely S t s₄ := Kept.trans hR₃ hR₄
  match res with
  | .error e => exact hgive hR₄ hI₄ (by simp)
  | .ok () =>
  apply WP.seq (wp_currentGeneration (hr.kept hR₄ id id).guarded)
  rintro g s₅ ⟨hR₅, hI₅, -⟩
  have hR₅ : s.Rely S t s₅ := Kept.trans hR₄ hR₅
  split
  · exact hgive hR₅ hI₅ (by simp)
  apply WP.seq (wp_activeFill guard.key)
  rintro o s₆ ⟨hR₆, hI₆, hT₆⟩
  have hR₆ : s.Rely S t s₆ := Kept.trans hR₅ hR₆
  match o with
  | none => exact hgive hR₆ hI₆ (by simp)
  | some e =>
  have hr₆ := hr.kept hR₆ id id
  have hfin := hI₆.owned _ r t hr₆.guarded.fill hr.guarded.owner
  obtain rfl : e = r.entry :=
    Option.some.inj (hT₆.1 _ r hr₆.guarded.fill hr.guarded.key hfin)
  apply WP.mono
  · apply wp_withCommitLock (X := Scope.commit t guard.key.hash guard.fill)
      (Q := fun _ s' => s'.Keeps t guard.fill guard.key) (hi.kept hR₆) (hT₆.2 _ rfl)
    intro s₇ hR₇ hI₇ hi₇ hc₇
    apply wp_withMetaLock hi₇
    intro s₈ v hE hI₈ hH hT
    have hr₈ := (hr₆.kept hR₇ id id).entered hE
    apply WP.mono (wp_commitLocked hI₈ rfl hH hT hr₈.guarded (hE.commitLock hc₇) hr₈.body hr.info)
    rintro _ s₉ ⟨r', hk', ho', hk₉, hI₉, hf₉, hH₉⟩
    exact ⟨hk₉, hI₉, ⟨r', hf₉, hk', ho'⟩, hH₉⟩
  · rintro _ s' ⟨hk, hI', hi', hkeep⟩
    exact ⟨(Rely.kept hR₆).trans hk, hI', hi', hkeep⟩

/-- Commit a fill, and finish it. -/
theorem wp_commitFill
    {guard : FillGuard} {arg : CacheMeta} (hi : s.Idle t)
    (hr : Ready S t nb guard arg r s) :
  (discipline S Restart).WP t (commitFill guard (.tmp t nb .body) arg)
    (fun _ s' => s.Kept S t (Scope.commit t guard.key.hash guard.fill) s' ∧ s'.Inv S ∧
      s'.Idle t) s
  := by
  apply WP.seq (wp_commitFillInner hi hr)
  rintro res s₁ ⟨hk₁, hI₁, hi₁, r', hf', hk', ho'⟩
  apply WP.seq (wp_finishFill (X := Scope.commit t guard.key.hash guard.fill) hf' hk' ho' hi₁ rfl)
  rintro _ s₂ ⟨hk₂, hI₂, hi₂⟩
  exact ⟨hk₁.trans hk₂, hI₂, hi₂⟩

/-- Abandon a fill. -/
theorem wp_abortFill
    {guard : FillGuard} (hg : s.Guarded t guard r) (hi : s.Idle t) :
  (discipline S Restart).WP t (abortFill guard)
    (fun _ s' => s.Kept S t (Scope.commit t guard.key.hash guard.fill) s' ∧ s'.Inv S ∧
      s'.Idle t) s
  := wp_finishFill hg.fill hg.key hg.owner hi rfl

end DiskCache

end TinyS3Proxy
