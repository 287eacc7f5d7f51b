import TinyS3Proxy.Cache.Fencing

/-!
# Fills and their ids

The rules for beginning and finishing a fill, and for reserving a fill id.
-/

namespace TinyS3Proxy

open Coop Coop.Discipline

namespace DiskCache

variable {E : Type} {S : Setting E} {Restart : DiskCache E → DiskCache E → Prop}
  {t : ℕ} {s s' : DiskCache E} {X : Scope} {f : ℕ} {r : Fill E}

/-! ### Guards -/

/-- The task `t` has the guard of a fill that it has not tried to publish yet. -/
structure Guarded (s : DiskCache E) (t : ℕ) (guard : FillGuard) (r : Fill E) : Prop where
  fill : s.fills guard.fill = some r
  key : r.key = guard.key
  owner : r.owner = some t
  generation : guard.generation = UInt64.ofNat r.bumps₀
  fillId : r.fillId = none
  unwritten : Unwritten s.writes guard.fill

theorem Guarded.kept
    {guard : FillGuard} (hg : s.Guarded t guard r) (hk : s.Kept S t X s')
    (hX : ¬ X.fills guard.fill) :
  s'.Guarded t guard r
  :=
  { hg with
    fill := hk.fills _ r hX hg.fill hg.owner
    unwritten := hk.unwritten _ r hX hg.fill hg.owner hg.unwritten }

/-- No metadata file has been written for a fill that has not been begun. -/
theorem unwritten_of_none
    (hI : s.Inv S) (hf : s.fills f = none) :
  Unwritten s.writes f
  := by
  rintro w hw rfl
  obtain ⟨r, hr, -⟩ := hI.published_id w hw
  rw [hf] at hr
  cases hr

/-- The task that registers a fill has its guard. -/
theorem register_guarded
    (key : CacheKey) (e : ℕ) (hI : s.Inv S) :
  (s.register t key e).Guarded t ⟨key, (s.entries e).generation, s.nextFill⟩
    ⟨key, e, (s.entries e).bumps, s.env, some t, false, none, 0⟩
  where
  fill := setFill_self _ _
  key := rfl
  owner := rfl
  generation := rfl
  fillId := rfl
  unwritten := by
    apply unwritten_of_none (s := s) hI
    cases h : s.fills s.nextFill with
    | none => rfl
    | some r => exact absurd (hI.fill_lt _ r h).1 (lt_irrefl _)

/-- The task that begins a fill has its guard. -/
theorem wp_beginFill
    (key : CacheKey) :
  (discipline S Restart).WP t (beginFill key)
    (fun g s' => s.Rely S t s' ∧ s'.Inv S ∧ g.key = key ∧
      ∃ r, s'.Guarded t g r ∧ r.born = s'.env) s
  := by
  intro s₁ c g s₂ hI hR hf
  obtain ⟨hM₁, hact, hnext, -⟩ := moves_orInsert (t := t) key hI
  -- The fill is new to every task, the one that begins it included.
  have hmove : ∀ u, Moves S u s₁
      ((s₁.orInsert key).2.register t key (s₁.orInsert key).1) := by
    intro u
    obtain ⟨hM, hact', -, -⟩ := moves_orInsert (t := u) key hI
    exact hM.trans (moves_register hM.inv hact')
  have hg := register_guarded (t := t) key (s₁.orInsert key).1 hM₁.inv
  rw [hnext] at hg
  obtain ⟨rfl, rfl⟩ := Prod.mk.inj (Option.some.inj hf)
  exact ⟨(hmove t).guar, Kept.trans hR ((hmove (t + 1)).kept t (Nat.lt_succ_self t).ne),
    (hmove t).inv, rfl, _, hg, rfl⟩

/-! ### Finishing a fill -/

/-- The task that has the guard of a fill finishes it. -/
theorem wp_finishFill
    {guard : FillGuard} (hf : s.fills guard.fill = some r) (hk : r.key = guard.key)
    (ho : r.owner = some t) (hi : s.Idle t) (hX : X.fills guard.fill) :
  (discipline S Restart).WP t (finishFill guard)
    (fun _ s' => s.Kept S t X s' ∧ s'.Inv S ∧ s'.Idle t) s
  := by
  intro s₁ c b s₂ hI hR hf'
  obtain ⟨-, rfl⟩ := Prod.mk.inj (Option.some.inj hf')
  have hf₁ : s₁.fills guard.fill = some r := hR.fills _ r id hf ho
  have hfin := hI.owned _ r t hf₁ ho
  have hi₁ := hi.kept hR
  have hM : Moves S t s₁ (s₁.release guard.key guard.fill) := by
    rw [← hk]
    exact moves_release hI hf₁ ho hfin hi₁
  have heq := release_eq hI hf₁ hfin
  rw [hk] at heq
  have hlocks : (s₁.release guard.key guard.fill).metaLocks = s₁.metaLocks := by rw [heq]
  refine ⟨hM.guar, (Rely.kept hR).trans ?_, hM.inv, ?_⟩
  · have hm := hM.mono
    rw [heq] at hm ⊢
    exact
    { Kept.refl S t X s₁ with
      mono := hm
      commitLock := by
        intro e he
        by_cases hee : e = r.entry
        · subst hee
          simpa using he
        · simpa [hee] using he
      bumps := by
        intro e _ _
        by_cases hee : e = r.entry
        · subst hee
          simp
        · simp [hee]
      fills := by
        intro f' r' hf' hr' _
        have hne : f' ≠ guard.fill := by
          rintro rfl
          exact hf' hX
        simpa [hne] using hr'
      unwritten := fun _ _ _ _ _ h => h }
  · intro l hl
    rw [hlocks] at hl
    exact hi₁ l hl

/-! ### Reserving a fill id -/

/-- The scope of code that persists the counter. -/
def Scope.counter (t : ℕ) : Scope where
  names p := p = .fillIdCounter ∨ ∃ n, p = .tmp t n .fillIdCounter
  hashes _ := False
  records _ := False
  fills _ := False

/-- The scope of code that gives the fill `f` an id. -/
def Scope.reserve (t f : ℕ) : Scope := { Scope.counter t with fills := fun f' => f' = f }

/-- The task numbers its temporary files. -/
theorem wp_nextTmp :
  (discipline S Restart).WP t nextTmp (fun _ s' => s.Rely S t s' ∧ s'.Inv S) s
  := by
  intro hI
  have hM : ∀ u, Moves S u s { s with tmpCounter := s.tmpCounter + 1 } :=
    fun u => moves_counters hI _ _ _
  exact ⟨(hM t).guar, (hM (t + 1)).kept t (Nat.lt_succ_self t).ne, (hM t).inv⟩

/-- Discard temporary files of the task. -/
theorem wp_discardTmp
    {ps : List Path} (hI : s.Inv S) (hp : ∀ p ∈ ps, ∃ n k, p = .tmp t n k)
    (hX : ∀ n k, X.names (.tmp t n k)) :
  (discipline S Restart).WP t (discard ps) (fun _ s' => s.Kept S t X s' ∧ s'.Inv S) s
  := by
  apply wp_discard hI
  · intro p hps
    obtain ⟨n, k, rfl⟩ := hp p hps
    exact rfl
  · intro p hps
    obtain ⟨n, k, rfl⟩ := hp p hps
    exact hX n k

/-- Rename the counter file that the task has written into place. -/
theorem wp_renameCounter
    {n i : ℕ} (hI : s.Inv S) (hp : s.fillIdPersistLock = some t)
    (hi : s.files (.tmp t n .fillIdCounter) = some i) (hd : s.data i = .counter s.nextFillId) :
  (discipline S Restart).WP t (renameFile (.tmp t n .fillIdCounter) .fillIdCounter)
    (fun r s' => s.Kept S t (Scope.counter t) s' ∧ s'.Inv S ∧
      (r = .ok () → s.nextFillId.toNat ≤ s'.counterValue)) s
  := by
  apply wp_fsCall
  · intro s₁ hI₁ hR
    obtain ⟨hp₁, hn₁⟩ := hR.persistLock hp
    have hi₁ : s₁.files (.tmp t n .fillIdCounter) = some i :=
      (hR.files (.tmp t n .fillIdCounter) id rfl).trans hi
    have hlt := hI.linked _ i hi
    have hd₁ : s₁.data i = .counter s₁.nextFillId := by
      rw [hR.mono.data i hlt, hd, hn₁]
    have hM₁ : Moves S t s₁ (s₁.link (.tmp t n .fillIdCounter) none) :=
      moves_link_mine hI₁ rfl fun j hj => by cases hj
    have hM₂ := moves_link_counter hM₁.inv hp₁ (hlt.trans_le hR.mono.ino) hd₁
    simp only [hi₁]
    refine ⟨hM₁.trans hM₂, ?_, hM₂.inv, ?_⟩
    · apply (Rely.kept hR).trans
      apply (kept_link hM₁.mono (Or.inr ⟨n, rfl⟩)).trans
      exact kept_link hM₂.mono (Or.inl rfl)
    · intro _
      rw [counterValue, link_files_self]
      have hdi : ((s₁.link (.tmp t n .fillIdCounter) none).link .fillIdCounter (some i)).data i =
        .counter s₁.nextFillId := hd₁
      simp only [hdi, hn₁]
      exact le_rfl
  · intro s₁ hI₁ hR
    refine ⟨(Rely.kept hR).trans (kept_fault hI₁), (moves_fault (t := t) hI₁).inv, ?_⟩
    intro hr
    cases hr

/-- Persist the next fill id, under the lock of the counter. -/
theorem wp_persistFillIdCounter
    {next : FillId} (hp : s.fillIdPersistLock = some t) (hn : s.nextFillId = next) :
  (discipline S Restart).WP t (persistFillIdCounter next)
    (fun r s' => s.Kept S t (Scope.counter t) s' ∧ s'.Inv S ∧
      (r = .ok () → next.toNat ≤ s'.counterValue)) s
  := by
  have hX : ∀ n, (Scope.counter t).names (.tmp t n .fillIdCounter) := fun n => Or.inr ⟨n, rfl⟩
  intro hI
  refine ⟨(Moves.refl hI).guar, ?_⟩
  apply WP.seq wp_nextTmp
  rintro n s₁ ⟨hR₁, hI₁⟩
  have hk₁ : s.Kept S t (Scope.counter t) s₁ := Rely.kept hR₁
  -- Whatever fails, the temporary file is discarded.
  have hfail : ∀ s', s.Kept S t (Scope.counter t) s' → s'.Inv S → ∀ e : CacheError,
      (discipline S Restart).WP t
        (do
          discard [.tmp t n .fillIdCounter]
          return (.error e : Except CacheError Unit))
        (fun r s'' => s.Kept S t (Scope.counter t) s'' ∧ s''.Inv S ∧
          (r = .ok () → next.toNat ≤ s''.counterValue)) s' := by
    intro s' hk' hI' e
    apply WP.seq (wp_discard (X := Scope.counter t) hI' (by simp [Mine]) (by simp [hX]))
    rintro _ s'' ⟨hk'', hI''⟩
    refine ⟨hk'.trans hk'', hI'', ?_⟩
    intro hr
    cases hr
  apply WP.seq (wp_writeFile (X := Scope.counter t) (p := .tmp t n .fillIdCounter)
    (.counter next) rfl (hX n))
  rintro r s₂ ⟨hk₂, hI₂, hr₂⟩
  have hk₂ := hk₁.trans hk₂
  rcases r with e | ⟨⟩
  · exact hfail s₂ hk₂ hI₂ _
  obtain ⟨i, hi, hd⟩ := hr₂
  apply WP.seq (wp_openFile (X := Scope.none) (.tmp t n .fillIdCounter))
  rintro r s₃ ⟨hR₃, hI₃, -⟩
  have hk₃ := hk₂.trans (Rely.kept hR₃)
  rcases r with e | _
  · exact hfail s₃ hk₃ hI₃ _
  apply WP.seq (wp_fsEffect (X := Scope.none))
  rintro r s₄ ⟨hR₄, hI₄, -⟩
  have hk₄ := hk₃.trans (Rely.kept hR₄)
  rcases r with e | ⟨⟩
  · exact hfail s₄ hk₄ hI₄ _
  have hR : s₂.Rely S t s₄ := Kept.trans hR₃ hR₄
  obtain ⟨hp₄, hn₄⟩ := hk₄.persistLock hp
  have hi₄ : s₄.files (.tmp t n .fillIdCounter) = some i :=
    (hR.files (.tmp t n .fillIdCounter) id rfl).trans hi
  have hd₄ : s₄.data i = .counter s₄.nextFillId := by
    rw [hR.mono.data i (hI₂.linked _ i hi), hd, hn₄, hn]
  apply WP.seq (wp_renameCounter hI₄ hp₄ hi₄ hd₄)
  rintro r s₅ ⟨hk₅, hI₅, hr₅⟩
  have hk₅ := hk₄.trans hk₅
  rcases r with e | ⟨⟩
  · exact hfail s₅ hk₅ hI₅ _
  have hc₅ : next.toNat ≤ s₅.counterValue := by
    rw [← hn, ← hn₄]
    exact hr₅ rfl
  apply WP.seq (wp_fsEffect (X := Scope.none))
  rintro r s₆ ⟨hR₆, hI₆, -⟩
  have hk₆ := hk₅.trans (Rely.kept hR₆)
  have hc₆ := hc₅.trans hR₆.mono.counter
  rcases r with e | ⟨⟩
  · exact ⟨hk₆, hI₆, fun _ => hc₆⟩
  apply WP.seq (wp_fsEffect (X := Scope.none))
  rintro r s₇ ⟨hR₇, hI₇, -⟩
  have hk₇ := hk₆.trans (Rely.kept hR₇)
  have hc₇ := hc₆.trans hR₇.mono.counter
  rcases r with e | ⟨⟩
  · exact ⟨hk₇, hI₇, fun _ => hc₇⟩
  · exact ⟨hk₇, hI₇, fun _ => hc₇⟩

/-- What reserving an id for the fill `f` tells: nothing else about the fill has changed,
and if it has been given an id, the counter on disk is past that id. -/
structure Reserved (f : ℕ) (r : Fill E) (res : Except CacheError FillId) (r' : Fill E)
    (s : DiskCache E) : Prop where
  fill : s.fills f = some r'
  same : r' = { r with fillId := r'.fillId, reservedAt := r'.reservedAt }
  unwritten : Unwritten s.writes f
  id : ∀ n, res = .ok n → r'.fillId = some n ∧ 0 < n ∧ n.toNat < s.counterValue

theorem saturatingSucc_eq
    {n : UInt64} (hn : n ≠ UInt64.ofNat (2 ^ 64 - 1)) :
  CacheMeta.saturatingSucc n = n + 1
  := if_neg hn

/-- Reserve a fill id under the lock of the counter, which the task did not hold in the
state `s`. -/
theorem wp_reserveLocked
    {s₁ : DiskCache E} (hnot : s.fillIdPersistLock ≠ some t)
    (hk₁ : s.Kept S t (Scope.reserve t f) s₁) (hp : s₁.fillIdPersistLock = some t)
    (hf : s₁.fills f = some r) (ho : r.owner = some t) (hn : r.fillId = none)
    (hu : Unwritten s₁.writes f) :
  (discipline S Restart).WP t (reserveLocked f)
    (fun res s' => s.Kept S t (Scope.reserve t f) s' ∧ s'.Inv S ∧
      s'.fillIdPersistLock = some t ∧ ∃ r', Reserved f r res r' s') s₁
  := by
  intro hI
  by_cases hmax : s₁.nextFillId = UInt64.ofNat (2 ^ 64 - 1)
  · simp only [hmax, if_true]
    refine ⟨(Moves.refl hI).guar, hk₁, hI, hp, r, hf, rfl, hu, ?_⟩
    intro n hr
    cases hr
  simp only [hmax, if_false]
  have hM : Moves S t s₁ (s₁.taken f) := moves_take hI hf ho hn hp hmax
  refine ⟨hM.guar, ?_⟩
  have hf₂ : (s₁.taken f).fills f = some (Fill.reserved r s₁) := by
    rw [taken_eq hf]
    exact Function.update_self _ _ _
  have hk₂ : s.Kept S t (Scope.reserve t f) (s₁.taken f) := by
    have hm := hk₁.mono.trans hM.mono
    rw [taken_eq hf] at hm ⊢
    exact
    { hk₁ with
      mono := hm
      persistLock := fun h => absurd h hnot
      fills := by
        intro f' r' hX hf' ho'
        exact (Function.update_of_ne hX _ _).trans (hk₁.fills f' r' hX hf' ho') }
  have hp₂ : (s₁.taken f).fillIdPersistLock = some t := by
    rw [taken_eq hf]
    exact hp
  have hn₂ : (s₁.taken f).nextFillId = CacheMeta.saturatingSucc s₁.nextFillId := by
    rw [saturatingSucc_eq hmax, taken_eq hf]
  have hu₂ : Unwritten (s₁.taken f).writes f := by
    rw [taken_eq hf]
    exact hu
  apply WP.seq (wp_persistFillIdCounter hp₂ hn₂)
  rintro res s₃ ⟨hk₃, hI₃, hc⟩
  have hk : s.Kept S t (Scope.reserve t f) s₃ := by
    apply hk₂.trans
    exact hk₃.weaken (fun _ h => h) (fun _ => False.elim) (fun _ => False.elim)
      (fun _ => False.elim)
  have hf₃ := hk₃.fills f _ id hf₂ ho
  have hu₃ := hk₃.unwritten f _ id hf₂ ho hu₂
  have hp₃ := (hk₃.persistLock hp₂).1
  cases res with
  | error e =>
      refine ⟨hk, hI₃, hp₃, _, hf₃, rfl, hu₃, ?_⟩
      intro n hr
      cases hr
  | ok u =>
      refine ⟨hk, hI₃, hp₃, _, hf₃, rfl, hu₃, ?_⟩
      intro n hr
      obtain rfl : s₁.nextFillId = n := by simpa using hr
      refine ⟨rfl, hI.ids_pos, lt_of_lt_of_le ?_ (hc rfl)⟩
      rw [saturatingSucc_eq hmax, toNat_succ hmax]
      exact Nat.lt_succ_self _

/-- Reserve a fill id for a fill that has none. -/
theorem wp_reserveFillId
    (hf : s.fills f = some r) (ho : r.owner = some t) (hn : r.fillId = none)
    (hu : Unwritten s.writes f) :
  (discipline S Restart).WP t (reserveFillId f)
    (fun res s' => s.Kept S t (Scope.reserve t f) s' ∧ s'.Inv S ∧
      ∃ r', Reserved f r res r' s') s
  := by
  intro s₁ c b s₂ hI₁ hR hl
  obtain ⟨hfree, hl⟩ := Option.ite_none_right_eq_some.mp hl
  obtain ⟨rfl, rfl⟩ := Prod.mk.inj (Option.some.inj hl)
  -- The task cannot have held the lock before, so it may change the counter.
  have hnot : s.fillIdPersistLock ≠ some t := by
    intro hp
    rw [(hR.persistLock hp).1] at hfree
    cases hfree
  have hf₁ : s₁.fills f = some r := hR.fills f r id hf ho
  have hu₁ : Unwritten s₁.writes f := hR.unwritten f r id hf ho hu
  have hM₂ : Moves S t s₁ { s₁ with fillIdPersistLock := some t } := by
    apply moves_setPersistLock hI₁
    intro t' _ hp
    rw [hfree] at hp
    cases hp
  have hk₂ : s.Kept S t (Scope.reserve t f) { s₁ with fillIdPersistLock := some t } :=
    { Rely.kept (X := Scope.reserve t f) hR with
      mono := hR.mono.trans hM₂.mono
      persistLock := fun hp => absurd hp hnot }
  refine ⟨hM₂.guar, ?_⟩
  -- Releasing the lock, whatever has come of the reservation.
  have hend : ∀ (s' : DiskCache E) (res : Except CacheError FillId) (r' : Fill E),
      s.Kept S t (Scope.reserve t f) s' → s'.Inv S → s'.fillIdPersistLock = some t →
      Reserved f r res r' s' →
      (discipline S Restart).WP t (do unlockPersist; return res)
        (fun res s' => s.Kept S t (Scope.reserve t f) s' ∧ s'.Inv S ∧
          ∃ r', Reserved f r res r' s') s' := by
    intro s' res r' hk hI' hp hr _
    have hM : Moves S t s' { s' with fillIdPersistLock := none } := by
      apply moves_setPersistLock hI'
      intro t' ht' hp'
      exact ht' (Option.some.inj (hp'.symm.trans hp))
    refine ⟨hM.guar, ?_, hM.inv, r', ⟨hr.fill, hr.same, hr.unwritten, hr.id⟩⟩
    exact
    { hk with
      mono := hk.mono.trans hM.mono
      persistLock := fun hp => absurd hp hnot }
  apply WP.seq (wp_reserveLocked hnot hk₂ rfl hf₁ ho hn hu₁)
  rintro res s₃ ⟨hk₃, hI₃, hp₃, r', hr⟩
  exact hend s₃ res r' hk₃ hI₃ hp₃ hr

end DiskCache

end TinyS3Proxy
