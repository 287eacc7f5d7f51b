import TinyS3Proxy.Cache.Calls
import TinyS3Proxy.Coop.Outcome

/-!
# Publications that fail

What a commit that fails leaves of an entry, for every way in which the calls it makes may fail.
A commit moves the old files away, moves the new ones into place, and undoes this when a call
fails. The calls that undo it may fail as well.

The choices that the scheduler makes in an undisturbed run say which calls fail, in the order of
the calls. A commit makes nineteen of them before it touches the entry.
-/

namespace TinyS3Proxy

open Coop

/-- The file belongs to an entry. -/
def Path.isEntry : Path → Bool
  | body _ => true
  | metaJson _ => true
  | _ => false

/-- The file belongs to an entry, or is the body of a fill. -/
def Path.isContent : Path → Bool
  | tmp _ _ .body => true
  | p => p.isEntry

namespace DiskCache

variable {E : Type} {t : ℕ} {s s' : DiskCache E}

/-! ### Calls -/

theorem files_unlink
    (s : DiskCache E) (p : Path) :
  (s.unlink p).files = Function.update s.files p none
  := by
  cases p with
  | body h => rfl
  | metaJson h => rfl
  | poisoned h => rfl
  | fillIdCounter => rfl
  | metaTmp h n => rfl
  | tmp u n kind => rfl

theorem files_recordWrite
    (h : String) (kind : WriteKind) (s s' : DiskCache E) :
  (recordWrite t h kind s s').files = s'.files
  := by
  rw [recordWrite]
  split
  next => rfl
  next => rfl

theorem ends_fsCall
    {β : Type} {f : DiskCache E → Except IoError β × DiskCache E}
    {Q : List ℕ → Except IoError β → DiskCache E → Prop} (hdone : Q [0] (f s).1 (f s).2)
    (hfails : ∀ c, c ≠ 0 → Q [c] (.error .other) s.fault) :
  (fsCall f).Ends t s Q
  := by
  apply Async.ends_suspend
  intro c b s' hb
  split at hb
  next hc =>
    subst hc
    obtain ⟨rfl, rfl⟩ := Prod.mk.inj (Option.some.inj hb)
    exact hdone
  next hc =>
    obtain ⟨rfl, rfl⟩ := Prod.mk.inj (Option.some.inj hb)
    exact hfails c hc

/-- Asking for the attributes of a file tells that it is there, unless the call fails. -/
theorem ends_fileMetadata
    (p : Path) :
  (fileMetadata p).Ends t s fun cs r s' =>
    ∃ c, cs = [c] ∧ r.toBool = (c == 0 && (s.files p).isSome) ∧ s'.files = s.files
  := by
  apply ends_fsCall
  · use 0
    cases hp : s.files p with
    | none => exact ⟨rfl, rfl, rfl⟩
    | some i => exact ⟨rfl, rfl, rfl⟩
  · intro c hc
    use c
    simp [hc, Except.toBool, fault]

/-- A file is renamed, unless the call fails or the file is not there. -/
theorem ends_rename
    {src dst : Path} {note : DiskCache E → DiskCache E → DiskCache E}
    (hnote : ∀ a b, (note a b).files = b.files) :
  (rename src dst note).Ends t s fun cs r s' => ∃ c, cs = [c] ∧
    ((c = 0 ∧ ∃ i, s.files src = some i ∧ r = .ok () ∧
        s'.files = Function.update (Function.update s.files src none) dst (some i)) ∨
      ((c ≠ 0 ∨ s.files src = none) ∧ (∃ e, r = .error e) ∧ s'.files = s.files))
  := by
  apply ends_fsCall
  · use 0, rfl
    cases hp : s.files src with
    | none => exact .inr ⟨.inr rfl, ⟨_, rfl⟩, rfl⟩
    | some i => exact .inl ⟨rfl, i, rfl, rfl, hnote _ _⟩
  · intro c hc
    exact ⟨c, rfl, .inr ⟨.inl hc, ⟨_, rfl⟩, rfl⟩⟩

/-- A file is removed, unless the call fails. -/
theorem ends_removeFile
    (p : Path) :
  (removeFile p).Ends t s fun cs _ s' => ∃ c, cs = [c] ∧
    ((c = 0 ∧ s'.files = Function.update s.files p none) ∨ (c ≠ 0 ∧ s'.files = s.files))
  := by
  apply ends_fsCall
  · use 0, rfl
    left
    cases hp : s.files p with
    | none => exact ⟨rfl, (Function.update_eq_self_iff.mpr hp.symm).symm⟩
    | some i => exact ⟨rfl, files_unlink s p⟩
  · exact fun c hc => ⟨c, rfl, .inr ⟨hc, rfl⟩⟩

/-- A backup is put back, unless the call fails. -/
theorem ends_restorePublishBackup
    {finalPath backupPath : Path} {i : ℕ} (hbackup : s.files backupPath = some i) :
  (restorePublishBackup finalPath backupPath).Ends t s fun cs _ s' => ∃ c, cs = [c] ∧
    ((c = 0 ∧ s'.files
        = Function.update (Function.update s.files backupPath none) finalPath (some i)) ∨
      (c ≠ 0 ∧ s'.files = s.files))
  := by
  apply Async.Ends.seq (ends_rename fun _ _ => rfl)
  rintro _ _ s₁ ⟨c, rfl, h⟩
  apply Async.ends_ret
  use c, rfl
  rcases h with ⟨hc, j, hj, -, hfiles⟩ | ⟨hc, -, hfiles⟩
  · obtain rfl := Option.some.inj (hbackup.symm.trans hj)
    exact .inl ⟨hc, hfiles⟩
  · rw [hbackup] at hc
    exact .inr ⟨hc.resolve_right nofun, hfiles⟩

/-- The files of a kind are the same as before. -/
def Same (P : Path → Bool) (s s' : DiskCache E) : Prop :=
  ∀ p, P p = true → s'.files p = s.files p

variable {P : Path → Bool}

theorem Same.of_files
    (h : s'.files = s.files) :
  Same P s s'
  := fun p _ => congrFun h p

theorem Same.trans
    {s'' : DiskCache E} (h : Same P s s') (h' : Same P s' s'') :
  Same P s s''
  := fun p hp => (h' p hp).trans (h p hp)

theorem Same.entry
    (h : Same Path.isContent s s') :
  Same Path.isEntry s s'
  := by
  intro p hp
  apply h p
  cases p with
  | body l => rfl
  | metaJson l => rfl
  | poisoned l => cases hp
  | fillIdCounter => cases hp
  | metaTmp l n => cases hp
  | tmp u n kind => cases hp

theorem Same.of_update
    {p : Path} {i : Option ℕ} (hp : P p = false) (h : s'.files = Function.update s.files p i) :
  Same P s s'
  := by
  intro q hq
  rw [h, Function.update_of_ne]
  rintro rfl
  rw [hp] at hq
  cases hq

/-- Files that are discarded are removed, or not, and no other file is touched. -/
theorem ends_discard
    {ps : List Path} (hps : ∀ p ∈ ps, P p = false) :
  (discard ps).Ends t s fun cs _ s' => cs.length = ps.length ∧ Same P s s'
  := by
  induction ps generalizing s with
  | nil => exact Async.ends_ret ⟨rfl, .of_files rfl⟩
  | cons p ps ih =>
      have hp := hps p List.mem_cons_self
      have hremove : (removeFile p : Async (DiskCache E) _).Ends t s fun cs _ s' =>
          cs.length = 1 ∧ Same P s s' := by
        apply (ends_removeFile p).mono
        rintro _ _ s₁ ⟨c, rfl, ⟨-, h⟩ | ⟨-, h⟩⟩
        · exact ⟨rfl, .of_update hp h⟩
        · exact ⟨rfl, .of_files h⟩
      apply Async.Ends.bind
      apply Async.Ends.seq hremove
      rintro c _ s₁ ⟨hc, hsame⟩
      apply Async.ends_ret
      apply (ih fun q hq => hps q (List.mem_cons_of_mem _ hq)).mono
      rintro d _ s' ⟨hd, hsame'⟩
      exact ⟨by simp [hc, hd, add_comm], hsame.trans hsame'⟩

/-- A call that does not touch the files. -/
theorem ends_fsCall_of_files
    {β : Type} {f : DiskCache E → Except IoError β × DiskCache E}
    (hf : (f s).2.files = s.files) :
  (fsCall f).Ends t s fun cs _ s' => cs.length = 1 ∧ s'.files = s.files
  := ends_fsCall ⟨rfl, hf⟩ fun _ _ => ⟨rfl, rfl⟩

theorem ends_fsEffect :
  (fsEffect : Async (DiskCache E) _).Ends t s fun cs _ s' => cs.length = 1 ∧ s'.files = s.files
  := ends_fsCall_of_files rfl

theorem ends_readFile
    (p : Path) :
  (readFile p).Ends t s fun cs _ s' => cs.length = 1 ∧ s'.files = s.files
  := by
  apply ends_fsCall_of_files
  cases s.files p with
  | none => rfl
  | some i => rfl

theorem ends_openFile
    (p : Path) :
  (openFile p).Ends t s fun cs _ s' => cs.length = 1 ∧ s'.files = s.files
  := by
  apply ends_fsCall_of_files
  cases s.files p with
  | none => rfl
  | some i => rfl

/-- A file that is written is there, and no other file is touched. -/
theorem ends_writeFileSecure
    {p : Path} (hp : P p = false) (d : File) :
  (writeFileSecure p d).Ends t s fun cs r s' =>
    cs.length = 1 ∧ Same P s s' ∧ (r.toBool = true → s'.files p ≠ none)
  := by
  apply Async.ends_suspend
  intro c r s' h
  use rfl
  split at h
  next =>
    obtain ⟨rfl, rfl⟩ := Prod.mk.inj (Option.some.inj h)
    exact ⟨.of_files rfl, nofun⟩
  next =>
    split at h
    next =>
      obtain ⟨rfl, rfl⟩ := Prod.mk.inj (Option.some.inj h)
      have hfile : (s.create p d).files p = some s.nextIno := Function.update_self ..
      refine ⟨.of_update hp rfl, fun _ => ?_⟩
      rw [hfile]
      exact Option.some_ne_none _
    next =>
      split at h
      next =>
        obtain ⟨rfl, rfl⟩ := Prod.mk.inj (Option.some.inj h)
        exact ⟨.of_files rfl, nofun⟩
      next =>
        obtain ⟨rfl, rfl⟩ := Prod.mk.inj (Option.some.inj h)
        exact ⟨.of_update hp rfl, nofun⟩

/-! ### Before the entry is touched -/

/-- A step before the publication takes `n` choices and leaves the entry and the new body as they
are. If it fails, it leaves the entry as it is, and has taken few choices. -/
def Prepares {α : Type} (n : ℕ) (s : DiskCache E) (cs : List ℕ) (r : Except CacheError α)
    (s' : DiskCache E) : Prop :=
  match r with
  | .ok _ => cs.length = n ∧ Same Path.isContent s s'
  | .error _ => cs.length ≤ n + 2 ∧ Same Path.isEntry s s'

/-- A step after calls that left the entry and the new body as they are. -/
theorem Prepares.after
    {α : Type} {n k : ℕ} {c d : List ℕ} {r : Except CacheError α} {s₁ : DiskCache E}
    (h : Prepares n s₁ d r s') (hc : c.length = k) (hsame : Same Path.isContent s s₁) :
  Prepares (n + k) s (c ++ d) r s'
  := by
  cases r with
  | ok a =>
      obtain ⟨hlen, hsame'⟩ := h
      refine ⟨?_, hsame.trans hsame'⟩
      rw [List.length_append]
      omega
  | error e =>
      obtain ⟨hlen, hsame'⟩ := h
      refine ⟨?_, hsame.entry.trans hsame'⟩
      rw [List.length_append]
      omega

/-- A call, after which files are discarded if it has failed. -/
theorem ends_call
    {α β : Type} {n : ℕ} {ps : List Path} {operation : String}
    {call : Async (DiskCache E) (Except IoError β)}
    {k : Except IoError β → Async (DiskCache E) (Except CacheError α)}
    (hcall : call.Ends t s fun cs _ s' => cs.length = 1 ∧ Same Path.isContent s s')
    (hfails : ∀ e, k (.error e) = do discard ps; return failed operation)
    (hps : ∀ p ∈ ps, p.isEntry = false) (hlen : ps.length ≤ 2)
    (hdone : ∀ b s₁, (k (.ok b)).Ends t s₁ (Prepares n s₁)) :
  (call >>= k).Ends t s (Prepares (n + 1) s)
  := by
  apply Async.Ends.seq hcall
  rintro c r s₁ ⟨hc, hsame⟩
  cases r with
  | ok b => exact (hdone b s₁).mono fun d r s' h => h.after hc hsame
  | error e =>
      rw [hfails]
      apply Async.Ends.seq (ends_discard hps)
      rintro d _ s' ⟨hd, hsame'⟩
      apply Async.ends_ret
      refine ⟨?_, hsame.entry.trans hsame'⟩
      simp
      omega

/-- A temporary file is given a number. -/
theorem ends_nextTmp
    {Q : List ℕ → ℕ → DiskCache E → Prop}
    (h : ∀ s', s'.files = s.files → Q [] s.tmpCounter s') :
  nextTmp.Ends t s Q
  := Async.ends_act (h { s with tmpCounter := s.tmpCounter + 1 } rfl)

theorem ends_currentTask
    {Q : List ℕ → ℕ → DiskCache E → Prop} (h : Q [] t s) :
  currentTask.Ends t s Q
  := Async.ends_act h

/-- Calls that do not touch the files leave the new body as it is. -/
theorem ends_same
    {α : Type} {call : Async (DiskCache E) α}
    (h : call.Ends t s fun cs _ s' => cs.length = 1 ∧ s'.files = s.files) :
  call.Ends t s fun cs _ s' => cs.length = 1 ∧ Same Path.isContent s s'
  := h.mono fun _ _ _ h => ⟨h.1, .of_files h.2⟩

theorem ends_renameFile_same
    {src dst : Path} (hsrc : src.isContent = false) (hdst : dst.isContent = false) :
  (renameFile src dst : Async (DiskCache E) _).Ends t s fun cs _ s' =>
    cs.length = 1 ∧ Same Path.isContent s s'
  := by
  apply (ends_rename fun _ _ => rfl).mono
  rintro _ r s' ⟨c, rfl, ⟨-, i, -, -, hfiles⟩ | ⟨-, -, hfiles⟩⟩
  · use rfl
    have hremoved : Same Path.isContent s (s.link src none) := .of_update hsrc rfl
    exact hremoved.trans (.of_update hdst hfiles)
  · exact ⟨rfl, .of_files hfiles⟩

/-- The next fill id is written to the disk in six calls. -/
theorem ends_persistFillIdCounter
    (next : FillId) :
  (persistFillIdCounter next).Ends t s (Prepares 6 s)
  := by
  apply Async.Ends.bind
  apply ends_currentTask
  apply Async.Ends.bind
  apply ends_nextTmp
  intro s₁ hs₁
  have hbegin : Same Path.isContent s s₁ := .of_files hs₁
  have htmp : ∀ p ∈ [Path.tmp t s.tmpCounter .fillIdCounter], p.isEntry = false := by
    simp [Path.isEntry]
  have hwrite : (writeFileSecure (.tmp t s.tmpCounter .fillIdCounter) (.counter next)).Ends t s₁
      fun cs _ s' => cs.length = 1 ∧ Same Path.isContent s₁ s' :=
    (ends_writeFileSecure rfl _).mono fun _ _ _ h => ⟨h.1, h.2.1⟩
  apply Async.Ends.mono (Q := Prepares 6 s₁) _ fun d r s' h => h.after (c := []) rfl hbegin
  apply ends_call hwrite (fun _ => rfl) htmp (by simp)
  rintro ⟨⟩ s₂
  apply ends_call (ends_same (ends_openFile _)) (fun _ => rfl) htmp (by simp)
  rintro _ s₃
  apply ends_call (ends_same ends_fsEffect) (fun _ => rfl) htmp (by simp)
  rintro ⟨⟩ s₄
  apply ends_call (ends_renameFile_same rfl rfl) (fun _ => rfl) htmp (by simp)
  rintro ⟨⟩ s₅
  apply @ends_call _ _ _ _ _ _ [] _ _ _ (ends_same ends_fsEffect) (fun _ => rfl) nofun (by simp)
  rintro ⟨⟩ s₆
  apply @ends_call _ _ _ _ _ _ [] _ _ _ (ends_same ends_fsEffect) (fun _ => rfl) nofun (by simp)
  rintro ⟨⟩ s₇
  exact Async.ends_ret ⟨rfl, .of_files rfl⟩

theorem files_taken
    (s : DiskCache E) (f : ℕ) :
  (s.taken f).files = s.files
  := by
  rw [taken, reserve]
  cases s.fills f with
  | none => rfl
  | some r => rfl

theorem ends_reserveLocked
    (f : ℕ) :
  (reserveLocked f).Ends t s (Prepares 6 s)
  := by
  apply Async.Ends.bind
  apply Async.ends_act
  by_cases hlast : s.nextFillId = UInt64.ofNat (2 ^ 64 - 1)
  · rw [if_pos hlast]
    exact Async.ends_ret ⟨Nat.zero_le _, .of_files rfl⟩
  · rw [if_neg hlast]
    have htaken : Same Path.isContent s (s.taken f) := .of_files (files_taken s f)
    apply Async.Ends.mono (Q := Prepares 6 (s.taken f)) _ fun d r s' h => h.after (c := []) rfl htaken
    apply Async.Ends.seq (ends_persistFillIdCounter _)
    rintro c r s₁ h
    cases r with
    | ok u =>
        apply Async.ends_ret
        rw [List.append_nil]
        exact h
    | error e =>
        apply Async.ends_ret
        rw [List.append_nil]
        exact h

/-- A fill id is reserved in seven calls. -/
theorem ends_reserveFillId
    (f : ℕ) :
  (reserveFillId f).Ends t s (Prepares 7 s)
  := by
  apply Async.Ends.bind
  apply Async.ends_suspend
  intro c b s₁ hlock
  split at hlock
  next =>
    obtain ⟨rfl, rfl⟩ := Prod.mk.inj (Option.some.inj hlock)
    apply Async.Ends.seq (ends_reserveLocked f)
    intro d r s₂ h
    apply Async.Ends.bind
    apply Async.ends_act
    apply Async.ends_ret
    simp only [List.append_nil]
    exact h.after (k := 1) rfl (.of_files rfl)
  next => cases hlock

/-- The metadata is written to a temporary file in three calls. -/
theorem ends_writeTempMeta
    {guard : FillGuard} {m : CacheMeta} {tempBody tempMeta : Path}
    (hbody : tempBody.isEntry = false) (hmeta : tempMeta.isContent = false)
    (hmeta' : tempMeta.isEntry = false) :
  (writeTempMeta guard m tempBody tempMeta).Ends t s fun cs r s' =>
    Prepares 3 s cs r s' ∧ (r.toBool = true → s'.files tempMeta ≠ none)
  := by
  have hps : ∀ p ∈ [tempBody, tempMeta], p.isEntry = false := by simp [hbody, hmeta']
  have hfails : ∀ {operation : String} {c : List ℕ} {s₁ : DiskCache E}, c.length ≤ 3 →
      Same Path.isContent s s₁ → (do
        discard [tempBody, tempMeta]
        return failed operation : Async (DiskCache E) (Except CacheError Unit)).Ends t s₁
          fun d r s' => Prepares 3 s (c ++ d) r s' ∧ (r.toBool = true → s'.files tempMeta ≠ none) := by
    intro operation c s₁ hc hsame
    apply Async.Ends.seq (ends_discard hps)
    rintro d _ s' ⟨hd, hsame'⟩
    apply Async.ends_ret
    refine ⟨⟨?_, hsame.entry.trans hsame'⟩, nofun⟩
    simp at hd ⊢
    omega
  apply Async.Ends.seq (ends_writeFileSecure hmeta _)
  rintro c₁ (e | u) s₁ ⟨hc₁, hsame₁, hthere⟩
  · exact hfails (by omega) hsame₁
  · apply Async.Ends.seq (ends_openFile tempMeta)
    rintro c₂ (e | i) s₂ ⟨hc₂, hfiles₂⟩
    · simp only [← List.append_assoc]
      exact hfails (by simp [hc₁, hc₂]) (hsame₁.trans (.of_files hfiles₂))
    · apply Async.Ends.seq ends_fsEffect
      rintro c₃ (e | u) s₃ ⟨hc₃, hfiles₃⟩
      · simp only [← List.append_assoc]
        exact hfails (by simp [hc₁, hc₂, hc₃])
          (hsame₁.trans (.of_files (hfiles₃.trans hfiles₂)))
      · apply Async.ends_ret
        refine ⟨⟨by simp [hc₁, hc₂, hc₃], hsame₁.trans (.of_files (hfiles₃.trans hfiles₂))⟩, ?_⟩
        intro _
        rw [hfiles₃, hfiles₂]
        exact hthere rfl

/-! ### The publication -/

/-- The choices after those for moving a file away, if that has succeeded. -/
def afterMove : Bool → List ℕ → Option (List ℕ)
  | false, cs => some cs
  | true, 0 :: _ :: cs => some cs
  | true, _ => none

/-- The choices for moving the new files into place: the new body is moved, the new metadata is
not, and the old metadata is in place in the end although the new body stays. -/
def keepsNewBody (oldMeta info : Bool) : List ℕ → Bool
  | installBody :: installMeta :: undoBody :: cs =>
      installBody == 0 && installMeta != 0 && undoBody != 0 &&
        if oldMeta then cs.head? == some 0 else info
  | _ => false

/-- The choices for a publication over an entry that has a body and metadata, or not, by which
the new body stays in place with the old metadata. -/
def mixes (body info : Bool) : List ℕ → Bool
  | statBody :: statMeta :: cs =>
      let oldBody := statBody == 0 && body
      let oldMeta := statMeta == 0 && info
      match afterMove oldBody cs with
      | none => false
      | some cs =>
          match afterMove oldMeta cs with
          | none => false
          | some cs => keepsNewBody oldMeta info cs
  | _ => false

theorem keepsNewBody_of_length
    {oldMeta info : Bool} {cs : List ℕ} (h : cs.length < 3) :
  keepsNewBody oldMeta info cs = false
  := by
  rcases cs with _ | ⟨a, _ | ⟨b, _ | ⟨c, cs⟩⟩⟩
  · rfl
  · rfl
  · rfl
  · simp at h
    omega

theorem keepsNewBody_iff
    {oldMeta info : Bool} {cs : List ℕ} :
  keepsNewBody oldMeta info cs = true ↔
    ∃ c y rest, cs = 0 :: c :: y :: rest ∧ c ≠ 0 ∧ y ≠ 0 ∧
      (if oldMeta then rest.head? == some 0 else info) = true
  := by
  rcases cs with _ | ⟨a, _ | ⟨c, _ | ⟨y, rest⟩⟩⟩
  · simp [keepsNewBody]
  · simp [keepsNewBody]
  · simp [keepsNewBody]
  · simp only [keepsNewBody, Bool.and_eq_true, beq_iff_eq, bne_iff_ne, ne_eq, List.cons.injEq]
    constructor
    · rintro ⟨⟨⟨rfl, hc⟩, hy⟩, hrest⟩
      exact ⟨c, y, rest, ⟨rfl, rfl, rfl, rfl⟩, hc, hy, hrest⟩
    · rintro ⟨_, _, _, ⟨rfl, rfl, rfl, rfl⟩, hc, hy, hrest⟩
      exact ⟨⟨⟨rfl, hc⟩, hy⟩, hrest⟩

theorem afterMove_length
    {b : Bool} {cs rest : List ℕ} (h : afterMove b cs = some rest) :
  rest.length ≤ cs.length
  := by
  rw [afterMove.eq_def] at h
  split at h
  next => exact (Option.some.inj h) ▸ le_rfl
  next =>
    rw [← Option.some.inj h]
    simp
    omega
  next => cases h

/-- A run that ends early makes no such choices. -/
theorem mixes_of_length
    {body info : Bool} {cs : List ℕ} (h : cs.length < 5) :
  mixes body info cs = false
  := by
  rcases cs with _ | ⟨a, _ | ⟨b, cs⟩⟩
  · rfl
  · rfl
  · rw [mixes]
    split
    next => rfl
    next cs₁ h₁ =>
      split
      next => rfl
      next cs₂ h₂ =>
        apply keepsNewBody_of_length
        have hle₁ := afterMove_length h₁
        have hle₂ := afterMove_length h₂
        simp at h
        omega

/-- The entry has the given files, or it is not complete. -/
def KeptOrIncomplete (body info : Option ℕ) (h : String) (s : DiskCache E) : Prop :=
  (s.files (.body h) = body ∧ s.files (.metaJson h) = info) ∨
    s.files (.body h) = none ∨ s.files (.metaJson h) = none

theorem keptOrIncomplete_of
    {body info : Option ℕ} {h : String}
    (hbody : s.files (.body h) = body ∨ s.files (.body h) = none)
    (hinfo : s.files (.metaJson h) = info ∨ s.files (.metaJson h) = none) :
  KeptOrIncomplete body info h s
  := by
  rcases hbody with hbody | hbody
  · rcases hinfo with hinfo | hinfo
    · exact .inl ⟨hbody, hinfo⟩
    · exact .inr (.inr hinfo)
  · exact .inr (.inl hbody)

/-- A file that was moved away is put back, unless the call fails. -/
theorem ends_when_restore
    {b : Bool} {finalPath backupPath : Path} {original : Option ℕ}
    (hbackup : b = true → s.files backupPath = original ∧ original ≠ none) :
  (Async.when b (restorePublishBackup finalPath backupPath)).Ends t s fun cs _ s' =>
    cs.length = b.toNat ∧ (∀ p, p ≠ finalPath → p ≠ backupPath → s'.files p = s.files p) ∧
      s'.files finalPath = if b && cs.head? == some 0 then original else s.files finalPath
  := by
  cases b with
  | false => exact Async.ends_ret ⟨rfl, fun _ _ _ => rfl, rfl⟩
  | true =>
      obtain ⟨hback, hsome⟩ := hbackup rfl
      obtain ⟨i, rfl⟩ := Option.ne_none_iff_exists'.mp hsome
      apply (ends_restorePublishBackup hback).mono
      rintro _ _ s' ⟨c, rfl, ⟨rfl, hfiles⟩ | ⟨hc, hfiles⟩⟩
      · refine ⟨rfl, fun p hp hp' => ?_, ?_⟩
        · rw [hfiles, Function.update_of_ne hp, Function.update_of_ne hp']
        · rw [hfiles, Function.update_self]
          rfl
      · refine ⟨rfl, fun p _ _ => congrFun hfiles p, ?_⟩
        rw [hfiles]
        simp [hc]

/-- The files of an entry of which the old ones have been moved away. -/
structure MovedAway (h : String) (t id : ℕ) (oldBody oldMeta : Bool) (body info : Option ℕ)
    (s : DiskCache E) : Prop where
  body_eq : s.files (.body h) = if oldBody then none else body
  info_eq : s.files (.metaJson h) = if oldMeta then none else info
  prevBody : oldBody = true → s.files (.tmp t id .prevBody) = body ∧ body ≠ none
  prevMetaJson : oldMeta = true → s.files (.tmp t id .prevMetaJson) = info ∧ info ≠ none

section Installing

variable {l : String} {id u n : ℕ} {oldBody oldMeta : Bool} {body info : Option ℕ}

/-- The old metadata is put back, and temporary files are discarded. -/
theorem ends_undo_info
    {ps : List Path} {operation : String} (hps : ∀ p ∈ ps, p.isEntry = false)
    (hprev : oldMeta = true → s.files (.tmp t id .prevMetaJson) = info ∧ info ≠ none) :
  (do
    Async.when oldMeta (restorePublishBackup (.metaJson l) (.tmp t id .prevMetaJson))
    discard ps
    return failed operation : Async (DiskCache E) (Except CacheError Unit)).Ends t s
      fun cs r s' => (∃ e, r = .error e) ∧ s'.files (.body l) = s.files (.body l) ∧
        s'.files (.metaJson l)
          = if oldMeta && cs.head? == some 0 then info else s.files (.metaJson l)
  := by
  apply Async.Ends.seq (ends_when_restore hprev)
  rintro c _ s₁ ⟨hc, hother, hinfo⟩
  apply Async.Ends.seq (ends_discard hps)
  rintro d _ s₂ ⟨-, hsame⟩
  apply Async.ends_ret
  refine ⟨⟨_, rfl⟩, ?_, ?_⟩
  · rw [hsame _ rfl, hother _ (by simp) (by simp)]
  · rw [hsame _ rfl, hinfo]
    cases oldMeta with
    | false => rfl
    | true =>
        obtain ⟨x, rfl⟩ := List.length_eq_one_iff.mp hc
        rfl

/-- The old body is put back in the place of the new one, or the new one is removed if there was
none, unless the call fails. -/
theorem ends_undo_body
    {α : Type} {k : Async (DiskCache E) α} {Q : List ℕ → α → DiskCache E → Prop}
    (hprev : oldBody = true → s.files (.tmp t id .prevBody) = body ∧ body ≠ none)
    (hk : ∀ y s₁, (s₁.files (.body l)
        = if y = 0 then if oldBody then body else none else s.files (.body l)) →
      (∀ p, p ≠ .body l → p ≠ .tmp t id .prevBody → s₁.files p = s.files p) →
      k.Ends t s₁ fun d r s' => Q (y :: d) r s') :
  (Async.when oldBody (restorePublishBackup (.body l) (.tmp t id .prevBody)) >>= fun _ =>
    Async.when (!oldBody) (discard [.body l]) >>= fun _ => k).Ends t s Q
  := by
  cases oldBody with
  | true =>
      apply Async.Ends.seq (ends_when_restore hprev)
      rintro c _ s₁ ⟨hc, hother, hbody⟩
      obtain ⟨y, rfl⟩ := List.length_eq_one_iff.mp hc
      apply Async.Ends.bind
      apply Async.ends_ret
      apply hk y s₁ _ hother
      simpa using hbody
  | false =>
      apply Async.Ends.bind
      apply Async.ends_ret
      apply Async.Ends.bind
      apply Async.Ends.bind
      apply Async.Ends.seq (ends_removeFile (.body l))
      rintro _ _ s₁ ⟨y, rfl, ⟨rfl, hfiles⟩ | ⟨hy, hfiles⟩⟩
      · apply Async.ends_ret
        apply Async.ends_ret
        apply hk 0 s₁
        · rw [hfiles, Function.update_self]
          rfl
        · intro p hp _
          rw [hfiles, Function.update_of_ne hp]
      · apply Async.ends_ret
        apply Async.ends_ret
        apply hk y s₁
        · rw [hfiles, if_neg hy]
        · exact fun p _ _ => congrFun hfiles p

/-- What a publication leaves if it fails: the entry as it was, or one that is not complete,
exactly if the choices did not keep the new body with the old metadata. -/
def Leaves (h : String) (body info : Option ℕ) (mixed : Prop) (r : Except CacheError Unit)
    (s : DiskCache E) : Prop :=
  (∀ e, r = .error e → KeptOrIncomplete body info h s) ↔ ¬ mixed

theorem leaves_of_ok
    {mixed : Prop} (h : ¬ mixed) {r : Except CacheError Unit} (hr : r.toBool = true) :
  Leaves (E := E) l body info mixed r s
  := by
  apply iff_of_true _ h
  rintro e rfl
  cases hr

theorem ends_anyhow
    {α : Type} (p : Async (DiskCache E) α) :
  p.Ends t s fun _ _ _ => True
  := ⟨fun _ _ _ _ => trivial⟩

/-- The new metadata could not be moved into place, with the new body in place. -/
theorem ends_failed_info
    {operation : String} {i c : ℕ} {ps : List Path} (hc : c ≠ 0)
    (hps : ∀ p ∈ ps, p.isEntry = false)
    (hbody : s.files (.body l) = some i)
    (hinfo : s.files (.metaJson l) = if oldMeta then none else info)
    (hprevBody : oldBody = true → s.files (.tmp t id .prevBody) = body ∧ body ≠ none)
    (hprevInfo : oldMeta = true → s.files (.tmp t id .prevMetaJson) = info ∧ info ≠ none) :
  (Async.when oldBody (restorePublishBackup (.body l) (.tmp t id .prevBody)) >>= fun _ =>
    Async.when (!oldBody) (discard [.body l]) >>= fun _ => (do
      Async.when oldMeta (restorePublishBackup (.metaJson l) (.tmp t id .prevMetaJson))
      discard ps
      return failed operation : Async (DiskCache E) (Except CacheError Unit))).Ends t s
    fun cs r s' => r.toBool = false ∧ Leaves l body info
      (keepsNewBody oldMeta info.isSome (0 :: c :: cs) = true ∧ body ≠ some i) r s'
  := by
  apply ends_undo_body hprevBody
  intro y s₁ hbody₁ hother
  have hinfo₁ : s₁.files (.metaJson l) = if oldMeta then none else info :=
    (hother _ (by simp) (by simp)).trans hinfo
  have hprev₁ : oldMeta = true → s₁.files (.tmp t id .prevMetaJson) = info ∧ info ≠ none := by
    intro h
    rw [hother _ (by simp) (by simp)]
    exact hprevInfo h
  apply (ends_undo_info hps hprev₁).mono
  rintro d r s' ⟨⟨e, rfl⟩, hbody', hinfo'⟩
  rw [hbody₁] at hbody'
  rw [hinfo₁] at hinfo'
  use rfl
  by_cases hy : y = 0
  · subst hy
    apply iff_of_true
    · intro e _
      apply keptOrIncomplete_of
      · rw [hbody']
        cases oldBody with
        | false => exact .inr rfl
        | true => exact .inl rfl
      · rw [hinfo']
        cases oldMeta with
        | false => exact .inl rfl
        | true =>
            cases d.head? == some 0 with
            | false => exact .inr rfl
            | true => exact .inl rfl
    · rintro ⟨h, -⟩
      obtain ⟨_, _, _, heq, -, hne, -⟩ := keepsNewBody_iff.mp h
      cases heq
      exact hne rfl
  · rw [if_neg hy, hbody] at hbody'
    have hkeeps : keepsNewBody oldMeta info.isSome (0 :: c :: y :: d) = true ↔
        (if oldMeta then d.head? == some 0 else info.isSome) = true := by
      simp [keepsNewBody, hc, hy]
    rw [Leaves, hkeeps]
    -- The old metadata is in place in the end, or there is no metadata.
    have hplace : (if oldMeta then d.head? == some 0 else info.isSome) = true ∧
          s'.files (.metaJson l) = info ∧ info ≠ none ∨
        ¬ (if oldMeta then d.head? == some 0 else info.isSome) = true ∧
          s'.files (.metaJson l) = none := by
      cases oldMeta with
      | false =>
          cases info with
          | none => exact .inr ⟨by simp, hinfo'⟩
          | some j => exact .inl ⟨rfl, hinfo', by simp⟩
      | true =>
          by_cases hd : (d.head? == some 0) = true
          · rw [hd] at hinfo'
            exact .inl ⟨hd, hinfo', (hprevInfo rfl).2⟩
          · rw [Bool.not_eq_true _ |>.mp hd] at hinfo'
            exact .inr ⟨hd, hinfo'⟩
    rcases hplace with ⟨hput, hinfo', hsome⟩ | ⟨hput, hinfo'⟩
    · constructor
      · rintro h ⟨-, hne⟩
        rcases h e rfl with ⟨hkept, -⟩ | hnone | hnone
        · exact hne (hkept.symm.trans hbody')
        · rw [hbody'] at hnone
          cases hnone
        · exact hsome (hinfo'.symm.trans hnone)
      · intro h _ _
        have hsame : body = some i := by
          by_contra hne
          exact h ⟨hput, hne⟩
        exact .inl ⟨hbody'.trans hsame.symm, hinfo'⟩
    · exact iff_of_true (fun _ _ => .inr (.inr hinfo')) fun h => hput h.1

theorem ends_installFiles
    {arg : CacheMeta} (hs : MovedAway l t id oldBody oldMeta body info s)
    (htemp : s.files (.tmp t id .metaJson) ≠ none) :
  (installFiles arg l t id oldBody oldMeta (.tmp u n .body) (.tmp t id .metaJson)).Ends t s
    fun cs r s' => (r.toBool = true → ∀ rest, keepsNewBody oldMeta info.isSome (cs ++ rest) = false) ∧
      Leaves l body info (keepsNewBody oldMeta info.isSome cs = true ∧
        ∃ i, s.files (.tmp u n .body) = some i ∧ body ≠ some i) r s'
  := by
  apply Async.Ends.seq (ends_rename fun _ _ => rfl)
  rintro _ r s₁ ⟨c, rfl, ⟨rfl, i, hi, rfl, hfiles⟩ | ⟨hc, ⟨e, rfl⟩, hfiles⟩⟩
  · have hother : ∀ p, p ≠ .body l → p ≠ .tmp u n .body → s₁.files p = s.files p := by
      intro p hp hp'
      rw [hfiles, Function.update_of_ne hp, Function.update_of_ne hp']
    apply Async.Ends.seq (ends_rename (files_recordWrite _ _))
    rintro _ r s₂ ⟨c, rfl, ⟨rfl, j, -, rfl, -⟩ | ⟨hc, ⟨e, rfl⟩, hfiles'⟩⟩
    · apply Async.Ends.seq (ends_anyhow _)
      intro d₁ _ _ _
      apply Async.Ends.seq (ends_anyhow _)
      intro d₂ _ _ _
      apply Async.ends_ret
      have hnot : ∀ cs, ¬ keepsNewBody oldMeta info.isSome (0 :: 0 :: cs) = true := by
        intro cs h
        obtain ⟨_, _, _, heq, hne, -, -⟩ := keepsNewBody_iff.mp h
        exact hne (List.cons.inj (List.cons.inj heq).2).1.symm
      exact ⟨fun _ rest => Bool.eq_false_iff.mpr (hnot _), leaves_of_ok (fun h => hnot _ h.1) rfl⟩
    · have hc' : c ≠ 0 := by
        apply hc.resolve_right
        rw [hother _ (by simp) (by simp)]
        exact htemp
      have hcond : (∃ j, s.files (.tmp u n .body) = some j ∧ body ≠ some j) ↔ body ≠ some i := by
        rw [hi]
        simp
      simp only [hcond]
      apply Async.Ends.mono (Q := fun cs r s' => r.toBool = false ∧ Leaves l body info
        (keepsNewBody oldMeta info.isSome (0 :: c :: cs) = true ∧ body ≠ some i) r s') _
        fun cs r s' h => ⟨fun hr => absurd hr (by rw [h.1]; nofun), h.2⟩
      apply ends_failed_info hc' (by simp [Path.isEntry])
      · rw [hfiles', hfiles, Function.update_self]
      · rw [hfiles', hother _ (by simp) (by simp), hs.info_eq]
      · intro h
        rw [hfiles', hother _ (by simp) (by simp)]
        exact hs.prevBody h
      · intro h
        rw [hfiles', hother _ (by simp) (by simp)]
        exact hs.prevMetaJson h
  · apply Async.Ends.seq (ends_when_restore (by rw [hfiles]; exact hs.prevBody))
    rintro c₁ _ s₂ ⟨-, hother, hbody₂⟩
    have hprev : oldMeta = true → s₂.files (.tmp t id .prevMetaJson) = info ∧ info ≠ none := by
      intro h
      rw [hother _ (by simp) (by simp), hfiles]
      exact hs.prevMetaJson h
    apply (ends_undo_info (by simp [Path.isEntry]) hprev).mono
    rintro d r s' ⟨⟨e, rfl⟩, hbody', hinfo'⟩
    refine ⟨nofun, ?_⟩
    apply iff_of_true
    · intro _ _
      apply keptOrIncomplete_of
      · rw [hbody', hbody₂, hfiles, hs.body_eq]
        cases oldBody with
        | false => exact .inl rfl
        | true => exact (ite_eq_or_eq _ _ _)
      · rw [hinfo', hother _ (by simp) (by simp), hfiles, hs.info_eq]
        cases oldMeta with
        | false => exact .inl rfl
        | true => exact (ite_eq_or_eq _ _ _)
    · rintro ⟨h, j, hj, -⟩
      obtain ⟨_, _, _, heq, -, -, -⟩ := keepsNewBody_iff.mp h
      rcases hc with hc | hc
      · exact hc (List.cons.inj heq).1
      · rw [hc] at hj
        cases hj

/-- A file is moved away, if it is there, or the step fails and leaves it. -/
theorem ends_moveAway
    {present : Bool} {finalPath backupPath : Path} (hne : finalPath ≠ backupPath) :
  (moveAway present finalPath backupPath).Ends t s fun cs r s' =>
    match r with
    | .ok _ =>
        (∀ rest, afterMove present (cs ++ rest) = some rest) ∧
          s'.files finalPath = (if present then none else s.files finalPath) ∧
          (present = true → s'.files backupPath = s.files finalPath ∧ s.files finalPath ≠ none) ∧
          ∀ p, p ≠ finalPath → p ≠ backupPath → s'.files p = s.files p
    | .error _ => present = true ∧ s'.files = s.files ∧
        (s.files finalPath ≠ none → ∀ rest, afterMove present (cs ++ rest) = none)
  := by
  cases present with
  | false => exact Async.ends_ret ⟨fun _ => rfl, rfl, nofun, fun _ _ _ => rfl⟩
  | true =>
      apply Async.Ends.seq (ends_rename fun _ _ => rfl)
      rintro _ r s₁ ⟨c, rfl, ⟨rfl, i, hi, rfl, hfiles⟩ | ⟨hc, ⟨e, rfl⟩, hfiles⟩⟩
      · apply Async.Ends.seq ends_fsEffect
        rintro d _ s₂ ⟨hd, hfiles'⟩
        obtain ⟨x, rfl⟩ := List.length_eq_one_iff.mp hd
        apply Async.ends_ret
        refine ⟨fun _ => rfl, ?_, fun _ => ⟨?_, ?_⟩, fun p hp hp' => ?_⟩
        · rw [hfiles', hfiles, Function.update_of_ne hne, Function.update_self]
          rfl
        · rw [hfiles', hfiles, Function.update_self, hi]
        · rw [hi]
          exact Option.some_ne_none i
        · rw [hfiles', hfiles, Function.update_of_ne hp', Function.update_of_ne hp]
      · apply Async.ends_ret
        refine ⟨rfl, hfiles, fun hthere rest => ?_⟩
        have hc' : c ≠ 0 := hc.resolve_right hthere
        cases c with
        | zero => exact absurd rfl hc'
        | succ c => rfl

/-- What a publication leaves of an entry. -/
theorem ends_publishFiles
    {arg : CacheMeta} (htemp : s.files (.tmp t id .metaJson) ≠ none) :
  (publishFiles arg l t id (.tmp u n .body) (.tmp t id .metaJson)).Ends t s
    fun cs r s' => (r.toBool = true → ∀ rest,
        mixes (s.files (.body l)).isSome (s.files (.metaJson l)).isSome (cs ++ rest) = false) ∧
      Leaves l (s.files (.body l)) (s.files (.metaJson l))
        (mixes (s.files (.body l)).isSome (s.files (.metaJson l)).isSome cs = true ∧
          ∃ i, s.files (.tmp u n .body) = some i ∧ s.files (.body l) ≠ some i) r s'
  := by
  apply Async.Ends.seq (ends_fileMetadata _)
  rintro _ r₁ s₁ ⟨c₁, rfl, hold₁, hfiles₁⟩
  apply Async.Ends.seq (ends_fileMetadata _)
  rintro _ r₂ s₂ ⟨c₂, rfl, hold₂, hfiles₂⟩
  rw [hfiles₁] at hold₂ hfiles₂
  generalize r₁.toBool = oldBody at hold₁ ⊢
  generalize r₂.toBool = oldMeta at hold₂ ⊢
  simp only [mixes, List.cons_append, List.nil_append, ← hold₁, ← hold₂]
  apply Async.Ends.seq (ends_moveAway (by simp))
  rintro m₁ (e | v) s₃ h₃
  · obtain ⟨rfl, hfiles₃, hafter₁⟩ := h₃
    rw [hfiles₂] at hfiles₃ hafter₁
    have hthere : s.files (.body l) ≠ none := by
      intro hnone
      rw [hnone] at hold₁
      simp at hold₁
    simp only [hafter₁ hthere]
    apply Async.Ends.seq (ends_discard (P := Path.isEntry) (by simp [Path.isEntry]))
    rintro d _ s₄ ⟨-, hsame⟩
    apply Async.ends_ret
    refine ⟨nofun, iff_of_true ?_ nofun⟩
    intro _ _
    left
    rw [hsame _ rfl, hsame _ rfl, hfiles₃]
    exact ⟨rfl, rfl⟩
  · obtain ⟨hafter₁, hbody₃, hprev₃, hother₃⟩ := h₃
    rw [hfiles₂] at hbody₃ hprev₃ hother₃
    have hinfo₃ : s₃.files (.metaJson l) = s.files (.metaJson l) :=
      hother₃ _ (by simp) (by simp)
    apply Async.Ends.seq (ends_moveAway (by simp))
    rintro m₂ (e | v) s₄ h₄
    · obtain ⟨rfl, hfiles₄, hafter₂⟩ := h₄
      have hthere : s₃.files (.metaJson l) ≠ none := by
        intro hnone
        rw [← hinfo₃, hnone] at hold₂
        simp at hold₂
      simp only [hafter₁, hafter₂ hthere]
      apply Async.Ends.seq (ends_when_restore (by rw [hfiles₄]; exact hprev₃))
      rintro c _ s₅ ⟨-, hother₅, hbody₅⟩
      apply Async.Ends.seq (ends_discard (P := Path.isEntry) (by simp [Path.isEntry]))
      rintro d _ s₆ ⟨-, hsame⟩
      apply Async.ends_ret
      refine ⟨nofun, iff_of_true ?_ nofun⟩
      intro _ _
      apply keptOrIncomplete_of
      · rw [hsame _ rfl, hbody₅, hfiles₄, hbody₃]
        cases oldBody with
        | false => exact .inl rfl
        | true => exact ite_eq_or_eq _ _ _
      · left
        rw [hsame _ rfl, hother₅ _ (by simp) (by simp), hfiles₄, hinfo₃]
    · obtain ⟨hafter₂, hinfo₄, hprev₄, hother₄⟩ := h₄
      rw [hinfo₃] at hinfo₄ hprev₄
      simp only [hafter₂, List.append_assoc, hafter₁]
      have hmoved : MovedAway l t id oldBody oldMeta (s.files (.body l)) (s.files (.metaJson l)) s₄ := by
        constructor
        · rw [hother₄ _ (by simp) (by simp), hbody₃]
        · exact hinfo₄
        · intro h
          rw [hother₄ _ (by simp) (by simp)]
          exact hprev₃ h
        · exact hprev₄
      have hkeeps : ∀ p, p.isEntry = false → p ≠ .tmp t id .prevBody →
          p ≠ .tmp t id .prevMetaJson → s₄.files p = s.files p := by
        intro p hp hp₁ hp₂
        rw [hother₄ _ _ hp₂, hother₃ _ _ hp₁]
        · rintro rfl
          cases hp
        · rintro rfl
          cases hp
      have htemp₄ : s₄.files (.tmp t id .metaJson) ≠ none := by
        rw [hkeeps _ rfl (by simp) (by simp)]
        exact htemp
      have hbody₄ : s₄.files (.tmp u n .body) = s.files (.tmp u n .body) :=
        hkeeps _ rfl (by simp) (by simp)
      have h := @ends_installFiles _ _ _ _ _ u n _ _ _ _ arg hmoved htemp₄
      rw [hbody₄] at h
      exact h

/-! ### The whole commit -/

/-- By the choices for a publication, a new body that is not the old one stays in place with the
old metadata. -/
def LeavesMixture (s : DiskCache E) (l : String) (tempBody : Path) (cs : List ℕ) : Prop :=
  mixes (s.files (.body l)).isSome (s.files (.metaJson l)).isSome cs = true ∧
    ∃ i, s.files tempBody = some i ∧ s.files (.body l) ≠ some i

/-- What a commit leaves of an entry if it fails, when `k` choices come before those for the
publication. -/
def Commits (s : DiskCache E) (l : String) (tempBody : Path) (k : ℕ) (cs : List ℕ)
    (r : Except CacheError Unit) (s' : DiskCache E) : Prop :=
  Leaves l (s.files (.body l)) (s.files (.metaJson l)) (s.LeavesMixture l tempBody (cs.drop k)) r s'

/-- A commit that ends before the publication leaves the entry as it was. -/
theorem commits_of_length
    {tempBody : Path} {k : ℕ} {cs : List ℕ} {r : Except CacheError Unit}
    (hsame : Same Path.isEntry s s') (h : cs.length < k + 5) :
  s.Commits l tempBody k cs r s'
  := by
  apply iff_of_true
  · intro _ _
    exact .inl ⟨hsame _ rfl, hsame _ rfl⟩
  · rintro ⟨hmixes, -⟩
    rw [mixes_of_length (by rw [List.length_drop]; omega)] at hmixes
    cases hmixes

/-- A commit after calls that left the entry and the new body as they are. -/
theorem Commits.after
    {k m : ℕ} {c d : List ℕ} {r : Except CacheError Unit} {s₁ : DiskCache E}
    (h : s₁.Commits l (.tmp u n .body) k d r s') (hc : c.length = m)
    (hsame : Same Path.isContent s s₁) :
  s.Commits l (.tmp u n .body) (m + k) (c ++ d) r s'
  := by
  have hbody := hsame (.body l) rfl
  have hinfo := hsame (.metaJson l) rfl
  have htemp := hsame (.tmp u n .body) rfl
  rw [Commits, LeavesMixture, ← List.drop_drop, List.drop_left' hc, ← hbody, ← hinfo, ← htemp]
  exact h

theorem ends_currentGeneration
    (key : CacheKey) :
  (currentGeneration key : Async (DiskCache E) _).Ends t s fun cs _ s' => cs.length = 1 ∧ s' = s
  := by
  apply Async.ends_suspend
  intro c g s' h
  obtain ⟨-, rfl⟩ := Prod.mk.inj (Option.some.inj h)
  exact ⟨rfl, rfl⟩

theorem ends_activeFill
    (key : CacheKey) :
  (activeFill key : Async (DiskCache E) _).Ends t s fun cs _ s' => cs.length = 1 ∧ s' = s
  := by
  apply Async.ends_suspend
  intro c e s' h
  obtain ⟨-, rfl⟩ := Prod.mk.inj (Option.some.inj h)
  exact ⟨rfl, rfl⟩

theorem ends_commitLocked
    {guard : FillGuard} {arg : CacheMeta} (hl : guard.key.hash = l) :
  (commitLocked guard t id (.tmp u n .body) (.tmp t id .metaJson) arg).Ends t s
    (s.Commits l (.tmp u n .body) 12)
  := by
  subst hl
  have htemps : ∀ p ∈ [Path.tmp u n .body, Path.tmp t id .metaJson], p.isEntry = false := by
    simp [Path.isEntry]
  apply Async.Ends.seq (ends_currentGeneration _)
  rintro c₁ g s₁ ⟨hc₁, rfl⟩
  split
  next =>
    apply Async.Ends.seq (ends_discard (P := Path.isEntry) (by simp [Path.isEntry]))
    rintro d _ s₂ ⟨hd, hsame⟩
    apply Async.ends_ret
    apply commits_of_length hsame
    simp [hc₁, hd]
  next =>
    apply Async.Ends.seq (ends_readFile _)
    rintro c₂ file s₂ ⟨hc₂, hfiles₂⟩
    have hsame₂ : Same Path.isContent s₁ s₂ := .of_files hfiles₂
    apply Async.Ends.seq (ends_reserveFillId _)
    rintro c₃ (e | fillId) s₃ ⟨hc₃, hsame₃⟩
    · apply Async.Ends.seq (ends_discard htemps)
      rintro d _ s₄ ⟨hd, hsame₄⟩
      apply Async.ends_ret
      apply commits_of_length ((hsame₂.entry.trans hsame₃).trans hsame₄)
      simp at hd ⊢
      omega
    · apply Async.Ends.seq (ends_writeTempMeta rfl rfl rfl)
      rintro c₄ (e | v) s₄ ⟨⟨hc₄, hsame₄⟩, hthere⟩
      · apply Async.ends_ret
        apply commits_of_length ((hsame₂.trans hsame₃).entry.trans hsame₄)
        simp
        omega
      · have hsame := (hsame₂.trans hsame₃).trans hsame₄
        apply Async.Ends.seq (ends_publishFiles (hthere rfl))
        rintro d (e | v) s₅ ⟨hdone, hleaves⟩
        · apply Async.ends_ret
          rw [List.append_nil]
          have hcommits : s₄.Commits guard.key.hash (.tmp u n .body) 0 d (.error e) s₅ := hleaves
          exact (((hcommits.after hc₄ hsame₄).after hc₃ hsame₃).after hc₂ hsame₂).after hc₁
            (.of_files rfl)
        · apply Async.Ends.bind
          apply Async.ends_act
          apply Async.Ends.seq (ends_anyhow _)
          rintro c₅ _ s₆ -
          apply Async.ends_ret
          have hcommits : s₄.Commits guard.key.hash (.tmp u n .body) 0 (d ++ ([] ++ (c₅ ++ [])))
              (.ok ()) s₆ := by
            apply leaves_of_ok _ rfl
            rintro ⟨hmixes, -⟩
            rw [List.drop_zero, hdone rfl] at hmixes
            cases hmixes
          exact (((hcommits.after hc₄ hsame₄).after hc₃ hsame₃).after hc₂ hsame₂).after hc₁
            (.of_files rfl)

theorem ends_lockMeta
    (h : String) :
  (lockMeta h : Async (DiskCache E) _).Ends t s fun cs _ s' =>
    cs.length = 1 ∧ s'.files = s.files
  := by
  apply Async.ends_suspend
  intro c _ s' hlock
  split at hlock
  next =>
    obtain ⟨-, rfl⟩ := Prod.mk.inj (Option.some.inj hlock)
    exact ⟨rfl, rfl⟩
  next => cases hlock

theorem ends_lockCommit
    (e : ℕ) :
  (lockCommit e : Async (DiskCache E) _).Ends t s fun cs _ s' =>
    cs.length = 1 ∧ s'.files = s.files
  := by
  apply Async.ends_suspend
  intro c _ s' hlock
  split at hlock
  next =>
    obtain ⟨-, rfl⟩ := Prod.mk.inj (Option.some.inj hlock)
    exact ⟨rfl, rfl⟩
  next => cases hlock

/-- The locks are taken in two calls, and are released without one. -/
theorem ends_commitLocks
    {guard : FillGuard} {arg : CacheMeta} (e : ℕ) :
  (withCommitLock (some e) <| withMetaLock guard.key.hash <|
      commitLocked guard t id (.tmp u n .body) (.tmp t id .metaJson) arg).Ends t s
    (s.Commits guard.key.hash (.tmp u n .body) 14)
  := by
  apply Async.Ends.seq (ends_lockCommit e)
  rintro c₁ _ s₁ ⟨hc₁, hfiles₁⟩
  apply Async.Ends.bind
  apply Async.Ends.seq (ends_lockMeta _)
  rintro c₂ _ s₂ ⟨hc₂, hfiles₂⟩
  apply Async.Ends.seq (ends_commitLocked rfl)
  rintro d r s₃ hcommits
  apply Async.Ends.bind
  apply Async.ends_act
  apply Async.ends_ret
  apply Async.Ends.bind
  apply Async.ends_act
  apply Async.ends_ret
  simp only [List.append_nil]
  exact (Commits.after hcommits hc₂ (.of_files hfiles₂)).after hc₁ (.of_files hfiles₁)

theorem ends_commitFillInner
    {guard : FillGuard} {arg : CacheMeta} :
  (commitFillInner guard (.tmp u n .body) arg).Ends t s
    (s.Commits guard.key.hash (.tmp u n .body) 19)
  := by
  -- Before the locks are taken, a commit that ends has only discarded temporary files.
  have hends : ∀ {c : List ℕ} {s₁ : DiskCache E} {ps : List Path} {r : Except CacheError Unit},
      c.length ≤ 5 → s₁.files = s.files → (∀ p ∈ ps, p.isEntry = false) → ps.length ≤ 2 →
        (do discard ps; return r : Async (DiskCache E) (Except CacheError Unit)).Ends t s₁
          fun d r s' => s.Commits guard.key.hash (.tmp u n .body) 19 (c ++ d) r s' := by
    intro c s₁ ps r hc hfiles hps hlen
    apply Async.Ends.seq (ends_discard hps)
    rintro d _ s₂ ⟨hd, hsame⟩
    apply Async.ends_ret
    apply commits_of_length ((Same.of_files hfiles).trans hsame)
    simp
    omega
  apply Async.Ends.seq (ends_currentGeneration _)
  rintro c₁ g s₁ ⟨hc₁, rfl⟩
  split
  next => exact hends (by omega) rfl (by simp [Path.isEntry]) (by simp)
  next =>
    apply Async.Ends.bind
    apply ends_currentTask
    apply Async.Ends.bind
    apply ends_nextTmp
    intro s₂ hfiles₂
    have htemps : ∀ p ∈ [Path.tmp u n .body, Path.tmp t s₁.tmpCounter .metaJson],
        p.isEntry = false := by
      simp [Path.isEntry]
    apply Async.Ends.seq (ends_fileMetadata _)
    rintro _ _ s₃ ⟨x, rfl, -, hfiles₃⟩
    apply Async.Ends.seq ends_fsEffect
    rintro c₄ (e | v) s₄ ⟨hc₄, hfiles₄⟩
    · simp only [← List.append_assoc]
      exact hends (by simp [hc₁, hc₄]) (hfiles₄.trans (hfiles₃.trans hfiles₂)) htemps (by simp)
    · apply Async.Ends.seq (ends_currentGeneration _)
      rintro c₅ g s₅ ⟨hc₅, rfl⟩
      split
      next =>
        simp only [← List.append_assoc]
        exact hends (by simp [hc₁, hc₄, hc₅]) (hfiles₄.trans (hfiles₃.trans hfiles₂)) htemps
          (by simp)
      next =>
        apply Async.Ends.seq (ends_activeFill _)
        rintro c₆ (_ | e) s₆ ⟨hc₆, rfl⟩
        · simp only [← List.append_assoc]
          exact hends (by simp [hc₁, hc₄, hc₅, hc₆]) (hfiles₄.trans (hfiles₃.trans hfiles₂)) htemps
            (by simp)
        · apply (ends_commitLocks e).mono
          intro d r s' hcommits
          have hafter₄ := ((hcommits.after hc₆ (.of_files rfl)).after hc₅ (.of_files rfl)).after hc₄
            (.of_files hfiles₄)
          have hafter₃ := Commits.after (c := [x]) hafter₄ rfl (.of_files hfiles₃)
          have hafter₂ := Commits.after (c := []) hafter₃ rfl (.of_files hfiles₂)
          exact hafter₂.after hc₁ (.of_files rfl)

/-- A commit that fails leaves the entry as it was, or one that is not complete, exactly if the
calls that fail do not make the new body stay in place with the old metadata: the new metadata is
not moved into place, the call that is to undo the move of the new body fails as well, and the old
metadata is put back or was never moved away. -/
theorem commitFillInner_leaves
    {guard : FillGuard} {arg : CacheMeta} {cs : List ℕ} {r : Except CacheError Unit}
    (h : (commitFillInner guard (.tmp u n .body) arg).Runs t cs s r s') :
  (∀ e, r = .error e →
      KeptOrIncomplete (s.files (.body guard.key.hash)) (s.files (.metaJson guard.key.hash))
        guard.key.hash s') ↔
    ¬ s.LeavesMixture guard.key.hash (.tmp u n .body) (cs.drop 19)
  := ends_commitFillInner.post cs r s' h

end Installing

/-! ### A commit that leaves a mixture -/

/-- A cache with an entry, of which a new body has been written. -/
def refilling : DiskCache Unit :=
  { fresh () with
    files := fun p =>
      if p = .body "hash" then some 0
      else if p = .metaJson "hash" then some 1
      else if p = .tmp 0 0 .body then some 2
      else none
    data := fun i =>
      if i = 0 then .body 0 [1] else if i = 1 then .json 0 sampleMeta else .body 1 [2]
    nextIno := 3
    activeFills := fun key => if key = sampleKey then some 0 else none
    nextEntry := 1
    tmpCounter := 1 }

/-- The commit of the new body fails: the new metadata cannot be moved into place, and then the
old body cannot be put back, but the old metadata can. The new body is left with the old
metadata. -/
theorem commitFillInner_mixture :
  ∃ e s', (commitFillInner ⟨sampleKey, 0, 1⟩ (.tmp 0 0 .body) sampleMeta).Runs 0
      (List.replicate 26 0 ++ [1, 1, 0, 0]) refilling (.error e) s' ∧
    refilling.files (.body "hash") = some 0 ∧ refilling.files (.metaJson "hash") = some 1 ∧
    s'.files (.body "hash") = refilling.files (.tmp 0 0 .body) ∧
    s'.files (.metaJson "hash") = some 1 ∧ ¬ KeptOrIncomplete (some 0) (some 1) "hash" s'
  := by
  refine ⟨_, _, rfl, rfl, rfl, rfl, rfl, ?_⟩
  rintro (⟨h, -⟩ | h | h)
  · cases h
  · cases h
  · cases h

/-- The commit of the new body fails in the same way, but the old body is put back. -/
theorem commitFillInner_undone :
  ∃ e s', (commitFillInner ⟨sampleKey, 0, 1⟩ (.tmp 0 0 .body) sampleMeta).Runs 0
      (List.replicate 26 0 ++ [1, 0, 0, 0]) refilling (.error e) s' ∧
    KeptOrIncomplete (some 0) (some 1) "hash" s'
  := by
  have hruns : ∃ e s', (commitFillInner ⟨sampleKey, 0, 1⟩ (.tmp 0 0 .body) sampleMeta).Runs 0
      (List.replicate 26 0 ++ [1, 0, 0, 0]) refilling (.error e) s' := ⟨_, _, rfl⟩
  obtain ⟨e, s', hrun⟩ := hruns
  use e, s', hrun
  apply (commitFillInner_leaves hrun).mpr _ e rfl
  rintro ⟨hmixes, -⟩
  cases hmixes

end DiskCache

end TinyS3Proxy
