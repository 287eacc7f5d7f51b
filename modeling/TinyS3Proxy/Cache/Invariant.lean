import TinyS3Proxy.Coop.Rely
import TinyS3Proxy.Cache.Eviction

/-!
# The invariant of the disk cache

What holds of the state of the cache between any two changes, what a task may rely on
while it is suspended, and what every change of the state guarantees.

* An entry is only changed under its metadata lock. While a task holds the lock, the
  files of the entry differ from those it was last left with in one way only: a
  publication has moved old files away and perhaps moved its new body into place.
* A fill is *fenced* when it can no longer publish, and what it may have published is
  gone or poisoned. A fenced fill stays fenced.
* The fill ids handed out increase, and stay below the persisted counter.
-/

namespace TinyS3Proxy

open Coop

/-- What the surroundings of the cache contribute to the invariant: an order on
environments, what a task relies on of the environment, what a change of it must be
accompanied by, what holds of it, what a task that has not been started does not own of
it, whether tasks may be dropped, and what the callers promise about the bodies and the
metadata that they hand to the cache. -/
structure Setting (E : Type) where
  later : E → E → Prop
  rely : ℕ → E → E → Prop
  emits : DiskCache E → DiskCache E → Prop
  inv : E → Prop
  idle : ℕ → E → Prop
  drops : Bool
  BodyOk : E → CacheKey → List UInt8 → Prop
  InfoOk : CacheKey → CacheMeta → Prop
  later_refl : ∀ e, later e e
  later_trans : ∀ {e₁ e₂ e₃}, later e₁ e₂ → later e₂ e₃ → later e₁ e₃
  rely_refl : ∀ t e, rely t e e
  rely_trans : ∀ {t e₁ e₂ e₃}, rely t e₁ e₂ → rely t e₂ e₃ → rely t e₁ e₃
  rely_idle : ∀ {t e e'}, rely t e e' → idle t e → idle t e'
  emits_of_env_eq : ∀ s s', s'.env = s.env → emits s s'
  info_stamped : ∀ {k m} (id : FillId), InfoOk k m → InfoOk k (m.stamped id)
  info_preserve : ∀ {k k' m c}, InfoOk k m → InfoOk k' c → k'.hash = k.hash →
    InfoOk k (m.preserveSameEtagHeadStateFrom c)
  info_updated : ∀ {k k' m c}, InfoOk k m → InfoOk k' c → k'.hash = k.hash →
    InfoOk k' (m.updatedFrom c)
  info_touched : ∀ {k m} (now : Time), InfoOk k m → InfoOk k { m with lastAccessedAt := now }

namespace DiskCache

variable {E : Type}

/-! ### Traces of fills -/

/-- The files of the entry have no trace of the fill `f`. -/
def NoTrace (s : DiskCache E) (f : ℕ) (v : View) : Prop :=
  (∀ i b, v.body = some i → s.data i ≠ .body f b) ∧
    ∀ i m, v.info = some i → s.data i ≠ .json f m

/-- The fill `f` cannot publish any more. -/
def Barred (s : DiskCache E) (f : ℕ) (r : Fill E) : Prop :=
  s.fills f = some r ∧ (r.finished = true ∨ r.bumps₀ < (s.entries r.entry).bumps)

/-- The fill `f` cannot publish any more, and what it may have published is gone or
poisoned. -/
def Fenced (s : DiskCache E) (f : ℕ) : Prop :=
  ∃ r, s.Barred f r ∧
    ((s.slot r.key.hash).poisoned = true ∨ s.NoTrace f (s.slot r.key.hash))

/-- The task `t` is publishing the fill `f` under the hash `h`. -/
def Publishing (s : DiskCache E) (t f : ℕ) (h : String) (r : Fill E) : Prop :=
  s.fills f = some r ∧ r.owner = some t ∧ r.finished = false ∧ r.key.hash = h ∧
    (s.entries r.entry).commitLock = some t ∧
    (s.entries r.entry).generation = UInt64.ofNat r.bumps₀

/-- No metadata file has been written for the fill `f`. -/
def Unwritten (ws : List Write) (f : ℕ) : Prop := ∀ w ∈ ws, w.fill ≠ f

/-- The metadata last written for the fill `f`. -/
def lastWrite (ws : List Write) (f : ℕ) : Option CacheMeta :=
  ((ws.filter fun w => w.fill = f).getLast?).map (·.new)

/-- The value in the counter file, and zero when there is none. -/
def counterValue (s : DiskCache E) : ℕ :=
  match s.files .fillIdCounter with
  | none => 0
  | some i =>
      match s.data i with
      | .counter n => n.toNat
      | _ => 0

/-- The fill id `n` was reserved when the first `k` writes had been made: it is greater
than the ids that these have published since the counter file has been kept. -/
def ReservedAt (s : DiskCache E) (n : FillId) (k : ℕ) : Prop :=
  k ≤ s.writes.length ∧ ∀ j w arg, s.counterKept ≤ j → j < k → s.writes[j]? = some w →
    w.kind = .publish arg → w.new.fillId < n

/-- What a write in place does to the metadata of its fill, after the writes `ws`. -/
def WriteOk (ws : List Write) (w : Write) : Prop :=
  match w.kind with
  | .publish arg => Unwritten ws w.fill ∧
      (w.new = arg.stamped w.new.fillId ∨ ∃ g c, w.old = some (g, c) ∧
        w.new = (arg.preserveSameEtagHeadStateFrom c).stamped w.new.fillId)
  | .update => ∃ c m : CacheMeta, w.old = some (w.fill, c) ∧ w.new = m.updatedFrom c ∧
      (lastWrite ws w.fill = some c ∨ Unwritten ws w.fill)
  | .touch => ∃ (c : CacheMeta) (now : Time), w.old = some (w.fill, c) ∧ c.lastAccessedAt < now ∧
      w.new = { c with lastAccessedAt := now } ∧
      (lastWrite ws w.fill = some c ∨ Unwritten ws w.fill)

/-! ### What holds of an entry -/

/-- The body of an entry was written by a fill of a key with its hash. -/
def BodyAt (S : Setting E) (s : DiskCache E) (h : String) (i : ℕ) : Prop :=
  ∃ f b r, s.data i = .body f b ∧ s.fills f = some r ∧ r.key.hash = h ∧
    S.BodyOk r.born r.key b

/-- The metadata of an entry was written by a fill of a key with its hash, under the fill
id of that fill, which no other fill since the restart has. It is what was last written
for that fill. -/
structure InfoAt (S : Setting E) (s : DiskCache E) (h : String) (g : ℕ) (m : CacheMeta) :
    Prop where
  fill : ∃ r, s.fills g = some r ∧ r.key.hash = h ∧ r.fillId = some m.fillId ∧
    S.InfoOk r.key m
  id_lt : m.fillId < s.nextFillId
  id_unique : ∀ f r, s.bootFill ≤ f → s.fills f = some r → r.fillId = some m.fillId → f = g
  last : lastWrite s.writes g = some m ∨ (Unwritten s.writes g ∧ g < s.bootFill)

/-- The body and the metadata of an entry, when it has both, were written by one fill. -/
def Paired (s : DiskCache E) (v : View) : Prop :=
  ∀ i j f b g m, v.body = some i → v.info = some j → s.data i = .body f b →
    s.data j = .json g m → f = g

/-- The file was not written for any fill that was begun since the restart. -/
def Old (s : DiskCache E) (i : ℕ) : Prop :=
  (∀ f b, s.data i = .body f b → f < s.bootFill) ∧
    ∀ f m, s.data i = .json f m → f < s.bootFill

/-- The entry is complete, or all it has is left over from before the restart. -/
def Quiet (s : DiskCache E) (v : View) : Prop :=
  (∃ i j f b m, v.body = some i ∧ v.info = some j ∧ s.data i = .body f b ∧
    s.data j = .json f m) ∨
  ((∀ i, v.body = some i → s.Old i) ∧ ∀ j, v.info = some j → s.Old j)

/-- How the files of an entry may differ from those it was last left with, while the task
`t` holds its lock. -/
structure InProgress (S : Setting E) (s : DiskCache E) (t : ℕ) (h : String) : Prop where
  body : s.files (.body h) = none ∨ s.files (.body h) = (s.slot h).body ∨
    ∃ i f b r, s.files (.body h) = some i ∧ s.data i = .body f b ∧
      s.Publishing t f h r ∧ S.BodyOk r.born r.key b
  info : s.files (.metaJson h) = none ∨ s.files (.metaJson h) = (s.slot h).info

/-! ### The invariant -/

/-- The invariant of the disk cache. -/
structure Inv (S : Setting E) (s : DiskCache E) : Prop where
  env : S.inv s.env
  linked : ∀ p i, s.files p = some i → i < s.nextIno
  slot_body_lt : ∀ h i, (s.slot h).body = some i → i < s.nextIno
  slot_info_lt : ∀ h i, (s.slot h).info = some i → i < s.nextIno
  fill_lt : ∀ f r, s.fills f = some r → f < s.nextFill ∧ r.entry < s.nextEntry
  boot_fill : s.bootFill ≤ s.nextFill
  active_lt : ∀ k e, s.activeFills k = some e → e < s.nextEntry
  entry_new : ∀ e, s.nextEntry ≤ e → s.entries e = ⟨0, 0, none, ∅⟩
  live : ∀ e f, f ∈ (s.entries e).live ↔ ∃ r, s.fills f = some r ∧ r.entry = e ∧ r.finished = false
  active : ∀ f r, s.fills f = some r → r.finished = false →
    s.activeFills r.key = some r.entry ∧ s.bootFill ≤ f
  refcount : ∀ e, (s.entries e).refcount = (s.entries e).live.card
  bumps : ∀ f r, s.fills f = some r → r.finished = false →
    r.bumps₀ ≤ (s.entries r.entry).bumps
  unwrapped : s.wrapped = false → ∀ f r, s.fills f = some r → r.finished = false →
    (s.entries r.entry).bumps < r.bumps₀ + 2 ^ 64
  poisoned : ∀ h, s.poisonedHashes h = (s.slot h).poisoned
  free : ∀ h, s.metaLocks h = none → s.view h = s.slot h
  held : ∀ h t, s.metaLocks h = some t → s.InProgress S t h
  bodies : ∀ h i, (s.slot h).body = some i → s.BodyAt S h i
  infos : ∀ h i g m, (s.slot h).info = some i → s.data i = .json g m → s.InfoAt S h g m
  info_not_body : ∀ h i f b, (s.slot h).info = some i → s.data i ≠ .body f b
  slot_paired : s.faulted = false → ∀ h, s.Paired (s.slot h)
  view_paired : s.faulted = false → ∀ h, s.Paired (s.view h)
  quiet : s.faulted = false → s.dropped = false → ∀ h, s.metaLocks h = none → s.Quiet (s.slot h)
  cleaned : s.faulted = false → s.dropped = false → ∀ i ∈ s.cleaned,
    i < s.nextIno ∧ s.Old i
  ids_pos : 0 < s.nextFillId
  ids_lt : ∀ f r n, s.bootFill ≤ f → s.fills f = some r → r.fillId = some n → n < s.nextFillId
  ids_inj : ∀ f g r r' n, s.bootFill ≤ f → s.bootFill ≤ g → s.fills f = some r →
    s.fills g = some r' → r.fillId = some n → r'.fillId = some n → f = g
  ids_disk : ∀ h h' i i' g g' m m', (s.slot h).info = some i → (s.slot h').info = some i' →
    s.data i = .json g m → s.data i' = .json g' m' → m.fillId = m'.fillId → g = g'
  counter : ∀ i, s.files .fillIdCounter = some i → ∃ n, s.data i = .counter n ∧ 0 < n
  counter_le : s.counterValue ≤ s.nextFillId.toNat
  disk_lt_counter : s.counterValue ≠ 0 → ∀ h i g m, (s.slot h).info = some i →
    s.data i = .json g m → m.fillId.toNat < s.counterValue
  published_lt : ∀ k w arg, s.counterKept ≤ k → s.writes[k]? = some w →
    w.kind = .publish arg → w.new.fillId.toNat < s.counterValue
  published_pos : ∀ w ∈ s.writes, ∀ arg, w.kind = .publish arg → 0 < w.new.fillId
  reserved : ∀ f r n, s.fills f = some r → r.fillId = some n → s.ReservedAt n r.reservedAt
  published_id : ∀ w ∈ s.writes, ∃ r, s.fills w.fill = some r ∧
    r.fillId = some w.new.fillId
  writes : ∀ k w, s.writes[k]? = some w → WriteOk (s.writes.take k) w
  floating : ∀ f r, s.fills f = some r → r.finished = false → r.owner = none →
    Unwritten s.writes f
  owned : ∀ f r t, s.fills f = some r → r.owner = some t → r.finished = false

/-! ### What only grows -/

/-- What is remembered about a fill only grows. -/
structure Grows (r r' : Fill E) : Prop where
  key : r'.key = r.key
  entry : r'.entry = r.entry
  bumps₀ : r'.bumps₀ = r.bumps₀
  born : r'.born = r.born
  finished : r.finished = true → r'.finished = true
  fillId : ∀ n, r.fillId = some n → r'.fillId = some n ∧ r'.reservedAt = r.reservedAt

/-- What every change of the state within one run of the process keeps. -/
structure Mono (S : Setting E) (s s' : DiskCache E) : Prop where
  later : S.later s.env s'.env
  ino : s.nextIno ≤ s'.nextIno
  data : ∀ i, i < s.nextIno → s'.data i = s.data i
  fills : ∀ f r, s.fills f = some r → ∃ r', s'.fills f = some r' ∧ Grows r r'
  fresh : ∀ f r', s'.fills f = some r' → s.fills f = none → S.later s.env r'.born
  ids : ∀ f r' n, s'.fills f = some r' → r'.fillId = some n →
    s.nextFillId ≤ n ∨ ∃ r, s.fills f = some r ∧ r.fillId = some n
  nextEntry : s.nextEntry ≤ s'.nextEntry
  bumps : ∀ e, (s.entries e).bumps ≤ (s'.entries e).bumps
  writes : s.writes <+: s'.writes
  faulted : s.faulted = true → s'.faulted = true
  dropped : s.dropped = true → s'.dropped = true
  undropped : S.drops = false → s.dropped = false → s'.dropped = false
  wrapped : s.wrapped = true → s'.wrapped = true
  bootFill : s'.bootFill = s.bootFill
  fenced : s'.wrapped = false → ∀ f, s.Fenced f → s'.Fenced f
  nextFillId : s.nextFillId ≤ s'.nextFillId
  counter : s.counterValue ≤ s'.counterValue
  counterKept : s'.counterKept = s.counterKept

/-- Only the task `t` gives or removes the name `p`. -/
def Owns (s : DiskCache E) (t : ℕ) : Path → Prop
  | .body h => s.metaLocks h = some t
  | .metaJson h => s.metaLocks h = some t
  | .metaTmp h _ => s.metaLocks h = some t
  | .tmp t' _ _ => t' = t
  | .poisoned _ => False
  | .fillIdCounter => s.fillIdPersistLock = some t

/-- What a piece of code may change of the things that its task owns: names of files,
entries given by their hash, tracking records, and fills. -/
structure Scope where
  names : Path → Prop
  hashes : String → Prop
  records : ℕ → Prop
  fills : ℕ → Prop

/-- The scope of code that changes nothing. -/
def Scope.none : Scope := ⟨fun _ => False, fun _ => False, fun _ => False, fun _ => False⟩

/-- All that the task `t` owns is kept, except for what is in the scope `X`. -/
structure Kept (S : Setting E) (t : ℕ) (X : Scope) (s s' : DiskCache E) : Prop where
  mono : s.Mono S s'
  env : S.rely t s.env s'.env
  metaLock : ∀ h, s'.metaLocks h = some t ↔ s.metaLocks h = some t
  commitLock : ∀ e, (s.entries e).commitLock = some t → (s'.entries e).commitLock = some t
  bumps : ∀ e, ¬ X.records e → (s.entries e).commitLock = some t →
    (s'.entries e).bumps = (s.entries e).bumps
  persistLock : s.fillIdPersistLock = some t →
    s'.fillIdPersistLock = some t ∧ s'.nextFillId = s.nextFillId
  files : ∀ p, ¬ X.names p → s.Owns t p → s'.files p = s.files p
  slot : ∀ h, ¬ X.hashes h → s.metaLocks h = some t →
    s'.slot h = s.slot h ∧ s'.poisonedHashes h = s.poisonedHashes h
  fills : ∀ f r, ¬ X.fills f → s.fills f = some r → r.owner = some t → s'.fills f = some r
  unwritten : ∀ f r, ¬ X.fills f → s.fills f = some r → r.owner = some t →
    Unwritten s.writes f → Unwritten s'.writes f

/-- What the task `t` relies on while it is suspended: all that it owns is kept. -/
def Rely (S : Setting E) (t : ℕ) : DiskCache E → DiskCache E → Prop := Kept S t Scope.none

namespace Grows

theorem refl (r : Fill E) :
  Grows r r
  := ⟨rfl, rfl, rfl, rfl, id, fun _ h => ⟨h, rfl⟩⟩

theorem trans
    {r₁ r₂ r₃ : Fill E} (h : Grows r₁ r₂) (h' : Grows r₂ r₃) :
  Grows r₁ r₃
  where
  key := h'.key.trans h.key
  entry := h'.entry.trans h.entry
  bumps₀ := h'.bumps₀.trans h.bumps₀
  born := h'.born.trans h.born
  finished := h'.finished ∘ h.finished
  fillId := by
    intro n hn
    obtain ⟨h₁, e₁⟩ := h.fillId n hn
    obtain ⟨h₂, e₂⟩ := h'.fillId n h₁
    use h₂
    rw [e₂, e₁]

end Grows

namespace Mono

variable {S : Setting E}

theorem refl (S : Setting E) (s : DiskCache E) :
  s.Mono S s
  where
  later := S.later_refl _
  ino := le_rfl
  data := fun _ _ => rfl
  fills := fun _ r h => ⟨r, h, Grows.refl r⟩
  fresh := by
    intro f r' h h'
    rw [h] at h'
    cases h'
  ids := fun _ r' _ h hn => Or.inr ⟨r', h, hn⟩
  nextEntry := le_rfl
  bumps := fun _ => le_rfl
  writes := List.prefix_rfl
  faulted := id
  dropped := id
  undropped := fun _ => id
  wrapped := id
  bootFill := rfl
  fenced := fun _ _ h => h
  nextFillId := UInt64.le_refl _
  counter := le_rfl
  counterKept := rfl

theorem trans
    {s₁ s₂ s₃ : DiskCache E} (h : s₁.Mono S s₂) (h' : s₂.Mono S s₃) :
  s₁.Mono S s₃
  where
  later := S.later_trans h.later h'.later
  ino := h.ino.trans h'.ino
  data := by
    intro i hi
    rw [h'.data i (hi.trans_le h.ino), h.data i hi]
  fills := by
    intro f r hf
    obtain ⟨r₂, hf₂, hr₂⟩ := h.fills f r hf
    obtain ⟨r₃, hf₃, hr₃⟩ := h'.fills f r₂ hf₂
    exact ⟨r₃, hf₃, hr₂.trans hr₃⟩
  fresh := by
    intro f r₃ hf₃ hf
    cases hf₂ : s₂.fills f with
    | none => apply S.later_trans h.later (h'.fresh f r₃ hf₃ hf₂)
    | some r₂ =>
        obtain ⟨r, hr, hg⟩ := h'.fills f r₂ hf₂
        obtain rfl : r = r₃ := Option.some.inj (hr.symm.trans hf₃)
        rw [hg.born]
        apply h.fresh f r₂ hf₂ hf
  ids := by
    intro f r₃ n hf₃ hn
    obtain hle | ⟨r₂, hf₂, hn₂⟩ := h'.ids f r₃ n hf₃ hn
    · exact Or.inl (UInt64.le_trans h.nextFillId hle)
    · exact h.ids f r₂ n hf₂ hn₂
  nextEntry := h.nextEntry.trans h'.nextEntry
  bumps := fun e => (h.bumps e).trans (h'.bumps e)
  writes := h.writes.trans h'.writes
  faulted := h'.faulted ∘ h.faulted
  dropped := h'.dropped ∘ h.dropped
  undropped := fun hS => h'.undropped hS ∘ h.undropped hS
  wrapped := h'.wrapped ∘ h.wrapped
  bootFill := h'.bootFill.trans h.bootFill
  fenced := by
    intro hw f hf
    apply h'.fenced hw f
    apply h.fenced _ f hf
    by_contra hw₂
    rw [h'.wrapped (by simpa using hw₂)] at hw
    cases hw
  nextFillId := UInt64.le_trans h.nextFillId h'.nextFillId
  counter := h.counter.trans h'.counter
  counterKept := h'.counterKept.trans h.counterKept

end Mono

namespace Kept

variable {S : Setting E} {t : ℕ} {X X' : Scope}

theorem refl (S : Setting E) (t : ℕ) (X : Scope) (s : DiskCache E) :
  s.Kept S t X s
  where
  mono := Mono.refl S s
  env := S.rely_refl t _
  metaLock := fun _ => Iff.rfl
  commitLock := fun _ h => h
  bumps := fun _ _ _ => rfl
  persistLock := fun h => ⟨h, rfl⟩
  files := fun _ _ _ => rfl
  slot := fun _ _ _ => ⟨rfl, rfl⟩
  fills := fun _ _ _ h _ => h
  unwritten := fun _ _ _ _ _ h => h

/-- What is kept remains owned. -/
theorem owns
    {s s' : DiskCache E} (h : s.Kept S t X s') {p : Path} (hp : s.Owns t p) :
  s'.Owns t p
  := by
  cases p with
  | body h' => apply (h.metaLock h').mpr hp
  | metaJson h' => apply (h.metaLock h').mpr hp
  | metaTmp h' n => apply (h.metaLock h').mpr hp
  | tmp t' n k => apply hp
  | poisoned h' => cases hp
  | fillIdCounter => apply (h.persistLock hp).1

theorem trans
    {s₁ s₂ s₃ : DiskCache E} (h : s₁.Kept S t X s₂) (h' : s₂.Kept S t X s₃) :
  s₁.Kept S t X s₃
  where
  mono := h.mono.trans h'.mono
  env := S.rely_trans h.env h'.env
  metaLock := fun l => (h'.metaLock l).trans (h.metaLock l)
  commitLock := fun e he => h'.commitLock e (h.commitLock e he)
  bumps := by
    intro e hX he
    rw [h'.bumps e hX (h.commitLock e he), h.bumps e hX he]
  persistLock := by
    intro hp
    obtain ⟨h₁, b₁⟩ := h.persistLock hp
    obtain ⟨h₂, b₂⟩ := h'.persistLock h₁
    use h₂
    rw [b₂, b₁]
  files := by
    intro p hX hp
    rw [h'.files p hX (h.owns hp), h.files p hX hp]
  slot := by
    intro l hY hl
    obtain ⟨s₁, p₁⟩ := h.slot l hY hl
    obtain ⟨s₂, p₂⟩ := h'.slot l hY ((h.metaLock l).mpr hl)
    constructor
    · rw [s₂, s₁]
    · rw [p₂, p₁]
  fills := fun f r hX hf hr => h'.fills f r hX (h.fills f r hX hf hr) hr
  unwritten := fun f r hX hf hr hw =>
    h'.unwritten f r hX (h.fills f r hX hf hr) hr (h.unwritten f r hX hf hr hw)

/-- Less is kept when more is excepted. -/
theorem weaken
    {s s' : DiskCache E} (h : s.Kept S t X s') (hp : ∀ p, X.names p → X'.names p)
    (hl : ∀ l, X.hashes l → X'.hashes l) (he : ∀ e, X.records e → X'.records e)
    (hf : ∀ f, X.fills f → X'.fills f) :
  s.Kept S t X' s'
  :=
  { h with
    bumps := fun e hX => h.bumps e (hX ∘ he e)
    files := fun p hX => h.files p (hX ∘ hp p)
    slot := fun l hX => h.slot l (hX ∘ hl l)
    fills := fun f r hX => h.fills f r (hX ∘ hf f)
    unwritten := fun f r hX => h.unwritten f r (hX ∘ hf f) }

end Kept

/-- A task may rely on a state that has not changed. -/
theorem Rely.refl (S : Setting E) (t : ℕ) (s : DiskCache E) :
  s.Kept S t Scope.none s
  := Kept.refl S t _ s

/-- The task `t` holds no metadata lock. -/
def Idle (s : DiskCache E) (t : ℕ) : Prop := ∀ h, s.metaLocks h ≠ some t

/-! ### The discipline -/

/-- What the tasks that run over the cache owe each other. A restart of the process is
the one change that need not keep what only grows. -/
def discipline (S : Setting E) (Restart : DiskCache E → DiskCache E → Prop) :
    Discipline (DiskCache E) where
  Inv := Inv S
  Rely := Rely S
  Change := fun s s' => (s.Mono S s' ∧ S.emits s s') ∨ Restart s s'
  Idle := fun t s => s.Idle t ∧ S.idle t s.env
  rely_refl := Rely.refl S
  rely_trans := Kept.trans
  rely_idle := fun hR hi =>
    ⟨fun h ht => hi.1 h ((hR.metaLock h).mp ht), S.rely_idle hR.env hi.2⟩

end DiskCache

end TinyS3Proxy
