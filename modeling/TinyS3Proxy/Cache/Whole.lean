import TinyS3Proxy.Cache.Fence

/-!
# Whole entries

The body and the metadata of an entry are always of one fill: on disk, at every moment and
so after every crash, and in the entries that probes return. Probes never remove a file of
a fill.

These results are about runs in which no file-system call fails other than by not finding
a file.
-/

namespace TinyS3Proxy

open Coop Coop.Discipline

namespace DiskCache

variable {P : Pool (DiskCache (List Event))} {s s' : DiskCache (List Event)}

/-- Publishing is consistent across crashes: at every moment of a run, if an entry has both
a body and metadata that can be parsed, then they were written by one fill. -/
theorem body_of_info
    {h : String} {i j g : ℕ} {m : CacheMeta} (hr : Run P) (hf : P.st.faulted = false)
    (hi : P.st.files (.body h) = some i) (hj : P.st.files (.metaJson h) = some j)
    (hp : (P.st.data j).parse = some (g, m)) :
  ∃ b, P.st.data i = .body g b
  := by
  obtain ⟨hI, -⟩ := hr.trace
  have hd : P.st.data j = .json g m := by
    cases hd : P.st.data j with
    | body | counter | raw =>
        rw [hd] at hp
        cases hp
    | json g' m' =>
        rw [hd] at hp
        obtain ⟨rfl, rfl⟩ : g' = g ∧ m' = m := by simpa [File.parse] using hp
        rfl
  obtain ⟨f, b, r, hdi, -⟩ := hI.body_at hi
  obtain rfl := hI.view_paired hf h i j f b g m hi hj hdi hd
  exact ⟨b, hdi⟩

/-- A fill is published, and then looked up. -/
def foundSchedule : List (Pool.Cmd (DiskCache (List Event))) :=
  .spawn (filler sampleKey [1] (some sampleMeta)) ::
    (runs 0 27 ++ .spawn (caller (.lookup sampleKey)) :: runs 1 5)

theorem allowed_foundSchedule :
  ∀ c ∈ foundSchedule, c.Allowed callers
  := by
  simp only [foundSchedule, List.forall_mem_cons, List.forall_mem_append]
  exact ⟨allowed_filler _ _ _, allowed_runs _ _, allowed_caller trivial, allowed_runs _ _⟩

/-- The entry of the sample key has a body and metadata written by the fill `0`. -/
def publishedFirst (s : DiskCache (List Event)) : Bool :=
  !s.faulted && s.files (.body "hash") = some 0 && s.files (.metaJson "hash") = some 2 &&
    (s.data 2).parse.map (fun x => x.1) = some 0

theorem body_of_info_first :
  ∃ (P : Pool (DiskCache (List Event))) (b : List UInt8), Run P ∧ P.st.data 0 = .body 0 b
  := by
  obtain ⟨P, hr, hp⟩ := exists_run (p := publishedFirst) allowed_foundSchedule (by decide +kernel)
  simp only [publishedFirst, Bool.and_eq_true, Bool.not_eq_true', decide_eq_true_eq,
    Option.map_eq_some_iff] at hp
  obtain ⟨⟨⟨hf, hi⟩, hj⟩, ⟨g, m⟩, hp, rfl⟩ := hp
  obtain ⟨b, hb⟩ := body_of_info hr hf hi hj hp
  exact ⟨P, b, hr, hb⟩

/-! ### What lasts across restarts -/

/-- What is kept even when the process is restarted. -/
structure Lasts (s s' : DiskCache (List Event)) : Prop where
  ino : s.nextIno ≤ s'.nextIno
  data : ∀ i, i < s.nextIno → s'.data i = s.data i
  fills : ∀ f r n, s.fills f = some r → r.fillId = some n →
    ∃ r', s'.fills f = some r' ∧ r'.key = r.key ∧ r'.fillId = some n
  faulted : s.faulted = true → s'.faulted = true
  undropped : s.dropped = false → s'.dropped = false

theorem Lasts.trans
    {s₁ s₂ s₃ : DiskCache (List Event)} (h : Lasts s₁ s₂) (h' : Lasts s₂ s₃) :
  Lasts s₁ s₃
  where
  ino := h.ino.trans h'.ino
  data := by
    intro i hi
    rw [h'.data i (hi.trans_le h.ino), h.data i hi]
  fills := by
    intro f r n hf hn
    obtain ⟨r₂, hf₂, hk₂, hn₂⟩ := h.fills f r n hf hn
    obtain ⟨r₃, hf₃, hk₃, hn₃⟩ := h'.fills f r₂ n hf₂ hn₂
    exact ⟨r₃, hf₃, hk₃.trans hk₂, hn₃⟩
  faulted := h'.faulted ∘ h.faulted
  undropped := h'.undropped ∘ h.undropped

theorem Mono.lasts
    (h : s.Mono calling s') :
  Lasts s s'
  where
  ino := h.ino
  data := h.data
  fills := by
    intro f r n hf hn
    obtain ⟨r', hf', hg⟩ := h.fills f r hf
    exact ⟨r', hf', hg.key, (hg.fillId n hn).1⟩
  faulted := h.faulted
  undropped := h.undropped rfl

theorem reset_lasts
    (h : callers.reset s s') :
  Lasts s s'
  := by
  obtain ⟨u, s₁, -, hr, rfl⟩ := h
  obtain ⟨n, -, rfl⟩ := restart_eq hr
  refine ⟨le_refl s.nextIno, fun _ _ => rfl, ?_, id, id⟩
  intro f r n hf hn
  exact ⟨_, Option.map_eq_some_iff.mpr ⟨r, hf, rfl⟩, rfl, hn⟩

theorem Trace.lasts
    (h : disciplined.Trace s s') :
  Lasts s s'
  := by
  induction h with
  | refl => exact (Mono.refl calling s).lasts
  | tail _ h₁₂ ih =>
      obtain ⟨-, ⟨hm, -⟩ | hr⟩ := h₁₂
      · exact ih.trans hm.lasts
      · exact ih.trans (reset_lasts hr)

/-! ### Probes -/

/-- The call probes the key and pins the body, and the result is the given entry. -/
def Pins (key : CacheKey) (entry : CacheEntry) : (c : Call) → c.Result → Prop
  | .lookup k, .ok (some x) => k = key ∧ x = entry
  | .peekBody k, .ok (some x) => k = key ∧ x = entry
  | _, _ => False

/-- The handle and the metadata of the entry are those of the fill `f`: the handle reads the
bytes that the fill has written, and the fill id is that of the fill. -/
def WholeOf (s : DiskCache (List Event)) (key : CacheKey) (f : ℕ) (entry : CacheEntry) : Prop :=
  (∃ i b, entry.bodyFile = some i ∧ s.data i = .body f b) ∧
    (∃ j, s.data j = .json f entry.info) ∧
    ∃ r, s.fills f = some r ∧ r.key.hash = key.hash ∧ r.fillId = some entry.info.fillId

theorem Pins.hit
    {key : CacheKey} {entry : CacheEntry} {i t : ℕ} {c : Call} {r : c.Result}
    (hf : Pins key entry c r) (hT : s.Told i t c r) :
  s.Hit key true (s.slot key.hash) entry
  := by
  cases c with
  | lookup k | peekBody k =>
      cases r with
      | error e => exact hf.elim
      | ok o =>
          cases o with
          | none => exact hf.elim
          | some x =>
              obtain ⟨rfl, rfl⟩ : k = key ∧ x = entry := hf
              exact hT
  | beginFill | commitFill | abortFill | peek | purge | poison | purgeIfUnchanged
  | poisonIfUnchanged | updateMetadataIfUnchanged | rewriteLastAccessed | runEvictionPass =>
      exact hf.elim

theorem Hit.wholeOf
    {key : CacheKey} {entry : CacheEntry} (hI : s.Inv calling) (hf : s.faulted = false)
    (hh : s.Hit key true (s.slot key.hash) entry) (hl : Lasts s s') :
  ∃ f, s'.WholeOf key f entry
  := by
  obtain ⟨g, j, hj, hlt, hd⟩ := hh.info
  obtain ⟨i, hi, hfile⟩ := hh.body
  obtain ⟨f, b, r, hdi, -⟩ := hI.bodies key.hash i hi
  obtain rfl := hI.slot_paired hf key.hash i j f b g entry.info hi hj hdi hd
  obtain ⟨r₁, hr₁, hh₁, hid, -⟩ := (hI.infos key.hash j f entry.info hj hd).fill
  obtain ⟨r₂, hr₂, hk₂, hid₂⟩ := hl.fills f r₁ _ hr₁ hid
  refine ⟨f, ⟨i, b, hfile, ?_⟩, ⟨j, ?_⟩, r₂, hr₂, ?_, hid₂⟩
  · rw [hl.data i (hI.slot_body_lt _ i hi), hdi]
  · rw [hl.data j hlt, hd]
  · rw [hk₂, hh₁]

/-- The file is the body or a metadata file of some fill. -/
def OfFill (s : DiskCache (List Event)) (i : ℕ) : Prop :=
  (∃ f b, s.data i = .body f b) ∨ ∃ f m, s.data i = .json f m

/-- Without a restart, all fills have been begun since the process was started. -/
theorem bootFill_eq_zero
    (h : disciplined.Trace (fresh []) s) (hno : .restarted ∉ s.env) :
  s.bootFill = 0
  := by
  refine (Trace.mono h ?_).bootFill
  intro n _ hn
  exact hno (List.mem_of_getElem? hn)

/-- Readers see whole entries: an entry that `lookup` or `peek_body` has returned has the
body and the metadata of one fill, whatever has happened to the files since, and, while the
process is not restarted, no file that a probe has cleaned up was the body or the metadata of
a fill. -/
theorem whole_entries
    (h : Run P) (hf : P.st.faulted = false) :
  (∀ (a i t : ℕ) (c : Call) (r : c.Result) (key : CacheKey) (entry : CacheEntry),
      P.st.env[a]? = some (.returned i t c r) → Pins key entry c r →
      ∃ f, P.st.WholeOf key f entry) ∧
    (.restarted ∉ P.st.env → ∀ i ∈ P.st.cleaned, ¬ P.st.OfFill i)
  := by
  obtain ⟨hI, hT⟩ := h.trace
  constructor
  · intro a i t c r key entry ha hp
    obtain ⟨s₁, hT₁, -, ⟨-, -, htold⟩, hrest⟩ := Trace.exists_noted hT ha (by simp)
    have hl : Lasts s₁ P.st :=
      (mono_setEnv (S := calling) (List.prefix_append s₁.env _)).lasts.trans (Trace.lasts hrest)
    have hf₁ : s₁.faulted = false := by
      by_contra hf₁
      rw [hl.faulted (by simpa using hf₁)] at hf
      cases hf
    exact (hp.hit htold).wholeOf (hT₁.inv (fresh_inv trivial)) hf₁ hl
  · intro hno i hi
    have hd : P.st.dropped = false := (Trace.lasts hT).undropped rfl
    obtain ⟨-, hb, hm⟩ := hI.cleaned hf hd i hi
    rw [bootFill_eq_zero hT hno] at hb hm
    rintro (⟨f, b, hfb⟩ | ⟨f, m, hfm⟩)
    · exact Nat.not_lt_zero f (hb f b hfb)
    · exact Nat.not_lt_zero f (hm f m hfm)

/-- A lookup has found an entry of the sample key. -/
def foundFirst (s : DiskCache (List Event)) : Bool :=
  !s.faulted && match s.env[5]? with
  | some (Event.returned _ _ (.lookup k) (.ok (some _))) => k = sampleKey
  | _ => false

theorem whole_entries_first :
  ∃ (P : Pool (DiskCache (List Event))) (entry : CacheEntry) (f : ℕ), Run P ∧
    P.st.WholeOf sampleKey f entry
  := by
  obtain ⟨P, hr, hp⟩ := exists_run (p := foundFirst) allowed_foundSchedule (by decide +kernel)
  rw [foundFirst, Bool.and_eq_true, Bool.not_eq_true'] at hp
  obtain ⟨hf, hp⟩ := hp
  split at hp
  next i t k entry he =>
    obtain rfl : k = sampleKey := by simpa using hp
    obtain ⟨f, hw⟩ := (whole_entries hr hf).1 _ _ _ _ _ sampleKey entry he ⟨rfl, rfl⟩
    exact ⟨P, entry, f, hr, hw⟩
  next => cases hp

end DiskCache

end TinyS3Proxy
