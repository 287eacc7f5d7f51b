import TinyS3Proxy.Text.Fields
import TinyS3Proxy.Text.Percent

/-!
# Targets of URLs

The target of a URL is its path and its query. A parser of URLs that follows the standard for them
rewrites the target: it resolves the segments of the path that consist of dots, takes a backslash
for a slash, and writes some bytes as escapes. A target with nothing to rewrite stays as it is, and
any other one is changed.
-/

namespace Text

/-- The path and the query of a URL. -/
structure Target where
  path : Bytes
  query : Option Bytes
deriving DecidableEq

/-- The slash between the segments of a path. -/
def pathSlash : UInt8 := 47

/-- The backslash, which stands for a slash. -/
def backslash : UInt8 := 92

/-- The schemes for HTTP. -/
def httpSchemes : List Bytes := [ascii "http", ascii "https"]

/-- The byte ends the authority of a URL. -/
def endsAuthority (b : UInt8) : Bool := b = pathSlash || b = 63 || b = 35 || b = backslash

/-- What follows the authority of a URL for HTTP, without the fragment. -/
def afterAuthority (url : Bytes) : Option Bytes :=
  (splitOnce 58 url).bind fun (scheme, rest) =>
    if lower scheme ∈ httpSchemes then
      (strip (ascii "//") rest).map fun rest =>
        (rest.dropWhile fun b => !endsAuthority b).takeWhile (· ≠ 35)
    else none

/-- The target that is written in a URL for HTTP. -/
def writtenTarget (url : Bytes) : Option Target :=
  (afterAuthority url).map fun target =>
    match splitOnce 63 target with
    | some (path, query) => { path, query := some query }
    | none => { path := target, query := none }

/-- The target with the root for a path that is empty. -/
def Target.rooted (t : Target) : Target := if t.path = [] then { t with path := [pathSlash] } else t

/-! ### The standard -/

/-- The bytes that are written as escapes. A slash in a path is not. -/
structure EscapeRules where
  escapesInPath : UInt8 → Bool
  escapesInQuery : UInt8 → Bool
  escapesInPath_slash : escapesInPath pathSlash = false

/-- The segment stands for the path that it is in. -/
def isSingleDot (segment : Bytes) : Bool :=
  [ascii ".", ascii "%2e"].contains (lower segment)

/-- The segment stands for the path above the one that it is in. -/
def isDoubleDot (segment : Bytes) : Bool :=
  [ascii "..", ascii ".%2e", ascii "%2e.", ascii "%2e%2e"].contains (lower segment)

/-- The segment consists of dots. -/
def isDots (segment : Bytes) : Bool := isDoubleDot segment || isSingleDot segment

/-- The segments after those that are kept, which are listed backwards, with dots resolved. Dots at
the end leave an empty segment. -/
def resolveDots : List Bytes → List Bytes → List Bytes
  | kept, [] => kept.reverse
  | kept, [segment] =>
      if isDoubleDot segment then ([] :: kept.tail).reverse
      else if isSingleDot segment then ([] :: kept).reverse
      else (segment :: kept).reverse
  | kept, segment :: next :: segments =>
      if isDoubleDot segment then resolveDots kept.tail (next :: segments)
      else if isSingleDot segment then resolveDots kept (next :: segments)
      else resolveDots (segment :: kept) (next :: segments)

/-- A slash for a backslash. -/
def slashOf (b : UInt8) : UInt8 := if b = backslash then pathSlash else b

/-- The path without the slash, or the backslash, that it starts with. -/
def belowRoot : Bytes → Bytes
  | [] => []
  | b :: bs => if slashOf b = pathSlash then bs else b :: bs

/-- The segments of a path. -/
def pathSegments (path : Bytes) : List Bytes := ((belowRoot path).map slashOf).splitOn pathSlash

/-- The path that consists of segments. -/
def joinSegments (segments : List Bytes) : Bytes := segments.flatMap fun s => pathSlash :: s

namespace EscapeRules

/-- The segments of a path with escapes. -/
def encodedSegments (rules : EscapeRules) (path : Bytes) : List Bytes :=
  (pathSegments path).map (percentEncode fun b => !rules.escapesInPath b)

/-- A path as it is parsed. -/
def rewritePath (rules : EscapeRules) (path : Bytes) : Bytes :=
  joinSegments (resolveDots [] (rules.encodedSegments path))

/-- A target as it is parsed. -/
def rewrite (rules : EscapeRules) (t : Target) : Target :=
  { path := rules.rewritePath t.path
    query := t.query.map (percentEncode fun b => !rules.escapesInQuery b) }

/-- A target in which there is nothing to rewrite. -/
structure Plain (rules : EscapeRules) (t : Target) : Prop where
  path : ∀ b ∈ t.path, rules.escapesInPath b = false ∧ b ≠ backslash
  dots : ∀ segment ∈ t.path.splitOn pathSlash, isDots segment = false
  query : ∀ q, t.query = some q → ∀ b ∈ q, rules.escapesInQuery b = false

end EscapeRules

/-- The escapes of the standard. -/
def standardEscapes : EscapeRules where
  escapesInPath b := b ≤ 32 || 126 < b || (ascii "\"#<>?^\x60\x7b\x7d").contains b
  escapesInQuery b := b ≤ 32 || 126 < b || (ascii "\"#<>'").contains b
  escapesInPath_slash := by decide

/-! ### Escapes -/

theorem percentEncode_cons
    (keep : UInt8 → Bool) (b : UInt8) (bs : Bytes) :
  percentEncode keep (b :: bs) = percentEncodeByte keep b ++ percentEncode keep bs
  := List.flatMap_cons

theorem length_le_percentEncode
    (keep : UInt8 → Bool) (bs : Bytes) :
  bs.length ≤ (percentEncode keep bs).length
  := by
  induction bs with
  | nil => exact le_refl 0
  | cons b bs ih =>
      rw [percentEncode_cons, List.length_append, List.length_cons, percentEncodeByte]
      split
      next => rw [List.length_singleton]; omega
      next => simp only [List.length_cons, List.length_nil]; omega

/-- A string stays as it is if all of its bytes are kept, and is changed otherwise. -/
theorem percentEncode_eq_self_iff
    {keep : UInt8 → Bool} {bs : Bytes} :
  percentEncode keep bs = bs ↔ ∀ b ∈ bs, keep b = true
  := by
  induction bs with
  | nil => simp [percentEncode]
  | cons b bs ih =>
      rw [percentEncode_cons, percentEncodeByte, List.forall_mem_cons]
      split
      next hkeep => simp [hkeep, ih]
      next hkeep =>
        constructor
        · intro h
          have hlength := congrArg List.length h
          have hle := length_le_percentEncode keep bs
          simp only [List.length_append, List.length_cons, List.length_nil] at hlength
          omega
        · rintro ⟨h, -⟩
          exact (hkeep h).elim

/-- A byte that is in no escape appears only if it was there. -/
theorem notMem_percentEncode_of_notMem
    {keep : UInt8 → Bool} {a : UInt8} (hescape : a ≠ 37 ∧ ∀ n < 16, a ≠ upperDigit n) {bs : Bytes}
    (h : a ∉ bs) :
  a ∉ percentEncode keep bs
  := by
  intro hmem
  obtain ⟨b, hb, hab⟩ := List.mem_flatMap.mp hmem
  rw [percentEncodeByte] at hab
  split at hab
  next =>
    obtain rfl := List.mem_singleton.mp hab
    exact h hb
  next =>
    have hlt := b.toNat_lt
    simp only [List.mem_cons, List.not_mem_nil, or_false] at hab
    rcases hab with hab | hab | hab
    · exact hescape.1 hab
    · exact hescape.2 _ (by omega) hab
    · exact hescape.2 _ (by omega) hab

/-! ### Segments -/

theorem slashOf_ne_backslash
    (b : UInt8) :
  slashOf b ≠ backslash
  := by
  rw [slashOf]
  split
  next => decide
  next h => exact h

theorem map_slashOf_of_notMem
    {bs : Bytes} (h : backslash ∉ bs) :
  bs.map slashOf = bs
  := by
  induction bs with
  | nil => rfl
  | cons b bs ih =>
      rw [List.mem_cons, not_or] at h
      rw [List.map_cons, ih h.2, slashOf, if_neg (Ne.symm h.1)]

theorem notMem_map_slashOf
    (bs : Bytes) :
  backslash ∉ bs.map slashOf
  := by
  intro h
  obtain ⟨b, -, hb⟩ := List.mem_map.mp h
  exact slashOf_ne_backslash b hb

theorem joinSegments_eq
    {segments : List Bytes} (hne : segments ≠ []) :
  joinSegments segments = pathSlash :: joinFields pathSlash segments
  := by
  induction segments with
  | nil => exact (hne rfl).elim
  | cons s segments ih =>
      rw [joinSegments, List.flatMap_cons, List.cons_append]
      cases segments with
      | nil => rw [List.flatMap_nil, List.append_nil, joinFields]
      | cons t segments =>
          have ih := ih (by simp)
          rw [joinSegments] at ih
          rw [ih, joinFields]

theorem splitOn_slash_cons
    (bs : Bytes) :
  (pathSlash :: bs).splitOn pathSlash = [] :: bs.splitOn pathSlash
  := by
  rw [List.splitOn_cons_eq_if_modifyHead, if_pos (BEq.refl pathSlash)]

/-- A path that is read back is the list of its segments. -/
theorem splitOn_joinSegments
    {segments : List Bytes} (h : ∀ s ∈ segments, pathSlash ∉ s) (hne : segments ≠ []) :
  (joinSegments segments).splitOn pathSlash = [] :: segments
  := by
  rw [joinSegments_eq hne, splitOn_slash_cons, splitOn_joinFields h hne]

theorem joinSegments_splitOn
    (bs : Bytes) :
  joinSegments (bs.splitOn pathSlash) = pathSlash :: bs
  := by
  rw [joinSegments_eq (List.splitOn_ne_nil pathSlash bs), joinFields_eq_intercalate,
    List.intercalate_splitOn]

/-! ### Dots -/

/-- What is left when dots are resolved is empty, or was kept before, or is no segment of dots. -/
theorem mem_resolveDots
    {kept segments : List Bytes} {s : Bytes} (h : s ∈ resolveDots kept segments) :
  s = [] ∨ s ∈ kept ∨ s ∈ segments ∧ isDots s = false
  := by
  induction kept, segments using resolveDots.induct with
  | case1 kept => exact .inr (.inl (List.mem_reverse.mp h))
  | case2 kept segment hdots =>
      rw [resolveDots, if_pos hdots, List.mem_reverse, List.mem_cons] at h
      exact h.imp id fun h => .inl (List.mem_of_mem_tail h)
  | case3 kept segment hdouble hdot =>
      rw [resolveDots, if_neg hdouble, if_pos hdot, List.mem_reverse, List.mem_cons] at h
      exact h.imp id .inl
  | case4 kept segment hdouble hdot =>
      rw [resolveDots, if_neg hdouble, if_neg hdot, List.mem_reverse, List.mem_cons] at h
      rcases h with rfl | h
      · exact .inr (.inr ⟨List.mem_singleton_self s, by simp [isDots, hdouble, hdot]⟩)
      · exact .inr (.inl h)
  | case5 kept segment next segments hdots ih =>
      rw [resolveDots, if_pos hdots] at h
      rcases ih h with h | h | ⟨h, hs⟩
      · exact .inl h
      · exact .inr (.inl (List.mem_of_mem_tail h))
      · exact .inr (.inr ⟨List.mem_cons_of_mem _ h, hs⟩)
  | case6 kept segment next segments hdouble hdot ih =>
      rw [resolveDots, if_neg hdouble, if_pos hdot] at h
      rcases ih h with h | h | ⟨h, hs⟩
      · exact .inl h
      · exact .inr (.inl h)
      · exact .inr (.inr ⟨List.mem_cons_of_mem _ h, hs⟩)
  | case7 kept segment next segments hdouble hdot ih =>
      rw [resolveDots, if_neg hdouble, if_neg hdot] at h
      rcases ih h with h | h | ⟨h, hs⟩
      · exact .inl h
      · rcases List.mem_cons.mp h with rfl | h
        · exact .inr (.inr ⟨List.mem_cons_self, by simp [isDots, hdouble, hdot]⟩)
        · exact .inr (.inl h)
      · exact .inr (.inr ⟨List.mem_cons_of_mem _ h, hs⟩)

theorem resolveDots_ne_nil
    {kept segments : List Bytes} (hne : segments ≠ []) :
  resolveDots kept segments ≠ []
  := by
  induction kept, segments using resolveDots.induct with
  | case1 kept => exact (hne rfl).elim
  | case2 kept segment hdots => simp [resolveDots, hdots]
  | case3 kept segment hdouble hdot => simp [resolveDots, hdouble, hdot]
  | case4 kept segment hdouble hdot => simp [resolveDots, hdouble, hdot]
  | case5 kept segment next segments hdots ih =>
      rw [resolveDots, if_pos hdots]
      exact ih (by simp)
  | case6 kept segment next segments hdouble hdot ih =>
      rw [resolveDots, if_neg hdouble, if_pos hdot]
      exact ih (by simp)
  | case7 kept segment next segments hdouble hdot ih =>
      rw [resolveDots, if_neg hdouble, if_neg hdot]
      exact ih (by simp)

/-- Without dots, all segments are left. -/
theorem resolveDots_of_notDots
    {kept segments : List Bytes} (h : ∀ s ∈ segments, isDots s = false) :
  resolveDots kept segments = kept.reverse ++ segments
  := by
  have hsplit : ∀ {s}, isDots s = false → ¬isDoubleDot s = true ∧ ¬isSingleDot s = true := by
    intro s hs
    obtain ⟨hdouble, hsingle⟩ := Bool.or_eq_false_iff.mp hs
    exact ⟨Bool.eq_false_iff.mp hdouble, Bool.eq_false_iff.mp hsingle⟩
  induction segments generalizing kept with
  | nil => rw [resolveDots, List.append_nil]
  | cons s segments ih =>
      obtain ⟨hdouble, hsingle⟩ := hsplit (h s List.mem_cons_self)
      cases segments with
      | nil => rw [resolveDots, if_neg hdouble, if_neg hsingle, List.reverse_cons]
      | cons t segments =>
          rw [resolveDots, if_neg hdouble, if_neg hsingle,
            ih fun t ht => h t (List.mem_cons_of_mem _ ht), List.reverse_cons, List.append_assoc]
          rfl

theorem length_resolveDots_le
    (kept segments : List Bytes) (hne : segments ≠ []) :
  (resolveDots kept segments).length ≤ kept.length + segments.length
  := by
  induction kept, segments using resolveDots.induct with
  | case1 kept => exact (hne rfl).elim
  | case2 kept segment hdots => simp [resolveDots, hdots]
  | case3 kept segment hdouble hdot => simp [resolveDots, hdouble, hdot]
  | case4 kept segment hdouble hdot => simp [resolveDots, hdouble, hdot]
  | case5 kept segment next segments hdots ih =>
      have ih := ih (by simp)
      rw [resolveDots, if_pos hdots]
      rw [List.length_tail] at ih
      simp only [List.length_cons] at ih ⊢
      omega
  | case6 kept segment next segments hdouble hdot ih =>
      have ih := ih (by simp)
      rw [resolveDots, if_neg hdouble, if_pos hdot]
      simp only [List.length_cons] at ih ⊢
      omega
  | case7 kept segment next segments hdouble hdot ih =>
      have ih := ih (by simp)
      rw [resolveDots, if_neg hdouble, if_neg hdot]
      simp only [List.length_cons] at ih ⊢
      omega

/-- As many segments are left only if none, or the last one, consists of dots. -/
theorem resolveDots_of_length
    {kept segments : List Bytes}
    (h : kept.length + segments.length ≤ (resolveDots kept segments).length) :
  resolveDots kept segments = kept.reverse ++ segments ∨
    ∃ front last, segments = front ++ [last] ∧ isDots last = true ∧
      resolveDots kept segments = kept.reverse ++ front ++ [[]]
  := by
  induction kept, segments using resolveDots.induct with
  | case1 kept => exact .inl (by rw [resolveDots, List.append_nil])
  | case2 kept segment hdots =>
      rw [resolveDots, if_pos hdots] at h ⊢
      right
      use [], segment, rfl, by rw [isDots, hdots, Bool.true_or]
      cases kept with
      | nil => rfl
      | cons k kept => simp at h
  | case3 kept segment hdouble hdot =>
      right
      use [], segment, rfl, by rw [isDots, hdot, Bool.or_true]
      rw [resolveDots, if_neg hdouble, if_pos hdot, List.reverse_cons, List.append_nil]
  | case4 kept segment hdouble hdot =>
      left
      rw [resolveDots, if_neg hdouble, if_neg hdot, List.reverse_cons]
  | case5 kept segment next segments hdots ih =>
      have hle := length_resolveDots_le kept.tail (next :: segments) (by simp)
      rw [resolveDots, if_pos hdots] at h
      rw [List.length_tail] at hle
      simp only [List.length_cons] at h hle
      omega
  | case6 kept segment next segments hdouble hdot ih =>
      have hle := length_resolveDots_le kept (next :: segments) (by simp)
      rw [resolveDots, if_neg hdouble, if_pos hdot] at h
      simp only [List.length_cons] at h hle
      omega
  | case7 kept segment next segments hdouble hdot ih =>
      rw [resolveDots, if_neg hdouble, if_neg hdot] at h ⊢
      have hlength : (segment :: kept).length + (next :: segments).length
          ≤ (resolveDots (segment :: kept) (next :: segments)).length := by
        simp only [List.length_cons] at h ⊢
        omega
      rcases ih hlength with heq | ⟨front, last, hsegments, hlast, heq⟩
      · left
        rw [heq, List.reverse_cons, List.append_assoc]
        rfl
      · right
        use segment :: front, last, by rw [hsegments]; rfl, hlast
        rw [heq, List.reverse_cons]
        simp

/-! ### Rewriting -/

theorem mem_of_mem_splitOn
    {bs s : Bytes} {b : UInt8} (hs : s ∈ bs.splitOn pathSlash) (hb : b ∈ s) :
  b ∈ bs
  := by
  have hmem : b ∈ joinSegments (bs.splitOn pathSlash) :=
    List.mem_flatMap.mpr ⟨s, hs, List.mem_cons_of_mem _ hb⟩
  rw [joinSegments_splitOn, List.mem_cons] at hmem
  rcases hmem with rfl | hmem
  · exact (notMem_of_mem_splitOn hs hb).elim
  · exact hmem

theorem pathSegments_of_notMem
    {rest : Bytes} (h : backslash ∉ rest) :
  pathSegments (pathSlash :: rest) = rest.splitOn pathSlash
  := by
  have hbelow : belowRoot (pathSlash :: rest) = rest := rfl
  rw [pathSegments, hbelow, map_slashOf_of_notMem h]

namespace EscapeRules

variable {rules : EscapeRules} {rest : Bytes}

theorem encodedSegments_ne_nil
    (rules : EscapeRules) (path : Bytes) :
  rules.encodedSegments path ≠ []
  := by
  rw [encodedSegments, ne_eq, List.map_eq_nil_iff]
  exact List.splitOn_ne_nil pathSlash _

/-- What is left of the segments of a path contains neither a slash nor a backslash, and does not
consist of dots. -/
theorem of_mem_resolved
    {path s : Bytes} (h : s ∈ resolveDots [] (rules.encodedSegments path)) :
  pathSlash ∉ s ∧ backslash ∉ s ∧ isDots s = false
  := by
  rcases mem_resolveDots h with rfl | h | ⟨h, hdots⟩
  · exact ⟨List.not_mem_nil, List.not_mem_nil, rfl⟩
  · exact (List.not_mem_nil h).elim
  · obtain ⟨segment, hsegment, rfl⟩ := List.mem_map.mp h
    have hslash : pathSlash ∉ segment := notMem_of_mem_splitOn hsegment
    have hback : backslash ∉ segment := fun hmem =>
      notMem_map_slashOf (belowRoot path) (mem_of_mem_splitOn hsegment hmem)
    exact ⟨notMem_percentEncode_of_notMem (by decide) hslash,
      notMem_percentEncode_of_notMem (by decide) hback, hdots⟩

/-- The segments of a path that stays as it is are those that are left. -/
theorem splitOn_of_rewritePath
    (h : rules.rewritePath (pathSlash :: rest) = pathSlash :: rest) :
  rest.splitOn pathSlash = resolveDots [] (rules.encodedSegments (pathSlash :: rest))
  := by
  have hsplit := splitOn_joinSegments
    (fun s hs => (@of_mem_resolved rules (pathSlash :: rest) s hs).1)
    (resolveDots_ne_nil (rules.encodedSegments_ne_nil (pathSlash :: rest)))
  rw [rewritePath] at h
  rw [h, splitOn_slash_cons] at hsplit
  exact (List.cons.inj hsplit).2

/-- If the segments are left, none of them is changed by the escapes. -/
theorem map_encode_of_resolved
    {segments : List Bytes} {encode : Bytes → Bytes} (hnil : encode [] = [])
    (h : segments = resolveDots [] (segments.map encode)) :
  segments.map encode = segments
  := by
  have hlength : ([] : List Bytes).length + (segments.map encode).length
      ≤ (resolveDots [] (segments.map encode)).length := by
    rw [← h, List.length_map, List.length_nil, Nat.zero_add]
  rcases resolveDots_of_length hlength with heq | ⟨front, last, hmap, hlast, heq⟩
  · rw [← h] at heq
    exact heq.symm
  · have hsegments : segments = front ++ [[]] := h.trans heq
    rw [hsegments, List.map_append, List.map_singleton, hnil] at hmap
    obtain ⟨-, hnil'⟩ := List.append_inj' hmap rfl
    obtain rfl := (List.cons.inj hnil').1
    cases hlast

/-- A path stays as it is if it has no dots to resolve, no backslash, and no byte to be escaped, and
is changed otherwise. -/
theorem rewritePath_eq_iff :
  rules.rewritePath (pathSlash :: rest) = pathSlash :: rest ↔
    (∀ b ∈ rest, rules.escapesInPath b = false ∧ b ≠ backslash) ∧
      ∀ s ∈ rest.splitOn pathSlash, isDots s = false
  := by
  constructor
  · intro h
    have hsplit := splitOn_of_rewritePath h
    have hresolved : ∀ s ∈ rest.splitOn pathSlash, backslash ∉ s ∧ isDots s = false := by
      rw [hsplit]
      exact fun s hs => (of_mem_resolved hs).2
    have hmem : ∀ b ∈ rest, b = pathSlash ∨ ∃ s ∈ rest.splitOn pathSlash, b ∈ s := by
      intro b hb
      have hb' := List.mem_cons_of_mem pathSlash hb
      rw [← joinSegments_splitOn] at hb'
      obtain ⟨s, hs, hb'⟩ := List.mem_flatMap.mp hb'
      exact (List.mem_cons.mp hb').imp id fun hb' => ⟨s, hs, hb'⟩
    have hback : backslash ∉ rest := by
      intro hb
      rcases hmem _ hb with heq | ⟨s, hs, hb⟩
      · exact absurd heq (by decide)
      · exact (hresolved s hs).1 hb
    rw [encodedSegments, pathSegments_of_notMem hback] at hsplit
    have hencoded := map_encode_of_resolved (by rfl) hsplit
    use ?_, fun s hs => (hresolved s hs).2
    intro b hb
    use ?_, fun heq => hback (heq ▸ hb)
    rcases hmem b hb with rfl | ⟨s, hs, hb⟩
    · exact rules.escapesInPath_slash
    · have hself := List.map_inj_left.mp (hencoded.trans (List.map_id _).symm) s hs
      have hkeep := percentEncode_eq_self_iff.mp hself b hb
      rwa [Bool.not_eq_true'] at hkeep
  · rintro ⟨hbytes, hdots⟩
    have hback : backslash ∉ rest := fun hmem => (hbytes _ hmem).2 rfl
    have hencoded : rules.encodedSegments (pathSlash :: rest) = rest.splitOn pathSlash := by
      rw [encodedSegments, pathSegments_of_notMem hback]
      apply (List.map_congr_left _).trans (List.map_id _)
      intro s hs
      rw [id, percentEncode_eq_self_iff]
      intro b hb
      rw [(hbytes b (mem_of_mem_splitOn hs hb)).1]
      rfl
    rw [rewritePath, hencoded, resolveDots_of_notDots hdots, List.reverse_nil, List.nil_append,
      joinSegments_splitOn]

/-- A target stays as it is if there is nothing to rewrite in it, and is changed otherwise. -/
theorem rewrite_eq_rooted_iff
    {t : Target} (h : t.path = [] ∨ ∃ b rest, slashOf b = pathSlash ∧ t.path = b :: rest) :
  rules.rewrite t = t.rooted ↔ rules.Plain t
  := by
  obtain ⟨path, query⟩ := t
  have hquery : query.map (percentEncode fun b => !rules.escapesInQuery b) = query ↔
      ∀ q, query = some q → ∀ b ∈ q, rules.escapesInQuery b = false := by
    cases query with
    | none => simp
    | some q => simp [percentEncode_eq_self_iff]
  have hrewrite : ∀ path', rules.rewrite ⟨path, query⟩ = ⟨path', query⟩ ↔
      rules.rewritePath path = path' ∧
        query.map (percentEncode fun b => !rules.escapesInQuery b) = query := by
    intro path'
    rw [rewrite, Target.mk.injEq]
  rcases h with rfl | ⟨b, rest, hb, rfl⟩
  · rw [Target.rooted, if_pos rfl, hrewrite, hquery]
    constructor
    · rintro ⟨-, hq⟩
      exact {
        path := fun b hb => (List.not_mem_nil hb).elim
        dots := fun s hs => by
          obtain rfl : s = [] := List.mem_singleton.mp hs
          rfl
        query := hq }
    · exact fun h => ⟨rfl, h.query⟩
  · rw [Target.rooted, if_neg (by simp), hrewrite, hquery]
    constructor
    · rintro ⟨hpath, hq⟩
      have hhead : b = pathSlash := by
        have hjoin := joinSegments_eq
          (@resolveDots_ne_nil [] _ (rules.encodedSegments_ne_nil (b :: rest)))
        rw [rewritePath, hjoin] at hpath
        exact (List.cons.inj hpath).1.symm
      subst hhead
      obtain ⟨hbytes, hdots⟩ := rewritePath_eq_iff.mp hpath
      exact {
        path := by
          intro b hb
          rcases List.mem_cons.mp hb with rfl | hb
          · exact ⟨rules.escapesInPath_slash, by decide⟩
          · exact hbytes b hb
        dots := by
          intro s hs
          rw [splitOn_slash_cons, List.mem_cons] at hs
          rcases hs with rfl | hs
          · rfl
          · exact hdots s hs
        query := hq }
    · intro hplain
      have hhead : b = pathSlash := by
        rw [slashOf] at hb
        split at hb
        next hback => exact ((hplain.path b List.mem_cons_self).2 hback).elim
        next => exact hb
      subst hhead
      use ?_, hplain.query
      rw [rewritePath_eq_iff]
      use fun b hb => hplain.path b (List.mem_cons_of_mem _ hb)
      intro s hs
      apply hplain.dots
      rw [splitOn_slash_cons]
      exact List.mem_cons_of_mem _ hs

end EscapeRules

/-! ### The target of a URL -/

/-- What follows the authority is empty, or starts with a slash, a backslash or a question mark. -/
theorem afterAuthority_head
    {url target : Bytes} (h : afterAuthority url = some target) :
  target = [] ∨ ∃ b rest, target = b :: rest ∧ (slashOf b = pathSlash ∨ b = 63)
  := by
  obtain ⟨⟨scheme, rest⟩, -, h⟩ := Option.bind_eq_some_iff.mp h
  change (if lower scheme ∈ httpSchemes then _ else none) = some target at h
  split at h
  next =>
    obtain ⟨rest, -, rfl⟩ := Option.map_eq_some_iff.mp h
    rcases hdrop : rest.dropWhile fun b => !endsAuthority b with _ | ⟨b, bs⟩
    · exact .inl rfl
    · have hends : endsAuthority b = true := by
        have hhead := List.head?_dropWhile_not (fun b => !endsAuthority b) rest
        rw [hdrop] at hhead
        simpa using hhead
      rw [List.takeWhile_cons]
      split
      next hne =>
        right
        use b, bs.takeWhile (· ≠ 35), rfl
        simp only [endsAuthority, Bool.or_eq_true, decide_eq_true_eq] at hends
        rcases hends with ((rfl | rfl) | rfl) | rfl
        · exact .inl rfl
        · exact .inr rfl
        · exact absurd hne (by decide)
        · exact .inl rfl
      next => exact .inl rfl
  next => cases h

/-- The path of a URL is empty, or starts with a slash or a backslash. -/
theorem writtenTarget_path
    {url : Bytes} {t : Target} (h : writtenTarget url = some t) :
  t.path = [] ∨ ∃ b rest, slashOf b = pathSlash ∧ t.path = b :: rest
  := by
  obtain ⟨target, htarget, rfl⟩ := Option.map_eq_some_iff.mp h
  rcases afterAuthority_head htarget with rfl | ⟨b, rest, rfl, hb⟩
  · exact .inl rfl
  · rcases hb with hb | rfl
    · right
      have hne : ¬b = 63 := by
        rintro rfl
        exact absurd hb (by decide)
      rw [splitOnce, if_neg hne]
      rcases splitOnce 63 rest with _ | ⟨path, query⟩
      · exact ⟨b, rest, hb, rfl⟩
      · exact ⟨b, path, hb, rfl⟩
    · exact .inl rfl

end Text
