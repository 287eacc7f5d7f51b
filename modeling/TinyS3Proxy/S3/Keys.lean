import TinyS3Proxy.S3.Parse

/-!
# The keys of objects

The key of an object is what the rest of the path after the bucket is decoded to, first by undoing
its percent-encoding and then by making the result a string. Two requests for objects of a bucket
that stand for different bytes may thus be classified with the same key. For the bytes of one
request there are no others with the same key exactly if they are valid UTF-8 and the replacement
character does not occur in them.
-/

namespace TinyS3Proxy

open Text (Bytes ascii lf)

/-- The bytes that the rest of the path after the bucket stands for. -/
def keyBytes (path : Bytes) : Bytes := Text.percentDecode (splitPath path).2

/-- The same request for another path. -/
def Parts.withPath (parts : Parts) (path : Bytes) (h : lf ∉ path) : Parts :=
  { parts with path, lf_notMem_path := h }

/-! ### Paths -/

@[simp]
theorem trimmedPath_slash
    (path : Bytes) :
  trimmedPath (slash :: path) = path
  := rfl

/-- A path with a bucket and a key is split into these. -/
theorem splitPath_append
    {bucket : Bytes} (h : slash ∉ bucket) (rawKey : Bytes) :
  splitPath (slash :: (bucket ++ slash :: rawKey)) = (bucket, rawKey)
  := by
  have hne : bucket ++ slash :: rawKey ≠ [] := List.append_ne_nil_of_right_ne_nil _ (by simp)
  have htrimmed := trimmedPath_slash (bucket ++ slash :: rawKey)
  simp only [splitPath]
  rw [if_neg (htrimmed ▸ hne), htrimmed, Text.splitOnce_eq_some.mpr ⟨rfl, h⟩, Option.getD_some]

/-- What a path is split into: a bucket without a slash, and what follows it. -/
theorem trimmedPath_eq
    (path : Bytes) :
  slash ∉ (splitPath path).1 ∧
    (trimmedPath path = (splitPath path).1 ∧ (splitPath path).2 = [] ∨
      trimmedPath path = (splitPath path).1 ++ slash :: (splitPath path).2)
  := by
  simp only [splitPath]
  split
  next h => exact ⟨List.not_mem_nil, .inl ⟨h, rfl⟩⟩
  next =>
    rcases hsplit : Text.splitOnce slash (trimmedPath path) with _ | ⟨bucket, rawKey⟩
    · rw [Option.getD_none]
      exact ⟨Text.splitOnce_eq_none.mp hsplit, .inl ⟨rfl, rfl⟩⟩
    · rw [Option.getD_some]
      obtain ⟨heq, hmem⟩ := Text.splitOnce_eq_some.mp hsplit
      exact ⟨hmem, .inr heq⟩

theorem mem_of_mem_trimmedPath
    {path : Bytes} {b : UInt8} (h : b ∈ trimmedPath path) :
  b ∈ path
  := by
  rw [trimmedPath] at h
  rcases hstrip : Text.strip [slash] path with _ | rest
  · rw [hstrip] at h
    exact h
  · rw [hstrip, Option.getD_some] at h
    rw [Text.strip_eq_some.mp hstrip]
    exact List.mem_append_right _ h

/-- The bucket is a part of the path. -/
theorem mem_of_mem_bucket
    {path : Bytes} {b : UInt8} (h : b ∈ (splitPath path).1) :
  b ∈ path
  := by
  apply mem_of_mem_trimmedPath
  rcases (trimmedPath_eq path).2 with ⟨heq, -⟩ | heq
  · rw [heq]
    exact h
  · rw [heq]
    exact List.mem_append_left _ h

/-- The path of an object of a bucket, with every byte of its key escaped. -/
def objectPath (bucket key : Bytes) : Bytes :=
  slash :: (bucket ++ slash :: Text.percentEncode (fun _ => false) key)

theorem lf_notMem_objectPath
    {bucket : Bytes} (h : lf ∉ bucket) (key : Bytes) :
  lf ∉ objectPath bucket key
  := by
  have hkey : lf ∉ Text.percentEncode (fun _ => false) key :=
    Text.notMem_percentEncode rfl (by decide) key
  simp only [objectPath, List.mem_cons, List.mem_append, not_or]
  exact ⟨by decide, h, by decide, hkey⟩

/-! ### Operations on objects -/

/-- Whether a request is one for an object depends on its method, its query and its headers. -/
theorem objectOperation_or
    {parts parts' : Parts} (hmethod : parts'.method = parts.method)
    (hheaders : parts'.headers = parts.headers) (query : StringMap) {bucket key : Bytes}
    (h : (objectOperation parts query bucket key).key ≠ none) (bucket' key' : Bytes) :
  (objectOperation parts' query bucket' key').key = some key' ∧
    (objectOperation parts' query bucket' key').bucket = bucket'
  := by
  revert h
  simp only [objectOperation, multipartOperation, plainOperation, hmethod, hheaders]
  split_ifs
  all_goals
    intro h
    first
    | exact ⟨rfl, rfl⟩
    | exact absurd rfl h

/-- The operations on buckets have no key. -/
theorem bucketOperation_key
    (parts : Parts) (query : StringMap) (bucket : Bytes) :
  (bucketOperation parts query bucket).key = none
  := by
  simp only [bucketOperation]
  split_ifs
  all_goals
    rfl

/-- What the bucket and the key of a request for an object are. -/
theorem parseOperation_of_key
    {parts : Parts} {key : Bytes} (h : (parseOperation parts).key = some key) :
  (parseOperation parts).bucket = (splitPath parts.path).1 ∧ (splitPath parts.path).1 ≠ [] ∧
    key = Text.fromUtf8Lossy (keyBytes parts.path) ∧ key ≠ [] ∧
    (objectOperation parts (parseQuery (parts.query.getD [])) (splitPath parts.path).1 key).key
      ≠ none
  := by
  simp only [parseOperation] at h ⊢
  split at h
  next => cases h
  next hbucket =>
    rw [if_neg hbucket]
    split at h
    next hkey =>
      have hne := Option.ne_none_iff_exists'.mpr ⟨_, h⟩
      obtain ⟨hk, hb⟩ := objectOperation_or rfl rfl _ hne (splitPath parts.path).1
        (percentDecodeLossy (splitPath parts.path).2)
      rw [hk] at h
      obtain rfl := Option.some.inj h
      rw [if_pos hkey]
      exact ⟨hb, hbucket, rfl, hkey, hne⟩
    next =>
      rw [bucketOperation_key] at h
      cases h

/-- The request for another object of the same bucket. -/
theorem parseOperation_withPath
    {parts : Parts} {key : Bytes} (h : (parseOperation parts).key = some key) {other : Bytes}
    (hne : Text.fromUtf8Lossy other ≠ []) (hlf : lf ∉ objectPath (splitPath parts.path).1 other) :
  (parseOperation (parts.withPath _ hlf)).key = some (Text.fromUtf8Lossy other) ∧
    (parseOperation (parts.withPath _ hlf)).bucket = (parseOperation parts).bucket ∧
    keyBytes (parts.withPath _ hlf).path = other
  := by
  obtain ⟨hb, hbucket, -, -, hobject⟩ := parseOperation_of_key h
  have hsplit : splitPath (parts.withPath _ hlf).path
      = ((splitPath parts.path).1, Text.percentEncode (fun _ => false) other) :=
    splitPath_append (trimmedPath_eq parts.path).1 _
  have hdecode : Text.percentDecode (Text.percentEncode (fun _ => false) other) = other :=
    Text.percentDecode_encode rfl other
  rw [hb, keyBytes, hsplit, hdecode]
  simp only [parseOperation, hsplit, percentDecodeLossy, hdecode, if_neg hbucket, if_pos hne,
    and_true]
  exact @objectOperation_or parts (parts.withPath _ hlf) rfl rfl _ _ _ hobject _ _

/-! ### Keys -/

/-- All requests for objects of the same bucket with the same key stand for the same bytes exactly
if these are valid UTF-8 and the replacement character does not occur in them. -/
theorem keyBytes_unique_iff
    {parts : Parts} {key : Bytes} (h : (parseOperation parts).key = some key) :
  (∀ other : Parts, (parseOperation other).key = some key →
    (parseOperation other).bucket = (parseOperation parts).bucket →
    keyBytes other.path = keyBytes parts.path) ↔
  Text.validUtf8 (keyBytes parts.path) = true ∧ ¬ Text.replacement <:+: keyBytes parts.path
  := by
  obtain ⟨-, -, hkey, hne, -⟩ := parseOperation_of_key h
  rw [← Text.fromUtf8Lossy_inj_iff]
  constructor
  · intro hunique other heq
    have hlf : lf ∉ objectPath (splitPath parts.path).1 other :=
      lf_notMem_objectPath (fun hm => parts.lf_notMem_path (mem_of_mem_bucket hm)) other
    have heq' : Text.fromUtf8Lossy other = key := heq.trans hkey.symm
    obtain ⟨hk, hb, hbytes⟩ := parseOperation_withPath h (heq' ▸ hne) hlf
    rw [← hunique _ (hk.trans (congrArg some heq')) hb, hbytes]
  · intro hinj other hk _
    obtain ⟨-, -, hkey', -, -⟩ := parseOperation_of_key hk
    exact hinj _ (hkey'.symm.trans hkey)

/-- A request for an object of a bucket, without a query and without headers. -/
def readRequest (path : Bytes) (h : lf ∉ path) : Parts :=
  { method := ascii "GET", path, query := none, headers := [], lf_notMem_method := lf_notMem_get,
    lf_notMem_path := h }

/-- A request for an object whose key has a blank in it. -/
def blankRequest : Parts := readRequest (ascii "/bucket/a%20b") (by decide)

/-- No other bytes have a key that consists of ASCII characters. -/
theorem keyBytes_unique_blank :
  (parseOperation blankRequest).key = some (ascii "a b") ∧
    ∀ other : Parts, (parseOperation other).key = some (ascii "a b") →
      (parseOperation other).bucket = (parseOperation blankRequest).bucket →
      keyBytes other.path = keyBytes blankRequest.path
  := by
  have hkey : (parseOperation blankRequest).key = some (ascii "a b") := by decide +kernel
  exact ⟨hkey, (keyBytes_unique_iff hkey).mpr ⟨by decide +kernel, by decide +kernel⟩⟩

/-- Requests for different bytes have the same key. -/
theorem keyBytes_not_unique :
  ¬ ∀ (parts other : Parts) (key : Bytes), (parseOperation parts).key = some key →
    (parseOperation other).key = some key →
    (parseOperation other).bucket = (parseOperation parts).bucket →
    keyBytes other.path = keyBytes parts.path
  := by
  intro h
  have heq := h (readRequest (ascii "/bucket/%FF") (by decide))
    (readRequest (ascii "/bucket/%FE") (by decide)) Text.replacement
    (by decide +kernel) (by decide +kernel) (by decide +kernel)
  revert heq
  decide +kernel

end TinyS3Proxy
