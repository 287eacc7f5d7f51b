import TinyS3Proxy.Text.Bytes

/-!
# Requests

The names and values of headers, the headers of a request and what a request consists of besides
its body. The types of the HTTP library hold well-formed values only, and so do those here.
-/

namespace TinyS3Proxy

open Text (Bytes ascii lf)

/-! ### Names -/

/-- The byte may occur in the name of a header, once its letters are in lower case. -/
def isNameByte (b : UInt8) : Bool :=
  (48 ≤ b && b ≤ 57) || (97 ≤ b && b ≤ 122) || (ascii "!#$%&'*+-.^_\x60|~").contains b

/-- The greatest length of the name of a header. -/
def maxHeaderNameLen : ℕ := 65535

/-- The name of a header, in lower case. -/
structure HeaderName where
  bytes : Bytes
  nonempty : bytes ≠ []
  length_le : bytes.length ≤ maxHeaderNameLen
  isNameByte_of_mem : ∀ b ∈ bytes, isNameByte b = true
deriving DecidableEq

namespace HeaderName

/-- The name that a string stands for, if it is a name. -/
def fromStr (s : Bytes) : Option HeaderName :=
  if h : Text.lower s ≠ [] ∧ (Text.lower s).length ≤ maxHeaderNameLen ∧
      ∀ b ∈ Text.lower s, isNameByte b = true then
    some ⟨Text.lower s, h.1, h.2.1, h.2.2⟩
  else none

end HeaderName

/-! ### Values -/

/-- The byte may occur in the value of a header. -/
def isValueByte (b : UInt8) : Bool := (32 ≤ b && b ≠ 127) || b = 9

/-- The byte may occur in a value that is read as a string of ASCII characters. -/
def isVisibleByte (b : UInt8) : Bool := (32 ≤ b && b < 127) || b = 9

/-- The value of a header. -/
structure HeaderValue where
  bytes : Bytes
  isValueByte_of_mem : ∀ b ∈ bytes, isValueByte b = true
deriving DecidableEq

/-- The value as a string, if it consists of visible ASCII characters, blanks and tabs. -/
def HeaderValue.toStr (v : HeaderValue) : Option Bytes :=
  if v.bytes.all isVisibleByte then some v.bytes else none

theorem HeaderValue.lf_notMem
    (v : HeaderValue) :
  lf ∉ v.bytes
  := by
  intro h
  have hvalue := v.isValueByte_of_mem lf h
  revert hvalue
  decide

/-! ### Headers -/

/-- The headers of a request. A name may occur more than once. -/
abbrev HeaderMap := List (HeaderName × HeaderValue)

namespace HeaderMap

/-- The values of the headers of a name. -/
def getAll (headers : HeaderMap) (name : Bytes) : List HeaderValue :=
  (headers.filter fun h => h.1.bytes = name).map Prod.snd

/-- The first value of the headers of a name. -/
def get (headers : HeaderMap) (name : Bytes) : Option HeaderValue := (headers.getAll name).head?

/-- There is a header of a name. -/
def containsKey (headers : HeaderMap) (name : Bytes) : Bool :=
  headers.any fun h => h.1.bytes = name

theorem containsKey_iff
    {headers : HeaderMap} {name : Bytes} :
  headers.containsKey name = true ↔ headers.getAll name ≠ []
  := by
  rw [containsKey, getAll, ne_eq, List.map_eq_nil_iff, List.filter_eq_nil_iff]
  simp

end HeaderMap

/-- What a request consists of besides its body: the method, and the path and the query as they
are in its target. -/
structure Parts where
  method : Bytes
  path : Bytes
  query : Option Bytes
  headers : HeaderMap
  lf_notMem_method : lf ∉ method
  lf_notMem_path : lf ∉ path

theorem lf_notMem_get :
  lf ∉ ascii "GET"
  := by
  decide

theorem lf_notMem_put :
  lf ∉ ascii "PUT"
  := by
  decide

theorem lf_notMem_frontKey :
  lf ∉ ascii "/front/key"
  := by
  decide

end TinyS3Proxy
