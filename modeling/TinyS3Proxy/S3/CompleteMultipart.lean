import TinyS3Proxy.Text.Markup

/-!
# The body of a request to complete an upload

The body lists the parts that the object consists of. It is read by a state machine over the events
of a reader of XML (`s3/xml.rs`).
-/

namespace TinyS3Proxy

open Text (Bytes ascii XmlEvent Forest Cut Leaf)

/-! ### The parser -/

/-- A part of an object. -/
structure CompletedPart where
  etag : Bytes
  partNumber : ℤ
deriving DecidableEq

/-- Why a body was not accepted. -/
inductive CompleteMultipartError
  | duplicatePartNumber
  | duplicateEtag
  | invalidPartNumber (text : Bytes)
  | missingPartNumber
  | missingEtag
  | xmlParseError
  | missingRoot
  | noParts
deriving DecidableEq

/-- The text of the error, as far as it does not come from libraries. -/
def CompleteMultipartError.message : CompleteMultipartError → Bytes
  | duplicatePartNumber => ascii "Duplicate PartNumber in Part element"
  | duplicateEtag => ascii "Duplicate ETag in Part element"
  | invalidPartNumber _ => ascii "Invalid PartNumber: "
  | missingPartNumber => ascii "Missing PartNumber in Part element"
  | missingEtag => ascii "Missing ETag in Part element"
  | xmlParseError => ascii "XML parse error: "
  | missingRoot => ascii "Missing CompleteMultipartUpload root element"
  | noParts => ascii "No Part elements found in CompleteMultipartUpload"

def rootName : Bytes := ascii "CompleteMultipartUpload"

def partName : Bytes := ascii "Part"

def partNumberName : Bytes := ascii "PartNumber"

def etagName : Bytes := ascii "ETag"

/-- The state of the parser. -/
structure CompleteParser where
  parts : List CompletedPart
  currentPartNumber : Option ℤ
  currentEtag : Option Bytes
  insidePart : Bool
  foundRoot : Bool
  depth : ℕ
  currentElement : Bytes
deriving DecidableEq

namespace CompleteParser

/-- The parser before the first event. -/
def init : CompleteParser where
  parts := []
  currentPartNumber := none
  currentEtag := none
  insidePart := false
  foundRoot := false
  depth := 0
  currentElement := []

/-- The parser one level deeper. -/
def deeper (s : CompleteParser) : CompleteParser := { s with depth := s.depth + 1 }

/-- The parser after an event. -/
def step (s : CompleteParser) : XmlEvent → Except CompleteMultipartError CompleteParser
  | .start name =>
      if name = rootName ∧ s.depth = 0 then .ok { s.deeper with foundRoot := true }
      else if name = partName ∧ s.foundRoot ∧ s.depth = 1 then
        .ok { s.deeper with insidePart := true, currentPartNumber := none, currentEtag := none }
      else if name = partNumberName ∧ s.insidePart ∧ s.depth = 2 then
        if s.currentPartNumber.isSome then .error .duplicatePartNumber
        else .ok { s.deeper with currentElement := name }
      else if name = etagName ∧ s.insidePart ∧ s.depth = 2 then
        if s.currentEtag.isSome then .error .duplicateEtag
        else .ok { s.deeper with currentElement := name }
      else .ok s.deeper
  | .empty name =>
      if name = rootName ∧ s.depth = 0 then .ok { s with foundRoot := true } else .ok s
  | .text content =>
      if s.insidePart then
        if s.currentElement = partNumberName then
          match Text.fromStrSigned 32 content with
          | some n => .ok { s with currentPartNumber := some n }
          | none => .error (.invalidPartNumber content)
        else if s.currentElement = etagName then .ok { s with currentEtag := some content }
        else .ok s
      else .ok s
  | .close name =>
      let s := { s with depth := s.depth - 1 }
      if name = partName ∧ s.insidePart then
        match s.currentPartNumber with
        | none => .error .missingPartNumber
        | some partNumber =>
            match s.currentEtag with
            | none => .error .missingEtag
            | some etag =>
                .ok { s with
                  parts := s.parts ++ [⟨etag, partNumber⟩]
                  currentEtag := none
                  insidePart := false
                  currentElement := [] }
      else .ok { s with currentElement := [] }
  | .cdata _ => .ok s
  | .reference _ => .ok s
  | .misc => .ok s
  | .error => .error .xmlParseError

end CompleteParser

/-- The parts that a body lists, by the events of the body. -/
def parseCompleteMultipartBody (events : List XmlEvent) :
    Except CompleteMultipartError (List CompletedPart) := do
  let s ← events.foldlM CompleteParser.step CompleteParser.init
  if !s.foundRoot then .error .missingRoot
  else if s.parts = [] then .error .noParts
  else .ok s.parts

/-! ### What a document states -/

/-- The number and the tag of a part, as far as they have been read. -/
structure Fields where
  partNumber : Option ℤ
  etag : Option Bytes
deriving DecidableEq

/-- No field has been read yet. -/
def Fields.none : Fields := ⟨.none, .none⟩

/-- The part that the fields make, if both have been read. -/
def Fields.part (r : Fields) : Option CompletedPart :=
  r.partNumber.bind fun partNumber => r.etag.map fun etag => { etag, partNumber }

/-- Take a text for the field of the current element. -/
def Fields.takeText (element : Bytes) (r : Fields) (content : Bytes) : Option Fields :=
  if element = partNumberName then
    (Text.fromStrSigned 32 content).map fun n => { r with partNumber := some n }
  else if element = etagName then some { r with etag := some content }
  else some r

/-- Take the texts of a child of a part, unless its field has been read. -/
def Fields.takeChild (name : Bytes) (r : Fields) (texts : List Bytes) : Option Fields :=
  if name = partNumberName ∧ r.partNumber.isSome ∨ name = etagName ∧ r.etag.isSome then .none
  else texts.foldlM (takeText name) r

/-- How far a part has been read. -/
inductive Reading
  | refused
  | reading (r : Fields)
  | complete (part : CompletedPart)
deriving DecidableEq

/-- The part is complete if both fields have been read. -/
def Fields.finish (r : Fields) : Reading :=
  match r.part with
  | .none => .refused
  | some part => .complete part

/-- Read the inside of a part, up to the first end tag for a part. -/
def readContent : Forest → Fields → Reading
  | .nil, r => .reading r
  | .leaf _ rest, r => readContent rest r
  | .empty _ rest, r => readContent rest r
  | .element name children rest, r =>
      match r.takeChild name children.leading with
      | none => .refused
      | some r' =>
          if name = partName || children.closes partName then r'.finish else readContent rest r'

/-- The part that is taken of the inside of an element. -/
def takenPart (part : Forest) : Option CompletedPart :=
  match readContent part .none with
  | .refused => none
  | .reading r => r.part
  | .complete p => some p

/-- Read the inside of a part that may be cut off. -/
def readCut : Cut → Fields → Reading
  | .whole f, r => readContent f r
  | .inside before name inner, r =>
      match readContent before r with
      | .refused => .refused
      | .complete p => .complete p
      | .reading r =>
          match r.takeChild name inner.leading with
          | none => .refused
          | some r' => if inner.closes partName then r'.finish else .reading r'

/-- The parts that are taken of the inside of the root. -/
def takenParts (root : Forest) : Option (List CompletedPart) :=
  (root.pairs partName).mapM takenPart

/-- The parts that are taken of the inside of a root that may be cut off: a part that is not closed
is none, but its inside is read. -/
def takenPartsCut : Cut → Option (List CompletedPart)
  | .whole f => takenParts f
  | .inside before name inner =>
      (takenParts before).bind fun parts =>
        if name = partName then
          match readCut inner .none with
          | .refused => none
          | .reading _ => some parts
          | .complete p => some (parts ++ [p])
        else some parts

/-- The parts that are taken of elements of any names, where `found` says that a root has been
found before. From the first root on, every element is read as if it were one. -/
def takenAfter : Bool → Forest → Option (List CompletedPart)
  | _, .nil => some []
  | found, .leaf _ rest => takenAfter found rest
  | found, .empty name rest => takenAfter (found || name = rootName) rest
  | found, .element name children rest =>
      if found || name = rootName then
        (takenParts children).bind fun parts => (takenAfter true rest).map (parts ++ ·)
      else takenAfter false rest

/-- The parts that are taken of what may be cut off. -/
def taken : Cut → Option (List CompletedPart)
  | .whole f => takenAfter false f
  | .inside before name inner =>
      (takenAfter false before).bind fun parts =>
        if before.has rootName || name = rootName then
          (takenPartsCut inner).map (parts ++ ·)
        else some parts

/-! ### Steps -/

namespace CompleteParser

/-- The fields of the part that is being read. -/
def fields (s : CompleteParser) : Fields := ⟨s.currentPartNumber, s.currentEtag⟩

/-- The parser with other fields. -/
def withFields (s : CompleteParser) (r : Fields) : CompleteParser :=
  { s with currentPartNumber := r.partNumber, currentEtag := r.etag }

/-- The parser with one more part. -/
def add (s : CompleteParser) (p : CompletedPart) : CompleteParser :=
  { s with
    parts := s.parts ++ [p]
    currentPartNumber := some p.partNumber
    currentEtag := none
    insidePart := false
    currentElement := [] }

/-- The parser after events, if it does not refuse them. -/
def steps (events : List XmlEvent) (s : CompleteParser) : Option CompleteParser :=
  events.foldlM (fun s e => (s.step e).toOption) s

@[simp]
theorem steps_nil
    (s : CompleteParser) :
  steps [] s = some s
  := rfl

theorem steps_cons
    (e : XmlEvent) (events : List XmlEvent) (s : CompleteParser) :
  steps (e :: events) s = (s.step e).toOption.bind (steps events)
  := List.foldlM_cons

theorem step_text
    {s : CompleteParser} (h : s.insidePart = true) (content : Bytes) :
  (s.step (.text content)).toOption
    = (s.fields.takeText s.currentElement content).map s.withFields
  := by
  rw [step, if_pos h, Fields.takeText]
  split
  next =>
    rcases Text.fromStrSigned 32 content with _ | n
    · rfl
    · rfl
  next =>
    split
    next => rfl
    next => rfl

theorem step_close
    (s : CompleteParser) (name : Bytes) :
  (s.step (.close name)).toOption
    = if name = partName ∧ s.insidePart = true then
        s.fields.part.map (CompleteParser.add { s with depth := s.depth - 1 })
      else some { s with depth := s.depth - 1, currentElement := [] }
  := by
  rw [step]
  split
  next =>
    rcases s with ⟨parts, number, etag, inside, found, depth, element⟩
    rcases number with _ | number
    · rfl
    · rcases etag with _ | etag
      · rfl
      · rfl
  next => rfl

/-- The parser with more parts. -/
def addAll (s : CompleteParser) (parts : List CompletedPart) : CompleteParser :=
  parts.foldl add s

/-- Between the parts of an object the parser is at a child of the root. -/
structure AtChildren (s : CompleteParser) : Prop where
  depth : s.depth = 1
  foundRoot : s.foundRoot = true
  insidePart : s.insidePart = false
  currentElement : s.currentElement = []

theorem AtChildren.add
    {s : CompleteParser} (h : s.AtChildren) (p : CompletedPart) :
  (s.add p).AtChildren
  := ⟨h.depth, h.foundRoot, rfl, rfl⟩

/-- Outside of every element. -/
structure AtTop (s : CompleteParser) : Prop where
  depth : s.depth = 0
  insidePart : s.insidePart = false
  currentElement : s.currentElement = []

theorem AtChildren.addAll
    {s : CompleteParser} (h : s.AtChildren) (parts : List CompletedPart) :
  (s.addAll parts).AtChildren
  := by
  induction parts generalizing s with
  | nil => exact h
  | cons p parts ih => exact ih (h.add p)

theorem AtTop.addAll
    {s : CompleteParser} (h : s.AtTop) (parts : List CompletedPart) :
  (s.addAll parts).AtTop
  := by
  induction parts generalizing s with
  | nil => exact h
  | cons p parts ih => exact ih ⟨h.depth, rfl, rfl⟩

/-- The parser after elements that are no roots, or after some of which one is. -/
def found (s : CompleteParser) (root : Bool) : CompleteParser :=
  { s with foundRoot := s.foundRoot || root }

theorem AtTop.found
    {s : CompleteParser} (h : s.AtTop) (root : Bool) :
  (s.found root).AtTop
  := ⟨h.depth, h.insidePart, h.currentElement⟩

/-- There are no parts without a root. -/
structure Rooted (s : CompleteParser) : Prop where
  insidePart : s.insidePart = true → s.foundRoot = true
  parts : s.parts ≠ [] → s.foundRoot = true

theorem Rooted.step
    {s s' : CompleteParser} (h : s.Rooted) {e : XmlEvent} (hstep : (s.step e).toOption = some s') :
  s'.Rooted
  := by
  cases e with
  | start name =>
      rw [CompleteParser.step] at hstep
      split_ifs at hstep with hroot hpart
      · obtain rfl := Option.some.inj hstep
        exact ⟨fun _ => rfl, fun _ => rfl⟩
      · obtain rfl := Option.some.inj hstep
        exact ⟨fun _ => hpart.2.1, fun _ => hpart.2.1⟩
      · cases hstep
      · obtain rfl := Option.some.inj hstep
        exact ⟨h.insidePart, h.parts⟩
      · cases hstep
      · obtain rfl := Option.some.inj hstep
        exact ⟨h.insidePart, h.parts⟩
      · obtain rfl := Option.some.inj hstep
        exact ⟨h.insidePart, h.parts⟩
  | empty name =>
      rw [CompleteParser.step] at hstep
      split_ifs at hstep with hroot
      · obtain rfl := Option.some.inj hstep
        exact ⟨fun _ => rfl, fun _ => rfl⟩
      · obtain rfl := Option.some.inj hstep
        exact h
  | text content =>
      by_cases hinside : s.insidePart = true
      · rw [step_text hinside, Option.map_eq_some_iff] at hstep
        obtain ⟨r, -, rfl⟩ := hstep
        exact ⟨h.insidePart, h.parts⟩
      · rw [CompleteParser.step, if_neg hinside] at hstep
        obtain rfl := Option.some.inj hstep
        exact h
  | close name =>
      rw [step_close] at hstep
      split_ifs at hstep with hpart
      · obtain ⟨p, -, rfl⟩ := Option.map_eq_some_iff.mp hstep
        exact ⟨nofun, fun _ => h.insidePart hpart.2⟩
      · obtain rfl := Option.some.inj hstep
        exact ⟨h.insidePart, h.parts⟩
  | cdata content =>
      obtain rfl := Option.some.inj hstep
      exact h
  | reference name =>
      obtain rfl := Option.some.inj hstep
      exact h
  | misc =>
      obtain rfl := Option.some.inj hstep
      exact h
  | error => cases hstep

theorem Rooted.steps
    {s s' : CompleteParser} (h : s.Rooted) {events : List XmlEvent}
    (hsteps : CompleteParser.steps events s = some s') :
  s'.Rooted
  := by
  induction events generalizing s with
  | nil =>
      obtain rfl := Option.some.inj hsteps
      exact h
  | cons e events ih =>
      rw [steps_cons] at hsteps
      obtain ⟨t, ht, hrest⟩ := Option.bind_eq_some_iff.mp hsteps
      exact ih (h.step ht) hrest

end CompleteParser

/-! ### What is accepted -/

end TinyS3Proxy
