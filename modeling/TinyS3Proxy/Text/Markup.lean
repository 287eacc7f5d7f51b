import TinyS3Proxy.Text.Bytes

/-!
# Markup

What a reader of XML returns is a list of events. The events of a document are those of a forest:
text, references and so on, and elements, which contain forests. A document that is cut off is a
forest inside elements that are not closed.
-/

namespace Text

/-- An event of a reader of XML. Comments, declarations and processing instructions are not told
apart. -/
inductive XmlEvent
  | start (name : Bytes)
  | empty (name : Bytes)
  | text (content : Bytes)
  | cdata (content : Bytes)
  | reference (name : Bytes)
  | misc
  | close (name : Bytes)
  | error
deriving DecidableEq

/-- What is between tags. -/
inductive Leaf
  | text (content : Bytes)
  | cdata (content : Bytes)
  | reference (name : Bytes)
  | misc
deriving DecidableEq

/-- The event for what is between tags. -/
def Leaf.event : Leaf → XmlEvent
  | text content => .text content
  | cdata content => .cdata content
  | reference name => .reference name
  | misc => .misc

/-- Elements in order, with what is between them. An element has a start tag and an end tag, or a
single tag and nothing inside. -/
inductive Forest
  | nil
  | leaf (l : Leaf) (rest : Forest)
  | empty (name : Bytes) (rest : Forest)
  | element (name : Bytes) (children rest : Forest)
deriving DecidableEq

/-- A forest, or a forest that is followed by an element which is not closed. -/
inductive Cut
  | whole (f : Forest)
  | inside (before : Forest) (name : Bytes) (inner : Cut)
deriving DecidableEq

namespace Forest

/-- The events of a forest. -/
def events : Forest → List XmlEvent
  | nil => []
  | leaf l rest => l.event :: rest.events
  | empty name rest => .empty name :: rest.events
  | element name children rest =>
      .start name :: (children.events ++ .close name :: rest.events)

/-- The texts before the first end tag. -/
def leading : Forest → List Bytes
  | nil => []
  | leaf (.text content) rest => content :: rest.leading
  | leaf _ rest => rest.leading
  | empty _ rest => rest.leading
  | element _ children _ => children.leading

/-- There is an end tag. -/
def hasClose : Forest → Bool
  | nil => false
  | leaf _ rest => rest.hasClose
  | empty _ rest => rest.hasClose
  | element _ _ _ => true

/-- There is an end tag of the name. -/
def closes (name : Bytes) : Forest → Bool
  | nil => false
  | leaf _ rest => rest.closes name
  | empty _ rest => rest.closes name
  | element name' children rest => name' = name || children.closes name || rest.closes name

/-- What is inside the elements of the name, with their tags. -/
def pairs (name : Bytes) : Forest → List Forest
  | nil => []
  | leaf _ rest => rest.pairs name
  | empty _ rest => rest.pairs name
  | element name' children rest =>
      if name' = name then children :: rest.pairs name else rest.pairs name

/-- There is an element of the name. -/
def has (name : Bytes) : Forest → Bool
  | nil => false
  | leaf _ rest => rest.has name
  | empty name' rest => name' = name || rest.has name
  | element name' _ rest => name' = name || rest.has name

/-- There is nothing but comments and the like. -/
def onlyMisc : Forest → Bool
  | nil => true
  | leaf .misc rest => rest.onlyMisc
  | leaf _ _ => false
  | empty _ _ => false
  | element _ _ _ => false

/-- The forest is a document followed by more than comments and the like. -/
inductive HasTrailing : Forest → Prop
  | misc {rest : Forest} : HasTrailing rest → HasTrailing (leaf .misc rest)
  | empty {name : Bytes} {rest : Forest} : rest.onlyMisc = false → HasTrailing (empty name rest)
  | element {name : Bytes} {children rest : Forest} : rest.onlyMisc = false →
      HasTrailing (element name children rest)

/-- The forest starts with a document. -/
inductive HasRoot : Forest → Prop
  | misc {rest : Forest} : HasRoot rest → HasRoot (leaf .misc rest)
  | empty {name : Bytes} {rest : Forest} : HasRoot (empty name rest)
  | element {name : Bytes} {children rest : Forest} : HasRoot (element name children rest)

end Forest

namespace Cut

/-- The events of a document that is cut off, or not. -/
def events : Cut → List XmlEvent
  | whole f => f.events
  | inside before name inner => before.events ++ .start name :: inner.events

/-- The texts before the first end tag. -/
def leading : Cut → List Bytes
  | whole f => f.leading
  | inside before _ inner =>
      if before.hasClose then before.leading else before.leading ++ inner.leading

/-- There is an end tag of the name. -/
def closes (name : Bytes) : Cut → Bool
  | whole f => f.closes name
  | inside before _ inner => before.closes name || inner.closes name

/-- There is more after the root than comments and the like. -/
def HasTrailing : Cut → Prop
  | whole f => f.HasTrailing
  | inside before _ _ => before.HasRoot

end Cut

end Text
