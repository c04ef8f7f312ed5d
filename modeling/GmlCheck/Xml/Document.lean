import GmlCheck.Xml.Markup
import GmlCheck.Xml.Reference
import GmlCheck.Xml.Tree

/-!
# Documents

`Document.parse?` builds the tree of a text: tags must match, prefixes must be
declared, no element has an attribute twice, and there is one outermost element.
Document type definitions are refused.
-/

namespace GmlCheck.Xml

/-! ## Namespaces -/

def xmlUri : String := "http://www.w3.org/XML/1998/namespace"

def xmlnsUri : String := "http://www.w3.org/2000/xmlns/"

/-- The prefixes in scope, the innermost declarations first. No prefix stands for the default. -/
abbrev Scope := List (Option String × String)

/-- An attribute with its value. -/
structure Given where
  name : RawName
  value : String

/-- Reads the values of the attributes of a tag. -/
def givens? (as : List RawAttribute) : Option (List Given) :=
  as.mapM fun a => (valueOf? a.value).map (⟨a.name, ·⟩)

/-- The prefix that an attribute declares; `some none` for the default namespace. -/
def declares? (n : RawName) : Option (Option String) :=
  if n.lead = "xmlns" then some (some n.name)
  else if n.name = "xmlns" then some none
  else none

/-- The prefix `xml` and its namespace belong together, and the namespace of declarations
is never declared. -/
def mayDeclare (lead : Option String) (uri : String) : Bool :=
  uri ≠ xmlnsUri && ((lead == some "xml") == (uri == xmlUri))

/-- The declarations among the attributes of a tag. No prefix is declared twice, and of several
default namespaces the first one counts; a declaration of `xml` says nothing new. -/
def declarations? : Scope → List Given → Option Scope
  | own, [] => some own
  | own, g :: gs =>
    match declares? g.name with
    | none => declarations? own gs
    | some lead =>
      if ! mayDeclare lead g.value || (lead.isSome && (own.lookup lead).isSome) then none
      else if lead = some "xml" then declarations? own gs
      else declarations? (own ++ [(lead, g.value)]) gs

/-- The name of an element. Without a prefix it is in the default namespace, if there is one. -/
def elementName? (scope : Scope) (n : RawName) : Option QName :=
  if n.lead = "xmlns" then none
  else if n.lead = "" then some ⟨scope.lookup none, n.name⟩
  else (scope.lookup (some n.lead)).map fun uri => ⟨some uri, n.name⟩

/-- The name of an attribute. Without a prefix it is in no namespace. -/
def attributeName? (scope : Scope) (n : RawName) : Option QName :=
  if n.lead = "xml" then some ⟨some xmlUri, n.name⟩
  else if n.lead = "" then some ⟨none, n.name⟩
  else (scope.lookup (some n.lead)).map fun uri => ⟨some uri, n.name⟩

/-- The attributes that declare nothing. No two have the same name. -/
def attributes? (scope : Scope) (gs : List Given) : Option (List Attribute) := do
  let as ← (gs.filter fun g => (declares? g.name).isNone).mapM fun g =>
    (attributeName? scope g.name).map (⟨·, g.value⟩)
  if (as.map Attribute.name).eraseDups.length = as.length then some as else none

/-! ## Building the tree -/

/-- An element that is begun, with its children so far, the last one first. -/
structure Begun where
  tag : RawName
  name : QName
  attributes : List Attribute
  scope : Scope
  children : List Node

def Begun.node (b : Begun) : Node :=
  .element b.name b.attributes b.children.reverse

/-- Begins the element of an opening tag. -/
def begin? (scope : Scope) (tag : RawName) (as : List RawAttribute) : Option Begun := do
  let gs ← givens? as
  let scope := (← declarations? [] gs) ++ scope
  return ⟨tag, ← elementName? scope tag, ← attributes? scope gs, scope, []⟩

/-- Adds text behind the children so far. Texts that touch are one. -/
def addText (s : String) : List Node → List Node
  | .text t :: cs => .text (t ++ s) :: cs
  | cs => .text s :: cs

/-- The elements that are begun, the innermost first, and the outermost nodes, the last one first. -/
structure Building where
  begun : List Begun
  top : List Node

namespace Building

/-- Adds a finished node where the text has come to. -/
def add (b : Building) (n : Node) : Building :=
  match b.begun with
  | [] => { b with top := n :: b.top }
  | f :: fs => { b with begun := { f with children := n :: f.children } :: fs }

/-- Text stands in elements only. -/
def addText? (b : Building) (s : String) : Option Building :=
  match b.begun with
  | [] => none
  | f :: fs => some { b with begun := { f with children := addText s f.children } :: fs }

def scope (b : Building) : Scope :=
  match b.begun with
  | [] => []
  | f :: _ => f.scope

/-- A second outermost element may not begin. -/
def mayBegin (b : Building) : Bool :=
  ! b.begun.isEmpty || ! b.top.any Node.isElement

def step? (b : Building) : Markup → Option Building
  | .opening tag as closed => do
    if ! b.mayBegin then none
    let f ← begin? b.scope tag as
    return if closed then b.add f.node else { b with begun := f :: b.begun }
  | .closing tag =>
    match b.begun with
    | [] => none
    | f :: fs => if f.tag = tag then some (add { b with begun := fs } f.node) else none
  | .characters raw =>
    if b.begun.isEmpty && raw.all isSpace then some b else (textOf? raw).bind b.addText?
  | .literal content => b.addText? (String.ofList (lineFeeds content))
  | .comment content => some (b.add (.comment (String.ofList content)))
  | .instruction target content =>
    some (b.add (.instruction (String.ofList target) (String.ofList content)))

/-- The document, once all elements have ended and there is one. -/
def document? (b : Building) : Option Node :=
  if b.begun.isEmpty && b.top.any Node.isElement then some (.document b.top.reverse) else none

end Building

/-- The tree of a document, if it is well-formed. -/
def parse? (text : String) : Option Node := do
  let b ← (← Markup.read? text).foldlM Building.step? ⟨[], []⟩
  b.document?

end GmlCheck.Xml
