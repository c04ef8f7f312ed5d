import GmlCheck.Json.Value

/-!
# Qualified names

A name in a namespace, or in none. The namespace with the empty name is not the
same as no namespace.
-/

namespace GmlCheck

/-- The namespace of GML 3.2. -/
def gmlNamespace : String := "http://www.opengis.net/gml/3.2"

def xlinkNamespace : String := "http://www.w3.org/1999/xlink"

def schemaNamespace : String := "http://www.w3.org/2001/XMLSchema"

structure QName where
  space : Option String
  name : String
  deriving DecidableEq, Repr

namespace QName

/-- A name in no namespace. -/
def bare (name : String) : QName := ⟨none, name⟩

def gml (name : String) : QName := ⟨some gmlNamespace, name⟩

/-- The attribute that refers to a value elsewhere. -/
def href : QName := ⟨some xlinkNamespace, "href"⟩

def inNamespace (q : QName) (space : String) : Bool :=
  q.space == some space

/-- The namespace in braces, then the local name. -/
def text (q : QName) : String :=
  match q.space with
  | none => q.name
  | some s => "\x7b" ++ s ++ "\x7d" ++ q.name

def knownPrefix? (space : String) : Option String :=
  if space = gmlNamespace then some "gml"
  else if space = xlinkNamespace then some "xlink"
  else if space = schemaNamespace then some "xs"
  else none

/-- The customary prefix for the namespaces that have one, and `text` for the others. -/
def prefixed (q : QName) : String :=
  match q.space.bind knownPrefix? with
  | some p => p ++ ":" ++ q.name
  | none => q.text

/-- Names in no namespace first, then by namespace, then by local name. -/
def precedes (a b : QName) : Bool :=
  match a.space, b.space with
  | none, none => a.name < b.name
  | none, some _ => true
  | some _, none => false
  | some s, some t => s < t || (s == t && a.name < b.name)

def toJson (q : QName) : Json :=
  .object [("namespace", Json.ofOption .string q.space), ("local_name", q.name)]

/-- Reads the record of a namespace, which may be null, and a local name. -/
def ofJson? (j : Json) : Option QName := do
  let [space, name] ← j.fields? ["namespace", "local_name"] | none
  let space ← match space with
    | none | some .null => some none
    | some s => s.toText?.map some
  return ⟨space, ← (← name).toText?⟩

end QName

end GmlCheck
