import GmlCheck.Report.Basic
import GmlCheck.Schema.Query

/-!
# Property types

A property holds its value or refers to it. Its type is well-formed if its
content is empty and it has the attribute `xlink:href`, or if its content is a
sequence of one particle, which is an element or a choice of elements. A value
that may be absent needs the attribute, an array of values must not have it. If
a head is given, all values must be able to stand for it.
-/

namespace GmlCheck

namespace Schema

/-- The head that values must stand for, and whether it is a value itself. -/
structure ValueHead where
  head : ElementId
  included : Bool
  deriving DecidableEq, Repr

/-- The values that a head allows. -/
def allowedValues (m : Schema) (h : ValueHead) : List ElementId :=
  m.substitutes h.head ++ if h.included then [h.head] else []

/-- An element as the value of a property. -/
def substitutionFindings (m : Schema) (subject : String) (head : Option ValueHead)
    (e : ElementId) : List Finding :=
  match head with
  | none => []
  | some h =>
    if (m.allowedValues h).contains e then []
    else [.violated ⟨.disallowedSubstitution (m.elementName e) (m.elementName h.head), subject⟩]

/-- A branch of a choice of values. -/
def branchFindings (m : Schema) (subject : String) (head : Option ValueHead)
    (p : Particle) : List Finding :=
  match p.element? with
  | some e => m.substitutionFindings subject head e
  | none => [.violated ⟨.wildcardOrGroupNotPermitted, subject⟩]

/-- The particle that stands for the value of a property. -/
def valueFindings (m : Schema) (subject : String) (head : Option ValueHead) :
    Particle → List Finding
  | .element _ e => m.substitutionFindings subject head e
  | .group _ .choice ps => ps.flatMap (m.branchFindings subject head)
  | .group _ _ _ => [.violated ⟨.wildcardOrGroupNotPermitted, subject⟩]
  | .wildcard _ _ => [.violated ⟨.wildcardNotPermitted, subject⟩]

/-- A fault for which the value particle is not looked at. -/
def structuralFindings (subject : String) (fault : Fault) : List Finding :=
  [.violated ⟨fault, subject⟩, .unchecked "value particle"]

/-- The top of the content model, whatever its bounds. -/
def shapeFindings (m : Schema) (subject : String) (head : Option ValueHead) :
    Particle → List Finding
  | .group _ .sequence [p] => m.valueFindings subject head p
  | .group _ .sequence ps => structuralFindings subject (.tooManyParticles ps.length)
  | .group _ c _ => structuralFindings subject (.sequenceExpected c)
  | .element _ _ | .wildcard _ _ => structuralFindings subject .modelGroupExpected

/-- The attribute that refers to a value, against the bounds of the value. -/
def hrefFindings (subject : String) (o : Occurs) (hasHref : Bool) : List Finding :=
  (if o.isEmptiable && ! hasHref then [.violated ⟨.attributeRequired .href true, subject⟩]
    else []) ++
  (if o.isMultiple && hasHref then [.violated ⟨.attributeProhibited .href, subject⟩] else [])

def propertyFindings (m : Schema) (subject : String) (t : ComplexType)
    (head : Option ValueHead) : Except Error (List Finding) :=
  match t.content with
  | .empty =>
    .ok (if t.hasHref then [] else [.violated ⟨.attributeRequired .href false, subject⟩])
  | .simple => .ok (structuralFindings subject .modelGroupExpected)
  | .elementOnly | .mixed =>
    match t.particle with
    | some top => .ok (hrefFindings subject top.occurs t.hasHref ++ m.shapeFindings subject head top)
    | none => .error (.precondition (.missingParticle t.content) (some subject))

def propertyReport (m : Schema) (subject : String) (t : ComplexType) (head : Option ValueHead) :
    Except Error Report := do
  return .ofFindings ("property type " ++ subject) (← m.propertyFindings subject t head)

/-- Checks a complex type that is used for properties. -/
def checkPropertyType (m : Schema) (id : TypeId) (head : Option ValueHead) :
    Except Error Report := do
  m.propertyReport (m.typeLabel id) (← m.getComplexType id) head

/-- Checks the type of a property. A type without a name goes by the name of the element. -/
def checkPropertyElement (m : Schema) (id : ElementId) (head : Option ValueHead) :
    Except Error Report := do
  let e ← m.getElement id
  let t ← m.getType e.type
  match t.complex? with
  | some c => m.propertyReport (t.name.getD e.name).text c head
  | none => throw (.precondition .complexPropertyExpected (some (m.elementRef id).text))

end Schema

end GmlCheck
