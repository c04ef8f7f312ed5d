import GmlCheck.QName

/-!
# Schema components

Type definitions, element declarations and what they are made of. Components
refer to each other by identifiers, which a model issues and which may point to
nothing.
-/

namespace GmlCheck

/-- The place of a type definition in its model. -/
structure TypeId where
  index : Nat
  deriving DecidableEq, Repr

/-- The place of an element declaration in its model. -/
structure ElementId where
  index : Nat
  deriving DecidableEq, Repr

/-! ## References -/

inductive ComponentKind where
  | elementDeclaration
  | typeDefinition
  | attributeDeclaration
  deriving DecidableEq, Repr

def ComponentKind.text : ComponentKind → String
  | elementDeclaration => "element declaration"
  | typeDefinition => "type definition"
  | attributeDeclaration => "attribute declaration"

def ComponentKind.label : ComponentKind → String
  | elementDeclaration => "ElementDeclaration"
  | typeDefinition => "TypeDefinition"
  | attributeDeclaration => "AttributeDeclaration"

/-- A component by its kind and name. -/
structure ComponentRef where
  kind : ComponentKind
  name : QName
  deriving DecidableEq, Repr

def ComponentRef.text (r : ComponentRef) : String :=
  r.kind.text ++ " " ++ r.name.text

def ComponentRef.toJson (r : ComponentRef) : Json :=
  .object [("name", r.name.toJson), ("kind", r.kind.label)]

/-! ## Particles -/

/-- How often a particle may occur; no `max` means without bound. -/
structure Occurs where
  min : Nat
  max : Option Nat
  deriving DecidableEq, Repr

namespace Occurs

def once : Occurs := ⟨1, some 1⟩
def optional : Occurs := ⟨0, some 1⟩
def zeroOrMore : Occurs := ⟨0, none⟩
def oneOrMore : Occurs := ⟨1, none⟩

/-- The particle may be absent. -/
def isEmptiable (o : Occurs) : Bool := o.min == 0

/-- The particle may occur more than once. -/
def isMultiple (o : Occurs) : Bool :=
  match o.max with
  | none => true
  | some n => 1 < n

def toJson (o : Occurs) : Json :=
  .object [("min", o.min), ("max", Json.ofOption .natural o.max)]

end Occurs

inductive Compositor where
  | sequence
  | choice
  | all
  deriving DecidableEq, Repr

def Compositor.text : Compositor → String
  | sequence => "sequence"
  | choice => "choice"
  | all => "all"

/-- How the content of a wildcard is validated. -/
inductive Processing where
  | strict
  | lax
  | skip
  deriving DecidableEq, Repr

/-- A part of a content model: an element, a group of particles or a wildcard. -/
inductive Particle where
  | element (occurs : Occurs) (id : ElementId)
  | group (occurs : Occurs) (compositor : Compositor) (particles : List Particle)
  | wildcard (occurs : Occurs) (processing : Processing)
  deriving Repr

namespace Particle

instance : Inhabited Particle := ⟨wildcard .once .strict⟩

def occurs : Particle → Occurs
  | element o _ | group o _ _ | wildcard o _ => o

/-- The same term under other bounds. -/
def withOccurs (o : Occurs) : Particle → Particle
  | element _ id => element o id
  | group _ c ps => group o c ps
  | wildcard _ p => wildcard o p

@[simp] theorem occurs_withOccurs (o : Occurs) (p : Particle) : (p.withOccurs o).occurs = o := by
  cases p <;> rfl

def element? : Particle → Option ElementId
  | element _ id => some id
  | _ => none

mutual

/-- The elements at any depth, in document order. -/
def elements : Particle → List ElementId
  | element _ id => [id]
  | group _ _ ps => elementsOf ps
  | wildcard _ _ => []

def elementsOf : List Particle → List ElementId
  | [] => []
  | p :: ps => p.elements ++ elementsOf ps

end

theorem elementsOf_eq_flatMap (ps : List Particle) : elementsOf ps = ps.flatMap elements := by
  induction ps with
  | nil => simp [elementsOf]
  | cons p ps ih => simp [elementsOf, ih]

end Particle

/-! ## Attributes -/

inductive UseMode where
  | optional
  | required
  | prohibited
  deriving DecidableEq, Repr

/-- An attribute within a complex type. -/
structure AttributeUse where
  name : QName
  mode : UseMode
  deriving DecidableEq, Repr

namespace AttributeUse

/-- The use declares the attribute. Without a namespace it matches on the local name alone. -/
def declares (u : AttributeUse) (name : QName) : Bool :=
  u.name.name == name.name &&
    match u.name.space with
    | none => true
    | some s => name.inNamespace s

/-- The use lets the attribute appear. -/
def permits (u : AttributeUse) (name : QName) : Bool :=
  u.mode != .prohibited && u.declares name

end AttributeUse

/-! ## Types and elements -/

inductive ContentType where
  | empty
  | simple
  | mixed
  | elementOnly
  deriving DecidableEq, Repr

def ContentType.text : ContentType → String
  | empty => "empty"
  | simple => "simple"
  | mixed => "mixed"
  | elementOnly => "element-only"

inductive Method where
  | restriction
  | extension
  deriving DecidableEq, Repr

/-- The link from a type to its base. -/
structure Derivation where
  base : TypeId
  method : Method
  deriving DecidableEq, Repr

structure ComplexType where
  name : Option QName
  derivation : Option Derivation
  isAbstract : Bool
  content : ContentType
  /-- The top of the content model, if the content is of elements. -/
  particle : Option Particle
  /-- The attributes, inherited ones included. -/
  attributes : List AttributeUse
  deriving Repr

namespace ComplexType

/-- The first use that permits the attribute. -/
def use? (t : ComplexType) (name : QName) : Option AttributeUse :=
  t.attributes.find? (·.permits name)

def hasHref (t : ComplexType) : Bool :=
  (t.use? .href).isSome

/-- The elements of the content model, in document order. -/
def elements (t : ComplexType) : List ElementId :=
  (t.particle.map Particle.elements).getD []

end ComplexType

inductive TypeDefinition where
  | simple (name : Option QName) (derivation : Option Derivation)
  | complex (type : ComplexType)
  deriving Repr

namespace TypeDefinition

def name : TypeDefinition → Option QName
  | simple n _ => n
  | complex t => t.name

def derivation : TypeDefinition → Option Derivation
  | simple _ d => d
  | complex t => t.derivation

/-- Simple types are never abstract. -/
def isAbstract : TypeDefinition → Bool
  | simple _ _ => false
  | complex t => t.isAbstract

def complex? : TypeDefinition → Option ComplexType
  | simple _ _ => none
  | complex t => some t

end TypeDefinition

/-- Where an element is declared. -/
inductive Scope where
  | global
  | within (container : TypeId)
  deriving DecidableEq, Repr

def Scope.text : Scope → String
  | global => "global"
  | within _ => "local"

structure ElementDeclaration where
  name : QName
  type : TypeId
  scope : Scope
  isAbstract : Bool
  /-- The element that this one names as head of its substitution group. -/
  head : Option ElementId
  deriving DecidableEq, Repr

end GmlCheck
