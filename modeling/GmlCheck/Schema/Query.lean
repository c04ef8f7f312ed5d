import GmlCheck.Closure
import GmlCheck.Schema.Model

/-!
# Questions to a schema

Derivation of types, substitution of elements, and the types that global
elements lead to. Each of the three is a closure over links that may run in
cycles or point to nothing.
-/

namespace GmlCheck

namespace Schema

/-! ## Derivation -/

/-- The base of a type, if it derives from one by the given method. -/
def base? (m : Schema) (method : Option Method) (t : TypeId) : Option TypeId :=
  ((m.type? t).bind TypeDefinition.derivation).bind fun d =>
    if method.all (· == d.method) then some d.base else none

/-- A type, its base, the base of that, and so on for at most `n` types. -/
def derivationChain (m : Schema) (method : Option Method) : Nat → TypeId → List TypeId
  | 0, _ => []
  | n + 1, t =>
    t :: match m.base? method t with
      | some b => m.derivationChain method n b
      | none => []

/-- `t` is `base` or derives from it, in steps of the given method. A chain without a
repetition has no more members than the model has types, but for an end outside the model. -/
def derivesFrom (m : Schema) (t base : TypeId) (method : Option Method) : Bool :=
  (m.derivationChain method (m.types.size + 1) t).contains base

/-- A component declared with type `t` counts as one of type `target`: the same type, or
one that derives from an abstract `target`. -/
def isOfType (m : Schema) (t target : TypeId) : Bool :=
  t == target ||
    ((m.type? target).any TypeDefinition.isAbstract && m.derivesFrom t target none)

/-- The element exists and its declared type counts as `target`. -/
def elementIsOfType (m : Schema) (target : TypeId) (e : ElementId) : Bool :=
  (m.element? e).any fun d => m.isOfType d.type target

def globalElementsOfType (m : Schema) (target : TypeId) : List ElementId :=
  m.globals.filter (m.elementIsOfType target)

/-- The elements, global and local, whose type derives from `base` by extension alone. -/
def elementsExtending (m : Schema) (base : TypeId) : List ElementId :=
  m.elementIds.filter fun e =>
    (m.element? e).any fun d => m.derivesFrom d.type base (some .extension)

/-! ## Substitution -/

/-- The elements that name `head` as head of their substitution group. -/
def members (m : Schema) (head : ElementId) : List ElementId :=
  m.elementIds.filter fun e => (m.element? e).any (·.head == some head)

/-- The elements that may stand for `head`, directly or by way of others, without `head` itself. -/
def substitutes (m : Schema) (head : ElementId) : List ElementId :=
  Closure.collect m.members (m.elementIds.erase head) (m.members head)

/-- The name of a head and of all elements that may stand for it, if the head is declared. -/
def geometryNames (m : Schema) (head : QName) : List QName :=
  head :: match m.globalElement? head with
    | some h => (m.substitutes h).map m.elementName
    | none => []

/-! ## Reach -/

/-- The declared types of those of the elements that exist. -/
def typesOf (m : Schema) (es : List ElementId) : List TypeId :=
  es.filterMap fun e => (m.element? e).map ElementDeclaration.type

/-- The types of the elements in the content model of a type. -/
def contentTypes (m : Schema) (t : TypeId) : List TypeId :=
  m.typesOf (((m.complexType? t).map ComplexType.elements).getD [])

/-- The complex types of global elements, and those of elements within them at any depth. -/
def reachableTypes (m : Schema) : List TypeId :=
  Closure.collect m.contentTypes (m.typeIds.filter fun t => (m.complexType? t).isSome)
    (m.typesOf m.globals)

/-- The local elements that count as `target`, in reachable types that `accept` lets pass. -/
def localElementsOfType (m : Schema) (target : TypeId) (accept : TypeId → Bool) :
    List ElementId :=
  let within := (m.reachableTypes.filter accept).flatMap fun t =>
    ((m.complexType? t).map ComplexType.elements).getD []
  (within.filter fun e =>
    (m.element? e).any (·.scope != .global) && m.elementIsOfType target e).eraseDups

/-! ## Kinds of types -/

/-- `t` derives from the type of that name in the namespace of GML. -/
def derivesFromGml (m : Schema) (name : String) (t : TypeId) : Bool :=
  (m.globalType? (.gml name)).any fun base => m.derivesFrom t base none

/-- `t` denotes an object of GML. -/
def isGmlObjectType (m : Schema) (t : TypeId) : Bool :=
  m.derivesFromGml "AbstractGMLType" t

/-- `t` denotes a feature of an application; the types of GML itself do not. -/
def isFeatureType (m : Schema) (t : TypeId) : Bool :=
  ! (m.typeName? t).any (·.inNamespace gmlNamespace) && m.derivesFromGml "AbstractFeatureType" t

/-- The reachable types that denote features. -/
def featureTypes (m : Schema) : List TypeId :=
  m.reachableTypes.filter m.isFeatureType

end Schema

end GmlCheck
