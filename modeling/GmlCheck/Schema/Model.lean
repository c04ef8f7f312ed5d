import GmlCheck.Error
import GmlCheck.Table

/-!
# Schema models

A model holds type definitions and element declarations in the order in which
they were added; the place of a component is its identifier. Named types and
global elements are found by name too: the last one of a name, in the place of
the first.
-/

namespace GmlCheck

structure Schema where
  types : Array TypeDefinition
  elements : Array ElementDeclaration
  globalTypes : Table QName TypeId
  globalElements : Table QName ElementId
  deriving Repr

namespace Schema

def empty : Schema := ⟨#[], #[], .empty, .empty⟩

/-! ## Building -/

def addType (m : Schema) (t : TypeDefinition) : Schema × TypeId :=
  let id : TypeId := ⟨m.types.size⟩
  let named := match t.name with
    | some n => m.globalTypes.put n id
    | none => m.globalTypes
  ({ m with types := m.types.push t, globalTypes := named }, id)

def addElement (m : Schema) (e : ElementDeclaration) : Schema × ElementId :=
  let id : ElementId := ⟨m.elements.size⟩
  let named := match e.scope with
    | .global => m.globalElements.put e.name id
    | .within _ => m.globalElements
  ({ m with elements := m.elements.push e, globalElements := named }, id)

/-- Changes a complex type in place. The names by which types are found stay. -/
def modifyComplexType (m : Schema) (id : TypeId) (f : ComplexType → ComplexType) : Schema :=
  { m with
    types := m.types.modify id.index fun
      | .complex t => .complex (f t)
      | .simple n d => .simple n d }

/-- Changes an element declaration in place. The names by which elements are found stay. -/
def modifyElement (m : Schema) (id : ElementId) (f : ElementDeclaration → ElementDeclaration) :
    Schema :=
  { m with elements := m.elements.modify id.index f }

/-! ## Looking up -/

def type? (m : Schema) (id : TypeId) : Option TypeDefinition := m.types[id.index]?

def element? (m : Schema) (id : ElementId) : Option ElementDeclaration := m.elements[id.index]?

def complexType? (m : Schema) (id : TypeId) : Option ComplexType :=
  (m.type? id).bind TypeDefinition.complex?

def typeIds (m : Schema) : List TypeId := (List.range m.types.size).map TypeId.mk

def elementIds (m : Schema) : List ElementId := (List.range m.elements.size).map ElementId.mk

/-- The global elements, in the order in which their names were first declared. -/
def globals (m : Schema) : List ElementId := m.globalElements.values

def globalType? (m : Schema) (name : QName) : Option TypeId := m.globalTypes.get? name

def globalElement? (m : Schema) (name : QName) : Option ElementId := m.globalElements.get? name

/-- The name of an element, or a mark made of its identifier if there is no such element. -/
def elementName (m : Schema) (id : ElementId) : QName :=
  ((m.element? id).map ElementDeclaration.name).getD (.bare s!"#element{id.index}")

def typeName? (m : Schema) (id : TypeId) : Option QName :=
  (m.type? id).bind TypeDefinition.name

/-- The name of a type; also the label of types without one. -/
def typeLabel (m : Schema) (id : TypeId) : String :=
  ((m.typeName? id).map QName.text).getD s!"anonymous type #{id.index}"

def elementRef (m : Schema) (id : ElementId) : ComponentRef :=
  ⟨.elementDeclaration, m.elementName id⟩

/-! ## Looking up what must exist -/

def getType (m : Schema) (id : TypeId) : Except Error TypeDefinition :=
  match m.type? id with
  | some t => .ok t
  | none => .error (.precondition (.unknownType id) none)

def getComplexType (m : Schema) (id : TypeId) : Except Error ComplexType := do
  match (← m.getType id).complex? with
  | some t => return t
  | none => throw (.precondition .complexTypeExpected (some (m.typeLabel id)))

def getElement (m : Schema) (id : ElementId) : Except Error ElementDeclaration :=
  match m.element? id with
  | some e => .ok e
  | none => .error (.precondition (.unknownElement id) none)

def findType (m : Schema) (name : QName) : Except Error TypeId :=
  match m.globalType? name with
  | some id => .ok id
  | none => .error (.notFound ⟨.typeDefinition, name⟩)

def findElement (m : Schema) (name : QName) : Except Error ElementId :=
  match m.globalElement? name with
  | some id => .ok id
  | none => .error (.notFound ⟨.elementDeclaration, name⟩)

theorem getElement_eq_ok_iff {m : Schema} {id : ElementId} {e : ElementDeclaration} :
    m.getElement id = .ok e ↔ m.element? id = some e := by
  unfold getElement
  cases m.element? id <;> simp

theorem findType_eq_ok_iff {m : Schema} {name : QName} {id : TypeId} :
    m.findType name = .ok id ↔ m.globalType? name = some id := by
  unfold findType
  cases m.globalType? name <;> simp

theorem findElement_eq_ok_iff {m : Schema} {name : QName} {id : ElementId} :
    m.findElement name = .ok id ↔ m.globalElement? name = some id := by
  unfold findElement
  cases m.globalElement? name <;> simp

end Schema

end GmlCheck
