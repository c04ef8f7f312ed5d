import GmlCheck.Decimal.Layout
import GmlCheck.Schema.Component

/-!
# Failures

A failure is no finding: a check that fails says that it could not be run.
-/

namespace GmlCheck

/-- What a caller had to provide and did not. -/
inductive Unmet where
  | unknownType (id : TypeId)
  | unknownElement (id : ElementId)
  | complexTypeExpected
  | complexPropertyExpected
  | missingParticle (content : ContentType)
  | wrongGeometry (expected found : String)
  | badTolerance (given : Float)
  /-- Any other condition, in words. -/
  | stated (condition : String)
  deriving DecidableEq, Repr

/-- Why an element does not read as a geometry. -/
inductive Unreadable where
  | badOrdinate (token : String)
  | zeroDimension
  | ragged (ordinates dimension : Nat)
  | notAnElement
  | unsupportedElement (name : String)
  | missingChild (name child : String)
  | badDimension (text : String)
  /-- Any other reason, in words. -/
  | stated (reason : String)
  deriving DecidableEq, Repr

inductive Error where
  | notFound (component : ComponentRef)
  /-- The component is the one at fault, if it has a label. -/
  | precondition (unmet : Unmet) (component : Option String)
  | geometry (reason : Unreadable)
  /-- A settings text does not denote settings. -/
  | settings
  deriving DecidableEq, Repr

def Unmet.message : Unmet → String
  | unknownType id => s!"type id {id.index} does not belong to this model"
  | unknownElement id => s!"element id {id.index} does not belong to this model"
  | complexTypeExpected => "expected a complex type definition"
  | complexPropertyExpected => "property element must have a complex type"
  | missingParticle content =>
    "content type is " ++ content.text ++ " but there is no top-level particle"
  | wrongGeometry expected found => s!"expected {expected}, found {found}"
  | badTolerance given =>
    "connectivity tolerance must be a finite non-negative number, got " ++ Layout.plain.render given
  | stated condition => condition

def Unreadable.message : Unreadable → String
  | badOrdinate token => "invalid ordinate value: '" ++ token ++ "'"
  | zeroDimension => "srsDimension must be positive"
  | ragged ordinates dimension =>
    s!"posList has {ordinates} ordinates, not a multiple of dimension {dimension}"
  | notAnElement => "not an element"
  | unsupportedElement name => s!"unsupported geometry element: {name}"
  | missingChild name child => s!"{name} has no gml:{child}"
  | badDimension text => "invalid srsDimension: '" ++ text ++ "'"
  | stated reason => reason

namespace Error

/-- The text of a failure; unreadable settings have none. -/
def message? : Error → Option String
  | notFound c => some (c.kind.text ++ " not found: " ++ c.name.text)
  | precondition unmet component =>
    let about := component.elim "" fun c => " (component: " ++ c ++ ")"
    some ("precondition violated: " ++ unmet.message ++ about)
  | geometry reason => some ("geometry error: " ++ reason.message)
  | settings => none

def isPrecondition : Error → Bool
  | precondition .. => true
  | _ => false

end Error

end GmlCheck
