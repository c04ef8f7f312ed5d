import GmlCheck.Decimal.Layout
import GmlCheck.Schema.Component

/-!
# Violations

A `Fault` is a rule that is broken together with what broke it; a `Violation` is
a fault in a named component or geometry. The message of a violation depends on
nothing else.
-/

namespace GmlCheck

/-- A broken rule with its parameters. -/
inductive Fault where
  /-- An attribute is missing; `optionalValue` if it is needed because the value may be absent. -/
  | attributeRequired (name : QName) (optionalValue : Bool)
  | attributeProhibited (name : QName)
  | modelGroupExpected
  | sequenceExpected (found : Compositor)
  | tooManyParticles (count : Nat)
  | wildcardNotPermitted
  | wildcardOrGroupNotPermitted
  | disallowedSubstitution (candidate head : QName)
  /-- A global element of a feature type is no substitute for the head. -/
  | substitutionError (element : QName) (head : String)
  | metadataValueUnspecified
  | unknownCrs (srsName : Option String)
  /-- A position has the wrong number of ordinates; `index` tells which one of several. -/
  | coordinateDimensionMismatch (index : Option Nat) (expected actual : Nat)
  | positionOutsideValidArea (index : Option Nat) (position : List Float) (area : String)
  | invalidEnvelopeOrdering (ordinate : Nat) (lower upper : Float)
  | dimensionMismatch (context : String) (expected actual : Nat)
  | noSegments
  /-- The end of a segment is not where the next one starts. -/
  | segmentsNotConnected (segment : Nat) (last first : List Float)
  | insufficientCoordinates (segment : Option Nat) (required found : Nat)
  deriving BEq, Repr

structure Violation where
  fault : Fault
  /-- The component or geometry at fault. -/
  subject : String
  deriving BEq, Repr

namespace Fault

/-- The stable code of the rule. -/
def code : Fault → String
  | attributeRequired .. => "AttributeRequired"
  | attributeProhibited .. => "AttributeProhibited"
  | modelGroupExpected => "ModelGroupExpected"
  | sequenceExpected .. => "SequenceExpected"
  | tooManyParticles .. => "TooManyParticles"
  | wildcardNotPermitted => "WildcardNotPermitted"
  | wildcardOrGroupNotPermitted => "WildcardOrGroupNotPermitted"
  | disallowedSubstitution .. => "DisallowedSubstitution"
  | substitutionError .. => "SubstitutionError"
  | metadataValueUnspecified => "MetadataValueUnspecified"
  | unknownCrs .. => "UnknownCRS"
  | coordinateDimensionMismatch .. => "CoordinateDimensionMismatch"
  | positionOutsideValidArea .. => "PositionOutsideValidArea"
  | invalidEnvelopeOrdering .. => "InvalidEnvelopeOrdering"
  | dimensionMismatch .. => "DimensionMismatch"
  | noSegments => "NoSegments"
  | segmentsNotConnected .. => "SegmentsNotConnected"
  | insufficientCoordinates .. => "InsufficientCoordinates"

/-- The value of the member `kind`. -/
def label : Fault → String
  | attributeRequired .. => "attribute_required"
  | attributeProhibited .. => "attribute_prohibited"
  | modelGroupExpected => "model_group_expected"
  | sequenceExpected .. => "sequence_expected"
  | tooManyParticles .. => "too_many_particles"
  | wildcardNotPermitted => "wildcard_not_permitted"
  | wildcardOrGroupNotPermitted => "wildcard_or_group_not_permitted"
  | disallowedSubstitution .. => "disallowed_substitution"
  | substitutionError .. => "substitution_error"
  | metadataValueUnspecified => "metadata_value_unspecified"
  | unknownCrs .. => "unknown_crs"
  | coordinateDimensionMismatch .. => "coordinate_dimension_mismatch"
  | positionOutsideValidArea .. => "position_outside_valid_area"
  | invalidEnvelopeOrdering .. => "invalid_envelope_ordering"
  | dimensionMismatch .. => "dimension_mismatch"
  | noSegments => "no_segments"
  | segmentsNotConnected .. => "segments_not_connected"
  | insufficientCoordinates .. => "insufficient_coordinates"

/-- The parameters as members of an object. -/
def members : Fault → List (String × Json)
  | attributeRequired name optionalValue =>
    [("attribute", name.toJson), ("optional_value", optionalValue)]
  | attributeProhibited name => [("attribute", name.toJson)]
  | sequenceExpected found => [("found", found.text)]
  | tooManyParticles count => [("count", count)]
  | disallowedSubstitution candidate head =>
    [("candidate", candidate.toJson), ("head", head.toJson)]
  | substitutionError element head => [("element", element.toJson), ("head", head)]
  | unknownCrs srsName => [("srs_name", Json.ofOption .string srsName)]
  | coordinateDimensionMismatch index expected actual =>
    [("index", Json.ofOption .natural index), ("expected", expected), ("actual", actual)]
  | positionOutsideValidArea index position area =>
    [("index", Json.ofOption .natural index), ("position", Json.list .ofFloat position),
      ("area", area)]
  | invalidEnvelopeOrdering ordinate lower upper =>
    [("ordinate", ordinate), ("lower", Json.ofFloat lower), ("upper", Json.ofFloat upper)]
  | dimensionMismatch context expected actual =>
    [("context", context), ("expected", expected), ("actual", actual)]
  | segmentsNotConnected segment last first =>
    [("segment", segment), ("end", Json.list .ofFloat last), ("start", Json.list .ofFloat first)]
  | insufficientCoordinates segment required found =>
    [("segment", Json.ofOption .natural segment), ("required", required), ("found", found)]
  | modelGroupExpected | wildcardNotPermitted | wildcardOrGroupNotPermitted
  | metadataValueUnspecified | noSegments => []

/-- An ordinal behind the subject, if there is one. -/
def place (what : String) : Option Nat → String
  | none => ""
  | some i => s!" {what} {i}"

/-- The number of the segment behind segment `k`. Numbers have 64 bits, and zero follows the
greatest one. -/
def following (k : Nat) : Nat := (k + 1) % UInt64.size

theorem following_eq {k : Nat} (h : k + 1 < UInt64.size) : following k = k + 1 :=
  Nat.mod_eq_of_lt h

example : following (UInt64.size - 1) = 0 := by decide +kernel

/-- The message about a fault in `subject`. -/
def message (subject : String) : Fault → String
  | attributeRequired name optionalValue =>
    (if optionalValue then "Property value has minOccurs = 0. " else "") ++
      s!"Attribute {name.prefixed} is required in type definition {subject}"
  | attributeProhibited name =>
    s!"Attribute {name.prefixed} is not permitted in type definition {subject}"
  | modelGroupExpected => s!"Expected a model group in the content model of {subject}"
  | sequenceExpected found =>
    s!"Expected a sequence compositor in the content model of {subject}, found {found.text}"
  | tooManyParticles count =>
    s!"Content model of {subject} must contain exactly one particle, found {count}"
  | wildcardNotPermitted => s!"Wildcard component not permitted in property type: {subject}"
  | wildcardOrGroupNotPermitted =>
    s!"Only element declarations are allowed in the property value of {subject}"
  | disallowedSubstitution candidate head =>
    s!"{candidate.prefixed} cannot substitute for {head.prefixed} in property type {subject}"
  | substitutionError element head => s!"Element {element.prefixed} does not substitute for {head}"
  | metadataValueUnspecified => s!"Metadata property {subject} has an empty content model"
  | unknownCrs srsName =>
    subject ++ " has unknown CRS (srsName: " ++ srsName.getD "none" ++ ")"
  | coordinateDimensionMismatch index expected actual =>
    subject ++ position index ++
      s!": coordinate tuple has {actual} ordinate(s) but the CRS dimension is {expected}"
  | positionOutsideValidArea index ordinates area =>
    subject ++ position index ++
      s!" {Layout.marked.list ordinates} is not covered by valid area of CRS: {area}"
  | invalidEnvelopeOrdering i lower upper =>
    s!"{subject}: expected lowerCorner[{i}] < upperCorner[{i}] " ++
      s!"({Layout.plain.render lower} < {Layout.plain.render upper})"
  | dimensionMismatch context expected actual =>
    s!"{subject}: dimension of {context} is {actual} but {expected} was expected"
  | noSegments => s!"{subject} has no curve segments"
  | segmentsNotConnected k last first =>
    s!"{subject}: end of segment {k} {Layout.marked.list last} does not match " ++
      s!"start of segment {following k} {Layout.marked.list first}"
  | insufficientCoordinates segment required found =>
    subject ++ place "segment" segment ++
      s!" has {found} coordinate tuple(s); at least {required} are required"
where
  position (index : Option Nat) : String := index.elim "" fun i => s!" position [{i}]"

end Fault

namespace Violation

def code (v : Violation) : String := v.fault.code

def message (v : Violation) : String := v.fault.message v.subject

def toJson (v : Violation) : Json :=
  .object (("kind", .string v.fault.label) :: v.fault.members ++ [("subject", .string v.subject)])

end Violation

end GmlCheck
