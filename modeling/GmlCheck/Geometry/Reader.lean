import GmlCheck.Geometry.Instance
import GmlCheck.Xml.Tree

/-!
# Geometries in documents

A geometry is read from an element and the place where it stands: the kind comes
from the name of the element or else from its content, the reference system from
the element, what is above it, or the envelopes that bound what is above it.
-/

namespace GmlCheck

open Xml

/-- The attribute that refers to a reference system. -/
def srsNameAttribute : QName := .bare "srsName"

def srsDimensionAttribute : QName := .bare "srsDimension"

def idAttribute : QName := .gml "id"

/-- The first child element with the name in the namespace of GML. -/
def Xml.Node.gmlChild? (n : Node) (name : String) : Option Node :=
  n.child? (.gml name)

namespace Xml.Place

/-- The reference on the envelope that bounds a node. -/
def boundReference? (n : Node) : Option String :=
  ((n.gmlChild? "boundedBy").bind (·.gmlChild? "Envelope")).bind (·.attribute? srsNameAttribute)

/-- The reference in effect: the nearest one from the element upwards, and only if there
is none the one on the nearest envelope that bounds something above. -/
def crsReference? (p : Place) : Option String :=
  (p.inherited? srsNameAttribute).or (p.above.findSome? boundReference?)

end Xml.Place

/-- The places of the elements that have one of the names, in document order. -/
def findElements (document : Node) (names : List QName) : List Place :=
  document.allPlaces.filter fun p => names.any p.node.hasName

namespace Geometry

def Kind.all : List Kind := [.point, .lineString, .curve, .envelope]

/-- The name of the elements of a kind. -/
def Kind.elementName (k : Kind) : QName := .gml k.text

/-- The kind of a geometry by what its element holds. -/
def kindByContent? (n : Node) : Option Kind :=
  if (n.gmlChild? "segments").isSome then some .curve
  else if (n.gmlChild? "lowerCorner").isSome then some .envelope
  else if (n.gmlChild? "posList").isSome || 1 < (n.childrenNamed (.gml "pos")).length then
    some .lineString
  else if (n.gmlChild? "pos").isSome then some .point
  else none

/-- The kind by name, and for other elements the kind by content. -/
def kind? (n : Node) : Option Kind :=
  (Kind.all.find? fun k => n.hasName k.elementName).or (kindByContent? n)

/-! ## Dimensions -/

/-- A natural number below `2 ^ 64`, with or without a plus sign. -/
def dimension? (s : List Char) : Option Nat :=
  let ds := match s with
    | '+' :: r => r
    | r => r
  if ds.isEmpty || ! ds.all Char.isDigit || Literal.ofDigits ds ≥ UInt64.size then none
  else some (Literal.ofDigits ds)

def readDimension (text : String) : Except Error Nat :=
  match dimension? (Text.trimChars text.toList) with
  | some d => .ok d
  | none => .error (.geometry (.badDimension text))

/-- The dimension that an element states, or else the given one. -/
def statedDimension (n : Node) (otherwise : Nat) : Except Error Nat :=
  match n.attribute? srsDimensionAttribute with
  | some text => readDimension text
  | none => .ok otherwise

/-! ## Positions -/

def readPosition (n : Node) : Except Error Position :=
  Position.read n.leadingText

/-- The position in a child that must be there. -/
def child (n : Node) (name : String) : Except Error Node :=
  match n.gmlChild? name with
  | some c => .ok c
  | none => .error (.geometry (.missingChild n.localName name))

/-- The positions in a list, if there is one, and else those of single children. -/
def readPositions (n : Node) (dimension : Nat) : Except Error (List Position) :=
  match n.gmlChild? "posList" with
  | some list => do Position.readList list.leadingText (← statedDimension list dimension)
  | none => (n.childrenNamed (.gml "pos")).mapM readPosition

/-! ## Segments -/

def interpolationOfName (name : String) : Interpolation :=
  match name with
  | "LineStringSegment" => .linear
  | "GeodesicString" | "Geodesic" => .geodesic
  | "Arc" | "ArcString" => .circularArc3Points
  | "CubicSpline" => .cubicSpline
  | _ => .unsupported

/-- The interpolation that a segment states, if it is known, and else that of its name. -/
def interpolationOf (n : Node) : Interpolation :=
  ((n.attribute? (.bare "interpolation")).bind Interpolation.ofText?).getD
    (interpolationOfName n.localName)

def readSegment (dimension : Nat) (n : Node) : Except Error Segment := do
  return ⟨interpolationOf n, ← readPositions n (← statedDimension n dimension)⟩

/-- The segments of a curve; none if the element that holds them is missing. -/
def readSegments (n : Node) (dimension : Nat) : Except Error (List Segment) :=
  match n.gmlChild? "segments" with
  | some s => (s.children.filter Node.isElement).mapM (readSegment dimension)
  | none => .ok []

/-! ## Geometries -/

def readAs (n : Node) (dimension : Nat) : Kind → Except Error Geometry
  | .point => do return .point (← readPosition (← child n "pos"))
  | .lineString => do return .lineString (← readPositions n dimension)
  | .curve => do return .curve (← readSegments n dimension)
  | .envelope => do
    let lower ← child n "lowerCorner"
    let upper ← child n "upperCorner"
    return .envelope (← readPosition lower) (← readPosition upper)

/-- The reference that a geometry of a kind goes by: envelopes do not inherit any. -/
def srsName? (p : Place) : Kind → Option String
  | .envelope => p.node.attribute? srsNameAttribute
  | _ => p.crsReference?

end Geometry

namespace Instance

open GmlCheck.Geometry (statedDimension readAs kind? srsName?)

/-- The dimension of positions where nothing tells it. -/
def assumedDimension : Nat := 2

/-- Reads the geometry at a place. -/
def read (resolve : String → Option Crs) (p : Place) : Except Error Instance := do
  if ! p.node.isElement then throw (.geometry .notAnElement)
  let some kind := kind? p.node | throw (.geometry (.unsupportedElement p.node.localName))
  let srsName := srsName? p kind
  let inCrs := ((srsName.bind resolve).map Crs.dimension).getD assumedDimension
  let dimension ← statedDimension p.node inCrs
  let geometry ← readAs p.node dimension kind
  return { Instance.resolved resolve srsName geometry with id := p.node.attribute? idAttribute }

/-- What reads, in order; what does not read is left out. -/
def readAll (resolve : String → Option Crs) (ps : List Place) : List Instance :=
  ps.filterMap fun p => (read resolve p).toOption

/-- The label of an element that does not read. -/
def elementLabel (n : Node) : String :=
  labelled n.localName (n.attribute? idAttribute)

end Instance

end GmlCheck
