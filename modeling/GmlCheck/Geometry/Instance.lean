import GmlCheck.Crs.Basic

/-!
# Geometries

A geometry is a point, a line string, a curve of segments or an envelope; an
instance adds its identity and its reference system.
-/

namespace GmlCheck

/-- How a curve runs between the positions of a segment. -/
inductive Interpolation where
  | linear
  | geodesic
  | circularArc3Points
  | cubicSpline
  /-- Positions are kept and not interpreted. -/
  | unsupported
  deriving DecidableEq, Repr

namespace Interpolation

def text : Interpolation → String
  | linear => "linear"
  | geodesic => "geodesic"
  | circularArc3Points => "circularArc3Points"
  | cubicSpline => "cubicSpline"
  | unsupported => "unsupported"

/-- Reads the name of a supported interpolation. -/
def ofText? (s : String) : Option Interpolation :=
  [linear, geodesic, circularArc3Points, cubicSpline].find? (·.text == s)

/-- How many positions a segment needs. -/
def minimum? : Interpolation → Option Nat
  | linear | geodesic | cubicSpline => some 2
  | circularArc3Points => some 3
  | unsupported => none

def isSupported (i : Interpolation) : Bool := i != unsupported

theorem minimum?_isSome (i : Interpolation) : i.minimum?.isSome = i.isSupported := by
  cases i <;> rfl

end Interpolation

/-- A piece of a curve with one interpolation. -/
structure Segment where
  interpolation : Interpolation
  positions : List Position
  deriving BEq, Repr

namespace Segment

def first? (s : Segment) : Option Position := s.positions.head?

def last? (s : Segment) : Option Position := s.positions.getLast?

end Segment

inductive Geometry where
  | point (position : Position)
  | lineString (positions : List Position)
  | curve (segments : List Segment)
  | envelope (lower upper : Position)
  deriving BEq, Repr

namespace Geometry

/-- The kinds of geometry, by the names of their elements. -/
inductive Kind where
  | point
  | lineString
  | curve
  | envelope
  deriving DecidableEq, Repr

def Kind.text : Kind → String
  | point => "Point"
  | lineString => "LineString"
  | curve => "Curve"
  | envelope => "Envelope"

def kind : Geometry → Kind
  | point _ => .point
  | lineString _ => .lineString
  | curve _ => .curve
  | envelope _ _ => .envelope

/-- Every position, in document order. -/
def positions : Geometry → List Position
  | point p => [p]
  | lineString ps => ps
  | curve ss => ss.flatMap Segment.positions
  | envelope lower upper => [lower, upper]

end Geometry

/-- A name with the identity of the element that it names. -/
def labelled (name : String) : Option String → String
  | none => name
  | some id => name ++ "[@gml:id='" ++ id ++ "']"

structure Instance where
  id : Option String
  /-- The reference to the system, which may be inherited. -/
  srsName : Option String
  /-- The system; none if the reference is missing or unknown. -/
  crs : Option Crs
  geometry : Geometry

namespace Instance

/-- A geometry without identity and reference system. -/
def plain (g : Geometry) : Instance := ⟨none, none, none, g⟩

/-- A geometry in the system that a reference names. -/
def resolved (resolve : String → Option Crs) (srsName : Option String) (g : Geometry) : Instance :=
  ⟨none, srsName, srsName.bind resolve, g⟩

/-- The same geometry in a system, referred to by its identifier. -/
def withCrs (c : Crs) (i : Instance) : Instance :=
  { i with srsName := some c.identifier, crs := some c }

/-- The name by which findings refer to the instance. -/
def label (i : Instance) : String :=
  labelled i.geometry.kind.text i.id

end Instance

end GmlCheck
