import GmlCheck.Crs.Identifier
import GmlCheck.Geometry.Position
import GmlCheck.Table

/-!
# Reference systems

A reference system is whatever answers what the checks ask of one (`Crs`). The
systems that are given here have named axes, each with a range of valid values
(`BoundedCrs`). A `Registry` finds systems by any of their names.
-/

namespace GmlCheck

structure Axis where
  name : String
  lowest : Float
  highest : Float
  deriving BEq, Repr

namespace Axis

def unbounded (name : String) : Axis := ⟨name, -(1.0 / 0.0), 1.0 / 0.0⟩

def contains (a : Axis) (x : Float) : Bool :=
  x ≥ a.lowest && x ≤ a.highest

end Axis

/-- What is asked of a reference system. Nothing ties the positions that it contains to its
dimension. -/
structure Crs where
  identifier : String
  /-- The number of its axes. -/
  dimension : Nat
  /-- The position lies in the valid area. -/
  contains : Position → Bool
  /-- The valid area in words. -/
  areaText : String

/-- A system whose valid area is a box over its axes. -/
structure BoundedCrs where
  identifier : String
  axes : List Axis
  deriving BEq, Repr

namespace BoundedCrs

def dimension (b : BoundedCrs) : Nat := b.axes.length

/-- The position has an ordinate for every axis, in the range of that axis. -/
def contains (b : BoundedCrs) (p : Position) : Bool :=
  p.dimension == b.dimension && (b.axes.zip p.ordinates).all fun (a, x) => a.contains x

/-- The ranges of the axes that have a finite bound. -/
def areaText (b : BoundedCrs) : String :=
  let bounded := b.axes.filter fun a => a.lowest.isFinite || a.highest.isFinite
  let range (a : Axis) : String :=
    a.name ++ " [" ++ Layout.plain.render a.lowest ++ ", " ++ Layout.plain.render a.highest ++ "]"
  b.identifier ++ " (" ++ ", ".intercalate (bounded.map range) ++ ")"

def toCrs (b : BoundedCrs) : Crs := ⟨b.identifier, b.dimension, b.contains, b.areaText⟩

instance : Coe BoundedCrs Crs := ⟨toCrs⟩

end BoundedCrs

namespace Crs

/-- The geographic and projected systems in common use. -/
def inCommonUse : List Crs :=
  [ { identifier := "EPSG:4326", axes := [⟨"latitude", -90, 90⟩, ⟨"longitude", -180, 180⟩] },
    { identifier := "EPSG:4979"
      axes := [⟨"latitude", -90, 90⟩, ⟨"longitude", -180, 180⟩, .unbounded "ellipsoidal height"] },
    { identifier := "CRS:84", axes := [⟨"longitude", -180, 180⟩, ⟨"latitude", -90, 90⟩] },
    { identifier := "EPSG:3857"
      axes := [⟨"easting", -20037508.34, 20037508.34⟩, ⟨"northing", -20048966.1, 20048966.1⟩] }
  ].map BoundedCrs.toCrs

/-! ## Registries -/

/-- Reference systems under their abbreviated identifiers. -/
structure Registry where
  table : Table String Crs

namespace Registry

def empty : Registry := ⟨.empty⟩

/-- Puts a system in, in place of the one with the same abbreviation. -/
def register (r : Registry) (c : Crs) : Registry :=
  ⟨r.table.put (abbreviate c.identifier) c⟩

/-- The system that a name stands for. -/
def resolve (r : Registry) (srsName : String) : Option Crs :=
  r.table.get? (abbreviate srsName)

def size (r : Registry) : Nat := r.table.size

theorem resolve_register (r : Registry) (c : Crs) (srsName : String) :
    (r.register c).resolve srsName =
      if abbreviate srsName = abbreviate c.identifier then some c else r.resolve srsName := by
  simp [resolve, register, Table.get?_put]

/-- Knows the systems in common use. -/
def wellKnown : Registry := inCommonUse.foldl register empty

end Registry

end Crs

end GmlCheck
