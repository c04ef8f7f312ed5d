import GmlCheck.Error
import GmlCheck.Json.Parser

/-!
# Settings of the checks
-/

namespace GmlCheck

structure Settings where
  /-- Ordinates beyond the dimension of the reference system are ignored. -/
  truncate : Bool
  /-- How far the ends of adjacent curve segments may be apart, in every ordinate. -/
  tolerance : Float
  /-- The head of the feature elements may itself be a member of a feature collection. -/
  includeHead : Bool
  deriving BEq, Repr

namespace Settings

def standard : Settings := ⟨false, 1e-9, true⟩

def strict : Settings := { standard with tolerance := 0.0 }

def permissive : Settings := { standard with truncate := true, tolerance := 1e-6 }

/-- The settings, unless their tolerance is negative or not finite. -/
def validate (s : Settings) : Except Error Settings :=
  if s.tolerance.isFinite && ! (s.tolerance < 0.0) then .ok s
  else .error (.precondition (.badTolerance s.tolerance) none)

/-- Reads the record of the three settings; what is missing is as in `standard`. -/
def ofJson? (j : Json) : Option Settings := do
  let [truncate, tolerance, includeHead] ←
    j.fields? ["truncate_excess_ordinates", "connectivity_tolerance",
      "include_head_for_feature_members"] | none
  let given {α : Type} (read : Json → Option α) (standard : α) : Option Json → Option α
    | none => some standard
    | some j => read j
  return {
    truncate := ← given Json.toBool? standard.truncate truncate
    tolerance := ← given Json.toFloat? standard.tolerance tolerance
    includeHead := ← given Json.toBool? standard.includeHead includeHead }

/-- Reads and validates the text of settings. -/
def read (text : String) : Except Error Settings :=
  match (Json.parse? text).bind ofJson? with
  | some s => s.validate
  | none => .error .settings

def toJson (s : Settings) : Json :=
  .object [("truncate_excess_ordinates", s.truncate),
    ("connectivity_tolerance", Json.ofFloat s.tolerance),
    ("include_head_for_feature_members", s.includeHead)]

end Settings

end GmlCheck
