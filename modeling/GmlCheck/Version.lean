import GmlCheck.Text.Blank

/-!
# Versions of GML
-/

namespace GmlCheck

/-- The versions of GML that share the namespace of GML 3.2. -/
inductive Version where
  | v3_2_1
  | v3_2_2
  deriving DecidableEq, Repr

namespace Version

/-- The version that is assumed. -/
def assumed : Version := v3_2_1

def text : Version → String
  | v3_2_1 => "3.2.1"
  | v3_2_2 => "3.2.2"

def ofText? (s : String) : Option Version :=
  if s = "3.2.1" then some v3_2_1 else if s = "3.2.2" then some v3_2_2 else none

/-- Reads a version that blanks may surround. -/
def read? (s : String) : Option Version :=
  ofText? (Text.trim s)

theorem ofText?_text (v : Version) : ofText? v.text = some v := by
  cases v <;> decide

end Version

end GmlCheck
