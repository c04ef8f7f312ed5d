import GmlCheck.Text.Blank
import GmlCheck.Text.DecimalDigit
import GmlCheck.Text.Fold

/-!
# Identifiers of reference systems

A reference system has several names: a code such as `EPSG:4326`, names in the
two `opengis` schemes with a version in them, and a reference into an old
dictionary. `abbreviate` brings them all to the code. Names are read up to case.
-/

namespace GmlCheck.Crs

/-- A way to name a reference system: a lead, perhaps a version, and a code. -/
structure Form where
  lead : String
  /-- The character behind the version, which the version does not hold; and
  whether a version is required. -/
  version : Option (Char × Bool)
  deriving Repr

namespace Form

/-- What stands behind a version that `stop` ends. -/
def afterVersion? (stop : Char) (required : Bool) (s : List Char) : Option (List Char) :=
  if required && s.head? == some stop then none
  else match s.dropWhile (· != stop) with
    | [] => none
    | _ :: code => some code

/-- The code of a name in this form. -/
def code? (f : Form) (s : List Char) : Option (List Char) :=
  (Text.afterFolded f.lead.toList s).bind fun r =>
    match f.version with
    | none => some r
    | some (stop, required) => afterVersion? stop required r

end Form

/-- The forms of the systems of an authority that uses versions. -/
def versionedForms (authority : String) : List Form := [
  ⟨"urn:ogc:def:crs:" ++ authority ++ ":", some (':', false)⟩,
  ⟨"http://www.opengis.net/def/crs/" ++ authority ++ "/", some ('/', true)⟩,
  ⟨"https://www.opengis.net/def/crs/" ++ authority ++ "/", some ('/', true)⟩]

def epsgForms : List Form :=
  versionedForms "EPSG" ++ [
    ⟨"http://www.opengis.net/gml/srs/epsg.xml#", none⟩,
    ⟨"https://www.opengis.net/gml/srs/epsg.xml#", none⟩,
    ⟨"EPSG:", none⟩]

def isCrs84Code (code : List Char) : Bool :=
  Text.afterFolded "CRS84".toList code == some []

/-- The names of the system with longitude before latitude. -/
def isCrs84 (s : List Char) : Bool :=
  ((versionedForms "OGC").any fun f => (f.code? s).any isCrs84Code) ||
    Text.afterFolded "CRS:84".toList s == some []

/-- The digits, of any script, of a name that stands for an EPSG code. -/
def epsgCode? (s : List Char) : Option (List Char) :=
  epsgForms.findSome? fun f =>
    (f.code? s).filter fun code => ! code.isEmpty && code.all Text.isDecimalDigit

/-- The code that a name stands for, or the name without blanks around it. -/
def abbreviate (identifier : String) : String :=
  let s := Text.trimChars identifier.toList
  if isCrs84 s then "CRS:84"
  else match epsgCode? s with
    | some code => String.ofList ("EPSG:".toList ++ code)
    | none => String.ofList s

end GmlCheck.Crs
