/-!
# Characters and names of XML
-/

namespace GmlCheck.Xml

/-- The blanks of markup. -/
def isSpace (c : Char) : Bool :=
  c = ' ' || c = '\t' || c = '\n' || c = '\r'

/-- The characters that a document may hold. -/
def isAllowed (c : Char) : Bool :=
  if c.toNat < 0x20 then isSpace c else c.toNat ≠ 0xFFFE && c.toNat ≠ 0xFFFF

/-- The characters beyond ASCII that a name may begin with. -/
def nameStartRanges : List (Nat × Nat) := [
  (0xC0, 0xD6), (0xD8, 0xF6), (0xF8, 0x2FF), (0x370, 0x37D), (0x37F, 0x1FFF), (0x200C, 0x200D),
  (0x2070, 0x218F), (0x2C00, 0x2FEF), (0x3001, 0xD7FF), (0xF900, 0xFDCF), (0xFDF0, 0xFFFD),
  (0x10000, 0xEFFFF)]

/-- The characters beyond ASCII that a name may hold, but not begin with. -/
def nameOtherRanges : List (Nat × Nat) := [(0xB7, 0xB7), (0x300, 0x36F), (0x203F, 0x2040)]

def inRanges (ranges : List (Nat × Nat)) (c : Char) : Bool :=
  ranges.any fun (low, high) => low ≤ c.toNat && c.toNat ≤ high

def isNameStart (c : Char) : Bool :=
  c.isAlpha || c = ':' || c = '_' || inRanges nameStartRanges c

def isNameChar (c : Char) : Bool :=
  isNameStart c || c.isDigit || c = '-' || c = '.' || inRanges nameOtherRanges c

/-- A name as written, divided at its colon. The prefix is empty if there is none. -/
structure RawName where
  lead : String
  name : String
  deriving DecidableEq, Repr

/-- An empty part, or one that begins as a name does. -/
def beginsName (s : List Char) : Bool :=
  match s with
  | [] => true
  | c :: _ => isNameStart c

/-- Divides a name at its only colon, if it has one. -/
def RawName.ofChars? (s : List Char) : Option RawName :=
  let lead := s.takeWhile (· ≠ ':')
  match s.dropWhile (· ≠ ':') with
  | [] => if s.isEmpty || ! beginsName s then none else some ⟨"", String.ofList s⟩
  | _ :: name =>
    if name.isEmpty || name.contains ':' || ! beginsName name || ! beginsName lead then none
    else some ⟨String.ofList lead, String.ofList name⟩

end GmlCheck.Xml
