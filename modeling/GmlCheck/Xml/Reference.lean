import GmlCheck.Xml.Name

/-!
# References and line ends

Character references and the five predefined entities are replaced in text and
in attribute values. Beforehand line ends become line feeds in text, and blanks
become spaces in attribute values; characters that a reference gives stay.
-/

namespace GmlCheck.Xml

def hexDigit? (c : Char) : Option Nat :=
  if c.isDigit then some (c.toNat - '0'.toNat)
  else if 'a' ≤ c ∧ c ≤ 'f' then some (c.toNat - 'a'.toNat + 10)
  else if 'A' ≤ c ∧ c ≤ 'F' then some (c.toNat - 'A'.toNat + 10)
  else none

def decimalDigit? (c : Char) : Option Nat :=
  if c.isDigit then some (c.toNat - '0'.toNat) else none

/-- The number that digits denote; there is at least one. -/
def number? (base : Nat) (digit? : Char → Option Nat) (s : List Char) : Option Nat :=
  if s.isEmpty then none
  else s.foldlM (fun n c => (digit? c).map (base * n + ·)) 0

/-- The character with a number of 32 bits; a replacement if there is no such character. -/
def charOfNumber? (n : Nat) : Option Char :=
  if n ≥ UInt32.size then none
  else
    let c := if n.isValidChar then Char.ofNat n else '\uFFFD'
    if isAllowed c then some c else none

/-- What a reference stands for, given what is written between `&` and `;`. -/
def referenced? (s : List Char) : Option Char :=
  match s with
  | '#' :: 'x' :: ds => (number? 16 hexDigit? ds).bind charOfNumber?
  | '#' :: ds => (number? 10 decimalDigit? ds).bind charOfNumber?
  | _ =>
    match String.ofList s with
    | "quot" => some '"'
    | "amp" => some '&'
    | "apos" => some '\''
    | "lt" => some '<'
    | "gt" => some '>'
    | _ => none

/-- Replaces references. `opened` holds what has been read behind an `&`, the last first. -/
def replaceFrom? : (opened : Option (List Char)) → List Char → Option (List Char)
  | none, [] => some []
  | some _, [] => none
  | none, c :: r => if c = '&' then replaceFrom? (some []) r else (c :: ·) <$> replaceFrom? none r
  | some name, c :: r =>
    if c = ';' then do return (← referenced? name.reverse) :: (← replaceFrom? none r)
    else replaceFrom? (some (c :: name)) r

def replaceReferences? (s : List Char) : Option (List Char) :=
  replaceFrom? none s

/-- Every line end becomes one line feed. -/
def lineFeeds : List Char → List Char
  | [] => []
  | '\r' :: '\n' :: r => '\n' :: lineFeeds r
  | c :: r => (if c = '\r' then '\n' else c) :: lineFeeds r

/-- Every line end and every tab becomes one space. -/
def spaces (s : List Char) : List Char :=
  (lineFeeds s).map fun c => if c = '\n' || c = '\t' then ' ' else c

/-- The text that character data denote. -/
def textOf? (raw : List Char) : Option String :=
  String.ofList <$> replaceReferences? (lineFeeds raw)

/-- The value that an attribute has. -/
def valueOf? (raw : List Char) : Option String :=
  String.ofList <$> replaceReferences? (spaces raw)

end GmlCheck.Xml
