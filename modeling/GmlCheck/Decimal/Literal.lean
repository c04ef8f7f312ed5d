/-!
# Number literals

An ordinate is written in decimal: an optional sign, digits with an optional
point and an optional exponent, or one of `inf`, `infinity` and `nan` in any
case. A literal reads as the nearest double, too large a one as an infinity.
-/

namespace GmlCheck

/-- The digits, the point and the exponent of a number as written: the number
`mantissa * 10 ^ exponent`. -/
structure Literal where
  mantissa : Nat
  exponent : Int
  deriving DecidableEq, Repr

namespace Literal

/-- The number that ASCII digits denote. -/
def ofDigits (ds : List Char) : Nat :=
  ds.foldl (fun n c => 10 * n + (c.toNat - '0'.toNat)) 0

/-- The sign that begins `s`, and the rest. -/
def sign (s : List Char) : Bool × List Char :=
  match s with
  | '-' :: r => (true, r)
  | '+' :: r => (false, r)
  | r => (false, r)

/-- An exponent, behind its mark: an optional sign and at least one digit. -/
def exponent? (s : List Char) : Option Int :=
  let (negative, ds) := sign s
  if ds.isEmpty || ! ds.all Char.isDigit then none
  else some (if negative then -(ofDigits ds) else ofDigits ds)

/-- An unsigned decimal number: digits on at least one side of the point. -/
def unsigned? (s : List Char) : Option Literal :=
  let whole := s.takeWhile Char.isDigit
  let rest := s.dropWhile Char.isDigit
  let (fraction, rest) :=
    match rest with
    | '.' :: r => (r.takeWhile Char.isDigit, r.dropWhile Char.isDigit)
    | r => ([], r)
  if whole.isEmpty && fraction.isEmpty then none
  else
    let made (e : Int) : Literal := ⟨ofDigits (whole ++ fraction), e - fraction.length⟩
    match rest with
    | [] => some (made 0)
    | c :: r => if c = 'e' || c = 'E' then (exponent? r).map made else none

/-- The nearest double. -/
def toFloat (l : Literal) : Float :=
  Float.ofScientific l.mantissa (l.exponent < 0) l.exponent.natAbs

end Literal

/-- A number without its sign, infinity and not-a-number included. -/
def unsignedFloat? (s : List Char) : Option Float :=
  match String.ofList (s.map Char.toLower) with
  | "inf" | "infinity" => some (1.0 / 0.0)
  | "nan" => some (0.0 / 0.0)
  | _ => (Literal.unsigned? s).map Literal.toFloat

/-- Reads a number literal. -/
def readFloat? (s : List Char) : Option Float :=
  let (negative, size) := Literal.sign s
  (unsignedFloat? size).map fun x => if negative then -x else x

end GmlCheck
