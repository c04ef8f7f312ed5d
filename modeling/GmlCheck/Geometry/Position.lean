import GmlCheck.Decimal.Literal
import GmlCheck.Error
import GmlCheck.Text.Blank

/-!
# Positions

A position is a tuple of ordinates. Texts hold one position, or several of one
dimension in a row.
-/

namespace GmlCheck

structure Position where
  ordinates : List Float
  deriving BEq, Repr

namespace Position

def dimension (p : Position) : Nat := p.ordinates.length

/-- The first `d` ordinates. -/
def truncated (p : Position) (d : Nat) : Position := ⟨p.ordinates.take d⟩

/-- As many ordinates on both sides, none of them farther apart than the tolerance. -/
def near (tolerance : Float) (p q : Position) : Bool :=
  p.dimension == q.dimension &&
    (p.ordinates.zip q.ordinates).all fun (a, b) => (a - b).abs ≤ tolerance

/-- The ordinates in parentheses. -/
def text (p : Position) : String :=
  "(" ++ ", ".intercalate (p.ordinates.map Layout.plain.render) ++ ")"

/-! ## Reading -/

def readOrdinate (token : List Char) : Except Error Float :=
  match readFloat? token with
  | some x => .ok x
  | none => .error (.geometry (.badOrdinate (String.ofList token)))

/-- The numbers between blanks; the first word that is none is the fault. -/
def readOrdinates (text : List Char) : Except Error (List Float) :=
  (Text.words text).mapM readOrdinate

/-- Reads one position. -/
def read (text : String) : Except Error Position := do
  return ⟨← readOrdinates text.toList⟩

/-- The successive pieces of length `d`; a shorter rest is left out. -/
def chunks (d : Nat) (xs : List α) : List (List α) :=
  (List.range (xs.length / d)).map fun i => (xs.drop (i * d)).take d

/-- Reads positions of dimension `d` in a row. -/
def readList (text : String) (d : Nat) : Except Error (List Position) :=
  if d = 0 then .error (.geometry .zeroDimension)
  else do
    let xs ← readOrdinates text.toList
    if xs.length % d = 0 then .ok ((chunks d xs).map Position.mk)
    else .error (.geometry (.ragged xs.length d))

end Position

end GmlCheck
