import GmlCheck.Decimal.Shortest

/-!
# How doubles are written

A `Layout` holds the decisions that the digits of a number leave open. Three
occur: `Layout.plain` in running text, `Layout.marked` where a number must be
seen to be one (lists of ordinates), and `Layout.json`.
-/

namespace GmlCheck

/-- How a decimal is laid out. -/
structure Layout where
  /-- The exponents of the leading digit that are written without an exponent mark;
  all of them if absent. -/
  positional : Option (Int × Int)
  /-- Integral numbers end in `.0`. -/
  pointZero : Bool
  /-- Positive exponents carry a sign. -/
  plusSign : Bool
  tie : Tie
  deriving DecidableEq, Repr

namespace Layout

/-- Never an exponent, no point in integral numbers. -/
def plain : Layout := ⟨none, false, false, .away⟩

/-- A point or an exponent in every number. -/
def marked : Layout := ⟨some (-4, 15), true, false, .away⟩

/-- JSON numbers that are not integers to a reader. -/
def json : Layout := ⟨some (-5, 15), true, true, .toEven⟩

def isPositional (l : Layout) (lead : Int) : Bool :=
  match l.positional with
  | none => true
  | some (low, high) => low ≤ lead && lead ≤ high

def zeros (n : Int) : List Char :=
  List.replicate n.toNat '0'

/-- Digits and point, with `lead` the exponent of the leading digit. -/
def positionalText (l : Layout) (digits : List Char) (lead : Int) : List Char :=
  let after := lead + 1 - digits.length
  if 0 ≤ after then digits ++ zeros after ++ if l.pointZero then ".0".toList else []
  else if 0 ≤ lead then
    digits.take (lead + 1).toNat ++ '.' :: digits.drop (lead + 1).toNat
  else "0.".toList ++ zeros (-lead - 1) ++ digits

/-- One digit before the point, then the exponent of ten. -/
def exponentText (l : Layout) (digits : List Char) (lead : Int) : List Char :=
  let rest := digits.drop 1
  digits.take 1 ++ (if rest.isEmpty then [] else '.' :: rest) ++
    'e' :: (if l.plusSign && 0 < lead then ['+'] else []) ++ (toString lead).toList

/-- A decimal of non-negative value. -/
def decimal (l : Layout) (d : Decimal) : List Char :=
  let digits := Nat.toDigits 10 d.digits
  let lead := d.exponent + digits.length - 1
  if l.isPositional lead then l.positionalText digits lead else l.exponentText digits lead

/-- The text of a double. -/
def render (l : Layout) (x : Float) : String :=
  if x.isNaN then "NaN"
  else
    let size := if x.isInf then "inf".toList else l.decimal ((magnitude x).shortest l.tie)
    String.ofList (if isNegative x then '-' :: size else size)

/-- Where integral numbers end in `.0`, every number shows a point or an exponent. -/
theorem marks_mem_decimal {l : Layout} (h : l.pointZero = true) (d : Decimal) :
    '.' ∈ l.decimal d ∨ 'e' ∈ l.decimal d := by
  simp only [decimal]
  split
  · refine .inl ?_
    simp only [positionalText, h, if_true]
    split
    · simp
    · split <;> simp
  · refine .inr ?_
    simp [exponentText]

example : marked.render (-0.0) = "-0.0" := by decide +kernel
example : json.render 1e16 = "1e+16" := by decide +kernel

/-- A bracketed list of doubles. -/
def list (l : Layout) (xs : List Float) : String :=
  "[" ++ ", ".intercalate (xs.map l.render) ++ "]"

end Layout

end GmlCheck
