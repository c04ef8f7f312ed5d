import GmlCheck.Json.Value

/-!
# Reading JSON

A text is divided into tokens, and a list of tokens is read as a value.
`Json.parse?` takes exactly one value; blanks may stand around every token.
-/

namespace GmlCheck.Json

/-! ## Numbers -/

/-- A number as written: `(-1) ^ negative * whole.fraction * 10 ^ exponent`. -/
structure Numeral where
  negative : Bool
  whole : List Char
  fraction : List Char
  exponent : Int
  /-- A point or an exponent is written. -/
  marked : Bool

namespace Numeral

def digit (c : Char) : Nat := c.toNat - '0'.toNat

/-- Appends digits to a number while it stays below `2 ^ 64`, and counts those left over. -/
def keep : Nat → List Char → Nat × Nat
  | n, [] => (n, 0)
  | n, c :: cs => if 10 * n + digit c < UInt64.size then keep (10 * n + digit c) cs else (n, cs.length + 1)

/-- The digits kept in 64 bits, and the power of ten that they are counted in. -/
def significand (n : Numeral) : Nat × Int :=
  let (whole, dropped) := keep 0 n.whole
  let (kept, left) := keep whole n.fraction
  (kept, n.exponent + dropped - (n.fraction.length - left : Nat))

/-- The double nearest `10 ^ e`, for `e` up to 308. -/
def powerOfTen (e : Nat) : Float := Float.ofScientific 1 false e

/-- Divides by `10 ^ e` in steps of at most `10 ^ 308`. -/
def divided (f : Float) (e : Nat) : Float :=
  if e ≤ 308 then f / powerOfTen e
  else if f == 0.0 then f
  else divided (f / powerOfTen 308) (e - 308)
termination_by e

/-- The significand times its power of ten, rounded after each step; an infinity if the
number is too large for a double. -/
def toFloat (n : Numeral) : Float :=
  let (m, e) := n.significand
  let f := Float.ofNat m
  let size :=
    if e < 0 then divided f e.natAbs
    else if e ≤ 308 then f * powerOfTen e.natAbs
    else if m = 0 then f else 1.0 / 0.0
  if n.negative then -size else size

/-- Unmarked numbers from zero to `2 ^ 64 - 1` are naturals, all others reals. -/
def toJson (n : Numeral) : Json :=
  let (m, e) := n.significand
  if n.negative || n.marked || e ≠ 0 then .real n.toFloat else .natural m

end Numeral

/-- The digits that begin `s`, and the rest. -/
def spanDigits (s : List Char) : List Char × List Char :=
  (s.takeWhile Char.isDigit, s.dropWhile Char.isDigit)

def digitsValue (ds : List Char) : Nat :=
  ds.foldl (fun n c => 10 * n + Numeral.digit c) 0

/-- The fraction behind a whole number. -/
def fraction? : List Char → Option (Option (List Char) × List Char)
  | '.' :: r =>
    let (ds, rest) := spanDigits r
    if ds.isEmpty then none else some (some ds, rest)
  | s => some (none, s)

/-- The exponent behind a number. -/
def exponent? : List Char → Option (Option Int × List Char)
  | c :: r =>
    if c = 'e' || c = 'E' then
      let (negative, r) := match r with
        | '-' :: r => (true, r)
        | '+' :: r => (false, r)
        | r => (false, r)
      let (ds, rest) := spanDigits r
      if ds.isEmpty then none
      else some (some (if negative then -(digitsValue ds) else digitsValue ds), rest)
    else some (none, c :: r)
  | [] => some (none, [])

/-- A number at the beginning of `s`: no needless zeros in front, digits on both sides of a point. -/
def numeral? (s : List Char) : Option (Numeral × List Char) := do
  let (negative, s) := match s with
    | '-' :: r => (true, r)
    | r => (false, r)
  let (whole, s) := spanDigits s
  if whole.isEmpty || (whole.length > 1 && whole.head? = some '0') then none
  else
    let (fraction, s) ← fraction? s
    let (exponent, s) ← exponent? s
    some (⟨negative, whole, fraction.getD [], exponent.getD 0, fraction.isSome || exponent.isSome⟩, s)

/-! ## Strings -/

def hexValue? (c : Char) : Option Nat :=
  if c.isDigit then some (c.toNat - '0'.toNat)
  else if 'a' ≤ c ∧ c ≤ 'f' then some (c.toNat - 'a'.toNat + 10)
  else if 'A' ≤ c ∧ c ≤ 'F' then some (c.toNat - 'A'.toNat + 10)
  else none

def hexValue4? (a b c d : Char) : Option Nat := do
  return 4096 * (← hexValue? a) + 256 * (← hexValue? b) + 16 * (← hexValue? c) + (← hexValue? d)

/-- The character that a backslash and `c` stand for. -/
def escaped? (c : Char) : Option Char :=
  match c with
  | '"' => some '"'
  | '\\' => some '\\'
  | '/' => some '/'
  | 'b' => some '\x08'
  | 'f' => some '\x0C'
  | 'n' => some '\n'
  | 'r' => some '\r'
  | 't' => some '\t'
  | _ => none

/-- The code points of a string, from behind its first quote to its last, and the rest. -/
def stringPoints? : List Char → Option (List Nat × List Char)
  | [] => none
  | '"' :: r => some ([], r)
  | '\\' :: 'u' :: a :: b :: c :: d :: r => do
    let n ← hexValue4? a b c d
    let (ns, rest) ← stringPoints? r
    return (n :: ns, rest)
  | '\\' :: c :: r => do
    let e ← escaped? c
    let (ns, rest) ← stringPoints? r
    return (e.toNat :: ns, rest)
  | c :: r =>
    if c = '\\' || c.toNat < 0x20 then none
    else do
      let (ns, rest) ← stringPoints? r
      return (c.toNat :: ns, rest)

def isHighHalf (n : Nat) : Bool := 0xD800 ≤ n && n < 0xDC00

def isLowHalf (n : Nat) : Bool := 0xDC00 ≤ n && n < 0xE000

/-- Joins the halves of surrogate pairs; there is no text if one half is left over. -/
def joinHalves? : List Nat → Option (List Char)
  | [] => some []
  | [n] => if isHighHalf n || isLowHalf n then none else some [Char.ofNat n]
  | a :: b :: r =>
    if isHighHalf a && isLowHalf b then
      (Char.ofNat (0x10000 + 0x400 * (a - 0xD800) + (b - 0xDC00)) :: ·) <$> joinHalves? r
    else if isHighHalf a || isLowHalf a then none
    else (Char.ofNat a :: ·) <$> joinHalves? (b :: r)

/-! ## Tokens -/

inductive Token where
  | openArray
  | closeArray
  | openObject
  | closeObject
  | comma
  | colon
  | word (j : Json)
  /-- A string with its text, if it has one. -/
  | text (s : Option String)

/-- Blanks between tokens. -/
def isSpace (c : Char) : Bool :=
  c = ' ' || c = '\t' || c = '\n' || c = '\r'

/-- The token at the beginning of `s`, which is not blank. -/
def token? : List Char → Option (Token × List Char)
  | '[' :: r => some (.openArray, r)
  | ']' :: r => some (.closeArray, r)
  | '\x7b' :: r => some (.openObject, r)
  | '\x7d' :: r => some (.closeObject, r)
  | ',' :: r => some (.comma, r)
  | ':' :: r => some (.colon, r)
  | 'n' :: 'u' :: 'l' :: 'l' :: r => some (.word .null, r)
  | 't' :: 'r' :: 'u' :: 'e' :: r => some (.word (.bool true), r)
  | 'f' :: 'a' :: 'l' :: 's' :: 'e' :: r => some (.word (.bool false), r)
  | '"' :: r => do
    let (points, rest) ← stringPoints? r
    return (.text ((joinHalves? points).map String.ofList), rest)
  | s => do
    let (n, rest) ← numeral? s
    return (.word n.toJson, rest)

/-- The tokens of a text; each takes at least one character, so `fuel` may be its length. -/
def tokensWithin? : (fuel : Nat) → List Char → Option (List Token)
  | _, [] => some []
  | 0, _ => none
  | fuel + 1, c :: r =>
    if isSpace c then tokensWithin? fuel r
    else do
      let (t, rest) ← token? (c :: r)
      return t :: (← tokensWithin? fuel rest)

def tokens? (s : List Char) : Option (List Token) :=
  tokensWithin? s.length s

/-! ## Values -/

/-- A value that is begun: the items or members so far, the last one first. -/
inductive Frame where
  | array (items : List Json)
  /-- The key waits for its value; `none` in `members` stands for a key without text. -/
  | object (members : List (Option String × Json)) (key : Option String)

/-- An object with all its keys, if they are texts. -/
def closeObject (members : List (Option String × Json)) : Json :=
  match members.reverse.mapM fun (key, j) => key.map (·, j) with
  | some ms => .object ms
  | none => .unpaired

/-- What may come next. -/
inductive Expected where
  /-- A value; the bracket that closes an array too, if `orClose`. -/
  | value (orClose : Bool)
  /-- A key of an object with the given members; its closing bracket too, if `orClose`. -/
  | key (members : List (Option String × Json)) (orClose : Bool)
  /-- A comma or a closing bracket behind a finished value, or the end. -/
  | next (finished : Json)

/-- Reads tokens with a stack of begun values, the innermost first. -/
def valueFrom? : Expected → List Frame → List Token → Option Json
  | .next j, [], [] => some j
  | .value _, fs, .word j :: ts => valueFrom? (.next j) fs ts
  | .value _, fs, .text s :: ts => valueFrom? (.next (s.elim .unpaired .string)) fs ts
  | .value _, fs, .openArray :: ts => valueFrom? (.value true) (.array [] :: fs) ts
  | .value _, fs, .openObject :: ts => valueFrom? (.key [] true) fs ts
  | .value true, .array items :: fs, .closeArray :: ts => valueFrom? (.next (.array items.reverse)) fs ts
  | .key ms _, fs, .text key :: .colon :: ts => valueFrom? (.value false) (.object ms key :: fs) ts
  | .key ms true, fs, .closeObject :: ts => valueFrom? (.next (closeObject ms)) fs ts
  | .next j, .array items :: fs, .comma :: ts => valueFrom? (.value false) (.array (j :: items) :: fs) ts
  | .next j, .array items :: fs, .closeArray :: ts =>
    valueFrom? (.next (.array (j :: items).reverse)) fs ts
  | .next j, .object ms key :: fs, .comma :: ts => valueFrom? (.key ((key, j) :: ms) false) fs ts
  | .next j, .object ms key :: fs, .closeObject :: ts =>
    valueFrom? (.next (closeObject ((key, j) :: ms))) fs ts
  | _, _, _ => none

/-- The value that a text denotes. -/
def parse? (s : String) : Option Json := do
  valueFrom? (.value false) [] (← tokens? s.toList)

end GmlCheck.Json
