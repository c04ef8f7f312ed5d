/-!
# JSON values

Numbers are kept in two kinds, as their texts are: naturals, and reals that a
point or an exponent marks.
-/

namespace GmlCheck

inductive Json where
  | null
  | bool (b : Bool)
  | natural (n : Nat)
  | real (x : Float)
  | string (s : String)
  | array (items : List Json)
  | object (members : List (String × Json))
  /-- A string, or an object with a key, that escapes half of a surrogate pair: it has no text. -/
  | unpaired
  deriving BEq, Repr

namespace Json

instance : Inhabited Json := ⟨null⟩

instance : Coe String Json := ⟨string⟩
instance : Coe Bool Json := ⟨bool⟩
instance : Coe Nat Json := ⟨natural⟩

/-- A double; no number of JSON denotes an infinity or not-a-number. -/
def ofFloat (x : Float) : Json :=
  if x.isFinite then real x else null

def ofOption (f : α → Json) : Option α → Json
  | none => null
  | some a => f a

def list (f : α → Json) (xs : List α) : Json :=
  array (xs.map f)

/-- The member of an object with the given key; the first one if it is repeated. -/
def member? : Json → String → Option Json
  | object ms, key => ms.lookup key
  | _, _ => none

def toBool? : Json → Option Bool
  | bool b => some b
  | _ => none

def toNat? : Json → Option Nat
  | natural n => some n
  | _ => none

def toText? : Json → Option String
  | string s => some s
  | _ => none

def toList? : Json → Option (List Json)
  | array xs => some xs
  | _ => none

/-- A number in the range of doubles. -/
def toFloat? : Json → Option Float
  | natural n => some (Float.ofNat n)
  | real x => if x.isFinite then some x else none
  | _ => none

/-- The fields of a record: an object holds them under their names, each at most once and
beside others, an array holds the first few of them in order and nothing else. -/
def fields? (names : List String) : Json → Option (List (Option Json))
  | object ms => names.mapM fun name =>
    match ms.filter (·.1 == name) with
    | [] => some none
    | [m] => some (some m.2)
    | _ => none
  | array items =>
    if items.length ≤ names.length then some ((List.range names.length).map (items[·]?)) else none
  | _ => none

end Json

end GmlCheck
