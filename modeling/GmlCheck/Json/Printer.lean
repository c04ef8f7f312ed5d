import GmlCheck.Decimal.Layout
import GmlCheck.Json.Value

/-!
# Writing JSON

The members of an object are written in the order of their keys. `compact`
writes no blanks, `pretty` one item a line with two blanks of indentation.
-/

namespace GmlCheck.Json

def hexDigits (n : Nat) : List Char :=
  let ds := Nat.toDigits 16 n
  List.replicate (4 - ds.length) '0' ++ ds

def escapeChar (c : Char) : List Char :=
  match c with
  | '"' => ['\\', '"']
  | '\\' => ['\\', '\\']
  | '\x08' => ['\\', 'b']
  | '\x0C' => ['\\', 'f']
  | '\n' => ['\\', 'n']
  | '\r' => ['\\', 'r']
  | '\t' => ['\\', 't']
  | c => if c.toNat < 0x20 then '\\' :: 'u' :: hexDigits c.toNat else [c]

/-- A string in quotes; only quotes, backslashes and control characters are escaped. -/
def quote (s : String) : String :=
  String.ofList ('"' :: s.toList.flatMap escapeChar ++ ['"'])

/-- How the items of an array or an object are set out. -/
structure Style where
  /-- Between a key and its value. -/
  colon : String
  /-- The line break and indentation in front of an item at the given depth. -/
  indent : Nat → String

def Style.compact : Style := ⟨":", fun _ => ""⟩

def Style.pretty : Style := ⟨": ", fun depth => "\n" ++ String.ofList (List.replicate (2 * depth) ' ')⟩

/-- Items between brackets; nothing stands between the brackets if there are none. -/
def Style.enclose (st : Style) (left right : String) (depth : Nat) (items : List String) : String :=
  if items.isEmpty then left ++ right
  else left ++ ",".intercalate (items.map (st.indent (depth + 1) ++ ·)) ++ st.indent depth ++ right

mutual

def render (st : Style) (depth : Nat) : Json → String
  | null | unpaired => "null"
  | bool b => if b then "true" else "false"
  | natural n => toString n
  | real x => if x.isFinite then Layout.json.render x else "null"
  | string s => quote s
  | array items => st.enclose "[" "]" depth (renderItems st (depth + 1) items)
  | object members =>
    let written := (renderMembers st (depth + 1) members).mergeSort fun a b => a.1 ≤ b.1
    st.enclose "\x7b" "\x7d" depth (written.map (·.2))

def renderItems (st : Style) (depth : Nat) : List Json → List String
  | [] => []
  | j :: js => render st depth j :: renderItems st depth js

/-- Each member with its key, by which it is placed. -/
def renderMembers (st : Style) (depth : Nat) : List (String × Json) → List (String × String)
  | [] => []
  | (key, j) :: ms =>
    (key, quote key ++ st.colon ++ render st depth j) :: renderMembers st depth ms

end

theorem renderItems_eq_map (st : Style) (depth : Nat) (items : List Json) :
    renderItems st depth items = items.map (render st depth) := by
  induction items with
  | nil => rfl
  | cons j js ih => rw [renderItems, ih, List.map_cons]

theorem render_array (st : Style) (depth : Nat) (items : List Json) :
    render st depth (.array items) =
      st.enclose "[" "]" depth (items.map (render st (depth + 1))) := by
  rw [render, renderItems_eq_map]

def compact (j : Json) : String := render .compact 0 j

def pretty (j : Json) : String := render .pretty 0 j

end GmlCheck.Json
