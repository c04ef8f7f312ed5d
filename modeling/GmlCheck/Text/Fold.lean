/-!
# Letters that differ only in case

`sameLetter` compares under Unicode simple case folding where one side is an
ASCII character. Beside the two cases of an ASCII letter the folding joins two
characters to the ASCII range: the long s to `s` and the kelvin sign to `k`.
-/

namespace GmlCheck.Text

/-- The simple case folding of `c`, exact on every character that folds to ASCII. -/
def fold (c : Char) : Char :=
  if c = 'ſ' then 's' else if c = '\u212A' then 'k' else c.toLower

/-- `c` is the ASCII character `a` up to case. -/
def sameLetter (a c : Char) : Bool :=
  fold c == fold a

/-- What is left of `s` behind a leading `lead`, read up to case. -/
def afterFolded : (lead s : List Char) → Option (List Char)
  | [], s => some s
  | _ :: _, [] => none
  | a :: lead, c :: s => if sameLetter a c then afterFolded lead s else none

end GmlCheck.Text
