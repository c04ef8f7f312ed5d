/-!
# Blank characters

Text between markup is divided at *blanks*: the characters with the Unicode
property `White_Space`. `words` are the maximal runs between blanks, `trim`
drops the blanks at both ends.
-/

namespace GmlCheck.Text

/-- The Unicode property `White_Space`. -/
def isBlank (c : Char) : Bool :=
  let n := c.toNat
  (0x09 ≤ n && n ≤ 0x0D) || n == 0x20 || n == 0x85 || n == 0xA0 || n == 0x1680 ||
    (0x2000 ≤ n && n ≤ 0x200A) || n == 0x2028 || n == 0x2029 || n == 0x202F ||
    n == 0x205F || n == 0x3000

/-- Drops the blanks at both ends. -/
def trimChars (s : List Char) : List Char :=
  ((s.dropWhile isBlank).reverse.dropWhile isBlank).reverse

/-- Drops the blanks at both ends. -/
def trim (s : String) : String :=
  String.ofList (trimChars s.toList)

/-! ## words -/

/-- The pieces between single blanks, empty ones included; never the empty list. -/
def pieces : List Char → List (List Char)
  | [] => [[]]
  | c :: r =>
    if isBlank c then [] :: pieces r
    else match pieces r with
      | [] => [[c]]
      | p :: ps => (c :: p) :: ps

theorem pieces_ne_nil (s : List Char) : pieces s ≠ [] := by
  cases s with
  | nil => simp [pieces]
  | cons c r =>
    simp only [pieces]
    split
    · simp
    · split <;> simp

theorem pieces_append_blank (s t : List Char) {w : Char} (hw : isBlank w = true) :
    pieces (s ++ w :: t) = pieces s ++ pieces t := by
  induction s with
  | nil => simp [pieces, hw]
  | cons c r ih =>
    by_cases hc : isBlank c
    · simp [pieces, hc, ih]
    · obtain ⟨p, ps, h⟩ := List.exists_cons_of_ne_nil (pieces_ne_nil r)
      simp [pieces, hc, ih, h]

/-- The maximal runs of characters that are not blank, in order. -/
def words (s : List Char) : List (List Char) :=
  (pieces s).filter (! ·.isEmpty)

theorem words_append_blank (s t : List Char) {w : Char} (hw : isBlank w = true) :
    words (s ++ w :: t) = words s ++ words t := by
  simp [words, pieces_append_blank s t hw]

end GmlCheck.Text
