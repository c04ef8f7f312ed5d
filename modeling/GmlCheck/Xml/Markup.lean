import GmlCheck.Xml.Name

/-!
# Markup

A document is a row of tags, character data, comments and processing
instructions. `Markup.read?` takes the text apart; whether the tags match is not
its concern.
-/

namespace GmlCheck.Xml

structure RawAttribute where
  name : RawName
  value : List Char
  deriving Repr

inductive Markup where
  /-- The tag that begins an element, and ends it too if `closed`. -/
  | opening (name : RawName) (attributes : List RawAttribute) (closed : Bool)
  | closing (name : RawName)
  /-- Character data with its references. -/
  | characters (raw : List Char)
  /-- A section of characters without markup. -/
  | literal (content : List Char)
  | comment (content : List Char)
  | instruction (target content : List Char)
  deriving Repr

/-! ## Pieces -/

/-- What is left of `s` behind `lead`. -/
def after? (lead : String) (s : List Char) : Option (List Char) :=
  if lead.toList.isPrefixOf s then some (s.drop lead.length) else none

/-- The characters in front of the first `mark`, and what is behind it. -/
def until? (mark : List Char) : List Char → Option (List Char × List Char)
  | [] => none
  | c :: r =>
    if mark.isPrefixOf (c :: r) then some ([], (c :: r).drop mark.length)
    else if isAllowed c then do
      let (s, rest) ← until? mark r
      return (c :: s, rest)
    else none

def dropSpaces (s : List Char) : List Char := s.dropWhile isSpace

/-- A name, perhaps with a prefix. -/
def qualifiedName? (s : List Char) : Option (RawName × List Char) := do
  return (← RawName.ofChars? (s.takeWhile isNameChar), s.dropWhile isNameChar)

/-- A name in which colons mean nothing. -/
def plainName? (s : List Char) : Option (List Char × List Char) :=
  let n := s.takeWhile isNameChar
  if n.isEmpty || ! beginsName n then none else some (n, s.dropWhile isNameChar)

/-- The text between quotes, which is on one side of any tag. -/
def quoted? : List Char → Option (List Char × List Char)
  | q :: r =>
    if q = '"' || q = '\'' then
      let value := r.takeWhile fun c => c ≠ q && c ≠ '<'
      match r.dropWhile fun c => c ≠ q && c ≠ '<' with
      | c :: rest => if c = q && value.all isAllowed then some (value, rest) else none
      | [] => none
    else none
  | [] => none

/-- A name, an equals sign and a quoted value. -/
def attribute? (s : List Char) : Option (RawAttribute × List Char) := do
  let (name, s) ← qualifiedName? s
  let s ← after? "=" (dropSpaces s)
  let (value, s) ← quoted? (dropSpaces s)
  return (⟨name, value⟩, s)

/-- The attributes of a tag up to its end; each of them takes a character, so that
`fuel` may be the length of the text. -/
def attributesWithin? : (fuel : Nat) → List Char → Option (List RawAttribute × Bool × List Char)
  | 0, _ => none
  | fuel + 1, s =>
    match dropSpaces s with
    | '/' :: '>' :: r => some ([], true, r)
    | '>' :: r => some ([], false, r)
    | t =>
      if (s.head?.map isSpace).getD false then do
        let (a, r) ← attribute? t
        let (as, closed, rest) ← attributesWithin? fuel r
        return (a :: as, closed, rest)
      else none

/-! ## One piece of markup -/

def comment? (s : List Char) : Option (Markup × List Char) := do
  let (content, rest) ← until? "-->".toList s
  if (until? "--".toList content).isSome || content.getLast? = some '-' then none
  else return (.comment content, rest)

def instruction? (s : List Char) : Option (Markup × List Char) := do
  let (target, s) ← plainName? s
  let (content, rest) ← until? "?>".toList (dropSpaces s)
  return (.instruction target content, rest)

def closingTag? (s : List Char) : Option (Markup × List Char) := do
  let (name, s) ← qualifiedName? s
  return (.closing name, ← after? ">" (dropSpaces s))

def openingTag? (s : List Char) : Option (Markup × List Char) := do
  let (name, s) ← qualifiedName? s
  let (attributes, closed, rest) ← attributesWithin? (s.length + 1) s
  return (.opening name attributes closed, rest)

/-- Character data does not hold the mark that ends a literal section. -/
def characters? (s : List Char) : Option (Markup × List Char) :=
  let raw := s.takeWhile (· ≠ '<')
  if raw.all isAllowed && (until? "]]>".toList raw).isNone then
    some (.characters raw, s.dropWhile (· ≠ '<'))
  else none

/-- The markup at the beginning of `s`. A declaration may not stand here. -/
def markup? (s : List Char) : Option (Markup × List Char) :=
  if s.head? ≠ some '<' then characters? s
  else if (after? "<?xml " s).isSome then none
  else match after? "<!--" s, after? "<![CDATA[" s, after? "<?" s, after? "</" s with
    | some r, _, _, _ => comment? r
    | _, some r, _, _ => do
      let (content, rest) ← until? "]]>".toList r
      return (.literal content, rest)
    | _, _, some r, _ => instruction? r
    | _, _, _, some r => closingTag? r
    | none, none, none, none => openingTag? (s.drop 1)

/-- The markup of a text; each piece takes a character, so that `fuel` may be its length. -/
def markupWithin? : (fuel : Nat) → List Char → Option (List Markup)
  | _, [] => some []
  | 0, _ => none
  | fuel + 1, c :: r => do
    let (m, rest) ← markup? (c :: r)
    return m :: (← markupWithin? fuel rest)

/-! ## The whole document -/

/-- The blanks in front of the next part of a declaration, or its end. -/
def declarationSpace? (s : List Char) : Option (List Char) :=
  if (s.head?.map isSpace).getD false || (after? "?>" s).isSome then some (dropSpaces s) else none

/-- An attribute of a declaration that may be missing. -/
def declared? (name : String) (s : List Char) : Option (List Char) :=
  if (after? name s).isSome then Prod.snd <$> attribute? s else some s

/-- What is behind a declaration: a version, an encoding and a word on other documents. -/
def afterDeclaration? (s : List Char) : Option (List Char) := do
  let s ← declarationSpace? s
  let _ ← after? "version" s
  let s ← declarationSpace? (← declared? "version" s)
  let hasEncoding := (after? "encoding" s).isSome
  let s ← declared? "encoding" s
  let s ← if hasEncoding then declarationSpace? s else some s
  let s ← declared? "standalone" s
  after? "?>" (dropSpaces s)

/-- Takes a document apart. A byte order mark and a declaration may stand in front. -/
def Markup.read? (text : String) : Option (List Markup) := do
  let s := text.toList
  let s := if s.head? = some '\uFEFF' then s.drop 1 else s
  let s ← match after? "<?xml " s with
    | some _ => afterDeclaration? (s.drop 5)
    | none => some s
  markupWithin? s.length s

end GmlCheck.Xml
