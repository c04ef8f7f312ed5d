import GmlCheck.Geometry.Check
import GmlCheck.Geometry.Reader
import GmlCheck.Json.Printer
import GmlCheck.Xml.Document

/-!
# The command line

`geometry FILE` checks the points, line strings, curves and envelopes of a
document and prints what it finds as JSON. `Command.run` says what a run prints
and how it ends, given the arguments and the files.
-/

namespace GmlCheck

namespace Command

/-! ## Arguments -/

structure Options where
  file : String
  settings : Option String
  truncate : Bool
  tolerance : Option Float
  pretty : Bool

/-- What has been given so far; each option may be given once. -/
structure Given where
  file : Option String
  settings : Option String
  truncate : Bool
  tolerance : Option Float
  pretty : Bool

namespace Given

def nothing : Given := ⟨none, none, false, none, false⟩

/-- No file has an empty name. -/
def giveFile? (g : Given) (name : String) : Option Given :=
  if g.file.isSome || name.isEmpty then none else some { g with file := some name }

def giveSettings? (g : Given) (name : String) : Option Given :=
  if g.settings.isSome || name.isEmpty then none else some { g with settings := some name }

def giveTruncate? (g : Given) : Option Given :=
  if g.truncate then none else some { g with truncate := true }

def givePretty? (g : Given) : Option Given :=
  if g.pretty then none else some { g with pretty := true }

/-- A tolerance is written like an ordinate. -/
def giveTolerance? (g : Given) (text : String) : Option Given :=
  if g.tolerance.isSome then none
  else (readFloat? text.toList).map fun x => { g with tolerance := some x }

def options? (g : Given) : Option Options :=
  g.file.map fun file => ⟨file, g.settings, g.truncate, g.tolerance, g.pretty⟩

end Given

/-- What stands behind `lead` in an argument. -/
def behind? (lead : String) (argument : String) : Option String :=
  if lead.toList.isPrefixOf argument.toList then
    some (String.ofList (argument.toList.drop lead.length))
  else none

/-- An argument looks like an option, and cannot be the value of one. -/
def isOption (argument : String) : Bool :=
  match argument.toList with
  | '-' :: _ :: _ => true
  | _ => false

/-- Short options, which may stand together behind one dash; the value of `s` is what follows it. -/
def giveShort? (g : Given) : List Char → Option (Given × Bool)
  | [] => some (g, false)
  | 'p' :: r => do giveShort? (← g.givePretty?) r
  | 's' :: [] => some (g, true)
  | 's' :: '=' :: r => do return (← g.giveSettings? (String.ofList r), false)
  | 's' :: r => do return (← g.giveSettings? (String.ofList r), false)
  | _ :: _ => none

/-- Reads the arguments behind the name of the command. `plain` holds behind `--`, where
nothing is an option. -/
def given? (plain : Bool) (g : Given) : List String → Option Given
  | [] => some g
  | a :: rest =>
    if plain then do given? true (← g.giveFile? a) rest
    else if a = "--" then given? true g rest
    else if a = "--truncate" then do given? false (← g.giveTruncate?) rest
    else if a = "--pretty" then do given? false (← g.givePretty?) rest
    else if a = "--tolerance" || a = "--settings" then
      match rest with
      | v :: rest =>
        if isOption v then none
        else if a = "--tolerance" then do given? false (← g.giveTolerance? v) rest
        else do given? false (← g.giveSettings? v) rest
      | [] => none
    else match behind? "--tolerance=" a, behind? "--settings=" a with
      | some v, _ => do given? false (← g.giveTolerance? v) rest
      | _, some v => do given? false (← g.giveSettings? v) rest
      | none, none =>
        if ! isOption a then do given? false (← g.giveFile? a) rest
        else do
          let (g, wantsValue) ← giveShort? g (a.toList.drop 1)
          if wantsValue then
            match rest with
            | v :: rest => if isOption v then none else given? false (← g.giveSettings? v) rest
            | [] => none
          else given? false g rest

/-- The options of the command, or none if the arguments make no sense. -/
def options? (arguments : List String) : Option Options :=
  match arguments with
  | "geometry" :: rest => (given? false .nothing rest).bind Given.options?
  | _ => none

/-! ## Entries -/

/-- What is said about one geometry. -/
inductive Entry where
  | checked (label : String) (reports : List Report)
  | failed (label : String) (error : Error)

namespace Entry

/-- The geometry reads and no report on it fails. -/
def isGood : Entry → Bool
  | checked _ rs => rs.all fun r => r.verdict != .fail
  | failed _ _ => false

def toJson : Entry → Json
  | checked label rs => .object [("geometry", .string label), ("reports", Json.list Report.toJson rs)]
  | failed label e =>
    .object [("geometry", .string label), ("error", Json.ofOption .string e.message?)]

end Entry

/-- Reads and checks the geometry at a place. -/
def entry (s : Settings) (resolve : String → Option Crs) (p : Xml.Place) : Entry :=
  let outcome : Except Error (String × List Report) := do
    let i ← Instance.read resolve p
    return (i.label, ← i.checkAll s)
  match outcome with
  | .ok (label, rs) => .checked label rs
  | .error e => .failed (Instance.elementLabel p.node) e

/-- The entries for the geometries of GML in a document, in document order. -/
def entries (s : Settings) (document : Xml.Node) : List Entry :=
  (findElements document (Geometry.Kind.all.map Geometry.Kind.elementName)).map
    (entry s Crs.Registry.wellKnown.resolve)

/-! ## Runs -/

/-- Why a run ends before it has checked anything. -/
inductive Refusal where
  /-- The arguments make no sense. -/
  | usage
  /-- The settings or the tolerance cannot be used. -/
  | settings (e : Error)
  /-- A file is missing. -/
  | noFile (name : String)
  | malformed

def Refusal.message : Refusal → String
  | usage => "usage: geometry FILE [--settings FILE] [--truncate] [--tolerance NUMBER] [--pretty]"
  | settings e => (e.message?).getD "settings cannot be read"
  | noFile name => name ++ " cannot be read"
  | malformed => "the document is not well-formed"

/-- What a run comes to. -/
inductive Outcome where
  | refused (r : Refusal)
  | printed (text : String) (good : Bool)

/-- The exit status: 2 if the arguments make no sense, 0 if all is well, and else 1. -/
def Outcome.status : Outcome → Nat
  | refused .usage => 2
  | refused _ => 1
  | printed _ good => if good then 0 else 1

/-- The settings of the file, or the standard ones if none is named. -/
def givenSettings (o : Options) (read : String → Option String) : Except Refusal Settings :=
  match o.settings with
  | none => .ok .standard
  | some name =>
    match read name with
    | none => .error (.noFile name)
    | some text => (Settings.read text).mapError .settings

/-- The settings in effect: those of the file, with what the arguments say in their place.
They are valid whenever there are any. -/
def settingsFor (o : Options) (read : String → Option String) : Except Refusal Settings := do
  let s ← givenSettings o read
  let s := { s with truncate := s.truncate || o.truncate }
  match o.tolerance with
  | none => return s
  | some x => ({ s with tolerance := x } : Settings).validate.mapError .settings

def checkFile (o : Options) (read : String → Option String) : Except Refusal (String × Bool) := do
  let s ← settingsFor o read
  let some text := read o.file | throw (.noFile o.file)
  let some document := Xml.parse? text | throw .malformed
  let es := entries s document
  let json := Json.list Entry.toJson es
  return ((if o.pretty then json.pretty else json.compact) ++ "\n", es.all Entry.isGood)

/-- A run on arguments and files; `read` gives the text of a file that exists. -/
def run (arguments : List String) (read : String → Option String) : Outcome :=
  match options? arguments with
  | none => .refused .usage
  | some o =>
    match checkFile o read with
    | .ok (text, good) => .printed text good
    | .error r => .refused r

end Command

end GmlCheck
