import GmlCheck.Command

/-!
# The program
-/

open GmlCheck

/-- The text of a file, if there is one. -/
def textOfFile (name : String) : IO (Option String) := do
  try
    return some (← IO.FS.readFile name)
  catch _ =>
    return none

def main (arguments : List String) : IO UInt32 := do
  let files := match Command.options? arguments with
    | none => []
    | some o => o.file :: o.settings.toList
  let texts ← files.mapM fun name => do return (name, ← textOfFile name)
  let outcome := Command.run arguments fun name => (texts.lookup name).join
  match outcome with
  | .printed text _ => (← IO.getStdout).putStr text
  | .refused r => (← IO.getStderr).putStr ("Error: " ++ r.message ++ "\n")
  return UInt32.ofNat outcome.status
