import GmlCheck.Report.Violation

/-!
# Reports

A check yields a report: the violations it found, the steps it could not take,
and why it was skipped if there was nothing to check. What a check says piece by
piece are `Finding`s, which `Report.ofFindings` collects.
-/

namespace GmlCheck

inductive Verdict where
  | pass
  | fail
  | skip
  deriving DecidableEq, Repr

def Verdict.text : Verdict → String
  | pass => "pass"
  | fail => "fail"
  | skip => "skip"

structure Report where
  check : String
  violations : List Violation
  /-- Steps that an earlier violation made meaningless. -/
  unchecked : List String
  skipReason : Option String
  deriving BEq, Repr

/-- One thing that a check has to say. -/
inductive Finding where
  | violated (v : Violation)
  | unchecked (step : String)
  deriving BEq, Repr

namespace Finding

def violation? : Finding → Option Violation
  | violated v => some v
  | unchecked _ => none

def step? : Finding → Option String
  | violated _ => none
  | unchecked s => some s

end Finding

namespace Report

def empty (check : String) : Report := ⟨check, [], [], none⟩

def skipped (check reason : String) : Report := ⟨check, [], [], some reason⟩

def ofFindings (check : String) (fs : List Finding) : Report :=
  ⟨check, fs.filterMap Finding.violation?, fs.filterMap Finding.step?, none⟩

/-- One violation more. -/
def push (r : Report) (v : Violation) : Report :=
  { r with violations := r.violations ++ [v] }

/-- One step more that was not taken. -/
def markUnchecked (r : Report) (step : String) : Report :=
  { r with unchecked := r.unchecked ++ [step] }

/-- Adds what another report found. The reason for skipping stays that of `r`. -/
def merge (r other : Report) : Report :=
  { r with
    violations := r.violations ++ other.violations
    unchecked := r.unchecked ++ other.unchecked }

/-- What the reports found, one after the other. -/
def mergeAll (check : String) (rs : List Report) : Report :=
  rs.foldl merge (empty check)

theorem empty_eq_ofFindings (check : String) : empty check = ofFindings check [] := rfl

theorem merge_ofFindings (c d : String) (fs gs : List Finding) :
    (ofFindings c fs).merge (ofFindings d gs) = ofFindings c (fs ++ gs) := by
  simp [ofFindings, merge]

theorem markUnchecked_ofFindings (check : String) (fs : List Finding) (step : String) :
    (ofFindings check fs).markUnchecked step = ofFindings check (fs ++ [.unchecked step]) := by
  simp [ofFindings, markUnchecked, Finding.violation?, Finding.step?]

theorem foldl_merge (r : Report) (rs : List Report) :
    rs.foldl merge r =
      ⟨r.check, r.violations ++ rs.flatMap violations, r.unchecked ++ rs.flatMap unchecked,
        r.skipReason⟩ := by
  induction rs generalizing r with
  | nil => simp
  | cons s rs ih => simp [ih, merge]

theorem mergeAll_eq (check : String) (rs : List Report) :
    mergeAll check rs = ⟨check, rs.flatMap violations, rs.flatMap unchecked, none⟩ := by
  simp [mergeAll, foldl_merge, empty]

/-- Some violation has the code. -/
def has (r : Report) (code : String) : Bool :=
  r.violations.any (·.code == code)

def verdict (r : Report) : Verdict :=
  if ! r.violations.isEmpty then .fail
  else if r.skipReason.isSome then .skip
  else .pass

def isPass (r : Report) : Bool :=
  r.verdict == .pass

theorem verdict_eq_fail_iff {r : Report} : r.verdict = .fail ↔ r.violations ≠ [] := by
  unfold verdict
  cases h : r.violations <;> simp
  split <;> simp

/-- The verdict, then a line for every violation and every step that was not taken. -/
def text (r : Report) : String :=
  let reason := r.skipReason.elim "" fun s => " (" ++ s ++ ")"
  r.check ++ ": " ++ r.verdict.text ++ reason ++
    String.join (r.violations.map fun v => "\n  - " ++ v.message) ++
    String.join (r.unchecked.map fun s => "\n  ? " ++ s ++ " (not evaluated)")

def toJson (r : Report) : Json :=
  .object <|
    [("check", .string r.check), ("violations", Json.list Violation.toJson r.violations)] ++
    (if r.unchecked.isEmpty then [] else [("unchecked", Json.list .string r.unchecked)]) ++
    (r.skipReason.elim [] fun s => [("skip_reason", .string s)]) ++
    [("verdict", .string r.verdict.text)]

end Report

end GmlCheck
