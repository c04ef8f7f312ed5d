import GmlCheck.Report.Basic
import GmlCheck.Proofs.Enumeration

/-!
# What a report has from its findings

`Finding.Quiet fs` says that no finding in `fs` is a violation. A report made of
findings passes exactly if they are quiet. The lemmas here take the lists apart
that checks put together. A check that goes through a list and says at most one thing
of each member enumerates the violations, and the steps not taken, by the places of the members.
-/

namespace GmlCheck

/-- The number of the position, ordinate or segment that the fault names. -/
def Fault.number? : Fault → Option Nat
  | coordinateDimensionMismatch index .. | positionOutsideValidArea index ..
  | insufficientCoordinates index .. => index
  | invalidEnvelopeOrdering k .. | segmentsNotConnected k .. => some k
  | _ => none

def Violation.number? (v : Violation) : Option Nat := v.fault.number?

namespace Finding

/-- No finding is a violation; steps that were not taken do not count. -/
def Quiet (fs : List Finding) : Prop := ∀ v, violated v ∉ fs

@[simp] theorem quiet_nil : Quiet [] := fun _ h => by cases h

@[simp] theorem not_quiet_cons_violated (v : Violation) (fs : List Finding) :
    ¬ Quiet (violated v :: fs) := fun h => h v List.mem_cons_self

@[simp] theorem quiet_cons_unchecked (step : String) (fs : List Finding) :
    Quiet (unchecked step :: fs) ↔ Quiet fs := by
  simp [Quiet]

@[simp] theorem quiet_append (fs gs : List Finding) :
    Quiet (fs ++ gs) ↔ Quiet fs ∧ Quiet gs := by
  simp only [Quiet, List.mem_append, not_or, forall_and]

@[simp] theorem quiet_flatMap {α : Type} (xs : List α) (f : α → List Finding) :
    Quiet (xs.flatMap f) ↔ ∀ x ∈ xs, Quiet (f x) := by
  simp only [Quiet, List.mem_flatMap, not_exists, not_and]
  exact ⟨fun h x hx v => h v x hx, fun h v x hx => h x hx v⟩

@[simp] theorem quiet_unless (P : Prop) [Decidable P] (v : Violation) :
    Quiet (if P then [] else [violated v]) ↔ P := by
  split <;> simp [*]

@[simp] theorem quiet_when (P : Prop) [Decidable P] (v : Violation) :
    Quiet (if P then [violated v] else []) ↔ ¬ P := by
  split <;> simp [*]

theorem mem_filterMap_violation?_iff {fs : List Finding} {v : Violation} :
    v ∈ fs.filterMap violation? ↔ violated v ∈ fs := by
  rw [List.mem_filterMap]
  constructor
  · rintro ⟨f | _, hf, hv⟩
    · cases hv
      exact hf
    · cases hv
  · exact fun h => ⟨_, h, rfl⟩

theorem mem_filterMap_step?_iff {fs : List Finding} {step : String} :
    step ∈ fs.filterMap step? ↔ unchecked step ∈ fs := by
  rw [List.mem_filterMap]
  constructor
  · rintro ⟨_ | s, hf, hs⟩
    · cases hs
    · cases hs
      exact hf
  · exact fun h => ⟨_, h, rfl⟩

theorem filterMap_violation?_eq_nil_iff {fs : List Finding} :
    fs.filterMap violation? = [] ↔ Quiet fs := by
  rw [List.filterMap_eq_nil_iff]
  constructor
  · intro h v hv
    have := h _ hv
    simp [violation?] at this
  · intro h f hf
    cases f with
    | violated v => exact absurd hf (h v)
    | unchecked _ => rfl

end Finding

namespace Report

/-- The numbers that the violations name, one after the other. -/
def numbers (r : Report) : List Nat := r.violations.filterMap Violation.number?

theorem violations_ofFindings_eq_nil_iff {check : String} {fs : List Finding} :
    (ofFindings check fs).violations = [] ↔ Finding.Quiet fs :=
  Finding.filterMap_violation?_eq_nil_iff

/-- A report that was not skipped passes if it has no violation. -/
theorem isPass_iff_of_skipReason {r : Report} (h : r.skipReason = none) :
    r.isPass = true ↔ r.violations = [] := by
  unfold isPass verdict
  rw [h]
  cases r.violations with
  | nil => exact iff_of_true rfl rfl
  | cons v vs => exact iff_of_false nofun nofun

@[simp] theorem isPass_ofFindings (check : String) (fs : List Finding) :
    (ofFindings check fs).isPass = true ↔ Finding.Quiet fs := by
  rw [isPass_iff_of_skipReason rfl, violations_ofFindings_eq_nil_iff]

theorem verdict_congr {r r' : Report} (h : r.skipReason = none) (h' : r'.skipReason = none)
    (hv : r.violations = [] ↔ r'.violations = []) : r.verdict = r'.verdict := by
  have hempty : r.violations.isEmpty = r'.violations.isEmpty := by
    rw [Bool.eq_iff_iff, List.isEmpty_iff, List.isEmpty_iff]
    exact hv
  rw [verdict, verdict, h, h', hempty]

theorem verdict_ne_skip_of_skipReason {r : Report} (h : r.skipReason = none) :
    r.verdict ≠ .skip := by
  unfold verdict
  cases r.violations <;> simp [h]

section Numbered

variable {α : Type} {xs : List α} {note : α × Nat → List Finding} (check : String)

theorem enumerates_violations (h : ∀ x, ((note x).filterMap Finding.violation?).length ≤ 1) :
    Enumerates (fun k v => ∃ x, xs[k]? = some x ∧ .violated v ∈ note (x, k))
      (ofFindings check (xs.zipIdx.flatMap note)).violations := by
  have hviolations : (ofFindings check (xs.zipIdx.flatMap note)).violations =
      xs.zipIdx.flatMap fun x => (note x).filterMap Finding.violation? := List.filterMap_flatMap
  rw [hviolations]
  refine (Enumerates.of_zipIdx h).congr fun k v => ?_
  simp only [Finding.mem_filterMap_violation?_iff]

theorem enumerates_unchecked (h : ∀ x, ((note x).filterMap Finding.step?).length ≤ 1) :
    Enumerates (fun k step => ∃ x, xs[k]? = some x ∧ .unchecked step ∈ note (x, k))
      (ofFindings check (xs.zipIdx.flatMap note)).unchecked := by
  have hunchecked : (ofFindings check (xs.zipIdx.flatMap note)).unchecked =
      xs.zipIdx.flatMap fun x => (note x).filterMap Finding.step? := List.filterMap_flatMap
  rw [hunchecked]
  refine (Enumerates.of_zipIdx h).congr fun k step => ?_
  simp only [Finding.mem_filterMap_step?_iff]

end Numbered

end Report

end GmlCheck
