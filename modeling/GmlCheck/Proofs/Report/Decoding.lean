import GmlCheck.Proofs.Json.Same
import GmlCheck.Report.Basic

/-!
# Reports back from JSON

`Report.ofJson?` reads what `Report.toJson` writes, by looking up members alone. Each kind of
fault is read by its label. Reading gives back every report whose numbers are all finite, and two
such reports are written as the same value exactly if they are equal.
-/

namespace GmlCheck

open Json (required orDefault nullable items toReal? record₁ record₂ record₃ required_eq
  record₁_eq record₂_eq record₃_eq Same Respects)

/-! ## Readers -/

/-- Reads a qualified name by its two members. -/
def QName.ofMembers? : Json → Option QName :=
  record₂ QName.mk (required "namespace" (nullable Json.toText?)) (required "local_name" Json.toText?)

def Compositor.ofText? (s : String) : Option Compositor :=
  [sequence, choice, all].find? (·.text == s)

def Compositor.ofJson? (j : Json) : Option Compositor := j.toText?.bind ofText?

namespace Fault

/-- Reads the parameters of the fault with the label. -/
def ofMembers? : String → Json → Option Fault
  | "attribute_required" =>
    record₂ attributeRequired (required "attribute" QName.ofMembers?)
      (required "optional_value" Json.toBool?)
  | "attribute_prohibited" => record₁ attributeProhibited (required "attribute" QName.ofMembers?)
  | "model_group_expected" => fun _ => some modelGroupExpected
  | "sequence_expected" => record₁ sequenceExpected (required "found" Compositor.ofJson?)
  | "too_many_particles" => record₁ tooManyParticles (required "count" Json.toNat?)
  | "wildcard_not_permitted" => fun _ => some wildcardNotPermitted
  | "wildcard_or_group_not_permitted" => fun _ => some wildcardOrGroupNotPermitted
  | "disallowed_substitution" =>
    record₂ disallowedSubstitution (required "candidate" QName.ofMembers?)
      (required "head" QName.ofMembers?)
  | "substitution_error" =>
    record₂ substitutionError (required "element" QName.ofMembers?) (required "head" Json.toText?)
  | "metadata_value_unspecified" => fun _ => some metadataValueUnspecified
  | "unknown_crs" => record₁ unknownCrs (required "srs_name" (nullable Json.toText?))
  | "coordinate_dimension_mismatch" =>
    record₃ coordinateDimensionMismatch (required "index" (nullable Json.toNat?))
      (required "expected" Json.toNat?) (required "actual" Json.toNat?)
  | "position_outside_valid_area" =>
    record₃ positionOutsideValidArea (required "index" (nullable Json.toNat?))
      (required "position" (items toReal?)) (required "area" Json.toText?)
  | "invalid_envelope_ordering" =>
    record₃ invalidEnvelopeOrdering (required "ordinate" Json.toNat?) (required "lower" toReal?)
      (required "upper" toReal?)
  | "dimension_mismatch" =>
    record₃ dimensionMismatch (required "context" Json.toText?) (required "expected" Json.toNat?)
      (required "actual" Json.toNat?)
  | "no_segments" => fun _ => some noSegments
  | "segments_not_connected" =>
    record₃ segmentsNotConnected (required "segment" Json.toNat?) (required "end" (items toReal?))
      (required "start" (items toReal?))
  | "insufficient_coordinates" =>
    record₃ insufficientCoordinates (required "segment" (nullable Json.toNat?))
      (required "required" Json.toNat?) (required "found" Json.toNat?)
  | _ => fun _ => none

/-- Reads a fault from the object that it shares with its subject. -/
def ofJson? (j : Json) : Option Fault :=
  (required "kind" Json.toText? j).bind fun label => ofMembers? label j

end Fault

def Violation.ofJson? : Json → Option Violation :=
  record₂ Violation.mk Fault.ofJson? (required "subject" Json.toText?)

/-- Reads a report. What it leaves out when there is nothing to say is read as such. -/
def Report.ofJson? (j : Json) : Option Report :=
  (required "check" Json.toText? j).bind fun check =>
    record₃ (Report.mk check) (required "violations" (items Violation.ofJson?))
      (orDefault "unchecked" [] (items Json.toText?))
      (orDefault "skip_reason" none (nullable Json.toText?)) j

/-! ## Reading what was written -/

/-- The numbers with a fraction among the parameters. -/
def Fault.reals : Fault → List Float
  | positionOutsideValidArea _ position _ => position
  | invalidEnvelopeOrdering _ lower upper => [lower, upper]
  | segmentsNotConnected _ last first => last ++ first
  | _ => []

/-- No parameter is infinite or not-a-number. -/
def Fault.Finite (f : Fault) : Prop := ∀ x ∈ f.reals, x.isFinite = true

def Report.Finite (r : Report) : Prop := ∀ v ∈ r.violations, v.fault.Finite

instance (f : Fault) : Decidable f.Finite :=
  inferInstanceAs (Decidable (∀ x ∈ f.reals, x.isFinite = true))

instance (r : Report) : Decidable r.Finite :=
  inferInstanceAs (Decidable (∀ v ∈ r.violations, v.fault.Finite))

theorem QName.ofMembers?_toJson (q : QName) : QName.ofMembers? q.toJson = some q := by
  obtain ⟨space, name⟩ := q
  exact record₂_eq (required_eq rfl (Json.nullable_text space)) (required_eq rfl rfl)

theorem Compositor.ofJson?_text (c : Compositor) : Compositor.ofJson? c.text = some c := by
  cases c <;> rfl

theorem Fault.ofMembers?_toJson (f : Fault) (subject : String) (h : f.Finite) :
    Fault.ofMembers? f.label (Violation.toJson ⟨f, subject⟩) = some f := by
  cases f with
  | attributeRequired name =>
    exact record₂_eq (required_eq rfl name.ofMembers?_toJson) (required_eq rfl rfl)
  | attributeProhibited name => exact record₁_eq (required_eq rfl name.ofMembers?_toJson)
  | sequenceExpected found => exact record₁_eq (required_eq rfl found.ofJson?_text)
  | tooManyParticles => exact record₁_eq (required_eq rfl rfl)
  | disallowedSubstitution candidate head =>
    exact record₂_eq (required_eq rfl candidate.ofMembers?_toJson)
      (required_eq rfl head.ofMembers?_toJson)
  | substitutionError element =>
    exact record₂_eq (required_eq rfl element.ofMembers?_toJson) (required_eq rfl rfl)
  | unknownCrs srsName => exact record₁_eq (required_eq rfl (Json.nullable_text srsName))
  | coordinateDimensionMismatch index =>
    exact record₃_eq (required_eq rfl (Json.nullable_natural index)) (required_eq rfl rfl)
      (required_eq rfl rfl)
  | positionOutsideValidArea index position =>
    exact record₃_eq (required_eq rfl (Json.nullable_natural index))
      (required_eq rfl (Json.items_floats h)) (required_eq rfl rfl)
  | invalidEnvelopeOrdering ordinate lower upper =>
    obtain ⟨hlower, hupper, -⟩ := List.forall_mem_cons.1 h |>.imp_right List.forall_mem_cons.1
    exact record₃_eq (required_eq rfl rfl) (required_eq rfl (Json.toReal?_ofFloat hlower))
      (required_eq rfl (Json.toReal?_ofFloat hupper))
  | dimensionMismatch =>
    exact record₃_eq (required_eq rfl rfl) (required_eq rfl rfl) (required_eq rfl rfl)
  | segmentsNotConnected segment last first =>
    obtain ⟨hlast, hfirst⟩ := List.forall_mem_append.1 h
    exact record₃_eq (required_eq rfl rfl) (required_eq rfl (Json.items_floats hlast))
      (required_eq rfl (Json.items_floats hfirst))
  | insufficientCoordinates segment =>
    exact record₃_eq (required_eq rfl (Json.nullable_natural segment)) (required_eq rfl rfl)
      (required_eq rfl rfl)
  | modelGroupExpected | wildcardNotPermitted | wildcardOrGroupNotPermitted
  | metadataValueUnspecified | noSegments => rfl

theorem Violation.ofJson?_toJson (v : Violation) (h : v.fault.Finite) :
    Violation.ofJson? v.toJson = some v := by
  obtain ⟨f, subject⟩ := v
  have hsubject : (toJson ⟨f, subject⟩).member? "subject" = some (.string subject) := by
    cases f <;> rfl
  exact record₂_eq (f.ofMembers?_toJson subject h) (required_eq hsubject rfl)

theorem Report.ofJson?_toJson (r : Report) (h : r.Finite) : Report.ofJson? r.toJson = some r := by
  obtain ⟨check, vs, unchecked, skipReason⟩ := r
  have hv : items Violation.ofJson? (Json.list Violation.toJson vs) = some vs :=
    Json.items_list fun v hv => v.ofJson?_toJson (h v hv)
  have hu : items Json.toText? (Json.list .string unchecked) = some unchecked :=
    Json.items_list fun _ _ => rfl
  refine record₃_eq (required_eq rfl hv) ?_ ?_
  · cases unchecked with
    | nil => cases skipReason <;> rfl
    | cons => exact hu
  · cases unchecked <;> cases skipReason <;> rfl

theorem Report.verdict_toJson (r : Report) :
    r.toJson.member? "verdict" = some (.string r.verdict.text) := by
  obtain ⟨check, vs, unchecked, skipReason⟩ := r
  cases unchecked <;> cases skipReason <;> rfl

/-! ## The same value reads as equal reports -/

theorem QName.respects_ofMembers? : Respects ofMembers? :=
  ((Json.respects_toText?.nullable.required _).record₂ (Json.respects_toText?.required _))
    fun x x' y y' => by rw [Bool.eq_iff_iff]; simp

theorem Compositor.respects_ofJson? : Respects ofJson? := by
  intro j j' h
  refine Json.beq_bind (Json.respects_toText? j j' h) fun s s' hs => ?_
  rw [eq_of_beq hs, beq_self_eq_true]

theorem Fault.respects_ofMembers? (label : String) : Respects (ofMembers? label) := by
  have name := QName.respects_ofMembers?
  have text := Json.respects_toText?
  have nat := Json.respects_toNat?
  have real := Json.respects_toReal?
  -- One goal for each label, in the order in which they are tried.
  unfold ofMembers?
  split
  · exact (name.required _).record₂ (Json.respects_toBool?.required _) fun _ _ _ _ => rfl
  · exact (name.required _).record₁ fun _ _ => rfl
  · exact fun _ _ _ => rfl
  · exact (Compositor.respects_ofJson?.required _).record₁ fun _ _ => rfl
  · exact (nat.required _).record₁ fun _ _ => rfl
  · exact fun _ _ _ => rfl
  · exact fun _ _ _ => rfl
  · exact (name.required _).record₂ (name.required _) fun _ _ _ _ => rfl
  · exact (name.required _).record₂ (text.required _) fun _ _ _ _ => rfl
  · exact fun _ _ _ => rfl
  · exact (text.nullable.required _).record₁ fun _ _ => rfl
  · exact (nat.nullable.required _).record₃ (nat.required _) (nat.required _)
      fun _ _ _ _ _ _ => rfl
  · exact (nat.nullable.required _).record₃ (real.items.required _) (text.required _)
      fun _ _ _ _ _ _ => rfl
  · exact (nat.required _).record₃ (real.required _) (real.required _) fun _ _ _ _ _ _ => rfl
  · exact (text.required _).record₃ (nat.required _) (nat.required _) fun _ _ _ _ _ _ => rfl
  · exact fun _ _ _ => rfl
  · exact (nat.required _).record₃ (real.items.required _) (real.items.required _)
      fun _ _ _ _ _ _ => rfl
  · exact (nat.nullable.required _).record₃ (nat.required _) (nat.required _)
      fun _ _ _ _ _ _ => rfl
  · exact fun _ _ _ => rfl

theorem Fault.respects_ofJson? : Respects ofJson? := by
  intro j j' h
  refine Json.beq_bind (Json.respects_toText?.required _ j j' h) fun label label' hlabel => ?_
  rw [← eq_of_beq hlabel]
  exact respects_ofMembers? label j j' h

theorem Violation.respects_ofJson? : Respects ofJson? :=
  (Fault.respects_ofJson?.record₂ (Json.respects_toText?.required _)) fun _ _ _ _ => rfl

theorem Report.respects_ofJson? : Respects ofJson? := by
  intro j j' h
  have text := Json.respects_toText?
  refine Json.beq_bind (text.required _ j j' h) fun check check' hcheck => ?_
  rw [← eq_of_beq hcheck]
  refine (Violation.respects_ofJson?.items.required _).record₃ (text.items.orDefault _ rfl)
    (text.nullable.orDefault _ rfl) (fun vs vs' us us' s s' => ?_) j j' h
  show (check == check && (vs == vs' && (us == us' && s == s'))) = _
  rw [beq_self_eq_true, Bool.true_and]

/-! ## Equal reports are written as the same value -/

theorem QName.same_toJson (q : QName) : Same q.toJson q.toJson :=
  .cons (.ofOption .string _) (.cons (.string _) .nil)

theorem Compositor.same_text {c d : Compositor} (h : (c == d) = true) :
    Same (.string c.text) (.string d.text) := by
  obtain rfl := eq_of_beq h
  exact .string c.text

/-- Equal faults have the same label and the same parameters in front of any other members. -/
theorem Fault.same_members {f g : Fault} (hf : f.Finite) (hg : g.Finite) (h : (f == g) = true)
    {ms ns : List (String × Json)} (rest : Same (.object ms) (.object ns)) :
    Same (.object (("kind", .string f.label) :: f.members ++ ms))
      (.object (("kind", .string g.label) :: g.members ++ ns)) := by
  have name {p q : QName} : (p == q) = true → Same p.toJson q.toJson := .of_beq QName.same_toJson
  have index {m n : Option Nat} :
      (m == n) = true → Same (Json.ofOption .natural m) (Json.ofOption .natural n) :=
    .of_beq (.ofOption .natural)
  -- Faults of two kinds are never equal.
  cases f <;> cases g <;> try cases h
  case attributeRequired.attributeRequired =>
    obtain ⟨hname, hvalue⟩ := Bool.and_eq_true_iff.1 h
    exact .cons (.string _) (.cons (name hname) (.cons (.of_beq .bool hvalue) rest))
  case attributeProhibited.attributeProhibited =>
    exact .cons (.string _) (.cons (name h) rest)
  case sequenceExpected.sequenceExpected =>
    exact .cons (.string _) (.cons (Compositor.same_text h) rest)
  case tooManyParticles.tooManyParticles =>
    exact .cons (.string _) (.cons (.of_beq .natural h) rest)
  case disallowedSubstitution.disallowedSubstitution =>
    obtain ⟨hcandidate, hhead⟩ := Bool.and_eq_true_iff.1 h
    exact .cons (.string _) (.cons (name hcandidate) (.cons (name hhead) rest))
  case substitutionError.substitutionError =>
    obtain ⟨helement, hhead⟩ := Bool.and_eq_true_iff.1 h
    exact .cons (.string _) (.cons (name helement) (.cons (.of_beq .string hhead) rest))
  case unknownCrs.unknownCrs =>
    exact .cons (.string _) (.cons (.of_beq (.ofOption .string) h) rest)
  case coordinateDimensionMismatch.coordinateDimensionMismatch =>
    obtain ⟨hindex, h⟩ := Bool.and_eq_true_iff.1 h
    obtain ⟨hexpected, hactual⟩ := Bool.and_eq_true_iff.1 h
    exact .cons (.string _) (.cons (index hindex) (.cons (.of_beq .natural hexpected)
      (.cons (.of_beq .natural hactual) rest)))
  case positionOutsideValidArea.positionOutsideValidArea =>
    obtain ⟨hindex, h⟩ := Bool.and_eq_true_iff.1 h
    obtain ⟨hposition, harea⟩ := Bool.and_eq_true_iff.1 h
    exact .cons (.string _) (.cons (index hindex) (.cons (.floats hf hg hposition)
      (.cons (.of_beq .string harea) rest)))
  case invalidEnvelopeOrdering.invalidEnvelopeOrdering =>
    obtain ⟨hordinate, h⟩ := Bool.and_eq_true_iff.1 h
    obtain ⟨hlower, hupper⟩ := Bool.and_eq_true_iff.1 h
    obtain ⟨hflower, hfupper, -⟩ := List.forall_mem_cons.1 hf |>.imp_right List.forall_mem_cons.1
    obtain ⟨hglower, hgupper, -⟩ := List.forall_mem_cons.1 hg |>.imp_right List.forall_mem_cons.1
    exact .cons (.string _) (.cons (.of_beq .natural hordinate)
      (.cons (.ofFloat hflower hglower hlower) (.cons (.ofFloat hfupper hgupper hupper) rest)))
  case dimensionMismatch.dimensionMismatch =>
    obtain ⟨hcontext, h⟩ := Bool.and_eq_true_iff.1 h
    obtain ⟨hexpected, hactual⟩ := Bool.and_eq_true_iff.1 h
    exact .cons (.string _) (.cons (.of_beq .string hcontext) (.cons (.of_beq .natural hexpected)
      (.cons (.of_beq .natural hactual) rest)))
  case segmentsNotConnected.segmentsNotConnected =>
    obtain ⟨hsegment, h⟩ := Bool.and_eq_true_iff.1 h
    obtain ⟨hlast, hfirst⟩ := Bool.and_eq_true_iff.1 h
    obtain ⟨hflast, hffirst⟩ := List.forall_mem_append.1 hf
    obtain ⟨hglast, hgfirst⟩ := List.forall_mem_append.1 hg
    exact .cons (.string _) (.cons (.of_beq .natural hsegment)
      (.cons (.floats hflast hglast hlast) (.cons (.floats hffirst hgfirst hfirst) rest)))
  case insufficientCoordinates.insufficientCoordinates =>
    obtain ⟨hsegment, h⟩ := Bool.and_eq_true_iff.1 h
    obtain ⟨hrequired, hfound⟩ := Bool.and_eq_true_iff.1 h
    exact .cons (.string _) (.cons (index hsegment) (.cons (.of_beq .natural hrequired)
      (.cons (.of_beq .natural hfound) rest)))
  all_goals exact .cons (.string _) rest

theorem Violation.same_toJson {v w : Violation} (hv : v.fault.Finite) (hw : w.fault.Finite)
    (h : (v == w) = true) : Same v.toJson w.toJson := by
  obtain ⟨hfault, hsubject⟩ := Bool.and_eq_true_iff.1 h
  exact Fault.same_members hv hw hfault (.cons (.of_beq .string hsubject) .nil)

namespace Report

variable {r s : Report}

theorem verdict_eq_of_beq (h : (r == s) = true) : r.verdict = s.verdict := by
  obtain ⟨-, h⟩ := Bool.and_eq_true_iff.1 h
  obtain ⟨hviolations, h⟩ := Bool.and_eq_true_iff.1 h
  obtain ⟨-, hreason⟩ := Bool.and_eq_true_iff.1 h
  have hempty : r.violations.isEmpty = s.violations.isEmpty := by
    generalize r.violations = vs, s.violations = ws at hviolations
    cases vs with
    | nil =>
      cases ws with
      | nil => rfl
      | cons => cases hviolations
    | cons =>
      cases ws with
      | nil => cases hviolations
      | cons => rfl
  rw [verdict, verdict, hempty, eq_of_beq hreason]

theorem same_toJson (hr : r.Finite) (hs : s.Finite) (h : (r == s) = true) :
    Same r.toJson s.toJson := by
  have verdict : Same (.object [("verdict", .string r.verdict.text)])
      (.object [("verdict", .string s.verdict.text)]) := by
    rw [verdict_eq_of_beq h]
    exact .cons (.string _) .nil
  obtain ⟨check, vs, unchecked, skipReason⟩ := r
  obtain ⟨check', vs', unchecked', skipReason'⟩ := s
  obtain ⟨hcheck, h⟩ := Bool.and_eq_true_iff.1 h
  obtain ⟨hviolations, h⟩ := Bool.and_eq_true_iff.1 h
  obtain ⟨hunchecked, hreason⟩ := Bool.and_eq_true_iff.1 h
  obtain rfl := eq_of_beq hunchecked
  obtain rfl := eq_of_beq hreason
  have hvs : Same (Json.list Violation.toJson vs) (Json.list Violation.toJson vs') :=
    .list (fun v hv w hw => Violation.same_toJson (hr v hv) (hs w hw)) hviolations
  have hus : Same (Json.list .string unchecked) (Json.list .string unchecked) :=
    .list (fun _ _ _ _ => .of_beq .string) hunchecked
  refine .cons (.of_beq .string hcheck) (.cons hvs ?_)
  cases unchecked with
  | nil =>
    cases skipReason with
    | none => exact verdict
    | some reason => exact .cons (.string reason) verdict
  | cons =>
    cases skipReason with
    | none => exact .cons hus verdict
    | some reason => exact .cons hus (.cons (.string reason) verdict)

/-- A curve that leaves the valid area and falls apart at the given ordinate. -/
def broken (x : Float) : Report :=
  ⟨"curve", [⟨.positionOutsideValidArea (some 1) [91.5, x] "EPSG:4326", "c1"⟩,
    ⟨.segmentsNotConnected 0 [91.5, x] [10.0], "c1"⟩, ⟨.noSegments, "c2"⟩,
    ⟨.unknownCrs none, "c3"⟩], ["domain of validity"], none⟩

end Report

end GmlCheck
