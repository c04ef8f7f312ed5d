import GmlCheck.Proofs.Findings
import GmlCheck.Proofs.Schema.Relations
import GmlCheck.Schema.Property

/-!
# The two shapes of a property type

`Schema.WellShaped` says what a well-formed property type is: empty content with a
reference, or a sequence of one value whose bounds agree with the reference.
`checkPropertyType_cases` compares it with the check, which fails exactly on types
that are not complex or lack the top of their content model.
-/

namespace GmlCheck

namespace ComplexType

/-- Some use that is not prohibited declares `href`, in the namespace of XLink or in none. -/
def Refers (t : ComplexType) : Prop :=
  ∃ u ∈ t.attributes, u.mode ≠ .prohibited ∧ u.name.name = "href" ∧
    (u.name.space = some xlinkNamespace ∨ u.name.space = none)

theorem declares_href_iff {u : AttributeUse} :
    u.declares .href = true ↔
      u.name.name = "href" ∧ (u.name.space = some xlinkNamespace ∨ u.name.space = none) := by
  unfold AttributeUse.declares QName.href QName.inNamespace
  rw [Bool.and_eq_true, beq_iff_eq]
  refine and_congr_right fun _ => ?_
  cases u.name.space with
  | none => simp
  | some s =>
    show (some xlinkNamespace == some s) = true ↔ _
    rw [beq_iff_eq, eq_comm]
    simp

theorem hasHref_iff {t : ComplexType} : t.hasHref = true ↔ t.Refers := by
  simp only [hasHref, use?, List.find?_isSome, AttributeUse.permits, Bool.and_eq_true,
    bne_iff_ne, declares_href_iff, Refers]

/-- The content is of elements. -/
def HasElements (t : ComplexType) : Prop := t.content = .elementOnly ∨ t.content = .mixed

/-- The content is of elements, but the content model has no top. -/
def Bare (t : ComplexType) : Prop := t.HasElements ∧ t.particle = none

end ComplexType

/-- The particle may occur more than once. -/
def Occurs.Multiple (o : Occurs) : Prop := o.max = none ∨ ∃ n, o.max = some n ∧ 1 < n

theorem Occurs.isMultiple_iff {o : Occurs} : o.isMultiple = true ↔ o.Multiple := by
  unfold isMultiple Multiple
  cases o.max <;> simp

namespace Schema

variable {m : Schema} {head : Option ValueHead}

/-- If there is a head, the element is one of its substitutes, or the head where it is included. -/
def Allows (m : Schema) (head : Option ValueHead) (e : ElementId) : Prop :=
  ∀ h, head = some h → m.Substitutes e h.head ∨ (h.included = true ∧ e = h.head)

/-- An allowed element, or a choice of which every branch is an allowed element. -/
inductive IsValue (m : Schema) (head : Option ValueHead) : Particle → Prop where
  | element {o : Occurs} {e : ElementId} : m.Allows head e → IsValue m head (.element o e)
  | choice {o : Occurs} {ps : List Particle} :
      (∀ p ∈ ps, ∃ o e, p = .element o e ∧ m.Allows head e) →
      IsValue m head (.group o .choice ps)

/-- The type refers to its value, or holds it in one of the permitted ways. -/
inductive WellShaped (m : Schema) (head : Option ValueHead) (t : ComplexType) : Prop where
  | reference : t.content = .empty → t.Refers → WellShaped m head t
  | value {o : Occurs} {p : Particle} :
      t.HasElements → t.particle = some (.group o .sequence [p]) → m.IsValue head p →
      (o.min = 0 → t.Refers) → (o.Multiple → ¬ t.Refers) → WellShaped m head t

/-- No complex type of the model, or one without the top of its content model. -/
def Unfit (m : Schema) (id : TypeId) : Prop :=
  ¬ m.IsComplex id ∨ ∃ t, m.complexType? id = some t ∧ t.Bare

/-! ## Values -/

theorem mem_allowedValues_iff {h : ValueHead} {e : ElementId} :
    e ∈ m.allowedValues h ↔ m.Substitutes e h.head ∨ (h.included = true ∧ e = h.head) := by
  rw [allowedValues, List.mem_append, mem_substitutes_iff]
  cases h.included <;> simp

theorem quiet_substitutionFindings {e : ElementId} (subject : String) :
    Finding.Quiet (m.substitutionFindings subject head e) ↔ m.Allows head e := by
  unfold substitutionFindings Allows
  cases head with
  | none => simp
  | some h => simp [mem_allowedValues_iff]

theorem quiet_branchFindings {p : Particle} (subject : String) :
    Finding.Quiet (m.branchFindings subject head p) ↔
      ∃ o e, p = .element o e ∧ m.Allows head e := by
  unfold branchFindings
  cases p <;> simp [Particle.element?, quiet_substitutionFindings]

theorem quiet_valueFindings {p : Particle} (subject : String) :
    Finding.Quiet (m.valueFindings subject head p) ↔ m.IsValue head p := by
  cases p with
  | element o e =>
    rw [valueFindings, quiet_substitutionFindings]
    exact ⟨.element, fun h => by cases h; assumption⟩
  | wildcard o w => exact ⟨fun h => (Finding.not_quiet_cons_violated _ _ h).elim, nofun⟩
  | group o c ps =>
    cases c with
    | choice =>
      rw [valueFindings, Finding.quiet_flatMap]
      simp only [quiet_branchFindings]
      exact ⟨.choice, fun h => by cases h; assumption⟩
    | sequence => exact ⟨fun h => (Finding.not_quiet_cons_violated _ _ h).elim, nofun⟩
    | all => exact ⟨fun h => (Finding.not_quiet_cons_violated _ _ h).elim, nofun⟩

theorem not_quiet_structuralFindings (subject : String) (fault : Fault) :
    ¬ Finding.Quiet (structuralFindings subject fault) :=
  Finding.not_quiet_cons_violated _ _

theorem quiet_shapeFindings {top : Particle} (subject : String) :
    Finding.Quiet (m.shapeFindings subject head top) ↔
      ∃ o p, top = .group o .sequence [p] ∧ m.IsValue head p := by
  unfold shapeFindings
  split
  · next o p => simp [quiet_valueFindings]
  · next o ps hne =>
    refine iff_of_false (not_quiet_structuralFindings _ _) ?_
    rintro ⟨o', p, h, -⟩
    cases h
    exact hne p rfl
  · next o c ps _ hc =>
    refine iff_of_false (not_quiet_structuralFindings _ _) ?_
    rintro ⟨o', p, h, -⟩
    cases h
    exact hc rfl
  · exact iff_of_false (not_quiet_structuralFindings _ _) (by simp)
  · exact iff_of_false (not_quiet_structuralFindings _ _) (by simp)

theorem quiet_hrefFindings {o : Occurs} {t : ComplexType} (subject : String) :
    Finding.Quiet (hrefFindings subject o t.hasHref) ↔
      (o.min = 0 → t.Refers) ∧ (o.Multiple → ¬ t.Refers) := by
  rw [hrefFindings, Finding.quiet_append, Finding.quiet_when, Finding.quiet_when,
    ← ComplexType.hasHref_iff, ← Occurs.isMultiple_iff, Occurs.isEmptiable]
  simp

/-! ## Types -/

theorem wellShaped_iff_of_top {t : ComplexType} {top : Particle} (hc : t.HasElements)
    (ht : t.particle = some top) :
    m.WellShaped head t ↔
      ((top.occurs.min = 0 → t.Refers) ∧ (top.occurs.Multiple → ¬ t.Refers)) ∧
        ∃ o p, top = .group o .sequence [p] ∧ m.IsValue head p := by
  constructor
  · intro h
    cases h with
    | reference he _ =>
      rcases hc with h | h <;> rw [he] at h <;> cases h
    | value _ hp hv hmin hmax =>
      cases ht.symm.trans hp
      exact ⟨⟨hmin, hmax⟩, _, _, rfl, hv⟩
  · rintro ⟨⟨hmin, hmax⟩, o, p, rfl, hv⟩
    exact .value hc ht hv hmin hmax

theorem propertyFindings_of_hasElements {t : ComplexType} (hc : t.HasElements) (subject : String) :
    m.propertyFindings subject t head =
      match t.particle with
      | some top =>
        .ok (hrefFindings subject top.occurs t.hasHref ++ m.shapeFindings subject head top)
      | none => .error (.precondition (.missingParticle t.content) (some subject)) := by
  rcases hc with hc | hc <;> cases hp : t.particle <;> simp only [propertyFindings, hc, hp]

/-- The findings exist unless the type is bare, and they are quiet exactly on the two shapes. -/
theorem propertyFindings_cases (m : Schema) (subject : String) (t : ComplexType)
    (head : Option ValueHead) :
    (t.Bare ∧ ∃ e, m.propertyFindings subject t head = .error e ∧ e.isPrecondition = true) ∨
      (¬ t.Bare ∧ ∃ fs, m.propertyFindings subject t head = .ok fs ∧
        (Finding.Quiet fs ↔ m.WellShaped head t)) := by
  by_cases he : t.HasElements
  · rw [propertyFindings_of_hasElements he]
    cases hp : t.particle with
    | none => exact .inl ⟨⟨he, hp⟩, _, rfl, rfl⟩
    | some top =>
      refine .inr ⟨fun h => ?_, _, rfl, ?_⟩
      · have := h.2
        rw [hp] at this
        cases this
      · rw [Finding.quiet_append, quiet_hrefFindings, quiet_shapeFindings,
          wellShaped_iff_of_top he hp]
  · refine .inr ⟨fun h => he h.1, ?_⟩
    cases hc : t.content with
    | empty =>
      refine ⟨_, by rw [propertyFindings, hc], ?_⟩
      rw [Finding.quiet_unless, ComplexType.hasHref_iff]
      refine ⟨.reference hc, fun h => ?_⟩
      cases h with
      | reference _ hr => exact hr
      | value he' => exact absurd he' he
    | simple =>
      refine ⟨_, by rw [propertyFindings, hc], ?_⟩
      refine iff_of_false (not_quiet_structuralFindings _ _) fun h => ?_
      cases h with
      | reference h' _ => rw [hc] at h'; cases h'
      | value he' => exact he he'
    | elementOnly => exact absurd (.inl hc) he
    | mixed => exact absurd (.inr hc) he

/-- A report on a type that is not bare passes exactly on the two shapes. -/
theorem propertyReport_cases (m : Schema) (subject : String) (t : ComplexType)
    (head : Option ValueHead) :
    (t.Bare ∧ ∃ e, m.propertyReport subject t head = .error e ∧ e.isPrecondition = true) ∨
      (¬ t.Bare ∧ ∃ r, m.propertyReport subject t head = .ok r ∧ r.skipReason = none ∧
        (r.isPass = true ↔ m.WellShaped head t)) := by
  unfold propertyReport
  rcases m.propertyFindings_cases subject t head with ⟨hb, e, he, hk⟩ | ⟨hb, fs, hf, hq⟩
  · exact .inl ⟨hb, e, by rw [he]; rfl, hk⟩
  · refine .inr ⟨hb, .ofFindings ("property type " ++ subject) fs, by rw [hf]; rfl, rfl, ?_⟩
    rw [Report.isPass_ofFindings, hq]

theorem getComplexType_eq (m : Schema) (id : TypeId) :
    (¬ m.IsComplex id ∧ ∃ e, m.getComplexType id = .error e ∧ e.isPrecondition = true) ∨
      ∃ t, m.complexType? id = some t ∧ m.getComplexType id = .ok t := by
  unfold getComplexType getType IsComplex complexType?
  cases m.type? id with
  | none => exact .inl ⟨by simp, _, rfl, rfl⟩
  | some d =>
    cases d with
    | simple n b => exact .inl ⟨by simp [TypeDefinition.complex?], _, rfl, rfl⟩
    | complex t => exact .inr ⟨t, rfl, rfl⟩

/-- The check fails exactly on identifiers of no complex type and on types without the top of
their content model, with an unmet precondition. Otherwise there is a report, and it passes
exactly on the two shapes. -/
theorem checkPropertyType_cases (m : Schema) (id : TypeId) (head : Option ValueHead) :
    (m.Unfit id ∧
      ∃ e, m.checkPropertyType id head = .error e ∧ e.isPrecondition = true) ∨
    (¬ m.Unfit id ∧
      ∃ r t, m.checkPropertyType id head = .ok r ∧ m.complexType? id = some t ∧
        (r.isPass = true ↔ m.WellShaped head t)) := by
  unfold checkPropertyType Unfit
  rcases m.getComplexType_eq id with ⟨hn, e, he, hk⟩ | ⟨t, ht, hg⟩
  · exact .inl ⟨.inl hn, e, by rw [he]; rfl, hk⟩
  · have hfit : (¬ m.IsComplex id ∨ ∃ t, m.complexType? id = some t ∧ t.Bare) ↔ t.Bare := by
      simp [IsComplex, ht]
    rw [hfit, hg]
    rcases m.propertyReport_cases (m.typeLabel id) t head with ⟨hb, e, he, hk⟩ | ⟨hb, r, hr, -, hq⟩
    · exact .inl ⟨hb, e, he, hk⟩
    · exact .inr ⟨hb, r, t, hr, ht, hq⟩

end Schema

end GmlCheck
