import GmlCheck.Proofs.Attempt
import GmlCheck.Proofs.Schema.Built
import GmlCheck.Proofs.Schema.PropertyShape
import GmlCheck.Schema.Feature

/-!
# What the verdicts on a schema mean

`checkAll_verdicts` reads the four reports on an application schema in terms of
derivation, substitution, reach and the shapes of property types: which one is
skipped, which one fails and on account of what.
-/

namespace GmlCheck

namespace Report

theorem verdict_mergeAll_eq_fail_iff {check : String} {rs : List Report} :
    (mergeAll check rs).verdict = .fail ↔ ∃ r ∈ rs, r.violations ≠ [] := by
  rw [verdict_eq_fail_iff, mergeAll_eq, ne_eq, List.flatMap_eq_nil_iff]
  simp

theorem violations_push_ne_nil (r : Report) (v : Violation) : (r.push v).violations ≠ [] := by
  simp [push]

end Report

namespace Schema

variable {m : Schema}

/-! ## Properties -/

/-- The property exists, and its type is complex and has the top of its content model. -/
def Checkable (m : Schema) (e : ElementId) : Prop :=
  ∃ d t, m.element? e = some d ∧ m.complexType? d.type = some t ∧ ¬ t.Bare

/-- The property exists, and its type has one of the two shapes. -/
def ValidProperty (m : Schema) (head : Option ValueHead) (e : ElementId) : Prop :=
  ∃ d t, m.element? e = some d ∧ m.complexType? d.type = some t ∧ m.WellShaped head t

/-- The property exists, and its type has empty content. -/
def EmptyProperty (m : Schema) (e : ElementId) : Prop :=
  ∃ d t, m.element? e = some d ∧ m.complexType? d.type = some t ∧ t.content = .empty

theorem checkPropertyElement_of_complex {e : ElementId} {d : ElementDeclaration} {t : ComplexType}
    (he : m.element? e = some d) (ht : m.type? d.type = some (.complex t))
    (head : Option ValueHead) :
    m.checkPropertyElement e head = m.propertyReport (t.name.getD d.name).text t head := by
  simp [checkPropertyElement, getElement, getType, he, ht, TypeDefinition.complex?,
    TypeDefinition.name]

/-- A property is checked if it is one that can be, and the report has no violation exactly on
the two shapes. -/
theorem checkPropertyElement_cases (m : Schema) (e : ElementId) (head : Option ValueHead) :
    (¬ m.Checkable e ∧
      ∃ x, m.checkPropertyElement e head = .error x ∧ x.isPrecondition = true) ∨
    (m.Checkable e ∧ ∃ r, m.checkPropertyElement e head = .ok r ∧ r.skipReason = none ∧
      (r.violations = [] ↔ m.ValidProperty head e)) := by
  cases he : m.element? e with
  | none =>
    refine .inl ⟨by simp [Checkable, he], .precondition (.unknownElement e) none, ?_, rfl⟩
    simp [checkPropertyElement, getElement, he]
  | some d =>
    cases ht : m.type? d.type with
    | none =>
      refine .inl ⟨by simp [Checkable, complexType?, he, ht],
        .precondition (.unknownType d.type) none, ?_, rfl⟩
      simp [checkPropertyElement, getElement, getType, he, ht]
    | some td =>
      cases td with
      | simple n b =>
        refine .inl ⟨by simp [Checkable, complexType?, TypeDefinition.complex?, he, ht],
          .precondition .complexPropertyExpected (some (m.elementRef e).text), ?_, rfl⟩
        simp [checkPropertyElement, getElement, getType, TypeDefinition.complex?, he, ht]
      | complex t =>
        have hc : m.complexType? d.type = some t := by
          simp [complexType?, ht, TypeDefinition.complex?]
        have hcheck : m.Checkable e ↔ ¬ t.Bare := by simp [Checkable, he, hc]
        have hvalid : m.ValidProperty head e ↔ m.WellShaped head t := by
          simp [ValidProperty, he, hc]
        rw [checkPropertyElement_of_complex he ht, hcheck, hvalid]
        rcases m.propertyReport_cases (t.name.getD d.name).text t head with
          ⟨hb, x, hx, hk⟩ | ⟨hb, r, hr, hs, hq⟩
        · exact .inl ⟨not_not.2 hb, x, hx, hk⟩
        · exact .inr ⟨hb, r, hr, hs, by rw [← hq, Report.isPass_iff_of_skipReason hs]⟩

/-- The check of a metadata property adds a violation where the content is empty. -/
theorem checkMetadataProperty_ok {e : ElementId} {r : Report}
    (h : m.checkMetadataProperty e = .ok r) :
    r.skipReason = none ∧ (r.violations = [] ↔ m.ValidProperty none e ∧ ¬ m.EmptyProperty e) := by
  unfold checkMetadataProperty at h
  obtain ⟨r₀, hr₀, h⟩ := Attempt.bind_eq_ok_iff.1 h
  obtain ⟨d, hd, h⟩ := Attempt.bind_eq_ok_iff.1 h
  obtain ⟨t, ht, h⟩ := Attempt.bind_eq_ok_iff.1 h
  rw [getElement_eq_ok_iff] at hd
  have hc : m.complexType? d.type = some t := by
    rcases m.getComplexType_eq d.type with ⟨-, x, hx, -⟩ | ⟨t', ht', hg⟩
    · rw [hx] at ht; cases ht
    · rw [hg] at ht; cases ht; exact ht'
  have hempty : m.EmptyProperty e ↔ t.content = .empty := by
    simp [EmptyProperty, hd, hc]
  rcases m.checkPropertyElement_cases e none with ⟨-, x, hx, -⟩ | ⟨-, r₁, hr₁, hs, hv⟩
  · rw [hx] at hr₀; cases hr₀
  · rw [hr₁] at hr₀; cases hr₀
    rw [hempty]
    cases h
    split
    · next he => exact ⟨hs, iff_of_false (Report.violations_push_ne_nil _ _) fun h => h.2 he⟩
    · next he => exact ⟨hs, by rw [hv]; simp [he]⟩

/-- A check of properties fails on account of the bad ones. -/
theorem checkProperties_ok {check : String} {one : ElementId → Except Error Report}
    {es : List ElementId} {r : Report} {Good : ElementId → Prop}
    (hone : ∀ e r, one e = .ok r → (r.violations = [] ↔ Good e))
    (h : checkProperties check one es = .ok r) :
    r.check = check ∧ r.verdict ≠ .skip ∧ (r.verdict = .fail ↔ ∃ e ∈ es, ¬ Good e) := by
  unfold checkProperties at h
  obtain ⟨rs, hrs, h⟩ := Attempt.bind_eq_ok_iff.1 h
  cases h
  refine ⟨by rw [Report.mergeAll_eq], ?_, ?_⟩
  · exact Report.verdict_ne_skip_of_skipReason (by rw [Report.mergeAll_eq])
  · rw [Report.verdict_mergeAll_eq_fail_iff, Attempt.exists_mem_of_mapM hrs]
    constructor
    · rintro ⟨e, he, r, hr, hv⟩
      exact ⟨e, he, fun hg => hv ((hone e r hr).2 hg)⟩
    · rintro ⟨e, he, hb⟩
      obtain ⟨r, hr⟩ := Attempt.exists_of_mapM hrs he
      exact ⟨e, he, r, hr, fun hv => hb ((hone e r hr).1 hv)⟩

theorem checkPropertyElement_ok {head : Option ValueHead} (e : ElementId) (r : Report)
    (h : m.checkPropertyElement e head = .ok r) :
    r.violations = [] ↔ m.ValidProperty head e := by
  rcases m.checkPropertyElement_cases e head with ⟨-, x, hx, -⟩ | ⟨-, r', hr', -, hv⟩
  · rw [hx] at h; cases h
  · rw [hr'] at h; cases h; exact hv

theorem mem_propertiesOfType_iff {base : TypeId} {accept : TypeId → Bool} {e : ElementId} :
    e ∈ m.propertiesOfType base accept ↔
      (m.Global e ∧ m.TypedBy base e) ∨
        ∃ t, m.Reachable t ∧ accept t = true ∧ m.LocalIn t base e := by
  rw [propertiesOfType, List.mem_eraseDups, List.mem_append, mem_globalElementsOfType_iff,
    mem_localElementsOfType_iff]

/-! ## Features -/

theorem strangers_eq_nil_iff {head : ElementId} {t : TypeId} :
    m.strangers head t = [] ↔
      ∀ e, m.Global e → m.TypedBy t e → m.Substitutes e head := by
  simp only [strangers, List.map_eq_nil_iff, List.filter_eq_nil_iff, Bool.not_eq_true',
    Bool.not_eq_false, List.contains_iff_mem, mem_substitutes_iff, mem_globalElementsOfType_iff,
    and_imp]

theorem quiet_strangers_iff {head : ElementId} {t : TypeId} :
    Finding.Quiet (m.strangers head t) ↔
      ∀ e, m.Global e → m.TypedBy t e → m.Substitutes e head := by
  rw [← strangers_eq_nil_iff]
  constructor
  · intro h
    rw [List.eq_nil_iff_forall_not_mem]
    intro f hf
    obtain ⟨e, -, rfl⟩ := List.mem_map.1 hf
    exact h _ hf
  · intro h
    rw [h]
    exact Finding.quiet_nil

theorem checkFeatureSubstitution_verdict (head : ElementId) :
    let r := m.checkFeatureSubstitution m.featureTypes head
    (r.verdict = .skip ↔ ¬ ∃ t, m.Feature t) ∧
      (r.verdict = .fail ↔
        ∃ t e, m.Feature t ∧ m.Global e ∧ m.TypedBy t e ∧ ¬ m.Substitutes e head) := by
  unfold checkFeatureSubstitution
  by_cases he : m.featureTypes.isEmpty = true
  · have hno := featureTypes_isEmpty_iff.1 he
    rw [if_pos he]
    exact ⟨iff_of_true rfl hno, iff_of_false nofun fun ⟨t, _, ht, _⟩ => hno ⟨t, ht⟩⟩
  · have hsome : ∃ t, m.Feature t := not_not.1 fun h => he (featureTypes_isEmpty_iff.2 h)
    rw [if_neg he]
    refine ⟨iff_of_false (Report.verdict_ne_skip_of_skipReason rfl) (not_not.2 hsome), ?_⟩
    rw [Report.verdict_eq_fail_iff, ne_eq, Report.violations_ofFindings_eq_nil_iff,
      Finding.quiet_flatMap]
    simp only [mem_featureTypes_iff, quiet_strangers_iff, not_forall, exists_prop]
    exact ⟨fun ⟨t, ht, e, hg, hy, hs⟩ => ⟨t, e, ht, hg, hy, hs⟩,
      fun ⟨t, e, ht, hg, hy, hs⟩ => ⟨t, ht, e, hg, hy, hs⟩⟩

/-! ## All checks -/

/-- The components of GML that the checks look up. -/
structure Anchors (m : Schema) where
  feature : ElementId
  object : ElementId
  featureMember : TypeId
  metadata : TypeId
  objectMember : TypeId
  feature_eq : m.globalElement? (.gml "AbstractFeature") = some feature
  object_eq : m.globalElement? (.gml "AbstractGML") = some object
  featureMember_eq : m.globalType? (.gml "AbstractFeatureMemberType") = some featureMember
  metadata_eq : m.globalType? (.gml "AbstractMetadataPropertyType") = some metadata
  objectMember_eq : m.globalType? (.gml "AbstractMemberType") = some objectMember

/-- The check of feature members, which is left out where there are no features. -/
def memberAttempt (m : Schema) (s : Settings) (a : m.Anchors) : Except Error Report :=
  if m.featureTypes.isEmpty then .ok (.skipped "feature collection members" noFeatures)
  else m.checkFeatureMembers s a.featureMember a.feature

/-- With the components of GML at hand, the checks run one after the other. -/
theorem checkAll_eq (a : m.Anchors) (s : Settings) :
    m.checkAll s = do
      let r₂ ← m.memberAttempt s a
      let r₃ ← m.checkMetadata a.metadata
      let r₄ ← m.checkObjectMembers a.objectMember a.object
      return [m.checkFeatureSubstitution m.featureTypes a.feature, r₂, r₃, r₄] := by
  rw [checkAll, findElement_eq_ok_iff.2 a.feature_eq, findElement_eq_ok_iff.2 a.object_eq,
    findType_eq_ok_iff.2 a.featureMember_eq, findType_eq_ok_iff.2 a.metadata_eq,
    findType_eq_ok_iff.2 a.objectMember_eq]
  simp only [Attempt.ok_bind, memberAttempt]
  split <;> rfl

/-- Where all checks have a result, the components of GML are declared. -/
theorem anchors_of_checkAll_ok {s : Settings} {rs : List Report} (h : m.checkAll s = .ok rs) :
    Nonempty m.Anchors := by
  unfold checkAll at h
  obtain ⟨feature, h₁, h⟩ := Attempt.bind_eq_ok_iff.1 h
  obtain ⟨object, h₂, h⟩ := Attempt.bind_eq_ok_iff.1 h
  obtain ⟨featureMember, h₃, h⟩ := Attempt.bind_eq_ok_iff.1 h
  obtain ⟨metadata, h₄, h⟩ := Attempt.bind_eq_ok_iff.1 h
  obtain ⟨objectMember, h₅, -⟩ := Attempt.bind_eq_ok_iff.1 h
  exact ⟨feature, object, featureMember, metadata, objectMember, findElement_eq_ok_iff.1 h₁,
    findElement_eq_ok_iff.1 h₂, findType_eq_ok_iff.1 h₃, findType_eq_ok_iff.1 h₄,
    findType_eq_ok_iff.1 h₅⟩

/-- A metadata property: a global one, or a local one in an object of GML. -/
def MetadataProperty (m : Schema) (base : TypeId) (e : ElementId) : Prop :=
  (m.Global e ∧ m.TypedBy base e) ∨
    ∃ t, m.Reachable t ∧ m.DerivesFromGml "AbstractGMLType" t ∧ m.LocalIn t base e

/-- A member of an object collection: a global one, or a local one in any reachable type. -/
def ObjectMember (m : Schema) (base : TypeId) (e : ElementId) : Prop :=
  (m.Global e ∧ m.TypedBy base e) ∨ ∃ t, m.Reachable t ∧ m.LocalIn t base e

/-- What the reports mean. Without features the first two are skipped. The first one fails if
a global element of a feature type is no substitute for the abstract feature, the others if one
of the properties that they are about is not what it should be. -/
structure Verdicts (m : Schema) (s : Settings) (a : m.Anchors) (r₁ r₂ r₃ r₄ : Report) : Prop where
  substitution_skip : r₁.verdict = .skip ↔ ¬ ∃ t, m.Feature t
  substitution_fail : r₁.verdict = .fail ↔
    ∃ t e, m.Feature t ∧ m.Global e ∧ m.TypedBy t e ∧ ¬ m.Substitutes e a.feature
  members_skip : r₂.verdict = .skip ↔ ¬ ∃ t, m.Feature t
  members_fail : r₂.verdict = .fail ↔ (∃ t, m.Feature t) ∧
    ∃ e, m.Extends a.featureMember e ∧ ¬ m.ValidProperty (some ⟨a.feature, s.includeHead⟩) e
  metadata_skip : r₃.verdict ≠ .skip
  metadata_fail : r₃.verdict = .fail ↔
    ∃ e, m.MetadataProperty a.metadata e ∧ (¬ m.ValidProperty none e ∨ m.EmptyProperty e)
  objects_skip : r₄.verdict ≠ .skip
  objects_fail : r₄.verdict = .fail ↔
    ∃ e, m.ObjectMember a.objectMember e ∧ ¬ m.ValidProperty (some ⟨a.object, false⟩) e

theorem memberAttempt_ok {s : Settings} {a : m.Anchors} {r : Report}
    (h : m.memberAttempt s a = .ok r) :
    (r.verdict = .skip ↔ ¬ ∃ t, m.Feature t) ∧
      (r.verdict = .fail ↔ (∃ t, m.Feature t) ∧ ∃ e, m.Extends a.featureMember e ∧
        ¬ m.ValidProperty (some ⟨a.feature, s.includeHead⟩) e) := by
  unfold memberAttempt at h
  split at h
  · next he =>
    cases h
    have hno := featureTypes_isEmpty_iff.1 he
    exact ⟨iff_of_true rfl hno, iff_of_false nofun fun h => hno h.1⟩
  · next he =>
    have hsome : ∃ t, m.Feature t := not_not.1 fun h => he (featureTypes_isEmpty_iff.2 h)
    obtain ⟨-, hskip, hfail⟩ := checkProperties_ok checkPropertyElement_ok h
    refine ⟨iff_of_false hskip (not_not.2 hsome), ?_⟩
    rw [hfail, and_iff_right hsome]
    simp only [mem_elementsExtending_iff]

theorem checkMetadata_ok {base : TypeId} {r : Report} (h : m.checkMetadata base = .ok r) :
    r.verdict ≠ .skip ∧
      (r.verdict = .fail ↔
        ∃ e, m.MetadataProperty base e ∧ (¬ m.ValidProperty none e ∨ m.EmptyProperty e)) := by
  obtain ⟨-, hskip, hfail⟩ := checkProperties_ok (fun _ _ h => (checkMetadataProperty_ok h).2) h
  refine ⟨hskip, ?_⟩
  rw [hfail]
  simp only [mem_propertiesOfType_iff, isGmlObjectType, derivesFromGml_iff, MetadataProperty,
    not_and_or, not_not]

theorem checkObjectMembers_ok {base : TypeId} {head : ElementId} {r : Report}
    (h : m.checkObjectMembers base head = .ok r) :
    r.verdict ≠ .skip ∧
      (r.verdict = .fail ↔
        ∃ e, m.ObjectMember base e ∧ ¬ m.ValidProperty (some ⟨head, false⟩) e) := by
  obtain ⟨-, hskip, hfail⟩ := checkProperties_ok checkPropertyElement_ok h
  refine ⟨hskip, ?_⟩
  rw [hfail]
  simp only [mem_propertiesOfType_iff, ObjectMember, true_and]

/-- Whenever all checks have a result there are four reports, and this is what they mean. -/
theorem checkAll_verdicts {s : Settings} {rs : List Report} (h : m.checkAll s = .ok rs) :
    ∃ (a : m.Anchors) (r₁ r₂ r₃ r₄ : Report), rs = [r₁, r₂, r₃, r₄] ∧
      m.Verdicts s a r₁ r₂ r₃ r₄ := by
  obtain ⟨a⟩ := anchors_of_checkAll_ok h
  rw [checkAll_eq a] at h
  obtain ⟨r₂, h₂, h⟩ := Attempt.bind_eq_ok_iff.1 h
  obtain ⟨r₃, h₃, h⟩ := Attempt.bind_eq_ok_iff.1 h
  obtain ⟨r₄, h₄, h⟩ := Attempt.bind_eq_ok_iff.1 h
  cases h
  obtain ⟨hskip₁, hfail₁⟩ := m.checkFeatureSubstitution_verdict a.feature
  obtain ⟨hskip₂, hfail₂⟩ := memberAttempt_ok h₂
  obtain ⟨hskip₃, hfail₃⟩ := checkMetadata_ok h₃
  obtain ⟨hskip₄, hfail₄⟩ := checkObjectMembers_ok h₄
  exact ⟨a, _, r₂, r₃, r₄, rfl, hskip₁, hfail₁, hskip₂, hfail₂, hskip₃, hfail₃, hskip₄, hfail₄⟩

/-- Roads and collections of roads. The elements `Stray` and `Lost` are typed as roads and stand
for nothing. -/
def roads : Schema :=
  let named (name : QName) (base : Option TypeId) : ComplexType :=
    ⟨some name, base.map (⟨·, .extension⟩), false, .empty, none, []⟩
  let member : ComplexType :=
    { named (.bare "RoadMemberType") (some ⟨2⟩) with
      content := .elementOnly
      particle := some (.group .once .sequence [.element .once ⟨2⟩]) }
  ofLists
    [.complex { named (.gml "AbstractGMLType") none with isAbstract := true },
      .complex { named (.gml "AbstractFeatureType") (some ⟨0⟩) with isAbstract := true },
      .complex (named (.gml "AbstractFeatureMemberType") none),
      .complex (named (.gml "AbstractMetadataPropertyType") none),
      .complex (named (.gml "AbstractMemberType") none),
      .complex (named (.bare "RoadType") (some ⟨1⟩)),
      .complex member]
    [⟨.gml "AbstractGML", ⟨0⟩, .global, true, none⟩,
      ⟨.gml "AbstractFeature", ⟨1⟩, .global, true, some ⟨0⟩⟩,
      ⟨.bare "Road", ⟨5⟩, .global, false, some ⟨1⟩⟩,
      ⟨.bare "Stray", ⟨5⟩, .global, false, none⟩,
      ⟨.bare "Lost", ⟨5⟩, .global, false, none⟩,
      ⟨.bare "roadMember", ⟨6⟩, .global, false, none⟩]

theorem checkAll_verdicts_roads :
    ∃ rs, roads.checkAll ⟨false, 0, true⟩ = .ok rs ∧
      rs.map Report.verdict = [.fail, .pass, .pass, .pass] ∧
      ∃ (a : roads.Anchors) (r₁ r₂ r₃ r₄ : Report), rs = [r₁, r₂, r₃, r₄] ∧
        roads.Verdicts ⟨false, 0, true⟩ a r₁ r₂ r₃ r₄ := by
  have hrun : (roads.checkAll ⟨false, 0, true⟩).toOption.map (·.map Report.verdict) =
      some [.fail, .pass, .pass, .pass] := by cbv
  cases h : roads.checkAll ⟨false, 0, true⟩ with
  | error e => rw [h] at hrun; cases hrun
  | ok rs =>
    rw [h] at hrun
    exact ⟨rs, rfl, Option.some.inj hrun, checkAll_verdicts h⟩

end Schema

end GmlCheck
