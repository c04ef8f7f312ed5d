import GmlCheck.Proofs.Schema.FeatureVerdict

/-!
# When the checks of a schema fail

The checks need five components of GML and properties whose types can be looked
into. They fail exactly if a component is not declared, or if a property that they
examine has a simple type or a content model without its top. Identifiers that point
to nothing never make them fail, for an element whose type does not exist counts as
no property at all.
-/

namespace GmlCheck

namespace Schema

open Attempt (FailsBy)

variable {m : Schema} {r : Roll}

/-! ## Components of GML -/

/-- The components of GML that the checks look up, in this order. -/
def required : List ComponentRef := [
  ⟨.elementDeclaration, .gml "AbstractFeature"⟩,
  ⟨.elementDeclaration, .gml "AbstractGML"⟩,
  ⟨.typeDefinition, .gml "AbstractFeatureMemberType"⟩,
  ⟨.typeDefinition, .gml "AbstractMetadataPropertyType"⟩,
  ⟨.typeDefinition, .gml "AbstractMemberType"⟩]

/-- The schema has no global component of that kind and name. -/
def Lacks (m : Schema) (c : ComponentRef) : Prop :=
  match c.kind with
  | .elementDeclaration => m.globalElement? c.name = none
  | .typeDefinition => m.globalType? c.name = none
  | .attributeDeclaration => True

/-- The failure says that a component is not there. -/
def NotFound (m : Schema) (c : ComponentRef) (x : Error) : Prop :=
  m.Lacks c ∧ x = .notFound c

theorem findElement_failsBy (n : QName) :
    FailsBy (m.NotFound ⟨.elementDeclaration, n⟩) (m.findElement n) := by
  unfold findElement NotFound Lacks
  cases m.globalElement? n with
  | none => exact .error ⟨rfl, rfl⟩
  | some e => exact .ok e (by simp)

theorem findType_failsBy (n : QName) :
    FailsBy (m.NotFound ⟨.typeDefinition, n⟩) (m.findType n) := by
  unfold findType NotFound Lacks
  cases m.globalType? n with
  | none => exact .error ⟨rfl, rfl⟩
  | some t => exact .ok t (by simp)

/-! ## Properties -/

/-- The property cannot be checked, and this is how the check of it fails: its type is simple, or
the top of its content model is missing. -/
inductive Stuck (m : Schema) (e : ElementId) : Error → Prop where
  | simple {d : ElementDeclaration} {n : Option QName} {b : Option Derivation} :
      m.element? e = some d → m.type? d.type = some (.simple n b) →
      Stuck m e (.precondition .complexPropertyExpected (some (m.elementRef e).text))
  | bare {d : ElementDeclaration} {t : ComplexType} :
      m.element? e = some d → m.type? d.type = some (.complex t) → t.Bare →
      Stuck m e (.precondition (.missingParticle t.content) (some (t.name.getD d.name).text))

theorem Stuck.isPrecondition {e : ElementId} {x : Error} (h : m.Stuck e x) :
    x.isPrecondition = true := by
  cases h <;> rfl

/-- The property and its type are components of the schema. -/
def Typed (m : Schema) (e : ElementId) : Prop :=
  ∃ d t, m.element? e = some d ∧ m.type? d.type = some t

theorem propertyFindings_failsBy (subject : String) (t : ComplexType) (head : Option ValueHead) :
    FailsBy (fun x => t.Bare ∧ x = .precondition (.missingParticle t.content) (some subject))
      (m.propertyFindings subject t head) := by
  by_cases hc : t.HasElements
  · rw [propertyFindings_of_hasElements hc]
    cases hp : t.particle with
    | none => exact .error ⟨⟨hc, hp⟩, rfl⟩
    | some top => exact .ok _ fun x ⟨hb, _⟩ => by rw [hb.2] at hp; cases hp
  · have hok : ∃ fs, m.propertyFindings subject t head = .ok fs := by
      rcases m.propertyFindings_cases subject t head with ⟨hb, -⟩ | ⟨-, fs, hfs, -⟩
      · exact absurd hb.1 hc
      · exact ⟨fs, hfs⟩
    obtain ⟨fs, hfs⟩ := hok
    rw [hfs]
    exact .ok fs fun x ⟨hb, _⟩ => hc hb.1

theorem checkPropertyElement_failsBy {e : ElementId} (he : m.Typed e) (head : Option ValueHead) :
    FailsBy (m.Stuck e) (m.checkPropertyElement e head) := by
  obtain ⟨d, t, hd, ht⟩ := he
  cases t with
  | simple n b =>
    have hx : m.checkPropertyElement e head =
        .error (.precondition .complexPropertyExpected (some (m.elementRef e).text)) := by
      simp [checkPropertyElement, getElement, getType, TypeDefinition.complex?, hd, ht]
    rw [hx]
    exact .error (.simple hd ht)
  | complex t =>
    rw [checkPropertyElement_of_complex hd ht]
    refine ((propertyFindings_failsBy _ t head).map _).congr fun x => ?_
    constructor
    · rintro ⟨hb, rfl⟩
      exact .bare hd ht hb
    · intro hx
      cases hx with
      | simple hd' ht' =>
        cases hd.symm.trans hd'
        cases ht.symm.trans ht'
      | bare hd' ht' hb =>
        cases hd.symm.trans hd'
        cases ht.symm.trans ht'
        exact ⟨hb, rfl⟩

/-- Once the shape of a metadata property has been checked, its content can be looked at. -/
theorem checkMetadataProperty_failsBy {e : ElementId} (he : m.Typed e) :
    FailsBy (m.Stuck e) (m.checkMetadataProperty e) := by
  have hcheck := checkPropertyElement_failsBy he none
  unfold checkMetadataProperty
  rcases m.checkPropertyElement_cases e none with ⟨-, x, hx, -⟩ | ⟨⟨d, t, hd, ht, -⟩, r, hr, -⟩
  · rw [hx] at hcheck ⊢
    exact .error (hcheck.of_error rfl)
  · have hg : m.getComplexType d.type = .ok t := by
      rcases m.getComplexType_eq d.type with ⟨hn, -⟩ | ⟨t', ht', hg⟩
      · exact absurd ⟨t, ht⟩ hn
      · cases ht.symm.trans ht'
        exact hg
    rw [hr] at hcheck ⊢
    simp only [Attempt.ok_bind, getElement_eq_ok_iff.2 hd, hg]
    cases hcheck with
    | ok _ hno => exact .ok _ hno

theorem checkProperties_failsBy (check : String) {one : ElementId → Except Error Report}
    {es : List ElementId} {P : ElementId → Prop} (hes : ∀ e, e ∈ es ↔ P e)
    (h : ∀ e, P e → FailsBy (m.Stuck e) (one e)) :
    FailsBy (fun x => ∃ e, P e ∧ m.Stuck e x) (checkProperties check one es) := by
  refine ((FailsBy.mapM fun e he => h e ((hes e).1 he)).map _).congr fun x => ?_
  simp only [hes]

/-! ## What is examined -/

/-- The properties that the checks look at: the members of feature collections if there are any
features, the metadata properties and the members of object collections. -/
inductive Examined (m : Schema) (a : m.Anchors) (e : ElementId) : Prop where
  | featureMember {t : TypeId} : m.Feature t → m.Extends a.featureMember e → Examined m a e
  | metadata : m.MetadataProperty a.metadata e → Examined m a e
  | objectMember : m.ObjectMember a.objectMember e → Examined m a e

/-- The types from which the types of examined properties derive. -/
def Anchors.IsBase (a : m.Anchors) (b : TypeId) : Prop :=
  b = a.featureMember ∨ b = a.metadata ∨ b = a.objectMember

theorem CountsAs.derives {t b : TypeId} (h : m.CountsAs t b) : m.Derives none t b := by
  rcases h with rfl | ⟨-, h⟩
  · exact .refl
  · exact h

theorem MetadataProperty.typedBy {base : TypeId} {e : ElementId}
    (h : m.MetadataProperty base e) : m.TypedBy base e := by
  rcases h with ⟨-, h⟩ | ⟨t, -, -, -, -, h⟩
  · exact h
  · exact h

theorem ObjectMember.typedBy {base : TypeId} {e : ElementId} (h : m.ObjectMember base e) :
    m.TypedBy base e := by
  rcases h with ⟨-, h⟩ | ⟨t, -, -, -, h⟩
  · exact h
  · exact h

/-- The declared type of an examined property leads to one of the bases. -/
theorem Examined.derives {a : m.Anchors} {e : ElementId} (h : m.Examined a e) :
    ∃ d method b, m.element? e = some d ∧ a.IsBase b ∧ m.Derives method d.type b := by
  cases h with
  | featureMember _ h =>
    obtain ⟨d, hd, h⟩ := h
    exact ⟨d, _, _, hd, .inl rfl, h⟩
  | metadata h =>
    obtain ⟨d, hd, h⟩ := h.typedBy
    exact ⟨d, _, _, hd, .inr (.inl rfl), h.derives⟩
  | objectMember h =>
    obtain ⟨d, hd, h⟩ := h.typedBy
    exact ⟨d, _, _, hd, .inr (.inr rfl), h.derives⟩

theorem exists_type_of_hasBase {method : Option Method} {t b : TypeId}
    (h : m.HasBase method t b) : ∃ d, m.type? t = some d := by
  obtain ⟨d, hd, -⟩ := h
  obtain ⟨t', ht', -⟩ := Option.bind_eq_some_iff.1 hd
  exact ⟨t', ht'⟩

/-- A type that is not there derives from none that is. -/
theorem Derives.exists_type {method : Option Method} {t b : TypeId} (h : m.Derives method t b)
    (hb : ∃ d, m.type? b = some d) : ∃ d, m.type? t = some d := by
  rcases Relation.ReflTransGen.cases_head h with rfl | ⟨c, hc, -⟩
  · exact hb
  · exact exists_type_of_hasBase hc

/-- In a schema that operations build the names lead to types that are there. -/
theorem Indexed.exists_type (h : Indexed m r) {n : QName} {t : TypeId}
    (ht : m.globalType? n = some t) : ∃ d, m.type? t = some d :=
  mem_typeIds_iff.1 (h.types.mem_of_name (h.types.name_of_find ht))

theorem Anchors.IsBase.exists_type (h : Indexed m r) {a : m.Anchors} {b : TypeId}
    (hb : a.IsBase b) : ∃ d, m.type? b = some d := by
  rcases hb with rfl | rfl | rfl
  · exact h.exists_type a.featureMember_eq
  · exact h.exists_type a.metadata_eq
  · exact h.exists_type a.objectMember_eq

theorem Examined.typed (hm : Indexed m r) {a : m.Anchors} {e : ElementId} (h : m.Examined a e) :
    m.Typed e := by
  obtain ⟨d, method, b, hd, hb, h⟩ := h.derives
  obtain ⟨t, ht⟩ := h.exists_type (hb.exists_type hm)
  exact ⟨d, t, hd, ht⟩

/-! ## Schemas without misplaced types -/

/-- No simple type derives from a complex one, the bases of properties are complex, and no content
model lacks its top. -/
structure Orderly (m : Schema) (a : m.Anchors) : Prop where
  simple_base : ∀ t n d, m.type? t = some (.simple n (some d)) → ¬ m.IsComplex d.base
  base_complex : ∀ b, a.IsBase b → m.IsComplex b
  topped : ∀ t c, m.complexType? t = some c → ¬ c.Bare

theorem Orderly.isComplex_of_derives {a : m.Anchors} (h : m.Orderly a) {method : Option Method}
    {t b : TypeId} (ht : m.Derives method t b) (hb : m.IsComplex b) : m.IsComplex t := by
  induction ht using Relation.ReflTransGen.head_induction_on with
  | refl => exact hb
  | @head t c hc _ ih =>
    obtain ⟨d, hd, rfl, -⟩ := hc
    obtain ⟨td, htd, hd⟩ := Option.bind_eq_some_iff.1 hd
    cases td with
    | simple n d' =>
      obtain rfl : d' = some d := hd
      exact absurd ih (h.simple_base _ n d htd)
    | complex c => exact ⟨c, by rw [complexType?, htd]; rfl⟩

theorem Orderly.not_stuck {a : m.Anchors} (h : m.Orderly a) {e : ElementId} {x : Error}
    (he : m.Examined a e) : ¬ m.Stuck e x := by
  obtain ⟨d, method, b, hd, hb, hderives⟩ := he.derives
  obtain ⟨c, hc⟩ := h.isComplex_of_derives hderives (h.base_complex b hb)
  intro hx
  cases hx with
  | simple hd' ht =>
    cases hd.symm.trans hd'
    rw [complexType?, ht] at hc
    cases hc
  | bare hd' ht hbare =>
    cases hd.symm.trans hd'
    exact h.topped _ _ (by rw [complexType?, ht]; rfl) hbare

/-! ## All checks -/

theorem mem_metadataProperties_iff {base : TypeId} {e : ElementId} :
    e ∈ m.propertiesOfType base m.isGmlObjectType ↔ m.MetadataProperty base e := by
  rw [mem_propertiesOfType_iff]
  simp only [isGmlObjectType, derivesFromGml_iff, MetadataProperty]

theorem mem_objectMembers_iff {base : TypeId} {e : ElementId} :
    e ∈ m.propertiesOfType base (fun _ => true) ↔ m.ObjectMember base e := by
  rw [mem_propertiesOfType_iff]
  simp only [ObjectMember, true_and]

/-- Without features the members of feature collections are not examined. -/
theorem memberAttempt_failsBy (hm : Indexed m r) (a : m.Anchors) (s : Settings) :
    FailsBy (fun x => ∃ t e, m.Feature t ∧ m.Extends a.featureMember e ∧ m.Stuck e x)
      (m.memberAttempt s a) := by
  unfold memberAttempt
  split
  · next hempty =>
    exact .ok _ fun x ⟨t, _, ht, _⟩ => featureTypes_isEmpty_iff.1 hempty ⟨t, ht⟩
  · next hempty =>
    obtain ⟨t, ht⟩ : ∃ t, m.Feature t := not_not.1 fun h => hempty (featureTypes_isEmpty_iff.2 h)
    have hmembers := checkProperties_failsBy (P := m.Extends a.featureMember)
      "feature collection members" (fun _ => mem_elementsExtending_iff)
      fun e he => checkPropertyElement_failsBy (Examined.typed hm (.featureMember ht he))
        (some ⟨a.feature, s.includeHead⟩)
    exact hmembers.congr fun x =>
      ⟨fun ⟨e, he, hx⟩ => ⟨t, e, ht, he, hx⟩, fun ⟨_, e, _, he, hx⟩ => ⟨e, he, hx⟩⟩

theorem checkMetadata_failsBy (hm : Indexed m r) (a : m.Anchors) :
    FailsBy (fun x => ∃ e, m.MetadataProperty a.metadata e ∧ m.Stuck e x)
      (m.checkMetadata a.metadata) :=
  checkProperties_failsBy _ (fun _ => mem_metadataProperties_iff) fun _ he =>
    checkMetadataProperty_failsBy (Examined.typed hm (.metadata he))

theorem checkObjectMembers_failsBy (hm : Indexed m r) (a : m.Anchors) :
    FailsBy (fun x => ∃ e, m.ObjectMember a.objectMember e ∧ m.Stuck e x)
      (m.checkObjectMembers a.objectMember a.object) :=
  checkProperties_failsBy _ (fun _ => mem_objectMembers_iff) fun _ he =>
    checkPropertyElement_failsBy (Examined.typed hm (.objectMember he)) _

theorem checkAll_failsBy_of_anchors (hm : Indexed m r) (a : m.Anchors) (s : Settings) :
    FailsBy (fun x => ∃ e, m.Examined a e ∧ m.Stuck e x) (m.checkAll s) := by
  rw [checkAll_eq a]
  refine ((memberAttempt_failsBy hm a s).bind fun _ _ =>
    (checkMetadata_failsBy hm a).bind fun _ _ =>
      (checkObjectMembers_failsBy hm a).map _).congr fun x => ?_
  constructor
  · rintro (⟨t, e, ht, he, hx⟩ | ⟨e, he, hx⟩ | ⟨e, he, hx⟩)
    · exact ⟨e, .featureMember ht he, hx⟩
    · exact ⟨e, .metadata he, hx⟩
    · exact ⟨e, .objectMember he, hx⟩
  · rintro ⟨e, he, hx⟩
    cases he with
    | featureMember ht he => exact .inl ⟨_, e, ht, he, hx⟩
    | metadata he => exact .inr (.inl ⟨e, he, hx⟩)
    | objectMember he => exact .inr (.inr ⟨e, he, hx⟩)

theorem Anchors.not_lacks (a : m.Anchors) : ∀ c ∈ required, ¬ m.Lacks c := by
  simp [required, Lacks, a.feature_eq, a.object_eq, a.featureMember_eq, a.metadata_eq,
    a.objectMember_eq]

/-- Where a component is not there the first one of them is named, and nothing is checked. -/
theorem checkAll_failsBy_of_lacks (h : ¬ Nonempty m.Anchors) (s : Settings) :
    FailsBy (fun x => ∃ c ∈ required, m.NotFound c x) (m.checkAll s) := by
  unfold checkAll
  refine FailsBy.congr (FailsBy.bind (findElement_failsBy _) fun feature h₁ =>
    FailsBy.bind (findElement_failsBy _) fun object h₂ =>
    FailsBy.bind (findType_failsBy _) fun featureMember h₃ =>
    FailsBy.bind (findType_failsBy _) fun metadata h₄ =>
    FailsBy.bind (findType_failsBy _) fun objectMember h₅ =>
      (?_ : FailsBy (fun _ => False) _)) fun x => ?_
  · exact absurd ⟨feature, object, featureMember, metadata, objectMember,
      findElement_eq_ok_iff.1 h₁, findElement_eq_ok_iff.1 h₂, findType_eq_ok_iff.1 h₃,
      findType_eq_ok_iff.1 h₄, findType_eq_ok_iff.1 h₅⟩ h
  · simp [required]

/-- When and how the checks fail. They name a component of GML that is not there, or else an
examined property of which the type is simple or lacks the top of its content model. -/
structure FailureRules (m : Schema) (s : Settings) : Prop where
  fails_iff : (∃ x, m.checkAll s = .error x) ↔
    (∃ c ∈ required, m.Lacks c) ∨
      ∃ (a : m.Anchors) (e : ElementId), m.Examined a e ∧ ∃ x, m.Stuck e x
  missing : (∃ c ∈ required, m.Lacks c) →
    ∃ c ∈ required, m.Lacks c ∧ m.checkAll s = .error (.notFound c)
  stuck : ∀ a : m.Anchors, (∃ e x, m.Examined a e ∧ m.Stuck e x) →
    ∃ e x, m.Examined a e ∧ m.Stuck e x ∧ x.isPrecondition = true ∧ m.checkAll s = .error x
  /-- What points to nothing is never examined. -/
  typed : ∀ (a : m.Anchors) (e : ElementId), m.Examined a e → m.Typed e
  orderly : ∀ a : m.Anchors, m.Orderly a →
    (∀ e x, m.Examined a e → ¬ m.Stuck e x) ∧ ∃ rs, m.checkAll s = .ok rs

theorem checkAll_failures (hm : m.Built r) (s : Settings) : m.FailureRules s := by
  have hi := hm.indexed
  have hlacks : (∃ c ∈ required, m.Lacks c) → ¬ Nonempty m.Anchors :=
    fun ⟨c, hc, hl⟩ ⟨a⟩ => a.not_lacks c hc hl
  refine ⟨?fails_iff, ?missing, ?stuck, fun a e he => he.typed hi, ?orderly⟩
  case fails_iff =>
    constructor
    · rintro ⟨x, hx⟩
      by_cases ha : Nonempty m.Anchors
      · obtain ⟨a⟩ := ha
        obtain ⟨e, he, hs⟩ := (checkAll_failsBy_of_anchors hi a s).of_error hx
        exact .inr ⟨a, e, he, x, hs⟩
      · obtain ⟨c, hc, hn⟩ := (checkAll_failsBy_of_lacks ha s).of_error hx
        exact .inl ⟨c, hc, hn.1⟩
    · rintro (h | ⟨a, e, he, x, hs⟩)
      · obtain ⟨c, hc, hl⟩ := h
        exact (checkAll_failsBy_of_lacks (hlacks ⟨c, hc, hl⟩) s).exists_error_iff.2
          ⟨.notFound c, c, hc, hl, rfl⟩
      · exact (checkAll_failsBy_of_anchors hi a s).exists_error_iff.2 ⟨x, e, he, hs⟩
  case missing =>
    intro h
    have hfails := checkAll_failsBy_of_lacks (hlacks h) s
    obtain ⟨c, hc, hl⟩ := h
    obtain ⟨x, hx⟩ := hfails.exists_error_iff.2 ⟨.notFound c, c, hc, hl, rfl⟩
    obtain ⟨c', hc', hl', rfl⟩ := hfails.of_error hx
    exact ⟨c', hc', hl', hx⟩
  case stuck =>
    rintro a ⟨e, x, he, hs⟩
    have hfails := checkAll_failsBy_of_anchors hi a s
    obtain ⟨x', hx'⟩ := hfails.exists_error_iff.2 ⟨x, e, he, hs⟩
    obtain ⟨e', he', hs'⟩ := hfails.of_error hx'
    exact ⟨e', x', he', hs', hs'.isPrecondition, hx'⟩
  case orderly =>
    intro a ho
    refine ⟨fun e x he => ho.not_stuck he, ?_⟩
    have hfails := checkAll_failsBy_of_anchors hi a s
    cases hrun : m.checkAll s with
    | ok rs => exact ⟨rs, rfl⟩
    | error x =>
      obtain ⟨e, he, hs⟩ := hfails.of_error hrun
      exact absurd hs (ho.not_stuck he)

/-- A schema full of identifiers that point to nothing. What stops the checks is the member type
without the top of its content model. -/
def frayed : Schema :=
  let named (name : QName) (base : Option Nat) : ComplexType :=
    ⟨some name, base.map (⟨⟨·⟩, .extension⟩), true, .empty, none, []⟩
  ofLists
    [.complex (named (.gml "AbstractGMLType") none),
      .complex (named (.gml "AbstractFeatureType") (some 0)),
      .complex (named (.gml "AbstractFeatureMemberType") (some 70)),
      .complex (named (.gml "AbstractMetadataPropertyType") none),
      .complex (named (.gml "AbstractMemberType") (some 71)),
      .complex { named (.bare "RoadType") (some 1) with
        content := .elementOnly
        particle := some (.group .once .sequence [.element .once ⟨50⟩, .element .once ⟨4⟩]) },
      .complex { named (.bare "RoadMemberType") (some 2) with content := .elementOnly }]
    [⟨.gml "AbstractGML", ⟨0⟩, .global, true, none⟩,
      ⟨.gml "AbstractFeature", ⟨1⟩, .global, true, some ⟨0⟩⟩,
      ⟨.bare "Road", ⟨5⟩, .global, false, some ⟨60⟩⟩,
      ⟨.bare "Lost", ⟨90⟩, .global, false, some ⟨1⟩⟩,
      ⟨.bare "note", ⟨91⟩, .within ⟨92⟩, false, none⟩,
      ⟨.bare "roadMember", ⟨6⟩, .global, false, none⟩]

theorem checkAll_failures_frayed :
    frayed.Built frayed.declared ∧
      frayed.checkAll ⟨false, 0, true⟩ =
        .error (.precondition (.missingParticle .elementOnly) (some "RoadMemberType")) ∧
      ∃ (a : frayed.Anchors) (e : ElementId), frayed.Examined a e ∧ ∃ x, frayed.Stuck e x := by
  have hbuilt : frayed.Built frayed.declared := built_ofLists _ _
  have hrun : frayed.checkAll ⟨false, 0, true⟩ =
      .error (.precondition (.missingParticle .elementOnly) (some "RoadMemberType")) := by cbv
  have hanchors : frayed.Anchors :=
    ⟨⟨1⟩, ⟨0⟩, ⟨2⟩, ⟨3⟩, ⟨4⟩, by decide +kernel, by decide +kernel, by decide +kernel,
      by decide +kernel, by decide +kernel⟩
  rcases (checkAll_failures hbuilt ⟨false, 0, true⟩).fails_iff.1 ⟨_, hrun⟩ with ⟨c, hc, hl⟩ | h
  · exact absurd hl (hanchors.not_lacks c hc)
  · exact ⟨hbuilt, hrun, h⟩

end Schema

end GmlCheck
