import GmlCheck.Proofs.Schema.FeatureVerdict

/-!
# The two parts of a report on a property type

A report on a type with elements first says whether the attribute that refers to a value
agrees with the bounds of the content model, then what is wrong with the value.
`checkPropertyType_parts` says what either part can be, and that neither of them
depends on what the other one is about.
-/

namespace GmlCheck

/-- The rule is about the attribute that refers to a value. -/
def Fault.isAboutAttribute : Fault → Bool
  | attributeRequired .. | attributeProhibited .. => true
  | _ => false

namespace Report

/-- The violations of rules about the attribute that refers to a value. -/
def attributePart (r : Report) : List Violation :=
  r.violations.filter (·.fault.isAboutAttribute)

/-- The violations of all other rules. -/
def shapePart (r : Report) : List Violation :=
  r.violations.filter (! ·.fault.isAboutAttribute)

end Report

/-- The fault of a value that is no element. -/
def Particle.misfit : Particle → Fault
  | wildcard .. => .wildcardNotPermitted
  | _ => .wildcardOrGroupNotPermitted

/-- The content is of elements, and `top` is the top of the content model. -/
structure ComplexType.HasTop (t : ComplexType) (top : Particle) : Prop where
  content : t.HasElements
  particle : t.particle = some top

namespace Schema

/-! ## What the parts say -/

/-- A value that may be absent lacks the attribute, an array of values has it, or all is well. -/
inductive AttributePart (o : Occurs) (refers : Prop) (subject : String) :
    List Violation → Prop where
  | missing : o.min = 0 → ¬ refers →
      AttributePart o refers subject [⟨.attributeRequired .href true, subject⟩]
  | excluded : o.Multiple → refers →
      AttributePart o refers subject [⟨.attributeProhibited .href, subject⟩]
  | fit : (o.min = 0 → refers) → (o.Multiple → ¬ refers) → AttributePart o refers subject []

/-- The particle where a value is expected contributes nothing if it is an allowed element, and one
violation otherwise; `misfit` is the fault of particles that are no elements. -/
inductive Contributes (m : Schema) (head : Option ValueHead) (subject : String) (misfit : Fault) :
    Particle → List Violation → Prop where
  | allowed {o : Occurs} {e : ElementId} : m.Allows head e →
      Contributes m head subject misfit (.element o e) []
  | disallowed {o : Occurs} {e : ElementId} {h : ValueHead} : head = some h → ¬ m.Allows head e →
      Contributes m head subject misfit (.element o e)
        [⟨.disallowedSubstitution (m.elementName e) (m.elementName h.head), subject⟩]
  | noElement {p : Particle} : p.element? = none →
      Contributes m head subject misfit p [⟨misfit, subject⟩]

/-- There is no sequence of one particle. -/
inductive Misshapen : Particle → Fault → Prop where
  | element (o : Occurs) (e : ElementId) : Misshapen (.element o e) .modelGroupExpected
  | wildcard (o : Occurs) (w : Processing) : Misshapen (.wildcard o w) .modelGroupExpected
  | compositor {o : Occurs} {c : Compositor} {ps : List Particle} : c ≠ .sequence →
      Misshapen (.group o c ps) (.sequenceExpected c)
  | count {o : Occurs} {ps : List Particle} : ps.length ≠ 1 →
      Misshapen (.group o .sequence ps) (.tooManyParticles ps.length)

/-- The violations and the steps not taken. A misshapen top is all that is reported and the value
is not looked at; otherwise the value contributes or, if it is a choice, its branches one after the
other. -/
inductive ShapePart (m : Schema) (head : Option ValueHead) (subject : String) :
    Particle → List Violation → List String → Prop where
  | misshapen {top : Particle} {fault : Fault} : Misshapen top fault →
      ShapePart m head subject top [⟨fault, subject⟩] ["value particle"]
  | value {o : Occurs} {p : Particle} {said : List Violation} :
      (∀ o' ps, p ≠ .group o' .choice ps) → m.Contributes head subject p.misfit p said →
      ShapePart m head subject (.group o .sequence [p]) said []
  | choice {o o' : Occurs} {ps : List Particle} {said : List (List Violation)} :
      List.Forall₂ (m.Contributes head subject .wildcardOrGroupNotPermitted) ps said →
      ShapePart m head subject (.group o .sequence [.group o' .choice ps]) said.flatten []

/-- The report is the two parts in a row, and the parts say this. -/
structure Parts (m : Schema) (head : Option ValueHead) (t : ComplexType) (top : Particle)
    (subject : String) (r : Report) : Prop where
  split : r.violations = r.attributePart ++ r.shapePart
  reference : AttributePart top.occurs t.Refers subject r.attributePart
  shape : m.ShapePart head subject top r.shapePart r.unchecked

/-- The ways to have a type checked, with the subject of the report. -/
inductive Checks (m : Schema) (head : Option ValueHead) :
    ComplexType → String → Except Error Report → Prop where
  | type {id : TypeId} {t : ComplexType} : m.complexType? id = some t →
      Checks m head t (m.typeLabel id) (m.checkPropertyType id head)
  | element {e : ElementId} {d : ElementDeclaration} {t : ComplexType} :
      m.element? e = some d → m.complexType? d.type = some t →
      Checks m head t (t.name.getD d.name).text (m.checkPropertyElement e head)

/-- The schemas allow the same ones of the elements as values, and agree on the names. -/
structure AgreeOnValues (m m' : Schema) (head : Option ValueHead) (es : List ElementId) : Prop where
  allows : ∀ e ∈ es, m'.Allows head e ↔ m.Allows head e
  elementName : ∀ e ∈ es, m'.elementName e = m.elementName e
  headName : ∀ h, head = some h → m'.elementName h.head = m.elementName h.head

variable {m m' : Schema} {head : Option ValueHead} {subject : String}

/-! ## Contributions -/

theorem contains_allowedValues_iff {h : ValueHead} {e : ElementId} :
    (m.allowedValues h).contains e = true ↔ m.Allows (some h) e := by
  rw [List.contains_iff_mem, mem_allowedValues_iff]
  simp [Allows]

theorem contributes_substitution (misfit : Fault) (o : Occurs) (e : ElementId) :
    m.Contributes head subject misfit (.element o e)
      ((m.substitutionFindings subject head e).filterMap Finding.violation?) := by
  cases head with
  | none => exact .allowed nofun
  | some h =>
    rw [substitutionFindings]
    split
    · next ha => exact .allowed (contains_allowedValues_iff.1 ha)
    · next hn => exact .disallowed rfl (mt contains_allowedValues_iff.2 hn)

theorem contributes_branch (p : Particle) :
    m.Contributes head subject .wildcardOrGroupNotPermitted p
      ((m.branchFindings subject head p).filterMap Finding.violation?) := by
  cases p with
  | element o e => exact contributes_substitution _ o e
  | group => exact .noElement rfl
  | wildcard => exact .noElement rfl

theorem steps_substitutionFindings (e : ElementId) :
    (m.substitutionFindings subject head e).filterMap Finding.step? = [] := by
  cases head with
  | none => rfl
  | some h =>
    rw [substitutionFindings]
    split <;> rfl

theorem steps_branchFindings (p : Particle) :
    (m.branchFindings subject head p).filterMap Finding.step? = [] := by
  cases p with
  | element o e => exact steps_substitutionFindings e
  | group => rfl
  | wildcard => rfl

theorem steps_valueFindings (p : Particle) :
    (m.valueFindings subject head p).filterMap Finding.step? = [] := by
  cases p with
  | element o e => exact steps_substitutionFindings e
  | wildcard => rfl
  | group o c ps =>
    cases c with
    | sequence => rfl
    | all => rfl
    | choice =>
      rw [valueFindings, List.filterMap_flatMap, List.flatMap_eq_nil_iff]
      exact fun q _ => steps_branchFindings q

/-! ## Findings -/

theorem shapePart_value (o : Occurs) (p : Particle) :
    m.ShapePart head subject (.group o .sequence [p])
      ((m.valueFindings subject head p).filterMap Finding.violation?) [] := by
  cases p with
  | element o e => exact .value nofun (contributes_substitution _ o e)
  | wildcard => exact .value nofun (.noElement rfl)
  | group o c ps =>
    cases c with
    | sequence => exact .value nofun (.noElement rfl)
    | all => exact .value nofun (.noElement rfl)
    | choice =>
      rw [valueFindings, List.filterMap_flatMap, List.flatMap_def]
      refine .choice (List.forall₂_map_right_iff.2 (List.forall₂_same.2 ?_))
      exact fun q _ => contributes_branch q

theorem shapePart_shapeFindings (top : Particle) :
    m.ShapePart head subject top ((m.shapeFindings subject head top).filterMap Finding.violation?)
      ((m.shapeFindings subject head top).filterMap Finding.step?) := by
  unfold shapeFindings
  split
  · next o p =>
    rw [steps_valueFindings]
    exact shapePart_value o p
  · next o ps hne =>
    refine .misshapen (.count fun h => ?_)
    obtain ⟨p, rfl⟩ := List.length_eq_one_iff.1 h
    exact hne p rfl
  · next o c ps _ hc => exact .misshapen (.compositor hc)
  · exact .misshapen (.element _ _)
  · exact .misshapen (.wildcard _ _)

theorem attributePart_hrefFindings (o : Occurs) (t : ComplexType) :
    AttributePart o t.Refers subject
      ((hrefFindings subject o t.hasHref).filterMap Finding.violation?) := by
  have hmin : o.isEmptiable = true ↔ o.min = 0 := by rw [Occurs.isEmptiable, beq_iff_eq]
  rw [hrefFindings, List.filterMap_append]
  by_cases hr : t.hasHref = true
  · have hrefers := ComplexType.hasHref_iff.1 hr
    by_cases hm : o.isMultiple = true
    · simpa [hr, hm, Finding.violation?] using
        AttributePart.excluded (Occurs.isMultiple_iff.1 hm) hrefers
    · simpa [hr, hm] using
        AttributePart.fit (fun _ => hrefers) fun h => absurd (Occurs.isMultiple_iff.2 h) hm
  · have hrefers := mt ComplexType.hasHref_iff.2 hr
    by_cases hm : o.isEmptiable = true
    · simpa [hr, hm, Finding.violation?] using
        AttributePart.missing (hmin.1 hm) hrefers
    · simpa [hr, hm] using
        AttributePart.fit (fun h => absurd (hmin.2 h) hm) fun _ => hrefers

/-! ## The parts of a report -/

theorem AttributePart.isAboutAttribute {o : Occurs} {refers : Prop} {vs : List Violation}
    (h : AttributePart o refers subject vs) : ∀ v ∈ vs, v.fault.isAboutAttribute = true := by
  cases h with
  | missing => simp [Fault.isAboutAttribute]
  | excluded => simp [Fault.isAboutAttribute]
  | fit => nofun

theorem Contributes.not_isAboutAttribute {misfit : Fault} {p : Particle} {said : List Violation}
    (h : m.Contributes head subject misfit p said) (hm : misfit.isAboutAttribute = false) :
    ∀ v ∈ said, v.fault.isAboutAttribute = false := by
  cases h with
  | allowed => nofun
  | disallowed => simp [Fault.isAboutAttribute]
  | noElement => simpa using hm

theorem ShapePart.not_isAboutAttribute {top : Particle} {vs : List Violation} {us : List String}
    (h : m.ShapePart head subject top vs us) : ∀ v ∈ vs, v.fault.isAboutAttribute = false := by
  cases h with
  | misshapen hm => cases hm <;> simp [Fault.isAboutAttribute]
  | @value _ p _ _ hsaid =>
    -- The fault of a value depends on what it is, that of a branch does not.
    exact hsaid.not_isAboutAttribute (by cases p <;> rfl)
  | choice hsaid =>
    induction hsaid with
    | nil => nofun
    | cons hp _ ih =>
      rw [List.flatten_cons]
      exact List.forall_mem_append.2 ⟨hp.not_isAboutAttribute rfl, ih⟩

/-- Where the value is not looked at, there is a violation. -/
theorem ShapePart.ne_nil {top : Particle} {vs : List Violation} {us : List String}
    (h : m.ShapePart head subject top vs us) (hus : us ≠ []) : vs ≠ [] := by
  cases h with
  | misshapen => nofun
  | value => exact absurd rfl hus
  | choice => exact absurd rfl hus

theorem steps_hrefFindings (o : Occurs) (hasHref : Bool) :
    (hrefFindings subject o hasHref).filterMap Finding.step? = [] := by
  unfold hrefFindings
  split <;> split <;> rfl

theorem parts_of_append {r : Report} {as ss : List Violation} (h : r.violations = as ++ ss)
    (ha : ∀ v ∈ as, v.fault.isAboutAttribute = true)
    (hs : ∀ v ∈ ss, v.fault.isAboutAttribute = false) :
    r.attributePart = as ∧ r.shapePart = ss := by
  unfold Report.attributePart Report.shapePart
  rw [h, List.filter_append, List.filter_append]
  constructor
  · rw [List.filter_eq_self.2 ha, List.filter_eq_nil_iff.2 (by simpa using hs), List.append_nil]
  · rw [List.filter_eq_nil_iff.2 (by simpa using ha), List.filter_eq_self.2 (by simpa using hs),
      List.nil_append]

/-- What the parts of the report on a type with elements come from. -/
structure PartsOfFindings (m : Schema) (head : Option ValueHead) (t : ComplexType) (top : Particle)
    (subject : String) (r : Report) : Prop where
  split : r.violations = r.attributePart ++ r.shapePart
  attributePart : r.attributePart =
    (hrefFindings subject top.occurs t.hasHref).filterMap Finding.violation?
  shapePart : r.shapePart = (m.shapeFindings subject head top).filterMap Finding.violation?
  unchecked : r.unchecked = (m.shapeFindings subject head top).filterMap Finding.step?

theorem partsOfFindings_ofFindings (check : String) (t : ComplexType) (top : Particle) :
    m.PartsOfFindings head t top subject (.ofFindings check
      (hrefFindings subject top.occurs t.hasHref ++ m.shapeFindings subject head top)) := by
  have hsplit : (Report.ofFindings check (hrefFindings subject top.occurs t.hasHref ++
      m.shapeFindings subject head top)).violations =
        (hrefFindings subject top.occurs t.hasHref).filterMap Finding.violation? ++
          (m.shapeFindings subject head top).filterMap Finding.violation? := List.filterMap_append
  obtain ⟨hattribute, hshape⟩ := parts_of_append hsplit
    (attributePart_hrefFindings top.occurs t).isAboutAttribute
    (m.shapePart_shapeFindings top).not_isAboutAttribute
  refine ⟨?_, hattribute, hshape, ?_⟩
  · rw [hattribute, hshape]
    exact hsplit
  · simp only [Report.ofFindings, List.filterMap_append, steps_hrefFindings, List.nil_append]

theorem propertyReport_of_hasTop (m : Schema) (head : Option ValueHead) (subject : String)
    {t : ComplexType} {top : Particle} (ht : t.HasTop top) :
    ∃ r, m.propertyReport subject t head = .ok r ∧ m.PartsOfFindings head t top subject r := by
  refine ⟨_, ?_, partsOfFindings_ofFindings ("property type " ++ subject) t top⟩
  rw [propertyReport, propertyFindings_of_hasElements ht.content, ht.particle]
  rfl

theorem PartsOfFindings.parts {t : ComplexType} {top : Particle} {r : Report}
    (h : m.PartsOfFindings head t top subject r) : m.Parts head t top subject r where
  split := h.split
  reference := by
    rw [h.attributePart]
    exact attributePart_hrefFindings top.occurs t
  shape := by
    rw [h.shapePart, h.unchecked]
    exact m.shapePart_shapeFindings top

/-- What is left unchecked is left so because of a violation, whatever the content. -/
theorem verdict_of_unchecked {t : ComplexType} {r : Report}
    (h : m.propertyReport subject t head = .ok r) (hr : r.unchecked ≠ []) : r.verdict = .fail := by
  rw [Report.verdict_eq_fail_iff]
  by_cases he : t.HasElements
  · cases hp : t.particle with
    | none =>
      rw [propertyReport, propertyFindings_of_hasElements he, hp] at h
      cases h
    | some top =>
      obtain ⟨r', hr', hparts⟩ := m.propertyReport_of_hasTop head subject ⟨he, hp⟩
      cases h.symm.trans hr'
      rw [hparts.split]
      exact List.append_ne_nil_of_right_ne_nil _ (hparts.parts.shape.ne_nil hr)
  · obtain ⟨fs, hfs, h⟩ := Attempt.bind_eq_ok_iff.1 h
    cases h
    cases hc : t.content with
    | empty =>
      rw [propertyFindings, hc] at hfs
      cases hfs
      split at hr <;> exact absurd rfl hr
    | simple =>
      rw [propertyFindings, hc] at hfs
      cases hfs
      exact List.cons_ne_nil _ _
    | elementOnly => exact absurd (.inl hc) he
    | mixed => exact absurd (.inr hc) he

/-! ## Two schemas -/

theorem AgreeOnValues.mono {es es' : List ElementId} (h : m.AgreeOnValues m' head es)
    (hes : es' ⊆ es) : m.AgreeOnValues m' head es' where
  allows e he := h.allows e (hes he)
  elementName e he := h.elementName e (hes he)
  headName := h.headName

/-- Types do not matter to what is allowed as a value. -/
theorem agreeOnValues_of_elements (h : m'.elements = m.elements) (es : List ElementId) :
    m.AgreeOnValues m' head es := by
  have helement : m'.element? = m.element? := by
    funext id
    rw [element?, element?, h]
  have hname (e : ElementId) : m'.elementName e = m.elementName e := by
    rw [elementName, elementName, helement]
  have hhead : m'.HasHead = m.HasHead := by
    funext e c
    rw [HasHead, HasHead, helement]
  refine ⟨fun e _ => ?_, fun e _ => hname e, fun h _ => hname h.head⟩
  rw [Allows, Allows]
  simp only [Substitutes, hhead]

theorem AgreeOnValues.substitutionFindings_eq {es : List ElementId}
    (h : m.AgreeOnValues m' head es) {e : ElementId} (he : e ∈ es) :
    m'.substitutionFindings subject head e = m.substitutionFindings subject head e := by
  cases head with
  | none => rfl
  | some v =>
    have hcontains : (m'.allowedValues v).contains e = (m.allowedValues v).contains e := by
      rw [Bool.eq_iff_iff, contains_allowedValues_iff, contains_allowedValues_iff]
      exact h.allows e he
    rw [substitutionFindings, substitutionFindings, hcontains, h.elementName e he,
      h.headName v rfl]

theorem AgreeOnValues.branchFindings_eq {p : Particle} (h : m.AgreeOnValues m' head p.elements) :
    m'.branchFindings subject head p = m.branchFindings subject head p := by
  cases p with
  | element o e => exact h.substitutionFindings_eq List.mem_cons_self
  | group => rfl
  | wildcard => rfl

theorem AgreeOnValues.of_mem {o : Occurs} {c : Compositor} {ps : List Particle} {p : Particle}
    (h : m.AgreeOnValues m' head (Particle.group o c ps).elements) (hp : p ∈ ps) :
    m.AgreeOnValues m' head p.elements :=
  h.mono fun _ he => Particle.mem_elements_group hp he

theorem AgreeOnValues.valueFindings_eq {p : Particle} (h : m.AgreeOnValues m' head p.elements) :
    m'.valueFindings subject head p = m.valueFindings subject head p := by
  cases p with
  | element o e => exact h.substitutionFindings_eq List.mem_cons_self
  | wildcard => rfl
  | group o c ps =>
    cases c with
    | sequence => rfl
    | all => rfl
    | choice =>
      rw [valueFindings, valueFindings]
      exact List.flatMap_congr fun q hq => (h.of_mem hq).branchFindings_eq

/-- The bounds of the top do not matter to the shape. -/
theorem AgreeOnValues.shapeFindings_eq {top : Particle} (h : m.AgreeOnValues m' head top.elements)
    (o : Occurs) :
    m'.shapeFindings subject head (top.withOccurs o) = m.shapeFindings subject head top := by
  cases top with
  | element => rfl
  | wildcard => rfl
  | group o' c ps =>
    cases c with
    | choice => rfl
    | all => rfl
    | sequence =>
      match ps with
      | [] => rfl
      | [p] => exact (h.of_mem List.mem_cons_self).valueFindings_eq
      | _ :: _ :: _ => rfl

/-! ## Checks -/

theorem Checks.eq_propertyReport {t : ComplexType} {x : Except Error Report}
    (h : m.Checks head t subject x) : x = m.propertyReport subject t head := by
  cases h with
  | @type id t ht =>
    rcases m.getComplexType_eq id with ⟨hn, -⟩ | ⟨t', ht', hg⟩
    · exact absurd ⟨t, ht⟩ hn
    · cases ht.symm.trans ht'
      rw [checkPropertyType, hg]
      rfl
  | @element e d t he ht =>
    obtain ⟨td, htd, hc⟩ := Option.bind_eq_some_iff.1 ht
    cases td with
    | simple => cases hc
    | complex t' =>
      cases hc
      exact checkPropertyElement_of_complex he htd head

/-- The parts of a report on a property type. Either check of a type with elements has a result,
which is the part on the attribute followed by the part on the shape. Reports on one subject have
the same first part if the bounds are the same and both types refer or neither does, and the same
second part if they are about the same term and the same elements are allowed. A report that
leaves something unchecked fails. -/
theorem checkPropertyType_parts {m : Schema} {head : Option ValueHead} {t : ComplexType}
    {subject : String} {x : Except Error Report} (h : m.Checks head t subject x) :
    (∀ r, x = .ok r → r.unchecked ≠ [] → r.verdict = .fail) ∧
      ∀ top, t.HasTop top → ∃ r, x = .ok r ∧ m.Parts head t top subject r ∧
        ∀ m' head' t' top' r', Checks m' head' t' subject (.ok r') → t'.HasTop top' →
          (top'.occurs = top.occurs → (t'.Refers ↔ t.Refers) →
            r'.attributePart = r.attributePart) ∧
          (head' = head → top' = top.withOccurs top'.occurs →
            m.AgreeOnValues m' head top.elements →
              r'.shapePart = r.shapePart ∧ r'.unchecked = r.unchecked) := by
  have hx := h.eq_propertyReport
  refine ⟨fun r hr => verdict_of_unchecked (hx.symm.trans hr), fun top ht => ?_⟩
  obtain ⟨r, hr, hparts⟩ := m.propertyReport_of_hasTop head subject ht
  refine ⟨r, hx.trans hr, hparts.parts, fun m' head' t' top' r' h' ht' => ?_⟩
  obtain ⟨r₁, hr', hparts'⟩ := m'.propertyReport_of_hasTop head' subject ht'
  cases h'.eq_propertyReport.trans hr'
  constructor
  · intro hoccurs hrefers
    have hhref : t'.hasHref = t.hasHref := by
      rw [Bool.eq_iff_iff, ComplexType.hasHref_iff, ComplexType.hasHref_iff, hrefers]
    rw [hparts'.attributePart, hparts.attributePart, hoccurs, hhref]
  · rintro rfl htop hagree
    rw [hparts'.shapePart, hparts.shapePart, hparts'.unchecked, hparts.unchecked, htop,
      hagree.shapeFindings_eq]
    exact ⟨rfl, rfl⟩

/-- The type of a property whose values are lanes. -/
def laneMember (top : Particle) (uses : List AttributeUse) : ComplexType :=
  ⟨some (.bare "LaneMemberType"), none, false, .elementOnly, some top, uses⟩

/-- Only `Lane` stands for `AbstractLane`. -/
def lanes (top : Particle) (uses : List AttributeUse) : Schema :=
  ofLists
    [.complex ⟨some (.bare "LaneType"), none, false, .empty, none, []⟩,
      .complex (laneMember top uses)]
    [⟨.bare "AbstractLane", ⟨0⟩, .global, true, none⟩,
      ⟨.bare "Lane", ⟨0⟩, .global, false, some ⟨0⟩⟩,
      ⟨.bare "Verge", ⟨0⟩, .global, false, none⟩]

theorem elements_lanes (top top' : Particle) (uses uses' : List AttributeUse) :
    (lanes top' uses').elements = (lanes top uses).elements := rfl

def checkLanes (top : Particle) (uses : List AttributeUse) : Except Error Report :=
  (lanes top uses).checkPropertyType ⟨1⟩ (some ⟨⟨0⟩, false⟩)

/-- A choice of which only the first branch is allowed. -/
def laneOrElse (o : Occurs) : Particle :=
  .group o .sequence [.group .once .choice
    [.element .once ⟨1⟩, .element .once ⟨2⟩, .wildcard .once .lax, .element .once ⟨0⟩]]

theorem checks_lanes (top : Particle) (uses : List AttributeUse) :
    (lanes top uses).Checks (some ⟨⟨0⟩, false⟩) (laneMember top uses) "LaneMemberType"
      (checkLanes top uses) := by
  have h : (lanes top uses).Checks (some ⟨⟨0⟩, false⟩) (laneMember top uses)
      ((lanes top uses).typeLabel ⟨1⟩) (checkLanes top uses) := .type rfl
  exact h

theorem hasTop_laneMember (top : Particle) (uses : List AttributeUse) :
    (laneMember top uses).HasTop top := ⟨.inl rfl, rfl⟩

/-- Other bounds and another attribute leave the shape as it is, another term leaves the
attribute as it is. -/
theorem checkPropertyType_parts_lanes :
    ∃ r r₁ r₂, checkLanes (laneOrElse .zeroOrMore) [] = .ok r ∧
      checkLanes (laneOrElse .once) [⟨.href, .optional⟩] = .ok r₁ ∧
      checkLanes (.wildcard .zeroOrMore .lax) [] = .ok r₂ ∧
      r.attributePart.map (·.fault) = [.attributeRequired .href true] ∧
      r.shapePart.map (·.fault) =
        [.disallowedSubstitution (.bare "Verge") (.bare "AbstractLane"),
          .wildcardOrGroupNotPermitted,
          .disallowedSubstitution (.bare "AbstractLane") (.bare "AbstractLane")] ∧
      r₁.shapePart = r.shapePart ∧ r₂.attributePart = r.attributePart ∧
      r₂.unchecked = ["value particle"] ∧ r₂.verdict = .fail := by
  have hrun : (checkLanes (laneOrElse .zeroOrMore) []).toOption.map
      (fun r => (r.attributePart.map (·.fault), r.shapePart.map (·.fault))) =
        some ([.attributeRequired .href true],
          [.disallowedSubstitution (.bare "Verge") (.bare "AbstractLane"),
            .wildcardOrGroupNotPermitted,
            .disallowedSubstitution (.bare "AbstractLane") (.bare "AbstractLane")]) := by cbv
  have hrun₂ : (checkLanes (.wildcard .zeroOrMore .lax) []).toOption.map (·.unchecked) =
      some ["value particle"] := by cbv
  have hchecks₁ := checks_lanes (laneOrElse .once) [⟨.href, .optional⟩]
  have hchecks₂ := checks_lanes (.wildcard .zeroOrMore .lax) []
  obtain ⟨-, hparts⟩ := checkPropertyType_parts (checks_lanes (laneOrElse .zeroOrMore) [])
  obtain ⟨-, hparts₁⟩ := checkPropertyType_parts hchecks₁
  obtain ⟨hfails, hparts₂⟩ := checkPropertyType_parts hchecks₂
  obtain ⟨r, hr, -, hother⟩ := hparts _ (hasTop_laneMember ..)
  obtain ⟨r₁, hr₁, -⟩ := hparts₁ _ (hasTop_laneMember ..)
  obtain ⟨r₂, hr₂, -⟩ := hparts₂ _ (hasTop_laneMember ..)
  rw [hr] at hrun
  rw [hr₂] at hrun₂ hchecks₂
  rw [hr₁] at hchecks₁
  obtain ⟨hattribute, hshape⟩ := Prod.mk.inj (Option.some.inj hrun)
  have hunchecked : r₂.unchecked = ["value particle"] := Option.some.inj hrun₂
  refine ⟨r, r₁, r₂, hr, hr₁, hr₂, hattribute, hshape, ?_, ?_, hunchecked, ?_⟩
  · exact ((hother _ _ _ _ _ hchecks₁ (hasTop_laneMember ..)).2 rfl rfl
      (agreeOnValues_of_elements (elements_lanes ..) _)).1
  · exact (hother _ _ _ _ _ hchecks₂ (hasTop_laneMember ..)).1 rfl Iff.rfl
  · refine hfails r₂ hr₂ ?_
    rw [hunchecked]
    exact List.cons_ne_nil _ _

end Schema

end GmlCheck
