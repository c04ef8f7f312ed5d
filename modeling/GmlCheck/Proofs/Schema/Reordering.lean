import GmlCheck.Proofs.Schema.FeatureVerdict
import GmlCheck.Proofs.Schema.Mirror

/-!
# The order of declarations

Findings name components and never their places. So the check of one property finds
the same in a schema and in its mirror image, and the checks of all properties find
the same in another order. `checkAll_reordered` carries this over to schemas whose
types and elements are stored in another order.
-/

namespace GmlCheck

/-- The reports say the same, up to the order of what they found. -/
structure Report.Alike (r r' : Report) : Prop where
  check : r'.check = r.check
  verdict : r'.verdict = r.verdict
  skipReason : r'.skipReason = r.skipReason
  violations : r'.violations.Perm r.violations
  unchecked : r'.unchecked.Perm r.unchecked

namespace Report

theorem Alike.refl (r : Report) : Alike r r := ⟨rfl, rfl, rfl, .refl _, .refl _⟩

theorem Alike.of_perm {r r' : Report} (hc : r'.check = r.check)
    (hs : r'.skipReason = r.skipReason) (hv : r'.violations.Perm r.violations)
    (hu : r'.unchecked.Perm r.unchecked) : Alike r r' := by
  refine ⟨hc, ?_, hs, hv, hu⟩
  unfold Report.verdict
  rw [hv.isEmpty_eq, hs]

theorem ofFindings_alike {check : String} {fs fs' : List Finding} (h : fs'.Perm fs) :
    Alike (ofFindings check fs) (ofFindings check fs') :=
  .of_perm rfl rfl (h.filterMap _) (h.filterMap _)

theorem mergeAll_alike {check : String} {rs rs' : List Report} (h : rs'.Perm rs) :
    Alike (mergeAll check rs) (mergeAll check rs') := by
  rw [mergeAll_eq, mergeAll_eq]
  exact .of_perm rfl rfl (h.flatMap_right _) (h.flatMap_right _)

end Report

namespace Schema

namespace Mirror

variable {m m' : Schema} {ρ : Moves} {head : Option ValueHead}

/-! ## One property -/

theorem allowedValues_perm (h : Mirror m m' ρ) {v : ValueHead} (hv : v.head ∈ m.elementIds) :
    (m'.allowedValues (v.move ρ)).Perm ((m.allowedValues v).map ρ.element) := by
  unfold allowedValues ValueHead.move
  rw [List.map_append]
  refine (h.substitutes_perm hv).append ?_
  split <;> exact .refl _

theorem allowedValues_mem {v : ValueHead} (hv : v.head ∈ m.elementIds) :
    ∀ e ∈ m.allowedValues v, e ∈ m.elementIds := by
  intro e he
  rcases List.mem_append.1 he with he | he
  · exact substitutes_subset e he
  · split at he
    · rw [List.mem_singleton.1 he]
      exact hv
    · cases he

theorem substitutionFindings_eq (h : Mirror m m' ρ) (subject : String)
    (hh : ∀ v ∈ head, v.head ∈ m.elementIds) {e : ElementId} (he : e ∈ m.elementIds) :
    m'.substitutionFindings subject (head.map (·.move ρ)) (ρ.element e) =
      m.substitutionFindings subject head e := by
  cases head with
  | none => rfl
  | some v =>
    have hv := hh v rfl
    have hcontains : (m'.allowedValues (v.move ρ)).contains (ρ.element e) =
        (m.allowedValues v).contains e :=
      Renaming.contains_eq h.distinct_elements (h.allowedValues_perm hv) (allowedValues_mem hv) he
    simp only [Option.map_some, substitutionFindings]
    rw [hcontains, h.elementName_eq he, ValueHead.move, h.elementName_eq hv]

theorem branchFindings_eq (h : Mirror m m' ρ) (subject : String)
    (hh : ∀ v ∈ head, v.head ∈ m.elementIds) {p : Particle}
    (hp : ∀ e ∈ p.elements, e ∈ m.elementIds) :
    m'.branchFindings subject (head.map (·.move ρ)) (p.move ρ) =
      m.branchFindings subject head p := by
  cases p with
  | element o e => exact h.substitutionFindings_eq subject hh (hp e (List.mem_singleton.2 rfl))
  | group o c ps => rfl
  | wildcard o w => rfl

theorem valueFindings_eq (h : Mirror m m' ρ) (subject : String)
    (hh : ∀ v ∈ head, v.head ∈ m.elementIds) {p : Particle}
    (hp : ∀ e ∈ p.elements, e ∈ m.elementIds) :
    m'.valueFindings subject (head.map (·.move ρ)) (p.move ρ) =
      m.valueFindings subject head p := by
  cases p with
  | element o e => exact h.substitutionFindings_eq subject hh (hp e (List.mem_singleton.2 rfl))
  | wildcard o w => rfl
  | group o c ps =>
    cases c with
    | choice =>
      rw [Particle.move, Particle.moveAll_eq_map, valueFindings, valueFindings, List.flatMap_map]
      exact List.flatMap_congr fun q hq =>
        h.branchFindings_eq subject hh fun e he => hp e (Particle.mem_elements_group hq he)
    | sequence => rfl
    | all => rfl

theorem shapeFindings_eq (h : Mirror m m' ρ) (subject : String)
    (hh : ∀ v ∈ head, v.head ∈ m.elementIds) {p : Particle}
    (hp : ∀ e ∈ p.elements, e ∈ m.elementIds) :
    m'.shapeFindings subject (head.map (·.move ρ)) (p.move ρ) =
      m.shapeFindings subject head p := by
  cases p with
  | element o e => rfl
  | wildcard o w => rfl
  | group o c ps =>
    rw [Particle.move, Particle.moveAll_eq_map]
    cases c with
    | choice => rfl
    | all => rfl
    | sequence =>
      rcases ps with _ | ⟨q, _ | ⟨q', qs⟩⟩
      · rfl
      · exact h.valueFindings_eq subject hh fun e he =>
          hp e (Particle.mem_elements_group List.mem_cons_self he)
      · simp [shapeFindings]

theorem propertyReport_eq (h : Mirror m m' ρ) (subject : String)
    (hh : ∀ v ∈ head, v.head ∈ m.elementIds) {t : ComplexType}
    (ht : ∀ e ∈ t.elements, e ∈ m.elementIds) :
    m'.propertyReport subject (t.move ρ) (head.map (·.move ρ)) =
      m.propertyReport subject t head := by
  have hfindings : m'.propertyFindings subject (t.move ρ) (head.map (·.move ρ)) =
      m.propertyFindings subject t head := by
    unfold propertyFindings ComplexType.move ComplexType.hasHref ComplexType.use?
    cases hp : t.particle with
    | none => rfl
    | some p =>
      simp only [ComplexType.elements, hp, Option.map_some, Option.getD_some] at ht
      simp only [Option.map_some, Particle.occurs_move, h.shapeFindings_eq subject hh ht]
  unfold propertyReport
  rw [hfindings]

/-- The check of a property finds the same on both sides, or fails for the same reason. -/
theorem checkPropertyElement_eq (h : Mirror m m' ρ) (hh : ∀ v ∈ head, v.head ∈ m.elementIds)
    {e : ElementId} (he : e ∈ m.elementIds) :
    m'.checkPropertyElement (ρ.element e) (head.map (·.move ρ)) =
      m.checkPropertyElement e head := by
  obtain ⟨d, t, hd, hd', htype, ht, ht'⟩ := h.exists_declared he
  cases t with
  | simple n b =>
    have hname := h.elementName_eq he
    simp [checkPropertyElement, getElement, getType, TypeDefinition.complex?, hd, ht, hd', ht',
      ElementDeclaration.move, TypeDefinition.move, elementRef, hname]
  | complex c =>
    have hcomplex : m.complexType? d.type = some c := by
      rw [complexType?, ht]
      rfl
    rw [checkPropertyElement_of_complex hd ht, checkPropertyElement_of_complex hd' ht']
    exact h.propertyReport_eq _ hh (h.closed.content d.type htype c hcomplex)

theorem checkMetadataProperty_eq (h : Mirror m m' ρ) {e : ElementId} (he : e ∈ m.elementIds) :
    m'.checkMetadataProperty (ρ.element e) = m.checkMetadataProperty e := by
  obtain ⟨d, t, hd, hd', htype, ht, ht'⟩ := h.exists_declared he
  unfold checkMetadataProperty
  rw [show none = (none : Option ValueHead).map (·.move ρ) from rfl,
    h.checkPropertyElement_eq (by simp) he, getElement_eq_ok_iff.2 hd, getElement_eq_ok_iff.2 hd']
  cases t with
  | simple n b =>
    -- the label of the type may differ, but the first step has failed already
    simp [checkPropertyElement, getElement, getType, TypeDefinition.complex?, hd, ht]
  | complex c =>
    simp [getComplexType, getType, TypeDefinition.complex?, ElementDeclaration.move,
      TypeDefinition.move, ComplexType.move, ht, ht']

/-! ## All properties -/

theorem checkProperties_matched {check : String} {one one' : ElementId → Except Error Report}
    {es es' : List ElementId} (hes : es'.Perm (es.map ρ.element))
    (hone : ∀ e ∈ es, one' (ρ.element e) = one e) :
    Attempt.Matched Report.Alike (checkProperties check one es)
      (checkProperties check one' es') := by
  have hmap : (es.map ρ.element).mapM one' = es.mapM one := by
    rw [List.mapM_map]
    exact Attempt.mapM_congr hone
  have hmatched := Attempt.mapM_perm (f := one') hes
  rw [hmap] at hmatched
  exact hmatched.bind fun rs rs' hrs => .ok (Report.mergeAll_alike hrs)

theorem propertiesOfType_subset {b : TypeId} {accept : TypeId → Bool} :
    ∀ e ∈ m.propertiesOfType b accept, e ∈ m.elementIds := by
  intro e he
  rcases mem_propertiesOfType_iff.1 he with ⟨-, d, hd, -⟩ | ⟨t, -, -, -, -, d, hd, -⟩
  · exact mem_elementIds_iff.2 ⟨d, hd⟩
  · exact mem_elementIds_iff.2 ⟨d, hd⟩

theorem propertiesOfType_perm (h : Mirror m m' ρ) {b : TypeId} (hb : b ∈ m.typeIds)
    {accept accept' : TypeId → Bool} (hacc : ∀ t ∈ m.typeIds, accept' (ρ.type t) = accept t) :
    (m'.propertiesOfType (ρ.type b) accept').Perm
      ((m.propertiesOfType b accept).map ρ.element) := by
  have hperm := (h.globalElementsOfType_perm hb).append (h.localElementsOfType_perm hb hacc)
  rw [← List.map_append] at hperm
  exact Renaming.eraseDups_perm (h.distinct_elements.of_subset fun e he =>
    propertiesOfType_subset e (List.mem_eraseDups.2 he)) hperm

theorem head_mem {x : ElementId} (hx : x ∈ m.elementIds) (included : Bool) :
    ∀ v ∈ some (⟨x, included⟩ : ValueHead), v.head ∈ m.elementIds := by
  rintro v ⟨⟩
  exact hx

theorem checkFeatureMembers_matched (h : Mirror m m' ρ) (s : Settings) {b : TypeId}
    (hb : b ∈ m.typeIds) {x : ElementId} (hx : x ∈ m.elementIds) :
    Attempt.Matched Report.Alike (m.checkFeatureMembers s b x)
      (m'.checkFeatureMembers s (ρ.type b) (ρ.element x)) :=
  checkProperties_matched (h.elementsExtending_perm hb) fun _ he =>
    h.checkPropertyElement_eq (head_mem hx s.includeHead) (List.mem_of_mem_filter he)

theorem checkMetadata_matched (h : Mirror m m' ρ) {b : TypeId} (hb : b ∈ m.typeIds) :
    Attempt.Matched Report.Alike (m.checkMetadata b) (m'.checkMetadata (ρ.type b)) :=
  checkProperties_matched
    (h.propertiesOfType_perm hb fun _ ht => h.derivesFromGml_eq "AbstractGMLType" ht)
    fun e he => h.checkMetadataProperty_eq (propertiesOfType_subset e he)

theorem checkObjectMembers_matched (h : Mirror m m' ρ) {b : TypeId} (hb : b ∈ m.typeIds)
    {x : ElementId} (hx : x ∈ m.elementIds) :
    Attempt.Matched Report.Alike (m.checkObjectMembers b x)
      (m'.checkObjectMembers (ρ.type b) (ρ.element x)) :=
  checkProperties_matched (h.propertiesOfType_perm hb fun _ _ => rfl) fun e he =>
    h.checkPropertyElement_eq (head_mem hx false) (propertiesOfType_subset e he)

/-! ## Features -/

theorem strangers_perm (h : Mirror m m' ρ) {x : ElementId} (hx : x ∈ m.elementIds) {t : TypeId}
    (ht : t ∈ m.typeIds) : (m'.strangers (ρ.element x) (ρ.type t)).Perm (m.strangers x t) := by
  have hmem {e : ElementId} (he : e ∈ m.globalElementsOfType t) : e ∈ m.elementIds :=
    h.mem_of_globals (List.mem_of_mem_filter he)
  have hfilter : ((m'.globalElementsOfType (ρ.type t)).filter
      fun e => ! (m'.substitutes (ρ.element x)).contains e).Perm
        (((m.globalElementsOfType t).filter
          fun e => ! (m.substitutes x).contains e).map ρ.element) := by
    refine Renaming.filter_perm (h.globalElementsOfType_perm ht) fun e he => ?_
    rw [Renaming.contains_eq h.distinct_elements (h.substitutes_perm hx) substitutes_subset
      (hmem he)]
  unfold strangers
  refine (hfilter.map _).trans (.of_eq ?_)
  rw [List.map_map]
  refine List.map_congr_left fun e he => ?_
  rw [Function.comp_apply, h.elementName_eq (hmem (List.mem_of_mem_filter he)),
    h.elementName_eq hx]

theorem checkFeatureSubstitution_alike (h : Mirror m m' ρ) {x : ElementId}
    (hx : x ∈ m.elementIds) :
    Report.Alike (m.checkFeatureSubstitution m.featureTypes x)
      (m'.checkFeatureSubstitution m'.featureTypes (ρ.element x)) := by
  have hfindings : (m'.featureTypes.flatMap (m'.strangers (ρ.element x))).Perm
      (m.featureTypes.flatMap (m.strangers x)) := by
    refine (h.featureTypes_perm.flatMap_right _).trans ?_
    rw [List.flatMap_map]
    exact List.Perm.flatMap_left _ fun t ht =>
      h.strangers_perm hx (reachableTypes_subset t (List.mem_of_mem_filter ht))
  unfold checkFeatureSubstitution
  rw [h.featureTypes_isEmpty_eq]
  split
  · exact .refl _
  · exact Report.ofFindings_alike hfindings

/-! ## All checks -/

/-- The components of GML in their new places. -/
def anchors (h : Mirror m m' ρ) (a : m.Anchors) : m'.Anchors where
  feature := ρ.element a.feature
  object := ρ.element a.object
  featureMember := ρ.type a.featureMember
  metadata := ρ.type a.metadata
  objectMember := ρ.type a.objectMember
  feature_eq := by rw [h.globalElement?_eq, a.feature_eq, Option.map_some]
  object_eq := by rw [h.globalElement?_eq, a.object_eq, Option.map_some]
  featureMember_eq := by rw [h.globalType?_eq, a.featureMember_eq, Option.map_some]
  metadata_eq := by rw [h.globalType?_eq, a.metadata_eq, Option.map_some]
  objectMember_eq := by rw [h.globalType?_eq, a.objectMember_eq, Option.map_some]

theorem memberAttempt_matched (h : Mirror m m' ρ) (s : Settings) (a : m.Anchors) :
    Attempt.Matched Report.Alike (m.memberAttempt s a) (m'.memberAttempt s (h.anchors a)) := by
  unfold memberAttempt
  rw [h.featureTypes_isEmpty_eq]
  split
  · exact .ok (.refl _)
  · exact h.checkFeatureMembers_matched s (h.globalType_mem _ _ a.featureMember_eq)
      (h.globalElement_mem _ _ a.feature_eq)

/-- The components of GML are declared on both sides or on none. -/
theorem nonempty_anchors (h : Mirror m m' ρ) (ha : Nonempty m'.Anchors) : Nonempty m.Anchors := by
  obtain ⟨a⟩ := ha
  have element {n : QName} {e : ElementId} (he : m'.globalElement? n = some e) :
      ∃ x, m.globalElement? n = some x := by
    rw [h.globalElement?_eq] at he
    obtain ⟨x, hx, -⟩ := Option.map_eq_some_iff.1 he
    exact ⟨x, hx⟩
  have type {n : QName} {t : TypeId} (ht : m'.globalType? n = some t) :
      ∃ x, m.globalType? n = some x := by
    rw [h.globalType?_eq] at ht
    obtain ⟨x, hx, -⟩ := Option.map_eq_some_iff.1 ht
    exact ⟨x, hx⟩
  obtain ⟨x₁, h₁⟩ := element a.feature_eq
  obtain ⟨x₂, h₂⟩ := element a.object_eq
  obtain ⟨x₃, h₃⟩ := type a.featureMember_eq
  obtain ⟨x₄, h₄⟩ := type a.metadata_eq
  obtain ⟨x₅, h₅⟩ := type a.objectMember_eq
  exact ⟨x₁, x₂, x₃, x₄, x₅, h₁, h₂, h₃, h₄, h₅⟩

/-- The checks of a schema and of its mirror image fail together, or their reports say the same. -/
theorem checkAll_matched (h : Mirror m m' ρ) (s : Settings) :
    Attempt.Matched (List.Forall₂ Report.Alike) (m.checkAll s) (m'.checkAll s) := by
  have failure {n : Schema} (hn : ¬ Nonempty n.Anchors) : ∃ x, n.checkAll s = .error x := by
    cases hc : n.checkAll s with
    | error x => exact ⟨x, rfl⟩
    | ok rs => exact absurd (anchors_of_checkAll_ok hc) hn
  by_cases ha : Nonempty m.Anchors
  · obtain ⟨a⟩ := ha
    have hfeature := h.globalElement_mem _ _ a.feature_eq
    have hobject := h.globalElement_mem _ _ a.object_eq
    have hmetadata := h.globalType_mem _ _ a.metadata_eq
    have hmember := h.globalType_mem _ _ a.objectMember_eq
    rw [checkAll_eq a, checkAll_eq (h.anchors a)]
    refine (h.memberAttempt_matched s a).bind fun r₂ r₂' h₂ => ?_
    refine (h.checkMetadata_matched hmetadata).bind fun r₃ r₃' h₃ => ?_
    refine (h.checkObjectMembers_matched hmember hobject).bind fun r₄ r₄' h₄ => ?_
    exact .ok (.cons (h.checkFeatureSubstitution_alike hfeature)
      (.cons h₂ (.cons h₃ (.cons h₄ .nil))))
  · obtain ⟨x, hx⟩ := failure ha
    obtain ⟨x', hx'⟩ := failure (mt h.nonempty_anchors ha)
    rw [hx, hx']
    exact .error x x'

end Mirror

/-! ## Storing in another order -/

/-- `m'` has the components of `m` in other places, added under the same names and with all
references redirected. -/
structure Reordered (m m' : Schema) (r r' : Roll) (ρ : Moves) : Prop where
  typeIds : m'.typeIds.Perm (m.typeIds.map ρ.type)
  elementIds : m'.elementIds.Perm (m.elementIds.map ρ.element)
  type?_eq : ∀ t ∈ m.typeIds, m'.type? (ρ.type t) = (m.type? t).map (·.move ρ)
  element?_eq : ∀ e ∈ m.elementIds, m'.element? (ρ.element e) = (m.element? e).map (·.move ρ)
  typeName_eq : ∀ t ∈ m.typeIds, r'.type (ρ.type t) = r.type t
  elementName_eq : ∀ e ∈ m.elementIds, r'.element (ρ.element e) = r.element e

/-- No two types and no two global elements were added under one name. -/
structure DistinctNames (m : Schema) (r : Roll) : Prop where
  types : ∀ t ∈ m.typeIds, ∀ u ∈ m.typeIds, ∀ n ∈ r.type t, n ∈ r.type u → t = u
  elements : ∀ e ∈ m.elementIds, ∀ x ∈ m.elementIds, ∀ n ∈ r.element e, n ∈ r.element x → e = x

/-- The moves that store the components of `roads` backwards. -/
def backwards : Moves := ⟨fun t => ⟨6 - t.index⟩, fun e => ⟨5 - e.index⟩⟩

def roadsBackwards : Schema :=
  ofLists (roads.types.toList.map (·.move backwards)).reverse
    (roads.elements.toList.map (·.move backwards)).reverse

theorem closed_roads : roads.Closed where
  base := by decide +kernel
  content := by decide +kernel
  type := by decide +kernel
  head := by decide +kernel

theorem distinctNames_roads : roads.DistinctNames roads.declared where
  types := by decide +kernel
  elements := by decide +kernel

theorem reordered_roads :
    Reordered roads roadsBackwards roads.declared roadsBackwards.declared backwards where
  typeIds := by decide +kernel
  elementIds := by decide +kernel
  type?_eq := by
    rintro ⟨i⟩ hi
    match i with
    | 0 | 1 | 2 | 3 | 4 | 5 | 6 => rfl
    | i + 7 =>
      obtain ⟨j, hj, hji⟩ := List.mem_map.1 hi
      have hlt : j < 7 := List.mem_range.1 hj
      cases hji
      omega
  element?_eq := by decide +kernel
  typeName_eq := by decide +kernel
  elementName_eq := by decide +kernel

/-- Where names are distinct it does not matter which component of a name came last. -/
theorem NameIndex.find_moved {α : Type} {ids ids' : List α} {name name' : α → Option QName}
    {find find' : QName → Option α} {g : α → α} (h : NameIndex ids name find)
    (h' : NameIndex ids' name' find') (hids : ids'.Perm (ids.map g))
    (hname : ∀ a ∈ ids, name' (g a) = name a)
    (hd : ∀ a ∈ ids, ∀ b ∈ ids, ∀ n ∈ name a, n ∈ name b → a = b) (n : QName) :
    find' n = (find n).map g := by
  have origin {b : α} (hb : find' n = some b) : ∃ a ∈ ids, g a = b ∧ name a = some n := by
    have hn := h'.name_of_find hb
    obtain ⟨a, ha, rfl⟩ := List.mem_map.1 (hids.mem_iff.1 (h'.mem_of_name hn))
    rw [hname a ha] at hn
    exact ⟨a, ha, rfl, hn⟩
  cases hf : find n with
  | none =>
    cases hf' : find' n with
    | none => rfl
    | some b =>
      obtain ⟨a, -, -, hn⟩ := origin hf'
      obtain ⟨c, hc⟩ := h.find_of_name hn
      rw [hf] at hc
      cases hc
  | some a =>
    have hn := h.name_of_find hf
    have ha := h.mem_of_name hn
    obtain ⟨b, hb⟩ := h'.find_of_name ((hname a ha).trans hn)
    obtain ⟨c, hc, rfl, hcn⟩ := origin hb
    rw [hb, hd a ha c hc n hn hcn, Option.map_some]

section

variable {m m' : Schema} {r r' : Roll} {ρ : Moves}

theorem Reordered.mirror (hm : m.Built r) (hm' : m'.Built r') (hc : m.Closed)
    (hd : m.DistinctNames r) (h : Reordered m m' r r' ρ) : Mirror m m' ρ := by
  have hi := hm.indexed
  have hi' := hm'.indexed
  have htype := hi.types.find_moved hi'.types h.typeIds h.typeName_eq hd.types
  have helement := hi.elements.find_moved hi'.elements h.elementIds h.elementName_eq hd.elements
  have hmem : ∀ n, ∀ e ∈ m.globalElement? n, e ∈ m.elementIds :=
    fun n e he => hi.elements.mem_of_name (hi.elements.name_of_find he)
  have hglobal : ∀ e ∈ m.globals, e ∈ m.elementIds := by
    intro e he
    obtain ⟨n, hn⟩ := mem_globals_iff.1 he
    exact hmem n e hn
  have hdistinct : Renaming.Distinct ρ.element m.globals :=
    (Renaming.Distinct.of_perm h.elementIds m'.nodup_elementIds).of_subset hglobal
  have hglobals : m'.globals.Perm (m.globals.map ρ.element) := by
    refine (List.perm_ext_iff_of_nodup hi'.nodup_globals (hi.nodup_globals.map_on hdistinct)).2
      fun b => ?_
    simp only [List.mem_map, mem_globals_iff, Global, helement, Option.map_eq_some_iff]
    exact ⟨fun ⟨n, a, ha, hb⟩ => ⟨a, ⟨n, ha⟩, hb⟩, fun ⟨a, ⟨n, ha⟩, hb⟩ => ⟨n, a, ha, hb⟩⟩
  exact ⟨hc, h.typeIds, h.elementIds, h.type?_eq, h.element?_eq, htype, helement, hglobals,
    fun n t ht => hi.types.mem_of_name (hi.types.name_of_find ht), hmem⟩

/-- The order of declarations does not matter. The checks of a schema and of the same schema in
another order fail together, or their reports say the same. -/
theorem checkAll_reordered (hm : m.Built r) (hm' : m'.Built r') (hc : m.Closed)
    (hd : m.DistinctNames r) (h : Reordered m m' r r' ρ) (s : Settings) :
    Attempt.Matched (List.Forall₂ Report.Alike) (m.checkAll s) (m'.checkAll s) :=
  (h.mirror hm hm' hc hd).checkAll_matched s

end

/-- The two strays are found in either order. -/
theorem checkAll_reordered_roads :
    ∃ rs rs', roads.checkAll ⟨false, 0, true⟩ = .ok rs ∧
      roadsBackwards.checkAll ⟨false, 0, true⟩ = .ok rs' ∧
      (rs.flatMap Report.violations).map Violation.subject = ["Stray", "Lost"] ∧
      (rs'.flatMap Report.violations).map Violation.subject = ["Lost", "Stray"] ∧
      List.Forall₂ Report.Alike rs rs' := by
  have hfound : (roads.checkAll ⟨false, 0, true⟩).toOption.map
      (fun rs => (rs.flatMap Report.violations).map Violation.subject) =
        some ["Stray", "Lost"] := by cbv
  have hfound' : (roadsBackwards.checkAll ⟨false, 0, true⟩).toOption.map
      (fun rs => (rs.flatMap Report.violations).map Violation.subject) =
        some ["Lost", "Stray"] := by cbv
  have hbuilt : roads.Built roads.declared := built_ofLists _ _
  have hbuilt' : roadsBackwards.Built roadsBackwards.declared := built_ofLists _ _
  have h := checkAll_reordered hbuilt hbuilt' closed_roads distinctNames_roads reordered_roads
    ⟨false, 0, true⟩
  cases hx : roads.checkAll ⟨false, 0, true⟩ with
  | error x => rw [hx] at hfound; cases hfound
  | ok rs =>
    cases hx' : roadsBackwards.checkAll ⟨false, 0, true⟩ with
    | error x => rw [hx'] at hfound'; cases hfound'
    | ok rs' =>
      rw [hx] at hfound
      rw [hx'] at hfound'
      rw [hx, hx'] at h
      cases h with
      | ok hrs =>
        exact ⟨rs, rs', rfl, rfl, Option.some.inj hfound, Option.some.inj hfound', hrs⟩

end Schema

end GmlCheck
