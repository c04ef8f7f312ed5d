import GmlCheck.Proofs.Schema.FeatureVerdict

/-!
# Elements reported as strangers

A global element of a feature type that may not stand for the abstract feature is a stranger. The
check asks every given type for its strangers, and an abstract type also answers for the types
derived from it. `checkFeatureSubstitution_reports`: there is one violation for every type and
stranger of that type, so that an element is reported once only as long as it counts as one of the
given types. `checkFeatureSubstitution_repeats` is a schema with an element that counts as two.
-/

namespace GmlCheck.Schema

variable {m : Schema} {r : Roll} {types : List TypeId} {head e : ElementId} {t : TypeId}

/-- The global element counts as the type and may not stand for the head. -/
structure Stranger (m : Schema) (head : ElementId) (t : TypeId) (e : ElementId) : Prop where
  global : m.Global e
  typed : m.TypedBy t e
  outside : ¬ m.Substitutes e head

/-- The violation names the element and the head, but not the type. -/
def strangerViolation (m : Schema) (head e : ElementId) : Violation :=
  ⟨.substitutionError (m.elementName e) (m.elementName head).prefixed, (m.elementName e).text⟩

def strangersOf (m : Schema) (head : ElementId) (t : TypeId) : List ElementId :=
  (m.globalElementsOfType t).filter fun e => ! (m.substitutes head).contains e

/-- The types with their strangers, in the order of the check. -/
def strangerPairs (m : Schema) (head : ElementId) (types : List TypeId) :
    List (TypeId × ElementId) :=
  types.flatMap fun t => (m.strangersOf head t).map (t, ·)

theorem mem_strangersOf_iff : e ∈ m.strangersOf head t ↔ m.Stranger head t e := by
  simp only [strangersOf, List.mem_filter, Bool.not_eq_true', Bool.eq_false_iff, ne_eq,
    List.contains_iff_mem, mem_globalElementsOfType_iff, mem_substitutes_iff]
  exact ⟨fun ⟨⟨hg, ht⟩, hs⟩ => ⟨hg, ht, hs⟩, fun h => ⟨⟨h.global, h.typed⟩, h.outside⟩⟩

theorem mem_strangerPairs_iff :
    (t, e) ∈ m.strangerPairs head types ↔ t ∈ types ∧ m.Stranger head t e := by
  simp only [strangerPairs, List.mem_flatMap, List.mem_map, Prod.mk.injEq, mem_strangersOf_iff]
  constructor
  · rintro ⟨t', ht', e', he', rfl, rfl⟩
    exact ⟨ht', he'⟩
  · rintro ⟨ht, he⟩
    exact ⟨t, ht, e, he, rfl, rfl⟩

theorem nodup_strangerPairs (hg : m.globals.Nodup) (ht : types.Nodup) (head : ElementId) :
    (m.strangerPairs head types).Nodup := by
  refine List.nodup_flatMap.2 ⟨fun t _ => ?_, ht.imp fun {t u} htu => ?_⟩
  · exact ((hg.filter _).filter _).map fun _ _ h => congrArg Prod.snd h
  · intro x hx hx'
    obtain ⟨e, -, rfl⟩ := List.mem_map.1 hx
    obtain ⟨e', -, he⟩ := List.mem_map.1 hx'
    exact htu (congrArg Prod.fst he).symm

theorem violations_checkFeatureSubstitution (m : Schema) (types : List TypeId) (head : ElementId) :
    (m.checkFeatureSubstitution types head).violations =
      (m.strangerPairs head types).map fun x => m.strangerViolation head x.2 := by
  unfold checkFeatureSubstitution
  split
  · next h =>
    rw [List.isEmpty_iff.1 h]
    rfl
  · have hone (t : TypeId) : (m.strangers head t).filterMap Finding.violation? =
        ((m.strangersOf head t).map (t, ·)).map fun x => m.strangerViolation head x.2 := by
      rw [strangers, List.filterMap_map, List.map_map]
      exact congrFun (List.filterMap_eq_map' (f := m.strangerViolation head)) _
    simp only [Report.ofFindings, strangerPairs, List.filterMap_flatMap, List.map_flatMap, hone]

/-- There is one violation for every given type and stranger of that type. No element is reported
twice exactly if none is a stranger of two of the given types. -/
theorem checkFeatureSubstitution_reports (h : Built m r) (ht : types.Nodup) (head : ElementId) :
    ∃ pairs : List (TypeId × ElementId), pairs.Nodup ∧
      (∀ t e, (t, e) ∈ pairs ↔ t ∈ types ∧ m.Stranger head t e) ∧
      (m.checkFeatureSubstitution types head).violations =
        pairs.map (fun x => m.strangerViolation head x.2) ∧
      ((pairs.map Prod.snd).Nodup ↔ ∀ e, ∀ t ∈ types, ∀ u ∈ types,
        m.Stranger head t e → m.Stranger head u e → t = u) := by
  have hn := nodup_strangerPairs h.indexed.nodup_globals ht head
  refine ⟨m.strangerPairs head types, hn, fun t e => mem_strangerPairs_iff,
    m.violations_checkFeatureSubstitution types head, ?_⟩
  rw [List.nodup_map_iff_inj_on hn]
  constructor
  · intro hinj e t ht u hu hte hue
    exact congrArg Prod.fst
      (hinj (t, e) (mem_strangerPairs_iff.2 ⟨ht, hte⟩) (u, e) (mem_strangerPairs_iff.2 ⟨hu, hue⟩) rfl)
  · rintro hone ⟨t, e⟩ hx ⟨u, e'⟩ hy rfl
    obtain ⟨ht, hte⟩ := mem_strangerPairs_iff.1 hx
    obtain ⟨hu, hue⟩ := mem_strangerPairs_iff.1 hy
    rw [hone e t ht u hu hte hue]

/-- Trucks are vehicles, and vehicles are abstract features. The element `Truck` stands for
nothing. -/
def trucks : Schema :=
  let feature (name : QName) (base : Option TypeId) (isAbstract : Bool) : TypeDefinition :=
    .complex ⟨some name, base.map (⟨·, .extension⟩), isAbstract, .empty, none, []⟩
  ofLists
    [feature (.gml "AbstractFeatureType") none true,
      feature (.bare "VehicleType") (some ⟨0⟩) true,
      feature (.bare "TruckType") (some ⟨1⟩) false]
    [⟨.gml "AbstractFeature", ⟨0⟩, .global, true, none⟩,
      ⟨.bare "Vehicle", ⟨1⟩, .global, true, some ⟨0⟩⟩,
      ⟨.bare "Truck", ⟨2⟩, .global, false, none⟩]

theorem featureTypes_trucks : trucks.featureTypes = [⟨1⟩, ⟨2⟩] := by cbv

theorem strangerPairs_trucks :
    trucks.strangerPairs ⟨0⟩ trucks.featureTypes = [(⟨1⟩, ⟨2⟩), (⟨2⟩, ⟨2⟩)] := by cbv

theorem stranger_trucks_iff (t : TypeId) (e : ElementId) :
    t ∈ trucks.featureTypes ∧ trucks.Stranger ⟨0⟩ t e ↔ (t = ⟨1⟩ ∨ t = ⟨2⟩) ∧ e = ⟨2⟩ := by
  rw [← mem_strangerPairs_iff, strangerPairs_trucks]
  simp [or_and_right]

theorem checkFeatureSubstitution_reports_trucks :
    Built trucks trucks.declared ∧ trucks.featureTypes.Nodup ∧
    ∃ pairs : List (TypeId × ElementId), pairs.Nodup ∧
      (∀ t e, (t, e) ∈ pairs ↔ t ∈ trucks.featureTypes ∧ trucks.Stranger ⟨0⟩ t e) ∧
      (trucks.checkFeatureSubstitution trucks.featureTypes ⟨0⟩).violations =
        pairs.map (fun x => trucks.strangerViolation ⟨0⟩ x.2) ∧
      ¬ (pairs.map Prod.snd).Nodup := by
  have hbuilt : Built trucks trucks.declared := built_ofLists _ _
  have hnodup : trucks.featureTypes.Nodup := by
    rw [featureTypes_trucks]
    decide
  obtain ⟨pairs, hn, hmem, hviolations, hone⟩ := checkFeatureSubstitution_reports hbuilt hnodup ⟨0⟩
  refine ⟨hbuilt, hnodup, pairs, hn, hmem, hviolations, fun h => ?_⟩
  obtain ⟨hvehicle, hv⟩ := (stranger_trucks_iff ⟨1⟩ ⟨2⟩).2 ⟨.inl rfl, rfl⟩
  obtain ⟨htruck, ht⟩ := (stranger_trucks_iff ⟨2⟩ ⟨2⟩).2 ⟨.inr rfl, rfl⟩
  exact absurd (hone.1 h _ _ hvehicle _ htruck hv ht) (by decide)

/-- The only stranger of all feature types is reported twice. -/
theorem checkFeatureSubstitution_repeats :
    Built trucks trucks.declared ∧
    (∀ e, (∃ t ∈ trucks.featureTypes, trucks.Stranger ⟨0⟩ t e) ↔ e = ⟨2⟩) ∧
    (trucks.checkFeatureSubstitution trucks.featureTypes ⟨0⟩).violations.length = 2 := by
  refine ⟨built_ofLists _ _, fun e => ?_, ?_⟩
  · simp only [stranger_trucks_iff]
    constructor
    · rintro ⟨t, -, he⟩
      exact he
    · intro he
      exact ⟨⟨1⟩, .inl rfl, he⟩
  · rw [violations_checkFeatureSubstitution, strangerPairs_trucks]
    rfl

end GmlCheck.Schema
