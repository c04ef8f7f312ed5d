import GmlCheck.Proofs.Schema.Built
import GmlCheck.Proofs.Schema.Relations
import GmlCheck.Schema.Property

/-!
# Schemas in another order

A schema is reordered by moving its components to other places and redirecting
all references to them. `Mirror m m' ρ` says that `m'` is `m` after the moves `ρ`,
names included; then every question to a schema has the same answer on both sides,
up to the moves and, where the answer is a list, up to its order.
-/

namespace GmlCheck

/-- The places to which the components of a schema move. -/
structure Moves where
  type : TypeId → TypeId
  element : ElementId → ElementId

/-! ## Components -/

namespace Particle

mutual

def move (ρ : Moves) : Particle → Particle
  | element o e => element o (ρ.element e)
  | group o c ps => group o c (moveAll ρ ps)
  | wildcard o w => wildcard o w

def moveAll (ρ : Moves) : List Particle → List Particle
  | [] => []
  | p :: ps => p.move ρ :: moveAll ρ ps

end

variable {ρ : Moves}

theorem moveAll_eq_map (ps : List Particle) : moveAll ρ ps = ps.map (move ρ) := by
  induction ps with
  | nil => rfl
  | cons p ps ih => rw [moveAll, ih, List.map_cons]

@[simp] theorem occurs_move (p : Particle) : (p.move ρ).occurs = p.occurs := by
  cases p <;> rfl

theorem elements_move : ∀ p : Particle, (p.move ρ).elements = p.elements.map ρ.element
  | element _ _ => rfl
  | wildcard _ _ => rfl
  | group o c ps => by
    rw [move, elements, elements, moveAll_eq_map, elementsOf_eq_flatMap, elementsOf_eq_flatMap,
      List.flatMap_map, List.map_flatMap]
    exact List.flatMap_congr fun p hp => elements_move p

end Particle

def Derivation.move (ρ : Moves) (d : Derivation) : Derivation :=
  { d with base := ρ.type d.base }

def ComplexType.move (ρ : Moves) (t : ComplexType) : ComplexType :=
  { t with
    derivation := t.derivation.map (·.move ρ)
    particle := t.particle.map (·.move ρ) }

def TypeDefinition.move (ρ : Moves) : TypeDefinition → TypeDefinition
  | simple n d => simple n (d.map (·.move ρ))
  | complex t => complex (t.move ρ)

def Scope.move (ρ : Moves) : Scope → Scope
  | global => global
  | within t => within (ρ.type t)

def ElementDeclaration.move (ρ : Moves) (e : ElementDeclaration) : ElementDeclaration :=
  { e with
    type := ρ.type e.type
    scope := e.scope.move ρ
    head := e.head.map ρ.element }

def Schema.ValueHead.move (ρ : Moves) (h : ValueHead) : ValueHead :=
  { h with head := ρ.element h.head }

section

variable {ρ : Moves}

theorem ComplexType.elements_move (t : ComplexType) :
    (t.move ρ).elements = t.elements.map ρ.element := by
  unfold elements move
  cases t.particle with
  | none => rfl
  | some p => exact p.elements_move

@[simp] theorem TypeDefinition.name_move (t : TypeDefinition) : (t.move ρ).name = t.name := by
  cases t <;> rfl

@[simp] theorem TypeDefinition.isAbstract_move (t : TypeDefinition) :
    (t.move ρ).isAbstract = t.isAbstract := by
  cases t <;> rfl

@[simp] theorem TypeDefinition.derivation_move (t : TypeDefinition) :
    (t.move ρ).derivation = t.derivation.map (·.move ρ) := by
  cases t <;> rfl

@[simp] theorem TypeDefinition.complex?_move (t : TypeDefinition) :
    (t.move ρ).complex? = t.complex?.map (·.move ρ) := by
  cases t <;> rfl

theorem Scope.move_bne_global (s : Scope) : (s.move ρ != .global) = (s != .global) := by
  cases s <;> rfl

end

namespace Schema

/-! ## Moving all components -/

/-- No reference that is followed leads out of the schema. -/
structure Closed (m : Schema) : Prop where
  base : ∀ t ∈ m.typeIds, ∀ d ∈ m.type? t, ∀ b ∈ d.derivation, b.base ∈ m.typeIds
  content : ∀ t ∈ m.typeIds, ∀ c ∈ m.complexType? t, ∀ e ∈ c.elements, e ∈ m.elementIds
  type : ∀ e ∈ m.elementIds, ∀ d ∈ m.element? e, d.type ∈ m.typeIds
  head : ∀ e ∈ m.elementIds, ∀ d ∈ m.element? e, ∀ h ∈ d.head, h ∈ m.elementIds

/-- The components of `m'` are those of `m` in other places, with the references redirected. -/
structure Mirror (m m' : Schema) (ρ : Moves) : Prop where
  closed : m.Closed
  typeIds : m'.typeIds.Perm (m.typeIds.map ρ.type)
  elementIds : m'.elementIds.Perm (m.elementIds.map ρ.element)
  type?_eq : ∀ t ∈ m.typeIds, m'.type? (ρ.type t) = (m.type? t).map (·.move ρ)
  element?_eq : ∀ e ∈ m.elementIds, m'.element? (ρ.element e) = (m.element? e).map (·.move ρ)
  globalType?_eq : ∀ n, m'.globalType? n = (m.globalType? n).map ρ.type
  globalElement?_eq : ∀ n, m'.globalElement? n = (m.globalElement? n).map ρ.element
  globals : m'.globals.Perm (m.globals.map ρ.element)
  globalType_mem : ∀ n, ∀ t ∈ m.globalType? n, t ∈ m.typeIds
  globalElement_mem : ∀ n, ∀ e ∈ m.globalElement? n, e ∈ m.elementIds

theorem substitutes_subset {m : Schema} {head : ElementId} :
    ∀ e ∈ m.substitutes head, e ∈ m.elementIds :=
  fun _ he => List.mem_of_mem_erase (Closure.collect_subset he)

theorem reachableTypes_subset {m : Schema} : ∀ t ∈ m.reachableTypes, t ∈ m.typeIds :=
  fun _ ht => List.mem_of_mem_filter (Closure.collect_subset ht)

namespace Mirror

variable {m m' : Schema} {ρ : Moves} {t b : TypeId} {e : ElementId}

theorem distinct_types (h : Mirror m m' ρ) : Renaming.Distinct ρ.type m.typeIds :=
  .of_perm h.typeIds m'.nodup_typeIds

theorem distinct_elements (h : Mirror m m' ρ) : Renaming.Distinct ρ.element m.elementIds :=
  .of_perm h.elementIds m'.nodup_elementIds

theorem size_types (h : Mirror m m' ρ) : m'.types.size = m.types.size := by
  simpa [Schema.typeIds] using h.typeIds.length_eq

/-! ## Derivation -/

theorem base?_eq (h : Mirror m m' ρ) (k : Option Method) (ht : t ∈ m.typeIds) :
    m'.base? k (ρ.type t) = (m.base? k t).map ρ.type := by
  unfold base?
  rw [h.type?_eq t ht]
  cases m.type? t with
  | none => rfl
  | some d =>
    simp only [Option.map_some, Option.bind_some, TypeDefinition.derivation_move]
    cases d.derivation with
    | none => rfl
    | some l =>
      simp only [Option.map_some, Option.bind_some, Derivation.move]
      split <;> rfl

theorem base?_mem (h : Mirror m m' ρ) {k : Option Method} (hb : m.base? k t = some b) :
    b ∈ m.typeIds := by
  obtain ⟨l, hl, rfl, -⟩ := hasBase_iff.2 hb
  obtain ⟨d, hd, hl⟩ := Option.bind_eq_some_iff.1 hl
  exact h.closed.base t (mem_typeIds_iff.2 ⟨d, hd⟩) d hd l hl

theorem derivationChain_eq (h : Mirror m m' ρ) (k : Option Method) (n : Nat)
    (ht : t ∈ m.typeIds) :
    m'.derivationChain k n (ρ.type t) = (m.derivationChain k n t).map ρ.type := by
  induction n generalizing t with
  | zero => rfl
  | succ n ih =>
    rw [derivationChain, derivationChain, h.base?_eq k ht, List.map_cons]
    cases hb : m.base? k t with
    | none => rfl
    | some b => exact congrArg _ (ih (h.base?_mem hb))

theorem derivationChain_mem (h : Mirror m m' ρ) {k : Option Method} {n : Nat}
    (ht : t ∈ m.typeIds) : ∀ b ∈ m.derivationChain k n t, b ∈ m.typeIds := by
  induction n generalizing t with
  | zero => nofun
  | succ n ih =>
    intro b hb
    rw [derivationChain, List.mem_cons] at hb
    rcases hb with rfl | hb
    · exact ht
    · cases hc : m.base? k t with
      | none => simp [hc] at hb
      | some c => rw [hc] at hb; exact ih (h.base?_mem hc) b hb

theorem derivesFrom_eq (h : Mirror m m' ρ) (k : Option Method) (ht : t ∈ m.typeIds)
    (hb : b ∈ m.typeIds) : m'.derivesFrom (ρ.type t) (ρ.type b) k = m.derivesFrom t b k := by
  unfold derivesFrom
  rw [h.size_types, h.derivationChain_eq k _ ht]
  exact Renaming.contains_eq h.distinct_types (.refl _) (h.derivationChain_mem ht) hb

theorem isOfType_eq (h : Mirror m m' ρ) (ht : t ∈ m.typeIds) (hb : b ∈ m.typeIds) :
    m'.isOfType (ρ.type t) (ρ.type b) = m.isOfType t b := by
  have heq : (ρ.type t == ρ.type b) = (t == b) := by
    rw [Bool.eq_iff_iff, beq_iff_eq, beq_iff_eq]
    exact ⟨h.distinct_types t ht b hb, congrArg _⟩
  unfold isOfType
  rw [heq, h.type?_eq b hb, h.derivesFrom_eq none ht hb]
  cases m.type? b <;> simp

/-! ## Typed elements -/

theorem mem_of_globals (h : Mirror m m' ρ) (he : e ∈ m.globals) : e ∈ m.elementIds := by
  obtain ⟨n, hn⟩ := mem_globals_iff.1 he
  exact h.globalElement_mem n e hn

theorem elementIsOfType_eq (h : Mirror m m' ρ) (hb : b ∈ m.typeIds) (he : e ∈ m.elementIds) :
    m'.elementIsOfType (ρ.type b) (ρ.element e) = m.elementIsOfType b e := by
  unfold elementIsOfType
  rw [h.element?_eq e he]
  cases hd : m.element? e with
  | none => rfl
  | some d => exact h.isOfType_eq (h.closed.type e he d hd) hb

theorem globalElementsOfType_perm (h : Mirror m m' ρ) (hb : b ∈ m.typeIds) :
    (m'.globalElementsOfType (ρ.type b)).Perm ((m.globalElementsOfType b).map ρ.element) :=
  Renaming.filter_perm h.globals fun _ he => h.elementIsOfType_eq hb (h.mem_of_globals he)

theorem elementsExtending_perm (h : Mirror m m' ρ) (hb : b ∈ m.typeIds) :
    (m'.elementsExtending (ρ.type b)).Perm ((m.elementsExtending b).map ρ.element) := by
  refine Renaming.filter_perm h.elementIds fun e he => ?_
  rw [h.element?_eq e he]
  cases hd : m.element? e with
  | none => rfl
  | some d => exact h.derivesFrom_eq _ (h.closed.type e he d hd) hb

/-! ## Substitution -/

theorem members_perm (h : Mirror m m' ρ) (he : e ∈ m.elementIds) :
    (m'.members (ρ.element e)).Perm ((m.members e).map ρ.element) := by
  refine Renaming.filter_perm h.elementIds fun c hc => ?_
  rw [h.element?_eq c hc]
  cases hd : m.element? c with
  | none => rfl
  | some d =>
    simp only [Option.map_some, Option.any_some, ElementDeclaration.move]
    cases hh : d.head with
    | none => rfl
    | some x =>
      rw [Bool.eq_iff_iff]
      simp only [Option.map_some, beq_iff_eq, Option.some.injEq]
      exact ⟨h.distinct_elements x (h.closed.head c hc d hd x hh) e he, congrArg _⟩

theorem substitutes_perm (h : Mirror m m' ρ) (he : e ∈ m.elementIds) :
    (m'.substitutes (ρ.element e)).Perm ((m.substitutes e).map ρ.element) := by
  have hmembers (c : ElementId) : ∀ x ∈ m.members c, x ∈ m.elementIds :=
    fun _ hx => List.mem_of_mem_filter hx
  have herase : ∀ c ∈ m.elementIds.erase e, c ∈ m.elementIds := fun _ => List.mem_of_mem_erase
  exact Closure.collect_perm_map h.distinct_elements herase (hmembers e)
    (fun c _ => hmembers c) (fun c hc => h.members_perm (herase c hc))
    (Renaming.erase_perm h.distinct_elements h.elementIds m.nodup_elementIds he)
    (h.members_perm he) (m.nodup_elementIds.erase e)

/-! ## Reach -/

theorem complexType?_eq (h : Mirror m m' ρ) (ht : t ∈ m.typeIds) :
    m'.complexType? (ρ.type t) = (m.complexType? t).map (·.move ρ) := by
  unfold complexType?
  rw [h.type?_eq t ht]
  cases m.type? t with
  | none => rfl
  | some d => exact d.complex?_move

theorem contentElements_eq (h : Mirror m m' ρ) (ht : t ∈ m.typeIds) :
    m'.contentElements (ρ.type t) = (m.contentElements t).map ρ.element := by
  unfold contentElements
  rw [h.complexType?_eq ht]
  cases m.complexType? t with
  | none => rfl
  | some c => exact c.elements_move

theorem contentElements_mem (h : Mirror m m' ρ) (ht : t ∈ m.typeIds) :
    ∀ e ∈ m.contentElements t, e ∈ m.elementIds := by
  unfold contentElements
  cases hc : m.complexType? t with
  | none => nofun
  | some c => exact h.closed.content t ht c hc

theorem typesOf_eq (h : Mirror m m' ρ) {es : List ElementId} (hes : ∀ e ∈ es, e ∈ m.elementIds) :
    m'.typesOf (es.map ρ.element) = (m.typesOf es).map ρ.type := by
  unfold typesOf
  rw [List.filterMap_map, List.map_filterMap]
  refine List.filterMap_congr fun e he => ?_
  simp only [Function.comp_apply, h.element?_eq e (hes e he)]
  cases m.element? e <;> rfl

theorem typesOf_mem (h : Mirror m m' ρ) {es : List ElementId} (hes : ∀ e ∈ es, e ∈ m.elementIds) :
    ∀ t ∈ m.typesOf es, t ∈ m.typeIds := by
  intro t ht
  obtain ⟨e, he, d, hd, rfl⟩ := mem_typesOf_iff.1 ht
  exact h.closed.type e (hes e he) d hd

theorem contentTypes_eq (h : Mirror m m' ρ) (ht : t ∈ m.typeIds) :
    m'.contentTypes (ρ.type t) = (m.contentTypes t).map ρ.type := by
  show m'.typesOf (m'.contentElements (ρ.type t)) = (m.typesOf (m.contentElements t)).map ρ.type
  rw [h.contentElements_eq ht, h.typesOf_eq (h.contentElements_mem ht)]

theorem reachableTypes_perm (h : Mirror m m' ρ) :
    m'.reachableTypes.Perm (m.reachableTypes.map ρ.type) := by
  have hdomain : ∀ t ∈ m.typeIds.filter (fun t => (m.complexType? t).isSome), t ∈ m.typeIds :=
    fun _ => List.mem_of_mem_filter
  have hseeds : (m'.typesOf m'.globals).Perm ((m.typesOf m.globals).map ρ.type) := by
    rw [← h.typesOf_eq fun _ => h.mem_of_globals]
    exact h.globals.filterMap _
  refine Closure.collect_perm_map h.distinct_types hdomain
    (h.typesOf_mem fun _ => h.mem_of_globals)
    (fun t ht => h.typesOf_mem (h.contentElements_mem (hdomain t ht)))
    (fun t ht => .of_eq (h.contentTypes_eq (hdomain t ht)))
    (Renaming.filter_perm h.typeIds fun t ht => ?_) hseeds (m.nodup_typeIds.filter _)
  rw [h.complexType?_eq ht, Option.isSome_map]

theorem localElementsOfType_perm (h : Mirror m m' ρ) (hb : b ∈ m.typeIds)
    {accept accept' : TypeId → Bool} (hacc : ∀ t ∈ m.typeIds, accept' (ρ.type t) = accept t) :
    (m'.localElementsOfType (ρ.type b) accept').Perm
      ((m.localElementsOfType b accept).map ρ.element) := by
  have hsub {t : TypeId} (ht : t ∈ m.reachableTypes.filter accept) : t ∈ m.typeIds :=
    reachableTypes_subset t (List.mem_of_mem_filter ht)
  have hwithin : ∀ e ∈ (m.reachableTypes.filter accept).flatMap m.contentElements,
      e ∈ m.elementIds := by
    intro e he
    obtain ⟨t, ht, he⟩ := List.mem_flatMap.1 he
    exact h.contentElements_mem (hsub ht) e he
  have htypes := Renaming.filter_perm h.reachableTypes_perm fun t ht =>
    hacc t (reachableTypes_subset t ht)
  have hperm : ((m'.reachableTypes.filter accept').flatMap m'.contentElements).Perm
      (((m.reachableTypes.filter accept).flatMap m.contentElements).map ρ.element) := by
    refine (htypes.flatMap_right _).trans (.of_eq ?_)
    rw [List.flatMap_map, List.map_flatMap]
    exact List.flatMap_congr fun t ht => h.contentElements_eq (hsub ht)
  refine Renaming.eraseDups_perm (h.distinct_elements.of_subset fun e he =>
    hwithin e (List.mem_of_mem_filter he)) (Renaming.filter_perm hperm fun e he => ?_)
  rw [h.elementIsOfType_eq hb (hwithin e he), h.element?_eq e (hwithin e he)]
  cases m.element? e with
  | none => rfl
  | some d => exact congrArg (· && _) d.scope.move_bne_global

/-! ## Kinds of types -/

theorem typeName?_eq (h : Mirror m m' ρ) (ht : t ∈ m.typeIds) :
    m'.typeName? (ρ.type t) = m.typeName? t := by
  unfold typeName?
  rw [h.type?_eq t ht]
  cases m.type? t with
  | none => rfl
  | some d => exact d.name_move

theorem derivesFromGml_eq (h : Mirror m m' ρ) (n : String) (ht : t ∈ m.typeIds) :
    m'.derivesFromGml n (ρ.type t) = m.derivesFromGml n t := by
  unfold derivesFromGml
  rw [h.globalType?_eq]
  cases hb : m.globalType? (.gml n) with
  | none => rfl
  | some b => exact h.derivesFrom_eq none ht (h.globalType_mem _ b hb)

theorem featureTypes_perm (h : Mirror m m' ρ) :
    m'.featureTypes.Perm (m.featureTypes.map ρ.type) := by
  refine Renaming.filter_perm h.reachableTypes_perm fun t ht => ?_
  unfold isFeatureType
  rw [h.typeName?_eq (reachableTypes_subset t ht), h.derivesFromGml_eq _ (reachableTypes_subset t ht)]

theorem featureTypes_isEmpty_eq (h : Mirror m m' ρ) :
    m'.featureTypes.isEmpty = m.featureTypes.isEmpty := by
  rw [h.featureTypes_perm.isEmpty_eq, List.isEmpty_map]

/-! ## Declarations -/

/-- An element and its declared type are found on both sides. -/
theorem exists_declared (h : Mirror m m' ρ) (he : e ∈ m.elementIds) :
    ∃ d t, m.element? e = some d ∧ m'.element? (ρ.element e) = some (d.move ρ) ∧
      d.type ∈ m.typeIds ∧ m.type? d.type = some t ∧
      m'.type? (ρ.type d.type) = some (t.move ρ) := by
  obtain ⟨d, hd⟩ := mem_elementIds_iff.1 he
  have htype := h.closed.type e he d hd
  obtain ⟨t, ht⟩ := mem_typeIds_iff.1 htype
  refine ⟨d, t, hd, ?_, htype, ht, ?_⟩
  · rw [h.element?_eq e he, hd, Option.map_some]
  · rw [h.type?_eq d.type htype, ht, Option.map_some]

theorem elementName_eq (h : Mirror m m' ρ) (he : e ∈ m.elementIds) :
    m'.elementName (ρ.element e) = m.elementName e := by
  obtain ⟨d, t, hd, hd', -⟩ := h.exists_declared he
  unfold elementName
  rw [hd, hd']
  rfl

end Mirror

end Schema

end GmlCheck
