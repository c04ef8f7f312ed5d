import Mathlib.Data.Fintype.Pigeonhole
import Mathlib.Logic.Relation
import GmlCheck.Proofs.Closure
import GmlCheck.Schema.Query

/-!
# Derivation, substitution and reach as relations

What the questions to a schema mean, without any search: `Derives` is the chain of
bases, `Substitutes` the chain of substitution heads, `Reachable` the least set of
complex types that global elements lead to. Each question is compared with its
relation, on models with cycles and with identifiers that point to nothing too.
-/

namespace GmlCheck

namespace Schema

variable {m : Schema}

/-! ## Derivation -/

/-- `t` names `b` as its base, by the given method if there is one. -/
def HasBase (m : Schema) (method : Option Method) (t b : TypeId) : Prop :=
  ∃ d, (m.type? t).bind TypeDefinition.derivation = some d ∧ d.base = b ∧
    ∀ k, method = some k → d.method = k

/-- `t` is `b`, or derives from it in any number of steps, all of them by the given method. -/
def Derives (m : Schema) (method : Option Method) : TypeId → TypeId → Prop :=
  Relation.ReflTransGen (m.HasBase method)

theorem hasBase_iff {method : Option Method} {t b : TypeId} :
    m.HasBase method t b ↔ m.base? method t = some b := by
  unfold HasBase base?
  cases (m.type? t).bind TypeDefinition.derivation with
  | none => simp
  | some d =>
    cases method with
    | none => simp
    | some k =>
      by_cases hk : k = d.method
      · simp [hk]
      · simp [hk, Ne.symm hk]

/-- What stands `k` steps above `t`. -/
def ancestor? (m : Schema) (method : Option Method) : Nat → TypeId → Option TypeId
  | 0, t => some t
  | k + 1, t => (m.base? method t).bind (m.ancestor? method k)

theorem ancestor?_add (method : Option Method) (j k : Nat) (t : TypeId) :
    m.ancestor? method (j + k) t = (m.ancestor? method j t).bind (m.ancestor? method k) := by
  induction j generalizing t with
  | zero => simp [ancestor?]
  | succ j ih =>
    rw [Nat.add_right_comm, ancestor?, ancestor?, Option.bind_assoc]
    exact congrArg _ (funext fun b => ih b)

theorem mem_derivationChain_iff {method : Option Method} {n : Nat} {t b : TypeId} :
    b ∈ m.derivationChain method n t ↔ ∃ k < n, m.ancestor? method k t = some b := by
  induction n generalizing t with
  | zero => simp [derivationChain]
  | succ n ih =>
    rw [derivationChain, List.mem_cons]
    constructor
    · rintro (rfl | h)
      · exact ⟨0, by omega, rfl⟩
      · cases hb : m.base? method t with
        | none => simp [hb] at h
        | some c =>
          rw [hb] at h
          obtain ⟨k, hk, hc⟩ := ih.1 h
          exact ⟨k + 1, by omega, by rw [ancestor?, hb]; exact hc⟩
    · rintro ⟨k, hk, h⟩
      cases k with
      | zero => exact .inl (Option.some.inj h).symm
      | succ k =>
        rw [ancestor?] at h
        obtain ⟨c, hc, h⟩ := Option.bind_eq_some_iff.1 h
        rw [hc]
        exact .inr (ih.2 ⟨k, by omega, h⟩)

theorem derives_iff_ancestor? {method : Option Method} {t b : TypeId} :
    m.Derives method t b ↔ ∃ k, m.ancestor? method k t = some b := by
  constructor
  · intro h
    induction h using Relation.ReflTransGen.head_induction_on with
    | refl => exact ⟨0, rfl⟩
    | head hb _ ih =>
      obtain ⟨k, hk⟩ := ih
      exact ⟨k + 1, by rw [ancestor?, hasBase_iff.1 hb]; exact hk⟩
  · rintro ⟨k, hk⟩
    induction k generalizing t with
    | zero => cases hk; exact .refl
    | succ k ih =>
      rw [ancestor?] at hk
      obtain ⟨c, hc, hk⟩ := Option.bind_eq_some_iff.1 hk
      exact .head (hasBase_iff.2 hc) (ih hk)

/-- A type below another one belongs to the model. -/
theorem index_lt_of_base? {method : Option Method} {t b : TypeId}
    (h : m.base? method t = some b) : t.index < m.types.size := by
  unfold base? type? at h
  by_contra hlt
  rw [Array.getElem?_eq_none (by omega)] at h
  cases h

/-- A chain with more steps than there are types visits a type twice, and the way between the
two visits can be left out. -/
theorem exists_ancestor?_le {method : Option Method} {t b : TypeId} {k : Nat}
    (h : m.ancestor? method k t = some b) :
    ∃ j ≤ m.types.size, m.ancestor? method j t = some b := by
  have hex : ∃ j, m.ancestor? method j t = some b := ⟨k, h⟩
  let j := Nat.find hex
  have hj : m.ancestor? method j t = some b := Nat.find_spec hex
  refine ⟨j, ?_, hj⟩
  by_contra hlong
  have visit (i : Fin j) : ∃ x : Fin m.types.size, m.ancestor? method i t = some ⟨x⟩ := by
    have hi : m.ancestor? method (i + (j - i)) t = some b := by
      rw [Nat.add_sub_cancel' i.isLt.le]; exact hj
    rw [ancestor?_add] at hi
    obtain ⟨x, hx, hi⟩ := Option.bind_eq_some_iff.1 hi
    rw [show j - i = (j - i - 1) + 1 by omega, ancestor?] at hi
    obtain ⟨c, hc, -⟩ := Option.bind_eq_some_iff.1 hi
    exact ⟨⟨x.index, index_lt_of_base? hc⟩, hx⟩
  choose f hf using visit
  obtain ⟨p, q, hne, heq⟩ := Fintype.exists_ne_map_eq_of_card_lt f (by simpa using hlong)
  have shorter {p q : Fin j} (hpq : p < q) (heq : f p = f q) : False := by
    have hcut : m.ancestor? method (p + (j - q)) t = some b := by
      rw [ancestor?_add, hf p, heq, ← hf q, ← ancestor?_add, Nat.add_sub_cancel' q.isLt.le]
      exact hj
    have hmin : j ≤ p + (j - q) := Nat.find_min' hex hcut
    omega
  rcases lt_or_gt_of_ne hne with hlt | hlt
  · exact shorter hlt heq
  · exact shorter hlt heq.symm

theorem derivesFrom_iff {method : Option Method} {t b : TypeId} :
    m.derivesFrom t b method = true ↔ m.Derives method t b := by
  rw [derivesFrom, List.contains_iff_mem, mem_derivationChain_iff, derives_iff_ancestor?]
  constructor
  · rintro ⟨k, -, h⟩
    exact ⟨k, h⟩
  · rintro ⟨k, h⟩
    obtain ⟨j, hj, h⟩ := exists_ancestor?_le h
    exact ⟨j, by omega, h⟩

/-- The type is `target`, or derives from it where `target` is abstract. -/
def CountsAs (m : Schema) (t target : TypeId) : Prop :=
  t = target ∨
    (∃ d, m.type? target = some d ∧ d.isAbstract = true) ∧ m.Derives none t target

theorem isOfType_iff {t target : TypeId} : m.isOfType t target = true ↔ m.CountsAs t target := by
  simp [isOfType, CountsAs, derivesFrom_iff, Option.any_eq_true]

/-- The name leads to the element. -/
def Global (m : Schema) (e : ElementId) : Prop := ∃ n, m.globalElement? n = some e

/-- The element exists and its declared type counts as `target`. -/
def TypedBy (m : Schema) (target : TypeId) (e : ElementId) : Prop :=
  ∃ d, m.element? e = some d ∧ m.CountsAs d.type target

theorem mem_globals_iff {e : ElementId} : e ∈ m.globals ↔ m.Global e :=
  Table.mem_values_iff

theorem mem_elementIds_iff {e : ElementId} :
    e ∈ m.elementIds ↔ ∃ d, m.element? e = some d := by
  obtain ⟨i⟩ := e
  simp [elementIds, element?, Array.getElem?_eq_some_iff]

theorem mem_typeIds_iff {t : TypeId} : t ∈ m.typeIds ↔ ∃ d, m.type? t = some d := by
  obtain ⟨i⟩ := t
  simp [typeIds, type?, Array.getElem?_eq_some_iff]

theorem nodup_typeIds (m : Schema) : m.typeIds.Nodup :=
  List.nodup_range.map fun _ _ h => TypeId.mk.inj h

theorem nodup_elementIds (m : Schema) : m.elementIds.Nodup :=
  List.nodup_range.map fun _ _ h => ElementId.mk.inj h

theorem elementIsOfType_iff {target : TypeId} {e : ElementId} :
    m.elementIsOfType target e = true ↔ m.TypedBy target e := by
  simp [elementIsOfType, TypedBy, isOfType_iff, Option.any_eq_true]

theorem mem_globalElementsOfType_iff {target : TypeId} {e : ElementId} :
    e ∈ m.globalElementsOfType target ↔ m.Global e ∧ m.TypedBy target e := by
  rw [globalElementsOfType, List.mem_filter, mem_globals_iff, elementIsOfType_iff]

/-- The element exists, and its type reaches `base` by extension alone. -/
def Extends (m : Schema) (base : TypeId) (e : ElementId) : Prop :=
  ∃ d, m.element? e = some d ∧ m.Derives (some .extension) d.type base

theorem mem_elementsExtending_iff {base : TypeId} {e : ElementId} :
    e ∈ m.elementsExtending base ↔ m.Extends base e := by
  simp only [elementsExtending, List.mem_filter, Option.any_eq_true, derivesFrom_iff]
  exact ⟨fun h => h.2, fun ⟨d, hd, h⟩ => ⟨mem_elementIds_iff.2 ⟨d, hd⟩, d, hd, h⟩⟩

/-! ## Substitution -/

/-- `e` names `head` as the head of its substitution group. -/
def HasHead (m : Schema) (e head : ElementId) : Prop :=
  ∃ d, m.element? e = some d ∧ d.head = some head

/-- Heads lead from `e` to `head` in one step or more, and `e` is another element. -/
def Substitutes (m : Schema) (e head : ElementId) : Prop :=
  e ≠ head ∧ Relation.TransGen m.HasHead e head

theorem mem_members_iff {e head : ElementId} : e ∈ m.members head ↔ m.HasHead e head := by
  simp only [members, List.mem_filter, Option.any_eq_true, beq_iff_eq]
  exact ⟨fun h => h.2, fun ⟨d, hd, h⟩ => ⟨mem_elementIds_iff.2 ⟨d, hd⟩, d, hd, h⟩⟩

/-- The search leaves the head out of its domain, and no chain needs to pass the head twice. -/
theorem mem_substitutes_iff {e head : ElementId} :
    e ∈ m.substitutes head ↔ m.Substitutes e head := by
  have inside {c h : ElementId} (hc : c ≠ head) (hm : m.HasHead c h) :
      c ∈ m.elementIds.erase head := by
    obtain ⟨d, hd, -⟩ := hm
    exact (List.mem_erase_of_ne hc).2 (mem_elementIds_iff.2 ⟨d, hd⟩)
  have outside : head ∉ m.elementIds.erase head := List.Nodup.not_mem_erase m.nodup_elementIds
  rw [substitutes, Closure.mem_collect_iff]
  constructor
  · intro h
    induction h with
    | seed hm hd =>
      exact ⟨fun he => outside (he ▸ hd), .single (mem_members_iff.1 hm)⟩
    | link _ hm hd ih =>
      exact ⟨fun he => outside (he ▸ hd), .head (mem_members_iff.1 hm) ih.2⟩
  · rintro ⟨hne, h⟩
    induction h using Relation.TransGen.head_induction_on with
    | single hm => exact .seed (mem_members_iff.2 hm) (inside hne hm)
    | @head a c hm _ ih =>
      by_cases hc : c = head
      · subst hc
        exact .seed (mem_members_iff.2 hm) (inside hne hm)
      · exact .link (ih hc) (mem_members_iff.2 hm) (inside hne hm)

end Schema

/-! ## Reach -/

/-- The element occurs in the content model, at any depth. -/
inductive Particle.Mentions : Particle → ElementId → Prop where
  | element {o : Occurs} {e : ElementId} : Mentions (.element o e) e
  | nested {o : Occurs} {c : Compositor} {ps : List Particle} {p : Particle} {e : ElementId} :
      p ∈ ps → Mentions p e → Mentions (.group o c ps) e

theorem Particle.mentions_group_iff {o : Occurs} {c : Compositor} {ps : List Particle}
    {e : ElementId} : (group o c ps).Mentions e ↔ ∃ p ∈ ps, p.Mentions e := by
  constructor
  · rintro (_ | ⟨hp, he⟩)
    exact ⟨_, hp, he⟩
  · rintro ⟨p, hp, he⟩
    exact .nested hp he

theorem Particle.mem_elements_group {o : Occurs} {c : Compositor} {ps : List Particle}
    {p : Particle} {e : ElementId} (hp : p ∈ ps) (he : e ∈ p.elements) :
    e ∈ (group o c ps).elements := by
  rw [elements, elementsOf_eq_flatMap]
  exact List.mem_flatMap.2 ⟨p, hp, he⟩

theorem Particle.mem_elements_iff {e : ElementId} : ∀ p : Particle,
    e ∈ p.elements ↔ p.Mentions e
  | .element o i => by
    rw [elements, List.mem_singleton]
    constructor
    · rintro rfl
      exact .element
    · rintro ⟨⟩
      rfl
  | .wildcard o w => by
    rw [elements]
    exact ⟨fun h => (List.not_mem_nil h).elim, fun h => nomatch h⟩
  | .group o c ps => by
    rw [elements, elementsOf_eq_flatMap, List.mem_flatMap, mentions_group_iff]
    exact exists_congr fun p => and_congr_right fun hp => mem_elements_iff p

namespace Schema

variable {m : Schema}

/-- The type is complex, and the element occurs in its content model. -/
def Holds (m : Schema) (t : TypeId) (e : ElementId) : Prop :=
  ∃ c p, m.complexType? t = some c ∧ c.particle = some p ∧ p.Mentions e

/-- The type is a complex one of the model. -/
def IsComplex (m : Schema) (t : TypeId) : Prop := ∃ c, m.complexType? t = some c

/-- The least set of complex types that holds those of the global elements and, with a type,
those of all elements in its content model. -/
inductive Reachable (m : Schema) : TypeId → Prop where
  | global {e : ElementId} {d : ElementDeclaration} :
      m.Global e → m.element? e = some d → m.IsComplex d.type → Reachable m d.type
  | nested {t : TypeId} {e : ElementId} {d : ElementDeclaration} :
      Reachable m t → m.Holds t e → m.element? e = some d → m.IsComplex d.type →
      Reachable m d.type

theorem mem_typesOf_iff {es : List ElementId} {t : TypeId} :
    t ∈ m.typesOf es ↔ ∃ e ∈ es, ∃ d, m.element? e = some d ∧ d.type = t := by
  simp only [typesOf, List.mem_filterMap, Option.map_eq_some_iff]

/-- The elements in the content model of a type, none if the type is not complex. -/
abbrev contentElements (m : Schema) (t : TypeId) : List ElementId :=
  ((m.complexType? t).map ComplexType.elements).getD []

theorem mem_contentElements_iff {t : TypeId} {e : ElementId} :
    e ∈ m.contentElements t ↔ m.Holds t e := by
  unfold Holds contentElements
  cases m.complexType? t with
  | none => simp
  | some c =>
    unfold ComplexType.elements
    cases hp : c.particle with
    | none => simp [hp]
    | some p => simp [hp, Particle.mem_elements_iff]

theorem isComplex_of_mem_filter {t : TypeId} :
    t ∈ m.typeIds.filter (fun t => (m.complexType? t).isSome) ↔ m.IsComplex t := by
  rw [List.mem_filter, Option.isSome_iff_exists]
  refine ⟨fun h => h.2, fun h => ⟨?_, h⟩⟩
  obtain ⟨c, hc⟩ := h
  obtain ⟨d, hd, -⟩ := Option.bind_eq_some_iff.1 hc
  exact mem_typeIds_iff.2 ⟨d, hd⟩

theorem mem_reachableTypes_iff {t : TypeId} : t ∈ m.reachableTypes ↔ m.Reachable t := by
  rw [reachableTypes, Closure.mem_collect_iff]
  constructor
  · intro h
    induction h with
    | seed hs hc =>
      obtain ⟨e, he, d, hd, rfl⟩ := mem_typesOf_iff.1 hs
      exact .global (mem_globals_iff.1 he) hd (isComplex_of_mem_filter.1 hc)
    | link _ hn hc ih =>
      obtain ⟨e, he, d, hd, rfl⟩ := mem_typesOf_iff.1 hn
      exact .nested ih (mem_contentElements_iff.1 he) hd (isComplex_of_mem_filter.1 hc)
  · intro h
    induction h with
    | global he hd hc =>
      exact .seed (mem_typesOf_iff.2 ⟨_, mem_globals_iff.2 he, _, hd, rfl⟩)
        (isComplex_of_mem_filter.2 hc)
    | nested _ he hd hc ih =>
      exact .link ih (mem_typesOf_iff.2 ⟨_, mem_contentElements_iff.2 he, _, hd, rfl⟩)
        (isComplex_of_mem_filter.2 hc)

/-- The element is local, occurs in the content model of `t`, and counts as `target`. -/
def LocalIn (m : Schema) (t target : TypeId) (e : ElementId) : Prop :=
  m.Holds t e ∧ (∃ d, m.element? e = some d ∧ d.scope ≠ .global) ∧ m.TypedBy target e

theorem mem_localElementsOfType_iff {target : TypeId} {accept : TypeId → Bool} {e : ElementId} :
    e ∈ m.localElementsOfType target accept ↔
      ∃ t, m.Reachable t ∧ accept t = true ∧ m.LocalIn t target e := by
  simp only [localElementsOfType, List.mem_eraseDups, List.mem_filter, List.mem_flatMap,
    mem_reachableTypes_iff, mem_contentElements_iff, Bool.and_eq_true, Option.any_eq_true,
    bne_iff_ne, elementIsOfType_iff, LocalIn]
  constructor
  · rintro ⟨⟨t, ⟨ht, ha⟩, he⟩, hs, hd⟩
    exact ⟨t, ht, ha, he, hs, hd⟩
  · rintro ⟨t, ht, ha, he, hs, hd⟩
    exact ⟨⟨t, ⟨ht, ha⟩, he⟩, hs, hd⟩

/-! ## Kinds of types -/

/-- `t` derives from the type of that name in the namespace of GML. -/
def DerivesFromGml (m : Schema) (name : String) (t : TypeId) : Prop :=
  ∃ base, m.globalType? (.gml name) = some base ∧ m.Derives none t base

theorem derivesFromGml_iff {name : String} {t : TypeId} :
    m.derivesFromGml name t = true ↔ m.DerivesFromGml name t := by
  simp [derivesFromGml, DerivesFromGml, Option.any_eq_true, derivesFrom_iff]

/-- A reachable type that derives from the abstract feature and is no type of GML itself. -/
structure Feature (m : Schema) (t : TypeId) : Prop where
  reachable : m.Reachable t
  foreign : ∀ n, m.typeName? t = some n → n.space ≠ some gmlNamespace
  derived : m.DerivesFromGml "AbstractFeatureType" t

theorem mem_featureTypes_iff {t : TypeId} : t ∈ m.featureTypes ↔ m.Feature t := by
  have foreign : (! (m.typeName? t).any (·.inNamespace gmlNamespace)) = true ↔
      ∀ n, m.typeName? t = some n → n.space ≠ some gmlNamespace := by
    cases m.typeName? t <;> simp [QName.inNamespace]
  rw [featureTypes, List.mem_filter, mem_reachableTypes_iff, isFeatureType, Bool.and_eq_true,
    foreign, derivesFromGml_iff]
  exact ⟨fun ⟨h, hf, hd⟩ => ⟨h, hf, hd⟩, fun h => ⟨h.reachable, h.foreign, h.derived⟩⟩

theorem featureTypes_isEmpty_iff : m.featureTypes.isEmpty = true ↔ ¬ ∃ t, m.Feature t := by
  rw [List.isEmpty_iff, List.eq_nil_iff_forall_not_mem]
  simp only [mem_featureTypes_iff, not_exists]

end Schema

end GmlCheck
