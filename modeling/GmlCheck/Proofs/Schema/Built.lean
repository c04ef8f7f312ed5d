import Mathlib.Data.List.Nodup
import GmlCheck.Schema.Model

/-!
# Schemas that operations build

`Schema.Built m r` holds of the schemas that come from the empty one by adding
components and by edits of components, with `r` the names under which components
were added. Edits may change a name; the tables of names do not follow them. In
all such schemas the tables lead to components that were added under the name, and
every name under which some component was added leads somewhere (`Built.indexed`).
-/

namespace GmlCheck

/-- The name by which a global element is found. -/
def ElementDeclaration.globalName? (e : ElementDeclaration) : Option QName :=
  match e.scope with
  | .global => some e.name
  | .within _ => none

/-- The names under which the components of a schema were added. -/
structure Roll where
  type : TypeId → Option QName
  element : ElementId → Option QName

namespace Roll

def empty : Roll := ⟨fun _ => none, fun _ => none⟩

def addType (r : Roll) (id : TypeId) (n : Option QName) : Roll :=
  { r with type := fun t => if t = id then n else r.type t }

def addElement (r : Roll) (id : ElementId) (n : Option QName) : Roll :=
  { r with element := fun e => if e = id then n else r.element e }

end Roll

namespace Schema

variable {m : Schema} {r : Roll}

/-! ## Runs -/

/-- The schema comes from the empty one by adding components under the names in the roll, and by
edits in place. -/
inductive Built : Schema → Roll → Prop where
  | empty : Built .empty .empty
  | addType {m : Schema} {r : Roll} (t : TypeDefinition) : Built m r →
      Built (m.addType t).1 (r.addType (m.addType t).2 t.name)
  | addElement {m : Schema} {r : Roll} (e : ElementDeclaration) : Built m r →
      Built (m.addElement e).1 (r.addElement (m.addElement e).2 e.globalName?)
  | modifyComplexType {m : Schema} {r : Roll} (id : TypeId) (f : ComplexType → ComplexType) :
      Built m r → Built (m.modifyComplexType id f) r
  | modifyElement {m : Schema} {r : Roll} (id : ElementId)
      (f : ElementDeclaration → ElementDeclaration) : Built m r → Built (m.modifyElement id f) r

/-! ## What the operations change -/

theorem typeIds_addType (m : Schema) (t : TypeDefinition) :
    (m.addType t).1.typeIds = m.typeIds ++ [(m.addType t).2] := by
  simp [typeIds, addType, List.range_succ]

theorem elementIds_addElement (m : Schema) (e : ElementDeclaration) :
    (m.addElement e).1.elementIds = m.elementIds ++ [(m.addElement e).2] := by
  simp [elementIds, addElement, List.range_succ]

theorem addType_not_mem_typeIds (m : Schema) (t : TypeDefinition) :
    (m.addType t).2 ∉ m.typeIds := by
  simp [typeIds, addType]

theorem addElement_not_mem_elementIds (m : Schema) (e : ElementDeclaration) :
    (m.addElement e).2 ∉ m.elementIds := by
  simp [elementIds, addElement]

theorem typeIds_modifyComplexType (m : Schema) (id : TypeId) (f : ComplexType → ComplexType) :
    (m.modifyComplexType id f).typeIds = m.typeIds := by
  simp [typeIds, modifyComplexType]

theorem elementIds_modifyElement (m : Schema) (id : ElementId)
    (f : ElementDeclaration → ElementDeclaration) :
    (m.modifyElement id f).elementIds = m.elementIds := by
  simp [elementIds, modifyElement]

theorem globalType?_addType (m : Schema) (t : TypeDefinition) :
    (m.addType t).1.globalType? =
      fun n => if t.name = some n then some (m.addType t).2 else m.globalType? n := by
  funext n
  unfold addType globalType?
  cases t.name with
  | none => simp
  | some k => simp [Table.get?_put, eq_comm]

theorem globalElement?_addElement (m : Schema) (e : ElementDeclaration) :
    (m.addElement e).1.globalElement? =
      fun n => if e.globalName? = some n then some (m.addElement e).2 else m.globalElement? n := by
  funext n
  unfold addElement globalElement? ElementDeclaration.globalName?
  cases e.scope with
  | global => simp [Table.get?_put, eq_comm]
  | within c => simp

/-! ## Names -/

/-- `find` leads from names to members of `ids` with that name, and from every name that a member
has to some member. -/
structure NameIndex {α : Type} (ids : List α) (name : α → Option QName)
    (find : QName → Option α) : Prop where
  mem_of_name : ∀ {n a}, name a = some n → a ∈ ids
  name_of_find : ∀ {n a}, find n = some a → name a = some n
  find_of_name : ∀ {n a}, name a = some n → ∃ b, find n = some b

/-- A new member takes over its name, if it has one. -/
theorem NameIndex.add {α : Type} [DecidableEq α] {ids : List α} {name : α → Option QName}
    {find : QName → Option α} (h : NameIndex ids name find) {a : α} (ha : a ∉ ids)
    (k : Option QName) :
    NameIndex (ids ++ [a]) (fun b => if b = a then k else name b)
      (fun n => if k = some n then some a else find n) where
  mem_of_name {n b} hn := by
    by_cases hb : b = a
    · simp [hb]
    · rw [if_neg hb] at hn
      exact List.mem_append_left _ (h.mem_of_name hn)
  name_of_find {n b} hn := by
    split at hn
    · next hk =>
      cases hn
      rw [if_pos rfl, hk]
    · have hb := h.name_of_find hn
      have hba : b ≠ a := fun e => ha (e ▸ h.mem_of_name hb)
      rw [if_neg hba, hb]
  find_of_name {n b} hn := by
    by_cases hk : k = some n
    · exact ⟨a, if_pos hk⟩
    · rw [if_neg hk]
      split at hn
      · exact absurd hn hk
      · exact h.find_of_name hn

/-- The tables of a schema lead to components that were added under the name. -/
structure Indexed (m : Schema) (r : Roll) : Prop where
  types : NameIndex m.typeIds r.type m.globalType?
  elements : NameIndex m.elementIds r.element m.globalElement?

theorem indexed_empty : Indexed .empty .empty where
  types := ⟨nofun, nofun, nofun⟩
  elements := ⟨nofun, nofun, nofun⟩

theorem Indexed.addType (h : Indexed m r) (t : TypeDefinition) :
    Indexed (m.addType t).1 (r.addType (m.addType t).2 t.name) where
  types := by
    rw [typeIds_addType, globalType?_addType]
    exact h.types.add (m.addType_not_mem_typeIds t) t.name
  elements := h.elements

theorem Indexed.addElement (h : Indexed m r) (e : ElementDeclaration) :
    Indexed (m.addElement e).1 (r.addElement (m.addElement e).2 e.globalName?) where
  types := h.types
  elements := by
    rw [elementIds_addElement, globalElement?_addElement]
    exact h.elements.add (m.addElement_not_mem_elementIds e) e.globalName?

theorem Indexed.modifyComplexType (h : Indexed m r) (id : TypeId)
    (f : ComplexType → ComplexType) : Indexed (m.modifyComplexType id f) r where
  types := by
    rw [typeIds_modifyComplexType]
    exact h.types
  elements := h.elements

theorem Indexed.modifyElement (h : Indexed m r) (id : ElementId)
    (f : ElementDeclaration → ElementDeclaration) : Indexed (m.modifyElement id f) r where
  types := h.types
  elements := by
    rw [elementIds_modifyElement]
    exact h.elements

theorem Built.indexed (h : Built m r) : Indexed m r := by
  induction h with
  | empty => exact indexed_empty
  | addType t _ ih => exact ih.addType t
  | addElement e _ ih => exact ih.addElement e
  | modifyComplexType id f _ ih => exact ih.modifyComplexType id f
  | modifyElement id f _ ih => exact ih.modifyElement id f

/-- No element is led to by two names. -/
theorem Indexed.nodup_globals (h : Indexed m r) : m.globals.Nodup := by
  have hentries : m.globalElements.entries.Nodup := .of_map _ m.globalElements.nodup
  refine hentries.map_on fun ⟨n, a⟩ ha ⟨k, b⟩ hb hab => ?_
  obtain rfl : a = b := hab
  have hn := h.elements.name_of_find (Table.get?_eq_some_iff.2 ha)
  have hk := h.elements.name_of_find (Table.get?_eq_some_iff.2 hb)
  rw [hn] at hk
  rw [Option.some.inj hk]

/-! ## Schemas without edits -/

/-- The names that the components of a schema have now. -/
def declared (m : Schema) : Roll :=
  ⟨m.typeName?, fun e => (m.element? e).bind ElementDeclaration.globalName?⟩

theorem declared_addType (m : Schema) (t : TypeDefinition) :
    (m.addType t).1.declared = m.declared.addType (m.addType t).2 t.name := by
  have htype (u : TypeId) : (m.addType t).1.typeName? u =
      if u = (m.addType t).2 then t.name else m.typeName? u := by
    obtain ⟨i⟩ := u
    simp only [typeName?, type?, addType, Array.getElem?_push, TypeId.mk.injEq]
    split <;> rfl
  simp only [declared, Roll.addType, Roll.mk.injEq]
  exact ⟨funext htype, rfl⟩

theorem declared_addElement (m : Schema) (e : ElementDeclaration) :
    (m.addElement e).1.declared = m.declared.addElement (m.addElement e).2 e.globalName? := by
  have helement (u : ElementId) :
      ((m.addElement e).1.element? u).bind ElementDeclaration.globalName? =
        if u = (m.addElement e).2 then e.globalName?
        else (m.element? u).bind ElementDeclaration.globalName? := by
    obtain ⟨i⟩ := u
    simp only [element?, addElement, Array.getElem?_push, ElementId.mk.injEq]
    split <;> rfl
  simp only [declared, Roll.addElement, Roll.mk.injEq]
  exact ⟨rfl, funext helement⟩

/-- The schema of these types and elements, in their order. -/
def ofLists (types : List TypeDefinition) (elements : List ElementDeclaration) : Schema :=
  elements.foldl (fun m e => (m.addElement e).1)
    (types.foldl (fun m t => (m.addType t).1) empty)

/-- Without edits the roll has the names that the components have now. -/
theorem built_ofLists (types : List TypeDefinition) (elements : List ElementDeclaration) :
    Built (ofLists types elements) (ofLists types elements).declared := by
  have htypes : ∀ (ts : List TypeDefinition) {m : Schema}, Built m m.declared →
      let m' := ts.foldl (fun m t => (m.addType t).1) m
      Built m' m'.declared := by
    intro ts
    induction ts with
    | nil => exact id
    | cons t ts ih =>
      refine fun h => ih ?_
      rw [declared_addType]
      exact .addType t h
  have helements : ∀ (es : List ElementDeclaration) {m : Schema}, Built m m.declared →
      let m' := es.foldl (fun m e => (m.addElement e).1) m
      Built m' m'.declared := by
    intro es
    induction es with
    | nil => exact id
    | cons e es ih =>
      refine fun h => ih ?_
      rw [declared_addElement]
      exact .addElement e h
  exact helements elements (htypes types .empty)

end Schema

end GmlCheck
