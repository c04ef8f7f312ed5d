import Mathlib.Data.List.Induction
import GmlCheck.Proofs.Schema.Built

/-!
# Runs of schema operations

`Schema.run ops` is what the operations make of the empty schema, one after the other. The
identifiers that a run issues are the numbers from zero on, and each leads to the component that was
added under it, with the edits made to it since (`editedType`, `editedElement`); a name leads to the
last component that was added under it (`Last`). As long as edits keep names and scopes
(`KeepsNames`), the names that components have are those under which they were added, and every name
of a global element has one entry among the globals. Whatever edits do, no entry leads out of the schema. Identifiers have
no greatest number, so that a run may be of any length.
-/

namespace GmlCheck.Schema

/-- What changes a schema: two kinds of additions and two kinds of edits in place. -/
inductive Operation where
  | addType (t : TypeDefinition)
  | addElement (e : ElementDeclaration)
  | modifyComplexType (id : TypeId) (f : ComplexType → ComplexType)
  | modifyElement (id : ElementId) (f : ElementDeclaration → ElementDeclaration)

namespace Operation

/-- The type that is added. -/
def type? : Operation → Option TypeDefinition
  | addType t => some t
  | _ => none

/-- The element that is added. -/
def element? : Operation → Option ElementDeclaration
  | addElement e => some e
  | _ => none

/-- The operation adds a component. -/
def Adds (op : Operation) : Prop := op.type?.isSome = true ∨ op.element?.isSome = true

/-- The name under which a type is added. -/
def typeName? (op : Operation) : Option QName := op.type?.bind TypeDefinition.name

/-- The name under which a global element is added. -/
def globalName? (op : Operation) : Option QName := op.element?.bind ElementDeclaration.globalName?

/-- What the operation makes of the type under an identifier. -/
def onType (id : TypeId) : Operation → TypeDefinition → TypeDefinition
  | modifyComplexType u f, .complex t => .complex (if u = id then f t else t)
  | _, t => t

/-- What the operation makes of the element under an identifier. -/
def onElement (id : ElementId) : Operation → ElementDeclaration → ElementDeclaration
  | modifyElement u f, d => if u = id then f d else d
  | _, d => d

end Operation

/-- What the operations make of the type under an identifier, one after the other. -/
def editedType (id : TypeId) (ops : List Operation) (t : TypeDefinition) : TypeDefinition :=
  ops.foldl (fun t op => op.onType id t) t

/-- What the operations make of the element under an identifier, one after the other. -/
def editedElement (id : ElementId) (ops : List Operation) (d : ElementDeclaration) :
    ElementDeclaration :=
  ops.foldl (fun d op => op.onElement id d) d

def perform (m : Schema) : Operation → Schema
  | .addType t => (m.addType t).1
  | .addElement e => (m.addElement e).1
  | .modifyComplexType id f => m.modifyComplexType id f
  | .modifyElement id f => m.modifyElement id f

def run (ops : List Operation) : Schema := ops.foldl perform empty

@[simp] theorem run_nil : run [] = empty := rfl

@[simp] theorem run_append_singleton (ops : List Operation) (op : Operation) :
    run (ops ++ [op]) = (run ops).perform op := by
  simp [run]

/-! ## Identifiers -/

/-- The identifier that the operation issues for a type. -/
def issuedType? (m : Schema) : Operation → Option TypeId
  | .addType t => some (m.addType t).2
  | _ => none

/-- The identifier that the operation issues for an element. -/
def issuedElement? (m : Schema) : Operation → Option ElementId
  | .addElement e => some (m.addElement e).2
  | _ => none

/-- What the operations issue on top of a schema, the first one first. -/
def issued {α : Type} (issue : Schema → Operation → Option α) (m : Schema) :
    List Operation → List α
  | [] => []
  | op :: ops => (issue m op).toList ++ issued issue (m.perform op) ops

theorem issued_append_singleton {α : Type} (issue : Schema → Operation → Option α) (m : Schema)
    (ops : List Operation) (op : Operation) :
    issued issue m (ops ++ [op]) =
      issued issue m ops ++ (issue (ops.foldl perform m) op).toList := by
  induction ops generalizing m with
  | nil => simp [issued]
  | cons o ops ih => simp [issued, ih]

/-- If every operation adds what it issues to the identifiers in use, these are all that the run
issued, in their order. -/
theorem issued_run {α : Type} {issue : Schema → Operation → Option α} {ids : Schema → List α}
    (hempty : ids empty = [])
    (hstep : ∀ m op, ids (m.perform op) = ids m ++ (issue m op).toList) (ops : List Operation) :
    issued issue empty ops = ids (run ops) := by
  induction ops using List.reverseRecOn with
  | nil => exact hempty.symm
  | append_singleton ops op ih =>
    rw [issued_append_singleton, ih, run_append_singleton, hstep]
    rfl

theorem typeIds_perform (m : Schema) (op : Operation) :
    (m.perform op).typeIds = m.typeIds ++ (m.issuedType? op).toList := by
  cases op with
  | addType t => exact typeIds_addType m t
  | modifyComplexType id f =>
    rw [perform, typeIds_modifyComplexType]
    exact (List.append_nil _).symm
  | addElement | modifyElement => exact (List.append_nil _).symm

theorem elementIds_perform (m : Schema) (op : Operation) :
    (m.perform op).elementIds = m.elementIds ++ (m.issuedElement? op).toList := by
  cases op with
  | addElement e => exact elementIds_addElement m e
  | modifyElement id f =>
    rw [perform, elementIds_modifyElement]
    exact (List.append_nil _).symm
  | addType | modifyComplexType => exact (List.append_nil _).symm

/-! ## Components under their identifiers -/

section Components

variable {m : Schema} {op : Operation}

/-- An entry of an array stays in its place when another one is added. -/
theorem getElem?_push_of_eq_some {α : Type} {xs : Array α} {i : Nat} {a b : α}
    (h : xs[i]? = some a) : (xs.push b)[i]? = some a := by
  have hi := (Array.getElem?_eq_some_iff.1 h).1
  rw [Array.getElem?_push, if_neg (by omega), h]

/-- One operation, seen from a type that is there. -/
theorem type?_perform {id : TypeId} {t : TypeDefinition} (h : m.type? id = some t)
    (op : Operation) : (m.perform op).type? id = some (op.onType id t) := by
  cases op with
  | addType u => exact getElem?_push_of_eq_some h
  | addElement | modifyElement => exact h
  | modifyComplexType u f =>
    have hentry : m.types[id.index]? = some t := h
    have hid : u.index = id.index ↔ u = id := ⟨congrArg TypeId.mk, congrArg TypeId.index⟩
    simp only [perform, type?, modifyComplexType, Array.getElem?_modify, hentry, hid]
    split <;> cases t <;> simp [Operation.onType, *]

/-- One operation, seen from an element that is there. -/
theorem element?_perform {id : ElementId} {d : ElementDeclaration} (h : m.element? id = some d)
    (op : Operation) : (m.perform op).element? id = some (op.onElement id d) := by
  cases op with
  | addElement e => exact getElem?_push_of_eq_some h
  | addType | modifyComplexType => exact h
  | modifyElement u f =>
    have hentry : m.elements[id.index]? = some d := h
    have hid : u.index = id.index ↔ u = id := ⟨congrArg ElementId.mk, congrArg ElementId.index⟩
    simp only [perform, element?, modifyElement, Array.getElem?_modify, hentry, hid]
    split <;> simp [Operation.onElement, *]

/-- The identifier that is issued leads to the type that is added. -/
theorem type?_perform_of_issued {t : TypeDefinition} {id : TypeId} (ht : op.type? = some t)
    (hid : m.issuedType? op = some id) : (m.perform op).type? id = some t := by
  cases op with
  | addType u =>
    cases ht
    cases hid
    exact Array.getElem?_push_size
  | addElement | modifyComplexType | modifyElement => cases ht

/-- The identifier that is issued leads to the element that is added. -/
theorem element?_perform_of_issued {d : ElementDeclaration} {id : ElementId}
    (hd : op.element? = some d) (hid : m.issuedElement? op = some id) :
    (m.perform op).element? id = some d := by
  cases op with
  | addElement e =>
    cases hd
    cases hid
    exact Array.getElem?_push_size
  | addType | modifyComplexType | modifyElement => cases hd

theorem type?_foldl_perform {id : TypeId} {t : TypeDefinition} (h : m.type? id = some t)
    (ops : List Operation) : (ops.foldl perform m).type? id = some (editedType id ops t) := by
  induction ops generalizing m t with
  | nil => exact h
  | cons op ops ih => exact ih (type?_perform h op)

theorem element?_foldl_perform {id : ElementId} {d : ElementDeclaration}
    (h : m.element? id = some d) (ops : List Operation) :
    (ops.foldl perform m).element? id = some (editedElement id ops d) := by
  induction ops generalizing m d with
  | nil => exact h
  | cons op ops ih => exact ih (element?_perform h op)

theorem run_append_cons (before : List Operation) (op : Operation) (after : List Operation) :
    run (before ++ op :: after) = after.foldl perform ((run before).perform op) := by
  simp [run]

end Components

/-! ## Names under which components are added -/

/-- The identifier was issued by the last operation of the run that adds under the name. -/
def Last {α : Type} (name : Operation → Option QName) (issue : Schema → Operation → Option α)
    (ops : List Operation) (n : QName) (a : α) : Prop :=
  ∃ before op after, ops = before ++ op :: after ∧ name op = some n ∧
    issue (run before) op = some a ∧ ∀ o ∈ after, name o ≠ some n

section Last

variable {α : Type} {name : Operation → Option QName} {issue : Schema → Operation → Option α}
  {find : Schema → QName → Option α} {n : QName} {a : α}

theorem last_append_singleton {ops : List Operation} {op : Operation} :
    Last name issue (ops ++ [op]) n a ↔
      if name op = some n then issue (run ops) op = some a else Last name issue ops n a := by
  constructor
  · rintro ⟨before, o, after, hops, hname, hissue, hafter⟩
    rcases List.eq_nil_or_concat after with rfl | ⟨after, o', rfl⟩
    · obtain ⟨rfl, ho⟩ := List.append_inj' hops rfl
      cases ho
      rwa [if_pos hname]
    · rw [List.concat_eq_append, ← List.cons_append, ← List.append_assoc] at hops
      obtain ⟨rfl, ho⟩ := List.append_inj' hops rfl
      cases ho
      rw [if_neg (hafter op (by simp))]
      exact ⟨before, o, after, rfl, hname, hissue, fun x hx => hafter x (by simp [hx])⟩
  · split
    · intro hissue
      exact ⟨ops, op, [], rfl, ‹_›, hissue, by simp⟩
    · rintro ⟨before, o, after, rfl, hname, hissue, hafter⟩
      refine ⟨before, o, after ++ [op], by simp, hname, hissue, fun x hx => ?_⟩
      rcases List.mem_append.1 hx with hx | hx
      · exact hafter x hx
      · rw [List.mem_singleton.1 hx]
        assumption

/-- A look-up that every operation turns to what it adds under the name leads to the last
component that was added under it. -/
theorem find_run_eq_some_iff (hempty : find empty n = none)
    (hstep : ∀ m op, find (m.perform op) n = if name op = some n then issue m op else find m n)
    (ops : List Operation) : find (run ops) n = some a ↔ Last name issue ops n a := by
  induction ops using List.reverseRecOn with
  | nil => simp [hempty, Last]
  | append_singleton ops op ih =>
    rw [run_append_singleton, hstep, last_append_singleton]
    split
    · rfl
    · exact ih

theorem find_run_eq_none_iff (hempty : find empty n = none)
    (hstep : ∀ m op, find (m.perform op) n = if name op = some n then issue m op else find m n)
    (hissue : ∀ m op, name op = some n → issue m op ≠ none) (ops : List Operation) :
    find (run ops) n = none ↔ ∀ op ∈ ops, name op ≠ some n := by
  induction ops using List.reverseRecOn with
  | nil => simp [hempty]
  | append_singleton ops op ih =>
    rw [run_append_singleton, hstep, List.forall_mem_append, List.forall_mem_singleton]
    split
    · next hname => simp [hname, hissue _ _ hname]
    · next hname => simp [hname, ih]

end Last

theorem globalType?_perform (n : QName) (m : Schema) (op : Operation) :
    (m.perform op).globalType? n =
      if op.typeName? = some n then m.issuedType? op else m.globalType? n := by
  cases op with
  | addType t => exact congrFun (globalType?_addType m t) n
  | addElement | modifyComplexType | modifyElement => rfl

theorem globalElement?_perform (n : QName) (m : Schema) (op : Operation) :
    (m.perform op).globalElement? n =
      if op.globalName? = some n then m.issuedElement? op else m.globalElement? n := by
  cases op with
  | addElement e => exact congrFun (globalElement?_addElement m e) n
  | addType | modifyComplexType | modifyElement => rfl

theorem issuedType?_ne_none {n : QName} {op : Operation} (m : Schema)
    (h : op.typeName? = some n) : m.issuedType? op ≠ none := by
  cases op with
  | addType t => exact Option.some_ne_none _
  | addElement | modifyComplexType | modifyElement => cases h

theorem issuedElement?_ne_none {n : QName} {op : Operation} (m : Schema)
    (h : op.globalName? = some n) : m.issuedElement? op ≠ none := by
  cases op with
  | addElement e => exact Option.some_ne_none _
  | addType | modifyComplexType | modifyElement => cases h

/-! ## Edits that keep names -/

/-- An edit leaves the name of a type, and the name and the scope of an element, as they are. -/
def Keeps (m : Schema) : Operation → Prop
  | .modifyComplexType id f => ∀ t, m.complexType? id = some t → (f t).name = t.name
  | .modifyElement id f =>
    ∀ d, m.element? id = some d → (f d).name = d.name ∧ (f d).scope = d.scope
  | _ => True

/-- All edits of the run keep names and scopes. -/
def KeepsNames (ops : List Operation) : Prop :=
  ∀ before op after, ops = before ++ op :: after → (run before).Keeps op

theorem KeepsNames.of_append_singleton {ops : List Operation} {op : Operation}
    (h : KeepsNames (ops ++ [op])) : KeepsNames ops ∧ (run ops).Keeps op :=
  ⟨fun before o after hops => h before o (after ++ [op]) (by simp [hops]), h ops op [] rfl⟩

variable {m : Schema}

theorem typeName?_modifyComplexType {id : TypeId} {f : ComplexType → ComplexType}
    (h : ∀ t, m.complexType? id = some t → (f t).name = t.name) (u : TypeId) :
    (m.modifyComplexType id f).typeName? u = m.typeName? u := by
  simp only [typeName?, type?, modifyComplexType, Array.getElem?_modify]
  split
  · next hu =>
    have hid : id = u := congrArg TypeId.mk hu
    subst hid
    cases ht : m.types[id.index]? with
    | none => rfl
    | some t =>
      cases t with
      | simple n d => rfl
      | complex t =>
        have hcomplex : m.complexType? id = some t := by
          simp [complexType?, type?, ht, TypeDefinition.complex?]
        exact h t hcomplex
  · rfl

theorem globalName?_modifyElement {id : ElementId} {f : ElementDeclaration → ElementDeclaration}
    (h : ∀ d, m.element? id = some d → (f d).name = d.name ∧ (f d).scope = d.scope)
    (u : ElementId) :
    ((m.modifyElement id f).element? u).bind ElementDeclaration.globalName? =
      (m.element? u).bind ElementDeclaration.globalName? := by
  simp only [element?, modifyElement, Array.getElem?_modify]
  split
  · next hu =>
    have hid : id = u := congrArg ElementId.mk hu
    subst hid
    cases hd : m.elements[id.index]? with
    | none => rfl
    | some d =>
      obtain ⟨hname, hscope⟩ := h d hd
      simp [ElementDeclaration.globalName?, hname, hscope]
  · rfl

/-- Whatever a run does, it builds its schema under some names. -/
theorem exists_built_run (ops : List Operation) : ∃ r, Built (run ops) r := by
  induction ops using List.reverseRecOn with
  | nil => exact ⟨_, .empty⟩
  | append_singleton ops op ih =>
    obtain ⟨r, hr⟩ := ih
    rw [run_append_singleton]
    cases op with
    | addType t => exact ⟨_, .addType t hr⟩
    | addElement e => exact ⟨_, .addElement e hr⟩
    | modifyComplexType id f => exact ⟨_, .modifyComplexType id f hr⟩
    | modifyElement id f => exact ⟨_, .modifyElement id f hr⟩

/-- Edits that keep names leave the names under which the schema is built those of its
components. -/
theorem KeepsNames.built {ops : List Operation} (h : KeepsNames ops) :
    Built (run ops) (run ops).declared := by
  induction ops using List.reverseRecOn with
  | nil => exact .empty
  | append_singleton ops op ih =>
    obtain ⟨hops, hop⟩ := h.of_append_singleton
    have hbuilt := ih hops
    rw [run_append_singleton]
    cases op with
    | addType t =>
      rw [perform, declared_addType]
      exact .addType t hbuilt
    | addElement e =>
      rw [perform, declared_addElement]
      exact .addElement e hbuilt
    | modifyComplexType id f =>
      have hdeclared : ((run ops).modifyComplexType id f).declared = (run ops).declared := by
        rw [declared, declared, funext (typeName?_modifyComplexType hop)]
        rfl
      rw [perform, hdeclared]
      exact .modifyComplexType id f hbuilt
    | modifyElement id f =>
      have hdeclared : ((run ops).modifyElement id f).declared = (run ops).declared := by
        rw [declared, declared, funext (globalName?_modifyElement hop)]
        rfl
      rw [perform, hdeclared]
      exact .modifyElement id f hbuilt

/-! ## All that holds after a run -/

/-- An addition edits nothing. -/
theorem perform_of_adds {op : Operation} (h : op.Adds) :
    (∀ id t, m.type? id = some t → (m.perform op).type? id = some t) ∧
      ∀ id d, m.element? id = some d → (m.perform op).element? id = some d := by
  cases op with
  | addType t => exact ⟨fun id u hu => type?_perform hu _, fun id d hd => element?_perform hd _⟩
  | addElement e => exact ⟨fun id u hu => type?_perform hu _, fun id d hd => element?_perform hd _⟩
  | modifyComplexType | modifyElement => rcases h with h | h <;> cases h

/-- What holds after a run, whatever its edits do. -/
structure Grown (ops : List Operation) : Prop where
  /-- Types are numbered in the order in which they are added, and no number is given twice. -/
  types_issued : issued issuedType? empty ops = (List.range (run ops).types.size).map TypeId.mk
  elements_issued :
    issued issuedElement? empty ops = (List.range (run ops).elements.size).map ElementId.mk
  /-- One addition more leaves all components as they are, under their identifiers. -/
  stays : ∀ op, op.Adds →
    (∀ id t, (run ops).type? id = some t → ((run ops).perform op).type? id = some t) ∧
      ∀ id d, (run ops).element? id = some d → ((run ops).perform op).element? id = some d
  /-- The identifier that was issued for a type leads to this type, with the edits made to it since;
  right after the addition, to the type as it was added. -/
  type_kept : ∀ before op after t id, ops = before ++ op :: after → op.type? = some t →
    (run before).issuedType? op = some id → (run ops).type? id = some (editedType id after t)
  /-- The identifier that was issued for an element leads to this element, with the edits made to it
  since. -/
  element_kept : ∀ before op after d id, ops = before ++ op :: after → op.element? = some d →
    (run before).issuedElement? op = some id →
      (run ops).element? id = some (editedElement id after d)
  /-- A name leads to the last type that was added under it. -/
  type_found : ∀ n id, (run ops).globalType? n = some id ↔
    Last Operation.typeName? issuedType? ops n id
  type_missing : ∀ n, (run ops).globalType? n = none ↔ ∀ op ∈ ops, op.typeName? ≠ some n
  /-- A name leads to the last global element that was added under it. -/
  element_found : ∀ n id, (run ops).globalElement? n = some id ↔
    Last Operation.globalName? issuedElement? ops n id
  element_missing : ∀ n, (run ops).globalElement? n = none ↔ ∀ op ∈ ops, op.globalName? ≠ some n
  /-- No name leads out of the schema. -/
  type_inRange : ∀ n id, (run ops).globalType? n = some id → id.index < (run ops).types.size
  element_inRange : ∀ id ∈ (run ops).globals, id.index < (run ops).elements.size

/-- Names lead to components that have them. -/
structure Named (m : Schema) : Prop where
  type_name : ∀ n id, m.globalType? n = some id → m.typeName? id = some n
  element_name : ∀ n id, m.globalElement? n = some id →
    ∃ d, m.element? id = some d ∧ d.scope = .global ∧ d.name = n
  /-- The globals are elements of the schema, and none of them is local. -/
  globals_global : ∀ id ∈ m.globals, ∃ d, m.element? id = some d ∧ d.scope = .global
  /-- No two of the globals have one name. -/
  globals_nodup : (m.globals.map m.elementName).Nodup
  /-- Every name of a global element is the name of one of the globals, and there are no others. -/
  globals_names : ∀ n, n ∈ m.globals.map m.elementName ↔
    ∃ id d, m.element? id = some d ∧ d.scope = .global ∧ d.name = n

theorem index_lt_of_mem_typeIds {id : TypeId} (h : id ∈ m.typeIds) : id.index < m.types.size := by
  obtain ⟨i, hi, rfl⟩ := List.mem_map.1 h
  exact List.mem_range.1 hi

theorem index_lt_of_mem_elementIds {id : ElementId} (h : id ∈ m.elementIds) :
    id.index < m.elements.size := by
  obtain ⟨i, hi, rfl⟩ := List.mem_map.1 h
  exact List.mem_range.1 hi

theorem grown_run (ops : List Operation) : Grown ops := by
  obtain ⟨r, hbuilt⟩ := exists_built_run ops
  constructor
  case types_issued => exact issued_run rfl typeIds_perform ops
  case elements_issued => exact issued_run rfl elementIds_perform ops
  case stays => exact fun op => perform_of_adds
  case type_kept =>
    rintro before op after t id rfl ht hid
    rw [run_append_cons]
    exact type?_foldl_perform (type?_perform_of_issued ht hid) after
  case element_kept =>
    rintro before op after d id rfl hd hid
    rw [run_append_cons]
    exact element?_foldl_perform (element?_perform_of_issued hd hid) after
  case type_found => exact fun n id => find_run_eq_some_iff rfl (globalType?_perform n) ops
  case type_missing =>
    exact fun n => find_run_eq_none_iff rfl (globalType?_perform n)
      (fun m _ => issuedType?_ne_none m) ops
  case element_found => exact fun n id => find_run_eq_some_iff rfl (globalElement?_perform n) ops
  case element_missing =>
    exact fun n => find_run_eq_none_iff rfl (globalElement?_perform n)
      (fun m _ => issuedElement?_ne_none m) ops
  case type_inRange =>
    intro n id h
    have htypes := hbuilt.indexed.types
    exact index_lt_of_mem_typeIds (htypes.mem_of_name (htypes.name_of_find h))
  case element_inRange =>
    intro id h
    obtain ⟨n, hn⟩ := Table.mem_values_iff.1 h
    have helements := hbuilt.indexed.elements
    exact index_lt_of_mem_elementIds (helements.mem_of_name (helements.name_of_find hn))

theorem Built.named (h : Built m m.declared) : Named m := by
  have element_name (n : QName) (id : ElementId) (hn : m.globalElement? n = some id) :
      ∃ d, m.element? id = some d ∧ d.scope = .global ∧ d.name = n := by
    obtain ⟨d, hd, hglobal⟩ := Option.bind_eq_some_iff.1 (h.indexed.elements.name_of_find hn)
    refine ⟨d, hd, ?_⟩
    unfold ElementDeclaration.globalName? at hglobal
    cases hscope : d.scope with
    | global =>
      rw [hscope] at hglobal
      exact ⟨rfl, Option.some.inj hglobal⟩
    | within c =>
      rw [hscope] at hglobal
      cases hglobal
  have elementName_of_find {n : QName} {id : ElementId} (hn : m.globalElement? n = some id) :
      m.elementName id = n := by
    obtain ⟨d, hd, -, rfl⟩ := element_name n id hn
    rw [elementName, hd, Option.map_some, Option.getD_some]
  refine ⟨fun n id hn => h.indexed.types.name_of_find hn, element_name, ?_, ?_, ?_⟩
  · intro id hid
    obtain ⟨n, hn⟩ := Table.mem_values_iff.1 hid
    obtain ⟨d, hd, hscope, -⟩ := element_name n id hn
    exact ⟨d, hd, hscope⟩
  · refine h.indexed.nodup_globals.map_on fun a ha b hb hab => ?_
    obtain ⟨n, hn⟩ := Table.mem_values_iff.1 ha
    obtain ⟨k, hk⟩ := Table.mem_values_iff.1 hb
    rw [elementName_of_find hn, elementName_of_find hk] at hab
    subst hab
    exact Option.some.inj (hn.symm.trans hk)
  · intro n
    rw [List.mem_map]
    constructor
    · rintro ⟨id, hid, rfl⟩
      obtain ⟨n, hn⟩ := Table.mem_values_iff.1 hid
      rw [elementName_of_find hn]
      exact ⟨id, element_name n id hn⟩
    · rintro ⟨id, d, hd, hscope, rfl⟩
      have hglobal : (m.element? id).bind ElementDeclaration.globalName? = some d.name := by
        simp [hd, ElementDeclaration.globalName?, hscope]
      obtain ⟨b, hb⟩ := h.indexed.elements.find_of_name hglobal
      exact ⟨b, Table.mem_values_iff.2 ⟨_, hb⟩, elementName_of_find hb⟩

/-- Every run keeps numbers and tables in order, and with edits that keep names the tables lead to
components by the names that these have. -/
theorem run_consistent (ops : List Operation) :
    Grown ops ∧ (KeepsNames ops → Named (run ops)) :=
  ⟨grown_run ops, fun h => h.built.named⟩

/-- Two elements are added under one name, the first of them is edited, and a type is added again
under its name. -/
def renewal : List Operation :=
  [.addType (.simple (some (.bare "t")) none),
    .addElement ⟨.bare "e", ⟨0⟩, .global, false, none⟩,
    .addElement ⟨.bare "e", ⟨0⟩, .within ⟨0⟩, false, none⟩,
    .modifyElement ⟨0⟩ fun d => { d with isAbstract := true },
    .addType (.simple (some (.bare "t")) none),
    .addElement ⟨.bare "e", ⟨1⟩, .global, false, some ⟨0⟩⟩]

theorem keepsNames_renewal : KeepsNames renewal := by
  have hall : ∀ op ∈ renewal, ∀ m : Schema, m.Keeps op := by
    simp [renewal, Keeps]
  intro before op after h
  exact hall op (by simp [h]) _

theorem run_consistent_renewal :
    KeepsNames renewal ∧ ((run renewal).globals.map (run renewal).elementName).Nodup ∧
      (run renewal).globals = [⟨2⟩] ∧
      (∃ d, (run renewal).element? ⟨2⟩ = some d ∧ d.scope = .global ∧ d.name = .bare "e") ∧
      (run renewal).element? ⟨0⟩ = some ⟨.bare "e", ⟨0⟩, .global, true, none⟩ := by
  obtain ⟨grown, named⟩ := run_consistent renewal
  have hnamed := named keepsNames_renewal
  have hedited := grown.element_kept [_] _ _ ⟨.bare "e", ⟨0⟩, .global, false, none⟩ ⟨0⟩ rfl rfl rfl
  exact ⟨keepsNames_renewal, hnamed.globals_nodup, rfl, hnamed.element_name (.bare "e") ⟨2⟩ rfl,
    hedited⟩

end GmlCheck.Schema
