import Mathlib.Data.List.Forall2
import GmlCheck.Proofs.Xml.Paths

/-!
# Altering one geometry

`Altered` documents differ in one geometry element, which may hold anything in either of
them. A path that does not end in that element leads to the same in both: to one node, or to
a node that is altered in its turn. It leads there under the same references to systems, unless
the element is an envelope that bounds something on the way (`BoundsAbove`).
-/

namespace GmlCheck

open Xml
open GmlCheck.Geometry (Kind)

/-! ## Members of lists -/

section Lists

variable {α β : Type} {R : α → α → Prop}

theorem forall₂_set {l : List α} {k : Nat} {c c' : α} (hk : l[k]? = some c) (hself : ∀ a, R a a)
    (hc : R c c') : List.Forall₂ R l (l.set k c') := by
  induction l generalizing k with
  | nil => exact .nil
  | cons a l ih =>
    cases k with
    | zero =>
      cases hk
      exact .cons hc (List.forall₂_same.2 fun a _ => hself a)
    | succ k => exact .cons (hself a) (ih hk)

/-- Looking for a property that related members share finds related members. -/
theorem find?_cases_of_forall₂ {l l' : List α} {f : α → Bool} (h : List.Forall₂ R l l')
    (hf : ∀ a a', R a a' → f a' = f a) :
    (l.find? f = none ∧ l'.find? f = none) ∨
      ∃ c c', l.find? f = some c ∧ l'.find? f = some c' ∧ R c c' := by
  induction h with
  | nil => exact .inl ⟨rfl, rfl⟩
  | @cons a a' _ _ ha _ ih =>
    rw [List.find?_cons, List.find?_cons, hf a a' ha]
    cases f a with
    | true => exact .inr ⟨a, a', rfl, rfl, ha⟩
    | false => exact ih

theorem forall₂_filter {l l' : List α} {f : α → Bool} (h : List.Forall₂ R l l')
    (hf : ∀ a a', R a a' → f a' = f a) :
    List.Forall₂ (fun a a' => R a a' ∧ f a = true) (l.filter f) (l'.filter f) := by
  induction h with
  | nil => exact .nil
  | @cons a a' _ _ ha _ ih =>
    rw [List.filter_cons, List.filter_cons, hf a a' ha]
    split
    · next hfa => exact .cons ⟨ha, hfa⟩ ih
    · exact ih

theorem findSome?_eq_of_forall₂ {f : α → Option β} {l l' : List α}
    (h : List.Forall₂ (fun a a' => f a' = f a) l l') : l'.findSome? f = l.findSome? f := by
  induction h with
  | nil => rfl
  | cons ha _ ih => rw [List.findSome?_cons, List.findSome?_cons, ha, ih]

end Lists

/-! ## Altered nodes -/

theorem Geometry.mem_kinds (kind : Kind) : kind ∈ Kind.all := by
  cases kind <;> decide

namespace Xml.Node

/-- The node with another child in the place of the one with number `k`. -/
def setChild (n : Node) (k : Nat) (c : Node) : Node :=
  match n with
  | document cs => document (cs.set k c)
  | element name as cs => element name as (cs.set k c)
  | n => n

variable {n n' c c' : Node} {k : Nat} {path : List Nat}

@[simp] theorem children_setChild (n : Node) (k : Nat) (c : Node) :
    (n.setChild k c).children = n.children.set k c := by
  cases n <;> rfl

@[simp] theorem attributes_setChild (n : Node) (k : Nat) (c : Node) :
    (n.setChild k c).attributes = n.attributes := by
  cases n <;> rfl

@[simp] theorem name?_setChild (n : Node) (k : Nat) (c : Node) :
    (n.setChild k c).name? = n.name? := by
  cases n <;> rfl

/-- `n'` is `n` up to one geometry element, the one at the end of the path, which keeps its name.
All else in it may be anything. -/
inductive Altered : List Nat → Node → Node → Prop
  | geometry (kind : Kind) (as as' : List Attribute) (cs cs' : List Node) :
      Altered [] (element kind.elementName as cs) (element kind.elementName as' cs')
  | child {n c c' : Node} {k : Nat} {path : List Nat} (at_k : n.children[k]? = some c)
      (below : Altered path c c') : Altered (k :: path) n (n.setChild k c')

/-- What stands in the place of a child of `n` after something in child `k` was altered. -/
def Counterpart (k : Nat) (path : List Nat) (n c c' : Node) : Prop :=
  c' = c ∨ n.children[k]? = some c ∧ Altered path c c'

/-- The way leads to an envelope that bounds the node. -/
def HasBoundAt (n : Node) (way : List Nat) : Prop :=
  ∃ i j b e, way = [i, j] ∧ n.children[i]? = some b ∧ b.hasName (.gml "boundedBy") = true ∧
    b.children[j]? = some e ∧ e.hasName (.gml "Envelope") = true

theorem Altered.name?_eq (h : Altered path n n') : n'.name? = n.name? := by
  cases h with
  | geometry => rfl
  | child => simp

theorem Altered.hasName_eq (h : Altered path n n') (name : QName) :
    n'.hasName name = n.hasName name := by
  simp only [hasName, h.name?_eq]

theorem Altered.attribute?_eq (h : Altered (k :: path) n n') (name : QName) :
    n'.attribute? name = n.attribute? name := by
  cases h with
  | child => simp [attribute?]

theorem Altered.children (h : Altered (k :: path) n n') :
    List.Forall₂ (Counterpart k path n) n.children n'.children := by
  cases h with
  | child hk below =>
    rw [children_setChild]
    exact forall₂_set hk (fun _ => .inl rfl) (.inr ⟨hk, below⟩)

theorem Counterpart.hasName_eq (h : Counterpart k path n c c') (name : QName) :
    c'.hasName name = c.hasName name := by
  rcases h with rfl | ⟨-, h⟩
  · rfl
  · exact h.hasName_eq name

theorem Counterpart.isElement_eq (h : Counterpart k path n c c') : c'.isElement = c.isElement := by
  rcases h with rfl | ⟨-, h⟩
  · rfl
  · simp only [isElement, h.name?_eq]

/-- There is a child by a name in both nodes or in none. -/
theorem Altered.gmlChild?_cases (h : Altered (k :: path) n n') (name : String) :
    (n.gmlChild? name = none ∧ n'.gmlChild? name = none) ∨
      ∃ c c', n.gmlChild? name = some c ∧ n'.gmlChild? name = some c' ∧
        Counterpart k path n c c' :=
  find?_cases_of_forall₂ h.children fun _ _ hc => hc.hasName_eq _

theorem hasName_element_iff {name : QName} {as : List Attribute} {cs : List Node} {m : QName} :
    (element name as cs).hasName m = true ↔ name = m := by
  simp [hasName, name?]

theorem hasName_of_gmlChild? {name : String} (h : n.gmlChild? name = some c) :
    c.hasName (.gml name) = true := by
  simp only [gmlChild?, child?] at h
  exact (List.find?_some h :)

/-- An altered node of another name is no geometry, but holds one. -/
theorem Altered.exists_cons (h : Altered path n n') {name : String}
    (hn : n.hasName (.gml name) = true) (hname : name ∉ Kind.all.map Kind.text) :
    ∃ k rest, path = k :: rest := by
  cases h with
  | geometry kind =>
    have htext : kind.text = name := congrArg QName.name (hasName_element_iff.1 hn)
    exact absurd (List.mem_map.2 ⟨kind, Geometry.mem_kinds kind, htext⟩) hname
  | @child _ _ _ k rest => exact ⟨k, rest, rfl⟩

end Xml.Node

/-! ## References in effect -/

namespace Xml.Place

/-- Both nodes give what stands below them the same references. -/
structure SameReferences (n n' : Node) : Prop where
  own : n'.attribute? srsNameAttribute = n.attribute? srsNameAttribute
  bound : boundReference? n' = boundReference? n

theorem SameReferences.refl (n : Node) : SameReferences n n := ⟨rfl, rfl⟩

/-- What is altered in a node changes the references below it only as an envelope that bounds it. -/
theorem sameReferences_of_altered {k : Nat} {path : List Nat} {n n' : Node}
    (h : Node.Altered (k :: path) n n') (hbound : ¬ n.HasBoundAt (k :: path)) :
    SameReferences n n' where
  own := h.attribute?_eq _
  bound := by
    unfold boundReference?
    rcases h.gmlChild?_cases "boundedBy" with ⟨hb, hb'⟩ | ⟨b, b', hb, hb', rfl | ⟨hk, hbelow⟩⟩
    · rw [hb, hb']
    · rw [hb, hb']
    have hbounds : b.hasName (.gml "boundedBy") = true := Node.hasName_of_gmlChild? hb
    obtain ⟨j, rest, rfl⟩ := hbelow.exists_cons hbounds (by decide)
    rw [hb, hb', Option.bind_some, Option.bind_some]
    rcases hbelow.gmlChild?_cases "Envelope" with ⟨he, he'⟩ | ⟨e, e', he, he', rfl | ⟨hj, hin⟩⟩
    · rw [he, he']
    · rw [he, he']
    · rw [he, he']
      cases rest with
      | nil => exact absurd ⟨k, j, b, e, rfl, hk, hbounds, hj, Node.hasName_of_gmlChild? he⟩ hbound
      | cons => exact hin.attribute?_eq _

/-- Places under the same references, where the second node may be what became of the first. -/
structure Alike (R : Node → Node → Prop) (p p' : Place) : Prop where
  node : R p.node p'.node
  above : List.Forall₂ SameReferences p.above p'.above

variable {R : Node → Node → Prop} {p p' : Place}

theorem Alike.crsReference? (h : Alike R p p')
    (hown : p'.node.attribute? srsNameAttribute = p.node.attribute? srsNameAttribute) :
    p'.crsReference? = p.crsReference? := by
  have hinherited : p'.inherited? srsNameAttribute = p.inherited? srsNameAttribute :=
    findSome?_eq_of_forall₂ (.cons hown (h.above.imp fun _ _ hr => hr.own))
  have hbound : p'.above.findSome? boundReference? = p.above.findSome? boundReference? :=
    findSome?_eq_of_forall₂ (h.above.imp fun _ _ hr => hr.bound)
  rw [Place.crsReference?, hinherited, hbound, Place.crsReference?]

theorem Alike.srsName?_eq (h : Alike R p p')
    (hown : p'.node.attribute? srsNameAttribute = p.node.attribute? srsNameAttribute)
    (kind : Kind) : Geometry.srsName? p' kind = Geometry.srsName? p kind := by
  cases kind with
  | envelope => exact hown
  | point | lineString | curve => exact h.crsReference? hown

/-- Places where one path leads in two documents. If `free` holds, they are under the same
references as well. -/
structure AlikeIf (free : Prop) (R : Node → Node → Prop) (p p' : Place) : Prop where
  node : R p.node p'.node
  above : free → List.Forall₂ SameReferences p.above p'.above

variable {free : Prop}

theorem AlikeIf.alike (h : AlikeIf free R p p') (hfree : free) : Alike R p p' :=
  ⟨h.node, h.above hfree⟩

theorem AlikeIf.rel_mono {S : Node → Node → Prop} {x y : Option Place}
    (h : Option.Rel (AlikeIf free R) x y) (hRS : ∀ n n', R n n' → S n n') :
    Option.Rel (AlikeIf free S) x y := by
  cases h with
  | none => exact .none
  | some h => exact .some ⟨hRS _ _ h.node, h.above⟩

theorem AlikeIf.follow? (h : AlikeIf free (fun n n' => n' = n) p p') (q : List Nat) :
    Option.Rel (AlikeIf free fun n n' => n' = n) (p.follow? q) (p'.follow? q) := by
  induction q generalizing p p' with
  | nil => exact .some h
  | cons k q ih =>
    have hnode : p'.node = p.node := h.node
    simp only [Place.follow?, Place.child?, hnode]
    cases p.node.children[k]? with
    | none => exact .none
    | some c => exact ih ⟨rfl, fun hfree => .cons (.refl _) (h.above hfree)⟩

/-- From the place `p` on, `path` leads to an envelope that bounds something above the end of `q`. -/
def BoundsAbove (p : Place) (path q : List Nat) : Prop :=
  ∃ before rest way r, q = before ++ rest ∧ rest ≠ [] ∧ path = before ++ way ∧
    p.follow? before = some r ∧ r.node.HasBoundAt way

theorem BoundsAbove.start {k j : Nat} {path q : List Nat} (h : p.node.HasBoundAt (k :: path)) :
    p.BoundsAbove (k :: path) (j :: q) :=
  ⟨[], j :: q, k :: path, p, rfl, List.cons_ne_nil _ _, rfl, rfl, h⟩

theorem BoundsAbove.below {k : Nat} {path q : List Nat} {c : Node}
    (hk : p.node.children[k]? = some c) (h : BoundsAbove ⟨c, p.node :: p.above⟩ path q) :
    p.BoundsAbove (k :: path) (k :: q) := by
  obtain ⟨before, rest, way, r, rfl, hrest, rfl, hr, hbound⟩ := h
  exact ⟨k :: before, rest, way, r, rfl, hrest, rfl, follow?_cons_eq_some_iff.2 ⟨c, hk, hr⟩, hbound⟩

end Xml.Place

/-! ## Where paths lead -/

namespace Xml.Node

variable {path : List Nat} {n n' document document' : Node} {q : List Nat}

/-- A path that does not lead into the altered geometry leads to one node, or to a node above the
geometry, which is altered by the rest of the way. -/
def Corresponds (path q : List Nat) (n n' : Node) : Prop :=
  n' = n ∨ ∃ k rest, path = q ++ k :: rest ∧ Altered (k :: rest) n n'

/-- The nodes correspond in any case; `free` is what it takes for the references above them to be the
same. -/
theorem Altered.follow? {free : Prop} (h : Altered path n n') {above above' : List Node}
    (habove : free → List.Forall₂ Place.SameReferences above above') (hin : ¬ path <+: q)
    (hfree : free → ¬ Place.BoundsAbove ⟨n, above⟩ path q) :
    Option.Rel (Place.AlikeIf free (Corresponds path q)) (Place.follow? ⟨n, above⟩ q)
      (Place.follow? ⟨n', above'⟩ q) := by
  induction q generalizing path n n' above above' with
  | nil =>
    cases path with
    | nil => exact absurd List.nil_prefix hin
    | cons k rest => exact .some ⟨.inr ⟨k, rest, rfl, h⟩, habove⟩
  | cons j q ih =>
    cases h with
    | geometry => exact absurd List.nil_prefix hin
    | @child _ c c' k rest hk below =>
      have hshell (hf : free) :
          List.Forall₂ Place.SameReferences (n :: above) (n.setChild k c' :: above') :=
        .cons (Place.sameReferences_of_altered (.child hk below)
          fun hbound => hfree hf (.start hbound)) (habove hf)
      by_cases hj : j = k
      · subst hj
        have hset : (n.children.set j c')[j]? = some c' := by
          rw [List.getElem?_set_self']
          simp [hk]
        have hin' : ¬ rest <+: q := fun h => hin (List.cons_prefix_cons.2 ⟨rfl, h⟩)
        have hfree' (hf : free) : ¬ Place.BoundsAbove ⟨c, n :: above⟩ rest q :=
          fun hbound => hfree hf (.below (p := ⟨n, above⟩) hk hbound)
        simp only [Place.follow?, Place.child?, children_setChild, hk, hset]
        refine Place.AlikeIf.rel_mono (ih below hshell hin' hfree') fun _ _ hr => ?_
        rcases hr with hr | ⟨i, way, hway, hn⟩
        · exact .inl hr
        · exact .inr ⟨i, way, congrArg (j :: ·) hway, hn⟩
      · have hset : (n.children.set k c')[j]? = n.children[j]? :=
          List.getElem?_set_ne (Ne.symm hj)
        simp only [Place.follow?, Place.child?, children_setChild, hset]
        cases n.children[j]? with
        | none => exact .none
        | some d =>
          have hd : Place.AlikeIf free (fun n n' => n' = n) ⟨d, n :: above⟩
              ⟨d, n.setChild k c' :: above'⟩ := ⟨rfl, hshell⟩
          exact Place.AlikeIf.rel_mono (hd.follow? q) fun _ _ => .inl

/-- The path leads to an envelope that bounds something above the end of `q`. -/
def BoundsAbove (document : Node) (path q : List Nat) : Prop :=
  Place.BoundsAbove ⟨document, []⟩ path q

theorem Altered.placeAt? (h : Altered path document document') (hin : ¬ path <+: q) :
    Option.Rel (Place.AlikeIf (¬ document.BoundsAbove path q) (Corresponds path q))
      (document.placeAt? q) (document'.placeAt? q) :=
  h.follow? (fun _ => .nil) hin id

end Xml.Node

end GmlCheck
