import Mathlib.Data.List.Find
import Mathlib.Logic.Relation
import GmlCheck.Proofs.Geometry.Locality

/-!
# Remarks in geometries

Comments and processing instructions are remarks. `Noted` puts a remark in among the children of
an element, or into the middle of one of its texts; `ChangedAt` applies a change to the node at
the end of a path. A geometry reads the same with remarks in it as without them as long as every
element that holds ordinates still begins with its text: of these only the text in front of the
first remark is read (`read_of_notedAside`), so that a remark in the middle of ordinates takes
away those behind it.
-/

namespace GmlCheck

open Xml
open GmlCheck.Geometry

/-! ## Remarks and where they are put -/

namespace Xml.Node

/-- A comment or a processing instruction. -/
inductive IsRemark : Node → Prop
  | comment (content : String) : IsRemark (.comment content)
  | instruction (target content : String) : IsRemark (.instruction target content)

/-- One remark more in an element: between two of its children, in front of the first one or
behind the last one, or within a text, which it divides. -/
inductive Noted : Node → Node → Prop
  | between (name : QName) (as : List Attribute) (before after : List Node) {r : Node} :
      IsRemark r → Noted (element name as (before ++ after)) (element name as (before ++ r :: after))
  | within (name : QName) (as : List Attribute) (before after : List Node) (s t : String)
      {r : Node} : IsRemark r →
      Noted (element name as (before ++ text (s ++ t) :: after))
        (element name as (before ++ text s :: r :: text t :: after))

/-- The names of the elements that hold ordinates. -/
def ordinateNames : List String := ["pos", "posList", "lowerCorner", "upperCorner"]

/-- The node holds ordinates. -/
def HoldsOrdinates (n : Node) : Prop := ∃ name ∈ ordinateNames, n.name? = some (.gml name)

instance (n : Node) : Decidable n.HoldsOrdinates :=
  inferInstanceAs (Decidable (∃ name ∈ ordinateNames, n.name? = some (.gml name)))

/-- A remark more that leaves the text in front of ordinates where it is. -/
def NotedAside (n n' : Node) : Prop :=
  Noted n n' ∧ (n.HoldsOrdinates → n'.leadingText = n.leadingText)

/-- The node at the end of the path is changed, and nothing else. -/
inductive ChangedAt (R : Node → Node → Prop) : List Nat → Node → Node → Prop
  | here {n n' : Node} : R n n' → ChangedAt R [] n n'
  | child {n c c' : Node} {k : Nat} {path : List Nat} (at_k : n.children[k]? = some c)
      (below : ChangedAt R path c c') : ChangedAt R (k :: path) n (n.setChild k c')

/-- Any number of changes one after the other, each at the node itself or anywhere in it. -/
def ChangedWithin (R : Node → Node → Prop) : Node → Node → Prop :=
  Relation.ReflTransGen fun n n' => ∃ path, ChangedAt R path n n'

/-! ## The same data -/

def elements (n : Node) : List Node := n.children.filter isElement

/-- What a text says; other nodes are no text. -/
def text? : Node → Option String
  | text s => some s
  | _ => none

theorem leadingText_eq_getD (n : Node) : n.leadingText = (n.children[0]?.bind text?).getD "" := by
  unfold leadingText
  rcases n.children with _ | ⟨c, cs⟩
  · rfl
  · cases c <;> rfl

/-- The nodes agree in all that counts for a geometry: names and attributes, the text in front of
ordinates, and the elements in them one by one. A text agrees with the same text only. -/
inductive SameData : Node → Node → Prop
  | intro {n n' : Node} (name? : n'.name? = n.name?) (attributes : n'.attributes = n.attributes)
      (text? : n'.text? = n.text?) (leading : n.HoldsOrdinates → n'.leadingText = n.leadingText)
      (elements : List.Forall₂ SameData n.elements n'.elements) : SameData n n'

/-- A relation that is transitive on the members of a list goes through lists member by member. -/
theorem forall₂_trans_of_mem {R : Node → Node → Prop} {xs ys zs : List Node}
    (hR : ∀ x ∈ xs, ∀ y z, R x y → R y z → R x z) (h : List.Forall₂ R xs ys)
    (h' : List.Forall₂ R ys zs) : List.Forall₂ R xs zs := by
  induction h generalizing zs with
  | nil => exact h'
  | cons hxy _ ih =>
    cases h' with
    | cons hyz hrest =>
      rw [List.forall_mem_cons] at hR
      exact .cons (hR.1 _ _ hxy hyz) (ih hR.2 hrest)

namespace SameData

variable {n n' : Node}

theorem name?_eq (h : SameData n n') : n'.name? = n.name? := by
  cases h; assumption

theorem attributes_eq (h : SameData n n') : n'.attributes = n.attributes := by
  cases h; assumption

theorem text?_eq (h : SameData n n') : n'.text? = n.text? := by
  cases h; assumption

theorem leadingText_eq (h : SameData n n') : n.HoldsOrdinates → n'.leadingText = n.leadingText := by
  cases h; assumption

theorem forall₂_elements (h : SameData n n') : List.Forall₂ SameData n.elements n'.elements := by
  cases h; assumption

theorem refl (n : Node) : SameData n n := by
  induction n using Node.induct with
  | step n ih =>
    exact .intro rfl rfl rfl (fun _ => rfl)
      (List.forall₂_same.2 fun c hc => ih c (List.mem_of_mem_filter hc))

theorem trans {n n' n'' : Node} (h : SameData n n') (h' : SameData n' n'') : SameData n n'' := by
  induction n using Node.induct generalizing n' n'' with
  | step n ih =>
    have hholds : n.HoldsOrdinates → n'.HoldsOrdinates := by
      unfold HoldsOrdinates
      rw [h.name?_eq]
      exact id
    refine .intro (h'.name?_eq.trans h.name?_eq) (h'.attributes_eq.trans h.attributes_eq)
      (h'.text?_eq.trans h.text?_eq)
      (fun hn => (h'.leadingText_eq (hholds hn)).trans (h.leadingText_eq hn)) ?_
    have below : ∀ c ∈ n.elements, ∀ c' c'', SameData c c' → SameData c' c'' → SameData c c'' :=
      fun c hc _ _ => ih c (List.mem_of_mem_filter hc)
    exact forall₂_trans_of_mem below h.forall₂_elements h'.forall₂_elements

theorem hasName_eq (h : SameData n n') (name : QName) : n'.hasName name = n.hasName name := by
  simp only [hasName, h.name?_eq]

theorem isElement_eq (h : SameData n n') : n'.isElement = n.isElement := by
  simp only [isElement, h.name?_eq]

theorem localName_eq (h : SameData n n') : n'.localName = n.localName := by
  simp only [localName, h.name?_eq]

theorem attribute?_eq (h : SameData n n') (name : QName) :
    n'.attribute? name = n.attribute? name := by
  simp only [attribute?, h.attributes_eq]

end SameData

theorem isElement_of_hasName {n : Node} {name : QName} (h : n.hasName name = true) :
    n.isElement = true := by
  rw [hasName, beq_iff_eq] at h
  simp [isElement, h]

theorem gmlChild?_eq_find?_elements (n : Node) (name : String) :
    n.gmlChild? name = n.elements.find? (·.hasName (.gml name)) := by
  rw [elements, List.find?_filter]
  refine List.find?_congr fun c _ => ?_
  cases hc : c.hasName (.gml name) with
  | true => simp [isElement_of_hasName hc]
  | false => simp

theorem childrenNamed_eq_filter_elements (n : Node) (name : QName) :
    n.childrenNamed name = n.elements.filter (·.hasName name) := by
  rw [elements, List.filter_filter]
  refine List.filter_congr fun c _ => ?_
  cases hc : c.hasName name with
  | true => simp [isElement_of_hasName hc]
  | false => simp

namespace SameData

variable {n n' : Node}

/-- There is a child by a name in both nodes or in none. -/
theorem gmlChild?_cases (h : SameData n n') (name : String) :
    (n.gmlChild? name = none ∧ n'.gmlChild? name = none) ∨
      ∃ c c', n.gmlChild? name = some c ∧ n'.gmlChild? name = some c' ∧ SameData c c' := by
  simp only [gmlChild?_eq_find?_elements]
  exact find?_cases_of_forall₂ h.forall₂_elements fun _ _ hc => hc.hasName_eq _

theorem forall₂_childrenNamed (h : SameData n n') (name : QName) :
    List.Forall₂ (fun c c' => SameData c c' ∧ c.hasName name = true) (n.childrenNamed name)
      (n'.childrenNamed name) := by
  simp only [childrenNamed_eq_filter_elements]
  exact forall₂_filter h.forall₂_elements fun _ _ hc => hc.hasName_eq _

theorem isSome_gmlChild?_eq (h : SameData n n') (name : String) :
    (n'.gmlChild? name).isSome = (n.gmlChild? name).isSome := by
  rcases h.gmlChild?_cases name with ⟨hc, hc'⟩ | ⟨c, c', hc, hc', -⟩
  · rw [hc, hc']
  · rw [hc, hc']
    rfl

/-! ## Reading the same data -/

theorem kind?_eq (h : SameData n n') : kind? n' = kind? n := by
  have hpos := (h.forall₂_childrenNamed (.gml "pos")).length_eq
  simp only [kind?, kindByContent?, h.hasName_eq, h.isSome_gmlChild?_eq, hpos]

theorem statedDimension_eq (h : SameData n n') (dimension : Nat) :
    statedDimension n' dimension = statedDimension n dimension := by
  simp only [statedDimension, h.attribute?_eq]

theorem readPosition_eq (h : SameData n n') {name : String} (hn : n.hasName (.gml name) = true)
    (hname : name ∈ ordinateNames) : readPosition n' = readPosition n := by
  have hholds : n.HoldsOrdinates := ⟨name, hname, by simpa [hasName] using hn⟩
  simp only [readPosition, h.leadingText_eq hholds]

theorem readPositions_eq (h : SameData n n') (dimension : Nat) :
    readPositions n' dimension = readPositions n dimension := by
  unfold readPositions
  rcases h.gmlChild?_cases "posList" with ⟨hl, hl'⟩ | ⟨l, l', hl, hl', hlist⟩
  · rw [hl, hl']
    refine Attempt.mapM_eq_of_forall₂ ((h.forall₂_childrenNamed (.gml "pos")).imp ?_)
    intro c c' ⟨hc, hname⟩
    exact hc.readPosition_eq hname (by decide)
  · have hname := hasName_of_gmlChild? hl
    have hholds : l.HoldsOrdinates := ⟨"posList", by decide, by simpa [hasName] using hname⟩
    simp only [hl, hl', hlist.statedDimension_eq, hlist.leadingText_eq hholds]

theorem readSegment_eq (h : SameData n n') (dimension : Nat) :
    readSegment dimension n' = readSegment dimension n := by
  simp only [readSegment, interpolationOf, h.attribute?_eq, h.localName_eq, h.statedDimension_eq,
    h.readPositions_eq]

theorem readSegments_eq (h : SameData n n') (dimension : Nat) :
    readSegments n' dimension = readSegments n dimension := by
  unfold readSegments
  rcases h.gmlChild?_cases "segments" with ⟨hs, hs'⟩ | ⟨s, s', hs, hs', hsegments⟩
  · rw [hs, hs']
  · simp only [hs, hs']
    exact Attempt.mapM_eq_of_forall₂
      (hsegments.forall₂_elements.imp fun _ _ hc => hc.readSegment_eq dimension)

theorem samePart (h : SameData n n') (name : String) (hname : name ∈ ordinateNames) :
    SamePart n n' name := by
  unfold SamePart child
  rcases h.gmlChild?_cases name with ⟨hc, hc'⟩ | ⟨c, c', hc, hc', hsame⟩
  · rw [hc, hc', h.localName_eq]
    exact .inl ⟨_, rfl, rfl⟩
  · rw [hc, hc']
    exact .inr ⟨c, c', rfl, rfl, hsame.readPosition_eq (hasName_of_gmlChild? hc) hname⟩

theorem readAs_eq (h : SameData n n') (dimension : Nat) (kind : Kind) :
    readAs n' dimension kind = readAs n dimension kind := by
  have hnames : ∀ name ∈ kind.parts, name ∈ ordinateNames := by cases kind <;> decide
  exact readAs_congr (fun name hname => h.samePart name (hnames name hname))
    (fun _ => h.readPositions_eq dimension) (fun _ => h.readSegments_eq dimension)

theorem sameReferences (h : SameData n n') : Place.SameReferences n n' where
  own := h.attribute?_eq _
  bound := by
    unfold Place.boundReference?
    rcases h.gmlChild?_cases "boundedBy" with ⟨hb, hb'⟩ | ⟨b, b', hb, hb', hbound⟩
    · rw [hb, hb']
    rw [hb, hb', Option.bind_some, Option.bind_some]
    rcases hbound.gmlChild?_cases "Envelope" with ⟨he, he'⟩ | ⟨e, e', he, he', henvelope⟩
    · rw [he, he']
    · rw [he, he']
      exact henvelope.attribute?_eq _

end SameData

end Xml.Node

/-- Nodes with the same data read the same under ancestors that refer to the same systems. -/
theorem Instance.read_of_sameData (resolve : String → Option Crs) {p p' : Place}
    (h : Place.Alike Node.SameData p p') : Instance.read resolve p' = Instance.read resolve p := by
  have hnode := h.node
  have hsrs (kind : Kind) : srsName? p' kind = srsName? p kind :=
    h.srsName?_eq (hnode.attribute?_eq _) kind
  simp only [Instance.read, hnode.isElement_eq, hnode.kind?_eq, hnode.localName_eq, hsrs,
    hnode.statedDimension_eq, hnode.readAs_eq, hnode.attribute?_eq]

namespace Xml.Node

variable {R : Node → Node → Prop} {n n' document document' : Node} {q path : List Nat}

/-! ## Remarks leave the data as it is -/

theorem elements_set_eq {cs : List Node} {k : Nat} {c c' : Node} (hk : cs[k]? = some c)
    (h : SameData c c') :
    List.Forall₂ SameData (cs.filter isElement) ((cs.set k c').filter isElement) :=
  (forall₂_filter (forall₂_set hk SameData.refl h) fun _ _ hc => hc.isElement_eq).imp
    fun _ _ => And.left

theorem IsRemark.not_isElement {r : Node} (h : IsRemark r) : r.isElement = false := by
  cases h <;> rfl

theorem Noted.elements_eq (h : Noted n n') : n'.elements = n.elements := by
  have dropped {c : Node} (hc : c.isElement = false) (cs : List Node) :
      (c :: cs).filter isElement = cs.filter isElement := List.filter_cons_of_neg (by simp [hc])
  cases h with
  | between name as before after hr => simp [elements, children, dropped hr.not_isElement]
  | within name as before after s t hr =>
    have htext (s : String) : (text s).isElement = false := rfl
    simp only [elements, children, List.filter_append, dropped (htext _), dropped hr.not_isElement]

theorem NotedAside.sameData (h : NotedAside n n') : SameData n n' := by
  obtain ⟨hnoted, htext⟩ := h
  have helements : List.Forall₂ SameData n.elements n'.elements := by
    rw [hnoted.elements_eq]
    exact List.forall₂_same.2 fun c _ => .refl c
  cases hnoted <;> exact .intro rfl rfl rfl htext helements

/-- Another child with the same data leaves the node with the same data. -/
theorem sameData_setChild {c c' : Node} {k : Nat} (hk : n.children[k]? = some c)
    (h : SameData c c') : SameData n (n.setChild k c') := by
  refine .intro (by simp) (by simp) (by cases n <;> rfl) (fun _ => ?_) ?_
  · rw [leadingText_eq_getD, leadingText_eq_getD, children_setChild, List.getElem?_set]
    split
    · next h0 =>
      subst h0
      rw [hk, if_pos (List.getElem?_eq_some_iff.1 hk).1]
      simp [h.text?_eq]
    · rfl
  · rw [elements, elements, children_setChild]
    exact elements_set_eq hk h

theorem ChangedAt.sameData (hR : ∀ c c', R c c' → SameData c c') (h : ChangedAt R path n n') :
    SameData n n' := by
  induction h with
  | here h => exact hR _ _ h
  | child hk _ ih => exact sameData_setChild hk ih

theorem ChangedWithin.sameData (hR : ∀ c c', R c c' → SameData c c') (h : ChangedWithin R n n') :
    SameData n n' := by
  induction h with
  | refl => exact .refl n
  | tail _ hstep ih =>
    obtain ⟨path, hstep⟩ := hstep
    exact ih.trans (hstep.sameData hR)

/-- The path leads to the changed node, under nodes that are as changes deep in them leave them. -/
theorem ChangedAt.exists_places {S : Node → Node → Prop}
    (hS : ∀ path n n', ChangedAt R path n n' → S n n') (h : ChangedAt R q n n')
    {above above' : List Node} (habove : List.Forall₂ S above above') :
    ∃ p p', Place.follow? ⟨n, above⟩ q = some p ∧ Place.follow? ⟨n', above'⟩ q = some p' ∧
      R p.node p'.node ∧ List.Forall₂ S p.above p'.above := by
  induction h generalizing above above' with
  | here h => exact ⟨_, _, rfl, rfl, h, habove⟩
  | @child n c c' k path hk hbelow ih =>
    have hn : S n (n.setChild k c') := hS _ _ _ (.child hk hbelow)
    obtain ⟨p, p', hp, hp', hnode, hover⟩ := ih (.cons hn habove)
    refine ⟨p, p', Place.follow?_cons_eq_some_iff.2 ⟨c, hk, hp⟩,
      Place.follow?_cons_eq_some_iff.2 ⟨c', ?_, hp'⟩, hnode, hover⟩
    rw [children_setChild, List.getElem?_set_self (List.getElem?_eq_some_iff.1 hk).1]

/-- The path leads to the changed node, under nodes that refer to the same systems. -/
theorem ChangedAt.exists_follow? (hR : ∀ c c', R c c' → SameData c c') (h : ChangedAt R q n n')
    {above above' : List Node} (habove : List.Forall₂ Place.SameReferences above above')
    {p : Place} (hp : Place.follow? ⟨n, above⟩ q = some p) :
    ∃ p', Place.follow? ⟨n', above'⟩ q = some p' ∧ Place.Alike R p p' := by
  have hsame (path : List Nat) (m m' : Node) (hm : ChangedAt R path m m') :
      Place.SameReferences m m' := (hm.sameData hR).sameReferences
  obtain ⟨p₀, p', hp₀, hp', hnode, hover⟩ := h.exists_places hsame habove
  obtain rfl : p₀ = p := Option.some.inj (hp₀.symm.trans hp)
  exact ⟨p', hp', hnode, hover⟩

end Xml.Node

/-- A geometry reads the same with any remarks in it that leave ordinates behind the text with which
their element begins. -/
theorem Instance.read_of_notedAside (resolve : String → Option Crs) {q : List Nat}
    {document document' : Node} {p : Place}
    (h : Node.ChangedAt (Node.ChangedWithin Node.NotedAside) q document document')
    (hp : document.placeAt? q = some p) :
    ∃ p', document'.placeAt? q = some p' ∧ Node.ChangedWithin Node.NotedAside p.node p'.node ∧
      Instance.read resolve p' = Instance.read resolve p := by
  have hsame (n n' : Node) (hn : Node.ChangedWithin Node.NotedAside n n') : Node.SameData n n' :=
    hn.sameData fun _ _ => Node.NotedAside.sameData
  obtain ⟨p', hp', halike⟩ := h.exists_follow? hsame .nil hp
  exact ⟨p', hp', halike.node, Instance.read_of_sameData resolve ⟨hsame _ _ halike.node, halike.above⟩⟩

/-- A document with one point in a known system. The point holds the nodes. -/
def Xml.Node.onePoint (cs : List Node) : Node :=
  .document [.element (.gml "a") [⟨srsNameAttribute, "EPSG:4326"⟩] [.element (.gml "Point") [] cs]]

/-- A position that holds the nodes. -/
def Xml.Node.posHolding (cs : List Node) : Node := .element (.gml "pos") [] cs

/-- How many ordinates the positions have that read at the end of the path. -/
def Xml.Node.dimensionsAt (document : Node) (q : List Nat) : Option (List Nat) :=
  (document.placeAt? q).bind fun p => (Instance.read Crs.Registry.wellKnown.resolve p).toOption.map
    (·.geometry.positions.map Position.dimension)

/-- Remarks in front of a position and behind its ordinates. -/
theorem Instance.read_of_notedAside_point :
    Node.ChangedAt (Node.ChangedWithin Node.NotedAside) [0, 0]
      (Node.onePoint [Node.posHolding [.text "1 2"]])
      (Node.onePoint [.instruction "fix" "gps",
        Node.posHolding [.text "1 2", .comment "north first"]]) ∧
    ∃ p', (Node.onePoint [.instruction "fix" "gps",
        Node.posHolding [.text "1 2", .comment "north first"]]).placeAt? [0, 0] = some p' ∧
      ((Instance.read Crs.Registry.wellKnown.resolve p').toOption.map
        (·.geometry.positions.map Position.dimension)) = some [2] := by
  have hbehind : Node.NotedAside (Node.posHolding [.text "1 2"])
      (Node.posHolding [.text "1 2", .comment "north first"]) :=
    ⟨.between _ _ [.text "1 2"] [] (.comment _), fun _ => rfl⟩
  have hfront : Node.NotedAside
      (.element (.gml "Point") [] [Node.posHolding [.text "1 2", .comment "north first"]])
      (.element (.gml "Point") []
        [.instruction "fix" "gps", Node.posHolding [.text "1 2", .comment "north first"]]) :=
    ⟨.between _ _ [] _ (.instruction _ _), fun h => absurd h (by decide)⟩
  have hwithin : Node.ChangedWithin Node.NotedAside
      (.element (.gml "Point") [] [Node.posHolding [.text "1 2"]]) _ :=
    .tail (.single ⟨[0], .child rfl (.here hbehind)⟩) ⟨[], .here hfront⟩
  have h : Node.ChangedAt (Node.ChangedWithin Node.NotedAside) [0, 0]
      (Node.onePoint [Node.posHolding [.text "1 2"]]) _ :=
    .child rfl (.child rfl (.here hwithin))
  obtain ⟨p', hp', -, hread⟩ := Instance.read_of_notedAside Crs.Registry.wellKnown.resolve h rfl
  refine ⟨h, p', hp', ?_⟩
  rw [hread]
  decide +kernel

/-- A remark among ordinates takes away those behind it, and the geometry still reads. -/
theorem Instance.read_of_noted_among_ordinates :
    Node.ChangedAt (Node.ChangedWithin Node.Noted) [0, 0]
      (Node.onePoint [Node.posHolding [.text "1 2 3"]])
      (Node.onePoint [Node.posHolding [.text "1 2", .comment " height ", .text " 3"]]) ∧
    (Node.onePoint [Node.posHolding [.text "1 2 3"]]).dimensionsAt [0, 0] = some [3] ∧
    (Node.onePoint [Node.posHolding [.text "1 2", .comment " height ", .text " 3"]]).dimensionsAt
      [0, 0] = some [2] := by
  have hnoted : Node.Noted (Node.posHolding [.text ("1 2" ++ " 3")])
      (Node.posHolding [.text "1 2", .comment " height ", .text " 3"]) :=
    .within _ _ [] [] "1 2" " 3" (.comment _)
  have hwithin : Node.ChangedWithin Node.Noted
      (.element (.gml "Point") [] [Node.posHolding [.text ("1 2" ++ " 3")]]) _ :=
    .single ⟨[0], .child rfl (.here hnoted)⟩
  exact ⟨.child rfl (.child rfl (.here hwithin)), by decide +kernel, by decide +kernel⟩

end GmlCheck
