import GmlCheck.Proofs.Geometry.Remarks
import GmlCheck.Proofs.Geometry.References
import GmlCheck.Proofs.Geometry.Dimension

/-!
# Elements that stand for geometries

An element outside the namespace of GML is read by what it holds. The kind is told by its children
with one of five names (`Node.content`), tested in a fixed order. Where these are what an element
of a kind holds (`Node.HasContent`), the element reads like the one of this kind with the same
attributes and children in its place (`Instance.read_of_standsFor`). One single position makes a
point, so that it does not stand for a line string of one position
(`Instance.read_single_position`).
-/

namespace GmlCheck

open Xml
open GmlCheck.Geometry

namespace Xml.Node

variable {n n' c c' : Node} {k : Nat} {path : List Nat} {kind : Kind} {name : String}

/-! ## What tells the kind -/

/-- The names of the elements that tell the kind of a geometry. -/
def tellingNames : List String := ["segments", "lowerCorner", "upperCorner", "posList", "pos"]

/-- The name of an element that tells the kind of the geometry that holds it. -/
def tellingName? (c : Node) : Option String :=
  tellingNames.find? fun name => c.hasName (.gml name)

/-- The names of the children that tell the kind, in document order. -/
def content (n : Node) : List String := n.children.filterMap tellingName?

/-- The children that tell the kind are those of a geometry of the kind. -/
inductive HasContent (n : Node) : Kind → Prop
  | position : n.content = ["pos"] → HasContent n .point
  | list : n.content = ["posList"] → HasContent n .lineString
  | positions (k : Nat) : n.content = List.replicate (k + 2) "pos" → HasContent n .lineString
  | segments : n.content = ["segments"] → HasContent n .curve
  | corners : n.content.Perm ["lowerCorner", "upperCorner"] → HasContent n .envelope

theorem tellingName?_eq_some_iff (hname : name ∈ tellingNames) :
    c.tellingName? = some name ↔ c.hasName (.gml name) = true := by
  constructor
  · intro h
    exact (List.find?_some h :)
  · intro h
    have hc : c.name? = some (.gml name) := by simpa [hasName] using h
    simp only [tellingName?, hasName, hc]
    revert hname
    simp only [tellingNames, List.mem_cons, List.not_mem_nil, or_false]
    rintro (rfl | rfl | rfl | rfl | rfl) <;> rfl

theorem count_content (n : Node) (name : String) (hname : name ∈ tellingNames) :
    n.content.count name = (n.childrenNamed (.gml name)).length := by
  rw [content, List.count_filterMap, childrenNamed, ← List.countP_eq_length_filter]
  refine List.countP_congr fun c _ => ?_
  rw [beq_iff_eq, tellingName?_eq_some_iff hname]

theorem isSome_gmlChild?_iff (n : Node) (name : String) (hname : name ∈ tellingNames) :
    (n.gmlChild? name).isSome = true ↔ name ∈ n.content := by
  simp only [gmlChild?, child?, List.find?_isSome, content, List.mem_filterMap,
    tellingName?_eq_some_iff hname]

theorem kindByContent?_eq (n : Node) :
    kindByContent? n =
      if "segments" ∈ n.content then some .curve
      else if "lowerCorner" ∈ n.content then some .envelope
      else if "posList" ∈ n.content ∨ 1 < n.content.count "pos" then some .lineString
      else if "pos" ∈ n.content then some .point
      else none := by
  simp only [kindByContent?, Bool.or_eq_true, decide_eq_true_eq,
    isSome_gmlChild?_iff n "segments" (by decide), isSome_gmlChild?_iff n "lowerCorner" (by decide),
    isSome_gmlChild?_iff n "posList" (by decide), isSome_gmlChild?_iff n "pos" (by decide),
    ← count_content n "pos" (by decide)]

theorem HasContent.kindByContent?_eq (h : HasContent n kind) : kindByContent? n = some kind := by
  rw [Node.kindByContent?_eq]
  cases h with
  | position h => rw [h]; rfl
  | list h => rw [h]; rfl
  | positions k h => simp [h]
  | segments h => rw [h]; rfl
  | corners h => simp [h.mem_iff]

theorem HasContent.mem_content (h : HasContent n kind) (hname : name ∈ kind.parts) :
    name ∈ n.content := by
  cases h with
  | position h => rwa [h]
  | corners h => rwa [h.mem_iff]
  | list | positions | segments => cases hname

/-! ## The element of the kind -/

/-- An element outside the namespace of GML that holds what a geometry of the kind holds, and the
element of this kind with the same attributes and children. -/
inductive StandsFor (kind : Kind) : Node → Node → Prop
  | intro {name : QName} {as : List Attribute} {cs : List Node} :
      name.space ≠ some gmlNamespace → HasContent (element name as cs) kind →
      StandsFor kind (element name as cs) (element kind.elementName as cs)

theorem hasName_gml_eq_false {q : QName} (hq : q.space ≠ some gmlNamespace) (as : List Attribute)
    (cs : List Node) (name : String) : (element q as cs).hasName (.gml name) = false := by
  rw [← Bool.not_eq_true, hasName_element_iff]
  rintro rfl
  exact hq rfl

namespace StandsFor

theorem attributes_eq (h : StandsFor kind n n') : n'.attributes = n.attributes := by
  cases h; rfl

theorem gmlChild?_eq (h : StandsFor kind n n') (name : String) :
    n'.gmlChild? name = n.gmlChild? name := by
  cases h; rfl

theorem hasContent (h : StandsFor kind n n') : HasContent n kind := by
  cases h; assumption

theorem isElement (h : StandsFor kind n n') : n.isElement = true ∧ n'.isElement = true := by
  cases h; exact ⟨rfl, rfl⟩

/-- By any name of GML but that of the kind neither element is called. -/
theorem hasName_eq (h : StandsFor kind n n') (hname : kind.text ≠ name) :
    n'.hasName (.gml name) = n.hasName (.gml name) := by
  cases h with
  | intro hspace _ =>
    rw [hasName_gml_eq_false hspace, ← Bool.not_eq_true, hasName_element_iff]
    exact fun h => hname (congrArg QName.name h)

theorem kind?_eq (h : StandsFor kind n n') : kind? n = some kind ∧ kind? n' = some kind := by
  cases h with
  | intro hspace hcontent =>
    constructor
    · rw [kind?, find?_kinds_eq_none_iff.2 fun k => hasName_gml_eq_false hspace _ _ k.text,
        Option.none_or, hcontent.kindByContent?_eq]
    · rw [kind?, find?_kinds_eq_some_iff.2 (hasName_element_iff.2 rfl), Option.some_or]

/-- What the kind has is found in either element, so that no fault names the element. -/
theorem samePart (h : StandsFor kind n n') (hname : name ∈ kind.parts) : SamePart n n' name := by
  have htelling : name ∈ tellingNames := by
    revert name
    cases kind <;> decide
  obtain ⟨c, hc⟩ := Option.isSome_iff_exists.1
    ((isSome_gmlChild?_iff n name htelling).2 (h.hasContent.mem_content hname))
  exact .inr ⟨c, c, by rw [child, hc], by rw [child, h.gmlChild?_eq, hc], rfl⟩

theorem readAs_eq (h : StandsFor kind n n') (dimension : Nat) :
    readAs n' dimension kind = readAs n dimension kind := by
  refine readAs_congr (fun name => h.samePart) (fun _ => ?_) (fun _ => ?_)
  · cases h
    rfl
  · cases h
    rfl

end StandsFor

end Xml.Node

/-! ## Documents in which one element stands for another -/

namespace Xml.Node

variable {document document' : Node} {q : List Nat} {kind : Kind} {n n' c c' : Node} {k : Nat}
  {path : List Nat} {name : String}

theorem ChangedAt.attributes_eq (h : ChangedAt (StandsFor kind) path n n') :
    n'.attributes = n.attributes := by
  cases h with
  | here h => exact h.attributes_eq
  | child => exact attributes_setChild ..

theorem ChangedAt.hasName_eq (h : ChangedAt (StandsFor kind) path n n')
    (hname : kind.text ≠ name) : n'.hasName (.gml name) = n.hasName (.gml name) := by
  cases h with
  | here h => exact h.hasName_eq hname
  | child => simp only [hasName, name?_setChild]

/-- There is a child by the name in both nodes or in none; it is the same, or the one on the way
to the element. -/
theorem ChangedAt.gmlChild?_cases (h : ChangedAt (StandsFor kind) path n n')
    (hname : kind.text ≠ name) :
    n'.gmlChild? name = n.gmlChild? name ∨
      ∃ rest c c', n.gmlChild? name = some c ∧ n'.gmlChild? name = some c' ∧
        ChangedAt (StandsFor kind) rest c c' := by
  cases h with
  | here h => exact .inl (h.gmlChild?_eq name)
  | @child _ c c' k rest hk below =>
    have hchildren : List.Forall₂ (fun d d' => d' = d ∨ ChangedAt (StandsFor kind) rest d d')
        n.children (n.setChild k c').children := by
      rw [children_setChild]
      exact forall₂_set hk (fun _ => .inl rfl) (.inr below)
    have hcases := find?_cases_of_forall₂ (f := (·.hasName (.gml name))) hchildren ?_
    · rcases hcases with ⟨hd, hd'⟩ | ⟨d, d', hd, hd', rfl | hbelow⟩
      · exact .inl (hd'.trans hd.symm)
      · exact .inl (hd'.trans hd.symm)
      · exact .inr ⟨rest, d, d', hd, hd', hbelow⟩
    · rintro d d' (rfl | hd)
      · rfl
      · exact hd.hasName_eq hname

/-- What stands above the element refers to the same systems, unless the element is an envelope,
which may bound it. -/
theorem ChangedAt.sameReferences (hkind : kind ≠ .envelope)
    (h : ChangedAt (StandsFor kind) path n n') : Place.SameReferences n n' where
  own := by simp only [attribute?, h.attributes_eq]
  bound := by
    -- The reference of the bounds is looked up by two names, and neither is that of the kind.
    have hbounded : kind.text ≠ "boundedBy" := by cases kind <;> decide
    have henvelope : kind.text ≠ "Envelope" := by
      cases kind with
      | envelope => exact absurd rfl hkind
      | point | lineString | curve => decide
    unfold Place.boundReference?
    rcases h.gmlChild?_cases hbounded with hb | ⟨_, b, b', hb, hb', hbelow⟩
    · rw [hb]
    rw [hb, hb', Option.bind_some, Option.bind_some]
    rcases hbelow.gmlChild?_cases henvelope with he | ⟨_, e, e', he, he', hbelow⟩
    · rw [he]
    · rw [he, he', Option.bind_some, Option.bind_some, attribute?, attribute?,
        hbelow.attributes_eq]

end Xml.Node

namespace Instance

open Xml.Node

/-- Elements with the same attributes, one of which stands for the other, read the same under the
same reference. -/
theorem read_eq_of_standsFor (resolve : String → Option Crs) {kind : Kind} {p p' : Place}
    (h : StandsFor kind p.node p'.node) (href : srsName? p' kind = srsName? p kind) :
    read resolve p' = read resolve p := by
  obtain ⟨hkind, hkind'⟩ := h.kind?_eq
  obtain ⟨helement, helement'⟩ := h.isElement
  have hattribute (name : QName) : p'.node.attribute? name = p.node.attribute? name := by
    rw [Node.attribute?, h.attributes_eq, Node.attribute?]
  simp only [read, helement, helement', hkind, hkind', href, statedDimension, hattribute,
    h.readAs_eq]

/-- An element outside the namespace of GML that holds what a geometry of a kind holds reads like
the element of this kind with the same attributes and children in its place: as the same geometry,
which is of this kind, or with the same fault. -/
theorem read_of_standsFor (resolve : String → Option Crs) {kind : Kind} {q : List Nat}
    {document document' : Node} (h : ChangedAt (StandsFor kind) q document document') :
    ∃ p p', document.placeAt? q = some p ∧ document'.placeAt? q = some p' ∧
      StandsFor kind p.node p'.node ∧ read resolve p = read resolve p' ∧
      ∀ i, read resolve p = .ok i → i.geometry.kind = kind := by
  obtain ⟨p, p', hp, hp', hnode, habove⟩ := h.exists_places
    (S := fun m m' => ∃ path, ChangedAt (StandsFor kind) path m m')
    (fun path _ _ hm => ⟨path, hm⟩) .nil
  have hown : p'.node.attribute? srsNameAttribute = p.node.attribute? srsNameAttribute := by
    rw [Node.attribute?, hnode.attributes_eq, Node.attribute?]
  have href : srsName? p' kind = srsName? p kind := by
    by_cases hkind : kind = .envelope
    · -- What stands above an envelope may have got its bounds from it, but does not count.
      subst hkind
      exact hown
    · have hsame (m m' : Node) (hm : ∃ path, ChangedAt (StandsFor kind) path m m') :
          Place.SameReferences m m' := by
        obtain ⟨path, hm⟩ := hm
        exact hm.sameReferences hkind
      have halike : Place.Alike (StandsFor kind) p p' := ⟨hnode, habove.imp hsame⟩
      exact halike.srsName?_eq hown kind
  refine ⟨p, p', hp, hp', hnode, (read_eq_of_standsFor resolve hnode href).symm, fun i hi => ?_⟩
  exact Option.some.inj ((kind?_of_read hi).symm.trans hnode.kind?_eq.1)

/-- The name of an element of an application. -/
def applicationName (name : String) : QName := ⟨some "http://example.org/survey", name⟩

/-- A position with the text. -/
def positionElement (text : String) : Node := .element (.gml "pos") [] [.text text]

/-- A road that is bounded by the node and by an envelope. -/
def boundedByBoth (n : Node) : Node :=
  .document [.element (applicationName "Road") [] [.element (.gml "boundedBy") [] [n,
    .element (.gml "Envelope") [⟨srsNameAttribute, "CRS:84"⟩] []]]]

/-- An element with the name that holds two positions and what is not of GML. -/
def twoPositions (name : QName) : Node :=
  .element name [⟨srsDimensionAttribute, " 2"⟩] [positionElement "1 2",
    .element (applicationName "pos") [] [], .comment "resumed", positionElement "3 4"]

/-- The kind and the reference of what reads at the place. -/
def kindAndReference? (p : Place) : Option (Kind × Option String) :=
  (read Crs.Registry.wellKnown.resolve p).toOption.map fun i => (i.geometry.kind, i.srsName)

/-- A track that stands for a line string within what bounds the road around it. -/
theorem read_of_standsFor_track :
    ChangedAt (StandsFor .lineString) [0, 0, 0]
      (boundedByBoth (twoPositions (applicationName "Track")))
      (boundedByBoth (twoPositions Kind.lineString.elementName)) ∧
    ∃ p p', (boundedByBoth (twoPositions (applicationName "Track"))).placeAt? [0, 0, 0] = some p ∧
      (boundedByBoth (twoPositions Kind.lineString.elementName)).placeAt? [0, 0, 0] = some p' ∧
      read Crs.Registry.wellKnown.resolve p = read Crs.Registry.wellKnown.resolve p' ∧
      kindAndReference? p = some (.lineString, some "CRS:84") := by
  have hstands : StandsFor .lineString (twoPositions (applicationName "Track"))
      (twoPositions Kind.lineString.elementName) :=
    .intro (by decide) (.positions 0 (by decide))
  have h : ChangedAt (StandsFor .lineString) [0, 0, 0]
      (boundedByBoth (twoPositions (applicationName "Track")))
      (boundedByBoth (twoPositions Kind.lineString.elementName)) :=
    .child rfl (.child rfl (.child rfl (.here hstands)))
  obtain ⟨p, p', hp, hp', -, hread, -⟩ := read_of_standsFor Crs.Registry.wellKnown.resolve h
  refine ⟨h, p, p', hp, hp', hread, ?_⟩
  cases hp
  decide +kernel

/-- An element with the name that holds one position, in a survey that refers to a system. -/
def onePosition (name : QName) : Place :=
  let n : Node := .element name [⟨idAttribute, "t1"⟩] [positionElement "49.2827 -123.1207"]
  let survey : Node := .element (applicationName "Root") [⟨srsNameAttribute, "EPSG:4326"⟩] [n]
  ⟨n, [survey, .document [survey]]⟩

/-- A track of one single position reads as a point, and so not like a line string of the same. -/
theorem read_single_position :
    (applicationName "Track").space ≠ some gmlNamespace ∧
    (onePosition (applicationName "Track")).node.content = List.replicate 1 "pos" ∧
    kindAndReference? (onePosition (applicationName "Track")) = some (.point, some "EPSG:4326") ∧
    kindAndReference? (onePosition Kind.lineString.elementName) =
      some (.lineString, some "EPSG:4326") ∧
    read Crs.Registry.wellKnown.resolve (onePosition (applicationName "Track")) ≠
      read Crs.Registry.wellKnown.resolve (onePosition Kind.lineString.elementName) := by
  have hpoint : kindAndReference? (onePosition (applicationName "Track")) =
      some (.point, some "EPSG:4326") := by decide +kernel
  have hline : kindAndReference? (onePosition Kind.lineString.elementName) =
      some (.lineString, some "EPSG:4326") := by decide +kernel
  refine ⟨by decide, by decide, hpoint, hline, fun hsame => ?_⟩
  rw [kindAndReference?] at hpoint hline
  rw [hsame, hline] at hpoint
  cases hpoint

end Instance

end GmlCheck
