import GmlCheck.Proofs.Attempt
import GmlCheck.Proofs.Geometry.Alteration

/-!
# What a geometry depends on

A geometry is read from its element and from the reference to a system that is in effect
there. Of the geometries that stand in it only those that are its own segments count:
altering any other one changes nothing, neither what is read nor why nothing is read.
-/

namespace GmlCheck

open Xml
open GmlCheck.Geometry

/-- A geometry reads the same wherever its element stands under the same reference. -/
theorem Instance.read_congr (resolve : String → Option Crs) {p p' : Place}
    (hnode : p'.node = p.node) (href : p'.crsReference? = p.crsReference?) :
    Instance.read resolve p' = Instance.read resolve p := by
  have hsrs (kind : Kind) : srsName? p' kind = srsName? p kind := by
    cases kind <;> simp [srsName?, href, hnode]
  simp only [Instance.read, hsrs, hnode]

/-! ## Parts of a geometry -/

namespace Geometry

/-- The names of the children that hold the single positions of a geometry of a kind. -/
def Kind.parts : Kind → List String
  | .point => ["pos"]
  | .envelope => ["lowerCorner", "upperCorner"]
  | .lineString | .curve => []

/-- The part is missing in both nodes, with the same fault, or has the same position in both. -/
def SamePart (n n' : Node) (name : String) : Prop :=
  (∃ x, child n name = .error x ∧ child n' name = .error x) ∨
    ∃ c c', child n name = .ok c ∧ child n' name = .ok c' ∧ readPosition c' = readPosition c

/-- A geometry of a kind reads the same if those of its parts that the kind has do. -/
theorem readAs_congr {n n' : Node} {dimension : Nat} {kind : Kind}
    (hparts : ∀ name ∈ kind.parts, SamePart n n' name)
    (hpositions : kind = .lineString → readPositions n' dimension = readPositions n dimension)
    (hsegments : kind = .curve → readSegments n' dimension = readSegments n dimension) :
    readAs n' dimension kind = readAs n dimension kind := by
  cases kind with
  | point =>
    rw [readAs, readAs]
    rcases hparts "pos" (by decide) with ⟨x, hx, hx'⟩ | ⟨c, c', hc, hc', hpos⟩
    · rw [hx, hx']
    · simp only [hc, hc', Attempt.ok_bind, hpos]
  | lineString => rw [readAs, readAs, hpositions rfl]
  | curve => rw [readAs, readAs, hsegments rfl]
  | envelope =>
    -- Both corners are looked for before either of them is read.
    rw [readAs, readAs]
    rcases hparts "lowerCorner" (by decide) with ⟨x, hx, hx'⟩ | ⟨c, c', hc, hc', hlower⟩
    · rw [hx, hx']
      rfl
    rcases hparts "upperCorner" (by decide) with ⟨x, hx, hx'⟩ | ⟨d, d', hd, hd', hupper⟩
    · simp only [hc, hc', hx, hx', Attempt.ok_bind, Attempt.error_bind]
    · simp only [hc, hc', hd, hd', Attempt.ok_bind, hlower, hupper]

end Geometry

namespace Xml.Node

variable {n n' c c' : Node} {k : Nat} {path : List Nat}

theorem Altered.localName_eq (h : Altered path n n') : n'.localName = n.localName := by
  simp only [localName, h.name?_eq]

/-- What is altered in a node is no text, so the text that it begins with stays. -/
theorem Altered.leadingText_eq (h : Altered (k :: path) n n') : n'.leadingText = n.leadingText := by
  have hchildren := h.children
  unfold leadingText
  generalize n.children = cs, n'.children = cs' at hchildren
  cases hchildren with
  | nil => rfl
  | @cons c c' _ _ hc _ =>
    rcases hc with rfl | ⟨-, hc⟩
    · cases c' <;> rfl
    cases hc with
    | geometry => rfl
    | child hk =>
      cases c with
      | document => rfl
      | element => rfl
      | text | comment | instruction => cases hk

theorem Counterpart.readPosition_eq (h : Counterpart k path n c c') {name : String}
    (hc : c.hasName (.gml name) = true) (hname : name ∉ Kind.all.map Kind.text) :
    readPosition c' = readPosition c := by
  rcases h with rfl | ⟨-, h⟩
  · rfl
  · obtain ⟨k, rest, rfl⟩ := h.exists_cons hc hname
    simp only [readPosition, h.leadingText_eq]

theorem Altered.statedDimension_eq (h : Altered (k :: path) n n') (dimension : Nat) :
    statedDimension n' dimension = statedDimension n dimension := by
  simp only [statedDimension, h.attribute?_eq]

theorem Altered.readPositions_eq (h : Altered (k :: path) n n') (dimension : Nat) :
    readPositions n' dimension = readPositions n dimension := by
  unfold readPositions
  rcases h.gmlChild?_cases "posList" with ⟨hl, hl'⟩ | ⟨l, l', hl, hl', rfl | ⟨-, hlist⟩⟩
  · rw [hl, hl']
    refine Attempt.mapM_eq_of_forall₂ ?_
    exact (forall₂_filter h.children fun _ _ hc => hc.hasName_eq _).imp
      fun _ _ ⟨hc, hpos⟩ => hc.readPosition_eq hpos (by decide)
  · rw [hl, hl']
  · obtain ⟨j, rest, rfl⟩ := hlist.exists_cons (hasName_of_gmlChild? hl) (by decide)
    simp only [hl, hl', hlist.statedDimension_eq, hlist.leadingText_eq]

theorem Altered.readSegment_eq (h : Altered (k :: path) n n') (dimension : Nat) :
    readSegment dimension n' = readSegment dimension n := by
  simp only [readSegment, interpolationOf, h.attribute?_eq, h.localName_eq, h.statedDimension_eq,
    h.readPositions_eq]

/-- The way leads to a segment of the curve. -/
def HasSegmentAt (n : Node) (way : List Nat) : Prop :=
  ∃ k j s, way = [k, j] ∧ n.hasName Kind.curve.elementName = true ∧ n.children[k]? = some s ∧
    s.hasName (.gml "segments") = true

theorem Altered.readSegments_eq (h : Altered (k :: path) n n')
    (hn : n.hasName Kind.curve.elementName = true) (hsegment : ¬ n.HasSegmentAt (k :: path))
    (dimension : Nat) : readSegments n' dimension = readSegments n dimension := by
  unfold readSegments
  rcases h.gmlChild?_cases "segments" with ⟨hs, hs'⟩ | ⟨s, s', hs, hs', rfl | ⟨hk, hsegments⟩⟩
  · rw [hs, hs']
  · rw [hs, hs']
  have hname := hasName_of_gmlChild? hs
  obtain ⟨j, rest, rfl⟩ := hsegments.exists_cons hname (by decide)
  simp only [hs, hs']
  refine Attempt.mapM_eq_of_forall₂ ?_
  refine (forall₂_filter hsegments.children fun _ _ hc => hc.isElement_eq).imp
    fun c c' ⟨hc, _⟩ => ?_
  rcases hc with rfl | ⟨-, hc⟩
  · rfl
  · cases rest with
    | nil => exact absurd ⟨k, j, s, rfl, hn, hk, hname⟩ hsegment
    | cons => exact hc.readSegment_eq dimension

theorem Altered.samePart (h : Altered (k :: path) n n') (name : String)
    (hname : name ∉ Kind.all.map Kind.text) : SamePart n n' name := by
  unfold SamePart Geometry.child
  rcases h.gmlChild?_cases name with ⟨hc, hc'⟩ | ⟨c, c', hc, hc', hcounter⟩
  · rw [hc, hc', h.localName_eq]
    exact .inl ⟨_, rfl, rfl⟩
  · rw [hc, hc']
    exact .inr ⟨c, c', rfl, rfl, hcounter.readPosition_eq (hasName_of_gmlChild? hc) hname⟩

/-- All parts of a geometry read the same, unless the altered one is one of its segments. -/
theorem Altered.readAs_eq (h : Altered (k :: path) n n') {kind : Kind}
    (hn : n.hasName kind.elementName = true) (hsegment : ¬ n.HasSegmentAt (k :: path))
    (dimension : Nat) : readAs n' dimension kind = readAs n dimension kind := by
  have hnames : ∀ name ∈ kind.parts, name ∉ Kind.all.map Kind.text := by cases kind <;> decide
  refine readAs_congr (fun name hname => h.samePart name (hnames name hname))
    (fun _ => h.readPositions_eq dimension) ?_
  rintro rfl
  exact h.readSegments_eq hn hsegment dimension

/-! ## Geometries that hold one another -/

/-- A geometry by its name has a kind, and keeps it. -/
theorem Altered.exists_kind? (h : Altered path n n')
    (hn : ∃ kind : Kind, n.hasName kind.elementName = true) :
    ∃ kind, kind? n = some kind ∧ kind? n' = some kind ∧ n.hasName kind.elementName = true := by
  obtain ⟨kind, hkind⟩ := hn
  have hsome : (Kind.all.find? fun k => n.hasName k.elementName).isSome = true := by
    rw [List.find?_isSome]
    exact ⟨kind, mem_kinds kind, hkind⟩
  obtain ⟨found, hfound⟩ := Option.isSome_iff_exists.1 hsome
  have hname : n.hasName found.elementName = true := (List.find?_some hfound :)
  refine ⟨found, ?_, ?_, hname⟩ <;> simp only [kind?, h.hasName_eq, hfound, Option.some_or]

theorem Altered.elementLabel_eq (h : Altered (k :: path) n n') :
    Instance.elementLabel n' = Instance.elementLabel n := by
  simp only [Instance.elementLabel, h.localName_eq, h.attribute?_eq]

end Xml.Node

/-- A geometry under the same reference reads the same however another one that stands in it is
altered, if that is none of its segments. -/
theorem Instance.read_eq_of_altered (resolve : String → Option Crs) {p p' : Place} {k : Nat}
    {path : List Nat} (hnode : Node.Altered (k :: path) p.node p'.node)
    (href : p'.crsReference? = p.crsReference?) (hsegment : ¬ p.node.HasSegmentAt (k :: path))
    (hp : ∃ kind : Kind, p.node.hasName kind.elementName = true) :
    Instance.read resolve p' = Instance.read resolve p := by
  obtain ⟨kind, hkind, hkind', hname⟩ := hnode.exists_kind? hp
  have helement : p'.node.isElement = p.node.isElement := by
    simp only [Node.isElement, hnode.name?_eq]
  have hsrs : srsName? p' kind = srsName? p kind := by
    cases kind with
    | envelope => exact hnode.attribute?_eq _
    | point | lineString | curve => exact href
  simp only [Instance.read, helement, hkind, hkind', hsrs, hnode.statedDimension_eq,
    hnode.readAs_eq hname hsegment, hnode.attribute?_eq]

end GmlCheck
