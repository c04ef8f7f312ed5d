import GmlCheck.Geometry.Reader
import GmlCheck.Proofs.Schema.Relations
import GmlCheck.Proofs.Schema.Run
import GmlCheck.Proofs.Xml.Paths

/-!
# Finding geometries by the names of substitutes

A schema tells which elements stand for a geometry of GML: the head itself and all elements from
which substitution heads lead there. `Names` says which names these are, without a search. The
elements of a document that have one of the names are found at their paths, each once and in
document order, however heads run in cycles and however many declarations share a name.
-/

namespace GmlCheck

open Xml

namespace Schema

variable {m : Schema} {head name : QName}

/-- Heads lead from an element with the name to the global element `head`. That element itself
does not count. -/
def NamesSubstitute (m : Schema) (head name : QName) : Prop :=
  ∃ h e d, m.globalElement? head = some h ∧ m.Substitutes e h ∧ m.element? e = some d ∧
    d.name = name

/-- Heads lead in one step or more from an element with the name to the global element `head`. -/
def NamesLed (m : Schema) (head name : QName) : Prop :=
  ∃ h e d, m.globalElement? head = some h ∧ Relation.TransGen m.HasHead e h ∧
    m.element? e = some d ∧ d.name = name

/-- The element that is found under the name has the name. -/
def CarriesName (m : Schema) (head : QName) : Prop :=
  ∀ h d, m.globalElement? head = some h → m.element? h = some d → d.name = head

/-- All elements are found under the names they have, unless edits change these. -/
theorem Named.carriesName (h : Named m) (head : QName) : m.CarriesName head := by
  intro i d hi hd
  obtain ⟨d', hd', -, hname⟩ := h.element_name head i hi
  obtain rfl := Option.some.inj (hd'.symm.trans hd)
  exact hname

theorem elementName_eq_of_element? {e : ElementId} {d : ElementDeclaration}
    (h : m.element? e = some d) : m.elementName e = d.name := by
  rw [elementName, h, Option.map_some, Option.getD_some]

theorem mem_geometryNames_iff :
    name ∈ m.geometryNames head ↔ name = head ∨ m.NamesSubstitute head name := by
  rw [geometryNames, List.mem_cons]
  refine or_congr_right ?_
  unfold NamesSubstitute
  cases m.globalElement? head with
  | none => simp
  | some h =>
    simp only [List.mem_map, mem_substitutes_iff, Option.some.injEq, exists_and_left,
      exists_eq_left']
    constructor
    · rintro ⟨e, he, rfl⟩
      obtain ⟨c, ⟨d, hd, -⟩, -⟩ := Relation.TransGen.head'_iff.1 he.2
      exact ⟨e, he, d, hd, (elementName_eq_of_element? hd).symm⟩
    · rintro ⟨e, he, d, hd, rfl⟩
      exact ⟨e, he, elementName_eq_of_element? hd⟩

/-- On a cycle through the head heads lead from it to itself, which adds no other name. -/
theorem CarriesName.names_iff (h : m.CarriesName head) :
    (name = head ∨ m.NamesSubstitute head name) ↔ (name = head ∨ m.NamesLed head name) := by
  constructor
  · rintro (rfl | ⟨i, e, d, hi, he, hd⟩)
    · exact .inl rfl
    · exact .inr ⟨i, e, d, hi, he.2, hd⟩
  · rintro (rfl | ⟨i, e, d, hi, he, hd, rfl⟩)
    · exact .inl rfl
    · by_cases hei : e = i
      · subst hei
        exact .inl (h e d hi hd)
      · exact .inr ⟨i, e, d, hi, ⟨hei, he⟩, hd, rfl⟩

end Schema

/-- The places in the list, with their paths, are those of the elements with a name for which
`P` holds, each once and in document order. -/
structure Xml.Node.Lists (document : Node) (P : QName → Prop) (found : List (List Nat × Place)) :
    Prop where
  inOrder : found.Pairwise fun x y => x.1 < y.1
  mem_iff : ∀ q p, (q, p) ∈ found ↔
    document.placeAt? q = some p ∧ ∃ name, p.node.name? = some name ∧ P name

theorem Xml.Node.Lists.congr {document : Node} {P Q : QName → Prop}
    {found : List (List Nat × Place)} (h : document.Lists P found) (hPQ : ∀ name, P name ↔ Q name) :
    document.Lists Q found where
  inOrder := h.inOrder
  mem_iff q p := by simp only [h.mem_iff, hPQ]

theorem exists_lists_findElements (document : Node) (names : List QName) :
    ∃ found : List (List Nat × Place),
      found.map Prod.snd = findElements document names ∧ document.Lists (· ∈ names) found := by
  obtain ⟨found, hplaces, hordered, hmem⟩ :=
    document.exists_located fun p => names.any p.node.hasName
  refine ⟨found, hplaces, hordered, fun q p => ?_⟩
  rw [hmem, List.any_eq_true]
  simp only [Node.hasName, beq_iff_eq, and_comm]

/-- What is found by the names for a head: the elements named like the head or like an element that
may stand for it, and only those named like the head where it is not declared. -/
theorem findElements_geometryNames (m : Schema) (head : QName) (document : Node) :
    ∃ found : List (List Nat × Place),
      found.map Prod.snd = findElements document (m.geometryNames head) ∧
      document.Lists (fun name => name = head ∨ m.NamesSubstitute head name) found ∧
      (m.CarriesName head →
        document.Lists (fun name => name = head ∨ m.NamesLed head name) found) ∧
      (m.globalElement? head = none → document.Lists (fun name => name = head) found) := by
  obtain ⟨found, hplaces, hlists⟩ := exists_lists_findElements document (m.geometryNames head)
  have hnames := hlists.congr fun name => Schema.mem_geometryNames_iff
  refine ⟨found, hplaces, hnames, fun h => hnames.congr fun name => h.names_iff, fun h => ?_⟩
  refine hnames.congr fun name => or_iff_left ?_
  rintro ⟨i, -, -, hi, -⟩
  rw [h] at hi
  cases hi

/-- A name in the namespace of the application. -/
def netName (name : String) : QName := ⟨some "http://example.org/net", name⟩

/-- Stations stand for points and points for stations, posts stand for stations; a local element
is called a station too. -/
def stations : Schema :=
  .ofLists [] [
    ⟨.gml "Point", ⟨0⟩, .global, false, some ⟨1⟩⟩,
    ⟨netName "Station", ⟨0⟩, .global, false, some ⟨0⟩⟩,
    ⟨netName "Station", ⟨0⟩, .within ⟨0⟩, false, none⟩,
    ⟨netName "Post", ⟨0⟩, .global, false, some ⟨1⟩⟩]

/-- A road and a post in a station. -/
def net : Node :=
  .document [.element (netName "Station") []
    [.element (netName "Road") [] [], .element (netName "Post") [] []]]

theorem findElements_geometryNames_stations :
    (stations.CarriesName (.gml "Point") ∧ ∃ found : List (List Nat × Place),
      found.map Prod.snd = findElements net (stations.geometryNames (.gml "Point")) ∧
      [0] ∈ found.map Prod.fst ∧ [0, 1] ∈ found.map Prod.fst) ∧
    (stations.globalElement? (.gml "Curve") = none ∧
      findElements net (stations.geometryNames (.gml "Curve")) = []) := by
  have hstation : stations.HasHead ⟨1⟩ ⟨0⟩ := ⟨_, rfl, rfl⟩
  have hpost : stations.HasHead ⟨3⟩ ⟨1⟩ := ⟨_, rfl, rfl⟩
  have hcarries : stations.CarriesName (.gml "Point") :=
    (Schema.built_ofLists _ _).named.carriesName _
  refine ⟨⟨hcarries, ?_⟩, rfl, ?_⟩
  · obtain ⟨found, hplaces, -, hled, -⟩ := findElements_geometryNames stations (.gml "Point") net
    have hmem := (hled hcarries).mem_iff
    have hfirst := (hmem [0] _).2
      ⟨rfl, _, rfl, .inr ⟨⟨0⟩, ⟨1⟩, _, rfl, .single hstation, rfl, rfl⟩⟩
    have hsecond := (hmem [0, 1] _).2
      ⟨rfl, _, rfl, .inr ⟨⟨0⟩, ⟨3⟩, _, rfl, .head hpost (.single hstation), rfl, rfl⟩⟩
    exact ⟨found, hplaces, List.mem_map_of_mem hfirst, List.mem_map_of_mem hsecond⟩
  · obtain ⟨found, hplaces, -, -, hplain⟩ := findElements_geometryNames stations (.gml "Curve") net
    rw [← hplaces, List.map_eq_nil_iff, List.eq_nil_iff_forall_not_mem]
    rintro ⟨q, p⟩ hin
    obtain ⟨hp, name, hname, rfl⟩ := ((hplain rfl).mem_iff q p).1 hin
    have hall : ∀ x ∈ net.located [], x.2.node.name? ≠ some (.gml "Curve") := by decide
    exact hall _ (Node.mem_located_iff.2 hp) hname

end GmlCheck
