import Mathlib.Data.List.Basic
import Mathlib.Data.List.Lex
import GmlCheck.Geometry.Reader
import GmlCheck.Proofs.Enumeration

/-!
# Paths in documents

A path tells at which child to turn down, from the root on. Document order is the
lexicographic order of paths: a node comes before what it contains, and what it contains
before the next node beside it. `located` pairs every place with its path;
`Located` says that such a list is complete and in document order.
-/

namespace GmlCheck.Xml

namespace Place

def child? (p : Place) (k : Nat) : Option Place :=
  (p.node.children[k]?).map fun c => ⟨c, p.node :: p.above⟩

/-- Where a path leads from a place. -/
def follow? (p : Place) : List Nat → Option Place
  | [] => some p
  | k :: path => (p.child? k).bind (·.follow? path)

theorem follow?_cons_eq_some_iff {p r : Place} {k : Nat} {path : List Nat} :
    p.follow? (k :: path) = some r ↔
      ∃ c, p.node.children[k]? = some c ∧ follow? ⟨c, p.node :: p.above⟩ path = some r := by
  simp [follow?, child?, Option.bind_map, Option.bind_eq_some_iff]

end Place

namespace Node

/-- Where a path leads in a document. -/
def placeAt? (document : Node) (path : List Nat) : Option Place :=
  Place.follow? ⟨document, []⟩ path

mutual

/-- A node and all nodes in it, with the paths that lead there. -/
def located (above : List Node) : Node → List (List Nat × Place)
  | n@(document cs) => ([], ⟨n, above⟩) :: locatedIn (n :: above) 0 cs
  | n@(element _ _ cs) => ([], ⟨n, above⟩) :: locatedIn (n :: above) 0 cs
  | n => [([], ⟨n, above⟩)]

/-- The children from the one with number `k` on. -/
def locatedIn (above : List Node) (k : Nat) : List Node → List (List Nat × Place)
  | [] => []
  | c :: cs => (c.located above).map (Prod.map (k :: ·) id) ++ locatedIn above (k + 1) cs

end

theorem locatedIn_eq_flatMap (above : List Node) (k : Nat) (cs : List Node) :
    locatedIn above k cs =
      (cs.zipIdx k).flatMap fun c => (c.1.located above).map (Prod.map (c.2 :: ·) id) := by
  induction cs generalizing k with
  | nil => simp [locatedIn]
  | cons c cs ih => simp [locatedIn, ih]

theorem located_eq (above : List Node) (n : Node) :
    n.located above = ([], ⟨n, above⟩) :: n.children.zipIdx.flatMap fun c =>
      (c.1.located (n :: above)).map (Prod.map (c.2 :: ·) id) := by
  cases n <;> simp [located, locatedIn_eq_flatMap, children]

theorem places_eq (above : List Node) (n : Node) :
    n.places above = ⟨n, above⟩ :: n.children.flatMap (places (n :: above)) := by
  cases n <;> simp [places, placesIn_eq_flatMap, children]

theorem sizeOf_lt_of_mem_children {n c : Node} (h : c ∈ n.children) : sizeOf c < sizeOf n := by
  cases n with
  | document cs =>
    have := List.sizeOf_lt_of_mem (show c ∈ cs from h)
    simp only [document.sizeOf_spec]
    omega
  | element _ _ cs =>
    have := List.sizeOf_lt_of_mem (show c ∈ cs from h)
    simp only [element.sizeOf_spec]
    omega
  | text | comment | instruction => cases h

/-- What holds of a node whenever it holds of its children holds of all nodes. -/
theorem induct {P : Node → Prop} (step : ∀ n, (∀ c ∈ n.children, P c) → P n) (n : Node) : P n :=
  step n fun c hc =>
    have := sizeOf_lt_of_mem_children hc
    induct step c
termination_by sizeOf n

theorem fst_mem_of_mem_zipIdx {cs : List Node} {c : Node × Nat} (h : c ∈ cs.zipIdx) : c.1 ∈ cs :=
  List.mem_of_getElem? (List.mem_zipIdx_iff_getElem?.1 h)

theorem map_snd_located (n : Node) (above : List Node) :
    (n.located above).map Prod.snd = n.places above := by
  induction n using induct generalizing above with
  | step n ih =>
    rw [located_eq, places_eq, List.map_cons, List.map_flatMap]
    have hchildren : n.children.flatMap (places (n :: above)) =
        n.children.zipIdx.flatMap fun c => c.1.places (n :: above) := by
      conv_lhs => rw [← List.zipIdx_map_fst 0 n.children, List.flatMap_map]
    rw [hchildren]
    refine congrArg _ (List.flatMap_congr fun c hc => ?_)
    rw [List.map_map]
    exact ih c.1 (fst_mem_of_mem_zipIdx hc) _

/-- A path is listed with the place to which it leads. -/
theorem mem_located_iff {n : Node} {above : List Node} {q : List Nat} {p : Place} :
    (q, p) ∈ n.located above ↔ Place.follow? ⟨n, above⟩ q = some p := by
  induction n using induct generalizing above q with
  | step n ih =>
    rw [located_eq]
    cases q with
    | nil => simp [Place.follow?, eq_comm]
    | cons k q =>
      rw [Place.follow?_cons_eq_some_iff, List.mem_cons]
      constructor
      · rintro (h | h)
        · cases h
        · obtain ⟨⟨c, j⟩, hc, hq⟩ := List.mem_flatMap.1 h
          obtain ⟨⟨q', p'⟩, hin, heq⟩ := List.mem_map.1 hq
          cases heq
          exact ⟨c, List.mem_zipIdx_iff_getElem?.1 hc, (ih c (fst_mem_of_mem_zipIdx hc)).1 hin⟩
      · rintro ⟨c, hc, hq⟩
        have hin := (ih c (List.mem_of_getElem? hc)).2 hq
        exact .inr (List.mem_flatMap.2 ⟨(c, k), List.mem_zipIdx_iff_getElem?.2 hc,
          List.mem_map.2 ⟨(q, p), hin, rfl⟩⟩)

/-- Places are listed in the order of their paths. -/
theorem located_inOrder (n : Node) (above : List Node) :
    (n.located above).Pairwise fun x y => x.1 < y.1 := by
  induction n using induct generalizing above with
  | step n ih =>
    rw [located_eq, List.pairwise_cons, List.pairwise_flatMap]
    refine ⟨fun y hy => ?_, fun c hc => ?_, (pairwise_snd_zipIdx n.children 0).imp ?_⟩
    · obtain ⟨c, -, hy⟩ := List.mem_flatMap.1 hy
      obtain ⟨z, -, rfl⟩ := List.mem_map.1 hy
      exact List.nil_lt_cons _ _
    · rw [List.pairwise_map]
      exact (ih c.1 (fst_mem_of_mem_zipIdx hc) _).imp fun h => List.cons_lt_cons_self.2 h
    · intro b c hbc x hx y hy
      obtain ⟨x, -, rfl⟩ := List.mem_map.1 hx
      obtain ⟨y, -, rfl⟩ := List.mem_map.1 hy
      exact List.Lex.rel hbc

/-- The places of which `f` holds are found at their paths, each once and in document order. -/
theorem exists_located (document : Node) (f : Place → Bool) :
    ∃ found : List (List Nat × Place),
      found.map Prod.snd = document.allPlaces.filter f ∧
      found.Pairwise (fun x y => x.1 < y.1) ∧
      ∀ q p, (q, p) ∈ found ↔ document.placeAt? q = some p ∧ f p = true := by
  refine ⟨(document.located []).filter (f ∘ Prod.snd), ?_, (located_inOrder document []).filter _,
    fun q p => ?_⟩
  · rw [← List.filter_map, map_snd_located, allPlaces]
  · rw [List.mem_filter, mem_located_iff]
    rfl

end Node

end GmlCheck.Xml
