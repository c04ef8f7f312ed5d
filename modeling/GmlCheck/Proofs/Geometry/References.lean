import GmlCheck.Proofs.Geometry.Locality

/-!
# Where references come from

The reference in effect at a path is the nearest one at its end or above it, however far away; only
if there is none the nearest one on an envelope that bounds something above it (`InEffect`). All
that a geometry takes from its surroundings is this reference, and an envelope takes nothing
(`Instance.read_local`).
-/

namespace GmlCheck

open Xml
open GmlCheck.Geometry

namespace Xml.Node

variable {document n c : Node} {q : List Nat} {k : Nat} {p : Place} {ref : String}

/-! ## Nodes at paths -/

theorem placeAt?_append_singleton_eq_some_iff {r : Place} :
    document.placeAt? (q ++ [k]) = some r ↔
      ∃ p, document.placeAt? q = some p ∧ p.child? k = some r := by
  have follow (start : Place) : start.follow? (q ++ [k]) = (start.follow? q).bind (·.child? k) := by
    induction q generalizing start with
    | nil => simp [Place.follow?]
    | cons j q ih =>
      simp only [List.cons_append, Place.follow?]
      cases start.child? j with
      | none => rfl
      | some next => exact ih next
  rw [placeAt?, follow, Option.bind_eq_some_iff]
  rfl

/-- The node is the one to which the path leads. -/
def StandsAt (document : Node) (q : List Nat) (n : Node) : Prop :=
  (document.placeAt? q).map Place.node = some n

theorem standsAt_iff (hp : document.placeAt? q = some p) : StandsAt document q n ↔ n = p.node := by
  rw [StandsAt, hp, Option.map_some, Option.some_inj, eq_comm]

/-- Of the nodes at the end of the path and above it, the nearest one of which `P` holds with any
text is one of which it holds with this text. -/
def Nearest (document : Node) (P : Node → String → Prop) (q : List Nat) (text : String) : Prop :=
  ∃ r n, r <+: q ∧ StandsAt document r n ∧ P n text ∧
    ∀ r' n', r <+: r' → r' <+: q → r' ≠ r → StandsAt document r' n' → ∀ t, ¬ P n' t

theorem nearest_nil_iff {P : Node → String → Prop} {text : String} :
    Nearest document P [] text ↔ P document text := by
  constructor
  · rintro ⟨r, n, hr, hn, hP, -⟩
    obtain rfl := List.prefix_nil.1 hr
    obtain rfl := (standsAt_iff rfl).1 hn
    exact hP
  · intro h
    refine ⟨[], document, List.nil_prefix, rfl, h, fun r' n' _ hr' hne => ?_⟩
    exact absurd (List.prefix_nil.1 hr') hne

theorem nearest_append_singleton_iff {P : Node → String → Prop} {text : String}
    (hp : document.placeAt? (q ++ [k]) = some p) :
    Nearest document P (q ++ [k]) text ↔
      P p.node text ∨ (∀ t, ¬ P p.node t) ∧ Nearest document P q text := by
  constructor
  · rintro ⟨r, n, hr, hn, hP, hbetween⟩
    rcases List.prefix_concat_iff.1 hr with rfl | hrq
    · rw [standsAt_iff hp] at hn
      exact .inl (hn ▸ hP)
    · have hne : q ++ [k] ≠ r := by
        rintro rfl
        exact absurd hrq.length_le (by simp)
      have hnone := hbetween _ _ hr List.prefix_rfl hne ((standsAt_iff hp).2 rfl)
      refine .inr ⟨hnone, r, n, hrq, hn, hP, ?_⟩
      exact fun r' n' hrr' hr' => hbetween r' n' hrr' (hr'.trans (List.prefix_append q [k]))
  · rintro (hP | ⟨hnone, r, n, hr, hn, hP, hbetween⟩)
    · refine ⟨q ++ [k], p.node, List.prefix_rfl, (standsAt_iff hp).2 rfl, hP, ?_⟩
      exact fun r' n' hrr' hr' hne => absurd (hr'.eq_of_length_le hrr'.length_le) hne
    · refine ⟨r, n, hr.trans (List.prefix_append q [k]), hn, hP, fun r' n' hrr' hr' hne hn' => ?_⟩
      rcases List.prefix_concat_iff.1 hr' with rfl | hr'
      · obtain rfl := (standsAt_iff hp).1 hn'
        exact hnone
      · exact hbetween r' n' hrr' hr' hne hn'

/-- Looking from a place upwards finds what is nearest. -/
theorem findSome?_eq_some_iff_nearest {P : Node → String → Prop} {f : Node → Option String}
    (hf : ∀ n t, f n = some t ↔ P n t) {text : String} (hp : document.placeAt? q = some p) :
    (p.node :: p.above).findSome? f = some text ↔ Nearest document P q text := by
  induction q using List.reverseRecOn generalizing p with
  | nil =>
    cases hp
    rw [nearest_nil_iff, List.findSome?_singleton, hf]
  | append_singleton q k ih =>
    rw [nearest_append_singleton_iff hp, List.findSome?_cons]
    obtain ⟨parent, hparent, hchild⟩ := placeAt?_append_singleton_eq_some_iff.1 hp
    obtain ⟨c, -, rfl⟩ := Option.map_eq_some_iff.1 hchild
    cases hc : f c with
    | none =>
      have hnone (t : String) : ¬ P c t := by
        rw [← hf, hc]
        exact nofun
      rw [ih hparent]
      exact ⟨fun h => .inr ⟨hnone, h⟩, fun h => (h.resolve_left (hnone text)).2⟩
    | some t =>
      have ht : P c t := (hf c t).1 hc
      have hunique : P c text ↔ some t = some text := by rw [← hf, hc]
      rw [hunique]
      exact ⟨.inl, fun h => h.resolve_right fun h => h.1 t ht⟩

/-! ## References -/

/-- The first child with the name in the namespace of GML. -/
def FirstChild (n : Node) (name : String) (c : Node) : Prop :=
  ∃ before after, n.children = before ++ c :: after ∧ c.name? = some (.gml name) ∧
    ∀ b ∈ before, b.name? ≠ some (.gml name)

theorem gmlChild?_eq_some_iff {name : String} :
    n.gmlChild? name = some c ↔ FirstChild n name c := by
  simp only [gmlChild?, child?, List.find?_eq_some_iff_append, hasName, beq_iff_eq,
    Bool.not_eq_true', beq_eq_false_iff_ne, FirstChild]
  constructor
  · rintro ⟨hc, before, after, hchildren, hbefore⟩
    exact ⟨before, after, hchildren, hc, hbefore⟩
  · rintro ⟨before, after, hchildren, hc, hbefore⟩
    exact ⟨hc, before, after, hchildren, hbefore⟩

/-- The node is an element that refers to a system. -/
def RefersTo (n : Node) (ref : String) : Prop := n.attribute? srsNameAttribute = some ref

/-- The first envelope in what first bounds the node refers to a system. -/
def BoundedIn (n : Node) (ref : String) : Prop :=
  ∃ b e, FirstChild n "boundedBy" b ∧ FirstChild b "Envelope" e ∧ RefersTo e ref

theorem boundReference?_eq_some_iff (n : Node) (ref : String) :
    Place.boundReference? n = some ref ↔ BoundedIn n ref := by
  simp only [Place.boundReference?, Option.bind_eq_some_iff, gmlChild?_eq_some_iff, BoundedIn,
    RefersTo]
  constructor
  · rintro ⟨e, ⟨b, hb, he⟩, href⟩
    exact ⟨b, e, hb, he, href⟩
  · rintro ⟨b, e, hb, he, href⟩
    exact ⟨e, ⟨b, hb, he⟩, href⟩

/-- The reference in effect at the end of a path. -/
inductive InEffect (document : Node) : List Nat → String → Prop
  | inherited (path : List Nat) (ref : String) : Nearest document RefersTo path ref →
      InEffect document path ref
  | bound (parent : List Nat) (k : Nat) (ref : String) :
      (∀ other, ¬ Nearest document RefersTo (parent ++ [k]) other) →
      Nearest document BoundedIn parent ref → InEffect document (parent ++ [k]) ref

theorem crsReference?_eq_some_iff (hp : document.placeAt? q = some p) :
    p.crsReference? = some ref ↔ InEffect document q ref := by
  have hinherited (ref : String) :
      p.inherited? srsNameAttribute = some ref ↔ Nearest document RefersTo q ref :=
    findSome?_eq_some_iff_nearest (fun _ _ => .rfl) hp
  rw [Place.crsReference?]
  cases hown : p.inherited? srsNameAttribute with
  | some own =>
    have hnearest := (hinherited own).1 hown
    rw [Option.some_or, ← hown, hinherited]
    refine ⟨.inherited q ref, fun h => ?_⟩
    cases h with
    | inherited _ _ h => exact h
    | bound _ _ _ hnone _ => exact absurd hnearest (hnone own)
  | none =>
    have hnone (other : String) : ¬ Nearest document RefersTo q other := by
      rw [← hinherited, hown]
      exact (Option.some_ne_none other).symm
    rw [Option.none_or]
    rcases List.eq_nil_or_concat q with rfl | ⟨parent, k, rfl⟩
    · cases hp
      refine iff_of_false (Option.some_ne_none ref).symm fun h => ?_
      generalize hq : ([] : List Nat) = q at h
      cases h with
      | inherited _ _ h => exact hnone ref (hq ▸ h)
      | bound parent k => exact absurd hq (by simp)
    · rw [List.concat_eq_append] at hp hnone ⊢
      obtain ⟨above, habove, hchild⟩ := placeAt?_append_singleton_eq_some_iff.1 hp
      obtain ⟨c, -, rfl⟩ := Option.map_eq_some_iff.1 hchild
      rw [findSome?_eq_some_iff_nearest boundReference?_eq_some_iff habove]
      refine ⟨.bound parent k ref hnone, fun h => ?_⟩
      generalize hq : parent ++ [k] = q at h
      cases h with
      | inherited _ _ h => exact absurd (hq ▸ h) (hnone ref)
      | bound parent' k' _ _ h =>
        obtain ⟨rfl, -⟩ := List.append_inj' hq rfl
        exact h

end Xml.Node

namespace Geometry

variable {n : Node}

/-- An envelope by its name, or by what it holds if its name is that of no kind. -/
inductive IsEnvelope (n : Node) : Prop where
  | named : n.hasName Kind.envelope.elementName = true → IsEnvelope n
  | alike : (∀ kind : Kind, n.hasName kind.elementName = false) → n.gmlChild? "segments" = none →
      (n.gmlChild? "lowerCorner").isSome = true → IsEnvelope n

theorem find?_kinds_eq_some_iff {kind : Kind} :
    (Kind.all.find? fun k => n.hasName k.elementName) = some kind ↔
      n.hasName kind.elementName = true := by
  constructor
  · intro h
    exact (List.find?_some h :)
  · intro h
    have hname : n.name? = some kind.elementName := by simpa [Node.hasName] using h
    simp only [Node.hasName, hname]
    cases kind <;> rfl

theorem find?_kinds_eq_none_iff :
    (Kind.all.find? fun k => n.hasName k.elementName) = none ↔
      ∀ kind : Kind, n.hasName kind.elementName = false := by
  rw [List.find?_eq_none]
  exact ⟨fun h kind => by simpa using h kind (mem_kinds kind), fun h kind _ => by simp [h kind]⟩

theorem kindByContent?_eq_envelope_iff :
    kindByContent? n = some .envelope ↔
      n.gmlChild? "segments" = none ∧ (n.gmlChild? "lowerCorner").isSome = true := by
  unfold kindByContent?
  cases n.gmlChild? "segments" with
  | some => simp
  | none =>
    cases n.gmlChild? "lowerCorner" with
    | some => simp
    | none =>
      refine iff_of_false (fun h => ?_) (by simp)
      simp only [Option.isSome_none, Bool.false_eq_true, if_false] at h
      split at h
      · cases h
      · split at h <;> cases h

theorem kind?_eq_envelope_iff : kind? n = some .envelope ↔ IsEnvelope n := by
  unfold kind?
  cases hfound : Kind.all.find? fun k => n.hasName k.elementName with
  | some kind =>
    have hkind := find?_kinds_eq_some_iff.1 hfound
    rw [Option.some_or]
    constructor
    · rintro ⟨⟩
      exact .named hkind
    · rintro (h | ⟨h, -, -⟩)
      · exact hfound.symm.trans (find?_kinds_eq_some_iff.2 h)
      · rw [h kind] at hkind
        cases hkind
  | none =>
    have hnone := find?_kinds_eq_none_iff.1 hfound
    rw [Option.none_or, kindByContent?_eq_envelope_iff]
    constructor
    · rintro ⟨hsegments, hlower⟩
      exact .alike hnone hsegments hlower
    · rintro (h | ⟨-, hsegments, hlower⟩)
      · rw [hnone .envelope] at h
        cases h
      · exact ⟨hsegments, hlower⟩

end Geometry

namespace Instance

theorem read_of_isEnvelope (resolve : String → Option Crs) {p p' : Place} (hnode : p'.node = p.node)
    (h : IsEnvelope p.node) : read resolve p' = read resolve p := by
  simp only [read, hnode, kind?_eq_envelope_iff.2 h, srsName?]

/-- A geometry takes nothing from its surroundings but the reference in effect, and an envelope not
even that. The reference in effect is the nearest one at the path or above it, and only if there is
none the nearest one that bounds something above it. -/
theorem read_local (resolve : String → Option Crs) {document document' : Node} {q q' : List Nat}
    {p p' : Place} (hp : document.placeAt? q = some p) (hp' : document'.placeAt? q' = some p')
    (hnode : p'.node = p.node) :
    (IsEnvelope p.node → read resolve p' = read resolve p) ∧
    (p'.crsReference? = p.crsReference? → read resolve p' = read resolve p) ∧
    ∀ ref, (p.crsReference? = some ref ↔ document.InEffect q ref) ∧
      (p'.crsReference? = some ref ↔ document'.InEffect q' ref) :=
  ⟨read_of_isEnvelope resolve hnode, read_congr resolve hnode, fun _ =>
    ⟨Node.crsReference?_eq_some_iff hp, Node.crsReference?_eq_some_iff hp'⟩⟩

/-- A node below a reference to one system, beside what bounds the road that holds it in another. -/
def onRoad (n : Node) : Node :=
  .document [.element (.gml "net") [⟨srsNameAttribute, "EPSG:4326"⟩] [.element (.gml "road") [] [
    .element (.gml "boundedBy") [] [.element (.gml "Envelope") [⟨srsNameAttribute, "CRS:84"⟩] []],
    n]]]

/-- A node in a document of its own, under a reference or none. -/
def inNet (as : List Attribute) (n : Node) : Node := .document [.element (.gml "net") as [n]]

/-- A line string of two positions. -/
def lineElement : Node :=
  .element (.gml "LineString") [] [.element (.gml "posList") [] [.text "49.1 -123.1 49.2 -123"]]

/-- An envelope by what it holds. -/
def extentElement : Node :=
  .element (.bare "extent") [] [
    .element (.gml "lowerCorner") [] [.text "0 0"], .element (.gml "upperCorner") [] [.text "1 1"]]

/-- A line string keeps what it is wherever the same reference is in effect; an extent keeps it
under any reference and none. -/
theorem read_local_road :
    (∃ p p', (onRoad lineElement).placeAt? [0, 0, 1] = some p ∧
      (inNet [⟨srsNameAttribute, "EPSG:4326"⟩] lineElement).placeAt? [0, 0] = some p' ∧
      (onRoad lineElement).InEffect [0, 0, 1] "EPSG:4326" ∧
      read Crs.Registry.wellKnown.resolve p' = read Crs.Registry.wellKnown.resolve p) ∧
    ∃ p p', (onRoad extentElement).placeAt? [0, 0, 1] = some p ∧
      (inNet [] extentElement).placeAt? [0, 0] = some p' ∧ IsEnvelope p.node ∧
      (onRoad extentElement).InEffect [0, 0, 1] "EPSG:4326" ∧
      (∀ ref, ¬ (inNet [] extentElement).InEffect [0, 0] ref) ∧
      read Crs.Registry.wellKnown.resolve p' = read Crs.Registry.wellKnown.resolve p := by
  have hline := read_local Crs.Registry.wellKnown.resolve
    (rfl : (onRoad lineElement).placeAt? [0, 0, 1] = some _)
    (rfl : (inNet [⟨srsNameAttribute, "EPSG:4326"⟩] lineElement).placeAt? [0, 0] = some _) rfl
  have hextent := read_local Crs.Registry.wellKnown.resolve
    (rfl : (onRoad extentElement).placeAt? [0, 0, 1] = some _)
    (rfl : (inNet [] extentElement).placeAt? [0, 0] = some _) rfl
  have henvelope : IsEnvelope extentElement :=
    .alike (fun kind => by cases kind <;> rfl) rfl rfl
  refine ⟨⟨_, _, rfl, rfl, (hline.2.2 _).1.1 rfl, hline.2.1 rfl⟩, _, _, rfl, rfl, henvelope,
    (hextent.2.2 _).1.1 rfl, fun ref h => ?_, hextent.1 henvelope⟩
  have hnone := (hextent.2.2 ref).2.2 h
  cases hnone

end Instance

end GmlCheck
