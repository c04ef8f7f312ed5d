import GmlCheck.Geometry.Reader
import GmlCheck.Proofs.Geometry.Coverage
import GmlCheck.Proofs.Geometry.Positions

/-!
# The dimension of lists of positions

A list of positions is divided by the dimension that is in effect there: the one that the innermost
element around it states, else that of the reference system, else 2 (`Geometry.DimensionInEffect`).
Where no element states any, the positions have the dimension of the system, and the check of all
positions has no objection to their dimension (`Instance.read_divides`).
-/

namespace GmlCheck

open Xml

namespace Geometry

variable {crs : Option Crs} {n list : Node} {around : List Node} {d otherwise : Nat}

/-- The element states the dimension of the positions in it. -/
def StatesDimension (n : Node) (d : Nat) : Prop :=
  ∃ text, n.attribute? srsDimensionAttribute = some text ∧ readDimension text = .ok d

/-- The dimension in effect in elements of which each is in the next one. -/
inductive DimensionInEffect (crs : Option Crs) : List Node → Nat → Prop
  | stated (around : List Node) {n : Node} {d : Nat} : StatesDimension n d →
      DimensionInEffect crs (n :: around) d
  | passed {n : Node} {around : List Node} {d : Nat} :
      n.attribute? srsDimensionAttribute = none → DimensionInEffect crs around d →
      DimensionInEffect crs (n :: around) d
  | ofCrs {c : Crs} : crs = some c → DimensionInEffect crs [] c.dimension
  | assumed : crs = none → DimensionInEffect crs [] 2

theorem dimensionInEffect_nil (crs : Option Crs) :
    DimensionInEffect crs [] ((crs.map Crs.dimension).getD Instance.assumedDimension) := by
  cases crs with
  | none => exact .assumed rfl
  | some c => exact .ofCrs rfl

/-- An element without a dimension of its own leaves the one around it in effect. -/
theorem dimensionInEffect_of_statedDimension (h : statedDimension n otherwise = .ok d)
    (haround : DimensionInEffect crs around otherwise) : DimensionInEffect crs (n :: around) d := by
  unfold statedDimension at h
  split at h
  · next text htext => exact .stated around ⟨text, htext, h⟩
  · next hnone =>
    cases h
    exact .passed hnone haround

theorem DimensionInEffect.unique {d' : Nat} (h : DimensionInEffect crs around d)
    (h' : DimensionInEffect crs around d') : d = d' := by
  induction h with
  | stated around h =>
    obtain ⟨text, htext, hd⟩ := h
    cases h' with
    | stated _ h' =>
      obtain ⟨text', htext', hd'⟩ := h'
      cases htext.symm.trans htext'
      exact Except.ok.inj (hd.symm.trans hd')
    | passed hnone _ => cases htext.symm.trans hnone
  | passed hnone _ ih =>
    cases h' with
    | stated _ h' =>
      obtain ⟨text', htext', -⟩ := h'
      cases hnone.symm.trans htext'
    | passed _ h' => exact ih h'
  | ofCrs hc =>
    cases h' with
    | ofCrs hc' => cases hc.symm.trans hc'; rfl
    | assumed hc' => cases hc.symm.trans hc'
  | assumed hc =>
    cases h' with
    | ofCrs hc' => cases hc.symm.trans hc'
    | assumed _ => rfl

/-- Where nothing states a dimension that of the system is in effect. -/
theorem dimensionInEffect_of_unstated {c : Crs} (hc : crs = some c)
    (h : ∀ n ∈ around, n.attribute? srsDimensionAttribute = none) :
    DimensionInEffect crs around c.dimension := by
  induction around with
  | nil => exact .ofCrs hc
  | cons n around ih =>
    rw [List.forall_mem_cons] at h
    exact .passed h.1 (ih h.2)

/-! ## Reading lists -/

theorem divides_of_readPositions {ps : List Position} (h : readPositions n otherwise = .ok ps)
    (hlist : n.gmlChild? "posList" = some list) (haround : DimensionInEffect crs around otherwise) :
    ∃ d, DimensionInEffect crs (list :: around) d ∧ Position.Divides list.leadingText d ps := by
  rw [readPositions, hlist] at h
  obtain ⟨d, hd, h⟩ := Attempt.bind_eq_ok_iff.1 h
  exact ⟨d, dimensionInEffect_of_statedDimension hd haround, Position.divides_of_readList h⟩

theorem divides_of_readSegment {s : Segment} (h : readSegment otherwise n = .ok s)
    (hlist : n.gmlChild? "posList" = some list) (haround : DimensionInEffect crs around otherwise) :
    ∃ d, DimensionInEffect crs (list :: n :: around) d ∧
      Position.Divides list.leadingText d s.positions := by
  obtain ⟨inSegment, hd, h⟩ := Attempt.bind_eq_ok_iff.1 h
  obtain ⟨ps, hps, h⟩ := Attempt.bind_eq_ok_iff.1 h
  cases h
  exact divides_of_readPositions hps hlist (dimensionInEffect_of_statedDimension hd haround)

theorem rel_of_getElem? {α β : Type} {R : α → β → Prop} {xs : List α} {ys : List β}
    (h : List.Forall₂ R xs ys) {k : Nat} {x : α} {y : β} (hx : xs[k]? = some x)
    (hy : ys[k]? = some y) : R x y := by
  obtain ⟨hxs, rfl⟩ := List.getElem?_eq_some_iff.1 hx
  obtain ⟨hys, rfl⟩ := List.getElem?_eq_some_iff.1 hy
  exact h.get hxs hys

/-- The elements that hold the segments of a curve. -/
def segmentElements (n : Node) : List Node :=
  ((n.gmlChild? "segments").map fun s => s.children.filter Node.isElement).getD []

theorem forall₂_of_readSegments {ss : List Segment} (h : readSegments n d = .ok ss) :
    List.Forall₂ (fun c s => readSegment d c = .ok s) (segmentElements n) ss := by
  unfold readSegments at h
  unfold segmentElements
  cases hs : n.gmlChild? "segments" with
  | none =>
    rw [hs] at h
    cases h
    exact .nil
  | some s =>
    rw [hs] at h
    exact Attempt.mapM_eq_ok_iff.1 h

/-- Positions of the geometry that come from a list, with the list and the elements around it, the
nearest one first. -/
inductive TakenFrom (n : Node) (g : Geometry) : Node → List Node → List Position → Prop
  | lineString {list : Node} {ps : List Position} : g = .lineString ps →
      n.gmlChild? "posList" = some list → TakenFrom n g list [n] ps
  | segment {list c : Node} {ss : List Segment} {s : Segment} {k : Nat} : g = .curve ss →
      (segmentElements n)[k]? = some c → ss[k]? = some s → c.gmlChild? "posList" = some list →
      TakenFrom n g list [c, n] s.positions

variable {g : Geometry} {kind : Kind} {ps : List Position}

/-- What is read for a geometry of each kind. -/
inductive Reads (n : Node) (d : Nat) : Kind → Geometry → Prop
  | point {c : Node} {q : Position} : child n "pos" = .ok c → readPosition c = .ok q →
      Reads n d .point (.point q)
  | lineString {ps : List Position} : readPositions n d = .ok ps →
      Reads n d .lineString (.lineString ps)
  | curve {ss : List Segment} : readSegments n d = .ok ss → Reads n d .curve (.curve ss)
  | envelope {l u : Node} {lower upper : Position} : child n "lowerCorner" = .ok l →
      child n "upperCorner" = .ok u → readPosition l = .ok lower → readPosition u = .ok upper →
      Reads n d .envelope (.envelope lower upper)

theorem reads_of_readAs (h : readAs n d kind = .ok g) : Reads n d kind g := by
  cases kind with
  | point =>
    obtain ⟨c, hc, h⟩ := Attempt.bind_eq_ok_iff.1 h
    obtain ⟨q, hq, h⟩ := Attempt.bind_eq_ok_iff.1 h
    cases h
    exact .point hc hq
  | lineString =>
    obtain ⟨ps, hps, h⟩ := Attempt.bind_eq_ok_iff.1 h
    cases h
    exact .lineString hps
  | curve =>
    obtain ⟨ss, hss, h⟩ := Attempt.bind_eq_ok_iff.1 h
    cases h
    exact .curve hss
  | envelope =>
    obtain ⟨l, hl, h⟩ := Attempt.bind_eq_ok_iff.1 h
    obtain ⟨u, hu, h⟩ := Attempt.bind_eq_ok_iff.1 h
    obtain ⟨lower, hlower, h⟩ := Attempt.bind_eq_ok_iff.1 h
    obtain ⟨upper, hupper, h⟩ := Attempt.bind_eq_ok_iff.1 h
    cases h
    exact .envelope hl hu hlower hupper

theorem Reads.kind_eq (h : Reads n d kind g) : g.kind = kind := by
  cases h <;> rfl

theorem TakenFrom.divides (h : TakenFrom n g list around ps) (hg : Reads n otherwise kind g)
    (hn : DimensionInEffect crs [n] otherwise) :
    ∃ d, DimensionInEffect crs (list :: around) d ∧ Position.Divides list.leadingText d ps := by
  cases h with
  | lineString hline hlist =>
    subst hline
    cases hg with
    | lineString hps => exact divides_of_readPositions hps hlist hn
  | segment hcurve hc hs hlist =>
    subst hcurve
    cases hg with
    | curve hss =>
      exact divides_of_readSegment (rel_of_getElem? (forall₂_of_readSegments hss) hc hs) hlist hn

end Geometry

namespace Instance

open GmlCheck.Geometry

variable {resolve : String → Option Crs} {p : Place} {i : Instance}

/-- What is read is read for the kind of the element, in the dimension that it states or else that of
the system. -/
theorem exists_readAs_of_read (h : read resolve p = .ok i) :
    ∃ kind d, kind? p.node = some kind ∧
      statedDimension p.node ((i.crs.map Crs.dimension).getD assumedDimension) = .ok d ∧
      readAs p.node d kind = .ok i.geometry := by
  unfold read at h
  cases helement : p.node.isElement with
  | false =>
    rw [helement] at h
    cases h
  | true =>
    rw [helement] at h
    cases hkind : kind? p.node with
    | none =>
      rw [hkind] at h
      cases h
    | some kind =>
      rw [hkind] at h
      obtain ⟨d, hd, h⟩ := Attempt.bind_eq_ok_iff.1 h
      obtain ⟨g, hg, h⟩ := Attempt.bind_eq_ok_iff.1 h
      cases h
      exact ⟨kind, d, rfl, hd, hg⟩

/-- What is read for a geometry, by the dimension in effect in its element. -/
theorem exists_reads_of_read (h : read resolve p = .ok i) :
    ∃ kind d, Reads p.node d kind i.geometry ∧ DimensionInEffect i.crs [p.node] d := by
  obtain ⟨kind, d, -, hd, hg⟩ := exists_readAs_of_read h
  exact ⟨kind, d, reads_of_readAs hg,
    dimensionInEffect_of_statedDimension hd (dimensionInEffect_nil _)⟩

theorem kind?_of_read (h : read resolve p = .ok i) : kind? p.node = some i.geometry.kind := by
  obtain ⟨kind, d, hkind, -, hg⟩ := exists_readAs_of_read h
  rw [hkind, (reads_of_readAs hg).kind_eq]

/-- The check of all positions has no objection to positions of the dimension of the system. -/
theorem not_has_mismatch (s : Settings) {c : Crs} (hc : i.crs = some c)
    (h : ∀ k q, i.geometry.At k q → q.dimension = c.dimension) :
    (i.checkCovered s).has "CoordinateDimensionMismatch" = false := by
  rw [Report.has, List.any_eq_false]
  intro v hv
  rw [checkCovered_findings s hc] at hv
  obtain ⟨⟨q, k⟩, hq, hv⟩ := List.mem_flatMap.1 (Finding.mem_filterMap_violation?_iff.1 hv)
  have hdimension := h k q (positions_eq_some_iff.1 (List.mem_zipIdx_iff_getElem?.1 hq))
  have hfault := (Settings.violated_mem_positionFindings_iff.1 hv).1
  rw [Violation.code]
  generalize v.fault = fault at hfault
  cases hfault with
  | mismatch hadmits => exact absurd (.inl hdimension) hadmits
  | outside => simp [Fault.code]

/-- A list of positions is divided by the dimension in effect there. If all positions come from
lists, and nothing states a dimension around them, they have the dimension of the system, if it is
known. -/
theorem read_divides (h : read resolve p = .ok i) :
    (∀ list around ps, TakenFrom p.node i.geometry list around ps →
      ∃ d, DimensionInEffect i.crs (list :: around) d ∧ Position.Divides list.leadingText d ps) ∧
    (∀ ss, i.geometry = .curve ss → ss.length = (segmentElements p.node).length) ∧
    ∀ c, i.crs = some c →
      (∀ k q, i.geometry.At k q →
        ∃ list around ps, TakenFrom p.node i.geometry list around ps ∧ q ∈ ps) →
      (∀ list around ps, TakenFrom p.node i.geometry list around ps →
        ∀ n ∈ list :: around, n.attribute? srsDimensionAttribute = none) →
      ∀ s : Settings, (i.checkCovered s).has "CoordinateDimensionMismatch" = false := by
  obtain ⟨kind, otherwise, hreads, hn⟩ := exists_reads_of_read h
  refine ⟨fun list around ps htaken => htaken.divides hreads hn, fun ss hss => ?_,
    fun c hc hall hnone s => not_has_mismatch s hc fun k q hq => ?_⟩
  · rw [hss] at hreads
    cases hreads with
    | curve hss => exact (forall₂_of_readSegments hss).length_eq.symm
  · obtain ⟨list, around, ps, htaken, hps⟩ := hall k q hq
    obtain ⟨d, hd, hdivides⟩ := htaken.divides hreads hn
    rw [hdivides.dimension q hps]
    exact hd.unique (dimensionInEffect_of_unstated hc (hnone list around ps htaken))

/-- A list of positions that may state its dimension. -/
def listElement (stated : Option String) (ordinates : String) : Node :=
  .element (.gml "posList") (stated.toList.map (⟨srsDimensionAttribute, ·⟩)) [.text ordinates]

/-- A curve in a system of three dimensions. The second segment states two, and the list in the
third one states one. -/
def track : Place :=
  let segment (as : List Attribute) (list : Node) : Node :=
    .element (.gml "LineStringSegment") as [list]
  ⟨.element (.gml "Curve") [⟨srsNameAttribute, "EPSG:4979"⟩] [.element (.gml "segments") [] [
    segment [] (listElement none "1 2 3 4 5 6"),
    segment [⟨srsDimensionAttribute, "2"⟩] (listElement none "1 2 3 4"),
    segment [⟨srsDimensionAttribute, "2"⟩] (listElement (some "1") "7 8")]], []⟩

/-- A line string in the same system. -/
def trail : Place :=
  ⟨.element (.gml "LineString") [⟨srsNameAttribute, "EPSG:4979"⟩]
    [listElement none "1 2 3 4 5 600"], []⟩

/-- What reads has a known system of three dimensions. -/
def inSpace (r : Except Error Instance) (kind : Kind) : Bool :=
  r.toOption.any fun i => i.geometry.kind == kind && i.crs.any (·.dimension == 3)

theorem exists_of_inSpace {r : Except Error Instance} {kind : Kind} (h : inSpace r kind = true) :
    ∃ i c, r = .ok i ∧ i.geometry.kind = kind ∧ i.crs = some c ∧ c.dimension = 3 := by
  cases r with
  | error => cases h
  | ok i =>
    have hi : i.geometry.kind = kind ∧ i.crs.any (·.dimension == 3) = true := by
      simpa [inSpace, Except.toOption] using h
    obtain ⟨c, hc, hthree⟩ := (Option.any_eq_true _ _).1 hi.2
    exact ⟨i, c, rfl, hi.1, hc, by simpa using hthree⟩

theorem read_divides_track :
    (∃ i a b c, read Crs.Registry.wellKnown.resolve track = .ok i ∧ i.geometry = .curve [a, b, c] ∧
      Position.Divides "1 2 3 4 5 6" 3 a.positions ∧ Position.Divides "1 2 3 4" 2 b.positions ∧
      Position.Divides "7 8" 1 c.positions) ∧
    ∃ i, read Crs.Registry.wellKnown.resolve trail = .ok i ∧
      ∀ s : Settings, (i.checkCovered s).has "CoordinateDimensionMismatch" = false := by
  constructor
  · obtain ⟨i, system, hread, hkind, hcrs, hthree⟩ :=
      exists_of_inSpace (show inSpace (read Crs.Registry.wellKnown.resolve track) .curve = true by
        decide +kernel)
    obtain ⟨hlists, hlength, -⟩ := read_divides hread
    cases hg : i.geometry with
    | point | lineString | envelope =>
      rw [hg] at hkind
      cases hkind
    | curve ss =>
      obtain ⟨a, b, c, rfl⟩ := List.length_eq_three.1 (hlength ss hg)
      obtain ⟨d, hd, ha⟩ := hlists _ _ _ (.segment hg (k := 0) rfl rfl rfl)
      obtain ⟨e, he, hb⟩ := hlists _ _ _ (.segment hg (k := 1) rfl rfl rfl)
      obtain ⟨f, hf, hc⟩ := hlists _ _ _ (.segment hg (k := 2) rfl rfl rfl)
      obtain rfl := hd.unique (dimensionInEffect_of_unstated hcrs (by decide))
      obtain rfl := he.unique (.passed rfl (.stated _ ⟨"2", rfl, rfl⟩))
      obtain rfl := hf.unique (.stated _ ⟨"1", rfl, rfl⟩)
      exact ⟨i, a, b, c, hread, hg, hthree ▸ ha, hb, hc⟩
  · obtain ⟨i, system, hread, hkind, hcrs, -⟩ :=
      exists_of_inSpace
        (show inSpace (read Crs.Registry.wellKnown.resolve trail) .lineString = true by
          decide +kernel)
    obtain ⟨-, -, hcovered⟩ := read_divides hread
    cases hg : i.geometry with
    | point | curve | envelope =>
      rw [hg] at hkind
      cases hkind
    | lineString ps =>
      refine ⟨i, hread, hcovered system hcrs (fun k q hq => ?_) fun list around ps' htaken => ?_⟩
      · rw [hg] at hq
        cases hq with
        | lineString hq => exact ⟨_, _, ps, .lineString hg rfl, List.mem_of_getElem? hq⟩
      · cases htaken with
        | lineString _ hlist =>
          cases hlist
          decide
        | segment hcurve => cases hg.symm.trans hcurve

end Instance

end GmlCheck
