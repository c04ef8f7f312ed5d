import GmlCheck.Command
import GmlCheck.Proofs.Attempt
import GmlCheck.Proofs.Geometry.Conformance
import GmlCheck.Proofs.Geometry.Locality
import GmlCheck.Proofs.Geometry.Unreadable
import GmlCheck.Proofs.Settings

/-!
# What a run prints

A run that is `Ready` has arguments that make sense, settings that can be used and a document.
It prints an entry for every geometry of the document, in document order, whatever is wrong with
any of them, and ends well exactly if every entry is good. `Account` says what the entries are, and
`Entry.Written` what is written of each. A geometry bears on the entry of another one only if the
other one stands in it, has it as a segment or goes by its reference (`Result.apart`).
-/

namespace GmlCheck

open Xml

theorem Instance.exists_checkAll (s : Settings) (i : Instance) : ∃ rs, i.checkAll s = .ok rs := by
  obtain ⟨rs, hrs, -⟩ := exists_checkAll_passes_iff s i
  exact ⟨rs, hrs⟩

namespace Command

/-- The function by which geometries find their reference systems. -/
abbrev resolve : String → Option Crs := Crs.Registry.wellKnown.resolve

/-! ## Entries -/

/-- The elements of GML that are checked. -/
def IsGeometry (n : Node) : Prop :=
  ∃ name ∈ ["Point", "LineString", "Curve", "Envelope"], n.name? = some (.gml name)

namespace Entry

/-- The entry is on the geometry at a place: it tells why the geometry does not read, or
what all checks report. -/
def Tells (s : Settings) (p : Place) (e : Entry) : Prop :=
  match Instance.read resolve p with
  | .error x => e = .failed (Instance.elementLabel p.node) x
  | .ok i => ∃ rs, i.checkAll s = .ok rs ∧ e = .checked i.label rs

/-- The geometry reads and no report on it fails. -/
def Good (e : Entry) : Prop :=
  ∃ label rs, e = .checked label rs ∧ ∀ r ∈ rs, r.verdict ≠ .fail

def IsError (e : Entry) : Prop :=
  ∃ label x, e = .failed label x

/-- What is written of an entry: the label of the geometry, and either the JSON of all reports on
it or the words that tell why it does not read. -/
inductive Written : Entry → Json → Prop
  | checked (label : String) (rs : List Report) :
      Written (.checked label rs)
        (.object [("geometry", .string label), ("reports", .array (rs.map Report.toJson))])
  | failed (label : String) (reason : Unreadable) :
      Written (.failed label (.geometry reason))
        (.object [("geometry", .string label),
          ("error", .string ("geometry error: " ++ reason.message))])

/-- The label of an entry that holds reports. -/
def label? : Entry → Option String
  | checked label _ => some label
  | failed _ _ => none

theorem isError_iff_label? {e : Entry} : e.IsError ↔ e.label? = none := by
  cases e with
  | checked label rs => simp [IsError, label?]
  | failed label x => simp [IsError, label?]

theorem isGood_iff {e : Entry} : e.isGood = true ↔ e.Good := by
  cases e with
  | checked label rs => simp [isGood, Good]
  | failed label x => simp [isGood, Good]

variable {s : Settings} {p p' : Place} {e e' : Entry}

theorem tells_entry (s : Settings) (p : Place) : Tells s p (entry s resolve p) := by
  unfold Tells entry
  cases Instance.read resolve p with
  | error x => rfl
  | ok i =>
    obtain ⟨rs, hrs⟩ := i.exists_checkAll s
    refine ⟨rs, hrs, ?_⟩
    simp [hrs]

theorem Tells.unique (h : Tells s p e) (h' : Tells s p e') : e = e' := by
  unfold Tells at h h'
  cases hr : Instance.read resolve p with
  | error x =>
    rw [hr] at h h'
    exact h.trans h'.symm
  | ok i =>
    rw [hr] at h h'
    obtain ⟨rs, hrs, rfl⟩ := h
    obtain ⟨rs', hrs', rfl⟩ := h'
    cases hrs.symm.trans hrs'
    rfl

theorem Tells.isError_iff (h : Tells s p e) :
    e.IsError ↔ ∃ x, Instance.read resolve p = .error x := by
  unfold Tells at h
  cases hr : Instance.read resolve p with
  | error x =>
    rw [hr] at h
    exact iff_of_true ⟨_, _, h⟩ ⟨x, rfl⟩
  | ok i =>
    rw [hr] at h
    obtain ⟨rs, -, rfl⟩ := h
    exact iff_of_false nofun nofun

theorem Tells.written (h : Tells s p e) : e.Written e.toJson := by
  unfold Tells at h
  cases hr : Instance.read resolve p with
  | error x =>
    rw [hr] at h
    obtain ⟨reason, rfl⟩ := Instance.read_failsOnly resolve p x hr
    rw [h]
    exact .failed _ _
  | ok i =>
    rw [hr] at h
    obtain ⟨rs, -, rfl⟩ := h
    exact .checked _ _

theorem tells_congr (hread : Instance.read resolve p' = Instance.read resolve p)
    (hlabel : Instance.elementLabel p'.node = Instance.elementLabel p.node) :
    Tells s p' e ↔ Tells s p e := by
  unfold Tells
  rw [hread, hlabel]

theorem label?_entry (s : Settings) (p : Place) :
    (entry s resolve p).label? = (Instance.read resolve p).toOption.map Instance.label := by
  unfold entry
  cases Instance.read resolve p with
  | error x => rfl
  | ok i =>
    obtain ⟨rs, hrs⟩ := i.exists_checkAll s
    simp [hrs, label?, Except.toOption]

end Entry

/-! ## All geometries of a document -/

/-- Every geometry of the document, by the path that leads to it, with its entry. -/
structure Account (s : Settings) (document : Node) (told : List (List Nat × Entry)) : Prop where
  /-- Document order; no geometry has two entries. -/
  inOrder : told.Pairwise fun x y => x.1 < y.1
  complete : ∀ q, q ∈ told.map Prod.fst ↔ ∃ p, document.placeAt? q = some p ∧ IsGeometry p.node
  tells : ∀ q e, (q, e) ∈ told → ∀ p, document.placeAt? q = some p → e.Tells s p
  isError_iff : ∀ q e, (q, e) ∈ told → ∀ p, document.placeAt? q = some p →
    (e.IsError ↔ ∃ x, Instance.read resolve p = .error x)
  labels : told.filterMap (·.2.label?) =
    (Instance.readAll resolve (told.filterMap (document.placeAt? ·.1))).map Instance.label

theorem isGeometry_iff {n : Node} :
    (Geometry.Kind.all.map Geometry.Kind.elementName).any n.hasName = true ↔ IsGeometry n := by
  simp [IsGeometry, Node.hasName, Geometry.Kind.all, Geometry.Kind.elementName, Geometry.Kind.text]

theorem IsGeometry.exists_kind {n : Node} (h : IsGeometry n) :
    ∃ kind : Geometry.Kind, n.hasName kind.elementName = true := by
  obtain ⟨name, hname, hn⟩ := List.any_eq_true.1 (isGeometry_iff.2 h)
  obtain ⟨kind, -, rfl⟩ := List.mem_map.1 hname
  exact ⟨kind, hn⟩

/-- The entries of a document are an account of it. -/
theorem exists_account (s : Settings) (document : Node) :
    ∃ told, Account s document told ∧ told.map Prod.snd = entries s document := by
  obtain ⟨found, hplaces, hordered, hmem⟩ := document.exists_located
    fun p => (Geometry.Kind.all.map Geometry.Kind.elementName).any p.node.hasName
  have hfound {q : List Nat} {e : Entry}
      (h : (q, e) ∈ found.map (Prod.map id (entry s resolve))) {p : Place}
      (hp : document.placeAt? q = some p) : e = entry s resolve p := by
    obtain ⟨⟨q', p'⟩, hin, heq⟩ := List.mem_map.1 h
    cases heq
    cases hp.symm.trans ((hmem _ _).1 hin).1
    rfl
  refine ⟨found.map (Prod.map id (entry s resolve)), ?_, ?_⟩
  · constructor
    case inOrder => exact List.pairwise_map.2 hordered
    case complete =>
      intro q
      have hpaths : (found.map (Prod.map id (entry s resolve))).map Prod.fst =
          found.map Prod.fst := by
        rw [List.map_map]
        rfl
      rw [hpaths, List.mem_map]
      simp only [Prod.exists, exists_and_right, exists_eq_right, hmem, isGeometry_iff]
    case tells =>
      intro q e h p hp
      rw [hfound h hp]
      exact Entry.tells_entry s p
    case isError_iff =>
      intro q e h p hp
      rw [hfound h hp]
      exact (Entry.tells_entry s p).isError_iff
    case labels =>
      have hsame : (found.map (Prod.map id (entry s resolve))).filterMap (document.placeAt? ·.1) =
          found.map Prod.snd := by
        rw [List.filterMap_map, ← List.filterMap_eq_map]
        exact List.filterMap_congr fun t ht => ((hmem t.1 t.2).1 ht).1
      rw [hsame, List.filterMap_map, Instance.readAll, List.filterMap_map, List.map_filterMap]
      exact List.filterMap_congr fun t _ => Entry.label?_entry s t.2
  · rw [entries, findElements, ← hplaces, List.map_map, List.map_map]
    rfl

theorem Account.mem_iff {s : Settings} {document : Node} {told : List (List Nat × Entry)}
    (h : Account s document told) {q : List Nat} {e : Entry} :
    (q, e) ∈ told ↔ ∃ p, document.placeAt? q = some p ∧ IsGeometry p.node ∧ e.Tells s p := by
  constructor
  · intro hin
    obtain ⟨p, hp, hgeometry⟩ := (h.complete q).1 (List.mem_map_of_mem hin)
    exact ⟨p, hp, hgeometry, h.tells q e hin p hp⟩
  · rintro ⟨p, hp, hgeometry, htells⟩
    obtain ⟨⟨q', e'⟩, hin, rfl⟩ := List.mem_map.1 ((h.complete q).2 ⟨p, hp, hgeometry⟩)
    rwa [htells.unique (h.tells _ e' hin p hp)]

variable {s : Settings} {document document' : Node} {told told' : List (List Nat × Entry)}

theorem Account.entry_mem (h : Account s document told) {q : List Nat} {p : Place}
    (hp : document.placeAt? q = some p) (hgeometry : IsGeometry p.node) :
    (q, entry s resolve p) ∈ told :=
  h.mem_iff.2 ⟨p, hp, hgeometry, Entry.tells_entry s p⟩

/-- An entry depends on the element and the reference in effect there, and on nothing else. -/
theorem Account.mem_iff_of_same (h : Account s document told) (h' : Account s document' told')
    {q q' : List Nat} {p p' : Place} (hp : document.placeAt? q = some p)
    (hp' : document'.placeAt? q' = some p') (hnode : p'.node = p.node)
    (href : p'.crsReference? = p.crsReference?) (e : Entry) : (q, e) ∈ told ↔ (q', e) ∈ told' := by
  have htells : e.Tells s p' ↔ e.Tells s p :=
    Entry.tells_congr (Instance.read_congr resolve hnode href) (by rw [hnode])
  rw [h.mem_iff, h'.mem_iff]
  simp only [hp, hp', Option.some.injEq, exists_eq_left', hnode, htells]

/-- The geometry to which the path leads is a segment of the curve to which `q` leads. -/
def IsSegmentOf (document : Node) (path q : List Nat) : Prop :=
  ∃ p way, document.placeAt? q = some p ∧ path = q ++ way ∧ p.node.HasSegmentAt way

/-- The path leads in both documents to a place where the same reference is in effect. -/
def SameReferenceAt (document document' : Node) (q : List Nat) : Prop :=
  ∀ p p', document.placeAt? q = some p → document'.placeAt? q = some p' →
    p'.crsReference? = p.crsReference?

/-- However a geometry is altered, the entries of the others that do not stand in it stay as they are,
but for a curve of which it is a segment, and for geometries that went by its reference, the one on
an envelope that bounds them, and now go by another. -/
theorem Account.mem_iff_of_altered (h : Account s document told) (h' : Account s document' told')
    {path : List Nat} (hd : Node.Altered path document document') {q : List Nat}
    (hin : ¬ path <+: q) (hsegment : ¬ IsSegmentOf document path q)
    (hsame : document.BoundsAbove path q → SameReferenceAt document document' q) (e : Entry) :
    (q, e) ∈ told ↔ (q, e) ∈ told' := by
  rw [h.mem_iff, h'.mem_iff]
  have hrel := hd.placeAt? hin
  generalize hx : document.placeAt? q = x, hy : document'.placeAt? q = y at hrel ⊢
  cases hrel with
  | none => simp
  | @some p p' halike =>
    have href : p'.crsReference? = p.crsReference? := by
      by_cases hbound : document.BoundsAbove path q
      · exact hsame hbound p p' hx hy
      · refine (halike.alike hbound).crsReference? ?_
        rcases halike.node with hnode | ⟨k, rest, -, hnode⟩
        · rw [hnode]
        · exact hnode.attribute?_eq _
    simp only [Option.some.injEq, exists_eq_left']
    rcases halike.node with hnode | ⟨k, rest, hpath, hnode⟩
    · rw [hnode]
      have hread := Instance.read_congr resolve hnode href
      exact and_congr_right fun _ => (Entry.tells_congr hread (by rw [hnode])).symm
    · have hgeometry : IsGeometry p'.node ↔ IsGeometry p.node := by
        simp only [IsGeometry, hnode.name?_eq]
      have hway : ¬ p.node.HasSegmentAt (k :: rest) := fun hs =>
        hsegment ⟨p, k :: rest, hx, hpath, hs⟩
      rw [hgeometry]
      refine and_congr_right fun hp => (Entry.tells_congr ?_ hnode.elementLabel_eq).symm
      exact Instance.read_eq_of_altered resolve hnode href hway hp.exists_kind

/-! ## Runs -/

/-- The settings in effect, when those of the file or the standard ones are `base`. -/
def Options.effective (o : Options) (base : Settings) : Settings :=
  { base with
    truncate := base.truncate || o.truncate
    tolerance := o.tolerance.getD base.tolerance }

/-- The file that the options name gives the settings `s`, which can be used; without a file they
are the standard ones. -/
def Options.Base (o : Options) (read : String → Option String) (s : Settings) : Prop :=
  match o.settings with
  | none => s = .standard
  | some name =>
    ∃ text j, read name = some text ∧ Json.parse? text = some j ∧ Settings.Denotes j s ∧ s.Usable

/-- What a run needs to check anything. -/
structure Ready (arguments : List String) (read : String → Option String) (o : Options)
    (base : Settings) (document : Node) : Prop where
  understood : options? arguments = some o
  given : o.Base read base
  usable : (o.effective base).Usable
  wellFormed : ∃ text, read o.file = some text ∧ Xml.parse? text = some document

/-- The texts of the items between brackets, set out as the options ask for, and a line feed. -/
def Options.written (o : Options) (items : List Json) : String :=
  let style := if o.pretty then Json.Style.pretty else .compact
  style.enclose "[" "]" 0 (items.map (Json.render style 1)) ++ "\n"

theorem Options.written_eq (o : Options) (items : List Json) :
    o.written items =
      (if o.pretty then (Json.array items).pretty else (Json.array items).compact) ++ "\n" := by
  unfold written Json.pretty Json.compact
  cases o.pretty <;> simp [Json.render_array]

theorem Options.Base.usable {o : Options} {read : String → Option String} {s : Settings}
    (h : o.Base read s) : s.Usable := by
  unfold Options.Base at h
  cases hs : o.settings with
  | none =>
    rw [hs] at h
    exact h ▸ Settings.usable_standard
  | some name =>
    rw [hs] at h
    obtain ⟨_, _, -, -, -, husable⟩ := h
    exact husable

theorem givenSettings_eq_ok_iff {o : Options} {read : String → Option String} {s : Settings} :
    givenSettings o read = .ok s ↔ o.Base read s := by
  unfold givenSettings Options.Base
  cases o.settings with
  | none => simp [eq_comm]
  | some name =>
    dsimp only
    cases read name with
    | none => simp
    | some text => simp [Attempt.mapError_eq_ok_iff, Settings.read_eq_ok_iff]

theorem settingsFor_eq_ok_iff {o : Options} {read : String → Option String} {s : Settings} :
    settingsFor o read = .ok s ↔
      ∃ base, o.Base read base ∧ (o.effective base).Usable ∧ s = o.effective base := by
  unfold settingsFor
  rw [Attempt.bind_eq_ok_iff]
  refine exists_congr fun base => ?_
  rw [givenSettings_eq_ok_iff]
  refine and_congr_right fun hb => ?_
  cases ht : o.tolerance with
  | none =>
    have heffective : o.effective base = { base with truncate := base.truncate || o.truncate } := by
      simp [Options.effective, ht]
    have husable : (o.effective base).Usable := by
      rw [heffective]
      exact ⟨hb.usable.number, hb.usable.bounded, hb.usable.notNegative⟩
    rw [← heffective, and_iff_right husable]
    simp [eq_comm]
  | some x =>
    have heffective : o.effective base =
        { base with truncate := base.truncate || o.truncate, tolerance := x } := by
      simp [Options.effective, ht]
    rw [Attempt.mapError_eq_ok_iff, Settings.validate_eq_ok_iff, heffective]
    exact and_comm

theorem checkFile_eq_ok_iff {o : Options} {read : String → Option String} {out : String}
    {good : Bool} :
    checkFile o read = .ok (out, good) ↔ ∃ s document, settingsFor o read = .ok s ∧
      (∃ text, read o.file = some text ∧ Xml.parse? text = some document) ∧
      out = o.written ((entries s document).map Entry.toJson) ∧
      good = (entries s document).all Entry.isGood := by
  unfold checkFile
  rw [Attempt.bind_eq_ok_iff]
  refine exists_congr fun s => ?_
  cases read o.file with
  | none => simp
  | some text =>
    cases hparse : Xml.parse? text with
    | none => simp [hparse]
    | some document => simp [hparse, Options.written_eq, Json.list, eq_comm (a := out), eq_comm (a := good)]

theorem run_eq_printed_iff {arguments : List String} {read : String → Option String} {out : String}
    {good : Bool} :
    run arguments read = .printed out good ↔
      ∃ o base document, Ready arguments read o base document ∧
        out = o.written ((entries (o.effective base) document).map Entry.toJson) ∧
        good = (entries (o.effective base) document).all Entry.isGood := by
  have hrun : run arguments read = .printed out good ↔
      ∃ o, options? arguments = some o ∧ checkFile o read = .ok (out, good) := by
    unfold run
    cases options? arguments with
    | none => simp
    | some o =>
      simp only [Option.some.injEq, exists_eq_left']
      rcases checkFile o read with r | ⟨out', good'⟩ <;> simp
  rw [hrun]
  constructor
  · rintro ⟨o, ho, hcheck⟩
    obtain ⟨s, document, hs, hdocument, hout, hgood⟩ := checkFile_eq_ok_iff.1 hcheck
    obtain ⟨base, hbase, husable, rfl⟩ := settingsFor_eq_ok_iff.1 hs
    exact ⟨o, base, document, ⟨ho, hbase, husable, hdocument⟩, hout, hgood⟩
  · rintro ⟨o, base, document, h, hout, hgood⟩
    have hs : settingsFor o read = .ok (o.effective base) :=
      settingsFor_eq_ok_iff.2 ⟨base, h.given, h.usable, rfl⟩
    exact ⟨o, h.understood, checkFile_eq_ok_iff.2 ⟨_, document, hs, h.wellFormed, hout, hgood⟩⟩

theorem status_printed_eq_zero_iff {out : String} {good : Bool} :
    (Outcome.printed out good).status = 0 ↔ good = true := by
  cases good <;> simp [Outcome.status]

/-- What a run that is ready comes to. -/
structure Result (arguments : List String) (read : String → Option String) (o : Options)
    (s : Settings) (document : Node) (told : List (List Nat × Entry)) : Prop where
  account : Account s document told
  /-- One array is printed. It holds what is written of every entry, in the order of the entries. -/
  printed : ∃ items good, run arguments read = .printed (o.written items) good ∧
    List.Forall₂ (fun t item => t.2.Written item) told items
  status_eq_zero_iff : (run arguments read).status = 0 ↔ ∀ t ∈ told, t.2.Good
  /-- An entry depends on the element and the reference in effect there. Nothing else in a document
  has to do with it. -/
  own : ∀ document' told' q q' p p', Account s document' told' → document.placeAt? q = some p →
    document'.placeAt? q' = some p' → p'.node = p.node → p'.crsReference? = p.crsReference? →
    ∀ e, (q, e) ∈ told ↔ (q', e) ∈ told'
  /-- However a geometry is altered, the entries of the others that do not stand in it stay as they
  are, but for a curve of which it is a segment, and for geometries that went by its reference, the
  one on an envelope that bounds them, and now go by another. -/
  apart : ∀ path document' told', Node.Altered path document document' →
    Account s document' told' → ∀ q, ¬ path <+: q → ¬ IsSegmentOf document path q →
      (document.BoundsAbove path q → SameReferenceAt document document' q) →
        ∀ e, (q, e) ∈ told ↔ (q, e) ∈ told'

/-- Whatever is printed comes of a run that is ready, and such a run has its result. -/
theorem run_result (arguments : List String) (read : String → Option String) :
    (∀ out good, run arguments read = .printed out good →
      ∃ o base document, Ready arguments read o base document) ∧
    ∀ o base document, Ready arguments read o base document →
      ∃ told, Result arguments read o (o.effective base) document told := by
  constructor
  · intro out good h
    obtain ⟨o, base, document, hready, -⟩ := run_eq_printed_iff.1 h
    exact ⟨o, base, document, hready⟩
  · intro o base document hready
    obtain ⟨told, haccount, htold⟩ := exists_account (o.effective base) document
    have hrun : run arguments read =
        .printed (o.written ((told.map Prod.snd).map Entry.toJson))
          ((told.map Prod.snd).all Entry.isGood) :=
      run_eq_printed_iff.2 ⟨o, base, document, hready, by rw [htold], by rw [htold]⟩
    refine ⟨told, haccount, ⟨_, _, hrun, ?_⟩, ?_, ?_, ?_⟩
    · rw [List.map_map, List.forall₂_map_right_iff, List.forall₂_same]
      intro t ht
      obtain ⟨p, -, -, htells⟩ := haccount.mem_iff.1 ht
      exact htells.written
    · rw [hrun, status_printed_eq_zero_iff, List.all_eq_true, List.forall_mem_map]
      simp only [Entry.isGood_iff]
    · intro document' told' q q' p p' h' hp hp' hnode href
      exact haccount.mem_iff_of_same h' hp hp' hnode href
    · intro path document' told' hd h' q hin hsegment hsame e
      exact haccount.mem_iff_of_altered h' hd hin hsegment hsame e

/-- A point that stands at the ordinates in a text. -/
def pointAt (position : String) : Node :=
  .element (.gml "Point") [] [.element (.gml "pos") [] [.text position]]

/-- Two points in one system; the position of the first one is given. -/
def twoPoints (position : String) : Node :=
  .document [.element (.gml "a") [⟨.bare "srsName", "EPSG:4326"⟩]
    [pointAt position, pointAt "1 2 3"]]

/-- One file, in which the first of two points does not read. -/
def surveyFiles : String → Option String
  | "a.gml" => some ("<a xmlns='http://www.opengis.net/gml/3.2' srsName='EPSG:4326'>" ++
      "<Point><pos>1 x</pos></Point><Point><pos>1 2 3</pos></Point></a>")
  | _ => none

def surveyOptions : Options := ⟨"a.gml", none, true, some 0.5, false⟩

set_option maxRecDepth 10000 in
theorem ready_survey : Ready ["geometry", "a.gml", "--truncate", "--tolerance", "0.5"] surveyFiles
    surveyOptions .standard (twoPoints "1 x") where
  understood := rfl
  given := rfl
  usable := ⟨by decide +kernel, by decide +kernel, by decide +kernel⟩
  wellFormed := ⟨_, rfl, rfl⟩

theorem altered_twoPoints : Node.Altered [0, 0] (twoPoints "1 x") (twoPoints "1 2") :=
  .child rfl (.child rfl (.geometry .point [] [] _ _))

theorem run_result_survey :
    Ready ["geometry", "a.gml", "--truncate", "--tolerance", "0.5"] surveyFiles
      surveyOptions .standard (twoPoints "1 x") ∧
    (∃ told, Result ["geometry", "a.gml", "--truncate", "--tolerance", "0.5"] surveyFiles
      surveyOptions (surveyOptions.effective .standard) (twoPoints "1 x") told ∧
      ∀ told', Account (surveyOptions.effective .standard) (twoPoints "1 2") told' →
        ∀ e, ([0, 1], e) ∈ told ↔ ([0, 1], e) ∈ told') ∧
    (run ["geometry", "a.gml", "--truncate", "--tolerance", "0.5"] surveyFiles).status = 1 := by
  obtain ⟨told, hresult⟩ := (run_result _ _).2 _ _ _ ready_survey
  refine ⟨ready_survey, ⟨told, hresult, fun told' h' => ?_⟩, by decide +kernel⟩
  refine hresult.apart [0, 0] _ told' altered_twoPoints h' [0, 1] (by decide) ?_ ?_
  · rintro ⟨_, _, _, h, _⟩
    cases h
  · intro _ p p' hp hp'
    cases hp
    cases hp'
    rfl

/-- A curve with one segment, a line string through the positions in a text. -/
def chain (positions : String) : Node :=
  .document [.element (.gml "a") [⟨.bare "srsName", "EPSG:4326"⟩]
    [.element (.gml "Curve") [] [.element (.gml "segments") []
      [.element (.gml "LineString") [] [.element (.gml "posList") [] [.text positions]]]]]]

/-- A point that goes by the reference of an envelope that bounds it. -/
def enclosed (srsName : String) : Node :=
  .document [.element (.gml "a") []
    [.element (.gml "boundedBy") [] [.element (.gml "Envelope") [⟨.bare "srsName", srsName⟩]
      [.element (.gml "lowerCorner") [] [.text "0 0"],
        .element (.gml "upperCorner") [] [.text "2 2"]]],
      pointAt "1 1"]]

/-- A line string in a curve, and an envelope that bounds a point, change the entry of the other
one: the curve does not read if its segment does not, and the point goes by an unknown reference if
the envelope does. -/
theorem entries_of_others_changed :
    (Node.Altered [0, 0, 0, 0] (chain "0 0 1 1") (chain "0 x") ∧
      ∃ told told', Account .standard (chain "0 0 1 1") told ∧
        Account .standard (chain "0 x") told' ∧
        ∃ e e', ([0, 0], e) ∈ told ∧ e.Good ∧ ([0, 0], e') ∈ told' ∧ e'.IsError) ∧
    Node.Altered [0, 0, 0] (enclosed "EPSG:4326") (enclosed "EPSG:99") ∧
      ∃ told told', Account .standard (enclosed "EPSG:4326") told ∧
        Account .standard (enclosed "EPSG:99") told' ∧
        ∃ e e', ([0, 1], e) ∈ told ∧ e.Good ∧ ([0, 1], e') ∈ told' ∧ ¬ e'.IsError ∧ ¬ e'.Good := by
  constructor
  · refine ⟨.child rfl (.child rfl (.child rfl (.child rfl (.geometry .lineString [] [] _ _)))), ?_⟩
    obtain ⟨told, h, -⟩ := exists_account .standard (chain "0 0 1 1")
    obtain ⟨told', h', -⟩ := exists_account .standard (chain "0 x")
    refine ⟨told, told', h, h', _, _, h.entry_mem rfl ⟨"Curve", by decide, rfl⟩, ?_,
      h'.entry_mem rfl ⟨"Curve", by decide, rfl⟩, ?_⟩
    · rw [← Entry.isGood_iff]
      decide +kernel
    · rw [Entry.isError_iff_label?]
      decide +kernel
  · refine ⟨.child rfl (.child rfl (.child rfl (.geometry .envelope _ _ _ _))), ?_⟩
    obtain ⟨told, h, -⟩ := exists_account .standard (enclosed "EPSG:4326")
    obtain ⟨told', h', -⟩ := exists_account .standard (enclosed "EPSG:99")
    refine ⟨told, told', h, h', _, _, h.entry_mem rfl ⟨"Point", by decide, rfl⟩, ?_,
      h'.entry_mem rfl ⟨"Point", by decide, rfl⟩, ?_, ?_⟩
    · rw [← Entry.isGood_iff]
      decide +kernel
    · rw [Entry.isError_iff_label?]
      decide +kernel
    · rw [← Entry.isGood_iff]
      decide +kernel

end Command

end GmlCheck
