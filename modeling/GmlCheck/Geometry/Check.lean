import GmlCheck.Geometry.Instance
import GmlCheck.Report.Basic
import GmlCheck.Settings

/-!
# Checks of geometries

Each check lists its findings on an instance. A check that is given a geometry
of another kind fails; it does not report. `checkAll` runs the checks that apply
to the kind of geometry.
-/

namespace GmlCheck

namespace Settings

/-! ## One position in a reference system -/

/-- The dimension of a position, or the part of it that counts, is that of the system. -/
def fits (s : Settings) (c : Crs) (p : Position) : Bool :=
  p.dimension == c.dimension || (s.truncate && c.dimension < p.dimension)

/-- The part of a position that counts in a system. -/
def effective (s : Settings) (c : Crs) (p : Position) : Position :=
  if s.truncate && c.dimension < p.dimension then p.truncated c.dimension else p

def dimensionFindings (s : Settings) (subject : String) (index : Option Nat) (c : Crs)
    (p : Position) : List Finding :=
  if s.fits c p then []
  else [.violated ⟨.coordinateDimensionMismatch index c.dimension p.dimension, subject⟩]

/-- The violation names all ordinates, the ignored ones too. -/
def areaFindings (s : Settings) (subject : String) (index : Option Nat) (c : Crs)
    (p : Position) : List Finding :=
  if c.contains (s.effective c p) then []
  else [.violated ⟨.positionOutsideValidArea index p.ordinates c.areaText, subject⟩]

/-- The position has as many ordinates as the system has axes. -/
def checkDimension (s : Settings) (subject : String) (p : Position) (c : Crs) : Report :=
  .ofFindings "coordinate dimension" (s.dimensionFindings subject none c p)

/-- The position lies in the valid area of the system. -/
def checkArea (s : Settings) (subject : String) (p : Position) (c : Crs) : Report :=
  .ofFindings "domain of validity" (s.areaFindings subject none c p)

/-- A position of the wrong dimension is not looked up in the valid area. -/
def positionFindings (s : Settings) (subject : String) (index : Option Nat) (c : Crs)
    (p : Position) : List Finding :=
  if s.fits c p then s.areaFindings subject index c p
  else
    s.dimensionFindings subject index c p ++
      [.unchecked ("domain of validity" ++ index.elim "" fun i => s!" [{i}]")]

end Settings

namespace Instance

/-! ## Reference system -/

def crsFindings (i : Instance) : List Finding :=
  if i.crs.isSome then [] else [.violated ⟨.unknownCrs i.srsName, i.label⟩]

/-- The instance has a known reference system. -/
def checkCrs (i : Instance) : Report :=
  .ofFindings "CRS reference" i.crsFindings

def wrongKind (i : Instance) (expected : String) : Error :=
  .precondition (.wrongGeometry expected i.geometry.kind.text) (some i.label)

/-! ## Points -/

/-- The position of a point has the right dimension and lies in the valid area. -/
def checkPoint (s : Settings) (i : Instance) : Except Error Report :=
  match i.geometry with
  | .point p =>
    let report := Report.empty "point position"
    .ok <|
      match i.crs with
      | none => (report.merge i.checkCrs).markUnchecked "position"
      | some c =>
        let dimension := s.checkDimension i.label p c
        let report := report.merge dimension
        if dimension.isPass then report.merge (s.checkArea i.label p c)
        else report.markUnchecked "domain of validity"
  | _ => .error (i.wrongKind "Point")

/-! ## Envelopes -/

/-- How many ordinates of a corner are compared. -/
def comparedOrdinates (s : Settings) (crs : Option Crs) (n : Nat) : Nat :=
  match crs with
  | none => n
  | some c => if s.truncate && c.dimension < n then c.dimension else n

/-- Every ordinate below, in strict order; not-a-number is in no order. -/
def orderFindings (subject : String) (lower upper : List Float) : List Finding :=
  (lower.zip upper).zipIdx.filterMap fun ((l, u), k) =>
    if l < u then none else some (.violated ⟨.invalidEnvelopeOrdering k l u, subject⟩)

def envelopeFindings (s : Settings) (subject : String) (crs : Option Crs)
    (lower upper : Position) : List Finding :=
  if lower.dimension ≠ upper.dimension then
    [.violated ⟨.dimensionMismatch "upperCorner" lower.dimension upper.dimension, subject⟩,
      .unchecked "corner ordering"]
  else
    let inCrs := match crs with
      | none => []
      | some c =>
        if s.fits c lower then []
        else [.violated
          ⟨.dimensionMismatch ("CRS " ++ c.identifier) c.dimension lower.dimension, subject⟩]
    let n := comparedOrdinates s crs lower.dimension
    inCrs ++ orderFindings subject (lower.ordinates.take n) (upper.ordinates.take n)

/-- The lower corner is below the upper one, in every ordinate. -/
def checkEnvelope (s : Settings) (i : Instance) : Except Error Report :=
  match i.geometry with
  | .envelope lower upper =>
    .ok <| .ofFindings "envelope ordering" <| envelopeFindings s i.label i.crs lower upper
  | _ => .error (i.wrongKind "Envelope")

/-! ## Curves -/

/-- The ends that meet between two segments, if both are interpreted and have positions. -/
def joint? (a b : Segment) : Option (Position × Position) :=
  if a.interpolation.isSupported && b.interpolation.isSupported then
    match a.last?, b.first? with
    | some p, some q => some (p, q)
    | _, _ => none
  else none

/-- What is found between segment `k` and the next one. -/
def jointFindings (tolerance : Float) (subject : String) (k : Nat) (a b : Segment) : List Finding :=
  match joint? a b with
  | none => [.unchecked s!"segments {k} and {k + 1}"]
  | some (p, q) =>
    if p.near tolerance q then []
    else [.violated ⟨.segmentsNotConnected k p.ordinates q.ordinates, subject⟩]

def connectionFindings (tolerance : Float) (subject : String) (ss : List Segment) : List Finding :=
  if ss.isEmpty then [.violated ⟨.noSegments, subject⟩]
  else (ss.zip ss.tail).zipIdx.flatMap fun ((a, b), k) => jointFindings tolerance subject k a b

/-- A curve has segments, and each one starts where the one before it ends. -/
def checkConnected (s : Settings) (i : Instance) : Except Error Report :=
  match i.geometry with
  | .curve ss =>
    .ok <| .ofFindings "curve segments connected" <| connectionFindings s.tolerance i.label ss
  | _ => .error (i.wrongKind "Curve")

def segmentFindings (subject : String) (k : Nat) (a : Segment) : List Finding :=
  match a.interpolation.minimum? with
  | none => [.unchecked s!"segment {k}"]
  | some required =>
    if required ≤ a.positions.length then []
    else [.violated ⟨.insufficientCoordinates (some k) required a.positions.length, subject⟩]

/-- A line string, and every segment of a curve, has the positions that it needs. -/
def checkLength (i : Instance) : Except Error Report :=
  let report (fs : List Finding) : Except Error Report := .ok (.ofFindings "segment length" fs)
  match i.geometry with
  | .lineString ps =>
    report <|
      if 2 ≤ ps.length then []
      else [.violated ⟨.insufficientCoordinates none 2 ps.length, i.label⟩]
  | .curve ss => report <| ss.zipIdx.flatMap fun (a, k) => segmentFindings i.label k a
  | _ => .error (i.wrongKind "Curve or LineString")

/-! ## All positions -/

/-- The number by which findings refer to a position; the one of a point has none. -/
def ordinal? (g : Geometry) (k : Nat) : Option Nat :=
  if g.kind = .point then none else some k

/-- Every position has the right dimension and lies in the valid area. -/
def checkCovered (s : Settings) (i : Instance) : Report :=
  .ofFindings "covered by valid area" <|
    match i.crs with
    | none => i.crsFindings ++ [.unchecked "positions"]
    | some c =>
      i.geometry.positions.zipIdx.flatMap fun (p, k) =>
        s.positionFindings i.label (ordinal? i.geometry k) c p

/-- The checks that apply to the kind of geometry, in order. -/
def checkAll (s : Settings) (i : Instance) : Except Error (List Report) := do
  match i.geometry with
  | .point _ => return [i.checkCrs, ← i.checkPoint s]
  | .lineString _ => return [i.checkCrs, ← i.checkLength, i.checkCovered s]
  | .curve _ => return [i.checkCrs, ← i.checkLength, ← i.checkConnected s, i.checkCovered s]
  | .envelope _ _ => return [i.checkCrs, ← i.checkEnvelope s, i.checkCovered s]

end Instance

end GmlCheck
