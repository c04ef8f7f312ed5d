import Mathlib.Data.List.Basic
import GmlCheck.Proofs.Geometry.Conformance

/-!
# Ignored ordinates

Settings that ignore excess ordinates find in a geometry what other settings find in the same
geometry without these ordinates (`Instance.cutTo`). Only where a position lies outside of the valid
area do the first ones name all of its ordinates; `Report.cutTo` takes the ignored ones out of what
is named. `checks_ignoring` says so for the checks that look at positions in a reference system.
-/

namespace GmlCheck

/-! ## Without the ordinates behind the first ones -/

namespace Position

@[simp] theorem ordinates_truncated (p : Position) (d : Nat) :
    (p.truncated d).ordinates = p.ordinates.take d := rfl

@[simp] theorem dimension_truncated (p : Position) (d : Nat) :
    (p.truncated d).dimension = min d p.dimension :=
  List.length_take

theorem truncated_of_le {p : Position} {d : Nat} (h : p.dimension ≤ d) : p.truncated d = p := by
  rw [truncated, List.take_of_length_le h]

end Position

def Segment.cutTo (d : Nat) (s : Segment) : Segment :=
  { s with positions := s.positions.map (·.truncated d) }

/-- The geometry with the first `d` ordinates of every position. A position that has no more stays
as it is. -/
def Geometry.cutTo (d : Nat) : Geometry → Geometry
  | point p => point (p.truncated d)
  | lineString ps => lineString (ps.map (·.truncated d))
  | curve ss => curve (ss.map (Segment.cutTo d))
  | envelope lower upper => envelope (lower.truncated d) (upper.truncated d)

@[simp] theorem Geometry.kind_cutTo (d : Nat) (g : Geometry) : (g.cutTo d).kind = g.kind := by
  cases g <;> rfl

theorem Geometry.positions_cutTo (d : Nat) (g : Geometry) :
    (g.cutTo d).positions = g.positions.map (·.truncated d) := by
  cases g with
  | point | lineString | envelope => rfl
  | curve ss =>
    simp only [cutTo, positions, List.flatMap_map, List.map_flatMap]
    rfl

def Instance.cutTo (d : Nat) (i : Instance) : Instance :=
  { i with geometry := i.geometry.cutTo d }

@[simp] theorem Instance.label_cutTo (d : Nat) (i : Instance) : (i.cutTo d).label = i.label := by
  simp [label, cutTo]

/-! ## What is named of a position -/

/-- The fault with the first `d` ordinates of the position that it names. -/
def Fault.cutTo (d : Nat) : Fault → Fault
  | positionOutsideValidArea index position area =>
    positionOutsideValidArea index (position.take d) area
  | fault => fault

def Violation.cutTo (d : Nat) (v : Violation) : Violation :=
  { v with fault := v.fault.cutTo d }

def Finding.cutTo (d : Nat) : Finding → Finding
  | violated v => violated (v.cutTo d)
  | unchecked step => unchecked step

namespace Report

def cutTo (d : Nat) (r : Report) : Report :=
  { r with violations := r.violations.map (Violation.cutTo d) }

@[simp] theorem verdict_cutTo (d : Nat) (r : Report) : (r.cutTo d).verdict = r.verdict := by
  unfold verdict cutTo
  cases r.violations <;> rfl

theorem ofFindings_map_cutTo (check : String) (d : Nat) (fs : List Finding) :
    ofFindings check (fs.map (Finding.cutTo d)) = (ofFindings check fs).cutTo d := by
  have hviolation (f : Finding) :
      (f.cutTo d).violation? = f.violation?.map (Violation.cutTo d) := by
    cases f <;> rfl
  have hstep (f : Finding) : (f.cutTo d).step? = f.step? := by
    cases f <;> rfl
  simp only [ofFindings, cutTo, List.filterMap_map, List.map_filterMap, Function.comp_def,
    hviolation, hstep]

end Report

/-! ## One position -/

namespace Settings

/-- The same settings, ignoring excess ordinates. -/
def ignoring (s : Settings) : Settings := { s with truncate := true }

/-- The same settings, not ignoring any ordinate. -/
def heeding (s : Settings) : Settings := { s with truncate := false }

variable (s : Settings) {c : Crs} {p : Position}

theorem fits_ignoring : s.ignoring.fits c p = decide (c.dimension ≤ p.dimension) := by
  rw [Bool.eq_iff_iff, fits_iff_admits]
  simp only [Admits, ignoring, true_and, decide_eq_true_eq]
  omega

theorem fits_heeding : s.heeding.fits c p = decide (p.dimension = c.dimension) := by
  rw [Bool.eq_iff_iff, fits_iff_admits]
  simp [Admits, heeding]

theorem effective_ignoring : s.ignoring.effective c p = p.truncated c.dimension := by
  simp only [effective, ignoring, Bool.true_and, decide_eq_true_eq]
  split
  · rfl
  · exact (Position.truncated_of_le (by omega)).symm

theorem effective_heeding : s.heeding.effective c p = p := by
  simp [effective, heeding]

/-- A position that is too short is so with and without the ignored ordinates, and every other one
is looked up in the valid area without them. -/
theorem positionFindings_truncated (subject : String) (index : Option Nat) (c : Crs)
    (p : Position) :
    s.heeding.positionFindings subject index c (p.truncated c.dimension) =
      (s.ignoring.positionFindings subject index c p).map (Finding.cutTo c.dimension) := by
  by_cases hd : c.dimension ≤ p.dimension
  · have hfits : s.heeding.fits c (p.truncated c.dimension) = true := by
      rw [fits_heeding, Position.dimension_truncated, Nat.min_eq_left hd]
      exact decide_eq_true rfl
    have hfits' : s.ignoring.fits c p = true := by
      rw [fits_ignoring]
      exact decide_eq_true hd
    simp only [positionFindings, areaFindings, hfits, hfits', ↓reduceIte, effective_heeding,
      effective_ignoring]
    split <;> rfl
  · have hfits : s.heeding.fits c p = false := by
      rw [fits_heeding]
      exact decide_eq_false (by omega)
    have hfits' : s.ignoring.fits c p = false := by
      rw [fits_ignoring]
      exact decide_eq_false hd
    rw [Position.truncated_of_le (by omega)]
    simp only [positionFindings, dimensionFindings, hfits, hfits', Bool.false_eq_true, ↓reduceIte]
    rfl

end Settings

/-! ## Geometries -/

namespace Instance

variable (s : Settings) {i : Instance} {c : Crs}

theorem checkPoint_ignoring (hc : i.crs = some c) :
    (i.cutTo c.dimension).checkPoint s.heeding =
      (i.checkPoint s.ignoring).map (Report.cutTo c.dimension) := by
  cases hg : i.geometry with
  | point p =>
    have hcut : (i.cutTo c.dimension).geometry = .point (p.truncated c.dimension) := by
      rw [cutTo, hg, Geometry.cutTo]
    have hcrs : (i.cutTo c.dimension).crs = some c := hc
    rw [checkPoint_eq _ hcut, checkPoint_eq _ hg, pointFindings, pointFindings, hcrs, hc]
    dsimp only
    rw [s.positionFindings_truncated, Report.ofFindings_map_cutTo, label_cutTo]
    rfl
  | lineString | curve | envelope =>
    simp [checkPoint, wrongKind, cutTo, hg, Geometry.cutTo, Except.map, Geometry.kind, label]

theorem checkCovered_ignoring (hc : i.crs = some c) :
    (i.cutTo c.dimension).checkCovered s.heeding =
      (i.checkCovered s.ignoring).cutTo c.dimension := by
  have hcrs : (i.cutTo c.dimension).crs = some c := hc
  have hordinal (k : Nat) :
      ordinal? (i.cutTo c.dimension).geometry k = ordinal? i.geometry k := by
    simp [ordinal?, cutTo]
  have hpositions : (i.cutTo c.dimension).geometry.positions =
      i.geometry.positions.map (·.truncated c.dimension) := Geometry.positions_cutTo _ _
  simp only [checkCovered, hc, hcrs, label_cutTo, hordinal, hpositions,
    ← Report.ofFindings_map_cutTo, List.zipIdx_map, List.flatMap_map, List.map_flatMap,
    Prod.map_fst, Prod.map_snd, id_eq, s.positionFindings_truncated]

theorem comparedOrdinates_ignoring (c : Crs) (n : Nat) :
    comparedOrdinates s.ignoring (some c) n = min c.dimension n := by
  simp only [comparedOrdinates, Settings.ignoring, Bool.true_and, decide_eq_true_eq]
  split <;> omega

theorem comparedOrdinates_heeding (c : Crs) (n : Nat) :
    comparedOrdinates s.heeding (some c) n = n := by
  simp [comparedOrdinates, Settings.heeding]

/-- Of corners of one dimension the same ordinates are compared, and corners that are too short are
so with and without the ignored ordinates. -/
theorem envelopeFindings_truncated (subject : String) (c : Crs) {lower upper : Position}
    (h : lower.dimension = upper.dimension) :
    envelopeFindings s.heeding subject (some c) (lower.truncated c.dimension)
        (upper.truncated c.dimension) =
      envelopeFindings s.ignoring subject (some c) lower upper := by
  have hmin : min (min c.dimension upper.dimension) c.dimension =
      min c.dimension upper.dimension := by omega
  simp only [envelopeFindings, Position.dimension_truncated, Position.ordinates_truncated, h,
    ne_eq, not_true_eq_false, ↓reduceIte, comparedOrdinates_ignoring, comparedOrdinates_heeding,
    Settings.fits_ignoring, Settings.fits_heeding, decide_eq_true_eq, List.take_take, hmin]
  congr 1
  by_cases hd : c.dimension ≤ upper.dimension
  · rw [if_pos hd, if_pos (Nat.min_eq_left hd)]
  · rw [if_neg hd, Nat.min_eq_right (by omega), if_neg (by omega)]

theorem checkEnvelope_ignoring (hc : i.crs = some c)
    (hcorners : ∀ lower upper, i.geometry = .envelope lower upper →
      lower.dimension = upper.dimension) :
    (i.cutTo c.dimension).checkEnvelope s.heeding = i.checkEnvelope s.ignoring := by
  unfold checkEnvelope wrongKind
  rw [label_cutTo]
  cases hg : i.geometry with
  | envelope lower upper =>
    simp only [cutTo, hg, hc, Geometry.cutTo,
      envelopeFindings_truncated s _ c (hcorners lower upper hg)]
  | point | lineString | curve => simp [cutTo, hg, Geometry.cutTo, Geometry.kind]

/-- To ignore the ordinates beyond the dimension of the system is to check the geometry without
them. The checks of points and of all positions say the same, but for the ignored ordinates of
positions that they name, and fail for the same reason; so does the check of an envelope with
corners of one dimension, which names no position. -/
theorem checks_ignoring (hc : i.crs = some c) :
    (i.cutTo c.dimension).checkPoint s.heeding =
      (i.checkPoint s.ignoring).map (Report.cutTo c.dimension) ∧
    (i.cutTo c.dimension).checkCovered s.heeding =
      (i.checkCovered s.ignoring).cutTo c.dimension ∧
    ((∀ lower upper, i.geometry = .envelope lower upper → lower.dimension = upper.dimension) →
      (i.cutTo c.dimension).checkEnvelope s.heeding = i.checkEnvelope s.ignoring) ∧
    ∀ r : Report, (r.cutTo c.dimension).verdict = r.verdict :=
  ⟨checkPoint_ignoring s hc, checkCovered_ignoring s hc, checkEnvelope_ignoring s hc,
    Report.verdict_cutTo c.dimension⟩

/-- An envelope over the plane with heights that do not belong to it and are in no order. The upper
corner lies outside of the plane. -/
def tower : Instance := .withCrs plane <| .plain <| .envelope ⟨[0, 0, 9]⟩ ⟨[20, 1, 5]⟩

theorem checks_ignoring_tower :
    tower.crs = some plane ∧
    (tower.cutTo plane.dimension).checkCovered Settings.standard.heeding =
      (tower.checkCovered Settings.standard.ignoring).cutTo plane.dimension ∧
    (tower.checkCovered Settings.standard.ignoring).violations.map Violation.code =
      ["PositionOutsideValidArea"] ∧
    (tower.cutTo plane.dimension).checkEnvelope Settings.standard.heeding =
      tower.checkEnvelope Settings.standard.ignoring ∧
    (tower.checkEnvelope Settings.standard.ignoring).toOption.map Report.verdict = some .pass := by
  have hc : tower.crs = some plane := rfl
  have hcorners (lower upper : Position) (h : tower.geometry = .envelope lower upper) :
      lower.dimension = upper.dimension := by
    obtain ⟨hl, hu⟩ := Geometry.envelope.inj h
    calc
      lower.dimension = 3 := by rw [← hl]; rfl
      _ = upper.dimension := by rw [← hu]; rfl
  obtain ⟨-, hcovered, henvelope, -⟩ := checks_ignoring Settings.standard hc
  exact ⟨hc, hcovered, by decide +kernel, henvelope hcorners, by decide +kernel⟩

end Instance

end GmlCheck
