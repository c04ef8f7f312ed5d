import GmlCheck.Proofs.Geometry.Truncation
import GmlCheck.Proofs.Text

/-!
# What is said of the positions of a geometry

Positions are counted through the whole geometry (`Geometry.At`). The check of all positions has
one violation at most for each: the wrong dimension, or else a place outside of the valid area
(`Settings.Faults`). For a point it says what the check of points says. In a system with bounds for
its axes the valid area alone decides there, because it holds no position of the wrong dimension.
-/

namespace GmlCheck

/-- A member of a joined list is found behind all members of the lists in front of its own. -/
theorem getElem?_flatMap_eq_some_iff {α β : Type} {f : α → List β} {as : List α} {k : Nat} {b : β} :
    (as.flatMap f)[k]? = some b ↔ ∃ before a after j, as = before ++ a :: after ∧
      (f a)[j]? = some b ∧ k = (before.flatMap f).length + j := by
  constructor
  · intro h
    induction as generalizing k with
    | nil => cases h
    | cons a as ih =>
      rw [List.flatMap_cons, List.getElem?_append] at h
      split at h
      · exact ⟨[], a, as, k, rfl, h, (Nat.zero_add k).symm⟩
      · obtain ⟨before, a', after, j, rfl, hb, hk⟩ := ih h
        refine ⟨a :: before, a', after, j, rfl, hb, ?_⟩
        rw [List.flatMap_cons, List.length_append]
        omega
  · rintro ⟨before, a, after, j, rfl, hb, rfl⟩
    obtain ⟨hj, -⟩ := List.getElem?_eq_some_iff.1 hb
    rw [List.flatMap_append, List.flatMap_cons,
      List.getElem?_append_right (Nat.le_add_right _ _), Nat.add_sub_cancel_left,
      List.getElem?_append_left hj, hb]

namespace Geometry

/-- The position has the number `k`, counted through all segments of a curve and from the lower to
the upper corner of an envelope. -/
inductive At : Geometry → Nat → Position → Prop where
  | point (p : Position) : At (point p) 0 p
  | lineString {ps : List Position} {k : Nat} {p : Position} : ps[k]? = some p →
      At (lineString ps) k p
  | curve (before : List Segment) {a : Segment} (after : List Segment) {k : Nat} {p : Position} :
      a.positions[k]? = some p →
      At (curve (before ++ a :: after)) ((before.flatMap Segment.positions).length + k) p
  | lower (lower upper : Position) : At (envelope lower upper) 0 lower
  | upper (lower upper : Position) : At (envelope lower upper) 1 upper

theorem positions_eq_some_iff {g : Geometry} {k : Nat} {p : Position} :
    g.positions[k]? = some p ↔ g.At k p := by
  cases g with
  | point q =>
    rw [positions, List.getElem?_singleton]
    constructor
    · intro h
      split at h
      · next hk =>
        cases h
        exact hk ▸ .point p
      · cases h
    · rintro ⟨⟩
      rfl
  | lineString ps =>
    refine ⟨.lineString, ?_⟩
    rintro ⟨⟩
    next h => exact h
  | curve ss =>
    rw [positions, getElem?_flatMap_eq_some_iff]
    constructor
    · rintro ⟨before, a, after, j, rfl, hp, rfl⟩
      exact .curve before after hp
    · rintro ⟨⟩
      next before a after j hp => exact ⟨before, a, after, j, rfl, hp, rfl⟩
  | envelope lower upper =>
    constructor
    · intro h
      rcases k with _ | _ | k
      · cases h
        exact .lower _ _
      · cases h
        exact .upper _ _
      · cases h
    · rintro (_ | _)
      · rfl
      · rfl

end Geometry

namespace Settings

variable {s : Settings} {c : Crs} {p : Position} {subject : String} {index : Option Nat}

/-! ## One position -/

/-- What is at fault with a position: its dimension, or else the place where it lies. -/
inductive Faults (s : Settings) (c : Crs) (index : Option Nat) (p : Position) : Fault → Prop where
  | mismatch : ¬ s.Admits c p.dimension →
      Faults s c index p (.coordinateDimensionMismatch index c.dimension p.dimension)
  | outside : s.Admits c p.dimension → ¬ s.Accepts c p →
      Faults s c index p (.positionOutsideValidArea index p.ordinates c.areaText)

/-- The valid area of a system with bounds for its axes holds no position of the wrong dimension. -/
theorem admits_of_contains {b : BoundedCrs} (h : b.toCrs.contains (s.effective b p) = true) :
    s.Admits b p.dimension := by
  have hlength := ((b.contains_iff_covers _).1 h).length_eq
  rw [effective_eq] at hlength
  dsimp only at hlength
  split at hlength
  · next hcut => exact .inr hcut
  · exact .inl hlength.symm

/-- There the valid area alone tells whether a position is accepted. -/
theorem quiet_areaFindings_of_bounded {b : BoundedCrs} :
    Finding.Quiet (s.areaFindings subject index b p) ↔ s.Accepts b p := by
  constructor
  · intro h
    have hcontained := h
    rw [areaFindings, Finding.quiet_unless] at hcontained
    exact (quiet_areaFindings (admits_of_contains hcontained) subject index).1 h
  · exact fun h => (quiet_areaFindings h.admitted subject index).2 h

/-- A position is of the wrong dimension, or accepted, or outside of the valid area, and this tells
all that is found. -/
theorem positionFindings_cases (s : Settings) (subject : String) (index : Option Nat) (c : Crs)
    (p : Position) :
    (¬ s.Admits c p.dimension ∧ s.positionFindings subject index c p =
      [.violated ⟨.coordinateDimensionMismatch index c.dimension p.dimension, subject⟩,
        .unchecked ("domain of validity" ++ index.elim "" fun i => s!" [{i}]")]) ∨
    (s.Accepts c p ∧ s.positionFindings subject index c p = []) ∨
    (s.Admits c p.dimension ∧ ¬ s.Accepts c p ∧ s.positionFindings subject index c p =
      [.violated ⟨.positionOutsideValidArea index p.ordinates c.areaText, subject⟩]) := by
  by_cases h : s.Admits c p.dimension
  · have hcontains : c.contains (s.effective c p) = true ↔ s.Accepts c p := by
      rw [← quiet_areaFindings h subject index, areaFindings, Finding.quiet_unless]
    rw [positionFindings, if_pos (fits_iff_admits.2 h), areaFindings]
    by_cases ha : s.Accepts c p
    · exact .inr (.inl ⟨ha, if_pos (hcontains.2 ha)⟩)
    · exact .inr (.inr ⟨h, ha, if_neg (mt hcontains.1 ha)⟩)
  · have hfits : ¬ s.fits c p = true := mt fits_iff_admits.1 h
    rw [positionFindings, dimensionFindings, if_neg hfits, if_neg hfits]
    exact .inl ⟨h, rfl⟩

theorem violated_mem_positionFindings_iff {v : Violation} :
    .violated v ∈ s.positionFindings subject index c p ↔
      s.Faults c index p v.fault ∧ v.subject = subject := by
  obtain ⟨fault, subject'⟩ := v
  obtain ⟨h, he⟩ | ⟨h, he⟩ | ⟨h, ha, he⟩ := s.positionFindings_cases subject index c p
  · simp only [he, List.mem_cons, Finding.violated.injEq, reduceCtorEq, List.not_mem_nil, or_false]
    constructor
    · rintro ⟨⟩
      exact ⟨.mismatch h, rfl⟩
    · rintro ⟨- | ⟨hn, -⟩, rfl⟩
      · rfl
      · exact absurd hn h
  · rw [he]
    refine iff_of_false List.not_mem_nil ?_
    rintro ⟨hn | ⟨-, hn⟩, -⟩
    · exact hn h.admitted
    · exact hn h
  · rw [he, List.mem_singleton]
    constructor
    · rintro ⟨⟩
      exact ⟨.outside h ha, rfl⟩
    · rintro ⟨hn | -, rfl⟩
      · exact absurd h hn
      · rfl

theorem unchecked_mem_positionFindings_iff {step : String} :
    .unchecked step ∈ s.positionFindings subject index c p ↔ ¬ s.Admits c p.dimension ∧
      step = "domain of validity" ++ index.elim "" fun i => s!" [{i}]" := by
  obtain ⟨h, he⟩ | ⟨h, he⟩ | ⟨h, -, he⟩ := s.positionFindings_cases subject index c p
  · simp [he, h]
  · simp [he, h.admitted]
  · simp [he, h]

theorem length_violations_positionFindings_le :
    ((s.positionFindings subject index c p).filterMap Finding.violation?).length ≤ 1 := by
  obtain ⟨-, he⟩ | ⟨-, he⟩ | ⟨-, -, he⟩ := s.positionFindings_cases subject index c p
  · exact he ▸ le_rfl
  · exact he ▸ Nat.zero_le 1
  · exact he ▸ le_rfl

theorem length_steps_positionFindings_le :
    ((s.positionFindings subject index c p).filterMap Finding.step?).length ≤ 1 := by
  obtain ⟨-, he⟩ | ⟨-, he⟩ | ⟨-, -, he⟩ := s.positionFindings_cases subject index c p
  · exact he ▸ le_rfl
  · exact he ▸ Nat.zero_le 1
  · exact he ▸ Nat.zero_le 1

end Settings

/-! ## All positions -/

namespace Instance

variable {s : Settings} {c : Crs} {i : Instance} {k j : Nat}

/-- Position `k` is at fault, and the violation says so. -/
def MisplacedAt (s : Settings) (c : Crs) (i : Instance) (k : Nat) (v : Violation) : Prop :=
  ∃ p, i.geometry.At k p ∧ s.Faults c (some k) p v.fault ∧ v.subject = i.label

/-- Position `k` has the wrong dimension, and the step says that it was not looked up. -/
def UnlocatedAt (s : Settings) (c : Crs) (i : Instance) (k : Nat) (step : String) : Prop :=
  ∃ p, i.geometry.At k p ∧ ¬ s.Admits c p.dimension ∧ step = s!"domain of validity [{k}]"

theorem MisplacedAt.number?_eq {v : Violation} (h : MisplacedAt s c i k v) :
    v.number? = some k := by
  obtain ⟨p, -, hf, -⟩ := h
  rw [Violation.number?]
  cases hfault : v.fault <;> rw [hfault] at hf <;> cases hf <;> rfl

theorem UnlocatedAt.number_unique {step : String} (h : UnlocatedAt s c i k step)
    (h' : UnlocatedAt s c i j step) : k = j := by
  obtain ⟨-, -, -, rfl⟩ := h
  obtain ⟨-, -, -, h⟩ := h'
  have hrest : Text.Nondigit "]" := by
    rintro c ⟨⟩
    rfl
  simp only [String.append_assoc] at h
  exact Text.eq_of_numbered "domain of validity [" hrest hrest h

theorem checkCovered_findings (s : Settings) (hc : i.crs = some c) :
    i.checkCovered s = .ofFindings "covered by valid area"
      (i.geometry.positions.zipIdx.flatMap fun (p, k) =>
        s.positionFindings i.label (ordinal? i.geometry k) c p) := by
  rw [checkCovered, hc]

/-- Every position of a geometry that is not a point is looked at once, under its number. -/
theorem checkCovered_enumerates (s : Settings) (hc : i.crs = some c)
    (hkind : i.geometry.kind ≠ .point) :
    Enumerates (MisplacedAt s c i) (i.checkCovered s).violations ∧
      Enumerates (UnlocatedAt s c i) (i.checkCovered s).unchecked := by
  have hordinal (k : Nat) : ordinal? i.geometry k = some k := if_neg hkind
  have hname (k : Nat) : "domain of validity" ++ s!" [{k}]" = s!"domain of validity [{k}]" := by
    simp only [← String.append_assoc]
    rfl
  rw [checkCovered_findings s hc]
  constructor
  · refine (Report.enumerates_violations _ fun x => ?_).congr fun k v => ?_
    · exact Settings.length_violations_positionFindings_le
    · simp only [hordinal, Settings.violated_mem_positionFindings_iff,
        Geometry.positions_eq_some_iff, MisplacedAt]
  · refine (Report.enumerates_unchecked _ fun x => ?_).congr fun k step => ?_
    · exact Settings.length_steps_positionFindings_le
    · simp only [hordinal, Settings.unchecked_mem_positionFindings_iff,
        Geometry.positions_eq_some_iff, UnlocatedAt, Option.elim_some, hname]

/-- The two checks of a point say the same, but name different steps that they do not take if the
system is not known. -/
theorem checkPoint_eq_checkCovered (s : Settings) {p : Position} (hg : i.geometry = .point p) :
    ∃ r, i.checkPoint s = .ok r ∧ r.violations = (i.checkCovered s).violations ∧
      ∀ c, i.crs = some c → r.unchecked = (i.checkCovered s).unchecked := by
  refine ⟨_, checkPoint_eq s hg, ?_, fun c hc => ?_⟩
  · cases hc : i.crs with
    | none =>
      rw [checkCovered, pointFindings, hc]
      simp only [Report.ofFindings, List.filterMap_append]
      rfl
    | some c =>
      rw [checkCovered_findings s hc, pointFindings, hc, hg]
      simp [Report.ofFindings, Geometry.positions, ordinal?, Geometry.kind]
  · rw [checkCovered_findings s hc, pointFindings, hc, hg]
    simp [Report.ofFindings, Geometry.positions, ordinal?, Geometry.kind]

/-- A point in a system with bounds for its axes passes exactly if its position lies in the valid
area. -/
theorem checkPoint_passes_iff_checkArea (s : Settings) {p : Position} {r : Report} {b : BoundedCrs}
    (hg : i.geometry = .point p) (hc : i.crs = some b.toCrs) (hr : i.checkPoint s = .ok r)
    (subject : String) : r.isPass = true ↔ (s.checkArea subject p b).isPass = true := by
  obtain ⟨r', hr', hpass⟩ := checkPoint_passes_iff (s := s) hg
  obtain rfl := Except.ok.inj (hr.symm.trans hr')
  rw [hpass, Settings.checkArea, Report.isPass_ofFindings, Settings.quiet_areaFindings_of_bounded,
    hc]
  simp only [Option.some.injEq, exists_eq_left']

/-- The check of all positions accounts for every position of a geometry that is not a point: for
each one that is at fault there is one violation, for each one of the wrong dimension one step
that was not taken, and there is nothing else. On a point it says what the check of points says,
which passes exactly if the position lies in the valid area of a system with bounds for its axes. -/
theorem checkCovered_account (s : Settings) (i : Instance) :
    (∀ c, i.crs = some c → i.geometry.kind ≠ .point →
      Enumerates (MisplacedAt s c i) (i.checkCovered s).violations ∧
      (i.checkCovered s).numbers.Pairwise (· < ·) ∧
      Enumerates (UnlocatedAt s c i) (i.checkCovered s).unchecked ∧
      (i.checkCovered s).unchecked.Nodup) ∧
    ∀ p, i.geometry = .point p → ∃ r, i.checkPoint s = .ok r ∧
      (i.checkCovered s).violations = r.violations ∧
      (∀ c, i.crs = some c → (i.checkCovered s).unchecked = r.unchecked) ∧
      ∀ b : BoundedCrs, i.crs = some b.toCrs →
        ∀ subject, r.isPass = true ↔ (s.checkArea subject p b).isPass = true := by
  refine ⟨fun c hc hkind => ?_, fun p hg => ?_⟩
  · obtain ⟨hmisplaced, hunlocated⟩ := checkCovered_enumerates s hc hkind
    exact ⟨hmisplaced, (hmisplaced.numbers fun k v => MisplacedAt.number?_eq).1, hunlocated,
      hunlocated.nodup fun _ _ _ => UnlocatedAt.number_unique⟩
  · obtain ⟨r, hr, hviolations, hunchecked⟩ := checkPoint_eq_checkCovered s hg
    exact ⟨r, hr, hviolations.symm, fun c hc => (hunchecked c hc).symm,
      fun b hc => checkPoint_passes_iff_checkArea s hg hc hr⟩

/-- A curve over the plane. Behind a segment without positions one position is too short, and
another one lies outside of the plane. -/
def scattered : Instance := .withCrs plane <| .plain <| .curve [
  ⟨.linear, [⟨[0, 0]⟩]⟩,
  ⟨.linear, []⟩,
  ⟨.linear, [⟨[1]⟩, ⟨[1, 1, 7]⟩, ⟨[20, 0, 7]⟩]⟩]

/-- A point outside of the plane. -/
def astray : Instance := .withCrs plane <| .plain <| .point ⟨[20, 0]⟩

theorem checkCovered_account_scattered :
    (scattered.geometry.kind ≠ .point ∧
      Enumerates (MisplacedAt .permissive plane scattered)
        (scattered.checkCovered .permissive).violations ∧
      (scattered.checkCovered .permissive).violations.map
        (fun v => (v.code, v.number?)) =
        [("CoordinateDimensionMismatch", some 1), ("PositionOutsideValidArea", some 3)] ∧
      (scattered.checkCovered .permissive).unchecked = ["domain of validity [1]"]) ∧
    ∃ r, astray.checkPoint .permissive = .ok r ∧
      (astray.checkCovered .permissive).violations = r.violations ∧
      r.violations.map Violation.code = ["PositionOutsideValidArea"] ∧
      (r.isPass = true ↔
        (Settings.permissive.checkArea "" ⟨[20, 0]⟩ plane).isPass = true) := by
  have hkind : scattered.geometry.kind ≠ .point := by decide
  obtain ⟨hmisplaced, -⟩ := (checkCovered_account .permissive scattered).1 plane rfl hkind
  obtain ⟨r, hr, hviolations, -, harea⟩ :=
    (checkCovered_account .permissive astray).2 ⟨[20, 0]⟩ rfl
  have hcodes : (astray.checkCovered .permissive).violations.map Violation.code =
      ["PositionOutsideValidArea"] := by decide +kernel
  exact ⟨⟨hkind, hmisplaced, by decide +kernel, by decide +kernel⟩, r, hr, hviolations,
    hviolations ▸ hcodes, harea plane rfl ""⟩

end Instance

end GmlCheck
