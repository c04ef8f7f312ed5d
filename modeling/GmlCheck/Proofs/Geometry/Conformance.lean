import Mathlib.Data.List.Forall2
import GmlCheck.Geometry.Check
import GmlCheck.Proofs.Findings

/-!
# Conformant geometries

`Instance.Conformant` says without any check what a conformant geometry is: its
reference system is known, what counts of every position lies in the valid area of the
system, and the shape obeys the rules of its kind. A system may have any valid area; one
with bounds for its axes covers a position axis by axis (`BoundedCrs.Covers`). Comparisons
and differences are those of doubles, so that not-a-number is neither below nor near
anything.

`checkAll_passes_iff` compares it with the checks: they always run to the end,
and all reports pass exactly if the geometry is conformant.
-/

namespace GmlCheck

/-! ## What conformance asks for -/

/-- As many ordinates as axes, each in the range of its axis. -/
def BoundedCrs.Covers (b : BoundedCrs) (xs : List Float) : Prop :=
  List.Forall₂ (fun a x => a.lowest ≤ x ∧ x ≤ a.highest) b.axes xs

/-- As many ordinates on both sides, and no two of them farther apart than the tolerance. -/
def Position.Meets (tolerance : Float) (p q : Position) : Prop :=
  List.Forall₂ (fun x y => (x - y).abs ≤ tolerance) p.ordinates q.ordinates

namespace Settings

/-- A number of ordinates is the dimension, or is cut to it. -/
def Admits (s : Settings) (c : Crs) (n : Nat) : Prop :=
  n = c.dimension ∨ (s.truncate = true ∧ c.dimension < n)

/-- The position has the dimension of the system, and what counts of it is in the valid area. -/
structure Accepts (s : Settings) (c : Crs) (p : Position) : Prop where
  admitted : s.Admits c p.dimension
  contained : c.contains ⟨if s.truncate = true ∧ c.dimension < p.dimension
    then p.ordinates.take c.dimension else p.ordinates⟩ = true

end Settings

/-- If both segments are interpreted, the first one ends where the second one starts. -/
def Segment.Joins (tolerance : Float) (a b : Segment) : Prop :=
  a.interpolation.isSupported = true → b.interpolation.isSupported = true →
    ∃ p q, a.last? = some p ∧ b.first? = some q ∧ p.Meets tolerance q

/-- The rules for the kind of geometry. -/
def Geometry.ShapeOk (s : Settings) (c : Crs) : Geometry → Prop
  | point _ => True
  | lineString ps => 2 ≤ ps.length
  | curve ss =>
    ss ≠ [] ∧
    (∀ a ∈ ss, ∀ n, a.interpolation.minimum? = some n → n ≤ a.positions.length) ∧
    ∀ k a b, ss[k]? = some a → ss[k + 1]? = some b → a.Joins s.tolerance b
  | envelope lower upper =>
    lower.dimension = upper.dimension ∧ s.Admits c lower.dimension ∧
    ∀ k < c.dimension, ∃ x y,
      lower.ordinates[k]? = some x ∧ upper.ordinates[k]? = some y ∧ x < y

/-- The system is known, it accepts every position, and the shape is right. -/
def Instance.Conformant (s : Settings) (i : Instance) : Prop :=
  ∃ c, i.crs = some c ∧ (∀ p ∈ i.geometry.positions, s.Accepts c p) ∧ i.geometry.ShapeOk s c

/-! ## Positions -/

theorem BoundedCrs.contains_iff_covers (b : BoundedCrs) (p : Position) :
    b.toCrs.contains p = true ↔ b.Covers p.ordinates := by
  simp only [toCrs, contains, Covers, Position.dimension, dimension, List.forall₂_iff_zip,
    Bool.and_eq_true, beq_iff_eq, List.all_eq_true, Prod.forall, Axis.contains,
    decide_eq_true_eq]
  exact ⟨fun ⟨hn, h⟩ => ⟨hn.symm, fun {a x} => h a x⟩, fun ⟨hn, h⟩ => ⟨hn.symm, fun a x => h⟩⟩

theorem Position.near_iff_meets (tolerance : Float) (p q : Position) :
    p.near tolerance q = true ↔ p.Meets tolerance q := by
  simp only [near, Meets, dimension, List.forall₂_iff_zip, Bool.and_eq_true, beq_iff_eq,
    List.all_eq_true, Prod.forall, decide_eq_true_eq]

namespace Settings

variable {s : Settings} {c : Crs} {p : Position}

theorem fits_iff_admits : s.fits c p = true ↔ s.Admits c p.dimension := by
  simp [fits, Admits]

theorem effective_eq :
    s.effective c p = ⟨if s.truncate = true ∧ c.dimension < p.dimension
      then p.ordinates.take c.dimension else p.ordinates⟩ := by
  unfold effective
  simp only [Bool.and_eq_true, decide_eq_true_eq]
  split <;> rfl

theorem quiet_dimensionFindings (subject : String) (index : Option Nat) :
    Finding.Quiet (s.dimensionFindings subject index c p) ↔ s.Admits c p.dimension := by
  rw [dimensionFindings, Finding.quiet_unless, fits_iff_admits]

/-- What is found of an admitted position tells whether it is accepted. -/
theorem quiet_areaFindings (h : s.Admits c p.dimension) (subject : String) (index : Option Nat) :
    Finding.Quiet (s.areaFindings subject index c p) ↔ s.Accepts c p := by
  rw [areaFindings, Finding.quiet_unless, effective_eq]
  exact ⟨fun hc => ⟨h, hc⟩, Accepts.contained⟩

theorem quiet_positionFindings (subject : String) (index : Option Nat) :
    Finding.Quiet (s.positionFindings subject index c p) ↔ s.Accepts c p := by
  unfold positionFindings
  split
  · next hf => exact quiet_areaFindings (fits_iff_admits.1 hf) subject index
  · next hf =>
    rw [Finding.quiet_append, quiet_dimensionFindings]
    have hn : ¬ s.Admits c p.dimension := mt fits_iff_admits.2 hf
    exact iff_of_false (fun h => hn h.1) fun h => hn h.admitted

end Settings

namespace Instance

/-! ## Reference system -/

theorem quiet_crsFindings (i : Instance) :
    Finding.Quiet i.crsFindings ↔ i.crs.isSome = true := by
  rw [crsFindings, Finding.quiet_unless]

theorem checkCovered_passes_iff {s : Settings} {i : Instance} :
    (i.checkCovered s).isPass = true ↔
      ∃ c, i.crs = some c ∧ ∀ p ∈ i.geometry.positions, s.Accepts c p := by
  rw [checkCovered, Report.isPass_ofFindings]
  cases hc : i.crs with
  | none => simp [quiet_crsFindings, hc]
  | some c =>
    simp only [Finding.quiet_flatMap, Settings.quiet_positionFindings, Option.some.injEq,
      exists_eq_left', Prod.forall]
    constructor
    · intro h p hp
      obtain ⟨k, hk⟩ := List.mem_iff_getElem?.1 hp
      exact h p k (List.mk_mem_zipIdx_iff_getElem?.2 hk)
    · intro h p k hk
      exact h p (List.mem_of_getElem? (List.mk_mem_zipIdx_iff_getElem?.1 hk))

/-! ## Points -/

/-- What the check of a point finds, piece by piece. -/
def pointFindings (s : Settings) (i : Instance) (p : Position) : List Finding :=
  match i.crs with
  | none => i.crsFindings ++ [.unchecked "position"]
  | some c => s.positionFindings i.label none c p

/-- The reports on the dimension and on the valid area, one merged into the other, say of the
position of a point what the check of all positions finds of each one. -/
theorem checkPoint_eq (s : Settings) {i : Instance} {p : Position} (hg : i.geometry = .point p) :
    i.checkPoint s = .ok (.ofFindings "point position" (i.pointFindings s p)) := by
  rw [checkPoint, pointFindings, hg, Report.empty_eq_ofFindings]
  dsimp only
  cases i.crs with
  | none => rw [checkCrs, Report.merge_ofFindings, Report.markUnchecked_ofFindings, List.nil_append]
  | some c =>
    have hdimension : (s.checkDimension i.label p c).isPass = true ↔ s.fits c p = true := by
      rw [Settings.checkDimension, Report.isPass_ofFindings, Settings.quiet_dimensionFindings,
        Settings.fits_iff_admits]
    dsimp only
    rw [Settings.positionFindings]
    by_cases hf : s.fits c p = true
    · -- Where the dimension is right its report is empty.
      have hnone : s.dimensionFindings i.label none c p = [] := if_pos hf
      rw [if_pos (hdimension.2 hf), if_pos hf, Settings.checkDimension, Settings.checkArea, hnone,
        Report.merge_ofFindings, Report.merge_ofFindings]
      rfl
    · rw [if_neg (mt hdimension.1 hf), if_neg hf, Settings.checkDimension, Report.merge_ofFindings,
        Report.markUnchecked_ofFindings]
      rfl

/-! ## Envelopes -/

theorem quiet_orderFindings (subject : String) (lower upper : List Float) :
    Finding.Quiet (orderFindings subject lower upper) ↔
      ∀ (k : Nat) (x y : Float), lower[k]? = some x → upper[k]? = some y → x < y := by
  rw [← Finding.filterMap_violation?_eq_nil_iff, orderFindings, List.filterMap_filterMap,
    List.filterMap_eq_nil_iff]
  simp only [Prod.forall, List.mk_mem_zipIdx_iff_getElem?, List.getElem?_zip_eq_some]
  constructor
  · intro h k x y hx hy
    by_contra hxy
    have := h x y k ⟨hx, hy⟩
    simp [hxy, Finding.violation?] at this
  · rintro h x y k ⟨hx, hy⟩
    simp [h k x y hx hy]

/-- Where the corners fit, as many ordinates are compared as the system has axes. -/
theorem comparedOrdinates_of_admits {s : Settings} {c : Crs} {n : Nat} (h : s.Admits c n) :
    comparedOrdinates s (some c) n = c.dimension := by
  unfold comparedOrdinates
  rcases h with rfl | ⟨ht, hn⟩
  · simp
  · simp [ht, hn]

theorem quiet_envelopeFindings {s : Settings} {c : Crs} {lower upper : Position}
    (subject : String) :
    Finding.Quiet (envelopeFindings s subject (some c) lower upper) ↔
      (Geometry.envelope lower upper).ShapeOk s c := by
  unfold envelopeFindings Geometry.ShapeOk
  by_cases hd : lower.dimension = upper.dimension
  · simp only [hd, ne_eq, not_true_eq_false, ↓reduceIte, Finding.quiet_append,
      Finding.quiet_unless, Settings.fits_iff_admits, quiet_orderFindings, true_and]
    refine and_congr_right fun ha => ?_
    have hle : c.dimension ≤ upper.dimension := by
      rcases ha with h | ⟨-, h⟩ <;> omega
    rw [comparedOrdinates_of_admits ha]
    simp only [List.getElem?_take]
    constructor
    · intro h k hk
      have hl : k < lower.ordinates.length := by
        show k < lower.dimension; omega
      have hu : k < upper.ordinates.length := by
        show k < upper.dimension; omega
      refine ⟨lower.ordinates[k], upper.ordinates[k], List.getElem?_eq_getElem hl,
        List.getElem?_eq_getElem hu, h k _ _ ?_ ?_⟩
      · rw [if_pos hk, List.getElem?_eq_getElem hl]
      · rw [if_pos hk, List.getElem?_eq_getElem hu]
    · intro h k x y hx hy
      split at hx
      · next hk =>
        rw [if_pos hk] at hy
        obtain ⟨x', y', hx', hy', hlt⟩ := h k hk
        rw [hx] at hx'; rw [hy] at hy'
        cases hx'; cases hy'
        exact hlt
      · cases hx
  · simp [hd]

/-! ## Curves -/

theorem quiet_segmentFindings (subject : String) (k : Nat) (a : Segment) :
    Finding.Quiet (segmentFindings subject k a) ↔
      ∀ n, a.interpolation.minimum? = some n → n ≤ a.positions.length := by
  unfold segmentFindings
  split
  · next h => simp [h]
  · next n h => simp [h]

/-- A segment that is interpreted and has all the positions that it needs has ends. -/
theorem ends_of_supported {a : Segment} (hs : a.interpolation.isSupported = true)
    (hn : ∀ n, a.interpolation.minimum? = some n → n ≤ a.positions.length) :
    (∃ p, a.first? = some p) ∧ ∃ p, a.last? = some p := by
  have hne : a.positions ≠ [] := by
    rintro he
    rw [he] at hn
    cases hi : a.interpolation <;> rw [hi] at hs hn <;>
      simp [Interpolation.isSupported, Interpolation.minimum?] at hs hn
  exact ⟨⟨_, List.head?_eq_some_head hne⟩, ⟨_, List.getLast?_eq_some_getLast hne⟩⟩

theorem quiet_jointFindings {tolerance : Float} {a b : Segment} (subject : String) (k : Nat)
    (ha : ∀ n, a.interpolation.minimum? = some n → n ≤ a.positions.length)
    (hb : ∀ n, b.interpolation.minimum? = some n → n ≤ b.positions.length) :
    Finding.Quiet (jointFindings tolerance subject k a b) ↔ a.Joins tolerance b := by
  unfold jointFindings joint? Segment.Joins
  by_cases hsa : a.interpolation.isSupported = true
  · by_cases hsb : b.interpolation.isSupported = true
    · obtain ⟨-, p, hp⟩ := ends_of_supported hsa ha
      obtain ⟨⟨q, hq⟩, -⟩ := ends_of_supported hsb hb
      simp [hsa, hsb, hp, hq, Position.near_iff_meets]
    · simp [hsb]
  · simp [hsa]

/-- Two segments are adjacent exactly if one stands behind the other. -/
theorem mem_zip_tail_zipIdx_iff {ss : List Segment} {a b : Segment} {k : Nat} :
    ((a, b), k) ∈ (ss.zip ss.tail).zipIdx ↔ ss[k]? = some a ∧ ss[k + 1]? = some b := by
  rw [List.mk_mem_zipIdx_iff_getElem?, List.getElem?_zip_eq_some, List.getElem?_tail]

theorem quiet_connectionFindings {tolerance : Float} {ss : List Segment} (subject : String)
    (hn : ∀ a ∈ ss, ∀ n, a.interpolation.minimum? = some n → n ≤ a.positions.length) :
    Finding.Quiet (connectionFindings tolerance subject ss) ↔
      ss ≠ [] ∧ ∀ k a b, ss[k]? = some a → ss[k + 1]? = some b → a.Joins tolerance b := by
  unfold connectionFindings
  cases hss : ss with
  | nil => simp
  | cons s₀ rest =>
    rw [← hss]
    have hne : ss ≠ [] := by rw [hss]; exact List.cons_ne_nil _ _
    simp only [List.isEmpty_eq_false_iff.2 hne, Bool.false_eq_true, ↓reduceIte,
      Finding.quiet_flatMap, Prod.forall, mem_zip_tail_zipIdx_iff, hne, ne_eq, not_false_eq_true,
      true_and]
    constructor
    · intro h k a b ha hb
      exact (quiet_jointFindings subject k (hn a (List.mem_of_getElem? ha))
        (hn b (List.mem_of_getElem? hb))).1 (h a b k ⟨ha, hb⟩)
    · rintro h a b k ⟨ha, hb⟩
      exact (quiet_jointFindings subject k (hn a (List.mem_of_getElem? ha))
        (hn b (List.mem_of_getElem? hb))).2 (h k a b ha hb)

theorem quiet_segmentFindings_zipIdx (subject : String) (ss : List Segment) :
    Finding.Quiet (ss.zipIdx.flatMap fun (a, k) => segmentFindings subject k a) ↔
      ∀ a ∈ ss, ∀ n, a.interpolation.minimum? = some n → n ≤ a.positions.length := by
  simp only [Finding.quiet_flatMap, Prod.forall, quiet_segmentFindings,
    List.mk_mem_zipIdx_iff_getElem?]
  constructor
  · intro h a ha
    obtain ⟨k, hk⟩ := List.mem_iff_getElem?.1 ha
    exact h a k hk
  · intro h a k hk
    exact h a (List.mem_of_getElem? hk)

/-! ## All checks -/

theorem checkCrs_passes_iff {i : Instance} :
    i.checkCrs.isPass = true ↔ ∃ c, i.crs = some c := by
  rw [checkCrs, Report.isPass_ofFindings, quiet_crsFindings, Option.isSome_iff_exists]

theorem checkPoint_passes_iff {s : Settings} {i : Instance} {p : Position}
    (hg : i.geometry = .point p) :
    ∃ r, i.checkPoint s = .ok r ∧
      (r.isPass = true ↔ ∃ c, i.crs = some c ∧ s.Accepts c p) := by
  refine ⟨_, checkPoint_eq s hg, ?_⟩
  rw [Report.isPass_ofFindings, pointFindings]
  cases hc : i.crs with
  | none => simp [quiet_crsFindings, hc]
  | some c => simp [Settings.quiet_positionFindings]

theorem checkEnvelope_passes_iff {s : Settings} {i : Instance} {lower upper : Position}
    (hg : i.geometry = .envelope lower upper) :
    ∃ r, i.checkEnvelope s = .ok r ∧
      ∀ c, i.crs = some c → (r.isPass = true ↔ i.geometry.ShapeOk s c) := by
  refine ⟨_, by rw [checkEnvelope, hg], fun c hc => ?_⟩
  rw [Report.isPass_ofFindings, hc, hg, quiet_envelopeFindings]

theorem checkLength_passes_iff {s : Settings} {i : Instance} {ps : List Position}
    (hg : i.geometry = .lineString ps) :
    ∃ r, i.checkLength = .ok r ∧ ∀ c, (r.isPass = true ↔ i.geometry.ShapeOk s c) := by
  refine ⟨_, by rw [checkLength, hg], fun c => ?_⟩
  rw [Report.isPass_ofFindings, Finding.quiet_unless, hg, Geometry.ShapeOk]

/-- The checks of length and of connection say together what is asked of a curve. The one of
connection alone says less: it does not evaluate segments without positions. -/
theorem checkLength_checkConnected_pass_iff {s : Settings} {i : Instance} {ss : List Segment}
    (hg : i.geometry = .curve ss) :
    ∃ r₁ r₂, i.checkLength = .ok r₁ ∧ i.checkConnected s = .ok r₂ ∧
      ∀ c, (r₁.isPass = true ∧ r₂.isPass = true ↔ i.geometry.ShapeOk s c) := by
  refine ⟨_, _, by rw [checkLength, hg], by rw [checkConnected, hg], fun c => ?_⟩
  rw [Report.isPass_ofFindings, Report.isPass_ofFindings, quiet_segmentFindings_zipIdx, hg,
    Geometry.ShapeOk]
  constructor
  · rintro ⟨hn, hj⟩
    obtain ⟨hne, hj⟩ := (quiet_connectionFindings _ hn).1 hj
    exact ⟨hne, hn, hj⟩
  · rintro ⟨hne, hn, hj⟩
    exact ⟨hn, (quiet_connectionFindings _ hn).2 ⟨hne, hj⟩⟩

/-- Around the checks of the shape stand the one of the system and the one of all positions. -/
theorem conformant_iff_of_shape {s : Settings} {i : Instance} {P : Prop}
    (hP : ∀ c, i.crs = some c → (P ↔ i.geometry.ShapeOk s c)) :
    i.checkCrs.isPass = true ∧ P ∧ (i.checkCovered s).isPass = true ↔ i.Conformant s := by
  rw [checkCrs_passes_iff, checkCovered_passes_iff]
  constructor
  · rintro ⟨-, h, c, hc, hp⟩
    exact ⟨c, hc, hp, (hP c hc).1 h⟩
  · rintro ⟨c, hc, hp, h⟩
    exact ⟨⟨c, hc⟩, (hP c hc).2 h, c, hc, hp⟩

theorem exists_checkAll_passes_iff (s : Settings) (i : Instance) :
    ∃ rs, i.checkAll s = .ok rs ∧ ((∀ r ∈ rs, r.isPass = true) ↔ i.Conformant s) := by
  cases hg : i.geometry with
  | point p =>
    obtain ⟨r, hr, hpass⟩ := checkPoint_passes_iff (s := s) hg
    refine ⟨[i.checkCrs, r], by simp only [checkAll, hg, hr]; rfl, ?_⟩
    simp only [List.forall_mem_cons, checkCrs_passes_iff, hpass, Conformant, hg,
      Geometry.positions, Geometry.ShapeOk]
    constructor
    · rintro ⟨-, ⟨c, hc, hp⟩, -⟩
      exact ⟨c, hc, ⟨hp, by simp⟩, trivial⟩
    · rintro ⟨c, hc, ⟨hp, -⟩, -⟩
      exact ⟨⟨c, hc⟩, ⟨c, hc, hp⟩, by simp⟩
  | lineString ps =>
    obtain ⟨r, hr, hpass⟩ := checkLength_passes_iff (s := s) hg
    refine ⟨[i.checkCrs, r, i.checkCovered s], by simp only [checkAll, hg, hr]; rfl, ?_⟩
    rw [← conformant_iff_of_shape fun c _ => hpass c]
    simp
  | curve ss =>
    obtain ⟨r₁, r₂, hr₁, hr₂, hpass⟩ := checkLength_checkConnected_pass_iff (s := s) hg
    refine ⟨[i.checkCrs, r₁, r₂, i.checkCovered s],
      by simp only [checkAll, hg, hr₁, hr₂]; rfl, ?_⟩
    rw [← conformant_iff_of_shape fun c _ => hpass c]
    simp [and_assoc]
  | envelope lower upper =>
    obtain ⟨r, hr, hpass⟩ := checkEnvelope_passes_iff (s := s) hg
    refine ⟨[i.checkCrs, r, i.checkCovered s], by simp only [checkAll, hg, hr]; rfl, ?_⟩
    rw [← conformant_iff_of_shape hpass]
    simp

/-- A plane, ten units wide to every side, by which geometries are tried. -/
def plane : BoundedCrs := ⟨"EPSG:3857", [⟨"easting", -10, 10⟩, ⟨"northing", -10, 10⟩]⟩

end Instance

end GmlCheck
