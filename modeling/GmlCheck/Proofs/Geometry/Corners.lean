import GmlCheck.Proofs.Geometry.Truncation

/-!
# What is said of the corners of an envelope

Corners of different dimensions are not compared. Others are compared in every ordinate that is
not ignored (`Instance.Compared`), also if they do not have the dimension of the system, which is
a violation of its own in front of those of the order. `checkEnvelope_account` says what the
report holds, and when it passes, for any system or none.
-/

namespace GmlCheck

namespace Instance

variable {s : Settings} {crs : Option Crs} {lower upper : Position} {subject : String} {n k : Nat}

/-- Ordinate `k` of corners with `n` ordinates is compared: they have it, and it is not ignored. -/
def Compared (s : Settings) (crs : Option Crs) (n k : Nat) : Prop :=
  k < n ∧ ∀ c, crs = some c → s.truncate = true → c.dimension < n → k < c.dimension

theorem lt_comparedOrdinates_iff : k < comparedOrdinates s crs n ↔ Compared s crs n k := by
  cases crs with
  | none => simp [comparedOrdinates, Compared]
  | some c =>
    simp only [comparedOrdinates, Compared, Option.some.injEq, forall_eq', Bool.and_eq_true,
      decide_eq_true_eq]
    split
    · next h => exact ⟨fun hk => ⟨hk.trans h.2, fun _ _ => hk⟩, fun hk => hk.2 h.1 h.2⟩
    · next h => exact ⟨fun hk => ⟨hk, fun ht hn => absurd ⟨ht, hn⟩ h⟩, And.left⟩

/-- What settings ignore lies behind the axes of the system, and nothing there is compared. -/
theorem Compared.lt_dimension {c : Crs} (h : Compared s (some c) n k) (ht : s.truncate = true) :
    k < c.dimension := by
  by_cases hn : c.dimension < n
  · exact h.2 c rfl ht hn
  · exact h.1.trans_le (Nat.le_of_not_lt hn)

/-- The corners do not have the dimension of the system, and the violation says so. -/
def MisfitIn (s : Settings) (crs : Option Crs) (subject : String) (n : Nat) (v : Violation) :
    Prop :=
  ∃ c, crs = some c ∧ ¬ s.Admits c n ∧
    v = ⟨.dimensionMismatch ("CRS " ++ c.identifier) c.dimension n, subject⟩

/-- Ordinate `k` of the lower corner is not below that of the upper one, and the violation says
so. -/
def DisorderedAt (s : Settings) (crs : Option Crs) (subject : String) (lower upper : Position)
    (k : Nat) (v : Violation) : Prop :=
  Compared s crs lower.dimension k ∧ ∃ x y, lower.ordinates[k]? = some x ∧
    upper.ordinates[k]? = some y ∧ ¬ x < y ∧ v = ⟨.invalidEnvelopeOrdering k x y, subject⟩

theorem forall_not_misfitIn_iff :
    (∀ v, ¬ MisfitIn s crs subject n v) ↔ ∀ c, crs = some c → s.Admits c n := by
  constructor
  · intro hnone c hc
    by_contra hn
    exact hnone _ ⟨c, hc, hn, rfl⟩
  · rintro hadmits v ⟨c, hc, hn, -⟩
    exact hn (hadmits c hc)

theorem forall_not_disorderedAt_iff (heq : lower.dimension = upper.dimension) :
    (∀ k v, ¬ DisorderedAt s crs subject lower upper k v) ↔
      ∀ k, Compared s crs lower.dimension k →
        ∃ x y, lower.ordinates[k]? = some x ∧ upper.ordinates[k]? = some y ∧ x < y := by
  constructor
  · intro hnone k hk
    have hx : k < lower.ordinates.length := hk.1
    have hy : k < upper.ordinates.length := hx.trans_eq heq
    refine ⟨_, _, List.getElem?_eq_getElem hx, List.getElem?_eq_getElem hy, ?_⟩
    by_contra hn
    exact hnone k _ ⟨hk, _, _, List.getElem?_eq_getElem hx, List.getElem?_eq_getElem hy, hn, rfl⟩
  · rintro hordered k v ⟨hk, x, y, hx, hy, hn, -⟩
    obtain ⟨x', y', hx', hy', hlt⟩ := hordered k hk
    obtain rfl := Option.some.inj (hx.symm.trans hx')
    obtain rfl := Option.some.inj (hy.symm.trans hy')
    exact hn hlt

end Instance

/-- What the check of the order says of the corners. -/
structure Report.TellsCorners (r : Report) (s : Settings) (crs : Option Crs) (subject : String)
    (lower upper : Position) : Prop where
  skipReason : r.skipReason = none
  uneven : lower.dimension ≠ upper.dimension →
    r.violations =
      [⟨.dimensionMismatch "upperCorner" lower.dimension upper.dimension, subject⟩] ∧
    r.unchecked = ["corner ordering"]
  even : lower.dimension = upper.dimension →
    r.unchecked = [] ∧ ∃ misfit disordered, r.violations = misfit ++ disordered ∧
      misfit.length ≤ 1 ∧ (∀ v, v ∈ misfit ↔ Instance.MisfitIn s crs subject lower.dimension v) ∧
      Enumerates (Instance.DisorderedAt s crs subject lower upper) disordered

namespace Instance

variable {s : Settings} {crs : Option Crs} {lower upper : Position} {subject : String} {n k : Nat}

/-! ## The order of the corners -/

/-- What is found in ordinate `k`. -/
def ordinateFindings (subject : String) (k : Nat) (x y : Float) : List Finding :=
  if x < y then [] else [.violated ⟨.invalidEnvelopeOrdering k x y, subject⟩]

theorem orderFindings_eq_flatMap (subject : String) (xs ys : List Float) :
    orderFindings subject xs ys =
      (xs.zip ys).zipIdx.flatMap fun ((x, y), k) => ordinateFindings subject k x y := by
  rw [orderFindings, List.filterMap_eq_flatMap_toList]
  congr 1
  funext x
  obtain ⟨⟨x, y⟩, k⟩ := x
  by_cases h : x < y
  · simp only [ordinateFindings, if_pos h, Option.toList_none]
  · simp only [ordinateFindings, if_neg h, Option.toList_some]

theorem length_ordinateFindings_le (subject : String) (k : Nat) (x y : Float) :
    (ordinateFindings subject k x y).length ≤ 1 := by
  unfold ordinateFindings
  split <;> simp

theorem violated_mem_ordinateFindings_iff {x y : Float} {v : Violation} :
    .violated v ∈ ordinateFindings subject k x y ↔
      ¬ x < y ∧ v = ⟨.invalidEnvelopeOrdering k x y, subject⟩ := by
  unfold ordinateFindings
  split <;> simp [*]

theorem steps_ordinateFindings (subject : String) (k : Nat) (x y : Float) :
    (ordinateFindings subject k x y).filterMap Finding.step? = [] := by
  unfold ordinateFindings
  split <;> rfl

theorem steps_orderFindings (subject : String) (xs ys : List Float) :
    (orderFindings subject xs ys).filterMap Finding.step? = [] := by
  rw [orderFindings_eq_flatMap, List.filterMap_flatMap, List.flatMap_eq_nil_iff]
  rintro ⟨⟨x, y⟩, k⟩ -
  exact steps_ordinateFindings subject k x y

theorem enumerates_orderFindings (subject : String) (xs ys : List Float) :
    Enumerates (fun k v => ∃ x y, xs[k]? = some x ∧ ys[k]? = some y ∧ ¬ x < y ∧
        v = ⟨.invalidEnvelopeOrdering k x y, subject⟩)
      ((orderFindings subject xs ys).filterMap Finding.violation?) := by
  rw [orderFindings_eq_flatMap]
  refine (Report.enumerates_violations "" ?_).congr fun k v => ?_
  · rintro ⟨⟨x, y⟩, k⟩
    exact (List.length_filterMap_le _ _).trans (length_ordinateFindings_le _ k x y)
  · simp only [Prod.exists, List.getElem?_zip_eq_some, violated_mem_ordinateFindings_iff, and_assoc]

theorem enumerates_disordered (s : Settings) (crs : Option Crs) (subject : String)
    (lower upper : Position) :
    Enumerates (DisorderedAt s crs subject lower upper)
      ((orderFindings subject
        (lower.ordinates.take (comparedOrdinates s crs lower.dimension))
        (upper.ordinates.take (comparedOrdinates s crs lower.dimension))).filterMap
          Finding.violation?) := by
  refine (enumerates_orderFindings _ _ _).congr fun k v => ?_
  rw [DisorderedAt, ← lt_comparedOrdinates_iff]
  by_cases hk : k < comparedOrdinates s crs lower.dimension
  · simp only [List.getElem?_take, hk, ↓reduceIte, true_and]
  · simp only [List.getElem?_take, hk, ↓reduceIte, reduceCtorEq, false_and, exists_false]

/-! ## The dimension of the corners -/

/-- What is found if the corners do not have the dimension of the system. -/
def misfitFindings (s : Settings) (crs : Option Crs) (subject : String) (p : Position) :
    List Finding :=
  match crs with
  | none => []
  | some c =>
    if s.fits c p then []
    else [.violated
      ⟨.dimensionMismatch ("CRS " ++ c.identifier) c.dimension p.dimension, subject⟩]

theorem length_misfitFindings_le (p : Position) : (misfitFindings s crs subject p).length ≤ 1 := by
  unfold misfitFindings
  split
  · exact Nat.zero_le 1
  · split <;> simp

theorem violated_mem_misfitFindings_iff {p : Position} {v : Violation} :
    .violated v ∈ misfitFindings s crs subject p ↔ MisfitIn s crs subject p.dimension v := by
  cases crs with
  | none => simp [misfitFindings, MisfitIn]
  | some c => by_cases h : s.Admits c p.dimension <;>
      simp [misfitFindings, MisfitIn, Settings.fits_iff_admits, h]

theorem steps_misfitFindings (p : Position) :
    (misfitFindings s crs subject p).filterMap Finding.step? = [] := by
  unfold misfitFindings
  split
  · rfl
  · split <;> rfl

theorem envelopeFindings_of_even (h : lower.dimension = upper.dimension) :
    envelopeFindings s subject crs lower upper =
      misfitFindings s crs subject lower ++ orderFindings subject
        (lower.ordinates.take (comparedOrdinates s crs lower.dimension))
        (upper.ordinates.take (comparedOrdinates s crs lower.dimension)) := by
  unfold envelopeFindings
  rw [if_neg (not_not.2 h)]
  cases crs <;> rfl

/-! ## The report on an envelope -/

theorem checkEnvelope_tells (s : Settings) {i : Instance}
    (hg : i.geometry = .envelope lower upper) :
    ∃ r, i.checkEnvelope s = .ok r ∧ r.TellsCorners s i.crs i.label lower upper := by
  refine ⟨_, by rw [checkEnvelope, hg], rfl, fun hne => ?_, fun heq => ?_⟩
  · unfold envelopeFindings
    rw [if_pos hne]
    exact ⟨rfl, rfl⟩
  · rw [envelopeFindings_of_even heq, Report.ofFindings, List.filterMap_append,
      List.filterMap_append, steps_misfitFindings, steps_orderFindings]
    refine ⟨rfl, _, _, rfl, ?_, fun v => ?_, enumerates_disordered s i.crs i.label lower upper⟩
    · exact (List.length_filterMap_le _ _).trans (length_misfitFindings_le lower)
    · rw [Finding.mem_filterMap_violation?_iff, violated_mem_misfitFindings_iff]

end Instance

/-! ## What follows from what is said -/

namespace Report.TellsCorners

open Instance

variable {r : Report} {s : Settings} {crs : Option Crs} {subject : String} {lower upper : Position}

theorem passes_iff (h : r.TellsCorners s crs subject lower upper) :
    r.isPass = true ↔ lower.dimension = upper.dimension ∧
      (∀ c, crs = some c → s.Admits c lower.dimension) ∧
      ∀ k, Compared s crs lower.dimension k →
        ∃ x y, lower.ordinates[k]? = some x ∧ upper.ordinates[k]? = some y ∧ x < y := by
  rw [isPass_iff_of_skipReason h.skipReason]
  by_cases heq : lower.dimension = upper.dimension
  · obtain ⟨-, misfit, disordered, hv, -, hmisfit, hdisordered⟩ := h.even heq
    rw [hv, List.append_eq_nil_iff, List.eq_nil_iff_forall_not_mem, hdisordered.eq_nil_iff,
      forall_not_disorderedAt_iff heq, and_iff_right heq]
    simp only [hmisfit, forall_not_misfitIn_iff]
  · rw [(h.uneven heq).1]
    exact iff_of_false nofun fun hand => heq hand.1

/-- The numbers that are named are those of ordinates that are not in order, and nothing but their
order has a number. -/
theorem numbers_eq (h : r.TellsCorners s crs subject lower upper) :
    r.numbers.Pairwise (· < ·) ∧ ∀ k, k ∈ r.numbers →
      ∃ v, DisorderedAt s crs subject lower upper k v := by
  by_cases heq : lower.dimension = upper.dimension
  · obtain ⟨-, misfit, disordered, hv, -, hmisfit, hdisordered⟩ := h.even heq
    have hfront : misfit.filterMap Violation.number? = [] := by
      rw [List.filterMap_eq_nil_iff]
      intro v hv
      obtain ⟨c, -, -, rfl⟩ := (hmisfit v).1 hv
      rfl
    have hnumber : ∀ k v, DisorderedAt s crs subject lower upper k v → v.number? = some k := by
      rintro k - ⟨-, x, y, -, -, -, rfl⟩
      rfl
    obtain ⟨hordered, hmem⟩ := hdisordered.numbers hnumber
    rw [numbers, hv, List.filterMap_append, hfront, List.nil_append]
    exact ⟨hordered, fun k hk => (hmem k).1 hk⟩
  · rw [numbers, (h.uneven heq).1]
    exact ⟨.nil, nofun⟩

end Report.TellsCorners

namespace Instance

/-- The report on an envelope holds what belongs to its corners, and nothing else: one violation
and one step that was not taken if their dimensions differ, and otherwise one violation at most of
their dimension and one for every compared ordinate that is not in strict order. It passes exactly
if nothing of this is the case, and it never speaks of the order of an ordinate that is ignored.
-/
theorem checkEnvelope_account (s : Settings) {i : Instance} {lower upper : Position}
    (hg : i.geometry = .envelope lower upper) :
    ∃ r, i.checkEnvelope s = .ok r ∧ r.TellsCorners s i.crs i.label lower upper ∧
      (r.isPass = true ↔ lower.dimension = upper.dimension ∧
        (∀ c, i.crs = some c → s.Admits c lower.dimension) ∧
        ∀ k, Compared s i.crs lower.dimension k →
          ∃ x y, lower.ordinates[k]? = some x ∧ upper.ordinates[k]? = some y ∧ x < y) ∧
      r.numbers.Pairwise (· < ·) ∧
      ∀ c, i.crs = some c → s.truncate = true → ∀ k ∈ r.numbers, k < c.dimension := by
  obtain ⟨r, hr, htells⟩ := checkEnvelope_tells s hg
  obtain ⟨hordered, hmem⟩ := htells.numbers_eq
  refine ⟨r, hr, htells, htells.passes_iff, hordered, fun c hc ht k hk => ?_⟩
  obtain ⟨v, hcompared, -⟩ := hmem k hk
  rw [hc] at hcompared
  exact hcompared.lt_dimension ht

/-- An envelope over the plane with heights that do not belong to it. The corners have the same
northing, and neither the northings nor the heights are in order. -/
def flat : Instance := .withCrs plane <| .plain <| .envelope ⟨[0, 1, 9]⟩ ⟨[2, 1, 5]⟩

theorem checkEnvelope_account_flat :
    ∃ lower upper r, flat.geometry = .envelope lower upper ∧ lower.dimension = upper.dimension ∧
      flat.checkEnvelope .permissive = .ok r ∧
      r.TellsCorners .permissive (some plane) flat.label lower upper ∧
      r.violations.map Violation.code = ["InvalidEnvelopeOrdering"] ∧ r.numbers = [1] := by
  obtain ⟨r, hr, htells, -⟩ := checkEnvelope_account .permissive (i := flat) rfl
  have heven : (⟨[0, 1, 9]⟩ : Position).dimension = (⟨[2, 1, 5]⟩ : Position).dimension := by decide
  have hv : (flat.checkEnvelope .permissive).toOption.map
      (fun r => (r.violations.map Violation.code, r.numbers)) =
      some (["InvalidEnvelopeOrdering"], [1]) := by
    decide +kernel
  rw [hr] at hv
  obtain ⟨hcodes, hnumbers⟩ := Prod.mk.inj (Option.some.inj hv)
  exact ⟨_, _, r, rfl, heven, hr, htells, hcodes, hnumbers⟩

end Instance

end GmlCheck
