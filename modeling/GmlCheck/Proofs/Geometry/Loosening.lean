import GmlCheck.Proofs.Double
import GmlCheck.Proofs.Geometry.Conformance

/-!
# Looser settings

Settings loosen to others that ignore excess ordinates wherever they do and let the
ends of segments be at least as far apart. On every geometry the looser settings lead
to the same reports by name, and a report that passes goes on passing.
-/

namespace GmlCheck

namespace Settings

/-- `s'` cuts positions wherever `s` does, and its tolerance is no smaller. -/
structure LoosensTo (s s' : Settings) : Prop where
  truncate : s.truncate = true → s'.truncate = true
  tolerance : s.tolerance ≤ s'.tolerance

theorem strict_loosensTo_standard : strict.LoosensTo standard :=
  ⟨nofun, by decide⟩

theorem standard_loosensTo_permissive : standard.LoosensTo permissive :=
  ⟨nofun, by decide⟩

variable {s s' : Settings} {c : Crs} {p : Position}

theorem LoosensTo.admits (h : s.LoosensTo s') {n : Nat} (hn : s.Admits c n) : s'.Admits c n := by
  rcases hn with hn | ⟨ht, hlt⟩
  · exact .inl hn
  · exact .inr ⟨h.truncate ht, hlt⟩

/-- Whatever the settings, what counts of an admitted position is as long as the system has axes. -/
theorem Admits.counted (h : s.Admits c p.dimension) :
    (if s.truncate = true ∧ c.dimension < p.dimension then p.ordinates.take c.dimension
      else p.ordinates) = p.ordinates.take c.dimension := by
  split
  · rfl
  · next hcut =>
    rcases h with h | h
    · rw [← h]
      exact List.take_length.symm
    · exact absurd h hcut

theorem accepts_iff :
    s.Accepts c p ↔
      s.Admits c p.dimension ∧ c.contains ⟨p.ordinates.take c.dimension⟩ = true := by
  constructor
  · intro h
    exact ⟨h.admitted, h.admitted.counted ▸ h.contained⟩
  · rintro ⟨ha, hc⟩
    exact ⟨ha, ha.counted.symm ▸ hc⟩

theorem LoosensTo.accepts (h : s.LoosensTo s') (hp : s.Accepts c p) : s'.Accepts c p := by
  rw [accepts_iff] at hp ⊢
  exact ⟨h.admits hp.1, hp.2⟩

end Settings

theorem Position.Meets.of_le {t t' : Float} {p q : Position} (h : p.Meets t q) (ht : t ≤ t') :
    p.Meets t' q :=
  h.imp fun _ _ hxy => Double.le_trans hxy ht

namespace Report

/-- The other report is on the same check, and it passes if this one does. -/
def KeepsPass (r r' : Report) : Prop :=
  r'.check = r.check ∧ (r.isPass = true → r'.isPass = true)

theorem KeepsPass.refl (r : Report) : r.KeepsPass r :=
  ⟨rfl, id⟩

theorem keepsPass_ofFindings {check : String} {fs gs : List Finding}
    (h : Finding.Quiet fs → Finding.Quiet gs) :
    (ofFindings check fs).KeepsPass (ofFindings check gs) := by
  refine ⟨rfl, ?_⟩
  rw [isPass_ofFindings, isPass_ofFindings]
  exact h

theorem all_pass_of_keepsPass {rs rs' : List Report} (h : List.Forall₂ KeepsPass rs rs')
    (hp : ∀ r ∈ rs, r.isPass = true) : ∀ r' ∈ rs', r'.isPass = true := by
  induction h with
  | nil => exact hp
  | cons hk _ ih =>
    rw [List.forall_mem_cons] at hp ⊢
    exact ⟨hk.2 hp.1, ih hp.2⟩

end Report

namespace Instance

open Finding (Quiet)

variable {s s' : Settings}

/-! ## Single checks -/

theorem checkCovered_loosened (h : s.LoosensTo s') (i : Instance) :
    (i.checkCovered s).KeepsPass (i.checkCovered s') := by
  refine ⟨rfl, ?_⟩
  rw [checkCovered_passes_iff, checkCovered_passes_iff]
  rintro ⟨c, hc, hp⟩
  exact ⟨c, hc, fun p hm => h.accepts (hp p hm)⟩

theorem checkPoint_loosened (h : s.LoosensTo s') {i : Instance} {p : Position}
    (hg : i.geometry = .point p) :
    ∃ r r', i.checkPoint s = .ok r ∧ i.checkPoint s' = .ok r' ∧ r.KeepsPass r' := by
  refine ⟨_, _, checkPoint_eq s hg, checkPoint_eq s' hg, Report.keepsPass_ofFindings ?_⟩
  unfold pointFindings
  cases i.crs with
  | none => exact fun hq => hq
  | some c =>
    rw [Settings.quiet_positionFindings, Settings.quiet_positionFindings]
    exact h.accepts

theorem envelope_shapeOk_loosened (h : s.LoosensTo s') {c : Crs} {lower upper : Position}
    (hs : (Geometry.envelope lower upper).ShapeOk s c) :
    (Geometry.envelope lower upper).ShapeOk s' c := by
  obtain ⟨hd, ha, ho⟩ := hs
  exact ⟨hd, h.admits ha, ho⟩

theorem checkEnvelope_loosened (h : s.LoosensTo s') {i : Instance} {lower upper : Position}
    (hg : i.geometry = .envelope lower upper) :
    ∃ r r', i.checkEnvelope s = .ok r ∧ i.checkEnvelope s' = .ok r' ∧ r.KeepsPass r' := by
  refine ⟨_, _, by rw [checkEnvelope, hg], by rw [checkEnvelope, hg],
    Report.keepsPass_ofFindings ?_⟩
  cases i.crs with
  | none => exact fun hq => hq
  | some c =>
    rw [quiet_envelopeFindings, quiet_envelopeFindings]
    exact envelope_shapeOk_loosened h

/-- A step that is not taken is not taken under any tolerance. -/
theorem quiet_jointFindings_of_le {t t' : Float} (ht : t ≤ t') (subject : String) (k : Nat)
    (a b : Segment) (hq : Quiet (jointFindings t subject k a b)) :
    Quiet (jointFindings t' subject k a b) := by
  unfold jointFindings at hq ⊢
  cases hj : joint? a b with
  | none => simp
  | some ends =>
    obtain ⟨p, q⟩ := ends
    rw [hj] at hq
    simp only [Finding.quiet_unless, Position.near_iff_meets] at hq ⊢
    exact hq.of_le ht

theorem quiet_connectionFindings_of_le {t t' : Float} (ht : t ≤ t') {subject : String}
    {ss : List Segment} (hq : Quiet (connectionFindings t subject ss)) :
    Quiet (connectionFindings t' subject ss) := by
  unfold connectionFindings at hq ⊢
  split at hq
  · exact absurd hq (Finding.not_quiet_cons_violated _ _)
  · next hne =>
    rw [if_neg hne]
    rw [Finding.quiet_flatMap] at hq ⊢
    rintro ⟨⟨a, b⟩, k⟩ hab
    exact quiet_jointFindings_of_le ht subject k a b (hq _ hab)

theorem checkConnected_loosened (h : s.LoosensTo s') {i : Instance} {ss : List Segment}
    (hg : i.geometry = .curve ss) :
    ∃ r r', i.checkConnected s = .ok r ∧ i.checkConnected s' = .ok r' ∧ r.KeepsPass r' :=
  ⟨_, _, by rw [checkConnected, hg], by rw [checkConnected, hg],
    Report.keepsPass_ofFindings (quiet_connectionFindings_of_le h.tolerance)⟩

/-! ## All checks -/

theorem checkAll_keepsPass (h : s.LoosensTo s') (i : Instance) :
    ∃ rs rs', i.checkAll s = .ok rs ∧ i.checkAll s' = .ok rs' ∧
      List.Forall₂ Report.KeepsPass rs rs' := by
  have hcovered := checkCovered_loosened h i
  cases hg : i.geometry with
  | point p =>
    obtain ⟨r, r', hr, hr', hk⟩ := checkPoint_loosened h hg
    refine ⟨[i.checkCrs, r], [i.checkCrs, r'], ?_, ?_, ?_⟩
    · simp only [checkAll, hg, hr]; rfl
    · simp only [checkAll, hg, hr']; rfl
    · exact .cons (.refl _) (.cons hk .nil)
  | lineString ps =>
    -- The length of a line string does not depend on the settings.
    obtain ⟨r, hr, -⟩ := checkLength_passes_iff (s := s) hg
    refine ⟨[i.checkCrs, r, i.checkCovered s], [i.checkCrs, r, i.checkCovered s'], ?_, ?_, ?_⟩
    · simp only [checkAll, hg, hr]; rfl
    · simp only [checkAll, hg, hr]; rfl
    · exact .cons (.refl _) (.cons (.refl _) (.cons hcovered .nil))
  | curve ss =>
    obtain ⟨r, -, hr, -, -⟩ := checkLength_checkConnected_pass_iff (s := s) hg
    obtain ⟨q, q', hq, hq', hk⟩ := checkConnected_loosened h hg
    refine ⟨[i.checkCrs, r, q, i.checkCovered s], [i.checkCrs, r, q', i.checkCovered s'], ?_, ?_, ?_⟩
    · simp only [checkAll, hg, hr, hq]; rfl
    · simp only [checkAll, hg, hr, hq']; rfl
    · exact .cons (.refl _) (.cons (.refl _) (.cons hk (.cons hcovered .nil)))
  | envelope lower upper =>
    obtain ⟨r, r', hr, hr', hk⟩ := checkEnvelope_loosened h hg
    refine ⟨[i.checkCrs, r, i.checkCovered s], [i.checkCrs, r', i.checkCovered s'], ?_, ?_, ?_⟩
    · simp only [checkAll, hg, hr]; rfl
    · simp only [checkAll, hg, hr']; rfl
    · exact .cons (.refl _) (.cons hk (.cons hcovered .nil))

/-- Every check has a report, and all of them pass. -/
def Passes (s : Settings) (i : Instance) : Prop :=
  ∃ rs, i.checkAll s = .ok rs ∧ ∀ r ∈ rs, r.isPass = true

theorem Passes.loosened (h : s.LoosensTo s') {i : Instance} (hp : i.Passes s) : i.Passes s' := by
  obtain ⟨rs, rs', hrs, hrs', hk⟩ := checkAll_keepsPass h i
  obtain ⟨rs₀, hrs₀, hpass⟩ := hp
  cases hrs.symm.trans hrs₀
  exact ⟨rs', hrs', Report.all_pass_of_keepsPass hk hpass⟩

/-- Loosening the settings never loses a pass. The reports stand in the same places, each one that
passes goes on passing, and so the strict settings accept no more than the standard ones, and
these no more than the permissive ones. -/
theorem checkAll_loosened :
    (∀ {s s' : Settings}, s.LoosensTo s' → ∀ i : Instance,
      ∃ rs rs', i.checkAll s = .ok rs ∧ i.checkAll s' = .ok rs' ∧
        List.Forall₂ Report.KeepsPass rs rs') ∧
    (∀ i : Instance, i.Passes .strict → i.Passes .standard) ∧
    ∀ i : Instance, i.Passes .standard → i.Passes .permissive :=
  ⟨checkAll_keepsPass, fun _ => Passes.loosened Settings.strict_loosensTo_standard,
    fun _ => Passes.loosened Settings.standard_loosensTo_permissive⟩

/-- A curve over the plane with heights that do not belong to it, and with a small gap. -/
def gapped : Instance := .withCrs plane <| .plain <| .curve [
    ⟨.linear, [⟨[0, 0, 7]⟩, ⟨[1, 1, 7]⟩]⟩,
    ⟨.geodesic, [⟨[1.0000005, 1, 7]⟩, ⟨[2, 2, 8]⟩]⟩]

/-- The same curve without heights and without the gap. -/
def joined : Instance := .withCrs plane <| .plain <| .curve [
    ⟨.linear, [⟨[0, 0]⟩, ⟨[1, 1]⟩]⟩,
    ⟨.geodesic, [⟨[1, 1]⟩, ⟨[2, 2]⟩]⟩]

theorem checkAll_loosened_curves :
    (∃ rs rs', gapped.checkAll .standard = .ok rs ∧ gapped.checkAll .permissive = .ok rs' ∧
      rs.map Report.isPass = [true, true, false, false] ∧
      rs'.map Report.isPass = [true, true, true, true] ∧
      List.Forall₂ Report.KeepsPass rs rs') ∧
    joined.Passes .strict ∧ joined.Passes .standard ∧ joined.Passes .permissive := by
  have hstandard : (gapped.checkAll .standard).toOption.map (·.map Report.isPass) =
      some [true, true, false, false] := by decide +kernel
  have hpermissive : (gapped.checkAll .permissive).toOption.map (·.map Report.isPass) =
      some [true, true, true, true] := by decide +kernel
  have hstrict : (joined.checkAll .strict).toOption.map (·.all Report.isPass) = some true := by
    decide +kernel
  obtain ⟨hkeep, hloose, hlooser⟩ := checkAll_loosened
  constructor
  · obtain ⟨rs, rs', hrs, hrs', hk⟩ := hkeep Settings.standard_loosensTo_permissive gapped
    rw [hrs] at hstandard
    rw [hrs'] at hpermissive
    exact ⟨rs, rs', hrs, hrs', Option.some.inj hstandard, Option.some.inj hpermissive, hk⟩
  · have hp : joined.Passes .strict := by
      cases hrs : joined.checkAll .strict with
      | error x => rw [hrs] at hstrict; cases hstrict
      | ok rs =>
        rw [hrs] at hstrict
        exact ⟨rs, hrs, List.all_eq_true.1 (Option.some.inj hstrict)⟩
    exact ⟨hp, hloose joined hp, hlooser joined (hloose joined hp)⟩

end Instance

end GmlCheck
