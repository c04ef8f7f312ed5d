import GmlCheck.Proofs.Double
import GmlCheck.Proofs.Geometry.Connection

/-!
# Curves travelled the other way

A curve travelled the other way has its segments in reverse order, and each of them runs through
its positions in reverse order (`Geometry.reversed`). Segment `k` and the next one of it are
segments `j + 1` and `j` of the curve, where `j + k + 2` is the number of segments
(`adjacent_reverse_iff`). They meet in the same two positions, and these are as far apart in either
order. So the check of connection says the same of them, with the positions exchanged.
-/

namespace GmlCheck

theorem Position.Meets.symm {tolerance : Float} {p q : Position} (h : p.Meets tolerance q) :
    q.Meets tolerance p := by
  refine List.Forall₂.flip (h.imp fun x y hxy => ?_)
  rw [flip, Double.abs_sub_comm]
  exact hxy

theorem Position.meets_comm {tolerance : Float} {p q : Position} :
    p.Meets tolerance q ↔ q.Meets tolerance p :=
  ⟨Meets.symm, Meets.symm⟩

/-- Members that are adjacent in the reversed list are adjacent in the list, the other way round. -/
theorem adjacent_reverse_iff {α : Type} {xs : List α} {a b : α} {k : Nat} :
    xs.reverse[k]? = some a ∧ xs.reverse[k + 1]? = some b ↔
      ∃ j, j + k + 2 = xs.length ∧ xs[j]? = some b ∧ xs[j + 1]? = some a := by
  have hget {j : Nat} (hj : j + k + 2 = xs.length) :
      xs.reverse[k]? = xs[j + 1]? ∧ xs.reverse[k + 1]? = xs[j]? :=
    ⟨List.getElem?_reverse' (by omega), List.getElem?_reverse' (by omega)⟩
  constructor
  · rintro ⟨ha, hb⟩
    have hlt := (List.getElem?_eq_some_iff.1 hb).1
    rw [List.length_reverse] at hlt
    obtain ⟨j, hj⟩ : ∃ j, j + k + 2 = xs.length := ⟨xs.length - (k + 2), by omega⟩
    obtain ⟨hk, hk'⟩ := hget hj
    exact ⟨j, hj, hk'.symm.trans hb, hk.symm.trans ha⟩
  · rintro ⟨j, hj, hb, ha⟩
    obtain ⟨hk, hk'⟩ := hget hj
    exact ⟨hk.trans ha, hk'.trans hb⟩

namespace Segment

variable {a b : Segment} {p q : Position} {ss : List Segment} {k : Nat}

/-- The same segment, travelled the other way. -/
def reversed (a : Segment) : Segment := { a with positions := a.positions.reverse }

theorem meeting_reversed_iff : a.reversed.Meeting b.reversed p q ↔ b.Meeting a q p := by
  constructor
  · rintro ⟨ha, hb, hp, hq⟩
    exact ⟨hb, ha, List.head?_reverse.symm.trans hq, List.getLast?_reverse.symm.trans hp⟩
  · rintro ⟨hb, ha, hq, hp⟩
    exact ⟨ha, hb, List.getLast?_reverse.trans hp, List.head?_reverse.trans hq⟩

theorem reversed_reversed (ss : List Segment) :
    (ss.reverse.map reversed).reverse.map reversed = ss := by
  simp [reversed, ← List.map_reverse, Function.comp_def]

theorem unmatched_reversed_iff : a.reversed.Unmatched b.reversed ↔ b.Unmatched a := by
  simp only [Unmatched, reversed, List.reverse_eq_nil_iff]
  exact or_congr or_comm or_comm

/-- What holds of two adjacent segments of the reversed curve, by what it comes to on the curve. -/
theorem exists_adjacent_reversed_iff {R R' : Segment → Segment → Prop}
    (hR : ∀ a b, R a.reversed b.reversed ↔ R' b a) :
    (∃ a b, (ss.reverse.map reversed)[k]? = some a ∧ (ss.reverse.map reversed)[k + 1]? = some b ∧
        R a b) ↔
      ∃ j, j + k + 2 = ss.length ∧ ∃ a b, ss[j]? = some a ∧ ss[j + 1]? = some b ∧ R' a b := by
  rw [exists_adjacent_map_iff]
  constructor
  · rintro ⟨a, b, ha, hb, h⟩
    obtain ⟨j, hj, hb, ha⟩ := adjacent_reverse_iff.1 ⟨ha, hb⟩
    exact ⟨j, hj, b, a, hb, ha, (hR a b).1 h⟩
  · rintro ⟨j, hj, b, a, hb, ha, h⟩
    obtain ⟨ha, hb⟩ := adjacent_reverse_iff.2 ⟨j, hj, hb, ha⟩
    exact ⟨a, b, ha, hb, (hR a b).2 h⟩

theorem meetingAt_reversed_iff :
    MeetingAt (ss.reverse.map reversed) k p q ↔
      ∃ j, j + k + 2 = ss.length ∧ MeetingAt ss j q p :=
  exists_adjacent_reversed_iff fun _ _ => meeting_reversed_iff

theorem unmatchedAt_reversed_iff :
    UnmatchedAt (ss.reverse.map reversed) k s!"segments {k} and {k + 1}" ↔
      ∃ j, j + k + 2 = ss.length ∧ UnmatchedAt ss j s!"segments {j} and {j + 1}" := by
  simp only [UnmatchedAt, and_true]
  exact exists_adjacent_reversed_iff fun _ _ => unmatched_reversed_iff

end Segment

/-- The same curve, travelled the other way. What is no curve stays as it is. -/
def Geometry.reversed : Geometry → Geometry
  | curve ss => curve (ss.reverse.map Segment.reversed)
  | g => g

/-- The same instance, travelled the other way. -/
def Instance.reversed (i : Instance) : Instance := { i with geometry := i.geometry.reversed }

namespace Report

open Segment

variable {r r' : Report} {tolerance : Float} {subject : String} {ss : List Segment}

/-- If no pair of the curve is parted, none is the other way. -/
theorem TellsConnection.violations_reversed
    (h : r.TellsConnection tolerance subject ss)
    (h' : r'.TellsConnection tolerance subject (ss.reverse.map reversed))
    (hv : r.violations = []) : r'.violations = [] := by
  obtain ⟨hne, hnumbers⟩ := h.violations_eq_nil_iff.1 hv
  rw [h'.violations_eq_nil_iff, List.eq_nil_iff_forall_not_mem]
  refine ⟨by simpa using hne, fun k hk => ?_⟩
  obtain ⟨p, q, hm, hn⟩ := (h'.numbers_eq.2 k).1 hk
  obtain ⟨j, -, hm⟩ := meetingAt_reversed_iff.1 hm
  have hj : j ∈ r.numbers := (h.numbers_eq.2 j).2 ⟨q, p, hm, mt Position.Meets.symm hn⟩
  rw [hnumbers] at hj
  cases hj

end Report

namespace Instance

open Segment

theorem checkConnected_tells_reversed (s : Settings) {i : Instance} {ss : List Segment}
    (hg : i.geometry = .curve ss) :
    ∃ r', i.reversed.checkConnected s = .ok r' ∧
      r'.TellsConnection s.tolerance i.label (ss.reverse.map Segment.reversed) := by
  have hg' : i.reversed.geometry = .curve (ss.reverse.map Segment.reversed) := by
    rw [reversed, hg]
    rfl
  have hlabel : i.reversed.label = i.label := by
    rw [label, label, hg', hg]
    rfl
  obtain ⟨r', hr', h'⟩ := checkConnected_tells s hg'
  exact ⟨r', hr', hlabel ▸ h'⟩

/-- Connection does not depend on the direction of travel. The verdict is the same. Where one
segment does not end at the start of the next one, the same two positions are named the other way
round at the mirrored pair, and the pairs that are not compared are the mirrored ones. -/
theorem checkConnected_reversed (s : Settings) {i : Instance} {ss : List Segment}
    (hg : i.geometry = .curve ss) :
    ∃ r r', i.checkConnected s = .ok r ∧ i.reversed.checkConnected s = .ok r' ∧
      r'.verdict = r.verdict ∧
      (∀ k (p q : Position) subject,
        ⟨.segmentsNotConnected k p.ordinates q.ordinates, subject⟩ ∈ r'.violations ↔
        ∃ j, j + k + 2 = ss.length ∧
          ⟨.segmentsNotConnected j q.ordinates p.ordinates, subject⟩ ∈ r.violations) ∧
      ∀ k : Nat, s!"segments {k} and {k + 1}" ∈ r'.unchecked ↔
        ∃ j, j + k + 2 = ss.length ∧ s!"segments {j} and {j + 1}" ∈ r.unchecked := by
  obtain ⟨r, hr, h⟩ := checkConnected_tells s hg
  obtain ⟨r', hr', h'⟩ := checkConnected_tells_reversed s hg
  refine ⟨r, r', hr, hr', ?_, fun k p q subject => ?_, fun k => ?_⟩
  · -- The curve is the reversed one travelled the other way, so that one implication serves both.
    refine Report.verdict_congr h'.skipReason h.skipReason ⟨fun hv => ?_, h.violations_reversed h'⟩
    refine h'.violations_reversed ?_ hv
    rw [reversed_reversed]
    exact h
  · simp only [h'.violated_iff, h.violated_iff, meetingAt_reversed_iff, Position.meets_comm (p := p)]
    constructor
    · rintro ⟨rfl, ⟨j, hj, hm⟩, hn⟩
      exact ⟨j, hj, rfl, hm, hn⟩
    · rintro ⟨j, hj, rfl, hm, hn⟩
      exact ⟨rfl, ⟨j, hj, hm⟩, hn⟩
  · simp only [h'.step_mem_iff, h.step_mem_iff, unmatchedAt_reversed_iff]

/-- A curve of an arc that ends beside the start of the next segment, one that meets the segment
behind it in no number, one that is not interpreted, and a last one. -/
def switchback : Instance := .plain <| .curve [
  ⟨.circularArc3Points, [⟨[0, 0]⟩, ⟨[1, 1]⟩, ⟨[2, 0]⟩]⟩,
  ⟨.linear, [⟨[2, 1]⟩, ⟨[3, 0 / 0]⟩]⟩,
  ⟨.linear, [⟨[3, 0 / 0]⟩, ⟨[4, 4]⟩]⟩,
  ⟨.unsupported, [⟨[4, 4]⟩, ⟨[5, 5]⟩]⟩,
  ⟨.linear, [⟨[5, 5]⟩, ⟨[6, 6]⟩]⟩]

theorem checkConnected_reversed_switchback :
    ∃ ss r r', switchback.geometry = .curve ss ∧ ss.length = 5 ∧
      switchback.checkConnected .standard = .ok r ∧
      switchback.reversed.checkConnected .standard = .ok r' ∧ r'.verdict = .fail ∧
      ⟨.segmentsNotConnected 3 [2, 1] [2, 0], "Curve"⟩ ∈ r'.violations ∧
      ⟨.segmentsNotConnected 2 [3, 0 / 0] [3, 0 / 0], "Curve"⟩ ∈ r'.violations ∧
      "segments 0 and 1" ∈ r'.unchecked ∧ "segments 1 and 2" ∈ r'.unchecked := by
  obtain ⟨r, r', hr, hr', hverdict, hparted, hsteps⟩ :=
    checkConnected_reversed .standard (i := switchback) rfl
  have hfound : (switchback.checkConnected .standard).toOption.map
      (fun r => (r.violations, r.unchecked)) =
      some ([⟨.segmentsNotConnected 0 [2, 0] [2, 1], "Curve"⟩,
          ⟨.segmentsNotConnected 1 [3, 0 / 0] [3, 0 / 0], "Curve"⟩],
        ["segments 2 and 3", "segments 3 and 4"]) := rfl
  rw [hr] at hfound
  obtain ⟨hv, hu⟩ := Prod.mk.inj (Option.some.inj hfound)
  have hfail : r.verdict = .fail := by
    rw [Report.verdict_eq_fail_iff, hv]
    exact List.cons_ne_nil _ _
  refine ⟨_, r, r', rfl, rfl, hr, hr', hverdict.trans hfail, (hparted 3 ⟨_⟩ ⟨_⟩ _).2 ⟨0, rfl, ?_⟩,
    (hparted 2 ⟨_⟩ ⟨_⟩ _).2 ⟨1, rfl, ?_⟩, (hsteps 0).2 ⟨3, rfl, ?_⟩, (hsteps 1).2 ⟨2, rfl, ?_⟩⟩
  · rw [hv]
    exact List.mem_cons_self
  · rw [hv]
    exact List.mem_cons_of_mem _ List.mem_cons_self
  · rw [hu]
    exact List.mem_cons_of_mem _ List.mem_cons_self
  · rw [hu]
    exact List.mem_cons_self

end Instance

end GmlCheck
