import GmlCheck.Proofs.Geometry.Truncation
import GmlCheck.Proofs.Geometry.Connection

/-!
# Gaps between segments that ignored ordinates make

The check of connection compares all ordinates of the positions where two segments meet, whatever
the settings ignore. Without the ordinates behind the first ones (`Instance.cutTo`) it compares
the same pairs, and segments stay connected that were. Segments may become connected that were not
(`Segment.PartedBehind`): these are the only ones of which the two checks say something different.
-/

namespace GmlCheck

theorem Position.Meets.truncated {tolerance : Float} {p q : Position} (h : p.Meets tolerance q)
    (d : Nat) : (p.truncated d).Meets tolerance (q.truncated d) :=
  List.forall₂_take d h

namespace Segment

variable {a b : Segment} {p q p' q' : Position} {ss : List Segment} {k : Nat}

theorem meeting_cutTo_iff (d : Nat) :
    (a.cutTo d).Meeting (b.cutTo d) p' q' ↔
      ∃ p q, a.Meeting b p q ∧ p.truncated d = p' ∧ q.truncated d = q' := by
  constructor
  · rintro ⟨ha, hb, hl, hf⟩
    rw [cutTo, List.getLast?_map, Option.map_eq_some_iff] at hl
    rw [cutTo, List.head?_map, Option.map_eq_some_iff] at hf
    obtain ⟨p, hp, rfl⟩ := hl
    obtain ⟨q, hq, rfl⟩ := hf
    exact ⟨p, q, ⟨ha, hb, hp, hq⟩, rfl, rfl⟩
  · rintro ⟨p, q, h, rfl, rfl⟩
    refine ⟨h.first_interpreted, h.second_interpreted, ?_, ?_⟩
    · rw [cutTo, List.getLast?_map, h.last, Option.map_some]
    · rw [cutTo, List.head?_map, h.first, Option.map_some]

theorem unmatched_cutTo_iff (d : Nat) : (a.cutTo d).Unmatched (b.cutTo d) ↔ a.Unmatched b := by
  simp only [Unmatched, cutTo, List.map_eq_nil_iff]

theorem meetingAt_cutTo_iff (d : Nat) :
    MeetingAt (ss.map (cutTo d)) k p' q' ↔
      ∃ p q, MeetingAt ss k p q ∧ p.truncated d = p' ∧ q.truncated d = q' := by
  rw [MeetingAt, exists_adjacent_map_iff]
  simp only [meeting_cutTo_iff]
  constructor
  · rintro ⟨a, b, ha, hb, p, q, hm, hp, hq⟩
    exact ⟨p, q, ⟨a, b, ha, hb, hm⟩, hp, hq⟩
  · rintro ⟨p, q, ⟨a, b, ha, hb, hm⟩, hp, hq⟩
    exact ⟨a, b, ha, hb, p, q, hm, hp, hq⟩

theorem unmatchedAt_cutTo_iff (d : Nat) {step : String} :
    UnmatchedAt (ss.map (cutTo d)) k step ↔ UnmatchedAt ss k step := by
  rw [UnmatchedAt, exists_adjacent_map_iff]
  simp only [unmatched_cutTo_iff, UnmatchedAt]

/-- Segment `k` does not end where the next one starts, but it would without the ordinates behind
the first `d`. -/
def PartedBehind (tolerance : Float) (d : Nat) (ss : List Segment) (k : Nat) : Prop :=
  ∃ p q, MeetingAt ss k p q ∧ ¬ p.Meets tolerance q ∧
    (p.truncated d).Meets tolerance (q.truncated d)

end Segment

namespace Report

variable {r r' : Report} {tolerance tolerance' : Float} {subject subject' : String}
  {ss ss' : List Segment}

/-- Where the same pairs are parted the verdicts are the same. -/
theorem TellsConnection.verdict_eq (h : r.TellsConnection tolerance subject ss)
    (h' : r'.TellsConnection tolerance' subject' ss') (hss : ss' = [] ↔ ss = [])
    (hnumbers : r'.numbers = r.numbers) : r'.verdict = r.verdict := by
  refine verdict_congr h'.skipReason h.skipReason ?_
  rw [h'.violations_eq_nil_iff, h.violations_eq_nil_iff, hnumbers, ne_eq, ne_eq, hss]

end Report

namespace Instance

open Segment

/-- Without the ordinates behind the first ones the same pairs are compared, and no pair is parted
that was not. The verdict and the parted pairs stay the same exactly if no pair is parted by those
ordinates only. No setting makes a difference to this. -/
theorem checkConnected_cutTo (s : Settings) (d : Nat) {i : Instance} {ss : List Segment}
    (hg : i.geometry = .curve ss) :
    ∃ r r', i.checkConnected s = .ok r ∧ (i.cutTo d).checkConnected s = .ok r' ∧
      r'.unchecked = r.unchecked ∧
      (∀ k, k ∈ r'.numbers ↔ k ∈ r.numbers ∧ ¬ PartedBehind s.tolerance d ss k) ∧
      (r'.verdict = r.verdict ∧ r'.numbers = r.numbers ↔
        ∀ k, ¬ PartedBehind s.tolerance d ss k) := by
  have hg' : (i.cutTo d).geometry = .curve (ss.map (Segment.cutTo d)) := by
    rw [cutTo, hg]
    rfl
  obtain ⟨r, hr, h⟩ := checkConnected_tells s hg
  obtain ⟨r', hr', h'⟩ := checkConnected_tells s hg'
  obtain ⟨hordered, hmem⟩ := h.numbers_eq
  obtain ⟨hordered', hmem'⟩ := h'.numbers_eq
  have hparted (k : Nat) : k ∈ r'.numbers ↔ k ∈ r.numbers ∧ ¬ PartedBehind s.tolerance d ss k := by
    rw [hmem, hmem']
    constructor
    · rintro ⟨p', q', hm', hn⟩
      obtain ⟨p, q, hm, rfl, rfl⟩ := (meetingAt_cutTo_iff d).1 hm'
      refine ⟨⟨p, q, hm, fun hmeets => hn (hmeets.truncated d)⟩, ?_⟩
      rintro ⟨p', q', hm', -, hmeets⟩
      obtain ⟨rfl, rfl⟩ := hm.unique hm'
      exact hn hmeets
    · rintro ⟨⟨p, q, hm, hn⟩, hbehind⟩
      exact ⟨_, _, (meetingAt_cutTo_iff d).2 ⟨p, q, hm, rfl, rfl⟩,
        fun hmeets => hbehind ⟨p, q, hm, hn, hmeets⟩⟩
  refine ⟨r, r', hr, hr', ?_, hparted, ⟨?_, fun hnone => ?_⟩⟩
  · exact h'.unmatched.unique <| h.unmatched.congr fun k step => (unmatchedAt_cutTo_iff d).symm
  · rintro ⟨-, hnumbers⟩ k ⟨p, q, hm, hn, hmeets⟩
    have hk : k ∈ r'.numbers := hnumbers ▸ (hmem k).2 ⟨p, q, hm, hn⟩
    exact ((hparted k).1 hk).2 ⟨p, q, hm, hn, hmeets⟩
  · have hnumbers : r'.numbers = r.numbers :=
      hordered'.eq_of_mem_iff hordered fun k => (hparted k).trans (and_iff_left (hnone k))
    exact ⟨h.verdict_eq h' List.map_eq_nil_iff hnumbers, hnumbers⟩

/-- A curve over the plane with heights that do not belong to it. The first two segments meet but
for their heights, the next one starts elsewhere, and the last one is not interpreted. -/
def ridge : Instance := .withCrs plane <| .plain <| .curve [
  ⟨.linear, [⟨[0, 0, 0]⟩, ⟨[1, 1, 7]⟩]⟩,
  ⟨.linear, [⟨[1, 1, 8]⟩, ⟨[2, 2, 9]⟩]⟩,
  ⟨.geodesic, [⟨[3, 3, 9]⟩, ⟨[4, 4, 9]⟩]⟩,
  ⟨.unsupported, [⟨[4, 4, 9]⟩]⟩]

theorem checkConnected_cutTo_ridge :
    ∃ ss r r', ridge.geometry = .curve ss ∧ ridge.crs = some plane ∧
      ridge.checkConnected .permissive = .ok r ∧
      (ridge.cutTo plane.dimension).checkConnected .permissive = .ok r' ∧
      r.numbers = [0, 1] ∧ r'.numbers = [1] ∧ r'.unchecked = r.unchecked ∧
      r.unchecked = ["segments 2 and 3"] ∧
      PartedBehind Settings.permissive.tolerance plane.dimension ss 0 := by
  obtain ⟨r, r', hr, hr', hunchecked, hparted, -⟩ :=
    checkConnected_cutTo .permissive plane.dimension (i := ridge) rfl
  have hv : (ridge.checkConnected .permissive).toOption.map (fun r => (r.numbers, r.unchecked)) =
      some ([0, 1], ["segments 2 and 3"]) := by decide +kernel
  have hv' : ((ridge.cutTo plane.dimension).checkConnected .permissive).toOption.map
      Report.numbers = some [1] := by decide +kernel
  rw [hr] at hv
  rw [hr'] at hv'
  obtain ⟨hnumbers, hu⟩ := Prod.mk.inj (Option.some.inj hv)
  have hnumbers' : r'.numbers = [1] := Option.some.inj hv'
  have hbehind : 0 ∈ r'.numbers ↔ 0 ∈ r.numbers ∧ ¬ PartedBehind _ _ _ 0 := hparted 0
  refine ⟨_, r, r', rfl, rfl, hr, hr', hnumbers, hnumbers', hunchecked, hu, ?_⟩
  by_contra hnot
  have h0 : 0 ∈ r'.numbers := hbehind.2 ⟨by rw [hnumbers]; exact List.mem_cons_self, hnot⟩
  rw [hnumbers'] at h0
  simp at h0

/-- A curve over the plane of two segments that meet but for heights that do not belong to it. -/
def ledge : Instance := .withCrs plane <| .plain <| .curve [
  ⟨.linear, [⟨[0, 0, 0]⟩, ⟨[1, 1, 7]⟩]⟩,
  ⟨.linear, [⟨[1, 1, 8]⟩, ⟨[2, 2, 9]⟩]⟩]

/-- The ignored heights part the segments, which are connected without them. -/
theorem checkConnected_parted_by_ignored :
    Settings.standard.ignoring.truncate = true ∧ ledge.crs = some plane ∧
    (ledge.checkConnected Settings.standard.ignoring).toOption.map
      (fun r => (r.verdict, r.numbers)) = some (.fail, [0]) ∧
    ((ledge.cutTo plane.dimension).checkConnected Settings.standard.ignoring).toOption.map
      (fun r => (r.verdict, r.numbers)) = some (.pass, []) :=
  ⟨rfl, rfl, by decide +kernel, by decide +kernel⟩

end Instance

end GmlCheck
