import GmlCheck.Proofs.Geometry.Conformance
import GmlCheck.Proofs.Text

/-!
# What is said of the segments of a curve

Two adjacent segments meet where the first one ends and the second one starts. The check of
connection passes over a pair of which one segment is not interpreted or has no positions
(`Segment.Unmatched`), and otherwise compares the two positions (`Segment.Meeting`). The check of
length looks at one segment at a time. `curve_account` says what the two reports hold: one entry
at most for every pair and for every segment, in the order of the segments.
-/

namespace GmlCheck

namespace Segment

variable {a b : Segment} {p q p' q' : Position}

/-- The segments cannot be compared: one of them is not interpreted or has no positions. -/
def Unmatched (a b : Segment) : Prop :=
  (a.interpolation = .unsupported ∨ b.interpolation = .unsupported) ∨
    a.positions = [] ∨ b.positions = []

/-- Both segments are interpreted; the first one ends at `p`, and the second one starts at `q`. -/
structure Meeting (a b : Segment) (p q : Position) : Prop where
  first_interpreted : a.interpolation ≠ .unsupported
  second_interpreted : b.interpolation ≠ .unsupported
  last : a.positions.getLast? = some p
  first : b.positions.head? = some q

theorem Meeting.unique (h : a.Meeting b p q) (h' : a.Meeting b p' q') : p = p' ∧ q = q' :=
  ⟨Option.some.inj (h.last.symm.trans h'.last), Option.some.inj (h.first.symm.trans h'.first)⟩

theorem Unmatched.not_meeting (h : a.Unmatched b) : ¬ a.Meeting b p q := by
  intro hm
  rcases h with (h | h) | h | h
  · exact hm.first_interpreted h
  · exact hm.second_interpreted h
  · simpa [h] using hm.last
  · simpa [h] using hm.first

theorem unmatched_or_meeting (a b : Segment) : a.Unmatched b ∨ ∃ p q, a.Meeting b p q := by
  by_cases ha : a.interpolation = .unsupported
  · exact .inl (.inl (.inl ha))
  by_cases hb : b.interpolation = .unsupported
  · exact .inl (.inl (.inr hb))
  by_cases hpa : a.positions = []
  · exact .inl (.inr (.inl hpa))
  by_cases hpb : b.positions = []
  · exact .inl (.inr (.inr hpb))
  exact .inr ⟨_, _, ha, hb, List.getLast?_eq_some_getLast hpa, List.head?_eq_some_head hpb⟩

/-! ## Segments and pairs by their numbers -/

variable {ss : List Segment} {k j : Nat}

/-- Segment `k` and the next one cannot be compared, and the step says so. -/
def UnmatchedAt (ss : List Segment) (k : Nat) (step : String) : Prop :=
  ∃ a b, ss[k]? = some a ∧ ss[k + 1]? = some b ∧ a.Unmatched b ∧
    step = s!"segments {k} and {k + 1}"

/-- Segment `k` ends at `p`, and the next one starts at `q`. -/
def MeetingAt (ss : List Segment) (k : Nat) (p q : Position) : Prop :=
  ∃ a b, ss[k]? = some a ∧ ss[k + 1]? = some b ∧ a.Meeting b p q

/-- Segment `k` does not end where the next one starts, and the violation says so. -/
def PartedAt (tolerance : Float) (subject : String) (ss : List Segment) (k : Nat) (v : Violation) :
    Prop :=
  ∃ p q, MeetingAt ss k p q ∧ ¬ p.Meets tolerance q ∧
    v = ⟨.segmentsNotConnected k p.ordinates q.ordinates, subject⟩

/-- Segment `k` is not interpreted, and the step says so. -/
def UninterpretedAt (ss : List Segment) (k : Nat) (step : String) : Prop :=
  ∃ a, ss[k]? = some a ∧ a.interpolation = .unsupported ∧ step = s!"segment {k}"

/-- Segment `k` has fewer positions than it needs, and the violation says so. -/
def ShortAt (subject : String) (ss : List Segment) (k : Nat) (v : Violation) : Prop :=
  ∃ a n, ss[k]? = some a ∧ a.interpolation.minimum? = some n ∧ a.positions.length < n ∧
    v = ⟨.insufficientCoordinates (some k) n a.positions.length, subject⟩

/-- What holds of the images of two adjacent segments. -/
theorem exists_adjacent_map_iff {f : Segment → Segment} {R : Segment → Segment → Prop} :
    (∃ a b, (ss.map f)[k]? = some a ∧ (ss.map f)[k + 1]? = some b ∧ R a b) ↔
      ∃ a b, ss[k]? = some a ∧ ss[k + 1]? = some b ∧ R (f a) (f b) := by
  simp only [List.getElem?_map, Option.map_eq_some_iff]
  constructor
  · rintro ⟨-, -, ⟨a, ha, rfl⟩, ⟨b, hb, rfl⟩, h⟩
    exact ⟨a, b, ha, hb, h⟩
  · rintro ⟨a, b, ha, hb, h⟩
    exact ⟨_, _, ⟨a, ha, rfl⟩, ⟨b, hb, rfl⟩, h⟩

theorem MeetingAt.unique (h : MeetingAt ss k p q) (h' : MeetingAt ss k p' q') :
    p = p' ∧ q = q' := by
  obtain ⟨a, b, ha, hb, hm⟩ := h
  obtain ⟨a', b', ha', hb', hm'⟩ := h'
  obtain rfl := Option.some.inj (ha.symm.trans ha')
  obtain rfl := Option.some.inj (hb.symm.trans hb')
  exact hm.unique hm'

theorem UnmatchedAt.not_partedAt {step : String} (h : UnmatchedAt ss k step) {tolerance : Float}
    {subject : String} {v : Violation} : ¬ PartedAt tolerance subject ss k v := by
  rintro ⟨p, q, ⟨a', b', ha', hb', hm⟩, -⟩
  obtain ⟨a, b, ha, hb, hu, -⟩ := h
  obtain rfl := Option.some.inj (ha.symm.trans ha')
  obtain rfl := Option.some.inj (hb.symm.trans hb')
  exact hu.not_meeting hm

/-- The text of a step tells the pair. -/
theorem pair_step_inj (h : s!"segments {k} and {k + 1}" = s!"segments {j} and {j + 1}") :
    k = j := by
  have hrest (n : Nat) : Text.Nondigit (" and " ++ toString n) :=
    Text.nondigit_append (s := " and ") rfl rfl _
  simp only [String.append_assoc] at h
  exact Text.eq_of_numbered "segments " (hrest _) (hrest _) h

theorem UnmatchedAt.number_unique {step : String} (h : UnmatchedAt ss k step)
    (h' : UnmatchedAt ss j step) : k = j := by
  obtain ⟨-, -, -, -, -, rfl⟩ := h
  obtain ⟨-, -, -, -, -, h⟩ := h'
  exact pair_step_inj h

theorem UninterpretedAt.not_shortAt {step : String} (h : UninterpretedAt ss k step)
    {subject : String} {v : Violation} : ¬ ShortAt subject ss k v := by
  rintro ⟨a', n, ha', hn, -⟩
  obtain ⟨a, ha, hi, -⟩ := h
  obtain rfl := Option.some.inj (ha.symm.trans ha')
  rw [hi] at hn
  cases hn

theorem UninterpretedAt.number_unique {step : String} (h : UninterpretedAt ss k step)
    (h' : UninterpretedAt ss j step) : k = j := by
  obtain ⟨-, -, -, rfl⟩ := h
  obtain ⟨-, -, -, h⟩ := h'
  have hrest : Text.Nondigit "" := nofun
  refine Text.eq_of_numbered "segment " hrest hrest ?_
  rw [String.append_empty, String.append_empty]
  exact h

end Segment

/-- What the check of connection says of the segments. -/
structure Report.TellsConnection (r : Report) (tolerance : Float) (subject : String)
    (ss : List Segment) : Prop where
  skipReason : r.skipReason = none
  noSegments : ss = [] → r.violations = [⟨.noSegments, subject⟩]
  parted : ss ≠ [] → Enumerates (Segment.PartedAt tolerance subject ss) r.violations
  unmatched : Enumerates (Segment.UnmatchedAt ss) r.unchecked

/-- What the check of length says of the segments. -/
structure Report.TellsLength (r : Report) (subject : String) (ss : List Segment) : Prop where
  short : Enumerates (Segment.ShortAt subject ss) r.violations
  uninterpreted : Enumerates (Segment.UninterpretedAt ss) r.unchecked

namespace Report

variable {r : Report} {tolerance : Float} {subject : String} {ss : List Segment}

/-- The numbers that are named are those of the pairs that are parted. -/
theorem TellsConnection.numbers_eq (h : r.TellsConnection tolerance subject ss) :
    r.numbers.Pairwise (· < ·) ∧
      ∀ k, k ∈ r.numbers ↔ ∃ p q, Segment.MeetingAt ss k p q ∧ ¬ p.Meets tolerance q := by
  by_cases hne : ss = []
  · have hnil : r.numbers = [] := by
      rw [numbers, h.noSegments hne]
      rfl
    rw [hnil, hne]
    exact ⟨.nil, fun k => by simp [Segment.MeetingAt]⟩
  · have hnumber : ∀ k v, Segment.PartedAt tolerance subject ss k v → v.number? = some k := by
      rintro k - ⟨p, q, -, -, rfl⟩
      rfl
    obtain ⟨hordered, hmem⟩ := (h.parted hne).numbers hnumber
    refine ⟨hordered, fun k => (hmem k).trans ⟨?_, ?_⟩⟩
    · rintro ⟨v, p, q, hm, hn, -⟩
      exact ⟨p, q, hm, hn⟩
    · rintro ⟨p, q, hm, hn⟩
      exact ⟨_, p, q, hm, hn, rfl⟩

theorem TellsConnection.violations_eq_nil_iff (h : r.TellsConnection tolerance subject ss) :
    r.violations = [] ↔ ss ≠ [] ∧ r.numbers = [] := by
  constructor
  · intro hv
    refine ⟨fun he => ?_, by rw [numbers, hv]; rfl⟩
    rw [h.noSegments he] at hv
    cases hv
  · rintro ⟨hne, hnumbers⟩
    rw [(h.parted hne).eq_nil_iff]
    rintro k v ⟨p, q, hm, hn, -⟩
    have hk := (h.numbers_eq.2 k).2 ⟨p, q, hm, hn⟩
    rw [hnumbers] at hk
    cases hk

theorem TellsConnection.violated_iff (h : r.TellsConnection tolerance subject ss)
    {subject' : String} {k : Nat} {p q : Position} :
    ⟨.segmentsNotConnected k p.ordinates q.ordinates, subject'⟩ ∈ r.violations ↔
      subject' = subject ∧ Segment.MeetingAt ss k p q ∧ ¬ p.Meets tolerance q := by
  by_cases hne : ss = []
  · rw [h.noSegments hne, hne]
    simp [Segment.MeetingAt]
  · rw [(h.parted hne).mem_iff]
    constructor
    · rintro ⟨j, ⟨xs⟩, ⟨ys⟩, hm, hn, heq⟩
      cases heq
      exact ⟨rfl, hm, hn⟩
    · rintro ⟨rfl, hm, hn⟩
      exact ⟨k, p, q, hm, hn, rfl⟩

theorem TellsConnection.step_mem_iff (h : r.TellsConnection tolerance subject ss) {k : Nat} :
    s!"segments {k} and {k + 1}" ∈ r.unchecked ↔
      Segment.UnmatchedAt ss k s!"segments {k} and {k + 1}" := by
  rw [h.unmatched.mem_iff]
  constructor
  · rintro ⟨j, a, b, ha, hb, hu, heq⟩
    obtain rfl := Segment.pair_step_inj heq
    exact ⟨a, b, ha, hb, hu, rfl⟩
  · exact fun hk => ⟨k, hk⟩

theorem TellsLength.numbers_ordered (h : r.TellsLength subject ss) :
    r.numbers.Pairwise (· < ·) := by
  have hnumber : ∀ k v, Segment.ShortAt subject ss k v → v.number? = some k := by
    rintro k - ⟨a, n, -, -, -, rfl⟩
    rfl
  exact (h.short.numbers hnumber).1

end Report

namespace Instance

open Segment

variable {a b : Segment} {p q : Position} {tolerance : Float} {subject : String} {k : Nat}

/-! ## One pair of segments -/

theorem joint?_of_meeting (h : a.Meeting b p q) : joint? a b = some (p, q) := by
  have ha : a.interpolation.isSupported = true := bne_iff_ne.2 h.first_interpreted
  have hb : b.interpolation.isSupported = true := bne_iff_ne.2 h.second_interpreted
  rw [joint?, ha, hb, last?, first?, h.last, h.first]
  rfl

theorem joint?_of_unmatched (h : a.Unmatched b) : joint? a b = none := by
  rw [joint?, last?, first?]
  rcases h with (h | h) | h | h
  · simp [h, Interpolation.isSupported]
  · simp [h, Interpolation.isSupported]
  · simp [h]
  · simp [h]

theorem length_jointFindings_le (tolerance : Float) (subject : String) (k : Nat) (a b : Segment) :
    (jointFindings tolerance subject k a b).length ≤ 1 := by
  unfold jointFindings
  split
  · exact le_rfl
  · split <;> simp

theorem unchecked_mem_jointFindings_iff {step : String} :
    .unchecked step ∈ jointFindings tolerance subject k a b ↔
      a.Unmatched b ∧ step = s!"segments {k} and {k + 1}" := by
  rcases unmatched_or_meeting a b with h | ⟨p, q, h⟩
  · simp [jointFindings, joint?_of_unmatched h, h]
  · have hnot : ¬ a.Unmatched b := fun hu => hu.not_meeting h
    rw [jointFindings, joint?_of_meeting h]
    simp only [hnot, false_and, iff_false]
    split <;> simp

theorem violated_mem_jointFindings_iff {v : Violation} :
    .violated v ∈ jointFindings tolerance subject k a b ↔
      ∃ p q, a.Meeting b p q ∧ ¬ p.Meets tolerance q ∧
        v = ⟨.segmentsNotConnected k p.ordinates q.ordinates, subject⟩ := by
  rcases unmatched_or_meeting a b with h | ⟨p, q, h⟩
  · simp [jointFindings, joint?_of_unmatched h, h.not_meeting]
  · rw [jointFindings, joint?_of_meeting h]
    constructor
    · intro hv
      dsimp only at hv
      split at hv
      · cases hv
      · next hn =>
        rw [List.mem_singleton] at hv
        exact ⟨p, q, h, mt (Position.near_iff_meets _ _ _).2 hn, Finding.violated.inj hv⟩
    · rintro ⟨p', q', h', hn, rfl⟩
      obtain ⟨rfl, rfl⟩ := h.unique h'
      simp [mt (Position.near_iff_meets _ _ _).1 hn]

/-! ## The reports on a curve -/

theorem connectionFindings_of_ne_nil {ss : List Segment} (h : ss ≠ []) :
    connectionFindings tolerance subject ss =
      (ss.zip ss.tail).zipIdx.flatMap fun ((a, b), k) => jointFindings tolerance subject k a b := by
  rw [connectionFindings, List.isEmpty_eq_false_iff.2 h]
  rfl

theorem checkConnected_tells (s : Settings) {i : Instance} {ss : List Segment}
    (hg : i.geometry = .curve ss) :
    ∃ r, i.checkConnected s = .ok r ∧ r.TellsConnection s.tolerance i.label ss := by
  refine ⟨_, by rw [checkConnected, hg], rfl, ?_, fun hne => ?_, ?_⟩
  · rintro rfl
    rfl
  · rw [connectionFindings_of_ne_nil hne]
    refine (Report.enumerates_violations _ ?_).congr fun k v => ?_
    · rintro ⟨⟨a, b⟩, k⟩
      exact (List.length_filterMap_le _ _).trans (length_jointFindings_le _ _ k a b)
    · simp only [Prod.exists, List.getElem?_zip_eq_some, List.getElem?_tail,
        violated_mem_jointFindings_iff]
      constructor
      · rintro ⟨a, b, ⟨ha, hb⟩, p, q, hm, hn, hv⟩
        exact ⟨p, q, ⟨a, b, ha, hb, hm⟩, hn, hv⟩
      · rintro ⟨p, q, ⟨a, b, ha, hb, hm⟩, hn, hv⟩
        exact ⟨a, b, ⟨ha, hb⟩, p, q, hm, hn, hv⟩
  · -- A curve without segments has no pairs, so the test for it adds no step.
    have hpairs : (Report.ofFindings "curve segments connected"
        (connectionFindings s.tolerance i.label ss)).unchecked =
      (Report.ofFindings "curve segments connected" ((ss.zip ss.tail).zipIdx.flatMap
        fun ((a, b), k) => jointFindings s.tolerance i.label k a b)).unchecked := by
      cases ss <;> rfl
    rw [hpairs]
    refine (Report.enumerates_unchecked _ ?_).congr fun k step => ?_
    · rintro ⟨⟨a, b⟩, k⟩
      exact (List.length_filterMap_le _ _).trans (length_jointFindings_le _ _ k a b)
    · simp only [Prod.exists, List.getElem?_zip_eq_some, List.getElem?_tail,
        unchecked_mem_jointFindings_iff, UnmatchedAt, and_assoc]

/-! ## The length of segments -/

theorem length_segmentFindings_le (subject : String) (k : Nat) (a : Segment) :
    (segmentFindings subject k a).length ≤ 1 := by
  unfold segmentFindings
  split
  · exact le_rfl
  · split <;> simp

theorem unchecked_mem_segmentFindings_iff {step : String} :
    .unchecked step ∈ segmentFindings subject k a ↔
      a.interpolation = .unsupported ∧ step = s!"segment {k}" := by
  unfold segmentFindings
  cases a.interpolation <;> simp [Interpolation.minimum?]

theorem violated_mem_segmentFindings_iff {v : Violation} :
    .violated v ∈ segmentFindings subject k a ↔
      ∃ n, a.interpolation.minimum? = some n ∧ a.positions.length < n ∧
        v = ⟨.insufficientCoordinates (some k) n a.positions.length, subject⟩ := by
  unfold segmentFindings
  cases a.interpolation.minimum? with
  | none => simp
  | some n =>
    by_cases h : n ≤ a.positions.length
    · simp [h]
    · simp [h, Nat.lt_of_not_le h]

theorem checkLength_tells {i : Instance} {ss : List Segment} (hg : i.geometry = .curve ss) :
    ∃ r, i.checkLength = .ok r ∧ r.TellsLength i.label ss := by
  refine ⟨_, by rw [checkLength, hg], ?_, ?_⟩
  · refine (Report.enumerates_violations _ ?_).congr fun k v => ?_
    · rintro ⟨a, k⟩
      exact (List.length_filterMap_le _ _).trans (length_segmentFindings_le _ k a)
    · simp only [violated_mem_segmentFindings_iff, ShortAt, exists_and_left]
  · refine (Report.enumerates_unchecked _ ?_).congr fun k step => ?_
    · rintro ⟨a, k⟩
      exact (List.length_filterMap_le _ _).trans (length_segmentFindings_le _ k a)
    · simp only [unchecked_mem_segmentFindings_iff, UninterpretedAt]

/-! ## Both reports -/

/-- The check of length has an entry for every segment that keeps a pair from being compared. -/
theorem exists_length_entry {ss : List Segment} (ha : ss[k]? = some a)
    (h : a.interpolation = .unsupported ∨ a.positions = []) (subject : String) :
    (∃ step, UninterpretedAt ss k step) ∨ ∃ v, ShortAt subject ss k v := by
  by_cases hi : a.interpolation = .unsupported
  · exact .inl ⟨_, a, ha, hi, rfl⟩
  · have hp := h.resolve_left hi
    have hs : a.interpolation.isSupported = true := bne_iff_ne.2 hi
    obtain ⟨n, hn⟩ := Option.isSome_iff_exists.1 (a.interpolation.minimum?_isSome.trans hs)
    have hpos : a.positions.length < n := by
      by_contra hle
      have hends := ends_of_supported hs fun m hm => by
        rw [hn] at hm
        cases hm
        exact Nat.le_of_not_lt hle
      obtain ⟨⟨q, hq⟩, -⟩ := hends
      simp [first?, hp] at hq
    exact .inr ⟨_, a, n, ha, hn, hpos, rfl⟩

theorem exists_length_entry_of_unmatchedAt {ss : List Segment} {step : String}
    (h : UnmatchedAt ss k step) (subject : String) :
    (∃ j step', UninterpretedAt ss j step') ∨ ∃ j v, ShortAt subject ss j v := by
  obtain ⟨a, b, ha, hb, hu, -⟩ := h
  have hside : (a.interpolation = .unsupported ∨ a.positions = []) ∨
      (b.interpolation = .unsupported ∨ b.positions = []) := by
    rcases hu with (h | h) | h | h <;> simp [h]
  rcases hside with h | h
  · exact (exists_length_entry ha h subject).imp (fun h => ⟨k, h⟩) fun h => ⟨k, h⟩
  · exact (exists_length_entry hb h subject).imp (fun h => ⟨k + 1, h⟩) fun h => ⟨k + 1, h⟩

/-- The two reports on a curve account for every pair of adjacent segments and for every segment, in
their order. A pair has a step that was not taken, or a violation, or nothing, and so has a segment;
no step is named twice. Where the length of all segments is right, every pair is compared. -/
theorem curve_account (s : Settings) {i : Instance} {ss : List Segment}
    (hg : i.geometry = .curve ss) :
    ∃ connection length, i.checkConnected s = .ok connection ∧ i.checkLength = .ok length ∧
      connection.TellsConnection s.tolerance i.label ss ∧ length.TellsLength i.label ss ∧
      (ss = [] → connection.unchecked = []) ∧
      (∀ k step v, UnmatchedAt ss k step → ¬ PartedAt s.tolerance i.label ss k v) ∧
      (∀ k step v, UninterpretedAt ss k step → ¬ ShortAt i.label ss k v) ∧
      connection.numbers.Pairwise (· < ·) ∧ length.numbers.Pairwise (· < ·) ∧
      connection.unchecked.Nodup ∧ length.unchecked.Nodup ∧
      (length.violations = [] → length.unchecked = [] → connection.unchecked = []) := by
  obtain ⟨connection, hconnection, hc⟩ := checkConnected_tells s hg
  obtain ⟨length, hlength, hl⟩ := checkLength_tells hg
  refine ⟨connection, length, hconnection, hlength, hc, hl, ?_, fun k step v h => h.not_partedAt,
    fun k step v h => h.not_shortAt, hc.numbers_eq.1, hl.numbers_ordered,
    hc.unmatched.nodup fun _ _ _ => UnmatchedAt.number_unique,
    hl.uninterpreted.nodup fun _ _ _ => UninterpretedAt.number_unique, fun hv hu => ?_⟩
  · rintro rfl
    rw [hc.unmatched.eq_nil_iff]
    rintro k step ⟨a, b, ha, -⟩
    cases ha
  · rw [hl.short.eq_nil_iff] at hv
    rw [hl.uninterpreted.eq_nil_iff] at hu
    rw [hc.unmatched.eq_nil_iff]
    intro k step h
    rcases exists_length_entry_of_unmatchedAt h i.label with ⟨j, step', h'⟩ | ⟨j, v, h'⟩
    · exact hu j step' h'
    · exact hv j v h'

/-- A curve with a gap, an arc that is too short, a segment that is not interpreted and one without
positions. -/
def patched : Instance := .plain <| .curve [
  ⟨.linear, [⟨[0, 0]⟩, ⟨[1, 1]⟩]⟩,
  ⟨.circularArc3Points, [⟨[2, 2]⟩, ⟨[3, 3]⟩]⟩,
  ⟨.unsupported, [⟨[3, 3]⟩]⟩,
  ⟨.linear, []⟩]

theorem curve_account_patched :
    ∃ ss connection length, patched.geometry = .curve ss ∧
      patched.checkConnected .standard = .ok connection ∧ patched.checkLength = .ok length ∧
      connection.TellsConnection Settings.standard.tolerance patched.label ss ∧
      length.TellsLength patched.label ss ∧
      connection.violations.map Violation.code = ["SegmentsNotConnected"] ∧
      connection.unchecked = ["segments 1 and 2", "segments 2 and 3"] ∧
      length.violations.map Violation.code =
        ["InsufficientCoordinates", "InsufficientCoordinates"] ∧
      length.unchecked = ["segment 2"] := by
  obtain ⟨connection, length, hc, hl, hconnection, hlength, -⟩ :=
    curve_account .standard (i := patched) rfl
  have hcv : (patched.checkConnected .standard).toOption.map
      (fun r => (r.violations.map Violation.code, r.unchecked)) =
      some (["SegmentsNotConnected"], ["segments 1 and 2", "segments 2 and 3"]) := by
    decide +kernel
  have hlv : patched.checkLength.toOption.map
      (fun r => (r.violations.map Violation.code, r.unchecked)) =
      some (["InsufficientCoordinates", "InsufficientCoordinates"], ["segment 2"]) := by
    decide +kernel
  rw [hc] at hcv
  rw [hl] at hlv
  obtain ⟨hcv, hcu⟩ := Prod.mk.inj (Option.some.inj hcv)
  obtain ⟨hlv, hlu⟩ := Prod.mk.inj (Option.some.inj hlv)
  exact ⟨_, connection, length, rfl, hc, hl, hconnection, hlength, hcv, hcu, hlv, hlu⟩

end Instance

end GmlCheck
