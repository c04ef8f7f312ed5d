import Mathlib.Data.Finset.Card
import GmlCheck.Crs.Basic
import GmlCheck.Proofs.Crs.Abbreviation

/-!
# What a registry answers

A registry is the result of a run: systems are registered one after the other, on top of
nothing or of the systems in common use. `Registered r cs` says that `cs` is that run, the
first system first. What `r` answers is read off `cs`: a name stands for the last system
with its abbreviation.
-/

namespace GmlCheck.Crs

/-- The name under which a registry keeps the system. -/
def abbreviation (c : Crs) : String := abbreviate c.identifier

/-- `c` is the last system of `cs` that `srsName` can stand for. -/
def Latest (srsName : String) (cs : List Crs) (c : Crs) : Prop :=
  ∃ before after, cs = before ++ c :: after ∧ c.abbreviation = abbreviate srsName ∧
    ∀ d ∈ after, d.abbreviation ≠ abbreviate srsName

theorem latest_append {srsName : String} {cs : List Crs} {c d : Crs} :
    Latest srsName (cs ++ [d]) c ↔
      if abbreviate srsName = d.abbreviation then d = c else Latest srsName cs c := by
  constructor
  · rintro ⟨before, after, hcs, hkey, hafter⟩
    rcases List.eq_nil_or_concat after with rfl | ⟨after, e, rfl⟩
    · obtain ⟨rfl, hd⟩ := List.append_inj' hcs rfl
      cases hd
      rw [if_pos hkey.symm]
    · rw [List.concat_eq_append, ← List.cons_append, ← List.append_assoc] at hcs
      obtain ⟨rfl, hd⟩ := List.append_inj' hcs rfl
      cases hd
      rw [if_neg fun h => hafter d (by simp) h.symm]
      exact ⟨before, after, rfl, hkey, fun x hx => hafter x (by simp [hx])⟩
  · split
    · rintro rfl
      exact ⟨cs, [], rfl, Eq.symm ‹_›, by simp⟩
    · rintro ⟨before, after, rfl, hkey, hafter⟩
      refine ⟨before, after ++ [d], by simp, hkey, fun x hx => ?_⟩
      rcases List.mem_append.1 hx with hx | hx
      · exact hafter x hx
      · rw [List.mem_singleton.1 hx]
        exact Ne.symm ‹_›

/-- Some system is the last one with an abbreviation, if any has it. -/
theorem exists_latest_iff {srsName : String} {cs : List Crs} :
    (∃ c, Latest srsName cs c) ↔ ∃ c ∈ cs, c.abbreviation = abbreviate srsName := by
  constructor
  · rintro ⟨c, before, after, rfl, hkey, -⟩
    exact ⟨c, by simp, hkey⟩
  · induction cs using List.reverseRecOn with
    | nil => simp
    | append_singleton cs d ih =>
      rintro ⟨c, hc, hkey⟩
      by_cases hd : abbreviate srsName = d.abbreviation
      · exact ⟨d, latest_append.2 (by rw [if_pos hd])⟩
      · have hcs : c ∈ cs := by
          rcases List.mem_append.1 hc with hc | hc
          · exact hc
          · exact absurd (List.mem_singleton.1 hc ▸ hkey).symm hd
        obtain ⟨e, he⟩ := ih ⟨c, hcs, hkey⟩
        exact ⟨e, latest_append.2 (by rwa [if_neg hd])⟩

namespace Registry

/-- The systems `cs` were registered one after the other, and `r` came of it. -/
inductive Registered : Registry → List Crs → Prop
  | empty : Registered empty []
  | wellKnown : Registered wellKnown inCommonUse
  | register {r cs} (run : Registered r cs) (c : Crs) : Registered (r.register c) (cs ++ [c])

/-- `r` keeps what the last registrations of `cs` say. -/
structure Tracks (r : Registry) (cs : List Crs) : Prop where
  resolve : ∀ srsName c, r.resolve srsName = some c ↔ Latest srsName cs c
  keys : ∀ k, k ∈ r.table.keys ↔ k ∈ cs.map abbreviation

theorem tracks_empty : Tracks empty [] :=
  ⟨by simp [Registry.resolve, empty, Latest], by simp [empty]⟩

/-- One registration. -/
theorem Tracks.register {r : Registry} {cs : List Crs} (h : Tracks r cs) (d : Crs) :
    Tracks (r.register d) (cs ++ [d]) where
  resolve srsName c := by
    rw [resolve_register, latest_append, show abbreviate d.identifier = d.abbreviation from rfl]
    by_cases hd : abbreviate srsName = d.abbreviation
    · rw [if_pos hd, if_pos hd, Option.some_inj]
    · rw [if_neg hd, if_neg hd, h.resolve]
  keys k := by
    have hput : (r.register d).table.keys =
        if d.abbreviation ∈ r.table.keys then r.table.keys else r.table.keys ++ [d.abbreviation] :=
      Table.keys_put r.table d.abbreviation d
    rw [hput, List.map_append, List.mem_append, ← h.keys]
    split
    · simp only [List.map_cons, List.map_nil, List.mem_singleton, iff_self_or]
      rintro rfl
      assumption
    · exact List.mem_append

theorem Tracks.foldl {r : Registry} {cs : List Crs} (h : Tracks r cs) (ds : List Crs) :
    Tracks (ds.foldl Registry.register r) (cs ++ ds) := by
  induction ds generalizing r cs with
  | nil => rwa [List.append_nil]
  | cons d ds ih => simpa using ih (h.register d)

theorem Registered.tracks {r : Registry} {cs : List Crs} (run : Registered r cs) : Tracks r cs := by
  induction run with
  | empty => exact tracks_empty
  | wellKnown => exact tracks_empty.foldl inCommonUse
  | register _ c ih => exact ih.register c

/-- What a registry answers after the systems `cs` were registered. -/
structure Answers (r : Registry) (cs : List Crs) : Prop where
  /-- A name stands for the last system with its abbreviation. -/
  known : ∀ srsName c, r.resolve srsName = some c ↔ Latest srsName cs c
  /-- A name stands for nothing when no system has its abbreviation. -/
  unknown : ∀ srsName, r.resolve srsName = none ↔ ∀ c ∈ cs, c.abbreviation ≠ abbreviate srsName
  /-- The size counts the different abbreviations. -/
  size : r.size = (cs.map abbreviation).toFinset.card
  abbreviated : ∀ srsName, abbreviate (abbreviate srsName) = abbreviate srsName
  /-- A name may be abbreviated before it is looked up. -/
  short : ∀ srsName, r.resolve (abbreviate srsName) = r.resolve srsName
  /-- All names with one abbreviation stand for the same. -/
  spelling : ∀ srsName name, abbreviate srsName = abbreviate name →
    r.resolve srsName = r.resolve name
  /-- A system is found under its own name until another one takes its place. -/
  own : ∀ before c after, cs = before ++ c :: after →
    (∀ d ∈ after, d.abbreviation ≠ c.abbreviation) → r.resolve c.identifier = some c
  /-- From then on its name stands for a later system. -/
  replaced : ∀ before c after, cs = before ++ c :: after →
    (∃ d ∈ after, d.abbreviation = c.abbreviation) →
    ∃ d ∈ after, d.abbreviation = c.abbreviation ∧ r.resolve c.identifier = some d

theorem Tracks.unknown {r : Registry} {cs : List Crs} (h : Tracks r cs) (srsName : String) :
    r.resolve srsName = none ↔ ∀ c ∈ cs, c.abbreviation ≠ abbreviate srsName := by
  rw [← not_iff_not, ← ne_eq, Option.ne_none_iff_exists']
  simp only [h.resolve, exists_latest_iff]
  push Not
  rfl

theorem Tracks.size {r : Registry} {cs : List Crs} (h : Tracks r cs) :
    r.size = (cs.map abbreviation).toFinset.card := by
  have hsame : r.table.keys.toFinset = (cs.map abbreviation).toFinset := by
    ext k
    rw [List.mem_toFinset, List.mem_toFinset, h.keys]
  rw [← hsame, List.toFinset_card_of_nodup (show r.table.keys.Nodup from r.table.nodup)]
  exact (Table.length_keys r.table).symm

/-- A system behind `c` with its abbreviation is what the name of `c` stands for. -/
theorem exists_latest_of_mem_after {srsName : String} {after : List Crs} (before : List Crs)
    (c : Crs) (h : ∃ d ∈ after, d.abbreviation = abbreviate srsName) :
    ∃ d ∈ after, d.abbreviation = abbreviate srsName ∧ Latest srsName (before ++ c :: after) d := by
  obtain ⟨d, front, back, rfl, hkey, hback⟩ := exists_latest_iff.2 h
  exact ⟨d, by simp, hkey, before ++ c :: front, back, by simp, hkey, hback⟩

/-- A registry answers as its run says. -/
theorem answers_of_registered {r : Registry} {cs : List Crs} (run : Registered r cs) :
    Answers r cs where
  known := run.tracks.resolve
  unknown := run.tracks.unknown
  size := run.tracks.size
  abbreviated := abbreviate_abbreviate
  short srsName := by rw [resolve, abbreviate_abbreviate, resolve]
  spelling srsName name h := by rw [resolve, h, resolve]
  own before c after hcs hafter :=
    (run.tracks.resolve _ _).2 ⟨before, after, hcs, rfl, hafter⟩
  replaced before c after hcs hafter := by
    obtain ⟨d, hd, hkey, hlatest⟩ := exists_latest_of_mem_after before c hafter
    exact ⟨d, hd, hkey, (run.tracks.resolve _ _).2 (hcs ▸ hlatest)⟩

/-- A zone of the UTM grid, under a name that is its abbreviation. -/
def utm : Crs :=
  BoundedCrs.toCrs ⟨"EPSG:32632", [⟨"easting", 166000, 834000⟩, ⟨"northing", 0, 9330000⟩]⟩

/-- The same zone under a name with a version in it. -/
def utmNorth : Crs :=
  BoundedCrs.toCrs
    ⟨"urn:ogc:def:crs:EPSG:9.8:32632", [⟨"easting", 166000, 834000⟩, ⟨"northing", 0, 9330000⟩]⟩

theorem answers_of_registered_utm :
    Registered ((wellKnown.register utm).register utmNorth) (inCommonUse ++ [utm] ++ [utmNorth]) ∧
      Answers ((wellKnown.register utm).register utmNorth) (inCommonUse ++ [utm] ++ [utmNorth]) ∧
      ((wellKnown.register utm).register utmNorth).resolve " epsg:32632 " = some utmNorth ∧
      ((wellKnown.register utm).register utmNorth).resolve "EPSG:99" = none ∧
      ((wellKnown.register utm).register utmNorth).size = 5 := by
  have run : Registered ((wellKnown.register utm).register utmNorth)
      (inCommonUse ++ [utm] ++ [utmNorth]) :=
    .register (.register .wellKnown utm) utmNorth
  have answers := answers_of_registered run
  refine ⟨run, answers, (answers.known _ _).2 ⟨_, [], rfl, by decide, by simp⟩,
    (answers.unknown _).2 (by decide), answers.size.trans (by decide)⟩

end Registry

end GmlCheck.Crs
