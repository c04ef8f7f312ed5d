import GmlCheck.Settings

/-!
# Settings that are in effect

Settings can be used when their tolerance is a number that is neither negative nor infinite.
Only such settings are read from a text, which gives each of the three or leaves it at its
standard.
-/

namespace GmlCheck.Settings

/-- The tolerance is a number, not infinite and not negative. -/
structure Usable (s : Settings) : Prop where
  number : s.tolerance.isNaN = false
  bounded : s.tolerance.isInf = false
  notNegative : ¬ s.tolerance < 0.0

theorem isFinite_eq (x : Float) : x.isFinite = (! x.isNaN && ! x.isInf) := by
  show x.toModel.unpack.isFinite = (! x.toModel.unpack.isNaN && ! x.toModel.unpack.isInf)
  cases x.toModel.unpack <;> rfl

theorem validate_eq_ok_iff {s s' : Settings} : s.validate = .ok s' ↔ s' = s ∧ s.Usable := by
  have husable : (s.tolerance.isFinite && ! (s.tolerance < 0.0)) = true ↔ s.Usable := by
    rw [isFinite_eq, Bool.and_eq_true, Bool.and_eq_true, Bool.not_eq_true', Bool.not_eq_true',
      Bool.not_eq_true', decide_eq_false_iff_not]
    exact ⟨fun ⟨⟨hn, hb⟩, hs⟩ => ⟨hn, hb, hs⟩, fun h => ⟨⟨h.number, h.bounded⟩, h.notNegative⟩⟩
  unfold validate
  split
  · next h => simp [husable.1 h, eq_comm]
  · next h => simp [mt husable.2 h]

theorem usable_standard : standard.Usable := ⟨by decide, by decide, by decide⟩

/-- A member that is missing leaves the standard. -/
def Given {α : Type} (read : Json → Option α) (standard : α) (member : Option Json) (x : α) :
    Prop :=
  match member with
  | none => x = standard
  | some j => read j = some x

theorem given_iff {α : Type} {read : Json → Option α} {standard : α} {member : Option Json}
    {x : α} :
    (match member with
      | none => some standard
      | some j => read j) = some x ↔ Given read standard member x := by
  cases member with
  | none => simp [Given, eq_comm]
  | some j => rfl

/-- The record gives the settings, or leaves them at the standard. -/
def Denotes (j : Json) (s : Settings) : Prop :=
  ∃ truncate tolerance includeHead,
    j.fields? ["truncate_excess_ordinates", "connectivity_tolerance",
      "include_head_for_feature_members"] = some [truncate, tolerance, includeHead] ∧
    Given Json.toBool? standard.truncate truncate s.truncate ∧
    Given Json.toFloat? standard.tolerance tolerance s.tolerance ∧
    Given Json.toBool? standard.includeHead includeHead s.includeHead

theorem ofJson?_eq_some_iff {j : Json} {s : Settings} : ofJson? j = some s ↔ Denotes j s := by
  unfold ofJson? Denotes
  simp only [Option.bind_eq_bind, Option.bind_eq_some_iff]
  constructor
  · rintro ⟨members, hmembers, h⟩
    split at h
    · next truncate tolerance includeHead =>
      obtain ⟨t, ht, x, hx, i, hi, heq⟩ := by simpa only [Option.bind_eq_some_iff] using h
      cases heq
      exact ⟨truncate, tolerance, includeHead, hmembers, given_iff.1 ht, given_iff.1 hx,
        given_iff.1 hi⟩
    · cases h
  · rintro ⟨truncate, tolerance, includeHead, hmembers, ht, hx, hi⟩
    refine ⟨_, hmembers, ?_⟩
    simp only [Option.bind_eq_some_iff]
    exact ⟨_, given_iff.2 ht, _, given_iff.2 hx, _, given_iff.2 hi, rfl⟩

theorem read_eq_ok_iff {text : String} {s : Settings} :
    read text = .ok s ↔ ∃ j, Json.parse? text = some j ∧ Denotes j s ∧ s.Usable := by
  have hdenotes {t : Settings} :
      (Json.parse? text).bind ofJson? = some t ↔ ∃ j, Json.parse? text = some j ∧ Denotes j t := by
    simp only [Option.bind_eq_some_iff, ofJson?_eq_some_iff]
  unfold read
  constructor
  · intro h
    split at h
    · next t ht =>
      obtain ⟨rfl, husable⟩ := validate_eq_ok_iff.1 h
      obtain ⟨j, hj, hd⟩ := hdenotes.1 ht
      exact ⟨j, hj, hd, husable⟩
    · cases h
  · rintro ⟨j, hj, hd, husable⟩
    rw [hdenotes.2 ⟨j, hj, hd⟩]
    exact validate_eq_ok_iff.2 ⟨rfl, husable⟩

end GmlCheck.Settings
