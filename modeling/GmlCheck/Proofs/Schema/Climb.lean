import GmlCheck.Proofs.Schema.Relations

/-!
# Climbs from base to base

The search for a base as it goes on, one type at a time: a `Climb` keeps the types that it has
passed and gives up where it meets one of them again. What it has passed links only to what it has
passed or come to (`Climb.Sound`), so that a base that it has not met by then is met nowhere.
`derivesFrom_climb`: the climb ends within one step more than the model has types, with the verdict
of `derivesFrom`, which tells whether a chain of bases leads up.
-/

namespace GmlCheck.Schema

variable {m : Schema} {method : Option Method} {t base b : TypeId}

/-! ## Ways up -/

theorem hasBase_unique (hb : m.HasBase method t b) (h : m.HasBase method t base) : b = base := by
  rw [hasBase_iff] at hb h
  exact Option.some.inj (hb.symm.trans h)

/-- The base of a type is on every way up from it. -/
theorem derives_iff_of_hasBase (hb : m.HasBase method t b) (hne : t ≠ base) :
    m.Derives method t base ↔ m.Derives method b base := by
  refine ⟨fun h => ?_, fun h => .head hb h⟩
  rcases h.cases_head with rfl | ⟨c, hc, h⟩
  · exact absurd rfl hne
  · rwa [hasBase_unique hb hc]

theorem eq_of_derives_of_base?_eq_none (hn : m.base? method t = none)
    (h : m.Derives method t base) : t = base := by
  rcases h.cases_head with h | ⟨c, hc, -⟩
  · exact h
  · cases hn.symm.trans (hasBase_iff.1 hc)

/-- No way leads out of a set of types that holds a base of each. -/
theorem mem_of_derives {S : List TypeId} (hS : ∀ p ∈ S, ∃ b ∈ S, m.HasBase method p b)
    (ht : t ∈ S) (h : m.Derives method t base) : base ∈ S := by
  induction h with
  | refl => exact ht
  | tail _ hb ih =>
    obtain ⟨c, hc, hcb⟩ := hS _ ih
    rwa [← hasBase_unique hcb hb]

theorem derives_none_of_derives (h : m.Derives method t base) : m.Derives none t base := by
  refine Relation.ReflTransGen.mono (fun p b hb => ?_) t base h
  obtain ⟨d, hd, hbase, -⟩ := hb
  exact ⟨d, hd, hbase, fun k hk => by cases hk⟩

/-! ## Steps -/

/-- How far a search for a base has come. -/
structure Climb where
  here : TypeId
  passed : List TypeId

namespace Climb

def start (t : TypeId) : Climb := ⟨t, []⟩

/-- One step: a verdict, or the climb goes on at the base of the type. -/
def advance (m : Schema) (base : TypeId) (method : Option Method) (c : Climb) : Bool ⊕ Climb :=
  if c.here = base then .inl true
  else if c.here ∈ c.passed then .inl false
  else match m.base? method c.here with
    | none => .inl false
    | some b => .inr ⟨b, c.here :: c.passed⟩

/-- What one step can come to. -/
inductive Step (m : Schema) (base : TypeId) (method : Option Method) (c : Climb) :
    Bool ⊕ Climb → Prop where
  | found : c.here = base → Step m base method c (.inl true)
  | again : c.here ≠ base → c.here ∈ c.passed → Step m base method c (.inl false)
  | top : c.here ≠ base → m.base? method c.here = none → Step m base method c (.inl false)
  | up {b : TypeId} : c.here ≠ base → c.here ∉ c.passed → m.HasBase method c.here b →
      Step m base method c (.inr ⟨b, c.here :: c.passed⟩)

theorem step_advance (m : Schema) (base : TypeId) (method : Option Method) (c : Climb) :
    Step m base method c (c.advance m base method) := by
  unfold advance
  split_ifs with hhere hpassed
  · exact .found hhere
  · exact .again hhere hpassed
  · cases hb : m.base? method c.here with
    | none => exact .top hhere hb
    | some b => exact .up hhere hpassed (hasBase_iff.2 hb)

/-- The verdict that a climb comes to within `n` steps, none if it takes more. -/
def verdict? (m : Schema) (base : TypeId) (method : Option Method) : Nat → Climb → Option Bool
  | 0, _ => none
  | n + 1, c => (c.advance m base method).elim some (verdict? m base method n)

/-- What a climb from `t` has passed: types each once, each with a base that has been passed or come
to, and none of them the one looked for. A search that begins where it has come to loses nothing. -/
structure Sound (m : Schema) (base : TypeId) (method : Option Method) (t : TypeId) (c : Climb) :
    Prop where
  nodup : c.passed.Nodup
  linked : ∀ p ∈ c.passed, ∃ b ∈ c.here :: c.passed, m.HasBase method p b
  missed : base ∉ c.passed
  onward : m.Derives method t base ↔ m.Derives method c.here base

theorem sound_start : (start t).Sound m base method t where
  nodup := .nil
  linked p hp := by cases hp
  missed hb := by cases hb
  onward := .rfl

variable {c c' : Climb}

namespace Sound

theorem next (hc : c.Sound m base method t) (h : c.Step m base method (.inr c')) :
    c'.Sound m base method t ∧ c'.passed.length = c.passed.length + 1 := by
  cases h with
  | up hhere hpassed hup =>
    refine ⟨⟨List.nodup_cons.2 ⟨hpassed, hc.nodup⟩, ?_, ?_, ?_⟩, rfl⟩
    · refine List.forall_mem_cons.2 ⟨⟨_, List.mem_cons_self, hup⟩, fun p hp => ?_⟩
      obtain ⟨b, hb, hpb⟩ := hc.linked p hp
      exact ⟨b, List.mem_cons_of_mem _ hb, hpb⟩
    · exact List.not_mem_cons_of_ne_of_not_mem (Ne.symm hhere) hc.missed
    · exact hc.onward.trans (derives_iff_of_hasBase hup hhere)

theorem derivesFrom_eq {r : Bool} (hc : c.Sound m base method t)
    (h : c.Step m base method (.inl r)) : m.derivesFrom t base method = r := by
  rw [Bool.eq_iff_iff, derivesFrom_iff, hc.onward]
  cases h with
  | found hhere => exact iff_of_true (hhere ▸ .refl) rfl
  | again _ hpassed =>
    -- With the type met again, the types passed hold a base of each, and so they hold all above it.
    have hclosed : ∀ p ∈ c.passed, ∃ b ∈ c.passed, m.HasBase method p b := by
      intro p hp
      obtain ⟨b, hb, hpb⟩ := hc.linked p hp
      rcases List.mem_cons.1 hb with rfl | hb
      · exact ⟨_, hpassed, hpb⟩
      · exact ⟨b, hb, hpb⟩
    exact iff_of_false (fun h => hc.missed (mem_of_derives hclosed hpassed h)) Bool.false_ne_true
  | top hhere hnone =>
    exact iff_of_false (fun h => hhere (eq_of_derives_of_base?_eq_none hnone h))
      Bool.false_ne_true

/-- Only types of the model have bases. -/
theorem length_passed_le (hc : c.Sound m base method t) : c.passed.length ≤ m.types.size := by
  have hsub : c.passed ⊆ m.typeIds := by
    intro p hp
    obtain ⟨b, -, hb⟩ := hc.linked p hp
    exact List.mem_map.2 ⟨_, List.mem_range.2 (index_lt_of_base? (hasBase_iff.1 hb)), rfl⟩
  have hle := (List.subperm_of_subset hc.nodup hsub).length_le
  rwa [typeIds, List.length_map, List.length_range] at hle

theorem verdict?_eq {n : Nat} (hc : c.Sound m base method t)
    (hn : m.types.size < n + c.passed.length) :
    c.verdict? m base method n = some (m.derivesFrom t base method) := by
  induction n generalizing c with
  | zero =>
    have := hc.length_passed_le
    omega
  | succ n ih =>
    rw [verdict?]
    have hstep := c.step_advance m base method
    generalize c.advance m base method = o at hstep ⊢
    cases o with
    | inl r => exact congrArg some (hc.derivesFrom_eq hstep).symm
    | inr c' =>
      obtain ⟨hc', hlength⟩ := hc.next hstep
      exact ih hc' (by omega)

end Sound

end Climb

/-! ## Verdicts -/

/-- The climb from a type ends within one step more than the model has types, with the verdict of
`derivesFrom`: whether a chain of bases by the given method leads up to `base`, of no link or more.
So the types are in a preorder for each method, and in a larger one for all of them, whatever cycles
the bases run in and whatever they point to. -/
theorem derivesFrom_climb (m : Schema) (method : Option Method) :
    (∀ t base, (Climb.start t).verdict? m base method (m.types.size + 1) =
      some (m.derivesFrom t base method)) ∧
    (∀ t base, m.derivesFrom t base method = true ↔ m.Derives method t base) ∧
    (∀ t, m.derivesFrom t t method = true) ∧
    (∀ s t base, m.derivesFrom s t method = true → m.derivesFrom t base method = true →
      m.derivesFrom s base method = true) ∧
    ∀ t base, m.derivesFrom t base method = true → m.derivesFrom t base none = true := by
  refine ⟨fun t base => ?_, fun t base => derivesFrom_iff, ?_, ?_, ?_⟩
  · exact Climb.sound_start.verdict?_eq (Nat.lt_succ_self _)
  · simp only [derivesFrom_iff]
    exact fun t => .refl
  · simp only [derivesFrom_iff]
    exact fun s t base => .trans
  · simp only [derivesFrom_iff]
    exact fun t base => derives_none_of_derives

def typeBelow (base : Nat) (method : Method) : TypeDefinition :=
  .complex ⟨none, some ⟨⟨base⟩, method⟩, false, .empty, none, []⟩

/-- Three types in a ring, one of the links by restriction. -/
def ring : Schema :=
  { empty with
    types := #[typeBelow 1 .extension, typeBelow 2 .restriction, typeBelow 0 .extension] }

/-- A climb around the whole ring after a type that is not there needs all the steps. -/
theorem derivesFrom_climb_ring :
    (Climb.start ⟨0⟩).verdict? ring ⟨7⟩ none 3 = none ∧
      (Climb.start ⟨0⟩).verdict? ring ⟨7⟩ none 4 = some (ring.derivesFrom ⟨0⟩ ⟨7⟩ none) ∧
      ring.derivesFrom ⟨0⟩ ⟨7⟩ none = false ∧
      ring.derivesFrom ⟨7⟩ ⟨7⟩ none = true ∧
      ring.derivesFrom ⟨2⟩ ⟨0⟩ (some .extension) = true ∧
      ring.derivesFrom ⟨0⟩ ⟨1⟩ (some .extension) = true ∧
      ring.derivesFrom ⟨2⟩ ⟨1⟩ (some .extension) = true ∧
      ring.derivesFrom ⟨2⟩ ⟨1⟩ none = true ∧
      ring.derivesFrom ⟨0⟩ ⟨2⟩ (some .extension) = false := by
  obtain ⟨hends, -, hrefl, -, -⟩ := derivesFrom_climb ring none
  obtain ⟨-, -, -, htrans, hall⟩ := derivesFrom_climb ring (some .extension)
  have hlow : ring.derivesFrom ⟨2⟩ ⟨0⟩ (some .extension) = true := by decide
  have hhigh : ring.derivesFrom ⟨0⟩ ⟨1⟩ (some .extension) = true := by decide
  have hboth := htrans _ _ _ hlow hhigh
  exact ⟨by decide, hends _ _, by decide, hrefl _, hlow, hhigh, hboth, hall _ _ hboth, by decide⟩

end GmlCheck.Schema
