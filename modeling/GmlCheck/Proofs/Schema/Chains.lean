import Mathlib.Order.Lattice.Nat
import GmlCheck.Proofs.Schema.Relations

/-!
# Chains of substitution heads

`LeadsIn head n e` counts the links from an element to a head; `Nearest` takes the shortest way.
No element has two heads, so that behind an element the shortest way is longer by one link than
that of the head it names. `substitutes_nearest_first`: the elements that may stand for a head are
those from which a chain leads to it, each once, the ones with shorter chains first.
-/

namespace GmlCheck.Schema

variable {m : Schema} {head e c : ElementId} {n k : Nat}

/-- `n` links lead from `e` to `head`, at least one. -/
inductive LeadsIn (m : Schema) (head : ElementId) : Nat → ElementId → Prop where
  | one {e : ElementId} : m.HasHead e head → LeadsIn m head 1 e
  | step {n : Nat} {e c : ElementId} : m.HasHead e c → LeadsIn m head n c →
      LeadsIn m head (n + 1) e

/-- The shortest way from `e` to `head` has `n` links. -/
def Nearest (m : Schema) (head : ElementId) (n : Nat) (e : ElementId) : Prop :=
  IsLeast {k | m.LeadsIn head k e} n

theorem hasHead_unique (hc : m.HasHead e c) (h : m.HasHead e head) : c = head := by
  obtain ⟨d, hd, hc⟩ := hc
  obtain ⟨d', hd', hh⟩ := h
  cases hd.symm.trans hd'
  exact Option.some.inj (hc.symm.trans hh)

theorem transGen_hasHead_iff : Relation.TransGen m.HasHead e head ↔ ∃ n, m.LeadsIn head n e := by
  constructor
  · intro h
    induction h using Relation.TransGen.head_induction_on with
    | single h => exact ⟨1, .one h⟩
    | head h _ ih =>
      obtain ⟨n, hn⟩ := ih
      exact ⟨n + 1, .step h hn⟩
  · rintro ⟨n, h⟩
    induction h with
    | one h => exact .single h
    | step h _ ih => exact .head h ih

theorem nearest_one (h : m.HasHead e head) : m.Nearest head 1 e := by
  refine ⟨LeadsIn.one h, fun k hk => ?_⟩
  cases hk <;> omega

/-- The way from `e` leads by way of `c`, unless `c` is where it ends. -/
theorem Nearest.succ (h : m.HasHead e c) (hc : c ≠ head) (hn : m.Nearest head n c) :
    m.Nearest head (n + 1) e := by
  refine ⟨LeadsIn.step h hn.1, fun k hk => ?_⟩
  cases hk with
  | one h' => exact absurd (hasHead_unique h h') hc
  | step h' hk =>
    obtain rfl := hasHead_unique h h'
    exact Nat.succ_le_succ (hn.2 hk)

/-- The number of links on the shortest way from `e` to `head`, zero if there is no way. -/
noncomputable def distance (m : Schema) (head e : ElementId) : Nat := sInf {k | m.LeadsIn head k e}

theorem Nearest.distance_eq (h : m.Nearest head n e) : m.distance head e = n :=
  IsLeast.csInf_eq h

theorem exists_nearest (h : ∃ n, m.LeadsIn head n e) : ∃ n, m.Nearest head n e :=
  ⟨_, Nat.sInf_mem h, fun _ => Nat.sInf_le⟩

theorem exists_nearest_of_mem_substitutes (h : e ∈ m.substitutes head) :
    ∃ n, m.Nearest head n e :=
  exists_nearest (transGen_hasHead_iff.1 (mem_substitutes_iff.1 h).2)

theorem nodup_substitutes (m : Schema) (head : ElementId) : (m.substitutes head).Nodup :=
  Closure.nodup_collect (m.nodup_elementIds.erase head)

/-- Every link of the search leads on to an element that is farther away by one link. -/
theorem pairwise_distance_substitutes (m : Schema) (head : ElementId) :
    (m.substitutes head).Pairwise fun a b => m.distance head a ≤ m.distance head b := by
  have hmember : ∀ e ∈ m.members head, m.distance head e = 1 :=
    fun e he => (nearest_one (mem_members_iff.1 he)).distance_eq
  refine Closure.pairwise_level_collect (m.distance head) (fun a ha b hb => ?_) ?_
  -- The search keeps off the head, so that the way from `b` leads by way of `a`.
  · have ha : a ∈ m.substitutes head := Closure.mem_collect_iff.2 ha
    obtain ⟨n, hn⟩ := exists_nearest_of_mem_substitutes ha
    have hb := hn.succ (mem_members_iff.1 hb) (mem_substitutes_iff.1 ha).1
    rw [hn.distance_eq, hb.distance_eq]
  · refine List.pairwise_of_forall_mem_list fun a ha b hb => ?_
    rw [hmember a ha, hmember b hb]
    omega

theorem exists_lengths_substitutes (m : Schema) (head : ElementId) :
    ∃ ns : List Nat, List.Forall₂ (m.Nearest head) ns (m.substitutes head) ∧
      ns.Pairwise (· ≤ ·) := by
  refine ⟨(m.substitutes head).map (m.distance head), ?_,
    List.pairwise_map.2 (m.pairwise_distance_substitutes head)⟩
  rw [List.forall₂_map_left_iff, List.forall₂_same]
  intro e he
  obtain ⟨n, hn⟩ := exists_nearest_of_mem_substitutes he
  rwa [hn.distance_eq]

/-- The elements that may stand for a head are the other elements of the schema from which a chain
leads to it. Each is listed once, and none before one with a shorter chain. What stands for a member
stands for the head too, unless it is the head. -/
theorem substitutes_nearest_first (m : Schema) (head : ElementId) :
    (m.substitutes head).Nodup ∧
    (∀ e, e ∈ m.substitutes head ↔
      e ≠ head ∧ (∃ d, m.element? e = some d) ∧ ∃ n, m.LeadsIn head n e) ∧
    (∃ ns : List Nat, List.Forall₂ (m.Nearest head) ns (m.substitutes head) ∧
      ns.Pairwise (· ≤ ·)) ∧
    head ∉ m.substitutes head ∧
    ∀ b ∈ m.substitutes head, ∀ c ∈ m.substitutes b, c = head ∨ c ∈ m.substitutes head := by
  refine ⟨m.nodup_substitutes head, fun e => ?_, m.exists_lengths_substitutes head, ?_, ?_⟩
  · rw [mem_substitutes_iff, Substitutes, transGen_hasHead_iff]
    refine and_congr_right fun _ => ⟨fun h => ⟨?_, h⟩, fun h => h.2⟩
    obtain ⟨n, h⟩ := h
    cases h with
    | one h | step h _ =>
      obtain ⟨d, hd, -⟩ := h
      exact ⟨d, hd⟩
  · intro h
    exact (mem_substitutes_iff.1 h).1 rfl
  · intro b hb c hc
    rw [mem_substitutes_iff] at hb hc ⊢
    by_cases hch : c = head
    · exact .inl hch
    · exact .inr ⟨hch, hc.2.trans hb.2⟩

end GmlCheck.Schema
