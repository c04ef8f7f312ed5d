import Mathlib.Data.List.Sort

/-!
# Lists that enumerate what belongs to numbers

A check goes through numbered things (positions, segments, ordinates) and notes what it has to say
of some of them. `Enumerates R xs` says what has been noted without going through anything: `xs`
holds what belongs to a number by `R`, once, in the order of the numbers, and nothing else. This
leaves no choice of the list (`Enumerates.unique`).
-/

namespace GmlCheck

theorem pairwise_snd_zipIdx {α : Type} (xs : List α) (k : Nat) :
    (xs.zipIdx k).Pairwise fun x y => x.2 < y.2 := by
  rw [← List.pairwise_map (f := Prod.snd) (R := (· < ·)), List.zipIdx_map_snd]
  exact List.pairwise_lt_range' 1

theorem pairwise_of_length_le_one {α : Type} {r : α → α → Prop} {xs : List α}
    (h : xs.length ≤ 1) : xs.Pairwise r := by
  match xs, h with
  | [], _ => exact .nil
  | [x], _ => exact List.pairwise_singleton r x

/-- The list holds what belongs to the numbers, in their order. A number to which something belongs
has one entry, and every other number has none. -/
def Enumerates {α : Type} (R : Nat → α → Prop) (xs : List α) : Prop :=
  ∃ numbered : List (Nat × α), numbered.map Prod.snd = xs ∧
    numbered.Pairwise (fun x y => x.1 < y.1) ∧ ∀ k a, (k, a) ∈ numbered ↔ R k a

namespace Enumerates

variable {α β : Type} {R S : Nat → α → Prop} {xs ys : List α}

theorem congr (h : Enumerates R xs) (hRS : ∀ k a, R k a ↔ S k a) : Enumerates S xs := by
  obtain ⟨numbered, hxs, hordered, hmem⟩ := h
  exact ⟨numbered, hxs, hordered, fun k a => (hmem k a).trans (hRS k a)⟩

theorem mem_iff (h : Enumerates R xs) {a : α} : a ∈ xs ↔ ∃ k, R k a := by
  obtain ⟨numbered, rfl, -, hmem⟩ := h
  simp only [List.mem_map, Prod.exists, exists_eq_right, hmem]

theorem eq_nil_iff (h : Enumerates R xs) : xs = [] ↔ ∀ k a, ¬ R k a := by
  obtain ⟨numbered, rfl, -, hmem⟩ := h
  rw [List.map_eq_nil_iff, List.eq_nil_iff_forall_not_mem]
  simp only [Prod.forall, hmem]

theorem unique (h : Enumerates R xs) (h' : Enumerates R ys) : xs = ys := by
  obtain ⟨numbered, rfl, hordered, hmem⟩ := h
  obtain ⟨numbered', rfl, hordered', hmem'⟩ := h'
  have : Std.Irrefl fun x y : Nat × α => x.1 < y.1 := ⟨fun x => Nat.lt_irrefl x.1⟩
  have : Std.Antisymm fun x y : Nat × α => x.1 < y.1 :=
    ⟨fun x y hxy hyx => absurd hyx (Nat.lt_asymm hxy)⟩
  have hsame : numbered = numbered' :=
    hordered.eq_of_mem_iff hordered' fun ⟨k, a⟩ => (hmem k a).trans (hmem' k a).symm
  rw [hsame]

/-- What belongs to one number only is listed once. -/
theorem nodup (h : Enumerates R xs) (hR : ∀ k j a, R k a → R j a → k = j) : xs.Nodup := by
  obtain ⟨numbered, rfl, hordered, hmem⟩ := h
  refine List.pairwise_map.2 (hordered.imp_of_mem fun {x y} hx hy hxy heq => ?_)
  have hy' : R y.1 x.2 := heq ▸ (hmem _ _).1 hy
  exact hxy.ne (hR _ _ _ ((hmem _ _).1 hx) hy')

/-- Entries that tell their numbers tell every number to which something belongs, in order. -/
theorem numbers (h : Enumerates R xs) {number? : α → Option Nat}
    (hnumber : ∀ k a, R k a → number? a = some k) :
    (xs.filterMap number?).Pairwise (· < ·) ∧ ∀ k, k ∈ xs.filterMap number? ↔ ∃ a, R k a := by
  obtain ⟨numbered, rfl, hordered, hmem⟩ := h
  have hfst : (numbered.map Prod.snd).filterMap number? = numbered.map Prod.fst := by
    rw [List.filterMap_map, ← List.filterMap_eq_map]
    exact List.filterMap_congr fun x hx => hnumber x.1 x.2 ((hmem _ _).1 hx)
  rw [hfst, List.pairwise_map]
  refine ⟨hordered, fun k => ?_⟩
  simp only [List.mem_map, Prod.exists, exists_and_right, exists_eq_right, hmem]

/-- A pass that notes at most one thing of each member of a list. -/
theorem of_zipIdx {bs : List β} {note : β × Nat → List α} (h : ∀ x, (note x).length ≤ 1) :
    Enumerates (fun k a => ∃ b, bs[k]? = some b ∧ a ∈ note (b, k)) (bs.zipIdx.flatMap note) := by
  refine ⟨bs.zipIdx.flatMap fun x => (note x).map (x.2, ·), ?_, ?_, fun k a => ?_⟩
  · simp only [List.map_flatMap, List.map_map, Function.comp_def, List.map_id']
  · refine List.pairwise_flatMap.2 ⟨fun x _ => ?_, (pairwise_snd_zipIdx bs 0).imp ?_⟩
    · refine pairwise_of_length_le_one ?_
      rw [List.length_map]
      exact h x
    · intro x y hxy a ha b hb
      obtain ⟨a, -, rfl⟩ := List.mem_map.1 ha
      obtain ⟨b, -, rfl⟩ := List.mem_map.1 hb
      exact hxy
  · simp only [List.mem_flatMap, List.mem_map, Prod.exists, List.mk_mem_zipIdx_iff_getElem?]
    constructor
    · rintro ⟨b, j, hb, a, ha, hja⟩
      cases hja
      exact ⟨b, hb, ha⟩
    · rintro ⟨b, hb, ha⟩
      exact ⟨b, k, hb, a, ha, rfl⟩

end Enumerates

end GmlCheck
