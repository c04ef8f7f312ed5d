import GmlCheck.Geometry.Position
import GmlCheck.Proofs.Attempt

/-!
# Positions in a row

A text that is read as positions of one dimension is divided into them without loss:
`Position.Divides` says that all have the dimension and that their ordinates in a row are those of
the text.
-/

namespace GmlCheck.Position

section Chunks

variable {α : Type} {d : Nat} {xs c : List α}

theorem flatten_chunks (h : xs.length % d = 0) : (chunks d xs).flatten = xs := by
  have front (n : Nat) :
      ((List.range n).map fun i => (xs.drop (i * d)).take d).flatten = xs.take (n * d) := by
    induction n with
    | zero => simp
    | succ n ih =>
      rw [List.range_succ, List.map_append, List.flatten_append, ih, Nat.succ_mul, List.take_add]
      simp
  rw [chunks, front, Nat.div_mul_cancel (Nat.dvd_of_mod_eq_zero h), List.take_length]

theorem length_of_mem_chunks (h : c ∈ chunks d xs) : c.length = d := by
  obtain ⟨i, hi, rfl⟩ := List.mem_map.1 h
  have hfull : (i + 1) * d ≤ xs.length :=
    (Nat.mul_le_mul_right d (List.mem_range.1 hi)).trans (Nat.div_mul_le_self _ _)
  rw [Nat.succ_mul] at hfull
  rw [List.length_take, List.length_drop]
  omega

theorem length_flatten_of_forall {cs : List (List α)} (h : ∀ c ∈ cs, c.length = d) :
    cs.flatten.length = cs.length * d := by
  rw [List.length_flatten, List.map_eq_replicate_iff.2 h, List.sum_replicate_nat]

/-- There is one way to divide a list into pieces of one length. -/
theorem chunks_flatten (hd : 0 < d) {cs : List (List α)} (h : ∀ c ∈ cs, c.length = d) :
    chunks d cs.flatten = cs := by
  have hlength := length_flatten_of_forall h
  have hnumber : (chunks d cs.flatten).length = cs.length := by
    rw [chunks, List.length_map, List.length_range, hlength, Nat.mul_div_cancel _ hd]
  rw [List.eq_iff_flatten_eq, flatten_chunks (by rw [hlength, Nat.mul_mod_left]),
    List.map_eq_replicate_iff.2 h, List.map_eq_replicate_iff.2 fun c => length_of_mem_chunks,
    hnumber]
  exact ⟨rfl, rfl⟩

end Chunks

/-- The positions have the dimension `d`, and their ordinates in a row are those of the text. -/
structure Divides (text : String) (d : Nat) (ps : List Position) : Prop where
  positive : 0 < d
  dimension : ∀ p ∈ ps, p.dimension = d
  ordinates : readOrdinates text.toList = .ok (ps.flatMap ordinates)

theorem divides_of_readList {text : String} {d : Nat} {ps : List Position}
    (h : readList text d = .ok ps) : Divides text d ps := by
  unfold readList at h
  split at h
  · cases h
  · next hd =>
    obtain ⟨xs, hxs, h⟩ := Attempt.bind_eq_ok_iff.1 h
    split at h
    · next hdivides =>
      cases h
      refine ⟨Nat.pos_of_ne_zero hd, fun p hp => ?_, ?_⟩
      · obtain ⟨c, hc, rfl⟩ := List.mem_map.1 hp
        exact length_of_mem_chunks hc
      · rw [hxs, List.flatMap_map, List.flatMap_id', flatten_chunks hdivides]
    · cases h

theorem length_flatMap_ordinates {d : Nat} {ps : List Position} (h : ∀ p ∈ ps, p.dimension = d) :
    (ps.flatMap ordinates).length = ps.length * d := by
  have hlength := length_flatten_of_forall (List.forall_mem_map.2 h)
  rwa [List.length_map, ← List.flatMap_def] at hlength

theorem readList_eq_ok_iff {text : String} {d : Nat} {ps : List Position} :
    readList text d = .ok ps ↔ Divides text d ps := by
  refine ⟨divides_of_readList, fun h => ?_⟩
  have hchunks := chunks_flatten h.positive (List.forall_mem_map.2 h.dimension)
  rw [readList, if_neg h.positive.ne', h.ordinates, Attempt.ok_bind,
    length_flatMap_ordinates h.dimension, if_pos (Nat.mul_mod_left _ _), List.flatMap_def, hchunks,
    List.map_map]
  exact congrArg _ (List.map_id _)

end GmlCheck.Position
