/-!
# Breadth-first closure

`Closure.collect next remaining pending` lists what can be reached from `pending`
along `next` within the finite domain `remaining`, nearest first and each member
once. Every member found leaves the domain, so the search ends on cycles too.
-/

namespace GmlCheck.Closure

variable {α : Type} [DecidableEq α]

def collect (next : α → List α) (remaining pending : List α) : List α :=
  match pending with
  | [] => []
  | a :: rest =>
    if _h : a ∈ remaining then a :: collect next (remaining.erase a) (rest ++ next a)
    else collect next remaining rest
termination_by (remaining.length, pending.length)
decreasing_by
  · have := List.length_erase_of_mem _h
    have := List.length_pos_of_mem _h
    exact Prod.Lex.left _ _ (by omega)
  · exact Prod.Lex.right _ (by simp)

theorem collect_subset {next : α → List α} {remaining pending : List α} {a : α}
    (h : a ∈ collect next remaining pending) : a ∈ remaining := by
  fun_induction collect next remaining pending with
  | case1 => simp at h
  | case2 remaining b rest hb ih =>
    rcases List.mem_cons.1 h with rfl | h
    · exact hb
    · exact List.mem_of_mem_erase (ih h)
  | case3 remaining b rest hb ih => exact ih h

theorem nodup_collect {next : α → List α} {remaining pending : List α} (h : remaining.Nodup) :
    (collect next remaining pending).Nodup := by
  fun_induction collect next remaining pending with
  | case1 => simp
  | case2 remaining b rest hb ih =>
    refine List.nodup_cons.2 ⟨fun hm => ?_, ih (h.erase b)⟩
    exact (h.mem_erase_iff.1 (collect_subset hm)).1 rfl
  | case3 remaining b rest hb ih => exact ih h

end GmlCheck.Closure
