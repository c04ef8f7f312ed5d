import Mathlib.Data.List.Nodup

/-!
# Lists under new names

A list is another one under new names if it is a permutation of its image. Parts
of the one are then parts of the other under the new names, where the predicates
that select them agree and different members have different names.
-/

namespace GmlCheck.Renaming

variable {α β : Type} {g : α → β} {xs : List α} {xs' : List β}

/-- No two members have the same new name. -/
def Distinct (g : α → β) (xs : List α) : Prop := ∀ a ∈ xs, ∀ c ∈ xs, g a = g c → a = c

theorem Distinct.of_subset {ys : List α} (hg : Distinct g ys) (h : ∀ a ∈ xs, a ∈ ys) :
    Distinct g xs :=
  fun a ha c hc => hg a (h a ha) c (h c hc)

theorem Distinct.of_perm (h : xs'.Perm (xs.map g)) (hn : xs'.Nodup) : Distinct g xs :=
  fun _ ha _ hc => List.inj_on_of_nodup_map (h.nodup_iff.1 hn) ha hc

theorem filter_perm {p : α → Bool} {p' : β → Bool} (h : xs'.Perm (xs.map g))
    (hp : ∀ a ∈ xs, p' (g a) = p a) : (xs'.filter p').Perm ((xs.filter p).map g) := by
  have hfilter := h.filter p'
  have hcongr : xs.filter (p' ∘ g) = xs.filter p := List.filter_congr hp
  rwa [List.filter_map, hcongr] at hfilter

variable [DecidableEq α] [DecidableEq β]

theorem contains_eq {ys : List α} {a : α} (hg : Distinct g ys) (h : xs'.Perm (xs.map g))
    (hx : ∀ c ∈ xs, c ∈ ys) (ha : a ∈ ys) : xs'.contains (g a) = xs.contains a := by
  rw [Bool.eq_iff_iff, List.contains_iff_mem, List.contains_iff_mem, h.mem_iff, List.mem_map]
  constructor
  · rintro ⟨c, hc, hca⟩
    exact hg c (hx c hc) a ha hca ▸ hc
  · intro hm
    exact ⟨a, hm, rfl⟩

theorem erase_perm {a : α} (hg : Distinct g xs) (h : xs'.Perm (xs.map g)) (hn : xs.Nodup)
    (ha : a ∈ xs) : (xs'.erase (g a)).Perm ((xs.erase a).map g) := by
  have hn' : xs'.Nodup := h.nodup_iff.2 (hn.map_on hg)
  rw [hn'.erase_eq_filter, hn.erase_eq_filter]
  refine filter_perm h fun c hc => ?_
  rw [Bool.eq_iff_iff, bne_iff_ne, bne_iff_ne, not_iff_not]
  exact ⟨hg c hc a ha, congrArg g⟩

omit [DecidableEq β] in
theorem nodup_eraseDups : ∀ xs : List α, xs.eraseDups.Nodup
  | [] => by simp
  | a :: xs => by
    rw [List.eraseDups_cons, List.nodup_cons]
    refine ⟨fun hm => ?_, nodup_eraseDups _⟩
    simpa using List.mem_eraseDups.1 hm
termination_by xs => xs.length
decreasing_by exact Nat.lt_succ_of_le (List.length_filter_le _ _)

theorem eraseDups_perm (hg : Distinct g xs) (h : xs'.Perm (xs.map g)) :
    xs'.eraseDups.Perm (xs.eraseDups.map g) := by
  have hg' : Distinct g xs.eraseDups := hg.of_subset fun a => List.mem_eraseDups.1
  refine (List.perm_ext_iff_of_nodup (nodup_eraseDups xs')
    ((nodup_eraseDups xs).map_on hg')).2 fun b => ?_
  simp only [List.mem_eraseDups, List.mem_map, h.mem_iff]

end GmlCheck.Renaming
