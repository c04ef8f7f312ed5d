import GmlCheck.Closure
import GmlCheck.Proofs.Renaming

/-!
# What the breadth-first closure collects

`Linked next domain seeds` is the least set that holds the seeds within the
domain and, with a member, its successors within the domain. `mem_collect_iff`:
the search collects exactly this set, in whatever order it comes by its members.
`pairwise_level_collect`: where links lead from level to level, the order is that of the levels.
-/

namespace GmlCheck.Closure

variable {α : Type}

/-- A path inside the domain leads from a seed to the member. -/
inductive Linked (next : α → List α) (domain seeds : List α) : α → Prop where
  | seed {a : α} : a ∈ seeds → a ∈ domain → Linked next domain seeds a
  | link {a b : α} : Linked next domain seeds a → b ∈ next a → b ∈ domain →
      Linked next domain seeds b

/-- Paths in a smaller domain carry over if their seeds are themselves at the end of a path. -/
theorem Linked.of_seeds {next : α → List α} {d d' seeds seeds' : List α}
    (hd : ∀ a ∈ d', a ∈ d) (hs : ∀ a ∈ seeds', a ∈ d' → Linked next d seeds a) {a : α}
    (h : Linked next d' seeds' a) : Linked next d seeds a := by
  induction h with
  | seed hm ha => exact hs _ hm ha
  | link _ hn ha ih => exact .link ih hn (hd _ ha)

theorem not_linked_nil {next : α → List α} {domain : List α} {a : α} :
    ¬ Linked next domain [] a := by
  intro h
  induction h with
  | seed hm _ => cases hm
  | link _ _ _ ih => exact ih

/-- A seed outside the domain does not count. -/
theorem linked_cons_iff_of_not_mem {next : α → List α} {domain rest : List α} {a b : α}
    (ha : a ∉ domain) : Linked next domain (a :: rest) b ↔ Linked next domain rest b := by
  constructor
  · refine Linked.of_seeds (fun _ => id) fun c hc hc' => .seed ?_ hc'
    rcases List.mem_cons.1 hc with rfl | hc
    · exact absurd hc' ha
    · exact hc
  · exact Linked.of_seeds (fun _ => id) fun c hc => .seed (List.mem_cons_of_mem _ hc)

/-- Where every link leads one level on, nothing stands on a lower level than all seeds. -/
theorem Linked.le_level {next : α → List α} {domain seeds : List α} {level : α → Nat}
    (hnext : ∀ a, Linked next domain seeds a → ∀ b ∈ next a, level b = level a + 1) {n : Nat}
    (hn : ∀ a ∈ seeds, n ≤ level a) {b : α} (h : Linked next domain seeds b) : n ≤ level b := by
  induction h with
  | seed hm _ => exact hn _ hm
  | link ha hb _ ih =>
    rw [hnext _ ha _ hb]
    omega

section Renamed

variable {β : Type} {g : α → β} {next : α → List α} {next' : β → List β}
  {domain seeds : List α} {domain' seeds' : List β}

theorem Linked.rename (hnext : ∀ a ∈ domain, ∀ c ∈ next a, g c ∈ next' (g a))
    (hd : ∀ a ∈ domain, g a ∈ domain') (hs : ∀ a ∈ seeds, g a ∈ seeds') {a : α}
    (h : Linked next domain seeds a) : a ∈ domain ∧ Linked next' domain' seeds' (g a) := by
  induction h with
  | seed hm ha => exact ⟨ha, .seed (hs _ hm) (hd _ ha)⟩
  | link _ hn ha ih => exact ⟨ha, .link ih.2 (hnext _ ih.1 _ hn) (hd _ ha)⟩

/-- A path among renamed members is the image of a path, if no two members that count have the
same new name. -/
theorem Linked.of_rename {D : List α} (hg : Renaming.Distinct g D)
    (hdD : ∀ a ∈ domain, a ∈ D) (hsD : ∀ a ∈ seeds, a ∈ D)
    (hnD : ∀ a ∈ domain, ∀ c ∈ next a, c ∈ D)
    (hnext : ∀ a ∈ domain, ∀ b ∈ next' (g a), ∃ c ∈ next a, g c = b)
    (hd : ∀ b ∈ domain', ∃ a ∈ domain, g a = b) (hs : ∀ b ∈ seeds', ∃ a ∈ seeds, g a = b) {b : β}
    (h : Linked next' domain' seeds' b) : ∃ a ∈ domain, g a = b ∧ Linked next domain seeds a := by
  induction h with
  | seed hm hb =>
    obtain ⟨a, ha, rfl⟩ := hd _ hb
    obtain ⟨c, hc, hca⟩ := hs _ hm
    obtain rfl := hg _ (hsD _ hc) _ (hdD _ ha) hca
    exact ⟨c, ha, rfl, .seed hc ha⟩
  | link _ hn hb ih =>
    obtain ⟨a, ha, rfl⟩ := hd _ hb
    obtain ⟨p, hp, rfl, hlink⟩ := ih
    obtain ⟨c, hc, hca⟩ := hnext _ hp _ hn
    obtain rfl := hg _ (hnD _ hp _ hc) _ (hdD _ ha) hca
    exact ⟨c, ha, rfl, .link hlink hc ha⟩

end Renamed

variable [DecidableEq α]

/-- Taking a seed out of the domain and its successors in among the seeds loses nothing else. -/
theorem Linked.erase_seed {next : α → List α} {domain rest : List α} {a b : α}
    (h : Linked next domain (a :: rest) b) :
    b = a ∨ Linked next (domain.erase a) (rest ++ next a) b := by
  have inside {c : α} (hc : c ≠ a) (hm : c ∈ domain) : c ∈ domain.erase a :=
    (List.mem_erase_of_ne hc).2 hm
  induction h with
  | @seed c hm hc =>
    by_cases hca : c = a
    · exact .inl hca
    · have hr : c ∈ rest := (List.mem_cons.1 hm).resolve_left hca
      exact .inr (.seed (List.mem_append_left _ hr) (inside hca hc))
  | @link c e _ hn he ih =>
    by_cases hea : e = a
    · exact .inl hea
    · refine .inr ?_
      rcases ih with rfl | ih
      · exact .seed (List.mem_append_right _ hn) (inside hea he)
      · exact .link ih hn (inside hea he)

/-- Nor does it gain anything, if the seed is in the domain. -/
theorem Linked.of_erase_seed {next : α → List α} {domain rest : List α} {a b : α}
    (ha : a ∈ domain) (h : Linked next (domain.erase a) (rest ++ next a) b) :
    Linked next domain (a :: rest) b := by
  refine h.of_seeds (fun _ => List.mem_of_mem_erase) fun c hc hc' => ?_
  have hcd := List.mem_of_mem_erase hc'
  rcases List.mem_append.1 hc with hc | hc
  · exact .seed (List.mem_cons_of_mem _ hc) hcd
  · exact .link (.seed List.mem_cons_self ha) hc hcd

theorem mem_collect_iff {next : α → List α} {remaining pending : List α} {b : α} :
    b ∈ collect next remaining pending ↔ Linked next remaining pending b := by
  fun_induction collect next remaining pending with
  | case1 remaining => simp [not_linked_nil]
  | case2 remaining a rest ha ih =>
    rw [List.mem_cons, ih]
    constructor
    · rintro (rfl | h)
      · exact .seed List.mem_cons_self ha
      · exact h.of_erase_seed ha
    · exact Linked.erase_seed
  | case3 remaining a rest ha ih => rw [ih, linked_cons_iff_of_not_mem ha]

/-! ## The order of the members -/

/-- Where every link leads one level on, the search lists its members level by level. What is
pending stands in this order too, and on two levels at most. -/
theorem pairwise_level_collect {next : α → List α} {remaining pending : List α} (level : α → Nat)
    (hnext : ∀ a, Linked next remaining pending a → ∀ b ∈ next a, level b = level a + 1)
    (hpending : pending.Pairwise fun a b => level a ≤ level b ∧ level b ≤ level a + 1) :
    (collect next remaining pending).Pairwise fun a b => level a ≤ level b := by
  fun_induction collect next remaining pending with
  | case1 => exact .nil
  | case2 remaining a rest ha ih =>
    rw [List.pairwise_cons] at hpending
    obtain ⟨hrest, hpending⟩ := hpending
    have hdown : ∀ b ∈ next a, level b = level a + 1 := hnext a (.seed List.mem_cons_self ha)
    have hnext' : ∀ b, Linked next (remaining.erase a) (rest ++ next a) b →
        ∀ c ∈ next b, level c = level b + 1 := fun b hb => hnext b (hb.of_erase_seed ha)
    refine List.pairwise_cons.2 ⟨fun b hb => ?_, ih hnext' ?_⟩
    · refine (mem_collect_iff.1 hb).le_level hnext' fun c hc => ?_
      rcases List.mem_append.1 hc with hc | hc
      · exact (hrest c hc).1
      · rw [hdown c hc]
        omega
    · refine List.pairwise_append.2 ⟨hpending, ?_, fun b hb c hc => ?_⟩
      · refine List.pairwise_of_forall_mem_list fun b hb c hc => ?_
        rw [hdown b hb, hdown c hc]
        omega
      · have := hrest b hb
        rw [hdown c hc]
        omega
  | case3 remaining a rest ha ih =>
    exact ih (fun b hb => hnext b ((linked_cons_iff_of_not_mem ha).2 hb))
      (List.pairwise_cons.1 hpending).2

/-- Under new names the search collects the same members, in another order. -/
theorem collect_perm_map {β : Type} [DecidableEq β] {g : α → β} {next : α → List α}
    {next' : β → List β} {domain seeds : List α} {domain' seeds' : List β} {D : List α}
    (hg : Renaming.Distinct g D) (hdD : ∀ a ∈ domain, a ∈ D) (hsD : ∀ a ∈ seeds, a ∈ D)
    (hnD : ∀ a ∈ domain, ∀ c ∈ next a, c ∈ D)
    (hnext : ∀ a ∈ domain, (next' (g a)).Perm ((next a).map g))
    (hd : domain'.Perm (domain.map g)) (hs : seeds'.Perm (seeds.map g)) (hn : domain.Nodup) :
    (collect next' domain' seeds').Perm ((collect next domain seeds).map g) := by
  have hn' : domain'.Nodup := hd.nodup_iff.2 (hn.map_on (hg.of_subset hdD))
  have hg' : Renaming.Distinct g (collect next domain seeds) :=
    hg.of_subset fun a ha => hdD a (collect_subset ha)
  refine (List.perm_ext_iff_of_nodup (nodup_collect hn') ((nodup_collect hn).map_on hg')).2
    fun b => ?_
  rw [mem_collect_iff, List.mem_map]
  constructor
  · intro h
    obtain ⟨a, -, rfl, ha⟩ := h.of_rename hg hdD hsD hnD
      (fun a ha b hb => List.mem_map.1 ((hnext a ha).mem_iff.1 hb))
      (fun b hb => List.mem_map.1 (hd.mem_iff.1 hb))
      (fun b hb => List.mem_map.1 (hs.mem_iff.1 hb))
    exact ⟨a, mem_collect_iff.2 ha, rfl⟩
  · rintro ⟨a, ha, rfl⟩
    exact ((mem_collect_iff.1 ha).rename
      (fun a ha c hc => (hnext a ha).mem_iff.2 (List.mem_map_of_mem hc))
      (fun a ha => hd.mem_iff.2 (List.mem_map_of_mem ha))
      (fun a ha => hs.mem_iff.2 (List.mem_map_of_mem ha))).2

end GmlCheck.Closure
