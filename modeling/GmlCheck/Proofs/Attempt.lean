import Mathlib.Data.List.Permutation

/-!
# Attempts in a row

How a sequence of steps that may fail comes to a result: every step before the
last one has a result, and `mapM` has one result for each member. `Matched` compares
two sequences, which fail together or have related results; `FailsBy` names the ways
in which a sequence fails, and `FailsOnly` bounds them.
-/

namespace GmlCheck.Attempt

variable {ε α β : Type}

@[simp] theorem ok_bind (a : α) (f : α → Except ε β) : (Except.ok a >>= f) = f a := rfl

@[simp] theorem error_bind (e : ε) (f : α → Except ε β) :
    (Except.error e >>= f) = .error e := rfl

@[simp] theorem throw_eq (e : ε) : (throw e : Except ε α) = .error e := rfl

@[simp] theorem pure_eq (a : α) : (pure a : Except ε α) = .ok a := rfl

theorem bind_eq_ok_iff {x : Except ε α} {f : α → Except ε β} {b : β} :
    (x >>= f) = .ok b ↔ ∃ a, x = .ok a ∧ f a = .ok b := by
  cases x with
  | error e =>
    constructor
    · intro h
      cases h
    · rintro ⟨a, h, -⟩
      cases h
  | ok a =>
    constructor
    · intro h
      exact ⟨a, rfl, h⟩
    · rintro ⟨a', h, hf⟩
      cases h
      exact hf

theorem bind_eq_error_iff {x : Except ε α} {f : α → Except ε β} {e : ε} :
    (x >>= f) = .error e ↔ x = .error e ∨ ∃ a, x = .ok a ∧ f a = .error e := by
  cases x with
  | error e' => simp
  | ok a => simp

theorem mapError_eq_ok_iff {ε' : Type} {x : Except ε α} {f : ε → ε'} {a : α} :
    x.mapError f = .ok a ↔ x = .ok a := by
  cases x <;> simp [Except.mapError]

theorem mapM_eq_ok_iff {f : α → Except ε β} {xs : List α} {ys : List β} :
    xs.mapM f = .ok ys ↔ List.Forall₂ (fun x y => f x = .ok y) xs ys := by
  induction xs generalizing ys with
  | nil =>
    rw [List.forall₂_nil_left_iff]
    exact ⟨fun h => by cases h; rfl, fun h => by rw [h]; rfl⟩
  | cons x xs ih =>
    rw [List.mapM_cons, bind_eq_ok_iff, List.forall₂_cons_left_iff]
    constructor
    · rintro ⟨y, hy, h⟩
      obtain ⟨zs, hzs, h⟩ := bind_eq_ok_iff.1 h
      cases h
      exact ⟨y, zs, hy, ih.1 hzs, rfl⟩
    · rintro ⟨y, zs, hy, hzs, rfl⟩
      exact ⟨y, hy, bind_eq_ok_iff.2 ⟨zs, ih.2 hzs, rfl⟩⟩

theorem mapM_append_eq_ok_iff {f : α → Except ε β} {xs ys : List α} {zs : List β} :
    (xs ++ ys).mapM f = .ok zs ↔
      ∃ as bs, xs.mapM f = .ok as ∧ ys.mapM f = .ok bs ∧ as ++ bs = zs := by
  simp only [List.mapM_append, bind_eq_ok_iff, pure_eq, Except.ok.injEq, exists_and_left]

/-- The first member that has no result is the one to blame. -/
theorem mapM_eq_error_iff {f : α → Except ε β} {xs : List α} {e : ε} :
    xs.mapM f = .error e ↔
      ∃ before x after, xs = before ++ x :: after ∧ (∀ y ∈ before, ∃ b, f y = .ok b) ∧
        f x = .error e := by
  induction xs with
  | nil => exact iff_of_false nofun (by simp)
  | cons y xs ih =>
    have hrest {b : β} : (xs.mapM f >>= fun bs => pure (b :: bs)) = .error e ↔
        xs.mapM f = .error e := by
      simp [bind_eq_error_iff]
    rw [List.mapM_cons, bind_eq_error_iff]
    simp only [hrest, ih]
    constructor
    · rintro (h | ⟨b, hb, before, x, after, rfl, hbefore, hx⟩)
      · exact ⟨[], y, xs, rfl, nofun, h⟩
      · exact ⟨y :: before, x, after, rfl, List.forall_mem_cons.2 ⟨⟨b, hb⟩, hbefore⟩, hx⟩
    · rintro ⟨before, x, after, h, hbefore, hx⟩
      cases before with
      | nil =>
        cases h
        exact .inl hx
      | cons z before =>
        cases h
        obtain ⟨⟨b, hb⟩, hbefore⟩ := List.forall_mem_cons.1 hbefore
        exact .inr ⟨b, hb, before, x, after, rfl, hbefore, hx⟩

theorem mapM_congr {f f' : α → Except ε β} {xs : List α} (h : ∀ x ∈ xs, f x = f' x) :
    xs.mapM f = xs.mapM f' := by
  induction xs with
  | nil => rfl
  | cons x xs ih =>
    rw [List.mapM_cons, List.mapM_cons, h x List.mem_cons_self,
      ih fun y hy => h y (List.mem_cons_of_mem x hy)]

theorem mapM_eq_of_forall₂ {f : α → Except ε β} {xs ys : List α}
    (h : List.Forall₂ (fun x y => f y = f x) xs ys) : ys.mapM f = xs.mapM f := by
  induction h with
  | nil => rfl
  | cons hxy _ ih => rw [List.mapM_cons, List.mapM_cons, hxy, ih]

theorem exists_of_mapM {f : α → Except ε β} {xs : List α} {ys : List β}
    (h : xs.mapM f = .ok ys) {x : α} (hx : x ∈ xs) : ∃ y, f x = .ok y := by
  have hf := mapM_eq_ok_iff.1 h
  induction hf with
  | nil => cases hx
  | @cons a b _ _ hab hrest ih =>
    rcases List.mem_cons.1 hx with rfl | hx
    · exact ⟨b, hab⟩
    · exact ih (mapM_eq_ok_iff.2 hrest) hx

/-- What holds of some result holds of the result for some member. -/
theorem exists_mem_of_mapM {f : α → Except ε β} {xs : List α} {ys : List β}
    (h : xs.mapM f = .ok ys) {P : β → Prop} :
    (∃ y ∈ ys, P y) ↔ ∃ x ∈ xs, ∃ y, f x = .ok y ∧ P y := by
  have hf := mapM_eq_ok_iff.1 h
  induction hf with
  | nil => simp
  | @cons x y xs ys hy hrest ih =>
    simp only [List.exists_mem_cons_iff, hy, Except.ok.injEq, exists_eq_left']
    exact or_congr_right (ih (mapM_eq_ok_iff.2 hrest))

/-- The attempt fails in one of the ways `P` if there is any, and has a result otherwise. -/
inductive FailsBy (P : ε → Prop) : Except ε α → Prop where
  | error {e : ε} : P e → FailsBy P (.error e)
  | ok (a : α) : (∀ e, ¬ P e) → FailsBy P (.ok a)

theorem FailsBy.congr {P Q : ε → Prop} {x : Except ε α} (h : FailsBy P x) (hpq : ∀ e, P e ↔ Q e) :
    FailsBy Q x := by
  cases h with
  | error hp => exact .error ((hpq _).1 hp)
  | ok a hp => exact .ok a fun e hq => hp e ((hpq e).2 hq)

/-- The second step adds its ways to fail to those of the first. -/
theorem FailsBy.bind {P Q : ε → Prop} {x : Except ε α} {f : α → Except ε β} (hx : FailsBy P x)
    (hf : ∀ a, x = .ok a → FailsBy Q (f a)) : FailsBy (fun e => P e ∨ Q e) (x >>= f) := by
  cases hx with
  | error hp => exact .error (.inl hp)
  | ok a hp =>
    rw [ok_bind]
    cases hy : f a with
    | error e =>
      have := hf a rfl
      rw [hy] at this
      cases this with
      | error hq => exact .error (.inr hq)
    | ok b =>
      have := hf a rfl
      rw [hy] at this
      cases this with
      | ok _ hq => exact .ok b fun e he => he.elim (hp e) (hq e)

/-- A last step that always has a result adds no way to fail. -/
theorem FailsBy.map {P : ε → Prop} {x : Except ε α} (hx : FailsBy P x) (f : α → β) :
    FailsBy P (x >>= fun a => .ok (f a)) := by
  cases hx with
  | error hp => exact .error hp
  | ok a hp => exact .ok _ hp

/-- A sequence fails as one of its members does. -/
theorem FailsBy.mapM {P : α → ε → Prop} {f : α → Except ε β} {xs : List α}
    (h : ∀ x ∈ xs, FailsBy (P x) (f x)) : FailsBy (fun e => ∃ x ∈ xs, P x e) (xs.mapM f) := by
  induction xs with
  | nil => exact .ok [] fun e ⟨x, hx, _⟩ => by cases hx
  | cons x xs ih =>
    rw [List.forall_mem_cons] at h
    rw [List.mapM_cons]
    refine (h.1.bind fun y _ => (ih h.2).map (y :: ·)).congr fun e => ?_
    rw [List.exists_mem_cons_iff]

theorem FailsBy.exists_error_iff {P : ε → Prop} {x : Except ε α} (h : FailsBy P x) :
    (∃ e, x = .error e) ↔ ∃ e, P e := by
  cases h with
  | error hp => exact iff_of_true ⟨_, rfl⟩ ⟨_, hp⟩
  | ok a hp => exact iff_of_false nofun fun ⟨e, he⟩ => hp e he

theorem FailsBy.of_error {P : ε → Prop} {x : Except ε α} {e : ε} (h : FailsBy P x)
    (hx : x = .error e) : P e := by
  cases h with
  | error hp => cases hx; exact hp
  | ok => cases hx

/-- The attempt fails in no other ways than `P`. -/
def FailsOnly (P : ε → Prop) (x : Except ε α) : Prop := ∀ e, x = .error e → P e

section FailsOnly

variable {P : ε → Prop}

theorem FailsOnly.ok (a : α) : FailsOnly P (.ok a : Except ε α) := by
  intro e h
  cases h

theorem FailsOnly.error {e : ε} (h : P e) : FailsOnly P (.error e : Except ε α) := by
  intro e' he
  cases he
  exact h

theorem FailsOnly.bind {x : Except ε α} {f : α → Except ε β} (hx : FailsOnly P x)
    (hf : ∀ a, FailsOnly P (f a)) : FailsOnly P (x >>= f) := by
  intro e h
  rcases bind_eq_error_iff.1 h with h | ⟨a, -, h⟩
  · exact hx e h
  · exact hf a e h

theorem FailsOnly.mapM {f : α → Except ε β} (h : ∀ x, FailsOnly P (f x)) (xs : List α) :
    FailsOnly P (xs.mapM f) := by
  intro e he
  obtain ⟨-, x, -, -, -, hx⟩ := mapM_eq_error_iff.1 he
  exact h x e hx

end FailsOnly

/-- Both attempts fail, or both have a result and the results are related. -/
inductive Matched (R : α → β → Prop) : Except ε α → Except ε β → Prop where
  | error (e e' : ε) : Matched R (.error e) (.error e')
  | ok {a : α} {b : β} : R a b → Matched R (.ok a) (.ok b)

theorem Matched.bind {γ δ : Type} {R : α → β → Prop} {S : γ → δ → Prop} {x : Except ε α}
    {x' : Except ε β} {f : α → Except ε γ} {f' : β → Except ε δ} (hx : Matched R x x')
    (hf : ∀ a b, R a b → Matched S (f a) (f' b)) : Matched S (x >>= f) (x' >>= f') := by
  cases hx with
  | error e e' => exact .error e e'
  | ok h => exact hf _ _ h

/-- The same steps in another order have the same results in another order. -/
theorem mapM_perm {f : α → Except ε β} {xs ys : List α} (h : ys.Perm xs) :
    Matched (fun rs rs' => rs'.Perm rs) (xs.mapM f) (ys.mapM f) := by
  have carry {xs ys : List α} {rs : List β} (h : ys.Perm xs) (hr : xs.mapM f = .ok rs) :
      ∃ rs', ys.mapM f = .ok rs' ∧ rs'.Perm rs := by
    obtain ⟨rs', hf, hp⟩ := List.perm_comp_forall₂ h (mapM_eq_ok_iff.1 hr)
    exact ⟨rs', mapM_eq_ok_iff.2 hf, hp⟩
  cases hx : xs.mapM f with
  | ok rs =>
    obtain ⟨rs', hy, hp⟩ := carry h hx
    rw [hy]
    exact .ok hp
  | error e =>
    cases hy : ys.mapM f with
    | error e' => exact .error e e'
    | ok rs' =>
      obtain ⟨rs, hx', -⟩ := carry h.symm hy
      rw [hx] at hx'
      cases hx'

end GmlCheck.Attempt
