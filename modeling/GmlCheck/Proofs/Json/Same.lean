import Mathlib.Data.List.Forall2
import Mathlib.Data.Option.Defs
import GmlCheck.Json.Value

/-!
# When two values of JSON are the same

`Same` compares values as their readers do: numbers as numbers, objects by what their keys lead
to, whatever the order of their members. A reader `Respects` this if it gets the same from the
same values. Readers of records are put together from readers of their parts, and for each way to
do so there are two lemmas: what it reads from what was written, and that it respects sameness.
-/

namespace GmlCheck.Json

/-- The same value. What has no text is no value. -/
inductive Same : Json → Json → Prop
  | null : Same null null
  | bool (b : Bool) : Same (bool b) (bool b)
  | natural (n : Nat) : Same (natural n) (natural n)
  | real {x y : Float} : (x == y) = true → Same (real x) (real y)
  | string (s : String) : Same (string s) (string s)
  | array {xs ys : List Json} : List.Forall₂ Same xs ys → Same (array xs) (array ys)
  | object {ms ns : List (String × Json)} :
      (∀ key, Option.Rel Same (ms.lookup key) (ns.lookup key)) → Same (object ms) (object ns)

theorem Same.member? {j j' : Json} (h : Same j j') (key : String) :
    Option.Rel Same (j.member? key) (j'.member? key) := by
  cases h with
  | object h => exact h key
  | null | bool | natural | real | string | array => exact .none

variable {α β γ δ : Type}

/-! ## Writing the same -/

theorem Same.nil : Same (.object []) (.object []) := .object fun _ => .none

theorem Same.cons {key : String} {v v' : Json} {ms ns : List (String × Json)} (hv : Same v v')
    (h : Same (.object ms) (.object ns)) :
    Same (.object ((key, v) :: ms)) (.object ((key, v') :: ns)) := by
  refine .object fun k => ?_
  rw [List.lookup_cons, List.lookup_cons]
  cases k == key with
  | true => exact .some hv
  | false => exact h.member? k

/-- Values that are equal only if identical need to be written as the same only if identical. -/
theorem Same.of_beq [BEq α] [LawfulBEq α] {write : α → Json} {a b : α}
    (hwrite : ∀ a, Same (write a) (write a)) (h : (a == b) = true) : Same (write a) (write b) := by
  obtain rfl := eq_of_beq h
  exact hwrite a

theorem Same.ofOption {write : α → Json} (hwrite : ∀ a, Same (write a) (write a)) (x : Option α) :
    Same (Json.ofOption write x) (Json.ofOption write x) := by
  cases x with
  | none => exact .null
  | some a => exact hwrite a

theorem Same.ofFloat {x y : Float} (hx : x.isFinite = true) (hy : y.isFinite = true)
    (h : (x == y) = true) : Same (Json.ofFloat x) (Json.ofFloat y) := by
  rw [Json.ofFloat, Json.ofFloat, if_pos hx, if_pos hy]
  exact .real h

theorem Same.list [BEq α] {write : α → Json} {xs ys : List α}
    (hwrite : ∀ x ∈ xs, ∀ y ∈ ys, (x == y) = true → Same (write x) (write y))
    (h : (xs == ys) = true) : Same (Json.list write xs) (Json.list write ys) := by
  refine .array ?_
  induction xs generalizing ys with
  | nil =>
    cases ys with
    | nil => exact .nil
    | cons => cases h
  | cons x xs ih =>
    cases ys with
    | nil => cases h
    | cons y ys =>
      obtain ⟨hhead, htail⟩ := Bool.and_eq_true_iff.1 (List.cons_beq_cons.symm.trans h)
      refine .cons (hwrite x List.mem_cons_self y List.mem_cons_self hhead) (ih ?_ htail)
      exact fun x hx y hy => hwrite x (List.mem_cons_of_mem _ hx) y (List.mem_cons_of_mem _ hy)

theorem Same.floats {xs ys : List Float} (hx : ∀ x ∈ xs, x.isFinite = true)
    (hy : ∀ y ∈ ys, y.isFinite = true) (h : (xs == ys) = true) :
    Same (Json.list Json.ofFloat xs) (Json.list Json.ofFloat ys) :=
  .list (fun x hmx y hmy => .ofFloat (hx x hmx) (hy y hmy)) h

/-! ## Readers -/

/-- What the member under the key reads as. -/
def required (key : String) (read : Json → Option α) (j : Json) : Option α :=
  (j.member? key).bind read

/-- What the member under the key reads as, and the default if it is missing. -/
def orDefault (key : String) (default : α) (read : Json → Option α) (j : Json) : Option α :=
  (j.member? key).elim (some default) read

/-- Null reads as nothing. -/
def nullable (read : Json → Option α) : Json → Option (Option α)
  | null => some none
  | j => (read j).map some

/-- The items of an array, all of which must read. -/
def items (read : Json → Option α) (j : Json) : Option (List α) :=
  j.toList?.bind (List.mapM read)

/-- A number that is written with a point or an exponent. -/
def toReal? : Json → Option Float
  | real x => some x
  | _ => none

/-- A value with one part. -/
def record₁ (f : α → δ) (a : Json → Option α) (j : Json) : Option δ :=
  (a j).bind fun x => some (f x)

/-- A value with two parts. -/
def record₂ (f : α → β → δ) (a : Json → Option α) (b : Json → Option β) (j : Json) : Option δ :=
  (a j).bind fun x => (b j).bind fun y => some (f x y)

/-- A value with three parts. -/
def record₃ (f : α → β → γ → δ) (a : Json → Option α) (b : Json → Option β) (c : Json → Option γ)
    (j : Json) : Option δ :=
  (a j).bind fun x => (b j).bind fun y => (c j).bind fun z => some (f x y z)

/-! ## Reading what was written -/

theorem required_eq {key : String} {read : Json → Option α} {j v : Json} {x : α}
    (hj : j.member? key = some v) (hv : read v = some x) : required key read j = some x := by
  rw [required, hj]
  exact hv

theorem toReal?_ofFloat {x : Float} (h : x.isFinite = true) : toReal? (ofFloat x) = some x := by
  rw [ofFloat, if_pos h]
  rfl

theorem nullable_text (s : Option String) : nullable toText? (ofOption .string s) = some s := by
  cases s <;> rfl

theorem nullable_natural (n : Option Nat) : nullable toNat? (ofOption .natural n) = some n := by
  cases n <;> rfl

theorem items_list {read : Json → Option α} {write : α → Json} {xs : List α}
    (h : ∀ x ∈ xs, read (write x) = some x) : items read (list write xs) = some xs := by
  show (xs.map write).mapM read = some xs
  induction xs with
  | nil => rfl
  | cons x xs ih =>
    rw [List.forall_mem_cons] at h
    rw [List.map_cons, List.mapM_cons, h.1, ih h.2]
    rfl

theorem items_floats {xs : List Float} (h : ∀ x ∈ xs, x.isFinite = true) :
    items toReal? (list ofFloat xs) = some xs :=
  items_list fun x hx => toReal?_ofFloat (h x hx)

section

variable {a : Json → Option α} {b : Json → Option β} {c : Json → Option γ} {j : Json}
  {x : α} {y : β} {z : γ}

theorem record₁_eq {f : α → δ} (ha : a j = some x) : record₁ f a j = some (f x) := by
  rw [record₁, ha]
  rfl

theorem record₂_eq {f : α → β → δ} (ha : a j = some x) (hb : b j = some y) :
    record₂ f a b j = some (f x y) := by
  rw [record₂, ha, hb]
  rfl

theorem record₃_eq {f : α → β → γ → δ} (ha : a j = some x) (hb : b j = some y)
    (hc : c j = some z) : record₃ f a b c j = some (f x y z) := by
  rw [record₃, ha, hb, hc]
  rfl

end

/-! ## Reading the same -/

variable [BEq α] [BEq β] [BEq γ] [BEq δ]

/-- The same values read as equal ones, or do not read. -/
def Respects (read : Json → Option α) : Prop := ∀ j j', Same j j' → (read j == read j') = true

theorem beq_bind {x x' : Option α} {f f' : α → Option β} (hx : (x == x') = true)
    (hf : ∀ a a', (a == a') = true → (f a == f' a') = true) : (x.bind f == x'.bind f') = true := by
  cases x with
  | none =>
    cases x' with
    | none => rfl
    | some a' => cases hx
  | some a =>
    cases x' with
    | none => cases hx
    | some a' => exact hf a a' hx

theorem respects_toText? : Respects toText? := by
  rintro _ _ (_ | _ | _ | _ | _ | _ | _) <;> simp [toText?]

theorem respects_toNat? : Respects toNat? := by
  rintro _ _ (_ | _ | _ | _ | _ | _ | _) <;> simp [toNat?]

theorem respects_toBool? : Respects toBool? := by
  rintro _ _ (_ | _ | _ | _ | _ | _ | _) <;> simp [toBool?]

theorem respects_toReal? : Respects toReal? := by
  rintro _ _ (_ | _ | _ | h | _ | _ | _)
  case real => exact h
  all_goals rfl

theorem Respects.required {read : Json → Option α} (h : Respects read) (key : String) :
    Respects (required key read) := by
  intro j j' hj
  have hmember := hj.member? key
  unfold Json.required
  generalize j.member? key = v, j'.member? key = v' at hmember ⊢
  cases hmember with
  | none => rfl
  | some hv => exact h _ _ hv

theorem Respects.orDefault {read : Json → Option α} (h : Respects read) (key : String)
    {default : α} (hd : (default == default) = true) : Respects (orDefault key default read) := by
  intro j j' hj
  have hmember := hj.member? key
  unfold Json.orDefault
  generalize j.member? key = v, j'.member? key = v' at hmember ⊢
  cases hmember with
  | none => exact hd
  | some hv => exact h _ _ hv

theorem Respects.nullable {read : Json → Option α} (h : Respects read) :
    Respects (nullable read) := by
  intro j j' hj
  have hsome : ((read j).map some == (read j').map some) = true := by
    rw [Option.map_eq_bind, Option.map_eq_bind]
    exact beq_bind (h j j' hj) fun _ _ ha => ha
  cases hj with
  | null => rfl
  | bool | natural | real | string | array | object => exact hsome

theorem Respects.items {read : Json → Option α} (h : Respects read) : Respects (items read) := by
  have hitems {xs ys : List Json} (hxy : List.Forall₂ Same xs ys) :
      (xs.mapM read == ys.mapM read) = true := by
    induction hxy with
    | nil => rfl
    | cons hx _ ih =>
      rw [List.mapM_cons, List.mapM_cons]
      refine beq_bind (h _ _ hx) fun a a' ha => beq_bind ih fun as as' has => ?_
      show (a :: as == a' :: as') = true
      rw [List.cons_beq_cons, ha, has]
      rfl
  intro j j' hj
  cases hj with
  | array hxy => exact hitems hxy
  | null | bool | natural | real | string | object => rfl

theorem Respects.record₁ {f : α → δ} {a : Json → Option α} (ha : Respects a)
    (hf : ∀ x x', (f x == f x') = (x == x')) : Respects (record₁ f a) := by
  intro j j' hj
  refine beq_bind (ha j j' hj) fun x x' hx => ?_
  exact (hf x x').trans hx

theorem Respects.record₂ {f : α → β → δ} {a : Json → Option α} {b : Json → Option β}
    (ha : Respects a) (hb : Respects b)
    (hf : ∀ x x' y y', (f x y == f x' y') = (x == x' && y == y')) : Respects (record₂ f a b) := by
  intro j j' hj
  refine beq_bind (ha j j' hj) fun x x' hx => beq_bind (hb j j' hj) fun y y' hy => ?_
  exact (hf x x' y y').trans (by rw [hx, hy]; rfl)

theorem Respects.record₃ {f : α → β → γ → δ} {a : Json → Option α} {b : Json → Option β}
    {c : Json → Option γ} (ha : Respects a) (hb : Respects b) (hc : Respects c)
    (hf : ∀ x x' y y' z z', (f x y z == f x' y' z') = (x == x' && (y == y' && z == z'))) :
    Respects (record₃ f a b c) := by
  intro j j' hj
  refine beq_bind (ha j j' hj) fun x x' hx => beq_bind (hb j j' hj) fun y y' hy =>
    beq_bind (hc j j' hj) fun z z' hz => ?_
  exact (hf x x' y y' z z').trans (by rw [hx, hy, hz]; rfl)

end GmlCheck.Json
