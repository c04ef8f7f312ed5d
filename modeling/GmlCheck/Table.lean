/-!
# Tables

A table maps keys to values and keeps the order in which keys were first put
in. Putting a key in again replaces its value and keeps its place, so that no
key has two places.
-/

namespace GmlCheck

namespace Table

variable {κ ν : Type} [DecidableEq κ]

/-- The value of the first entry for `k`. -/
def getIn? (k : κ) : List (κ × ν) → Option ν
  | [] => none
  | e :: es => if e.1 = k then some e.2 else getIn? k es

/-- Replaces the value of the first entry for `k`, or adds an entry at the end. -/
def putIn (k : κ) (v : ν) : List (κ × ν) → List (κ × ν)
  | [] => [(k, v)]
  | e :: es => if e.1 = k then (k, v) :: es else e :: putIn k v es

theorem map_fst_putIn (k : κ) (v : ν) (es : List (κ × ν)) :
    (putIn k v es).map (·.1) =
      if k ∈ es.map (·.1) then es.map (·.1) else es.map (·.1) ++ [k] := by
  induction es with
  | nil => simp [putIn]
  | cons e es ih =>
    by_cases hk : e.1 = k
    · simp [putIn, hk]
    · have hk' : ¬ k = e.1 := fun h => hk h.symm
      by_cases hm : k ∈ es.map (·.1)
      · rw [if_pos hm] at ih
        rw [if_pos (by simp only [List.map_cons, List.mem_cons, hm, or_true])]
        simp [putIn, hk, ih]
      · rw [if_neg hm] at ih
        rw [if_neg (by simp only [List.map_cons, List.mem_cons, hk', false_or]; exact hm)]
        simp [putIn, hk, ih]

theorem nodup_map_fst_putIn {es : List (κ × ν)} (h : (es.map (·.1)).Nodup) (k : κ) (v : ν) :
    ((putIn k v es).map (·.1)).Nodup := by
  rw [map_fst_putIn]
  split
  · exact h
  · rename_i hk
    refine List.nodup_append.2 ⟨h, by simp, ?_⟩
    rintro a ha b hb rfl
    exact hk (List.mem_singleton.1 hb ▸ ha)

theorem getIn?_putIn (k l : κ) (v : ν) (es : List (κ × ν)) :
    getIn? l (putIn k v es) = if l = k then some v else getIn? l es := by
  induction es with
  | nil => simp [getIn?, putIn, eq_comm]
  | cons e es ih => by_cases hk : e.1 = k <;> by_cases hl : e.1 = l <;> simp_all [getIn?, putIn, eq_comm]

theorem getIn?_eq_some_iff {k : κ} {v : ν} {es : List (κ × ν)} (h : (es.map (·.1)).Nodup) :
    getIn? k es = some v ↔ (k, v) ∈ es := by
  induction es with
  | nil => simp [getIn?]
  | cons e es ih =>
    obtain ⟨l, w⟩ := e
    rw [List.map_cons, List.nodup_cons] at h
    by_cases hk : l = k
    · subst hk
      have hv : (l, v) ∉ es := fun hm => h.1 (List.mem_map.2 ⟨_, hm, rfl⟩)
      simp [getIn?, hv, eq_comm]
    · have hk' : ¬ k = l := fun e => hk e.symm
      simp [getIn?, hk, hk', ih h.2]

end Table

structure Table (κ ν : Type) where
  entries : List (κ × ν)
  nodup : (entries.map (·.1)).Nodup
  deriving Repr

namespace Table

variable {κ ν : Type}

def empty : Table κ ν := ⟨[], List.nodup_nil⟩

def keys (t : Table κ ν) : List κ := t.entries.map (·.1)

def values (t : Table κ ν) : List ν := t.entries.map (·.2)

def size (t : Table κ ν) : Nat := t.entries.length

@[simp] theorem keys_empty : (empty : Table κ ν).keys = [] := rfl

theorem length_keys (t : Table κ ν) : t.keys.length = t.size :=
  List.length_map _

variable [DecidableEq κ]

def get? (t : Table κ ν) (k : κ) : Option ν := getIn? k t.entries

def put (t : Table κ ν) (k : κ) (v : ν) : Table κ ν :=
  ⟨putIn k v t.entries, nodup_map_fst_putIn t.nodup k v⟩

@[simp] theorem get?_empty (k : κ) : (empty : Table κ ν).get? k = none := rfl

theorem get?_eq_some_iff {t : Table κ ν} {k : κ} {v : ν} : t.get? k = some v ↔ (k, v) ∈ t.entries :=
  getIn?_eq_some_iff t.nodup

theorem mem_values_iff {t : Table κ ν} {v : ν} : v ∈ t.values ↔ ∃ k, t.get? k = some v := by
  simp only [values, List.mem_map, get?_eq_some_iff, Prod.exists, exists_eq_right]

theorem get?_put (t : Table κ ν) (k l : κ) (v : ν) :
    (t.put k v).get? l = if l = k then some v else t.get? l :=
  getIn?_putIn k l v t.entries

theorem keys_put (t : Table κ ν) (k : κ) (v : ν) :
    (t.put k v).keys = if k ∈ t.keys then t.keys else t.keys ++ [k] :=
  map_fst_putIn k v t.entries

end Table

end GmlCheck
