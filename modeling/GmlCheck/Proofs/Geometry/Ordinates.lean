import GmlCheck.Proofs.Geometry.Positions
import GmlCheck.Proofs.Text.Words

/-!
# Texts of ordinates

A text of ordinates reads as one position, or as positions of one dimension in a row. Both go
through the same words and blame the same one: the first that is no number (`FirstMisread`). Texts
with blanks between them read as their ordinates one after the other, and as their positions one
after the other where the first text ends with a position.
-/

namespace GmlCheck.Position

variable {text front back : String} {d : Nat} {p : Position} {ps : List Position} {e : Error}

/-- The fault names the first word of the text that is no number. -/
def FirstMisread (text : String) (e : Error) : Prop :=
  ∃ before word after, Text.Holds text.toList (before ++ word :: after) ∧
    (∀ w ∈ before, ∃ x, readFloat? w = some x) ∧ readFloat? word = none ∧
    e = .geometry (.badOrdinate (String.ofList word))

/-! ## One position -/

theorem readOrdinate_eq_ok_iff {word : List Char} {x : Float} :
    readOrdinate word = .ok x ↔ readFloat? word = some x := by
  unfold readOrdinate
  cases readFloat? word <;> simp

theorem readOrdinate_eq_error_iff {word : List Char} :
    readOrdinate word = .error e ↔
      readFloat? word = none ∧ e = .geometry (.badOrdinate (String.ofList word)) := by
  unfold readOrdinate
  cases readFloat? word <;> simp [eq_comm]

theorem read_eq_ok_iff : read text = .ok p ↔ readOrdinates text.toList = .ok p.ordinates := by
  obtain ⟨xs⟩ := p
  simp [read, Attempt.bind_eq_ok_iff]

theorem read_eq_error_iff : read text = .error e ↔ FirstMisread text e := by
  have hread : read text = .error e ↔ readOrdinates text.toList = .error e := by
    simp [read, Attempt.bind_eq_error_iff]
  rw [hread, readOrdinates, Attempt.mapM_eq_error_iff]
  simp only [readOrdinate_eq_ok_iff, readOrdinate_eq_error_iff, Text.words_eq_iff]
  rfl

theorem readOrdinates_append_blanks {blanks : String} (hb : Text.Blanks blanks.toList)
    (hne : blanks ≠ "") {xs : List Float} :
    readOrdinates (front ++ blanks ++ back).toList = .ok xs ↔
      ∃ ys zs, readOrdinates front.toList = .ok ys ∧ readOrdinates back.toList = .ok zs ∧
        ys ++ zs = xs := by
  have hne' : blanks.toList ≠ [] := by simpa using hne
  rw [readOrdinates, String.toList_append, String.toList_append,
    Text.words_append_blanks hb hne', Attempt.mapM_append_eq_ok_iff]
  rfl

/-! ## Positions in a row -/

theorem exists_readList_iff :
    (∃ ps, readList text d = .ok ps) ↔ 0 < d ∧ ∃ p, read text = .ok p ∧ d ∣ p.dimension := by
  simp only [readList_eq_ok_iff, read_eq_ok_iff]
  constructor
  · rintro ⟨ps, h⟩
    refine ⟨h.positive, ⟨ps.flatMap ordinates⟩, h.ordinates, ?_⟩
    rw [dimension, length_flatMap_ordinates h.dimension]
    exact Nat.dvd_mul_left d ps.length
  · rintro ⟨hd, p, hp, hdvd⟩
    have hwhole : p.ordinates.length % d = 0 := Nat.mod_eq_zero_of_dvd hdvd
    refine ⟨(chunks d p.ordinates).map Position.mk, hd, ?_, ?_⟩
    · exact List.forall_mem_map.2 fun c => length_of_mem_chunks
    · rw [hp, List.flatMap_map, List.flatMap_id', flatten_chunks hwhole]

theorem readList_of_read_eq_error (hd : 0 < d) (h : read text = .error e) :
    readList text d = .error e := by
  have hordinates : readOrdinates text.toList = .error e := by
    simpa [read, Attempt.bind_eq_error_iff] using h
  rw [readList, if_neg hd.ne', hordinates, Attempt.error_bind]

/-- Positions in a row, the first of which have the ordinates of the first text, are those of the
first text and then those of the second. -/
theorem divides_append_iff {blanks : String} (hb : Text.Blanks blanks.toList) (hne : blanks ≠ "")
    {k : Nat} (hp : read front = .ok p) (hk : p.dimension = k * d) :
    Divides (front ++ blanks ++ back) d ps ↔
      Divides front d (ps.take k) ∧ Divides back d (ps.drop k) := by
  have hsplit : (ps.take k).flatMap ordinates ++ (ps.drop k).flatMap ordinates =
      ps.flatMap ordinates := by
    rw [← List.flatMap_append, List.take_append_drop]
  constructor
  · intro h
    have hin : ∀ q ∈ ps.take k, q.dimension = d :=
      fun q hq => h.dimension q (List.mem_of_mem_take hq)
    have hout : ∀ q ∈ ps.drop k, q.dimension = d :=
      fun q hq => h.dimension q (List.mem_of_mem_drop hq)
    obtain ⟨ys, zs, hys, hzs, hall⟩ := (readOrdinates_append_blanks hb hne).1 h.ordinates
    obtain rfl : p.ordinates = ys := Except.ok.inj ((read_eq_ok_iff.1 hp).symm.trans hys)
    -- There are at least `k` positions, so that the first `k` have as many ordinates as `front`.
    have hle : k ≤ ps.length := by
      have hlength := congrArg List.length hall
      rw [List.length_append, length_flatMap_ordinates h.dimension] at hlength
      refine Nat.le_of_mul_le_mul_right ?_ h.positive
      rw [← hk, ← hlength]
      exact Nat.le_add_right _ _
    have hlength : ((ps.take k).flatMap ordinates).length = p.ordinates.length := by
      rw [length_flatMap_ordinates hin, List.length_take_of_le hle]
      exact hk.symm
    obtain ⟨htake, hdrop⟩ := List.append_inj (hsplit.trans hall.symm) hlength
    exact ⟨⟨h.positive, hin, htake ▸ hys⟩, ⟨h.positive, hout, hdrop ▸ hzs⟩⟩
  · rintro ⟨h, h'⟩
    refine ⟨h.positive, fun q hq => ?_, ?_⟩
    · rw [← List.take_append_drop k ps, List.mem_append] at hq
      exact hq.elim (h.dimension q) (h'.dimension q)
    · rw [readOrdinates_append_blanks hb hne]
      exact ⟨_, _, h.ordinates, h'.ordinates, hsplit⟩

/-! ## The two readings compared -/

/-- A text reads as positions of dimension `d` exactly if it reads as one position of which `d`
divides the dimension, and then the ordinates are the same; else the first word that is no number
is to blame for both. Two texts with blanks between them read if both do, as the ordinates of the
one and then of the other, and likewise as positions where the first one ends with a position. -/
theorem readList_follows_read (text : String) (d : Nat) :
    ((∃ ps, readList text d = .ok ps) ↔ 0 < d ∧ ∃ p, read text = .ok p ∧ d ∣ p.dimension) ∧
    (∀ ps, readList text d = .ok ps →
      (∀ p ∈ ps, p.dimension = d) ∧ read text = .ok ⟨ps.flatMap ordinates⟩) ∧
    (∀ e, read text = .error e ↔ FirstMisread text e) ∧
    (∀ e, 0 < d → read text = .error e → readList text d = .error e) ∧
    ∀ front blanks back, Text.Blanks blanks.toList → blanks ≠ "" →
      text = front ++ blanks ++ back →
      (∀ p, read text = .ok p ↔
        ∃ p₁ p₂, read front = .ok p₁ ∧ read back = .ok p₂ ∧
          p = ⟨p₁.ordinates ++ p₂.ordinates⟩) ∧
      ∀ k p₁, read front = .ok p₁ → p₁.dimension = k * d →
        ∀ ps, readList text d = .ok ps ↔
          readList front d = .ok (ps.take k) ∧ readList back d = .ok (ps.drop k) := by
  refine ⟨exists_readList_iff, fun ps h => ?_, fun e => read_eq_error_iff,
    fun e => readList_of_read_eq_error, ?_⟩
  · have hdivides := readList_eq_ok_iff.1 h
    exact ⟨hdivides.dimension, read_eq_ok_iff.2 hdivides.ordinates⟩
  · rintro front blanks back hb hne rfl
    refine ⟨fun p => ?_, fun k p₁ hp hk ps => ?_⟩
    · simp only [read_eq_ok_iff, readOrdinates_append_blanks hb hne]
      constructor
      · rintro ⟨xs, ys, hxs, hys, hp⟩
        exact ⟨⟨xs⟩, ⟨ys⟩, hxs, hys, congrArg Position.mk hp.symm⟩
      · rintro ⟨p₁, p₂, h₁, h₂, rfl⟩
        exact ⟨_, _, h₁, h₂, rfl⟩
    · simp only [readList_eq_ok_iff]
      exact divides_append_iff hb hne hp hk

/-- Three positions with a no-break space behind the first one and a line break behind the second. -/
def steps : String := "0 0\u00a01 1\n2 2"

/-- All that the comparison says of three positions in a row, and of a text that holds a word. -/
theorem readList_follows_read_steps :
    (∃ ps, readList steps 2 = .ok ps ∧ (∀ p ∈ ps, p.dimension = 2) ∧
      readList "0 0" 2 = .ok (ps.take 1) ∧ readList "1 1\n2 2" 2 = .ok (ps.drop 1)) ∧
    FirstMisread "1 north" (.geometry (.badOrdinate "north")) ∧
    readList "1 north" 2 = .error (.geometry (.badOrdinate "north")) := by
  have exists_read {text : String} {n : Nat}
      (h : (read text).toOption.map dimension = some n) :
      ∃ p, read text = .ok p ∧ p.dimension = n := by
    cases hread : read text with
    | error e => simp [hread, Except.toOption] at h
    | ok p => exact ⟨p, rfl, by simpa [hread, Except.toOption] using h⟩
  have hmisread : FirstMisread "1 north" (.geometry (.badOrdinate "north")) := by
    refine ⟨["1".toList], "north".toList, [], Text.words_eq_iff.1 (by decide), ?_,
      by decide +kernel, rfl⟩
    exact List.forall_mem_singleton.2 (Option.isSome_iff_exists.1 (by decide +kernel))
  obtain ⟨hexists, hordinates, -, -, hcut⟩ := readList_follows_read steps 2
  obtain ⟨-, -, hfault, hblame, -⟩ := readList_follows_read "1 north" 2
  obtain ⟨p, hp, hsix⟩ : ∃ p, read steps = .ok p ∧ p.dimension = 6 :=
    exists_read (by decide +kernel)
  obtain ⟨ps, hps⟩ := hexists.2 ⟨by decide, p, hp, by rw [hsix]; decide⟩
  obtain ⟨q, hq, htwo⟩ : ∃ q, read "0 0" = .ok q ∧ q.dimension = 2 :=
    exists_read (by decide +kernel)
  have hblank : Text.Blanks "\u00a0".toList := List.forall_mem_singleton.2 rfl
  obtain ⟨-, hlists⟩ := hcut "0 0" "\u00a0" "1 1\n2 2" hblank (by decide) (by decide)
  obtain ⟨hfront, hback⟩ := (hlists 1 q hq htwo ps).1 hps
  exact ⟨⟨ps, hps, (hordinates ps hps).1, hfront, hback⟩, hmisread,
    hblame _ (by decide) ((hfault _).2 hmisread)⟩

end GmlCheck.Position
