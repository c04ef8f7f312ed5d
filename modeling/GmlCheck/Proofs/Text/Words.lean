import Mathlib.Data.List.TakeWhile
import GmlCheck.Text.Blank

/-!
# Words and the blanks around them

`Holds s ws` says without any search that `ws` are the words of the text `s`: it consists of them
in their order, with blanks between any two of them, and of blanks at both ends. `words` finds
exactly these (`words_eq_iff`).
-/

namespace GmlCheck.Text

/-- The text consists of blanks; it may be empty. -/
def Blanks (s : List Char) : Prop := ∀ c ∈ s, isBlank c = true

/-- The text is not empty and has no blank. -/
structure IsWord (w : List Char) : Prop where
  ne_nil : w ≠ []
  solid : ∀ c ∈ w, isBlank c = false

/-- The text ends, or goes on with a blank. -/
def Parted (s : List Char) : Prop := ∀ c ∈ s.head?, isBlank c = true

/-- The text consists of the words, of blanks between any two of them and of blanks at its ends. -/
inductive Holds : List Char → List (List Char) → Prop
  | blanks {b : List Char} : Blanks b → Holds b []
  | word {b w s : List Char} {ws : List (List Char)} : Blanks b → IsWord w → Parted s →
      Holds s ws → Holds (b ++ w ++ s) (w :: ws)

theorem words_append_blanks {w : List Char} (hw : Blanks w) (hne : w ≠ []) (s t : List Char) :
    words (s ++ w ++ t) = words s ++ words t := by
  induction w generalizing s with
  | nil => exact absurd rfl hne
  | cons c w ih =>
    obtain ⟨hc, hw⟩ := List.forall_mem_cons.1 hw
    by_cases hw' : w = []
    · subst hw'
      rw [List.append_assoc]
      exact words_append_blank s t hc
    · have hcut : s ++ (c :: w) ++ t = (s ++ [c]) ++ w ++ t := by simp
      rw [hcut, ih hw hw', words_append_blank s [] hc]
      exact congrArg (· ++ words t) (List.append_nil _)

theorem words_blanks_append {b : List Char} (hb : Blanks b) (s : List Char) :
    words (b ++ s) = words s := by
  by_cases hne : b = []
  · rw [hne, List.nil_append]
  · exact words_append_blanks hb hne [] s

theorem words_of_blanks {b : List Char} (hb : Blanks b) : words b = [] := by
  have h := words_blanks_append hb []
  rwa [List.append_nil] at h

theorem pieces_of_isWord {w : List Char} (hw : ∀ c ∈ w, isBlank c = false) : pieces w = [w] := by
  induction w with
  | nil => rfl
  | cons c w ih =>
    obtain ⟨hc, hw⟩ := List.forall_mem_cons.1 hw
    simp only [pieces, hc, ih hw, Bool.false_eq_true, if_false]

theorem words_of_isWord {w : List Char} (hw : IsWord w) : words w = [w] := by
  rw [words, pieces_of_isWord hw.solid]
  simp [hw.ne_nil]

theorem words_isWord_append {w s : List Char} (hw : IsWord w) (hs : Parted s) :
    words (w ++ s) = w :: words s := by
  cases s with
  | nil => rw [List.append_nil, words_of_isWord hw]; rfl
  | cons c s =>
    have hc : isBlank c = true := hs c rfl
    have hrest : words (c :: s) = words s := words_append_blank [] s hc
    rw [words_append_blank w s hc, words_of_isWord hw, hrest]
    rfl

theorem Holds.words_eq {s : List Char} {ws : List (List Char)} (h : Holds s ws) :
    words s = ws := by
  induction h with
  | blanks hb => exact words_of_blanks hb
  | word hb hw hs _ ih =>
    rw [List.append_assoc, words_blanks_append hb, words_isWord_append hw hs, ih]

theorem isWord_takeWhile {c : Char} (hc : isBlank c = false) (r : List Char) :
    IsWord ((c :: r).takeWhile (! isBlank ·)) where
  ne_nil := by simp [hc]
  solid d hd := by simpa using List.mem_takeWhile_imp hd

theorem parted_dropWhile (s : List Char) : Parted (s.dropWhile (! isBlank ·)) := by
  intro c hc
  have hnot := List.head?_dropWhile_not (! isBlank ·) s
  rw [Option.mem_def.1 hc] at hnot
  simpa using hnot

theorem exists_holds (s : List Char) : ∃ ws, Holds s ws := by
  induction hn : s.length using Nat.strong_induction_on generalizing s with
  | _ n ih =>
    subst hn
    have hfront : Blanks (s.takeWhile isBlank) := fun c hc => List.mem_takeWhile_imp hc
    have hs := List.takeWhile_append_dropWhile (p := isBlank) (l := s)
    have hnot := List.head?_dropWhile_not isBlank s
    cases hback : s.dropWhile isBlank with
    | nil =>
      rw [hback, List.append_nil] at hs
      exact ⟨[], hs ▸ .blanks hfront⟩
    | cons c r =>
      have hc : isBlank c = false := by simpa [hback] using hnot
      rw [hback, ← List.takeWhile_append_dropWhile (p := (! isBlank ·)) (l := c :: r),
        ← List.append_assoc] at hs
      have hshorter : ((c :: r).dropWhile (! isBlank ·)).length < s.length := by
        have hrest : (r.dropWhile (! isBlank ·)).length ≤ r.length := List.length_dropWhile_le _ _
        have hall : (c :: r).length ≤ s.length := hback ▸ List.length_dropWhile_le _ _
        rw [List.dropWhile_cons_of_pos (by simp [hc])]
        rw [List.length_cons] at hall
        omega
      obtain ⟨ws, hws⟩ := ih _ hshorter _ rfl
      rw [← hs]
      exact ⟨_, .word hfront (isWord_takeWhile hc r) (parted_dropWhile _) hws⟩

theorem words_eq_iff {s : List Char} {ws : List (List Char)} : words s = ws ↔ Holds s ws := by
  constructor
  · rintro rfl
    obtain ⟨ws, h⟩ := exists_holds s
    rwa [h.words_eq]
  · exact Holds.words_eq

end GmlCheck.Text
