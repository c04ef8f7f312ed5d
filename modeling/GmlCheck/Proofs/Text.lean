import Mathlib.Data.List.DropRight
import GmlCheck.Text.Blank
import GmlCheck.Text.DecimalDigit

/-!
# Texts without blanks at their ends, and numbers in texts

Trimming leaves a text that neither begins nor ends with a blank, and it leaves such
a text as it is. No decimal digit is a blank.

A number that is written into a text can be told from the text if no digit follows it
(`eq_of_numbered`).
-/

namespace GmlCheck.Text

/-- The text neither begins nor ends with a blank. -/
structure Trimmed (s : List Char) : Prop where
  head : ∀ c ∈ s.head?, isBlank c = false
  last : ∀ c ∈ s.getLast?, isBlank c = false

theorem trimChars_eq (s : List Char) :
    trimChars s = (s.dropWhile isBlank).rdropWhile isBlank := rfl

theorem trimmed_of_forall {s : List Char} (h : ∀ c ∈ s, isBlank c = false) : Trimmed s :=
  ⟨fun c hc => h c (List.mem_of_mem_head? hc), fun c hc => h c (List.mem_of_mem_getLast? hc)⟩

theorem trimChars_of_trimmed {s : List Char} (h : Trimmed s) : trimChars s = s := by
  have hfront : s.dropWhile isBlank = s := by
    cases s with
    | nil => rfl
    | cons c r => exact List.dropWhile_cons_of_neg (by simp [h.head c rfl])
  rw [trimChars_eq, hfront, List.rdropWhile_eq_self_iff]
  intro hne
  rw [h.last _ (List.getLast?_eq_some_getLast hne)]
  exact Bool.false_ne_true

theorem trimmed_trimChars (s : List Char) : Trimmed (trimChars s) := by
  rw [trimChars_eq]
  constructor
  · intro c hc
    -- What is left begins as the text does from which only the blanks in front are gone.
    obtain ⟨back, hback⟩ := List.rdropWhile_prefix isBlank (s.dropWhile isBlank)
    have hhead : (s.dropWhile isBlank).head? = some c := by
      rw [← hback, List.head?_append, Option.mem_def.1 hc]
      rfl
    have hnot := List.head?_dropWhile_not isBlank s
    rw [hhead] at hnot
    exact hnot
  · intro c hc
    obtain ⟨hne, rfl⟩ := List.mem_getLast?_eq_getLast hc
    simpa using List.rdropWhile_last_not isBlank (s.dropWhile isBlank) hne

theorem not_isBlank_of_isDecimalDigit {c : Char} (h : isDecimalDigit c = true) :
    isBlank c = false := by
  have hrows : ∀ z ∈ decimalZeros, ∀ k < 10, isBlank (Char.ofNat (z + k)) = false := by
    decide +kernel
  obtain ⟨z, hz, hc⟩ := List.any_eq_true.1 h
  simp only [Bool.and_eq_true, decide_eq_true_eq] at hc
  have := hrows z hz (c.toNat - z) (by omega)
  rwa [Nat.add_sub_cancel' hc.1, Char.ofNat_toNat] at this

/-! ## Numbers in texts -/

theorem toList_toString (n : Nat) : (toString n).toList = Nat.toDigits 10 n := by
  rw [Nat.toString_eq_repr, Nat.toList_repr]

/-- The text does not begin with a digit. -/
def Nondigit (s : String) : Prop := ∀ c ∈ s.toList.head?, c.isDigit = false

theorem nondigit_append {s : String} {c : Char} {r : List Char} (hs : s.toList = c :: r)
    (hc : c.isDigit = false) (t : String) : Nondigit (s ++ t) := by
  intro d hd
  rw [String.toList_append, hs] at hd
  cases hd
  exact hc

theorem takeWhile_isDigit_toString_append (n : Nat) {s : String} (hs : Nondigit s) :
    (toString n ++ s).toList.takeWhile Char.isDigit = Nat.toDigits 10 n := by
  have hdigits : ∀ c ∈ Nat.toDigits 10 n, c.isDigit = true := fun c hc =>
    Nat.isDigit_of_mem_toDigits (by decide) (by decide) hc
  have hrest : s.toList.takeWhile Char.isDigit = [] := by
    cases h : s.toList with
    | nil => rfl
    | cons c r => exact List.takeWhile_cons_of_neg (by simp [hs c (by rw [h]; rfl)])
  rw [String.toList_append, toList_toString, List.takeWhile_append_of_pos hdigits, hrest,
    List.append_nil]

theorem eq_of_numbered (front : String) {k j : Nat} {s t : String} (hs : Nondigit s)
    (ht : Nondigit t) (h : front ++ (toString k ++ s) = front ++ (toString j ++ t)) : k = j := by
  have hback : (toString k ++ s).toList = (toString j ++ t).toList := by
    have hall : front.toList ++ (toString k ++ s).toList =
        front.toList ++ (toString j ++ t).toList := by
      rw [← String.toList_append, h, String.toList_append]
    exact List.append_cancel_left hall
  have hdigits : Nat.toDigits 10 k = Nat.toDigits 10 j := by
    rw [← takeWhile_isDigit_toString_append k hs, hback, takeWhile_isDigit_toString_append j ht]
  rw [← Nat.ofDigitChars_toDigits (b := 10) (n := k) (by decide) (by decide), hdigits,
    Nat.ofDigitChars_toDigits (by decide) (by decide)]

end GmlCheck.Text
