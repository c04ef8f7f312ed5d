import GmlCheck.Crs.Identifier
import GmlCheck.Proofs.Text

/-!
# Abbreviating twice

Every abbreviation is one of three: `CRS:84`, a code behind `EPSG:`, or a name in none of
the known forms without blanks around it. Each of them is its own abbreviation.
-/

namespace GmlCheck

namespace Text

theorem afterFolded_append_self (lead s : List Char) : afterFolded lead (lead ++ s) = some s := by
  induction lead with
  | nil => rfl
  | cons a lead ih => simp [afterFolded, sameLetter, ih]

theorem afterFolded_eq_none {lead : List Char} {c : Char}
    (h : lead.head?.any (! sameLetter · c) = true) (s : List Char) :
    afterFolded lead (c :: s) = none := by
  cases lead with
  | nil => cases h
  | cons a lead =>
    have hne : sameLetter a c = false := by simpa using h
    simp [afterFolded, hne]

end Text

namespace Crs

theorem Form.code?_eq_none {f : Form} {c : Char}
    (h : f.lead.toList.head?.any (! Text.sameLetter · c) = true) (s : List Char) :
    f.code? (c :: s) = none := by
  rw [Form.code?, Text.afterFolded_eq_none h]
  rfl

/-- What stands behind `EPSG:` in an abbreviation. -/
structure Code (code : List Char) : Prop where
  nonempty : code ≠ []
  digits : ∀ c ∈ code, Text.isDecimalDigit c = true

theorem code_iff {code : List Char} :
    (! code.isEmpty && code.all Text.isDecimalDigit) = true ↔ Code code := by
  simp only [Bool.and_eq_true, Bool.not_eq_true', List.isEmpty_eq_false_iff, List.all_eq_true]
  exact ⟨fun h => ⟨h.1, h.2⟩, fun h => ⟨h.nonempty, h.digits⟩⟩

theorem code_of_epsgCode? {s code : List Char} (h : epsgCode? s = some code) : Code code := by
  obtain ⟨f, -, hf⟩ := List.exists_of_findSome?_eq_some h
  obtain ⟨-, hcode⟩ := Option.filter_eq_some_iff.1 hf
  exact code_iff.1 hcode

/-- The three kinds of abbreviations. -/
theorem abbreviate_cases (identifier : String) :
    abbreviate identifier = "CRS:84" ∨
    (∃ code, Code code ∧ abbreviate identifier = String.ofList ("EPSG:".toList ++ code)) ∨
    (∃ s, Text.Trimmed s ∧ isCrs84 s = false ∧ epsgCode? s = none ∧
      abbreviate identifier = String.ofList s) := by
  simp only [abbreviate]
  generalize hs : Text.trimChars identifier.toList = s
  cases hcrs : isCrs84 s with
  | true => exact .inl rfl
  | false =>
    cases hcode : epsgCode? s with
    | some code => exact .inr (.inl ⟨code, code_of_epsgCode? hcode, rfl⟩)
    | none => exact .inr (.inr ⟨s, hs ▸ Text.trimmed_trimChars _, hcrs, hcode, rfl⟩)

/-! ## Codes behind the name of the authority -/

/-- Only the last of the forms begins like `EPSG:`. -/
theorem code?_epsg_eq_none {f : Form} (hf : f ∈ versionedForms "OGC" ++ epsgForms.dropLast)
    (code : List Char) : f.code? ("EPSG:".toList ++ code) = none := by
  have hleads : ∀ f ∈ versionedForms "OGC" ++ epsgForms.dropLast,
      f.lead.toList.head?.any (! Text.sameLetter · 'E') = true := by
    decide
  exact Form.code?_eq_none (hleads f hf) ("PSG:".toList ++ code)

theorem isCrs84_epsg (code : List Char) : isCrs84 ("EPSG:".toList ++ code) = false := by
  have hname : Text.afterFolded "CRS:84".toList ("EPSG:".toList ++ code) = none :=
    Text.afterFolded_eq_none (by decide) _
  simp only [isCrs84, hname, Bool.or_eq_false_iff]
  refine ⟨List.any_eq_false.2 fun f hf => ?_, rfl⟩
  rw [code?_epsg_eq_none (List.mem_append_left _ hf)]
  exact Bool.false_ne_true

theorem Code.trimmed {code : List Char} (h : Code code) : Text.Trimmed ("EPSG:".toList ++ code) := by
  have hauthority : "EPSG:".toList.any Text.isBlank = false := rfl
  refine Text.trimmed_of_forall fun c hc => ?_
  rcases List.mem_append.1 hc with hlead | hcode
  · exact Bool.eq_false_iff.2 (List.any_eq_false.1 hauthority c hlead)
  · exact Text.not_isBlank_of_isDecimalDigit (h.digits c hcode)

theorem Code.epsgCode?_eq {code : List Char} (h : Code code) :
    epsgCode? ("EPSG:".toList ++ code) = some code := by
  have hforms : epsgForms = epsgForms.dropLast ++ [⟨"EPSG:", none⟩] := rfl
  have hown : Form.code? ⟨"EPSG:", none⟩ ("EPSG:".toList ++ code) = some code := by
    rw [Form.code?, Text.afterFolded_append_self]
    rfl
  rw [epsgCode?, hforms, List.findSome?_append, List.findSome?_eq_none_iff.2, Option.none_or,
    List.findSome?_singleton, hown]
  · simp [Option.filter, h.nonempty, List.all_eq_true.2 h.digits]
  · intro f hf
    rw [code?_epsg_eq_none (List.mem_append_right _ hf)]
    rfl

/-- An abbreviation is its own abbreviation. -/
theorem abbreviate_abbreviate (identifier : String) :
    abbreviate (abbreviate identifier) = abbreviate identifier := by
  rcases abbreviate_cases identifier with h | ⟨code, hcode, h⟩ | ⟨s, htrim, hcrs, hnone, h⟩
  · rw [h]
    decide
  · rw [h, abbreviate, String.toList_ofList, Text.trimChars_of_trimmed hcode.trimmed,
      isCrs84_epsg, hcode.epsgCode?_eq]
    rfl
  · rw [h, abbreviate, String.toList_ofList, Text.trimChars_of_trimmed htrim, hcrs, hnone]
    rfl

end Crs

end GmlCheck
