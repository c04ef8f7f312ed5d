import Mathlib.Data.List.DropRight
import Mathlib.Data.Set.Function
import GmlCheck.QName
import GmlCheck.Xml.Name

/-!
# Names read back from their renderings

A rendered name is bare, or has its namespace in braces in front, or a customary prefix. A namespace
is any text, with braces and colons in it too, but the local name of a `Plain` name holds none: it
is what follows the last closing brace, or else the only colon. `ofRendered` reads all three forms,
so that no two names are rendered alike (`renderings_injOn`).
-/

namespace GmlCheck

namespace QName

/-- The local name holds no brace and no colon. -/
structure Plain (q : QName) : Prop where
  no_open : '\x7b' ∉ q.name.toList
  no_close : '\x7d' ∉ q.name.toList
  no_colon : ':' ∉ q.name.toList

/-- The namespace that a customary prefix stands for. -/
def leadSpace? (lead : String) : Option String :=
  [gmlNamespace, xlinkNamespace, schemaNamespace].find? (knownPrefix? · = some lead)

/-- Only a namespace in front puts an opening brace into the text, and without one only a customary
prefix puts a colon into it. -/
def ofChars (s : List Char) : QName :=
  if '\x7b' ∈ s then
    ⟨some (.ofList (s.tail.rdropWhile (· ≠ '\x7d')).dropLast),
      .ofList (s.rtakeWhile (· ≠ '\x7d'))⟩
  else if ':' ∈ s then
    ⟨leadSpace? (.ofList (s.takeWhile (· ≠ ':'))), .ofList (s.dropWhile (· ≠ ':')).tail⟩
  else bare (.ofList s)

/-- Reads a name in any of its forms. -/
def ofRendered (s : String) : QName := ofChars s.toList

/-! ## Customary prefixes -/

theorem knownPrefix?_cases {s p : String} (h : knownPrefix? s = some p) :
    (s = gmlNamespace ∧ p = "gml") ∨ (s = xlinkNamespace ∧ p = "xlink") ∨
      (s = schemaNamespace ∧ p = "xs") := by
  unfold knownPrefix? at h
  split_ifs at h with hg hx hs
  · exact .inl ⟨hg, (Option.some.inj h).symm⟩
  · exact .inr (.inl ⟨hx, (Option.some.inj h).symm⟩)
  · exact .inr (.inr ⟨hs, (Option.some.inj h).symm⟩)

theorem leadSpace?_eq {s p : String} (h : knownPrefix? s = some p) : leadSpace? p = some s := by
  rcases knownPrefix?_cases h with ⟨rfl, rfl⟩ | ⟨rfl, rfl⟩ | ⟨rfl, rfl⟩ <;> decide

theorem unmarked_of_knownPrefix? {s p : String} (h : knownPrefix? s = some p) :
    '\x7b' ∉ p.toList ∧ ':' ∉ p.toList := by
  rcases knownPrefix?_cases h with ⟨-, rfl⟩ | ⟨-, rfl⟩ | ⟨-, rfl⟩ <;> decide

/-! ## Texts with a mark -/

section Marked

variable {s t : List Char} {c : Char}

theorem takeWhile_marked (hs : c ∉ s) : (s ++ c :: t).takeWhile (· ≠ c) = s := by
  rw [List.takeWhile_append_of_pos fun d hd => decide_eq_true (ne_of_mem_of_not_mem hd hs),
    List.takeWhile_cons_of_neg (by simp), List.append_nil]

theorem dropWhile_marked (hs : c ∉ s) : (s ++ c :: t).dropWhile (· ≠ c) = c :: t := by
  rw [List.dropWhile_append_of_pos fun d hd => decide_eq_true (ne_of_mem_of_not_mem hd hs),
    List.dropWhile_cons_of_neg (by simp)]

theorem reverse_marked : (s ++ c :: t).reverse = t.reverse ++ c :: s.reverse := by simp

theorem rtakeWhile_marked (ht : c ∉ t) : (s ++ c :: t).rtakeWhile (· ≠ c) = t := by
  rw [List.rtakeWhile, reverse_marked, takeWhile_marked (by simpa using ht), List.reverse_reverse]

theorem rdropWhile_marked (ht : c ∉ t) : (s ++ c :: t).rdropWhile (· ≠ c) = s ++ [c] := by
  rw [List.rdropWhile, reverse_marked, dropWhile_marked (by simpa using ht), List.reverse_cons,
    List.reverse_reverse]

end Marked

/-! ## The three forms -/

theorem ofChars_braced {space name : List Char} (hn : '\x7d' ∉ name) :
    ofChars ('\x7b' :: (space ++ '\x7d' :: name)) = ⟨some (.ofList space), .ofList name⟩ := by
  have hname : ('\x7b' :: (space ++ '\x7d' :: name)).rtakeWhile (· ≠ '\x7d') = name :=
    rtakeWhile_marked (s := '\x7b' :: space) hn
  rw [ofChars, if_pos List.mem_cons_self, hname, List.tail_cons, rdropWhile_marked hn,
    List.dropLast_concat]

theorem ofChars_lead {lead name : List Char} (hl : '\x7b' ∉ lead) (hn : '\x7b' ∉ name)
    (hc : ':' ∉ lead) :
    ofChars (lead ++ ':' :: name) = ⟨leadSpace? (.ofList lead), .ofList name⟩ := by
  rw [ofChars, if_neg (by simp [hl, hn]), if_pos (by simp), takeWhile_marked hc,
    dropWhile_marked hc, List.tail_cons]

theorem ofChars_bare {s : List Char} (ho : '\x7b' ∉ s) (hc : ':' ∉ s) :
    ofChars s = bare (.ofList s) := by
  rw [ofChars, if_neg ho, if_neg hc]

theorem ofRendered_text {q : QName} (h : q.Plain) : ofRendered q.text = q := by
  obtain ⟨space, name⟩ := q
  cases space with
  | none =>
    exact (ofChars_bare h.no_open h.no_colon).trans (by rw [String.ofList_toList]; rfl)
  | some s =>
    have hchars : (text ⟨some s, name⟩).toList = '\x7b' :: (s.toList ++ '\x7d' :: name.toList) := by
      simp [text]
    rw [ofRendered, hchars, ofChars_braced h.no_close, String.ofList_toList, String.ofList_toList]

theorem ofRendered_prefixed {q : QName} (h : q.Plain) : ofRendered q.prefixed = q := by
  unfold prefixed
  cases hq : q.space.bind knownPrefix? with
  | none => exact ofRendered_text h
  | some p =>
    obtain ⟨s, hs, hp⟩ := Option.bind_eq_some_iff.1 hq
    obtain ⟨ho, hc⟩ := unmarked_of_knownPrefix? hp
    have hchars : (p ++ ":" ++ q.name).toList = p.toList ++ ':' :: q.name.toList := by simp
    rw [ofRendered, hchars, ofChars_lead ho h.no_open hc, String.ofList_toList,
      String.ofList_toList, leadSpace?_eq hp, ← hs]

/-! ## Telling names apart -/

/-- The text is a name of XML without a colon. -/
structure IsNcName (s : String) : Prop where
  begins : ∃ c ∈ s.toList.head?, Xml.isNameStart c = true
  chars : ∀ c ∈ s.toList, Xml.isNameChar c = true
  no_colon : ':' ∉ s.toList

theorem plain_of_isNcName {q : QName} (h : IsNcName q.name) : q.Plain where
  no_open hm := absurd (h.chars _ hm) (by decide)
  no_close hm := absurd (h.chars _ hm) (by decide)
  no_colon := h.no_colon

/-- Either rendering tells names apart if their local names hold no brace and no colon, as the names
of XML without a prefix do, and so do the two together, one name in each. -/
theorem renderings_injOn :
    Set.InjOn text {q | q.Plain} ∧ Set.InjOn prefixed {q | q.Plain} ∧
    (∀ a b : QName, a.Plain → b.Plain → a.text = b.prefixed → a = b) ∧
    ∀ q : QName, IsNcName q.name → q.Plain := by
  have htext : Set.LeftInvOn ofRendered text {q | q.Plain} := fun _ => ofRendered_text
  have hprefixed : Set.LeftInvOn ofRendered prefixed {q | q.Plain} := fun _ => ofRendered_prefixed
  refine ⟨htext.injOn, hprefixed.injOn, fun a b ha hb h => ?_, fun q => plain_of_isNcName⟩
  calc a = ofRendered a.text := (ofRendered_text ha).symm
    _ = ofRendered b.prefixed := congrArg ofRendered h
    _ = b := ofRendered_prefixed hb

/-- Namespaces that look like the marks of a rendering. -/
theorem renderings_injOn_braced :
    Plain ⟨some "gml:\x7dgml", "Point"⟩ ∧ Plain ⟨some "gml", "Point"⟩ ∧ Plain (gml "Point") ∧
      text ⟨some "gml:\x7dgml", "Point"⟩ ≠ text ⟨some "gml", "Point"⟩ ∧
      prefixed ⟨some "gml", "Point"⟩ ≠ prefixed (gml "Point") ∧
      text ⟨some "gml:\x7dgml", "Point"⟩ ≠ prefixed (gml "Point") := by
  have hfenced : Plain ⟨some "gml:\x7dgml", "Point"⟩ := ⟨by decide, by decide, by decide⟩
  have hplain : Plain ⟨some "gml", "Point"⟩ := ⟨by decide, by decide, by decide⟩
  have hpoint : Plain (gml "Point") := ⟨by decide, by decide, by decide⟩
  obtain ⟨htext, hprefixed, hmixed, -⟩ := renderings_injOn
  refine ⟨hfenced, hplain, hpoint, htext.ne hfenced hplain (by decide),
    hprefixed.ne hplain hpoint (by decide), fun h => ?_⟩
  exact absurd (hmixed _ _ hfenced hpoint h) (by decide)

/-- A brace or a colon in the local name is taken for a mark of the rendering. -/
example : text ⟨some "a", "b\x7dc"⟩ = text ⟨some "a\x7db", "c"⟩ ∧
    text (bare "\x7ba\x7db") = text ⟨some "a", "b"⟩ ∧
    prefixed (bare "gml:Point") = prefixed (gml "Point") := by
  decide

end QName

end GmlCheck
