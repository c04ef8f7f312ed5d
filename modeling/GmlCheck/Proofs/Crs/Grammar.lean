import GmlCheck.Proofs.Crs.Abbreviation

/-!
# The names of reference systems

The names that are abbreviated fall into five languages: those of `CRS:84`, and four for the codes
of EPSG. `Reads l s d` says that `s` is a name in the language `l` for what `d` designates, up to
case but for the code. No name is in two of the languages, and none has two codes (`Reads.unique`),
so that the languages may be tried in any order (`abbreviate_reads`).
-/

namespace GmlCheck

namespace Text

/-- The texts are the same under simple case folding. -/
def SameFolded (s t : List Char) : Prop := s.map fold = t.map fold

instance (s t : List Char) : Decidable (SameFolded s t) :=
  inferInstanceAs (Decidable (s.map fold = t.map fold))

theorem SameFolded.refl (s : List Char) : SameFolded s s := rfl

variable {lead lead' s r r' : List Char}

theorem afterFolded_eq_some_iff :
    afterFolded lead s = some r ↔ ∃ front, s = front ++ r ∧ SameFolded front lead := by
  induction lead generalizing s with
  | nil =>
    simp only [afterFolded, Option.some.injEq, SameFolded, List.map_nil, List.map_eq_nil_iff,
      exists_eq_right, List.nil_append]
  | cons a lead ih =>
    cases s with
    | nil => simp [afterFolded, SameFolded]
    | cons c s =>
      simp only [afterFolded, sameLetter, beq_iff_eq]
      constructor
      · intro h
        split at h
        · next hc =>
          obtain ⟨front, rfl, hfront⟩ := ih.1 h
          exact ⟨c :: front, rfl, congrArg₂ List.cons hc hfront⟩
        · cases h
      · rintro ⟨front, hs, hfront⟩
        cases front with
        | nil => cases hfront
        | cons d front =>
          obtain ⟨rfl, rfl⟩ := List.cons.inj hs
          obtain ⟨hc, hlead⟩ := List.cons.inj hfront
          rw [if_pos hc]
          exact ih.2 ⟨front, rfl, hlead⟩

theorem afterFolded_eq_some_nil_iff : afterFolded lead s = some [] ↔ SameFolded s lead := by
  simp [afterFolded_eq_some_iff]

/-- The leads differ, not only in case, at a place that both have. -/
def clash (lead lead' : List Char) : Bool :=
  (lead.zip lead').any fun (a, b) => fold a != fold b

/-- No text begins with two leads that clash. -/
theorem clash_eq_false (h : afterFolded lead s = some r) (h' : afterFolded lead' s = some r') :
    clash lead lead' = false := by
  induction lead generalizing lead' s with
  | nil => rfl
  | cons a lead ih =>
    cases lead' with
    | nil => rfl
    | cons b lead' =>
      cases s with
      | nil => cases h
      | cons c s =>
        simp only [afterFolded, sameLetter, beq_iff_eq] at h h'
        split at h
        · next hc =>
          split at h'
          · next hc' => simpa [clash, ← hc, ← hc'] using ih h h'
          · cases h'
        · cases h

/-- What is left of a text without the blanks at its ends. -/
theorem trimChars_spec (t : List Char) :
    ∃ front back, t = front ++ trimChars t ++ back ∧ ∀ c ∈ front ++ back, isBlank c = true := by
  refine ⟨t.takeWhile isBlank, (t.dropWhile isBlank).rtakeWhile isBlank, ?_, fun c hc => ?_⟩
  · rw [trimChars_eq, List.append_assoc, List.rdropWhile_append_rtakeWhile,
      List.takeWhile_append_dropWhile]
  · rcases List.mem_append.1 hc with hc | hc
    · exact List.mem_takeWhile_imp hc
    · exact List.mem_rtakeWhile_imp hc

end Text

namespace Crs

open Text (SameFolded)

/-! ## Names in a form -/

theorem dropWhile_ne_eq_cons_iff {stop d : Char} {s code : List Char} :
    s.dropWhile (· != stop) = d :: code ↔ d = stop ∧ ∃ v, s = v ++ stop :: code ∧ stop ∉ v := by
  constructor
  · intro h
    have hd : d = stop := by
      have := List.head?_dropWhile_not (· != stop) s
      rw [h] at this
      simpa using this
    subst hd
    refine ⟨rfl, s.takeWhile (· != d), ?_, fun hv => ?_⟩
    · rw [← h, List.takeWhile_append_dropWhile]
    · simpa using List.mem_takeWhile_imp hv
  · rintro ⟨rfl, v, rfl, hv⟩
    rw [List.dropWhile_append_of_pos fun c hc => by simpa using ne_of_mem_of_not_mem hc hv]
    exact List.dropWhile_cons_of_neg (by simp)

section Forms

variable {lead : String} {stop : Char} {required : Bool} {s code : List Char}

theorem Form.afterVersion?_eq_some_iff :
    afterVersion? stop required s = some code ↔
      ∃ v, s = v ++ stop :: code ∧ stop ∉ v ∧ (required = true → v ≠ []) := by
  unfold afterVersion?
  split
  · next h =>
    simp only [Bool.and_eq_true, beq_iff_eq] at h
    refine iff_of_false nofun ?_
    rintro ⟨v, rfl, hv, hne⟩
    cases v with
    | nil => exact hne h.1 rfl
    | cons c v => exact hv (by simp [Option.some.inj h.2])
  · next h =>
    have hversion : (∃ v, s = v ++ stop :: code ∧ stop ∉ v) ↔
        ∃ v, s = v ++ stop :: code ∧ stop ∉ v ∧ (required = true → v ≠ []) := by
      refine exists_congr fun v => and_congr_right fun hs => (and_iff_left ?_).symm
      rintro hr rfl
      exact h (by simp [hr, hs])
    rw [← hversion]
    split
    · next hd =>
      refine iff_of_false nofun fun hv => ?_
      rw [dropWhile_ne_eq_cons_iff.2 ⟨rfl, hv⟩] at hd
      cases hd
    · next d code' hd =>
      obtain ⟨rfl, hv⟩ := dropWhile_ne_eq_cons_iff.1 hd
      constructor
      · rintro ⟨⟩
        exact hv
      · intro hv'
        rw [dropWhile_ne_eq_cons_iff.2 ⟨rfl, hv'⟩] at hd
        cases hd
        rfl

theorem Form.code?_plain_iff :
    Form.code? ⟨lead, none⟩ s = some code ↔
      ∃ front, s = front ++ code ∧ SameFolded front lead.toList := by
  rw [← Text.afterFolded_eq_some_iff, Form.code?]
  exact Eq.to_iff (congrArg (· = some code) (Option.bind_fun_some _))

theorem Form.code?_versioned_iff :
    Form.code? ⟨lead, some (stop, required)⟩ s = some code ↔
      ∃ front v, s = front ++ v ++ stop :: code ∧ SameFolded front lead.toList ∧ stop ∉ v ∧
        (required = true → v ≠ []) := by
  simp only [Form.code?, Option.bind_eq_some_iff, Text.afterFolded_eq_some_iff,
    afterVersion?_eq_some_iff]
  constructor
  · rintro ⟨r, ⟨front, rfl, hfront⟩, v, rfl, hv⟩
    exact ⟨front, v, (List.append_assoc _ _ _).symm, hfront, hv⟩
  · rintro ⟨front, v, rfl, hfront, hv⟩
    exact ⟨v ++ stop :: code, ⟨front, List.append_assoc _ _ _, hfront⟩, v, rfl, hv⟩

/-- A name in a form begins with its lead. -/
theorem Form.exists_afterFolded {f : Form} (h : f.code? s = some code) :
    ∃ r, Text.afterFolded f.lead.toList s = some r := by
  obtain ⟨r, hr, -⟩ := Option.bind_eq_some_iff.1 h
  exact ⟨r, hr⟩

end Forms

/-! ## The grammar of names -/

def urnLead (authority : String) : String := "urn:ogc:def:crs:" ++ authority ++ ":"

/-- A web address is read in either scheme. -/
def webLeads (authority : String) : List String := [
  "http://www.opengis.net/def/crs/" ++ authority ++ "/",
  "https://www.opengis.net/def/crs/" ++ authority ++ "/"]

def dictionaryLeads : List String := [
  "http://www.opengis.net/gml/srs/epsg.xml#",
  "https://www.opengis.net/gml/srs/epsg.xml#"]

/-- A URN: a version, which may be empty, between the authority and the code. -/
def Urn (authority : String) (s code : List Char) : Prop :=
  ∃ front v, s = front ++ v ++ ':' :: code ∧ SameFolded front (urnLead authority).toList ∧ ':' ∉ v

/-- A web address: a version, which is not empty, between the authority and the code. -/
def Web (authority : String) (s code : List Char) : Prop :=
  ∃ lead ∈ webLeads authority, ∃ front v,
    s = front ++ v ++ '/' :: code ∧ SameFolded front lead.toList ∧ '/' ∉ v ∧ v ≠ []

/-- A reference into the old dictionary of EPSG. -/
def Dictionary (s code : List Char) : Prop :=
  ∃ lead ∈ dictionaryLeads, ∃ front, s = front ++ code ∧ SameFolded front lead.toList

/-- The authority and the code. -/
def Short (s code : List Char) : Prop :=
  ∃ front, s = front ++ code ∧ SameFolded front "EPSG:".toList

/-- What a name stands for. -/
inductive Designation where
  | crs84
  | epsg (code : List Char)
  deriving DecidableEq

/-- The abbreviation for what is designated. -/
def Designation.text : Designation → String
  | crs84 => "CRS:84"
  | epsg code => String.ofList ("EPSG:".toList ++ code)

theorem Designation.toList_text_epsg (code : List Char) :
    (epsg code).text.toList = 'E' :: ("PSG:".toList ++ code) :=
  String.toList_ofList

theorem Designation.text_injective {d d' : Designation} (h : d.text = d'.text) : d = d' := by
  have hcrs : crs84.text.toList = 'C' :: "RS:84".toList := rfl
  have hlist := congrArg String.toList h
  cases d with
  | crs84 =>
    cases d' with
    | crs84 => rfl
    | epsg code =>
      rw [hcrs, toList_text_epsg] at hlist
      exact absurd (List.cons.inj hlist).1 (by decide)
  | epsg code =>
    cases d' with
    | crs84 =>
      rw [hcrs, toList_text_epsg] at hlist
      exact absurd (List.cons.inj hlist).1 (by decide)
    | epsg code' =>
      rw [toList_text_epsg, toList_text_epsg] at hlist
      rw [List.append_cancel_left (List.cons.inj hlist).2]

/-- The languages of names. -/
inductive Language where
  | crs84
  | urn
  | web
  | dictionary
  | short
  deriving DecidableEq

def Language.all : List Language := [.crs84, .urn, .web, .dictionary, .short]

/-- The name is in the language, and it stands for what is designated. -/
inductive Reads : Language → List Char → Designation → Prop
  | crs84 {s} : SameFolded s "CRS:84".toList → Reads .crs84 s .crs84
  | crs84Urn {s code} : Urn "OGC" s code → SameFolded code "CRS84".toList → Reads .crs84 s .crs84
  | crs84Web {s code} : Web "OGC" s code → SameFolded code "CRS84".toList → Reads .crs84 s .crs84
  | urn {s code} : Urn "EPSG" s code → Code code → Reads .urn s (.epsg code)
  | web {s code} : Web "EPSG" s code → Code code → Reads .web s (.epsg code)
  | dictionary {s code} : Dictionary s code → Code code → Reads .dictionary s (.epsg code)
  | short {s code} : Short s code → Code code → Reads .short s (.epsg code)

/-- What the name stands for in the first of the languages that it is in, or else the name. -/
inductive FirstRead : List Language → List Char → String → Prop
  | found {l ls s d} : Reads l s d → FirstRead (l :: ls) s d.text
  | passed {l ls s t} : (∀ d, ¬ Reads l s d) → FirstRead ls s t → FirstRead (l :: ls) s t
  | unread {s} : FirstRead [] s (String.ofList s)

/-! ## Languages and forms -/

section Grammar

variable {authority : String} {s code code' : List Char} {l l' : Language} {d d' : Designation}

theorem urn_iff :
    Urn authority s code ↔ Form.code? ⟨urnLead authority, some (':', false)⟩ s = some code := by
  simp [Urn, Form.code?_versioned_iff]

theorem web_iff :
    Web authority s code ↔
      ∃ lead ∈ webLeads authority, Form.code? ⟨lead, some ('/', true)⟩ s = some code := by
  simp [Web, Form.code?_versioned_iff]

theorem dictionary_iff :
    Dictionary s code ↔ ∃ lead ∈ dictionaryLeads, Form.code? ⟨lead, none⟩ s = some code := by
  simp [Dictionary, Form.code?_plain_iff]

theorem short_iff : Short s code ↔ Form.code? ⟨"EPSG:", none⟩ s = some code := by
  simp [Short, Form.code?_plain_iff]

theorem exists_versionedForms_iff :
    (∃ f ∈ versionedForms authority, f.code? s = some code) ↔
      Urn authority s code ∨ Web authority s code := by
  have hforms : versionedForms authority =
      ⟨urnLead authority, some (':', false)⟩ ::
        (webLeads authority).map (⟨·, some ('/', true)⟩) := rfl
  rw [urn_iff, web_iff, hforms, List.exists_mem_cons_iff]
  simp only [List.mem_map, exists_exists_and_eq_and]

theorem exists_epsgForms_iff :
    (∃ f ∈ epsgForms, f.code? s = some code) ↔
      (Urn "EPSG" s code ∨ Web "EPSG" s code) ∨ Dictionary s code ∨ Short s code := by
  rw [← exists_versionedForms_iff, dictionary_iff, short_iff]
  simp only [epsgForms, dictionaryLeads, List.mem_append, or_and_right, exists_or,
    List.exists_mem_cons_iff, List.not_mem_nil, false_and, exists_false, or_false, or_assoc]

/-! ## One reading -/

/-- What the names in a language begin with, up to case. -/
def Language.leads : Language → List String
  | crs84 => "CRS:84" :: urnLead "OGC" :: webLeads "OGC"
  | urn => [urnLead "EPSG"]
  | web => webLeads "EPSG"
  | dictionary => dictionaryLeads
  | short => ["EPSG:"]

theorem Reads.exists_lead (h : Reads l s d) :
    ∃ lead ∈ l.leads, ∃ r, Text.afterFolded lead.toList s = some r := by
  have ofWeb {authority : String} {code : List Char} (h : Web authority s code) :
      ∃ lead ∈ webLeads authority, ∃ r, Text.afterFolded lead.toList s = some r := by
    obtain ⟨lead, hlead, hcode⟩ := web_iff.1 h
    exact ⟨lead, hlead, Form.exists_afterFolded hcode⟩
  cases h with
  | crs84 h => exact ⟨_, List.mem_cons_self, [], Text.afterFolded_eq_some_nil_iff.2 h⟩
  | crs84Urn h _ => exact ⟨_, by simp [Language.leads], Form.exists_afterFolded (urn_iff.1 h)⟩
  | crs84Web h _ =>
    obtain ⟨lead, hlead, hr⟩ := ofWeb h
    exact ⟨lead, by simp [Language.leads, hlead], hr⟩
  | urn h _ => exact ⟨_, List.mem_cons_self, Form.exists_afterFolded (urn_iff.1 h)⟩
  | web h _ => exact ofWeb h
  | dictionary h _ =>
    obtain ⟨lead, hlead, hcode⟩ := dictionary_iff.1 h
    exact ⟨lead, hlead, Form.exists_afterFolded hcode⟩
  | short h _ => exact ⟨_, List.mem_cons_self, Form.exists_afterFolded (short_iff.1 h)⟩

/-- All leads, those of one language included, clash with each other. -/
theorem clash_leads : ∀ l ∈ Language.all, ∀ lead ∈ l.leads, ∀ l' ∈ Language.all,
    ∀ lead' ∈ l'.leads, (l = l' ∧ lead = lead') ∨ Text.clash lead.toList lead'.toList = true := by
  decide +kernel

theorem Language.mem_all (l : Language) : l ∈ all := by
  cases l <;> decide

theorem lead_unique {lead lead' : String} {r r' : List Char} (hl : lead ∈ l.leads)
    (hl' : lead' ∈ l'.leads) (h : Text.afterFolded lead.toList s = some r)
    (h' : Text.afterFolded lead'.toList s = some r') : l = l' ∧ lead = lead' := by
  rcases clash_leads l l.mem_all lead hl l' l'.mem_all lead' hl' with heq | hclash
  · exact heq
  · rw [Text.clash_eq_false h h'] at hclash
    cases hclash

/-- The leads of one language do not dispute a code. -/
theorem code_unique {version : Option (Char × Bool)}
    (h : ∃ lead ∈ l.leads, Form.code? ⟨lead, version⟩ s = some code)
    (h' : ∃ lead ∈ l.leads, Form.code? ⟨lead, version⟩ s = some code') : code = code' := by
  obtain ⟨lead, hl, hcode⟩ := h
  obtain ⟨lead', hl', hcode'⟩ := h'
  obtain ⟨r, hr⟩ := Form.exists_afterFolded hcode
  obtain ⟨r', hr'⟩ := Form.exists_afterFolded hcode'
  obtain ⟨-, rfl⟩ := lead_unique hl hl' hr hr'
  exact Option.some.inj (hcode.symm.trans hcode')

/-- A name is in one language at most and stands for one system there. -/
theorem Reads.unique (h : Reads l s d) (h' : Reads l' s d') : l = l' ∧ d = d' := by
  obtain ⟨lead, hl, r, hr⟩ := h.exists_lead
  obtain ⟨lead', hl', r', hr'⟩ := h'.exists_lead
  obtain ⟨rfl, -⟩ := lead_unique hl hl' hr hr'
  refine ⟨rfl, ?_⟩
  cases h with
  | crs84 | crs84Urn | crs84Web => cases h' <;> rfl
  | urn h =>
    cases h' with
    | urn h' => rw [Option.some.inj ((urn_iff.1 h).symm.trans (urn_iff.1 h'))]
  | web h =>
    cases h' with
    | web h' => rw [code_unique (l := .web) (web_iff.1 h) (web_iff.1 h')]
  | dictionary h =>
    cases h' with
    | dictionary h' =>
      rw [code_unique (l := .dictionary) (dictionary_iff.1 h) (dictionary_iff.1 h')]
  | short h =>
    cases h' with
    | short h' => rw [Option.some.inj ((short_iff.1 h).symm.trans (short_iff.1 h'))]

/-! ## Reading a name -/

theorem isCrs84_iff : isCrs84 s = true ↔ ∃ d, Reads .crs84 s d := by
  simp only [isCrs84, isCrs84Code, Bool.or_eq_true, List.any_eq_true, Option.any_eq_true,
    beq_iff_eq, Text.afterFolded_eq_some_nil_iff]
  have hversioned : (∃ f ∈ versionedForms "OGC", ∃ code, f.code? s = some code ∧
      SameFolded code "CRS84".toList) ↔
        ∃ code, (Urn "OGC" s code ∨ Web "OGC" s code) ∧ SameFolded code "CRS84".toList := by
    simp only [← exists_versionedForms_iff]
    constructor
    · rintro ⟨f, hf, code, hcode, hname⟩
      exact ⟨code, ⟨f, hf, hcode⟩, hname⟩
    · rintro ⟨code, ⟨f, hf, hcode⟩, hname⟩
      exact ⟨f, hf, code, hcode, hname⟩
  rw [hversioned]
  constructor
  · rintro (⟨code, h | h, hname⟩ | h)
    · exact ⟨_, .crs84Urn h hname⟩
    · exact ⟨_, .crs84Web h hname⟩
    · exact ⟨_, .crs84 h⟩
  · rintro ⟨d, h | ⟨h, hname⟩ | ⟨h, hname⟩⟩
    · exact .inr h
    · exact .inl ⟨_, .inl h, hname⟩
    · exact .inl ⟨_, .inr h, hname⟩

theorem exists_reads_epsg_iff :
    (∃ l, Reads l s (.epsg code)) ↔ Code code ∧ ∃ f ∈ epsgForms, f.code? s = some code := by
  rw [exists_epsgForms_iff]
  constructor
  · rintro ⟨l, h⟩
    cases h with
    | urn h hcode => exact ⟨hcode, .inl (.inl h)⟩
    | web h hcode => exact ⟨hcode, .inl (.inr h)⟩
    | dictionary h hcode => exact ⟨hcode, .inr (.inl h)⟩
    | short h hcode => exact ⟨hcode, .inr (.inr h)⟩
  · rintro ⟨hcode, (h | h) | h | h⟩
    · exact ⟨_, .urn h hcode⟩
    · exact ⟨_, .web h hcode⟩
    · exact ⟨_, .dictionary h hcode⟩
    · exact ⟨_, .short h hcode⟩

theorem epsgCode?_eq_some_iff : epsgCode? s = some code ↔ ∃ l, Reads l s (.epsg code) := by
  have found {code : List Char} (h : epsgCode? s = some code) : ∃ l, Reads l s (.epsg code) := by
    obtain ⟨f, hf, hcode⟩ := List.exists_of_findSome?_eq_some h
    obtain ⟨hcode, hdigits⟩ := Option.filter_eq_some_iff.1 hcode
    exact exists_reads_epsg_iff.2 ⟨code_iff.1 hdigits, f, hf, hcode⟩
  refine ⟨found, fun ⟨l, h⟩ => ?_⟩
  obtain ⟨hcode, f, hf, hfcode⟩ := exists_reads_epsg_iff.1 ⟨l, h⟩
  have hsome : (epsgCode? s).isSome = true := by
    rw [epsgCode?, List.findSome?_isSome_iff]
    exact ⟨f, hf, Option.isSome_iff_exists.2
      ⟨code, Option.filter_eq_some_iff.2 ⟨hfcode, code_iff.2 hcode⟩⟩⟩
  obtain ⟨code', hcode'⟩ := Option.isSome_iff_exists.1 hsome
  obtain ⟨l', h'⟩ := found hcode'
  cases (h.unique h').2
  exact hcode'

theorem Reads.language_eq (h : Reads l s .crs84) : l = .crs84 := by
  cases h <;> rfl

variable {identifier : String}

theorem abbreviate_of_reads (h : Reads l (Text.trimChars identifier.toList) d) :
    abbreviate identifier = d.text := by
  rw [abbreviate]
  cases d with
  | crs84 =>
    obtain rfl := h.language_eq
    rw [isCrs84_iff.2 ⟨_, h⟩]
    rfl
  | epsg code =>
    have hcrs : isCrs84 (Text.trimChars identifier.toList) = false := by
      refine Bool.eq_false_iff.2 fun hcrs => ?_
      obtain ⟨d, hd⟩ := isCrs84_iff.1 hcrs
      obtain ⟨rfl, rfl⟩ := h.unique hd
      cases h
    rw [hcrs, epsgCode?_eq_some_iff.2 ⟨l, h⟩]
    rfl

theorem abbreviate_of_not_reads (h : ∀ l d, ¬ Reads l (Text.trimChars identifier.toList) d) :
    abbreviate identifier = String.ofList (Text.trimChars identifier.toList) := by
  have hcrs : isCrs84 (Text.trimChars identifier.toList) = false := by
    refine Bool.eq_false_iff.2 fun hcrs => ?_
    obtain ⟨d, hd⟩ := isCrs84_iff.1 hcrs
    exact h _ _ hd
  have hcode : epsgCode? (Text.trimChars identifier.toList) = none := by
    refine Option.eq_none_iff_forall_ne_some.2 fun code hcode => ?_
    obtain ⟨l, hl⟩ := epsgCode?_eq_some_iff.1 hcode
    exact h _ _ hl
  rw [abbreviate, hcrs, hcode]
  rfl

/-- A name is designated by nothing else than its abbreviation. -/
theorem reads_of_abbreviate_eq (hd : ∀ code, d = .epsg code → Code code)
    (h : abbreviate identifier = d.text) :
    ∃ l, Reads l (Text.trimChars identifier.toList) d := by
  by_cases hnone : ∀ l d, ¬ Reads l (Text.trimChars identifier.toList) d
  · -- The name is its own abbreviation, and every abbreviation of the kind is a name.
    have hself : Text.trimChars identifier.toList = d.text.toList := by
      rw [← h, abbreviate_of_not_reads hnone, String.toList_ofList]
    rw [hself]
    cases d with
    | crs84 => exact ⟨_, .crs84 (.refl _)⟩
    | epsg code =>
      have hshort : Short (Designation.epsg code).text.toList code :=
        ⟨"EPSG:".toList, String.toList_ofList, .refl _⟩
      exact ⟨_, .short hshort (hd code rfl)⟩
  · push Not at hnone
    obtain ⟨l, d', hl⟩ := hnone
    have htext : d'.text = d.text := (abbreviate_of_reads hl).symm.trans h
    exact ⟨l, Designation.text_injective htext ▸ hl⟩

/-! ## The order of the languages -/

theorem firstRead_of_reads {ls : List Language} (hl : l ∈ ls) (h : Reads l s d) :
    FirstRead ls s d.text := by
  induction ls with
  | nil => cases hl
  | cons l' ls ih =>
    by_cases hread : ∃ d', Reads l' s d'
    · obtain ⟨d', h'⟩ := hread
      rw [(h.unique h').2]
      exact .found h'
    · have hne : l ≠ l' := by
        rintro rfl
        exact hread ⟨d, h⟩
      exact .passed (not_exists.1 hread) (ih ((List.mem_cons.1 hl).resolve_left hne))

theorem firstRead_of_not_reads (h : ∀ l d, ¬ Reads l s d) (ls : List Language) :
    FirstRead ls s (String.ofList s) := by
  induction ls with
  | nil => exact .unread
  | cons l ls ih => exact .passed (h l) ih

theorem FirstRead.unique {ls : List Language} {t t' : String} (h : FirstRead ls s t)
    (h' : FirstRead ls s t') : t = t' := by
  induction h with
  | found h =>
    cases h' with
    | found h' => rw [(h.unique h').2]
    | passed hn _ => exact absurd h (hn _)
  | passed hn _ ih =>
    cases h' with
    | found h' => exact absurd h' (hn _)
    | passed _ h' => exact ih h'
  | unread =>
    cases h'
    rfl

theorem firstRead_iff {ls : List Language} (hls : ls.Perm Language.all) {t : String} :
    FirstRead ls (Text.trimChars identifier.toList) t ↔ t = abbreviate identifier := by
  have hfirst : FirstRead ls (Text.trimChars identifier.toList) (abbreviate identifier) := by
    by_cases hnone : ∀ l d, ¬ Reads l (Text.trimChars identifier.toList) d
    · rw [abbreviate_of_not_reads hnone]
      exact firstRead_of_not_reads hnone ls
    · push Not at hnone
      obtain ⟨l, d, hl⟩ := hnone
      rw [abbreviate_of_reads hl]
      exact firstRead_of_reads (hls.mem_iff.2 l.mem_all) hl
  constructor
  · exact fun h => h.unique hfirst
  · rintro rfl
    exact hfirst

end Grammar

/-- What becomes of a name that reads `s` without the blanks at its ends. -/
structure Abbreviated (identifier : String) (s : List Char) : Prop where
  trimmed : Text.Trimmed s
  blanks : ∃ front back, identifier.toList = front ++ s ++ back ∧
    ∀ c ∈ front ++ back, Text.isBlank c = true
  crs84 : abbreviate identifier = "CRS:84" ↔ Reads .crs84 s .crs84
  epsg : ∀ code, Code code →
    (abbreviate identifier = String.ofList ("EPSG:".toList ++ code) ↔ ∃ l, Reads l s (.epsg code))
  other : (∀ l d, ¬ Reads l s d) → abbreviate identifier = String.ofList s
  /-- The languages may be tried in any order. -/
  order : ∀ ls : List Language, ls.Perm Language.all →
    ∀ t, FirstRead ls s t ↔ t = abbreviate identifier

/-- A name is abbreviated to what it stands for in one of the five languages, and to itself if it is
in none of them. The languages have no name in common, and no name stands for two codes. -/
theorem abbreviate_reads :
    (∀ identifier, Abbreviated identifier (Text.trimChars identifier.toList)) ∧
      ∀ s l l' d d', Reads l s d → Reads l' s d' → l = l' ∧ d = d' := by
  refine ⟨fun identifier => ⟨Text.trimmed_trimChars _, Text.trimChars_spec _, ⟨fun h => ?_,
    abbreviate_of_reads⟩, fun code hcode => ⟨fun h => ?_, fun ⟨l, h⟩ => abbreviate_of_reads h⟩,
    abbreviate_of_not_reads, fun ls hls t => firstRead_iff hls⟩, fun s l l' d d' => Reads.unique⟩
  · obtain ⟨l, hl⟩ := reads_of_abbreviate_eq (d := .crs84) nofun h
    obtain rfl := hl.language_eq
    exact hl
  · refine reads_of_abbreviate_eq (d := .epsg code) ?_ h
    rintro _ ⟨⟩
    exact hcode

/-- The long s folds to an s, and the code is a digit of Arabic. -/
theorem abbreviate_reads_folded :
    abbreviate " ep\u017fg:\u0667\n" = "EPSG:\u0667" ∧
      ∀ l d, Reads l "ep\u017fg:\u0667".toList d → l = .short ∧ d = .epsg ['\u0667'] := by
  have htrim : Text.trimChars " ep\u017fg:\u0667\n".toList = "ep\u017fg:\u0667".toList := by decide
  have hcode : Code ['\u0667'] := ⟨List.cons_ne_nil _ _, List.forall_mem_singleton.2 (by decide)⟩
  have hread : Reads .short "ep\u017fg:\u0667".toList (.epsg ['\u0667']) :=
    .short ⟨"ep\u017fg:".toList, rfl, by decide⟩ hcode
  obtain ⟨habbreviated, hunique⟩ := abbreviate_reads
  have hepsg := (habbreviated " ep\u017fg:\u0667\n").epsg ['\u0667'] hcode
  rw [htrim] at hepsg
  exact ⟨hepsg.2 ⟨_, hread⟩, fun l d h => hunique _ _ _ _ _ h hread⟩

end Crs

end GmlCheck
