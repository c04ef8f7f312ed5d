import GmlCheck.Proofs.Schema.PropertyShape
import GmlCheck.Proofs.Schema.Run
import GmlCheck.Proofs.Attempt

/-!
# What additions to a schema keep

An addition puts its component behind the others, so that all components stay under their
identifiers (`Schema.Within`), also when the identifier that another one points to was issued to
nothing before. Names may lead to other components than before, but derivation, substitution and
the shapes of property types do not look at names: what holds of them is built from components that
are there, and it goes on to hold however the schema grows.
-/

namespace GmlCheck.Schema

variable {m m' m'' : Schema} {head : Option ValueHead}

/-- Every component of the first schema is one of the second, under the same identifier. -/
structure Within (m m' : Schema) : Prop where
  types : ∀ id t, m.type? id = some t → m'.type? id = some t
  elements : ∀ id d, m.element? id = some d → m'.element? id = some d

theorem Within.refl (m : Schema) : m.Within m :=
  ⟨fun _ _ h => h, fun _ _ h => h⟩

theorem Within.trans (h : m.Within m') (h' : m'.Within m'') : m.Within m'' :=
  ⟨fun id t ht => h'.types id t (h.types id t ht),
    fun id d hd => h'.elements id d (h.elements id d hd)⟩

theorem within_perform {op : Operation} (h : op.Adds) : m.Within (m.perform op) :=
  ⟨(perform_of_adds h).1, (perform_of_adds h).2⟩

theorem within_foldl_perform {ops : List Operation} (h : ∀ op ∈ ops, op.Adds) :
    m.Within (ops.foldl perform m) := by
  induction ops generalizing m with
  | nil => exact .refl m
  | cons op ops ih =>
    rw [List.forall_mem_cons] at h
    exact (within_perform h.1).trans (ih h.2)

namespace Within

/-! ## Derivation and substitution -/

theorem hasBase (h : m.Within m') (method : Option Method) {t b : TypeId}
    (hb : m.HasBase method t b) : m'.HasBase method t b := by
  obtain ⟨d, hd, hbase, hmethod⟩ := hb
  obtain ⟨u, hu, hud⟩ := Option.bind_eq_some_iff.1 hd
  exact ⟨d, Option.bind_eq_some_iff.2 ⟨u, h.types t u hu, hud⟩, hbase, hmethod⟩

theorem derives (h : m.Within m') {method : Option Method} {t b : TypeId}
    (hd : m.Derives method t b) : m'.Derives method t b :=
  Relation.ReflTransGen.mono (fun _ _ => h.hasBase method) t b hd

theorem hasHead (h : m.Within m') {e top : ElementId} (hh : m.HasHead e top) :
    m'.HasHead e top := by
  obtain ⟨d, hd, hhead⟩ := hh
  exact ⟨d, h.elements e d hd, hhead⟩

theorem substitutes (h : m.Within m') {e top : ElementId} (hs : m.Substitutes e top) :
    m'.Substitutes e top :=
  ⟨hs.1, Relation.TransGen.mono (fun _ _ => h.hasHead) e top hs.2⟩

end Within

/-! ## Property types -/

/-- The same head, as a value too. -/
def ValueHead.including (h : ValueHead) : ValueHead := { h with included := true }

/-- Whatever the one head allows in the one schema, the other allows in the other. -/
def Loosens (m m' : Schema) (head head' : Option ValueHead) : Prop :=
  ∀ e, m.Allows head e → m'.Allows head' e

theorem Within.loosens (h : m.Within m') : m.Loosens m' head head := by
  intro e he top htop
  exact (he top htop).imp_left h.substitutes

theorem Within.loosens_including (h : m.Within m') :
    m.Loosens m' head (head.map ValueHead.including) := by
  intro e he top' htop'
  obtain ⟨top, htop, rfl⟩ := Option.map_eq_some_iff.1 htop'
  rcases he top htop with hs | ⟨-, rfl⟩
  · exact .inl (h.substitutes hs)
  · exact .inr ⟨rfl, rfl⟩

namespace Loosens

variable {head' : Option ValueHead}

theorem isValue (h : m.Loosens m' head head') {p : Particle} (hv : m.IsValue head p) :
    m'.IsValue head' p := by
  cases hv with
  | element he => exact .element (h _ he)
  | choice hps =>
    refine .choice fun p hp => ?_
    obtain ⟨o, e, rfl, he⟩ := hps p hp
    exact ⟨o, e, rfl, h e he⟩

theorem wellShaped (h : m.Loosens m' head head') {t : ComplexType} (hw : m.WellShaped head t) :
    m'.WellShaped head' t := by
  cases hw with
  | reference hc hr => exact .reference hc hr
  | value hc hp hv hmin hmax => exact .value hc hp (h.isValue hv) hmin hmax

end Loosens

theorem WellShaped.not_bare {t : ComplexType} (h : m.WellShaped head t) : ¬ t.Bare := by
  rintro ⟨hcontent | hcontent, hnone⟩ <;> cases h with
  | reference hempty _ => cases hcontent.symm.trans hempty
  | value _ hp => cases hnone.symm.trans hp

/-- The type can be checked as a property type, and it passes. -/
def PassesAsProperty (m : Schema) (head : Option ValueHead) (id : TypeId) : Prop :=
  ∃ r, m.checkPropertyType id head = .ok r ∧ r.isPass = true

theorem passesAsProperty_iff {id : TypeId} :
    m.PassesAsProperty head id ↔ ∃ t, m.complexType? id = some t ∧ m.WellShaped head t := by
  unfold PassesAsProperty checkPropertyType
  rcases m.getComplexType_eq id with ⟨hn, e, he, -⟩ | ⟨t, ht, hg⟩
  · rw [he]
    refine iff_of_false ?_ fun ⟨t, ht, _⟩ => hn ⟨t, ht⟩
    rintro ⟨r, hr, -⟩
    cases hr
  · rw [hg, ht, Attempt.ok_bind]
    simp only [Option.some.injEq, exists_eq_left']
    rcases m.propertyReport_cases (m.typeLabel id) t head with ⟨hb, e, he, -⟩ | ⟨-, r, hr, -, hq⟩
    · rw [he]
      refine iff_of_false ?_ fun hw => hw.not_bare hb
      rintro ⟨r, hr, -⟩
      cases hr
    · rw [hr, ← hq]
      simp only [Except.ok.injEq, exists_eq_left']

theorem PassesAsProperty.within {head' : Option ValueHead} {id : TypeId} (h : m.Within m')
    (hl : m.Loosens m' head head') (hp : m.PassesAsProperty head id) :
    m'.PassesAsProperty head' id := by
  rw [passesAsProperty_iff] at *
  obtain ⟨t, ht, hw⟩ := hp
  obtain ⟨d, hd, htd⟩ := Option.bind_eq_some_iff.1 ht
  exact ⟨t, Option.bind_eq_some_iff.2 ⟨d, h.types id d hd, htd⟩, hl.wellShaped hw⟩

/-! ## Runs of additions -/

/-- However many components are added to a schema, property types that pass go on to pass, with the
same head and with the head as a value too; no element that may stand for a head is lost, and no
derivation. -/
theorem passesAsProperty_foldl_perform (m : Schema) {ops : List Operation}
    (h : ∀ op ∈ ops, op.Adds) :
    (∀ head id, m.PassesAsProperty head id →
      (ops.foldl perform m).PassesAsProperty head id ∧
      (ops.foldl perform m).PassesAsProperty (head.map ValueHead.including) id) ∧
    (∀ top, ∀ e ∈ m.substitutes top, e ∈ (ops.foldl perform m).substitutes top) ∧
    ∀ t b method, m.derivesFrom t b method = true →
      (ops.foldl perform m).derivesFrom t b method = true := by
  have hm : m.Within (ops.foldl perform m) := within_foldl_perform h
  refine ⟨fun head id hp => ⟨hp.within hm hm.loosens, hp.within hm hm.loosens_including⟩, ?_, ?_⟩
  · simp only [mem_substitutes_iff]
    exact fun top e => hm.substitutes
  · simp only [derivesFrom_iff]
    exact fun t b method => hm.derives

/-- A property type whose values stand for the first element, a type below one that is not there,
and two elements that name heads that are not there. -/
def scaffold : Schema := [
    .addType (.complex ⟨some (.bare "memberType"), none, false, .elementOnly,
      some (.group .once .sequence [.group .once .choice [.element .once ⟨1⟩]]), []⟩),
    .addType (.simple (some (.bare "lengthType")) (some ⟨⟨2⟩, .restriction⟩)),
    .addElement ⟨.bare "path", ⟨1⟩, .global, true, some ⟨4⟩⟩,
    .addElement ⟨.bare "lane", ⟨1⟩, .global, false, some ⟨0⟩⟩,
    .addElement ⟨.bare "track", ⟨1⟩, .global, false, some ⟨3⟩⟩].foldl perform empty

/-- The missing components are added: each of them closes a cycle, and one takes the name of the
first element. -/
def infill : List Operation := [
  .addType (.simple none (some ⟨⟨1⟩, .restriction⟩)),
  .addElement ⟨.bare "path", ⟨1⟩, .global, false, some ⟨2⟩⟩,
  .addElement ⟨.bare "way", ⟨1⟩, .global, false, some ⟨0⟩⟩]

theorem passesAsProperty_foldl_perform_infill :
    (∀ op ∈ infill, op.Adds) ∧
      scaffold.PassesAsProperty (some ⟨⟨0⟩, false⟩) ⟨0⟩ ∧
      (infill.foldl perform scaffold).PassesAsProperty (some ⟨⟨0⟩, false⟩) ⟨0⟩ ∧
      (infill.foldl perform scaffold).PassesAsProperty (some ⟨⟨0⟩, true⟩) ⟨0⟩ ∧
      ⟨2⟩ ∈ scaffold.substitutes ⟨3⟩ ∧ ⟨2⟩ ∈ (infill.foldl perform scaffold).substitutes ⟨3⟩ ∧
      scaffold.derivesFrom ⟨1⟩ ⟨2⟩ (some .restriction) = true ∧
      (infill.foldl perform scaffold).derivesFrom ⟨1⟩ ⟨2⟩ (some .restriction) = true := by
  have hadds : ∀ op ∈ infill, op.Adds := by
    simp [infill, Operation.Adds, Operation.type?, Operation.element?]
  have hallows : scaffold.Allows (some ⟨⟨0⟩, false⟩) ⟨1⟩ := by
    rintro top ⟨⟩
    exact .inl ⟨by decide, .single ⟨_, rfl, rfl⟩⟩
  have hvalue : scaffold.IsValue (some ⟨⟨0⟩, false⟩) (.group .once .choice [.element .once ⟨1⟩]) :=
    .choice (List.forall_mem_singleton.2 ⟨_, _, rfl, hallows⟩)
  have hpass : scaffold.PassesAsProperty (some ⟨⟨0⟩, false⟩) ⟨0⟩ :=
    passesAsProperty_iff.2 ⟨_, rfl, .value (.inl rfl) rfl hvalue nofun
      fun hmultiple => absurd (Occurs.isMultiple_iff.2 hmultiple) (by decide)⟩
  have hmember : ⟨2⟩ ∈ scaffold.substitutes ⟨3⟩ :=
    mem_substitutes_iff.2 ⟨by decide, .single ⟨_, rfl, rfl⟩⟩
  have hderives : scaffold.derivesFrom ⟨1⟩ ⟨2⟩ (some .restriction) = true := by decide
  obtain ⟨hkept, hmembers, hderivations⟩ := passesAsProperty_foldl_perform scaffold hadds
  obtain ⟨hsame, hincluding⟩ := hkept _ _ hpass
  exact ⟨hadds, hpass, hsame, hincluding, hmember, hmembers _ _ hmember, hderives,
    hderivations _ _ _ hderives⟩

end GmlCheck.Schema
