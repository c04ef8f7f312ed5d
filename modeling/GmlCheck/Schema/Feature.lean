import GmlCheck.Schema.Property
import GmlCheck.Settings

/-!
# Features and collections

The checks of an application schema: feature elements stand for the abstract
feature, and the members of feature collections, the metadata properties and the
members of object collections are well-formed properties with values of the
right kind.
-/

namespace GmlCheck

namespace Schema

def noFeatures : String := "No GML feature type definitions found in schema."

/-- Elements of a type that are no substitutes, each under its own name. -/
def strangers (m : Schema) (head : ElementId) (t : TypeId) : List Finding :=
  ((m.globalElementsOfType t).filter fun e => ! (m.substitutes head).contains e).map fun e =>
    .violated ⟨.substitutionError (m.elementName e) (m.elementName head).prefixed,
      (m.elementName e).text⟩

/-- Every global element of a feature type may stand for the abstract feature. -/
def checkFeatureSubstitution (m : Schema) (types : List TypeId) (head : ElementId) : Report :=
  let check := "feature substitution group"
  if types.isEmpty then .skipped check noFeatures
  else .ofFindings check (types.flatMap (m.strangers head))

/-- What the properties have to report, one after the other; the first failure ends the check. -/
def checkProperties (check : String) (one : ElementId → Except Error Report)
    (properties : List ElementId) : Except Error Report := do
  return .mergeAll check (← properties.mapM one)

/-- The members of feature collections, all elements that extend `base`, hold features. -/
def checkFeatureMembers (m : Schema) (s : Settings) (base : TypeId) (head : ElementId) :
    Except Error Report :=
  checkProperties "feature collection members"
    (m.checkPropertyElement · (some ⟨head, s.includeHead⟩)) (m.elementsExtending base)

/-- A metadata property is well-formed and does not have empty content. -/
def checkMetadataProperty (m : Schema) (id : ElementId) : Except Error Report := do
  let r ← m.checkPropertyElement id none
  let e ← m.getElement id
  let t ← m.getComplexType e.type
  return if t.content = .empty then r.push ⟨.metadataValueUnspecified, e.name.text⟩ else r

/-- The global properties of type `base` and the local ones in accepted types, each once. -/
def propertiesOfType (m : Schema) (base : TypeId) (accept : TypeId → Bool) : List ElementId :=
  (m.globalElementsOfType base ++ m.localElementsOfType base accept).eraseDups

/-- Local metadata properties count in the objects of GML only. -/
def checkMetadata (m : Schema) (base : TypeId) : Except Error Report :=
  checkProperties "metadata properties" m.checkMetadataProperty
    (m.propertiesOfType base m.isGmlObjectType)

/-- The members of object collections hold objects, not the abstract object itself. -/
def checkObjectMembers (m : Schema) (base : TypeId) (head : ElementId) : Except Error Report :=
  checkProperties "object collection members"
    (m.checkPropertyElement · (some ⟨head, false⟩)) (m.propertiesOfType base fun _ => true)

/-- All checks, against the components of GML that the schema must declare. -/
def checkAll (m : Schema) (s : Settings) : Except Error (List Report) := do
  let feature ← m.findElement (.gml "AbstractFeature")
  let object ← m.findElement (.gml "AbstractGML")
  let featureMember ← m.findType (.gml "AbstractFeatureMemberType")
  let metadata ← m.findType (.gml "AbstractMetadataPropertyType")
  let objectMember ← m.findType (.gml "AbstractMemberType")
  let types := m.featureTypes
  return [
    m.checkFeatureSubstitution types feature,
    ← if types.isEmpty then .ok (.skipped "feature collection members" noFeatures)
      else m.checkFeatureMembers s featureMember feature,
    ← m.checkMetadata metadata,
    ← m.checkObjectMembers objectMember object]

end Schema

end GmlCheck
