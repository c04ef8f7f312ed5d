import GmlCheck.QName

/-!
# Document trees

The tree of a document: elements, text, comments and processing instructions
under a document node. A `Place` is a node together with all that stands above
it, which is how a node knows what it inherits.
-/

namespace GmlCheck.Xml

structure Attribute where
  name : QName
  value : String
  deriving DecidableEq, Repr

inductive Node where
  | document (children : List Node)
  | element (name : QName) (attributes : List Attribute) (children : List Node)
  | text (content : String)
  | comment (content : String)
  | instruction (target content : String)
  deriving Repr

namespace Node

instance : Inhabited Node := ⟨document []⟩

def children : Node → List Node
  | document cs => cs
  | element _ _ cs => cs
  | _ => []

def attributes : Node → List Attribute
  | element _ as _ => as
  | _ => []

/-- The name of an element. -/
def name? : Node → Option QName
  | element n _ _ => some n
  | _ => none

def isElement (n : Node) : Bool := n.name?.isSome

/-- The name of an element without its namespace, and nothing for other nodes. -/
def localName (n : Node) : String := (n.name?.map QName.name).getD ""

def hasName (n : Node) (name : QName) : Bool := n.name? == some name

def attribute? (n : Node) (name : QName) : Option String :=
  (n.attributes.find? (·.name == name)).map Attribute.value

/-- The first child element with the name. -/
def child? (n : Node) (name : QName) : Option Node :=
  n.children.find? (·.hasName name)

def childrenNamed (n : Node) (name : QName) : List Node :=
  n.children.filter (·.hasName name)

/-- The text that an element begins with: its first child, if that is a text. -/
def leadingText (n : Node) : String :=
  match n.children with
  | text s :: _ => s
  | _ => ""

end Node

/-! ## Places -/

structure Place where
  node : Node
  /-- The nodes that contain it, the nearest first. -/
  above : List Node
  deriving Repr

namespace Node

mutual

/-- A node and all nodes in it, in document order, under the given nodes. -/
def places (above : List Node) : Node → List Place
  | n@(document cs) => ⟨n, above⟩ :: placesIn (n :: above) cs
  | n@(element _ _ cs) => ⟨n, above⟩ :: placesIn (n :: above) cs
  | n => [⟨n, above⟩]

def placesIn (above : List Node) : List Node → List Place
  | [] => []
  | c :: cs => c.places above ++ placesIn above cs

end

theorem placesIn_eq_flatMap (above cs : List Node) :
    placesIn above cs = cs.flatMap (places above) := by
  induction cs with
  | nil => simp [placesIn]
  | cons c cs ih => simp [placesIn, ih]

/-- All places of a document. -/
def allPlaces (n : Node) : List Place := n.places []

end Node

namespace Place

/-- The nearest element, from the node itself upwards, that has the attribute gives its value. -/
def inherited? (p : Place) (name : QName) : Option String :=
  (p.node :: p.above).findSome? (·.attribute? name)

end Place

end GmlCheck.Xml
