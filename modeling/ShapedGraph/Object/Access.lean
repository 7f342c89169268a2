import ShapedGraph.Object.Basic
import ShapedGraph.Object.Error

/-! Making objects and changing them. Values are stored only if the validators of the property
accept them, and references only if they fit the class that the property asks for. -/

namespace ShapedGraph

namespace Registry

/-- A new object of the class that a key names. -/
def create (registry : Registry) (key : String) : Except AccessError Object :=
  match registry.get? key with
  | none => .error (.unknownClass key)
  | some cls => if cls.isAbstract then .error (.abstractType cls.iri) else .ok (.blank cls)

end Registry

namespace Property

/-- The class that the objects of a property must be of, as the property names it. -/
def targetName (p : Property) : String :=
  match p.kind with
  | .scalar _ => ""
  | .object cls => cls

end Property

namespace Reference

/-- The object referred to, if it is of the class with an IRI. -/
def narrow (target : Reference) (cls : String) : Except ConversionError Object :=
  match target with
  | .object _ o => if o.cls.isSubclassOf cls then .ok o else .error ⟨o.cls.iri, cls⟩
  | .iri _ => .error ⟨"IRI", cls⟩
  | .unset => .error ⟨"unset reference", cls⟩

/-- Why a property does not accept a reference. An object must be of the class that the property
names, and only the class's IRI counts as its name here. -/
def faultIn? (p : Property) : Reference → Option AccessError
  | .unset => none
  | .iri text =>
    if isIdentifier text then none else some (.validation ⟨p.name, .notIdentifier⟩)
  | .object _ o =>
    if o.cls.isSubclassOf p.targetName then none
    else some (.conversion ⟨o.cls.iri, p.targetName⟩)

end Reference

namespace Object

/-- The property that is called or written with a key. -/
def find (o : Object) (key : String) : Except AccessError (Cell Slot) :=
  match o.cell? key with
  | some cell => .ok cell
  | none => .error (.unknownProperty o.cls.iri key)

/-- Says what a property holds instead of what an accessor expects. -/
def mismatch {α : Type} (key expected : String) (p : Property) : Except AccessError α :=
  .error (.propertyKind key expected p.contentName)

/-- A property with a value of a scalar type. -/
def findScalar (o : Object) (key : String) (type : ScalarType) :
    Except AccessError (Cell (Option Scalar)) := do
  let cell ← o.find key
  match cell.property.kind, cell.content with
  | .scalar kind, .scalar value =>
    if kind.type = type then .ok ⟨cell.place, cell.property, value⟩
    else mismatch key type.name cell.property
  | _, _ => mismatch key type.name cell.property

/-- A property with a list of values of a scalar type. -/
def findList (o : Object) (key : String) (type : ScalarType) :
    Except AccessError (Cell (List Scalar)) := do
  let cell ← o.find key
  match cell.property.kind, cell.content with
  | .scalar kind, .list values =>
    if kind.type = type then .ok ⟨cell.place, cell.property, values⟩
    else mismatch key type.name cell.property
  | _, _ => mismatch key type.name cell.property

def findReference (o : Object) (key : String) : Except AccessError (Cell Reference) := do
  let cell ← o.find key
  match cell.content with
  | .reference target => .ok ⟨cell.place, cell.property, target⟩
  | _ => mismatch key "reference" cell.property

def findReferences (o : Object) (key : String) : Except AccessError (Cell (List Reference)) := do
  let cell ← o.find key
  match cell.content with
  | .references targets => .ok ⟨cell.place, cell.property, targets⟩
  | _ => mismatch key "reference list" cell.property

/-- Stores a value in a property of the value's type. -/
def setScalar (o : Object) (key : String) (value : Scalar) : Except AccessError Object := do
  let cell ← o.findScalar key value.type
  let field ← ((cell.property.field cell.content).set value).mapError .validation
  .ok (o.putSlot cell.place (.scalar field.value))

/-- Stores a list of values of a scalar type. -/
def setList (o : Object) (key : String) (type : ScalarType) (values : List Scalar) :
    Except AccessError Object := do
  let cell ← o.findList key type
  let field ← ((cell.property.listField cell.content).set values).mapError .validation
  .ok (o.putSlot cell.place (.list field.values))

/-- Adds a value at the end of a list of the value's type. -/
def pushScalar (o : Object) (key : String) (value : Scalar) : Except AccessError Object := do
  let cell ← o.findList key value.type
  let field ← ((cell.property.listField cell.content).push value).mapError .validation
  .ok (o.putSlot cell.place (.list field.values))

def deleteScalar (o : Object) (key : String) (type : ScalarType) : Except AccessError Object := do
  let cell ← o.findScalar key type
  .ok (o.putSlot cell.place (.scalar none))

def deleteList (o : Object) (key : String) (type : ScalarType) : Except AccessError Object := do
  let cell ← o.findList key type
  .ok (o.putSlot cell.place (.list []))

def setReference (o : Object) (key : String) (target : Reference) :
    Except AccessError Object := do
  let cell ← o.findReference key
  match target.faultIn? cell.property with
  | some e => .error e
  | none => .ok (o.putSlot cell.place (.reference target))

def setReferences (o : Object) (key : String) (targets : List Reference) :
    Except AccessError Object := do
  let cell ← o.findReferences key
  match targets.findSome? (·.faultIn? cell.property) with
  | some e => .error e
  | none => .ok (o.putSlot cell.place (.references targets))

/-- Adds a reference at the end of a list. -/
def pushReference (o : Object) (key : String) (target : Reference) :
    Except AccessError Object := do
  let cell ← o.findReferences key
  match target.faultIn? cell.property with
  | some e => .error e
  | none => .ok (o.putSlot cell.place (.references (cell.content ++ [target])))

def deleteReference (o : Object) (key : String) : Except AccessError Object := do
  let cell ← o.findReference key
  .ok (o.putSlot cell.place (.reference .unset))

def deleteReferences (o : Object) (key : String) : Except AccessError Object := do
  let cell ← o.findReferences key
  .ok (o.putSlot cell.place (.references []))

/-- Empties the property with a key, whatever it holds, if there is one. -/
def deleteSlot (o : Object) (key : String) : Option Object := do
  let cell ← o.cell? key
  some (o.putSlot cell.place cell.content.cleared)

def setId (o : Object) (id : String) : Except ValidationError Object :=
  match Validator.firstError [.identifier] "id" (.string id) with
  | some e => .error e
  | none => .ok { o with id := some id }

def deleteId (o : Object) : Object := { o with id := none }

def setType (o : Object) (type : String) : Object := { o with observedType := some type }

def clearType (o : Object) : Object := { o with observedType := none }

/-- The values of a member that is not declared. -/
def extension? (o : Object) (key : String) : Option (List Extension) :=
  Members.get? o.extensions key

/-- Replaces a member that is not declared; without values it is removed. -/
def setExtension (o : Object) (key : String) (values : List Extension) :
    Except AccessError Object :=
  if o.cls.isExtensible then
    .ok { o with extensions :=
      if values.isEmpty then Members.erase o.extensions key
      else Members.insert o.extensions key values }
  else .error (.notExtensible o.cls.iri)

def deleteExtension (o : Object) (key : String) : Object :=
  { o with extensions := Members.erase o.extensions key }

end Object

end ShapedGraph
