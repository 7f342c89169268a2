import ShapedGraph.Object.Basic
import ShapedGraph.Scalar.Codec

/-! Writing objects. An object is written in full the first time it is met; after that its
identifier is written in its place, or all of it again if it has none. -/

namespace ShapedGraph

/-- The handles of the objects that have been written. -/
abbrev Seen := List Nat

/-- The object behind a handle has been met. Without a handle it is met here for the first time. -/
def Seen.meets (seen : Seen) : Option Nat → Bool
  | some handle => seen.contains handle
  | none => false

def Seen.insert (seen : Seen) : Option Nat → Seen
  | some handle => handle :: seen
  | none => seen

mutual

/-- The members of an object: its type, its identifier, the properties that are set in layout order,
and last the members that are not declared, which replace others of the same key. -/
def Object.encode (o : Object) (seen : Seen) : Members Json × Seen :=
  match o with
  | ⟨cls, id, observedType, slots, extensions⟩ =>
    let typed := Members.insert [] "@type" (.string (observedType.getD cls.typeName))
    let identified :=
      match id with
      | some id => Members.insert typed cls.idKey (.string id)
      | none => typed
    let (declared, seen) := encodeSlots cls.layout slots identified seen
    encodeExtensions extensions declared seen
termination_by structural o

/-- Adds the slots that are set to the members. -/
def encodeSlots (layout : List Property) (slots : List Slot) (members : Members Json)
    (seen : Seen) : Members Json × Seen :=
  match slots, layout with
  | slot :: slots, p :: layout =>
    if slot.isSet then
      let (json, seen) := slot.encode p seen
      encodeSlots layout slots (members.insert p.key json) seen
    else encodeSlots layout slots members seen
  | _, _ => (members, seen)
termination_by structural slots

def Slot.encode (slot : Slot) (p : Property) (seen : Seen) : Json × Seen :=
  match slot with
  | .scalar none => (.null, seen)
  | .scalar (some value) =>
    match p.kind with
    | .scalar kind => (kind.encode p.context value, seen)
    | .object _ => (.null, seen)
  | .list values =>
    match p.kind with
    | .scalar kind => (.list (values.map (kind.encode p.context)), seen)
    | .object _ => (.list [], seen)
  | .reference target => target.encode p.context seen
  | .references targets =>
    let (items, seen) := encodeReferences targets p.context seen
    (.list items, seen)
termination_by structural slot

def Reference.encode (target : Reference) (context : Context) (seen : Seen) : Json × Seen :=
  match target with
  | .unset => (.null, seen)
  | .iri text => (.string (context.compact text), seen)
  | .object handle o =>
    match o.id, seen.meets handle with
    | some id, true => (.string (context.compact id), seen)
    | _, _ =>
      let (members, seen) := o.encode (seen.insert handle)
      (.object members, seen)
termination_by structural target

def encodeReferences (targets : List Reference) (context : Context) (seen : Seen) :
    List Json × Seen :=
  match targets with
  | [] => ([], seen)
  | target :: targets =>
    let (item, seen) := target.encode context seen
    let (items, seen) := encodeReferences targets context seen
    (item :: items, seen)
termination_by structural targets

/-- Puts the members that are not declared into the others. Each is written as a list. -/
def encodeExtensions (extensions : List (String × List Extension)) (members : Members Json)
    (seen : Seen) : Members Json × Seen :=
  match extensions with
  | [] => (members, seen)
  | (key, values) :: extensions =>
    if values.isEmpty then encodeExtensions extensions members seen
    else
      let (items, seen) := encodeExtensionValues values seen
      encodeExtensions extensions (members.insert key (.list items)) seen
termination_by structural extensions

def encodeExtensionValues (values : List Extension) (seen : Seen) : List Json × Seen :=
  match values with
  | [] => ([], seen)
  | value :: values =>
    let (item, seen) := value.encode seen
    let (items, seen) := encodeExtensionValues values seen
    (item :: items, seen)
termination_by structural values

/-- A value of a member that is not declared. Floats are written as numbers. -/
def Extension.encode (value : Extension) (seen : Seen) : Json × Seen :=
  match value with
  | .reference target => target.encode .empty seen
  | .string value => (.string value, seen)
  | .integer value => (.integer value.toInt, seen)
  | .float (.finite negative rank) => (.float (.finite negative rank), seen)
  | .float _ => (.null, seen)
  | .boolean value => (.bool value, seen)
  | .list values =>
    let (items, seen) := encodeExtensionValues values seen
    (.list items, seen)
termination_by structural value

end

/-- The value of an object that is written alone. -/
def Object.toJson (o : Object) : Json := .object (o.encode []).1

end ShapedGraph
