import ShapedGraph.Object.Basic
import ShapedGraph.Scalar.Codec

/-! Reading objects. The type name of an object settles its class, except that a name which is not
registered may stand for any extensible class that fits the place and can read the members. Values
are stored as they are read; validators do not run. -/

namespace ShapedGraph

/-- What reading goes by: the classes, and the length of the longest path of an object. -/
structure Decoder where
  registry : Registry
  maxDepth : Nat

/-- What a member of an object is, by its key. -/
inductive MemberRole where
  | type
  | id
  | forbiddenId
  | declared (place : Nat)
  | undeclared
  | unknown
deriving DecidableEq

namespace NodeClass

/-- The role of a member that is not about type or identifier. -/
def propertyRole (c : NodeClass) (key : String) : MemberRole :=
  match c.keyPlace key with
  | some place => .declared place
  | none => if c.isExtensible then .undeclared else .unknown

/-- The role of the member with a key. A class that has a member of its own for the identifier
forbids the usual one. -/
def memberRole (c : NodeClass) (key : String) : MemberRole :=
  if key = "@type" then .type
  else if key = c.idKey then .id
  else if key = "@id" then .forbiddenId
  else c.propertyRole key

end NodeClass

namespace Decoder

def typeName (path : Path) (members : List (String × Json)) : Decoded String :=
  match Members.get? members "@type" with
  | some (.string type) => .ok type
  | some other => failAt path (.typeNotString other.typeName)
  | none => failAt path .missingType

inductive Choice where
  | only (cls : NodeClass)
  /-- The first of these that reads the members. -/
  | firstOf (candidates : List NodeClass)

/-- The classes to read an object by, from its type name and the class that its place asks for. A
name that is not registered may stand for an extensible class that the place asks for, which may
be abstract. -/
def choose (d : Decoder) (path : Path) (type : String) (target : Option NodeClass) :
    Decoded Choice :=
  match d.registry.get? type, target with
  | some cls, target =>
    match target.filter fun t => !cls.isSubclassOf t.iri with
    | some t => failAt path (.typeNotValid type t.iri)
    | none => if cls.isAbstract then failAt path (.abstractType type) else .ok (.only cls)
  | none, some t =>
    if t.isExtensible then .ok (.only t)
    else .ok (.firstOf (if isIri type then d.registry.candidates target else []))
  | none, none => .ok (.firstOf (if isIri type then d.registry.candidates none else []))

def decodeId (path : Path) (json : Json) : Decoded String := do
  let id ← Scalar.decodeString path json
  if isIdentifier id then .ok id else failAt path (.invalidId ⟨"id", .notIdentifier⟩)

/-- Reads a reference: a string is an IRI and anything else an object. -/
def referenceOf (context : Context) (path : Path) (json : Json) (object : Unit → Decoded Object) :
    Decoded Reference :=
  match json with
  | .string _ => .iri <$> Scalar.decodeIri context path json
  | _ => .object none <$> object ()

/-- Reads the content of a property, with ways to read an object and a list of references. -/
def contentOf (d : Decoder) (p : Property) (path : Path) (json : Json) (slot : Slot)
    (object : Option NodeClass → Decoded Object)
    (references : Context → Option NodeClass → Decoded (List Reference)) : Decoded Slot :=
  match p.kind, slot with
  | .scalar kind, .scalar _ => (.scalar <| some ·) <$> kind.decode p.context path json
  | .scalar kind, .list _ => .list <$> decodeList (kind.decode p.context) path json
  | .object cls, .reference _ =>
    .reference <$> referenceOf p.context path json fun _ => object (d.registry.get? cls)
  | .object cls, .references _ => .references <$> references p.context (d.registry.get? cls)
  | _, _ => failAt path .slotMismatch

/-- Reads a value of a member that is not declared, by its shape, with ways to read an object and
a list. -/
def extensionOf (path : Path) (json : Json) (object : Unit → Decoded Object)
    (list : Unit → Decoded (List Extension)) : Decoded Extension :=
  match json with
  | .object _ => (.reference <| .object none ·) <$> object ()
  | .string value => .ok (.string value)
  | .integer n =>
    match Scalar.toInt64? n with
    | some n => .ok (.integer n)
    | none => .ok (.float (.ofInt n))
  | .float x => .ok (.float x)
  | .bool value => .ok (.boolean value)
  | .list _ => .list <$> list ()
  | .null => failAt path (.unsupportedValue json.typeName)

/-- Reads the values of a member that is not declared: those of a list, or a single one. -/
def extensionsOf (path : Path) (json : Json) (object : Unit → Decoded Object)
    (list : Unit → Decoded (List Extension)) : Decoded (List Extension) :=
  match json with
  | .list _ => list ()
  | _ => ([·]) <$> extensionOf path json object list

mutual

/-- Reads the object at a path, which must be of the class `target` if there is one. -/
def decodeObject (d : Decoder) (path : Path) (target : Option NodeClass) (json : Json) :
    Decoded Object :=
  if d.maxDepth < path.length then failAt path (.depthExceeded d.maxDepth)
  else
    match json with
    | .object members => do
      let type ← typeName path members
      match ← d.choose path type target with
      | .only cls => d.decodeMembers path members (.ofType cls type)
      | .firstOf candidates =>
        let read := candidates.findSome? fun cls =>
          (d.decodeMembers path members (.ofType cls type)).toOption
        match read with
        | some o => .ok o
        | none => failAt path (.noMatchingExtensible type)
    | other => failAt path (.expectedObject other.typeName)
termination_by structural json

/-- Reads the members of the object at a path, in the order they stand in, into the object. -/
def decodeMembers (d : Decoder) (path : Path) (members : List (String × Json)) (o : Object) :
    Decoded Object :=
  match members with
  | [] => .ok o
  | (key, value) :: rest =>
    let here := path.member key
    match o.cls.memberRole key with
    | .type => d.decodeMembers path rest o
    | .id => do
      let id ← decodeId here value
      d.decodeMembers path rest { o with id := id }
    | .forbiddenId => failAt here (.idNotAllowed o.cls.iri)
    | .declared place =>
      match o.properties[place]? with
      | none => failAt here .slotMismatch
      | some (p, slot) => do
        let slot ← d.contentOf p here value slot (fun target => d.decodeObject here target value)
          fun context target => d.decodeReferenceList context target here value
        d.decodeMembers path rest { o with slots := o.slots.set place slot }
    | .undeclared => do
      let values ← extensionsOf here value (fun _ => d.decodeObject here none value)
        fun _ => d.decodeExtensionList here value
      d.decodeMembers path rest { o with extensions := Members.insert o.extensions key values }
    | .unknown => failAt path (.unknownProperty key)
termination_by structural members

def decodeReferenceList (d : Decoder) (context : Context) (target : Option NodeClass)
    (path : Path) (json : Json) : Decoded (List Reference) :=
  match json with
  | .list items => d.decodeReferences context target path 0 items
  | other => failAt path (.expectedList other.typeName)
termination_by structural json

/-- Reads references from `position` on, each at its own position. -/
def decodeReferences (d : Decoder) (context : Context) (target : Option NodeClass) (path : Path)
    (position : Nat) (items : List Json) : Decoded (List Reference) :=
  match items with
  | [] => .ok []
  | item :: items => do
    let here := path.item position
    let reference ← referenceOf context here item fun _ => d.decodeObject here target item
    let references ← d.decodeReferences context target path (position + 1) items
    .ok (reference :: references)
termination_by structural items

/-- Reads a list of values of a member that is not declared. -/
def decodeExtensionList (d : Decoder) (path : Path) (json : Json) : Decoded (List Extension) :=
  match json with
  | .list items => d.decodeExtensions path 0 items
  | other => failAt path (.expectedList other.typeName)
termination_by structural json

/-- Reads values of a member that is not declared, from `position` on. -/
def decodeExtensions (d : Decoder) (path : Path) (position : Nat) (items : List Json) :
    Decoded (List Extension) :=
  match items with
  | [] => .ok []
  | item :: items => do
    let here := path.item position
    let value ← extensionOf here item (fun _ => d.decodeObject here none item)
      fun _ => d.decodeExtensionList here item
    let values ← d.decodeExtensions path (position + 1) items
    .ok (value :: values)
termination_by structural items

end

/-- Reads a single value of a member that is not declared. -/
def decodeExtension (d : Decoder) (path : Path) (json : Json) : Decoded Extension :=
  extensionOf path json (fun _ => d.decodeObject path none json)
    fun _ => d.decodeExtensionList path json

end Decoder

end ShapedGraph
