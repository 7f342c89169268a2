import ShapedGraph.Schema.NodeClass

/-! The registry of a model: its classes, found by IRI or by compact name. It is built from
declarations, of which the last one about an IRI counts, and so does the last one with a compact
name. The compact names are entered one after the other, each for the class that is found under its
IRI by then, so their order matters where the IRI of a class is itself a compact name. -/

namespace ShapedGraph

/-- A compact name and the IRI of the class it names. -/
structure ClassAlias where
  token : String
  iri : String
deriving DecidableEq

structure Registry where
  /-- What the context of a document must be. -/
  contextUrl : String
  /-- Every class once, in the order of first declaration. -/
  classes : List NodeClass
  /-- The compact names with the classes that they were entered for, the latest entered first. -/
  aliases : List ClassAlias
deriving DecidableEq

namespace Registry

def byIri? (registry : Registry) (iri : String) : Option NodeClass :=
  registry.classes.find? (·.iri == iri)

/-- The IRI that a key stands for among the compact names that were entered: its own, unless it is
one of them. -/
def standsFor (entered : List ClassAlias) (key : String) : String :=
  match entered.find? (·.token == key) with
  | some entry => entry.iri
  | none => key

/-- The class that a key names. A compact name comes before an IRI. -/
def get? (registry : Registry) (key : String) : Option NodeClass :=
  registry.byIri? (standsFor registry.aliases key)

def size (registry : Registry) : Nat := registry.classes.length

/-- Both keys name classes and the first derives from the second. -/
def isSubclassOf (registry : Registry) (cls parent : String) : Bool :=
  match registry.get? cls, registry.get? parent with
  | some c, some p => c.isSubclassOf p.iri
  | _, _ => false

/-- Puts a class into a list that is in ascending order of IRI. -/
def insertByIri (c : NodeClass) : List NodeClass → List NodeClass
  | [] => [c]
  | d :: rest => if c.iri ≤ d.iri then c :: d :: rest else d :: insertByIri c rest

/-- The extensible classes that are not abstract, and derive from `target` if there is one, in
ascending order of IRI. -/
def candidates (registry : Registry) (target : Option NodeClass) : List NodeClass :=
  let fits (c : NodeClass) : Bool :=
    c.isExtensible && !c.isAbstract && target.all fun t => c.isSubclassOf t.iri
  (registry.classes.filter fits).foldr insertByIri []

def declaration? (decls : List ClassDecl) (iri : String) : Option ClassDecl :=
  decls.reverse.find? (·.iri == iri)

/-- The compact names of declarations, the latest first. -/
def aliasesOf (decls : List ClassDecl) : List ClassAlias :=
  decls.reverse.filterMap fun decl => decl.compact.map (⟨·, decl.iri⟩)

/-- Of compact names, the latest first, only the latest with each token. -/
def latest : List ClassAlias → List ClassAlias
  | [] => []
  | entry :: rest => entry :: (latest rest).filter (·.token != entry.token)

/-- An order for entering compact names. It goes by nothing but the names that were given, the
latest first, and is the order of the table that keeps the latest with each token. -/
structure AliasOrder where
  arrange : List ClassAlias → List ClassAlias
  perm : ∀ given, (arrange given).Perm (latest given)

def AliasOrder.latestFirst : AliasOrder := ⟨latest, fun _ => .refl _⟩

/-- Enters a compact name for the class that is found under its IRI so far. -/
def enter (entered : List ClassAlias) (entry : ClassAlias) : List ClassAlias :=
  ⟨entry.token, standsFor entered entry.iri⟩ :: entered

def enterAll (table : List ClassAlias) : List ClassAlias := table.foldl enter []

/-- The IRI of the class that a declaration means by a parent's name. An IRI comes before a compact
name. -/
def parentIri? (decls : List ClassDecl) (key : String) : Option String :=
  if (declaration? decls key).isSome then some key
  else ((aliasesOf decls).find? (·.token == key)).map (·.iri)

/-- The IRIs of declarations, each at its first place. -/
def irisOf (decls : List ClassDecl) : List String := (decls.map (·.iri)).eraseDups

/-- The class with an IRI, reached by way of the classes in `path`, while the state holds the
classes that have been settled. A path longer than there are classes has come back to one of them;
`steps` is the length that is left. -/
def resolve (decls : List ClassDecl) : Nat → List String → String →
    StateT (List NodeClass) (Except RegistryError) NodeClass
  | 0, _, iri => throw (.cycle iri)
  | steps + 1, path, iri => do
    match (← get).find? (·.iri == iri) with
    | some c => return c
    | none =>
      if path.contains iri then throw (.cycle iri)
      else
        match declaration? decls iri with
        | none => throw (.unknownParent iri iri)
        | some decl =>
          let parents ← decl.parents.mapM fun key =>
            match parentIri? decls key with
            | none => throw (.unknownParent iri key)
            | some parent => resolve decls steps (iri :: path) parent
          let own ← Property.compileAll iri 0 decl.properties
          let c := NodeClass.ofParents decl parents own
          modify (c :: ·)
          return c
termination_by structural steps => steps

/-- The first property of a class whose objects are of a class that is not registered. -/
def missingTarget? (registry : Registry) (c : NodeClass) : Option RegistryError :=
  c.own.findSome? fun p =>
    match p.kind with
    | .object target => if (registry.get? target).isSome then none
      else some (.unknownClass p.iri target)
    | .scalar _ => none

def build (contextUrl : String) (decls : List ClassDecl)
    (order : AliasOrder := .latestFirst) : Except RegistryError Registry := do
  let iris := irisOf decls
  let (classes, _) ← (iris.mapM (resolve decls iris.length [])).run []
  let registry : Registry := ⟨contextUrl, classes, enterAll (order.arrange (aliasesOf decls))⟩
  match classes.findSome? registry.missingTarget? with
  | some e => .error e
  | none => .ok registry

end Registry

end ShapedGraph
