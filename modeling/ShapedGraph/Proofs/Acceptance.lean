import ShapedGraph.Proofs.Accessors
import ShapedGraph.Proofs.Ancestry
import ShapedGraph.Proofs.Typing

/-! Whether a property accepts again what it holds. Reading resolves the name of the class that a
property asks for, which may be a compact name, and stores objects that derive from that class.
Setting compares the name itself with the IRIs of an object's class and its ancestors. So a
reference that was read can be set again if and only if the object has an ancestor with that very
name for its IRI. -/

namespace ShapedGraph

/-- The first of these objects that is not of the class with the name that a property gives. -/
def Property.misfit? (p : Property) (objects : List Object) : Option Object :=
  objects.find? fun y => !y.cls.isSubclassOf p.targetName

/-- An object is not of the class that a property names. -/
def Property.conversion (p : Property) (y : Object) : AccessError :=
  .conversion ⟨y.cls.iri, p.targetName⟩

theorem Reference.faultIn?_eq (p : Property) {target : Reference}
    (shaped : ∀ text, target = .iri text → isIdentifier text = true) :
    target.faultIn? p = (p.misfit? target.objects).map p.conversion := by
  cases target with
  | unset => rfl
  | iri text =>
    rw [Reference.faultIn?, shaped text rfl]
    rfl
  | object handle y =>
    rw [Reference.faultIn?, Reference.objects, Property.misfit?, List.find?_singleton]
    cases y.cls.isSubclassOf p.targetName <;> rfl

theorem findSome?_faultIn?_eq (p : Property) {targets : List Reference}
    (shaped : ∀ text, .iri text ∈ targets → isIdentifier text = true) :
    targets.findSome? (·.faultIn? p) =
      (p.misfit? (targets.flatMap Reference.objects)).map p.conversion := by
  induction targets with
  | nil => rfl
  | cons target targets ih =>
    have here : target.faultIn? p = (p.misfit? target.objects).map p.conversion :=
      Reference.faultIn?_eq p fun text same => shaped text (same ▸ List.mem_cons_self)
    have later := ih fun text among => shaped text (List.mem_cons_of_mem _ among)
    rw [List.findSome?_cons, List.flatMap_cons, Property.misfit?, List.find?_append, here, later]
    unfold Property.misfit?
    cases List.find? (fun y : Object => !y.cls.isSubclassOf p.targetName) target.objects <;> rfl

namespace Object

variable {x : Object} {key : String}

/-- Storing the references to these objects again leaves an object as it is if all of them are of
the class that the property names, and is refused for one that is not. -/
structure StoresAgain (x : Object) (p : Property) (objects : List Object)
    (result : Except AccessError Object) : Prop where
  accepts : result = .ok x ↔ ∀ y ∈ objects, y.cls.isSubclassOf p.targetName = true
  refuses : ∀ e, result = .error e →
    ∃ y ∈ objects, y.cls.isSubclassOf p.targetName = false ∧ e = p.conversion y

theorem storesAgain_misfit? (p : Property) (objects : List Object) :
    x.StoresAgain p objects (((p.misfit? objects).map p.conversion).elim (.ok x) .error) := by
  cases found : p.misfit? objects with
  | none =>
    refine ⟨iff_of_true rfl fun y among => ?_, nofun⟩
    simpa using List.find?_eq_none.mp found y among
  | some y =>
    have misfit : y.cls.isSubclassOf p.targetName = false := by
      simpa using List.find?_some found
    have among : y ∈ objects := List.mem_of_find?_eq_some found
    refine ⟨iff_of_false nofun fun all => ?_, fun e same => ⟨y, among, misfit, ?_⟩⟩
    · cases misfit.symm.trans (all y among)
    · cases same
      rfl

theorem getElem?_of_find {cell : Cell Slot} (found : x.find key = .ok cell) :
    x.properties[cell.place]? = some (cell.property, cell.content) :=
  (cell?_eq_some_iff.mp (find_eq_ok_iff.mp found)).2

theorem getElem?_of_findReference {cell : Cell Reference}
    (found : x.findReference key = .ok cell) :
    x.properties[cell.place]? = some (cell.property, .reference cell.content) :=
  getElem?_of_find (findReference_iff_find.mp found)

theorem getElem?_of_findReferences {cell : Cell (List Reference)}
    (found : x.findReferences key = .ok cell) :
    x.properties[cell.place]? = some (cell.property, .references cell.content) :=
  getElem?_of_find (findReferences_iff_find.mp found)

theorem putSlot_eq_self {place : Nat} {p : Property} {slot : Slot}
    (there : x.properties[place]? = some (p, slot)) : x.putSlot place slot = x := by
  obtain ⟨inside, same⟩ := List.getElem?_eq_some_iff.mp (getElem?_properties.mp there).2
  subst same
  unfold putSlot
  rw [List.set_getElem_self]
  cases x
  rfl

theorem setReference_eq {cell : Cell Reference} (found : x.findReference key = .ok cell)
    (target : Reference) : x.setReference key target =
      (target.faultIn? cell.property).elim (.ok (x.putSlot cell.place (.reference target)))
        .error := by
  cases fault : target.faultIn? cell.property <;>
    simp only [setReference, found, bind, Except.bind, fault, Option.elim]

theorem setReferences_eq {cell : Cell (List Reference)} (found : x.findReferences key = .ok cell)
    (targets : List Reference) : x.setReferences key targets =
      (targets.findSome? (·.faultIn? cell.property)).elim
        (.ok (x.putSlot cell.place (.references targets))) .error := by
  cases fault : targets.findSome? (·.faultIn? cell.property) <;>
    simp only [setReferences, found, bind, Except.bind, fault, Option.elim]

/-- Identifiers that an object holds in its properties are shaped as such. -/
def Identifies (x : Object) : Prop :=
  ∀ p slot text, (p, slot) ∈ x.properties → .iri text ∈ slot.targets → isIdentifier text = true

theorem Identifies.storesAgain_setReference (identifies : x.Identifies) {cell : Cell Reference}
    (found : x.findReference key = .ok cell) :
    x.StoresAgain cell.property cell.content.objects (x.setReference key cell.content) := by
  have there := getElem?_of_findReference found
  have shaped : ∀ text, cell.content = .iri text → isIdentifier text = true := fun text same =>
    identifies _ _ text (List.mem_of_getElem? there) (List.mem_singleton.mpr same.symm)
  rw [setReference_eq found, Reference.faultIn?_eq _ shaped, putSlot_eq_self there]
  exact storesAgain_misfit? _ _

theorem Identifies.storesAgain_setReferences (identifies : x.Identifies)
    {cell : Cell (List Reference)} (found : x.findReferences key = .ok cell) :
    x.StoresAgain cell.property (cell.content.flatMap Reference.objects)
      (x.setReferences key cell.content) := by
  have there := getElem?_of_findReferences found
  have shaped : ∀ text, .iri text ∈ cell.content → isIdentifier text = true := fun text among =>
    identifies _ _ text (List.mem_of_getElem? there) among
  rw [setReferences_eq found, findSome?_faultIn?_eq _ shaped, putSlot_eq_self there]
  exact storesAgain_misfit? _ _

end Object

namespace Registry.Built

variable {registry : Registry} {decls : List ClassDecl} {a b : NodeClass} {iri : String}
  (built : registry.Built decls)

include built

theorem isSubclassOf_trans (ha : a ∈ registry.classes) (hb : b ∈ registry.classes)
    (below : a.isSubclassOf b.iri = true) (above : b.isSubclassOf iri = true) :
    a.isSubclassOf iri = true := by
  rw [built.isSubclassOf_iff ha] at below ⊢
  exact ((built.isSubclassOf_iff hb).mp above).trans below

/-- No class derives from what is no class's IRI. -/
theorem isSubclassOf_of_unregistered (ha : a ∈ registry.classes)
    (unregistered : ∀ c ∈ registry.classes, c.iri ≠ iri) : a.isSubclassOf iri = false := by
  refine Bool.eq_false_iff.mpr fun derives => ?_
  obtain ⟨c, hc, named, -⟩ :=
    (built.reflTransGen_iff ha).mp ((built.isSubclassOf_iff ha).mp derives)
  exact unregistered c hc named

end Registry.Built

/-- The objects in a property of an object that was read are of registered classes that derive from
the one that the property's name of a class resolves to. -/
theorem Object.SoundThroughout.derives {registry : Registry} {decls : List ClassDecl}
    {searched unbounded : Prop} {required : Option NodeClass} {x y : Object} {p : Property}
    {slot : Slot} {t : NodeClass} (built : registry.Built decls)
    (sound : x.SoundThroughout registry searched unbounded required)
    (there : (p, slot) ∈ x.properties) (asks : registry.targetOf p = some t)
    (inside : y ∈ slot.objects) : y.cls ∈ registry.classes ∧ y.cls.isSubclassOf t.iri = true := by
  have held := (Object.Everywhere.inside sound (.inSlot there inside)).here
  exact ⟨held.registered, (held.wellTyped built).fits t asks⟩

/-- A reference or a list of references that was read can be set again if and only if each object
among them has an ancestor with the name that the property gives for its IRI; otherwise one that has
none is reported. So it can be set again whenever that name is the IRI of the class that it stands
for, or of one above, and never if it is no IRI. -/
theorem Decoder.storesAgain_of_decodeObject {contextUrl : String} {decls : List ClassDecl}
    {order : Registry.AliasOrder} {registry : Registry} {maxDepth : Nat} {path : Path}
    {target required : Option NodeClass} {json : Json} {o x : Object}
    (made : Registry.build contextUrl decls order = .ok registry)
    (registered : ∀ t, target = some t → t ∈ registry.classes)
    (read : (Decoder.mk registry maxDepth).decodeObject path target json = .ok o)
    (nested : Object.Nested registry target o required x) :
    (∀ key cell, x.findReference key = .ok cell →
      x.StoresAgain cell.property cell.content.objects (x.setReference key cell.content)) ∧
    (∀ key cell, x.findReferences key = .ok cell →
      x.StoresAgain cell.property (cell.content.flatMap Reference.objects)
        (x.setReferences key cell.content)) ∧
    ∀ p slot name, (p, slot) ∈ x.properties → p.kind = .object name →
      ∃ t, registry.get? name = some t ∧
        (t.isSubclassOf name = true → ∀ y ∈ slot.objects, y.cls.isSubclassOf name = true) ∧
        ((∀ c ∈ registry.classes, c.iri ≠ name) →
          ∀ y ∈ slot.objects, y.cls.isSubclassOf name = false) := by
  obtain ⟨built, -⟩ := Registry.build_spec made
  have everywhere := ((readsSoundly ⟨registry, maxDepth⟩ True True json (.inl trivial)).object path
    target o registered (.inl trivial) read).nested nested
  have identifies : x.Identifies := (everywhere.here.wellTyped built).iris
  refine ⟨fun key cell found => identifies.storesAgain_setReference found,
    fun key cell found => identifies.storesAgain_setReferences found,
    fun p slot name there kind => ?_⟩
  have declared : p ∈ x.cls.layout := (List.of_mem_zip there).1
  obtain ⟨t, asks⟩ := Option.isSome_iff_exists.mp
    (built.isSome_targetOf everywhere.here.registered declared kind)
  have found : registry.get? name = some t := Registry.targetOf_eq kind ▸ asks
  have derives := fun y (inside : y ∈ slot.objects) =>
    Object.SoundThroughout.derives built everywhere there asks inside
  refine ⟨t, found, fun above y inside => ?_, fun unregistered y inside => ?_⟩
  · obtain ⟨held, below⟩ := derives y inside
    exact built.isSubclassOf_trans held (Registry.mem_of_get? found) below above
  · exact built.isSubclassOf_of_unregistered (derives y inside).1 unregistered

namespace Sample

def gear : ClassDecl where
  iri := "ex:Gear"
  compact := some "Gear"
  nodeKind := none
  idAlias := none
  isAbstract := false
  extensible := none
  parents := []
  properties := []

/-- A clock asks for a gear twice, once by its compact name and once by its IRI. -/
def clock : ClassDecl :=
  { gear with
    iri := "ex:Clock"
    compact := some "Clock"
    properties := [
      ⟨"drive", "ex:drive", some "drive", .object "Gear", false, none, none, [], []⟩,
      ⟨"spare", "ex:spare", some "spare", .object "ex:Gear", false, none, none, [], []⟩] }

def clockRegistry : Registry := (Registry.build "" [gear, clock]).toOption.getD ⟨"", [], []⟩

def clockDocument : Json := .object
  [("@type", .string "Clock"), ("drive", .object [("@type", .string "Gear")]),
    ("spare", .object [("@type", .string "Gear")])]

end Sample

/-- The gear that drives a clock was read, and cannot be set again. -/
theorem Sample.drive_refused : ∃ x cell, Registry.build "" [Sample.gear, Sample.clock] =
      .ok Sample.clockRegistry ∧
    (Decoder.mk Sample.clockRegistry 5).decodeObject .root none Sample.clockDocument = .ok x ∧
      x.findReference "drive" = .ok cell ∧ cell.content.isObject = true ∧
        x.setReference "drive" cell.content = .error (.conversion ⟨"ex:Gear", "Gear"⟩) :=
  ⟨_, _, rfl, rfl, rfl, rfl, rfl⟩

/-- The spare gear of a clock can be set again, as the clock asks for it by its IRI. -/
theorem Sample.spare_accepted : ∃ x cell,
    (Decoder.mk Sample.clockRegistry 5).decodeObject .root none Sample.clockDocument = .ok x ∧
      x.findReference "spare" = .ok cell ∧ cell.content.isObject = true ∧
        x.setReference "spare" cell.content = .ok x := by
  have made : Registry.build "" [Sample.gear, Sample.clock] = .ok Sample.clockRegistry := rfl
  obtain ⟨x, cell, p, slot, t, read, reference, object, there, kind, names, found, above⟩ :
      ∃ x cell p slot t,
        (Decoder.mk Sample.clockRegistry 5).decodeObject .root none Sample.clockDocument = .ok x ∧
          x.findReference "spare" = .ok cell ∧ cell.content.isObject = true ∧
            (p, slot) ∈ x.properties ∧ p.kind = .object "ex:Gear" ∧
              (cell.property = p ∧ cell.content.objects = slot.objects) ∧
                Sample.clockRegistry.get? "ex:Gear" = some t ∧ t.isSubclassOf "ex:Gear" = true :=
    ⟨_, _, _, _, _, rfl, rfl, rfl, .tail _ (.head _), rfl, ⟨rfl, rfl⟩, rfl, rfl⟩
  have unasked : ∀ t, none = some t → t ∈ Sample.clockRegistry.classes := nofun
  obtain ⟨single, -, fits⟩ := Decoder.storesAgain_of_decodeObject made unasked read .here
  refine ⟨x, cell, read, reference, object, (single "spare" cell reference).accepts.mpr ?_⟩
  obtain ⟨t', found', derives, -⟩ := fits p slot "ex:Gear" there kind
  cases found.symm.trans found'
  rw [names.1, names.2, Property.targetName, kind]
  exact derives above

end ShapedGraph
