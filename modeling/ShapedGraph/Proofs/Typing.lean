import ShapedGraph.Proofs.Soundness

/-! Objects that were read are well typed: the class of each fits its place, its identifier and the
IRIs it refers to are shaped as such, and undeclared members stand only where the class allows
them. -/

namespace ShapedGraph

/-- The scalar values in a slot. -/
def Slot.scalars : Slot → List Scalar
  | .scalar value => value.toList
  | .list values => values
  | _ => []

/-- An object is well typed at a place that asks for a class or for none. -/
structure Object.WellTyped (registry : Registry) (required : Option NodeClass) (o : Object) :
    Prop where
  fits : ∀ c, required = some c → o.cls.isSubclassOf c.iri = true
  /-- An abstract class is used only for a type name that is not registered. -/
  abstract : o.cls.isAbstract = true → o.cls.isExtensible = true ∧
    ∃ type, o.observedType = some type ∧ registry.get? type = none
  id : ∀ text, o.id = some text → isIdentifier text = true
  /-- An object in a slot stands at a place that asks for a class of the registry. -/
  places : ∀ p slot, (p, slot) ∈ o.properties → slot.objects ≠ [] →
    ∃ name c, p.kind = .object name ∧ registry.get? name = some c
  iris : ∀ p slot text, (p, slot) ∈ o.properties → .iri text ∈ slot.targets →
    isIdentifier text = true
  iriStrings : ∀ p slot value, (p, slot) ∈ o.properties → p.kind = .scalar .iri →
    value ∈ slot.scalars → ∃ text, value = .string text ∧ isIdentifier text = true
  noneUnset : ∀ p targets, (p, .references targets) ∈ o.properties → .unset ∉ targets
  extensible : o.extensions ≠ [] → o.cls.isExtensible = true

theorem Reference.Sound.isIdentifier {context : Context} {text : String}
    (h : (Reference.iri text).Sound context) : isIdentifier text = true := by
  cases h
  assumption

theorem Slot.Sound.isIdentifier_of_iri {p : Property} {slot : Slot} {text : String}
    (sound : slot.Sound p) (h : .iri text ∈ slot.targets) : isIdentifier text = true := by
  cases sound with
  | unset =>
    revert h
    unfold Slot.empty targets
    cases p.kind <;> cases p.isList <;> simp
  | scalar | list => cases h
  | reference _ _ sound =>
    rw [← List.mem_singleton.mp h] at sound
    exact sound.isIdentifier
  | references _ _ sound => exact (sound _ h).isIdentifier

theorem Slot.Sound.isIdentifier_of_scalar {p : Property} {slot : Slot} {value : Scalar}
    (sound : slot.Sound p) (kind : p.kind = .scalar .iri) (h : value ∈ slot.scalars) :
    ∃ text, value = .string text ∧ isIdentifier text = true := by
  cases sound with
  | unset =>
    revert h
    unfold Slot.empty scalars
    rw [kind]
    cases p.isList <;> simp
  | scalar holds _ reads =>
    cases holds.symm.trans kind
    rw [← Option.some.inj (Option.mem_toList.mp h)]
    exact reads.isIdentifier
  | list holds _ reads =>
    cases holds.symm.trans kind
    exact (reads value h).isIdentifier
  | reference holds | references holds => cases holds.symm.trans kind

theorem Slot.Sound.unset_not_mem {p : Property} {targets : List Reference}
    (sound : (Slot.references targets).Sound p) : .unset ∉ targets := by
  intro h
  generalize same : Slot.references targets = slot at sound
  cases sound with
  | unset =>
    revert same
    unfold Slot.empty
    split <;> intro same <;> cases same
    cases h
  | references _ _ sound =>
    cases same
    cases sound _ h
  | _ => cases same

theorem Slot.Sound.kind_of_objects {p : Property} {slot : Slot} (sound : slot.Sound p)
    (h : slot.objects ≠ []) : ∃ name, p.kind = .object name := by
  cases sound with
  | unset =>
    revert h
    unfold Slot.empty
    split <;> simp [objects, Reference.objects]
  | scalar | list => exact absurd rfl h
  | reference holds | references holds => exact ⟨_, holds⟩

namespace Object

variable {registry : Registry} {decls : List ClassDecl}

theorem Sound.wellTyped {searched unbounded : Prop} {required : Option NodeClass} {o : Object}
    (built : registry.Built decls) (sound : o.Sound registry searched unbounded required) :
    o.WellTyped registry required := by
  obtain ⟨type, observed, chosen⟩ := sound.typed
  have slotSound : ∀ p slot, (p, slot) ∈ o.properties → p ∈ o.cls.layout ∧ slot.Sound p := by
    intro p slot h
    obtain ⟨place, hi⟩ := List.mem_iff_getElem?.mp h
    obtain ⟨hp, hs⟩ := getElem?_properties.mp hi
    exact ⟨List.mem_of_getElem? hp, sound.filled.slots place p slot hp hs⟩
  refine ⟨fun c required => ?_, fun abstract => ?_, fun text h => (sound.filled.id text h).2,
    fun p slot h inside => ?_, fun p slot text h => (slotSound p slot h).2.isIdentifier_of_iri,
    fun p slot value h => (slotSound p slot h).2.isIdentifier_of_scalar,
    fun p targets h => (slotSound p _ h).2.unset_not_mem, fun some => ?_⟩
  · cases chosen with
    | named _ fits => exact fits c required
    | wanted _ wanted =>
      cases wanted.symm.trans required
      exact built.isSubclassOf_self sound.registered
    | found _ _ _ _ candidate => exact (Registry.mem_candidates.mp candidate).2.2.2 c required
  · cases chosen with
    | named _ _ concrete => cases abstract.symm.trans concrete
    | wanted unknown _ extensible => exact ⟨extensible, type, observed, unknown⟩
    | found _ unknown _ _ candidate =>
      exact ⟨(Registry.mem_candidates.mp candidate).2.1, type, observed, unknown⟩
  · obtain ⟨layout, slotSound⟩ := slotSound p slot h
    obtain ⟨name, kind⟩ := slotSound.kind_of_objects inside
    have target := built.isSome_targetOf sound.registered layout kind
    rw [Registry.targetOf_eq kind] at target
    exact ⟨name, _, kind, (Option.some_get target).symm⟩
  · cases entries : o.extensions with
    | nil => exact absurd entries some
    | cons entry rest =>
      have member : (entry.1, entry.2) ∈ o.extensions := entries ▸ List.mem_cons_self
      exact (NodeClass.Means.of_memberRole (sound.filled.extensions _ _ member).1).2

end Object

/-- Every object that was read is well typed, at the top and wherever else it stands. -/
theorem Decoder.wellTyped_of_decodeObject {contextUrl : String} {decls : List ClassDecl}
    {order : Registry.AliasOrder} {registry : Registry} {maxDepth : Nat} {path : Path}
    {target required : Option NodeClass} {json : Json} {o x : Object}
    (built : Registry.build contextUrl decls order = .ok registry)
    (registered : ∀ t, target = some t → t ∈ registry.classes)
    (read : (Decoder.mk registry maxDepth).decodeObject path target json = .ok o)
    (nested : Object.Nested registry target o required x) : x.WellTyped registry required := by
  have sound := (readsSoundly ⟨registry, maxDepth⟩ True True json (.inl trivial)).object path target
    o registered (.inl trivial) read
  have inner := (sound.nested nested).here
  exact inner.wellTyped (Registry.build_spec built).1

namespace Sample

/-- An abstract class with a label, for things of which a document may say more. -/
def item : ClassDecl where
  iri := "ex:Item"
  compact := some "Item"
  nodeKind := none
  idAlias := none
  isAbstract := true
  extensible := some true
  parents := []
  properties := [⟨"label", "ex:label", some "label", .scalar .string, false, none, none, [], []⟩]

/-- A box is identified by its code and holds items, of which one has a short name. -/
def box : ClassDecl where
  iri := "ex:Box"
  compact := some "Box"
  nodeKind := none
  idAlias := some "code"
  isAbstract := false
  extensible := none
  parents := ["Item"]
  properties := [⟨"holds", "ex:holds", some "holds", .object "ex:Item", true, none, none,
    [⟨"ex:first", "first"⟩], []⟩]

def registry : Registry := (Registry.build "" [item, box]).toOption.getD ⟨"", [], []⟩

theorem build_eq : Registry.build "" [item, box] = .ok registry := rfl

/-- A box with a name for an item, a tool that no class is registered for, and one more box. -/
def document : Json := .object
  [("@type", .string "Box"), ("code", .string "ex:1"),
    ("holds", .list [.string "first",
      .object [("@type", .string "ex:Tool"), ("size", .integer 5)]]),
    ("inside", .object [("@type", .string "ex:Box"), ("notes", .list [])])]

end Sample

theorem Sample.tool_wellTyped :
    ∃ o required x, (Decoder.mk Sample.registry 9).decodeObject .root none Sample.document = .ok o ∧
      Object.Nested Sample.registry none o required x ∧ required = Sample.registry.get? "ex:Item" ∧
        x.WellTyped Sample.registry required := by
  have unasked : ∀ t, none = some t → t ∈ Sample.registry.classes := nofun
  obtain ⟨o, required, x, read, nested, asks⟩ : ∃ o required x,
      (Decoder.mk Sample.registry 9).decodeObject .root none Sample.document = .ok o ∧
        Object.Nested Sample.registry none o required x ∧
          required = Sample.registry.get? "ex:Item" :=
    ⟨_, _, _, rfl, .inside .here (.inSlot (.tail _ (.head _)) (.head _)), rfl⟩
  exact ⟨o, required, x, read, nested, asks,
    Decoder.wellTyped_of_decodeObject Sample.build_eq unasked read nested⟩

end ShapedGraph
