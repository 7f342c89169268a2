import ShapedGraph.Graph.Document
import ShapedGraph.Proofs.Json
import ShapedGraph.Proofs.Reach
import ShapedGraph.Proofs.Reading
import ShapedGraph.Proofs.Recasting
import ShapedGraph.Proofs.Unconstrained

/-! Constraints in reading and writing. Neither looks at them: without its constraints a model reads
the same documents, fails at the same faults and writes the same, so two models that differ in their
constraints only do so too. -/

namespace ShapedGraph

namespace NodeClass

theorem memberRole_unconstrained (c : NodeClass) (key : String) :
    c.unconstrained.memberRole key = c.memberRole key := by
  rw [memberRole, memberRole, propertyRole, propertyRole, keyPlace, keyPlace,
    lastPlace_unconstrained]
  rfl

end NodeClass

/-- Objects without the constraints of their classes. -/
def Recasting.unconstrained : Recasting := ⟨NodeClass.unconstrained, id⟩

def Object.unconstrained (o : Object) : Object := o.recast .unconstrained

def Slot.unconstrained (slot : Slot) : Slot := slot.recast .unconstrained

def Reference.unconstrained (target : Reference) : Reference := target.recast .unconstrained

def Extension.unconstrained (value : Extension) : Extension := value.recast .unconstrained

def Part.unconstrained (part : Part) : Part := part.recast .unconstrained

theorem Object.ofType_unconstrained (c : NodeClass) (type : String) :
    (ofType c type).unconstrained = ofType c.unconstrained type := by
  have slots : recastSlots .unconstrained (c.layout.map Slot.empty) =
      (c.layout.map Property.unconstrained).map Slot.empty := by
    rw [recastSlots_eq, List.map_map, List.map_map]
    exact List.map_congr_left fun p _ => Slot.recast_empty _ p
  exact congrArg (Object.mk _ _ _ · _) slots

theorem Object.Shaped.unconstrained {o : Object} (shaped : o.Shaped) : o.unconstrained.Shaped := by
  have cleared (slot : Slot) : (slot.recast .unconstrained).cleared = slot.cleared := by
    cases slot <;> rfl
  show (o.recast .unconstrained).slots.map Slot.cleared =
    (o.recast .unconstrained).cls.layout.map Slot.empty
  rw [Object.recast_slots, Object.recast_cls, List.map_map]
  show _ = (o.cls.layout.map Property.unconstrained).map Slot.empty
  rw [List.map_map]
  exact (List.map_congr_left fun slot _ => cleared slot).trans shaped

namespace Registry

theorem candidates_unconstrained (registry : Registry) (target : Option NodeClass) :
    registry.unconstrained.candidates (target.map NodeClass.unconstrained) =
      (registry.candidates target).map NodeClass.unconstrained := by
  have insert (c : NodeClass) (cs : List NodeClass) :
      insertByIri c.unconstrained (cs.map NodeClass.unconstrained) =
        (insertByIri c cs).map NodeClass.unconstrained := by
    induction cs with
    | nil => rfl
    | cons d cs ih =>
      rw [List.map_cons, insertByIri, insertByIri, ih, apply_ite (List.map NodeClass.unconstrained)]
      rfl
  have sort (cs : List NodeClass) :
      (cs.map NodeClass.unconstrained).foldr insertByIri [] =
        (cs.foldr insertByIri []).map NodeClass.unconstrained := by
    induction cs with
    | nil => rfl
    | cons c cs ih => rw [List.map_cons, List.foldr_cons, List.foldr_cons, ih, insert]
  rw [candidates, candidates, ← sort]
  refine congrArg (List.foldr insertByIri []) ?_
  rw [unconstrained, List.filter_map]
  refine congrArg (List.map _) (List.filter_congr fun c _ => ?_)
  cases target <;> rfl

end Registry

theorem decodeItems_map {α β : Type} {decode : Path → Json → Decoded α}
    {decode' : Path → Json → Decoded β} {f : α → β} {items : List Json}
    (each : ∀ item ∈ items, ∀ path, decode' path item = f <$> decode path item) (path : Path)
    (position : Nat) :
    decodeItems decode' path position items =
      List.map f <$> decodeItems decode path position items := by
  induction items generalizing position with
  | nil => rfl
  | cons item items ih =>
    obtain ⟨first, others⟩ := List.forall_mem_cons.mp each
    rw [decodeItems, decodeItems, first, ih others]
    cases decode (path.item position) item with
    | error e => rfl
    | ok value => cases decodeItems decode path (position + 1) items <;> rfl

namespace Decoder

variable (d : Decoder)

def unconstrained (d : Decoder) : Decoder := ⟨d.registry.unconstrained, d.maxDepth⟩

def Choice.unconstrained : Choice → Choice
  | .only cls => .only cls.unconstrained
  | .firstOf candidates => .firstOf (candidates.map NodeClass.unconstrained)

theorem choose_unconstrained (path : Path) (type : String) (target : Option NodeClass) :
    d.unconstrained.choose path type (target.map NodeClass.unconstrained) =
      Choice.unconstrained <$> d.choose path type target := by
  have registered : d.unconstrained.registry.get? type =
      (d.registry.get? type).map NodeClass.unconstrained := d.registry.get?_unconstrained type
  unfold choose
  rw [registered]
  cases d.registry.get? type with
  | some cls =>
    have misfits : (target.map NodeClass.unconstrained).filter
        (fun t => !cls.unconstrained.isSubclassOf t.iri) =
          (target.filter fun t => !cls.isSubclassOf t.iri).map NodeClass.unconstrained := by
      rw [Option.filter_map]
      rfl
    simp only [Option.map_some, misfits]
    cases target.filter fun t => !cls.isSubclassOf t.iri with
    | some t => rfl
    | none =>
      show (if cls.isAbstract = true then failAt path (.abstractType type)
        else .ok (Choice.only cls.unconstrained)) = _
      cases cls.isAbstract <;> rfl
  | none =>
    have candidates : d.unconstrained.registry.candidates (target.map NodeClass.unconstrained) =
        (d.registry.candidates target).map NodeClass.unconstrained :=
      d.registry.candidates_unconstrained target
    cases target with
    | none =>
      replace candidates : d.unconstrained.registry.candidates none = _ := candidates
      simp only [Option.map_none, candidates]
      cases isIri type <;> rfl
    | some t =>
      replace candidates : d.unconstrained.registry.candidates (some t.unconstrained) = _ :=
        candidates
      simp only [Option.map_none, Option.map_some, candidates]
      show (if t.isExtensible = true then _ else _) = _
      cases t.isExtensible <;> cases isIri type <;> rfl

/-- Whatever can be read from a value is read with and without constraints, alike but for these. -/
structure ReadsUnconstrained (json : Json) : Prop where
  object : ∀ path target,
    d.unconstrained.decodeObject path (target.map NodeClass.unconstrained) json =
      Object.unconstrained <$> d.decodeObject path target json
  references : ∀ context target path,
    d.unconstrained.decodeReferenceList context (target.map NodeClass.unconstrained) path json =
      List.map Reference.unconstrained <$> d.decodeReferenceList context target path json
  extensions : ∀ path,
    d.unconstrained.decodeExtensionList path json =
      List.map Extension.unconstrained <$> d.decodeExtensionList path json

variable {d} {json : Json} {path : Path}

theorem referenceOf_unconstrained {context : Context} {object object' : Decoded Object}
    (same : object' = Object.unconstrained <$> object) :
    (referenceOf context path json fun _ => object') =
      Reference.unconstrained <$> referenceOf context path json fun _ => object := by
  cases json with
  | string text =>
    show Reference.iri <$> _ = Reference.unconstrained <$> Reference.iri <$> _
    cases Scalar.decodeIri context path (.string text) <;> rfl
  | _ =>
    show Reference.object none <$> object' =
      Reference.unconstrained <$> Reference.object none <$> object
    rw [same]
    cases object <;> rfl

theorem decodeReferences_unconstrained {items : List Json}
    (each : ∀ item ∈ items, d.ReadsUnconstrained item) (context : Context)
    (target : Option NodeClass) (path : Path) (position : Nat) :
    d.unconstrained.decodeReferences context (target.map NodeClass.unconstrained) path position
      items = List.map Reference.unconstrained <$>
        d.decodeReferences context target path position items := by
  rw [decodeReferences_eq, decodeReferences_eq]
  refine decodeItems_map (fun item among here => ?_) path position
  exact referenceOf_unconstrained ((each item among).object here target)

theorem decodeExtension_unconstrained (reads : d.ReadsUnconstrained json) (path : Path) :
    d.unconstrained.decodeExtension path json =
      Extension.unconstrained <$> d.decodeExtension path json := by
  have object : d.unconstrained.decodeObject path none json =
      Object.unconstrained <$> d.decodeObject path none json := reads.object path none
  unfold decodeExtension extensionOf
  cases json with
  | object members =>
    simp only [object]
    cases d.decodeObject path none (.object members) <;> rfl
  | list items =>
    simp only [reads.extensions]
    cases d.decodeExtensionList path (.list items) with
    | error e => rfl
    | ok values => exact congrArg (fun l => Except.ok (Extension.list l)) (recastValues_eq _ _).symm
  | integer n =>
    simp only
    cases Scalar.toInt64? n <;> rfl
  | null | string | float | bool => rfl

theorem decodeExtensions_unconstrained {items : List Json}
    (each : ∀ item ∈ items, d.ReadsUnconstrained item) (path : Path) (position : Nat) :
    d.unconstrained.decodeExtensions path position items =
      List.map Extension.unconstrained <$> d.decodeExtensions path position items := by
  rw [decodeExtensions_eq, decodeExtensions_eq]
  exact decodeItems_map (fun item among => decodeExtension_unconstrained (each item among)) path
    position

theorem readExtensions_unconstrained (reads : d.ReadsUnconstrained json) (path : Path) :
    d.unconstrained.readExtensions path json =
      List.map Extension.unconstrained <$> d.readExtensions path json := by
  have single := decodeExtension_unconstrained reads path
  cases json with
  | list items => exact reads.extensions path
  | _ =>
    show (fun value => [value]) <$> d.unconstrained.decodeExtension path _ =
      List.map Extension.unconstrained <$> (fun value => [value]) <$> d.decodeExtension path _
    rw [single]
    cases d.decodeExtension path _ <;> rfl

theorem readSlot_unconstrained (reads : d.ReadsUnconstrained json) (p : Property) (path : Path) :
    d.unconstrained.readSlot p.unconstrained path json =
      Slot.unconstrained <$> d.readSlot p path json := by
  obtain ⟨⟨name, iri, compact, kind, isList, minCount, maxCount, abbreviations, constraints⟩,
    owner, position, chain⟩ := p
  cases kind with
  | scalar kind =>
    cases isList with
    | false =>
      show (Slot.scalar <| some ·) <$> kind.decode (.ofList abbreviations) path json =
        Slot.unconstrained <$> (Slot.scalar <| some ·) <$>
          kind.decode (.ofList abbreviations) path json
      cases kind.decode (.ofList abbreviations) path json <;> rfl
    | true =>
      show Slot.list <$> decodeList (kind.decode (.ofList abbreviations)) path json =
        Slot.unconstrained <$> Slot.list <$>
          decodeList (kind.decode (.ofList abbreviations)) path json
      cases decodeList (kind.decode (.ofList abbreviations)) path json <;> rfl
  | object cls =>
    have asks : d.unconstrained.registry.get? cls =
        (d.registry.get? cls).map NodeClass.unconstrained := d.registry.get?_unconstrained cls
    cases isList with
    | false =>
      show Slot.reference <$> referenceOf (.ofList abbreviations) path json
          (fun _ => d.unconstrained.decodeObject path (d.unconstrained.registry.get? cls) json) =
        Slot.unconstrained <$> Slot.reference <$> referenceOf (.ofList abbreviations) path json
          fun _ => d.decodeObject path (d.registry.get? cls) json
      rw [asks, referenceOf_unconstrained (reads.object path (d.registry.get? cls))]
      cases referenceOf (.ofList abbreviations) path json _ <;> rfl
    | true =>
      show Slot.references <$> d.unconstrained.decodeReferenceList (.ofList abbreviations)
          (d.unconstrained.registry.get? cls) path json =
        Slot.unconstrained <$> Slot.references <$> d.decodeReferenceList (.ofList abbreviations)
          (d.registry.get? cls) path json
      rw [asks, reads.references]
      cases d.decodeReferenceList (.ofList abbreviations) (d.registry.get? cls) path json with
      | error e => rfl
      | ok targets =>
        exact congrArg (fun l => Except.ok (Slot.references l)) (recastReferences_eq _ _).symm

theorem readMember_unconstrained (reads : d.ReadsUnconstrained json) (path : Path) (c : NodeClass)
    (key : String) : d.unconstrained.readMember path c.unconstrained key json =
      Part.unconstrained <$> d.readMember path c key json := by
  rw [readMember, readMember, c.memberRole_unconstrained]
  cases c.memberRole key with
  | type => rfl
  | id =>
    show Part.id <$> _ = Part.unconstrained <$> Part.id <$> _
    cases decodeId (path.member key) json <;> rfl
  | forbiddenId => rfl
  | declared place =>
    have there : c.unconstrained.layout[place]? = (c.layout[place]?).map Property.unconstrained :=
      List.getElem?_map ..
    simp only [there]
    cases c.layout[place]? with
    | none => rfl
    | some p =>
      simp only [Option.map_some, readSlot_unconstrained reads]
      cases d.readSlot p (path.member key) json <;> rfl
  | undeclared =>
    simp only [readExtensions_unconstrained reads]
    cases d.readExtensions (path.member key) json <;> rfl
  | unknown => rfl

theorem decodeMembers_unconstrained {members : List (String × Json)}
    (each : ∀ m ∈ members, d.ReadsUnconstrained m.2) (path : Path) {o : Object}
    (shaped : o.Shaped) : d.unconstrained.decodeMembers path members o.unconstrained =
      Object.unconstrained <$> d.decodeMembers path members o := by
  induction members generalizing o with
  | nil => rfl
  | cons m members ih =>
    obtain ⟨key, value⟩ := m
    obtain ⟨first, others⟩ := List.forall_mem_cons.mp each
    have cls : o.unconstrained.cls = o.cls.unconstrained := Object.recast_cls _ o
    rw [decodeMembers_cons shaped, decodeMembers_cons shaped.unconstrained, cls,
      readMember_unconstrained first]
    cases read : d.readMember path o.cls key value with
    | error e => rfl
    | ok part =>
      have step : o.unconstrained.put part.unconstrained = (o.put part).unconstrained :=
        (Object.recast_put _ o part).symm
      show d.unconstrained.decodeMembers path members (o.unconstrained.put part.unconstrained) = _
      rw [step]
      exact ih others (shaped_put rfl shaped (readMember_eq_ok.mp read))

theorem decodeObject_unconstrained {members : List (String × Json)}
    (each : ∀ m ∈ members, d.ReadsUnconstrained m.2) (path : Path) (target : Option NodeClass) :
    d.unconstrained.decodeObject path (target.map NodeClass.unconstrained) (.object members) =
      Object.unconstrained <$> d.decodeObject path target (.object members) := by
  have limit : d.unconstrained.maxDepth = d.maxDepth := rfl
  have byClass (type : String) (cls : NodeClass) :
      d.unconstrained.decodeMembers path members (.ofType cls.unconstrained type) =
        Object.unconstrained <$> d.decodeMembers path members (.ofType cls type) := by
    rw [← Object.ofType_unconstrained]
    exact decodeMembers_unconstrained each path (Object.shaped_ofType cls type)
  rw [decodeObject, decodeObject, limit]
  split
  · rfl
  cases typeName path members with
  | error e => rfl
  | ok type =>
    show (d.unconstrained.choose path type _ >>= _) = _ <$> (d.choose path type target >>= _)
    rw [choose_unconstrained]
    cases d.choose path type target with
    | error e => rfl
    | ok choice =>
      cases choice with
      | only cls => exact byClass type cls
      | firstOf candidates =>
        have search : (candidates.map NodeClass.unconstrained).findSome? (fun cls =>
            (d.unconstrained.decodeMembers path members (.ofType cls type)).toOption) =
              (candidates.findSome? fun cls =>
                (d.decodeMembers path members (.ofType cls type)).toOption).map
                  Object.unconstrained := by
          rw [List.findSome?_map, List.map_findSome?]
          refine congrArg (List.findSome? · candidates) (funext fun cls => ?_)
          show (d.unconstrained.decodeMembers path members
            (.ofType cls.unconstrained type)).toOption =
              (d.decodeMembers path members (.ofType cls type)).toOption.map Object.unconstrained
          rw [byClass]
          cases d.decodeMembers path members (.ofType cls type) <;> rfl
        simp only [Functor.map, Except.map, bind, Except.bind, Choice.unconstrained, search]
        cases candidates.findSome? _ <;> rfl

theorem readsUnconstrained (d : Decoder) (json : Json) : d.ReadsUnconstrained json := by
  have noObject : ∀ json : Json, (∀ members, json ≠ .object members) → ∀ path target,
      d.unconstrained.decodeObject path (target.map NodeClass.unconstrained) json =
        Object.unconstrained <$> d.decodeObject path target json := by
    intro json notObject path target
    rw [decodeObject_of_not_object _ _ _ notObject, decodeObject_of_not_object _ _ _ notObject]
    rfl
  induction json using Json.induct with
  | null | bool | integer | float | string =>
    exact ⟨noObject _ (by simp), fun _ _ _ => rfl, fun _ => rfl⟩
  | list items each =>
    refine ⟨noObject _ (by simp), fun context target path => ?_, fun path => ?_⟩
    · exact decodeReferences_unconstrained each context target path 0
    · exact decodeExtensions_unconstrained each path 0
  | object members each =>
    exact ⟨decodeObject_unconstrained each, fun _ _ _ => rfl, fun _ => rfl⟩

theorem decodeRoots_unconstrained (d : Decoder) (json : Json) :
    d.unconstrained.decodeRoots json = List.map Object.unconstrained <$> d.decodeRoots json := by
  cases json with
  | object members =>
    have objects (path : Path) (json : Json) : d.unconstrained.decodeObject path none json =
        Object.unconstrained <$> d.decodeObject path none json :=
      (readsUnconstrained d json).object path none
    show (d.checkContext members >>= _) = _ <$> (d.checkContext members >>= _)
    cases d.checkContext members with
    | error e => rfl
    | ok _ =>
      simp only [bind, Except.bind]
      cases Members.get? members "@graph" with
      | none =>
        simp only [objects]
        cases d.decodeObject .root none (.object (Members.erase members "@context")) <;> rfl
      | some graph =>
        simp only
        split
        · rfl
        · cases graph with
          | list items => exact decodeItems_map (fun item _ path => objects path item) _ 0
          | _ => rfl
  | _ => rfl

end Decoder

/-! ### Writing -/

section

variable {target : Reference} {slot : Slot} {value : Extension}

theorem Reference.encode_unconstrained
    (inside : ∀ x ∈ target.objects, ∀ seen, x.unconstrained.encode seen = x.encode seen)
    (context : Context) (seen : Seen) :
    target.unconstrained.encode context seen = target.encode context seen := by
  cases target with
  | unset | iri => rfl
  | object handle o =>
    show (Reference.object handle o.unconstrained).encode context seen = _
    rw [encode, encode, inside o List.mem_cons_self, Object.unconstrained, Object.recast_id]

theorem encodeReferences_unconstrained {targets : List Reference}
    (inside : ∀ x ∈ targets.flatMap Reference.objects, ∀ seen,
      x.unconstrained.encode seen = x.encode seen) (context : Context) (seen : Seen) :
    encodeReferences (recastReferences .unconstrained targets) context seen =
      encodeReferences targets context seen := by
  induction targets generalizing seen with
  | nil => rfl
  | cons target targets ih =>
    have first : (target.recast .unconstrained).encode context seen = target.encode context seen :=
      Reference.encode_unconstrained (fun x hx => inside x (List.mem_append_left _ hx)) context seen
    have others := ih fun x hx => inside x (List.mem_append_right _ hx)
    rw [recastReferences, encodeReferences, encodeReferences, first]
    simp only [others]

theorem Slot.encode_unconstrained
    (inside : ∀ x ∈ slot.objects, ∀ seen, x.unconstrained.encode seen = x.encode seen)
    (p : Property) (seen : Seen) :
    slot.unconstrained.encode p.unconstrained seen = slot.encode p seen := by
  cases slot with
  | scalar value => cases value <;> rfl
  | list values => rfl
  | reference target => exact Reference.encode_unconstrained inside p.context seen
  | references targets =>
    show (Slot.references (recastReferences _ targets)).encode p.unconstrained seen = _
    rw [encode, encode]
    exact congrArg (fun written : List Json × Seen => (Json.list written.1, written.2))
      (encodeReferences_unconstrained inside p.context seen)

theorem encodeSlots_unconstrained {slots : List Slot}
    (inside : ∀ x ∈ slots.flatMap Slot.objects, ∀ seen,
      x.unconstrained.encode seen = x.encode seen) (layout : List Property)
    (members : Members Json) (seen : Seen) :
    encodeSlots (layout.map Property.unconstrained) (recastSlots .unconstrained slots) members
      seen = encodeSlots layout slots members seen := by
  induction slots generalizing layout members seen with
  | nil => rfl
  | cons slot slots ih =>
    cases layout with
    | nil => rfl
    | cons p layout =>
      have first : (slot.recast .unconstrained).encode p.unconstrained seen = slot.encode p seen :=
        Slot.encode_unconstrained (fun x hx => inside x (List.mem_append_left _ hx)) p seen
      have others := ih fun x hx => inside x (List.mem_append_right _ hx)
      have key : p.unconstrained.key = p.key := rfl
      rw [recastSlots, List.map_cons, encodeSlots, encodeSlots, Slot.isSet_recast, first]
      simp only [others, key]

theorem encodeExtensionValues_unconstrained {values : List Extension}
    (each : ∀ value ∈ values, ∀ seen, value.unconstrained.encode seen = value.encode seen)
    (seen : Seen) : encodeExtensionValues (recastValues .unconstrained values) seen =
      encodeExtensionValues values seen := by
  induction values generalizing seen with
  | nil => rfl
  | cons value values ih =>
    obtain ⟨first, others⟩ := List.forall_mem_cons.mp each
    rw [Extension.unconstrained] at first
    rw [recastValues, encodeExtensionValues, encodeExtensionValues, first]
    simp only [ih others]

theorem Extension.encode_unconstrained
    (inside : ∀ x ∈ value.objects, ∀ seen, x.unconstrained.encode seen = x.encode seen)
    (seen : Seen) : value.unconstrained.encode seen = value.encode seen := by
  induction value using Extension.induct generalizing seen with
  | reference target => exact Reference.encode_unconstrained inside .empty seen
  | string | integer | float | boolean => rfl
  | list values each =>
    have encodes : ∀ value ∈ values, ∀ seen,
        value.unconstrained.encode seen = value.encode seen := fun value among =>
      each value among fun x hx => inside x (mem_extensionObjects.mpr ⟨value, among, hx⟩)
    show (Extension.list (recastValues .unconstrained values)).encode seen = _
    rw [encode, encode, encodeExtensionValues_unconstrained encodes]

theorem encodeExtensions_unconstrained {extensions : List (String × List Extension)}
    (inside : ∀ x ∈ extensions.flatMap (fun entry => extensionObjects entry.2), ∀ seen,
      x.unconstrained.encode seen = x.encode seen) (members : Members Json) (seen : Seen) :
    encodeExtensions (recastExtensions .unconstrained extensions) members seen =
      encodeExtensions extensions members seen := by
  induction extensions generalizing members seen with
  | nil => rfl
  | cons entry extensions ih =>
    obtain ⟨key, values⟩ := entry
    have encodes : ∀ value ∈ values, ∀ seen,
        value.unconstrained.encode seen = value.encode seen := fun value among =>
      Extension.encode_unconstrained fun x hx =>
        inside x (List.mem_append_left _ (mem_extensionObjects.mpr ⟨value, among, hx⟩))
    have others := ih fun x hx => inside x (List.mem_append_right _ hx)
    have empty : (recastValues .unconstrained values).isEmpty = values.isEmpty := by
      cases values <;> rfl
    rw [recastExtensions, encodeExtensions, encodeExtensions, empty,
      encodeExtensionValues_unconstrained encodes]
    simp only [others]

/-- An object is written the same without the constraints of its class. -/
theorem Object.encode_unconstrained (o : Object) (seen : Seen) :
    o.unconstrained.encode seen = o.encode seen := by
  induction o using Object.induct generalizing seen with
  | step o inside =>
    obtain ⟨cls, id, observedType, slots, extensions⟩ := o
    have declared (members : Members Json) :
        encodeSlots (cls.layout.map Property.unconstrained) (recastSlots .unconstrained slots)
          members seen = encodeSlots cls.layout slots members seen :=
      encodeSlots_unconstrained (fun x hx => inside x (List.mem_append_left _ hx)) ..
    have undeclared (members : Members Json) (seen : Seen) :
        encodeExtensions (recastExtensions .unconstrained extensions) members seen =
          encodeExtensions extensions members seen :=
      encodeExtensions_unconstrained (fun x hx => inside x (List.mem_append_right _ hx)) ..
    show (Object.mk cls.unconstrained id observedType (recastSlots _ slots)
      (recastExtensions _ extensions)).encode seen = _
    have typeName : cls.unconstrained.typeName = cls.typeName := rfl
    have idKey : cls.unconstrained.idKey = cls.idKey := rfl
    have layout : cls.unconstrained.layout = cls.layout.map Property.unconstrained := rfl
    unfold encode
    simp only [typeName, idKey, layout, declared, undeclared]

end

namespace Graph

/-- A graph without the constraints of its model. -/
def unconstrained (graph : Graph) : Graph :=
  ⟨graph.registry.unconstrained,
    graph.roots.map fun root => ⟨root.handle, root.object.unconstrained⟩⟩

theorem decode_unconstrained (graph : Graph) (maxDepth : Nat) (json : Json) :
    graph.unconstrained.decode maxDepth json = unconstrained <$> graph.decode maxDepth json := by
  have read := Decoder.decodeRoots_unconstrained ⟨graph.registry, maxDepth⟩ json
  show graph.unconstrained.addAll <$>
    (Decoder.mk graph.registry maxDepth).unconstrained.decodeRoots json = _
  rw [read, decode]
  cases (Decoder.mk graph.registry maxDepth).decodeRoots json with
  | error e => rfl
  | ok objects =>
    refine congrArg (fun roots => Except.ok (Graph.mk _ roots)) ?_
    simp [addAll, unconstrained]

theorem toJson_unconstrained (graph : Graph) : graph.unconstrained.toJson = graph.toJson := by
  have handles : graph.unconstrained.roots.filterMap (·.handle) =
      graph.roots.filterMap (·.handle) := by
    rw [unconstrained, List.filterMap_map]
    rfl
  have written (roots : List Root) (seen : Seen) :
      encodeRoots (roots.map fun root => ⟨root.handle, root.object.unconstrained⟩) seen =
        encodeRoots roots seen := by
    induction roots generalizing seen with
    | nil => rfl
    | cons root roots ih =>
      rw [List.map_cons, encodeRoots, encodeRoots, Object.encode_unconstrained]
      simp only [ih]
  have roots (seen : Seen) : encodeRoots graph.unconstrained.roots seen =
      encodeRoots graph.roots seen := written graph.roots seen
  unfold toJson
  rw [handles]
  simp only [roots]
  rfl

/-- Models whose declarations differ in constraints and in numbers of values only read every
document alike: they fail at the same fault, or they give graphs that differ in these only and are
written alike. -/
theorem decode_eq_of_unconstrained_eq {contextUrl : String} {decls decls' : List ClassDecl}
    {order : Registry.AliasOrder} {registry registry' : Registry}
    (built : Registry.build contextUrl decls order = .ok registry)
    (built' : Registry.build contextUrl decls' order = .ok registry')
    (same : decls.map ClassDecl.unconstrained = decls'.map ClassDecl.unconstrained)
    (maxDepth : Nat) (json : Json) :
    unconstrained <$> (empty registry).decode maxDepth json =
        unconstrained <$> (empty registry').decode maxDepth json ∧
      ∀ graph graph', (empty registry).decode maxDepth json = .ok graph →
        (empty registry').decode maxDepth json = .ok graph' → graph.toJson = graph'.toJson := by
  have erased := Registry.build_unconstrained built
  rw [same, Registry.build_unconstrained built'] at erased
  have read : unconstrained <$> (empty registry).decode maxDepth json =
      unconstrained <$> (empty registry').decode maxDepth json := by
    rw [← decode_unconstrained, ← decode_unconstrained]
    show (empty registry.unconstrained).decode maxDepth json =
      (empty registry'.unconstrained).decode maxDepth json
    rw [Except.ok.inj erased]
  refine ⟨read, fun graph graph' h h' => ?_⟩
  rw [h, h'] at read
  rw [← toJson_unconstrained graph, ← toJson_unconstrained graph']
  exact congrArg toJson (Except.ok.inj read)

end Graph

namespace Sample

/-- A coupon is worth some number, which may be asked for and held to bounds. -/
def coupon (minCount : Option Nat) (constraints : List Constraint) : ClassDecl where
  iri := "ex:Coupon"
  compact := some "Coupon"
  nodeKind := none
  idAlias := none
  isAbstract := false
  extensible := some true
  parents := []
  properties := [⟨"worth", "ex:worth", some "worth", .scalar .integer, false, minCount, none, [],
    constraints⟩]

def couponRegistry (minCount : Option Nat) (constraints : List Constraint) : Registry :=
  (Registry.build "" [coupon minCount constraints]).toOption.getD ⟨"", [], []⟩

/-- A coupon with another inside, for which a class is searched. -/
def couponDocument : Json := .object [("@context", .string ""), ("@type", .string "ex:Voucher"),
  ("inside", .object [("@type", .string "Coupon")]), ("worth", .integer 12)]

end Sample

/-- A value beyond its bound and a value that is missing make no difference to reading. -/
theorem Sample.coupon_readAlike : ∃ graph graph',
    (Graph.empty (Sample.couponRegistry none [])).decode 2 Sample.couponDocument = .ok graph ∧
      (Graph.empty (Sample.couponRegistry (some 1) [.minimum 1, .maximum 9])).decode 2
          Sample.couponDocument = .ok graph' ∧
        graph.registry ≠ graph'.registry ∧ graph.unconstrained = graph'.unconstrained ∧
          graph.toJson = graph'.toJson := by
  obtain ⟨graph, graph', read, read', differ⟩ : ∃ graph graph',
      (Graph.empty (Sample.couponRegistry none [])).decode 2 Sample.couponDocument = .ok graph ∧
        (Graph.empty (Sample.couponRegistry (some 1) [.minimum 1, .maximum 9])).decode 2
            Sample.couponDocument = .ok graph' ∧ graph.registry ≠ graph'.registry :=
    ⟨_, _, rfl, rfl, by decide⟩
  have built : Registry.build "" [Sample.coupon none []] =
      .ok (Sample.couponRegistry none []) := rfl
  have built' : Registry.build "" [Sample.coupon (some 1) [.minimum 1, .maximum 9]] =
      .ok (Sample.couponRegistry (some 1) [.minimum 1, .maximum 9]) := rfl
  obtain ⟨alike, written⟩ :=
    Graph.decode_eq_of_unconstrained_eq built built' rfl 2 Sample.couponDocument
  rw [read, read'] at alike
  exact ⟨graph, graph', read, read', differ, Except.ok.inj alike, written graph graph' read read'⟩

end ShapedGraph
