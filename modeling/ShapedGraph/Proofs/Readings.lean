import Mathlib.Data.List.Perm.Subperm
import ShapedGraph.Proofs.Json
import ShapedGraph.Proofs.Keys
import ShapedGraph.Proofs.Members
import ShapedGraph.Proofs.Reach
import ShapedGraph.Proofs.Reading

/-! What each JSON object in a value is read to. Every object inside the object that a value is read
to comes from one of these readings; a reading is lost only where a later member is read into the
place of an earlier one. -/

namespace ShapedGraph

namespace Json

/-- The members of every object are in key order. -/
inductive Ordered : Json → Prop where
  | null : Ordered .null
  | bool (b : Bool) : Ordered (.bool b)
  | integer (n : Int) : Ordered (.integer n)
  | float (x : Binary64) : Ordered (.float x)
  | string (s : String) : Ordered (.string s)
  | list {items : List Json} (each : ∀ item ∈ items, Ordered item) : Ordered (.list items)
  | object {members : List (String × Json)} (sorted : Members.Sorted members)
    (each : ∀ m ∈ members, Ordered m.2) : Ordered (.object members)

theorem Ordered.erase {members : List (String × Json)} (ordered : (Json.object members).Ordered)
    (key : String) : (Json.object (Members.erase members key)).Ordered := by
  cases ordered with
  | object sorted each =>
    refine .object (sorted.filter _) fun m hm => each m (List.mem_filter.mp hm).1

mutual

/-- The objects in a value, at every depth. -/
def objects : Json → List Json
  | .object members => .object members :: memberObjects members
  | .list items => itemObjects items
  | _ => []
termination_by structural json => json

def memberObjects : List (String × Json) → List Json
  | [] => []
  | (_, value) :: members => value.objects ++ memberObjects members
termination_by structural members => members

def itemObjects : List Json → List Json
  | [] => []
  | item :: items => item.objects ++ itemObjects items
termination_by structural items => items

end

end Json

/-- A JSON object and what it was read to. -/
structure Reading where
  json : Json
  object : Object

namespace Decoder

mutual

/-- What the objects in a value are read to, each at its own path and for its own place. -/
def readings (d : Decoder) (path : Path) (target : Option NodeClass) (json : Json) : List Reading :=
  match json with
  | .object members =>
    match d.decodeObject path target (.object members) with
    | .ok o => ⟨.object members, o⟩ :: d.memberReadings path o.cls members
    | .error _ => []
  | .list items => d.itemReadings path target 0 items
  | _ => []
termination_by structural json

def memberReadings (d : Decoder) (path : Path) (cls : NodeClass) (members : List (String × Json)) :
    List Reading :=
  match members with
  | [] => []
  | (key, value) :: members =>
    d.readings (path.member key) (d.registry.memberTarget cls key) value ++
      d.memberReadings path cls members
termination_by structural members

def itemReadings (d : Decoder) (path : Path) (target : Option NodeClass) (position : Nat)
    (items : List Json) : List Reading :=
  match items with
  | [] => []
  | item :: items =>
    d.readings (path.item position) target item ++ d.itemReadings path target (position + 1) items
termination_by structural items

end

end Decoder

/-- The readings of some values: they are of the objects in these values, and the objects that are
held in the end are among what they give, with all that is inside them. -/
structure Accounted (readings : List Reading) (found : List Json) (held : List Object) : Prop where
  found : readings.map (·.json) = found
  kept : (held.flatMap (Object.within true)).Subperm (readings.map (·.object))

namespace Accounted

theorem nil : Accounted [] [] [] := ⟨rfl, .refl _⟩

theorem append {readings readings' : List Reading} {found found' : List Json}
    {held held' : List Object} (h : Accounted readings found held)
    (h' : Accounted readings' found' held') :
    Accounted (readings ++ readings') (found ++ found') (held ++ held') := by
  refine ⟨?_, ?_⟩
  · rw [List.map_append, h.found, h'.found]
  · rw [List.map_append, List.flatMap_append]
    exact h.kept.append h'.kept

end Accounted

/-- The objects that a part holds directly. -/
def Part.objects : Part → List Object
  | .slot _ content => content.objects
  | .extension _ values => extensionObjects values
  | _ => []

theorem set_subperm {α β : Type} (f : α → List β) (l : List α) (i : Nat) (a : α) :
    ((l.set i a).flatMap f).Subperm (l.flatMap f ++ f a) := by
  induction l generalizing i with
  | nil => exact List.nil_subperm
  | cons b l ih =>
    cases i with
    | zero =>
      refine List.perm_append_comm.subperm.trans (List.Subperm.append ?_ (.refl _))
      exact (List.sublist_append_right _ _).subperm
    | succ i =>
      rw [List.set_cons_succ, List.flatMap_cons, List.flatMap_cons, List.append_assoc]
      exact List.Subperm.append (.refl _) (ih i)

theorem insert_subperm {α β : Type} (f : String × α → List β) (table : Members α) (key : String)
    (value : α) :
    ((Members.insert table key value).flatMap f).Subperm (table.flatMap f ++ f (key, value)) := by
  induction table with
  | nil => exact (List.append_nil (f (key, value))) ▸ .refl _
  | cons head rest ih =>
    obtain ⟨k, v⟩ := head
    rw [Members.insert]
    split
    · refine List.perm_append_comm.subperm.trans (List.Subperm.append ?_ (.refl _))
      exact (List.sublist_append_right _ _).subperm
    · split
      · exact List.perm_append_comm.subperm
      · rw [List.flatMap_cons, List.flatMap_cons, List.append_assoc]
        exact List.Subperm.append (.refl _) ih

namespace Object

theorem held_ofType (cls : NodeClass) (type : String) : (ofType cls type).held true = [] := by
  refine List.append_eq_nil_iff.mpr ⟨List.flatMap_eq_nil_iff.mpr fun slot hs => ?_, rfl⟩
  obtain ⟨p, -, rfl⟩ := List.mem_map.mp (show slot ∈ cls.layout.map Slot.empty from hs)
  unfold Slot.empty
  split <;> rfl

/-- One step: what an object holds with a part put in, it held before or the part holds. -/
theorem held_put (o : Object) (part : Part) :
    ((o.put part).held true).Subperm (o.held true ++ part.objects) := by
  cases part with
  | nothing | id => exact (List.sublist_append_left _ _).subperm
  | slot place slot =>
    show (((o.slots.set place slot).flatMap Slot.objects) ++ o.undeclaredObjects).Subperm _
    refine (List.Subperm.append (set_subperm _ _ _ _) (.refl _)).trans ?_
    rw [List.append_assoc]
    refine (List.Subperm.append (.refl _) List.perm_append_comm.subperm).trans ?_
    rw [← List.append_assoc]
    exact .refl _
  | extension key values =>
    show (o.declaredObjects ++ (Members.insert o.extensions key values).flatMap _).Subperm
      (o.declaredObjects ++ o.undeclaredObjects ++ _)
    rw [List.append_assoc]
    refine List.Subperm.append (.refl _) ?_
    exact insert_subperm (fun extension => extensionObjects extension.2) o.extensions key values

/-- A run: what an object holds with parts put in, it held before or one of them holds. -/
theorem held_foldl_put (parts : List Part) (o : Object) :
    ((parts.foldl put o).held true).Subperm (o.held true ++ parts.flatMap Part.objects) := by
  induction parts generalizing o with
  | nil => exact (List.append_nil (o.held true)).symm ▸ .refl _
  | cons part parts ih =>
    refine (ih (o.put part)).trans ?_
    rw [List.flatMap_cons, ← List.append_assoc]
    exact List.Subperm.append (o.held_put part) (.refl _)

end Object

namespace Decoder

variable {d : Decoder}

/-- What is read from a value is accounted for by its readings, whatever is read from it. -/
structure Accounts (d : Decoder) (json : Json) : Prop where
  object : ∀ path target o, d.decodeObject path target json = .ok o →
    Accounted (d.readings path target json) json.objects [o]
  references : ∀ context path target targets,
    d.decodeReferenceList context target path json = .ok targets →
      Accounted (d.readings path target json) json.objects (targets.flatMap Reference.objects)
  value : ∀ path value, d.decodeExtension path json = .ok value →
    Accounted (d.readings path none json) json.objects value.objects
  values : ∀ path values, d.decodeExtensionList path json = .ok values →
    Accounted (d.readings path none json) json.objects (extensionObjects values)

variable {context : Context} {path : Path} {target : Option NodeClass} {json : Json}

theorem accounted_reference {reference : Reference} (accounts : d.Accounts json)
    (h : referenceOf context path json (fun _ => d.decodeObject path target json) = .ok reference) :
    Accounted (d.readings path target json) json.objects reference.objects := by
  unfold referenceOf at h
  split at h
  · obtain ⟨iri, -, rfl⟩ := Outcome.map_eq_ok.mp h
    exact .nil
  · obtain ⟨o, read, rfl⟩ := Outcome.map_eq_ok.mp h
    exact accounts.object path target o read

theorem accounted_references {items : List Json} (each : ∀ item ∈ items, d.Accounts item)
    {position : Nat} {targets : List Reference}
    (h : d.decodeReferences context target path position items = .ok targets) :
    Accounted (d.itemReadings path target position items) (Json.itemObjects items)
      (targets.flatMap Reference.objects) := by
  induction items generalizing position targets with
  | nil =>
    cases h
    exact .nil
  | cons item items ih =>
    obtain ⟨here, later⟩ := List.forall_mem_cons.mp each
    rw [decodeReferences] at h
    obtain ⟨reference, read, h⟩ := Outcome.bind_eq_ok.mp h
    obtain ⟨rest, reads, h⟩ := Outcome.bind_eq_ok.mp h
    cases h
    exact (accounted_reference here read).append (ih later reads)

theorem accounted_values {items : List Json} (each : ∀ item ∈ items, d.Accounts item)
    {position : Nat} {values : List Extension}
    (h : d.decodeExtensions path position items = .ok values) :
    Accounted (d.itemReadings path none position items) (Json.itemObjects items)
      (extensionObjects values) := by
  induction items generalizing position values with
  | nil =>
    cases h
    exact .nil
  | cons item items ih =>
    obtain ⟨here, later⟩ := List.forall_mem_cons.mp each
    rw [decodeExtensions] at h
    obtain ⟨value, read, h⟩ := Outcome.bind_eq_ok.mp h
    obtain ⟨rest, reads, h⟩ := Outcome.bind_eq_ok.mp h
    cases h
    exact (here.value _ value read).append (ih later reads)

/-- A value that a scalar can be read from is neither a list nor an object. -/
theorem accounted_scalar {kind : ScalarKind} {value : Scalar}
    (h : kind.decode context path json = .ok value) (path' : Path) :
    Accounted (d.readings path' target json) json.objects [] := by
  cases json with
  | null | bool | integer | float | string => exact .nil
  | list | object => cases kind <;> cases h

theorem accounted_scalars {kind : ScalarKind} {items : List Json} {position : Nat}
    {values : List Scalar}
    (h : decodeItems (kind.decode context) path position items = .ok values) :
    Accounted (d.itemReadings path target position items) (Json.itemObjects items) [] := by
  induction items generalizing position values with
  | nil => exact .nil
  | cons item items ih =>
    rw [decodeItems] at h
    obtain ⟨value, read, h⟩ := Outcome.bind_eq_ok.mp h
    obtain ⟨rest, reads, h⟩ := Outcome.bind_eq_ok.mp h
    exact (accounted_scalar read _).append (ih reads)

theorem accounted_slot {p : Property} {slot : Slot} (accounts : d.Accounts json)
    (h : d.ReadsSlot p path json slot) :
    Accounted (d.readings path (d.registry.targetOf p) json) json.objects slot.objects := by
  cases h with
  | scalar _ _ read => exact accounted_scalar read path
  | list _ _ read =>
    unfold decodeList at read
    split at read
    · exact accounted_scalars read
    · cases read
  | reference _ _ read => exact accounted_reference accounts read
  | references _ _ read => exact accounts.references _ path _ _ read

theorem accounted_extensions {values : List Extension} (accounts : d.Accounts json)
    (h : d.readExtensions path json = .ok values) :
    Accounted (d.readings path none json) json.objects (extensionObjects values) := by
  unfold readExtensions extensionsOf at h
  split at h
  · exact accounts.values path values h
  · obtain ⟨value, read, rfl⟩ := Outcome.map_eq_ok.mp h
    rw [extensionObjects, extensionObjects, List.append_nil]
    exact accounts.value path value read

theorem accounted_member {cls : NodeClass} {key : String} {part : Part}
    (accounts : d.Accounts json) (typed : key = "@type" → ∃ type, json = .string type)
    (h : d.ReadsMember path cls key json part) :
    Accounted (d.readings (path.member key) (d.registry.memberTarget cls key) json) json.objects
      part.objects := by
  cases h with
  | type role =>
    obtain ⟨type, rfl⟩ := typed (NodeClass.Means.of_memberRole role)
    exact .nil
  | id _ read =>
    obtain ⟨rfl, -⟩ := decodeId_eq_ok.mp read
    exact .nil
  | slot role there read =>
    rw [Registry.memberTarget_of_declared role there]
    exact accounted_slot accounts read
  | extension role read =>
    rw [Registry.memberTarget_of_undeclared role]
    exact accounted_extensions accounts read

theorem accounted_members {cls : NodeClass} {members : List (String × Json)} {parts : List Part}
    (each : ∀ m ∈ members, d.Accounts m.2)
    (typed : ∀ m ∈ members, m.1 = "@type" → ∃ type, m.2 = .string type)
    (reads : members.map (fun m => d.readMember path cls m.1 m.2) = parts.map .ok) :
    Accounted (d.memberReadings path cls members) (Json.memberObjects members)
      (parts.flatMap Part.objects) := by
  induction members generalizing parts with
  | nil =>
    rw [List.map_eq_nil_iff.mp reads.symm]
    exact .nil
  | cons m members ih =>
    cases parts with
    | nil => cases reads
    | cons part parts =>
      obtain ⟨read, reads⟩ := List.cons.inj reads
      obtain ⟨here, later⟩ := List.forall_mem_cons.mp each
      obtain ⟨typedHere, typedLater⟩ := List.forall_mem_cons.mp typed
      have first := accounted_member here typedHere (readMember_eq_ok.mp read)
      exact first.append (ih later typedLater reads)

/-- The members of an object are accounted for, and with them the object. -/
theorem accounted_object {members : List (String × Json)} {o : Object}
    (each : ∀ m ∈ members, d.Accounts m.2) (sorted : Members.Sorted members)
    (h : d.decodeObject path target (.object members) = .ok o) :
    Accounted (d.readings path target (.object members)) (Json.object members).objects [o] := by
  obtain ⟨type, cls, typed, read⟩ := exists_class_of_decodeObject h
  obtain ⟨parts, reads, made⟩ := (decodeMembers_eq_ok (Object.shaped_ofType cls type)).mp read
  have same : o.cls = cls := (typed_of_decodeMembers read).1
  -- The one member with the key of the type is the type.
  have strings : ∀ m ∈ members, m.1 = "@type" → ∃ type, m.2 = .string type := by
    intro m hm key
    have found := Members.get?_of_mem sorted hm
    rw [key, typed] at found
    exact ⟨type, (Option.some.inj found).symm⟩
  obtain ⟨found, kept⟩ : Accounted (d.memberReadings path cls members)
    (Json.memberObjects members) (parts.flatMap Part.objects) :=
      accounted_members each strings reads
  rw [readings, h, Json.objects]
  refine ⟨?_, ?_⟩
  · rw [List.map_cons, same, found]
  · rw [List.flatMap_singleton, Object.within_eq, List.map_cons, same, ← made]
    refine (List.subperm_cons _).mpr (.trans ?_ kept)
    obtain ⟨middle, perm, sub⟩ := Object.held_foldl_put parts (.ofType cls type)
    rw [Object.held_ofType, List.nil_append] at sub
    exact ⟨_, perm.flatMap_right _, sub.flatMap _⟩

/-- Whatever is read from a value is accounted for. -/
theorem accounts (d : Decoder) (json : Json) (ordered : json.Ordered) : d.Accounts json := by
  induction json using Json.induct with
  | null | bool | integer | float | string =>
    refine ⟨fun _ _ _ h => ?_, nofun, fun path value h => ?_, nofun⟩
    · cases readsObject_of_decodeObject h
    · cases readsValue_of_decodeExtension h <;> exact .nil
  | list items ih =>
    have each : ∀ item ∈ items, d.Accounts item := fun item hi =>
      ih item hi (by cases ordered with | list each => exact each item hi)
    refine ⟨fun _ _ _ h => ?_, fun _ _ _ _ h => accounted_references each h, fun path value h => ?_,
      fun _ _ h => accounted_values each h⟩
    · cases readsObject_of_decodeObject h
    · obtain ⟨values, read, rfl⟩ := Outcome.map_eq_ok.mp h
      exact accounted_values each read
  | object members ih =>
    cases ordered with
    | object sorted ordered =>
      have each : ∀ m ∈ members, d.Accounts m.2 := fun m hm => ih m hm (ordered m hm)
      refine ⟨fun _ _ _ h => accounted_object each sorted h, nofun, fun path value h => ?_, nofun⟩
      obtain ⟨o, read, rfl⟩ := Outcome.map_eq_ok.mp h
      exact accounted_object each sorted read

end Decoder

end ShapedGraph
