import ShapedGraph.Graph.Document
import ShapedGraph.Proofs.Lookup
import ShapedGraph.Proofs.Sharing

/-! Where the objects of a graph are mentioned in the document that is written for it, and what it
means that an object is written in full there. -/

namespace ShapedGraph

/-- A place in a JSON value where an object is referred to, and the context that identifiers are
written with there. -/
structure Mention where
  place : List Segment
  context : Context
  handle : Option Nat
  object : Object

/-- The mention as it is seen from further out. -/
def Mention.under (place : List Segment) (m : Mention) : Mention :=
  { m with place := place ++ m.place }

def Reference.mentions (context : Context) : Reference → List Mention
  | .object handle o => [⟨[], context, handle, o⟩]
  | _ => []

/-- Mentions in the elements of a list from `position` on. -/
def listMentions {α : Type} (mentions : α → List Mention) : Nat → List α → List Mention
  | _, [] => []
  | position, x :: items =>
    (mentions x).map (.under [.index position]) ++ listMentions mentions (position + 1) items

/-- The objects that a slot refers to, in what the slot is written as. -/
def Slot.mentions (p : Property) : Slot → List Mention
  | .reference target => target.mentions p.context
  | .references targets => listMentions (·.mentions p.context) 0 targets
  | _ => []

mutual

def Extension.mentions : Extension → List Mention
  | .reference target => target.mentions .empty
  | .list values => extensionMentions 0 values
  | _ => []
termination_by structural value => value

def extensionMentions : Nat → List Extension → List Mention
  | _, [] => []
  | position, value :: values =>
    value.mentions.map (.under [.index position]) ++ extensionMentions (position + 1) values
termination_by structural _ values => values

end

namespace Object

/-- The objects that an object refers to directly, where it is written in full. -/
def mentions (o : Object) : List Mention :=
  (o.properties.flatMap fun (p, slot) => (slot.mentions p).map (.under [.name p.key])) ++
    o.extensions.flatMap fun (key, values) => (extensionMentions 0 values).map (.under [.name key])

/-- The keys of the slots that are set. -/
def slotKeys (properties : List (Property × Slot)) : List String :=
  (properties.filter (·.2.isSet)).map (·.1.key)

/-- The keys of the undeclared members that have values. -/
def extensionKeys (extensions : List (String × List Extension)) : List String :=
  (extensions.filter fun (_, values) => !values.isEmpty).map (·.1)

/-- The keys of all that is written for an object, in the order in which it is written. -/
def keys (o : Object) : List String :=
  "@type" :: ((o.id.map fun _ => o.cls.idKey).toList ++ (slotKeys o.properties ++
    extensionKeys o.extensions))

/-- Nothing that is written for the object takes the place of something else. -/
def Unclashing (o : Object) : Prop := o.keys.Nodup

/-- The members say all that is written for the object: its type, its identifier, the slots that are
set and the undeclared members that have values. -/
structure InFull (o : Object) (members : Members Json) : Prop where
  type : Members.get? members "@type" = some (.string o.typeIri)
  id : ∀ text, o.id = some text → Members.get? members o.cls.idKey = some (.string text)
  slot : ∀ p slot, (p, slot) ∈ o.properties → slot.isSet = true →
    ∃ seen, Members.get? members p.key = some (slot.encode p seen).1
  extension : ∀ key values, (key, values) ∈ o.extensions → values ≠ [] →
    ∃ seen, Members.get? members key = some (.list (encodeExtensionValues values seen).1)

end Object

/-- What is mentioned directly below a mention where it is written in full. -/
def Mention.below (m : Mention) : List Mention := m.object.mentions.map (.under m.place)

theorem Mention.below_of_place {m : Mention} (here : m.place = []) :
    m.below = m.object.mentions := by
  rw [below, here]
  exact List.map_id _

/-- The mentions in a JSON value: some on top, and those in each object that is written in full at
the place of a mention. -/
inductive Json.Mentions (json : Json) (top : List Mention) : Mention → Prop where
  | top {m : Mention} (there : m ∈ top) : Mentions json top m
  | inside {m inner : Mention} {members : List (String × Json)} (outer : Mentions json top m)
    (full : json.at? m.place = some (.object members)) (there : inner ∈ m.object.mentions) :
    Mentions json top (inner.under m.place)

namespace Graph

/-- The roots in the document of the graph. -/
def rootMentions (graph : Graph) : List Mention :=
  match graph.roots with
  | [root] => root.reference.mentions .empty
  | roots =>
    (listMentions (·.reference.mentions .empty) 0 roots).map (.under [.name "@graph"])

def Mentions (graph : Graph) (m : Mention) : Prop := graph.toJson.Mentions graph.rootMentions m

/-- The object is written in full where it is mentioned. -/
def InFull (graph : Graph) (m : Mention) : Prop :=
  ∃ members, graph.toJson.at? m.place = some (.object members) ∧ m.object.InFull members

/-- The object's identifier is written where it is mentioned. -/
def InShort (graph : Graph) (m : Mention) : Prop :=
  ∃ id, m.object.id = some id ∧ graph.toJson.at? m.place = some (.string (m.context.compact id))

/-- The document of the graph has each object in full, those with an identifier once. -/
structure WritesOnce (graph : Graph) : Prop where
  /-- Where an object is not written in full, its identifier is. -/
  written : ∀ m, graph.Mentions m → graph.InFull m ∨ graph.InShort m
  /-- An object without identifier is written in full wherever it is mentioned, and so is one that
  is mentioned in one place only. -/
  everywhere : ∀ m, graph.Mentions m → m.object.id = none ∨ m.handle = none → graph.InFull m
  /-- A shared object that is not a root is written in full in one place. -/
  once : ∀ handle o, graph.Reaches true (.object (some handle) o) → o.id ≠ none →
    (∀ root ∈ graph.roots, root.handle ≠ some handle) → ∃ first, ∀ m,
      graph.Mentions m ∧ m.handle = some handle ∧ graph.InFull m ↔ m = first
  /-- One that is a root is written in full in its places as a root. -/
  root : ∀ root ∈ graph.roots, ∀ handle, root.handle = some handle → ∀ m, graph.Mentions m →
    m.handle = some handle → m.object.id ≠ none → (graph.InFull m ↔ m ∈ graph.rootMentions)
  /-- The content of no object is missing. -/
  reached : ∀ handle o, graph.Reaches true (.object handle o) →
    ∃ m, graph.Mentions m ∧ m.handle = handle ∧ m.object = o ∧ graph.InFull m

end Graph

/-! ## What is mentioned is what is referred to -/

namespace Mention

@[simp] theorem under_handle (place : List Segment) (m : Mention) :
    (m.under place).handle = m.handle := rfl

@[simp] theorem under_object (place : List Segment) (m : Mention) :
    (m.under place).object = m.object := rfl

@[simp] theorem under_context (place : List Segment) (m : Mention) :
    (m.under place).context = m.context := rfl

@[simp] theorem under_place (place : List Segment) (m : Mention) :
    (m.under place).place = place ++ m.place := rfl

@[simp] theorem under_under (place further : List Segment) (m : Mention) :
    (m.under place).under further = m.under (further ++ place) := by
  simp [under]

/-- The reference that is written. -/
def reference (m : Mention) : Reference := .object m.handle m.object

@[simp] theorem under_reference (place : List Segment) (m : Mention) :
    (m.under place).reference = m.reference := rfl

end Mention

/-- Mentions are of these references to objects, and of all of them. -/
def Mentioned (mentions : List Mention) (targets : List Reference) : Prop :=
  ∀ target, (∃ m ∈ mentions, m.reference = target) ↔ target ∈ targets ∧ target.isObject = true

namespace Mentioned

variable {mentions more : List Mention} {targets others : List Reference}

theorem nil : Mentioned [] [] := by
  intro target
  simp

theorem append (first : Mentioned mentions targets) (second : Mentioned more others) :
    Mentioned (mentions ++ more) (targets ++ others) := by
  intro target
  simp only [List.mem_append, or_and_right, exists_or, first target, second target]

theorem under (mentioned : Mentioned mentions targets) (place : List Segment) :
    Mentioned (mentions.map (.under place)) targets := by
  intro target
  simp only [List.mem_map, exists_exists_and_eq_and, Mention.under_reference, mentioned target]

theorem flatMap {α : Type} {items : List α} {f : α → List Mention} {g : α → List Reference}
    (each : ∀ x ∈ items, Mentioned (f x) (g x)) :
    Mentioned (items.flatMap f) (items.flatMap g) := by
  induction items with
  | nil => exact nil
  | cons x items ih =>
    obtain ⟨here, later⟩ := List.forall_mem_cons.mp each
    exact here.append (ih later)

theorem list {α : Type} {items : List α} {f : α → List Mention} {g : α → List Reference}
    (each : ∀ x ∈ items, Mentioned (f x) (g x)) (position : Nat) :
    Mentioned (listMentions f position items) (items.flatMap g) := by
  induction items generalizing position with
  | nil => exact nil
  | cons x items ih =>
    obtain ⟨here, later⟩ := List.forall_mem_cons.mp each
    exact (here.under _).append (ih later (position + 1))

theorem reference (context : Context) (target : Reference) :
    Mentioned (target.mentions context) [target] := by
  intro other
  cases target with
  | unset | iri =>
    constructor
    · rintro ⟨m, there, -⟩
      cases there
    · rintro ⟨same, object⟩
      cases List.mem_singleton.mp same
      cases object
  | object handle o =>
    constructor
    · rintro ⟨m, there, rfl⟩
      cases List.mem_singleton.mp there
      exact ⟨List.mem_singleton.mpr rfl, rfl⟩
    · rintro ⟨same, -⟩
      cases List.mem_singleton.mp same
      exact ⟨_, List.mem_singleton.mpr rfl, rfl⟩

theorem slot (p : Property) (slot : Slot) : Mentioned (slot.mentions p) slot.targets := by
  cases slot with
  | scalar | list => exact nil
  | reference target => exact reference p.context target
  | references targets =>
    have each := list (fun target (_ : target ∈ targets) => reference p.context target) 0
    rwa [List.flatMap_singleton'] at each

theorem extension (value : Extension) : Mentioned value.mentions value.targets := by
  induction value using Extension.induct with
  | reference target => exact reference .empty target
  | string | integer | float | boolean => exact nil
  | list values ih =>
    have each : ∀ position, Mentioned (extensionMentions position values)
        (extensionTargets values) := by
      induction values with
      | nil => exact fun _ => nil
      | cons value values rest =>
        obtain ⟨here, later⟩ := List.forall_mem_cons.mp ih
        exact fun position => (here.under _).append (rest later (position + 1))
    exact each 0

/-- An object mentions what it refers to, in its undeclared members too. -/
theorem object (o : Object) : Mentioned o.mentions (o.references true) := by
  refine append (flatMap fun _ _ => ?_) (flatMap fun _ _ => ?_)
  · exact (slot _ _).under _
  · exact (extension (.list _)).under _

theorem root (graph : Graph) : Mentioned graph.rootMentions (graph.roots.map Root.reference) := by
  unfold Graph.rootMentions
  split
  · rename_i root same
    rw [same]
    exact reference .empty root.reference
  · have each := list (fun (root : Root) (_ : root ∈ graph.roots) =>
      reference .empty root.reference) 0
    rw [← List.map_eq_flatMap] at each
    exact each.under _

end Mentioned

end ShapedGraph
