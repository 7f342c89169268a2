import ShapedGraph.Graph.Document
import ShapedGraph.Proofs.Readings
import ShapedGraph.Proofs.Soundness
import ShapedGraph.Proofs.WalkOrder

/-! Which objects of a document validation looks at: those that slots lead to from the roots, each
once. They are all that the document was read to exactly if no later member was read into the place
of an earlier one that held an object, and none of them has an object in an undeclared member. -/

namespace ShapedGraph

/-! ## What a walk over a graph enters -/

namespace Object

/-- Nothing inside an object that was read is reached from two places. -/
theorem unshared_of_sound {registry : Registry} {searched unbounded : Prop}
    {target : Option NodeClass} {o : Object}
    (sound : o.SoundThroughout registry searched unbounded target) : o.Unshared := by
  induction sound with
  | @intro target o here _ ih =>
    have filled : ∀ slot ∈ o.slots, ∃ p, (p, slot) ∈ o.properties ∧ slot.Sound p := by
      intro slot hs
      obtain ⟨place, hi⟩ := List.mem_iff_getElem?.mp hs
      obtain ⟨p, hp⟩ := here.filled.shaped.getElem?_layout hi
      have there := List.mem_of_getElem? (getElem?_properties.mpr ⟨hp, hi⟩)
      exact ⟨p, there, here.filled.slots place p slot hp hi⟩
    refine .intro here.filled.shaped.length (fun slot hs handle x hr => ?_) fun x hx => ?_
    · obtain ⟨p, -, slotSound⟩ := filled slot hs
      exact slotSound.handle_of_object hr
    · obtain ⟨slot, hs, inside⟩ := List.mem_flatMap.mp hx
      obtain ⟨p, there, -⟩ := filled slot hs
      exact ih _ x (.inSlot there inside)

end Object

/-! ## What a document is read to -/

/-- The JSON objects of a document: those of the list of roots, or the document itself but for its
context, and those inside them. -/
def Json.documentObjects : Json → List Json
  | .object members =>
    match Members.get? members "@graph" with
    | some roots => roots.objects
    | none => (Json.object (Members.erase members "@context")).objects
  | _ => []

/-- The JSON objects that the roots of a document are read from: those that it lists, or the
document itself but for its context. -/
def Json.rootObjects : Json → List Json
  | .object members =>
    match Members.get? members "@graph" with
    | some (.list items) => items
    | some _ => []
    | none => [.object (Members.erase members "@context")]
  | _ => []

namespace Decoder

variable {d : Decoder} {json : Json}

/-- What the objects of a document are read to. -/
def documentReadings (d : Decoder) : Json → List Reading
  | .object members =>
    match Members.get? members "@graph" with
    | some roots => d.readings (Path.root.member "@graph") none roots
    | none => d.readings .root none (.object (Members.erase members "@context"))
  | _ => []

theorem accounted_roots {path : Path} {position : Nat} {items : List Json} {roots : List Object}
    (each : ∀ item ∈ items, d.Accounts item)
    (h : decodeItems (fun path json => d.decodeObject path none json) path position items =
      .ok roots) :
    Accounted (d.itemReadings path none position items) (Json.itemObjects items) roots := by
  induction items generalizing position roots with
  | nil =>
    cases h
    exact .nil
  | cons item items ih =>
    obtain ⟨here, later⟩ := List.forall_mem_cons.mp each
    rw [decodeItems] at h
    obtain ⟨root, read, h⟩ := Outcome.bind_eq_ok.mp h
    obtain ⟨rest, reads, h⟩ := Outcome.bind_eq_ok.mp h
    cases h
    exact (here.object _ _ root read).append (ih later reads)

/-- The readings of a document are of all its objects, and its roots with all that is inside them
are among what they give. -/
theorem accounted_document {roots : List Object} (ordered : json.Ordered)
    (h : d.decodeRoots json = .ok roots) :
    Accounted (d.documentReadings json) json.documentObjects roots := by
  cases json with
  | object members =>
    rw [decodeRoots] at h
    obtain ⟨-, -, h⟩ := Outcome.bind_eq_ok.mp h
    rw [documentReadings, Json.documentObjects]
    cases listed : Members.get? members "@graph" with
    | some graph =>
      simp only [listed] at h ⊢
      split at h
      · cases h
      · have ordered : graph.Ordered := by
          cases ordered with
          | object sorted each => exact each _ (Members.mem_of_get? listed)
        cases graph with
        | list items =>
          refine accounted_roots (fun item hi => ?_) h
          cases ordered with
          | list each => exact accounts d item (each item hi)
        | _ => cases h
    | none =>
      simp only [listed] at h ⊢
      obtain ⟨o, read, h⟩ := Outcome.bind_eq_ok.mp h
      cases h
      exact (accounts d _ (ordered.erase _)).object _ _ o read
  | _ => cases h

/-- Each root of a document was read from the object in its place among those it lists, or from the
document itself. -/
theorem forall₂_of_decodeRoots {roots : List Object} (h : d.decodeRoots json = .ok roots) :
    List.Forall₂ (fun root item => ∃ path, d.decodeObject path none item = .ok root) roots
      json.rootObjects := by
  cases json with
  | object members =>
    rw [decodeRoots] at h
    obtain ⟨-, -, h⟩ := Outcome.bind_eq_ok.mp h
    unfold Json.rootObjects
    cases listed : Members.get? members "@graph" with
    | some graph =>
      simp only [listed] at h ⊢
      split at h
      · cases h
      · cases graph with
        | list items => exact forall₂_of_decodeItems h
        | _ => cases h
    | none =>
      simp only [listed] at h ⊢
      obtain ⟨o, read, h⟩ := Outcome.bind_eq_ok.mp h
      cases h
      exact .cons ⟨_, read⟩ .nil
  | _ => cases h

theorem sound_of_decodeRoots {roots : List Object} (h : d.decodeRoots json = .ok roots) :
    ∀ root ∈ roots, root.SoundThroughout d.registry True True none := by
  have unasked : ∀ t, none = some t → t ∈ d.registry.classes := nofun
  intro root hr
  obtain ⟨item, -, path, read⟩ := exists_mem_of_forall₂ (forall₂_of_decodeRoots h) hr
  have reads := readsSoundly d True True item (.inl trivial)
  exact reads.object path none root unasked (.inl trivial) read

end Decoder

namespace Graph

variable {registry : Registry} {maxDepth : Nat} {json : Json} {graph : Graph}

theorem roots_of_decode (h : (empty registry).decode maxDepth json = .ok graph) :
    ∃ roots, (Decoder.mk registry maxDepth).decodeRoots json = .ok roots ∧
      graph.roots = roots.map (⟨none, ·⟩) := by
  obtain ⟨roots, read, rfl⟩ := Outcome.map_eq_ok.mp h
  exact ⟨roots, read, List.nil_append _⟩

/-- Validation looks at what the slots of the roots lead to. -/
theorem objects_of_decode (h : (empty registry).decode maxDepth json = .ok graph) :
    graph.objects.map (·.value) = graph.roots.flatMap fun root => root.object.within false := by
  obtain ⟨roots, read, same⟩ := roots_of_decode h
  have sound := Decoder.sound_of_decodeRoots read
  have alone : ∀ handle o, .object handle o ∈ graph.located.map (·.value) →
      handle = none ∧ o.Unshared := by
    intro handle o among
    rw [map_value_located, same, List.map_map] at among
    obtain ⟨root, hr, is⟩ := List.mem_map.mp among
    cases is
    exact ⟨rfl, Object.unshared_of_sound (sound root hr)⟩
  rw [graph.walkOrder_objects.values_eq alone, map_value_located, List.flatMap_map,
    List.flatMap_assoc]
  refine congrArg (List.flatMap · graph.roots) (funext fun root => ?_)
  exact List.flatMap_singleton ..

/-- Validation of a document looks at exactly one object for each JSON object of the document, the
one that it was read to, if and only if two things hold: everything that was read is still in the
graph, and no object that validation looks at has another in an undeclared member. -/
theorem validated_perm_readings_iff (ordered : json.Ordered)
    (read : (empty registry).decode maxDepth json = .ok graph) :
    ((Decoder.mk registry maxDepth).documentReadings json).map (·.json) = json.documentObjects ∧
      ((graph.objects.map (·.value)).Perm
          (((Decoder.mk registry maxDepth).documentReadings json).map (·.object)) ↔
        (graph.roots.flatMap fun root => root.object.within true).Perm
            (((Decoder.mk registry maxDepth).documentReadings json).map (·.object)) ∧
          ∀ found ∈ graph.objects, found.value.undeclaredObjects = []) := by
  obtain ⟨roots, decoded, same⟩ := roots_of_decode read
  obtain ⟨found, kept⟩ := Decoder.accounted_document ordered decoded
  refine ⟨found, ?_⟩
  have validated : graph.objects.map (·.value) = roots.flatMap (Object.within false) := by
    rw [objects_of_decode read, same, List.flatMap_map]
  have all : (graph.roots.flatMap fun root => root.object.within true) =
      roots.flatMap (Object.within true) := by
    rw [same, List.flatMap_map]
  have fewer := (List.Sublist.flatMap_right roots fun o _ => o.within_sublist).length_le
  have undeclared : (∀ found ∈ graph.objects, found.value.undeclaredObjects = []) ↔
      ∀ o ∈ roots, ∀ x ∈ o.within false, x.undeclaredObjects = [] := by
    have mapped : (∀ found ∈ graph.objects, found.value.undeclaredObjects = []) ↔
        ∀ x ∈ graph.objects.map (·.value), x.undeclaredObjects = [] := by simp
    rw [mapped, validated]
    simp only [List.mem_flatMap]
    exact ⟨fun h o ho x hx => h x ⟨o, ho, hx⟩, fun h x ⟨o, ho, hx⟩ => h o ho x hx⟩
  rw [validated, all, undeclared]
  constructor
  · intro once
    have length := once.length_eq
    refine ⟨kept.perm_of_length_le (by omega), fun o ho => ?_⟩
    have few := kept.length_le
    have equal := Object.length_eq_of_flatMap
      (fun x _ => x.within_sublist.length_le) (by omega) o ho
    exact Object.undeclaredObjects_of_length_eq equal
  · rintro ⟨still, none⟩
    have each : ∀ o ∈ roots, o.within false = o.within true := fun o ho =>
      Object.within_eq_of_undeclaredObjects (none o ho)
    rw [List.flatMap_def, List.map_congr_left each, ← List.flatMap_def]
    exact still

end Graph

namespace Sample

/-- A page must have a title, and may say more. -/
def page : ClassDecl where
  iri := "ex:Page"
  compact := some "Page"
  nodeKind := none
  idAlias := none
  isAbstract := false
  extensible := some true
  parents := []
  properties := [
    ⟨"title", "ex:title", some "title", .scalar .string, false, some 1, none, [], []⟩,
    ⟨"next", "ex:next", some "next", .object "ex:Page", false, none, none, [], []⟩]

def pageRegistry : Registry := (Registry.build "" [page]).toOption.getD ⟨"", [], []⟩

/-- A titled page with a page that has no title in an undeclared member. -/
def pages : Json := .object
  [("@context", .string ""), ("@type", .string "Page"),
    ("extra", .object [("@type", .string "Page")]), ("title", .string "one")]

/-- A titled page with a page that has no title in its slot. -/
def chapter : Json := .object
  [("@context", .string ""), ("@type", .string "Page"),
    ("next", .object [("@type", .string "Page")]), ("title", .string "one")]

end Sample

/-- A document passes validation although one of its objects fails it. -/
theorem Sample.validation_misses : ∃ graph,
    (Graph.empty Sample.pageRegistry).decode 9 Sample.pages = .ok graph ∧
      (graph.validate Handler.collect (.initial [])).valid = true ∧
        ¬(graph.objects.map (·.value)).Perm (((Decoder.mk Sample.pageRegistry 9).documentReadings
          Sample.pages).map (·.object)) ∧
          ∃ reading ∈ (Decoder.mk Sample.pageRegistry 9).documentReadings Sample.pages,
            (reading.object.validate Handler.collect .root (.initial [])).valid = false := by
  refine ⟨_, rfl, rfl, fun once => ?_, _, .tail _ (.head _), rfl⟩
  cases once.length_eq

theorem Sample.chapter_validated : ∃ graph,
    (Graph.empty Sample.pageRegistry).decode 9 Sample.chapter = .ok graph ∧
      (graph.objects.map (·.value)).Perm (((Decoder.mk Sample.pageRegistry 9).documentReadings
        Sample.chapter).map (·.object)) := by
  have ordered : Sample.chapter.Ordered := by
    refine .object (by decide) ?_
    simp only [List.forall_mem_cons]
    refine ⟨.string _, .string _, .object (by decide) ?_, .string _, nofun⟩
    simp only [List.forall_mem_cons]
    exact ⟨.string _, nofun⟩
  obtain ⟨graph, read, still, none⟩ : ∃ graph,
      (Graph.empty Sample.pageRegistry).decode 9 Sample.chapter = .ok graph ∧
        (graph.roots.flatMap fun root => root.object.within true) =
          ((Decoder.mk Sample.pageRegistry 9).documentReadings Sample.chapter).map (·.object) ∧
          graph.objects.all (fun found => found.value.undeclaredObjects.isEmpty) = true :=
    ⟨_, rfl, rfl, rfl⟩
  obtain ⟨-, exactly⟩ := Graph.validated_perm_readings_iff ordered read
  refine ⟨graph, read, exactly.mpr ⟨still ▸ .refl _, fun found hf => ?_⟩⟩
  exact List.isEmpty_iff.mp (List.all_eq_true.mp none found hf)

end ShapedGraph
