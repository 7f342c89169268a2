import ShapedGraph.Proofs.Accessors
import ShapedGraph.Proofs.Handles
import ShapedGraph.Workspace.Run

/-! Steps on an object of a workspace. The handles that a step gives out label all the references
that it brings into the object. -/

namespace ShapedGraph

/-! ## Changes to one object -/

/-- What is made of a class that a key names is blank. -/
theorem Registry.create_eq_ok_iff {registry : Registry} {key : String} {o : Object} :
    registry.create key = .ok o ↔
      registry.get? key = some o.cls ∧ o.cls.isAbstract = false ∧ o = .blank o.cls := by
  unfold create
  cases registry.get? key with
  | none => exact ⟨nofun, fun ⟨named, _⟩ => by cases named⟩
  | some c =>
    simp only
    split
    · rename_i abstract
      refine ⟨nofun, fun ⟨same, concrete, _⟩ => ?_⟩
      cases same
      cases abstract.symm.trans concrete
    · rename_i concrete
      constructor
      · intro made
        cases made
        exact ⟨rfl, eq_false_of_ne_true concrete, rfl⟩
      · rintro ⟨same, -, blank⟩
        cases same
        rw [← blank]

/-- All references in a slot are labelled. -/
def Slot.Labelled (table : Nat → Option Object) (slot : Slot) : Prop :=
  ∀ target ∈ slot.targets, target.Labelled table

theorem Slot.labelled_empty (table : Nat → Option Object) (p : Property) :
    (Slot.empty p).Labelled table := by
  intro target there
  revert there
  unfold empty
  split <;> simp only [targets, List.not_mem_nil, List.mem_singleton, false_implies]
  rintro rfl
  trivial

theorem Slot.labelled_cleared (table : Nat → Option Object) (slot : Slot) :
    slot.cleared.Labelled table := by
  cases slot with
  | reference => exact List.forall_mem_singleton.mpr trivial
  | _ => exact nofun

namespace Object

variable {table : Nat → Option Object} {o changed : Object} {key : String}

theorem labelled_blank (table : Nat → Option Object) (cls : NodeClass) :
    (blank cls).Labelled table := by
  intro target there
  rcases List.mem_append.mp there with there | there
  · obtain ⟨slot, among, inside⟩ := List.mem_flatMap.mp there
    obtain ⟨p, -, rfl⟩ := List.mem_map.mp among
    exact Slot.labelled_empty table p target inside
  · cases there

theorem labelled_create (table : Nat → Option Object) {registry : Registry}
    (made : registry.create key = .ok o) : o.Labelled table := by
  obtain ⟨-, -, blank⟩ := Registry.create_eq_ok_iff.mp made
  rw [blank]
  exact labelled_blank table _

theorem Labelled.slot (labelled : o.Labelled table) {slot : Slot} (among : slot ∈ o.slots) :
    slot.Labelled table := fun target inside =>
  labelled target (List.mem_append_left _ (List.mem_flatMap.mpr ⟨slot, among, inside⟩))

theorem Labelled.putSlot (labelled : o.Labelled table) (place : Nat) {slot : Slot}
    (new : slot.Labelled table) : (o.putSlot place slot).Labelled table := by
  intro target there
  rcases List.mem_append.mp there with there | there
  · obtain ⟨other, among, inside⟩ := List.mem_flatMap.mp there
    rcases List.mem_or_eq_of_mem_set among with old | rfl
    · exact labelled.slot old target inside
    · exact new target inside
  · exact labelled target (List.mem_append_right _ there)

theorem Labelled.putExtensions (labelled : o.Labelled table)
    {extensions : List (String × List Extension)}
    (new : ∀ m ∈ extensions, m ∉ o.extensions →
      ∀ target ∈ extensionTargets m.2, target.Labelled table) :
    Labelled table { o with extensions } := by
  intro target there
  rcases List.mem_append.mp there with there | there
  · exact labelled target (List.mem_append_left _ there)
  · obtain ⟨m, among, inside⟩ := List.mem_flatMap.mp there
    by_cases old : m ∈ o.extensions
    · exact labelled target (List.mem_append_right _ (List.mem_flatMap.mpr ⟨m, old, inside⟩))
    · exact new m among old target inside

theorem Labelled.cell? (labelled : o.Labelled table) {cell : Cell Slot}
    (found : o.cell? key = some cell) : cell.content.Labelled table := by
  obtain ⟨-, there⟩ := cell?_eq_some_iff.mp found
  exact labelled.slot (List.of_mem_zip (List.mem_of_getElem? there)).2

theorem Labelled.find (labelled : o.Labelled table) {cell : Cell Slot}
    (found : o.find key = .ok cell) : cell.content.Labelled table :=
  labelled.cell? (find_eq_ok_iff.mp found)

theorem Labelled.findReferences (labelled : o.Labelled table) {cell : Cell (List Reference)}
    (found : o.findReferences key = .ok cell) :
    ∀ target ∈ cell.content, target.Labelled table :=
  labelled.find (findReferences_iff_find.mp found)

theorem Labelled.setReference (labelled : o.Labelled table) {target : Reference}
    (new : target.Labelled table) (h : o.setReference key target = .ok changed) :
    changed.Labelled table := by
  obtain ⟨cell, -, h⟩ := Outcome.bind_eq_ok.mp h
  split at h
  · cases h
  · cases h
    exact labelled.putSlot _ (List.forall_mem_singleton.mpr new)

theorem Labelled.setReferences (labelled : o.Labelled table) {targets : List Reference}
    (new : ∀ target ∈ targets, target.Labelled table)
    (h : o.setReferences key targets = .ok changed) : changed.Labelled table := by
  obtain ⟨cell, -, h⟩ := Outcome.bind_eq_ok.mp h
  split at h
  · cases h
  · cases h
    exact labelled.putSlot _ new

theorem Labelled.pushReference (labelled : o.Labelled table) {target : Reference}
    (new : target.Labelled table) (h : o.pushReference key target = .ok changed) :
    changed.Labelled table := by
  obtain ⟨cell, found, h⟩ := Outcome.bind_eq_ok.mp h
  split at h
  · cases h
  · cases h
    refine labelled.putSlot _ fun other there => ?_
    rcases List.mem_append.mp there with there | there
    · exact labelled.findReferences found other there
    · cases List.mem_singleton.mp there
      exact new

theorem Labelled.delete (labelled : o.Labelled table) {accessor : Accessor}
    (h : o.delete key accessor = .ok changed) : changed.Labelled table := by
  cases accessor with
  | scalar | list | references =>
    obtain ⟨cell, -, h⟩ := Outcome.bind_eq_ok.mp h
    cases h
    exact labelled.putSlot _ nofun
  | reference =>
    obtain ⟨cell, -, h⟩ := Outcome.bind_eq_ok.mp h
    cases h
    exact labelled.putSlot _ (Slot.labelled_cleared table (.reference .unset))

theorem Labelled.deleteSlot (labelled : o.Labelled table) (h : o.deleteSlot key = some changed) :
    changed.Labelled table := by
  obtain ⟨cell, -, h⟩ := Option.bind_eq_some_iff.mp h
  cases h
  exact labelled.putSlot _ (Slot.labelled_cleared table _)

theorem Labelled.setExtension (labelled : o.Labelled table) {values : List Extension}
    (new : ∀ target ∈ extensionTargets values, target.Labelled table)
    (h : o.setExtension key values = .ok changed) : changed.Labelled table := by
  unfold Object.setExtension at h
  split at h
  · cases h
    refine labelled.putExtensions fun m among other target inside => ?_
    split at among
    · exact absurd (List.mem_filter.mp among).1 other
    · rcases Members.mem_insert among with rfl | old
      · exact new target inside
      · exact absurd old other
  · cases h

theorem Labelled.deleteExtension (labelled : o.Labelled table) (key : String) :
    (o.deleteExtension key).Labelled table :=
  labelled.putExtensions fun _ among other => absurd (List.mem_filter.mp among).1 other

end Object

/-! ## Terms -/

namespace Naming

variable {α β : Type} {x : Naming α} {next after : Nat}

theorem bind_eq_some {f : α → Naming β} {b : β} : (x >>= f) next = some (b, after) ↔
    ∃ a middle, x next = some (a, middle) ∧ f a middle = some (b, after) := by
  show (x next).bind (fun (a, middle) => f a middle) = _ ↔ _
  simp [Option.bind_eq_some_iff]

theorem map_eq_some {f : α → β} {b : β} : (f <$> x) next = some (b, after) ↔
    ∃ a, x next = some (a, after) ∧ f a = b := by
  show (x next).bind (fun (a, middle) => some (f a, middle)) = _ ↔ _
  simp [Option.bind_eq_some_iff]

theorem lift_eq_some {value : Option α} {a : α} :
    (liftM value : Naming α) next = some (a, after) ↔ value = some a ∧ next = after := by
  show (value.bind fun a => some (a, next)) = _ ↔ _
  cases value <;> simp

theorem pure_eq_some {a b : α} :
    (pure a : Naming α) next = some (b, after) ↔ a = b ∧ next = after := by
  show some (a, next) = _ ↔ _
  simp

end Naming

/-- What the names of a workspace stand for: objects that refer to objects of a table, and objects
of the table. -/
structure Workspace.Named (w : Workspace) (table : Nat → Option Object) : Prop where
  objects : ∀ entry ∈ w.objects, entry.2.Labelled table
  shared : ∀ entry ∈ w.shared, table entry.2.handle = some entry.2.object

namespace Workspace.Named

variable {w : Workspace} {table : Nat → Option Object} {stock later : Stock}

theorem grow (named : w.Named stock.table) (grows : stock.Grows later) : w.Named later.table where
  objects entry there := (named.objects entry there).mono fun _ _ => grows.eq_some
  shared entry there := grows.eq_some (named.shared entry there)

theorem object? (named : w.Named table) {name : String} {o : Object}
    (found : w.object? name = some o) : o.Labelled table :=
  named.objects (name, o) (Members.mem_of_get? found)

theorem shared? (named : w.Named table) {name : String} {s : SharedObject}
    (found : w.shared? name = some s) : table s.handle = some s.object :=
  named.shared (name, s) (Members.mem_of_get? found)

end Workspace.Named

section Terms

variable {w : Workspace} {next : Nat}

theorem Workspace.Named.labels_reference {stock : Stock} (named : w.Named stock.table)
    {term : ReferenceTerm} {target : Reference}
    (h : term.resolve w stock.next = some (target, next)) : stock.Labels next [target] := by
  cases term with
  | unset | iri =>
    obtain ⟨rfl, rfl⟩ := Naming.pure_eq_some.mp h
    exact Stock.labels_self (List.forall_mem_singleton.mpr trivial)
  | copy name =>
    obtain ⟨o, _, looked, h⟩ := Naming.bind_eq_some.mp h
    obtain ⟨found, rfl⟩ := Naming.lift_eq_some.mp looked
    cases h
    obtain ⟨filled, grows, same, there⟩ :=
      Stock.exists_put (.refl stock.skip) (named.object? found)
    exact ⟨filled, grows, same, List.forall_mem_singleton.mpr there⟩
  | shared name =>
    obtain ⟨s, _, looked, h⟩ := Naming.bind_eq_some.mp h
    obtain ⟨found, rfl⟩ := Naming.lift_eq_some.mp looked
    obtain ⟨rfl, rfl⟩ := Naming.pure_eq_some.mp h
    exact Stock.labels_self (List.forall_mem_singleton.mpr (named.shared? found))

theorem Workspace.Named.labels_references {stock : Stock} (named : w.Named stock.table)
    {terms : List ReferenceTerm} {targets : List Reference}
    (h : terms.mapM (·.resolve w) stock.next = some (targets, next)) :
    stock.Labels next targets := by
  induction terms generalizing stock targets with
  | nil =>
    obtain ⟨rfl, rfl⟩ := Naming.pure_eq_some.mp h
    exact stock.labels_nil
  | cons term terms ih =>
    rw [List.mapM_cons] at h
    obtain ⟨target, middle, first, h⟩ := Naming.bind_eq_some.mp h
    obtain ⟨targets, _, rest, h⟩ := Naming.bind_eq_some.mp h
    obtain ⟨rfl, rfl⟩ := Naming.pure_eq_some.mp h
    refine (named.labels_reference first).append fun later grows same => ?_
    subst same
    exact ih (named.grow grows) rest

mutual

theorem Workspace.Named.labels_extension {stock : Stock} (named : w.Named stock.table)
    (term : ExtensionTerm) {value : Extension} {next : Nat}
    (h : term.resolve w stock.next = some (value, next)) : stock.Labels next value.targets := by
  match term with
  | .reference target =>
    obtain ⟨target, resolved, rfl⟩ := Naming.map_eq_some.mp h
    exact named.labels_reference resolved
  | .string _ | .integer _ | .float _ | .boolean _ =>
    obtain ⟨rfl, rfl⟩ := Naming.pure_eq_some.mp h
    exact stock.labels_nil
  | .list values =>
    obtain ⟨_, resolved, rfl⟩ := Naming.map_eq_some.mp h
    exact labels_extensions named values resolved
termination_by structural term

theorem Workspace.Named.labels_extensions {stock : Stock} (named : w.Named stock.table)
    (terms : List ExtensionTerm) {values : List Extension} {next : Nat}
    (h : resolveExtensions w terms stock.next = some (values, next)) :
    stock.Labels next (extensionTargets values) := by
  match terms with
  | [] =>
    obtain ⟨rfl, rfl⟩ := Naming.pure_eq_some.mp h
    exact stock.labels_nil
  | term :: terms =>
    obtain ⟨value, middle, first, h⟩ := Naming.bind_eq_some.mp h
    obtain ⟨values, _, rest, h⟩ := Naming.bind_eq_some.mp h
    obtain ⟨rfl, rfl⟩ := Naming.pure_eq_some.mp h
    refine (labels_extension named term first).append fun later grows same => ?_
    subst same
    exact labels_extensions (named.grow grows) terms rest
termination_by structural terms

end

end Terms

/-! ## Steps on an object -/

namespace Object

variable {table : Nat → Option Object} {o changed : Object} {key : String} {next : Nat}
  {w : Workspace} {stock : Stock} {answer : Answer}

/-- A change that brings in certain references, after which the object has no others that are
new. -/
theorem labels_change {targets : List Reference} {result : Except AccessError Object}
    (labelled : o.Labelled stock.table) (new : stock.Labels next targets)
    (each : ∀ table, o.Labelled table → (∀ target ∈ targets, target.Labelled table) →
      ∀ changed, result = .ok changed → changed.Labelled table) :
    stock.Labels next (o.change result).2.targets := by
  obtain ⟨later, grows, same, new⟩ := new
  refine ⟨later, grows, same, ?_⟩
  have labelled := labelled.mono fun _ _ => grows.eq_some
  cases result with
  | ok changed => exact each later.table labelled new changed rfl
  | error => exact labelled

/-- What a property or an element of a list property refers to. -/
theorem Labelled.referenceAt (labelled : o.Labelled table) {position : Option Nat}
    {target : Reference} (h : o.referenceAt key position = .ok (some target)) :
    target.Labelled table := by
  cases position with
  | none =>
    obtain ⟨cell, found, h⟩ := Outcome.bind_eq_ok.mp h
    cases h
    exact labelled.find (findReference_iff_find.mp found) _ List.mem_cons_self
  | some position =>
    obtain ⟨cell, found, h⟩ := Outcome.bind_eq_ok.mp h
    exact labelled.findReferences found target (List.mem_of_getElem? (Except.ok.inj h))

theorem Labelled.putReference (labelled : o.Labelled table) {position : Option Nat}
    {target : Reference} (new : target.Labelled table) :
    (o.putReference key position target).Labelled table := by
  unfold Object.putReference
  split
  · exact labelled.putSlot _ (List.forall_mem_singleton.mpr new)
  · rename_i found
    refine labelled.putSlot _ fun other there => ?_
    rcases List.mem_or_eq_of_mem_set there with old | rfl
    · exact labelled.cell? found other old
    · exact new
  · exact labelled

theorem refills_set {content : Content} {after : Nat}
    (h : o.set w key content next = some (.ok changed, after)) : o.Refills key changed := by
  cases content with
  | scalar => exact refills_setScalar (Naming.pure_eq_some.mp h).1
  | list => exact refills_setList (Naming.pure_eq_some.mp h).1
  | reference =>
    obtain ⟨target, -, done⟩ := Naming.map_eq_some.mp h
    exact refills_setReference done
  | references =>
    obtain ⟨targets, -, done⟩ := Naming.map_eq_some.mp h
    exact refills_setReferences done

theorem refills_push {item : Item} {after : Nat}
    (h : o.push w key item next = some (.ok changed, after)) : o.Refills key changed := by
  cases item with
  | scalar => exact refills_pushScalar (Naming.pure_eq_some.mp h).1
  | reference =>
    obtain ⟨target, -, done⟩ := Naming.map_eq_some.mp h
    exact refills_pushReference done

theorem refills_delete {accessor : Accessor} (done : o.delete key accessor = .ok changed) :
    o.Refills key changed := by
  cases accessor with
  | scalar => exact refills_deleteScalar done
  | list => exact refills_deleteList done
  | reference => exact refills_deleteReference done
  | references => exact refills_deleteReferences done

theorem labels_of_set (named : w.Named stock.table) (labelled : o.Labelled stock.table)
    {content : Content} {result : Except AccessError Object}
    (h : o.set w key content stock.next = some (result, next)) :
    stock.Labels next (o.change result).2.targets := by
  cases content with
  | scalar | list =>
    obtain ⟨rfl, rfl⟩ := Naming.pure_eq_some.mp h
    refine labels_change labelled stock.labels_nil fun _ labelled _ changed done => ?_
    obtain ⟨cell, -, done⟩ := Outcome.bind_eq_ok.mp done
    obtain ⟨field, -, done⟩ := Outcome.bind_eq_ok.mp done
    cases done
    exact labelled.putSlot _ nofun
  | reference term =>
    obtain ⟨target, resolved, rfl⟩ := Naming.map_eq_some.mp h
    exact labels_change labelled (named.labels_reference resolved) fun _ labelled new _ done =>
      labelled.setReference (new target List.mem_cons_self) done
  | references terms =>
    obtain ⟨targets, resolved, rfl⟩ := Naming.map_eq_some.mp h
    exact labels_change labelled (named.labels_references resolved) fun _ labelled new _ done =>
      labelled.setReferences new done

theorem labels_of_push (named : w.Named stock.table) (labelled : o.Labelled stock.table)
    {item : Item} {result : Except AccessError Object}
    (h : o.push w key item stock.next = some (result, next)) :
    stock.Labels next (o.change result).2.targets := by
  cases item with
  | scalar =>
    obtain ⟨rfl, rfl⟩ := Naming.pure_eq_some.mp h
    refine labels_change labelled stock.labels_nil fun _ labelled _ changed done => ?_
    obtain ⟨cell, -, done⟩ := Outcome.bind_eq_ok.mp done
    obtain ⟨field, -, done⟩ := Outcome.bind_eq_ok.mp done
    cases done
    exact labelled.putSlot _ nofun
  | reference term =>
    obtain ⟨target, resolved, rfl⟩ := Naming.map_eq_some.mp h
    exact labels_change labelled (named.labels_reference resolved) fun _ labelled new _ done =>
      labelled.pushReference (new target List.mem_cons_self) done

theorem Labelled.setId (labelled : o.Labelled table) {id : String}
    (h : (o.setId id).mapError AccessError.validation = .ok changed) : changed.Labelled table := by
  unfold Object.setId at h
  split at h
  · cases h
  · cases h
    exact labelled

theorem snd_look (o : Object) (result : Except AccessError Answer) : (o.look result).2 = o := by
  cases result <;> rfl

/-- One step: the handles that it gives out label all that the object refers to afterwards. -/
theorem labels_of_run (named : w.Named stock.table) (labelled : o.Labelled stock.table)
    {step : ObjectStep} {result : Answer × Object}
    (h : o.run w step stock.next = some (result, next)) : stock.Labels next result.2.targets := by
  induction step generalizing o result next stock with
  | get =>
    obtain ⟨rfl, rfl⟩ := Naming.pure_eq_some.mp h
    rw [snd_look]
    exact Stock.labels_self labelled
  | set =>
    obtain ⟨changed, done, rfl⟩ := Naming.map_eq_some.mp h
    exact labels_of_set named labelled done
  | push =>
    obtain ⟨changed, done, rfl⟩ := Naming.map_eq_some.mp h
    exact labels_of_push named labelled done
  | delete =>
    obtain ⟨rfl, rfl⟩ := Naming.pure_eq_some.mp h
    exact labels_change labelled stock.labels_nil fun _ labelled _ _ done => labelled.delete done
  | setId =>
    obtain ⟨rfl, rfl⟩ := Naming.pure_eq_some.mp h
    exact labels_change labelled stock.labels_nil fun _ labelled _ _ done => labelled.setId done
  | deleteId | setType | clearType | describe | validate | walk | slot =>
    obtain ⟨rfl, rfl⟩ := Naming.pure_eq_some.mp h
    exact Stock.labels_self labelled
  | deleteSlot key =>
    cases done : o.deleteSlot key with
    | none =>
      simp only [run, done] at h
      obtain ⟨rfl, rfl⟩ := Naming.pure_eq_some.mp h
      exact Stock.labels_self labelled
    | some changed =>
      simp only [run, done] at h
      obtain ⟨rfl, rfl⟩ := Naming.pure_eq_some.mp h
      exact Stock.labels_self (labelled.deleteSlot done)
  | setExtension key terms =>
    obtain ⟨values, middle, resolved, h⟩ := Naming.bind_eq_some.mp h
    obtain ⟨rfl, rfl⟩ := Naming.pure_eq_some.mp h
    have new := named.labels_extensions terms resolved
    exact labels_change labelled new fun _ labelled new _ done => labelled.setExtension new done
  | deleteExtension key =>
    obtain ⟨rfl, rfl⟩ := Naming.pure_eq_some.mp h
    exact Stock.labels_self (labelled.deleteExtension key)
  | getExtension key =>
    cases found : o.extension? key
    all_goals
      simp only [run, found] at h
      obtain ⟨rfl, rfl⟩ := Naming.pure_eq_some.mp h
      exact Stock.labels_self labelled
  | reference key position =>
    rcases found : o.referenceAt key position with _ | _ | _
    all_goals
      simp only [run, found] at h
      obtain ⟨rfl, rfl⟩ := Naming.pure_eq_some.mp h
      exact Stock.labels_self labelled
  | narrow key position =>
    rcases found : o.referenceAt key position with _ | _ | _
    case ok.some =>
      simp only [run, found] at h
      obtain ⟨rfl, rfl⟩ := Naming.pure_eq_some.mp h
      rw [snd_look]
      exact Stock.labels_self labelled
    all_goals
      simp only [run, found] at h
      obtain ⟨rfl, rfl⟩ := Naming.pure_eq_some.mp h
      exact Stock.labels_self labelled
  | inside key position step ih =>
    rcases found : o.referenceAt key position with _ | _ | target
    case ok.some =>
      cases target with
      | object handle inner =>
        -- The inner object gets the first handle, and what its own step makes the next ones.
        simp only [run, found] at h
        obtain ⟨_, _, taken, h⟩ := Naming.bind_eq_some.mp h
        cases taken
        obtain ⟨⟨answer, inner'⟩, _, stepped, h⟩ := Naming.bind_eq_some.mp h
        obtain ⟨rfl, rfl⟩ := Naming.pure_eq_some.mp h
        have shared := stock.labelled_of_object (labelled.referenceAt found)
        obtain ⟨later, grows, same, new⟩ := ih (named.grow stock.grows_skip) shared stepped
        obtain ⟨filled, grows, kept, there⟩ := Stock.exists_put grows new
        refine ⟨filled, grows, kept.trans same, ?_⟩
        exact (labelled.mono fun _ _ => grows.eq_some).putReference there
      | unset | iri =>
        simp only [run, found] at h
        obtain ⟨rfl, rfl⟩ := Naming.pure_eq_some.mp h
        exact Stock.labels_self labelled
    all_goals
      simp only [run, found] at h
      obtain ⟨rfl, rfl⟩ := Naming.pure_eq_some.mp h
      exact Stock.labels_self labelled

end Object

end ShapedGraph
