import Mathlib.Logic.Function.Basic
import ShapedGraph.Proofs.Coverage
import ShapedGraph.Proofs.Sharing
import ShapedGraph.Workspace.Basic

/-! Giving handles to what an object refers to. Nothing that is read from a document has a handle,
and a copy of it that gets handles shares all that is below it. -/

namespace ShapedGraph

theorem Extension.Sound.handle_of_object {unbounded : Prop} {value : Extension}
    {handle : Option Nat} {o : Object} (sound : value.Sound unbounded)
    (there : .object handle o ∈ value.targets) : handle = none := by
  induction value using Extension.induct with
  | reference target =>
    cases List.mem_singleton.mp there
    cases sound
    rfl
  | string | integer | float | boolean => cases there
  | list values ih =>
    obtain ⟨value, among, there⟩ := mem_extensionTargets.mp there
    cases sound with
    | list each => exact ih value among (each value among) there

namespace Object

/-- The references in an object, in its slots and in its undeclared members. -/
def targets (o : Object) : List Reference :=
  o.slots.flatMap Slot.targets ++ o.extensions.flatMap fun (_, values) => extensionTargets values

theorem references_subset {undeclared : Bool} {o : Object} :
    o.references undeclared ⊆ o.targets := by
  intro target there
  rcases List.mem_append.mp (mem_references_true there) with there | there
  · obtain ⟨⟨p, slot⟩, among, there⟩ := List.mem_flatMap.mp there
    exact List.mem_append_left _ (List.mem_flatMap.mpr ⟨slot, (List.of_mem_zip among).2, there⟩)
  · exact List.mem_append_right _ there

def Labelled (table : Nat → Option Object) (o : Object) : Prop :=
  ∀ target ∈ o.targets, target.Labelled table

/-- No reference in the object has a handle, at any depth. -/
inductive Bare : Object → Prop where
  | intro {o : Object} (alone : ∀ handle x, .object handle x ∈ o.targets → handle = none)
    (inside : ∀ handle x, .object handle x ∈ o.targets → Bare x) : Bare o

theorem Bare.unlabelled {o : Object} (bare : o.Bare) : o.Unlabelled := by
  intro target there handle x leads
  generalize same : Reference.object (some handle) x = found at leads
  induction leads generalizing o with
  | here =>
    subst same
    cases bare with
    | intro alone _ => cases alone _ _ (references_subset there)
  | inside further _ ih =>
    cases bare with
    | intro _ inside => exact ih (inside _ _ (references_subset there)) further same

/-- What is read from a document is reached in one way only. -/
theorem bare_of_sound {registry : Registry} {searched unbounded : Prop}
    {target : Option NodeClass} {o : Object}
    (sound : o.SoundThroughout registry searched unbounded target) : o.Bare := by
  induction sound with
  | @intro target o here inside ih =>
    have split : ∀ handle x, .object handle x ∈ o.targets →
        handle = none ∧ ∃ inner, o.Holds registry inner x := by
      intro handle x there
      rcases List.mem_append.mp there with there | there
      · obtain ⟨slot, among, there⟩ := List.mem_flatMap.mp there
        obtain ⟨place, found⟩ := List.mem_iff_getElem?.mp among
        obtain ⟨p, declared⟩ := here.filled.shaped.getElem?_layout found
        have slotSound := here.filled.slots place p slot declared found
        have within := List.mem_of_getElem? (getElem?_properties.mpr ⟨declared, found⟩)
        refine ⟨slotSound.handle_of_object there, _, .inSlot within ?_⟩
        exact Slot.mem_objects.mpr ⟨_, there, List.mem_singleton_self x⟩
      · obtain ⟨⟨key, values⟩, among, there⟩ := List.mem_flatMap.mp there
        obtain ⟨value, within, there⟩ := mem_extensionTargets.mp there
        have valueSound := (here.filled.extensions key values among).2 value within
        refine ⟨valueSound.handle_of_object there, none, .inExtension among within ?_⟩
        exact Extension.mem_objects.mpr ⟨_, there, List.mem_singleton_self x⟩
    refine .intro (fun handle x there => (split handle x there).1) fun handle x there => ?_
    obtain ⟨inner, holds⟩ := (split handle x there).2
    exact ih inner x holds

end Object

theorem Decoder.bare_of_decodeObject {d : Decoder} {path : Path} {target : Option NodeClass}
    {json : Json} {o : Object} (registered : ∀ t, target = some t → t ∈ d.registry.classes)
    (h : d.decodeObject path target json = .ok o) : o.Bare := by
  have reads := readsSoundly d True True json (.inl trivial)
  exact Object.bare_of_sound (reads.object path target o registered (.inl trivial) h)

/-- The shared objects of a workspace, under their handles. They refer to shared objects only, and
no handle from `next` on is in use. -/
structure Stock where
  table : Nat → Option Object
  next : Nat
  labelled : ∀ handle o, table handle = some o → o.Labelled table
  below : ∀ handle o, table handle = some o → handle < next

namespace Stock

def empty : Stock := ⟨fun _ => none, 0, nofun, nofun⟩

theorem closed (stock : Stock) : Closed stock.table := fun handle o there target inside =>
  stock.labelled handle o there target (Object.references_subset inside)

/-- Shared objects keep their handles in a later stock, and handles are given out in order. -/
structure Grows (stock later : Stock) : Prop where
  le : stock.next ≤ later.next
  same : ∀ handle < stock.next, later.table handle = stock.table handle

variable {stock later last : Stock}

theorem Grows.refl (stock : Stock) : stock.Grows stock := ⟨Nat.le_refl _, fun _ _ => rfl⟩

theorem Grows.trans (first : stock.Grows later) (second : later.Grows last) : stock.Grows last where
  le := Nat.le_trans first.le second.le
  same handle given :=
    (second.same handle (Nat.lt_of_lt_of_le given first.le)).trans (first.same handle given)

theorem Grows.eq_some (grows : stock.Grows later) {handle : Nat} {o : Object}
    (there : stock.table handle = some o) : later.table handle = some o :=
  (grows.same handle (stock.below handle o there)).trans there

end Stock

theorem Reference.Labelled.mono {table wider : Nat → Option Object} {target : Reference}
    (wide : ∀ handle o, table handle = some o → wider handle = some o)
    (labelled : target.Labelled table) : target.Labelled wider := by
  match target with
  | .object (some handle) o => exact wide handle o labelled
  | .object none o => exact labelled
  | .unset | .iri _ => trivial

theorem Object.Labelled.mono {table wider : Nat → Option Object} {o : Object}
    (wide : ∀ handle o, table handle = some o → wider handle = some o)
    (labelled : o.Labelled table) : o.Labelled wider :=
  fun target there => (labelled target there).mono wide

namespace Stock

variable {stock later : Stock}

theorem labelled_of_object (stock : Stock) {handle : Option Nat} {o : Object}
    (labelled : (Reference.object handle o).Labelled stock.table) : o.Labelled stock.table := by
  cases handle with
  | none => exact labelled.elim
  | some handle => exact stock.labelled handle o labelled

/-- A handle is given out before its object is known. -/
def skip (stock : Stock) : Stock where
  table := stock.table
  next := stock.next + 1
  labelled := stock.labelled
  below handle o there := Nat.lt_succ_of_lt (stock.below handle o there)

theorem grows_skip (stock : Stock) : stock.Grows stock.skip := ⟨Nat.le_succ _, fun _ _ => rfl⟩

/-- An object comes under a handle that was given out ahead of those below it. -/
theorem exists_put {o : Object} (grows : stock.skip.Grows later)
    (labelled : o.Labelled later.table) :
    ∃ filled : Stock, stock.Grows filled ∧ filled.next = later.next ∧
      filled.table stock.next = some o := by
  have free : later.table stock.next = none := by
    rw [grows.same stock.next (Nat.lt_succ_self _)]
    refine Option.eq_none_iff_forall_ne_some.mpr fun x there => ?_
    exact absurd (stock.below stock.next x there) (Nat.lt_irrefl _)
  have wide : ∀ handle x, later.table handle = some x →
      Function.update later.table stock.next (some o) handle = some x := by
    intro handle x there
    have other : handle ≠ stock.next := by
      rintro rfl
      cases free.symm.trans there
    rw [Function.update_of_ne other, there]
  refine ⟨⟨Function.update later.table stock.next (some o), later.next, fun handle x there => ?_,
    fun handle x there => ?_⟩, ⟨Nat.le_of_succ_le grows.le, fun handle given => ?_⟩, rfl,
    Function.update_self ..⟩
  case refine_1 =>
    by_cases same : handle = stock.next
    · subst same
      rw [Function.update_self] at there
      cases there
      exact labelled.mono wide
    · rw [Function.update_of_ne same] at there
      exact (later.labelled handle x there).mono wide
  case refine_2 =>
    by_cases same : handle = stock.next
    · rw [same]
      exact grows.le
    · rw [Function.update_of_ne same] at there
      exact later.below handle x there
  case refine_3 =>
    show Function.update later.table stock.next (some o) handle = stock.table handle
    rw [Function.update_of_ne (Nat.ne_of_lt given)]
    exact grows.same handle (Nat.lt_succ_of_lt given)

/-- The handles up to `next` can be given to shared objects so that these references are theirs. -/
def Labels (stock : Stock) (next : Nat) (targets : List Reference) : Prop :=
  ∃ later, stock.Grows later ∧ later.next = next ∧ ∀ target ∈ targets, target.Labelled later.table

variable {next : Nat} {targets more : List Reference}

theorem labels_self (each : ∀ target ∈ targets, target.Labelled stock.table) :
    stock.Labels stock.next targets := ⟨stock, .refl stock, rfl, each⟩

theorem labels_nil (stock : Stock) : stock.Labels stock.next [] := labels_self nofun

theorem Labels.append {after : Nat} (first : stock.Labels next targets)
    (rest : ∀ later, stock.Grows later → later.next = next → later.Labels after more) :
    stock.Labels after (targets ++ more) := by
  obtain ⟨later, grows, same, each⟩ := first
  obtain ⟨last, grows', same', each'⟩ := rest later grows same
  refine ⟨last, grows.trans grows', same', fun target there => ?_⟩
  rcases List.mem_append.mp there with there | there
  · exact (each target there).mono fun _ _ => grows'.eq_some
  · exact each' target there

/-- Elements are given handles one after the other. -/
theorem labels_sequence {α : Type} (give : α → Nat → α × Nat) (all : List α → Nat → List α × Nat)
    (targets : α → List Reference) (none : ∀ next, all [] next = ([], next))
    (cons : ∀ item items next, all (item :: items) next =
      ((give item next).1 :: (all items (give item next).2).1, (all items (give item next).2).2))
    {items : List α} (each : ∀ item ∈ items, ∀ stock : Stock,
      stock.Labels (give item stock.next).2 (targets (give item stock.next).1)) (stock : Stock) :
    stock.Labels (all items stock.next).2 ((all items stock.next).1.flatMap targets) := by
  induction items generalizing stock with
  | nil =>
    rw [none]
    exact stock.labels_nil
  | cons item items ih =>
    rw [cons, List.flatMap_cons]
    refine (each item List.mem_cons_self stock).append fun later _ same => ?_
    rw [← same]
    exact ih (fun item there => each item (List.mem_cons_of_mem _ there)) later

end Stock

/-! ## Copies of what was read -/

/-- Whatever handles have been given out, the next ones label all that the object refers to. -/
def Object.Relabels (o : Object) : Prop :=
  ∀ stock : Stock, stock.Labels (o.withHandles stock.next).2 (o.withHandles stock.next).1.targets

/-- A reference that carries no handle, to an object in which the next handles label everything. -/
def Reference.Relabels (target : Reference) : Prop :=
  ∀ handle x, target = .object handle x → handle = none ∧ x.Relabels

variable {stock : Stock}

theorem Reference.Relabels.labels_withHandles {target : Reference} (ready : target.Relabels)
    (stock : Stock) :
    stock.Labels (target.withHandles stock.next).2 [(target.withHandles stock.next).1] := by
  match target with
  | .unset | .iri _ => exact Stock.labels_self (List.forall_mem_singleton.mpr trivial)
  | .object handle x =>
    obtain ⟨rfl, relabels⟩ := ready handle x rfl
    obtain ⟨later, grows, same, each⟩ := relabels stock.skip
    obtain ⟨filled, grows, kept, there⟩ := Stock.exists_put grows each
    rw [withHandles]
    exact ⟨filled, grows, kept.trans same, List.forall_mem_singleton.mpr there⟩

theorem labels_handlesInReferences {targets : List Reference}
    (ready : ∀ target ∈ targets, target.Relabels) (stock : Stock) :
    stock.Labels (handlesInReferences targets stock.next).2
      (handlesInReferences targets stock.next).1 := by
  have labels := Stock.labels_sequence Reference.withHandles handlesInReferences ([·])
    (fun _ => rfl) (fun _ _ _ => rfl)
    (fun target there => (ready target there).labels_withHandles) stock
  rwa [List.flatMap_singleton'] at labels

theorem Slot.labels_withHandles {slot : Slot} (ready : ∀ target ∈ slot.targets, target.Relabels)
    (stock : Stock) :
    stock.Labels (slot.withHandles stock.next).2 (slot.withHandles stock.next).1.targets := by
  cases slot with
  | scalar | list => exact stock.labels_nil
  | reference target => exact (ready target List.mem_cons_self).labels_withHandles stock
  | references targets => exact labels_handlesInReferences ready stock

theorem extensionTargets_eq (values : List Extension) :
    extensionTargets values = values.flatMap Extension.targets := by
  induction values with
  | nil => rfl
  | cons value values ih => rw [extensionTargets, ih, List.flatMap_cons]

theorem labels_handlesInValues {values : List Extension}
    (each : ∀ value ∈ values, ∀ stock : Stock,
      stock.Labels (value.withHandles stock.next).2 (value.withHandles stock.next).1.targets)
    (stock : Stock) : stock.Labels (handlesInValues values stock.next).2
      (extensionTargets (handlesInValues values stock.next).1) := by
  rw [extensionTargets_eq]
  exact Stock.labels_sequence Extension.withHandles handlesInValues Extension.targets
    (fun _ => rfl) (fun _ _ _ => rfl) each stock

theorem Extension.labels_withHandles {value : Extension}
    (ready : ∀ target ∈ value.targets, target.Relabels) (stock : Stock) :
    stock.Labels (value.withHandles stock.next).2 (value.withHandles stock.next).1.targets := by
  induction value using Extension.induct generalizing stock with
  | reference target => exact (ready target List.mem_cons_self).labels_withHandles stock
  | string | integer | float | boolean => exact stock.labels_nil
  | list values ih =>
    refine labels_handlesInValues (fun value there => ih value there fun target inside => ?_) stock
    exact ready target (mem_extensionTargets.mpr ⟨value, there, inside⟩)

/-- A copy of what was read shares all that the object refers to. -/
theorem Object.Bare.relabels {o : Object} (bare : o.Bare) : o.Relabels := by
  induction bare with
  | @intro o alone _ ih =>
    have ready : ∀ target ∈ o.targets, target.Relabels := by
      rintro target there handle x rfl
      exact ⟨alone handle x there, ih handle x there⟩
    have inSlots : ∀ slot ∈ o.slots, ∀ stock : Stock,
        stock.Labels (slot.withHandles stock.next).2 (slot.withHandles stock.next).1.targets :=
      fun slot among => Slot.labels_withHandles fun target inside =>
        ready target (List.mem_append_left _ (List.mem_flatMap.mpr ⟨slot, among, inside⟩))
    have inMembers : ∀ m ∈ o.extensions, ∀ stock : Stock,
        stock.Labels (handlesInValues m.2 stock.next).2
          (extensionTargets (handlesInValues m.2 stock.next).1) := by
      refine fun m among => labels_handlesInValues fun value within => ?_
      refine Extension.labels_withHandles fun target inside => ?_
      refine ready target (List.mem_append_right _ (List.mem_flatMap.mpr ⟨m, among, ?_⟩))
      exact mem_extensionTargets.mpr ⟨value, within, inside⟩
    obtain ⟨cls, id, observedType, slots, extensions⟩ := o
    intro stock
    have first := Stock.labels_sequence Slot.withHandles handlesInSlots Slot.targets
      (fun _ => rfl) (fun _ _ _ => rfl) inSlots stock
    refine first.append fun later _ same => ?_
    show later.Labels (handlesInMembers extensions (handlesInSlots slots stock.next).2).2
      ((handlesInMembers extensions (handlesInSlots slots stock.next).2).1.flatMap _)
    rw [← same]
    exact Stock.labels_sequence
      (fun m next => ((m.1, (handlesInValues m.2 next).1), (handlesInValues m.2 next).2))
      handlesInMembers (extensionTargets ·.2) (fun _ => rfl) (fun _ _ _ => rfl) inMembers later

end ShapedGraph
