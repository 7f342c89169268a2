import ShapedGraph.Graph.Basic
import ShapedGraph.Proofs.Reach

/-! Which references lead to which others, and graphs whose handles say what is shared: references
that carry one handle lead to one object, and what a shared object refers to is shared with it. -/

namespace ShapedGraph

mutual

/-- The references in a value of an undeclared member, in its lists too. -/
def Extension.targets : Extension → List Reference
  | .reference target => [target]
  | .list values => extensionTargets values
  | _ => []
termination_by structural value => value

def extensionTargets : List Extension → List Reference
  | [] => []
  | value :: values => value.targets ++ extensionTargets values
termination_by structural values => values

end

theorem mem_extensionTargets {values : List Extension} {target : Reference} :
    target ∈ extensionTargets values ↔ ∃ value ∈ values, target ∈ value.targets := by
  induction values with
  | nil => simp [extensionTargets]
  | cons value values ih => simp [extensionTargets, ih]

theorem Extension.mem_objects {value : Extension} {x : Object} :
    x ∈ value.objects ↔ ∃ target ∈ value.targets, x ∈ target.objects := by
  induction value using Extension.induct with
  | reference target => simp [objects, targets]
  | string | integer | float | boolean => simp [objects, targets]
  | list values ih =>
    rw [objects, targets, mem_extensionObjects]
    constructor
    · rintro ⟨value, among, inside⟩
      obtain ⟨target, there, held⟩ := (ih value among).mp inside
      exact ⟨target, mem_extensionTargets.mpr ⟨value, among, there⟩, held⟩
    · rintro ⟨target, there, held⟩
      obtain ⟨value, among, there⟩ := mem_extensionTargets.mp there
      exact ⟨value, among, (ih value among).mpr ⟨target, there, held⟩⟩

namespace Object

/-- The references in the slots of an object, in layout order, and after them those in its
undeclared members, if they are wanted. -/
def references (undeclared : Bool) (o : Object) : List Reference :=
  (o.properties.flatMap fun (_, slot) => slot.targets) ++
    if undeclared then o.extensions.flatMap fun (_, values) => extensionTargets values else []

variable {undeclared : Bool} {o : Object} {target : Reference}

theorem mem_references_of_slot {p : Property} {slot : Slot} (there : (p, slot) ∈ o.properties)
    (inside : target ∈ slot.targets) : target ∈ o.references undeclared :=
  List.mem_append_left _ (List.mem_flatMap.mpr ⟨(p, slot), there, inside⟩)

theorem mem_references_of_extension {key : String} {values : List Extension} {value : Extension}
    (there : (key, values) ∈ o.extensions) (among : value ∈ values)
    (inside : target ∈ value.targets) : target ∈ o.references true := by
  refine List.mem_append_right _ (List.mem_flatMap.mpr ⟨(key, values), there, ?_⟩)
  exact mem_extensionTargets.mpr ⟨value, among, inside⟩

theorem mem_references_true (there : target ∈ o.references undeclared) :
    target ∈ o.references true := by
  rcases List.mem_append.mp there with there | there
  · exact List.mem_append_left _ there
  · cases undeclared with
    | true => exact List.mem_append_right _ there
    | false => cases there

theorem mem_held_of_references {x : Object} (there : target ∈ o.references undeclared)
    (inside : x ∈ target.objects) : x ∈ o.held true := by
  rcases List.mem_append.mp (mem_references_true there) with there | there
  · obtain ⟨⟨p, slot⟩, among, there⟩ := List.mem_flatMap.mp there
    refine List.mem_append_left _ (List.mem_flatMap.mpr ⟨slot, (List.of_mem_zip among).2, ?_⟩)
    exact Slot.mem_objects.mpr ⟨target, there, inside⟩
  · obtain ⟨⟨key, values⟩, among, there⟩ := List.mem_flatMap.mp there
    obtain ⟨value, within, there⟩ := mem_extensionTargets.mp there
    refine List.mem_append_right _ (List.mem_flatMap.mpr ⟨(key, values), among, ?_⟩)
    refine mem_extensionObjects.mpr ⟨value, within, ?_⟩
    exact Extension.mem_objects.mpr ⟨target, there, inside⟩

end Object

namespace Reference

/-- A reference leads to itself, and one to an object leads to all that those inside it lead to. -/
inductive LeadsTo (undeclared : Bool) : Reference → Reference → Prop where
  | here (target : Reference) : LeadsTo undeclared target target
  | inside {handle : Option Nat} {o : Object} {inner found : Reference}
    (there : inner ∈ o.references undeclared) (further : LeadsTo undeclared inner found) :
    LeadsTo undeclared (.object handle o) found

variable {undeclared : Bool} {target middle found : Reference}

theorem LeadsTo.trans (first : target.LeadsTo undeclared middle)
    (second : middle.LeadsTo undeclared found) : target.LeadsTo undeclared found := by
  induction first with
  | here => exact second
  | inside there _ ih => exact .inside there (ih second)

/-- What is reached through slots is reached if undeclared members are followed too. -/
theorem LeadsTo.widen (leads : target.LeadsTo undeclared found) : target.LeadsTo true found := by
  induction leads with
  | here target => exact .here target
  | inside there _ ih => exact .inside (Object.mem_references_true there) ih

/-- Nothing that an object refers to leads back to it. -/
theorem not_leadsTo_outer {handle : Option Nat} {o : Object}
    (there : target ∈ o.references undeclared) :
    ¬ target.LeadsTo undeclared (.object handle o) := by
  -- A way back to `o` would also be a way from an object inside `o` back to that object.
  induction o using Object.induct generalizing handle target with
  | step o ih =>
    intro back
    cases back with
    | here =>
      exact ih o (Object.mem_held_of_references there List.mem_cons_self) there (.here _)
    | @inside outer x inner _ among further =>
      have around : inner.LeadsTo undeclared (.object outer x) :=
        further.trans (.inside there (.here _))
      exact ih x (Object.mem_held_of_references there List.mem_cons_self) among around

end Reference

namespace Graph

/-- A reference stands in the graph: a root is reached by it, or something that a root leads to
holds it. -/
def Reaches (undeclared : Bool) (graph : Graph) (found : Reference) : Prop :=
  ∃ root ∈ graph.roots, root.reference.LeadsTo undeclared found

variable {graph : Graph}

theorem Reaches.further {undeclared : Bool} {handle : Option Nat} {o : Object}
    {target found : Reference} (reached : graph.Reaches undeclared (.object handle o))
    (there : target ∈ o.references undeclared) (leads : target.LeadsTo undeclared found) :
    graph.Reaches undeclared found := by
  obtain ⟨root, top, first⟩ := reached
  exact ⟨root, top, first.trans (.inside there leads)⟩

theorem Reaches.widen {undeclared : Bool} {found : Reference}
    (reached : graph.Reaches undeclared found) : graph.Reaches true found := by
  obtain ⟨root, there, leads⟩ := reached
  exact ⟨root, there, leads.widen⟩

/-- The handles of a graph say what is shared in it. -/
structure Coherent (graph : Graph) : Prop where
  /-- References with the same handle lead to the same object. -/
  same : ∀ handle o o', graph.Reaches true (.object (some handle) o) →
    graph.Reaches true (.object (some handle) o') → o = o'
  /-- Wherever a shared object is reached, what it refers to is reached again, so this is shared. -/
  labelled : ∀ handle o inner o', graph.Reaches true (.object (some handle) o) →
    .object inner o' ∈ o.references true → inner ≠ none

/-- Everything below a shared object is shared. -/
theorem Coherent.shared_below (coherent : graph.Coherent) {handle : Nat} {o x : Object}
    {inner : Option Nat} {target : Reference}
    (reached : graph.Reaches true (.object (some handle) o)) (there : target ∈ o.references true)
    (leads : target.LeadsTo true (.object inner x)) : inner ≠ none := by
  generalize same : Reference.object inner x = found at leads
  induction leads generalizing handle o with
  | here =>
    subst same
    exact coherent.labelled handle o inner x reached there
  | @inside outer y next found among further ih =>
    have shared := coherent.labelled handle o outer y reached there
    obtain ⟨label, rfl⟩ := Option.ne_none_iff_exists'.mp shared
    exact ih (reached.further there (.here _)) among same

end Graph

/-! ## Graphs over a table of shared objects -/

/-- The reference is not to an object, or to the one that a table has for its handle. -/
def Reference.Labelled (table : Nat → Option Object) : Reference → Prop
  | .object (some handle) o => table handle = some o
  | .object none _ => False
  | _ => True

/-- The objects of a table refer to objects of the table only. -/
def Closed (table : Nat → Option Object) : Prop :=
  ∀ handle o, table handle = some o → ∀ target ∈ o.references true, target.Labelled table

/-- No reference to the object or inside it has a handle. -/
def Object.Unlabelled (o : Object) : Prop :=
  ∀ target ∈ o.references true, ∀ handle x, ¬ target.LeadsTo true (.object (some handle) x)

variable {table : Nat → Option Object}

theorem Reference.LeadsTo.labelled {target found : Reference} (closed : Closed table)
    (leads : target.LeadsTo true found) (labelled : target.Labelled table) :
    found.Labelled table := by
  induction leads with
  | here => exact labelled
  | @inside handle o inner found there further ih =>
    cases handle with
    | none => exact labelled.elim
    | some handle => exact ih (closed handle o labelled inner there)

namespace Graph

variable {graph : Graph}

/-- A root is an object of the table, or nothing in it has a handle. -/
def BasedOn (table : Nat → Option Object) (graph : Graph) : Prop :=
  ∀ root ∈ graph.roots,
    root.reference.Labelled table ∨ root.handle = none ∧ root.object.Unlabelled

theorem BasedOn.eq_some (based : graph.BasedOn table) (closed : Closed table) {handle : Nat}
    {o : Object} (reached : graph.Reaches true (.object (some handle) o)) :
    table handle = some o := by
  obtain ⟨root, there, leads⟩ := reached
  rcases based root there with labelled | ⟨unlabelled, inside⟩
  · exact leads.labelled closed labelled
  · rw [Root.reference, unlabelled] at leads
    cases leads with
    | inside there further => exact absurd further (inside _ there handle o)

theorem BasedOn.coherent (based : graph.BasedOn table) (closed : Closed table) :
    graph.Coherent where
  same handle o o' reached reached' := by
    have first := based.eq_some closed reached
    exact Option.some.inj (first.symm.trans (based.eq_some closed reached'))
  labelled handle o inner x reached there := by
    have labelled := closed handle o (based.eq_some closed reached) _ there
    rintro rfl
    exact labelled

end Graph

end ShapedGraph
