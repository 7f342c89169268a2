import Mathlib.Data.List.Flatten
import ShapedGraph.Proofs.Nesting

/-! All objects inside an object, at every depth, with or without those that stand in undeclared
members. -/

namespace ShapedGraph

mutual

/-- The object and every object inside it, with those in undeclared members if they are wanted. -/
def Object.within (undeclared : Bool) (o : Object) : List Object :=
  match o with
  | ⟨cls, id, observedType, slots, extensions⟩ =>
    ⟨cls, id, observedType, slots, extensions⟩ :: (slotsWithin undeclared slots ++
      if undeclared then extensionsWithin undeclared extensions else [])
termination_by structural o

def slotsWithin (undeclared : Bool) (slots : List Slot) : List Object :=
  match slots with
  | [] => []
  | slot :: slots => slot.within undeclared ++ slotsWithin undeclared slots
termination_by structural slots

def Slot.within (undeclared : Bool) (slot : Slot) : List Object :=
  match slot with
  | .reference target => target.within undeclared
  | .references targets => referencesWithin undeclared targets
  | _ => []
termination_by structural slot

def Reference.within (undeclared : Bool) (target : Reference) : List Object :=
  match target with
  | .object _ o => o.within undeclared
  | _ => []
termination_by structural target

def referencesWithin (undeclared : Bool) (targets : List Reference) : List Object :=
  match targets with
  | [] => []
  | target :: targets => target.within undeclared ++ referencesWithin undeclared targets
termination_by structural targets

def extensionsWithin (undeclared : Bool) (extensions : List (String × List Extension)) :
    List Object :=
  match extensions with
  | [] => []
  | (_, values) :: extensions =>
    valuesWithin undeclared values ++ extensionsWithin undeclared extensions
termination_by structural extensions

def valuesWithin (undeclared : Bool) (values : List Extension) : List Object :=
  match values with
  | [] => []
  | value :: values => value.within undeclared ++ valuesWithin undeclared values
termination_by structural values

def Extension.within (undeclared : Bool) (value : Extension) : List Object :=
  match value with
  | .reference target => target.within undeclared
  | .list values => valuesWithin undeclared values
  | _ => []
termination_by structural value

end

namespace Object

/-- The objects that the slots hold directly. -/
def declaredObjects (o : Object) : List Object := o.slots.flatMap Slot.objects

/-- The objects that the undeclared members hold directly. -/
def undeclaredObjects (o : Object) : List Object :=
  o.extensions.flatMap fun extension => extensionObjects extension.2

/-- The objects that are held directly, in undeclared members too if they are wanted. -/
def held (undeclared : Bool) (o : Object) : List Object :=
  match undeclared with
  | true => o.declaredObjects ++ o.undeclaredObjects
  | false => o.declaredObjects

end Object

section

variable (undeclared : Bool)

theorem Reference.within_eq (target : Reference) :
    target.within undeclared = target.objects.flatMap (Object.within undeclared) := by
  cases target <;> simp [Reference.within, objects]

theorem referencesWithin_eq (targets : List Reference) : referencesWithin undeclared targets =
    (targets.flatMap Reference.objects).flatMap (Object.within undeclared) := by
  induction targets with
  | nil => rfl
  | cons target targets ih =>
    rw [referencesWithin, Reference.within_eq, ih, List.flatMap_cons, List.flatMap_append]

theorem slotsWithin_eq (slots : List Slot) : slotsWithin undeclared slots =
    (slots.flatMap Slot.objects).flatMap (Object.within undeclared) := by
  induction slots with
  | nil => rfl
  | cons slot slots ih =>
    have here : slot.within undeclared = slot.objects.flatMap (Object.within undeclared) := by
      cases slot with
      | scalar | list => rfl
      | reference target => exact Reference.within_eq undeclared target
      | references targets => exact referencesWithin_eq undeclared targets
    rw [slotsWithin, here, ih, List.flatMap_cons, List.flatMap_append]

theorem Extension.within_eq (value : Extension) :
    value.within undeclared = value.objects.flatMap (Object.within undeclared) := by
  induction value using Extension.induct with
  | reference target => exact Reference.within_eq undeclared target
  | string | integer | float | boolean => rfl
  | list values ih =>
    rw [Extension.within, objects]
    induction values with
    | nil => rfl
    | cons value values rest =>
      obtain ⟨here, later⟩ := List.forall_mem_cons.mp ih
      rw [valuesWithin, here, rest later, extensionObjects, List.flatMap_append]

theorem valuesWithin_eq (values : List Extension) : valuesWithin undeclared values =
    (extensionObjects values).flatMap (Object.within undeclared) :=
  Extension.within_eq undeclared (.list values)

theorem extensionsWithin_eq (extensions : List (String × List Extension)) :
    extensionsWithin undeclared extensions =
      (extensions.flatMap fun extension => extensionObjects extension.2).flatMap
        (Object.within undeclared) := by
  induction extensions with
  | nil => rfl
  | cons extension extensions ih =>
    rw [extensionsWithin, valuesWithin_eq, ih, List.flatMap_cons, List.flatMap_append]

theorem Object.within_eq (o : Object) :
    o.within undeclared = o :: (o.held undeclared).flatMap (Object.within undeclared) := by
  obtain ⟨cls, id, observedType, slots, extensions⟩ := o
  rw [Object.within, slotsWithin_eq]
  cases undeclared with
  | false => exact congrArg _ (List.append_nil _)
  | true =>
    rw [if_pos rfl, extensionsWithin_eq, held, List.flatMap_append]
    rfl

end

namespace Object

/-- Induction over the objects that an object holds directly. -/
@[elab_as_elim]
theorem induct {motive : Object → Prop} (step : ∀ o, (∀ x ∈ o.held true, motive x) → motive o)
    (o : Object) : motive o :=
  @Object.rec motive (fun slot => ∀ x ∈ slot.objects, motive x)
    (fun target => ∀ x ∈ target.objects, motive x) (fun value => ∀ x ∈ value.objects, motive x)
    (fun slots => ∀ x ∈ slots.flatMap Slot.objects, motive x)
    (fun extensions => ∀ x ∈ extensions.flatMap fun extension : String × List Extension =>
      extensionObjects extension.2, motive x)
    (fun targets => ∀ x ∈ targets.flatMap Reference.objects, motive x)
    (fun values => ∀ x ∈ extensionObjects values, motive x)
    (fun extension => ∀ x ∈ extensionObjects extension.2, motive x)
    (fun _ _ _ _ _ slots extensions => step _ fun x hx =>
      (List.mem_append.mp hx).elim (slots x) (extensions x))
    (fun _ => nofun) (fun _ => nofun) (fun _ inside => inside) (fun _ inside => inside)
    nofun (fun _ => nofun) (fun _ _ here _ hx => List.mem_singleton.mp hx ▸ here)
    (fun _ inside => inside) (fun _ => nofun) (fun _ => nofun) (fun _ => nofun) (fun _ => nofun)
    (fun _ inside => inside)
    nofun (fun _ _ head tail x hx => (List.mem_append.mp hx).elim (head x) (tail x))
    nofun (fun _ _ head tail x hx => (List.mem_append.mp hx).elim (head x) (tail x))
    nofun (fun _ _ head tail x hx => (List.mem_append.mp hx).elim (head x) (tail x))
    nofun (fun _ _ head tail x hx => (List.mem_append.mp hx).elim (head x) (tail x))
    (fun _ _ inside => inside) o

theorem length_eq_of_flatMap {α β : Type} {l : List α} {f g : α → List β}
    (each : ∀ x ∈ l, (f x).length ≤ (g x).length)
    (same : (l.flatMap f).length = (l.flatMap g).length) :
    ∀ x ∈ l, (f x).length = (g x).length := by
  have le : ∀ l : List α, (∀ x ∈ l, (f x).length ≤ (g x).length) →
      (l.flatMap f).length ≤ (l.flatMap g).length := by
    intro l each
    induction l with
    | nil => exact Nat.le_refl _
    | cons x l ih =>
      obtain ⟨here, later⟩ := List.forall_mem_cons.mp each
      have := ih later
      simp only [List.flatMap_cons, List.length_append]
      omega
  induction l with
  | nil => exact nofun
  | cons x l ih =>
    obtain ⟨here, later⟩ := List.forall_mem_cons.mp each
    have rest := le l later
    simp only [List.flatMap_cons, List.length_append] at same
    exact List.forall_mem_cons.mpr ⟨by omega, ih later (by omega)⟩

/-- Without undeclared members there are no more objects than with them. -/
theorem within_sublist (o : Object) : (o.within false).Sublist (o.within true) := by
  induction o using Object.induct with
  | step o ih =>
    rw [within_eq, within_eq, held, held, List.flatMap_append]
    refine .cons_cons o (.trans (List.Sublist.flatMap_right _ fun x hx => ?_)
      (List.sublist_append_left _ _))
    exact ih x (List.mem_append_left _ hx)

/-- If no object has another in an undeclared member, nothing is left out without them. -/
theorem within_eq_of_undeclaredObjects {o : Object}
    (none : ∀ x ∈ o.within false, x.undeclaredObjects = []) :
    o.within false = o.within true := by
  induction o using Object.induct with
  | step o ih =>
    rw [within_eq] at none
    obtain ⟨here, inside⟩ := List.forall_mem_cons.mp none
    rw [within_eq, within_eq, held, held, here, List.append_nil]
    have each : ∀ x ∈ o.declaredObjects, x.within false = x.within true := fun x hx =>
      ih x (List.mem_append_left _ hx) fun y hy => inside y (List.mem_flatMap.mpr ⟨x, hx, hy⟩)
    rw [List.flatMap_def, List.flatMap_def, List.map_congr_left each]

/-- If as many objects are there without undeclared members as with them, none of these objects has
another in an undeclared member. -/
theorem undeclaredObjects_of_length_eq {o : Object}
    (same : (o.within false).length = (o.within true).length) :
    ∀ x ∈ o.within false, x.undeclaredObjects = [] := by
  induction o using Object.induct with
  | step o ih =>
    have le : ∀ x ∈ o.declaredObjects, (x.within false).length ≤ (x.within true).length :=
      fun x _ => x.within_sublist.length_le
    have declared :=
      (List.Sublist.flatMap_right o.declaredObjects fun x _ => x.within_sublist).length_le
    rw [within_eq, within_eq] at same
    simp only [held, List.flatMap_append, List.length_cons, List.length_append] at same
    rw [within_eq]
    refine List.forall_mem_cons.mpr ⟨?_, fun y hy => ?_⟩
    · cases entries : o.undeclaredObjects with
      | nil => rfl
      | cons x rest =>
        rw [entries, List.flatMap_cons, within_eq] at same
        simp only [List.length_append, List.length_cons] at same
        omega
    · obtain ⟨x, hx, hy⟩ := List.mem_flatMap.mp hy
      have equal := length_eq_of_flatMap le (by omega) x hx
      exact ih x (List.mem_append_left _ hx) equal y hy

end Object

end ShapedGraph
