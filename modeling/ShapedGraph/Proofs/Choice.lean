import ShapedGraph.Object.Decode
import ShapedGraph.Proofs.Outcome
import ShapedGraph.Proofs.Registry

/-! The class that an object is read by: the three ways in which its type name and its place come
to one, and the order in which candidates are tried. -/

namespace ShapedGraph

namespace Registry

variable {c d : NodeClass} {classes : List NodeClass}

theorem mem_insertByIri : d ∈ insertByIri c classes ↔ d = c ∨ d ∈ classes := by
  induction classes with
  | nil => simp [insertByIri]
  | cons e rest ih =>
    rw [insertByIri]
    split
    · exact List.mem_cons
    · rw [List.mem_cons, ih, List.mem_cons, or_left_comm]

/-- The classes are in ascending order of IRI. -/
def Ascending (classes : List NodeClass) : Prop := classes.Pairwise fun c d => c.iri ≤ d.iri

theorem ascending_insertByIri (ascending : Ascending classes) :
    Ascending (insertByIri c classes) := by
  induction classes with
  | nil => exact List.pairwise_singleton _ _
  | cons d rest ih =>
    obtain ⟨first, tail⟩ := List.pairwise_cons.mp ascending
    rw [insertByIri]
    split
    · rename_i le
      refine List.pairwise_cons.mpr ⟨fun e he => ?_, ascending⟩
      rcases List.mem_cons.mp he with rfl | he
      · exact le
      · exact String.le_trans le (first e he)
    · rename_i notLe
      refine List.pairwise_cons.mpr ⟨fun e he => ?_, ih tail⟩
      rcases mem_insertByIri.mp he with rfl | he
      · exact (String.le_total _ _).resolve_left notLe
      · exact first e he

theorem mem_candidates {registry : Registry} {target : Option NodeClass} :
    c ∈ registry.candidates target ↔ c ∈ registry.classes ∧ c.isExtensible = true ∧
      c.isAbstract = false ∧ ∀ t, target = some t → c.isSubclassOf t.iri = true := by
  have sorting : ∀ classes : List NodeClass,
      c ∈ classes.foldr insertByIri [] ↔ c ∈ classes := by
    intro classes
    induction classes with
    | nil => rfl
    | cons d rest ih => rw [List.foldr_cons, mem_insertByIri, ih, List.mem_cons]
  rw [candidates, sorting, List.mem_filter]
  cases target <;> simp [and_assoc]

theorem ascending_candidates (registry : Registry) (target : Option NodeClass) :
    Ascending (registry.candidates target) := by
  have sorting : ∀ classes : List NodeClass, Ascending (classes.foldr insertByIri []) := by
    intro classes
    induction classes with
    | nil => exact List.Pairwise.nil
    | cons d rest ih => exact ascending_insertByIri ih
  exact sorting _

/-- The type name of an object comes to a class at a place: it is registered, or the place asks for
an extensible class, or the class is found by a search, if there may have been one. -/
inductive Chosen (registry : Registry) (searched : Prop) (target : Option NodeClass)
    (type : String) (cls : NodeClass) : Prop where
  | named (known : registry.get? type = some cls)
    (fits : ∀ t, target = some t → cls.isSubclassOf t.iri = true)
    (concrete : cls.isAbstract = false)
  | wanted (unknown : registry.get? type = none) (wanted : target = some cls)
    (extensible : cls.isExtensible = true)
  | found (search : searched) (unknown : registry.get? type = none) (shaped : isIri type = true)
    (closed : ∀ t, target = some t → t.isExtensible = false)
    (candidate : cls ∈ registry.candidates target)

variable {registry : Registry} {searched : Prop} {target : Option NodeClass} {type : String}

theorem Chosen.mem_classes (h : Chosen registry searched target type c)
    (registered : ∀ t, target = some t → t ∈ registry.classes) : c ∈ registry.classes := by
  cases h with
  | named known => exact mem_of_get? known
  | wanted _ wanted => exact registered c wanted
  | found _ _ _ _ candidate => exact (mem_candidates.mp candidate).1

/-- The type name settles the class at a place: it is registered, or the place asks for an
extensible class. -/
def Settles (registry : Registry) (target : Option NodeClass) (type : String) (cls : NodeClass) :
    Prop :=
  registry.get? type = some cls ∨
    registry.get? type = none ∧ target = some cls ∧ cls.isExtensible = true

theorem Chosen.eq_of_settles {cls : NodeClass} (h : Chosen registry searched target type c)
    (settles : Settles registry target type cls) : c = cls := by
  rcases settles with known | ⟨unknown, wanted, extensible⟩
  · cases h with
    | named known' => exact Option.some.inj (known'.symm.trans known)
    | wanted unknown => cases unknown.symm.trans known
    | found _ unknown => cases unknown.symm.trans known
  · cases h with
    | named known => cases unknown.symm.trans known
    | wanted _ wanted' => exact Option.some.inj (wanted'.symm.trans wanted)
    | found _ _ _ closed => cases extensible.symm.trans (closed cls wanted)

end Registry

namespace Decoder

open Registry (Chosen)

variable {d : Decoder} {path : Path} {type : String} {target : Option NodeClass} {cls : NodeClass}
  {searched : Prop}

/-- All that the choice can come to: one class, or classes to try for a name that is not registered,
at a place that asks for no extensible class. -/
theorem choose_eq_ok (searched : Prop) {choice : Choice}
    (h : d.choose path type target = .ok choice) :
    (∃ cls, choice = .only cls ∧ Chosen d.registry searched target type cls) ∨
      d.registry.get? type = none ∧ (∀ t, target = some t → t.isExtensible = false) ∧
        choice = .firstOf (if isIri type then d.registry.candidates target else []) := by
  unfold choose at h
  cases known : d.registry.get? type with
  | some named =>
    simp only [known] at h
    cases fits : target.filter (fun t => !named.isSubclassOf t.iri) with
    | some t =>
      rw [fits] at h
      cases h
    | none =>
      simp only [fits] at h
      split at h
      · cases h
      · rename_i concrete
        cases h
        refine .inl ⟨named, rfl, .named known (fun t ht => ?_) (by simpa using concrete)⟩
        simpa using Option.filter_eq_none_iff.mp fits t ht
  | none =>
    rw [known] at h
    cases target with
    | none =>
      cases h
      exact .inr ⟨rfl, nofun, rfl⟩
    | some t =>
      simp only at h
      split at h
      · rename_i extensible
        cases h
        exact .inl ⟨t, rfl, .wanted known rfl extensible⟩
      · rename_i closed
        cases h
        refine .inr ⟨rfl, fun t' ht => ?_, rfl⟩
        cases ht
        simpa using closed

theorem chosen_of_only (h : d.choose path type target = .ok (.only cls)) :
    Chosen d.registry searched target type cls := by
  obtain ⟨_, same, chosen⟩ | ⟨-, -, same⟩ := choose_eq_ok searched h
  · cases same
    exact chosen
  · cases same

/-- Classes are tried only for a name that is not registered, at a place that asks for no extensible
class. -/
theorem found_of_firstOf {candidates : List NodeClass}
    (h : d.choose path type target = .ok (.firstOf candidates)) (among : cls ∈ candidates) :
    d.registry.get? type = none ∧ isIri type = true ∧
      (∀ t, target = some t → t.isExtensible = false) ∧
        candidates = d.registry.candidates target := by
  obtain ⟨_, same, -⟩ | ⟨unknown, closed, same⟩ := choose_eq_ok True h
  · cases same
  · cases same
    by_cases shaped : isIri type = true
    · exact ⟨unknown, shaped, closed, if_pos shaped⟩
    · rw [if_neg shaped] at among
      cases among

/-- A name that is not registered is searched for at a place that asks for no extensible class. -/
theorem choose_eq_firstOf (path : Path) (unknown : d.registry.get? type = none)
    (shaped : isIri type = true) (closed : ∀ t, target = some t → t.isExtensible = false) :
    d.choose path type target = .ok (.firstOf (d.registry.candidates target)) := by
  unfold choose
  rw [unknown]
  cases target with
  | none => simp [shaped]
  | some t => simp [shaped, closed t rfl]

/-- A class that the type name comes to is the only one to read by, or one of those that are
tried. -/
theorem choose_of_chosen (path : Path) (h : Chosen d.registry searched target type cls) :
    d.choose path type target = .ok (.only cls) ∨
      searched ∧ cls ∈ d.registry.candidates target ∧
        d.choose path type target = .ok (.firstOf (d.registry.candidates target)) := by
  cases h with
  | named known fits concrete =>
    left
    unfold choose
    rw [known]
    simp only
    have none : target.filter (fun t => !cls.isSubclassOf t.iri) = none :=
      Option.filter_eq_none_iff.mpr fun t ht => by simpa using fits t ht
    rw [none]
    simp [concrete]
  | wanted unknown wanted extensible =>
    left
    unfold choose
    rw [unknown, wanted]
    exact if_pos extensible
  | found search unknown shaped closed candidate =>
    exact .inr ⟨search, candidate, choose_eq_firstOf path unknown shaped closed⟩

end Decoder

end ShapedGraph
