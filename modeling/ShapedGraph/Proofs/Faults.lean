import ShapedGraph.Proofs.WalkOrder

/-! The faults of a graph as a list, said without a handler: for each object that a walk enters, the
fault of its identifier, then for each property those of its values and that of their number.
Validation tells any handler of exactly these, in this order. -/

namespace ShapedGraph

namespace Validator

/-- The faults of a value, one for each validator that it fails. -/
def faults (chain : List Validator) (name : String) (found : Located Scalar) :
    List (Located ValidationError) :=
  chain.filterMap fun validator => (validator.check name found.value).map (⟨found.path, ·⟩)

end Validator

namespace Slot

/-- The stored values of a property at a path: a single one at that path, and those of a list each
at its own position. -/
def values (path : Path) : Slot → List (Located Scalar)
  | .scalar value => (value.map (⟨path, ·⟩)).toList
  | .list values => values.zipIdx.map fun (value, position) => ⟨path.item position, value⟩
  | _ => []

/-- What is wrong with the number of values: a list has fewer than the least number of them, or
otherwise more than the greatest; or a single value that there must be is not set. -/
def numberReason? (p : Property) (slot : Slot) : Option Reason :=
  match p.isList with
  | true => ((p.minCount.filter (slot.length < ·)).map Reason.tooFew).or
    ((p.maxCount.filter (· < slot.length)).map Reason.tooMany)
  | false => if p.minCount.getD 0 > 0 ∧ slot.isSet = false then some .required else none

/-- The faults of a property at a path: those of its values, then that of their number. -/
def faults (p : Property) (path : Path) (slot : Slot) : List (Located ValidationError) :=
  (slot.values path).flatMap (Validator.faults p.chain p.name) ++
    ((slot.numberReason? p).map (⟨path, ⟨p.name, ·⟩⟩)).toList

end Slot

namespace NodeKind

/-- The texts that identify nodes of the kind. -/
def identifies : NodeKind → String → Bool
  | .blankNode => isBlankNode
  | .iri => isIri
  | .either => isIdentifier

/-- An identifier does not fit the kind: it is not one of its texts, or there is none although the
kind is the one of IRIs. -/
def Breaks (kind : NodeKind) (id : Option String) : Prop :=
  (∃ text, id = some text ∧ kind.identifies text = false) ∨ kind = .iri ∧ id = none

theorem admits_eq_false_iff {kind : NodeKind} {id : Option String} :
    kind.admits id = false ↔ kind.Breaks id := by
  cases kind <;> cases id <;> simp [admits, Breaks, identifies]

instance (kind : NodeKind) (id : Option String) : Decidable (kind.Breaks id) :=
  decidable_of_iff _ admits_eq_false_iff

end NodeKind

def Object.faults (o : Object) (path : Path) : List (Located ValidationError) :=
  (if o.cls.nodeKind.Breaks o.id then [⟨path.member "id", ⟨"id", .nodeKind o.cls.nodeKind⟩⟩]
    else []) ++
      o.properties.flatMap fun (p, slot) => slot.faults p (path.member p.name)

def faultsOf (objects : List (Located Object)) : List (Located ValidationError) :=
  objects.flatMap fun found => found.value.faults found.path

/-! ## Reports -/

variable {σ : Type} {handle : Handler σ}

namespace Verdict

def reportAll (handle : Handler σ) (faults : List (Located ValidationError))
    (verdict : Verdict σ) : Verdict σ :=
  faults.foldl (fun verdict fault => verdict.report handle fault.path fault.value) verdict

theorem reportAll_append (first second : List (Located ValidationError)) (verdict : Verdict σ) :
    verdict.reportAll handle (first ++ second) =
      (verdict.reportAll handle first).reportAll handle second :=
  List.foldl_append

theorem foldl_reportAll {α : Type} (faults : α → List (Located ValidationError)) (items : List α)
    (verdict : Verdict σ) :
    items.foldl (fun verdict item => verdict.reportAll handle (faults item)) verdict =
      verdict.reportAll handle (items.flatMap faults) := by
  induction items generalizing verdict with
  | nil => rfl
  | cons item items ih => rw [List.foldl_cons, ih, List.flatMap_cons, reportAll_append]

/-- The verdict stays good exactly if nothing is reported, and the handler is told of every
fault. -/
theorem reportAll_eq (faults : List (Located ValidationError)) (verdict : Verdict σ) :
    verdict.reportAll handle faults = ⟨verdict.valid && faults.isEmpty,
      faults.foldl (fun state fault => handle state fault.path fault.value) verdict.state⟩ := by
  induction faults generalizing verdict with
  | nil => simp [reportAll]
  | cons fault faults ih =>
    have step : verdict.reportAll handle (fault :: faults) =
        (verdict.report handle fault.path fault.value).reportAll handle faults := rfl
    rw [step, ih]
    simp [report]

theorem foldl_collect (found faults : List (Located ValidationError)) :
    faults.foldl (fun state fault => Handler.collect state fault.path fault.value) found =
      found ++ faults := by
  induction faults generalizing found with
  | nil => exact (List.append_nil found).symm
  | cons fault faults ih =>
    rw [List.foldl_cons, ih]
    exact List.append_assoc found [fault] faults

/-- A handler that collects the faults has them all in the end. -/
theorem state_reportAll_collect (faults : List (Located ValidationError)) :
    ((Verdict.initial []).reportAll .collect faults).state = faults := by
  rw [reportAll_eq]
  exact foldl_collect [] faults

theorem checkValue_eq (chain : List Validator) (name : String) (path : Path) (value : Scalar)
    (verdict : Verdict σ) : verdict.checkValue handle chain name path value =
      verdict.reportAll handle (Validator.faults chain name ⟨path, value⟩) := by
  unfold checkValue reportAll Validator.faults
  rw [List.foldl_filterMap]
  congr
  funext verdict validator
  cases validator.check name value <;> rfl

theorem checkValues_eq (chain : List Validator) (name : String) (path : Path) (position : Nat)
    (values : List Scalar) (verdict : Verdict σ) :
    verdict.checkValues handle chain name path position values =
      verdict.reportAll handle (((values.zipIdx position).map fun (value, position) =>
        (⟨path.item position, value⟩ : Located Scalar)).flatMap (Validator.faults chain name)) := by
  induction values generalizing position verdict with
  | nil => rfl
  | cons value values ih =>
    rw [checkValues, checkValue_eq, ih, List.zipIdx_cons, List.map_cons, List.flatMap_cons,
      reportAll_append]

end Verdict

namespace Slot

theorem check_eq (p : Property) (path : Path) (slot : Slot) (verdict : Verdict σ) :
    slot.check handle p path verdict = verdict.reportAll handle
      ((slot.values path).flatMap (Validator.faults p.chain p.name)) := by
  cases slot with
  | scalar value =>
    cases value with
    | none => rfl
    | some value =>
      have one : (values path (.scalar (some value))).flatMap (Validator.faults p.chain p.name) =
          Validator.faults p.chain p.name ⟨path, value⟩ := List.flatMap_singleton ..
      rw [one]
      exact Verdict.checkValue_eq ..
  | list values => exact Verdict.checkValues_eq ..
  | reference | references => rfl

theorem countFault?_eq (p : Property) (slot : Slot) :
    slot.countFault? p = slot.numberReason? p := by
  unfold countFault? numberReason?
  cases many : p.isList with
  | true =>
    cases p.minCount with
    | none => cases p.maxCount <;> simp [Option.filter]
    | some least =>
      cases p.maxCount <;> by_cases few : slot.length < least <;> simp [Option.filter, few]
  | false =>
    cases least : p.minCount <;> simp [PropertyDecl.isRequired, least]

theorem validate_eq (p : Property) (path : Path) (slot : Slot) (verdict : Verdict σ) :
    slot.validate handle p path verdict = verdict.reportAll handle (slot.faults p path) := by
  rw [validate, check_eq, countFault?_eq, faults, Verdict.reportAll_append]
  cases slot.numberReason? p <;> rfl

end Slot

namespace Object

theorem checkNodeKind_eq (o : Object) (path : Path) (verdict : Verdict σ) :
    o.checkNodeKind handle path verdict = verdict.reportAll handle
      (if o.cls.nodeKind.Breaks o.id then [⟨path.member "id", ⟨"id", .nodeKind o.cls.nodeKind⟩⟩]
        else []) := by
  simp only [checkNodeKind, ← NodeKind.admits_eq_false_iff]
  cases o.cls.nodeKind.admits o.id <;> rfl

theorem validate_eq (o : Object) (path : Path) (verdict : Verdict σ) :
    o.validate handle path verdict = verdict.reportAll handle (o.faults path) := by
  simp only [validate, Slot.validate_eq, checkNodeKind_eq, faults, Verdict.reportAll_append]
  exact Verdict.foldl_reportAll ..

end Object

/-- Validation of a graph tells the handler of the faults of the objects that a walk enters, in the
order of the walk. The verdict is that there are none, whatever the handler. -/
theorem Graph.validate_eq_faultsOf (graph : Graph) :
    WalkOrder [] graph.located graph.objects ∧
      ∀ {σ : Type} (handle : Handler σ) (state : σ), graph.validate handle (.initial state) =
        ⟨(faultsOf graph.objects).isEmpty, (faultsOf graph.objects).foldl
          (fun state fault => handle state fault.path fault.value) state⟩ := by
  refine ⟨graph.walkOrder_objects, fun handle state => ?_⟩
  have passes : graph.validate handle (.initial state) =
      (Verdict.initial state).reportAll handle (faultsOf graph.objects) := by
    simp only [validate, Object.validate_eq]
    exact Verdict.foldl_reportAll ..
  rw [passes, Verdict.reportAll_eq]
  rfl

end ShapedGraph
