import ShapedGraph.Object.Basic

/-! Validation of single objects: the identifier first, then each property in layout order, its
values before their number. -/

namespace ShapedGraph

variable {σ : Type}

namespace Slot

/-- Reports every fault that the validators of a property find in its content. -/
def check (handle : Handler σ) (p : Property) (path : Path) (slot : Slot)
    (verdict : Verdict σ) : Verdict σ :=
  match slot with
  | .scalar value => (p.field value).check handle path verdict
  | .list values => (p.listField values).check handle path verdict
  | _ => verdict

/-- Why a property does not have the right number of values. Of a single value only the presence
counts, whatever number is declared. -/
def countFault? (p : Property) (slot : Slot) : Option Reason :=
  if p.isList then
    match p.minCount, p.maxCount with
    | some least, most =>
      if slot.length < least then some (.tooFew least)
      else most.bind fun most => if most < slot.length then some (.tooMany most) else none
    | none, some most => if most < slot.length then some (.tooMany most) else none
    | none, none => none
  else if p.isRequired ∧ !slot.isSet then some .required
  else none

/-- Reports every fault of a property at its own path. -/
def validate (handle : Handler σ) (p : Property) (path : Path) (slot : Slot)
    (verdict : Verdict σ) : Verdict σ :=
  let checked := slot.check handle p path verdict
  match slot.countFault? p with
  | some reason => checked.report handle path ⟨p.name, reason⟩
  | none => checked

end Slot

namespace Object

/-- Reports an identifier that is not of the kind that the class asks for. -/
def checkNodeKind (handle : Handler σ) (o : Object) (path : Path) (verdict : Verdict σ) :
    Verdict σ :=
  if o.cls.nodeKind.admits o.id then verdict
  else verdict.report handle (path.member "id") ⟨"id", .nodeKind o.cls.nodeKind⟩

/-- Reports every fault of an object. The objects it refers to are not looked at. -/
def validate (handle : Handler σ) (o : Object) (path : Path) (verdict : Verdict σ) : Verdict σ :=
  o.properties.foldl
    (fun verdict (p, slot) => slot.validate handle p (path.member p.name) verdict)
    (o.checkNodeKind handle path verdict)

end Object

end ShapedGraph
