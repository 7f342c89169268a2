import ShapedGraph.Proofs.ByteOrder
import ShapedGraph.Proofs.Search

/-! The class that is found for a type name that is not registered. Of the classes that may stand
for it and read the object where they are asked for, it is the one with the smallest IRI, and what
the search gives is what that class reads. The search fails, at the object itself, if there is none.
-/

namespace ShapedGraph

/-- The class may stand for a type name that is not registered: it is extensible and not abstract,
and derives from the class that the place asks for. -/
structure Registry.Eligible (registry : Registry) (target : Option NodeClass) (c : NodeClass) :
    Prop where
  registered : c ∈ registry.classes
  extensible : c.isExtensible = true
  concrete : c.isAbstract = false
  derives : ∀ t, target = some t → c.isSubclassOf t.iri = true

theorem Registry.eligible_iff {registry : Registry} {target : Option NodeClass} {c : NodeClass} :
    registry.Eligible target c ↔ c ∈ registry.candidates target := by
  rw [mem_candidates]
  constructor
  · exact fun ⟨registered, extensible, concrete, derives⟩ =>
      ⟨registered, extensible, concrete, derives⟩
  · exact fun ⟨registered, extensible, concrete, derives⟩ =>
      ⟨registered, extensible, concrete, derives⟩

namespace Decoder

variable {d : Decoder} {path : Path} {target : Option NodeClass} {members : List (String × Json)}
  {type : String} {b c : NodeClass} {o : Object}

/-- The class may stand for the type name, and reads the value where it is asked for itself. -/
structure Accepts (d : Decoder) (path : Path) (target : Option NodeClass) (json : Json)
    (c : NodeClass) : Prop where
  eligible : d.registry.Eligible target c
  reads : ∃ o, d.decodeObject path (some c) json = .ok o

/-- Of the classes that accept the value it has the smallest IRI, byte by byte. -/
structure LeastAccepting (d : Decoder) (path : Path) (target : Option NodeClass) (json : Json)
    (c : NodeClass) : Prop where
  accepts : d.Accepts path target json c
  least : ∀ b, d.Accepts path target json b → b = c ∨ Utf8.Before c.iri b.iri

theorem LeastAccepting.unique {json : Json} (least : d.LeastAccepting path target json c)
    (least' : d.LeastAccepting path target json b) : b = c := by
  rcases least.least b least'.accepts with same | before
  · exact same
  · rcases least'.least c least.accepts with same | behind
    · exact same.symm
    · exact absurd (Utf8.before_iff.mp before) (String.lt_asymm (Utf8.before_iff.mp behind))

/-- What a class reads of an object with a type name that is not registered. -/
def readBy (d : Decoder) (path : Path) (members : List (String × Json)) (type : String)
    (c : NodeClass) : Option Object :=
  (d.decodeMembers path members (.ofType c type)).toOption

section Search

variable (within : path.length ≤ d.maxDepth) (typed : typeName path members = .ok type)
  (unknown : d.registry.get? type = none)

include within typed unknown

theorem readBy_eq_some_iff (among : c ∈ d.registry.candidates target) :
    d.readBy path members type c = some o ↔
      d.decodeObject path (some c) (.object members) = .ok o := by
  have extensible := (Registry.mem_candidates.mp among).2.1
  rw [decodeObject_of_extensible within typed unknown extensible]
  exact Outcome.toOption_eq_some

theorem accepts_iff : d.Accepts path target (.object members) c ↔
    c ∈ d.registry.candidates target ∧ d.readBy path members type c ≠ none := by
  constructor
  · rintro ⟨eligible, o, reads⟩
    have among := Registry.eligible_iff.mp eligible
    have read := (readBy_eq_some_iff within typed unknown among).mpr reads
    exact ⟨among, Option.ne_none_iff_exists'.mpr ⟨o, read⟩⟩
  · rintro ⟨among, reads⟩
    obtain ⟨o, read⟩ := Option.ne_none_iff_exists'.mp reads
    have reads := (readBy_eq_some_iff within typed unknown among).mp read
    exact ⟨Registry.eligible_iff.mpr among, o, reads⟩

/-- What the search gives is read by the class with the smallest IRI among those that accept the
object. -/
theorem exists_leastAccepting
    (unique : ∀ c ∈ d.registry.classes, ∀ b ∈ d.registry.classes, c.iri = b.iri → c = b)
    (found : (d.registry.candidates target).findSome? (d.readBy path members type) = some o) :
    ∃ c, d.LeastAccepting path target (.object members) c ∧
      d.decodeObject path (some c) (.object members) = .ok o := by
  obtain ⟨c, among, read, -, least⟩ :=
    first_of_findSome? (Registry.ascending_candidates d.registry target) found
  have reads := (readBy_eq_some_iff within typed unknown among).mp read
  have eligible := Registry.eligible_iff.mpr among
  refine ⟨c, ⟨⟨eligible, o, reads⟩, fun b accepted => ?_⟩, reads⟩
  obtain ⟨among', reads'⟩ := (accepts_iff within typed unknown).mp accepted
  by_cases greater : c.iri < b.iri
  · exact .inr (Utf8.before_iff.mpr greater)
  · have same := String.le_antisymm (String.not_lt.mp greater) (least b among' reads')
    exact .inl (unique b accepted.eligible.registered c eligible.registered same)

theorem findSome?_eq_some_iff_least
    (unique : ∀ c ∈ d.registry.classes, ∀ b ∈ d.registry.classes, c.iri = b.iri → c = b) :
    (d.registry.candidates target).findSome? (d.readBy path members type) = some o ↔
      ∃ c, d.LeastAccepting path target (.object members) c ∧
        d.decodeObject path (some c) (.object members) = .ok o := by
  refine ⟨exists_leastAccepting within typed unknown unique, ?_⟩
  rintro ⟨c, least, reads⟩
  obtain ⟨among, some⟩ := (accepts_iff within typed unknown).mp least.accepts
  obtain ⟨o', found⟩ : ∃ o', (d.registry.candidates target).findSome?
      (d.readBy path members type) = .some o' := by
    refine Option.ne_none_iff_exists'.mp fun missing => ?_
    exact some (List.findSome?_eq_none_iff.mp missing c among)
  obtain ⟨b, least', reads'⟩ := exists_leastAccepting within typed unknown unique found
  obtain rfl := least.unique least'
  rw [found, Except.ok.inj (reads'.symm.trans reads)]

end Search

/-- An object whose type name is not registered is read, at a place that asks for no extensible
class, by the class with the smallest IRI among those that accept it. If there is none it cannot be
read, for that reason alone. -/
theorem decodeObject_eq_ok_iff_least {contextUrl : String} {decls : List ClassDecl}
    {order : Registry.AliasOrder} (made : Registry.build contextUrl decls order = .ok d.registry)
    (within : path.length ≤ d.maxDepth) (typed : Members.get? members "@type" = some (.string type))
    (unknown : d.registry.get? type = none) (shaped : isIri type = true)
    (closed : ∀ t, target = some t → t.isExtensible = false) :
    (∀ o, d.decodeObject path target (.object members) = .ok o ↔
      ∃ c, d.LeastAccepting path target (.object members) c ∧
        d.decodeObject path (some c) (.object members) = .ok o ∧
          o.cls = c ∧ o.observedType = some type) ∧
    ∀ e, d.decodeObject path target (.object members) = .error e ↔
      e = ⟨path, .noMatchingExtensible type⟩ ∧
        ∀ c, ¬d.Accepts path target (.object members) c := by
  have named : typeName path members = .ok type := typeName_eq_ok.mpr typed
  have search := d.choose_eq_firstOf path unknown shaped closed
  have least : ∀ o, (d.registry.candidates target).findSome? (d.readBy path members type) = some o ↔
      ∃ c, d.LeastAccepting path target (.object members) c ∧
        d.decodeObject path (some c) (.object members) = .ok o :=
    fun _ => findSome?_eq_some_iff_least within named unknown (Registry.build_spec made).1.unique
  constructor
  · intro o
    refine (decodeObject_of_firstOf within named search).trans ((least o).trans ?_)
    refine exists_congr fun c => and_congr_right fun chosen => (and_iff_left_of_imp ?_).symm
    intro reads
    rw [decodeObject_of_extensible within named unknown chosen.accepts.eligible.extensible] at reads
    exact typed_of_decodeMembers reads
  · intro e
    rw [decodeObject_eq_error_of_firstOf within named search]
    refine and_congr_right fun _ => ?_
    constructor
    · intro refused c accepted
      obtain ⟨among, reads⟩ := (accepts_iff within named unknown).mp accepted
      exact reads (refused c among)
    · intro refused c among
      by_contra reads
      exact refused c ((accepts_iff within named unknown).mpr ⟨among, reads⟩)

end Decoder

namespace Sample

/-- An instrument, which has no members that are not declared. -/
def instrument : ClassDecl where
  iri := "ex:Instrument"
  compact := none
  nodeKind := none
  idAlias := none
  isAbstract := false
  extensible := some false
  parents := []
  properties := []

/-- A bell, of which the tone is a number. -/
def bell : ClassDecl :=
  { instrument with
    iri := "ex:Bell", extensible := some true, parents := ["ex:Instrument"]
    properties := [⟨"tone", "ex:tone", some "tone", .scalar .integer, false, none, none, [], []⟩] }

def drum : ClassDecl := { bell with iri := "ex:Drum", properties := [] }

def flute : ClassDecl := { drum with iri := "ex:Flute" }

/-- An anvil could read anything, but is no instrument. -/
def anvil : ClassDecl := { drum with iri := "ex:Anvil", parents := [] }

def band : List ClassDecl := [flute, drum, bell, anvil, instrument]

def bandRegistry : Registry := (Registry.build "" band).toOption.getD ⟨"", [], []⟩

/-- A gong, which no class is registered for, with a tone that is not a number. -/
def gong : List (String × Json) := [("@type", .string "ex:Gong"), ("tone", .string "low")]

end Sample

/-- Where an instrument is asked for, a gong is read as a drum. -/
theorem Sample.gong_readAsDrum : ∃ (d : Decoder) (instrument : NodeClass) (o : Object),
    d.registry = Sample.bandRegistry ∧ d.registry.get? "ex:Instrument" = some instrument ∧
      d.decodeObject .root (some instrument) (.object Sample.gong) = .ok o ∧
        d.LeastAccepting .root (some instrument) (.object Sample.gong) o.cls ∧
          o.cls.iri = "ex:Drum" ∧ o.observedType = some "ex:Gong" := by
  let d : Decoder := ⟨Sample.bandRegistry, 5⟩
  have made : Registry.build "" Sample.band = .ok d.registry := rfl
  have within : Path.root.length ≤ d.maxDepth := Nat.zero_le 5
  have typed : Members.get? Sample.gong "@type" = some (.string "ex:Gong") := rfl
  obtain ⟨instrument, o, asked, closed, read, iri⟩ : ∃ instrument o,
      d.registry.get? "ex:Instrument" = some instrument ∧ instrument.isExtensible = false ∧
        d.decodeObject .root (some instrument) (.object Sample.gong) = .ok o ∧
          o.cls.iri = "ex:Drum" := ⟨_, _, rfl, rfl, rfl, rfl⟩
  obtain ⟨found, -⟩ := Decoder.decodeObject_eq_ok_iff_least made within typed rfl rfl
    fun t asked => Option.some.inj asked ▸ closed
  obtain ⟨_, least, -, rfl, observed⟩ := (found o).mp read
  exact ⟨d, instrument, o, rfl, asked, read, least, iri, observed⟩

end ShapedGraph
