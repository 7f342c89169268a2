import ShapedGraph.Proofs.RoundTrip

/-! The search for the class of an object whose type name is not registered, made again over what
the object is written as: it comes to the same class or to one with a smaller IRI, and to the same
class exactly if no candidate with a smaller IRI can read what is written. -/

namespace ShapedGraph

namespace Decoder

open Registry (Ascending)

variable {d : Decoder} {path : Path} {members : List (String × Json)} {type : String}

/-- A class that an object may be searched by reads it where the class is asked for. -/
theorem decodeObject_of_extensible {cls : NodeClass} (within : path.length ≤ d.maxDepth)
    (typed : typeName path members = .ok type) (unknown : d.registry.get? type = none)
    (extensible : cls.isExtensible = true) :
    d.decodeObject path (some cls) (.object members) =
      d.decodeMembers path members (.ofType cls type) := by
  refine decodeObject_of_only within typed ?_
  unfold choose
  rw [unknown]
  exact if_pos extensible

/-- A search comes to the first class that reads the members: all classes before it fail, and none
that reads them has a smaller IRI. -/
theorem first_of_findSome? {classes : List NodeClass} {read : NodeClass → Option Object}
    (ascending : Ascending classes) {o : Object} (h : classes.findSome? read = some o) :
    ∃ first ∈ classes, read first = some o ∧
      (∀ c ∈ classes, c.iri < first.iri → read c = none) ∧
        ∀ c ∈ classes, read c ≠ none → first.iri ≤ c.iri := by
  obtain ⟨before, first, after, rfl, reads, fail⟩ := List.findSome?_eq_some_iff.mp h
  obtain ⟨-, ascending, -⟩ := List.pairwise_append.mp ascending
  obtain ⟨least, -⟩ := List.pairwise_cons.mp ascending
  refine ⟨first, by simp, reads, fun c hc less => ?_, fun c hc reads => ?_⟩
  · rcases List.mem_append.mp hc with hc | hc
    · exact fail c hc
    · rcases List.mem_cons.mp hc with rfl | hc
      · exact absurd less (String.lt_irrefl _)
      · exact absurd less (String.not_lt.mpr (least c hc))
  · rcases List.mem_append.mp hc with hc | hc
    · exact absurd (fail c hc) reads
    · rcases List.mem_cons.mp hc with rfl | hc
      · exact String.le_refl _
      · exact least c hc

/-- A search that some candidate can end comes to the first one that can, in the order of IRIs. -/
theorem search_of_candidate {cls : NodeClass} {own : Object} (within : path.length ≤ d.maxDepth)
    (typed : typeName path members = .ok type) (unknown : d.registry.get? type = none)
    (shaped : isIri type = true) (among : cls ∈ d.registry.candidates none)
    (reads : d.decodeMembers path members (.ofType cls type) = .ok own) :
    ∃ o, d.decodeObject path none (.object members) = .ok o ∧
      o.cls ∈ d.registry.candidates none ∧ o.cls.iri ≤ cls.iri ∧
        d.decodeObject path (some o.cls) (.object members) = .ok o ∧
          ∀ c ∈ d.registry.candidates none, c.iri < o.cls.iri →
            ∀ x, d.decodeObject path (some c) (.object members) ≠ .ok x := by
  have extensible : ∀ c ∈ d.registry.candidates none, c.isExtensible = true :=
    fun c hc => (Registry.mem_candidates.mp hc).2.1
  have search : d.choose path type none = .ok (.firstOf (d.registry.candidates none)) :=
    d.choose_eq_firstOf path unknown shaped nofun
  obtain ⟨o, found⟩ : ∃ o, (d.registry.candidates none).findSome? (fun cls =>
      (d.decodeMembers path members (.ofType cls type)).toOption) = some o := by
    refine Option.ne_none_iff_exists'.mp fun missing => ?_
    have fails := List.findSome?_eq_none_iff.mp missing cls among
    rw [reads] at fails
    cases fails
  obtain ⟨first, mem, accepts, fail, least⟩ :=
    first_of_findSome? (Registry.ascending_candidates d.registry none) found
  have accepts := Outcome.toOption_eq_some.mp accepts
  obtain ⟨rfl, -⟩ := typed_of_decodeMembers accepts
  refine ⟨o, (decodeObject_of_firstOf within typed search).mpr found, mem, ?_, ?_, ?_⟩
  · exact least cls among (by rw [reads]; exact nofun)
  · rw [decodeObject_of_extensible within typed unknown (extensible _ mem)]
    exact accepts
  · intro c hc less x read
    rw [decodeObject_of_extensible within typed unknown (extensible c hc)] at read
    have fails := fail c hc less
    rw [read] at fails
    cases fails

/-- Where the class of an object was searched for, the search over what the object is written as
succeeds too. The class it comes to has no greater IRI, and it is the same exactly if every
candidate with a smaller IRI fails to read what is written. -/
theorem decodeObject_toJson_of_search {contextUrl : String} {decls : List ClassDecl}
    {order : Registry.AliasOrder} {registry : Registry} {maxDepth maxDepth' : Nat} {path' : Path}
    {o : Object} (built : Registry.build contextUrl decls order = .ok registry)
    (unambiguous : registry.Unambiguous)
    (representable : (Json.object members).Representable)
    (typed : Members.get? members "@type" = some (.string type))
    (unknown : registry.get? type = none)
    (read : (Decoder.mk registry maxDepth).decodeObject path none (.object members) = .ok o)
    (depth : o.toJson.staysWithin maxDepth' path'.length = true) :
    ∃ o', (Decoder.mk registry maxDepth').decodeObject path' none o.toJson = .ok o' ∧
      o'.cls ∈ registry.candidates none ∧ o'.cls.iri ≤ o.cls.iri ∧
        (o'.cls = o.cls ↔ ∀ c ∈ registry.candidates none, c.iri < o.cls.iri →
          ∀ x, (Decoder.mk registry maxDepth').decodeObject path' (some c) o.toJson ≠ .ok x) := by
  have unasked : ∀ t, none = some t → t ∈ registry.classes := nofun
  have sound : o.SoundThroughout registry True False none :=
    (readsSoundly ⟨registry, maxDepth⟩ True False _ (.inr representable)).object path none o unasked
      (.inl trivial) read
  have observed : o.observedType = some type := by
    obtain ⟨type', cls, typed', reads⟩ := exists_class_of_decodeObject read
    cases typed.symm.trans typed'
    exact (typed_of_decodeMembers reads).2
  have named : o.typeIri = type := by rw [Object.typeIri, observed]; rfl
  obtain ⟨type', observed', chosen⟩ := sound.here.typed
  cases observed.symm.trans observed'
  -- The class was searched for, as its name is not registered and no class is asked for.
  obtain ⟨among, shaped⟩ : o.cls ∈ registry.candidates none ∧ isIri type = true := by
    cases chosen with
    | named known => cases unknown.symm.trans known
    | wanted _ wanted => cases wanted
    | found _ _ shaped _ candidate => exact ⟨candidate, shaped⟩
  let d : Decoder := ⟨registry, maxDepth'⟩
  obtain ⟨own, reread, -⟩ := reread_members (d := d) unambiguous sound
    (fun inner x holds => rereads unambiguous (sound.inside holds)) path' [] depth
  have within := (Json.staysWithin_object.mp depth).1
  have typed' := typeName_encode (d := d) unambiguous sound.here path' []
  rw [named] at reread typed'
  obtain ⟨o', search, mem, le, accepts, reject⟩ :=
    search_of_candidate (d := d) within typed' unknown shaped among reread
  refine ⟨o', search, mem, le, fun same => same ▸ reject, fun rejected => ?_⟩
  have same : o'.cls.iri = o.cls.iri :=
    String.le_antisymm le (String.not_lt.mp fun less => rejected o'.cls mem less o' accepts)
  exact (Registry.build_spec built).1.unique _ (Registry.mem_candidates.mp mem).1 _
    sound.here.registered same

end Decoder

namespace Sample

/-- A class whose tracks are always written as a list. -/
def album : ClassDecl where
  iri := "ex:Album"
  compact := none
  nodeKind := none
  idAlias := none
  isAbstract := false
  extensible := some true
  parents := []
  properties := [⟨"tracks", "ex:tracks", some "tracks", .scalar .string, true, none, none, [], []⟩]

/-- A class that declares nothing, and comes behind the other one. -/
def bag : ClassDecl := { album with iri := "ex:Bag", properties := [] }

/-- A class with a token that stands for two texts, of which the second identifies nothing. -/
def card : ClassDecl := { album with
  iri := "ex:Card"
  properties := [⟨"maker", "ex:maker", none, .scalar .iri, false, none, none,
    [⟨"ex:anna", "anna"⟩, ⟨"anna", "anna"⟩], []⟩] }

def albumRegistry : Registry := (Registry.build "" [album, bag]).toOption.getD ⟨"", [], []⟩

def cardRegistry : Registry := (Registry.build "" [card]).toOption.getD ⟨"", [], []⟩

/-- Only the bag can read the single track, but both can read the list that it is written as. -/
def disc : List (String × Json) := [("@type", .string "ex:Disc"), ("tracks", .string "one")]

def note : List (String × Json) := [("@type", .string "ex:Note"), ("ex:maker", .string "ex:anna")]

theorem representable_disc : (Json.object disc).Representable := by
  simp [disc]

end Sample

/-- The search over what an object is written as may come to another class; and where a token stands
for two texts, it may come to none. -/
theorem Sample.search_moves :
    (∃ o o', Registry.build "" [Sample.album, Sample.bag] = .ok Sample.albumRegistry ∧
      Sample.albumRegistry.Unambiguous ∧ Sample.albumRegistry.get? "ex:Disc" = none ∧
        (Decoder.mk Sample.albumRegistry 9).decodeObject .root none (.object Sample.disc) = .ok o ∧
          o.toJson.staysWithin 9 0 = true ∧
            (Decoder.mk Sample.albumRegistry 9).decodeObject .root none o.toJson = .ok o' ∧
              o.cls.iri = "ex:Bag" ∧ o'.cls.iri = "ex:Album") ∧
      ∃ o, Registry.build "" [Sample.card] = .ok Sample.cardRegistry ∧
        Sample.cardRegistry.get? "ex:Note" = none ∧
          (Decoder.mk Sample.cardRegistry 9).decodeObject .root none (.object Sample.note) = .ok o ∧
            o.toJson.staysWithin 9 0 = true ∧
              ∀ x, (Decoder.mk Sample.cardRegistry 9).decodeObject .root none o.toJson ≠ .ok x :=
  ⟨⟨_, _, rfl, by decide +kernel, rfl, rfl, rfl, rfl, rfl, rfl⟩, _, rfl, rfl, rfl, rfl, nofun⟩

theorem Sample.disc_searchedAgain : ∃ o,
    (Decoder.mk Sample.albumRegistry 9).decodeObject .root none (.object Sample.disc) = .ok o ∧
      ∃ o', (Decoder.mk Sample.albumRegistry 9).decodeObject .root none o.toJson = .ok o' ∧
        o'.cls.iri ≤ o.cls.iri := by
  have built : Registry.build "" [Sample.album, Sample.bag] = .ok Sample.albumRegistry := rfl
  have unambiguous : Sample.albumRegistry.Unambiguous := by decide +kernel
  obtain ⟨o, read, depth⟩ : ∃ o,
      (Decoder.mk Sample.albumRegistry 9).decodeObject .root none (.object Sample.disc) = .ok o ∧
        o.toJson.staysWithin 9 Path.root.length = true := ⟨_, rfl, rfl⟩
  obtain ⟨o', again, -, le, -⟩ := Decoder.decodeObject_toJson_of_search built unambiguous
    Sample.representable_disc rfl rfl read depth
  exact ⟨o, read, o', again, le⟩

end ShapedGraph
