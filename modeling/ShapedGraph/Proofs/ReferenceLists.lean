import ShapedGraph.Proofs.Acceptance
import ShapedGraph.Proofs.Survival
import ShapedGraph.Workspace.Run

/-! Lists of references that an object is given. A property takes IRIs that identify nodes, and it
takes unset references too, in a list as well as alone. Alone an unset reference is not written; in
a list it is written as null, from which no reference is read. So a list that accessors have put
together is read again as it is if and only if no reference in it is unset and each IRI in it
stands for itself. -/

namespace ShapedGraph

/-! ## What is accepted -/

/-- A reference that every property of references accepts. -/
inductive Reference.Loose : Reference → Prop where
  | unset : Loose .unset
  | iri {text : String} (shaped : isIdentifier text = true) : Loose (.iri text)

theorem Reference.faultIn?_eq_none_iff {p : Property} {target : Reference}
    (noObject : target.isObject = false) : target.faultIn? p = none ↔ target.Loose := by
  cases target with
  | unset => exact iff_of_true rfl .unset
  | object => cases noObject
  | iri text =>
    constructor
    · intro accepted
      rw [faultIn?] at accepted
      split at accepted
      · exact .iri (by assumption)
      · cases accepted
    · rintro (_ | shaped)
      exact if_pos shaped

/-- Without objects, a property accepts references if and only if each IRI identifies a node. -/
theorem forall_loose_iff {targets : List Reference}
    (noObject : ∀ target ∈ targets, target.isObject = false) :
    (∀ target ∈ targets, target.Loose) ↔
      ∀ text, .iri text ∈ targets → isIdentifier text = true := by
  constructor
  · intro loose text among
    cases loose _ among
    assumption
  · intro shaped target among
    cases target with
    | unset => exact .unset
    | iri text => exact .iri (shaped text among)
    | object => cases noObject _ among

/-- A change of a list of references. -/
inductive ReferencesStep where
  | set (targets : List Reference)
  | push (target : Reference)
  | delete

namespace ReferencesStep

/-- The references that a step brings. -/
def given : ReferencesStep → List Reference
  | .set targets => targets
  | .push target => [target]
  | .delete => []

/-- The list that a step asks for. -/
def wanted (kept : List Reference) : ReferencesStep → List Reference
  | .set targets => targets
  | .push target => kept ++ [target]
  | .delete => []

theorem mem_wanted {kept : List Reference} {step : ReferencesStep} {target : Reference}
    (among : target ∈ step.wanted kept) : target ∈ kept ∨ target ∈ step.given := by
  cases step with
  | set | delete => exact .inr among
  | push => exact List.mem_append.mp among

end ReferencesStep

namespace Object

variable {o : Object} {key : String} {cell : Cell (List Reference)}

/-- What the accessors make of an object. -/
def changeReferences (o : Object) (key : String) : ReferencesStep → Except AccessError Object
  | .set targets => o.setReferences key targets
  | .push target => o.pushReference key target
  | .delete => o.deleteReferences key

/-- What steps leave of an object, some of which may have been refused. -/
def afterReferences (o : Object) (key : String) (steps : List ReferencesStep) : Object :=
  steps.foldl (fun o step => (o.change (o.changeReferences key step)).2) o

/-- A step is refused with the first fault in what it brings, and otherwise the object gets the list
that the step asks for. -/
theorem changeReferences_eq (found : o.findReferences key = .ok cell) (step : ReferencesStep) :
    o.changeReferences key step = (step.given.findSome? (·.faultIn? cell.property)).elim
      (.ok (o.putSlot cell.place (.references (step.wanted cell.content)))) .error := by
  cases step with
  | set targets => exact setReferences_eq found targets
  | push target =>
    rw [ReferencesStep.given, List.findSome?_singleton]
    cases fault : target.faultIn? cell.property <;>
      simp only [changeReferences, pushReference, found, bind, Except.bind, fault, Option.elim,
        ReferencesStep.wanted]
  | delete =>
    simp only [changeReferences, deleteReferences, found, bind, Except.bind, ReferencesStep.given,
      ReferencesStep.wanted, List.findSome?_nil, Option.elim]

/-- Without objects, a step is accepted if and only if every property accepts what it brings. -/
theorem changeReferences_eq_ok_iff (found : o.findReferences key = .ok cell)
    {step : ReferencesStep} (noObject : ∀ target ∈ step.given, target.isObject = false)
    {changed : Object} : o.changeReferences key step = .ok changed ↔
      (∀ target ∈ step.given, target.Loose) ∧
        o.putSlot cell.place (.references (step.wanted cell.content)) = changed := by
  have accepts : step.given.findSome? (·.faultIn? cell.property) = none ↔
      ∀ target ∈ step.given, target.Loose := by
    rw [List.findSome?_eq_none_iff]
    exact forall₂_congr fun target among =>
      Reference.faultIn?_eq_none_iff (noObject target among)
  rw [changeReferences_eq found, ← accepts]
  cases step.given.findSome? (·.faultIn? cell.property) with
  | none => simp
  | some => simp

theorem findReferences_eq_ok_iff : o.findReferences key = .ok cell ↔
    o.cls.place key = some cell.place ∧
      o.properties[cell.place]? = some (cell.property, .references cell.content) := by
  rw [findReferences_iff_find, find_eq_ok_iff, cell?_eq_some_iff]

/-- The list that is put into a property is found there. -/
theorem findReferences_putSlot (found : o.findReferences key = .ok cell)
    (targets : List Reference) :
    (o.putSlot cell.place (.references targets)).findReferences key =
      .ok { cell with content := targets } := by
  obtain ⟨placed, there⟩ := findReferences_eq_ok_iff.mp found
  obtain ⟨declared, held⟩ := getElem?_properties.mp there
  refine findReferences_eq_ok_iff.mpr ⟨placed, getElem?_properties.mpr ⟨declared, ?_⟩⟩
  exact List.getElem?_set_self (List.getElem?_eq_some_iff.mp held).1

/-- One step: a list of references that every property accepts stays one. -/
theorem exists_findReferences_change (found : o.findReferences key = .ok cell)
    (loose : ∀ target ∈ cell.content, target.Loose) {step : ReferencesStep}
    (noObject : ∀ target ∈ step.given, target.isObject = false) :
    ∃ targets, (∀ target ∈ targets, target.Loose) ∧
      (o.change (o.changeReferences key step)).2.findReferences key =
        .ok { cell with content := targets } := by
  cases done : o.changeReferences key step with
  | error => exact ⟨cell.content, loose, found⟩
  | ok changed =>
    obtain ⟨brought, rfl⟩ := (changeReferences_eq_ok_iff found noObject).mp done
    refine ⟨step.wanted cell.content, fun target among => ?_, findReferences_putSlot found _⟩
    exact (ReferencesStep.mem_wanted among).elim (loose target) (brought target)

/-- A run: the property is still there, with a list of references that every property accepts. -/
theorem exists_findReferences_after (found : o.findReferences key = .ok cell)
    (loose : ∀ target ∈ cell.content, target.Loose) {steps : List ReferencesStep}
    (noObject : ∀ step ∈ steps, ∀ target ∈ step.given, target.isObject = false) :
    ∃ targets, (∀ target ∈ targets, target.Loose) ∧
      (o.afterReferences key steps).findReferences key = .ok { cell with content := targets } := by
  induction steps generalizing o cell with
  | nil => exact ⟨cell.content, loose, found⟩
  | cons step steps ih =>
    obtain ⟨here, later⟩ := List.forall_mem_cons.mp noObject
    obtain ⟨targets, loose, found⟩ := exists_findReferences_change found loose here
    have again := ih found loose later
    exact again

end Object

/-! ## What is written and read again -/

section

variable {context : Context} {targets : List Reference}

/-- A reference that every property accepts is written without regard to what was written before. -/
theorem encodeReferences_of_loose (loose : ∀ target ∈ targets, target.Loose) (seen : Seen) :
    encodeReferences targets context seen =
      (targets.map fun target => (target.encode context []).1, seen) := by
  induction targets with
  | nil => rfl
  | cons target targets ih =>
    obtain ⟨here, later⟩ := List.forall_mem_cons.mp loose
    cases here <;> simp only [encodeReferences, Reference.encode, ih later, List.map_cons]

/-- Null is written for an unset reference, and for no other. -/
theorem null_mem_encode_iff (loose : ∀ target ∈ targets, target.Loose) :
    .null ∈ targets.map (fun target => (target.encode context []).1) ↔ .unset ∈ targets := by
  rw [List.mem_map]
  constructor
  · rintro ⟨target, among, null⟩
    cases loose target among with
    | unset => exact among
    | iri => cases null
  · exact fun among => ⟨.unset, among, rfl⟩

end

namespace Decoder

variable {d : Decoder} {context : Context} {asked : Option NodeClass} {targets : List Reference}

/-- What is written for a reference is read if it is an IRI that is still one when its token is
expanded. -/
theorem referenceOf_encode_eq_ok_iff {target reread : Reference} (loose : target.Loose)
    (path : Path) : referenceOf context path (target.encode context []).1
        (fun _ => d.decodeObject path asked (target.encode context []).1) = .ok reread ↔
      ∃ text, target = .iri text ∧ reread = .iri (context.expand (context.compact text)) ∧
        isIdentifier (context.expand (context.compact text)) = true := by
  cases loose with
  | unset =>
    refine iff_of_false (fun read => ?_) nofun
    obtain ⟨o, read, -⟩ := Outcome.map_eq_ok.mp read
    cases readsObject_of_decodeObject read
  | @iri text shaped =>
    constructor
    · intro read
      obtain ⟨iri, expanded, same⟩ := Outcome.map_eq_ok.mp read
      obtain ⟨_, written, rfl, shaped⟩ := Scalar.decodeIri_eq_ok.mp expanded
      cases written
      exact ⟨text, rfl, same.symm, shaped⟩
    · rintro ⟨_, same, rfl, shaped⟩
      cases same
      exact Outcome.map_eq_ok.mpr ⟨_, Scalar.decodeIri_eq_ok.mpr ⟨_, rfl, rfl, shaped⟩, rfl⟩

/-- A list is read if each reference in it is, and each of them at its own position. -/
theorem decodeReferences_encode_eq_ok_iff {rereads : List Reference}
    (loose : ∀ target ∈ targets, target.Loose) (path : Path) (position : Nat) :
    d.decodeReferences context asked path position
        (targets.map fun target => (target.encode context []).1) = .ok rereads ↔
      List.Forall₂ (fun target reread => ∃ text, target = .iri text ∧
        reread = .iri (context.expand (context.compact text)) ∧
          isIdentifier (context.expand (context.compact text)) = true) targets rereads := by
  induction targets generalizing position rereads with
  | nil =>
    rw [List.map_nil, decodeReferences, List.forall₂_nil_left_iff]
    exact ⟨fun read => (Except.ok.inj read).symm, fun same => same ▸ rfl⟩
  | cons target targets ih =>
    obtain ⟨here, later⟩ := List.forall_mem_cons.mp loose
    rw [List.map_cons, decodeReferences, Outcome.bind_eq_ok, List.forall₂_cons_left_iff]
    refine exists_congr fun reread => ?_
    rw [referenceOf_encode_eq_ok_iff here, Outcome.bind_eq_ok]
    constructor
    · rintro ⟨first, others, reads, same⟩
      cases same
      exact ⟨others, first, (ih later _).mp reads, rfl⟩
    · rintro ⟨others, first, reads, rfl⟩
      exact ⟨first, others, (ih later _).mpr reads, rfl⟩

/-- A list of references that every property accepts is read as itself if and only if none of them
is unset and each IRI stands for itself. -/
theorem decodeReferences_encode_eq_self_iff (distinct : context.TokensDistinct)
    (loose : ∀ target ∈ targets, target.Loose) (path : Path) :
    d.decodeReferences context asked path 0
        (targets.map fun target => (target.encode context []).1) = .ok targets ↔
      .unset ∉ targets ∧ ∀ text, .iri text ∈ targets → context.Spares text := by
  rw [decodeReferences_encode_eq_ok_iff loose, List.forall₂_same]
  constructor
  · intro reads
    refine ⟨fun among => ?_, fun text among => ?_⟩
    · obtain ⟨text, same, -⟩ := reads _ among
      cases same
    · obtain ⟨_, same, again, -⟩ := reads _ among
      cases same
      exact (Context.expand_compact_iff distinct).mp (Reference.iri.inj again).symm
  · rintro ⟨set, spares⟩ target among
    cases loose target among with
    | unset => exact absurd among set
    | @iri text shaped =>
      have again := (Context.expand_compact_iff distinct).mpr (spares text among)
      exact ⟨text, rfl, by rw [again], by rw [again]; exact shaped⟩

theorem decodeReferences_encode_ne_ok (loose : ∀ target ∈ targets, target.Loose)
    (unset : .unset ∈ targets) (path : Path) (rereads : List Reference) :
    d.decodeReferences context asked path 0
      (targets.map fun target => (target.encode context []).1) ≠ .ok rereads := by
  rw [Ne, decodeReferences_encode_eq_ok_iff loose]
  intro reads
  obtain ⟨_, -, _, same, -⟩ := exists_mem_of_forall₂ reads unset
  cases same

/-- A list in a property of lists of references is read one reference at a time. -/
theorem readSlot_list_eq_ok_iff {p : Property} {path : Path} {items : List Json} {slot : Slot}
    {cls : String} (holds : p.kind = .object cls) (many : p.isList = true) :
    d.readSlot p path (.list items) = .ok slot ↔ ∃ targets, slot = .references targets ∧
      d.decodeReferences p.context (d.registry.targetOf p) path 0 items = .ok targets := by
  rw [readSlot_eq_ok]
  constructor
  · intro reads
    cases reads with
    | scalar other | list other => cases holds.symm.trans other
    | reference _ single => cases many.symm.trans single
    | references _ _ read => exact ⟨_, rfl, read⟩
  · rintro ⟨targets, rfl, read⟩
    exact .references holds many read

end Decoder

/-- A property whose slot has a list of references is declared so. -/
theorem Object.Shaped.holds_references {o : Object} (shaped : o.Shaped) {key : String}
    {cell : Cell (List Reference)} (found : o.findReferences key = .ok cell) :
    (∃ cls, cell.property.kind = .object cls) ∧ cell.property.isList = true := by
  obtain ⟨declared, held⟩ := getElem?_properties.mp (getElem?_of_findReferences found)
  have cleared := shaped.cleared declared held
  unfold Slot.empty at cleared
  split at cleared
  case h_4 cls holds many => exact ⟨⟨cls, holds⟩, many⟩
  all_goals cases cleared

/-- Whatever accessors make of a list of references without objects, each step is accepted if and
only if the IRIs that it brings identify nodes. What is stored then is written as a list of as many
values. Null is among them if and only if an unset reference is stored, and then they are not read
again. They are read as what is stored if and only if no reference is unset and each IRI stands for
itself. -/
theorem Object.reread_afterReferences_iff {d : Decoder} {o : Object} {key : String}
    {cell : Cell (List Reference)} (shaped : o.Shaped) (found : o.findReferences key = .ok cell)
    (loose : ∀ target ∈ cell.content, target.Loose)
    (distinct : cell.property.context.TokensDistinct) {steps : List ReferencesStep}
    (noObject : ∀ step ∈ steps, ∀ target ∈ step.given, target.isObject = false) :
    ∃ targets, (o.afterReferences key steps).findReferences key =
        .ok { cell with content := targets } ∧
      (∀ step : ReferencesStep, (∀ target ∈ step.given, target.isObject = false) →
        ((∃ changed, (o.afterReferences key steps).changeReferences key step = .ok changed) ↔
          ∀ text, .iri text ∈ step.given → isIdentifier text = true)) ∧
      ∀ path seen, ∃ items,
        (Slot.references targets).encode cell.property seen = (.list items, seen) ∧
        items.length = targets.length ∧ (.null ∈ items ↔ .unset ∈ targets) ∧
        (.unset ∈ targets → ∀ slot, d.readSlot cell.property path (.list items) ≠ .ok slot) ∧
        (d.readSlot cell.property path (.list items) = .ok (.references targets) ↔
          .unset ∉ targets ∧
            ∀ text, .iri text ∈ targets → cell.property.context.Spares text) := by
  obtain ⟨⟨cls, holds⟩, many⟩ := shaped.holds_references found
  obtain ⟨targets, kept, found⟩ := exists_findReferences_after found loose noObject
  refine ⟨targets, found, fun step brings => ?_, fun path seen =>
    ⟨targets.map fun target => (target.encode cell.property.context []).1, ?_, List.length_map _,
      null_mem_encode_iff kept, fun unset slot read => ?_, ?_⟩⟩
  · simp only [changeReferences_eq_ok_iff found brings, exists_and_left, exists_eq', and_true]
    exact forall_loose_iff brings
  · rw [Slot.encode, encodeReferences_of_loose kept]
  · obtain ⟨rereads, -, read⟩ := (Decoder.readSlot_list_eq_ok_iff holds many).mp read
    exact Decoder.decodeReferences_encode_ne_ok kept unset path rereads read
  · rw [Decoder.readSlot_list_eq_ok_iff holds many,
      ← Decoder.decodeReferences_encode_eq_self_iff distinct kept path]
    constructor
    · rintro ⟨_, same, read⟩
      cases same
      exact read
    · exact fun read => ⟨targets, rfl, read⟩

namespace Sample

def song : ClassDecl where
  iri := "ex:Song"
  compact := some "Song"
  nodeKind := none
  idAlias := none
  isAbstract := false
  extensible := none
  parents := []
  properties := []

/-- A playlist lists songs, of which one has a short name. -/
def playlist : ClassDecl :=
  { song with
    iri := "ex:Playlist"
    compact := some "Playlist"
    properties := [⟨"songs", "ex:songs", some "songs", .object "ex:Song", true, none, none,
      [⟨"ex:intro", "intro"⟩], []⟩] }

def playlistRegistry : Registry :=
  (Registry.build "" [song, playlist]).toOption.getD ⟨"", [], []⟩

end Sample

/-- A new playlist takes an unset reference into its songs, writes null for it and cannot be read
again. -/
theorem Sample.playlist_unreadable : ∃ o cell changed,
    Registry.build "" [Sample.song, Sample.playlist] = .ok Sample.playlistRegistry ∧
      Sample.playlistRegistry.create "Playlist" = .ok o ∧ o.findReferences "songs" = .ok cell ∧
        cell.content = [] ∧ cell.property.context.pairs = [⟨"ex:intro", "intro"⟩] ∧
          o.changeReferences "songs" (.set [.iri "ex:a", .unset]) = .ok changed ∧
            changed.toJson = .object [("@type", .string "Playlist"),
              ("songs", .list [.string "ex:a", .null])] ∧
              (Decoder.mk Sample.playlistRegistry 5).readSlot cell.property .root
                (.list [.string "ex:a", .null]) =
                  failAt (Path.root.item 1) (.expectedObject "null") :=
  ⟨_, _, _, rfl, rfl, rfl, rfl, rfl, rfl, rfl, rfl⟩

/-- A new playlist that is given songs keeps those whose IRIs identify nodes, and is read again with
them. -/
theorem Sample.playlist_kept : ∃ o cell, Sample.playlistRegistry.create "Playlist" = .ok o ∧
    o.findReferences "songs" = .ok cell ∧
      (o.afterReferences "songs" [.set [.iri "ex:a"], .push (.iri "plain"),
        .push (.iri "ex:intro")]).findReferences "songs" =
          .ok { cell with content := [.iri "ex:a", .iri "ex:intro"] } ∧
        ∃ items, (Slot.references [.iri "ex:a", .iri "ex:intro"]).encode cell.property [] =
            (.list items, []) ∧ items.length = 2 ∧ .null ∉ items ∧
          (Decoder.mk Sample.playlistRegistry 5).readSlot cell.property .root (.list items) =
            .ok (.references [.iri "ex:a", .iri "ex:intro"]) := by
  obtain ⟨o, cell, created, shaped, found, empty, pairs, kept⟩ : ∃ o cell,
      Sample.playlistRegistry.create "Playlist" = .ok o ∧ o.Shaped ∧
        o.findReferences "songs" = .ok cell ∧ cell.content = [] ∧
          cell.property.context.pairs = [⟨"ex:intro", "intro"⟩] ∧
            (o.afterReferences "songs" [.set [.iri "ex:a"], .push (.iri "plain"),
              .push (.iri "ex:intro")]).findReferences "songs" =
                .ok { cell with content := [.iri "ex:a", .iri "ex:intro"] } :=
    ⟨_, _, rfl, rfl, rfl, rfl, rfl, rfl⟩
  have loose : ∀ target ∈ cell.content, target.Loose := by
    rw [empty]
    exact fun target among => absurd among List.not_mem_nil
  have distinct : cell.property.context.TokensDistinct := by
    rw [Context.TokensDistinct, pairs]
    decide
  have noObject : ∀ step ∈ [.set [.iri "ex:a"], .push (.iri "plain"), .push (.iri "ex:intro")],
      ∀ target ∈ ReferencesStep.given step, target.isObject = false := by decide
  obtain ⟨targets, stored, -, written⟩ := Object.reread_afterReferences_iff
    (d := ⟨Sample.playlistRegistry, 5⟩) shaped found loose distinct noObject
  cases stored.symm.trans kept
  have set : .unset ∉ ([.iri "ex:a", .iri "ex:intro"] : List Reference) := by simp
  obtain ⟨items, encoded, long, null, -, reads⟩ := written .root []
  refine ⟨o, cell, created, found, kept, items, encoded, long, set ∘ null.mp,
    reads.mpr ⟨set, fun text among pair there same => ?_⟩⟩
  rw [pairs] at there
  cases List.mem_singleton.mp there
  subst same
  simp at among

end ShapedGraph
