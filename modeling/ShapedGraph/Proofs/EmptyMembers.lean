import ShapedGraph.Proofs.Displacement
import ShapedGraph.Proofs.Envelope
import ShapedGraph.Proofs.Lookup

/-! Undeclared members without values. Setting a member never leaves one, since it removes what it
is to set to nothing. But an empty list in a JSON object is read to one, at every depth. It stays
until it is set or deleted, and in all that time it is found under its key and yet not written. -/

namespace ShapedGraph

open Object (extensionKeys)

/-! ## What undeclared members are read from -/

namespace Decoder

variable {d : Decoder} {path : Path} {target : Option NodeClass} {json : Json}
  {members : List (String × Json)} {o y : Object} {key : String}

theorem exists_item_of_mem_itemReadings {items : List Json} {position : Nat} {r : Reading}
    (among : r ∈ d.itemReadings path target position items) :
    ∃ (i : Nat) (item : Json) (path' : Path), items[i]? = some item ∧
      r ∈ d.readings path' target item := by
  induction items generalizing position with
  | nil => cases among
  | cons item items ih =>
    rcases List.mem_append.mp among with here | later
    · exact ⟨0, item, _, rfl, here⟩
    · obtain ⟨i, item, path', there, inside⟩ := ih later
      exact ⟨i + 1, item, path', there, inside⟩

theorem exists_member_of_mem_memberReadings {cls : NodeClass} {r : Reading}
    (among : r ∈ d.memberReadings path cls members) :
    ∃ m ∈ members, ∃ path' target', r ∈ d.readings path' target' m.2 := by
  induction members with
  | nil => cases among
  | cons m members ih =>
    rcases List.mem_append.mp among with here | later
    · exact ⟨m, List.mem_cons_self, _, _, here⟩
    · obtain ⟨m, there, inside⟩ := ih later
      exact ⟨m, List.mem_cons_of_mem _ there, inside⟩

/-- Each reading is of a JSON object that stands somewhere in the value. -/
theorem exists_place_of_mem_readings (ordered : json.Ordered) {r : Reading}
    (among : r ∈ d.readings path target json) :
    ∃ place members path' target', json.at? place = some (.object members) ∧
      d.decodeObject path' target' (.object members) = .ok r.object := by
  induction json using Json.induct generalizing path target with
  | null | bool | integer | float | string => cases among
  | list items ih =>
    cases ordered with
    | list each =>
      obtain ⟨i, item, path', there, inside⟩ := exists_item_of_mem_itemReadings among
      have item_mem := List.mem_of_getElem? there
      obtain ⟨place, members, found⟩ := ih item item_mem (each item item_mem) inside
      refine ⟨.index i :: place, members, ?_⟩
      rw [Json.at?_index, there]
      exact found
  | object members ih =>
    cases ordered with
    | object sorted each =>
      rw [readings] at among
      cases read : d.decodeObject path target (.object members) with
      | error e =>
        rw [read] at among
        cases among
      | ok o =>
        rw [read] at among
        rcases List.mem_cons.mp among with rfl | later
        · exact ⟨[], members, path, target, Json.at?_nil _, read⟩
        · obtain ⟨⟨key, value⟩, there, path', target', inside⟩ :=
            exists_member_of_mem_memberReadings later
          obtain ⟨place, members', found⟩ := ih _ there (each _ there) inside
          refine ⟨.name key :: place, members', ?_⟩
          rw [Json.at?_name, Members.get?_of_mem sorted there]
          exact found

/-- Every object inside an object that was read was read itself. -/
theorem exists_place_of_within (ordered : json.Ordered)
    (read : d.decodeObject path target json = .ok o) (inside : y ∈ o.within true) :
    ∃ place members path' target', json.at? place = some (.object members) ∧
      d.decodeObject path' target' (.object members) = .ok y := by
  obtain ⟨-, kept⟩ := (d.accounts json ordered).object path target o read
  rw [List.flatMap_singleton] at kept
  obtain ⟨r, among, rfl⟩ := List.mem_map.mp (kept.subset inside)
  exact exists_place_of_mem_readings ordered among

theorem extensions_of_create {registry : Registry} (made : registry.create key = .ok o) :
    o.extensions = [] := by
  rw [(Registry.create_eq_ok_iff.mp made).2.2]
  rfl

/-- Where objects come from: they are made of a class, or they are inside an object that is read
from a JSON value. -/
inductive Yields (d : Decoder) (json : Json) : Object → Prop where
  | created {key : String} {o : Object} (made : d.registry.create key = .ok o) : Yields d json o
  | read {path : Path} {target : Option NodeClass} {o x : Object}
    (read : d.decodeObject path target json = .ok o) (inside : x ∈ o.within true) :
    Yields d json x

/-- The object is read from a JSON object inside a value that has an empty list under a key which
the class of the object does not declare. -/
def ReadsEmpty (d : Decoder) (json : Json) (key : String) (o : Object) : Prop :=
  ∃ place members path target, json.at? place = some (.object members) ∧
    d.decodeObject path target (.object members) = .ok o ∧
      o.cls.memberRole key = .undeclared ∧ Members.get? members key = some (.list [])

/-- An object has an undeclared member without values if and only if it was read from an empty
list. -/
theorem Yields.extension?_eq_nil_iff (ordered : json.Ordered) (yields : d.Yields json o) :
    o.extension? key = some [] ↔ d.ReadsEmpty json key o := by
  constructor
  · intro empty
    cases yields with
    | created made =>
      rw [Object.extension?, extensions_of_create made] at empty
      cases empty
    | read read inside =>
      obtain ⟨place, members, path, target, there, read⟩ :=
        exists_place_of_within ordered read inside
      cases ordered.of_at? there with
      | object sorted _ =>
        obtain ⟨role, value, found, values⟩ := (get?_extensions_eq_some_iff sorted read).mp empty
        rw [(readExtensions_eq_nil_iff values).mp rfl] at found
        exact ⟨place, members, path, target, there, read, role, found⟩
  · rintro ⟨place, members, path, target, there, read, role, found⟩
    cases ordered.of_at? there with
    | object sorted _ =>
      exact (get?_extensions_eq_some_iff sorted read).mpr ⟨role, _, found, rfl⟩

theorem Yields.sorted_extensions (yields : d.Yields json o) (ordered : json.Ordered) :
    Members.Sorted o.extensions := by
  cases yields with
  | created made =>
    rw [extensions_of_create made]
    exact Members.sorted_nil
  | read read inside =>
    obtain ⟨_, _, _, _, -, read⟩ := exists_place_of_within ordered read inside
    exact sorted_extensions_of_decodeObject read

end Decoder

/-! ## What steps leave of them -/

namespace Object

variable {o x z changed : Object} {w : Workspace} {step : ObjectStep} {steps : List ObjectStep}
  {next after : Nat} {key : String}

/-- Steps taken on an object, one after the other, whatever they find in the workspace, make another
of it. -/
inductive Becomes (x : Object) : List ObjectStep → Object → Prop where
  | start : Becomes x [] x
  | step {steps : List ObjectStep} {z : Object} (before : Becomes x steps z) (w : Workspace)
    (step : ObjectStep) {result : Answer × Object} {next : Nat}
    (ran : z.run w step w.nextHandle = some (result, next)) :
    Becomes x (steps ++ [step]) result.2

theorem Changes.sorted_extensions (changes : o.Changes step changed)
    (sorted : Members.Sorted o.extensions) : Members.Sorted changed.extensions := by
  cases changes with
  | nothing | slot | id | setType | clearType => exact sorted
  | deleteExtension => exact sorted.filter _
  | setExtension name terms given =>
    show Members.Sorted (if given.isEmpty then _ else _)
    split
    · exact sorted.filter _
    · exact Members.sorted_insert sorted _ _

/-- Steps that do not replace undeclared members leave all of them. -/
theorem Changes.extensions_eq (changes : o.Changes step changed)
    (unset : ∀ name terms, step ≠ .setExtension name terms)
    (undeleted : ∀ name, step ≠ .deleteExtension name) : changed.extensions = o.extensions := by
  cases changes with
  | nothing | slot | id | setType | clearType => rfl
  | setExtension name terms => exact absurd rfl (unset name terms)
  | deleteExtension name => exact absurd rfl (undeleted name)

/-- One step: a member without values is left if it was there before and is not replaced. -/
theorem extension?_of_run {result : Answer × Object}
    (extensible : o.extension? key = some [] → o.cls.isExtensible = true)
    (ran : o.run w step next = some (result, after)) :
    result.2.extension? key = some [] ↔ o.extension? key = some [] ∧
      (∀ terms, step ≠ .setExtension key terms) ∧ step ≠ .deleteExtension key := by
  by_cases set : ∃ name terms, step = .setExtension name terms
  · obtain ⟨name, terms, rfl⟩ := set
    obtain ⟨values, middle, -, ran⟩ := Naming.bind_eq_some.mp ran
    obtain ⟨rfl, -⟩ := Naming.pure_eq_some.mp ran
    show (o.change (o.setExtension name values)).2.extension? key = some [] ↔ _
    rw [setExtension]
    split
    case isFalse refused =>
      exact iff_of_false (fun kept => refused (extensible kept)) fun kept =>
        refused (extensible kept.1)
    show Members.get? (if values.isEmpty then _ else _) key = some [] ↔ _
    by_cases same : name = key
    · subst same
      refine iff_of_false (fun empty => ?_) fun kept => kept.2.1 terms rfl
      split at empty
      · rw [Members.get?_erase, if_pos rfl] at empty
        cases empty
      · rename_i given
        rw [Members.get?_insert, if_pos rfl] at empty
        cases empty
        exact given rfl
    · have other : key ≠ name := Ne.symm same
      have untouched : Members.get? (if values.isEmpty then Members.erase o.extensions name
          else Members.insert o.extensions name values) key = o.extension? key := by
        split
        · rw [Members.get?_erase, if_neg other, extension?]
        · rw [Members.get?_insert, if_neg other, extension?]
      rw [untouched]
      simp [same]
  by_cases deleted : ∃ name, step = .deleteExtension name
  · obtain ⟨name, rfl⟩ := deleted
    obtain ⟨rfl, -⟩ := Naming.pure_eq_some.mp ran
    show Members.get? (Members.erase o.extensions name) key = some [] ↔ _
    rw [Members.get?_erase, extension?]
    by_cases same : key = name
    · simp [same]
    · simp [same, Ne.symm same]
  · have unset : ∀ name terms, step ≠ .setExtension name terms :=
      fun name terms same => set ⟨name, terms, same⟩
    have undeleted : ∀ name, step ≠ .deleteExtension name := fun name same => deleted ⟨name, same⟩
    rw [extension?, (Changes.of_run ran).extensions_eq unset undeleted, extension?]
    exact (and_iff_left ⟨unset key, undeleted key⟩).symm

theorem Becomes.cls (becomes : x.Becomes steps z) : z.cls = x.cls := by
  induction becomes with
  | start => rfl
  | step _ w step ran ih => exact (Changes.of_run ran).cls.trans ih

theorem Becomes.sorted_extensions (becomes : x.Becomes steps z)
    (sorted : Members.Sorted x.extensions) : Members.Sorted z.extensions := by
  induction becomes with
  | start => exact sorted
  | step _ w step ran ih => exact (Changes.of_run ran).sorted_extensions ih

/-- A run: a member without values is left if it was there at first and no step replaced it. -/
theorem Becomes.extension?_eq_nil_iff (becomes : x.Becomes steps z)
    (extensible : x.extension? key = some [] → x.cls.isExtensible = true) :
    z.extension? key = some [] ↔ x.extension? key = some [] ∧
      (∀ terms, .setExtension key terms ∉ steps) ∧ .deleteExtension key ∉ steps := by
  induction becomes with
  | start => simp
  | step before w step ran ih =>
    rw [extension?_of_run (fun kept => before.cls ▸ extensible (ih.mp kept).1) ran, ih]
    simp only [List.mem_append, List.mem_singleton, not_or, forall_and, ne_eq, @eq_comm _ step]
    tauto

/-! ## What is written of them -/

/-- The values of the undeclared member with a key are written under the key. -/
def WritesUndeclared (o : Object) (key : String) (seen : Seen) : Prop :=
  ∃ values met, o.extension? key = some values ∧ values ≠ [] ∧
    Members.get? (o.encode seen).1 key = some (.list (encodeExtensionValues values met).1)

theorem writesUndeclared_iff (sorted : Members.Sorted o.extensions) (seen : Seen) :
    o.WritesUndeclared key seen ↔ ∃ values, o.extension? key = some values ∧ values ≠ [] := by
  constructor
  · rintro ⟨values, met, found, nonempty, -⟩
    exact ⟨values, found, nonempty⟩
  · rintro ⟨values, found, nonempty⟩
    have kept : (key, values) ∈ o.extensions.filter fun extension => !extension.2.isEmpty :=
      List.mem_filter.mpr ⟨Members.mem_of_get? found, by simpa using nonempty⟩
    obtain ⟨other, met, there, written⟩ :=
      exists_get?_encode_of_mem (List.mem_map_of_mem kept) seen
    cases found.symm.trans (Members.get?_of_mem sorted there)
    exact ⟨values, met, found, nonempty, written⟩

end Object

/-- Whatever steps make of an object that was made or read, its undeclared members without values
are those that were read from an empty list, at any depth, and that no step has set or deleted
since. Where there are no such members, and only there, a member is in the object if and only if its
values are written. -/
theorem Decoder.mem_extensions_nil_iff {d : Decoder} {json : Json} {x z : Object}
    {steps : List ObjectStep} (ordered : json.Ordered) (yields : d.Yields json x)
    (becomes : x.Becomes steps z) (key : String) :
    ((key, []) ∈ z.extensions ↔ d.ReadsEmpty json key x ∧
        (∀ terms, .setExtension key terms ∉ steps) ∧ .deleteExtension key ∉ steps) ∧
      ∀ seen, ((∃ values, (key, values) ∈ z.extensions) ↔ z.WritesUndeclared key seen) ↔
        (key, []) ∉ z.extensions := by
  have sorted := becomes.sorted_extensions (yields.sorted_extensions ordered)
  have found (values : List Extension) :
      (key, values) ∈ z.extensions ↔ z.extension? key = some values :=
    ⟨Members.get?_of_mem sorted, Members.mem_of_get?⟩
  simp only [found]
  refine ⟨?_, fun seen => ?_⟩
  · rw [becomes.extension?_eq_nil_iff, yields.extension?_eq_nil_iff ordered]
    rintro empty
    obtain ⟨-, -, -, -, -, -, role, -⟩ := (yields.extension?_eq_nil_iff ordered).mp empty
    exact (NodeClass.memberRole_eq_undeclared_iff.mp role).2.1
  · rw [Object.writesUndeclared_iff sorted]
    constructor
    · intro same empty
      obtain ⟨values, filled, nonempty⟩ := same.mp ⟨[], empty⟩
      exact nonempty (Option.some.inj (filled.symm.trans empty))
    · rintro filled
      refine ⟨fun ⟨values, there⟩ => ⟨values, there, ?_⟩, fun ⟨values, there, _⟩ => ⟨values, there⟩⟩
      rintro rfl
      exact filled there

namespace Sample

/-- A jar that can hold anything. -/
def jar : ClassDecl where
  iri := "ex:Jar"
  compact := some "Jar"
  nodeKind := none
  idAlias := none
  isAbstract := false
  extensible := some true
  parents := []
  properties := []

def jarRegistry : Registry := (Registry.build "" [jar]).toOption.getD ⟨"", [], []⟩

/-- A jar inside a jar, with an empty list in it. -/
def jarDocument : Json := .object [("@type", .string "Jar"),
  ("inner", .object [("@type", .string "Jar"), ("notes", .list [])])]

theorem ordered_jarDocument : jarDocument.Ordered := by
  have inner : (Json.object [("@type", .string "Jar"), ("notes", .list [])]).Ordered := by
    refine .object (by decide) ?_
    simp only [List.forall_mem_cons]
    exact ⟨.string _, .list nofun, nofun⟩
  refine .object (by decide) ?_
  simp only [List.forall_mem_cons]
  exact ⟨.string _, inner, nofun⟩

end Sample

/-- The inner jar is read with notes, of which there are none and which are not written. -/
theorem Sample.notes_unwritten : ∃ o x, Registry.build "" [Sample.jar] = .ok Sample.jarRegistry ∧
    (Decoder.mk Sample.jarRegistry 5).decodeObject .root none Sample.jarDocument = .ok o ∧
      x ∈ o.within true ∧ x.extensions = [("notes", [])] ∧
        x.toJson = .object [("@type", .string "Jar")] :=
  ⟨_, _, rfl, rfl, .tail _ (.head _), rfl, rfl⟩

/-- When it is given notes, they are written. -/
theorem Sample.notes_written : ∃ x z,
    (Decoder.mk Sample.jarRegistry 5).Yields Sample.jarDocument x ∧
      x.Becomes [.setExtension "notes" [.string "salt"]] z ∧ ("notes", []) ∉ z.extensions ∧
        ∀ seen, (∃ values, ("notes", values) ∈ z.extensions) ↔ z.WritesUndeclared "notes" seen := by
  obtain ⟨o, x, z, read, inside, becomes⟩ : ∃ o x z,
      (Decoder.mk Sample.jarRegistry 5).decodeObject .root none Sample.jarDocument = .ok o ∧
        x ∈ o.within true ∧ x.Becomes [.setExtension "notes" [.string "salt"]] z :=
    ⟨_, _, _, rfl, .tail _ (.head _),
      .step .start (.empty Sample.jarRegistry) _ (Option.some_get rfl).symm⟩
  have yields : (Decoder.mk Sample.jarRegistry 5).Yields Sample.jarDocument x := .read read inside
  obtain ⟨empty, written⟩ :=
    Decoder.mem_extensions_nil_iff Sample.ordered_jarDocument yields becomes "notes"
  have filled : ("notes", []) ∉ z.extensions := fun there =>
    (empty.mp there).2.1 _ List.mem_cons_self
  exact ⟨x, z, yields, becomes, filled, fun seen => (written seen).mpr filled⟩

end ShapedGraph
