import ShapedGraph.Proofs.Accounts
import ShapedGraph.Proofs.Changes
import ShapedGraph.Proofs.Keys

/-! Members of an object that its undeclared members take the place of. A step may store values
under any key, also under one that the class declares, and undeclared members are written last. So
the type, the identifier and the properties of an object are found in what is written for it
exactly as far as no undeclared member has their key. -/

namespace ShapedGraph

open Object (slotKeys extensionKeys)
open Members (get?_insert)

/-! ## Undeclared members that steps leave -/

namespace Object

variable {o changed : Object} {step : ObjectStep} {steps : List ObjectStep} {c : NodeClass}

/-- An object of the class, each undeclared member of which has values that one of the steps gave
it. -/
structure Furnished (c : NodeClass) (steps : List ObjectStep) (o : Object) : Prop where
  cls : o.cls = c
  given : ∀ key values, (key, values) ∈ o.extensions →
    values ≠ [] ∧ ∃ terms, .setExtension key terms ∈ steps

theorem Furnished.changes (furnished : o.Furnished c steps) (changes : o.Changes step changed) :
    changed.Furnished c (steps ++ [step]) := by
  refine ⟨changes.cls.trans furnished.cls, fun key values there => ?_⟩
  rcases changes.mem_extensions there with before | ⟨nonempty, terms, rfl⟩
  · obtain ⟨nonempty, terms, taken⟩ := furnished.given key values before
    exact ⟨nonempty, terms, List.mem_append_left _ taken⟩
  · exact ⟨nonempty, terms, List.mem_append_right _ List.mem_cons_self⟩

end Object

/-- An object that was made of the class that a key names, and what became of it by these steps,
one after the other, whatever they found in the workspace. -/
inductive Registry.Makes (registry : Registry) (key : String) :
    List ObjectStep → Object → Prop where
  | create {o : Object} (made : registry.create key = .ok o) : Makes registry key [] o
  | step {steps : List ObjectStep} {o : Object} (before : Makes registry key steps o)
    (w : Workspace) (step : ObjectStep) {result : Answer × Object} {next : Nat}
    (ran : o.run w step w.nextHandle = some (result, next)) :
    Makes registry key (steps ++ [step]) result.2

theorem Registry.Makes.furnished {registry : Registry} {key : String} {c : NodeClass}
    {steps : List ObjectStep} {o : Object} (makes : registry.Makes key steps o)
    (found : registry.get? key = some c) : o.Furnished c steps := by
  induction makes with
  | create made =>
    obtain ⟨named, -, blank⟩ := Registry.create_eq_ok_iff.mp made
    refine ⟨Option.some.inj (named.symm.trans found), fun _ _ there => ?_⟩
    rw [blank] at there
    exact absurd there List.not_mem_nil
  | step _ w step ran ih => exact ih.changes (.of_run ran)

/-! ## What is found under a key -/

/-- Under the key of an undeclared member the values of one are found. -/
theorem exists_get?_encodeExtensions {extensions : List (String × List Extension)}
    {members : Members Json} {seen : Seen} {key : String} (among : key ∈ extensionKeys extensions) :
    ∃ values met, (key, values) ∈ extensions ∧
      Members.get? (encodeExtensions extensions members seen).1 key =
        some (.list (encodeExtensionValues values met).1) := by
  induction extensions generalizing members seen with
  | nil => exact absurd among List.not_mem_nil
  | cons extension extensions ih =>
    obtain ⟨name, values⟩ := extension
    rw [encodeExtensions]
    by_cases empty : values.isEmpty = true
    · rw [if_pos empty]
      rw [extensionKeys_cons_of_empty empty] at among
      obtain ⟨later, met, there, written⟩ := ih among
      exact ⟨later, met, List.mem_cons_of_mem _ there, written⟩
    · rw [if_neg empty]
      rw [extensionKeys_cons_of_nonempty empty] at among
      by_cases again : key ∈ extensionKeys extensions
      · obtain ⟨later, met, there, written⟩ := ih again
        exact ⟨later, met, List.mem_cons_of_mem _ there, written⟩
      · obtain rfl := (List.mem_cons.mp among).resolve_right again
        exact ⟨values, seen, List.mem_cons_self, by
          rw [get?_encodeExtensions again, get?_insert, if_pos rfl]⟩

namespace Object

variable {o : Object} {key : String} {c : NodeClass}

/-- The object without its undeclared members. -/
def plain (o : Object) : Object := { o with extensions := [] }

theorem encode_plain (o : Object) (seen : Seen) :
    o.plain.encode seen = encodeSlots o.cls.layout o.slots o.head seen := by
  rw [encode_eq]
  rfl

/-- Under other keys an object is written as if it had no undeclared members. -/
theorem get?_encode_of_not_mem (other : key ∉ extensionKeys o.extensions) (seen : Seen) :
    Members.get? (o.encode seen).1 key = Members.get? (o.plain.encode seen).1 key := by
  rw [encode_eq, get?_encodeExtensions other, encode_plain]

theorem exists_get?_encode_of_mem (among : key ∈ extensionKeys o.extensions) (seen : Seen) :
    ∃ values met, (key, values) ∈ o.extensions ∧ Members.get? (o.encode seen).1 key =
      some (.list (encodeExtensionValues values met).1) := by
  rw [encode_eq]
  exact exists_get?_encodeExtensions among

/-- A text that an object is written with under a key without its undeclared members stays there if
and only if none of these has the key. -/
theorem get?_encode_eq_string_iff {seen : Seen} {text other : String}
    (plain : Members.get? (o.plain.encode seen).1 key = some (.string text)) :
    Members.get? (o.encode seen).1 key = some (.string other) ↔
      key ∉ extensionKeys o.extensions ∧ text = other := by
  by_cases among : key ∈ extensionKeys o.extensions
  · obtain ⟨values, met, -, list⟩ := exists_get?_encode_of_mem among seen
    rw [list]
    exact iff_of_false nofun fun ⟨absent, _⟩ => absent among
  · rw [get?_encode_of_not_mem among, plain]
    simp [among]

/-- What stands in the place of the type is the type, unless the class has the identifier written
there and it is another text. -/
theorem exists_get?_head_type (o : Object) :
    ∃ text, Members.get? o.head "@type" = some (.string text) ∧
      (text = o.typeIri ↔
        (o.cls.idKey = "@type" → ∀ id, o.id = some id → id = o.typeIri)) := by
  cases named : o.id with
  | none =>
    exact ⟨o.typeIri, get?_head_type (fun _ same => nomatch named.symm.trans same),
      iff_of_true rfl nofun⟩
  | some id =>
    by_cases same : o.cls.idKey = "@type"
    · refine ⟨id, same ▸ get?_head_id named, fun type _ other here => ?_, fun all => ?_⟩
      · cases here
        exact type
      · exact all same id rfl
    · exact ⟨o.typeIri, get?_head_type fun _ _ => Ne.symm same,
        iff_of_true rfl fun here => absurd here same⟩

end Object

namespace Registry.KeysDistinct

variable {registry : Registry} {o : Object}

theorem not_mem_slotKeys (distinct : registry.KeysDistinct) (registered : o.cls ∈ registry.classes)
    {key : String} (reserved : key = "@type" ∨ key = o.cls.idKey) :
    key ∉ slotKeys o.properties := by
  intro among
  obtain ⟨⟨p, slot⟩, there, rfl⟩ := List.mem_map.mp among
  have declared : p ∈ o.cls.layout := (List.of_mem_zip (List.mem_filter.mp there).1).1
  obtain ⟨notType, notIdKey, -⟩ := distinct.unreserved registered declared p.key_mem_keys
  exact reserved.elim notType notIdKey

theorem get?_plain_of_reserved (distinct : registry.KeysDistinct)
    (registered : o.cls ∈ registry.classes) {key : String}
    (reserved : key = "@type" ∨ key = o.cls.idKey) (seen : Seen) :
    Members.get? (o.plain.encode seen).1 key = Members.get? o.head key := by
  rw [Object.encode_plain]
  exact get?_encodeSlots (distinct.not_mem_slotKeys registered reserved)

/-- Two slots of an object whose properties have the same key are the same. -/
theorem slot_unique (distinct : registry.KeysDistinct) (registered : o.cls ∈ registry.classes)
    {p q : Property} {slot other : Slot} (hp : (p, slot) ∈ o.properties)
    (hq : (q, other) ∈ o.properties) (same : p.key = q.key) : (p, slot) = (q, other) := by
  obtain ⟨i, hi⟩ := List.mem_iff_getElem?.mp hp
  obtain ⟨j, hj⟩ := List.mem_iff_getElem?.mp hq
  have here := (Object.getElem?_properties.mp hi).1
  have there := (Object.getElem?_properties.mp hj).1
  obtain rfl := distinct.place_unique registered here there p.key_mem_keys
    (same ▸ q.key_mem_keys)
  exact Option.some.inj (hi.symm.trans hj)

/-- Each slot that is set is found under its key. -/
theorem exists_get?_plain_slot (distinct : registry.KeysDistinct)
    (registered : o.cls ∈ registry.classes) {p : Property} {slot : Slot}
    (there : (p, slot) ∈ o.properties) (set : slot.isSet = true) (seen : Seen) :
    ∃ met, Members.get? (o.plain.encode seen).1 p.key = some (slot.encode p met).1 := by
  have declared : p ∈ o.cls.layout := (List.of_mem_zip there).1
  obtain ⟨notType, notIdKey, -⟩ := distinct.unreserved registered declared p.key_mem_keys
  have writes : o.plain.Writes (p.key, (slot.encode p []).1) := .slot [] there set
  obtain ⟨value, found⟩ := (Object.hasKey_encode writes seen).get?
  have written := Object.writes_of_mem_encode (Members.mem_of_get? found)
  generalize same : (p.key, value) = m at written
  cases written with
  | type => exact absurd (congrArg Prod.fst same) notType
  | id => exact absurd (congrArg Prod.fst same) notIdKey
  | extension _ inside => exact absurd inside List.not_mem_nil
  | @slot q other met inside _ =>
    have key : p.key = q.key := congrArg Prod.fst same
    cases distinct.slot_unique registered there inside key
    exact ⟨met, found.trans (congrArg some (congrArg Prod.snd same))⟩

end Registry.KeysDistinct

/-- In a registry in which no key means two things, the type, the identifier and each property of an
object that steps have led to are written under their keys if and only if no undeclared member has
that key. Otherwise a list of the values of such a member is found there, which one of the steps
has stored. -/
theorem Registry.Makes.declared_written_iff {registry : Registry} {key : String} {c : NodeClass}
    {steps : List ObjectStep} {o : Object} (distinct : registry.KeysDistinct)
    (found : registry.get? key = some c) (makes : registry.Makes key steps o) (seen : Seen) :
    (∀ stray ∈ extensionKeys o.extensions, ∃ terms, .setExtension stray terms ∈ steps) ∧
    (Members.get? (o.encode seen).1 "@type" = some (.string o.typeIri) ↔
      "@type" ∉ extensionKeys o.extensions ∧
        (c.idKey = "@type" → ∀ id, o.id = some id → id = o.typeIri)) ∧
    (∀ id, o.id = some id → (Members.get? (o.encode seen).1 c.idKey = some (.string id) ↔
      c.idKey ∉ extensionKeys o.extensions)) ∧
    ∀ p slot, (p, slot) ∈ o.properties → slot.isSet = true → ∃ met,
      Members.get? (o.plain.encode seen).1 p.key = some (slot.encode p met).1 ∧
      (p.key ∉ extensionKeys o.extensions →
        Members.get? (o.encode seen).1 p.key = some (slot.encode p met).1) ∧
      (p.key ∈ extensionKeys o.extensions → ∃ values met, (p.key, values) ∈ o.extensions ∧
        Members.get? (o.encode seen).1 p.key =
          some (.list (encodeExtensionValues values met).1)) := by
  obtain ⟨rfl, given⟩ := makes.furnished found
  have registered : o.cls ∈ registry.classes := Registry.mem_of_get? found
  refine ⟨fun stray among => ?_, ?_, fun id named => ?_, fun p slot there set => ?_⟩
  · obtain ⟨⟨stray, values⟩, there, rfl⟩ := List.mem_map.mp among
    exact (given stray values (List.mem_filter.mp there).1).2
  · obtain ⟨text, head, type⟩ := o.exists_get?_head_type
    rw [← type]
    exact Object.get?_encode_eq_string_iff
      ((distinct.get?_plain_of_reserved registered (.inl rfl) seen).trans head)
  · have head := Object.get?_head_id named
    rw [Object.get?_encode_eq_string_iff
      ((distinct.get?_plain_of_reserved registered (.inr rfl) seen).trans head)]
    exact and_iff_left rfl
  · obtain ⟨met, plain⟩ := distinct.exists_get?_plain_slot registered there set seen
    exact ⟨met, plain, fun other => (Object.get?_encode_of_not_mem other seen).trans plain,
      fun among => Object.exists_get?_encode_of_mem among seen⟩

namespace Sample

/-- A diary with a title and whatever else is put into it. -/
def diary : ClassDecl where
  iri := "ex:Diary"
  compact := some "Diary"
  nodeKind := none
  idAlias := none
  isAbstract := false
  extensible := some true
  parents := []
  properties := [⟨"title", "ex:title", some "title", .scalar .string, false, none, none, [], []⟩]

def diaryRegistry : Registry := (Registry.build "" [diary]).toOption.getD ⟨"", [], []⟩

/-- Steps that give a diary an identifier, a title, and a value under some other key. -/
def diarySteps (stray : String) : List ObjectStep :=
  [.setId "ex:a", .set "title" (.scalar (.string "one")), .setExtension stray [.string "two"]]

end Sample

/-- A title is stored, and then a value is put in its place. -/
theorem Sample.diary_displaced : ∃ c o p slot,
    Registry.build "" [Sample.diary] = .ok Sample.diaryRegistry ∧
      Sample.diaryRegistry.KeysDistinct ∧ Sample.diaryRegistry.get? "Diary" = some c ∧
        c.isExtensible = true ∧ Sample.diaryRegistry.Makes "Diary" (Sample.diarySteps "title") o ∧
          (p, slot) ∈ o.properties ∧ slot.isSet = true ∧
            (∀ met, (slot.encode p met).1 = .string "one") ∧
              ∀ seen, Members.get? (o.encode seen).1 p.key = some (.list [.string "two"]) := by
  have made : Sample.diaryRegistry.Makes "Diary" (Sample.diarySteps "title") _ :=
    .step (.step (.step (.create rfl) (.empty Sample.diaryRegistry) _ (Option.some_get rfl).symm)
      (.empty Sample.diaryRegistry) _ (Option.some_get rfl).symm)
      (.empty Sample.diaryRegistry) _ (Option.some_get rfl).symm
  exact ⟨_, _, _, _, rfl, by decide, rfl, rfl, made, .head _, rfl, fun _ => rfl, fun _ => rfl⟩

/-- Under another key the value displaces nothing. -/
theorem Sample.diary_kept : ∃ c o p slot,
    Sample.diaryRegistry.get? "Diary" = some c ∧ Sample.diaryRegistry.KeysDistinct ∧
      Sample.diaryRegistry.Makes "Diary" (Sample.diarySteps "mood") o ∧
        Members.get? (o.encode []).1 "@type" = some (.string "Diary") ∧
          Members.get? (o.encode []).1 "@id" = some (.string "ex:a") ∧
            (p, slot) ∈ o.properties ∧ p.key = "title" ∧
              Members.get? (o.encode []).1 "title" = some (.string "one") := by
  obtain ⟨c, o, p, slot, found, made, type, idKey, id, there, key, set, written, stray⟩ :
      ∃ c o p slot, Sample.diaryRegistry.get? "Diary" = some c ∧
        Sample.diaryRegistry.Makes "Diary" (Sample.diarySteps "mood") o ∧ o.typeIri = "Diary" ∧
          c.idKey = "@id" ∧ o.id = some "ex:a" ∧ (p, slot) ∈ o.properties ∧ p.key = "title" ∧
            slot.isSet = true ∧ (∀ met, (slot.encode p met).1 = .string "one") ∧
              extensionKeys o.extensions = ["mood"] :=
    ⟨_, _, _, _, rfl, .step (.step (.step (.create rfl) (.empty Sample.diaryRegistry) _
      (Option.some_get rfl).symm) (.empty Sample.diaryRegistry) _ (Option.some_get rfl).symm)
      (.empty Sample.diaryRegistry) _ (Option.some_get rfl).symm, rfl, rfl, rfl, .head _, rfl, rfl,
      fun _ => rfl, rfl⟩
  have distinct : Sample.diaryRegistry.KeysDistinct := by decide
  obtain ⟨-, typed, identified, slots⟩ := made.declared_written_iff distinct found []
  obtain ⟨met, -, kept, -⟩ := slots p slot there set
  rw [stray] at typed identified kept
  refine ⟨c, o, p, slot, found, distinct, made, ?_, ?_, there, key, ?_⟩
  · rw [← type]
    exact typed.mpr ⟨by decide, fun same => absurd (idKey.symm.trans same) (by decide)⟩
  · rw [← idKey]
    exact (identified "ex:a" id).mpr (by rw [idKey]; decide)
  · rw [← key, ← written met]
    exact kept (by rw [key]; decide)

end ShapedGraph
