import ShapedGraph.Proofs.Tally

/-! What is written for an object and for what it holds accounts for the mentions in it, as long as
no member takes the place of another. -/

namespace ShapedGraph

/-- A log accounts for the mentions in a JSON value. -/
structure Accounts (json : Json) (top : List Mention) (log : Log) : Prop where
  mentions : ∀ m, json.Mentions top m ↔ ∃ full, (m, full) ∈ log
  full : ∀ m, (m, true) ∈ log →
    ∃ members, json.at? m.place = some (.object members) ∧ m.object.InFull members
  short : ∀ m, (m, false) ∈ log →
    ∃ id, m.object.id = some id ∧ json.at? m.place = some (.string (m.context.compact id))

/-- Values stand one after the other from a position on, in a list at a place. -/
def Json.Lists (json : Json) (place : List Segment) (position : Nat) (items : List Json) : Prop :=
  ∀ i item, items[i]? = some item → json.at? (place ++ [.index (position + i)]) = some item

namespace Json.Lists

variable {json item : Json} {place : List Segment} {position : Nat} {items : List Json}

theorem list (items : List Json) : (Json.list items).Lists [] 0 items := by
  intro i item there
  rw [List.nil_append, at?_index, Nat.zero_add, there]
  exact at?_nil item

theorem head (lists : json.Lists place position (item :: items)) :
    json.at? (place ++ [.index position]) = some item := lists 0 item rfl

theorem tail (lists : json.Lists place position (item :: items)) :
    json.Lists place (position + 1) items := by
  intro i other there
  rw [Nat.add_right_comm]
  exact lists (i + 1) other there

end Json.Lists

namespace Json.Mentions

variable {json inner : Json} {top other : List Mention} {m : Mention}

theorem mono (mention : json.Mentions top m) (subset : top ⊆ other) : json.Mentions other m := by
  induction mention with
  | top there => exact .top (subset there)
  | inside _ full there ih => exact .inside ih full there

theorem append_iff :
    json.Mentions (top ++ other) m ↔ json.Mentions top m ∨ json.Mentions other m := by
  constructor
  · intro mention
    induction mention with
    | top there => exact (List.mem_append.mp there).imp .top .top
    | inside _ full there ih =>
      exact ih.imp (fun outer => .inside outer full there) (fun outer => .inside outer full there)
  · rintro (mention | mention)
    · exact mention.mono (List.subset_append_left _ _)
    · exact mention.mono (List.subset_append_right _ _)

/-- What is mentioned in a part of a value is mentioned in the value. -/
theorem under_iff {place : List Segment} (part : json.at? place = some inner) :
    json.Mentions (top.map (.under place)) m ↔
      ∃ outer, inner.Mentions top outer ∧ m = outer.under place := by
  constructor
  · intro mention
    induction mention with
    | top there =>
      obtain ⟨outer, among, rfl⟩ := List.mem_map.mp there
      exact ⟨outer, .top among, rfl⟩
    | inside _ full there ih =>
      obtain ⟨outer, mention, rfl⟩ := ih
      rw [Mention.under_place, Json.at?_append, part] at full
      exact ⟨_, .inside mention full there, by simp⟩
  · rintro ⟨outer, mention, rfl⟩
    induction mention with
    | top there => exact .top (List.mem_map_of_mem there)
    | @inside m next members _ full there ih =>
      have found : json.at? (m.under place).place = some (.object members) := by
        rw [Mention.under_place, Json.at?_append, part]
        exact full
      have further := ih.inside found there
      rwa [Mention.under_place, ← Mention.under_under] at further

/-- Objects on top that are written in full mention all that is mentioned below them. -/
theorem full_iff (full : ∀ m ∈ top, ∃ members, json.at? m.place = some (.object members)) :
    json.Mentions top m ↔ m ∈ top ∨
      json.Mentions (top.flatMap Mention.below) m := by
  constructor
  · intro mention
    induction mention with
    | top there => exact .inl there
    | @inside m inner _ _ found there ih =>
      rcases ih with above | below
      · exact .inr (.top (List.mem_flatMap.mpr ⟨m, above, List.mem_map_of_mem there⟩))
      · exact .inr (.inside below found there)
  · rintro (there | mention)
    · exact .top there
    · induction mention with
      | top there =>
        obtain ⟨outer, above, there⟩ := List.mem_flatMap.mp there
        obtain ⟨inner, among, rfl⟩ := List.mem_map.mp there
        obtain ⟨members, found⟩ := full outer above
        exact .inside (.top above) found among
      | inside _ found there ih => exact .inside ih found there

end Json.Mentions

namespace Accounts

variable {json inner : Json} {top other : List Mention} {log more : Log}

theorem nil (json : Json) : Accounts json [] [] := by
  refine ⟨fun m => ⟨fun mention => ?_, nofun⟩, nofun, nofun⟩
  induction mention with
  | top there => cases there
  | inside _ _ _ ih =>
    obtain ⟨_, there⟩ := ih
    cases there

theorem append (first : Accounts json top log) (second : Accounts json other more) :
    Accounts json (top ++ other) (log ++ more) where
  mentions m := by
    simp only [Json.Mentions.append_iff, first.mentions, second.mentions, List.mem_append,
      exists_or]
  full m there := (List.mem_append.mp there).elim (first.full m) (second.full m)
  short m there := (List.mem_append.mp there).elim (first.short m) (second.short m)

theorem under (accounts : Accounts inner top log) {place : List Segment}
    (part : json.at? place = some inner) :
    Accounts json (top.map (.under place)) (log.under place) where
  mentions m := by
    simp only [Json.Mentions.under_iff part, accounts.mentions, Log.mem_under]
    constructor
    · rintro ⟨outer, ⟨full, there⟩, same⟩
      exact ⟨full, outer, there, same⟩
    · rintro ⟨full, outer, there, same⟩
      exact ⟨outer, ⟨full, there⟩, same⟩
  full m there := by
    obtain ⟨outer, among, rfl⟩ := Log.mem_under.mp there
    rw [Mention.under_place, Json.at?_append, part]
    exact accounts.full outer among
  short m there := by
    obtain ⟨outer, among, rfl⟩ := Log.mem_under.mp there
    rw [Mention.under_place, Json.at?_append, part]
    exact accounts.short outer among

/-- The identifier of an object mentions it and nothing else. -/
theorem identifier {m : Mention} {id : String} (here : m.place = [])
    (named : m.object.id = some id) :
    Accounts (.string (m.context.compact id)) [m] [(m, false)] where
  mentions other := by
    constructor
    · intro mention
      induction mention with
      | top there => exact ⟨false, by simp [List.mem_singleton.mp there]⟩
      | inside _ full _ ih =>
        obtain ⟨_, there⟩ := ih
        cases List.mem_singleton.mp there
        rw [here] at full
        cases full
    · rintro ⟨_, there⟩
      cases List.mem_singleton.mp there
      exact .top List.mem_cons_self
  full _ there := by cases List.mem_singleton.mp there
  short other there := by
    cases List.mem_singleton.mp there
    exact ⟨id, named, by rw [here]; rfl⟩

/-- An object that is written in full mentions itself and what it refers to. -/
theorem object {m : Mention} {members : List (String × Json)} (here : m.place = [])
    (accounts : Accounts (.object members) m.object.mentions log) (full : m.object.InFull members) :
    Accounts (.object members) [m] ((m, true) :: log) where
  mentions other := by
    have found : ∀ outer ∈ [m], ∃ members', (Json.object members).at? outer.place =
        some (.object members') := by
      intro outer there
      cases List.mem_singleton.mp there
      exact ⟨members, by rw [here]; rfl⟩
    rw [Json.Mentions.full_iff found, List.flatMap_singleton, Mention.below_of_place here,
      accounts.mentions, List.mem_singleton]
    simp only [List.mem_cons, Prod.mk.injEq, exists_or, exists_eq_right]
  full _ there := by
    rcases List.mem_cons.mp there with same | there
    · cases same
      exact ⟨members, by rw [here]; rfl, full⟩
    · exact accounts.full _ there
  short _ there := by
    rcases List.mem_cons.mp there with same | there
    · cases same
    · exact accounts.short _ there

end Accounts

open Members (get?_insert)

/-- Every way of writing the object accounts for what it mentions, also if other members are put
beside those that are written. -/
def Object.Accounted (o : Object) : Prop := ∀ (seen : Seen) (final : Members Json),
  (∀ key ∈ o.keys, Members.get? final key = Members.get? (o.encode seen).1 key) →
    o.InFull final ∧
      ∃ log, Accounts (.object final) o.mentions log ∧ Tally seen log (o.encode seen).2

theorem Reference.accounts {target : Reference} (inner : ∀ o ∈ target.objects, o.Accounted)
    (context : Context) (seen : Seen) : ∃ log,
      Accounts (target.encode context seen).1 (target.mentions context) log ∧
        Tally seen log (target.encode context seen).2 := by
  cases target with
  | unset | iri => exact ⟨[], .nil _, .done _⟩
  | object handle o =>
    have full : (seen.meets handle = false ∨ o.id = none) → ∃ log,
        Accounts (.object (o.encode (seen.insert handle)).1)
          ((Reference.object handle o).mentions context) log ∧
            Tally seen log (o.encode (seen.insert handle)).2 := by
      intro new
      obtain ⟨full, log, accounts, tally⟩ := inner o List.mem_cons_self (seen.insert handle) _
        fun _ _ => rfl
      exact ⟨_, .object (m := ⟨[], context, handle, o⟩) rfl accounts full, .full new tally⟩
    rw [Reference.encode]
    cases named : o.id with
    | none => exact full (.inr named)
    | some id =>
      cases met : seen.meets handle with
      | false => exact full (.inl met)
      | true =>
        exact ⟨_, .identifier (m := ⟨[], context, handle, o⟩) rfl named, .short met named (.done _)⟩

theorem accounts_encodeReferences {targets : List Reference}
    (inner : ∀ target ∈ targets, ∀ o ∈ target.objects, o.Accounted) (context : Context)
    (seen : Seen) {json : Json} {position : Nat}
    (lists : json.Lists [] position (encodeReferences targets context seen).1) :
    ∃ log, Accounts json (listMentions (·.mentions context) position targets) log ∧
      Tally seen log (encodeReferences targets context seen).2 := by
  induction targets generalizing seen position with
  | nil => exact ⟨[], .nil _, .done _⟩
  | cons target targets ih =>
    rw [encodeReferences] at lists ⊢
    obtain ⟨here, later⟩ := List.forall_mem_cons.mp inner
    obtain ⟨log, accounts, tally⟩ := Reference.accounts here context seen
    obtain ⟨rest, accounts', tally'⟩ := ih later _ lists.tail
    exact ⟨_, (accounts.under lists.head).append accounts', (tally.under _).append tally'⟩

theorem accounts_encodeExtensionValues {values : List Extension}
    (each : ∀ value ∈ values, ∀ seen, ∃ log,
      Accounts (value.encode seen).1 value.mentions log ∧ Tally seen log (value.encode seen).2)
    (seen : Seen) {json : Json} {position : Nat}
    (lists : json.Lists [] position (encodeExtensionValues values seen).1) :
    ∃ log, Accounts json (extensionMentions position values) log ∧
      Tally seen log (encodeExtensionValues values seen).2 := by
  induction values generalizing seen position with
  | nil => exact ⟨[], .nil _, .done _⟩
  | cons value values ih =>
    rw [encodeExtensionValues] at lists ⊢
    obtain ⟨here, later⟩ := List.forall_mem_cons.mp each
    obtain ⟨log, accounts, tally⟩ := here seen
    obtain ⟨rest, accounts', tally'⟩ := ih later _ lists.tail
    exact ⟨_, (accounts.under lists.head).append accounts', (tally.under _).append tally'⟩

theorem Extension.accounts {value : Extension} (inner : ∀ o ∈ value.objects, o.Accounted)
    (seen : Seen) :
    ∃ log, Accounts (value.encode seen).1 value.mentions log ∧
      Tally seen log (value.encode seen).2 := by
  induction value using Extension.induct generalizing seen with
  | reference target => exact Reference.accounts inner .empty seen
  | string | integer | boolean => exact ⟨[], .nil _, .done _⟩
  | float x => cases x <;> exact ⟨[], .nil _, .done _⟩
  | list values ih =>
    refine accounts_encodeExtensionValues (fun value among => ih value among fun o held => ?_) seen
      (.list _)
    exact inner o (mem_extensionObjects.mpr ⟨value, among, held⟩)

theorem Slot.accounts {slot : Slot} (inner : ∀ o ∈ slot.objects, o.Accounted) (p : Property)
    (seen : Seen) :
    ∃ log, Accounts (slot.encode p seen).1 (slot.mentions p) log ∧
      Tally seen log (slot.encode p seen).2 := by
  cases slot with
  | scalar value =>
    refine ⟨[], .nil _, ?_⟩
    cases value with
    | none => exact .done _
    | some value =>
      rw [Slot.encode]
      split <;> exact .done _
  | list values =>
    refine ⟨[], .nil _, ?_⟩
    rw [Slot.encode]
    split <;> exact .done _
  | reference target => exact Reference.accounts inner p.context seen
  | references targets =>
    refine accounts_encodeReferences (fun target among o held => inner o ?_) p.context seen
      (.list _)
    exact List.mem_flatMap.mpr ⟨target, among, held⟩

/-! ## Members -/

open Object (slotKeys extensionKeys)

theorem slotKeys_cons_of_set {p : Property} {slot : Slot} (set : slot.isSet = true)
    (properties : List (Property × Slot)) :
    slotKeys ((p, slot) :: properties) = p.key :: slotKeys properties := by
  simp [slotKeys, set]

theorem slotKeys_cons_of_unset {p : Property} {slot : Slot} (unset : ¬ slot.isSet = true)
    (properties : List (Property × Slot)) :
    slotKeys ((p, slot) :: properties) = slotKeys properties := by
  simp [slotKeys, unset]

/-- Slots that are written leave members with other keys alone. -/
theorem get?_encodeSlots {layout : List Property} {slots : List Slot} {members : Members Json}
    {seen : Seen} {key : String} (other : key ∉ slotKeys (layout.zip slots)) :
    Members.get? (encodeSlots layout slots members seen).1 key = Members.get? members key := by
  induction slots generalizing layout members seen with
  | nil => rw [encodeSlots_nil_right]
  | cons slot slots ih =>
    cases layout with
    | nil => rw [encodeSlots_nil_left]
    | cons p layout =>
      rw [encodeSlots]
      split
      · rename_i set
        rw [List.zip_cons_cons, slotKeys_cons_of_set set, List.mem_cons, not_or] at other
        rw [ih other.2, get?_insert, if_neg other.1]
      · rename_i unset
        rw [List.zip_cons_cons, slotKeys_cons_of_unset unset] at other
        exact ih other

theorem get?_encodeExtensions {extensions : List (String × List Extension)}
    {members : Members Json} {seen : Seen} {key : String} (other : key ∉ extensionKeys extensions) :
    Members.get? (encodeExtensions extensions members seen).1 key = Members.get? members key := by
  induction extensions generalizing members seen with
  | nil => rfl
  | cons extension extensions ih =>
    obtain ⟨name, values⟩ := extension
    rw [encodeExtensions]
    split
    · rename_i empty
      simp only [extensionKeys, List.filter_cons, empty] at other
      exact ih other
    · rename_i nonempty
      simp only [extensionKeys, List.filter_cons, nonempty] at other
      have other := not_or.mp (List.mem_cons.not.mp other)
      rw [ih other.2, get?_insert, if_neg other.1]

theorem Slot.mentions_of_unset {slot : Slot} (unset : ¬ slot.isSet = true) (p : Property) :
    slot.mentions p = [] := by
  cases slot with
  | scalar | list => rfl
  | reference target =>
    cases target with
    | unset | iri => rfl
    | object => exact absurd rfl unset
  | references targets =>
    cases targets with
    | nil => rfl
    | cons => exact absurd rfl unset

/-- The slots that are set are found under their keys, with what they mention. -/
theorem accounts_encodeSlots {layout : List Property} {slots : List Slot}
    (inner : ∀ p slot, (p, slot) ∈ layout.zip slots → ∀ o ∈ slot.objects, o.Accounted)
    (distinct : (slotKeys (layout.zip slots)).Nodup) {members final : Members Json} {seen : Seen}
    (same : ∀ key ∈ slotKeys (layout.zip slots),
      Members.get? final key = Members.get? (encodeSlots layout slots members seen).1 key) :
    (∀ p slot, (p, slot) ∈ layout.zip slots → slot.isSet = true →
      ∃ seen, Members.get? final p.key = some (slot.encode p seen).1) ∧
      ∃ log, Accounts (.object final) ((layout.zip slots).flatMap fun (p, slot) =>
        (slot.mentions p).map (.under [.name p.key])) log ∧
          Tally seen log (encodeSlots layout slots members seen).2 := by
  induction slots generalizing layout members seen with
  | nil =>
    rw [encodeSlots_nil_right, List.zip_nil_right]
    exact ⟨fun _ _ there => absurd there List.not_mem_nil, [], .nil _, .done _⟩
  | cons slot slots ih =>
    cases layout with
    | nil =>
      rw [encodeSlots_nil_left, List.zip_nil_left]
      exact ⟨fun _ _ there => absurd there List.not_mem_nil, [], .nil _, .done _⟩
    | cons p layout =>
      rw [List.zip_cons_cons] at inner distinct same ⊢
      rw [List.flatMap_cons]
      have later : ∀ q other, (q, other) ∈ layout.zip slots → ∀ o ∈ other.objects, o.Accounted :=
        fun q other there => inner q other (List.mem_cons_of_mem _ there)
      rw [encodeSlots] at same ⊢
      by_cases set : slot.isSet = true
      · rw [if_pos set] at same ⊢
        rw [slotKeys_cons_of_set set] at distinct same
        obtain ⟨fresh, distinct⟩ := List.nodup_cons.mp distinct
        obtain ⟨written, rest, accounts', tally'⟩ := ih later distinct fun key among =>
          same key (List.mem_cons_of_mem _ among)
        obtain ⟨log, accounts, tally⟩ := Slot.accounts (inner p slot List.mem_cons_self) p seen
        have found : Members.get? final p.key = some (slot.encode p seen).1 := by
          rw [same p.key List.mem_cons_self, get?_encodeSlots fresh, get?_insert, if_pos rfl]
        have part : (Json.object final).at? [.name p.key] = some (slot.encode p seen).1 := by
          rw [Json.at?_name, found]
          exact Json.at?_nil _
        refine ⟨fun q other there set' => ?_, _, (accounts.under part).append accounts',
          (tally.under _).append tally'⟩
        rcases List.mem_cons.mp there with here | there
        · cases here
          exact ⟨seen, found⟩
        · exact written q other there set'
      · rw [if_neg set] at same ⊢
        rw [slotKeys_cons_of_unset set] at distinct same
        obtain ⟨written, log, accounts, tally⟩ := ih later distinct same
        simp only [Slot.mentions_of_unset set, List.map_nil, List.nil_append]
        refine ⟨fun q other there set' => ?_, log, accounts, tally⟩
        rcases List.mem_cons.mp there with here | there
        · cases here
          exact absurd set' set
        · exact written q other there set'

theorem extensionKeys_cons_of_empty {values : List Extension} (empty : values.isEmpty = true)
    (key : String) (extensions : List (String × List Extension)) :
    extensionKeys ((key, values) :: extensions) = extensionKeys extensions := by
  simp [extensionKeys, empty]

theorem extensionKeys_cons_of_nonempty {values : List Extension}
    (nonempty : ¬ values.isEmpty = true) (key : String)
    (extensions : List (String × List Extension)) :
    extensionKeys ((key, values) :: extensions) = key :: extensionKeys extensions := by
  simp [extensionKeys, nonempty]

/-- The undeclared members that have values are found, with what they mention. -/
theorem accounts_encodeExtensions {extensions : List (String × List Extension)}
    (inner : ∀ key values, (key, values) ∈ extensions → ∀ o ∈ extensionObjects values, o.Accounted)
    (distinct : (extensionKeys extensions).Nodup) {members final : Members Json} {seen : Seen}
    (same : ∀ key ∈ extensionKeys extensions,
      Members.get? final key = Members.get? (encodeExtensions extensions members seen).1 key) :
    (∀ key values, (key, values) ∈ extensions → values ≠ [] → ∃ seen,
      Members.get? final key = some (.list (encodeExtensionValues values seen).1)) ∧
      ∃ log, Accounts (.object final) (extensions.flatMap fun (key, values) =>
        (extensionMentions 0 values).map (.under [.name key])) log ∧
          Tally seen log (encodeExtensions extensions members seen).2 := by
  induction extensions generalizing members seen with
  | nil => exact ⟨nofun, [], .nil _, .done _⟩
  | cons extension extensions ih =>
    obtain ⟨key, values⟩ := extension
    have later : ∀ other values, (other, values) ∈ extensions → ∀ o ∈ extensionObjects values,
        o.Accounted := fun other values there => inner other values (List.mem_cons_of_mem _ there)
    rw [List.flatMap_cons]
    rw [encodeExtensions] at same ⊢
    by_cases empty : values.isEmpty = true
    · rw [if_pos empty] at same ⊢
      rw [extensionKeys_cons_of_empty empty] at distinct same
      obtain ⟨written, log, accounts, tally⟩ := ih later distinct same
      cases List.isEmpty_iff.mp empty
      refine ⟨fun other values there nonempty => ?_, log, accounts, tally⟩
      rcases List.mem_cons.mp there with here | there
      · cases here
        exact absurd rfl nonempty
      · exact written other values there nonempty
    · rw [if_neg empty] at same ⊢
      rw [extensionKeys_cons_of_nonempty empty] at distinct same
      obtain ⟨fresh, distinct⟩ := List.nodup_cons.mp distinct
      obtain ⟨written, rest, accounts', tally'⟩ := ih later distinct fun other among =>
        same other (List.mem_cons_of_mem _ among)
      have held : ∀ o ∈ (Extension.list values).objects, o.Accounted :=
        inner key values List.mem_cons_self
      obtain ⟨log, accounts, tally⟩ := Extension.accounts held seen
      have found : Members.get? final key =
          some (.list (encodeExtensionValues values seen).1) := by
        rw [same key List.mem_cons_self, get?_encodeExtensions fresh, get?_insert, if_pos rfl]
      have part : (Json.object final).at? [.name key] =
          some ((Extension.list values).encode seen).1 := by
        rw [Json.at?_name, found]
        exact Json.at?_nil _
      refine ⟨fun other values there nonempty => ?_, _, (accounts.under part).append accounts',
        (tally.under _).append tally'⟩
      rcases List.mem_cons.mp there with here | there
      · cases here
        exact ⟨seen, found⟩
      · exact written other values there nonempty

namespace Object

variable {o : Object}

/-- The members that are written first: the type and the identifier. -/
def head (o : Object) : Members Json :=
  let typed := Members.insert [] "@type" (.string o.typeIri)
  match o.id with
  | some id => Members.insert typed o.cls.idKey (.string id)
  | none => typed

theorem encode_eq (o : Object) (seen : Seen) :
    o.encode seen =
      encodeExtensions o.extensions (encodeSlots o.cls.layout o.slots o.head seen).1
        (encodeSlots o.cls.layout o.slots o.head seen).2 := by
  obtain ⟨cls, id, observedType, slots, extensions⟩ := o
  cases id <;> rfl

theorem get?_head_type (other : ∀ text, o.id = some text → "@type" ≠ o.cls.idKey) :
    Members.get? o.head "@type" = some (.string o.typeIri) := by
  unfold head
  cases named : o.id with
  | none => rfl
  | some id =>
    dsimp only
    rw [get?_insert, if_neg (other id named)]
    rfl

theorem get?_head_id {id : String} (named : o.id = some id) :
    Members.get? o.head o.cls.idKey = some (.string id) := by
  unfold head
  rw [named]
  dsimp only
  rw [get?_insert, if_pos rfl]

/-- Under each of its keys something is written for the object. -/
theorem hasKey_of_mem_keys {key : String} (among : key ∈ o.keys) (seen : Seen) :
    Members.HasKey (o.encode seen).1 key := by
  suffices writes : ∃ value, o.Writes (key, value) by
    obtain ⟨value, writes⟩ := writes
    exact hasKey_encode writes seen
  rcases List.mem_cons.mp among with rfl | among
  · exact ⟨_, .type⟩
  · rcases List.mem_append.mp among with among | among
    · cases named : o.id with
      | none => simp [named] at among
      | some id =>
        simp only [named, Option.map_some, Option.toList_some, List.mem_singleton] at among
        rw [among]
        exact ⟨_, .id named⟩
    · rcases List.mem_append.mp among with among | among
      · obtain ⟨⟨p, slot⟩, there, rfl⟩ := List.mem_map.mp among
        obtain ⟨there, set⟩ := List.mem_filter.mp there
        exact ⟨_, .slot [] there set⟩
      · obtain ⟨⟨key, values⟩, there, rfl⟩ := List.mem_map.mp among
        obtain ⟨there, nonempty⟩ := List.mem_filter.mp there
        exact ⟨_, .extension [] there (by simpa using nonempty)⟩

/-- The objects that this one leads to have distinct keys, and so has this one. -/
def Clear (o : Object) : Prop :=
  ∀ handle x, (Reference.object none o).LeadsTo true (.object handle x) → x.Unclashing

theorem Clear.inner (clear : o.Clear) {target : Reference} (there : target ∈ o.references true)
    {x : Object} (held : x ∈ target.objects) : x.Clear := by
  obtain ⟨handle, rfl⟩ := Reference.mem_objects.mp held
  intro last y leads
  cases leads with
  | here => exact clear handle x (.inside there (.here _))
  | inside among further => exact clear last y (.inside there (.inside among further))

/-- An object with distinct keys is written in full if what it refers to is accounted for. -/
theorem Unclashing.accounted (unclashing : o.Unclashing)
    (inner : ∀ target ∈ o.references true, ∀ x ∈ target.objects, x.Accounted) : o.Accounted := by
  intro seen final same
  obtain ⟨typed, distinct⟩ := List.nodup_cons.mp unclashing
  obtain ⟨-, distinct, identified⟩ := List.nodup_append.mp distinct
  obtain ⟨distinctSlots, distinctExtensions, apart⟩ := List.nodup_append.mp distinct
  rw [encode_eq] at same ⊢
  have beneath : ∀ key ∈ o.keys, key ∉ extensionKeys o.extensions → Members.get? final key =
      Members.get? (encodeSlots o.cls.layout o.slots o.head seen).1 key := by
    intro key among other
    rw [same key among, get?_encodeExtensions other]
  have first : ∀ key ∈ o.keys, key ∉ slotKeys o.properties → key ∉ extensionKeys o.extensions →
      Members.get? final key = Members.get? o.head key := by
    intro key among notSlot notExtension
    rw [beneath key among notExtension, get?_encodeSlots notSlot]
  have slots : ∀ key ∈ slotKeys o.properties, key ∈ o.keys := fun key among =>
    List.mem_cons_of_mem _ (List.mem_append_right _ (List.mem_append_left _ among))
  have extensions : ∀ key ∈ extensionKeys o.extensions, key ∈ o.keys := fun key among =>
    List.mem_cons_of_mem _ (List.mem_append_right _ (List.mem_append_right _ among))
  have named : ∀ text, o.id = some text →
      o.cls.idKey ∈ (o.id.map fun _ => o.cls.idKey).toList := by
    intro text same
    simp [same]
  obtain ⟨slot, log, accounts, tally⟩ := accounts_encodeSlots
    (fun p slot there x held => by
      obtain ⟨target, among, held⟩ := Slot.mem_objects.mp held
      exact inner target (mem_references_of_slot there among) x held)
    distinctSlots fun key among => beneath key (slots key among) fun other =>
      apart key among key other rfl
  obtain ⟨extension, rest, accounts', tally'⟩ := accounts_encodeExtensions
    (fun key values there x held => by
      obtain ⟨value, among, held⟩ := mem_extensionObjects.mp held
      obtain ⟨target, inside, held⟩ := Extension.mem_objects.mp held
      exact inner target (mem_references_of_extension there among inside) x held)
    distinctExtensions fun key among => same key (extensions key among)
  refine ⟨⟨?_, fun text here => ?_, slot, extension⟩, _, accounts.append accounts',
    tally.append tally'⟩
  · rw [first "@type" List.mem_cons_self (fun there => typed ?_) (fun there => typed ?_)]
    · refine get?_head_type fun text here equal => typed ?_
      rw [equal]
      exact List.mem_append_left _ (named text here)
    · exact List.mem_append_right _ (List.mem_append_left _ there)
    · exact List.mem_append_right _ (List.mem_append_right _ there)
  · have among := List.mem_append_left (slotKeys o.properties ++ extensionKeys o.extensions)
      (named text here)
    have apart := identified _ (named text here)
    rw [first _ (List.mem_cons_of_mem _ among)
      (fun there => apart _ (List.mem_append_left _ there) rfl)
      (fun there => apart _ (List.mem_append_right _ there) rfl)]
    exact get?_head_id here

theorem Clear.accounted (clear : o.Clear) : o.Accounted := by
  induction o using Object.induct with
  | step o ih =>
    refine Unclashing.accounted (clear none o (.here _)) fun target there x held => ?_
    exact ih x (mem_held_of_references there held) (clear.inner there held)

end Object

end ShapedGraph
