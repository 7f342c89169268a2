import ShapedGraph.Proofs.Apart
import ShapedGraph.Proofs.Choice
import ShapedGraph.Proofs.Readings
import ShapedGraph.Proofs.Recasting

/-! Spellings of documents. A class has several names and a property several keys; whichever of them
a document is written with, it is read to the same objects, but for the type names that these keep.
Another spelling puts the members of an object into another order, so this rests on members being
read independently of each other. -/

namespace ShapedGraph

/-- The keys are the same, or the same property can be written with both. -/
def NodeClass.Spells (c : NodeClass) (key key' : String) : Prop :=
  key = key' ∨ ∃ p ∈ c.layout, key ∈ p.keys ∧ key' ∈ p.keys

namespace Registry

/-- The name is the IRI of a class or a compact name that was entered for it. -/
def Names (registry : Registry) (name : String) (c : NodeClass) : Prop :=
  name = c.iri ∨ ⟨name, c.iri⟩ ∈ registry.aliases

instance (registry : Registry) (name : String) (c : NodeClass) :
    Decidable (registry.Names name c) :=
  inferInstanceAs (Decidable (name = c.iri ∨ ⟨name, c.iri⟩ ∈ registry.aliases))

/-- No compact name of a class is a name of another one. -/
def NamesDistinct (registry : Registry) : Prop :=
  ∀ c ∈ registry.classes, ∀ entry ∈ registry.aliases, registry.Names entry.token c →
    entry.iri = c.iri

instance (registry : Registry) : Decidable registry.NamesDistinct :=
  inferInstanceAs (Decidable (∀ c ∈ registry.classes, ∀ entry ∈ registry.aliases,
    registry.Names entry.token c → entry.iri = c.iri))

variable {registry : Registry} {decls : List ClassDecl} {c : NodeClass}

/-- Every name of a class is registered for it. -/
theorem Built.get?_of_names (built : registry.Built decls) (distinct : registry.NamesDistinct)
    (hc : c ∈ registry.classes) {name : String} (names : registry.Names name c) :
    registry.get? name = some c := by
  rw [get?, standsFor]
  cases found : registry.aliases.find? (·.token == name) with
  | some entry =>
    have token : entry.token = name := by simpa using List.find?_some found
    show registry.byIri? entry.iri = some c
    rw [distinct c hc entry (List.mem_of_find?_eq_some found) (token ▸ names)]
    exact built.byIri?_eq_some hc
  | none =>
    rcases names with rfl | there
    · exact built.byIri?_eq_some hc
    · exact absurd (List.find?_eq_none.mp found _ there) (by simp)

end Registry

/-- Two values that differ only in how the types of objects are named and in which keys declared
properties are written with. All type names are registered, and no object spells a property
twice. -/
inductive Json.Respelled (registry : Registry) : Json → Json → Prop where
  | object {members members' : List (String × Json)} {type type' : String} {c : NodeClass}
    (typed : Members.get? members "@type" = some (.string type))
    (typed' : Members.get? members' "@type" = some (.string type'))
    (hc : c ∈ registry.classes) (names : registry.Names type c) (names' : registry.Names type' c)
    (once : ∀ p ∈ c.layout, ∀ m ∈ members, ∀ m' ∈ members, m.1 ∈ p.keys → m'.1 ∈ p.keys →
      m.1 = m'.1)
    (pairs : List ((String × Json) × (String × Json))) (left : (pairs.map Prod.fst).Perm members)
    (right : (pairs.map Prod.snd).Perm members')
    (keys : ∀ pair ∈ pairs, c.Spells pair.1.1 pair.2.1)
    (values : ∀ pair ∈ pairs, pair.1.1 ≠ "@type" → Respelled registry pair.1.2 pair.2.2) :
    Respelled registry (.object members) (.object members')
  | untyped {entries : List (String × Json × Json)}
    (untyped : ∀ type, Members.get? (entries.map fun e => (e.1, e.2.1)) "@type" ≠
      some (.string type))
    (untyped' : ∀ type, Members.get? (entries.map fun e => (e.1, e.2.2)) "@type" ≠
      some (.string type))
    (values : ∀ e ∈ entries, Respelled registry e.2.1 e.2.2) :
    Respelled registry (.object (entries.map fun e => (e.1, e.2.1)))
      (.object (entries.map fun e => (e.1, e.2.2)))
  | list {pairs : List (Json × Json)} (each : ∀ pair ∈ pairs, Respelled registry pair.1 pair.2) :
    Respelled registry (.list (pairs.map Prod.fst)) (.list (pairs.map Prod.snd))
  | null : Respelled registry .null .null
  | bool (b : Bool) : Respelled registry (.bool b) (.bool b)
  | integer (n : Int) : Respelled registry (.integer n) (.integer n)
  | float (x : Binary64) : Respelled registry (.float x) (.float x)
  | string (s : String) : Respelled registry (.string s) (.string s)

/-! ### Keys of respelled members -/

namespace Registry

variable {registry : Registry} {c : NodeClass} {key key' other other' : String}

theorem KeysDistinct.mem_keys_of_spells (distinct : registry.KeysDistinct)
    (hc : c ∈ registry.classes) (spells : c.Spells key key') {p : Property} (hp : p ∈ c.layout)
    (written : key' ∈ p.keys) : key ∈ p.keys := by
  rcases spells with rfl | ⟨q, hq, keyQ, keyQ'⟩
  · exact written
  · rwa [distinct.eq_of_mem_keys hc hp hq written keyQ']

/-- Keys that are apart are so in another spelling too. -/
theorem KeysDistinct.keysApart_of_spells (distinct : registry.KeysDistinct)
    (hc : c ∈ registry.classes) (spells : c.Spells key key') (spells' : c.Spells other other')
    (apart : c.KeysApart key other) : c.KeysApart key' other' := by
  refine ⟨?_, fun p hp written written' => ?_⟩
  · rintro rfl
    rcases spells with rfl | ⟨p, hp, keyP, keyP'⟩
    · rcases spells' with rfl | ⟨p, hp, keyP, keyP'⟩
      · exact apart.differ rfl
      · exact apart.unshared p hp keyP' keyP
    · exact apart.unshared p hp keyP (distinct.mem_keys_of_spells hc spells' hp keyP')
  · exact apart.unshared p hp (distinct.mem_keys_of_spells hc spells hp written)
      (distinct.mem_keys_of_spells hc spells' hp written')

/-- Two spellings of a key mean the same property, if they are not the same key. -/
theorem KeysDistinct.memberRole_of_spells (distinct : registry.KeysDistinct)
    (hc : c ∈ registry.classes) (spells : c.Spells key key') :
    key = key' ∨ key ≠ "@type" ∧ ∃ place,
      c.memberRole key = .declared place ∧ c.memberRole key' = .declared place := by
  refine spells.imp_right ?_
  rintro ⟨p, hp, written, written'⟩
  obtain ⟨place, there⟩ := List.mem_iff_getElem?.mp hp
  exact ⟨(distinct.reserved c hc p hp key written).1, place,
    distinct.memberRole_of_mem_keys hc there written,
    distinct.memberRole_of_mem_keys hc there written'⟩

end Registry

/-! ### Reading two spellings -/

/-- Objects without the type names that documents gave them. -/
def Recasting.untyped : Recasting := ⟨id, fun _ => none⟩

/-- The same but for type names. -/
def Agree {α : Type} (recast : Recasting → α → α) (a b : α) : Prop :=
  recast .untyped a = recast .untyped b

open Outcome (Alike alike_ok alike_error alike_of_fails)

variable {registry : Registry} {v w : Json}

namespace Json.Respelled

/-! No scalar is read from a list or from an object, and what is read from another value does not
depend on the path. -/

theorem alike_string (respelled : Respelled registry v w) (path path' : Path) :
    Alike Eq (Scalar.decodeString path v) (Scalar.decodeString path' w) := by
  cases respelled with
  | string s => exact alike_ok rfl
  | _ => exact alike_error _ _

theorem alike_iri (respelled : Respelled registry v w) (context : Context) (path path' : Path) :
    Alike Eq (Scalar.decodeIri context path v) (Scalar.decodeIri context path' w) := by
  refine (respelled.alike_string path path').bind ?_
  rintro text _ - - rfl
  simp only
  split
  · exact alike_ok rfl
  · exact alike_error _ _

theorem alike_id (respelled : Respelled registry v w) (path path' : Path) :
    Alike Eq (Decoder.decodeId path v) (Decoder.decodeId path' w) := by
  refine (respelled.alike_string path path').bind ?_
  rintro text _ - - rfl
  split
  · exact alike_ok rfl
  · exact alike_error _ _

theorem alike_boolean (respelled : Respelled registry v w) (path path' : Path) :
    Alike Eq (Scalar.decodeBoolean path v) (Scalar.decodeBoolean path' w) := by
  cases respelled with
  | bool b => exact alike_ok rfl
  | _ => exact alike_error _ _

theorem alike_integerOfFloat (path path' : Path) (x : Binary64) :
    Alike Eq (Scalar.integerOfFloat path x) (Scalar.integerOfFloat path' x) := by
  unfold Scalar.integerOfFloat
  split
  · exact alike_ok rfl
  · exact alike_error _ _

theorem alike_integer (respelled : Respelled registry v w) (path path' : Path) :
    Alike Eq (Scalar.decodeInteger path v) (Scalar.decodeInteger path' w) := by
  cases respelled with
  | integer n =>
    unfold Scalar.decodeInteger
    simp only
    split
    · exact alike_ok rfl
    · exact alike_integerOfFloat path path' _
  | float x => exact alike_integerOfFloat path path' x
  | _ => exact alike_error _ _

theorem alike_float (respelled : Respelled registry v w) (path path' : Path) :
    Alike Eq (Scalar.decodeFloat path v) (Scalar.decodeFloat path' w) := by
  cases respelled with
  | integer | float => exact alike_ok rfl
  | string text =>
    unfold Scalar.decodeFloat
    simp only
    split
    · exact alike_ok rfl
    · exact alike_error _ _
  | _ => exact alike_error _ _

theorem alike_dateTime (respelled : Respelled registry v w) (required : Bool)
    (path path' : Path) :
    Alike Eq (Scalar.decodeDateTime required path v) (Scalar.decodeDateTime required path' w) := by
  refine (respelled.alike_string path path').bind ?_
  rintro text _ - - rfl
  split
  · exact alike_ok rfl
  · exact alike_error _ _

theorem alike_scalar (respelled : Respelled registry v w) (kind : ScalarKind) (context : Context)
    (path path' : Path) : Alike Eq (kind.decode context path v) (kind.decode context path' w) := by
  cases kind with
  | string => exact (respelled.alike_string path path').map fun _ _ same => congrArg _ same
  | iri => exact (respelled.alike_iri context path path').map fun _ _ same => congrArg _ same
  | boolean => exact (respelled.alike_boolean path path').map fun _ _ same => congrArg _ same
  | integer => exact (respelled.alike_integer path path').map fun _ _ same => congrArg _ same
  | float => exact (respelled.alike_float path path').map fun _ _ same => congrArg _ same
  | dateTime =>
    exact (respelled.alike_dateTime false path path').map fun _ _ same => congrArg _ same
  | dateTimeStamp =>
    exact (respelled.alike_dateTime true path path').map fun _ _ same => congrArg _ same

end Json.Respelled

theorem alike_decodeItems {α : Type} {R : α → α → Prop} {decode decode' : Path → Json → Decoded α}
    {pairs : List (Json × Json)} {path path' : Path} (deep : path.length = path'.length)
    (each : ∀ pair ∈ pairs, ∀ path path' : Path, path.length = path'.length →
      Alike R (decode path pair.1) (decode' path' pair.2)) (position : Nat) :
    Alike (List.Forall₂ R) (decodeItems decode path position (pairs.map Prod.fst))
      (decodeItems decode' path' position (pairs.map Prod.snd)) := by
  induction pairs generalizing position with
  | nil => exact alike_ok .nil
  | cons pair pairs ih =>
    obtain ⟨first, others⟩ := List.forall_mem_cons.mp each
    have deeper : (path.item position).length = (path'.item position).length := by simp [deep]
    refine (first _ _ deeper).bind fun value value' _ _ here => ?_
    refine (ih others (position + 1)).bind fun values values' _ _ later => ?_
    exact alike_ok (.cons here later)

/-- Values in two lists that agree one by one come to the same list without type names. -/
theorem map_untyped_eq {α : Type} {recast : Recasting → α → α} {l l' : List α}
    (h : List.Forall₂ (Agree recast) l l') : l.map (recast .untyped) = l'.map (recast .untyped) :=
  List.forall₂_eq_eq_eq ▸ List.forall₂_map_left_iff.mpr (List.forall₂_map_right_iff.mpr h)

theorem Json.Respelled.alike_scalars (respelled : Respelled registry v w) (kind : ScalarKind)
    (context : Context) {path path' : Path} (deep : path.length = path'.length) :
    Alike Eq (decodeList (kind.decode context) path v)
      (decodeList (kind.decode context) path' w) := by
  cases respelled with
  | list each =>
    have items : Alike (List.Forall₂ Eq) _ _ := alike_decodeItems deep
      (fun pair among path path' _ => (each pair among).alike_scalar kind context path path') 0
    rwa [List.forall₂_eq_eq_eq] at items
  | _ => exact alike_error _ _

namespace Decoder

variable {d : Decoder}

/-- Whatever can be read from one value can be read from the other at paths of the same length,
the same but for type names. -/
structure ReadsAlike (d : Decoder) (v w : Json) : Prop where
  object : ∀ {path path' : Path} (target : Option NodeClass), path.length = path'.length →
    Alike (Agree Object.recast) (d.decodeObject path target v) (d.decodeObject path' target w)
  references : ∀ {path path' : Path} (context : Context) (target : Option NodeClass),
    path.length = path'.length → Alike (List.Forall₂ (Agree Reference.recast))
      (d.decodeReferenceList context target path v) (d.decodeReferenceList context target path' w)
  values : ∀ {path path' : Path}, path.length = path'.length →
    Alike (List.Forall₂ (Agree Extension.recast)) (d.decodeExtensionList path v)
      (d.decodeExtensionList path' w)

variable {path path' : Path} (respelled : Json.Respelled d.registry v w)
  (deep : path.length = path'.length)

include respelled in
theorem alike_reference {object object' : Decoded Object}
    (alike : Alike (Agree Object.recast) object object') (context : Context) :
    Alike (Agree Reference.recast) (referenceOf context path v fun _ => object)
      (referenceOf context path' w fun _ => object') := by
  have text := respelled.alike_iri context path path'
  cases respelled with
  | string s => exact text.map fun _ _ same => congrArg Reference.iri same
  | _ => exact alike.map fun _ _ agree => congrArg (Reference.object none) agree

include respelled deep in
theorem alike_extension (alike : d.ReadsAlike v w) : Alike (Agree Extension.recast)
    (d.decodeExtension path v) (d.decodeExtension path' w) := by
  cases respelled with
  | object | untyped =>
    refine (alike.object none deep).map fun _ _ agree => ?_
    exact congrArg (fun o => Extension.reference (.object none o)) agree
  | list =>
    refine (alike.values deep).map fun values values' agree => ?_
    show Extension.list (recastValues .untyped values) = .list (recastValues .untyped values')
    rw [recastValues_eq, recastValues_eq, map_untyped_eq agree]
  | integer n =>
    unfold decodeExtension extensionOf
    simp only
    split <;> exact alike_ok rfl
  | null => exact alike_error _ _
  | bool | float | string => exact alike_ok rfl

include respelled deep in
theorem alike_extensions (alike : d.ReadsAlike v w) :
    Alike (List.Forall₂ (Agree Extension.recast)) (d.readExtensions path v)
      (d.readExtensions path' w) := by
  have single := alike_extension respelled deep alike
  cases respelled with
  | list => exact alike.values deep
  | _ => exact single.map fun _ _ agree => .cons agree .nil

include respelled deep in
theorem alike_slot (alike : d.ReadsAlike v w) (p : Property) :
    Alike (Agree Slot.recast) (d.readSlot p path v) (d.readSlot p path' w) := by
  unfold readSlot contentOf Slot.empty
  cases p.kind with
  | scalar kind =>
    cases p.isList with
    | false =>
      refine (respelled.alike_scalar kind p.context path path').map fun _ _ same => ?_
      rw [same]
      rfl
    | true =>
      refine (respelled.alike_scalars kind p.context deep).map fun _ _ same => ?_
      rw [same]
      rfl
  | object cls =>
    cases p.isList with
    | false =>
      refine (alike_reference respelled (alike.object _ deep) p.context).map fun _ _ agree => ?_
      exact congrArg Slot.reference agree
    | true =>
      refine (alike.references p.context _ deep).map fun targets targets' agree => ?_
      show Slot.references (recastReferences .untyped targets) =
        .references (recastReferences .untyped targets')
      rw [recastReferences_eq, recastReferences_eq, map_untyped_eq agree]

include respelled deep in
theorem alike_declared (alike : d.ReadsAlike v w) {c : NodeClass} {key key' : String} {place : Nat}
    (role : c.memberRole key = .declared place) (role' : c.memberRole key' = .declared place) :
    Alike (Agree Part.recast) (d.readMember path c key v) (d.readMember path' c key' w) := by
  have deeper : (path.member key).length = (path'.member key').length := by simp [deep]
  simp only [readMember, role, role']
  cases c.layout[place]? with
  | none => exact alike_error _ _
  | some p =>
    refine (alike_slot respelled deeper alike p).map fun _ _ agree => ?_
    exact congrArg (Part.slot place) agree

include respelled deep in
/-- A member is read alike in two spellings of its key. -/
theorem alike_member (alike : d.ReadsAlike v w) (distinct : d.registry.KeysDistinct)
    {c : NodeClass} (hc : c ∈ d.registry.classes) {key key' : String}
    (spells : c.Spells key key') :
    Alike (Agree Part.recast) (d.readMember path c key v) (d.readMember path' c key' w) := by
  rcases distinct.memberRole_of_spells hc spells with rfl | ⟨-, place, role, role'⟩
  · have deeper : (path.member key).length = (path'.member key).length := by simp [deep]
    cases role : c.memberRole key with
    | declared place => exact alike_declared respelled deep alike role role
    | type =>
      simp only [readMember, role]
      exact alike_ok rfl
    | id =>
      simp only [readMember, role]
      exact (respelled.alike_id _ _).map fun _ _ same => congrArg Part.id same
    | undeclared =>
      simp only [readMember, role]
      refine (alike_extensions respelled deeper alike).map fun _ _ agree => ?_
      exact congrArg (Part.extension key) (map_untyped_eq agree)
    | forbiddenId | unknown =>
      simp only [readMember, role]
      exact alike_error _ _
  · exact alike_declared respelled deep alike role role'

/-- A run: members that are read alike one by one are read alike together. -/
theorem alike_members {pairs : List ((String × Json) × (String × Json))} {path path' : Path}
    {o o' : Object} (agree : Agree Object.recast o o') (shaped : o.Shaped) (shaped' : o'.Shaped)
    (each : ∀ pair ∈ pairs, Alike (Agree Part.recast)
      (d.readMember path o.cls pair.1.1 pair.1.2) (d.readMember path' o.cls pair.2.1 pair.2.2)) :
    Alike (Agree Object.recast) (d.decodeMembers path (pairs.map Prod.fst) o)
      (d.decodeMembers path' (pairs.map Prod.snd) o') := by
  induction pairs generalizing o o' with
  | nil => exact alike_ok agree
  | cons pair pairs ih =>
    obtain ⟨first, others⟩ := List.forall_mem_cons.mp each
    have cls : o.cls = o'.cls := by
      have same := congrArg Object.cls agree
      rwa [Object.recast_cls, Object.recast_cls] at same
    rw [List.map_cons, List.map_cons, decodeMembers_cons shaped, decodeMembers_cons shaped', ← cls]
    refine first.bind fun part part' read read' alike => ?_
    refine ih ?_ (shaped_put rfl shaped (readMember_eq_ok.mp read))
      (shaped_put cls.symm shaped' (readMember_eq_ok.mp read')) ?_
    · rw [Agree, Object.recast_put, Object.recast_put, agree, alike]
    · rwa [Object.put_cls]

/-- Which registered name a type has makes no difference to the class that it comes to. -/
theorem alike_choose {type type' : String} {c : NodeClass}
    (named : d.registry.get? type = some c) (named' : d.registry.get? type' = some c)
    (path path' : Path) (target : Option NodeClass) :
    Alike (fun choice choice' => choice = .only c ∧ choice' = .only c) (d.choose path type target)
      (d.choose path' type' target) := by
  unfold choose
  simp only [named, named']
  split
  · exact alike_error _ _
  · split
    · exact alike_error _ _
    · exact alike_ok ⟨rfl, rfl⟩

/-- An object is read alike in two spellings if its members are. -/
theorem alike_object {members members' : List (String × Json)} {type type' : String}
    {c : NodeClass} (typed : Members.get? members "@type" = some (.string type))
    (typed' : Members.get? members' "@type" = some (.string type'))
    (named : d.registry.get? type = some c) (named' : d.registry.get? type' = some c)
    {path path' : Path} (deep : path.length = path'.length)
    (alike : Alike (Agree Object.recast) (d.decodeMembers path members (.ofType c type))
      (d.decodeMembers path' members' (.ofType c type'))) (target : Option NodeClass) :
    Alike (Agree Object.recast) (d.decodeObject path target (.object members))
      (d.decodeObject path' target (.object members')) := by
  rw [decodeObject, decodeObject, deep, typeName_eq_ok.mpr typed, typeName_eq_ok.mpr typed']
  split
  · exact alike_error _ _
  · show Alike _ (d.choose path type target >>= _) (d.choose path' type' target >>= _)
    refine (alike_choose named named' path path' target).bind ?_
    rintro choice choice' - - ⟨rfl, rfl⟩
    exact alike

/-- The members of an object that spells no property twice are all apart. -/
theorem pairwise_keysApart {members : List (String × Json)} {c : NodeClass}
    (sorted : Members.Sorted members)
    (once : ∀ p ∈ c.layout, ∀ m ∈ members, ∀ m' ∈ members, m.1 ∈ p.keys → m'.1 ∈ p.keys →
      m.1 = m'.1) : members.Pairwise fun m m' => c.KeysApart m.1 m'.1 := by
  refine List.Pairwise.imp_of_mem (fun {m m'} hm hm' less => ?_) sorted
  have differ := String.ne_of_lt less
  exact ⟨differ, fun p hp written written' => differ (once p hp m hm m' hm' written written')⟩

theorem alike_of_not_object {v w : Json} (notObject : ∀ members, v ≠ .object members)
    (notObject' : ∀ members, w ≠ .object members) (path path' : Path)
    (target : Option NodeClass) : Alike (Agree Object.recast) (d.decodeObject path target v)
      (d.decodeObject path' target w) := by
  rw [decodeObject_of_not_object _ _ _ notObject, decodeObject_of_not_object _ _ _ notObject']
  exact alike_error _ _

/-- Values that differ in spelling only are read alike. -/
theorem readsAlike_of_respelled {decls : List ClassDecl} (built : d.registry.Built decls)
    (distinct : d.registry.KeysDistinct) (namesDistinct : d.registry.NamesDistinct) {v w : Json}
    (respelled : Json.Respelled d.registry v w) (ordered : v.Ordered) : d.ReadsAlike v w := by
  induction respelled with
  | null | bool | integer | float | string =>
    exact ⟨fun target _ => alike_of_not_object (by simp) (by simp) _ _ target,
      fun _ _ _ => alike_error _ _, fun _ => alike_error _ _⟩
  | @list pairs respelled ih =>
    cases ordered with
    | list ordered =>
      have each : ∀ pair ∈ pairs, d.ReadsAlike pair.1 pair.2 := fun pair among =>
        ih pair among (ordered _ (List.mem_map_of_mem among))
      refine ⟨fun target _ => alike_of_not_object (by simp) (by simp) _ _ target,
        fun context target deep => ?_, fun deep => ?_⟩
      · rw [decodeReferenceList, decodeReferenceList, decodeReferences_eq, decodeReferences_eq]
        exact alike_decodeItems deep (fun pair among path path' deep =>
          alike_reference (respelled pair among) ((each pair among).object target deep) context) 0
      · rw [decodeExtensionList, decodeExtensionList, decodeExtensions_eq, decodeExtensions_eq]
        exact alike_decodeItems deep (fun pair among path path' deep =>
          alike_extension (respelled pair among) deep (each pair among)) 0
  | @untyped entries untyped untyped' _ _ =>
    refine ⟨fun target _ => alike_of_fails (fun o read => ?_) (fun o read => ?_),
      fun _ _ _ => alike_error _ _, fun _ => alike_error _ _⟩
    · obtain ⟨type, -, typed, -⟩ := exists_class_of_decodeObject read
      exact untyped type typed
    · obtain ⟨type, -, typed, -⟩ := exists_class_of_decodeObject read
      exact untyped' type typed
  | @object members members' type type' c typed typed' hc names names' once pairs left right keys
      respelled ih =>
    cases ordered with
    | object sorted ordered =>
      refine ⟨fun {path path'} target deep => ?_, fun _ _ _ => alike_error _ _,
        fun _ => alike_error _ _⟩
      refine alike_object typed typed' (built.get?_of_names namesDistinct hc names)
        (built.get?_of_names namesDistinct hc names') deep ?_ target
      have apart : (pairs.map Prod.fst).Pairwise fun m m' => c.KeysApart m.1 m'.1 :=
        (left.pairwise_iff NodeClass.KeysApart.symm).mpr (pairwise_keysApart sorted once)
      have apart' : (pairs.map Prod.snd).Pairwise fun m m' => c.KeysApart m.1 m'.1 := by
        rw [List.pairwise_map] at apart ⊢
        exact apart.imp_of_mem fun among among' =>
          distinct.keysApart_of_spells hc (keys _ among) (keys _ among')
      -- The members are read in the same order in both spellings, whatever order they stand in.
      rw [Alike, ← toOption_decodeMembers_perm left apart (Object.shaped_ofType c type),
        ← toOption_decodeMembers_perm right apart' (Object.shaped_ofType c type')]
      refine alike_members ?_ (Object.shaped_ofType c type) (Object.shaped_ofType c type') ?_
      · rfl
      · intro pair among
        by_cases type : pair.1.1 = "@type"
        · -- The key of the type has no other spelling, and its member is not read again.
          rcases distinct.memberRole_of_spells hc (keys pair among) with same | ⟨notType, -⟩
          · simp only [readMember, ← same, type]
            exact alike_ok rfl
          · exact absurd type notType
        · have member : pair.1 ∈ members := left.subset (List.mem_map_of_mem among)
          exact alike_member (respelled pair among type) deep
            (ih pair among type (ordered _ member)) distinct hc (keys pair among)

/-- Two spellings of a value are read to the same object, but for the type names that it keeps, or
neither can be read. -/
theorem decodeObject_of_respelled {contextUrl : String} {decls : List ClassDecl}
    {order : Registry.AliasOrder} {registry : Registry}
    (built : Registry.build contextUrl decls order = .ok registry)
    (distinct : registry.KeysDistinct) (namesDistinct : registry.NamesDistinct) {v w : Json}
    (ordered : v.Ordered) (respelled : Json.Respelled registry v w) (maxDepth : Nat) (path : Path)
    (target : Option NodeClass) :
    ((∃ o, (Decoder.mk registry maxDepth).decodeObject path target v = .ok o) ↔
        ∃ o, (Decoder.mk registry maxDepth).decodeObject path target w = .ok o) ∧
      ∀ o o', (Decoder.mk registry maxDepth).decodeObject path target v = .ok o →
        (Decoder.mk registry maxDepth).decodeObject path target w = .ok o' →
          o.recast .untyped = o'.recast .untyped := by
  have reads : (Decoder.mk registry maxDepth).ReadsAlike v w :=
    readsAlike_of_respelled (Registry.build_spec built).1 distinct namesDistinct respelled ordered
  have alike : Alike _ (_ : Decoded Object) _ := reads.object target (Eq.refl path.length)
  refine ⟨alike.exists_ok_iff, fun o o' read read' => ?_⟩
  rw [read, read'] at alike
  exact alike.related

end Decoder

namespace Sample

def lid : ClassDecl where
  iri := "ex:Lid"
  compact := some "Lid"
  nodeKind := none
  idAlias := none
  isAbstract := false
  extensible := none
  parents := []
  properties := []

/-- A kettle has a maker and may have a lid. -/
def kettle : ClassDecl where
  iri := "ex:Kettle"
  compact := some "Kettle"
  nodeKind := none
  idAlias := none
  isAbstract := false
  extensible := none
  parents := []
  properties :=
    [⟨"lid", "ex:lid", some "lid", .object "Lid", false, none, none, [], []⟩,
      ⟨"maker", "ex:maker", some "maker", .scalar .string, false, none, none, [], []⟩]

def kettleRegistry : Registry :=
  (Registry.build "" [lid, kettle]).toOption.getD ⟨"", [], []⟩

/-- A kettle with a lid, where the lid comes first. -/
def shortKettle : Json := .object [("@type", .string "Kettle"),
  ("ex:lid", .object [("@type", .string "ex:Lid")]), ("maker", .string "Eve")]

/-- The same kettle, where the maker comes first. -/
def longKettle : Json := .object [("@type", .string "ex:Kettle"), ("ex:maker", .string "Eve"),
  ("lid", .object [("@type", .string "Lid")])]

theorem lid_respelled : Json.Respelled kettleRegistry (.object [("@type", .string "ex:Lid")])
    (.object [("@type", .string "Lid")]) := by
  refine .object rfl rfl (.head _) (by decide) (by decide) nofun [(_, _)] .rfl .rfl ?_ ?_
  · simp only [List.forall_mem_singleton]
    exact .inl rfl
  · simp only [List.forall_mem_singleton]
    exact fun notType => absurd rfl notType

theorem kettle_respelled : shortKettle.Respelled kettleRegistry longKettle := by
  refine .object rfl rfl (.tail _ (.head _)) (by decide) (by decide) (by decide)
    [(("@type", .string "Kettle"), ("@type", .string "ex:Kettle")),
      (("ex:lid", .object [("@type", .string "ex:Lid")]),
        ("lid", .object [("@type", .string "Lid")])),
      (("maker", .string "Eve"), ("ex:maker", .string "Eve"))] .rfl ?_ ?_ ?_
  · exact .cons _ (.swap _ _ _)
  · simp only [List.forall_mem_cons]
    exact ⟨.inl rfl, .inr ⟨_, .head _, by decide, by decide⟩,
      .inr ⟨_, .tail _ (.head _), by decide, by decide⟩, nofun⟩
  · simp only [List.forall_mem_cons]
    exact ⟨fun notType => absurd rfl notType, fun _ => lid_respelled, fun _ => .string _, nofun⟩

theorem ordered_shortKettle : shortKettle.Ordered := by
  refine .object (by decide) ?_
  simp only [List.forall_mem_cons]
  refine ⟨.string _, .object (by decide) ?_, .string _, nofun⟩
  simp only [List.forall_mem_singleton]
  exact .string _

end Sample

/-- Neither the names of the types nor the order of the members make a difference. -/
theorem Sample.kettle_readAlike : ∃ o o',
    (Decoder.mk Sample.kettleRegistry 1).decodeObject .root none Sample.shortKettle = .ok o ∧
      (Decoder.mk Sample.kettleRegistry 1).decodeObject .root none Sample.longKettle = .ok o' ∧
        o.observedType ≠ o'.observedType ∧ o.recast .untyped = o'.recast .untyped := by
  obtain ⟨o, o', read, read', differ⟩ : ∃ o o',
      (Decoder.mk Sample.kettleRegistry 1).decodeObject .root none Sample.shortKettle = .ok o ∧
        (Decoder.mk Sample.kettleRegistry 1).decodeObject .root none Sample.longKettle = .ok o' ∧
          o.observedType ≠ o'.observedType := ⟨_, _, rfl, rfl, by decide⟩
  have built : Registry.build "" [Sample.lid, Sample.kettle] = .ok Sample.kettleRegistry := rfl
  obtain ⟨-, agree⟩ := Decoder.decodeObject_of_respelled built (by decide) (by decide)
    Sample.ordered_shortKettle Sample.kettle_respelled 1 .root none
  exact ⟨o, o', read, read', differ, agree o o' read read'⟩

end ShapedGraph
