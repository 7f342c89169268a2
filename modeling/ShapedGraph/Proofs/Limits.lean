import ShapedGraph.Proofs.Lookup

/-! The limit on the length of paths. Reading visits every object in a value whichever class it is
read by, so a limit decides whether a value is read and never what it is read to: the search for a
class cannot come to another candidate because an earlier one ran into the limit. -/

namespace ShapedGraph

namespace Decoder

variable {d : Decoder} {path : Path} {target : Option NodeClass} {json : Json} {context : Context}

/-! ## What is read was visited -/

/-- If something can be read from a value, no object in it stands beyond the limit. -/
structure Visits (d : Decoder) (json : Json) : Prop where
  object : ∀ path target o, d.decodeObject path target json = .ok o →
    json.staysWithin d.maxDepth path.length = true
  references : ∀ context path target targets,
    d.decodeReferenceList context target path json = .ok targets →
      json.staysWithin d.maxDepth path.length = true
  value : ∀ path value, d.decodeExtension path json = .ok value →
    json.staysWithin d.maxDepth path.length = true
  values : ∀ path values, d.decodeExtensionList path json = .ok values →
    json.staysWithin d.maxDepth path.length = true

/-- A value that a scalar can be read from has no object in it. -/
theorem staysWithin_of_scalar {kind : ScalarKind} {value : Scalar}
    (read : kind.decode context path json = .ok value) (limit length : Nat) :
    json.staysWithin limit length = true := by
  cases json with
  | null | bool | integer | float | string => rfl
  | list | object => cases kind <;> cases read

/-- The elements of a list stay within the limit if each of them does where it was read. -/
theorem staysWithin_of_decodeItems {α : Type} {decode : Path → Json → Decoded α}
    {items : List Json} {position : Nat} {values : List α} {limit : Nat}
    (each : ∀ item ∈ items, ∀ position value, decode (path.item position) item = .ok value →
      item.staysWithin limit (path.length + 1) = true)
    (read : decodeItems decode path position items = .ok values) :
    ∀ item ∈ items, item.staysWithin limit (path.length + 1) = true := by
  induction items generalizing position values with
  | nil => exact nofun
  | cons item items ih =>
    obtain ⟨here, later⟩ := List.forall_mem_cons.mp each
    rw [decodeItems] at read
    obtain ⟨value, first, read⟩ := Outcome.bind_eq_ok.mp read
    obtain ⟨rest, reads, -⟩ := Outcome.bind_eq_ok.mp read
    exact List.forall_mem_cons.mpr ⟨here position value first, ih later reads⟩

theorem staysWithin_of_referenceOf {reference : Reference} (visits : d.Visits json)
    (read : referenceOf context path json (fun _ => d.decodeObject path target json) =
      .ok reference) : json.staysWithin d.maxDepth path.length = true := by
  unfold referenceOf at read
  split at read
  · rfl
  · obtain ⟨o, read, -⟩ := Outcome.map_eq_ok.mp read
    exact visits.object path target o read

theorem staysWithin_of_readSlot {p : Property} {slot : Slot} (visits : d.Visits json)
    (read : d.ReadsSlot p path json slot) : json.staysWithin d.maxDepth path.length = true := by
  cases read with
  | scalar _ _ read => exact staysWithin_of_scalar read _ _
  | list _ _ read =>
    unfold decodeList at read
    split at read
    · refine Json.staysWithin_list.mpr (staysWithin_of_decodeItems ?_ read)
      exact fun item _ position value first => staysWithin_of_scalar first _ _
    · cases read
  | reference _ _ read => exact staysWithin_of_referenceOf visits read
  | references _ _ read => exact visits.references _ path _ _ read

theorem staysWithin_of_readExtensions {values : List Extension} (visits : d.Visits json)
    (read : d.readExtensions path json = .ok values) :
    json.staysWithin d.maxDepth path.length = true := by
  unfold readExtensions extensionsOf at read
  split at read
  · exact visits.values path values read
  · obtain ⟨value, read, -⟩ := Outcome.map_eq_ok.mp read
    exact visits.value path value read

theorem staysWithin_of_readMember {cls : NodeClass} {key : String} {part : Part}
    (visits : d.Visits json) (typed : key = "@type" → ∃ type, json = .string type)
    (read : d.ReadsMember path cls key json part) :
    json.staysWithin d.maxDepth (path.length + 1) = true := by
  rw [← Path.length_member path key]
  cases read with
  | type role =>
    obtain ⟨type, rfl⟩ := typed (NodeClass.Means.of_memberRole role)
    rfl
  | id _ read =>
    obtain ⟨rfl, -⟩ := decodeId_eq_ok.mp read
    rfl
  | slot _ _ read => exact staysWithin_of_readSlot visits read
  | extension _ read => exact staysWithin_of_readExtensions visits read

/-- No object is read at a path beyond the limit. -/
theorem length_le_of_decodeObject {o : Object} (read : d.decodeObject path target json = .ok o) :
    path.length ≤ d.maxDepth := by
  refine Nat.not_lt.mp fun beyond => ?_
  unfold decodeObject at read
  rw [if_pos beyond] at read
  cases read

theorem staysWithin_of_members {members : List (String × Json)} {o : Object}
    (each : ∀ m ∈ members, d.Visits m.2) (sorted : Members.Sorted members)
    (read : d.decodeObject path target (.object members) = .ok o) :
    (Json.object members).staysWithin d.maxDepth path.length = true := by
  have here := length_le_of_decodeObject read
  obtain ⟨type, cls, typed, read⟩ := exists_class_of_decodeObject read
  obtain ⟨parts, reads, -⟩ := (decodeMembers_eq_ok (Object.shaped_ofType cls type)).mp read
  refine Json.staysWithin_object.mpr ⟨here, fun m among => ?_⟩
  have brought := List.mem_map_of_mem (f := fun m => d.readMember path cls m.1 m.2) among
  replace reads : members.map (fun m => d.readMember path cls m.1 m.2) = parts.map .ok := reads
  rw [reads] at brought
  obtain ⟨part, -, same⟩ := List.mem_map.mp brought
  refine staysWithin_of_readMember (each m among) (fun key => ?_) (readMember_eq_ok.mp same.symm)
  -- The one member with the key of the type is the type.
  have found := Members.get?_of_mem sorted among
  rw [key, typed] at found
  exact ⟨type, (Option.some.inj found).symm⟩

/-- Whatever is read from a value, every object in the value was visited. -/
theorem visits (d : Decoder) (json : Json) (ordered : json.Ordered) : d.Visits json := by
  induction json using Json.induct with
  | null | bool | integer | float | string =>
    exact ⟨fun _ _ _ _ => rfl, fun _ _ _ _ _ => rfl, fun _ _ _ => rfl, fun _ _ _ => rfl⟩
  | list items ih =>
    have each : ∀ item ∈ items, d.Visits item := fun item among =>
      ih item among (by cases ordered with | list each => exact each item among)
    have values : ∀ path values, d.decodeExtensions path 0 items = .ok values →
        (Json.list items).staysWithin d.maxDepth path.length = true := by
      intro path values read
      rw [decodeExtensions_eq] at read
      refine Json.staysWithin_list.mpr (staysWithin_of_decodeItems ?_ read)
      intro item among position value first
      simpa using (each item among).value _ value first
    refine ⟨fun path target o read => ?_, fun context path target targets read => ?_,
      fun path value read => ?_, values⟩
    · cases readsObject_of_decodeObject read
    · rw [decodeReferenceList, decodeReferences_eq] at read
      refine Json.staysWithin_list.mpr (staysWithin_of_decodeItems ?_ read)
      intro item among position reference first
      simpa using staysWithin_of_referenceOf (each item among) first
    · obtain ⟨inner, read, -⟩ := Outcome.map_eq_ok.mp read
      exact values path inner read
  | object members ih =>
    cases ordered with
    | object sorted ordered =>
      have each : ∀ m ∈ members, d.Visits m.2 := fun m among => ih m among (ordered m among)
      refine ⟨fun path target o read => staysWithin_of_members each sorted read, nofun,
        fun path value read => ?_, nofun⟩
      obtain ⟨o, read, -⟩ := Outcome.map_eq_ok.mp read
      exact staysWithin_of_members each sorted read

/-! ## Limits that are not reached -/

variable {registry : Registry} {low high : Nat}

/-- Two limits make no difference to what is read from a value in which no object stands beyond the
lower one. Only the faults of what cannot be read may differ. -/
structure Agrees (registry : Registry) (low high : Nat) (json : Json) : Prop where
  object : ∀ path target, json.staysWithin low path.length = true →
    ((Decoder.mk registry low).decodeObject path target json).toOption =
      ((Decoder.mk registry high).decodeObject path target json).toOption
  references : ∀ context path target, json.staysWithin low path.length = true →
    ((Decoder.mk registry low).decodeReferenceList context target path json).toOption =
      ((Decoder.mk registry high).decodeReferenceList context target path json).toOption
  values : ∀ path, json.staysWithin low path.length = true →
    ((Decoder.mk registry low).decodeExtensionList path json).toOption =
      ((Decoder.mk registry high).decodeExtensionList path json).toOption

/-- Lists are read alike if each element is. -/
theorem toOption_decodeItems_congr {α : Type} {decode decode' : Path → Json → Decoded α}
    {items : List Json} (position : Nat) (each : ∀ item ∈ items, ∀ position,
      (decode (path.item position) item).toOption = (decode' (path.item position) item).toOption) :
    (decodeItems decode path position items).toOption =
      (decodeItems decode' path position items).toOption := by
  induction items generalizing position with
  | nil => rfl
  | cons item items ih =>
    obtain ⟨here, later⟩ := List.forall_mem_cons.mp each
    rw [decodeItems, decodeItems]
    refine Outcome.toOption_bind_congr (here position) fun value => ?_
    exact Outcome.toOption_bind_congr (ih (position + 1) later) fun values => rfl

theorem toOption_referenceOf_congr {object object' : Unit → Decoded Object}
    (same : (object ()).toOption = (object' ()).toOption) :
    (referenceOf context path json object).toOption =
      (referenceOf context path json object').toOption := by
  unfold referenceOf
  split
  · rfl
  · exact Outcome.toOption_map_congr _ same

theorem toOption_extensionOf_congr {object object' : Unit → Decoded Object}
    {list list' : Unit → Decoded (List Extension)}
    (objects : (object ()).toOption = (object' ()).toOption)
    (lists : (list ()).toOption = (list' ()).toOption) :
    (extensionOf path json object list).toOption =
      (extensionOf path json object' list').toOption := by
  cases json with
  | object members => exact Outcome.toOption_map_congr _ objects
  | list items => exact Outcome.toOption_map_congr _ lists
  | _ => rfl

theorem toOption_extensionsOf_congr {object object' : Unit → Decoded Object}
    {list list' : Unit → Decoded (List Extension)}
    (objects : (object ()).toOption = (object' ()).toOption)
    (lists : (list ()).toOption = (list' ()).toOption) :
    (extensionsOf path json object list).toOption =
      (extensionsOf path json object' list').toOption := by
  unfold extensionsOf
  split
  · exact lists
  · exact Outcome.toOption_map_congr _ (toOption_extensionOf_congr objects lists)

theorem toOption_contentOf_congr {p : Property} {slot : Slot}
    {object object' : Option NodeClass → Decoded Object}
    {references references' : Context → Option NodeClass → Decoded (List Reference)}
    (objects : ∀ target, (object target).toOption = (object' target).toOption)
    (lists : ∀ context target,
      (references context target).toOption = (references' context target).toOption) :
    ((Decoder.mk registry low).contentOf p path json slot object references).toOption =
      ((Decoder.mk registry high).contentOf p path json slot object' references').toOption := by
  unfold contentOf
  split
  · rfl
  · rfl
  · exact Outcome.toOption_map_congr _ (toOption_referenceOf_congr (objects _))
  · exact Outcome.toOption_map_congr _ (lists _ _)
  · rfl

theorem toOption_decodeMembers_congr {members : List (String × Json)}
    (each : ∀ m ∈ members, Agrees registry low high m.2)
    (within : ∀ m ∈ members, m.2.staysWithin low (path.length + 1) = true) (o : Object) :
    ((Decoder.mk registry low).decodeMembers path members o).toOption =
      ((Decoder.mk registry high).decodeMembers path members o).toOption := by
  induction members generalizing o with
  | nil => rfl
  | cons m members ih =>
    obtain ⟨key, value⟩ := m
    obtain ⟨here, later⟩ := List.forall_mem_cons.mp each
    obtain ⟨inside, beside⟩ := List.forall_mem_cons.mp within
    rw [← Path.length_member path key] at inside
    have rest := ih later beside
    rw [decodeMembers, decodeMembers]
    cases o.cls.memberRole key with
    | type => exact rest o
    | id => exact Outcome.toOption_bind_congr rfl fun id => rest _
    | forbiddenId | unknown => rfl
    | declared place =>
      simp only
      split
      · rfl
      · refine Outcome.toOption_bind_congr ?_ fun slot => rest _
        exact toOption_contentOf_congr (fun target => here.object _ target inside)
          fun context target => here.references context _ target inside
    | undeclared =>
      refine Outcome.toOption_bind_congr ?_ fun values => rest _
      exact toOption_extensionsOf_congr (here.object _ none inside) (here.values _ inside)

theorem toOption_decodeObject_congr {members : List (String × Json)} (le : low ≤ high)
    (each : ∀ m ∈ members, Agrees registry low high m.2)
    (within : (Json.object members).staysWithin low path.length = true) :
    ((Decoder.mk registry low).decodeObject path target (.object members)).toOption =
      ((Decoder.mk registry high).decodeObject path target (.object members)).toOption := by
  obtain ⟨here, inside⟩ := Json.staysWithin_object.mp within
  have same := toOption_decodeMembers_congr each inside
  rw [decodeObject, decodeObject, if_neg (Nat.not_lt.mpr here),
    if_neg (Nat.not_lt.mpr (Nat.le_trans here le))]
  refine Outcome.toOption_bind_congr rfl fun type => ?_
  refine Outcome.toOption_bind_congr rfl fun choice => ?_
  cases choice with
  | only cls => exact same _
  | firstOf candidates => simp only [same]

/-- Limits that no object in a value stands beyond make no difference. -/
theorem agrees (registry : Registry) (le : low ≤ high) (json : Json) :
    Agrees registry low high json := by
  have noObject : ∀ json : Json, (∀ members, json ≠ .object members) → ∀ path target,
      ((Decoder.mk registry low).decodeObject path target json).toOption =
        ((Decoder.mk registry high).decodeObject path target json).toOption := by
    intro json notObject path target
    rw [decodeObject_of_not_object _ _ _ notObject, decodeObject_of_not_object _ _ _ notObject]
    rfl
  induction json using Json.induct with
  | null | bool | integer | float | string =>
    refine ⟨fun path target _ => ?_, fun _ _ _ _ => rfl, fun _ _ => rfl⟩
    exact noObject _ (by simp) path target
  | list items ih =>
    refine ⟨fun path target _ => ?_, fun context path target within => ?_, fun path within => ?_⟩
    · exact noObject _ (by simp) path target
    · rw [decodeReferenceList, decodeReferenceList, decodeReferences_eq, decodeReferences_eq]
      refine toOption_decodeItems_congr 0 fun item among position => ?_
      have inside := Json.staysWithin_list.mp within item among
      exact toOption_referenceOf_congr ((ih item among).object _ target (by simpa using inside))
    · rw [decodeExtensionList, decodeExtensionList, decodeExtensions_eq, decodeExtensions_eq]
      refine toOption_decodeItems_congr 0 fun item among position => ?_
      have inside := Json.staysWithin_list.mp within item among
      rw [← Path.length_item path position] at inside
      exact toOption_extensionOf_congr ((ih item among).object _ none inside)
        ((ih item among).values _ inside)
  | object members ih =>
    exact ⟨fun path target within => toOption_decodeObject_congr le ih within,
      fun _ _ _ _ => rfl, fun _ _ => rfl⟩

/-- What is read under a higher limit is read under a lower one, to the same object, exactly if
every object in the value stands within the lower one; what is read under the lower one is read
under the higher one, to the same object. -/
theorem decodeObject_limit_iff (registry : Registry) (ordered : json.Ordered) (le : low ≤ high) :
    (∀ o, (Decoder.mk registry high).decodeObject path target json = .ok o →
      ((Decoder.mk registry low).decodeObject path target json = .ok o ↔
        ∀ place members, json.at? place = some (.object members) →
          path.length + place.length ≤ low)) ∧
      ∀ o, (Decoder.mk registry low).decodeObject path target json = .ok o →
        (Decoder.mk registry high).decodeObject path target json = .ok o := by
  have same : json.staysWithin low path.length = true → ∀ o,
      ((Decoder.mk registry low).decodeObject path target json = .ok o ↔
        (Decoder.mk registry high).decodeObject path target json = .ok o) := by
    intro within o
    rw [← Outcome.toOption_eq_some, ← Outcome.toOption_eq_some,
      (agrees registry le json).object path target within]
  have visited : ∀ o, (Decoder.mk registry low).decodeObject path target json = .ok o →
      json.staysWithin low path.length = true :=
    fun o => ((Decoder.mk registry low).visits json ordered).object path target o
  refine ⟨fun o read => ?_, fun o read => (same (visited o read) o).mp read⟩
  rw [← Json.staysWithin_iff_at? ordered]
  exact ⟨visited o, fun within => (same within o).mpr read⟩

end Decoder

namespace Sample

/-- A crate holds a list of crates. -/
def crate : ClassDecl where
  iri := "ex:Crate"
  compact := none
  nodeKind := none
  idAlias := none
  isAbstract := false
  extensible := some true
  parents := []
  properties := [
    ⟨"inside", "ex:inside", some "inside", .object "ex:Crate", true, none, none, [], []⟩]

/-- A pile declares nothing. -/
def pile : ClassDecl := { crate with iri := "ex:Pile", properties := [] }

def crateRegistry : Registry := (Registry.build "" [crate, pile]).toOption.getD ⟨"", [], []⟩

/-- No crate, as what is inside is not a list; but a pile with a crate. -/
def parcel : Json := .object
  [("@type", .string "ex:Parcel"), ("inside", .object [("@type", .string "ex:Letter")])]

theorem ordered_parcel : parcel.Ordered := by
  refine .object (by decide) ?_
  simp only [List.forall_mem_cons]
  refine ⟨.string _, .object (by decide) ?_, nofun⟩
  simp only [List.forall_mem_cons]
  exact ⟨.string _, nofun⟩

end Sample

theorem Sample.parcel_readWithin : ∃ o,
    (Decoder.mk Sample.crateRegistry 9).decodeObject .root none Sample.parcel = .ok o ∧
      (Decoder.mk Sample.crateRegistry 1).decodeObject .root none Sample.parcel = .ok o ∧
        (Decoder.mk Sample.crateRegistry 0).decodeObject .root none Sample.parcel ≠ .ok o := by
  obtain ⟨o, read⟩ : ∃ o, (Decoder.mk Sample.crateRegistry 9).decodeObject .root none
      Sample.parcel = .ok o := ⟨_, rfl⟩
  obtain ⟨one, -⟩ := Decoder.decodeObject_limit_iff Sample.crateRegistry Sample.ordered_parcel
    (show 1 ≤ 9 by decide)
  obtain ⟨zero, -⟩ := Decoder.decodeObject_limit_iff Sample.crateRegistry Sample.ordered_parcel
    (show 0 ≤ 9 by decide)
  refine ⟨o, read, (one o read).mpr ?_, fun shallow => ?_⟩
  · exact (Json.staysWithin_iff_at? Sample.ordered_parcel).mp rfl
  · have beyond := (zero o read).mp shallow [.name "inside"] _ rfl
    exact absurd beyond (by decide)

end ShapedGraph
