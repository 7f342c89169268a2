import ShapedGraph.Object.Decode
import ShapedGraph.Proofs.Context
import ShapedGraph.Proofs.Registry

/-! The keys of the members of an object: which property of a layout a key means, and registries in
which no key means two things. -/

namespace ShapedGraph

namespace PropertyDecl

/-- The keys that a property may be written with. -/
def keys (p : PropertyDecl) : List String := p.iri :: p.compact.toList

theorem matchesKey_iff {p : PropertyDecl} {key : String} :
    p.matchesKey key = true ↔ key ∈ p.keys := by
  rw [matchesKey, decide_eq_true_eq, keys, List.mem_cons, Option.mem_toList, eq_comm]

theorem key_mem_keys (p : PropertyDecl) : p.key ∈ p.keys := by
  cases h : p.compact <;> simp [key, keys, h]

end PropertyDecl

namespace NodeClass

variable {c : NodeClass} {key : String} {place : Nat}

theorem lastPlace_eq_some {c : NodeClass} {condition : Property → Bool} {place : Nat}
    (h : c.lastPlace condition = some place) :
    ∃ p, c.layout[place]? = some p ∧ condition p = true := by
  obtain ⟨⟨p, i⟩, found, rfl⟩ := Option.map_eq_some_iff.mp h
  have member := List.mem_reverse.mp (List.mem_of_find?_eq_some found)
  have holds := @List.find?_some _ (fun entry : Property × Nat => condition entry.1) _ _ found
  exact ⟨p, List.mk_mem_zipIdx_iff_getElem?.mp member, holds⟩

/-- No place of the layout behind the last one satisfies the condition. -/
theorem le_lastPlace {condition : Property → Bool} {other : Nat}
    {q : Property} (h : c.lastPlace condition = some place) (there : c.layout[other]? = some q)
    (holds : condition q = true) : other ≤ place := by
  obtain ⟨⟨p, i⟩, found, rfl⟩ := Option.map_eq_some_iff.mp h
  obtain ⟨-, front, inside, here, earlier⟩ := List.find?_eq_some_iff_getElem.mp found
  obtain ⟨known, rfl⟩ := List.getElem?_eq_some_iff.mp there
  simp only [List.length_reverse, List.length_zipIdx] at inside
  simp only [List.getElem_reverse, List.getElem_zipIdx, List.length_zipIdx, Prod.mk.injEq] at here
  -- Read from the back, a later place would have been met first.
  refine Nat.not_lt.mp fun later => ?_
  replace later : i < other := later
  have missed := earlier (c.layout.length - 1 - other) (by omega)
  simp only [List.getElem_reverse, List.getElem_zipIdx, List.length_zipIdx] at missed
  have back : c.layout.length - 1 - (c.layout.length - 1 - other) = other := by omega
  simp [back, holds] at missed

theorem lastPlace_eq_none_iff {condition : Property → Bool} :
    c.lastPlace condition = none ↔ ∀ p ∈ c.layout, condition p = false := by
  rw [lastPlace, Option.map_eq_none_iff, List.find?_eq_none]
  constructor
  · intro h p hp
    obtain ⟨i, hi⟩ := List.mem_iff_getElem?.mp hp
    have member := List.mem_reverse.mpr (List.mk_mem_zipIdx_iff_getElem?.mpr hi)
    simpa using h _ member
  · intro h entry member
    have hi := List.mk_mem_zipIdx_iff_getElem?.mp (List.mem_reverse.mp member)
    simpa using h _ (List.mem_of_getElem? hi)

theorem lastPlace_eq_some_iff {condition : Property → Bool} :
    c.lastPlace condition = some place ↔ ∃ p, c.layout[place]? = some p ∧ condition p = true ∧
      ∀ other q, c.layout[other]? = some q → condition q = true → other ≤ place := by
  constructor
  · intro h
    obtain ⟨p, there, holds⟩ := lastPlace_eq_some h
    exact ⟨p, there, holds, fun other q hq holds' => le_lastPlace h hq holds'⟩
  · rintro ⟨p, there, holds, last⟩
    cases found : c.lastPlace condition with
    | none =>
      have fails := lastPlace_eq_none_iff.mp found p (List.mem_of_getElem? there)
      cases holds.symm.trans fails
    | some other =>
      obtain ⟨q, hq, holds'⟩ := lastPlace_eq_some found
      have before := last other q hq holds'
      have behind := le_lastPlace found there holds
      rw [Nat.le_antisymm before behind]

/-- A key stands for the property at a place: the property may be written with it, and none behind
it in the layout may. -/
structure StandsFor (c : NodeClass) (key : String) (place : Nat) (p : Property) : Prop where
  there : c.layout[place]? = some p
  written : key ∈ p.keys
  last : ∀ other q, c.layout[other]? = some q → key ∈ q.keys → other ≤ place

theorem keyPlace_eq_some_iff :
    c.keyPlace key = some place ↔ ∃ p, c.StandsFor key place p := by
  rw [keyPlace, lastPlace_eq_some_iff]
  simp only [PropertyDecl.matchesKey_iff]
  constructor
  · rintro ⟨p, there, written, last⟩
    exact ⟨p, there, written, last⟩
  · rintro ⟨p, there, written, last⟩
    exact ⟨p, there, written, last⟩

theorem keyPlace_eq_none_iff : c.keyPlace key = none ↔ ∀ p ∈ c.layout, key ∉ p.keys := by
  rw [keyPlace, lastPlace_eq_none_iff]
  simp only [← PropertyDecl.matchesKey_iff, Bool.not_eq_true]

/-- What a role says about the key of a member. -/
def Means (c : NodeClass) (key : String) : MemberRole → Prop
  | .type => key = "@type"
  | .id => key = c.idKey ∧ key ≠ "@type"
  | .forbiddenId => key = "@id" ∧ key ≠ c.idKey
  | .declared place => c.keyPlace key = some place
  | .undeclared => c.keyPlace key = none ∧ c.isExtensible = true
  | .unknown => c.keyPlace key = none ∧ c.isExtensible = false

theorem propertyRole_means (c : NodeClass) (key : String) :
    c.Means key (c.propertyRole key) := by
  rw [propertyRole]
  cases there : c.keyPlace key with
  | some place => exact there
  | none =>
    cases allows : c.isExtensible <;> exact ⟨there, allows⟩

/-- The role of a member is the one that its key calls for. -/
theorem memberRole_means (c : NodeClass) (key : String) : c.Means key (c.memberRole key) := by
  rw [memberRole]
  by_cases type : key = "@type"
  · rw [if_pos type]
    exact type
  by_cases id : key = c.idKey
  · rw [if_neg type, if_pos id]
    exact ⟨id, type⟩
  by_cases forbidden : key = "@id"
  · rw [if_neg type, if_neg id, if_pos forbidden]
    exact ⟨forbidden, id⟩
  · rw [if_neg type, if_neg id, if_neg forbidden]
    exact c.propertyRole_means key

theorem Means.of_memberRole {c : NodeClass} {key : String} {role : MemberRole}
    (h : c.memberRole key = role) : c.Means key role := h ▸ c.memberRole_means key

theorem memberRole_type (c : NodeClass) : c.memberRole "@type" = .type := if_pos rfl

theorem memberRole_idKey {c : NodeClass} (h : c.idKey ≠ "@type") : c.memberRole c.idKey = .id := by
  rw [memberRole, if_neg h, if_pos rfl]

/-- The key says nothing about the type or the identifier of an object. -/
def Unreserved (c : NodeClass) (key : String) : Prop :=
  key ≠ "@type" ∧ key ≠ c.idKey ∧ key ≠ "@id"

theorem memberRole_of_unreserved (free : c.Unreserved key) :
    c.memberRole key = c.propertyRole key := by
  obtain ⟨notType, notIdKey, notId⟩ := free
  rw [memberRole, if_neg notType, if_neg notIdKey, if_neg notId]

/-- The role of a key that is not reserved is settled by the layout; a reserved key has a role that
holds no value of a property. -/
theorem memberRole_cases (c : NodeClass) (key : String) :
    c.Unreserved key ∧ c.memberRole key = c.propertyRole key ∨
      ¬c.Unreserved key ∧
        (c.memberRole key = .type ∨ c.memberRole key = .id ∨ c.memberRole key = .forbiddenId) := by
  by_cases free : c.Unreserved key
  · exact .inl ⟨free, memberRole_of_unreserved free⟩
  · refine .inr ⟨free, ?_⟩
    unfold memberRole
    split
    · exact .inl rfl
    · split
      · exact .inr (.inl rfl)
      · split
        · exact .inr (.inr rfl)
        · rename_i notType notIdKey notId
          exact absurd ⟨notType, notIdKey, notId⟩ free

theorem memberRole_eq_declared_iff :
    c.memberRole key = .declared place ↔ c.Unreserved key ∧ ∃ p, c.StandsFor key place p := by
  rw [← keyPlace_eq_some_iff]
  rcases c.memberRole_cases key with ⟨free, role⟩ | ⟨reserved, role⟩
  · rw [role, propertyRole]
    cases c.keyPlace key with
    | some other => simp [free]
    | none => cases c.isExtensible <;> simp
  · rcases role with role | role | role <;> simp [role, reserved]

theorem memberRole_eq_undeclared_iff :
    c.memberRole key = .undeclared ↔
      c.Unreserved key ∧ c.isExtensible = true ∧ ∀ p ∈ c.layout, key ∉ p.keys := by
  rw [← keyPlace_eq_none_iff]
  rcases c.memberRole_cases key with ⟨free, role⟩ | ⟨reserved, role⟩
  · rw [role, propertyRole]
    cases c.keyPlace key with
    | some place => simp
    | none => cases c.isExtensible <;> simp [free]
  · rcases role with role | role | role <;> simp [role, reserved]

theorem memberRole_eq_id_iff :
    c.memberRole key = .id ↔ key ≠ "@type" ∧ key = c.idKey := by
  constructor
  · intro h
    obtain ⟨same, notType⟩ := Means.of_memberRole h
    exact ⟨notType, same⟩
  · rintro ⟨notType, same⟩
    rw [memberRole, if_neg notType, if_pos same]

end NodeClass

namespace Registry

/-- The class that the place of a member asks for. -/
def memberTarget (registry : Registry) (cls : NodeClass) (key : String) :
    Option NodeClass :=
  match cls.memberRole key with
  | .declared place => cls.layout[place]?.bind registry.targetOf
  | _ => none

theorem memberTarget_of_declared {registry : Registry} {cls : NodeClass} {key : String}
    {place : Nat} {p : Property} (role : cls.memberRole key = .declared place)
    (there : cls.layout[place]? = some p) :
    registry.memberTarget cls key = registry.targetOf p := by
  simp only [memberTarget, role, there, Option.bind_some]

theorem memberTarget_of_undeclared {registry : Registry} {cls : NodeClass} {key : String}
    (role : cls.memberRole key = .undeclared) : registry.memberTarget cls key = none := by
  simp only [memberTarget, role]

/-- No key means two things in a class, and no token stands for two IRIs in a property. -/
structure Unambiguous (registry : Registry) : Prop where
  keys : ∀ c ∈ registry.classes, c.layout.Pairwise fun p q => ∀ key ∈ p.keys, key ∉ q.keys
  reserved : ∀ c ∈ registry.classes, ∀ p ∈ c.layout, ∀ key ∈ p.keys,
    key ≠ "@type" ∧ key ≠ "@id" ∧ c.idAlias ≠ some key
  tokens : ∀ c ∈ registry.classes, ∀ p ∈ c.layout, p.context.TokensDistinct

instance (registry : Registry) : Decidable (Unambiguous registry) :=
  have : ∀ context : Context, Decidable context.TokensDistinct := fun context =>
    inferInstanceAs (Decidable (∀ a ∈ context.pairs, ∀ b ∈ context.pairs,
      a.token = b.token → a.iri = b.iri))
  decidable_of_iff
    ((∀ c ∈ registry.classes, c.layout.Pairwise fun p q => ∀ key ∈ p.keys, key ∉ q.keys) ∧
      (∀ c ∈ registry.classes, ∀ p ∈ c.layout, ∀ key ∈ p.keys,
        key ≠ "@type" ∧ key ≠ "@id" ∧ c.idAlias ≠ some key) ∧
      ∀ c ∈ registry.classes, ∀ p ∈ c.layout, p.context.TokensDistinct)
    ⟨fun ⟨h, h', h''⟩ => ⟨h, h', h''⟩, fun ⟨h, h', h''⟩ => ⟨h, h', h''⟩⟩

variable {registry : Registry} {c : NodeClass}

/-- No key means two things in a class. -/
structure KeysDistinct (registry : Registry) : Prop where
  apart : ∀ c ∈ registry.classes, c.layout.Pairwise fun p q => ∀ key ∈ p.keys, key ∉ q.keys
  reserved : ∀ c ∈ registry.classes, ∀ p ∈ c.layout, ∀ key ∈ p.keys,
    key ≠ "@type" ∧ key ≠ "@id" ∧ c.idAlias ≠ some key

instance (registry : Registry) : Decidable (KeysDistinct registry) :=
  decidable_of_iff
    ((∀ c ∈ registry.classes, c.layout.Pairwise fun p q => ∀ key ∈ p.keys, key ∉ q.keys) ∧
      ∀ c ∈ registry.classes, ∀ p ∈ c.layout, ∀ key ∈ p.keys,
        key ≠ "@type" ∧ key ≠ "@id" ∧ c.idAlias ≠ some key)
    ⟨fun ⟨h, h'⟩ => ⟨h, h'⟩, fun ⟨h, h'⟩ => ⟨h, h'⟩⟩

theorem Unambiguous.keysDistinct (unambiguous : Unambiguous registry) : KeysDistinct registry :=
  ⟨unambiguous.keys, unambiguous.reserved⟩

/-- Two places of a layout whose properties share a key are the same place. -/
theorem KeysDistinct.place_unique (distinct : KeysDistinct registry) (hc : c ∈ registry.classes)
    {place other : Nat} {p q : Property} {key : String} (hp : c.layout[place]? = some p)
    (hq : c.layout[other]? = some q) (keyP : key ∈ p.keys) (keyQ : key ∈ q.keys) :
    place = other := by
  obtain ⟨hi, rfl⟩ := List.getElem?_eq_some_iff.mp hp
  obtain ⟨hj, rfl⟩ := List.getElem?_eq_some_iff.mp hq
  have apart := List.pairwise_iff_getElem.mp (distinct.apart c hc)
  rcases Nat.lt_trichotomy place other with less | same | greater
  · exact absurd keyQ (apart place other hi hj less key keyP)
  · exact same
  · exact absurd keyP (apart other place hj hi greater key keyQ)

theorem KeysDistinct.eq_of_mem_keys (distinct : KeysDistinct registry) (hc : c ∈ registry.classes)
    {p q : Property} {key : String} (hp : p ∈ c.layout) (hq : q ∈ c.layout) (keyP : key ∈ p.keys)
    (keyQ : key ∈ q.keys) : p = q := by
  obtain ⟨place, there⟩ := List.mem_iff_getElem?.mp hp
  obtain ⟨other, there'⟩ := List.mem_iff_getElem?.mp hq
  obtain rfl := distinct.place_unique hc there there' keyP keyQ
  exact Option.some.inj (there.symm.trans there')

/-- The key of a property says nothing about the type or the identifier of an object. -/
theorem KeysDistinct.unreserved (distinct : KeysDistinct registry) (hc : c ∈ registry.classes)
    {p : Property} {key : String} (hp : p ∈ c.layout) (written : key ∈ p.keys) :
    c.Unreserved key := by
  obtain ⟨notType, notId, notAlias⟩ := distinct.reserved c hc p hp key written
  refine ⟨notType, ?_, notId⟩
  rw [NodeClass.idKey]
  cases h : c.idAlias with
  | none => exact notId
  | some own => exact fun same => notAlias (h.trans (congrArg some same.symm))

/-- Each key that a property may be written with means the property. -/
theorem KeysDistinct.memberRole_of_mem_keys (distinct : KeysDistinct registry)
    (hc : c ∈ registry.classes) {place : Nat} {p : Property} {key : String}
    (hp : c.layout[place]? = some p) (written : key ∈ p.keys) :
    c.memberRole key = .declared place := by
  refine NodeClass.memberRole_eq_declared_iff.mpr
    ⟨distinct.unreserved hc (List.mem_of_getElem? hp) written, p, hp, written, ?_⟩
  exact fun other q hq shares => Nat.le_of_eq (distinct.place_unique hc hq hp shares written)

/-- The key that a property is written with means the property. -/
theorem Unambiguous.memberRole_key (unambiguous : Unambiguous registry) (hc : c ∈ registry.classes)
    {place : Nat} {p : Property} (hp : c.layout[place]? = some p) :
    c.memberRole p.key = .declared place :=
  unambiguous.keysDistinct.memberRole_of_mem_keys hc hp p.key_mem_keys

end Registry

end ShapedGraph
