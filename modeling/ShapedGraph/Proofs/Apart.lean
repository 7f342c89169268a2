import ShapedGraph.Proofs.Assembly

/-! Parts that do not touch each other. Parts that go to different places of an object can be put in
in any order, and what one of them brought stays there until another goes to its place. -/

namespace ShapedGraph

/-- The parts go to different places of an object. -/
def Part.Apart : Part → Part → Prop
  | .id _, .id _ => False
  | .slot place _, .slot other _ => place ≠ other
  | .extension key _, .extension other _ => key ≠ other
  | _, _ => True

theorem Part.Apart.symm {part other : Part} (h : part.Apart other) : other.Apart part := by
  cases part <;> cases other <;> first | exact trivial | exact h | exact Ne.symm h

namespace Object

variable {part other : Part} {o : Object}

theorem put_comm (o : Object) (apart : part.Apart other) :
    (o.put part).put other = (o.put other).put part := by
  obtain ⟨cls, id, observedType, slots, extensions⟩ := o
  cases part with
  | nothing => rfl
  | id text =>
    cases other with
    | id => exact apart.elim
    | nothing | slot | extension => rfl
  | slot place slot =>
    cases other with
    | slot place' slot' =>
      have swap : (slots.set place slot).set place' slot' =
          (slots.set place' slot').set place slot := List.set_comm slot slot' apart
      exact congrArg (Object.mk cls id observedType · extensions) swap
    | nothing | id | extension => rfl
  | extension key values =>
    cases other with
    | extension key' values' =>
      have swap := Members.insert_comm extensions apart values values'
      exact congrArg (Object.mk cls id observedType slots) swap
    | nothing | id | slot => rfl

/-- A run: parts that are all apart make the same object in any order. -/
theorem foldl_put_perm {parts parts' : List Part} (perm : parts.Perm parts')
    (apart : parts.Pairwise Part.Apart) (o : Object) :
    parts.foldl put o = parts'.foldl put o := by
  induction perm generalizing o with
  | nil => rfl
  | cons part _ ih => exact ih (List.pairwise_cons.mp apart).2 (o.put part)
  | swap part other parts =>
    obtain ⟨first, -⟩ := List.pairwise_cons.mp apart
    rw [List.foldl_cons, List.foldl_cons, put_comm o (first _ List.mem_cons_self)]
    rfl
  | trans perm _ ih ih' =>
    rw [ih apart, ih' ((perm.pairwise_iff Part.Apart.symm).mp apart)]

/-- A part is there once it has been put in, if there is a place for it. -/
theorem has_put (inside : ∀ place slot, part = .slot place slot → place < o.slots.length) :
    (o.put part).Has part := by
  cases part with
  | nothing => exact trivial
  | id text => rfl
  | slot place slot => exact List.getElem?_set_self (inside place slot rfl)
  | extension key values => exact (Members.get?_insert _ _ _ _).trans (if_pos rfl)

/-- One step: a part stays until another goes to its place. -/
theorem Has.put_apart (has : o.Has part) (apart : part.Apart other) : (o.put other).Has part := by
  cases part with
  | nothing => exact trivial
  | id text =>
    cases other with
    | id => exact apart.elim
    | nothing | slot | extension => exact has
  | slot place slot =>
    cases other with
    | slot place' slot' => exact (List.getElem?_set_ne (Ne.symm apart)).trans has
    | nothing | id | extension => exact has
  | extension key values =>
    cases other with
    | extension key' values' =>
      have differ : key ≠ key' := apart
      exact (Members.get?_insert _ _ _ _).trans ((if_neg differ).trans has)
    | nothing | id | slot => exact has

/-- A run: a part stays while the others go to other places or bring the same. -/
theorem Has.foldl_put {parts : List Part} (has : o.Has part)
    (each : ∀ other ∈ parts, part.Apart other ∨ other = part) :
    (parts.foldl Object.put o).Has part := by
  induction parts generalizing o with
  | nil => exact has
  | cons other parts ih =>
    obtain ⟨first, others⟩ := List.forall_mem_cons.mp each
    refine ih ?_ others
    rcases first with apart | rfl
    · exact has.put_apart apart
    · refine has_put fun place slot same => ?_
      subst same
      exact (List.getElem?_eq_some_iff.mp has).1

end Object

/-- The keys differ, and no property of the class can be written with both. -/
structure NodeClass.KeysApart (c : NodeClass) (key other : String) : Prop where
  differ : key ≠ other
  unshared : ∀ p ∈ c.layout, key ∈ p.keys → other ∉ p.keys

theorem NodeClass.KeysApart.symm {c : NodeClass} {key other : String} (h : c.KeysApart key other) :
    c.KeysApart other key :=
  ⟨h.differ.symm, fun p hp written shared => h.unshared p hp shared written⟩

namespace Decoder

variable {d : Decoder} {path : Path} {cls : NodeClass} {key key' : String} {json json' : Json}
  {part part' : Part}

theorem ReadsMember.apart (reads : d.ReadsMember path cls key json part)
    (reads' : d.ReadsMember path cls key' json' part') (apart : cls.KeysApart key key') :
    part.Apart part' := by
  cases reads with
  | type => exact trivial
  | id role =>
    cases reads' with
    | id role' =>
      obtain ⟨-, same⟩ := NodeClass.memberRole_eq_id_iff.mp role
      obtain ⟨-, same'⟩ := NodeClass.memberRole_eq_id_iff.mp role'
      exact apart.differ (same.trans same'.symm)
    | type | slot | extension => exact trivial
  | slot role there =>
    cases reads' with
    | slot role' there' =>
      obtain ⟨-, p, stands⟩ := NodeClass.memberRole_eq_declared_iff.mp role
      obtain ⟨-, p', stands'⟩ := NodeClass.memberRole_eq_declared_iff.mp role'
      intro same
      cases same
      cases stands.there.symm.trans stands'.there
      exact apart.unshared p (List.mem_of_getElem? stands.there) stands.written stands'.written
    | type | id | extension => exact trivial
  | extension =>
    cases reads' with
    | extension => exact apart.differ
    | type | id | slot => exact trivial

variable {members members' : List (String × Json)} {o o' : Object}

theorem pairwise_apart {parts : List Part}
    (apart : members.Pairwise fun m m' => cls.KeysApart m.1 m'.1)
    (reads : members.map (fun m => d.readMember path cls m.1 m.2) = parts.map .ok) :
    parts.Pairwise Part.Apart := by
  induction members generalizing parts with
  | nil =>
    rw [List.map_eq_nil_iff.mp reads.symm]
    exact .nil
  | cons m members ih =>
    obtain ⟨first, others⟩ := List.pairwise_cons.mp apart
    cases parts with
    | nil => cases reads
    | cons part parts =>
      obtain ⟨here, later⟩ := List.cons.inj reads
      refine List.pairwise_cons.mpr ⟨fun part' among => ?_, ih others later⟩
      have brought := List.mem_map_of_mem (f := Except.ok (ε := DecodeError)) among
      rw [← later] at brought
      obtain ⟨m', hm, there⟩ := List.mem_map.mp brought
      exact (readMember_eq_ok.mp here).apart (readMember_eq_ok.mp there) (first m' hm)

/-- Members whose keys are all apart can be read in any order. -/
theorem decodeMembers_perm (perm : members.Perm members')
    (apart : members.Pairwise fun m m' => o.cls.KeysApart m.1 m'.1) (shaped : o.Shaped)
    (read : d.decodeMembers path members o = .ok o') :
    d.decodeMembers path members' o = .ok o' := by
  obtain ⟨parts, reads, made⟩ := (decodeMembers_eq_ok shaped).mp read
  obtain ⟨parts', reads', perm'⟩ := Outcome.exists_perm_of_map_ok perm reads
  refine (decodeMembers_eq_ok shaped).mpr ⟨parts', reads', ?_⟩
  rw [← made, Object.foldl_put_perm perm' (pairwise_apart apart reads)]

theorem toOption_decodeMembers_perm (perm : members.Perm members')
    (apart : members.Pairwise fun m m' => o.cls.KeysApart m.1 m'.1) (shaped : o.Shaped) :
    (d.decodeMembers path members o).toOption = (d.decodeMembers path members' o).toOption := by
  have apart' := (perm.pairwise_iff NodeClass.KeysApart.symm).mp apart
  refine Option.ext fun o' => ?_
  rw [Outcome.toOption_eq_some, Outcome.toOption_eq_some]
  exact ⟨decodeMembers_perm perm apart shaped, decodeMembers_perm perm.symm apart' shaped⟩

end Decoder

end ShapedGraph
