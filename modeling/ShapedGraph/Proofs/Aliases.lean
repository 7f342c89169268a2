import Mathlib.Data.List.Induction
import ShapedGraph.Schema.Registry

/-! Compact names that are entered one after the other. What a key stands for in the end is settled
when its compact name is entered: it is what the IRI of that name stands for by then. So a name
stands for the IRI that it was given with, unless this IRI is a compact name itself and was entered
before. -/

namespace ShapedGraph.Registry

variable {given table before after : List ClassAlias} {entry : ClassAlias} {key iri : String}

/-! ## The table that is entered -/

theorem mem_latest :
    entry ∈ latest given ↔ given.find? (·.token == entry.token) = some entry := by
  induction given with
  | nil => simp [latest]
  | cons first rest ih =>
    rw [latest, List.mem_cons, List.mem_filter, ih]
    by_cases same : first.token = entry.token
    · rw [List.find?_cons_of_pos (by simp [same])]
      simp [same, eq_comm]
    · rw [List.find?_cons_of_neg (by simpa using same)]
      have other : entry ≠ first := fun equal => same (equal ▸ rfl)
      simp [other, Ne.symm same]

/-- Each token is in the table once. -/
def Once (table : List ClassAlias) : Prop :=
  table.Pairwise fun entry later => entry.token ≠ later.token

theorem once_latest (given : List ClassAlias) : Once (latest given) := by
  induction given with
  | nil => exact .nil
  | cons first rest ih =>
    refine .cons (fun entry there => ?_) (List.Pairwise.filter _ ih)
    have differ := (List.mem_filter.mp there).2
    exact Ne.symm (by simpa using differ)

theorem Once.perm {moved : List ClassAlias} (once : Once table) (perm : table.Perm moved) :
    Once moved :=
  (perm.pairwise_iff fun differ => Ne.symm differ).mp once

/-- No token is entered again after its own entry. -/
theorem Once.last (once : Once (before ++ entry :: after)) :
    ∀ later ∈ after, later.token ≠ entry.token := by
  have next := (List.pairwise_append.mp once).2.1
  exact fun later there => ((List.pairwise_cons.mp next).1 later there).symm

theorem Once.filter_token (once : Once table) (there : entry ∈ table) :
    table.filter (·.token == entry.token) = [entry] := by
  obtain ⟨before, after, rfl⟩ := List.append_of_mem there
  have earlier : before.filter (·.token == entry.token) = [] := by
    refine List.filter_eq_nil_iff.mpr fun other among => ?_
    simpa using (List.pairwise_append.mp once).2.2 other among entry List.mem_cons_self
  have later : after.filter (·.token == entry.token) = [] :=
    List.filter_eq_nil_iff.mpr fun other among => by simpa using once.last other among
  rw [List.filter_append, earlier, List.filter_cons_of_pos (by simp), later, List.nil_append]

theorem AliasOrder.once (order : AliasOrder) (given : List ClassAlias) :
    Once (order.arrange given) :=
  (once_latest given).perm (order.perm given).symm

theorem AliasOrder.mem_arrange (order : AliasOrder) :
    entry ∈ order.arrange given ↔ given.find? (·.token == entry.token) = some entry := by
  rw [(order.perm given).mem_iff, mem_latest]

/-! ## What keys stand for -/

/-- What a key means once the compact names of a table have been entered in turn. A key that is none
of them means itself. A compact name means what its IRI meant before it was entered last. -/
inductive Finds : List ClassAlias → String → String → Prop where
  | itself {table : List ClassAlias} {key : String}
    (unnamed : ∀ entry ∈ table, entry.token ≠ key) : Finds table key key
  | entered {before after : List ClassAlias} {entry : ClassAlias} {iri : String}
    (last : ∀ later ∈ after, later.token ≠ entry.token) (earlier : Finds before entry.iri iri) :
    Finds (before ++ entry :: after) entry.token iri

/-- One step: entering a compact name settles that name, and leaves the other keys alone. -/
theorem standsFor_enter (entered : List ClassAlias) (entry : ClassAlias) (key : String) :
    standsFor (enter entered entry) key =
      if entry.token = key then standsFor entered entry.iri else standsFor entered key := by
  unfold enter
  by_cases same : entry.token = key
  · rw [if_pos same, standsFor, List.find?_cons_of_pos (by simpa using same)]
  · rw [if_neg same, standsFor, List.find?_cons_of_neg (by simpa using same), ← standsFor]

theorem enterAll_concat (table : List ClassAlias) (entry : ClassAlias) :
    enterAll (table ++ [entry]) = enter (enterAll table) entry :=
  List.foldl_append ..

/-- Keys that are not entered any more are left alone. -/
theorem standsFor_append (other : ∀ later ∈ after, later.token ≠ key) :
    standsFor (enterAll (before ++ after)) key = standsFor (enterAll before) key := by
  induction after using List.reverseRecOn with
  | nil => rw [List.append_nil]
  | append_singleton after later ih =>
    rw [← List.append_assoc, enterAll_concat, standsFor_enter, if_neg (other later (by simp))]
    exact ih fun entry there => other entry (List.mem_append_left _ there)

theorem standsFor_of_last (last : ∀ later ∈ after, later.token ≠ entry.token) :
    standsFor (enterAll (before ++ entry :: after)) entry.token =
      standsFor (enterAll before) entry.iri := by
  rw [List.append_cons, standsFor_append last, enterAll_concat, standsFor_enter, if_pos rfl]

/-- What a key means early it means in the end, if it is not entered again. -/
theorem Finds.append (finds : Finds before key iri) (other : ∀ later ∈ after, later.token ≠ key) :
    Finds (before ++ after) key iri := by
  cases finds with
  | itself unnamed =>
    refine .itself fun entry there => ?_
    rcases List.mem_append.mp there with there | there
    · exact unnamed entry there
    · exact other entry there
  | entered last earlier =>
    rw [List.append_assoc, List.cons_append]
    refine .entered (fun later there => ?_) earlier
    rcases List.mem_append.mp there with there | there
    · exact last later there
    · exact other later there

theorem finds_standsFor (table : List ClassAlias) (key : String) :
    Finds table key (standsFor (enterAll table) key) := by
  induction table using List.reverseRecOn generalizing key with
  | nil => exact .itself nofun
  | append_singleton table entry ih =>
    rw [enterAll_concat, standsFor_enter]
    by_cases same : entry.token = key
    · subst same
      rw [if_pos rfl]
      exact .entered nofun (ih entry.iri)
    · rw [if_neg same]
      exact (ih key).append fun later there => List.mem_singleton.mp there ▸ same

/-- The whole run: entering the names of a table one after the other makes each key stand for what
it means. -/
theorem finds_iff : Finds table key iri ↔ standsFor (enterAll table) key = iri := by
  constructor
  · intro finds
    induction finds with
    | @itself table key unnamed =>
      show standsFor (enterAll ([] ++ table)) key = key
      exact standsFor_append unnamed
    | entered last _ ih => rw [standsFor_of_last last, ih]
  · rintro rfl
    exact finds_standsFor table key

/-- Two names that were given with each other's token for their IRI: the one that is entered first
decides what both mean. -/
example : enterAll [⟨"ex:A", "ex:B"⟩, ⟨"ex:B", "ex:A"⟩] = [⟨"ex:B", "ex:B"⟩, ⟨"ex:A", "ex:B"⟩] := by
  decide

theorem Finds.unique {other : String} (finds : Finds table key iri)
    (again : Finds table key other) : iri = other :=
  (finds_iff.mp finds).symm.trans (finds_iff.mp again)

/-- A key that is not entered comes to itself, and any other one to the IRI of an entry. -/
theorem Finds.eq_or_exists_entry (finds : Finds table key iri) :
    (iri = key ∧ ∀ entry ∈ table, entry.token ≠ key) ∨
      ((∃ entry ∈ table, entry.token = key) ∧ ∃ entry ∈ table, entry.iri = iri) := by
  induction finds with
  | itself unnamed => exact .inl ⟨rfl, unnamed⟩
  | @entered before after entry iri _ _ ih =>
    have there : entry ∈ before ++ entry :: after := by simp
    refine .inr ⟨⟨entry, there, rfl⟩, ?_⟩
    rcases ih with ⟨rfl, -⟩ | ⟨-, found, earlier, same⟩
    · exact ⟨entry, there, rfl⟩
    · exact ⟨found, List.mem_append_left _ earlier, same⟩

/-- An IRI means itself if the table has it for no other one. -/
theorem finds_self (once : Once table) (unshadowed : ∀ other, ⟨iri, other⟩ ∈ table → other = iri) :
    Finds table iri iri := by
  by_cases named : ∃ entry ∈ table, entry.token = iri
  · obtain ⟨⟨_, other⟩, there, rfl⟩ := named
    obtain rfl := unshadowed other there
    obtain ⟨before, after, rfl⟩ := List.append_of_mem there
    refine .entered once.last (.itself fun earlier among same => ?_)
    exact (List.pairwise_append.mp once).2.2 earlier among _ List.mem_cons_self same
  · exact .itself fun entry there same => named ⟨entry, there, same⟩

/-- A compact name means the IRI that it was given with, or what that IRI means. -/
theorem Finds.eq_or_finds (once : Once table) (there : ⟨key, iri⟩ ∈ table) {found : String}
    (finds : Finds table key found) : found = iri ∨ Finds table iri found := by
  obtain ⟨before, after, rfl⟩ := List.append_of_mem there
  have earlier : Finds before iri found := by
    rw [finds_iff, standsFor_of_last once.last] at finds
    exact finds_iff.mpr finds
  cases earlier with
  | itself => exact .inl rfl
  | @entered before' after' entry _ last earlier =>
    refine .inr ((Finds.entered last earlier).append fun later among => ?_)
    have moved : Once (before' ++ entry :: (after' ++ ⟨key, entry.token⟩ :: after)) := by
      simpa using once
    exact moved.last later (List.mem_append_right _ among)

/-- The compact name that is entered first means the IRI that it was given with, and so do the
compact names that were given with its token for their IRI. -/
theorem finds_of_first {token : String} {rest : List ClassAlias}
    (once : Once (⟨token, iri⟩ :: rest)) (named : key = token ∨ ⟨key, token⟩ ∈ rest) :
    Finds (⟨token, iri⟩ :: rest) key iri := by
  have first {after : List ClassAlias} (once : Once ([] ++ ⟨token, iri⟩ :: after)) :
      Finds ([] ++ ⟨token, iri⟩ :: after) token iri :=
    .entered once.last (.itself nofun)
  rcases named with rfl | there
  · exact first once
  · obtain ⟨before, after, rfl⟩ := List.append_of_mem there
    have whole : Once ((⟨token, iri⟩ :: before) ++ ⟨key, token⟩ :: after) := once
    show Finds ((⟨token, iri⟩ :: before) ++ ⟨key, token⟩ :: after) key iri
    exact .entered whole.last (first (List.pairwise_append.mp whole).1)

end ShapedGraph.Registry
