import Mathlib.Data.List.Forall2
import Mathlib.Data.List.Induction
import Mathlib.Data.List.Perm.Subperm
import Mathlib.Logic.Relation
import ShapedGraph.Proofs.Registry

/-! Declarations that a registry can be built from. They name parents and classes of objects that
are declared too, no class is an ancestor of itself, and each constraint applies to the values that
it is put on. Settling a class follows its ancestors, so the classes that are being worked on lie
one below the other: it comes back to one of them only if there is a cycle. -/

namespace ShapedGraph

/-! ## Constraints -/

/-- The constraint can be put on values of the kind, and if it is a pattern it can be read. -/
inductive Constraint.Applies : Constraint → ValueKind → Prop where
  | pattern {source : String} {kind : ScalarKind} (textual : kind ≠ .boolean ∧ kind ≠ .float)
    (read : (Pattern.compile? source).isSome = true) : Applies (.pattern source) (.scalar kind)
  | minimum (bound : Int64) : Applies (.minimum bound) (.scalar .integer)
  | maximum (bound : Int64) : Applies (.maximum bound) (.scalar .integer)
  | oneOf {kind : ScalarKind} (strings : kind.type = .string) (values : List String) :
    Applies (.oneOf values) (.scalar kind)

namespace Property

theorem applies_of_validator {decl : PropertyDecl} {constraint : Constraint} {v : Validator}
    (made : validator decl constraint = .ok v) : constraint.Applies decl.kind := by
  obtain ⟨name, iri, compact, kind, isList, minCount, maxCount, abbreviations, constraints⟩ := decl
  cases kind with
  | object cls => cases constraint <;> cases made
  | scalar kind =>
    cases constraint with
    | pattern source =>
      cases read : Pattern.compile? source with
      | none => cases kind <;> simp [validator, read] at made
      | some pattern =>
        refine .pattern ⟨?_, ?_⟩ (by rw [read]; rfl)
        · rintro rfl
          cases made
        · rintro rfl
          cases made
    | minimum bound =>
      cases kind with
      | integer => exact .minimum bound
      | _ => cases made
    | maximum bound =>
      cases kind with
      | integer => exact .maximum bound
      | _ => cases made
    | oneOf values =>
      cases kind with
      | string | iri => exact .oneOf rfl values
      | _ => cases made

theorem exists_validator_iff {decl : PropertyDecl} {constraint : Constraint} :
    (∃ v, validator decl constraint = .ok v) ↔ constraint.Applies decl.kind := by
  refine ⟨fun ⟨v, made⟩ => applies_of_validator made, fun applies => ?_⟩
  obtain ⟨name, iri, compact, kind, isList, minCount, maxCount, abbreviations, constraints⟩ := decl
  replace applies : constraint.Applies kind := applies
  cases applies with
  | minimum | maximum => exact ⟨_, rfl⟩
  | @oneOf kind strings =>
    cases kind with
    | string | iri => exact ⟨_, rfl⟩
    | _ => cases strings
  | @pattern source kind textual read =>
    obtain ⟨pattern, read⟩ := Option.isSome_iff_exists.mp read
    cases kind with
    | boolean => exact absurd rfl textual.1
    | float => exact absurd rfl textual.2
    | _ => exact ⟨.pattern pattern, by simp only [validator, read]⟩

variable {owner : String} {position : Nat}

theorem exists_compile_iff {decl : PropertyDecl} :
    (∃ p, compile owner position decl = .ok p) ↔
      ∀ constraint ∈ decl.constraints, constraint.Applies decl.kind := by
  simp only [← exists_validator_iff, ← Outcome.exists_mapM_iff]
  constructor
  · rintro ⟨p, compiled⟩
    obtain ⟨chain, made, -⟩ := Outcome.bind_eq_ok.mp compiled
    exact ⟨chain, made⟩
  · rintro ⟨chain, made⟩
    exact ⟨_, Outcome.bind_eq_ok.mpr ⟨chain, made, rfl⟩⟩

theorem exists_compileAll_iff {decls : List PropertyDecl} :
    (∃ own, compileAll owner position decls = .ok own) ↔
      ∀ decl ∈ decls, ∀ constraint ∈ decl.constraints, constraint.Applies decl.kind := by
  induction decls generalizing position with
  | nil => exact ⟨fun _ => nofun, fun _ => ⟨[], rfl⟩⟩
  | cons decl decls ih =>
    rw [List.forall_mem_cons, ← exists_compile_iff, ← ih, compileAll]
    constructor
    · rintro ⟨own, compiled⟩
      obtain ⟨p, first, compiled⟩ := Outcome.bind_eq_ok.mp compiled
      obtain ⟨rest, others, -⟩ := Outcome.bind_eq_ok.mp compiled
      exact ⟨⟨p, first⟩, rest, others⟩
    · rintro ⟨⟨p, first⟩, rest, others⟩
      refine ⟨p :: rest, Outcome.bind_eq_ok.mpr ⟨p, first, ?_⟩⟩
      exact Outcome.bind_eq_ok.mpr ⟨rest, others, rfl⟩

/-- Compiled properties say all that their declarations say. -/
theorem map_of_compileAll {decls : List PropertyDecl} {own : List Property}
    (compiled : compileAll owner position decls = .ok own) :
    own.map (·.toPropertyDecl) = decls := by
  induction decls generalizing position own with
  | nil =>
    cases compiled
    rfl
  | cons decl decls ih =>
    obtain ⟨p, first, compiled⟩ := Outcome.bind_eq_ok.mp compiled
    obtain ⟨rest, others, compiled⟩ := Outcome.bind_eq_ok.mp compiled
    cases compiled
    obtain ⟨chain, -, first⟩ := Outcome.bind_eq_ok.mp first
    cases first
    rw [List.map_cons, ih others]

end Property

namespace Registry

variable {decls : List ClassDecl} {decl : ClassDecl} {key iri : String}

/-! ## What declarations say -/

/-- The declaration is the last one about its class. -/
def Counts (decls : List ClassDecl) (decl : ClassDecl) : Prop :=
  ∃ before after, decls = before ++ decl :: after ∧ ∀ later ∈ after, later.iri ≠ decl.iri

/-- The last declaration with the compact name is about the class with the IRI. -/
def Aliased (decls : List ClassDecl) (token iri : String) : Prop :=
  ∃ before decl after, decls = before ++ decl :: after ∧ decl.compact = some token ∧
    decl.iri = iri ∧ ∀ later ∈ after, later.compact ≠ some token

/-- What a key means as the name of a parent: the class with this IRI, or if there is none the class
with this compact name. -/
inductive Denotes (decls : List ClassDecl) (key : String) : String → Prop where
  | iri (declared : ∃ decl ∈ decls, decl.iri = key) : Denotes decls key key
  | token {iri : String} (free : ∀ decl ∈ decls, decl.iri ≠ key) (aliased : Aliased decls key iri) :
    Denotes decls key iri

/-- The key is the IRI or the compact name of a declaration. -/
def Known (decls : List ClassDecl) (key : String) : Prop :=
  ∃ decl ∈ decls, decl.iri = key ∨ decl.compact = some key

/-- The declaration that counts for the child names the parent among its parents. -/
def ParentOf (decls : List ClassDecl) (parent child : String) : Prop :=
  ∃ decl, Counts decls decl ∧ decl.iri = child ∧ ∃ key ∈ decl.parents, Denotes decls key parent

/-- Declarations that a registry can be built from. Only those that count are looked at. -/
structure WellFormed (decls : List ClassDecl) : Prop where
  parents : ∀ decl, Counts decls decl → ∀ key ∈ decl.parents, Known decls key
  acyclic : ∀ iri, ¬Relation.TransGen (ParentOf decls) iri iri
  constraints : ∀ decl, Counts decls decl → ∀ p ∈ decl.properties, ∀ constraint ∈ p.constraints,
    constraint.Applies p.kind
  targets : ∀ decl, Counts decls decl → ∀ p ∈ decl.properties, ∀ cls, p.kind = .object cls →
    Known decls cls

/-- The IRIs of the declared classes, each once, in the order of first declaration. -/
structure Listing (decls : List ClassDecl) (iris : List String) : Prop where
  declared : ∀ iri, iri ∈ iris ↔ ∃ decl ∈ decls, decl.iri = iri
  ordered : iris.Pairwise fun iri later =>
    (decls.map (·.iri)).idxOf iri < (decls.map (·.iri)).idxOf later

/-! ## Looking declarations up -/

theorem find?_reverse_eq_some_iff {α : Type} {items : List α} {p : α → Bool} {a : α} :
    items.reverse.find? p = some a ↔ p a = true ∧
      ∃ before after, items = before ++ a :: after ∧ ∀ later ∈ after, p later = false := by
  rw [List.find?_eq_some_iff_append]
  refine and_congr_right fun _ => ?_
  constructor
  · rintro ⟨front, back, same, missed⟩
    refine ⟨back.reverse, front.reverse, ?_, fun later among => ?_⟩
    · simpa using congrArg List.reverse same
    · simpa using missed later (List.mem_reverse.mp among)
  · rintro ⟨before, after, rfl, missed⟩
    refine ⟨after.reverse, before.reverse, by simp, fun later among => ?_⟩
    simpa using missed later (List.mem_reverse.mp among)

theorem declaration?_eq_some_iff :
    declaration? decls iri = some decl ↔ decl.iri = iri ∧ Counts decls decl := by
  rw [declaration?, find?_reverse_eq_some_iff, beq_iff_eq, Counts]
  refine and_congr_right ?_
  rintro rfl
  simp only [beq_eq_false_iff_ne]

theorem find?_aliasesOf (decls : List ClassDecl) (token : String) :
    (aliasesOf decls).find? (·.token == token) =
      (decls.reverse.find? fun decl => decl.compact = some token).map (⟨token, ·.iri⟩) := by
  have named : ∀ decl : ClassDecl, (decl.compact.map (ClassAlias.mk · decl.iri)).any
      (·.token == token) = decide (decl.compact = some token) := by
    intro decl
    cases decl.compact with
    | none => rfl
    | some other => simp [beq_eq_decide]
  rw [aliasesOf, List.find?_filterMap]
  simp only [named]
  cases found : decls.reverse.find? fun decl => decide (decl.compact = some token) with
  | none => rfl
  | some decl =>
    have holds : decl.compact = some token := by simpa using List.find?_some found
    rw [Option.bind_some, holds]
    rfl

theorem aliased_iff {token : String} : Aliased decls token iri ↔
    ((aliasesOf decls).find? (·.token == token)).map (·.iri) = some iri := by
  rw [find?_aliasesOf, Option.map_map, Option.map_eq_some_iff]
  simp only [find?_reverse_eq_some_iff, decide_eq_true_eq, decide_eq_false_iff_not]
  constructor
  · rintro ⟨before, decl, after, same, named, rfl, last⟩
    exact ⟨decl, ⟨named, before, after, same, last⟩, rfl⟩
  · rintro ⟨decl, ⟨named, before, after, same, last⟩, rfl⟩
    exact ⟨before, decl, after, same, named, rfl, last⟩

/-- The table of compact names has each one with the class of its last declaration. -/
theorem AliasOrder.mem_arrange_aliasesOf {order : AliasOrder} {entry : ClassAlias} :
    entry ∈ order.arrange (aliasesOf decls) ↔ Aliased decls entry.token entry.iri := by
  rw [order.mem_arrange, aliased_iff, Option.map_eq_some_iff]
  constructor
  · exact fun found => ⟨entry, found, rfl⟩
  · rintro ⟨other, found, same⟩
    have token : other.token = entry.token := by simpa using List.find?_some found
    obtain ⟨token', iri'⟩ := other
    cases token
    cases same
    exact found

theorem Aliased.mem_arrange {token : String} (aliased : Aliased decls token iri)
    (order : AliasOrder) : ⟨token, iri⟩ ∈ order.arrange (aliasesOf decls) :=
  AliasOrder.mem_arrange_aliasesOf.mpr aliased

theorem isSome_declaration?_iff :
    (declaration? decls iri).isSome = true ↔ ∃ decl ∈ decls, decl.iri = iri := by
  rw [declaration?, List.find?_isSome]
  simp

theorem mem_irisOf_iff : iri ∈ irisOf decls ↔ ∃ decl ∈ decls, decl.iri = iri := by
  rw [irisOf, List.mem_eraseDups, List.mem_map]

theorem parentIri?_eq_some_iff : parentIri? decls key = some iri ↔ Denotes decls key iri := by
  rw [parentIri?]
  split
  · rename_i declared
    have declared := isSome_declaration?_iff.mp declared
    constructor
    · intro same
      cases same
      exact .iri declared
    · intro denotes
      cases denotes with
      | iri => rfl
      | token free =>
        obtain ⟨decl, among, same⟩ := declared
        exact absurd same (free decl among)
  · rename_i undeclared
    rw [isSome_declaration?_iff] at undeclared
    rw [← aliased_iff]
    constructor
    · exact fun aliased => .token (fun decl among same => undeclared ⟨decl, among, same⟩) aliased
    · intro denotes
      cases denotes with
      | iri declared => exact absurd declared undeclared
      | token _ aliased => exact aliased

theorem exists_aliased_iff {token : String} :
    (∃ iri, Aliased decls token iri) ↔ ∃ decl ∈ decls, decl.compact = some token := by
  simp only [aliased_iff]
  rw [← Option.isSome_iff_exists, Option.isSome_map, find?_aliasesOf, Option.isSome_map,
    List.find?_isSome]
  simp

theorem exists_denotes_iff : (∃ iri, Denotes decls key iri) ↔ Known decls key := by
  constructor
  · rintro ⟨iri, denotes⟩
    cases denotes with
    | iri declared =>
      obtain ⟨decl, among, same⟩ := declared
      exact ⟨decl, among, .inl same⟩
    | token _ aliased =>
      obtain ⟨decl, among, named⟩ := exists_aliased_iff.mp ⟨iri, aliased⟩
      exact ⟨decl, among, .inr named⟩
  · rintro ⟨decl, among, named⟩
    by_cases declared : ∃ decl ∈ decls, decl.iri = key
    · exact ⟨key, .iri declared⟩
    · have named := named.resolve_left fun same => declared ⟨decl, among, same⟩
      obtain ⟨iri, aliased⟩ := exists_aliased_iff.mpr ⟨decl, among, named⟩
      exact ⟨iri, .token (fun decl among same => declared ⟨decl, among, same⟩) aliased⟩

theorem Aliased.mem_irisOf {token : String} (aliased : Aliased decls token iri) :
    iri ∈ irisOf decls := by
  obtain ⟨before, decl, after, rfl, -, same, -⟩ := aliased
  exact mem_irisOf_iff.mpr ⟨decl, by simp, same⟩

theorem Denotes.mem_irisOf (denotes : Denotes decls key iri) : iri ∈ irisOf decls := by
  cases denotes with
  | iri declared => exact mem_irisOf_iff.mpr declared
  | token _ aliased => exact aliased.mem_irisOf

/-- Another declaration adds its IRI at the end, if it is the first about its class. -/
theorem listing_irisOf (decls : List ClassDecl) : Listing decls (irisOf decls) := by
  refine ⟨fun iri => mem_irisOf_iff, ?_⟩
  rw [irisOf]
  induction decls.map (·.iri) using List.reverseRecOn with
  | nil => exact .nil
  | append_singleton iris iri ih =>
    have kept : ∀ other ∈ iris, (iris ++ [iri]).idxOf other = iris.idxOf other :=
      fun other among => List.idxOf_append_of_mem among
    have earlier : iris.eraseDups.Pairwise fun other later =>
        (iris ++ [iri]).idxOf other < (iris ++ [iri]).idxOf later := by
      refine ih.imp_of_mem fun among among' before => ?_
      rwa [kept _ (List.mem_eraseDups.mp among), kept _ (List.mem_eraseDups.mp among')]
    rw [List.eraseDups_append]
    by_cases known : iri ∈ iris
    · have nothing : [iri].removeAll iris = [] := by simp [List.removeAll, known]
      rw [nothing, List.eraseDups_nil, List.append_nil]
      exact earlier
    · have alone : [iri].removeAll iris = [iri] := by simp [List.removeAll, known]
      rw [alone]
      refine List.pairwise_append.mpr ⟨earlier, List.pairwise_singleton _ _, ?_⟩
      intro other among later new
      have among := List.mem_eraseDups.mp among
      rw [List.mem_singleton.mp (List.mem_eraseDups.mp new), kept other among,
        List.idxOf_append_of_notMem known]
      exact Nat.lt_of_lt_of_le (List.idxOf_lt_length_of_mem among) (Nat.le_add_right _ _)

/-! ## Settling classes -/

/-- The class that a key means as the name of a parent of the class with the IRI `iri`, reached by
way of the classes in `path`. -/
def resolveParent (decls : List ClassDecl) (steps : Nat) (path : List String) (iri key : String) :
    StateT (List NodeClass) (Except RegistryError) NodeClass :=
  match parentIri? decls key with
  | none => throw (.unknownParent iri key)
  | some parent => resolve decls steps path parent

variable {steps : Nat} {path : List String} {before : List NodeClass} {classes : List NodeClass}

theorem run_resolve_of_find? {c : NodeClass} (found : before.find? (·.iri == iri) = some c) :
    (resolve decls (steps + 1) path iri).run before = .ok (c, before) := by
  rw [resolve, StateT.run_bind, StateT.run_get, pure_bind]
  simp only [found]
  rfl

/-- All that settling a class does that is declared and has not been settled before. -/
theorem run_resolve (declared : declaration? decls iri = some decl)
    (missing : before.find? (·.iri == iri) = none) :
    (resolve decls (steps + 1) path iri).run before =
      if iri ∈ path then .error (.cycle iri)
      else (decl.parents.mapM (resolveParent decls steps (iri :: path) iri)).run before >>=
        fun settled => Property.compileAll iri 0 decl.properties >>= fun own =>
          .ok (.ofParents decl settled.1 own, .ofParents decl settled.1 own :: settled.2) := by
  rw [resolve, StateT.run_bind, StateT.run_get, pure_bind]
  by_cases met : iri ∈ path
  · simp only [missing, List.contains_iff_mem.mpr met, met, if_true]
    rfl
  · have unmet : path.contains iri = false := by simpa using met
    simp only [missing, unmet, met, declared, Bool.false_eq_true, if_false, StateT.run_bind]
    refine congrArg (_ >>= ·) (funext fun settled => ?_)
    cases Property.compileAll iri 0 decl.properties <;> rfl

/-- A class that is to be settled, and those that wait for it, are declared. -/
structure Underway (decls : List ClassDecl) (path : List String) (iri : String) : Prop where
  declared : iri ∈ irisOf decls
  known : path ⊆ irisOf decls
  nodup : path.Nodup

namespace Underway

theorem exists_declaration (underway : Underway decls path iri) :
    ∃ decl, declaration? decls iri = some decl :=
  Option.isSome_iff_exists.mp (isSome_declaration?_iff.mpr (mem_irisOf_iff.mp underway.declared))

theorem parent (underway : Underway decls path iri) (unmet : iri ∉ path) {parent : String}
    (denotes : Denotes decls key parent) : Underway decls (iri :: path) parent where
  declared := denotes.mem_irisOf
  known := List.cons_subset.mpr ⟨underway.declared, underway.known⟩
  nodup := List.nodup_cons.mpr ⟨unmet, underway.nodup⟩

/-- No more classes wait than there are, so there is always room for another one. -/
theorem length_lt (underway : Underway decls path iri) (unmet : iri ∉ path) :
    path.length < (irisOf decls).length := by
  have subset := List.cons_subset.mpr ⟨underway.declared, underway.known⟩
  have nodup := List.nodup_cons.mpr ⟨unmet, underway.nodup⟩
  exact (List.subperm_of_subset nodup subset).length_le

end Underway

/-! ### The number of steps -/

theorem mapM_run_congr {σ ε α κ : Type} {f g : κ → StateT σ (Except ε) α} {P : σ → Prop}
    (keeps : ∀ k before a after, (g k).run before = .ok (a, after) → P before → P after)
    {keys : List κ}
    (step : ∀ k ∈ keys, ∀ before, P before → (f k).run before = (g k).run before) {before : σ}
    (holds : P before) : (keys.mapM f).run before = (keys.mapM g).run before := by
  induction keys generalizing before with
  | nil => rfl
  | cons k keys ih =>
    obtain ⟨here, later⟩ := List.forall_mem_cons.mp step
    rw [List.mapM_cons, List.mapM_cons, StateT.run_bind, StateT.run_bind, here before holds]
    cases ran : (g k).run before with
    | error e => rfl
    | ok result =>
      obtain ⟨a, after⟩ := result
      have rest := ih later (keeps k before a after ran holds)
      exact congrArg (· >>= fun (values, last) => Except.ok (a :: values, last)) rest

theorem resolveParent_spec {c : NodeClass} {after : List NodeClass}
    (ran : (resolveParent decls steps path iri key).run before = .ok (c, after))
    (progress : Progress decls before) :
    Progress decls after ∧ Extends path before after ∧ c ∈ after ∧
      parentIri? decls key = some c.iri := by
  unfold resolveParent at ran
  split at ran
  · cases ran
  · rename_i parent named
    obtain ⟨progress', extends', here, rfl⟩ := resolve_spec ran progress
    exact ⟨progress', extends', here, named⟩

/-- If the steps suffice to go through all declared classes, more of them make no difference. -/
theorem run_resolve_of_le (underway : Underway decls path iri)
    (room : (irisOf decls).length ≤ steps + path.length) (progress : Progress decls before)
    (apart : ∀ c ∈ before, c.iri ∉ path) (extra : Nat) :
    (resolve decls (steps + extra) path iri).run before =
      (resolve decls steps path iri).run before := by
  induction steps generalizing path iri before with
  | zero =>
    -- Every declared class waits already, so the one that is to be settled is one of them.
    have met : iri ∈ path := by
      by_contra unmet
      have := underway.length_lt unmet
      omega
    cases extra with
    | zero => rfl
    | succ extra =>
      obtain ⟨decl, declared⟩ := underway.exists_declaration
      have missing : before.find? (·.iri == iri) = none := by
        refine List.find?_eq_none.mpr fun c hc same => apart c hc ?_
        rwa [beq_iff_eq.mp same]
      rw [Nat.zero_add, run_resolve declared missing]
      exact if_pos met
  | succ steps ih =>
    obtain ⟨decl, declared⟩ := underway.exists_declaration
    rw [Nat.add_right_comm]
    cases missing : before.find? (·.iri == iri) with
    | some c => rw [run_resolve_of_find? missing, run_resolve_of_find? missing]
    | none =>
      rw [run_resolve declared missing, run_resolve declared missing]
      by_cases met : iri ∈ path
      · simp only [met, if_true]
      · simp only [met, if_false]
        let Holds (s : List NodeClass) := Progress decls s ∧ ∀ c ∈ s, c.iri ∉ iri :: path
        have holds : Holds before := by
          refine ⟨progress, fun c hc met => ?_⟩
          rcases List.mem_cons.mp met with same | met
          · exact List.find?_eq_none.mp missing c hc (beq_iff_eq.mpr same)
          · exact apart c hc met
        refine congrArg (· >>= _) (mapM_run_congr (P := Holds) ?_ ?_ holds)
        · intro key between c after ran ⟨progress', apart'⟩
          obtain ⟨progress'', extends', -⟩ := resolveParent_spec ran progress'
          exact ⟨progress'', fun d hd => (extends'.fresh d hd).elim (apart' d) id⟩
        · intro key _ between ⟨progress', apart'⟩
          unfold resolveParent
          cases named : parentIri? decls key with
          | none => rfl
          | some parent =>
            have inner := underway.parent met (parentIri?_eq_some_iff.mp named)
            exact ih inner (by rw [List.length_cons]; omega) progress' apart'

/-- All numbers of steps that suffice to go through the declared classes settle them alike. -/
theorem run_resolveAll_of_le (room : (irisOf decls).length ≤ steps) :
    ((irisOf decls).mapM (resolve decls steps [])).run [] =
      ((irisOf decls).mapM (resolve decls (irisOf decls).length [])).run [] := by
  obtain ⟨extra, rfl⟩ := Nat.exists_eq_add_of_le room
  have nothing : Progress decls [] := ⟨nofun, .nil⟩
  refine mapM_run_congr (P := Progress decls) ?_ ?_ nothing
  · intro iri before c after ran progress
    exact (resolve_spec ran progress).1
  · intro iri declared before progress
    have underway : Underway decls [] iri := ⟨declared, List.nil_subset _, .nil⟩
    exact run_resolve_of_le underway (Nat.le_refl _) progress (fun _ _ => List.not_mem_nil) extra

/-! ### Settling well-formed declarations -/

theorem exists_mapM_run {σ ε α κ : Type} {f : κ → StateT σ (Except ε) α} {keys : List κ}
    (each : ∀ k ∈ keys, ∀ before, ∃ a after, (f k).run before = .ok (a, after)) (before : σ) :
    ∃ values after, (keys.mapM f).run before = .ok (values, after) := by
  induction keys generalizing before with
  | nil => exact ⟨[], before, rfl⟩
  | cons k keys ih =>
    obtain ⟨here, later⟩ := List.forall_mem_cons.mp each
    obtain ⟨a, between, first⟩ := here before
    obtain ⟨values, after, rest⟩ := ih later between
    refine ⟨a :: values, after, ?_⟩
    rw [List.mapM_cons]
    exact Outcome.bind_eq_ok.mpr ⟨_, first, Outcome.bind_eq_ok.mpr ⟨_, rest, rfl⟩⟩

/-- Classes wait only for their ancestors, so a class that is to be settled does not wait. -/
theorem WellFormed.exists_run_resolve (wellFormed : WellFormed decls)
    (underway : Underway decls path iri)
    (above : ∀ waiting ∈ path, Relation.TransGen (ParentOf decls) iri waiting)
    (room : (irisOf decls).length ≤ steps + path.length) (before : List NodeClass) :
    ∃ c after, (resolve decls steps path iri).run before = .ok (c, after) := by
  have unmet : iri ∉ path := fun met => wellFormed.acyclic iri (above iri met)
  have space := underway.length_lt unmet
  induction steps generalizing path iri before with
  | zero => omega
  | succ steps ih =>
    obtain ⟨decl, declared⟩ := underway.exists_declaration
    obtain ⟨rfl, counts⟩ := declaration?_eq_some_iff.mp declared
    cases missing : before.find? (·.iri == decl.iri) with
    | some c => exact ⟨c, before, run_resolve_of_find? missing⟩
    | none =>
      have parents : ∀ key ∈ decl.parents, ∀ between, ∃ c after,
          (resolveParent decls steps (decl.iri :: path) decl.iri key).run between =
            .ok (c, after) := by
        intro key among between
        have known := wellFormed.parents decl counts key among
        obtain ⟨parent, denotes⟩ := exists_denotes_iff.mpr known
        have below : ParentOf decls parent decl.iri := ⟨decl, counts, rfl, key, among, denotes⟩
        have above' : ∀ waiting ∈ decl.iri :: path,
            Relation.TransGen (ParentOf decls) parent waiting :=
          List.forall_mem_cons.mpr ⟨.single below, fun _ met => .head below (above _ met)⟩
        have inner := underway.parent unmet denotes
        have fresh : parent ∉ decl.iri :: path := fun met => wellFormed.acyclic _ (above' _ met)
        unfold resolveParent
        rw [parentIri?_eq_some_iff.mpr denotes]
        have room' : (irisOf decls).length ≤ steps + (decl.iri :: path).length := by
          rw [List.length_cons]
          omega
        exact ih inner above' room' between fresh (inner.length_lt fresh)
      obtain ⟨settled, after, ran⟩ := exists_mapM_run parents before
      obtain ⟨own, compiled⟩ : ∃ own, Property.compileAll decl.iri 0 decl.properties = .ok own :=
        Property.exists_compileAll_iff.mpr (wellFormed.constraints decl counts)
      rw [run_resolve declared missing, if_neg unmet]
      exact ⟨_, _, Outcome.bind_eq_ok.mpr ⟨_, ran, Outcome.bind_eq_ok.mpr ⟨_, compiled, rfl⟩⟩⟩

/-! ## Building -/

/-- What a key is found to mean is the IRI of a declaration exactly if the key is known. -/
theorem Finds.mem_irisOf_iff {order : AliasOrder}
    (finds : Finds (order.arrange (aliasesOf decls)) key iri) :
    iri ∈ irisOf decls ↔ Known decls key := by
  have named : (∃ entry ∈ order.arrange (aliasesOf decls), entry.token = key) ↔
      ∃ decl ∈ decls, decl.compact = some key := by
    rw [← exists_aliased_iff]
    constructor
    · rintro ⟨entry, there, rfl⟩
      exact ⟨_, AliasOrder.mem_arrange_aliasesOf.mp there⟩
    · rintro ⟨iri, aliased⟩
      exact ⟨⟨key, iri⟩, aliased.mem_arrange order, rfl⟩
  rcases finds.eq_or_exists_entry with ⟨rfl, unnamed⟩ | ⟨given, entry, there, rfl⟩
  · have free : ¬∃ decl ∈ decls, decl.compact = some iri := fun taken => by
      obtain ⟨entry, there, same⟩ := named.mpr taken
      exact unnamed entry there same
    rw [mem_irisOf_iff]
    refine exists_congr fun decl => and_congr_right fun among => ?_
    exact (or_iff_left fun compact => free ⟨decl, among, compact⟩).symm
  · obtain ⟨decl, among, compact⟩ := named.mp given
    have declared := (AliasOrder.mem_arrange_aliasesOf.mp there).mem_irisOf
    exact iff_of_true declared ⟨decl, among, .inr compact⟩

/-- The last declaration with the IRI for its compact name, if there is one, is about the class with
this IRI. -/
def Unshadowed (decls : List ClassDecl) (iri : String) : Prop :=
  ∀ other, Aliased decls iri other → other = iri

theorem unshadowed_of_unnamed (unnamed : ∀ decl ∈ decls, decl.compact ≠ some iri) :
    Unshadowed decls iri := by
  intro other aliased
  obtain ⟨decl, among, named⟩ := exists_aliased_iff.mp ⟨other, aliased⟩
  exact absurd named (unnamed decl among)

/-- In whatever order compact names are entered, an IRI that is not shadowed is what it means itself
and what a compact name of its class means. -/
theorem Unshadowed.finds (unshadowed : Unshadowed decls iri) (order : AliasOrder)
    (named : key = iri ∨ Aliased decls key iri) :
    Finds (order.arrange (aliasesOf decls)) key iri := by
  have once := order.once (aliasesOf decls)
  have itself : Finds (order.arrange (aliasesOf decls)) iri iri :=
    finds_self once fun other there => unshadowed other (AliasOrder.mem_arrange_aliasesOf.mp there)
  rcases named with rfl | aliased
  · exact itself
  · have finds := finds_standsFor (order.arrange (aliasesOf decls)) key
    rcases finds.eq_or_finds once (aliased.mem_arrange order) with same | again
    · exact same ▸ finds
    · exact again.unique itself ▸ finds

theorem isSome_get?_iff {registry : Registry} (iris : registry.classes.map (·.iri) = irisOf decls)
    {order : AliasOrder} (aliases : registry.aliases = enterAll (order.arrange (aliasesOf decls))) :
    (registry.get? key).isSome = true ↔ Known decls key := by
  have finds := finds_standsFor (order.arrange (aliasesOf decls)) key
  rw [get?, aliases, byIri?, List.find?_isSome, ← finds.mem_irisOf_iff, ← iris]
  simp

theorem missingTarget?_eq_none_iff {registry : Registry} {c : NodeClass} :
    registry.missingTarget? c = none ↔
      ∀ p ∈ c.own, ∀ cls, p.kind = .object cls → (registry.get? cls).isSome = true := by
  rw [missingTarget?, List.findSome?_eq_none_iff]
  refine forall₂_congr fun p _ => ?_
  cases p.kind with
  | scalar kind => exact ⟨fun _ _ => nofun, fun _ => rfl⟩
  | object target =>
    constructor
    · rintro known cls same
      cases same
      simpa [Option.isSome_iff_ne_none] using known
    · intro known
      simpa [Option.isSome_iff_ne_none] using known target rfl

theorem Resolved.exists_declaration {c : NodeClass} (resolved : Resolved decls classes c) :
    ∃ decl, Counts decls decl ∧ decl.iri = c.iri ∧
      List.Forall₂ (Denotes decls) decl.parents c.parents := by
  cases resolved with
  | @ofParents decl parents own declared named =>
    refine ⟨decl, (declaration?_eq_some_iff.mp declared).2, rfl, ?_⟩
    have pairs := List.forall₂_eq_eq_eq.symm ▸ named
    rw [List.forall₂_map_left_iff, List.forall₂_map_right_iff] at pairs
    exact List.forall₂_map_right_iff.mpr (pairs.imp fun key p => parentIri?_eq_some_iff.mp)

/-- Going from a class that was settled to its parents comes to an end. -/
theorem Resolved.acc {c : NodeClass} (resolved : Resolved decls classes c) :
    Acc (ParentOf decls) c.iri := by
  induction resolved with
  | @ofParents decl parents own declared named among each compiled ih =>
    refine .intro _ fun parent below => ?_
    obtain ⟨decl', counts, same, key, among', denotes⟩ := below
    cases declared.symm.trans (declaration?_eq_some_iff.mpr ⟨same, counts⟩)
    have there := List.mem_map_of_mem (f := parentIri? decls) among'
    rw [named, parentIri?_eq_some_iff.mpr denotes] at there
    obtain ⟨p, hp, same⟩ := List.mem_map.mp there
    cases same
    exact ih p hp

namespace Built

variable {registry : Registry}

/-- The class of a declaration that counts is made from it. -/
theorem exists_ofParents (built : registry.Built decls) (counts : Counts decls decl) :
    ∃ parents own, NodeClass.ofParents decl parents own ∈ registry.classes ∧
      decl.parents.map (parentIri? decls) = parents.map (fun p => some p.iri) ∧
        Property.compileAll decl.iri 0 decl.properties = .ok own := by
  have declared := declaration?_eq_some_iff.mpr ⟨rfl, counts⟩
  have there := mem_irisOf declared
  rw [← built.iris] at there
  obtain ⟨c, hc, same⟩ := List.mem_map.mp there
  cases built.resolved c hc with
  | @ofParents decl' parents own declared' named _ _ compiled =>
    replace same : decl'.iri = decl.iri := same
    rw [same] at declared'
    cases declared'.symm.trans declared
    exact ⟨parents, own, hc, named, compiled⟩

theorem acyclic (built : registry.Built decls) (iri : String) :
    ¬Relation.TransGen (ParentOf decls) iri iri := by
  intro loop
  obtain ⟨above, -, decl, counts, same, -⟩ := Relation.TransGen.tail'_iff.mp loop
  obtain ⟨parents, own, hc, -⟩ := built.exists_ofParents counts
  have acc : Acc (ParentOf decls) decl.iri := (built.resolved _ hc).acc
  rw [same] at acc
  replace acc := acc.transGen
  clear above same
  induction acc with
  | intro iri _ ih => exact ih iri loop loop

theorem wellFormed (built : registry.Built decls) : WellFormed decls := by
  refine ⟨?_, built.acyclic, ?_, ?_⟩
  case refine_1 =>
    intro decl counts key among
    obtain ⟨parents, own, -, named, -⟩ := built.exists_ofParents counts
    have there := List.mem_map_of_mem (f := parentIri? decls) among
    rw [named] at there
    obtain ⟨p, -, same⟩ := List.mem_map.mp there
    exact exists_denotes_iff.mp ⟨p.iri, parentIri?_eq_some_iff.mp same.symm⟩
  case refine_2 =>
    intro decl counts
    obtain ⟨parents, own, -, -, compiled⟩ := built.exists_ofParents counts
    exact Property.exists_compileAll_iff.mp ⟨own, compiled⟩
  case refine_3 =>
    intro decl counts p among cls kind
    obtain ⟨parents, own, hc, -, compiled⟩ := built.exists_ofParents counts
    rw [← Property.map_of_compileAll compiled] at among
    obtain ⟨q, hq, rfl⟩ := List.mem_map.mp among
    have known := missingTarget?_eq_none_iff.mp (built.targets _ hc) q hq cls kind
    obtain ⟨order, aliases⟩ := built.aliases
    exact (isSome_get?_iff built.iris aliases).mp known

end Built

theorem WellFormed.exists_build (wellFormed : WellFormed decls) (contextUrl : String)
    (order : AliasOrder) : ∃ registry, build contextUrl decls order = .ok registry := by
  obtain ⟨classes, after, ran⟩ : ∃ classes after, ((irisOf decls).mapM
      (resolve decls (irisOf decls).length [])).run [] = .ok (classes, after) :=
    exists_mapM_run (fun iri declared before => wellFormed.exists_run_resolve
      ⟨declared, List.nil_subset _, .nil⟩ nofun (Nat.le_refl _) before) []
  have settled := settled_of_run ran
  let registry : Registry := ⟨contextUrl, classes, enterAll (order.arrange (aliasesOf decls))⟩
  have targets : classes.findSome? registry.missingTarget? = none := by
    refine List.findSome?_eq_none_iff.mpr fun c hc => missingTarget?_eq_none_iff.mpr ?_
    intro p hp cls kind
    cases settled.resolved c hc with
    | @ofParents decl parents own declared _ _ _ compiled =>
      have counts := (declaration?_eq_some_iff.mp declared).2
      have among : p.toPropertyDecl ∈ decl.properties := by
        rw [← Property.map_of_compileAll compiled]
        exact List.mem_map_of_mem (f := (·.toPropertyDecl)) hp
      exact (isSome_get?_iff settled.iris rfl).mpr (wellFormed.targets decl counts _ among cls kind)
  refine ⟨registry, Outcome.bind_eq_ok.mpr ⟨_, ran, ?_⟩⟩
  simp only [registry] at targets
  simp only [targets]
  rfl

/-- A registry can be built from declarations exactly if they are well formed. The bound on the
steps plays no part in that, as more of them never change what a run comes to. The registry has
each declared class once, in the order of first declaration, and its parents are the classes that
the declaration names, in that order. -/
theorem build_iff_wellFormed (contextUrl : String) (decls : List ClassDecl) (order : AliasOrder) :
    ((∃ registry, build contextUrl decls order = .ok registry) ↔ WellFormed decls) ∧
    (∀ steps, (irisOf decls).length ≤ steps →
      ((irisOf decls).mapM (resolve decls steps [])).run [] =
        ((irisOf decls).mapM (resolve decls (irisOf decls).length [])).run []) ∧
    ∀ registry, build contextUrl decls order = .ok registry →
      Listing decls (registry.classes.map (·.iri)) ∧
      ∀ c ∈ registry.classes, ∃ decl, Counts decls decl ∧ decl.iri = c.iri ∧
        List.Forall₂ (Denotes decls) decl.parents c.parents := by
  refine ⟨⟨fun ⟨registry, h⟩ => (build_spec h).1.wellFormed, fun wellFormed =>
    wellFormed.exists_build contextUrl order⟩, fun steps room => run_resolveAll_of_le room,
    fun registry h => ?_⟩
  · obtain ⟨built, -⟩ := build_spec h
    rw [built.iris]
    exact ⟨listing_irisOf decls, fun c hc => (built.resolved c hc).exists_declaration⟩

end Registry

namespace Sample

/-- A ferry, which is a boat and a road vehicle. Both are vehicles, and a boat is called by its
compact name. -/
def ferry : ClassDecl where
  iri := "ex:Ferry"
  compact := some "Ferry"
  nodeKind := none
  idAlias := none
  isAbstract := false
  extensible := none
  parents := ["Boat", "ex:Road"]
  properties := [⟨"tows", "ex:tows", none, .object "Boat", true, none, none, [], []⟩]

/-- A vehicle that would have its own descendant for a parent. -/
def firstVehicle : ClassDecl :=
  { ferry with iri := "ex:Vehicle", compact := none, parents := ["Ferry"], properties := [] }

def vehicle : ClassDecl :=
  { firstVehicle with
    parents := []
    properties := [⟨"plate", "ex:plate", none, .scalar .string, false, some 1, none, [],
      [.pattern "^[A-Z]"]⟩] }

def boat : ClassDecl :=
  { ferry with
    iri := "ex:Boat", compact := some "Boat", parents := ["ex:Vehicle"], properties := [] }

def roadVehicle : ClassDecl :=
  { boat with iri := "ex:Road", compact := none, parents := ["ex:Vehicle", "ex:Vehicle"] }

/-- Parents come after children, and the first declaration of a vehicle does not count. -/
def fleet : List ClassDecl := [ferry, firstVehicle, boat, roadVehicle, vehicle]

end Sample

theorem Sample.fleet_wellFormed : ∃ registry,
    Registry.build "" Sample.fleet = .ok registry ∧ Registry.WellFormed Sample.fleet ∧
      Registry.Listing Sample.fleet (registry.classes.map (·.iri)) ∧
        ((Registry.irisOf Sample.fleet).mapM (Registry.resolve Sample.fleet 9 [])).run [] =
          ((Registry.irisOf Sample.fleet).mapM (Registry.resolve Sample.fleet 4 [])).run [] := by
  obtain ⟨registry, built⟩ : ∃ registry, Registry.build "" Sample.fleet = .ok registry := by
    have succeeds : (Registry.build "" Sample.fleet).isOk = true := by decide +kernel
    cases made : Registry.build "" Sample.fleet with
    | ok registry => exact ⟨registry, rfl⟩
    | error e => simp [made, Except.isOk, Except.toBool] at succeeds
  obtain ⟨exactly, enough, made⟩ := Registry.build_iff_wellFormed "" Sample.fleet .latestFirst
  exact ⟨registry, built, exactly.mp ⟨registry, built⟩, (made registry built).1,
    enough 9 (by decide)⟩

end ShapedGraph
