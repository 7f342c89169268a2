import ShapedGraph.Proofs.Accounts

/-! What the document of a graph says of shared objects: each is written in full once, and where
else it is mentioned its identifier stands. For this no member may take the place of another. -/

namespace ShapedGraph

/-- Mentions on top are written in full, and a log accounts for what is below them. -/
def Json.Presents (json : Json) (top : List Mention) (seen : Seen) : Prop :=
  (∀ m ∈ top, ∃ members, json.at? m.place = some (.object members) ∧ m.object.InFull members) ∧
    ∃ log after, Accounts json (top.flatMap Mention.below) log ∧ Tally seen log after

namespace Graph

/-- Roots that are written one after the other are presented there. -/
theorem presents_encodeRoots {roots : List Root} (clear : ∀ root ∈ roots, root.object.Clear)
    (seen : Seen) {json : Json} {place : List Segment} {position : Nat}
    (lists : json.Lists place position ((encodeRoots roots seen).map .object)) :
    json.Presents ((listMentions (·.reference.mentions .empty) position roots).map (.under place))
      seen := by
  induction roots generalizing seen position with
  | nil => exact ⟨nofun, [], seen, .nil json, .done seen⟩
  | cons root roots ih =>
    obtain ⟨here, later⟩ := List.forall_mem_cons.mp clear
    obtain ⟨full, log, accounts, tally⟩ := here.accounted seen _ fun _ _ => rfl
    obtain ⟨fulls, rest, after, accounts', tally'⟩ := ih later _ lists.tail
    refine ⟨fun m among => ?_, _, after, (accounts.under lists.head).append accounts',
      (tally.under _).append tally'⟩
    rcases List.mem_cons.mp among with rfl | among
    · exact ⟨_, lists.head, full⟩
    · exact fulls m among

theorem presents_toJson {graph : Graph} (clear : ∀ root ∈ graph.roots, root.object.Clear) :
    graph.toJson.Presents graph.rootMentions (graph.roots.filterMap (·.handle)) := by
  obtain ⟨registry, roots⟩ := graph
  match roots with
  | [] => exact ⟨nofun, [], _, .nil _, .done _⟩
  | [root] =>
    -- The members of a lone root come before those of the document.
    have merged : ∀ key ∈ root.object.keys,
        Members.get? (Members.union [("@context", Json.string registry.contextUrl)]
          (root.object.encode ([root].filterMap (·.handle))).1) key =
            Members.get? (root.object.encode ([root].filterMap (·.handle))).1 key := by
      intro key among
      obtain ⟨value, found⟩ := (Object.hasKey_of_mem_keys among _).get?
      rw [Members.get?_union (Object.sorted_encode _ _), found]
      rfl
    obtain ⟨full, log, accounts, tally⟩ :=
      (clear root List.mem_cons_self).accounted _ _ merged
    refine ⟨fun m among => ?_, log, _, ?_, tally⟩
    · cases List.mem_singleton.mp among
      exact ⟨_, rfl, full⟩
    · have alone : Graph.rootMentions ⟨registry, [root]⟩ =
          [⟨[], .empty, root.handle, root.object⟩] := rfl
      rw [alone, List.flatMap_singleton, Mention.below_of_place rfl]
      exact accounts
  | first :: second :: roots =>
    let written := encodeRoots (first :: second :: roots)
      ((first :: second :: roots).filterMap (·.handle))
    have listed : (Graph.mk registry (first :: second :: roots)).toJson.at? [.name "@graph"] =
        some (.list (written.map .object)) := rfl
    refine presents_encodeRoots clear _ fun i item found => ?_
    rw [Json.at?_append, listed]
    exact Json.Lists.list _ i item found

theorem mem_mentions_reaches {graph : Graph} {m : Mention} (mention : graph.Mentions m) :
    graph.Reaches true m.reference := by
  induction mention with
  | @top m there =>
    obtain ⟨among, -⟩ := (Mentioned.root graph m.reference).mp ⟨m, there, rfl⟩
    obtain ⟨root, there, same⟩ := List.mem_map.mp among
    exact ⟨root, there, same ▸ .here _⟩
  | @inside m inner _ _ _ there ih =>
    obtain ⟨among, -⟩ := (Mentioned.object m.object inner.reference).mp ⟨inner, there, rfl⟩
    exact ih.further among (.here _)

/-- A log of all that is written below the roots. -/
structure Recorded (graph : Graph) (log : Log) : Prop where
  mentions : ∀ m, graph.Mentions m ↔ m ∈ graph.rootMentions ∨ ∃ full, (m, full) ∈ log
  roots : ∀ m ∈ graph.rootMentions, graph.InFull m
  full : ∀ m, (m, true) ∈ log → graph.InFull m
  short : ∀ m, (m, false) ∈ log → graph.InShort m
  tally : ∃ after, Tally (graph.roots.filterMap (·.handle)) log after

theorem exists_recorded {graph : Graph}
    (unclashing : ∀ handle o, graph.Reaches true (.object handle o) → o.Unclashing) :
    ∃ log, graph.Recorded log := by
  have clear : ∀ root ∈ graph.roots, root.object.Clear := by
    intro root there handle o leads
    cases leads with
    | here => exact unclashing root.handle _ ⟨root, there, .here _⟩
    | inside among further => exact unclashing handle o ⟨root, there, .inside among further⟩
  obtain ⟨roots, log, after, accounts, tally⟩ := presents_toJson clear
  refine ⟨log, fun m => ?_, roots, accounts.full, accounts.short, after, tally⟩
  rw [← accounts.mentions]
  refine Json.Mentions.full_iff fun m there => ?_
  obtain ⟨members, found, -⟩ := roots m there
  exact ⟨members, found⟩

theorem mem_rootHandles {graph : Graph} {handle : Nat} :
    handle ∈ graph.roots.filterMap (·.handle) ↔ ∃ root ∈ graph.roots, root.handle = some handle :=
  List.mem_filterMap

/-- The mentions of roots are in the places of roots with their handles. -/
theorem mem_rootHandles_of_rootMentions {graph : Graph} {m : Mention}
    (there : m ∈ graph.rootMentions) {handle : Nat} (labelled : m.handle = some handle) :
    handle ∈ graph.roots.filterMap (·.handle) := by
  obtain ⟨among, -⟩ := (Mentioned.root graph m.reference).mp ⟨m, there, rfl⟩
  obtain ⟨root, there, same⟩ := List.mem_map.mp among
  have handles : root.handle = m.handle := (Reference.object.inj same).1
  exact mem_rootHandles.mpr ⟨root, there, handles.trans labelled⟩

/-- Mentions with one handle are of one object. -/
theorem Coherent.object_eq {graph : Graph} (coherent : graph.Coherent) {m : Mention}
    (mention : graph.Mentions m) {handle : Nat} (labelled : m.handle = some handle) {o : Object}
    (reached : graph.Reaches true (.object (some handle) o)) : m.object = o := by
  have reached' := mem_mentions_reaches mention
  rw [Mention.reference, labelled] at reached'
  exact coherent.same handle _ o reached' reached

namespace Recorded

variable {graph : Graph} {log : Log} (recorded : graph.Recorded log)

include recorded

theorem not_short {m : Mention} (full : graph.InFull m) : (m, false) ∉ log := by
  obtain ⟨members, found, -⟩ := full
  intro short
  obtain ⟨id, -, found'⟩ := recorded.short m short
  cases found.symm.trans found'

theorem mem_of_full {m : Mention} (mention : graph.Mentions m) (full : graph.InFull m) :
    m ∈ graph.rootMentions ∨ (m, true) ∈ log := by
  refine ((recorded.mentions m).mp mention).imp_right ?_
  rintro ⟨_ | _, there⟩
  · exact absurd there (recorded.not_short full)
  · exact there

theorem written {m : Mention} (mention : graph.Mentions m) : graph.InFull m ∨ graph.InShort m := by
  rcases (recorded.mentions m).mp mention with top | ⟨_ | _, there⟩
  · exact .inl (recorded.roots m top)
  · exact .inr (recorded.short m there)
  · exact .inl (recorded.full m there)

theorem everywhere {m : Mention} (mention : graph.Mentions m)
    (alone : m.object.id = none ∨ m.handle = none) : graph.InFull m := by
  obtain ⟨after, tally⟩ := recorded.tally
  rcases (recorded.mentions m).mp mention with top | ⟨_ | _, there⟩
  · exact recorded.roots m top
  · obtain ⟨named, labelled⟩ := tally.of_short there
    exact absurd alone (not_or.mpr ⟨named, labelled⟩)
  · exact recorded.full m there

theorem root {m : Mention} (mention : graph.Mentions m) {handle : Nat}
    (isRoot : handle ∈ graph.roots.filterMap (·.handle)) (labelled : m.handle = some handle)
    (named : m.object.id ≠ none) : graph.InFull m ↔ m ∈ graph.rootMentions := by
  obtain ⟨after, tally⟩ := recorded.tally
  constructor
  · intro full
    refine (recorded.mem_of_full mention full).resolve_right ?_
    exact tally.not_full_of_met isRoot labelled named
  · exact recorded.roots m

/-- What is mentioned anywhere is written in full somewhere. -/
theorem exists_full (coherent : graph.Coherent) {m : Mention} (mention : graph.Mentions m) :
    ∃ first, graph.Mentions first ∧ first.reference = m.reference ∧ graph.InFull first := by
  obtain ⟨after, tally⟩ := recorded.tally
  rcases (recorded.mentions m).mp mention with top | ⟨_ | _, there⟩
  · exact ⟨m, mention, rfl, recorded.roots m top⟩
  · obtain ⟨-, labelled⟩ := tally.of_short there
    obtain ⟨handle, labelled⟩ := Option.ne_none_iff_exists'.mp labelled
    have reached := mem_mentions_reaches mention
    rw [Mention.reference, labelled] at reached
    obtain ⟨first, mention', labelled', full⟩ : ∃ first, graph.Mentions first ∧
        first.handle = some handle ∧ graph.InFull first := by
      by_cases isRoot : handle ∈ graph.roots.filterMap (·.handle)
      · obtain ⟨root, among, same⟩ := mem_rootHandles.mp isRoot
        obtain ⟨first, top, same'⟩ := (Mentioned.root graph root.reference).mpr
          ⟨List.mem_map_of_mem among, rfl⟩
        have handles : first.handle = root.handle := (Reference.object.inj same').1
        exact ⟨first, .top top, handles.trans same, recorded.roots first top⟩
      · obtain ⟨first, full, labelled'⟩ := tally.exists_full isRoot there labelled
        exact ⟨first, (recorded.mentions first).mpr (.inr ⟨true, full⟩), labelled',
          recorded.full first full⟩
    refine ⟨first, mention', ?_, full⟩
    rw [Mention.reference, Mention.reference, labelled, labelled',
      coherent.object_eq mention' labelled' reached]
  · exact ⟨m, mention, rfl, recorded.full m there⟩

/-- What something leads to that is written in full is written in full. -/
theorem full_of_leadsTo (coherent : graph.Coherent) {target found : Reference}
    (leads : target.LeadsTo true found) (object : found.isObject = true)
    (outer : target.isObject = true →
      ∃ m, graph.Mentions m ∧ m.reference = target ∧ graph.InFull m) :
    ∃ m, graph.Mentions m ∧ m.reference = found ∧ graph.InFull m := by
  induction leads with
  | here => exact outer object
  | inside there _ ih =>
    refine ih object fun isObject => ?_
    obtain ⟨m, mention, same, members, found, -⟩ := outer rfl
    cases same
    obtain ⟨inner, among, same⟩ := (Mentioned.object m.object _).mpr ⟨there, isObject⟩
    obtain ⟨first, mention, same', full⟩ :=
      recorded.exists_full coherent (.inside mention found among)
    exact ⟨first, mention, same'.trans same, full⟩

theorem reached (coherent : graph.Coherent) {handle : Option Nat} {o : Object}
    (reached : graph.Reaches true (.object handle o)) :
    ∃ m, graph.Mentions m ∧ m.handle = handle ∧ m.object = o ∧ graph.InFull m := by
  obtain ⟨root, there, leads⟩ := reached
  obtain ⟨m, mention, same, full⟩ := recorded.full_of_leadsTo coherent leads rfl fun _ => by
    obtain ⟨m, top, same⟩ := (Mentioned.root graph root.reference).mpr
      ⟨List.mem_map_of_mem there, rfl⟩
    exact ⟨m, .top top, same, recorded.roots m top⟩
  cases same
  exact ⟨m, mention, rfl, rfl, full⟩

theorem once (coherent : graph.Coherent) {handle : Nat} {o : Object}
    (reached : graph.Reaches true (.object (some handle) o)) (named : o.id ≠ none)
    (inner : handle ∉ graph.roots.filterMap (·.handle)) : ∃ first, ∀ m,
      graph.Mentions m ∧ m.handle = some handle ∧ graph.InFull m ↔ m = first := by
  obtain ⟨after, tally⟩ := recorded.tally
  obtain ⟨first, mention, labelled, same, full⟩ := recorded.reached coherent reached
  have below : ∀ m, graph.Mentions m → m.handle = some handle → graph.InFull m →
      (m, true) ∈ log := by
    intro m mention labelled full
    refine (recorded.mem_of_full mention full).resolve_left fun top => inner ?_
    exact mem_rootHandles_of_rootMentions top labelled
  refine ⟨first, fun m => ⟨?_, ?_⟩⟩
  · rintro ⟨mention', labelled', full'⟩
    have same' := coherent.object_eq mention' labelled' reached
    exact tally.full_unique (below m mention' labelled' full') (below first mention labelled full)
      labelled' labelled (by rwa [same']) (by rwa [same])
  · rintro rfl
    exact ⟨mention, labelled, full⟩

end Recorded

/-- If the keys of each object are distinct, the document of the graph has each object in full, and
those with an identifier once. -/
theorem writesOnce {graph : Graph} (coherent : graph.Coherent)
    (unclashing : ∀ handle o, graph.Reaches true (.object handle o) → o.Unclashing) :
    graph.WritesOnce := by
  obtain ⟨log, recorded⟩ := exists_recorded unclashing
  constructor
  case written => exact fun m mention => recorded.written mention
  case everywhere => exact fun m mention alone => recorded.everywhere mention alone
  case once =>
    intro handle o reached named inner
    refine recorded.once coherent reached named fun isRoot => ?_
    obtain ⟨root, there, same⟩ := mem_rootHandles.mp isRoot
    exact inner root there same
  case root =>
    intro root there handle same m mention labelled named
    exact recorded.root mention (mem_rootHandles.mpr ⟨root, there, same⟩) labelled named
  case reached => exact fun handle o reached => recorded.reached coherent reached

end Graph

namespace Sample

/-- A memo has a text and may be followed by another one, and a document may say more of it. -/
def memo : ClassDecl where
  iri := "ex:Memo"
  compact := some "Memo"
  nodeKind := none
  idAlias := none
  isAbstract := false
  extensible := some true
  parents := []
  properties := [
    ⟨"text", "ex:text", some "text", .scalar .string, false, none, none, [], []⟩,
    ⟨"next", "ex:next", some "next", .object "ex:Memo", false, none, none, [], []⟩]

def memoRegistry : Registry := (Registry.build "" [memo]).toOption.getD ⟨"", [], []⟩

def memoClass : NodeClass := (memoRegistry.get? "ex:Memo").getD (.ofParents memo [] [])

def lastMemo : Object :=
  ⟨memoClass, some "_:b", none, [.scalar (some (.string "two")), .reference .unset], []⟩

/-- A memo that is followed by another one, which an undeclared member refers to as well. -/
def firstMemo (key : String) : Object :=
  let target : Reference := .object (some 0) lastMemo
  ⟨memoClass, none, none, [.scalar none, .reference target], [(key, [.reference target])]⟩

def memos (key : String) : Graph := ⟨memoRegistry, [⟨some 1, firstMemo key⟩]⟩

/-- The memos that are shared. -/
def memoTable (key : String) : Nat → Option Object
  | 0 => some lastMemo
  | 1 => some (firstMemo key)
  | _ => none

theorem closed_memoTable (key : String) : Closed (memoTable key) := by
  intro handle o there target held
  match handle with
  | 0 =>
    cases there
    cases List.mem_singleton.mp held
    trivial
  | 1 =>
    cases there
    rcases List.mem_cons.mp held with rfl | held
    · rfl
    · cases List.mem_singleton.mp held
      rfl
  | _ + 2 => cases there

theorem based_memos (key : String) : (memos key).BasedOn (memoTable key) := by
  intro root there
  cases List.mem_singleton.mp there
  exact .inl rfl

theorem lastMemo_reached (key : String) :
    (memos key).Reaches true (.object (some 0) lastMemo) :=
  ⟨⟨some 1, firstMemo key⟩, List.mem_singleton.mpr rfl, .inside List.mem_cons_self (.here _)⟩

end Sample

/-- Under the key of the property the undeclared member takes its place: of the last memo only the
identifier is left. -/
theorem Sample.lastMemo_missing : (Sample.memos "next").Coherent ∧
    (Sample.memos "next").Reaches true (.object (some 0) Sample.lastMemo) ∧
      (∀ m, (Sample.memos "next").Mentions m → m.handle = some 0 →
        ¬ (Sample.memos "next").InFull m) ∧ ¬ (Sample.memos "next").WritesOnce := by
  have all : ∀ m, (Sample.memos "next").Mentions m →
      m.handle = some 1 ∧ m.place = [] ∧ m.object = Sample.firstMemo "next" ∨
        m ∈ (Sample.firstMemo "next").mentions := by
    intro m mention
    induction mention with
    | top there =>
      cases List.mem_singleton.mp there
      exact .inl ⟨rfl, rfl, rfl⟩
    | @inside m inner members _ full there ih =>
      rcases ih with ⟨-, place, object⟩ | below
      · rw [object] at there
        rw [place]
        exact .inr there
      · rcases List.mem_cons.mp below with rfl | below
        · cases full
        · cases List.mem_singleton.mp below
          cases full
  have missing : ∀ m, (Sample.memos "next").Mentions m → m.handle = some 0 →
      ¬ (Sample.memos "next").InFull m := by
    rintro m mention labelled ⟨members, full, -⟩
    rcases all m mention with ⟨root, -⟩ | below
    · cases labelled.symm.trans root
    · rcases List.mem_cons.mp below with rfl | below
      · cases full
      · cases List.mem_singleton.mp below
        cases full
  have reached := Sample.lastMemo_reached "next"
  refine ⟨(Sample.based_memos _).coherent (Sample.closed_memoTable _), reached, missing,
    fun once => ?_⟩
  obtain ⟨m, mention, labelled, -, full⟩ := once.reached _ _ reached
  exact missing m mention labelled full

theorem Sample.lastMemo_writtenOnce : (Sample.memos "also").Coherent ∧
    (∀ handle o, (Sample.memos "also").Reaches true (.object handle o) → o.Unclashing) ∧
      (Sample.memos "also").WritesOnce ∧ ∃ first, ∀ m,
        (Sample.memos "also").Mentions m ∧ m.handle = some 0 ∧ (Sample.memos "also").InFull m ↔
          m = first := by
  have closed := Sample.closed_memoTable "also"
  have coherent := (Sample.based_memos "also").coherent closed
  have unclashing : ∀ handle o, (Sample.memos "also").Reaches true (.object handle o) →
      o.Unclashing := by
    rintro handle o ⟨root, there, leads⟩
    cases List.mem_singleton.mp there
    have labelled := leads.labelled closed rfl
    match handle with
    | none => exact labelled.elim
    | some 0 =>
      cases labelled
      unfold Object.Unclashing
      decide
    | some 1 =>
      cases labelled
      unfold Object.Unclashing
      decide
    | some (_ + 2) => cases labelled
  have once := Graph.writesOnce coherent unclashing
  refine ⟨coherent, unclashing, once, ?_⟩
  refine once.once 0 _ (Sample.lastMemo_reached "also") nofun fun root there => ?_
  cases List.mem_singleton.mp there
  exact nofun

end ShapedGraph
