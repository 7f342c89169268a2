import Mathlib.Data.List.Forall2
import Mathlib.Data.List.Induction
import ShapedGraph.Proofs.Outcome
import ShapedGraph.Workspace.Run

/-! How the roots of a graph come together. A document adds all of its roots, in its order, if every
one of them can be read, and else it adds none and leaves everything as it was. So after any steps
the graph has the roots it had before, and behind them what each step brought, in the order of the
steps. -/

namespace ShapedGraph

namespace Decoder

variable {d : Decoder} {json : Json} {objects : List Object}

theorem decodeItems_eq_ok_iff {α : Type} {decode : Path → Json → Decoded α} {path : Path}
    {position : Nat} {items : List Json} {values : List α} :
    decodeItems decode path position items = .ok values ↔
      List.Forall₂ (fun entry value => decode (path.item entry.2) entry.1 = .ok value)
        (items.zipIdx position) values := by
  induction items generalizing position values with
  | nil =>
    rw [decodeItems, List.zipIdx_nil, List.forall₂_nil_left_iff]
    exact ⟨fun same => (Except.ok.inj same).symm, fun same => same ▸ rfl⟩
  | cons item items ih =>
    rw [decodeItems, List.zipIdx_cons, List.forall₂_cons_left_iff]
    constructor
    · intro h
      obtain ⟨value, first, h⟩ := Outcome.bind_eq_ok.mp h
      obtain ⟨rest, others, h⟩ := Outcome.bind_eq_ok.mp h
      cases h
      exact ⟨value, rest, first, ih.mp others, rfl⟩
    · rintro ⟨value, rest, first, others, rfl⟩
      exact Outcome.bind_eq_ok.mpr ⟨value, first, Outcome.bind_eq_ok.mpr ⟨rest, ih.mpr others, rfl⟩⟩

/-- The document has these roots. Its context is that of the model, and either it lists the roots
and says nothing else, or it is the only root itself. -/
inductive ReadsDocument (d : Decoder) : Json → List Object → Prop where
  | single {members : List (String × Json)} {o : Object}
    (context : Members.get? members "@context" = some (.string d.registry.contextUrl))
    (unlisted : Members.get? members "@graph" = none)
    (read : d.decodeObject .root none (.object (Members.erase members "@context")) = .ok o) :
    ReadsDocument d (.object members) [o]
  | listed {members : List (String × Json)} {items : List Json} {objects : List Object}
    (context : Members.get? members "@context" = some (.string d.registry.contextUrl))
    (graph : Members.get? members "@graph" = some (.list items))
    (alone : ∀ m ∈ members, m.1 = "@context" ∨ m.1 = "@graph")
    (each : List.Forall₂ (fun entry o =>
      d.decodeObject ((Path.root.member "@graph").item entry.2) none entry.1 = .ok o)
        items.zipIdx objects) :
    ReadsDocument d (.object members) objects

theorem checkContext_eq_ok_iff {members : List (String × Json)} :
    d.checkContext members = .ok () ↔
      Members.get? members "@context" = some (.string d.registry.contextUrl) := by
  rw [checkContext]
  split
  · rename_i missing
    exact ⟨nofun, fun found => nomatch missing.symm.trans found⟩
  · rename_i found given
    rw [given]
    split
    · rename_i same
      exact ⟨fun _ => same ▸ rfl, fun _ => rfl⟩
    · rename_i differ
      exact ⟨nofun, fun same => absurd (Json.string.inj (Option.some.inj same)) differ⟩
  · rename_i other notString given
    rw [given]
    exact ⟨nofun, fun same => absurd (Option.some.inj same) (notString _)⟩

theorem decodeRoots_eq_ok_iff :
    d.decodeRoots json = .ok objects ↔ d.ReadsDocument json objects := by
  constructor
  · intro h
    cases json with
    | object members =>
      rw [decodeRoots] at h
      obtain ⟨⟨⟩, checked, h⟩ := Outcome.bind_eq_ok.mp h
      have context := checkContext_eq_ok_iff.mp checked
      split at h
      · rename_i graph found
        split at h
        · cases h
        · rename_i alone
          cases graph with
          | list items =>
            refine .listed context found (fun m among => ?_) (decodeItems_eq_ok_iff.mp h)
            have := List.find?_eq_none.mp alone m among
            simpa [or_iff_not_imp_left] using this
          | _ => cases h
      · rename_i unlisted
        obtain ⟨o, read, h⟩ := Outcome.bind_eq_ok.mp h
        cases h
        exact .single context unlisted read
    | _ => cases h
  · intro reads
    cases reads with
    | single context unlisted read =>
      rw [decodeRoots]
      refine Outcome.bind_eq_ok.mpr ⟨(), checkContext_eq_ok_iff.mpr context, ?_⟩
      rw [unlisted]
      exact Outcome.bind_eq_ok.mpr ⟨_, read, rfl⟩
    | @listed members items objects context graph alone each =>
      rw [decodeRoots]
      refine Outcome.bind_eq_ok.mpr ⟨(), checkContext_eq_ok_iff.mpr context, ?_⟩
      rw [graph]
      simp only
      split
      · rename_i found
        have other := List.find?_some found
        have given := alone _ (List.mem_of_find?_eq_some found)
        exact absurd given (not_or.mpr (of_decide_eq_true other))
      · have listed : decodeItems (fun path json => d.decodeObject path none json)
            (Path.root.member "@graph") 0 items = .ok objects := decodeItems_eq_ok_iff.mpr each
        exact listed

end Decoder

namespace Workspace

variable {w : Workspace}

/-- The roots that a step has for the graph: an object that is added, or the roots of a document
that can be read as a whole. -/
inductive Brings (w : Workspace) : Step → List Root → Prop where
  | copy {name : String} {o : Object} (found : w.object? name = some o) :
    Brings w (.addCopy name) [⟨some w.nextHandle, o⟩]
  | shared {name : String} {s : SharedObject} (found : w.shared? name = some s) :
    Brings w (.addShared name) [⟨some s.handle, s.object⟩]
  | document {bytes : ByteArray} {maxDepth : Nat} {json : Json} {objects : List Object}
    (parsed : Json.ofBytes? bytes = some json)
    (reads : (Decoder.mk w.graph.registry maxDepth).ReadsDocument json objects) :
    Brings w (.decode bytes maxDepth) (objects.map (⟨none, ·⟩))

/-- A step adds the roots that it brings, and none if it brings none. -/
def Adds (w : Workspace) (step : Step) (roots : List Root) : Prop :=
  w.Brings step roots ∨ roots = [] ∧ ∀ more, ¬w.Brings step more

/-- Reading a document either adds its roots or leaves everything as it was. -/
theorem run_decode (w : Workspace) (bytes : ByteArray) (maxDepth : Nat) :
    (∃ objects, w.Brings (.decode bytes maxDepth) (objects.map (⟨none, ·⟩)) ∧
      w.run (.decode bytes maxDepth) =
        (.count (w.graph.size + objects.length), { w with graph := w.graph.addAll objects })) ∨
    (∀ more, ¬w.Brings (.decode bytes maxDepth) more) ∧
      ∃ e, w.run (.decode bytes maxDepth) = (.documentFault e w.graph.size, w) := by
  cases parsed : Json.ofBytes? bytes with
  | none =>
    refine .inr ⟨fun more brings => ?_, .notJson, ?_⟩
    · cases brings with
      | document parsed' => cases parsed.symm.trans parsed'
    · simp only [run, Graph.decodeBytes, parsed]
  | some json =>
    cases read : (Decoder.mk w.graph.registry maxDepth).decodeRoots json with
    | ok objects =>
      refine .inl ⟨objects, .document parsed (Decoder.decodeRoots_eq_ok_iff.mp read), ?_⟩
      have size : (w.graph.addAll objects).size = w.graph.size + objects.length := by
        simp [Graph.addAll, Graph.size]
      simp only [run, Graph.decodeBytes, parsed, Graph.decode, read, ← size]
      rfl
    | error e =>
      refine .inr ⟨fun more brings => ?_, .decode e, ?_⟩
      · cases brings with
        | document parsed' reads =>
          cases parsed.symm.trans parsed'
          cases read.symm.trans (Decoder.decodeRoots_eq_ok_iff.mpr reads)
      · simp only [run, Graph.decodeBytes, parsed, Graph.decode, read]
        rfl

theorem Brings.unique {step : Step} {roots more : List Root} (brings : w.Brings step roots)
    (again : w.Brings step more) : roots = more := by
  cases brings with
  | copy found =>
    cases again with
    | copy found' => rw [Option.some.inj (found.symm.trans found')]
  | shared found =>
    cases again with
    | shared found' => rw [Option.some.inj (found.symm.trans found')]
  | document parsed reads =>
    cases again with
    | document parsed' reads' =>
      cases parsed.symm.trans parsed'
      have read := Decoder.decodeRoots_eq_ok_iff.mpr reads
      rw [Except.ok.inj (read.symm.trans (Decoder.decodeRoots_eq_ok_iff.mpr reads'))]

/-- How reading a document can end: it has brought what was added, and the number of roots is
answered, or it has added nothing and changed nothing. -/
theorem Adds.decode {bytes : ByteArray} {maxDepth : Nat} {roots : List Root}
    (adds : w.Adds (.decode bytes maxDepth) roots) :
    w.Brings (.decode bytes maxDepth) roots ∧
        (w.run (.decode bytes maxDepth)).1 = .count (w.graph.size + roots.length) ∨
      roots = [] ∧ ∃ e, w.run (.decode bytes maxDepth) = (.documentFault e w.graph.size, w) := by
  rcases w.run_decode bytes maxDepth with ⟨objects, brings, ran⟩ | ⟨nothing, fails⟩
  · rcases adds with same | ⟨-, nothing⟩
    · cases same.unique brings
      exact .inl ⟨brings, by rw [ran, List.length_map]⟩
    · exact absurd brings (nothing _)
  · rcases adds with brings | ⟨none, -⟩
    · exact absurd brings (nothing roots)
    · exact .inr ⟨none, fails⟩

theorem graph_withObject {name : String} {use : Object → Answer × Workspace}
    (each : ∀ o, (use o).2.graph = w.graph) : (w.withObject name use).2.graph = w.graph := by
  unfold withObject
  split
  · exact each _
  · rfl

theorem graph_naming {α : Type} {work : Naming α} {use : Workspace → α → Answer × Workspace}
    (each : ∀ w value, (use w value).2.graph = w.graph) :
    (w.naming work use).2.graph = w.graph := by
  unfold naming
  split
  · exact each _ _
  · rfl

/-- One step adds roots behind those that are there, and does nothing else to the graph. -/
theorem exists_adds (w : Workspace) (step : Step) : ∃ roots, w.Adds step roots ∧
    (w.run step).2.graph = ⟨w.graph.registry, w.graph.roots ++ roots⟩ := by
  have unchanged (nothing : ∀ more, ¬w.Brings step more) (same : (w.run step).2.graph = w.graph) :
      ∃ roots, w.Adds step roots ∧
        (w.run step).2.graph = ⟨w.graph.registry, w.graph.roots ++ roots⟩ :=
    ⟨[], .inr ⟨rfl, nothing⟩, by rw [same, List.append_nil]⟩
  cases step with
  | decode bytes maxDepth =>
    rcases w.run_decode bytes maxDepth with ⟨objects, brings, ran⟩ | ⟨nothing, e, ran⟩
    · exact ⟨_, .inl brings, by rw [ran]; rfl⟩
    · exact unchanged nothing (by rw [ran])
  | addCopy name =>
    cases found : w.object? name with
    | some o => exact ⟨_, .inl (.copy found), by rw [run, withObject, found]; rfl⟩
    | none =>
      refine unchanged (fun more brings => ?_) (by rw [run, withObject, found])
      cases brings with
      | copy found' => cases found.symm.trans found'
  | addShared name =>
    cases found : w.shared? name with
    | some s => exact ⟨_, .inl (.shared found), by rw [run, found]; rfl⟩
    | none =>
      refine unchanged (fun more brings => ?_) (by rw [run, found])
      cases brings with
      | shared found' => cases found.symm.trans found'
  | create | decodeObject | decodeExtension =>
    refine unchanged nofun ?_
    rw [run]
    split <;> rfl
  | share | encode => exact unchanged nofun (graph_withObject fun _ => rfl)
  | onObject => exact unchanged nofun (graph_withObject fun _ => graph_naming fun _ _ => rfl)
  | encodeReferences => exact unchanged nofun (graph_naming fun _ _ => rfl)
  | validateGraph collect => cases collect <;> exact unchanged nofun rfl
  | describeGraph | encodeGraph | walkGraph | locateObjects | objectsOf | isSubclass =>
    exact unchanged nofun rfl

/-- The workspace as steps leave it, one after the other. -/
def after (w : Workspace) (steps : List Step) : Workspace :=
  steps.foldl (fun w step => (w.run step).2) w

theorem after_append (w : Workspace) (steps : List Step) (step : Step) :
    w.after (steps ++ [step]) = ((w.after steps).run step).2 := by
  rw [after, List.foldl_append]
  rfl

/-- After any steps the graph has the roots that were there and behind them what each step added, in
the order of the steps. A document either brought all that was added, or it could not be read and
nothing was added and nothing changed. -/
theorem graph_after (w : Workspace) (steps : List Step) :
    ∃ added : List (List Root), added.length = steps.length ∧
      (w.after steps).graph = ⟨w.graph.registry, w.graph.roots ++ added.flatten⟩ ∧
      ∀ i step roots before, steps[i]? = some step → added[i]? = some roots →
        before = w.after (steps.take i) →
          before.Adds step roots ∧ w.after (steps.take (i + 1)) = (before.run step).2 ∧
          ∀ bytes maxDepth, step = .decode bytes maxDepth →
            before.Brings step roots ∧
                (before.run step).1 = .count (before.graph.size + roots.length) ∨
              roots = [] ∧ ∃ e, before.run step = (.documentFault e before.graph.size, before) := by
  induction steps using List.reverseRecOn with
  | nil => exact ⟨[], rfl, by simp [after], nofun⟩
  | append_singleton steps step ih =>
    obtain ⟨added, length, gathered, each⟩ := ih
    obtain ⟨roots, adds, ran⟩ := (w.after steps).exists_adds step
    refine ⟨added ++ [roots], by simp [length], ?_, ?_⟩
    · rw [after_append, ran, gathered]
      simp
    · rintro i step' roots' before there there' rfl
      rcases Nat.lt_trichotomy i steps.length with earlier | rfl | beyond
      · rw [List.getElem?_append_left earlier] at there
        rw [List.getElem?_append_left (length ▸ earlier)] at there'
        rw [List.take_append_of_le_length earlier,
          List.take_append_of_le_length (Nat.le_of_lt earlier)]
        exact each i step' roots' _ there there' rfl
      · rw [List.getElem?_concat_length] at there
        rw [← length, List.getElem?_concat_length] at there'
        cases there
        cases there'
        have all : (steps ++ [step]).take (steps.length + 1) = steps ++ [step] :=
          List.take_of_length_le (by simp)
        rw [List.take_left, all]
        refine ⟨adds, after_append w steps step, ?_⟩
        rintro bytes maxDepth rfl
        exact adds.decode
      · rw [List.getElem?_eq_none (by simp; omega)] at there
        cases there

end Workspace

namespace Sample

/-- A leaf of a calendar, with the number of a day. -/
def leaf : ClassDecl where
  iri := "ex:Leaf"
  compact := some "Leaf"
  nodeKind := none
  idAlias := none
  isAbstract := false
  extensible := none
  parents := []
  properties := [⟨"day", "ex:day", some "day", .scalar .integer, false, none, none, [], []⟩]

def leafRegistry : Registry := (Registry.build "" [leaf]).toOption.getD ⟨"", [], []⟩

/-- A document of two leaves, one of which has a day that may be no number. -/
def twoLeaves (day : Json) : ByteArray :=
  (Json.object [("@context", .string ""), ("@graph", .list [.object [("@type", .string "Leaf")],
    .object [("@type", .string "Leaf"), ("day", day)]])]).text.toUTF8

/-- Documents are read before and after a leaf is added, and the second one cannot be read. -/
def leafSteps : List Step :=
  [.decode (twoLeaves (.integer 1)) 5, .create "own" "Leaf", .decode (twoLeaves (.bool true)) 5,
    .addCopy "own"]

end Sample

theorem Sample.leaves_gathered : ∃ added : List (List Root), added[2]? = some [] ∧
    ((Workspace.empty Sample.leafRegistry).after Sample.leafSteps).graph.roots = added.flatten ∧
      added.flatten.map (·.handle) = [none, none, some 0] := by
  obtain ⟨added, length, gathered, each⟩ :=
    Workspace.graph_after (.empty Sample.leafRegistry) Sample.leafSteps
  have roots : ((Workspace.empty Sample.leafRegistry).after Sample.leafSteps).graph.roots =
      added.flatten := congrArg Graph.roots gathered
  have handles : (((Workspace.empty Sample.leafRegistry).after
      Sample.leafSteps).graph.roots.map (·.handle)) = [none, none, some 0] := by decide +kernel
  obtain ⟨third, there⟩ : ∃ third, added[2]? = some third :=
    ⟨_, List.getElem?_eq_getElem (length ▸ by decide)⟩
  obtain ⟨-, -, ends⟩ :=
    each 2 (.decode (Sample.twoLeaves (.bool true)) 5) third _ rfl there rfl
  rcases ends _ _ rfl with ⟨-, counted⟩ | ⟨rfl, -⟩
  · have faulty : (match (((Workspace.empty Sample.leafRegistry).after
        (Sample.leafSteps.take 2)).run (.decode (Sample.twoLeaves (.bool true)) 5)).1 with
      | .count _ => true
      | _ => false) = false := by decide +kernel
    rw [counted] at faulty
    cases faulty
  · exact ⟨added, there, roots, roots ▸ handles⟩

end ShapedGraph
