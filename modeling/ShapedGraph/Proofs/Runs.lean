import ShapedGraph.Proofs.Steps

/-! Runs of a workspace. Whatever steps it takes, references in its graph that carry one handle lead
to one object, and all that is below a shared object is shared. -/

namespace ShapedGraph

theorem Graph.BasedOn.mono {table wider : Nat → Option Object} {graph : Graph}
    (wide : ∀ handle o, table handle = some o → wider handle = some o)
    (based : graph.BasedOn table) : graph.BasedOn wider := fun root there =>
  (based root there).imp_left fun labelled => labelled.mono wide

theorem Graph.BasedOn.add {table : Nat → Option Object} {graph : Graph}
    (based : graph.BasedOn table) {root : Root}
    (new : root.reference.Labelled table ∨ root.handle = none ∧ root.object.Unlabelled) :
    (graph.add root).BasedOn table := by
  intro other there
  rcases List.mem_append.mp there with there | there
  · exact based other there
  · cases List.mem_singleton.mp there
    exact new

/-- Roots that are read from a document have no handles, and nothing in them has. -/
theorem Graph.BasedOn.decode {table : Nat → Option Object} {graph after : Graph}
    (based : graph.BasedOn table) {maxDepth : Nat} {json : Json}
    (h : graph.decode maxDepth json = .ok after) : after.BasedOn table := by
  obtain ⟨roots, read, rfl⟩ := Outcome.map_eq_ok.mp h
  intro root there
  rcases List.mem_append.mp there with there | there
  · exact based root there
  · obtain ⟨o, among, rfl⟩ := List.mem_map.mp there
    have bare := Object.bare_of_sound (Decoder.sound_of_decodeRoots read o among)
    exact .inr ⟨rfl, bare.unlabelled⟩

namespace Workspace

variable {w : Workspace} {stock later : Stock} {next : Nat}

/-- The stock has all that is shared in the workspace, under the handles given out so far. -/
structure Kept (w : Workspace) (stock : Stock) : Prop where
  named : w.Named stock.table
  based : w.graph.BasedOn stock.table
  next : stock.next = w.nextHandle

/-- What is shared in the workspace is in the stock, or has come into it since. -/
def Follows (w : Workspace) (stock : Stock) : Prop := ∃ later, stock.Grows later ∧ w.Kept later

theorem kept_empty (registry : Registry) : (empty registry).Kept .empty where
  named := ⟨nofun, nofun⟩
  based := nofun
  next := rfl

namespace Kept

theorem follows (kept : w.Kept stock) : w.Follows stock := ⟨stock, .refl stock, kept⟩

theorem grow (kept : w.Kept stock) (grows : stock.Grows later) (same : later.next = next) :
    { w with nextHandle := next }.Kept later where
  named := ⟨(kept.named.grow grows).objects, (kept.named.grow grows).shared⟩
  based := kept.based.mono fun _ _ => grows.eq_some
  next := same

theorem putObject (kept : w.Kept stock) (name : String) {o : Object}
    (labelled : o.Labelled stock.table) : (w.putObject name o).Kept stock where
  named := by
    refine ⟨fun entry there => ?_, kept.named.shared⟩
    rcases Members.mem_insert there with rfl | there
    · exact labelled
    · exact kept.named.objects entry there
  based := kept.based
  next := kept.next

theorem putShared (kept : w.Kept stock) (name : String) {s : SharedObject}
    (there : stock.table s.handle = some s.object) :
    { w with shared := Members.insert w.shared name s }.Kept stock where
  named := by
    refine ⟨kept.named.objects, fun entry among => ?_⟩
    rcases Members.mem_insert among with rfl | among
    · exact there
    · exact kept.named.shared entry among
  based := kept.based
  next := kept.next

theorem addRoot (kept : w.Kept stock) {handle : Nat} {o : Object}
    (there : stock.table handle = some o) : (w.addRoot handle o).2.Kept stock where
  named := ⟨kept.named.objects, kept.named.shared⟩
  based := kept.based.add (.inl there)
  next := kept.next

theorem decode (kept : w.Kept stock) {maxDepth : Nat} {bytes : ByteArray} {graph : Graph}
    (h : w.graph.decodeBytes maxDepth bytes = .ok graph) : { w with graph }.Kept stock where
  named := ⟨kept.named.objects, kept.named.shared⟩
  based := by
    unfold Graph.decodeBytes at h
    split at h
    · cases h
    · rename_i json _
      cases read : w.graph.decode maxDepth json with
      | error e =>
        rw [read] at h
        cases h
      | ok after =>
        rw [read] at h
        cases h
        exact kept.based.decode read
  next := kept.next

theorem withObject (kept : w.Kept stock) (name : String) {use : Object → Answer × Workspace}
    (each : ∀ o, w.object? name = some o → (use o).2.Follows stock) :
    (w.withObject name use).2.Follows stock := by
  unfold Workspace.withObject
  split
  · exact each _ (by assumption)
  · exact kept.follows

theorem naming (kept : w.Kept stock) {α : Type} {work : Naming α}
    {use : Workspace → α → Answer × Workspace}
    (each : ∀ value next, work stock.next = some (value, next) →
      (use { w with nextHandle := next } value).2.Follows stock) :
    (w.naming work use).2.Follows stock := by
  unfold Workspace.naming
  rw [← kept.next]
  split
  · exact each _ _ (by assumption)
  · exact kept.follows

/-- A named object gets the next handle. -/
theorem exists_given (kept : w.Kept stock) {name : String} {o : Object}
    (found : w.object? name = some o) : ∃ later, stock.Grows later ∧
      { w with nextHandle := w.nextHandle + 1 }.Kept later ∧ later.table w.nextHandle = some o := by
  obtain ⟨later, grows, same, there⟩ :=
    Stock.exists_put (.refl stock.skip) (kept.named.object? found)
  have next : later.next = w.nextHandle + 1 := by
    rw [same, ← kept.next]
    rfl
  exact ⟨later, grows, kept.grow grows next, kept.next ▸ there⟩

/-- One step keeps account of what is shared. -/
theorem run (kept : w.Kept stock) (step : Step) : (w.run step).2.Follows stock := by
  cases step with
  | create name cls =>
    cases made : w.graph.registry.create cls with
    | error => simpa only [Workspace.run, made] using kept.follows
    | ok o =>
      have labelled := Object.labelled_create stock.table made
      simpa only [Workspace.run, made] using (kept.putObject name labelled).follows
  | decodeObject name value target path maxDepth =>
    simp only [Workspace.run]
    split
    · rename_i o read
      have registered : ∀ t, target.bind w.graph.registry.get? = some t →
          t ∈ w.graph.registry.classes := by
        intro t asked
        obtain ⟨key, -, known⟩ := Option.bind_eq_some_iff.mp asked
        exact Registry.mem_of_get? known
      have bare := Decoder.bare_of_decodeObject registered read
      obtain ⟨later, grows, same, each⟩ := bare.relabels stock
      rw [kept.next] at same each
      exact ⟨later, grows, (kept.grow grows same).putObject name each⟩
    · exact kept.follows
  | share name sharedName =>
    refine kept.withObject name fun o found => ?_
    obtain ⟨later, grows, kept, there⟩ := kept.exists_given found
    exact ⟨later, grows, kept.putShared sharedName there⟩
  | addCopy name =>
    refine kept.withObject name fun o found => ?_
    obtain ⟨later, grows, kept, there⟩ := kept.exists_given found
    exact ⟨later, grows, kept.addRoot there⟩
  | addShared name =>
    simp only [Workspace.run]
    split
    · rename_i found
      exact (kept.addRoot (kept.named.shared? found)).follows
    · exact kept.follows
  | decode bytes maxDepth =>
    simp only [Workspace.run]
    split
    · rename_i read
      exact (kept.decode read).follows
    · exact kept.follows
  | validateGraph collect => cases collect <;> exact kept.follows
  | decodeExtension =>
    simp only [Workspace.run]
    split <;> exact kept.follows
  | encodeReferences written terms =>
    refine kept.naming fun targets next resolved => ?_
    obtain ⟨later, grows, same, -⟩ := kept.named.labels_references resolved
    exact ⟨later, grows, kept.grow grows same⟩
  | encode name => exact kept.withObject name fun _ _ => kept.follows
  | onObject name step =>
    refine kept.withObject name fun o found => ?_
    refine kept.naming fun result next ran => ?_
    obtain ⟨later, grows, same, each⟩ :=
      Object.labels_of_run kept.named (kept.named.object? found) ran
    exact ⟨later, grows, (kept.grow grows same).putObject name each⟩
  | describeGraph | encodeGraph | walkGraph | locateObjects | objectsOf | isSubclass =>
    exact kept.follows

end Kept

/-- A workspace over a registry, as steps on an empty one leave it. -/
inductive Made (registry : Registry) : Workspace → Prop where
  | empty : Made registry (.empty registry)
  | step {w : Workspace} (before : Made registry w) (step : Step) : Made registry (w.run step).2

theorem Made.exists_kept {registry : Registry} (made : w.Made registry) :
    ∃ stock, w.Kept stock := by
  induction made with
  | empty => exact ⟨.empty, kept_empty registry⟩
  | step _ step ih =>
    obtain ⟨stock, kept⟩ := ih
    obtain ⟨later, -, kept⟩ := kept.run step
    exact ⟨later, kept⟩

/-- Whatever steps a workspace has taken, the handles in its graph say what is shared. -/
theorem Made.coherent {registry : Registry} (made : w.Made registry) : w.graph.Coherent := by
  obtain ⟨stock, kept⟩ := made.exists_kept
  exact kept.based.coherent stock.closed

end Workspace

end ShapedGraph
