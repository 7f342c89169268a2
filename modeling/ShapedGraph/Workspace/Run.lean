import ShapedGraph.Workspace.Step

/-! Running steps on a workspace. References in a step are made before it runs: a copy has the
content that its object had before the step. A step that fails leaves its object as it was. -/

namespace ShapedGraph

/-- Work that takes handles and that fails where a name means nothing. -/
abbrev Naming (α : Type) := StateT Nat Option α

namespace Naming

def takeHandle : Naming Nat := fun next => some (next, next + 1)

end Naming

/-- The reference that a term gives. A copy is a new object and takes a handle. -/
def ReferenceTerm.resolve (w : Workspace) : ReferenceTerm → Naming Reference
  | .unset => pure .unset
  | .iri text => pure (.iri text)
  | .copy name => do
    let o ← (w.object? name : Option Object)
    let handle ← Naming.takeHandle
    pure (.object handle o)
  | .shared name => do
    let s ← (w.shared? name : Option SharedObject)
    pure (.object s.handle s.object)

mutual

def ExtensionTerm.resolve (w : Workspace) (term : ExtensionTerm) : Naming Extension :=
  match term with
  | .reference target => .reference <$> target.resolve w
  | .string value => pure (.string value)
  | .integer value => pure (.integer value)
  | .float value => pure (.float value)
  | .boolean value => pure (.boolean value)
  | .list values => .list <$> resolveExtensions w values
termination_by structural term

def resolveExtensions (w : Workspace) (terms : List ExtensionTerm) : Naming (List Extension) :=
  match terms with
  | [] => pure []
  | term :: terms => do
    let value ← term.resolve w
    let values ← resolveExtensions w terms
    pure (value :: values)
termination_by structural terms

end

namespace Object

/-- The answer of a look at an object, which stays as it is. -/
def look (o : Object) : Except AccessError Answer → Answer × Object
  | .ok answer => (answer, o)
  | .error e => (.accessFault e, o)

/-- The answer of a change to an object. -/
def change (o : Object) : Except AccessError Object → Answer × Object
  | .ok changed => (.done, changed)
  | .error e => (.accessFault e, o)

def get (o : Object) (key : String) : Accessor → Except AccessError Answer
  | .scalar type => do
    let cell ← o.findScalar key type
    .ok (.scalarProperty cell.property cell.content)
  | .list type => do
    let cell ← o.findList key type
    .ok (.listProperty cell.property cell.content)
  | .reference => do
    let cell ← o.findReference key
    .ok (.referenceProperty cell.property cell.content)
  | .references => do
    let cell ← o.findReferences key
    .ok (.referencesProperty cell.property cell.content)

def set (w : Workspace) (o : Object) (key : String) :
    Content → Naming (Except AccessError Object)
  | .scalar value => pure (o.setScalar key value)
  | .list type values => pure (o.setList key type values)
  | .reference target => o.setReference key <$> target.resolve w
  | .references targets => o.setReferences key <$> targets.mapM (·.resolve w)

/-- Adds an element to what a property holds. -/
def push (w : Workspace) (o : Object) (key : String) : Item → Naming (Except AccessError Object)
  | .scalar value => pure (o.pushScalar key value)
  | .reference target => o.pushReference key <$> target.resolve w

def delete (o : Object) (key : String) : Accessor → Except AccessError Object
  | .scalar type => o.deleteScalar key type
  | .list type => o.deleteList key type
  | .reference => o.deleteReference key
  | .references => o.deleteReferences key

/-- The verdict on an object, with its faults if they are wanted. -/
def verdict (o : Object) (path : Path) (collect : Bool) : Answer :=
  if collect then .verdict (o.validate .collect path (.initial []))
  else .valid (o.validate .ignore path (.initial ())).valid

/-- What is known of the property with a key. The path is the property's own for the check and its
object's for the walk. -/
def slotAnswer (o : Object) (key : String) (path : Path) : Answer :=
  match o.cell? key with
  | none => .absent
  | some ⟨_, p, slot⟩ =>
    .slot ⟨p, slot, slot.check .collect p path (.initial []), slot.visits p path⟩

/-- The reference in a property, or in one position of a list property. -/
def referenceAt (o : Object) (key : String) : Option Nat → Except AccessError (Option Reference)
  | none => do
    let cell ← o.findReference key
    .ok cell.content
  | some position => do
    let cell ← o.findReferences key
    .ok cell.content[position]?

/-- Puts a reference into a property, or into one position of a list property, unchecked. -/
def putReference (o : Object) (key : String) (position : Option Nat) (target : Reference) :
    Object :=
  match o.cell? key, position with
  | some ⟨place, _, .reference _⟩, none => o.putSlot place (.reference target)
  | some ⟨place, _, .references targets⟩, some position =>
    o.putSlot place (.references (targets.set position target))
  | _, _ => o

def run (w : Workspace) (o : Object) : ObjectStep → Naming (Answer × Object)
  | .get key accessor => pure (o.look (o.get key accessor))
  | .set key content => o.change <$> o.set w key content
  | .push key item => o.change <$> o.push w key item
  | .delete key accessor => pure (o.change (o.delete key accessor))
  | .setId id => pure (o.change ((o.setId id).mapError .validation))
  | .deleteId => pure (.done, o.deleteId)
  | .setType type => pure (.done, o.setType type)
  | .clearType => pure (.done, o.clearType)
  | .describe => pure (.object o, o)
  | .validate path collect => pure (o.verdict path collect, o)
  | .walk path => pure (.visits (o.visits path), o)
  | .slot key path => pure (o.slotAnswer key path, o)
  | .deleteSlot key =>
    match o.deleteSlot key with
    | some changed => pure (.flag true, changed)
    | none => pure (.flag false, o)
  | .setExtension key values => do
    let values ← resolveExtensions w values
    pure (o.change (o.setExtension key values))
  | .deleteExtension key => pure (.done, o.deleteExtension key)
  | .getExtension key =>
    match o.extension? key with
    | some values => pure (.extensions values, o)
    | none => pure (.absent, o)
  | .reference key position =>
    match o.referenceAt key position with
    | .ok (some target) => pure (.reference target, o)
    | .ok none => pure (.unknownName, o)
    | .error e => pure (.accessFault e, o)
  | .narrow key position cls =>
    match o.referenceAt key position with
    | .ok (some target) =>
      pure (o.look ((.object <$> target.narrow cls).mapError .conversion))
    | .ok none => pure (.unknownName, o)
    | .error e => pure (.accessFault e, o)
  | .inside key position step =>
    match o.referenceAt key position with
    | .ok (some (.object _ inner)) => do
      let handle ← Naming.takeHandle
      let (answer, inner) ← inner.run w step
      pure (answer, o.putReference key position (.object handle inner))
    | .ok (some _) => pure (.absent, o)
    | .ok none => pure (.unknownName, o)
    | .error e => pure (.accessFault e, o)
termination_by structural step => step

end Object

namespace Workspace

def naming {α : Type} (w : Workspace) (work : Naming α) (use : Workspace → α → Answer × Workspace) :
    Answer × Workspace :=
  match work w.nextHandle with
  | some (value, next) => use { w with nextHandle := next } value
  | none => (.unknownName, w)

def withObject (w : Workspace) (name : String) (use : Object → Answer × Workspace) :
    Answer × Workspace :=
  match w.object? name with
  | some o => use o
  | none => (.unknownName, w)

/-- Adds a root to the graph and answers the number of roots. -/
def addRoot (w : Workspace) (handle : Nat) (o : Object) : Answer × Workspace :=
  let graph := w.graph.add ⟨some handle, o⟩
  (.count graph.size, { w with graph })

def run (w : Workspace) : Step → Answer × Workspace
  | .create name cls =>
    match w.graph.registry.create cls with
    | .ok o => (.done, w.putObject name o)
    | .error e => (.accessFault e, w)
  | .decodeObject name value target path maxDepth =>
    let target := target.bind w.graph.registry.get?
    match (Decoder.mk w.graph.registry maxDepth).decodeObject path target value with
    | .ok o =>
      let (o, next) := o.withHandles w.nextHandle
      (.done, { w.putObject name o with nextHandle := next })
    | .error e => (.decodeFault e, w)
  | .decodeExtension value path maxDepth =>
    match (Decoder.mk w.graph.registry maxDepth).decodeExtension path value with
    | .ok value => (.extension value, w)
    | .error e => (.decodeFault e, w)
  | .share name sharedName =>
    w.withObject name fun o =>
      let shared := Members.insert w.shared sharedName ⟨w.nextHandle, o⟩
      (.done, { w with shared, nextHandle := w.nextHandle + 1 })
  | .addCopy name =>
    w.withObject name fun o =>
      { w with nextHandle := w.nextHandle + 1 }.addRoot w.nextHandle o
  | .addShared name =>
    match w.shared? name with
    | some s => w.addRoot s.handle s.object
    | none => (.unknownName, w)
  | .decode bytes maxDepth =>
    match w.graph.decodeBytes maxDepth bytes with
    | .ok graph => (.count graph.size, { w with graph })
    | .error e => (.documentFault e w.graph.size, w)
  | .describeGraph => (.graph w.graph, w)
  | .encodeGraph pretty =>
    (.text (if pretty then w.graph.toJson.prettyText else w.graph.toJson.text), w)
  | .validateGraph collect =>
    if collect then (.verdict (w.graph.validate .collect (.initial [])), w)
    else (.valid (w.graph.validate .ignore (.initial ())).valid, w)
  | .walkGraph => (.visits w.graph.visits, w)
  | .locateObjects => (.located w.graph.objects, w)
  | .objectsOf cls subclasses => (.objects (w.graph.objectsOf cls subclasses), w)
  | .encodeReferences written targets =>
    let seen : Seen := (written.filterMap w.shared?).map (·.handle)
    w.naming (targets.mapM (·.resolve w)) fun w targets =>
      (.texts ((encodeReferences targets .empty seen).1.map (·.text)), w)
  | .isSubclass cls parent => (.flag (w.graph.registry.isSubclassOf cls parent), w)
  | .encode name => w.withObject name fun o => (.text o.toJson.text, w)
  | .onObject name step =>
    w.withObject name fun o =>
      w.naming (o.run w step) fun w (answer, o) => (answer, w.putObject name o)

end Workspace

end ShapedGraph
