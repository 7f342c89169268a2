import ShapedGraph.Pattern.Expression
import ShapedGraph.Pattern.Utf8

/-! The size of the automata that match an expression byte by byte, one forwards and one backwards.
A pattern is refused if one of them is too large. A state takes 32 bytes, each transition on bytes
behind the first way out of it 8 and each of its alternatives 4. -/

namespace ShapedGraph

/-- What the states of an automaton take up, while it is built. -/
structure Footprint where
  states : Nat
  bytes : Nat

namespace Footprint

def zero : Footprint := ⟨0, 0⟩

/-- The bytes that an automaton may take up. -/
def limit : Nat := 10485760

/-- One more state with `extra` bytes for its transitions. -/
def addState (f : Footprint) (extra : Nat) : Footprint := ⟨f.states + 1, f.bytes + 32 + extra⟩

def addStates (f : Footprint) (count : Nat) : Footprint :=
  ⟨f.states + count, f.bytes + 32 * count⟩

/-- The footprint, if it is within the limit. -/
def check (f : Footprint) : Option Footprint := if f.bytes ≤ limit then some f else none

/-- A state with one way out, if there is room for it. -/
def state (f : Footprint) : Option Footprint := (f.addState 0).check

/-- A state with alternatives, if there is room for it. -/
def fork (f : Footprint) (alternatives : Nat) : Option Footprint :=
  (f.addState (4 * alternatives)).check

def copies (step : Footprint → Option Footprint) : Nat → Footprint → Option Footprint
  | 0, f => some f
  | n + 1, f =>
    match step f with
    | some f => copies step n f
    | none => none

end Footprint

/-- Values at places that are numbers. The ways down the tree are the binary digits of a place, the
last digit first. -/
inductive Slots (α : Type) where
  | empty
  | node (value : Option α) (even odd : Slots α)

namespace Slots

variable {α : Type}

/-- The value at a place, if there is one. -/
def get? : Slots α → Nat → Option α
  | empty, _ => none
  | node value even odd, place =>
    if place = 0 then value
    else if place % 2 = 0 then even.get? (place / 2)
    else odd.get? (place / 2)

/-- Puts a value at a place. The first argument bounds the number of digits. -/
def insert : Nat → Slots α → Nat → α → Slots α
  | digits + 1, slots, place, new =>
    let (value, even, odd) := match slots with
      | empty => (none, empty, empty)
      | node value even odd => (value, even, odd)
    if place = 0 then node (some new) even odd
    else if place % 2 = 0 then node value (insert digits even (place / 2) new) odd
    else node value even (insert digits odd (place / 2) new)
  | 0, slots, _, _ => slots

end Slots

/-- Remembers states by what they lead to. There is one place for each remainder of the hash of what
a state leads to, so a state may have to give way to another one. -/
structure Memo (α : Type) where
  size : Nat
  states : Slots (α × Nat)

namespace Memo

variable {α : Type} [DecidableEq α]

def ofSize (size : Nat) : Memo α := ⟨size, .empty⟩

def mix (hash : UInt64) (n : Nat) : UInt64 := (hash ^^^ n.toUInt64) * 1099511628211

def hash (ns : List Nat) : Nat := (ns.foldl mix 14695981039346656037).toNat

def place (m : Memo α) (ns : List Nat) : Nat := hash ns % m.size

/-- The state that is remembered for `key`, whose numbers are `ns`. -/
def find? (m : Memo α) (key : α) (ns : List Nat) : Option Nat :=
  match m.states.get? (m.place ns) with
  | some (k, state) => if k = key then some state else none
  | none => none

def insert (m : Memo α) (key : α) (ns : List Nat) (state : Nat) : Memo α :=
  { m with states := Slots.insert m.size m.states (m.place ns) (key, state) }

end Memo

/-- A transition on a range of bytes to a state. -/
structure ByteStep where
  range : Utf8.ByteRange
  target : Nat
deriving DecidableEq

/-- The states of a set of characters while they are added. -/
structure SetBuilder (α : Type) where
  footprint : Footprint
  memo : Memo α

namespace SetBuilder

/-- A state with transitions on bytes, one that is remembered or a new one. -/
def stateOf (b : SetBuilder (List ByteStep)) (steps : List ByteStep) :
    Nat × SetBuilder (List ByteStep) :=
  let numbers := steps.flatMap fun s => [s.range.1, s.range.2, s.target]
  match b.memo.find? steps numbers with
  | some state => (state, b)
  | none =>
    let state := b.footprint.states
    (state, ⟨b.footprint.addState (8 * steps.length), b.memo.insert steps numbers state⟩)

/-- A node of the tree of byte sequences on the way to the last one: its finished transitions, and
the range of bytes for which the rest of the way is still open. -/
structure OpenNode where
  steps : List ByteStep
  last : Option Utf8.ByteRange

/-- The transitions of a node whose open way leads to `target`. -/
def OpenNode.close (node : OpenNode) (target : Nat) : List ByteStep :=
  match node.last with
  | some range => node.steps ++ [⟨range, target⟩]
  | none => node.steps

/-- Adds the states of nodes that hang on each other, the innermost first, and gives the state of
the first node. The innermost one leads to `target`. -/
def closeAll (target : Nat) (nodes : List OpenNode) (b : SetBuilder (List ByteStep)) :
    Nat × SetBuilder (List ByteStep) :=
  nodes.foldr (fun node (next, b) => b.stateOf (node.close next)) (target, b)

/-- Adds a byte sequence to the nodes on the way to the last one. -/
def insert (target : Nat) : List OpenNode → List Utf8.ByteRange → SetBuilder (List ByteStep) →
    List OpenNode × SetBuilder (List ByteStep)
  | node :: deeper, range :: ranges, b =>
    if node.last = some range then
      let (deeper, b) := insert target deeper ranges b
      (node :: deeper, b)
    else
      let (next, b) := closeAll target deeper b
      (⟨node.close next, some range⟩ :: ranges.map fun r => ⟨[], some r⟩, b)
  | nodes, _, b => (nodes, b)
termination_by structural nodes => nodes

/-- The states behind a state, read from last byte to first byte. -/
def backwards (target : Nat) (sequence : List Utf8.ByteRange)
    (b : SetBuilder (Nat × Utf8.ByteRange)) : SetBuilder (Nat × Utf8.ByteRange) :=
  (sequence.foldl (fun (next, b) range =>
    let numbers := [next, range.1, range.2]
    match b.memo.find? (next, range) numbers with
    | some state => (state, b)
    | none =>
      let state := b.footprint.states
      (state, ⟨b.footprint.addState 0, b.memo.insert (next, range) numbers state⟩))
    (target, b)).2

end SetBuilder

inductive Direction where
  | forward
  | backward
deriving DecidableEq

namespace Footprint

/-- The states of a set with characters beyond ASCII: the tree of its byte sequences, in which equal
states are shared. -/
def forwardSet (set : CharSet) (f : Footprint) : Footprint :=
  let target := f.states
  let (nodes, b) := (set.ranges.flatMap Utf8.sequences).foldl
    (fun (nodes, b) sequence => SetBuilder.insert target nodes sequence b)
    ([⟨[], none⟩], ⟨f.addState 0, .ofSize 10000⟩)
  (SetBuilder.closeAll target nodes b).2.footprint

/-- The states of a set with characters beyond ASCII: one way for each of its byte sequences, in
which states with the same transition are shared. -/
def backwardSet (set : CharSet) (f : Footprint) : Footprint :=
  let sequences := set.ranges.flatMap Utf8.sequences
  let target := f.states + 1
  let start := (f.addState (4 * sequences.length)).addState 0
  (sequences.foldl (fun b sequence => SetBuilder.backwards target sequence b)
    ⟨start, .ofSize 1000⟩).footprint

def set (direction : Direction) (set : CharSet) (f : Footprint) : Option Footprint :=
  if set.isAscii then ((f.addState 0).addState (8 * set.ranges.length)).check
  else
    match direction with
    | .forward => (f.forwardSet set).check
    | .backward => (f.backwardSet set).check

/-- What a node of a tree of texts holds: the texts behind it up to each end of a text, and the
number of these ends. An end that follows another one counts if the tree goes on from the node. -/
structure TrieNode where
  /-- The chunks of texts that are complete, in reverse. -/
  done : List (List (List Nat))
  /-- The texts since the last end, in reverse. -/
  present : List (List Nat)
  ends : Nat

namespace TrieNode

def add (node : TrieNode) (text : List Nat) : TrieNode :=
  if text = [] then
    if node.ends ≠ 0 ∧ node.present = [] ∧ node.done.all (· = []) then node
    else ⟨node.present.reverse :: node.done, [], node.ends + 1⟩
  else { node with present := text :: node.present }

def ofTexts (texts : List (List Nat)) : TrieNode := texts.foldl add ⟨[], [], 0⟩

def chunks (node : TrieNode) : List (List (List Nat)) :=
  (node.present.reverse :: node.done).filter (· ≠ [])

/-- What is behind the first byte of each text of a chunk, in one list for each first byte. -/
def branches (chunk : List (List Nat)) : List (List (List Nat)) :=
  let groups : List (Nat × List (List Nat)) := chunk.foldr (fun text groups =>
    match text with
    | [] => groups
    | byte :: rest =>
      match groups.partition (·.1 = byte) with
      | ((_, texts) :: _, others) => (byte, rest :: texts) :: others
      | ([], others) => (byte, [rest]) :: others) []
  groups.map (·.2)

end TrieNode

/-- The states of a tree of texts, apart from the one at its ends, by the nodes that are left to
do, as the texts behind them. Each node has a state for each chunk and one that joins these. The
first argument bounds the steps. -/
def trieNodes : Nat → List (List (List Nat)) → Footprint → Footprint
  | steps + 1, texts :: pending, f =>
    let node := TrieNode.ofTexts texts
    let chunks := node.chunks.map TrieNode.branches
    let f := chunks.foldl (fun (f : Footprint) branches =>
      f.addState (if branches.length = 1 then 0 else 8 * branches.length)) f
    let inner := (chunks.flatMap id).filter fun texts => texts.any (· ≠ [])
    trieNodes steps (inner ++ pending) (f.addState (4 * (chunks.length + node.ends)))
  | _, _, f => f
termination_by structural steps => steps

def trie (direction : Direction) (texts : List (List Char)) (f : Footprint) : Option Footprint :=
  let encoded := texts.map fun cs =>
    let bytes := cs.flatMap fun c => Utf8.bytes c.toNat
    match direction with
    | .forward => bytes
    | .backward => bytes.reverse
  let steps := encoded.foldl (fun n bytes => n + bytes.length) 1
  (trieNodes steps [encoded] (f.addState 0)).check

end Footprint

namespace Expression

def literal? : Expression → Option (List Char)
  | literal cs => some cs
  | _ => none

/-- The states of a repetition, by those of its body. -/
def measureRepetition (least : Nat) (most : Option Nat) (consumes : Bool)
    (body : Footprint → Option Footprint) (f : Footprint) : Option Footprint :=
  match least, most with
  | 0, none =>
    if consumes then do body (← f.fork 2)
    else do
      let f ← (← body f).fork 2
      (← f.fork 2).state
  | n, none => do (← f.copies body n).fork 2
  | 0, some 1 => do (← body (← f.fork 2)).state
  | n, some m =>
    if n = m then f.copies body n
    else do
      let f ← if n = 0 then f.state else f.copies body n
      (← f.state).copies (fun f => do body (← f.fork 2)) (m - n)

mutual

def measure (direction : Direction) : Expression → Footprint → Option Footprint
  | empty, f | look _, f => f.state
  | literal cs, f =>
    (f.addStates (cs.foldl (fun n c => n + c.utf8Size) 0)).check
  | chars set, f => f.set direction set
  | repetition least most _ body, f =>
    measureRepetition least most ((body.leastLength.getD 0) ≠ 0) (measure direction body) f
  | group body, f =>
    match direction with
    | .forward => do (← measure direction body (← f.state)).state
    | .backward => measure direction body f
  | sequence items, f =>
    match direction with
    | .forward => measureAll direction items f
    | .backward => measureReverse direction items f
  | choice items, f =>
    match items.mapM literal? with
    | some texts => f.trie direction texts
    | none => measureChoice direction items.length 1 items f
termination_by structural e => e

def measureAll (direction : Direction) : List Expression → Footprint → Option Footprint
  | [], f => some f
  | e :: es, f =>
    match measure direction e f with
    | some f => measureAll direction es f
    | none => none
termination_by structural es => es

/-- Adds the states of expressions, the last one first. -/
def measureReverse (direction : Direction) : List Expression → Footprint → Option Footprint
  | [], f => some f
  | e :: es, f => do measure direction e (← measureReverse direction es f)
termination_by structural es => es

/-- Adds the states of alternatives from a place on, and behind the second one those that fork and
join them. -/
def measureChoice (direction : Direction) (count : Nat) :
    Nat → List Expression → Footprint → Option Footprint
  | _, [], f => some f
  | place, e :: es, f =>
    match measure direction e f with
    | some f =>
      let joined := if place = 2 then (f.addState (4 * count)).state else some f
      match joined with
      | some f => measureChoice direction count (place + 1) es f
      | none => none
    | none => none
termination_by structural _ es => es

end

/-- The states in front of those of an expression. A search may begin at any byte, unless all
matches are at one end of the text. -/
def measureStart (isAnchored : Bool) : Option Footprint :=
  if isAnchored then Footprint.zero.state
  else do some ((← (← Footprint.zero.fork 2).state).addState 8)

/-- The automata that match an expression are within the limit. The one that reads forwards also
marks where the match begins and ends. -/
def fits (e : Expression) : Bool :=
  let forward := do
    let f ← measureStart (e.beginsAt .textStart)
    (← (← measure .forward e (← f.state)).state).state
  let backward := do
    let f ← measureStart (e.endsAt .textEnd)
    (← measure .backward e f).state
  forward.isSome && backward.isSome

end Expression

end ShapedGraph
