import ShapedGraph.Pattern.Expression

/-! Automata that search a text for matches of an expression. An automaton is a list of steps; it
goes through all of its ways at once, as the set of the steps that wait for the next character, so
it takes no account of which match is preferred, and its time grows with the length of the text
alone. -/

namespace ShapedGraph

/-- A step of an automaton. Those that do not say where to go on go on with the next one. -/
inductive Automaton.Step where
  /-- The next character is in a set. -/
  | read (table : Array (Nat × Nat))
  | look (condition : Look)
  | jump (target : Nat)
  | fork (a b : Nat)
  /-- A match is complete. -/
  | accept
deriving DecidableEq

structure Automaton where
  steps : Array Automaton.Step
deriving DecidableEq

namespace Automaton

def copies (add : Array Step → Array Step) : Nat → Array Step → Array Step
  | 0, steps => steps
  | n + 1, steps => copies add n (add steps)

/-- Adds a loop over the steps of a body, which may be left at its start. -/
def addLoop (body : Array Step → Array Step) (steps : Array Step) : Array Step :=
  let start := steps.size
  let steps := (body (steps.push .accept)).push (.jump start)
  steps.setIfInBounds start (.fork (start + 1) steps.size)

/-- Adds the steps of a body some number of times. Each time the rest may be left out; the places
where that is so are the last argument. -/
def addOptions (body : Array Step → Array Step) : Nat → List Nat → Array Step → Array Step
  | 0, starts, steps =>
    starts.foldl (fun steps start =>
      steps.setIfInBounds start (.fork (start + 1) steps.size)) steps
  | n + 1, starts, steps =>
    addOptions body n (steps.size :: starts) (body (steps.push .accept))

mutual

def add : Expression → Array Step → Array Step
  | .empty, steps => steps
  | .literal cs, steps =>
    cs.foldl (fun steps c => steps.push (.read (CharSet.singleton c).table)) steps
  | .chars set, steps => steps.push (.read set.table)
  | .look condition, steps => steps.push (.look condition)
  | .repetition least most _ body, steps =>
    let steps := copies (add body) least steps
    match most with
    | none => addLoop (add body) steps
    | some most => addOptions (add body) (most - least) [] steps
  | .group body, steps => add body steps
  | .sequence items, steps => addAll items steps
  | .choice items, steps => addChoice items [] steps
termination_by structural e => e

def addAll : List Expression → Array Step → Array Step
  | [], steps => steps
  | e :: es, steps => addAll es (add e steps)
termination_by structural es => es

/-- Adds the steps of alternatives. From the places in the list a jump leads behind all of them. -/
def addChoice : List Expression → List Nat → Array Step → Array Step
  | [], _, steps => steps
  | e :: es, jumps, steps =>
    if es.isEmpty then
      let steps := add e steps
      jumps.foldl (fun steps place => steps.setIfInBounds place (.jump steps.size)) steps
    else
      let start := steps.size
      let steps := (add e (steps.push .accept)).push .accept
      let next := steps.size
      addChoice es ((next - 1) :: jumps) (steps.setIfInBounds start (.fork (start + 1) next))
termination_by structural es => es

end

def ofExpression (e : Expression) : Automaton := ⟨(add e #[]).push .accept⟩

end Automaton

/-- A place in a text: the characters in front of it and behind it. -/
structure Place where
  before : Option Char
  after : Option Char

namespace Place

def wordTable : Array (Nat × Nat) := CharSet.word.table

def asciiWordTable : Array (Nat × Nat) := CharSet.asciiWord.table

def isWord (ascii : Bool) (c : Option Char) : Bool :=
  c.any fun c => CharSet.lookUp (if ascii then asciiWordTable else wordTable) c.toNat

end Place

/-- The boundary is at a place with a word in front of it and behind it, or without. -/
def Boundary.holds (before after : Bool) : Boundary → Bool
  | .either => before != after
  | .neither => before == after
  | .start => !before && after
  | .stop => before && !after
  | .startHalf => !before
  | .stopHalf => !after

def Look.holds (p : Place) : Look → Bool
  | .textStart => p.before = none
  | .textEnd => p.after = none
  | .lineStart => p.before = none ∨ p.before = some '\n'
  | .lineEnd => p.after = none ∨ p.after = some '\n'
  | .anyLineStart =>
    p.before = none ∨ p.before = some '\n' ∨ (p.before = some '\r' ∧ p.after ≠ some '\n')
  | .anyLineEnd =>
    p.after = none ∨ p.after = some '\r' ∨ (p.after = some '\n' ∧ p.before ≠ some '\r')
  | .boundary kind ascii => kind.holds (Place.isWord ascii p.before) (Place.isWord ascii p.after)

namespace Automaton

/-- Takes the steps that need no character, from those in the first list. Gives the steps that wait
for a character, in front of those in the second list; none if a match is complete. A step that has
been taken at this place bears its stamp. The first argument bounds the steps. -/
def spread (a : Automaton) (p : Place) (stamp : Nat) :
    Nat → List Nat → Array Nat → List Nat → Option (Array Nat × List Nat)
  | bound + 1, q :: pending, stamps, waiting =>
    if stamps.getD q 0 = stamp then spread a p stamp bound pending stamps waiting
    else
      let stamps := stamps.setIfInBounds q stamp
      match a.steps[q]? with
      | some (.read _) => spread a p stamp bound pending stamps (q :: waiting)
      | some (.look condition) =>
        spread a p stamp bound (if condition.holds p then (q + 1) :: pending else pending) stamps
          waiting
      | some (.jump target) => spread a p stamp bound (target :: pending) stamps waiting
      | some (.fork x y) => spread a p stamp bound (x :: y :: pending) stamps waiting
      | some .accept => none
      | none => spread a p stamp bound pending stamps waiting
  | _, _, stamps, waiting => some (stamps, waiting)
termination_by structural bound => bound

/-- Takes the steps that need no character at a place, from its pending ones and from the first one,
as a match may begin anywhere. -/
def spreadAt (a : Automaton) (p : Place) (stamp : Nat) (pending : List Nat) (stamps : Array Nat) :
    Option (Array Nat × List Nat) :=
  a.spread p stamp (pending.length + 2 * a.steps.size + 2) (0 :: pending) stamps []

/-- The steps behind those of a list that read a character. -/
def readAll (a : Automaton) (c : Char) (waiting : List Nat) : List Nat :=
  waiting.filterMap fun q =>
    match a.steps[q]? with
    | some (Step.read table) => if CharSet.lookUp table c.toNat then some (q + 1) else none
    | _ => none

/-- A match is found in what is left of a text, behind a character, with steps that are pending. -/
def search (a : Automaton) : Nat → Option Char → List Nat → Array Nat → List Char → Bool
  | stamp, before, pending, stamps, [] => (a.spreadAt ⟨before, none⟩ stamp pending stamps).isNone
  | stamp, before, pending, stamps, c :: cs =>
    match a.spreadAt ⟨before, some c⟩ stamp pending stamps with
    | none => true
    | some (stamps, waiting) => search a (stamp + 1) (some c) (a.readAll c waiting) stamps cs
termination_by structural _ _ _ _ cs => cs

def isFoundIn (a : Automaton) (text : List Char) : Bool :=
  a.search 1 none [] (Array.replicate a.steps.size 0) text

end Automaton

end ShapedGraph
