import ShapedGraph.Pattern.CharSet

/-! Regular expressions in a reduced form. The functions that build expressions join literals that
stand side by side, take sequences out of sequences and choices out of choices, make sets of choices
between characters, and move what all alternatives begin with in front of the choice. -/

namespace ShapedGraph

/-- The sides of a boundary between a word and what is no word. The halves say something about one
side only. -/
inductive Boundary where
  | either
  | neither
  | start
  | stop
  | startHalf
  | stopHalf
deriving DecidableEq

/-- A condition on a place in a text. -/
inductive Look where
  | textStart
  | textEnd
  /-- Lines end with a line feed. -/
  | lineStart
  | lineEnd
  /-- Lines end with a carriage return, a line feed or both in this order. -/
  | anyLineStart
  | anyLineEnd
  /-- Words are made of the characters of ASCII alone, or of those of all scripts. -/
  | boundary (kind : Boundary) (ascii : Bool)
deriving DecidableEq

inductive Expression where
  | empty
  | literal (chars : List Char)
  | chars (set : CharSet)
  | look (condition : Look)
  /-- At least `least` times, and at most `most` times if there is a bound. Of the matches of a lazy
  repetition the shortest is preferred. -/
  | repetition (least : Nat) (most : Option Nat) (isLazy : Bool) (body : Expression)
  | group (body : Expression)
  | sequence (items : List Expression)
  | choice (items : List Expression)

namespace Expression

/-- How deep the parts of a pattern may be nested. -/
def nestingLimit : Nat := 250

mutual

/-- The expression matches the empty text and no other. -/
def onlyEmpty : Expression → Bool
  | empty | look _ => true
  | literal _ | chars _ => false
  | repetition _ _ _ body | group body => body.onlyEmpty
  | sequence items | choice items => allOnlyEmpty items
termination_by structural e => e

def allOnlyEmpty : List Expression → Bool
  | [] => true
  | e :: es => e.onlyEmpty && allOnlyEmpty es
termination_by structural es => es

end

mutual

/-- How many characters a match has at least; none if there is a part that matches nothing. -/
def leastLength : Expression → Option Nat
  | empty | look _ => some 0
  | literal cs => some cs.length
  | chars set => if set.ranges = [] then none else some 1
  | repetition least _ _ body => body.leastLength.map (least * ·)
  | group body => body.leastLength
  | sequence items => sumLength 0 items
  | choice items => minLength none items
termination_by structural e => e

def sumLength (sum : Nat) : List Expression → Option Nat
  | [] => some sum
  | e :: es =>
    match e.leastLength with
    | some n => sumLength (sum + n) es
    | none => none
termination_by structural es => es

def minLength (least : Option Nat) : List Expression → Option Nat
  | [] => least
  | e :: es =>
    match e.leastLength with
    | some n => minLength (some (min n (least.getD n))) es
    | none => none
termination_by structural es => es

end

mutual

/-- Every match begins at a place with a condition. -/
def beginsAt (condition : Look) : Expression → Bool
  | look c => c = condition
  | repetition least _ _ body => 0 < least && body.beginsAt condition
  | group body => body.beginsAt condition
  | sequence items => sequenceBeginsAt condition items
  | choice items => allBeginAt condition items
  | empty | literal _ | chars _ => false
termination_by structural e => e

def sequenceBeginsAt (condition : Look) : List Expression → Bool
  | [] => false
  | e :: es => e.beginsAt condition || (e.onlyEmpty && sequenceBeginsAt condition es)
termination_by structural es => es

def allBeginAt (condition : Look) : List Expression → Bool
  | [] => true
  | e :: es => e.beginsAt condition && allBeginAt condition es
termination_by structural es => es

end

mutual

/-- Every match ends at a place with a condition. -/
def endsAt (condition : Look) : Expression → Bool
  | look c => c = condition
  | repetition least _ _ body => 0 < least && body.endsAt condition
  | group body => body.endsAt condition
  | sequence items => sequenceEndsAt condition false items
  | choice items => allEndAt condition items
  | empty | literal _ | chars _ => false
termination_by structural e => e

/-- The items of a sequence make its matches end so, or those in front of them do. -/
def sequenceEndsAt (condition : Look) (found : Bool) : List Expression → Bool
  | [] => found
  | e :: es => sequenceEndsAt condition (e.endsAt condition || (e.onlyEmpty && found)) es
termination_by structural es => es

def allEndAt (condition : Look) : List Expression → Bool
  | [] => true
  | e :: es => e.endsAt condition && allEndAt condition es
termination_by structural es => es

end

mutual

/-- The expressions are written in the same way. No group is the same as another one. -/
def same : Expression → Expression → Bool
  | empty, empty => true
  | literal cs, literal ds => cs == ds
  | chars s, chars t => s = t
  | look c, look d => c = d
  | repetition l m z a, repetition l' m' z' b => l == l' && m == m' && z == z' && a.same b
  | sequence es, sequence fs | choice es, choice fs => allSame es fs
  | _, _ => false
termination_by structural e => e

def allSame : List Expression → List Expression → Bool
  | [], [] => true
  | e :: es, f :: fs => e.same f && allSame es fs
  | _, _ => false
termination_by structural es => es

end

/-- A set of characters. A set of one character is a literal. -/
def ofSet (set : CharSet) : Expression :=
  match set.only? with
  | some c => literal [c]
  | none => chars set

/-- Repeats an expression. More than one empty match is no different from one. -/
def repeated (least : Nat) (most : Option Nat) (isLazy : Bool) (body : Expression) : Expression :=
  let (least, most) :=
    if body.onlyEmpty then (min least 1, some (min (most.getD 1) 1)) else (least, most)
  if most = some 0 then empty
  else if least = 1 ∧ most = some 1 then body
  else repetition least most isLazy body

/-- Puts an expression in front of the items of a sequence. -/
def prepend (e : Expression) (items : List Expression) : List Expression :=
  match e, items with
  | empty, items => items
  | literal cs, literal ds :: items => literal (cs ++ ds) :: items
  | e, items => e :: items

def sequenceOf (es : List Expression) : Expression :=
  let items := es.reverse.foldl (fun items e =>
    match e with
    | sequence inner => inner.foldr prepend items
    | e => e.prepend items) []
  match items with
  | [] => empty
  | [e] => e
  | items => sequence items

/-- How many items two sequences begin with together, up to a bound. -/
def commonLength : Nat → List Expression → List Expression → Nat
  | bound + 1, e :: es, f :: fs => if e.same f then commonLength bound es fs + 1 else 0
  | _, _, _ => 0

def items? : Expression → Option (List Expression)
  | sequence items => some items
  | _ => none

/-- The character of a literal with one character. -/
def char? : Expression → Option Char
  | literal [c] => some c
  | _ => none

def set? : Expression → Option CharSet
  | chars set => some set
  | _ => none

/-- One of several expressions. The first argument bounds how often the alternatives are parted from
what they begin with. -/
def choiceWithin : Nat → List Expression → Expression
  | rounds, es =>
    let items := es.flatMap fun e =>
      match e with
      | choice inner => inner
      | e => [e]
    match items with
    | [] => chars .empty
    | [e] => e
    | items =>
      match items.mapM char?, items.mapM set?, rounds, items.mapM items? with
      | some cs, _, _, _ => ofSet (.ofCodes (cs.map Char.toNat))
      | _, some sets, _, _ => ofSet (.unions sets)
      | _, _, rounds + 1, some (first :: rest) =>
        let common := rest.foldl (fun n es => commonLength n first es) first.length
        if common = 0 then choice items
        else
          let endings := (first :: rest).map fun es => sequenceOf (es.drop common)
          sequenceOf (first.take common ++ [choiceWithin rounds endings])
      | _, _, _, _ => choice items

def choiceOf (es : List Expression) : Expression := choiceWithin nestingLimit es

end Expression

end ShapedGraph
