import ShapedGraph.Unicode.Blank
import ShapedGraph.Unicode.Case
import ShapedGraph.Unicode.Digit
import ShapedGraph.Unicode.Word

/-! Sets of characters as lists of ranges. The ranges of a set ascend, and no two of them overlap or
touch. -/

namespace ShapedGraph

structure CharSet where
  /-- First and last number of each range. -/
  ranges : List (Nat × Nat)
deriving DecidableEq

namespace CharSet

def lastCode : Nat := 0x10FFFF

/-- The number of the next character. Surrogates are no characters. -/
def next (code : Nat) : Nat := if code = 0xD7FF then 0xE000 else code + 1

def previous (code : Nat) : Nat := if code = 0xE000 then 0xD7FF else code - 1

def empty : CharSet := ⟨[]⟩

def full : CharSet := ⟨[(0, lastCode)]⟩

def range (first last : Nat) : CharSet := ⟨[(first, last)]⟩

def singleton (c : Char) : CharSet := range c.toNat c.toNat

/-- The character with the number `code` is a member. -/
def mem (s : CharSet) (code : Nat) : Bool :=
  s.ranges.any fun (first, last) => first ≤ code ∧ code ≤ last

/-- A range in front of those that have been joined, in reverse. It begins no earlier than they
do. -/
def joinRange (joined : List (Nat × Nat)) (r : Nat × Nat) : List (Nat × Nat) :=
  match joined with
  | (first, last) :: rest =>
    if r.1 ≤ last + 1 then (first, max last r.2) :: rest else r :: (first, last) :: rest
  | [] => [r]

/-- Two lists of ranges that ascend as one list. The first argument bounds the steps. -/
def mergeRanges : Nat → List (Nat × Nat) → List (Nat × Nat) → List (Nat × Nat)
  | steps + 1, x :: xs, y :: ys =>
    if x.1 ≤ y.1 then x :: mergeRanges steps xs (y :: ys) else y :: mergeRanges steps (x :: xs) ys
  | _, xs, ys => xs ++ ys

/-- Each list of ranges merged with its neighbour. -/
def mergePairs : List (List (Nat × Nat)) → List (List (Nat × Nat))
  | xs :: ys :: rest => mergeRanges (xs.length + ys.length) xs ys :: mergePairs rest
  | lists => lists

/-- Lists of ranges that ascend as one list. The first argument bounds the rounds. -/
def mergeAll : Nat → List (List (Nat × Nat)) → List (Nat × Nat)
  | rounds + 1, xs :: ys :: rest => mergeAll rounds (mergePairs (xs :: ys :: rest))
  | _, lists => lists.flatten

/-- The set of the characters in some range of lists that ascend. -/
def ofLists (lists : List (List (Nat × Nat))) : CharSet :=
  ⟨((mergeAll lists.length lists).foldl joinRange []).reverse⟩

/-- The set of the characters in some of the ranges. -/
def ofRanges (ranges : List (Nat × Nat)) : CharSet := ofLists (ranges.map fun r => [r])

/-- The set of the characters with some of the numbers. -/
def ofCodes (codes : List Nat) : CharSet := ofRanges (codes.map fun code => (code, code))

/-- The set that first and last characters of ranges give. -/
def ofChars (pairs : List (Char × Char)) : CharSet :=
  ofRanges (pairs.map fun (first, last) => (first.toNat, last.toNat))

def unions (sets : List CharSet) : CharSet := ofLists (sets.map (·.ranges))

def union (a b : CharSet) : CharSet := unions [a, b]

/-- What lies between ranges, from the character `start` on. -/
def between (start : Nat) : List (Nat × Nat) → List (Nat × Nat)
  | [] => if start ≤ lastCode then [(start, lastCode)] else []
  | (first, last) :: rest => (start, previous first) :: between (next last) rest

/-- What lies in front of, between and behind the ranges of a set. Where that is nothing but
surrogates, the character behind them stands before the character in front of them. -/
def gaps (s : CharSet) : List (Nat × Nat) :=
  match s.ranges with
  | (0, last) :: rest => between (next last) rest
  | ranges => between 0 ranges

/-- The characters that are not members, and both neighbours of the surrogates if they belong to
different ranges. -/
def compl (s : CharSet) : CharSet := ⟨s.gaps.map fun (a, b) => (min a b, max a b)⟩

/-- The common parts of two lists of ranges. The first argument bounds the steps. -/
def interRanges : Nat → List (Nat × Nat) → List (Nat × Nat) → List (Nat × Nat)
  | steps + 1, (a, b) :: xs, (c, d) :: ys =>
    let rest :=
      if b < d then interRanges steps xs ((c, d) :: ys) else interRanges steps ((a, b) :: xs) ys
    if max a c ≤ min b d then (max a c, min b d) :: rest else rest
  | _, _, _ => []

def inter (a b : CharSet) : CharSet :=
  ⟨interRanges (a.ranges.length + b.ranges.length) a.ranges b.ranges⟩

/-- The characters of `a` that are not in `b`. -/
def diff (a b : CharSet) : CharSet :=
  inter a ⟨b.gaps.filter fun (first, last) => first ≤ last⟩

/-- The characters in one of the two sets only. -/
def symmDiff (a b : CharSet) : CharSet := diff (union a b) (inter a b)

def isAscii (s : CharSet) : Bool := s.ranges.all fun (_, last) => last < 128

/-- The only member, if there is just one. -/
def only? (s : CharSet) : Option Char :=
  match s.ranges with
  | [(first, last)] => if first = last then some (Char.ofNat first) else none
  | _ => none

/-- The ranges of a set in the form in which single characters are looked up. -/
def table (s : CharSet) : Array (Nat × Nat) := s.ranges.toArray

/-- One of the ranges from place `low` up to place `high` holds a character. The first argument
bounds the steps. -/
def tableHolds (table : Array (Nat × Nat)) (code : Nat) : Nat → Nat → Nat → Bool
  | 0, _, _ => false
  | steps + 1, low, high =>
    let middle := (low + high) / 2
    if low < high then
      match table[middle]? with
      | some (first, last) =>
        if code < first then tableHolds table code steps low middle
        else if last < code then tableHolds table code steps (middle + 1) high
        else true
      | none => false
    else false

def lookUp (table : Array (Nat × Nat)) (code : Nat) : Bool :=
  tableHolds table code (table.size + 1) 0 table.size

/-- Every character that does not represent its letter, with the one that does. -/
def casePairs : List (Nat × Nat) :=
  Unicode.caseRuns.flatMap fun run =>
    (List.range ((run.last - run.first) / run.step + 1)).map fun i =>
      (run.first + run.step * i, run.first + run.step * i - run.back)

/-- The characters that differ from a member in case at most. -/
def anyCase (s : CharSet) : CharSet :=
  let members := s.table
  let letters := casePairs.filterMap fun (code, representative) =>
    if lookUp members code || lookUp members representative then some representative else none
  if letters = [] then s
  else
    let found := ofCodes letters
    let letters := found.table
    let others := casePairs.filterMap fun (code, representative) =>
      if lookUp letters representative then some (code, code) else none
    ofRanges (s.ranges ++ found.ranges ++ others)

/-- The characters that differ from a member in case at most, by the letters of ASCII alone. -/
def anyAsciiCase (s : CharSet) : CharSet :=
  let shifted (first last : Nat) (move : Nat → Nat) : List (Nat × Nat) :=
    (s.inter (range first last)).ranges.map fun (a, b) => (move a, move b)
  ofRanges (s.ranges ++ shifted 65 90 (· + 32) ++ shifted 97 122 (· - 32))

def digit : CharSet := ⟨Unicode.digitRanges⟩

def blank : CharSet := ⟨Unicode.blankRanges⟩

def word : CharSet := ⟨Unicode.wordRanges⟩

def asciiDigit : CharSet := ofChars [('0', '9')]

def asciiBlank : CharSet := ofChars [('\t', '\r'), (' ', ' ')]

def asciiWord : CharSet := ofChars [('0', '9'), ('A', 'Z'), ('_', '_'), ('a', 'z')]

def named? (name : String) : Option CharSet :=
  match name with
  | "alnum" => some (ofChars [('0', '9'), ('A', 'Z'), ('a', 'z')])
  | "alpha" => some (ofChars [('A', 'Z'), ('a', 'z')])
  | "ascii" => some (range 0 127)
  | "blank" => some (ofChars [('\t', '\t'), (' ', ' ')])
  | "cntrl" => some (ofRanges [(0, 31), (127, 127)])
  | "digit" => some asciiDigit
  | "graph" => some (ofChars [('!', '~')])
  | "lower" => some (ofChars [('a', 'z')])
  | "print" => some (ofChars [(' ', '~')])
  | "punct" => some (ofChars [('!', '/'), (':', '@'), ('[', '\x60'), ('\x7b', '~')])
  | "space" => some asciiBlank
  | "upper" => some (ofChars [('A', 'Z')])
  | "word" => some asciiWord
  | "xdigit" => some (ofChars [('0', '9'), ('A', 'F'), ('a', 'f')])
  | _ => none

end CharSet

end ShapedGraph
