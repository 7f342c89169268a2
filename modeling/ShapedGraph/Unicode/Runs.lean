/-! The written form of sets of characters. A set is written as its runs, one word each: how many
characters lie between the last run and this one, and behind a point how many follow the first one
of the run. The numbers are hexadecimal, and the words are in lines. -/

namespace ShapedGraph.Unicode

/-- A set of characters, as runs, with the names it goes by. Names are written in lower case and
without blanks. -/
structure NamedRuns where
  names : List String
  runs : List String

/-- What has been read of a list of runs. -/
structure RunReader where
  /-- The runs so far, first and last character each, in reverse. -/
  found : List (Nat × Nat)
  /-- The first character behind these runs. -/
  next : Nat
  /-- The first character of the run that is being read, once it is known. -/
  first : Option Nat
  /-- The number that is being read. -/
  value : Nat

namespace RunReader

def close (r : RunReader) : RunReader :=
  match r.first with
  | some first => ⟨(first, first + r.value) :: r.found, first + r.value + 1, none, 0⟩
  | none => ⟨(r.next + r.value, r.next + r.value) :: r.found, r.next + r.value + 1, none, 0⟩

def read (r : RunReader) (c : Char) : RunReader :=
  if c = ' ' then r.close
  else if c = '.' then { r with first := some (r.next + r.value), value := 0 }
  else { r with value := 16 * r.value + (if c.isDigit then c.toNat - 48 else c.toNat - 87) }

end RunReader

/-- First and last character of each run that lines of words write. -/
def readRuns (lines : List String) : List (Nat × Nat) :=
  let reader := lines.foldl
    (fun r line => (line.toList.foldl RunReader.read r).close) (⟨[], 0, none, 0⟩ : RunReader)
  reader.found.reverse

end ShapedGraph.Unicode
