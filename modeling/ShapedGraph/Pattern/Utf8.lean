import ShapedGraph.Pattern.CharSet

/-! The bytes of characters. The encodings of a range of characters are a list of byte sequences, in
each of which every byte has a range of its own, independent of the others. -/

namespace ShapedGraph.Utf8

abbrev ByteRange := Nat × Nat

def bytes (code : Nat) : List Nat :=
  if code < 0x80 then [code]
  else if code < 0x800 then [0xC0 + code / 64, 0x80 + code % 64]
  else if code < 0x10000 then [0xE0 + code / 4096, 0x80 + code / 64 % 64, 0x80 + code % 64]
  else
    [0xF0 + code / 262144, 0x80 + code / 4096 % 64, 0x80 + code / 64 % 64, 0x80 + code % 64]

/-- Cuts a range behind a character that is not its last one. -/
def cutBehind (code : Nat) (r : Nat × Nat) : List (Nat × Nat) :=
  if r.1 ≤ code ∧ code < r.2 then [(r.1, code), (code + 1, r.2)] else [r]

/-- The parts of a range without the surrogates. -/
def withoutSurrogates (r : Nat × Nat) : List (Nat × Nat) :=
  [(r.1, min r.2 0xD7FF), (max r.1 0xE000, r.2)].filter fun (first, last) => first ≤ last

/-- Cuts off what stands in front of the first whole block of a size and behind the last one, if a
range reaches into more than one block. The range does not begin with the first character. -/
def cutBlocks (size : Nat) (r : Nat × Nat) : List (Nat × Nat) :=
  if r.1 / size = r.2 / size then [r]
  else
    let start := (r.1 + size - 1) / size * size
    let stop := (r.2 + 1) / size * size
    [(r.1, start - 1), (start, stop - 1), (stop, r.2)].filter fun (first, last) => first ≤ last

/-- The byte sequences that encode the characters of a range, in order. -/
def sequences (r : Nat × Nat) : List (List ByteRange) :=
  let parts := ((withoutSurrogates r).flatMap (cutBehind 0x7F)).flatMap fun r =>
    (cutBehind 0x7FF r).flatMap (cutBehind 0xFFFF)
  parts.flatMap fun r =>
    if r.2 < 0x80 then [[r]]
    else
      (((cutBlocks 64 r).flatMap (cutBlocks 4096)).flatMap (cutBlocks 262144)).map fun r =>
        (bytes r.1).zip (bytes r.2)

end ShapedGraph.Utf8
