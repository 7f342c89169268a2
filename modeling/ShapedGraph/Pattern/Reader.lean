import ShapedGraph.Pattern.Expression
import ShapedGraph.Pattern.Property

/-! Reading of regular expressions. The syntax has classes with set operations, counted and lazy
repetition, named groups and flags for parts of an expression; it has neither look-around nor
references to groups, and an escape must have a meaning. A pattern must not be nested too deeply:
groups, repetitions, classes, and sequences, choices and classes of more than one item count as one
level each. -/

namespace ShapedGraph.Pattern

structure Flags where
  anyCase : Bool
  multiLine : Bool
  dotAll : Bool
  /-- A mark behind a repetition makes it greedy, and it is lazy without. -/
  lazyFirst : Bool
  /-- Classes and boundaries of words take all scripts into account. -/
  unicode : Bool
  /-- Lines may end with a carriage return. -/
  anyLineEnd : Bool
  /-- Blanks count for nothing, and a number sign begins a comment. -/
  verbose : Bool

namespace Flags

/-- The modes at the start of a pattern. -/
def plain : Flags := ⟨false, false, false, false, true, false, false⟩

/-- A set, without regard to case if the flags say so. -/
def fold (flags : Flags) (set : CharSet) : CharSet :=
  if flags.anyCase then if flags.unicode then set.anyCase else set.anyAsciiCase else set

/-- A set or what is not in it. Outside of Unicode a set may not go beyond ASCII. -/
def signed (flags : Flags) (negated : Bool) (set : CharSet) : Option CharSet :=
  if flags.unicode then some (if negated then set.compl else set)
  else if negated || !set.isAscii then none
  else some set

/-- The set that items of a class give. -/
def finish (flags : Flags) (negated : Bool) (set : CharSet) : Option CharSet :=
  flags.signed negated (flags.fold set)

def literal (flags : Flags) (c : Char) : Expression :=
  if flags.anyCase then
    if flags.unicode then .ofSet (.ofCodes (Unicode.caseVariants c.toNat))
    else .ofSet (CharSet.singleton c).anyAsciiCase
  else .literal [c]

/-- Any character but those that end a line. Outside of Unicode this goes beyond ASCII. -/
def dot (flags : Flags) : Option Expression :=
  if !flags.unicode then none
  else if flags.dotAll then some (.chars .full)
  else if flags.anyLineEnd then some (.chars (CharSet.ofCodes [10, 13]).compl)
  else some (.chars (CharSet.range 10 10).compl)

def lineStart (flags : Flags) : Look :=
  if !flags.multiLine then .textStart else if flags.anyLineEnd then .anyLineStart else .lineStart

def lineEnd (flags : Flags) : Look :=
  if !flags.multiLine then .textEnd else if flags.anyLineEnd then .anyLineEnd else .lineEnd

def boundary (flags : Flags) (kind : Boundary) : Look := .boundary kind !flags.unicode

end Flags

def isBlank (c : Char) : Bool := CharSet.blank.mem c.toNat

/-- What is behind blanks and comments. The first argument says that a comment has begun. -/
def skipBlanks : Bool → List Char → List Char
  | _, [] => []
  | true, c :: cs => skipBlanks (c != '\n') cs
  | false, c :: cs =>
    if isBlank c then skipBlanks false cs else if c = '#' then skipBlanks true cs else c :: cs
termination_by structural _ cs => cs

/-- What is behind blanks and comments, if the flags let them be skipped. -/
def Flags.skip (flags : Flags) (cs : List Char) : List Char :=
  if flags.verbose then skipBlanks false cs else cs

/-- What braces hold behind the opening one, without what is skipped, and what is behind them. The
second argument says that a comment has begun, and the third one is what has been read, in
reverse. -/
def readBraced (verbose : Bool) : Bool → List Char → List Char → Option (List Char × List Char)
  | _, _, [] => none
  | true, found, c :: cs => readBraced verbose (c != '\n') found cs
  | false, found, c :: cs =>
    if c = '\x7d' then some (found.reverse, cs)
    else if verbose && isBlank c then readBraced verbose false found cs
    else if verbose && c == '#' then readBraced verbose true found cs
    else readBraced verbose false (c :: found) cs
termination_by structural _ _ cs => cs

def takeChars (flags : Flags) : Nat → List Char → Option (List Char × List Char)
  | 0, cs => some ([], cs)
  | _ + 1, [] => none
  | n + 1, c :: cs => (takeChars flags n (flags.skip cs)).map fun (ds, cs) => (c :: ds, cs)

inductive Escape where
  | char (c : Char)
  | set (members : CharSet)
  | look (condition : Look)

def hexValue? (c : Char) : Option Nat :=
  if '0' ≤ c ∧ c ≤ '9' then some (c.toNat - 48)
  else if 'a' ≤ c ∧ c ≤ 'f' then some (c.toNat - 87)
  else if 'A' ≤ c ∧ c ≤ 'F' then some (c.toNat - 55)
  else none

def hexChar? (ds : List Char) : Option Char := do
  let code ← ds.foldlM (fun value d => (hexValue? d).map (16 * value + ·)) 0
  if code.isValidChar then some (Char.ofNat code) else none

/-- A character by its number: in braces, or in as many digits as the letter of the escape asks. Two
digits outside of Unicode write a byte, which must be a character by itself. -/
def readHex (flags : Flags) (width : Nat) (cs : List Char) : Option (Escape × List Char) :=
  match flags.skip cs with
  | '\x7b' :: cs => do
    let (ds, cs) ← readBraced flags.verbose false [] cs
    if ds = [] then none else some (.char (← hexChar? ds), cs)
  | cs => do
    let (ds, cs) ← takeChars flags width cs
    let c ← hexChar? ds
    if width = 2 ∧ !flags.unicode ∧ 128 ≤ c.toNat then none else some (.char c, cs)

/-- The parts of a list in front of a mark and behind it. -/
def cutAt (mark : List Char) : List Char → Option (List Char × List Char)
  | [] => none
  | c :: cs =>
    if mark.isPrefixOf (c :: cs) then some ([], (c :: cs).drop mark.length)
    else (cutAt mark cs).map fun (front, rest) => (c :: front, rest)

/-- The set of a property that is written by its name, or with a value. Every mark between the two
asks for the characters that have the value. -/
def property? (text : List Char) : Option CharSet :=
  match ((cutAt ['!', '='] text).or (cutAt [':'] text)).or (cutAt ['='] text) with
  | some (name, value) => CharSet.ofValue? (String.ofList name) (String.ofList value)
  | none => CharSet.ofName? (String.ofList text)

/-- A property, by one letter or in braces. -/
def readProperty (flags : Flags) (negated : Bool) (cs : List Char) :
    Option (Escape × List Char) := do
  let (text, cs) ←
    match flags.skip cs with
    | '\x7b' :: cs => readBraced flags.verbose false [] cs
    | '\\' :: _ | [] => none
    | c :: cs => some ([c], cs)
  if flags.unicode then some (.set (← flags.finish negated (← property? text)), cs) else none

/-- A boundary of a word. Its letter may be followed by the name of a side in braces; braces that
do not hold a name belong to what follows. -/
def readBoundary (flags : Flags) (cs : List Char) : Option (Escape × List Char) :=
  match cs with
  | '\x7b' :: inside =>
    match flags.skip inside with
    | [] => none
    | c :: _ =>
      if c.isAlpha || c == '-' then do
        let (name, rest) ← readBraced flags.verbose false [] inside
        let kind : Boundary ←
          match String.ofList name with
          | "start" => some .start
          | "end" => some .stop
          | "start-half" => some .startHalf
          | "end-half" => some .stopHalf
          | _ => none
        some (.look (flags.boundary kind), rest)
      else some (.look (flags.boundary .either), cs)
  | _ => some (.look (flags.boundary .either), cs)

/-- The set of a letter, in Unicode or outside of it. -/
def letterSet (flags : Flags) (negated : Bool) (all ascii : CharSet) : Option Escape :=
  (flags.signed negated (if flags.unicode then all else ascii)).map .set

/-- An escape behind its backslash. Punctuation of ASCII stands for itself. -/
def readEscape (flags : Flags) : List Char → Option (Escape × List Char)
  | [] => none
  | c :: cs =>
    match c with
    | 'd' => (letterSet flags false .digit .asciiDigit).map (·, cs)
    | 'D' => (letterSet flags true .digit .asciiDigit).map (·, cs)
    | 's' => (letterSet flags false .blank .asciiBlank).map (·, cs)
    | 'S' => (letterSet flags true .blank .asciiBlank).map (·, cs)
    | 'w' => (letterSet flags false .word .asciiWord).map (·, cs)
    | 'W' => (letterSet flags true .word .asciiWord).map (·, cs)
    | 'p' => readProperty flags false cs
    | 'P' => readProperty flags true cs
    | 'a' => some (.char '\x07', cs)
    | 'f' => some (.char '\x0c', cs)
    | 't' => some (.char '\t', cs)
    | 'n' => some (.char '\n', cs)
    | 'r' => some (.char '\r', cs)
    | 'v' => some (.char '\x0b', cs)
    | 'x' => readHex flags 2 cs
    | 'u' => readHex flags 4 cs
    | 'U' => readHex flags 8 cs
    | 'A' => some (.look .textStart, cs)
    | 'z' => some (.look .textEnd, cs)
    | 'b' => readBoundary flags cs
    | 'B' => some (.look (flags.boundary .neither), cs)
    | '<' => some (.look (flags.boundary .start), cs)
    | '>' => some (.look (flags.boundary .stop), cs)
    | c => if c.toNat < 128 ∧ !c.isAlphanum then some (.char c, cs) else none

/-- One end of a range in a class, or a whole set. -/
def readClassItem (flags : Flags) : List Char → Option (Escape × List Char)
  | [] => none
  | '\\' :: cs => readEscape flags cs
  | c :: cs => some (.char c, cs)

/-- A range in a class. Outside of Unicode its ends are characters of ASCII. -/
def Flags.charRange (flags : Flags) (first last : Char) : Option CharSet :=
  if last < first ∨ (!flags.unicode ∧ 128 ≤ last.toNat) then none
  else some (.range first.toNat last.toNat)

/-- The character that decides whether a dash makes a range. Where blanks are skipped, so is the
sign that begins a comment, but not the comment. -/
def Flags.behindDash (flags : Flags) (cs : List Char) : Option Char :=
  if flags.verbose then
    match cs.dropWhile isBlank with
    | '#' :: rest => (rest.dropWhile isBlank).head?.or cs.head?
    | rest => rest.head?.or cs.head?
  else cs.head?

/-- An item of a class: a character, a range of them, or the set of an escape. -/
def readClassRange (flags : Flags) (cs : List Char) : Option (CharSet × List Char) := do
  let (first, cs) ← readClassItem flags cs
  let cs := flags.skip cs
  let alone : Option CharSet :=
    match first with
    | .char c => flags.charRange c c
    | .set members => some members
    | .look _ => none
  match cs with
  | '-' :: rest =>
    match flags.behindDash rest with
    | some ']' | some '-' => return (← alone, cs)
    | _ =>
      match first, ← readClassItem flags (flags.skip rest) with
      | .char a, (.char b, rest) => return (← flags.charRange a b, rest)
      | _, _ => none
  | [] => none
  | cs => return (← alone, cs)

/-- A named class of ASCII behind its opening bracket, if one is written there. -/
def readNamedClass : List Char → Option (Bool × CharSet × List Char)
  | ':' :: cs => do
    let (negated, cs) := match cs with
      | '^' :: more => (true, more)
      | _ => (false, cs)
    let name := cs.takeWhile (· ≠ ':')
    match cs.drop name.length with
    | ':' :: ']' :: rest => some (negated, ← CharSet.named? (String.ofList name), rest)
    | _ => none
  | _ => none

/-- A set with the depth to which its parts are nested. -/
structure ClassPart where
  set : CharSet
  depth : Nat

/-- The depth of a list of parts. A single one does not add a level. -/
def depthOf : List Nat → Nat
  | [] => 0
  | [depth] => depth
  | depths => depths.foldl max 0 + 1

def ClassPart.ofItems (items : List ClassPart) : ClassPart :=
  ⟨.unions (items.map (·.set)), depthOf (items.map (·.depth))⟩

/-- The operations between the parts of a class. -/
inductive SetOperation where
  | inter
  | diff
  | symmDiff

def SetOperation.apply (flags : Flags) (a b : CharSet) : SetOperation → CharSet
  | .inter => (flags.fold a).inter (flags.fold b)
  | .diff => (flags.fold a).diff (flags.fold b)
  | .symmDiff => (flags.fold a).symmDiff (flags.fold b)

/-- A part of a class joined to the parts in front of it; operations group to the left. -/
def closePart (flags : Flags) (pending : Option (SetOperation × ClassPart))
    (items : List ClassPart) : ClassPart :=
  let part := ClassPart.ofItems items
  match pending with
  | none => part
  | some (operation, left) =>
    ⟨operation.apply flags left.set part.set, max left.depth part.depth + 1⟩

/-- The dashes that stand for themselves at the start of a class. The first argument bounds the
steps. -/
def readDashes (flags : Flags) : Nat → List ClassPart → List Char → List ClassPart × List Char
  | steps + 1, items, '-' :: cs =>
    readDashes flags steps (⟨.singleton '-', 0⟩ :: items) (flags.skip cs)
  | _, items, cs => (items, cs)

/-- The start of a class behind its opening bracket: its negation, and the dashes or the closing
bracket that stand for themselves there. The first argument bounds the steps. -/
def readClassStart (steps : Nat) (flags : Flags) (cs : List Char) :
    Bool × List ClassPart × List Char :=
  let (negated, cs) := match flags.skip cs with
    | '^' :: more => (true, flags.skip more)
    | cs => (false, cs)
  match readDashes flags steps [] cs with
  | ([], ']' :: more) => (negated, [⟨.singleton ']', 0⟩], more)
  | (items, cs) => (negated, items, cs)

/-- The rest of a class up to its closing bracket, behind the pending operation and the items that
have been read, in reverse. The first argument bounds the steps, and the second one the nesting. -/
def readClass : Nat → Nat → Flags → Bool → Option (SetOperation × ClassPart) → List ClassPart →
    List Char → Option (ClassPart × List Char)
  | 0, _, _, _, _, _, _ => none
  | steps + 1, room, flags, negated, pending, items, cs =>
    match flags.skip cs with
    | [] => none
    | ']' :: rest => do
      let part := closePart flags pending items
      some (⟨← flags.finish negated part.set, part.depth + 1⟩, rest)
    | '&' :: '&' :: rest =>
      readClass steps room flags negated (some (.inter, closePart flags pending items)) [] rest
    | '-' :: '-' :: rest =>
      readClass steps room flags negated (some (.diff, closePart flags pending items)) [] rest
    | '~' :: '~' :: rest =>
      readClass steps room flags negated (some (.symmDiff, closePart flags pending items)) [] rest
    | '[' :: rest =>
      match readNamedClass rest, room with
      | some (inverse, set, rest), _ => do
        let item : ClassPart := ⟨← flags.finish inverse set, 0⟩
        readClass steps room flags negated pending (item :: items) rest
      | none, 0 => none
      | none, inside + 1 => do
        let (inverse, first, rest) := readClassStart steps flags rest
        let (part, rest) ← readClass steps inside flags inverse none first rest
        readClass steps room flags negated pending (part :: items) rest
    | cs => do
      let (set, rest) ← readClassRange flags cs
      readClass steps room flags negated pending (⟨set, 0⟩ :: items) rest
termination_by structural steps => steps

/-- A whole class behind its opening bracket. The first argument bounds the steps. -/
def readBracketed (steps : Nat) (flags : Flags) (cs : List Char) :
    Option (ClassPart × List Char) :=
  let (negated, first, rest) := readClassStart steps flags cs
  readClass steps Expression.nestingLimit flags negated none first rest

/-- What has been read of a number: its value, if there is a digit. The second argument says that a
comment has begun. -/
def readDigits (verbose : Bool) : Bool → Option Nat → List Char → Option Nat × List Char
  | _, value, [] => (value, [])
  | true, value, c :: cs => readDigits verbose (c != '\n') value cs
  | false, value, c :: cs =>
    if c.isDigit then readDigits verbose false (some (10 * value.getD 0 + (c.toNat - 48))) cs
    else if verbose && value.isSome && isBlank c then readDigits verbose false value cs
    else if verbose && value.isSome && c == '#' then readDigits verbose true value cs
    else (value, c :: cs)
termination_by structural _ _ cs => cs

/-- A number in the braces of a repetition, with the blanks around it. -/
def readCount (flags : Flags) (cs : List Char) : Option Nat × List Char :=
  let (value, rest) := readDigits flags.verbose false none (cs.dropWhile isBlank)
  (value.filter (· < UInt32.size), rest.dropWhile isBlank)

/-- The bounds of a counted repetition behind its opening brace. The lower one may not be left
out, nor exceed the upper one. -/
def readBounds (flags : Flags) (cs : List Char) : Option (Nat × Option Nat × List Char) :=
  match readCount flags (flags.skip cs) with
  | (some least, '\x7d' :: rest) => some (least, some least, rest)
  | (some least, ',' :: rest) =>
    match flags.skip rest with
    | '\x7d' :: rest => some (least, none, rest)
    | rest =>
      match readCount flags rest with
      | (some most, '\x7d' :: rest) =>
        if least ≤ most then some (least, some most, rest) else none
      | _ => none
  | _ => none

def Flags.switch (flags : Flags) (on : Bool) : Char → Option Flags
  | 'i' => some { flags with anyCase := on }
  | 'm' => some { flags with multiLine := on }
  | 's' => some { flags with dotAll := on }
  | 'U' => some { flags with lazyFirst := on }
  | 'u' => some { flags with unicode := on }
  | 'R' => some { flags with anyLineEnd := on }
  | 'x' => some { flags with verbose := on }
  | _ => none

/-- Flags up to the mark behind them. Those behind a hyphen are switched off; none may be written
twice, and a hyphen must have one behind it. The third argument holds what has been read. -/
def readFlags (on : Bool) (seen : List Char) (flags : Flags) :
    List Char → Option (Flags × List Char × List Char)
  | [] => none
  | c :: cs =>
    if c = ':' ∨ c = ')' then
      if seen.head? = some '-' then none else some (flags, seen, c :: cs)
    else if seen.contains c then none
    else if c = '-' then readFlags false ('-' :: seen) flags cs
    else
      match flags.switch on c with
      | some flags => readFlags on (c :: seen) flags cs
      | none => none

inductive Opening where
  /-- Flags for the rest of the group around them. -/
  | flags (flags : Flags)
  /-- The start of a group that is counted, with its name if it has one. -/
  | group (name : Option String)
  /-- The start of a group for flags alone. -/
  | plain (flags : Flags)

/-- The characters of a group's name after the first one. -/
def nameChars : CharSet :=
  .unions [.alphabetic, .categories ["nd", "nl", "no"], .ofCodes [0x2E, 0x5B, 0x5D, 0x5F]]

def nameStarts : CharSet := CharSet.alphabetic.union (.singleton '_')

/-- The name of a group up to the bracket that closes it. -/
def readName (cs : List Char) : Option (String × List Char) :=
  let name := cs.takeWhile (· ≠ '>')
  match name, cs.drop name.length with
  | first :: others, _ :: rest =>
    if nameStarts.mem first.toNat ∧ others.all (nameChars.mem ·.toNat) then
      some (String.ofList name, rest)
    else none
  | _, _ => none

def readOpening (flags : Flags) (cs : List Char) : Option (Opening × List Char) :=
  match flags.skip cs with
  | '?' :: 'P' :: '<' :: cs => (readName cs).map fun (name, rest) => (.group (some name), rest)
  | '?' :: '<' :: cs => (readName cs).map fun (name, rest) => (.group (some name), rest)
  | '?' :: cs => do
    let (inner, seen, rest) ← readFlags true [] flags cs
    match rest with
    | ':' :: rest => some (.plain inner, rest)
    | ')' :: rest => if seen = [] then none else some (.flags inner, rest)
    | _ => none
  | cs => some (.group none, cs)

/-- A part of an expression with the depth to which its own parts are nested. -/
structure Item where
  expression : Expression
  depth : Nat
  /-- A repetition may follow. -/
  repeatable : Bool

/-- What has been read of a group: the alternatives that are finished, with their depths, and the
items of the present one. The lists are in reverse. -/
structure Partial where
  alternatives : List (Expression × Nat)
  items : List Item
  /-- The names of groups that have been used in the pattern. -/
  names : List String

namespace Partial

def start (names : List String) : Partial := ⟨[], [], names⟩

def push (p : Partial) (expression : Expression) (depth : Nat) : Partial :=
  { p with items := ⟨expression, depth, true⟩ :: p.items }

/-- Flags take the place of an item, but nothing can be done with it. -/
def pushFlags (p : Partial) : Partial := { p with items := ⟨.empty, 0, false⟩ :: p.items }

/-- The items of the present alternative, one after the other. -/
def alternative (p : Partial) : Expression × Nat :=
  (.sequenceOf (p.items.reverse.map (·.expression)), depthOf (p.items.map (·.depth)))

def branch (p : Partial) : Partial :=
  { p with alternatives := p.alternative :: p.alternatives, items := [] }

def result (p : Partial) : Expression × Nat :=
  match p.alternatives with
  | [] => p.alternative
  | alternatives =>
    let all := (p.alternative :: alternatives).reverse
    (.choiceOf (all.map (·.1)), depthOf (all.map (·.2)))

/-- Repeats the last item, if there is one. -/
def repeated (p : Partial) (least : Nat) (most : Option Nat) (isLazy : Bool) : Option Partial :=
  match p.items with
  | item :: items =>
    if item.repeatable then
      some { p with items :=
        ⟨item.expression.repeated least most isLazy, item.depth + 1, true⟩ :: items }
    else none
  | [] => none

end Partial

/-- The mark of a lazy repetition, if it is there, and what follows. -/
def readLazy (flags : Flags) : List Char → Bool × List Char
  | '?' :: cs => (!flags.lazyFirst, cs)
  | cs => (flags.lazyFirst, cs)

/-- The rest of a group, behind what has been read of it, up to the parenthesis that closes it or
the end. The first argument bounds the steps, and the second one the nesting of groups. -/
def readGroup : Nat → Nat → Flags → Partial → List Char → Option (Partial × List Char)
  | 0, _, _, _, _ => none
  | steps + 1, room, flags, p, cs =>
    match flags.skip cs with
    | [] => some (p, [])
    | ')' :: cs => some (p, ')' :: cs)
    | '|' :: cs => readGroup steps room flags p.branch cs
    | '*' :: cs => do
      let (isLazy, cs) := readLazy flags cs
      readGroup steps room flags (← p.repeated 0 none isLazy) cs
    | '+' :: cs => do
      let (isLazy, cs) := readLazy flags cs
      readGroup steps room flags (← p.repeated 1 none isLazy) cs
    | '?' :: cs => do
      let (isLazy, cs) := readLazy flags cs
      readGroup steps room flags (← p.repeated 0 (some 1) isLazy) cs
    | '\x7b' :: cs => do
      let (least, most, cs) ← readBounds flags cs
      let (isLazy, cs) := readLazy flags (flags.skip cs)
      readGroup steps room flags (← p.repeated least most isLazy) cs
    | '(' :: cs => do
      match ← readOpening flags cs, room with
      | (.flags inner, cs), _ => readGroup steps room inner p.pushFlags cs
      | (.plain inner, cs), inside + 1 => do
        let (body, cs) ← readGroup steps inside inner (.start p.names) cs
        match cs with
        | ')' :: cs =>
          let (expression, depth) := body.result
          readGroup steps room flags
            { p.push expression (depth + 1) with names := body.names } cs
        | _ => none
      | (.group name, cs), inside + 1 => do
        if name.any p.names.contains then none
        else
          let (body, cs) ← readGroup steps inside flags (.start (name.toList ++ p.names)) cs
          match cs with
          | ')' :: cs =>
            let (expression, depth) := body.result
            readGroup steps room flags
              { p.push (.group expression) (depth + 1) with names := body.names } cs
          | _ => none
      | _, 0 => none
    | '[' :: cs => do
      let (part, cs) ← readBracketed steps flags cs
      readGroup steps room flags (p.push (.ofSet part.set) part.depth) cs
    | '.' :: cs => do readGroup steps room flags (p.push (← flags.dot) 0) cs
    | '^' :: cs => readGroup steps room flags (p.push (.look flags.lineStart) 0) cs
    | '$' :: cs => readGroup steps room flags (p.push (.look flags.lineEnd) 0) cs
    | '\\' :: cs => do
      let (escape, cs) ← readEscape flags cs
      let item : Expression :=
        match escape with
        | .char c => flags.literal c
        | .set members => .ofSet members
        | .look condition => .look condition
      readGroup steps room flags (p.push item 0) cs
    | c :: cs => readGroup steps room flags (p.push (flags.literal c) 0) cs
termination_by structural steps => steps

def readExpression (text : String) : Option Expression := do
  let cs := text.toList
  let (p, rest) ← readGroup (cs.length + 1) Expression.nestingLimit .plain (.start []) cs
  let (expression, depth) := p.result
  if rest = [] ∧ depth ≤ Expression.nestingLimit then some expression else none

end ShapedGraph.Pattern
