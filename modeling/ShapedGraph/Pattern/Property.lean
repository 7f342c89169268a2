import ShapedGraph.Pattern.CharSet
import ShapedGraph.Unicode.Age
import ShapedGraph.Unicode.Break
import ShapedGraph.Unicode.Category
import ShapedGraph.Unicode.Property
import ShapedGraph.Unicode.Script

/-! Sets of characters by the names of their properties: general categories, scripts, binary
properties, versions, and the classes of the breaks between clusters, words and sentences. Names
are in lower case and without blanks, underscores or hyphens. -/

namespace ShapedGraph.CharSet

def ofRuns (lines : List String) : CharSet := ⟨Unicode.readRuns lines⟩

/-- The set that goes by a name in a list. -/
def inList? (rows : List Unicode.NamedRuns) (name : String) : Option CharSet :=
  (rows.find? (·.names.contains name)).map fun row => ofRuns row.runs

/-- The union of the general categories with the names. -/
def categories (names : List String) : CharSet :=
  unions (names.filterMap (inList? Unicode.categories))

/-- A property that is given by a list. -/
def listed (name : String) : CharSet := (inList? Unicode.listedProperties name).getD empty

def letters : CharSet := categories ["lu", "ll", "lt", "lm", "lo"]

def marks : CharSet := categories ["mn", "mc", "me"]

def unassigned : CharSet := (unions (Unicode.categories.map fun row => ofRuns row.runs)).compl

/-- A general category or a group of them. Surrogates are a part of the group of all that is
neither a letter nor a mark, number, sign or separator. -/
def category? (name : String) : Option CharSet :=
  match name with
  | "any" => some full
  | "assigned" => some unassigned.compl
  | "ascii" => some (range 0 127)
  | "cn" | "unassigned" => some unassigned
  | "c" | "other" =>
    some (unions [categories ["cc", "cf", "co"], unassigned, range 0xD800 0xDFFF])
  | "lc" | "casedletter" => some (categories ["lu", "ll", "lt"])
  | "l" | "letter" => some letters
  | "m" | "mark" | "combiningmark" => some marks
  | "n" | "number" => some (categories ["nd", "nl", "no"])
  | "p" | "punctuation" | "punct" =>
    some (categories ["pc", "pd", "ps", "pe", "pi", "pf", "po"])
  | "s" | "symbol" => some (categories ["sm", "sc", "sk", "so"])
  | "z" | "separator" => some (categories ["zs", "zl", "zp"])
  | name => inList? Unicode.categories name

def script? (name : String) : Option CharSet :=
  (Unicode.scripts.find? (·.names.contains name)).map fun script => ofRuns script.own

/-- The characters that are used in a script. No character is common or inherited that is used in
particular scripts. -/
def scriptExtension? (name : String) : Option CharSet :=
  (Unicode.scripts.find? (·.names.contains name)).map fun script =>
    if script.names.contains "common" || script.names.contains "inherited" then
      (ofRuns script.own).diff (unions (Unicode.scripts.map fun script => ofRuns script.borrowed))
    else (ofRuns script.own).union (ofRuns script.borrowed)

/-- The characters that a version of Unicode has, added by it or by an earlier one. -/
def age? (name : String) : Option CharSet :=
  (Unicode.ages.findIdx? (·.names.contains name)).map fun place =>
    unions ((Unicode.ages.take (place + 1)).map fun row => ofRuns row.runs)

def lowercase : CharSet := (categories ["ll"]).union (listed "otherlowercase")

def uppercase : CharSet := (categories ["lu"]).union (listed "otheruppercase")

def alphabetic : CharSet := unions [letters, categories ["nl"], listed "otheralphabetic"]

def graphemeExtend : CharSet := (categories ["me", "mn"]).union (listed "othergraphemeextend")

/-- The characters that patterns have a use for. -/
def patternSigns : CharSet := (listed "patternsyntax").union (listed "patternwhitespace")

def idStart : CharSet :=
  diff (unions [letters, categories ["nl"], listed "otheridstart"]) patternSigns

def idContinue : CharSet :=
  diff (unions [idStart, categories ["mn", "mc", "nd", "pc"], listed "otheridcontinue"])
    patternSigns

/-- The characters whose compatibility forms cannot continue identifiers. -/
def unstableContinue : CharSet :=
  ofRanges [(0x37A, 0x37A), (0x309B, 0x309C), (0xFC5E, 0xFC63), (0xFDFA, 0xFDFB),
    (0xFE70, 0xFE70), (0xFE72, 0xFE72), (0xFE74, 0xFE74), (0xFE76, 0xFE76), (0xFE78, 0xFE78),
    (0xFE7A, 0xFE7A), (0xFE7C, 0xFE7C), (0xFE7E, 0xFE7E)]

/-- The characters whose compatibility forms cannot start identifiers. -/
def unstableStart : CharSet :=
  unstableContinue.union
    (ofRanges [(0xE33, 0xE33), (0xEB3, 0xEB3), (0xFF9E, 0xFF9F)])

/-- The signs inside words that do not affect case. -/
def wordSigns : CharSet :=
  ofCodes [0x27, 0x2E, 0x3A, 0xB7, 0x387, 0x55F, 0x5F4, 0x2018, 0x2019, 0x2024, 0x2027, 0xFE13,
    0xFE52, 0xFE55, 0xFF07, 0xFF0E, 0xFF1A]

/-- The last two characters of each plane, and a block of 32 characters. -/
def nonCharacters : CharSet :=
  ofRanges ((0xFDD0, 0xFDEF) ::
    (List.range 17).map fun plane => (0x10000 * plane + 0xFFFE, 0x10000 * plane + 0xFFFF))

def ignorable : CharSet :=
  diff (unions [listed "otherdefaultignorablecodepoint", categories ["cf"],
      listed "variationselector"])
    (unions [blank, ofRanges [(0xFFF9, 0xFFFB), (0x13430, 0x1343F)],
      listed "prependedconcatenationmark"])

def changesToLower : CharSet :=
  symmDiff (uppercase.union (categories ["lt"])) (ofRuns Unicode.lowerExceptions)

def changesToUpper : CharSet := symmDiff lowercase (ofRuns Unicode.upperExceptions)

def changesToTitle : CharSet := symmDiff changesToUpper (ofRuns Unicode.titleExceptions)

def binary? (name : String) : Option CharSet :=
  match name with
  | "alphabetic" | "alpha" => some alphabetic
  | "caseignorable" | "ci" =>
    some ((categories ["mn", "me", "cf", "lm", "sk"]).union wordSigns)
  | "cased" => some (unions [lowercase, uppercase, categories ["lt"]])
  | "changeswhencasefolded" | "cwcf" =>
    some (symmDiff changesToLower (ofRuns Unicode.foldExceptions))
  | "changeswhencasemapped" | "cwcm" =>
    some (unions [changesToLower, changesToUpper, changesToTitle])
  | "changeswhenlowercased" | "cwl" => some changesToLower
  | "changeswhentitlecased" | "cwt" => some changesToTitle
  | "changeswhenuppercased" | "cwu" => some changesToUpper
  | "defaultignorablecodepoint" | "di" => some ignorable
  | "graphemebase" | "grbase" =>
    some (unions [categories ["cc", "cf", "co", "zl", "zp"], unassigned, graphemeExtend,
      range 0xD800 0xDFFF]).compl
  | "graphemeextend" | "grext" => some graphemeExtend
  | "idcompatmathcontinue" =>
    some ((listed "idcompatmathstart").union
      (ofRanges [(0xB2, 0xB3), (0xB9, 0xB9), (0x2070, 0x2070), (0x2074, 0x207E),
        (0x2080, 0x208E)]))
  | "idcontinue" | "idc" => some idContinue
  | "idstart" | "ids" => some idStart
  | "lowercase" | "lower" => some lowercase
  | "math" => some ((categories ["sm"]).union (listed "othermath"))
  | "noncharactercodepoint" | "nchar" => some nonCharacters
  | "uppercase" | "upper" => some uppercase
  | "xidcontinue" | "xidc" => some (idContinue.diff unstableContinue)
  | "xidstart" | "xids" => some (idStart.diff unstableStart)
  | name => inList? Unicode.listedProperties name

/-- The characters of tags, which change the character in front of them. -/
def tags : CharSet := range 0xE0020 0xE007F

def regionalIndicator : CharSet := listed "regionalindicator"

def clusterExtend : CharSet := graphemeExtend.union (listed "emojimodifier")

/-- The syllables of hangul that end in a vowel. The others end in a consonant. -/
def openSyllables : CharSet := ofCodes ((List.range 399).map (0xAC00 + 28 * ·))

/-- The marks with a place of their own that do not belong to the cluster of the last
character. -/
def detachedMarks : CharSet :=
  ofRanges [(0x102B, 0x102C), (0x1038, 0x1038), (0x1062, 0x1064), (0x1067, 0x106D),
    (0x1083, 0x1083), (0x1087, 0x108C), (0x108F, 0x108F), (0x109A, 0x109C), (0x1A61, 0x1A61),
    (0x1A63, 0x1A64), (0xAA7B, 0xAA7B), (0xAA7D, 0xAA7D), (0x11720, 0x11721)]

def clusterBreak? (name : String) : Option CharSet :=
  match name with
  | "cr" => some (range 13 13)
  | "lf" => some (range 10 10)
  | "control" | "cn" =>
    some (diff (unions [categories ["zl", "zp", "cc", "cf"], unassigned.inter ignorable])
      (unions [ofCodes [10, 13, 0x200C, 0x200D], ofRuns Unicode.prepend, clusterExtend]))
  | "extend" | "ex" => some clusterExtend
  | "l" => some (ofRanges [(0x1100, 0x115F), (0xA960, 0xA97C)])
  | "v" =>
    some (ofRanges [(0x1160, 0x11A7), (0xD7B0, 0xD7C6), (0x16D63, 0x16D63), (0x16D67, 0x16D6A)])
  | "t" => some (ofRanges [(0x11A8, 0x11FF), (0xD7CB, 0xD7FB)])
  | "lv" => some openSyllables
  | "lvt" => some ((range 0xAC00 0xD7A3).diff openSyllables)
  | "prepend" | "pp" => some (ofRuns Unicode.prepend)
  | "regionalindicator" | "ri" => some regionalIndicator
  | "spacingmark" | "sm" =>
    some (((categories ["mc"]).diff graphemeExtend).union (ofCodes [0xE33, 0xEB3]) |>.diff
      detachedMarks)
  | "zwj" => some (range 0x200D 0x200D)
  | _ => none

def wordExtend : CharSet :=
  (unions [graphemeExtend, categories ["mc"], listed "emojimodifier"]).diff (range 0x200D 0x200D)

/-- The characters that control the layout and are not parts of words. -/
def layoutControls : CharSet :=
  (categories ["cf"]).diff ((range 0x200C 0x200D).union tags)

def wordNumeric : CharSet := digit.union (range 0x66B 0x66B)

def wordBreak? (name : String) : Option CharSet :=
  match name with
  | "aletter" | "le" =>
    some (symmDiff ((alphabetic.diff (listed "ideographic")).diff wordExtend)
      (ofRuns Unicode.wordLetterExceptions))
  | "cr" => some (range 13 13)
  | "doublequote" | "dq" => some (range 0x22 0x22)
  | "extend" => some wordExtend
  | "extendnumlet" | "ex" =>
    some (ofRanges [(0x5F, 0x5F), (0x202F, 0x202F), (0x203F, 0x2040), (0x2054, 0x2054),
      (0xFE33, 0xFE34), (0xFE4D, 0xFE4F), (0xFF3F, 0xFF3F)])
  | "format" | "fo" => some (layoutControls.diff (range 0x200B 0x200B))
  | "hebrewletter" | "hl" => some (ofRuns Unicode.hebrewLetters)
  | "katakana" | "ka" => some (ofRuns Unicode.katakana)
  | "lf" => some (range 10 10)
  | "midletter" | "ml" =>
    some (ofCodes [0x3A, 0xB7, 0x387, 0x55F, 0x5F4, 0x2027, 0xFE13, 0xFE55, 0xFF1A])
  | "midnum" | "mn" =>
    some (ofCodes [0x2C, 0x3B, 0x37E, 0x589, 0x60C, 0x60D, 0x66C, 0x7F8, 0x2044, 0xFE10, 0xFE14,
      0xFE50, 0xFE54, 0xFF0C, 0xFF1B])
  | "midnumlet" | "mb" => some (ofCodes [0x2E, 0x2018, 0x2019, 0x2024, 0xFE52, 0xFF07, 0xFF0E])
  | "newline" | "nl" => some (ofCodes [0xB, 0xC, 0x85, 0x2028, 0x2029])
  | "numeric" | "nu" => some wordNumeric
  | "regionalindicator" | "ri" => some regionalIndicator
  | "singlequote" | "sq" => some (range 0x27 0x27)
  | "wsegspace" =>
    some (ofRanges [(0x20, 0x20), (0x1680, 0x1680), (0x2000, 0x2006), (0x2008, 0x200A),
      (0x205F, 0x205F), (0x3000, 0x3000)])
  | "zwj" => some (range 0x200D 0x200D)
  | _ => none

/-- The letters of Georgian, which have case but do not begin sentences by it. -/
def georgian (first : Nat) : CharSet := ofRanges [(first, first + 42), (first + 45, first + 47)]

def sentenceExtend : CharSet :=
  unions [graphemeExtend, categories ["mc"], range 0x200D 0x200D]

/-- The points that may end a sentence or be a part of it. -/
def points : CharSet := ofCodes [0x2E, 0x2024, 0xFE52, 0xFF0E]

def sentenceBreak? (name : String) : Option CharSet :=
  match name with
  | "aterm" | "at" => some points
  | "cr" => some (range 13 13)
  | "close" | "cl" =>
    some (symmDiff ((categories ["ps", "pe", "pi", "pf"]).union (listed "quotationmark"))
      (ofRuns Unicode.closeExceptions))
  | "extend" | "ex" => some sentenceExtend
  | "format" | "fo" => some layoutControls
  | "lf" => some (range 10 10)
  | "lower" | "lo" => some ((lowercase.diff graphemeExtend).diff (georgian 0x10D0))
  | "numeric" | "nu" => some (wordNumeric.union (range 0x66C 0x66C))
  | "oletter" | "le" =>
    some (unions [(alphabetic.union (range 0x5F3 0x5F3)).diff
        (unions [lowercase, uppercase, categories ["lt"], sentenceExtend]),
      georgian 0x10D0, georgian 0x1C90])
  | "scontinue" | "sc" => some (ofRuns Unicode.sentenceContinue)
  | "sterm" | "st" => some ((listed "sentenceterminal").diff points)
  | "sep" | "se" => some (ofCodes [0x85, 0x2028, 0x2029])
  | "sp" => some (blank.diff (ofCodes [0xA, 0xD, 0x85, 0x2028, 0x2029]))
  | "upper" | "up" => some ((uppercase.union (categories ["lt"])).diff (georgian 0x1C90))
  | _ => none

/-- A name in the form in which names are looked up. A leading "is" counts for nothing, except in
the name of a property that has no set. -/
def canonicalName (name : String) : String :=
  let kept (cs : List Char) : List Char :=
    (cs.filter fun c => c.toNat < 128 && c != ' ' && c != '_' && c != '-').map (·.toLower)
  match name.toList with
  | i :: s :: rest =>
    if i.toLower = 'i' && s.toLower = 's' then
      if kept rest = ['c'] then "isc" else String.ofList (kept rest)
    else String.ofList (kept (i :: s :: rest))
  | cs => String.ofList (kept cs)

/-- The set that a name gives: that of a binary property, else of a general category, else of a
script. -/
def ofName? (name : String) : Option CharSet :=
  let name := canonicalName name
  ((binary? name).or (category? name)).or (script? name)

/-- The set of the characters for which a property has a value. -/
def ofValue? (property value : String) : Option CharSet :=
  let value := canonicalName value
  match canonicalName property with
  | "gc" | "generalcategory" | "category" => category? value
  | "sc" | "script" => script? value
  | "scx" | "scriptextensions" => scriptExtension? value
  | "age" => age? value
  | "gcb" | "graphemeclusterbreak" => clusterBreak? value
  | "wb" | "wordbreak" => wordBreak? value
  | "sb" | "sentencebreak" => sentenceBreak? value
  | _ => none

end ShapedGraph.CharSet
