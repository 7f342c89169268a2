/-! Lists for the breaks between clusters, words and sentences, as runs. -/

namespace ShapedGraph.Unicode

/-- The letters of words that are not alphabetic or are ideographic, and the alphabetic characters
that are not. -/
def wordLetterExceptions : List String :=
  ["2c2.3 c.5 6.1 5.6 1 1.10 25a.2 1 2b 45.1a 4.4 80d.2f 1.1 c.6 3a.1 1 1.4 1.17 1 1.9 1.1 9 2.4 1",
   "15.3 120.2a 14 10.5 4.3 3 3.1 7.2 4.c c 6f1.33 23 4 173.1d 2.4 b.2b 4.19 56.34 52 1589.4 b.55",
   "6.2 1.59 1.3 f0.f 7508.e 9.1 67.1 255.4 1.9 a.4 61.16 3 3.31 1 3.1 2.4 2 1 18.2 7d 4fc1 1.9",
   "1.c 1.4 1 1.1 1.1 1.9 416.37 1762.1a 25.6 98a9.3 1.6 1.1 1.122 f 1d.2 2 e.3"]

/-- The letters of Hebrew, for the breaks between words. -/
def hebrewLetters : List String :=
  ["5d0.1a 4.3 f52a 1.9 1.c 1.4 1 1.1 1.1 1.9"]

/-- The characters of katakana, for the breaks between words. -/
def katakana : List String :=
  ["3031.4 65.1 3.5a 1.3 f0.f d0.2e 1.57 cc0e.37 b052.3 1.6 1.1 1 11f.2 32 e.3"]

/-- The characters that close a sentence and are no brackets or quotation marks, and the other way
around. -/
def closeExceptions : List String :=
  ["275b.5 69f.1 4.2 2 d0f6 4 f76e.2"]

/-- The characters after which a sentence goes on. -/
def sentenceContinue : List String :=
  ["2c.1 c 522 ae.1 1ea 1009 5 80a.1 fec ce0e.1 1 1d.1 1d.1 3 2 a a8.1 c 49"]

/-- The characters that begin a cluster with the next character. -/
def prepend : List String :=
  ["600.5 d7 31 180.1 50 46b 1036e f f4.1 20d 56d 1 f8 49.5 2bc 1bb"]

end ShapedGraph.Unicode
