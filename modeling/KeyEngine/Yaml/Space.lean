import KeyEngine.Text

/-!
# Blanks and line breaks in YAML

What separates the words of a YAML text, and what remains of it where a value goes on over several
lines: a gap without a line break stays as it is, a single line break becomes a blank, and of several
line breaks the first one is dropped.
-/

namespace KeyEngine.Yaml

/-- The characters that end a line. -/
def isBreak (c : Char) : Bool :=
  c == '\n' || c == '\r' || c.toNat == 0x85 || c.toNat == 0x2028 || c.toNat == 0x2029

/-- Blanks within a line. -/
def isSpace (c : Char) : Bool := c == ' ' || c == '\t'

/-- What words do not contain. -/
def isGap (c : Char) : Bool := isSpace c || isBreak c

/-- Whether a blank, a line break or the end comes next. -/
def atGap (cs : List Char) : Bool := cs.head?.all isGap

/-- The characters that a YAML text may have. -/
def isAllowed (c : Char) : Bool :=
  let n := c.toNat
  n == 0x09 || n == 0x0A || n == 0x0D || (0x20 ≤ n && n ≤ 0x7E) || n == 0x85 ||
  (0xA0 ≤ n && n ≤ 0xFFFD) || 0x10000 ≤ n

/-- The three dashes or dots that separate documents, at the start of a line. -/
def isMarker (cs : List Char) : Bool :=
  ("---".toList.isPrefixOf cs || "...".toList.isPrefixOf cs) && atGap (cs.drop 3)

/-- How a line break counts in a value. -/
def normalBreak (c : Char) : Char := if c.toNat == 0x2028 || c.toNat == 0x2029 then c else '\n'

/-- The line breaks of a text as they count in a value. -/
def breaks : List Char → List Char
  | [] => []
  | '\r' :: '\n' :: rest => '\n' :: breaks rest
  | c :: rest => if isBreak c then normalBreak c :: breaks rest else breaks rest

/-- What a gap within a value counts for. -/
def foldGap (gap : List Char) : List Char :=
  match breaks gap with
  | [] => gap
  | ['\n'] => [' ']
  | '\n' :: more => more
  | all => all

/-- The blanks and line breaks in front, and the rest. -/
def spanGap (cs : List Char) : List Char × List Char := (cs.takeWhile isGap, cs.dropWhile isGap)

/-- A gap and what follows it make up the text again. -/
theorem spanGap_append (cs : List Char) : (spanGap cs).1 ++ (spanGap cs).2 = cs :=
  List.takeWhile_append_dropWhile

/-- A gap takes what it holds away from the rest. -/
theorem length_spanGap (cs : List Char) :
    (spanGap cs).1.length + (spanGap cs).2.length = cs.length := by
  rw [← List.length_append, spanGap_append]

end KeyEngine.Yaml
