import KeyEngine.Yaml.Space

/-!
# Blocks of text in YAML

A block is a text on lines of its own, indented below its header. Literal blocks keep their line
breaks; folded ones join neighbouring lines by a blank, unless a line starts with one. The header says
what becomes of the line breaks at the end, and may give the indentation, which is otherwise the one of
the first line that is not blank.
-/

namespace KeyEngine.Yaml.Block

/-- What becomes of the line breaks at the end of a block. -/
inductive Ending where
  /-- All are dropped. -/
  | strip
  /-- One is kept. -/
  | clip
  /-- All are kept. -/
  | keep
deriving DecidableEq

/-- A line, and the characters that end it. -/
structure Line where
  /-- The characters of the line. -/
  text : List Char
  /-- The line break, if it is not the last line. -/
  ending : List Char

/-- The lines of a text. -/
def lines : List Char → List Line
  | [] => [⟨[], []⟩]
  | '\r' :: '\n' :: rest => ⟨[], ['\r', '\n']⟩ :: lines rest
  | c :: rest =>
    if isBreak c then ⟨[], [c]⟩ :: lines rest
    else
      match lines rest with
      | [] => [⟨[c], []⟩]
      | line :: more => { line with text := c :: line.text } :: more

/-- The first line, and the rest behind it. -/
def firstLine (cs : List Char) : Line × List Char :=
  match lines cs with
  | [] => (⟨[], []⟩, [])
  | line :: _ => (line, cs.drop (line.text.length + line.ending.length))

/-- The blanks in front of a line. -/
def Line.lead (line : Line) : Nat := (line.text.takeWhile (· == ' ')).length

/-- Whether a line has nothing but blanks, counting at most `most` of them, and is not the last one. -/
def Line.isBlank (line : Line) (most : Nat) : Bool :=
  (line.text.drop (min line.lead most)).isEmpty && !line.ending.isEmpty

/-- Whether the text of a line, up to `most` blanks, starts with a tab. -/
def Line.hasTab (line : Line) (most : Nat) : Bool :=
  (line.text.drop (min line.lead most)).head? == some '\t'

/-- The indentation that the first lines show: that of the first line which is not blank, or the
largest one of the blank lines in front of it. -/
def indentation? (least : Nat) : List Line → Option Nat
  | [] => some least
  | line :: rest =>
    let least := max least line.lead
    if line.hasTab line.lead then none
    else if line.isBlank line.lead then indentation? least rest
    else some least

/-- The lines of a block without their indentation, where blank lines are empty, and how many
characters they take. -/
def body? (indentation : Nat) : List Line → Option (List Line × Nat)
  | [] => some ([], 0)
  | line :: rest =>
    let follow (text : List Char) : Option (List Line × Nat) :=
      (body? indentation rest).map fun (body, length) =>
        (⟨text, line.ending⟩ :: body, line.text.length + line.ending.length + length)
    if line.lead < indentation then
      if line.hasTab indentation then none
      else if line.isBlank indentation then follow []
      else some ([], 0)
    else if line.isBlank indentation then follow []
    else if line.text.length = indentation then some ([], 0)
    else follow (line.text.drop indentation)

/-- What stands between two lines. -/
def between (folded : Bool) (before after : Line) (blankLines : List Char) : List Char :=
  let first := breaks before.ending
  let startsBlank (line : Line) : Bool := line.text.head?.any isSpace
  if folded && first == ['\n'] && !startsBlank before && !startsBlank after then
    if blankLines.isEmpty then [' '] else blankLines
  else first ++ blankLines

/-- The value of the lines that follow `before` and some blank lines. -/
def valueFrom (folded : Bool) (ending : Ending) (before : Option Line) (blankLines : List Char) :
    List Line → List Char
  | [] =>
    let last := before.elim [] fun line => breaks line.ending
    match ending with
    | .strip => []
    | .clip => last
    | .keep => last ++ blankLines
  | line :: rest =>
    if line.text.isEmpty then
      valueFrom folded ending before (blankLines ++ breaks line.ending) rest
    else
      before.elim blankLines (between folded · line blankLines) ++ line.text ++
        valueFrom folded ending (some line) [] rest

/-- How a block ends, by the sign in its header. -/
def ending? : Char → Option Ending
  | '+' => some .keep
  | '-' => some .strip
  | _ => none

/-- The indentation that a header gives. -/
def digit? (c : Char) : Option Nat :=
  if '1' ≤ c ∧ c ≤ '9' then some (c.toNat - '0'.toNat) else none

/-- How a block ends and the indentation that its header gives, in either order. -/
def marks (cs : List Char) : Ending × Option Nat × List Char :=
  let (ending, cs) := match cs.head?.bind ending? with
    | some ending => (some ending, cs.tail)
    | none => (none, cs)
  let (digit, cs) := match cs.head?.bind digit? with
    | some digit => (some digit, cs.tail)
    | none => (none, cs)
  let (ending, cs) := match ending, digit, cs.head?.bind ending? with
    | none, some _, some ending => (some ending, cs.tail)
    | ending, _, _ => (ending, cs)
  (ending.getD .clip, digit, cs)

/-- Reads a block behind the character that starts it, where texts must be indented by `floor`
columns. -/
def read? (folded : Bool) (floor : Nat) (cs : List Char) : Option (List Char × List Char) := do
  let (ending, digit, rest) := marks cs
  let (header, rest) := firstLine rest
  let remark := header.text.dropWhile isSpace
  if !(remark.isEmpty || remark.head? == some '#') then none
  let all := lines rest
  let indentation ← match digit with
    | some digit => some (floor - 1 + digit)
    | none => indentation? (max floor 1) all
  let (body, length) ← body? indentation all
  return (valueFrom folded ending none [] body, rest.drop length)

end KeyEngine.Yaml.Block
