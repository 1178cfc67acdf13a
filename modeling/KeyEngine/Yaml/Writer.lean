import KeyEngine.Yaml.Scalar

/-!
# Writing YAML

Tables and lists are written one entry on a line. The entries of a table inside another stand two
columns further to the right; the items of a list in a table do not. Empty tables and lists are written
as brackets behind their key. What belongs together is a list of lines here; a line may have line breaks
other than line feeds in it, behind which it is indented as well.
-/

namespace KeyEngine.Yaml

/-- Moves what follows a line break two columns to the right; `lineStart` says whether the text itself
does. Empty lines stay empty. -/
def indentFrom (lineStart : Bool) : List Char → List Char
  | [] => []
  | c :: rest =>
    if isBreak c then c :: indentFrom true rest
    else if lineStart then ' ' :: ' ' :: c :: indentFrom false rest
    else c :: indentFrom false rest

/-- A line two columns further to the right. -/
def indent (line : List Char) : List Char := indentFrom true line

/-- A line that starts behind something else, with all but its start further to the right. -/
def hang (line : List Char) : List Char := indentFrom false line

/-- Whether a value fills lines of its own, below its key. -/
def isNested : Document → Bool
  | .list items => !items.isEmpty
  | .table entries => !entries.isEmpty
  | _ => false

/-- Lines behind a mark: the first one on the line of the mark, the others below it. -/
def behind (mark : Char) : List (List Char) → List (List Char)
  | [] => [[mark]]
  | first :: rest => (mark :: ' ' :: hang first) :: rest.map indent

/-- Whether a key needs marks in front of it and of its value: it has line breaks or more than 128
bytes. -/
def needsMarks (key : List Char) : Bool := key.any isBreak || 128 < (String.ofList key).utf8ByteSize

/-- An entry of a table from its key and the lines of its value. -/
def entryLines (key : List Char) (value : Document) (lines : List (List Char)) : List (List Char) :=
  if needsMarks key then behind '?' (Scalar.lines key) ++ behind ':' lines
  else
    let name := Scalar.inline key ++ [':']
    match isNested value, value, lines with
    | true, .list _, _ => name :: lines
    | true, _, _ => name :: lines.map indent
    | false, _, first :: rest => (name ++ ' ' :: hang first) :: rest.map indent
    | false, _, [] => [name]

mutual

/-- The lines of a value. -/
def lines : Document → List (List Char)
  | .null => ["null".toList]
  | .boolean value => [(if value then "true" else "false").toList]
  | .integer value => [(toString value).toList]
  | .text value => Scalar.lines value.toList
  | .plain value => [value.toList]
  | .other => ["null".toList]
  | .list items => if items.isEmpty then [['[', ']']] else listLines items
  | .table entries => if entries.isEmpty then [['\x7b', '\x7d']] else tableLines entries

/-- The lines of the items of a list. -/
def listLines : List Document → List (List Char)
  | [] => []
  | item :: rest => behind '-' (lines item) ++ listLines rest

/-- The lines of the entries of a table. -/
def tableLines : List (Option String × Document) → List (List Char)
  | [] => []
  | (key, value) :: rest => entryLines (key.getD "").toList value (lines value) ++ tableLines rest

end

/-- A line with its end, unless it has one already. -/
def endLine (line : List Char) : List Char := if line.getLast?.any isBreak then line else line ++ ['\n']

/-- Writes a document. -/
def write (document : Document) : List Char := (lines document).flatMap endLine

end KeyEngine.Yaml
