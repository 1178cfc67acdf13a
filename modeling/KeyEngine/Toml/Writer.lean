import KeyEngine.Document
import KeyEngine.Text
import KeyEngine.Text.Digits

/-!
# Writing TOML

The single values and lists of a table come first, one on a line. The tables inside of it follow, each
under a header of its own, and an empty line stands in front of every header but the first line of all.
A text is written in the plainest marks that can show it.
-/

namespace KeyEngine.Toml

/-- How a text is marked. -/
inductive Marks where
  /-- One quotation mark at either end. -/
  | quotation
  /-- One apostrophe at either end. -/
  | apostrophe
  /-- Three quotation marks at either end. -/
  | quotations
  /-- Three apostrophes at either end. -/
  | apostrophes
deriving DecidableEq

/-- Characters that only escapes can show. -/
def isControl (c : Char) : Bool :=
  (c.toNat < 0x20 && c != '\t' && c != '\n') || c.toNat == 0x7F

/-- The length of the longest run of a character, where `run` of them stand in front. -/
def longestRun (mark : Char) (run : Nat) : List Char → Nat
  | [] => run
  | c :: rest => if c == mark then longestRun mark (run + 1) rest else max run (longestRun mark 0 rest)

/-- The marks that can show a text without escapes, the plainest ones first; `none` if none can. -/
def plainMarks? (cs : List Char) : Option Marks :=
  let escaped := cs.any isControl
  let broken := cs.contains '\n'
  if !escaped && !cs.contains '\\' && !cs.contains '"' && !broken then some .quotation
  else if !escaped && !cs.contains '\'' && !broken then some .apostrophe
  else if !escaped && !cs.contains '\\' && longestRun '"' 0 cs ≤ 2 then some .quotations
  else if !escaped && longestRun '\'' 0 cs ≤ 2 then some .apostrophes
  else none

/-- A character behind a backslash, or as it is. A line break is kept between three marks. -/
def escape (broken : Bool) (c : Char) : List Char :=
  match c with
  | '\t' => ['\\', 't']
  | '\r' => ['\\', 'r']
  | '\\' => ['\\', '\\']
  | '\n' => if broken then ['\n'] else ['\\', 'n']
  | c =>
    if c.toNat == 0x08 then ['\\', 'b']
    else if c.toNat == 0x0C then ['\\', 'f']
    else if isControl c then '\\' :: 'u' :: Digits.hex 4 c.toNat
    else [c]

/-- A text with escapes, where `run` quotation marks stand in front. No more than `most` may stand next
to each other. -/
def escapeFrom (broken : Bool) (most run : Nat) : List Char → List Char
  | [] => []
  | c :: rest =>
    if c == '"' then
      if run < most then c :: escapeFrom broken most (run + 1) rest
      else '\\' :: c :: escapeFrom broken most 0 rest
    else escape broken c ++ escapeFrom broken most 0 rest

/-- A text with its marks, where those that open a text of several lines have a line of their own. -/
def mark (marks : Marks) (cs : List Char) : List Char :=
  let start := if cs.contains '\n' then ['\n'] else []
  match marks with
  | .quotation => '"' :: escapeFrom false 0 0 cs ++ ['"']
  | .apostrophe => '\'' :: cs ++ ['\'']
  | .quotations => "\"\"\"".toList ++ start ++ escapeFrom true 2 0 cs ++ "\"\"\"".toList
  | .apostrophes => "'''".toList ++ start ++ cs ++ "'''".toList

/-- A text in the plainest marks, or else with escapes. -/
def text (cs : List Char) : List Char :=
  mark ((plainMarks? cs).getD (if cs.contains '\n' then .quotations else .quotation)) cs

/-- A key: a word as it is, and everything else in marks on one line. -/
def key (cs : List Char) : List Char :=
  if !cs.isEmpty && cs.all fun c => c.isAlphanum || c == '_' || c == '-' then cs
  else
    match plainMarks? cs with
    | some .apostrophe => mark .apostrophe cs
    | _ => mark .quotation cs

mutual

/-- A value on one line. -/
def value : Document → List Char
  | .null | .other => []
  | .boolean b => (if b then "true" else "false").toList
  | .integer n => (toString n).toList
  | .text s | .plain s => text s.toList
  | .list items => '[' :: Text.join ", ".toList (values items) ++ [']']
  | .table entries => '\x7b' :: ' ' :: Text.join ", ".toList (pairs entries) ++ [' ', '\x7d']

/-- The values of a list. -/
def values : List Document → List (List Char)
  | [] => []
  | item :: rest => value item :: values rest

/-- The entries of a table on one line. -/
def pairs : List (Option String × Document) → List (List Char)
  | [] => []
  | (name, item) :: rest =>
    (key (name.getD "").toList ++ " = ".toList ++ value item) :: pairs rest

end

/-- Whether a value is a table. -/
def isTable : Document → Bool
  | .table _ => true
  | _ => false

/-- Whether a value is written below headers: a table, or a list of tables that is not empty. -/
def hasHeader : Document → Bool
  | .table _ => true
  | .list items => !items.isEmpty && items.all isTable
  | _ => false

/-- A header line in as many brackets as given. -/
def header (brackets : Nat) (path : List (List Char)) : List Char :=
  List.replicate brackets '[' ++ Text.join ['.'] path ++ List.replicate brackets ']' ++ ['\n']

/-- The lines of a table that need no header. -/
def ownLines : List (Option String × Document) → List Char
  | [] => []
  | (name, item) :: rest =>
    (if hasHeader item then [] else key (name.getD "").toList ++ " = ".toList ++ value item ++ ['\n']) ++
      ownLines rest

mutual

/-- The parts of a table below its header: the header with the lines of the table, and the parts of the
tables in it. -/
def sections (head : List Char) (path : List (List Char)) : Document → List (List Char)
  | .table entries => (head ++ ownLines entries) :: entrySections path entries
  | _ => []

/-- The parts of the tables among some entries. -/
def entrySections (path : List (List Char)) : List (Option String × Document) → List (List Char)
  | [] => []
  | (name, item) :: rest =>
    let path' := path ++ [key (name.getD "").toList]
    (match item with
      | .table entries => sections (header 1 path') path' (.table entries)
      | .list items => if hasHeader (.list items) then listSections path' items else []
      | _ => []) ++ entrySections path rest

/-- The parts of a list of tables. -/
def listSections (path : List (List Char)) : List Document → List (List Char)
  | [] => []
  | item :: rest => sections (header 2 path) path item ++ listSections path rest

end

/-- Writes a table. -/
def write (document : Document) : List Char :=
  Text.join ['\n'] ((sections [] [] document).filter (!·.isEmpty))

end KeyEngine.Toml
