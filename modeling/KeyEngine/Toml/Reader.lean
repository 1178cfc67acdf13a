import KeyEngine.Toml.Item
import KeyEngine.Toml.Scalar
import KeyEngine.Toml.Text

/-!
# Reading TOML

A TOML text is a list of lines: headers, and keys with their values. Only lists may go on over several
lines. Each line is added to the tables that the lines above it made.
-/

namespace KeyEngine.Toml

/-- Drops a comment, which ends with the line. -/
def dropComment? (cs : List Char) : Option (List Char) :=
  if cs.head? == some '#' then
    let rest := cs.dropWhile isShown
    if rest.isEmpty || (dropBreak? rest).isSome then some rest else none
  else some cs

/-- The rest behind a line that ends here, which may have a comment. -/
def dropEnd? (cs : List Char) : Option (List Char) :=
  (dropComment? (dropSpace cs)).bind fun rest => if rest.isEmpty then some [] else dropBreak? rest

/-- Drops blanks, comments and line breaks. -/
def dropGap? (cs : List Char) : Option (List Char) :=
  match dropComment? (dropSpace cs) with
  | none => none
  | some rest =>
    match dropBreak? rest with
    | none => some rest
    | some rest => if _ : rest.length < cs.length then dropGap? rest else none
termination_by cs.length

mutual

/-- Reads a value. Each pair of brackets takes two steps. -/
def value? (fuel : Nat) (cs : List Char) : Option (Document × List Char) :=
  match fuel with
  | 0 => none
  | fuel + 1 =>
    match cs with
    | '[' :: rest => (items? fuel rest).map fun (items, rest) => (.list items, rest)
    | '\x7b' :: rest =>
      if (dropSpace rest).head? == some '\x7d' then some (.table [], (dropSpace rest).tail)
      else (entries? fuel [] rest).map fun (entries, rest) => (entries.document, rest)
    | '"' :: _ | '\'' :: _ => (text? cs).map fun (text, rest) => (.text (String.ofList text), rest)
    | _ => Scalar.read? cs

/-- Reads the items of a list, behind its opening bracket or a comma. -/
def items? (fuel : Nat) (cs : List Char) : Option (List Document × List Char) :=
  match fuel with
  | 0 => none
  | fuel + 1 => do
    let cs ← dropGap? cs
    if cs.head? == some ']' then return ([], cs.tail)
    let (item, rest) ← value? fuel cs
    match ← dropGap? rest with
    | ',' :: rest =>
      let (items, rest) ← items? fuel rest
      return (item :: items, rest)
    | ']' :: rest => return ([item], rest)
    | _ => none

/-- Reads the entries of a table in brackets, behind its opening bracket or a comma. -/
def entries? (fuel : Nat) (entries : Entries) (cs : List Char) : Option (Entries × List Char) :=
  match fuel with
  | 0 => none
  | fuel + 1 => do
    let (path, key, rest) ← path? cs
    let '=' :: rest := rest | none
    let (value, rest) ← value? fuel (dropSpace rest)
    let entries ← entries.addAt path key value
    match dropSpace rest with
    | ',' :: rest => entries? fuel entries rest
    | '\x7d' :: rest => return (entries, rest)
    | _ => none

end

/-- Reads a header behind its opening bracket; whether it starts the next table of a list, and its
keys. -/
def header? (cs : List Char) : Option (Bool × List String × String × List Char) :=
  match cs with
  | '[' :: cs =>
    match path? cs with
    | some (path, key, ']' :: ']' :: rest) => some (true, path, key, rest)
    | _ => none
  | _ =>
    match path? cs with
    | some (path, key, ']' :: rest) => some (false, path, key, rest)
    | _ => none

/-- Reads lines. The keys of the last header are `header`, and `entries` is what the lines above made.
Every line takes at least one character. -/
def lines? (header : List String) (entries : Entries) (cs : List Char) : Option Entries :=
  match dropGap? cs with
  | none => none
  | some [] => some entries
  | some ('[' :: rest) =>
    match header? rest with
    | none => none
    | some (next, path, key, rest) =>
      match entries.within path (if next then Entries.startNext key else Entries.startTable key),
        dropEnd? rest with
      | some entries, some rest =>
        if _ : rest.length < cs.length then lines? (path ++ [key]) entries rest else none
      | _, _ => none
  | some line =>
    match path? line with
    | some (path, key, '=' :: rest) =>
      match value? (2 * rest.length + 2) (dropSpace rest) with
      | none => none
      | some (value, rest) =>
        match entries.within header (Entries.addAt path key value), dropEnd? rest with
        | some entries, some rest =>
          if _ : rest.length < cs.length then lines? header entries rest else none
        | _, _ => none
    | _ => none
termination_by cs.length

/-- Reads a text; a byte order mark at its start is skipped. -/
def read? (cs : List Char) : Option Document :=
  let cs := if cs.head?.any (·.toNat == 0xFEFF) then cs.tail else cs
  (lines? [] [] cs).map Entries.document

end KeyEngine.Toml
