import KeyEngine.Text.Digits
import KeyEngine.Yaml.Space

/-!
# Tokens of YAML

The words and marks that a YAML text is made of. Blocks have no marks of their own in the text; their
tokens follow from the indentation. This module also reads the tokens that start with a sign of their
own: anchors, aliases, tags and directives.
-/

namespace KeyEngine.Yaml

/-- A word or mark. -/
inductive Token where
  /-- The version of the notation. -/
  | version
  /-- The declaration of a handle for tags. -/
  | handle (name : List Char)
  /-- The start of a document. -/
  | documentStart
  /-- The end of a document. -/
  | documentEnd
  /-- The start of a list whose items are on lines of their own. -/
  | blockList
  /-- The start of a table whose entries are on lines of their own. -/
  | blockTable
  /-- The end of a list or table on lines of its own. -/
  | blockEnd
  /-- The opening bracket of a list. -/
  | flowList
  /-- The closing bracket of a list. -/
  | flowListEnd
  /-- The opening bracket of a table. -/
  | flowTable
  /-- The closing bracket of a table. -/
  | flowTableEnd
  /-- The dash in front of an item. -/
  | item
  /-- The comma between items. -/
  | comma
  /-- The place in front of a key. -/
  | key
  /-- The colon in front of a value. -/
  | value
  /-- A name for the value that follows. -/
  | anchor (name : List Char)
  /-- The value of that name. -/
  | alias (name : List Char)
  /-- A type for the value that follows, by its handle; the type itself does not matter. -/
  | tag (handle : List Char)
  /-- A single value, in quotes or a block or without. -/
  | scalar (plain : Bool) (text : List Char)
deriving DecidableEq

namespace Token

/-- The characters of names. -/
def isNameChar (c : Char) : Bool := c.isAlphanum || c == '_' || c == '-'

/-- Reads the name of an anchor or alias, behind its sign. -/
def name? (cs : List Char) : Option (List Char × List Char) :=
  let (name, rest) := cs.span isNameChar
  if name.isEmpty then none
  else if atGap rest || rest.head?.any ("?:,]\x7d%@`".toList.contains ·) then some (name, rest)
  else none

/-- The characters of types; some are allowed only between angle brackets or in a directive. -/
def isTypeChar (wide : Bool) (c : Char) : Bool :=
  isNameChar c || ";/?:@&=+$.!~*'()".toList.contains c || (wide && ",[]".toList.contains c)

/-- The number of octets that must follow an octet in a character, if a character may start with it. -/
def octetsOwed? (octet : Nat) : Option Nat :=
  if octet < 0x80 then some 0
  else if 0xC0 ≤ octet ∧ octet < 0xE0 then some 1
  else if 0xE0 ≤ octet ∧ octet < 0xF0 then some 2
  else if 0xF0 ≤ octet ∧ octet < 0xF8 then some 3
  else none

/-- Drops the name of a type, in which `owed` octets of a character are still to come as escapes. -/
def dropType? (wide : Bool) (owed : Nat) : List Char → Option (List Char)
  | '%' :: high :: low :: rest =>
    (Digits.read? 16 [high, low]).bind fun octet =>
      if owed = 0 then (octetsOwed? octet).bind (dropType? wide · rest)
      else if 0x80 ≤ octet ∧ octet < 0xC0 then dropType? wide (owed - 1) rest
      else none
  | [] => if owed = 0 then some [] else none
  | c :: rest =>
    if owed ≠ 0 || c == '%' then none
    else if isTypeChar wide c then dropType? wide 0 rest
    else some (c :: rest)

/-- Drops the name of a type, which may not be empty. -/
def dropSomeType? (wide : Bool) (cs : List Char) : Option (List Char) :=
  (dropType? wide 0 cs).filter (·.length < cs.length)

/-- Reads the handle of a tag: an exclamation mark, and a name with another one. -/
def handle? (cs : List Char) : Option (List Char × List Char) :=
  match cs with
  | '!' :: rest =>
    let (name, after) := rest.span isNameChar
    if after.head? == some '!' then some ('!' :: name ++ ['!'], after.tail) else some (['!'], rest)
  | _ => none

/-- Reads a tag. Between angle brackets it has no handle; a single exclamation mark has none either. -/
def tag? (inBrackets : Bool) (cs : List Char) : Option (Token × List Char) := do
  let (name, rest) ← match cs with
    | '!' :: '<' :: rest => do
      let '>' :: rest ← dropSomeType? true rest | none
      some ([], rest)
    | _ => do
      let (name, rest) ← handle? cs
      if name.length = 1 then
        let after ← dropType? false 0 rest
        some (if after.length = rest.length then [] else name, after)
      else
        let after ← dropSomeType? false rest
        some (name, after)
  if atGap rest || (inBrackets && rest.head? == some ',') then some (tag name, rest) else none

/-- Reads a part of a version, which has at most nine digits. -/
def versionPart? (cs : List Char) : Option (Nat × List Char) :=
  let (digits, rest) := cs.span Char.isDigit
  if 9 < digits.length then none else (Digits.read? 10 digits).map (·, rest)

/-- Reads the version of the notation, of which there are two. -/
def version? (cs : List Char) : Option (Token × List Char) := do
  let (major, rest) ← versionPart? (cs.dropWhile isSpace)
  let '.' :: rest := rest | none
  let (minor, rest) ← versionPart? rest
  if major = 1 ∧ (minor = 1 ∨ minor = 2) then some (version, rest) else none

/-- Reads the declaration of a handle. -/
def declaration? (cs : List Char) : Option (Token × List Char) := do
  let cs := cs.dropWhile isSpace
  let (name, rest) ← handle? cs
  if !rest.head?.any isSpace then none
  let rest ← dropSomeType? true (rest.dropWhile isSpace)
  if atGap rest then some (handle name, rest) else none

/-- Reads a directive behind its sign, up to the end of the line. -/
def directive? (cs : List Char) : Option (Token × List Char) := do
  let (name, rest) := cs.span isNameChar
  if !atGap rest then none
  let (token, rest) ← match String.ofList name with
    | "YAML" => version? rest
    | "TAG" => declaration? rest
    | _ => none
  let rest := rest.dropWhile isSpace
  let rest := if rest.head? == some '#' then rest.dropWhile (! isBreak ·) else rest
  if rest.head?.all isBreak then some (token, rest) else none

end Token

end KeyEngine.Yaml
