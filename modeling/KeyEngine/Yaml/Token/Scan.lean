import KeyEngine.Yaml.Block
import KeyEngine.Yaml.Plain
import KeyEngine.Yaml.Quoted
import KeyEngine.Yaml.Token

/-!
# The tokens of a YAML text

A key is known as such only when the colon behind it is reached. So every place where a key may start
is remembered, and the token in front of a key, and of the table that it starts, are put there later.
A key takes at most one line and 1024 characters. Outside of brackets the columns of keys and dashes
say where lists and tables on lines of their own start and end.
-/

namespace KeyEngine.Yaml

/-- A place in a text. -/
structure Cursor where
  /-- What follows. -/
  rest : List Char
  /-- The number of characters in front. -/
  index : Nat
  /-- The number of line breaks in front. -/
  line : Nat
  /-- The number of characters of the line in front. -/
  column : Nat

/-- The place behind some characters. -/
def Cursor.advance (cursor : Cursor) : Nat → Cursor
  | 0 => cursor
  | n + 1 =>
    match cursor.rest with
    | [] => cursor
    | c :: rest =>
      if isBreak c then advance ⟨rest, cursor.index + 1, cursor.line + 1, 0⟩ n
      else advance ⟨rest, cursor.index + 1, cursor.line, cursor.column + 1⟩ n

/-- The place where `rest` follows. -/
def Cursor.moveTo (cursor : Cursor) (rest : List Char) : Cursor :=
  cursor.advance (cursor.rest.length - rest.length)

/-- A place where a key may start. -/
structure KeyPlace where
  /-- The number of tokens in front. -/
  position : Nat
  /-- The place in the text. -/
  cursor : Cursor
  /-- The line makes no sense if no key starts here. -/
  required : Bool

/-- Whether a key that starts at some place may still end at another. -/
def KeyPlace.reaches (place : KeyPlace) (cursor : Cursor) : Bool :=
  place.cursor.line == cursor.line && cursor.index ≤ place.cursor.index + 1024

/-- What is known of a text up to some place. -/
structure Scan where
  /-- The place. -/
  cursor : Cursor
  /-- The tokens so far, the last one first. -/
  tokens : List Token
  /-- The columns of the open lists and tables on lines of their own, the innermost first. -/
  blocks : List Nat
  /-- Where a key may have started inside of the innermost brackets. -/
  key : Option KeyPlace
  /-- Where a key may have started around each pair of brackets, the innermost first. -/
  outerKeys : List (Option KeyPlace)
  /-- A key may start at the place. -/
  keyAllowed : Bool

namespace Scan

/-- The start of a text; a byte order mark there is skipped. -/
def start (cs : List Char) : Scan where
  cursor :=
    let cursor : Cursor := ⟨cs, 0, 0, 0⟩
    if cs.head?.any (·.toNat == 0xFEFF) then cursor.advance 1 else cursor
  tokens := []
  blocks := []
  key := none
  outerKeys := []
  keyAllowed := true

/-- Whether the place is inside of brackets. -/
def inBrackets (s : Scan) : Bool := !s.outerKeys.isEmpty

/-- The least column of what belongs to the innermost open block. -/
def floor (s : Scan) : Nat :=
  match s.blocks with
  | [] => 0
  | column :: _ => column + 1

/-- Adds a token behind the first `position` tokens. -/
def emitAt (s : Scan) (position : Nat) (token : Token) : Scan :=
  let later := s.tokens.length - position
  { s with tokens := s.tokens.take later ++ token :: s.tokens.drop later }

/-- Opens a block at a column that lies further to the right than the open ones. -/
def openBlock (s : Scan) (column position : Nat) (token : Token) : Scan :=
  if s.inBrackets || column < s.floor then s
  else { s.emitAt position token with blocks := column :: s.blocks }

/-- Closes the open blocks that `closes` accepts by their columns. -/
def closeBlocks (s : Scan) (closes : Nat → Bool) : Scan :=
  if s.inBrackets then s
  else
    let (closed, kept) := s.blocks.span closes
    { s with tokens := closed.map (fun _ => .blockEnd) ++ s.tokens, blocks := kept }

/-- Gives up the key that may have started, unless one had to start. -/
def dropKey (s : Scan) : Option Scan :=
  if s.key.any (·.required) then none else some { s with key := none }

/-- Remembers that a key may start here. -/
def saveKey (s : Scan) : Option Scan :=
  if s.keyAllowed then
    s.dropKey.map fun s =>
      { s with key := some ⟨s.tokens.length, s.cursor, !s.inBrackets && s.floor == s.cursor.column + 1⟩ }
  else some s

/-- Gives up the keys that are too long by now. -/
def dropLateKeys (s : Scan) : Option Scan :=
  let late (place : KeyPlace) : Bool := !place.reaches s.cursor
  if (s.key :: s.outerKeys).any (·.any fun place => late place && place.required) then none
  else
    some { s with
      key := s.key.filter (!late ·)
      outerKeys := s.outerKeys.map (·.filter (!late ·)) }

/-- Skips blanks, comments and line breaks. A tab is a blank only where no key may start. -/
def skipGap (inBrackets keyAllowed inComment : Bool) : List Char → Bool × List Char
  | [] => (keyAllowed, [])
  | c :: rest =>
    if isBreak c then skipGap inBrackets (keyAllowed || !inBrackets) false rest
    else if inComment || c == ' ' || (c == '\t' && (inBrackets || !keyAllowed)) then
      skipGap inBrackets keyAllowed inComment rest
    else if c == '#' then skipGap inBrackets keyAllowed true rest
    else (keyAllowed, c :: rest)

/-- Goes to the next token and closes the blocks that end in front of it. -/
def toNext (s : Scan) : Option Scan := do
  let (keyAllowed, rest) := skipGap s.inBrackets s.keyAllowed false s.cursor.rest
  let s ← { s with cursor := s.cursor.moveTo rest, keyAllowed }.dropLateKeys
  return s.closeBlocks (s.cursor.column < ·)

/-- Goes on behind a token. -/
def accept (s : Scan) (token : Token) (rest : List Char) (keyAllowed : Bool) : Scan :=
  { s with tokens := token :: s.tokens, cursor := s.cursor.moveTo rest, keyAllowed }

/-- A token that ends all open blocks: a directive, or the start or end of a document. -/
def ofDocument (s : Scan) (token : Token) (rest : List Char) : Option Scan :=
  (s.closeBlocks fun _ => true).dropKey.map fun s => s.accept token rest false

/-- An opening bracket. -/
def openBracket (s : Scan) (token : Token) (rest : List Char) : Option Scan := do
  let s ← s.saveKey
  return { s with key := none, outerKeys := s.key :: s.outerKeys }.accept token rest true

/-- A closing bracket. -/
def closeBracket (s : Scan) (token : Token) (rest : List Char) : Option Scan := do
  let s ← s.dropKey
  let s := match s.outerKeys with
    | [] => s
    | key :: outerKeys => { s with key, outerKeys }
  return s.accept token rest false

/-- The dash in front of an item. -/
def item (s : Scan) (rest : List Char) : Option Scan :=
  if !s.inBrackets && !s.keyAllowed then none
  else
    (s.openBlock s.cursor.column s.tokens.length .blockList).dropKey.map fun s =>
      s.accept .item rest true

/-- The question mark in front of a key. -/
def explicitKey (s : Scan) (rest : List Char) : Option Scan :=
  if !s.inBrackets && !s.keyAllowed then none
  else
    (s.openBlock s.cursor.column s.tokens.length .blockTable).dropKey.map fun s =>
      s.accept .key rest !s.inBrackets

/-- The colon in front of a value. -/
def colon (s : Scan) (rest : List Char) : Option Scan :=
  match s.key with
  | some place =>
    let s := (s.emitAt place.position .key).openBlock place.cursor.column place.position .blockTable
    some ({ s with key := none }.accept .value rest false)
  | none =>
    if !s.inBrackets && !s.keyAllowed then none
    else
      let s := s.openBlock s.cursor.column s.tokens.length .blockTable
      some (s.accept .value rest !s.inBrackets)

/-- A token that may be a key or stand in front of one. -/
def word (s : Scan) (token : Token) (rest : List Char) : Option Scan :=
  s.saveKey.map fun s => s.accept token rest false

/-- A text in quotes. -/
def quoted (s : Scan) (double : Bool) (rest : List Char) : Option Scan := do
  let (text, rest) ← Quoted.read? double rest
  s.word (.scalar false text) rest

/-- A text without quotes. -/
def plain (s : Scan) : Option Scan := do
  let s ← s.saveKey
  let tail ← Plain.read? s.inBrackets s.floor s.cursor.rest
  return s.accept (.scalar true tail.text) tail.rest tail.lineEnded

/-- A block of text. -/
def block (s : Scan) (folded : Bool) (rest : List Char) : Option Scan := do
  let s ← s.dropKey
  let (text, rest) ← Block.read? folded s.floor rest
  return s.accept (.scalar false text) rest true

/-- The characters that may not start a text without quotes. -/
def isSign (c : Char) : Bool := "-?:,[]\x7b\x7d#&*!|>'\"%@`".toList.contains c

/-- Whether a text without quotes starts with a character, where `rest` follows it. -/
def startsPlain (inBrackets : Bool) (c : Char) (rest : List Char) : Bool :=
  !(isGap c || isSign c) || (c == '-' && !rest.head?.any isSpace) ||
  (!inBrackets && (c == '?' || c == ':') && !atGap rest)

/-- Reads the token at the place. -/
def step (s : Scan) : Option Scan :=
  match s.cursor.rest with
  | [] => none
  | c :: rest =>
    let apart := atGap rest
    let inBrackets := s.inBrackets
    if s.cursor.column == 0 && c == '%' then
      (Token.directive? rest).bind fun (token, rest) => s.ofDocument token rest
    else if s.cursor.column == 0 && isMarker (c :: rest) then
      s.ofDocument (if c == '-' then .documentStart else .documentEnd) (rest.drop 2)
    else if c == '[' then s.openBracket .flowList rest
    else if c == '\x7b' then s.openBracket .flowTable rest
    else if c == ']' then s.closeBracket .flowListEnd rest
    else if c == '\x7d' then s.closeBracket .flowTableEnd rest
    else if c == ',' then s.dropKey.map fun s => s.accept .comma rest true
    else if c == '-' && apart then s.item rest
    else if c == '?' && (inBrackets || apart) then s.explicitKey rest
    else if c == ':' && (inBrackets || apart) then s.colon rest
    else if c == '*' then (Token.name? rest).bind fun (name, rest) => s.word (.alias name) rest
    else if c == '&' then (Token.name? rest).bind fun (name, rest) => s.word (.anchor name) rest
    else if c == '!' then
      (Token.tag? inBrackets (c :: rest)).bind fun (token, rest) => s.word token rest
    else if (c == '|' || c == '>') && !inBrackets then s.block (c == '>') rest
    else if c == '\'' || c == '"' then s.quoted (c == '"') rest
    else if startsPlain inBrackets c rest then s.plain
    else none

/-- The tokens of a text, from some place on. Every token takes at least one character. -/
def finish (s : Scan) : Option (List Token) :=
  match s.toNext with
  | none => none
  | some here =>
    if here.cursor.rest.isEmpty then
      here.dropKey.map fun s => (s.closeBlocks fun _ => true).tokens.reverse
    else
      match here.step with
      | none => none
      | some next =>
        if _ : next.cursor.rest.length < s.cursor.rest.length then next.finish else none
termination_by s.cursor.rest.length

end Scan

/-- The tokens of a text. -/
def Token.ofChars? (cs : List Char) : Option (List Token) :=
  if cs.all isAllowed then (Scan.start cs).finish else none

end KeyEngine.Yaml
