import KeyEngine.Document
import KeyEngine.Yaml.Token.Scan

/-!
# Reading YAML

A YAML text holds one document. A single value keeps whether it was written in quotes, because only a
value without quotes can be a number. A missing value is an empty text without quotes. An alias stands
for the value of the last anchor of its name; inside of that value it stands for nothing of use.
-/

namespace KeyEngine.Yaml

/-- What is left to read, and what is known so far. -/
structure Reading where
  /-- The tokens to come. -/
  tokens : List Token
  /-- The handles that tags may have. -/
  handles : List (List Char)
  /-- The values with names, in the order of their anchors. -/
  anchors : List (List Char × Document)

/-- A step of reading, which may fail. -/
abbrev Reader (α : Type) := StateT Reading Option α

namespace Reader

/-- The value that is not there. -/
def blank : Document := .plain ""

/-- Whether the next token is among some. -/
def next (tokens : List Token) : Reader Bool := do
  return (← get).tokens.head?.any (tokens.contains ·)

/-- Skips a token. -/
def skip : Reader Unit := modify fun r => { r with tokens := r.tokens.tail }

/-- Skips the next token if it is the given one. -/
def skipIf (token : Token) : Reader Bool := do
  if ← next [token] then
    skip
    return true
  return false

/-- Skips the next token, which must be the given one. -/
def expect (token : Token) : Reader Unit := do
  if !(← skipIf token) then failure

/-- Reads an anchor, if there is one. -/
def anchor? : Reader (Option (List Char)) := do
  let some (.anchor name) := (← get).tokens.head? | return none
  skip
  return some name

/-- Reads a tag, if there is one, whose handle must be known. -/
def tagged : Reader Bool := do
  let r ← get
  let some (.tag handle) := r.tokens.head? | return false
  if !(handle.isEmpty || r.handles.contains handle) then failure
  skip
  return true

/-- Reads an anchor and a tag in either order; whether there is any, and the name. -/
def properties : Reader (Bool × Option (List Char)) := do
  let first ← anchor?
  let isTagged ← tagged
  let name ← match first with
    | some name => pure (some name)
    | none => if isTagged then anchor? else pure none
  return (isTagged || name.isSome, name)

/-- Reads a value and gives it a name. -/
def named (name : Option (List Char)) (read : Reader Document) : Reader Document := do
  match name with
  | none => read
  | some name =>
    let place := (← get).anchors.length
    modify fun r => { r with anchors := r.anchors ++ [(name, .other)] }
    let document ← read
    modify fun r => { r with anchors := r.anchors.set place (name, document) }
    return document

/-- The value of the last anchor of a name. -/
def ofAlias (name : List Char) : Reader Document := do
  match (← get).anchors.reverse.lookup name with
  | some document => return document
  | none => failure

mutual

/-- Reads a value. One on lines of its own may stand in a block; one behind a key or colon may be a
list whose dashes are not indented. -/
def node (fuel : Nat) (inBlock afterKey : Bool) : Reader Document := do
  match fuel with
  | 0 => failure
  | fuel + 1 =>
    if let some (.alias name) := (← get).tokens.head? then
      skip
      return ← ofAlias name
    let (marked, name) ← properties
    named name do
      match (← get).tokens.head? with
      | some .item => if afterKey then return .list (← dashes fuel) else bare marked
      | some (.scalar plain text) =>
        skip
        return if plain then .plain (String.ofList text) else .text (String.ofList text)
      | some .flowList =>
        skip
        return .list (← flowItems fuel true)
      | some .flowTable =>
        skip
        return .table (← flowEntries fuel true)
      | some .blockList =>
        if inBlock then
          skip
          return .list (← blockItems fuel)
        else bare marked
      | some .blockTable =>
        if inBlock then
          skip
          return .table (← blockEntries fuel)
        else bare marked
      | _ => bare marked
where
  /-- A value that is not there may have an anchor or a tag. -/
  bare (marked : Bool) : Reader Document := if marked then return blank else failure

/-- Reads a value, unless one of some tokens comes next. -/
def nodeUnless (fuel : Nat) (inBlock afterKey : Bool) (tokens : List Token) : Reader Document := do
  match fuel with
  | 0 => failure
  | fuel + 1 => if ← next tokens then return blank else node fuel inBlock afterKey

/-- Reads the items of a block. -/
def blockItems (fuel : Nat) : Reader (List Document) := do
  match fuel with
  | 0 => failure
  | fuel + 1 =>
    if ← skipIf .item then
      let item ← nodeUnless fuel true false [.item, .blockEnd]
      return item :: (← blockItems fuel)
    else
      expect .blockEnd
      return []

/-- Reads items that are not indented. -/
def dashes (fuel : Nat) : Reader (List Document) := do
  match fuel with
  | 0 => failure
  | fuel + 1 =>
    if ← skipIf .item then
      let item ← nodeUnless fuel true false [.item, .key, .value, .blockEnd]
      return item :: (← dashes fuel)
    else return []

/-- Reads the entries of a block. -/
def blockEntries (fuel : Nat) : Reader (List (Option String × Document)) := do
  match fuel with
  | 0 => failure
  | fuel + 1 =>
    if ← skipIf .key then
      let key ← nodeUnless fuel true true [.key, .value, .blockEnd]
      let value ←
        if ← skipIf .value then nodeUnless fuel true true [.key, .value, .blockEnd]
        else pure blank
      return (key.asText?, value) :: (← blockEntries fuel)
    else
      expect .blockEnd
      return []

/-- Reads the items between brackets. An item with a key is a table of one entry; the token behind a
key that is not there is skipped. -/
def flowItems (fuel : Nat) (first : Bool) : Reader (List Document) := do
  match fuel with
  | 0 => failure
  | fuel + 1 =>
    if ← skipIf .flowListEnd then return []
    if !first then expect .comma
    if ← skipIf .key then
      let key ←
        if ← next [.value, .comma, .flowListEnd] then
          skip
          pure blank
        else node fuel false false
      let value ←
        if ← skipIf .value then nodeUnless fuel false false [.comma, .flowListEnd]
        else pure blank
      return .table [(key.asText?, value)] :: (← flowItems fuel false)
    else if ← skipIf .flowListEnd then return []
    else
      let item ← node fuel false false
      return item :: (← flowItems fuel false)

/-- Reads the entries between brackets; one without a question mark or colon is a key alone. -/
def flowEntries (fuel : Nat) (first : Bool) : Reader (List (Option String × Document)) := do
  match fuel with
  | 0 => failure
  | fuel + 1 =>
    if ← skipIf .flowTableEnd then return []
    if !first then expect .comma
    if ← skipIf .key then
      let key ← nodeUnless fuel false false [.value, .comma, .flowTableEnd]
      let value ←
        if ← skipIf .value then nodeUnless fuel false false [.comma, .flowTableEnd]
        else pure blank
      return (key.asText?, value) :: (← flowEntries fuel false)
    else if ← skipIf .flowTableEnd then return []
    else
      let key ← node fuel false false
      return (key.asText?, blank) :: (← flowEntries fuel false)

end

/-- Reads a value. Every token is reached within three nested steps. -/
def root : Reader Document := do node (3 * (← get).tokens.length + 3) true false

/-- Reads the directives of a document: the version, which comes at most once, and handles, each of
which is declared at most once. -/
def directives (hasVersion : Bool) (declared : List (List Char)) :
    List Token → Option (List (List Char) × List Token)
  | .version :: rest => if hasVersion then none else directives true declared rest
  | .handle name :: rest =>
    if declared.contains name then none else directives hasVersion (name :: declared) rest
  | rest => some (declared, rest)

/-- Reads the first document of a text. -/
def document : Reader Document := do
  let r ← get
  let (declared, rest) ← directives false [] r.tokens
  set { r with tokens := rest, handles := declared ++ [['!'], ['!', '!']] }
  if rest.isEmpty && r.tokens.isEmpty then return blank
  else if ← skipIf .documentStart then
    let tokens := (← get).tokens
    let ends (token : Token) : Bool :=
      match token with
      | .version | .handle _ | .documentStart | .documentEnd => true
      | _ => false
    if tokens.head?.all ends then return blank else root
  else if rest.length < r.tokens.length then failure
  else root

/-- Reads the end of a text, where nothing but ends of documents may follow. -/
def ending : Reader Unit := do
  let rest := (← get).tokens.dropWhile (· == .documentEnd)
  if !rest.isEmpty then failure

end Reader

/-- Reads a text that holds one document. -/
def read? (cs : List Char) : Option Document := do
  let tokens ← Token.ofChars? cs
  let read : Reader Document := do
    let document ← Reader.document
    Reader.ending
    return document
  (read.run ⟨tokens, [], []⟩).map (·.1)

end KeyEngine.Yaml
