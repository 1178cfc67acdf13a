import KeyEngine.Text.Digits

/-!
# Documents

A configuration file holds a document: a tree of tables, lists and single values. The notations for
documents differ in what they say about a single value. Some give it a type; others leave a text
without quotes open, and it becomes a number or a truth value only where one is expected. The readers
of this module take a value for what is expected of it, and fail if it cannot be that.
-/

namespace KeyEngine

/-- A value of a configuration file. -/
inductive Document where
  /-- The absence of a value. -/
  | null
  /-- A truth value. -/
  | boolean (value : Bool)
  /-- A whole number. -/
  | integer (value : Int)
  /-- A text. -/
  | text (value : String)
  /-- A text without quotes, whose type is open. -/
  | plain (value : String)
  /-- A value of a type that no configuration uses, such as a fraction or a date. -/
  | other
  /-- Values in order. -/
  | list (items : List Document)
  /-- Values with keys, in order; a key that is not a single value has no name. -/
  | table (entries : List (Option String × Document))
deriving Inhabited

namespace Document

/-- A table whose keys are all names. -/
def ofNames (entries : List (String × Document)) : Document :=
  table (entries.map fun entry => (some entry.1, entry.2))

/-- Decimal digits with a needless zero in front, which are a text and no number. -/
def hasNeedlessZero : List Char → Bool
  | '0' :: c :: rest => (c :: rest).all Char.isDigit
  | _ => false

/-- A whole number without a sign: decimal, or in another base after `0x`, `0o` or `0b`. -/
def unsigned? : List Char → Option Nat
  | '0' :: 'x' :: rest => Digits.read? 16 rest
  | '0' :: 'o' :: rest => Digits.read? 8 rest
  | '0' :: 'b' :: rest => Digits.read? 2 rest
  | cs => if hasNeedlessZero cs then none else Digits.read? 10 cs

/-- The number that a text without quotes stands for, if it is not negative. -/
def natural? : List Char → Option Nat
  | '+' :: rest => unsigned? rest
  | cs => unsigned? cs

/-- The truth value that a text without quotes stands for. -/
def boolean? : String → Option Bool
  | "true" | "True" | "TRUE" => some true
  | "false" | "False" | "FALSE" => some false
  | _ => none

/-- A text. -/
def asText? : Document → Option String
  | text s | plain s => some s
  | _ => none

/-- A truth value. -/
def asBool? : Document → Option Bool
  | boolean b => some b
  | plain s => boolean? s
  | _ => none

/-- A whole number from 0 to `bound`. -/
def asNat? (bound : Nat) : Document → Option Nat
  | integer (.ofNat n) => if n ≤ bound then some n else none
  | plain s => (natural? s.toList).filter (· ≤ bound)
  | _ => none

/-- A list; an open value that is blank is an empty list. -/
def asList? : Document → Option (List Document)
  | list items => some items
  | plain "" => some []
  | _ => none

/-- A table whose keys are all names; an open value that is blank is an empty table. -/
def asTable? : Document → Option (List (String × Document))
  | table entries => entries.mapM fun entry => entry.1.map (·, entry.2)
  | plain "" => some []
  | _ => none

/-- What a notation allows in a record that is written as a list of its fields. -/
structure Dialect where
  /-- The list may have more items than the record has fields. -/
  surplus : Bool

/-- The values of the named fields of a record. A record is a table, in which no field comes twice and
other keys do not matter, or a list of its fields in order, which may end early. -/
def fields? (dialect : Dialect) (names : List String) : Document → Option (List (Option Document))
  | list items =>
    if items.length ≤ names.length || dialect.surplus then
      some (names.zipIdx.map fun (_, index) => items[index]?)
    else none
  | document =>
    document.asTable?.bind fun entries =>
      if names.all fun name => (entries.filter (·.1 == name)).length ≤ 1 then
        some (names.map fun name => entries.lookup name)
      else none

end Document

end KeyEngine
