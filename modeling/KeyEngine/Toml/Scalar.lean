import KeyEngine.Document
import KeyEngine.Text.Fraction

/-!
# Single values in TOML

Values that are no texts: truth values, whole numbers, fractions, and points in time. Digits may be
separated by underscores. Of points in time only the form is checked, as no configuration uses one.
-/

namespace KeyEngine.Toml.Scalar

/-- Drops underscores, each of which must stand between digits. -/
def dropUnderscores? (isDigit : Char → Bool) : List Char → Option (List Char)
  | [] => none
  | [c] => if isDigit c then some [c] else none
  | c :: '_' :: rest =>
    if isDigit c then (dropUnderscores? isDigit rest).map (c :: ·) else none
  | c :: rest => if isDigit c then (dropUnderscores? isDigit rest).map (c :: ·) else none

/-- Whether digits start with a needless zero. -/
def startsWithZero (digits : List Char) : Bool := digits.head? == some '0' && 1 < digits.length

/-- A whole number in base ten without a sign. -/
def decimal? (cs : List Char) : Option Nat :=
  (dropUnderscores? Char.isDigit cs).bind fun digits =>
    if startsWithZero digits then none else Digits.read? 10 digits

/-- A whole number in another base behind its letter. -/
def inBase? (base : Nat) (cs : List Char) : Option Nat :=
  (dropUnderscores? (fun c => (Digits.value? base c).isSome) cs).bind (Digits.read? base)

/-- A whole number. -/
def integer? : List Char → Option Int
  | '0' :: 'x' :: rest => (inBase? 16 rest).map Int.ofNat
  | '0' :: 'o' :: rest => (inBase? 8 rest).map Int.ofNat
  | '0' :: 'b' :: rest => (inBase? 2 rest).map Int.ofNat
  | '-' :: rest => (decimal? rest).map fun n => -(n : Int)
  | '+' :: rest => (decimal? rest).map Int.ofNat
  | cs => (decimal? cs).map Int.ofNat

/-- The numbers that a signed or unsigned word of 128 bits can hold. -/
def inRange (n : Int) : Bool := decide (-Int.pow 2 127 ≤ n ∧ n < Int.pow 2 128)

/-- The exponent of a fraction in plain digits, if there is one. -/
def exponent? (cs : List Char) : Option (List Char) :=
  match cs with
  | [] => some []
  | c :: rest =>
    if c == 'e' || c == 'E' then
      match rest with
      | '-' :: digits => (dropUnderscores? Char.isDigit digits).map fun ds => c :: '-' :: ds
      | '+' :: digits => (dropUnderscores? Char.isDigit digits).map (c :: ·)
      | digits => (dropUnderscores? Char.isDigit digits).map (c :: ·)
    else none

/-- A fraction without a sign in plain digits: it has a point between digits, an exponent, or both. -/
def fraction? (cs : List Char) : Option (List Char) := do
  let isDigit (c : Char) : Bool := c.isDigit || c == '_'
  let (whole, rest) := cs.span isDigit
  let whole ← dropUnderscores? Char.isDigit whole
  if startsWithZero whole then none
  match rest with
  | '.' :: rest =>
    let (part, rest) := rest.span isDigit
    return whole ++ '.' :: (← dropUnderscores? Char.isDigit part) ++ (← exponent? rest)
  | [] => none
  | rest => return whole ++ (← exponent? rest)

/-- Whether a text is a fraction that is not too large, or an infinity, or no number. -/
def isFraction (cs : List Char) : Bool :=
  let cs := match cs with
    | '+' :: rest | '-' :: rest => rest
    | cs => cs
  cs == "inf".toList || cs == "nan".toList || (fraction? cs).any Fraction.isFinite

/-- A number of two digits. -/
def twoDigits? : List Char → Option (Nat × List Char)
  | a :: b :: rest => (Digits.read? 10 [a, b]).map (·, rest)
  | _ => none

/-- The number of days of a month. -/
def daysOf (year month : Nat) : Nat :=
  if month = 2 then if year % 4 = 0 ∧ (year % 100 ≠ 0 ∨ year % 400 = 0) then 29 else 28
  else if month = 4 ∨ month = 6 ∨ month = 9 ∨ month = 11 then 30
  else 31

/-- Drops a date. -/
def dropDate? (cs : List Char) : Option (List Char) := do
  let (century, rest) ← twoDigits? cs
  let (yearOfCentury, rest) ← twoDigits? rest
  let '-' :: rest := rest | none
  let (month, rest) ← twoDigits? rest
  let '-' :: rest := rest | none
  let (day, rest) ← twoDigits? rest
  let days := daysOf (100 * century + yearOfCentury) month
  if 1 ≤ month ∧ month ≤ 12 ∧ 1 ≤ day ∧ day ≤ days then some rest else none

/-- Drops a time of day. -/
def dropTime? (cs : List Char) : Option (List Char) := do
  let (hour, rest) ← twoDigits? cs
  let ':' :: rest := rest | none
  let (minute, rest) ← twoDigits? rest
  let ':' :: rest := rest | none
  let (second, rest) ← twoDigits? rest
  if !(hour ≤ 23 && minute ≤ 59 && second ≤ 60) then none
  match rest with
  | '.' :: rest =>
    let after := rest.dropWhile Char.isDigit
    if after.length < rest.length then some after else none
  | rest => some rest

/-- Whether a text is a distance from universal time. -/
def isOffset : List Char → Bool
  | ['Z'] | ['z'] => true
  | sign :: rest =>
    (sign == '+' || sign == '-') &&
    match twoDigits? rest with
    | some (hour, ':' :: rest) =>
      match twoDigits? rest with
      | some (minute, []) => hour ≤ 23 && minute ≤ 59
      | _ => false
    | _ => false
  | [] => false

/-- Whether a text is a point in time: a date, a time of day, or both, then with an offset or not. -/
def isTime (cs : List Char) : Bool :=
  match dropDate? cs with
  | some [] => true
  | some (c :: rest) =>
    (c == 'T' || c == 't' || c == ' ') && (dropTime? rest).any fun rest => rest.isEmpty || isOffset rest
  | none => dropTime? cs == some []

/-- The value that a word stands for. -/
def value? (cs : List Char) : Option Document :=
  if cs == "true".toList then some (.boolean true)
  else if cs == "false".toList then some (.boolean false)
  else
    match integer? cs with
    | some n => if inRange n then some (.integer n) else none
    | none => if isFraction cs || isTime cs then some .other else none

/-- The characters of words. -/
def isWordChar (c : Char) : Bool :=
  c.isAlphanum || c == '_' || c == '-' || c == '+' || c == '.' || c == ':'

/-- Reads a word. A date goes on behind a blank if digits follow. -/
def read? (cs : List Char) : Option (Document × List Char) :=
  let (word, rest) := cs.span isWordChar
  let (word, rest) := match dropDate? word, rest with
    | some [], ' ' :: after =>
      let (time, behind) := after.span isWordChar
      if time.head?.any Char.isDigit then (word ++ ' ' :: time, behind) else (word, rest)
    | _, _ => (word, rest)
  (value? word).map (·, rest)

end KeyEngine.Toml.Scalar
