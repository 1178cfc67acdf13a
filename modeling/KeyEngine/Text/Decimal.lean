import KeyEngine.Text

/-!
# Decimal numbers

Layer numbers, key numbers and times are written in decimal digits. Reading accepts one plus sign in
front and any number of leading zeros, and refuses what lies above the given bound.
-/

namespace KeyEngine.Decimal

/-- The value of an ASCII digit. -/
def digit? (c : Char) : Option Nat :=
  if '0' ≤ c ∧ c ≤ '9' then some (c.toNat - '0'.toNat) else none

/-- The value of a run of digits that follows the digits with value `high`. -/
def valueFrom? (high : Nat) : List Char → Option Nat
  | [] => some high
  | c :: rest => (digit? c).bind fun d => valueFrom? (10 * high + d) rest

/-- A nonempty run of digits. -/
def digits? : List Char → Option Nat
  | [] => none
  | cs => valueFrom? 0 cs

/-- A number from 0 to `bound`, with an optional plus sign. -/
def read? (bound : Nat) (cs : List Char) : Option Nat :=
  let unsigned := match cs with
    | '+' :: rest => rest
    | _ => cs
  (digits? unsigned).filter (· ≤ bound)

/-- The shortest decimal writing. -/
def write (n : Nat) : List Char := Nat.toDigits 10 n

/-- What is read lies within the bound. -/
theorem read?_le {bound n : Nat} {cs : List Char} (h : read? bound cs = some n) : n ≤ bound := by
  have := (Option.filter_eq_some_iff.1 h).2
  simpa using this

end KeyEngine.Decimal
