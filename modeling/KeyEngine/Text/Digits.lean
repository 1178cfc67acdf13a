/-!
# Numbers in a base

Digits up to base sixteen, in either case when they are read and in upper case when they are written,
and characters that are given by their number.
-/

namespace KeyEngine.Digits

/-- The value of a digit in a base up to sixteen. -/
def value? (base : Nat) (c : Char) : Option Nat :=
  let value :=
    if '0' ≤ c ∧ c ≤ '9' then some (c.toNat - '0'.toNat)
    else if 'a' ≤ c ∧ c ≤ 'f' then some (c.toNat - 'a'.toNat + 10)
    else if 'A' ≤ c ∧ c ≤ 'F' then some (c.toNat - 'A'.toNat + 10)
    else none
  value.filter (· < base)

/-- Reads a nonempty run of digits. -/
def read? (base : Nat) : List Char → Option Nat
  | [] => none
  | cs => cs.foldlM (fun high c => (value? base c).map (base * high + ·)) 0

/-- The character with a number in base sixteen. -/
def char? (digits : List Char) : Option Char :=
  (read? 16 digits).bind fun n =>
    if n < 0xD800 ∨ (0xDFFF < n ∧ n ≤ 0x10FFFF) then some (Char.ofNat n) else none

/-- A number in base sixteen with a fixed count of digits. -/
def hex (count n : Nat) : List Char :=
  (List.range count).reverse.map fun place => (Nat.digitChar (n / Nat.pow 16 place % 16)).toUpper

end KeyEngine.Digits
