import KeyEngine.Text.Decimal

/-!
# Decimal fractions

A fraction has digits, a point among them, and an exponent. No configuration uses one, but the
notations for documents must tell them from texts, and refuse those that are too large for a double.
-/

namespace KeyEngine.Fraction

/-- The exponent of a fraction: nothing, or the letter `e`, a sign, and digits. -/
def exponent? : List Char → Option Int
  | [] => some 0
  | c :: rest =>
    if c == 'e' || c == 'E' then
      match rest with
      | '-' :: digits => (Decimal.digits? digits).map fun n => -(n : Int)
      | '+' :: digits => (Decimal.digits? digits).map Int.ofNat
      | digits => (Decimal.digits? digits).map Int.ofNat
    else none

/-- Whether `digits * 10 ^ exponent` is too large for a double: at least the middle between the largest
one and the next power of two. -/
def overflows (digits : Nat) (exponent : Int) : Bool :=
  let magnitude := (Nat.toDigits 10 digits).length + exponent
  if digits = 0 ∨ magnitude < 309 then false
  else if 309 < magnitude then true
  else
    let limit := Nat.pow 2 1024 - Nat.pow 2 970
    if 0 ≤ exponent then decide (limit ≤ digits * Nat.pow 10 exponent.toNat)
    else decide (limit * Nat.pow 10 (-exponent).toNat ≤ digits)

/-- Whether a text without a sign is a fraction that is not too large. -/
def isFinite (cs : List Char) : Bool :=
  let (whole, rest) := cs.span Char.isDigit
  let (part, rest) := match rest with
    | '.' :: rest => rest.span Char.isDigit
    | rest => ([], rest)
  match Decimal.digits? (whole ++ part), exponent? rest with
  | some n, some e => !overflows n (e - part.length)
  | _, _ => false

end KeyEngine.Fraction
