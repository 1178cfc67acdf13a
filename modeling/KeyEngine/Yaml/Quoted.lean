import KeyEngine.Text.Digits
import KeyEngine.Yaml.Space

/-!
# Quoted texts in YAML

In single quotes everything stands for itself and a quote is doubled; in double quotes a backslash
starts an escape. Both may go on over several lines, whose gaps are folded; a line break behind a
backslash counts for nothing.
-/

namespace KeyEngine.Yaml.Quoted

/-- A part of a quoted text. -/
inductive Part where
  /-- A character of the value. -/
  | char (value : Char)
  /-- A blank or line break, which may be folded. -/
  | gap (value : Char)
  /-- A line break that counts for nothing. -/
  | joint

/-- A character with a fixed count of digits behind the letter of its escape. -/
def numberedPart? (count : Nat) (rest : List Char) : Option (Part × Nat) :=
  if count ≤ rest.length then
    (Digits.char? (rest.take count)).map fun c => (.char c, count + 1)
  else none

/-- The character that a letter stands for behind a backslash. -/
def lettered? : Char → Option Char
  | '0' => some (Char.ofNat 0)
  | 'a' => some (Char.ofNat 0x07)
  | 'b' => some (Char.ofNat 0x08)
  | 't' | '\t' => some '\t'
  | 'n' => some '\n'
  | 'v' => some (Char.ofNat 0x0B)
  | 'f' => some (Char.ofNat 0x0C)
  | 'r' => some '\r'
  | 'e' => some (Char.ofNat 0x1B)
  | ' ' => some ' '
  | '"' => some '"'
  | '/' => some '/'
  | '\\' => some '\\'
  | 'N' => some (Char.ofNat 0x85)
  | '_' => some (Char.ofNat 0xA0)
  | 'L' => some (Char.ofNat 0x2028)
  | 'P' => some (Char.ofNat 0x2029)
  | _ => none

/-- What stands behind a backslash, and how many characters it takes. -/
def escape? : List Char → Option (Part × Nat)
  | [] => none
  | '\r' :: '\n' :: _ => some (.joint, 2)
  | 'x' :: rest => numberedPart? 2 rest
  | 'u' :: rest => numberedPart? 4 rest
  | 'U' :: rest => numberedPart? 8 rest
  | c :: _ => if isBreak c then some (.joint, 1) else (lettered? c).map fun d => (.char d, 1)

/-- The parts up to the closing quote, and the rest behind it. A line inside of quotes may not look
like a separator of documents. -/
def parts? (double lineStart : Bool) : List Char → Option (List Part × List Char)
  | [] => none
  | c :: rest =>
    let follow (part : Part) (lineStart : Bool) (n : Nat) : Option (List Part × List Char) :=
      (parts? double lineStart (rest.drop n)).map fun (parts, rest) => (part :: parts, rest)
    if isGap c then follow (.gap c) (isBreak c) 0
    else if lineStart && isMarker (c :: rest) then none
    else if double then
      if c == '"' then some ([], rest)
      else if c == '\\' then (escape? rest).bind fun (part, n) => follow part (part matches .joint) n
      else follow (.char c) false 0
    else if c == '\'' then
      if rest.head? == some '\'' then follow (.char c) false 1 else some ([], rest)
    else follow (.char c) false 0
termination_by cs => cs.length
decreasing_by simp only [List.length_drop, List.length_cons]; omega

/-- What a gap counts for, if it stands behind a joint or not. -/
def settle (joined : Bool) (gap : List Char) : List Char := if joined then breaks gap else foldGap gap

/-- The value of parts that follow an open gap. -/
def valueFrom (joined : Bool) (gap : List Char) : List Part → List Char
  | [] => settle joined gap
  | .char c :: rest => settle joined gap ++ c :: valueFrom false [] rest
  | .gap c :: rest => valueFrom joined (gap ++ [c]) rest
  | .joint :: rest => settle joined gap ++ valueFrom true [] rest

/-- Reads a quoted text behind its opening quote. -/
def read? (double : Bool) (cs : List Char) : Option (List Char × List Char) :=
  (parts? double false cs).map fun (parts, rest) => (valueFrom false [] parts, rest)

end KeyEngine.Yaml.Quoted
