import KeyEngine.Document
import KeyEngine.Text.Fraction
import KeyEngine.Yaml.Space

/-!
# Writing single values in YAML

A text is written without quotes where it cannot be mistaken for anything else: not for a number, a
truth value or the absence of a value, and not for punctuation. Otherwise it is written in single
quotes, and where these cannot show it, in double quotes with escapes. A text of several lines is
written as a block that keeps the lines as they are.
-/

namespace KeyEngine.Yaml

namespace Scalar

/-- The characters that can be shown as they are. -/
def isPrintable (c : Char) : Bool :=
  c == '\n' || (0x20 ≤ c.toNat && c.toNat ≤ 0x7E) ||
  (0xA0 ≤ c.toNat && c.toNat ≤ 0xFFFD && c.toNat != 0xFEFF)

/-- Whether a text would be read as a number. -/
def isNumber (cs : List Char) : Bool :=
  let based (limit : Nat) (cs : List Char) : Bool := (Document.unsigned? cs).any (· ≤ limit)
  match cs with
  | '+' :: rest => based (Nat.pow 2 128 - 1) rest || Document.hasNeedlessZero rest || Fraction.isFinite rest ||
      rest == ".inf".toList || rest == ".Inf".toList || rest == ".INF".toList
  | '-' :: rest => based (Nat.pow 2 127) rest || Document.hasNeedlessZero rest || Fraction.isFinite rest ||
      rest == ".inf".toList || rest == ".Inf".toList || rest == ".INF".toList
  | _ => based (Nat.pow 2 128 - 1) cs || Document.hasNeedlessZero cs || Fraction.isFinite cs ||
      [".inf", ".Inf", ".INF", ".nan", ".NaN", ".NAN"].any (·.toList == cs)

/-- Whether a text would be read as something that is no text. -/
def isAmbiguous (cs : List Char) : Bool :=
  cs.isEmpty || ["null", "Null", "NULL", "~"].any (·.toList == cs) ||
  (Document.boolean? (String.ofList cs)).isSome || isNumber cs

/-- Whether a character with the given neighbours would be read as punctuation outside of quotes. -/
def isPunctuation (before : Option Char) (c : Char) (after : Option Char) : Bool :=
  let blank (neighbour : Option Char) : Bool := neighbour.all fun d => isSpace d || isBreak d
  match before with
  | none => "#,[]{}&*!|>'\"%@`".toList.contains c || ("?:-".toList.contains c && blank after)
  | some d => (c == ':' && blank after) || (c == '#' && blank (some d))

/-- Whether a text has punctuation, where `before` stands in front of it. -/
def hasPunctuation (before : Option Char) : List Char → Bool
  | [] => false
  | c :: rest => isPunctuation before c rest.head? || hasPunctuation (some c) rest

/-- Whether a blank stands at the end of a line that is not the last. -/
def blankBeforeBreak : List Char → Bool
  | a :: b :: rest => (a == ' ' && isBreak b) || blankBeforeBreak (b :: rest)
  | _ => false

/-- Whether a blank stands at the start of a line that is not the first. -/
def blankBehindBreak : List Char → Bool
  | a :: b :: rest => (isBreak a && b == ' ') || blankBehindBreak (b :: rest)
  | _ => false

/-- Whether a text may stand in single quotes, which keep line breaks other than line feeds. -/
def isQuotable (cs : List Char) : Bool :=
  cs.all isPrintable && !cs.contains '\n' && !blankBeforeBreak cs && !blankBehindBreak cs

/-- Whether a text may stand without quotes. -/
def isPlain (cs : List Char) : Bool :=
  !isAmbiguous cs && cs.all isPrintable && !cs.any isBreak &&
  cs.head? != some ' ' && cs.getLast? != some ' ' && !hasPunctuation none cs &&
  !"---".toList.isPrefixOf cs && !"...".toList.isPrefixOf cs

/-- Whether a text of several lines may stand as a block, which may have tabs. -/
def isBlock (cs : List Char) : Bool :=
  cs.contains '\n' && cs.all (fun c => isPrintable c || c == '\t') && cs.getLast? != some ' ' &&
  !blankBeforeBreak cs

/-- A character in double quotes. -/
def escape (c : Char) : List Char :=
  match c.toNat with
  | 0x00 => ['\\', '0']
  | 0x07 => ['\\', 'a']
  | 0x08 => ['\\', 'b']
  | 0x09 => ['\\', 't']
  | 0x0A => ['\\', 'n']
  | 0x0B => ['\\', 'v']
  | 0x0C => ['\\', 'f']
  | 0x0D => ['\\', 'r']
  | 0x1B => ['\\', 'e']
  | 0x22 => ['\\', '"']
  | 0x5C => ['\\', '\\']
  | 0x85 => ['\\', 'N']
  | 0x2028 => ['\\', 'L']
  | 0x2029 => ['\\', 'P']
  | n =>
    if isPrintable c then [c]
    else if n ≤ 0xFF then '\\' :: 'x' :: Digits.hex 2 n
    else if n ≤ 0xFFFF then '\\' :: 'u' :: Digits.hex 4 n
    else '\\' :: 'U' :: Digits.hex 8 n

/-- A text in double quotes. -/
def doubleQuoted (cs : List Char) : List Char := '"' :: cs.flatMap escape ++ ['"']

/-- A text in single quotes; a quote in it is doubled. -/
def singleQuoted (cs : List Char) : List Char :=
  '\'' :: cs.flatMap (fun c => if c == '\'' then [c, c] else [c]) ++ ['\'']

/-- A text on one line. -/
def inline (cs : List Char) : List Char :=
  if isPlain cs then cs
  else if isQuotable cs then singleQuoted cs
  else doubleQuoted cs

/-- What stands behind the bar of a block: two for an indentation that the first line does not show,
and how the block ends. -/
def blockHeader (cs : List Char) : List Char :=
  let indentation := if cs.head? == some ' ' || cs.head?.any isBreak then ['2'] else []
  let ending :=
    match cs.reverse with
    | [] => ['-']
    | c :: rest => if !isBreak c then ['-'] else if rest.head?.all isBreak then ['+'] else []
  '|' :: indentation ++ ending

/-- The lines of a block. -/
def blockLines (cs : List Char) : List (List Char) :=
  let pieces := Text.splitAll (· == '\n') cs
  if cs.getLast? == some '\n' then pieces.dropLast else pieces

/-- A text as its first line and the lines of its block. -/
def lines (cs : List Char) : List (List Char) :=
  if isBlock cs then blockHeader cs :: blockLines cs else [inline cs]

end Scalar

end KeyEngine.Yaml
