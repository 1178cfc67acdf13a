/-!
# Text as lists of characters

Keymap entries, modifier lists and scripts are read from lists of characters. This module holds what
all of them share: the blank characters, cutting blanks off both ends, words and lines, and comparison
without regard to ASCII case. The small lemmas say what each cut keeps.
-/

namespace KeyEngine.Text

/-- The characters with the Unicode property `White_Space`. -/
def isBlank (c : Char) : Bool :=
  (0x09 ≤ c.toNat && c.toNat ≤ 0x0D) || c.toNat == 0x20 || c.toNat == 0x85 || c.toNat == 0xA0 ||
  c.toNat == 0x1680 || (0x2000 ≤ c.toNat && c.toNat ≤ 0x200A) || c.toNat == 0x2028 ||
  c.toNat == 0x2029 || c.toNat == 0x202F || c.toNat == 0x205F || c.toNat == 0x3000

/-- Drops the blanks in front. -/
def trimStart (cs : List Char) : List Char := cs.dropWhile isBlank

/-- Drops the blanks behind. -/
def trimEnd (cs : List Char) : List Char := (cs.reverse.dropWhile isBlank).reverse

/-- Drops the blanks at both ends. -/
def trim (cs : List Char) : List Char := trimEnd (trimStart cs)

/-- ASCII letters in upper case, every other character as it is. -/
def upper (cs : List Char) : List Char := cs.map Char.toUpper

/-- ASCII letters in lower case, every other character as it is. -/
def lower (cs : List Char) : List Char := cs.map Char.toLower

/-- Equality up to the case of ASCII letters. -/
def sameLetters (a b : List Char) : Bool := lower a == lower b

/-- The rest behind a given start, if the text has that start. -/
def dropStart? (start cs : List Char) : Option (List Char) :=
  if start.isPrefixOf cs then some (cs.drop start.length) else none

/-- The pieces between the characters that `p` accepts; there is always at least one piece. -/
def splitAll (p : Char → Bool) : List Char → List (List Char)
  | [] => [[]]
  | c :: rest =>
    match splitAll p rest with
    | [] => [[]]
    | piece :: pieces => if p c then [] :: piece :: pieces else (c :: piece) :: pieces

/-- The maximal runs of characters that are not blank. -/
def words (cs : List Char) : List (List Char) := (splitAll isBlank cs).filter (! ·.isEmpty)

/-- Drops one carriage return from the end of a line. -/
def dropReturn (line : List Char) : List Char :=
  if line.getLast? = some '\r' then line.dropLast else line

/-- Lines end at a line feed, which may have a carriage return in front; a text that ends in a line
feed has no empty line behind it. -/
def lines : List Char → List (List Char) := fun cs =>
  let pieces := splitAll (· == '\n') cs
  let whole := pieces.dropLast.map dropReturn
  match pieces.getLast? with
  | none => whole
  | some [] => whole
  | some last => whole ++ [last]

/-- Cuts at the first character that `p` accepts, which belongs to neither part. -/
def cut? (p : Char → Bool) : List Char → Option (List Char × List Char)
  | [] => none
  | c :: rest => if p c then some ([], rest) else (cut? p rest).map fun (a, b) => (c :: a, b)

/-- Joins pieces with a separator between neighbours. -/
def join (separator : List Char) : List (List Char) → List Char
  | [] => []
  | [piece] => piece
  | piece :: rest => piece ++ separator ++ join separator rest

/-- Trimming at the front keeps the rest of the text in its order. -/
theorem trimStart_sublist (cs : List Char) : (trimStart cs).Sublist cs :=
  List.dropWhile_sublist _

/-- Trimmed text is no longer than it was. -/
theorem trim_length_le (cs : List Char) : (trim cs).length ≤ cs.length := by
  have h₁ := (List.dropWhile_sublist isBlank (l := (trimStart cs).reverse)).length_le
  have h₂ := (trimStart_sublist cs).length_le
  simp only [trim, trimEnd, List.length_reverse] at *
  omega

/-- Both parts of a cut, with the character between them, make up the text. -/
theorem cut?_eq_some {p : Char → Bool} {cs a b : List Char} (h : cut? p cs = some (a, b)) :
    ∃ c, p c = true ∧ cs = a ++ c :: b := by
  induction cs generalizing a b with
  | nil => simp [cut?] at h
  | cons c rest ih =>
    unfold cut? at h
    split at h
    next hp =>
      obtain ⟨rfl, rfl⟩ : [] = a ∧ rest = b := by simpa using h
      exact ⟨c, hp, rfl⟩
    next =>
      obtain ⟨⟨a', b'⟩, h', heq⟩ := Option.map_eq_some_iff.1 h
      obtain ⟨rfl, rfl⟩ : c :: a' = a ∧ b' = b := by simpa using heq
      obtain ⟨d, hd, rfl⟩ := ih h'
      exact ⟨d, hd, rfl⟩

/-- What follows a cut is shorter than the text, since the character cut at belongs to neither part. -/
theorem cut?_length_lt {p : Char → Bool} {cs a b : List Char} (h : cut? p cs = some (a, b)) :
    b.length < cs.length := by
  obtain ⟨c, _, rfl⟩ := cut?_eq_some h
  simp only [List.length_append, List.length_cons]
  omega

/-- Every split has a first piece. -/
theorem splitAll_ne_nil (p : Char → Bool) (cs : List Char) : splitAll p cs ≠ [] := by
  cases cs with
  | nil => simp [splitAll]
  | cons c rest =>
    unfold splitAll
    split
    · simp
    · split <;> simp

end KeyEngine.Text
