import KeyEngine.Text

/-!
# Entries between commas

The arguments of an action and the keys of a row are entries separated by commas. A comma inside
parentheses belongs to its entry. A list whose parentheses do not pair up has no entries.
-/

namespace KeyEngine.Entries

/-- The pieces between the commas that lie outside all parentheses, where `depth` parentheses are
already open; nothing if the parentheses do not pair up. -/
def pieces? : (depth : Nat) → List Char → Option (List (List Char))
  | 0, [] => some [[]]
  | _ + 1, [] => none
  | depth, '(' :: rest => (pieces? (depth + 1) rest).map (push '(')
  | 0, ')' :: _ => none
  | depth + 1, ')' :: rest => (pieces? depth rest).map (push ')')
  | 0, ',' :: rest => (pieces? 0 rest).map ([] :: ·)
  | depth, c :: rest => (pieces? depth rest).map (push c)
where
  /-- Puts a character in front of the first piece. -/
  push (c : Char) : List (List Char) → List (List Char)
    | [] => [[c]]
    | piece :: rest => (c :: piece) :: rest

/-- The entries of a list without the blanks around them. A blank text has no entries. -/
def ofChars? (cs : List Char) : Option (List (List Char)) :=
  (pieces? 0 cs).map fun pieces =>
    match pieces.map Text.trim with
    | [[]] => []
    | entries => entries

end KeyEngine.Entries
