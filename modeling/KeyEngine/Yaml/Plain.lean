import KeyEngine.Yaml.Space

/-!
# Texts without quotes in YAML

A text without quotes ends at a colon in front of a gap, at a comment, at a line that is not indented
enough, and inside of brackets also at a comma or a bracket. Its gaps are folded.
-/

namespace KeyEngine.Yaml.Plain

/-- The characters up to the next gap or the end of the text, and the rest. -/
def chunk? (inBrackets : Bool) : List Char → Option (List Char × List Char)
  | [] => some ([], [])
  | c :: rest =>
    if isGap c then some ([], c :: rest)
    else if inBrackets && c == ':' && rest.head?.any (",?[]\x7b\x7d".toList.contains ·) then none
    else if c == ':' && atGap rest then some ([], c :: rest)
    else if inBrackets && ",[]\x7b\x7d".toList.contains c then some ([], c :: rest)
    else (chunk? inBrackets rest).map fun (chunk, rest) => (c :: chunk, rest)

/-- The rest behind a chunk is no longer than the text. -/
theorem length_chunk? {inBrackets : Bool} {cs chunk rest : List Char}
    (h : chunk? inBrackets cs = some (chunk, rest)) : rest.length ≤ cs.length := by
  induction cs generalizing chunk rest with
  | nil =>
    obtain ⟨rfl, rfl⟩ : chunk = [] ∧ rest = [] := by simpa [chunk?, eq_comm] using h
    exact Nat.le_refl _
  | cons c cs ih =>
    unfold chunk? at h
    split at h
    · obtain ⟨_, rfl⟩ : [] = chunk ∧ c :: cs = rest := by simpa using h
      exact Nat.le_refl _
    split at h
    · simp at h
    split at h
    · obtain ⟨_, rfl⟩ : [] = chunk ∧ c :: cs = rest := by simpa using h
      exact Nat.le_refl _
    split at h
    · obtain ⟨_, rfl⟩ : [] = chunk ∧ c :: cs = rest := by simpa using h
      exact Nat.le_refl _
    · obtain ⟨⟨_, _⟩, found, same⟩ := Option.map_eq_some_iff.1 h
      obtain ⟨_, rfl⟩ : _ ∧ _ = rest := by simpa using same
      exact Nat.le_succ_of_le (ih found)

/-- The beginnings of lines in a gap: what stands behind each of its line breaks. -/
def lineStarts (gap : List Char) : List (List Char) := (Text.splitAll isBreak gap).tail

/-- The rest of a text that started on some line. -/
structure Tail where
  /-- What the text goes on with. -/
  text : List Char
  /-- What follows the text and the gap behind it. -/
  rest : List Char
  /-- The gap behind the text has a line break. -/
  lineEnded : Bool

/-- Reads on behind a chunk. Lines that go on must be indented by `floor` columns, which matters only
outside of brackets. -/
def tail? (inBrackets : Bool) (floor : Nat) (cs : List Char) : Option Tail :=
  match _ : spanGap cs with
  | (gap, rest) =>
    if _ : gap.isEmpty then some ⟨[], cs, false⟩
    else
      let starts := lineStarts gap
      let column := starts.getLast?.map List.length
      if starts.any fun start => (start.take floor).contains '\t' then none
      else if (!inBrackets && column.any (· < floor)) || (column == some 0 && isMarker rest) ||
          rest.head? == some '#' then
        some ⟨[], rest, !starts.isEmpty⟩
      else
        match _ : chunk? inBrackets rest with
        | none => none
        | some ([], rest) => some ⟨[], rest, !starts.isEmpty⟩
        | some (chunk, rest) =>
          (tail? inBrackets floor rest).map fun tail =>
            { tail with text := foldGap gap ++ chunk ++ tail.text }
termination_by cs.length
decreasing_by
  rename_i spans nonempty _ _ found
  have total := length_spanGap cs
  have shorter := length_chunk? found
  have positive : 0 < gap.length := by
    cases gap with
    | nil => simp at nonempty
    | cons _ _ => simp
  simp only [spans] at total
  omega

/-- Reads a text. -/
def read? (inBrackets : Bool) (floor : Nat) (cs : List Char) : Option Tail := do
  let (chunk, rest) ← chunk? inBrackets cs
  let tail ← tail? inBrackets floor rest
  return { tail with text := chunk ++ tail.text }

end KeyEngine.Yaml.Plain
