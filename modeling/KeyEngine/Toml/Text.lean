import KeyEngine.Text.Digits

/-!
# Texts in TOML

Texts stand in quotation marks or in apostrophes, and on one line or, between three of them, on
several. Only quotation marks allow escapes. This module also reads keys: words, or texts on one line,
joined by points.
-/

namespace KeyEngine.Toml

/-- Blanks within a line. -/
def isSpace (c : Char) : Bool := c == ' ' || c == '\t'

/-- Drops the blanks in front. -/
def dropSpace (cs : List Char) : List Char := cs.dropWhile isSpace

/-- The characters of texts and comments. -/
def isShown (c : Char) : Bool := c == '\t' || (0x20 ≤ c.toNat && c.toNat != 0x7F)

/-- The rest behind a line break, if there is one. -/
def dropBreak? : List Char → Option (List Char)
  | '\n' :: rest | '\r' :: '\n' :: rest => some rest
  | _ => none

/-- A text is shorter without the line break in front of it. -/
theorem length_dropBreak? {cs rest : List Char} (h : dropBreak? cs = some rest) :
    rest.length < cs.length := by
  unfold dropBreak? at h
  split at h
  · obtain rfl := Option.some.inj h
    simp
  · obtain rfl := Option.some.inj h
    simp only [List.length_cons]
    omega
  · simp at h

/-- The character behind a backslash, and how many characters it takes. -/
def escape? : List Char → Option (Char × Nat)
  | 'b' :: _ => some (Char.ofNat 0x08, 1)
  | 't' :: _ => some ('\t', 1)
  | 'n' :: _ => some ('\n', 1)
  | 'f' :: _ => some (Char.ofNat 0x0C, 1)
  | 'r' :: _ => some ('\r', 1)
  | '"' :: _ => some ('"', 1)
  | '\\' :: _ => some ('\\', 1)
  | 'u' :: rest => if 4 ≤ rest.length then (Digits.char? (rest.take 4)).map (·, 5) else none
  | 'U' :: rest => if 8 ≤ rest.length then (Digits.char? (rest.take 8)).map (·, 9) else none
  | _ => none

/-- Drops blanks and line breaks. -/
def dropLines : List Char → List Char
  | '\r' :: '\n' :: rest => dropLines rest
  | c :: rest => if isSpace c || c == '\n' then dropLines rest else c :: rest
  | [] => []

/-- Dropping blanks and line breaks never lengthens a text. -/
theorem length_dropLines (cs : List Char) : (dropLines cs).length ≤ cs.length := by
  fun_induction dropLines cs with
  | case1 rest ih => simp only [List.length_cons]; omega
  | case2 c rest _ _ ih => simp only [List.length_cons]; omega
  | case3 => exact Nat.le_refl _
  | case4 => exact Nat.le_refl _

/-- The rest behind a backslash that ends a line: it skips everything up to the next character that is
not blank. -/
def joinLines? (cs : List Char) : Option (List Char) := (dropBreak? (dropSpace cs)).map dropLines

/-- A line that is joined to the next loses at least its line break. -/
theorem length_joinLines? {cs rest : List Char} (h : joinLines? cs = some rest) :
    rest.length < cs.length := by
  obtain ⟨after, found, rfl⟩ := Option.map_eq_some_iff.1 h
  have h₁ := length_dropBreak? found
  have h₂ := length_dropLines after
  have h₃ : (dropSpace cs).length ≤ cs.length := (List.dropWhile_sublist _).length_le
  omega

/-- Reads a text on one line behind the mark that opens it. -/
def textLine? (mark : Char) : List Char → Option (List Char × List Char)
  | [] => none
  | c :: rest =>
    if c == mark then some ([], rest)
    else if mark == '"' && c == '\\' then
      (escape? rest).bind fun (d, n) =>
        (textLine? mark (rest.drop n)).map fun (text, rest) => (d :: text, rest)
    else if isShown c then (textLine? mark rest).map fun (text, rest) => (c :: text, rest)
    else none
termination_by cs => cs.length
decreasing_by all_goals simp only [List.length_drop, List.length_cons]; omega

/-- Reads a text on several lines behind the marks that open it. Up to two marks may stand in front of
the three that close it. -/
def textLines? (mark : Char) (cs : List Char) : Option (List Char × List Char) :=
  match cs with
  | [] => none
  | c :: rest =>
    let follow (d : Char) (n : Nat) : Option (List Char × List Char) :=
      (textLines? mark (rest.drop n)).map fun (text, rest) => (d :: text, rest)
    if c == mark then
      let marks := ((c :: rest).takeWhile (· == mark)).length
      if marks < 3 then follow c 0
      else
        let inner := min (marks - 3) 2
        some (List.replicate inner mark, rest.drop (inner + 2))
    else if mark == '"' && c == '\\' then
      match _ : joinLines? rest with
      | some rest => textLines? mark rest
      | none => (escape? rest).bind fun (d, n) => follow d n
    else if c == '\n' || isShown c || (c == '\r' && rest.head? == some '\n') then follow c 0
    else none
termination_by cs.length
decreasing_by
  · simp only [List.length_drop, List.length_cons]; omega
  · rename_i found
    have := length_joinLines? found
    simp only [List.length_cons]
    omega

/-- Reads a text. -/
def text? (cs : List Char) : Option (List Char × List Char) :=
  match cs with
  | '"' :: '"' :: '"' :: rest => textLines? '"' ((dropBreak? rest).getD rest)
  | '\'' :: '\'' :: '\'' :: rest => textLines? '\'' ((dropBreak? rest).getD rest)
  | '"' :: rest => textLine? '"' rest
  | '\'' :: rest => textLine? '\'' rest
  | _ => none

/-- The characters of keys without marks. -/
def isKeyChar (c : Char) : Bool := c.isAlphanum || c == '_' || c == '-'

/-- Reads a key: a word, or a text on one line. -/
def key? (cs : List Char) : Option (String × List Char) :=
  match cs with
  | '"' :: rest => (textLine? '"' rest).map fun (text, rest) => (String.ofList text, rest)
  | '\'' :: rest => (textLine? '\'' rest).map fun (text, rest) => (String.ofList text, rest)
  | _ =>
    let (word, rest) := cs.span isKeyChar
    if word.isEmpty then none else some (String.ofList word, rest)

/-- Reads keys that are joined by points, of which the last one is told apart. -/
def path? (cs : List Char) : Option (List String × String × List Char) :=
  match key? (dropSpace cs) with
  | none => none
  | some (key, rest) =>
    match dropSpace rest with
    | '.' :: more =>
      if _ : more.length < cs.length then
        (path? more).map fun (path, last, rest) => (key :: path, last, rest)
      else none
    | rest => some ([], key, rest)
termination_by cs.length

end KeyEngine.Toml
