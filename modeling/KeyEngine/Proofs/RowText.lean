import KeyEngine.Config
import KeyEngine.Proofs.ActionText

/-!
# Layers are read as they are written

A row of a layer is a list of entries with commas between them, and it may end in a comma. Its entries are
found again whatever stands in them, as long as each is one entry and not blank (`entries_row`), and they
are numbered through all rows. So rows of written actions are read as those actions
(`readRows_append`), and behind them the number of an entry is the number of actions in front of it.
-/

namespace KeyEngine

open Text

namespace Action

/-- Blanks around an action are not part of it. -/
theorem ofChars_trim (cs : List Char) : ofChars (trim cs) = ofChars cs := by
  unfold ofChars
  rw [trim_trim]

/-- The written form of an action is one entry. -/
theorem within?_text (action : Action) : Entries.within? 0 action.text.toList = some 0 := by
  rw [text, String.toList_ofList]
  exact action.whole_chars.one

/-- The written form of an action is not blank. -/
theorem trim_text_ne_nil (action : Action) : trim action.text.toList ≠ [] := by
  rw [text, String.toList_ofList, action.whole_chars.trim_eq]
  exact action.whole_chars.filled

end Action

namespace LayerRows

/-- A row of entries with commas between them; a row with entries may end in a comma. -/
def rowText (entries : List String) (comma : Bool) : String :=
  ", ".intercalate entries ++ if comma && !entries.isEmpty then "," else ""

/-- A row of actions, each in its written form. -/
def writtenRow (row : List Action × Bool) : String := rowText (row.1.map Action.text) row.2

/-- The characters of a row are its entries, joined by commas and blanks, and perhaps a comma. -/
theorem toList_rowText (entries : List String) (comma : Bool) :
    (rowText entries comma).toList = join [',', ' '] (entries.map String.toList) ++
      if comma && !entries.isEmpty then [','] else [] := by
  have joined (texts : List (List Char)) : [',', ' '].intercalate texts = join [',', ' '] texts := by
    induction texts with
    | nil => rfl
    | cons first rest ih =>
      cases rest with
      | nil => exact List.intercalate_singleton
      | cons second others =>
        rw [List.intercalate_cons_cons, ih]
        rfl
  rw [rowText, String.toList_append, String.toList_intercalate, apply_ite String.toList,
    show ", ".toList = [',', ' '] from rfl, joined]
  rfl

/-- The entries of a row are found again, whether or not it ends in a comma. -/
theorem entries_row {entries : List String}
    (single : ∀ entry ∈ entries, Entries.within? 0 entry.toList = some 0)
    (filled : ∀ entry ∈ entries, trim entry.toList ≠ []) (comma : Bool) :
    ∃ found, Action.entries (rowText entries comma).toList = .ok found ∧
      dropTrailing found = entries.map (trim ·.toList) := by
  cases entries with
  | nil => exact ⟨[], by rw [toList_rowText]; cases comma <;> rfl, rfl⟩
  | cons first others =>
    have present : (first :: others).map String.toList ≠ [] := List.cons_ne_nil _ _
    have texts {property : List Char → Prop} (each : ∀ entry ∈ first :: others, property entry.toList) :
        ∀ cs ∈ (first :: others).map String.toList, property cs := List.forall_mem_map.2 each
    obtain ⟨bare, ended⟩ := Entries.ofChars?_join present (texts single) (texts filled)
    rw [show ((first :: others).map String.toList).map trim = (first :: others).map (trim ·.toList) from
      List.map_map] at bare ended
    cases comma with
    | false =>
      have last : ((first :: others).map (trim ·.toList)).getLast? ≠ some [] := by
        intro blank
        obtain ⟨entry, member, empty⟩ := List.mem_map.1 (List.mem_of_getLast? blank)
        exact filled entry member empty
      have kept : dropTrailing ((first :: others).map (trim ·.toList)) =
          (first :: others).map (trim ·.toList) := if_neg last
      refine ⟨_, ?_, kept⟩
      rw [toList_rowText, Bool.false_and, if_neg Bool.false_ne_true, List.append_nil, Action.entries,
        bare]
      rfl
    | true =>
      refine ⟨(first :: others).map (trim ·.toList) ++ [[]], ?_, ?_⟩
      · rw [toList_rowText, List.isEmpty_cons, Bool.true_and, Bool.not_false, if_pos rfl, Action.entries,
          ended]
        rfl
      · rw [dropTrailing, if_pos List.getLast?_concat, List.dropLast_concat]

/-- Actions are read from their written forms, and what follows them is read with the numbers that
follow. -/
theorem readEntries_append {actions : List Action} (readable : ∀ action ∈ actions, action.Readable)
    (layer : String) (key : Nat) (rest : List (List Char)) :
    readEntries layer key (actions.map Action.chars ++ rest) =
      (readEntries layer (key + actions.length) rest).map (actions ++ ·) := by
  induction actions generalizing key with
  | nil =>
    rw [List.map_nil, List.nil_append, List.length_nil, Nat.add_zero]
    cases readEntries layer key rest <;> rfl
  | cons action others ih =>
    have first : Action.ofChars action.chars = .ok action := Action.ofChars_chars (readable action (.head _))
    have later := ih (fun action member => readable action (.tail _ member)) (key + 1)
    rw [Nat.add_right_comm] at later
    rw [List.map_cons, List.cons_append, readEntries, first, later, List.length_cons]
    cases readEntries layer (key + (others.length + 1)) rest <;> rfl

/-- The entries of a row of written actions. -/
theorem trim_texts (actions : List Action) :
    (actions.map Action.text).map (trim ·.toList) = actions.map Action.chars := by
  rw [List.map_map]
  refine List.map_congr_left fun action _ => ?_
  show trim (String.ofList action.chars).toList = action.chars
  rw [String.toList_ofList, action.whole_chars.trim_eq]

/-- Rows of written actions are read as these actions, and what follows them is read with the numbers
that follow. -/
theorem readRows_append {rows : List (List Action × Bool)}
    (readable : ∀ row ∈ rows, ∀ action ∈ row.1, action.Readable) (layer : String) (key : Nat)
    (rest : List String) : readRows layer key (rows.map writtenRow ++ rest) =
      (readRows layer (key + (rows.flatMap Prod.fst).length) rest).map (rows.flatMap Prod.fst ++ ·) := by
  induction rows generalizing key with
  | nil =>
    rw [List.map_nil, List.nil_append, List.flatMap_nil, List.length_nil, Nat.add_zero]
    cases readRows layer key rest <;> rfl
  | cons row others ih =>
    obtain ⟨found, entered, dropped⟩ := entries_row
      (List.forall_mem_map.2 fun action (_ : action ∈ row.1) => action.within?_text)
      (List.forall_mem_map.2 fun action _ => action.trim_text_ne_nil) row.2
    have first : readEntries layer key (dropTrailing found) = .ok row.1 := by
      have read := readEntries_append (readable row (.head _)) layer key []
      rw [List.append_nil] at read
      rw [dropped, trim_texts, read]
      show Except.ok (row.1 ++ []) = _
      rw [List.append_nil]
    have later := ih (fun row member => readable row (.tail _ member)) (key + row.1.length)
    rw [Nat.add_assoc, ← List.length_append, ← List.flatMap_cons] at later
    rw [List.map_cons, List.cons_append, readRows, writtenRow, entered]
    show readEntries layer key (dropTrailing found) >>= _ = _
    rw [first]
    show readRows layer (key + row.1.length) _ >>= _ = _
    rw [later]
    cases readRows layer (key + ((row :: others).flatMap Prod.fst).length) rest with
    | error e => rfl
    | ok more =>
      show Except.ok (row.1 ++ (others.flatMap Prod.fst ++ more)) = _
      rw [← List.append_assoc, ← List.flatMap_cons]
      rfl

/-- A row with an entry that cannot be read is refused at the number of that entry. -/
theorem readRows_refused {front back : List Action} (readable : ∀ action ∈ front, action.Readable)
    {bad : String} {error : ActionError} (one : Entries.within? 0 bad.toList = some 0)
    (filled : trim bad.toList ≠ []) (rejected : Action.ofString bad = .error error) (comma : Bool)
    (layer : String) (key : Nat) (rest : List String) :
    readRows layer key
        (rowText (front.map Action.text ++ bad :: back.map Action.text) comma :: rest) =
      .error (.action layer (key + front.length) error) := by
  have single : ∀ entry ∈ front.map Action.text ++ bad :: back.map Action.text,
      Entries.within? 0 entry.toList = some 0 :=
    List.forall_mem_append.2 ⟨List.forall_mem_map.2 fun action _ => action.within?_text,
      List.forall_mem_cons.2 ⟨one, List.forall_mem_map.2 fun action _ => action.within?_text⟩⟩
  have some : ∀ entry ∈ front.map Action.text ++ bad :: back.map Action.text,
      trim entry.toList ≠ [] :=
    List.forall_mem_append.2 ⟨List.forall_mem_map.2 fun action _ => action.trim_text_ne_nil,
      List.forall_mem_cons.2 ⟨filled, List.forall_mem_map.2 fun action _ => action.trim_text_ne_nil⟩⟩
  obtain ⟨found, entered, dropped⟩ := entries_row single some comma
  have refused : readEntries layer key (dropTrailing found) =
      .error (.action layer (key + front.length) error) := by
    have misread : Action.ofChars (trim bad.toList) = .error error := by
      rw [Action.ofChars_trim]
      exact rejected
    rw [dropped, List.map_append, trim_texts, List.map_cons, readEntries_append readable, readEntries,
      misread]
    rfl
  rw [readRows, entered]
  show readEntries layer key (dropTrailing found) >>= _ = _
  rw [refused]
  rfl

/-- Rows of written actions that some texts mean are read as these actions, in order. With one of them
replaced by an entry that cannot be read, the layer is refused, with its name, the number of actions in
front of that entry, and what is wrong with it. -/
theorem actions_written (name : String) {rows : List (List Action × Bool)}
    (meant : ∀ row ∈ rows, ∀ action ∈ row.1, ∃ s, Action.ofString s = .ok action) :
    actions ⟨name, rows.map writtenRow⟩ = .ok (rows.flatMap Prod.fst) ∧
      ∀ before after front replaced back comma,
        rows = before ++ (front ++ replaced :: back, comma) :: after →
        ∀ (bad : String) (error : ActionError), Entries.Single bad.toList → trim bad.toList ≠ [] →
          Action.ofString bad = .error error →
          actions ⟨name, before.map writtenRow ++
              rowText (front.map Action.text ++ bad :: back.map Action.text) comma ::
                after.map writtenRow⟩ =
            .error (.action name ((before.flatMap Prod.fst).length + front.length) error) := by
  have readable : ∀ row ∈ rows, ∀ action ∈ row.1, action.Readable := by
    intro row member action among
    obtain ⟨s, read⟩ := meant row member action among
    exact Action.yields_readable _ action read
  constructor
  · have read := readRows_append readable name 0 []
    rw [List.append_nil] at read
    rw [actions, read]
    show Except.ok (rows.flatMap Prod.fst ++ []) = _
    rw [List.append_nil]
  · rintro before after front replaced back comma rfl bad error single filled rejected
    have first : ∀ row ∈ before, ∀ action ∈ row.1, action.Readable := fun row member =>
      readable row (List.mem_append_left _ member)
    have fronts : ∀ action ∈ front, action.Readable := fun action member =>
      readable _ (List.mem_append_right _ (.head _)) action (List.mem_append_left _ member)
    rw [actions, readRows_append first, readRows_refused fronts (Entries.single_iff.1 single) filled rejected,
      Nat.zero_add]
    rfl

/-- Three rows, the first of which ends in a comma, and the second of which is empty. -/
def threeRows : List (List Action × Bool) :=
  [([.cancel, .modTap (.single .leftControl) (.ofCode .a)], true), ([], false),
    ([.macroSequence [.ofCode .a, ⟨.b, .single .leftShift⟩]], false)]

set_option maxRecDepth 10000 in
/-- The rows are read as their three actions, the last of which is key 2: an unknown action in its place is
refused under that number. -/
theorem actions_written_three_rows :
    actions ⟨"base", ["CANCEL, MT(LCTL, A),", "", "MACRO(A, LSFT(B))"]⟩ =
        .ok (threeRows.flatMap Prod.fst) ∧
      actions ⟨"base", ["CANCEL, MT(LCTL, A),", "", "QQ(1, 2)"]⟩ =
        .error (.action "base" 2 (.unknownAction "QQ(1, 2)")) := by
  have readable : ∀ row ∈ threeRows, ∀ action ∈ row.1, action.Readable := by decide
  have meant : ∀ row ∈ threeRows, ∀ action ∈ row.1, ∃ s, Action.ofString s = .ok action :=
    fun row member action among => ⟨_, Action.ofString_text (readable row member action among)⟩
  have written : threeRows.map writtenRow = ["CANCEL, MT(LCTL, A),", "", "MACRO(A, LSFT(B))"] := by decide +kernel
  obtain ⟨read, refused⟩ := actions_written "base" meant
  rw [written] at read
  have refused := refused (threeRows.take 2) [] [] _ [] false rfl "QQ(1, 2)" (.unknownAction "QQ(1, 2)")
    (by decide) (by decide) (by decide +kernel)
  have rows : (threeRows.take 2).map writtenRow ++ [rowText ["QQ(1, 2)"] false] =
      ["CANCEL, MT(LCTL, A),", "", "QQ(1, 2)"] := by decide +kernel
  exact ⟨read, rows ▸ refused⟩

end LayerRows

end KeyEngine
