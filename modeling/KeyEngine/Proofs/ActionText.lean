import KeyEngine.Proofs.Spelling

/-!
# Key actions are read as they are written

A written action is a word, a keystroke or a call, and reading it has to find out which. Words have no
parenthesis, keystrokes have no word for a name, and the name in front of a parenthesis is that of a call or
the modifiers of a keystroke, never both. The arguments of a call are entries that are found again
(`Entries.Whole`), so every call is read with the arguments that were written (`ofChars_callChars`).

What can be read is `Readable`: a key that holds modifiers holds at least one, and a macro has at least one
stroke. `yields_readable` says so of every text, and `ofChars_chars` that nothing else is needed.
-/

namespace KeyEngine

open Text

namespace Entries

/-- A text that is found again as it is, once it was joined with others: one entry, not empty, and
without blanks at its ends. -/
structure Whole (cs : List Char) : Prop where
  /-- The text is one entry. -/
  one : within? 0 cs = some 0
  /-- There is no blank at its ends. -/
  tight : Tight cs
  /-- There is something in it. -/
  filled : cs ≠ []

/-- A text without blanks, commas and parentheses is found again as one entry. -/
theorem Whole.of_plain {cs : List Char} (plain : Plain cs) (filled : cs ≠ []) : Whole cs :=
  ⟨within?_of_plain 0 plain, plain.tight, filled⟩

/-- What is whole is its own trimming. -/
theorem Whole.trim_eq {cs : List Char} (whole : Whole cs) : trim cs = cs := trim_of_tight whole.tight

/-- The only argument of a call is whole. -/
theorem Whole.alone {cs : List Char} (whole : Whole cs) : ∀ argument ∈ [cs], Whole argument :=
  List.forall_mem_singleton.2 whole

/-- Both arguments of a call are whole. -/
theorem Whole.both {cs more : List Char} (first : Whole cs) (second : Whole more) :
    ∀ argument ∈ [cs, more], Whole argument := List.forall_mem_cons.2 ⟨first, second.alone⟩

/-- Whole texts that were joined are found again. -/
theorem ofChars?_join_whole {arguments : List (List Char)} (present : arguments ≠ [])
    (whole : ∀ cs ∈ arguments, Whole cs) : ofChars? (join [',', ' '] arguments) = some arguments := by
  have found := (ofChars?_join present (fun cs member => (whole cs member).one) fun cs member => by
    rw [(whole cs member).trim_eq]
    exact (whole cs member).filled).1
  rw [found]
  exact congrArg some ((List.map_congr_left fun cs member => (whole cs member).trim_eq).trans
    (List.map_id _))

end Entries

/-- A written set of modifiers is a whole argument. -/
theorem ModifierSet.whole_chars (s : ModifierSet) : Entries.Whole s.chars := by
  refine .of_plain s.plain_chars fun none => ?_
  cases members : s.isEmpty with
  | true =>
    rw [isEmpty_iff.1 members] at none
    cases none
  | false =>
    have first := head?_chars members
    simp [none] at first

/-- A written keystroke is a whole argument. -/
theorem Keystroke.whole_chars (stroke : Keystroke) : Entries.Whole stroke.chars :=
  ⟨stroke.within?_chars, stroke.tight_chars, stroke.chars_ne_nil⟩

namespace Action

/-- A written layer number is a whole argument. -/
theorem whole_layerChars (layer : LayerId) : Entries.Whole (layerChars layer) :=
  .of_plain (Decimal.plain_write _) Nat.toDigits_ne_nil

/-- A written call is a whole entry. -/
theorem whole_callChars {name : String} (named : Plain name.toList) (filled : name.toList ≠ [])
    {arguments : List (List Char)} (whole : ∀ cs ∈ arguments, Entries.Whole cs) :
    Entries.Whole (callChars name arguments) := by
  refine ⟨?_, named.tight.append tight_close filled (List.cons_ne_nil _ _) _, by simp [callChars]⟩
  rw [callChars, List.append_assoc, Entries.within?_append, Entries.within?_of_plain 0 named]
  exact Entries.within?_enclosed (Entries.within?_join fun cs member => (whole cs member).one)

/-- Written strokes are whole arguments. -/
theorem whole_strokes (strokes : List Keystroke) :
    ∀ cs ∈ strokes.map Keystroke.chars, Entries.Whole cs := by
  intro cs member
  obtain ⟨stroke, -, rfl⟩ := List.mem_map.1 member
  exact stroke.whole_chars

/-- Every written action is a whole entry. -/
theorem whole_chars (action : Action) : Entries.Whole action.chars := by
  cases action with
  | plain stroke => exact stroke.whole_chars
  | modTap hold tap =>
    exact whole_callChars (by decide) (by decide) (hold.whole_chars.both tap.whole_chars)
  | layerTap layer tap =>
    exact whole_callChars (by decide) (by decide) ((whole_layerChars layer).both tap.whole_chars)
  | oneShotModifier set => exact whole_callChars (by decide) (by decide) set.whole_chars.alone
  | oneShotLayer layer => exact whole_callChars (by decide) (by decide) (whole_layerChars layer).alone
  | manualShift unshifted shifted =>
    exact whole_callChars (by decide) (by decide) (unshifted.whole_chars.both shifted.whole_chars)
  | macroSequence strokes => exact whole_callChars (by decide) (by decide) (whole_strokes strokes)
  | retype stroke => exact whole_callChars (by decide) (by decide) stroke.whole_chars.alone
  | momentaryLayer layer => exact whole_callChars (by decide) (by decide) (whole_layerChars layer).alone
  | toggleLayer layer => exact whole_callChars (by decide) (by decide) (whole_layerChars layer).alone
  | cancel => exact .of_plain (by decide) (by decide)
  | transparent => exact .of_plain (by decide) (by decide)
  | noOp => exact .of_plain (by decide) (by decide)

/-- What a text can mean: a key that holds modifiers holds at least one, and a macro has at least one
stroke. -/
def Readable : Action → Prop
  | modTap hold _ => hold ≠ ∅
  | oneShotModifier set => set ≠ ∅
  | macroSequence strokes => strokes ≠ []
  | _ => True

instance : DecidablePred Readable
  | modTap hold _ => inferInstanceAs (Decidable (hold ≠ ∅))
  | oneShotModifier set => inferInstanceAs (Decidable (set ≠ ∅))
  | macroSequence strokes => inferInstanceAs (Decidable (strokes ≠ []))
  | plain _ | layerTap .. | oneShotLayer _ | manualShift .. | retype _ | momentaryLayer _
  | toggleLayer _ | cancel | transparent | noOp => inferInstanceAs (Decidable True)

/-! ### The parts of a call -/

/-- What is written of a set of modifiers is read as that set, if it has members. -/
theorem readModifiers_chars {set : ModifierSet} (members : set ≠ ∅) : readModifiers set.chars = .ok set := by
  have some : ¬set.isEmpty = true := fun empty => members (ModifierSet.isEmpty_iff.1 empty)
  simp only [readModifiers, ModifierSet.ofChars_chars, if_neg some]

/-- What is read as modifiers is not empty. -/
theorem ne_empty_of_readModifiers {cs : List Char} {set : ModifierSet} (read : readModifiers cs = .ok set) :
    set ≠ ∅ := by
  unfold readModifiers at read
  dsimp only at read
  split at read
  · cases read
  · split at read
    · cases read
    · rename_i members
      cases read
      exact fun empty => members (ModifierSet.isEmpty_iff.2 empty)

/-- A keystroke is read back from the text it is written as. -/
theorem readStroke_chars (stroke : Keystroke) : readStroke stroke.chars = .ok stroke := by
  rw [readStroke, stroke.ofChars_chars]
  rfl

/-- What is written of strokes is read as those strokes. -/
theorem readStrokes_chars (strokes : List Keystroke) :
    readStrokes (strokes.map Keystroke.chars) = .ok strokes := by
  induction strokes with
  | nil => rfl
  | cons stroke rest ih =>
    rw [List.map_cons, readStrokes, readStroke_chars, ih]
    rfl

/-- What is read from some texts is some strokes. -/
theorem ne_nil_of_readStrokes {cs : List Char} {rest : List (List Char)} {strokes : List Keystroke}
    (read : readStrokes (cs :: rest) = .ok strokes) : strokes ≠ [] := by
  rw [readStrokes] at read
  cases first : readStroke cs with
  | error e =>
    rw [first] at read
    cases read
  | ok stroke =>
    cases later : readStrokes rest with
    | error e =>
      rw [first, later] at read
      cases read
    | ok others =>
      rw [first, later] at read
      cases read
      exact List.cons_ne_nil _ _

/-- A layer is read back from the number it is written as. -/
theorem readLayer_chars (layer : LayerId) : readLayer (layerChars layer) = .ok layer := by
  have small : layer.toNat ≤ 255 := Nat.le_of_lt_succ layer.toNat_lt
  have read : Decimal.read? 255 (layerChars layer) = some layer.toNat := Decimal.read?_write small
  unfold readLayer
  dsimp only
  rw [(whole_layerChars layer).trim_eq, read, Option.map_some, UInt8.ofNat_toNat]
  rfl

/-! ### Which of the forms it is -/

/-- A text with a parenthesis is no word. -/
theorem ofWord?_of_open {cs : List Char} (opens : '(' ∈ cs) : ofWord? cs = none := by
  have kept : '(' ∈ (dropStart? "KC_".toList (upper cs)).getD (upper cs) := by
    have raised : '(' ∈ upper cs := List.mem_map.2 ⟨'(', opens, rfl⟩
    unfold dropStart?
    split
    · rename_i starts
      obtain ⟨rest, same⟩ := List.isPrefixOf_iff_prefix.1 starts
      rw [← same] at raised ⊢
      rw [List.drop_left]
      exact (List.mem_append.1 raised).resolve_left (by decide)
    · exact raised
  have apart {word : String} (closed : '(' ∉ word.toList) :
      String.ofList ((dropStart? "KC_".toList (upper cs)).getD (upper cs)) ≠ word := by
    rintro rfl
    rw [String.toList_ofList] at closed
    exact closed kept
  unfold ofWord?
  dsimp only
  split
  all_goals first
    | rename_i same; exact absurd same (apart (by decide))
    | rfl

/-- No key has the name of a word. -/
theorem ofWord?_name (code : KeyCode) : ofWord? code.name.toList = none := by
  have checked : ∀ code ∈ KeyCode.all, ofWord? code.name.toList = none := by decide +kernel
  exact checked code (KeyCode.mem_all code)

/-- No written set of modifiers is the name of a call. -/
theorem ofName?_modifiers (s : ModifierSet) : Call.ofName? (upper s.chars) = none := by
  have checked : ∀ bits : BitVec 8, Call.ofName? (upper (ModifierSet.mk bits).chars) = none := by
    decide +kernel
  exact checked s.bits

/-- A text without a parenthesis that is no word is a keystroke. -/
theorem ofChars_of_bare {cs : List Char} (word : ofWord? (trim cs) = none)
    (whole : cut? (· == '(') (trim cs) = none) : ofChars cs = (readStroke (trim cs)).map plain := by
  unfold ofChars
  simp only [word, whole]
  rfl

/-- A text with a parenthesis at its end is a call or a keystroke with modifiers. -/
theorem ofChars_of_call {cs front body : List Char} {arguments : List (List Char)}
    (cut : cut? (· == '(') (trim cs) = some (front, body ++ [')']))
    (parted : Entries.ofChars? body = some arguments) : ofChars cs =
      match Call.ofName? (upper (trim front)) with
      | none => readWrappedStroke (trim cs)
      | some call => call.apply (upper (trim front)) arguments := by
  have word : ofWord? (trim cs) = none := by
    obtain ⟨c, opens, same⟩ := cut?_eq_some cut
    rw [beq_iff_eq] at opens
    refine ofWord?_of_open ?_
    rw [same, opens]
    exact List.mem_append_right _ (.head _)
  have entered : entries body = .ok arguments := by rw [entries, parted]; rfl
  unfold ofChars
  simp only [word, cut, Keystroke.dropClose?_append]
  show entries body >>= _ = _
  rw [entered]
  rfl

/-- The calls that are written, by the names under which they are. -/
def Call.written : List (String × Call) :=
  [("MT", modTap), ("LT", layerTap), ("OSM", oneShotModifier), ("OSL", oneShotLayer),
    ("MS", manualShift), ("MACRO", macroSequence), ("RT", retype), ("MO", momentaryLayer),
    ("TG", toggleLayer)]

/-- A written call is read as that call with the arguments that were written. -/
theorem ofChars_callChars {name : String} (call : Call) (written : (name, call) ∈ Call.written)
    {arguments : List (List Char)} (present : arguments ≠ [])
    (whole : ∀ cs ∈ arguments, Entries.Whole cs) :
    ofChars (callChars name arguments) = call.apply name.toList arguments := by
  have known : ∀ entry ∈ Call.written, Call.ofName? (upper entry.1.toList) = some entry.2 ∧
      upper entry.1.toList = entry.1.toList ∧ Plain entry.1.toList ∧ entry.1.toList ≠ [] := by decide
  obtain ⟨known, capital, named, filled⟩ := known _ written
  have cut : cut? (· == '(') (trim (callChars name arguments)) =
      some (name.toList, join [',', ' '] arguments ++ [')']) := by
    rw [(whole_callChars named filled whole).trim_eq, callChars, List.append_assoc]
    exact cut?_append (fun c member => beq_eq_false_iff_ne.2 (ne_of_isPlain (named c member) rfl)) rfl _
  rw [ofChars_of_call cut (Entries.ofChars?_join_whole present whole), trim_of_tight named.tight,
    known, capital]

/-! ### Reading what was written -/

/-- What is written of a keystroke is read as a key that presses it. -/
theorem ofChars_stroke (stroke : Keystroke) : ofChars stroke.chars = .ok (plain stroke) := by
  have whole : trim stroke.chars = stroke.chars := stroke.whole_chars.trim_eq
  cases attached : stroke.modifiers.isEmpty with
  | true =>
    have named : trim stroke.chars = stroke.code.name.toList := by
      rw [whole, Keystroke.chars, if_pos attached]
    rw [ofChars_of_bare (by rw [named]; exact ofWord?_name _), whole, readStroke_chars]
    · rfl
    · rw [named]
      exact cut?_eq_none fun c member =>
        beq_eq_false_iff_ne.2 (ne_of_isPlain (stroke.code.plain_name c member) rfl)
  | false =>
    have name : Entries.Whole stroke.code.name.toList :=
      .of_plain stroke.code.plain_name stroke.code.name_ne_nil
    have cut : cut? (· == '(') (trim stroke.chars) =
        some (stroke.modifiers.chars, stroke.code.name.toList ++ [')']) := by
      rw [whole, Keystroke.chars_of_modifiers attached]
      exact cut?_append (fun c member =>
        beq_eq_false_iff_ne.2 (ne_of_isPlain (stroke.modifiers.plain_chars c member) rfl)) rfl _
    have parted := Entries.ofChars?_join_whole (List.cons_ne_nil _ _) name.alone
    rw [join] at parted
    rw [ofChars_of_call cut parted, stroke.modifiers.whole_chars.trim_eq, ofName?_modifiers, whole,
      readWrappedStroke, stroke.ofChars_chars]

/-- What is written of an action is read as that action, if any text is. -/
theorem ofChars_chars {action : Action} (readable : action.Readable) :
    ofChars action.chars = .ok action := by
  cases action with
  | plain stroke => exact ofChars_stroke stroke
  | modTap hold tap =>
    show ofChars (callChars "MT" [hold.chars, tap.chars]) = _
    rw [ofChars_callChars .modTap (by decide) (List.cons_ne_nil _ _)
      (hold.whole_chars.both tap.whole_chars), Call.apply, readModifiers_chars readable, readStroke_chars]
    rfl
  | layerTap layer tap =>
    show ofChars (callChars "LT" [layerChars layer, tap.chars]) = _
    rw [ofChars_callChars .layerTap (by decide) (List.cons_ne_nil _ _)
      ((whole_layerChars layer).both tap.whole_chars), Call.apply, readLayer_chars, readStroke_chars]
    rfl
  | oneShotModifier set =>
    show ofChars (callChars "OSM" [set.chars]) = _
    rw [ofChars_callChars .oneShotModifier (by decide) (List.cons_ne_nil _ _) set.whole_chars.alone,
      Call.apply, readModifiers_chars readable]
    rfl
  | oneShotLayer layer =>
    show ofChars (callChars "OSL" [layerChars layer]) = _
    rw [ofChars_callChars .oneShotLayer (by decide) (List.cons_ne_nil _ _)
      (whole_layerChars layer).alone, Call.apply, readLayer_chars]
    rfl
  | manualShift unshifted shifted =>
    show ofChars (callChars "MS" [unshifted.chars, shifted.chars]) = _
    rw [ofChars_callChars .manualShift (by decide) (List.cons_ne_nil _ _)
      (unshifted.whole_chars.both shifted.whole_chars), Call.apply, readStroke_chars, readStroke_chars]
    rfl
  | macroSequence strokes =>
    have present : strokes.map Keystroke.chars ≠ [] := fun none => readable (List.map_eq_nil_iff.1 none)
    show ofChars (callChars "MACRO" (strokes.map Keystroke.chars)) = _
    rw [ofChars_callChars .macroSequence (by decide) present (whole_strokes strokes)]
    cases strokes with
    | nil => exact absurd rfl readable
    | cons stroke rest =>
      show (readStrokes ((stroke :: rest).map Keystroke.chars)).map macroSequence = _
      rw [readStrokes_chars]
      rfl
  | retype stroke =>
    show ofChars (callChars "RT" [stroke.chars]) = _
    rw [ofChars_callChars .retype (by decide) (List.cons_ne_nil _ _) stroke.whole_chars.alone,
      Call.apply, readStroke_chars]
    rfl
  | momentaryLayer layer =>
    show ofChars (callChars "MO" [layerChars layer]) = _
    rw [ofChars_callChars .momentaryLayer (by decide) (List.cons_ne_nil _ _)
      (whole_layerChars layer).alone, Call.apply, readLayer_chars]
    rfl
  | toggleLayer layer =>
    show ofChars (callChars "TG" [layerChars layer]) = _
    rw [ofChars_callChars .toggleLayer (by decide) (List.cons_ne_nil _ _)
      (whole_layerChars layer).alone, Call.apply, readLayer_chars]
    rfl
  | cancel => rfl
  | transparent => rfl
  | noOp => rfl

/-! ### What can be read -/

/-- Whatever a reader gives, if it gives anything, has a property. -/
def Yields {α : Type} (property : α → Prop) (read : Except ActionError α) : Prop :=
  ∀ a, read = .ok a → property a

namespace Yields

variable {α β : Type} {property : β → Prop}

/-- A reader that gives a value gives one with the property that this value has. -/
theorem pure {b : β} (holds : property b) : Yields property (.ok b) := by
  intro _ same
  cases same
  exact holds

/-- A reader that fails gives nothing that could lack the property. -/
theorem error {error : ActionError} : Yields property (.error error) := fun _ same => nomatch same

/-- What reads on after another reader only has to care for what that one gives. -/
theorem bind {read : Except ActionError α} {more : α → Except ActionError β}
    (goes : ∀ a, read = .ok a → Yields property (more a)) : Yields property (read >>= more) := by
  cases read with
  | error e => exact error
  | ok a => exact goes a rfl

end Yields

/-- A call is read as an action that can be read. -/
theorem Call.yields_readable (name : List Char) (call : Call) (arguments : List (List Char)) :
    Yields Readable (call.apply name arguments) := by
  unfold apply
  split
  case h_1 => exact .bind fun _ hold => .bind fun _ _ => .pure (ne_empty_of_readModifiers hold)
  case h_2 => exact .bind fun _ _ => .bind fun _ _ => .pure trivial
  case h_3 => exact .bind fun _ set => .pure (ne_empty_of_readModifiers set)
  case h_4 => exact .bind fun _ _ => .pure trivial
  case h_5 => exact .bind fun _ _ => .bind fun _ _ => .pure trivial
  case h_6 => exact .bind fun _ strokes => .pure (ne_nil_of_readStrokes strokes)
  case h_7 => exact .bind fun _ _ => .pure trivial
  case h_8 => exact .bind fun _ _ => .pure trivial
  case h_9 => exact .bind fun _ _ => .pure trivial
  case h_10 => exact .bind fun _ hold => .bind fun _ _ => .pure (ne_empty_of_readModifiers hold)
  case h_11 => exact .error

/-- A word is an action that can be read. -/
theorem readable_of_ofWord? {cs : List Char} {action : Action} (word : ofWord? cs = some action) :
    action.Readable := by
  unfold ofWord? at word
  dsimp only at word
  split at word
  all_goals cases word
  all_goals exact trivial

/-- A keystroke that follows no name of a call is an action that can be read. -/
theorem readWrappedStroke_yields (cs : List Char) : Yields Readable (readWrappedStroke cs) := by
  unfold readWrappedStroke
  split
  · exact .pure trivial
  · exact .error
  · exact .error

/-- Whatever is read is an action that can be read. -/
theorem yields_readable (cs : List Char) : Yields Readable (ofChars cs) := by
  unfold ofChars
  dsimp only
  split
  · rename_i word
    exact .pure (readable_of_ofWord? word)
  · split
    · exact .bind fun _ _ => .pure trivial
    · refine .bind fun _ _ => .bind fun _ _ => ?_
      split
      · exact readWrappedStroke_yields _
      · exact Call.yields_readable _ _ _

/-- Every action that can be read is read back from the text it is written as. -/
theorem ofString_text {action : Action} (readable : action.Readable) : ofString action.text = .ok action := by
  rw [ofString, text, String.toList_ofList]
  exact ofChars_chars readable

/-- The actions that some text means are those that hold what they hold by at least one modifier, and
those macros that have a stroke; and each of them is what its own written form means. -/
theorem ofString_text_iff (action : Action) :
    ((∃ s, ofString s = .ok action) ↔ action.Readable) ∧
      (ofString action.text = .ok action ↔ action.Readable) := by
  exact ⟨⟨fun ⟨_, read⟩ => yields_readable _ action read, fun readable => ⟨_, ofString_text readable⟩⟩,
    yields_readable _ action, ofString_text⟩

end Action

end KeyEngine
