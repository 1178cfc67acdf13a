import Mathlib.Data.Nat.Digits.Defs
import KeyEngine.Action.Parser
import KeyEngine.Proofs.Nesting

/-!
# What is written is read back

Modifier sets, key codes, keystrokes and layer numbers are written in one way and read in many. Reading
what was written gives back what was meant, and what is written contains nothing that a reader of a longer
text could take for its own: `ModifierSet.ofChars_chars`, `Keystroke.ofChars_chars` and
`Decimal.read?_write` say the one, `ModifierSet.plain_chars` and `Keystroke.within?_chars` the other.
-/

namespace KeyEngine

open Text

namespace Modifier

/-- The name of a modifier is plain. -/
theorem plain_name (m : Modifier) : Plain m.name.toList := by cases m <;> decide

/-- A written name is the name of its modifier. -/
theorem ofName?_name (m : Modifier) : ofName? m.name.toList = some m := by cases m <;> decide

/-- A written name has neither of the separators in it. -/
theorem name_unparted (m : Modifier) : ∀ c ∈ m.name.toList, (c == '|' || c == '+') = false := by
  have checked : (m.name.toList.all fun c => !(c == '|' || c == '+')) = true := by cases m <;> decide
  exact fun c member => Bool.not_eq_eq_eq_not.1 (List.all_eq_true.1 checked c member)

/-- A written name starts with the letter of its side. -/
theorem head?_name (m : Modifier) : m.name.toList.head? = some 'L' ∨ m.name.toList.head? = some 'R' := by
  cases m <;> decide

end Modifier

namespace ModifierSet

/-- A list of written names is read as the set of all of them. -/
theorem ofNames_names (members : List Modifier) :
    ofNames (members.map (·.name.toList)) = .ok (members.foldr (single · ∪ ·) ∅) := by
  induction members with
  | nil => rfl
  | cons m rest ih =>
    rw [List.map_cons, ofNames, trim_of_tight m.plain_name.tight, m.ofName?_name, ih]
    rfl

/-- A set is made of its members. -/
theorem foldr_toList (s : ModifierSet) : s.toList.foldr (single · ∪ ·) ∅ = s := by
  have contains_foldr (members : List Modifier) (m : Modifier) :
      (members.foldr (single · ∪ ·) ∅ : ModifierSet).contains m = decide (m ∈ members) := by
    induction members with
    | nil => simp
    | cons n rest ih => simp [ih, eq_comm]
  refine ext_contains fun m => ?_
  rw [contains_foldr, Bool.eq_iff_iff, decide_eq_true_iff, mem_toList, mem_iff]

/-- A set with members is written as the names of its members, of which there is a first one. -/
theorem chars_of_members {s : ModifierSet} (members : s.isEmpty = false) :
    ∃ m rest, s.toList = m :: rest ∧ s.chars = join ['|'] (s.toList.map (·.name.toList)) := by
  cases listed : s.toList with
  | nil =>
    have empty : s = ∅ := by rw [← s.foldr_toList, listed]; rfl
    rw [isEmpty_iff.2 empty] at members
    cases members
  | cons m rest => exact ⟨m, rest, rfl, by rw [chars, members, listed]; rfl⟩

/-- What is written consists of plain characters. -/
theorem plain_chars (s : ModifierSet) : Plain s.chars := by
  have joined (members : List Modifier) : Plain (join ['|'] (members.map (·.name.toList))) := by
    induction members with
    | nil => exact fun _ member => absurd member List.not_mem_nil
    | cons m rest ih =>
      cases rest with
      | nil => exact m.plain_name
      | cons n others => exact (m.plain_name.append (by decide)).append ih
  unfold chars
  split
  · decide
  · exact joined s.toList

/-- A set with members is written with the side of a modifier at its start. -/
theorem head?_chars {s : ModifierSet} (members : s.isEmpty = false) :
    s.chars.head? = some 'L' ∨ s.chars.head? = some 'R' := by
  obtain ⟨m, rest, listed, written⟩ := chars_of_members members
  have named : m.name.toList ≠ [] := by cases m <;> decide
  rw [written, listed, List.map_cons, head?_join _ named]
  exact m.head?_name

/-- What is written of a set is read as that set. -/
theorem ofChars_chars (s : ModifierSet) : ofChars s.chars = .ok s := by
  cases members : s.isEmpty with
  | true =>
    rw [isEmpty_iff.1 members]
    rfl
  | false =>
    obtain ⟨m, rest, listed, written⟩ := chars_of_members members
    have named : (s.chars.isEmpty || sameLetters s.chars "NONE".toList) = false := by
      have first := head?_chars members
      generalize s.chars = written at first
      cases written with
      | nil => simp at first
      | cons c others =>
        obtain rfl | rfl : c = 'L' ∨ c = 'R' := by simpa using first
        · exact beq_eq_false_iff_ne.2 fun same => absurd (List.cons.inj same).1 (by decide)
        · exact beq_eq_false_iff_ne.2 fun same => absurd (List.cons.inj same).1 (by decide)
    have parted : splitAll (fun c => c == '|' || c == '+') s.chars =
        s.toList.map (·.name.toList) := by
      rw [written]
      refine splitAll_join rfl (by rw [listed]; exact List.cons_ne_nil _ _) fun piece member => ?_
      obtain ⟨n, -, rfl⟩ := List.mem_map.1 member
      exact n.name_unparted
    unfold ofChars
    dsimp only
    rw [trim_of_tight s.plain_chars.tight, named, if_neg Bool.false_ne_true, parted, ofNames_names,
      foldr_toList]

end ModifierSet

namespace KeyCode

/-- The name of a code is plain. -/
theorem plain_name (code : KeyCode) : Plain code.name.toList := by
  have checked : ∀ code ∈ all, Plain code.name.toList := by decide +kernel
  exact checked code (mem_all code)

/-- Every code has a name. -/
theorem name_ne_nil (code : KeyCode) : code.name.toList ≠ [] := by
  have checked : ∀ code ∈ all, code.name.toList ≠ [] := by decide +kernel
  exact checked code (mem_all code)

/-- No written name starts with the mark that reading drops. -/
theorem bareName_name (code : KeyCode) : bareName code.name.toList = code.name.toList := by
  have checked : ∀ code ∈ all, bareName code.name.toList = code.name.toList := by decide +kernel
  exact checked code (mem_all code)

/-- A text that starts with the side of a modifier does not start with the mark that reading drops. -/
theorem bareName_of_side {cs : List Char} (tight : Tight cs)
    (starts : cs.head? = some 'L' ∨ cs.head? = some 'R') : bareName cs = cs := by
  have unmarked : sameLetters (cs.take 3) "KC_".toList = false := by
    cases cs with
    | nil => rfl
    | cons c rest =>
      obtain rfl | rfl : c = 'L' ∨ c = 'R' := by simpa using starts
      · exact beq_eq_false_iff_ne.2 fun same => absurd (List.cons.inj same).1 (by decide)
      · exact beq_eq_false_iff_ne.2 fun same => absurd (List.cons.inj same).1 (by decide)
  unfold bareName
  dsimp only
  rw [trim_of_tight tight, unmarked, if_neg Bool.false_ne_true]

/-- No two codes share the name that is written. -/
theorem ofName?_name (code : KeyCode) : ofName? code.name.toList = some code := by
  have checked : ∀ code ∈ all, ofName? code.name.toList = some code := by decide +kernel
  exact checked code (mem_all code)

/-- What is written of a code is read as that code. -/
theorem ofChars_name (code : KeyCode) : ofChars code.name.toList = .ok code := by
  have named : code.name.toList.isEmpty = false := List.isEmpty_eq_false_iff.2 code.name_ne_nil
  unfold ofChars
  dsimp only
  rw [trim_of_tight code.plain_name.tight, named, if_neg Bool.false_ne_true, ofName?_name]

end KeyCode

namespace Keystroke

/-- No shifted symbol has the name of a code. -/
theorem ofSymbol?_name (code : KeyCode) : ofSymbol? code.name.toList = none := by
  have checked : ∀ code ∈ KeyCode.all, ofSymbol? code.name.toList = none := by decide +kernel
  exact checked code (KeyCode.mem_all code)

/-- A closing parenthesis that was put at the end of a text is dropped again. -/
theorem dropClose?_append (cs : List Char) : dropClose? (cs ++ [')']) = some cs := by
  simp [dropClose?]

/-- A name without parentheses is a symbol or a code. -/
theorem ofChars_bare {cs : List Char} (filled : KeyCode.bareName cs ≠ [])
    (opens : '(' ∉ KeyCode.bareName cs) (closes : ')' ∉ KeyCode.bareName cs) : ofChars cs =
      match ofSymbol? (KeyCode.bareName cs) with
      | some stroke => .ok stroke
      | none => (KeyCode.ofChars (KeyCode.bareName cs)).map ofCode := by
  have whole : cut? (· == '(') (KeyCode.bareName cs) = none := by
    refine cut?_eq_none fun c member => beq_eq_false_iff_ne.2 ?_
    rintro rfl
    exact opens member
  have unclosed : (KeyCode.bareName cs).contains ')' = false := by simpa using closes
  rw [ofChars]
  simp only [List.isEmpty_eq_false_iff.2 filled, Bool.false_eq_true, if_false]
  split
  · rename_i found
    rw [whole] at found
    cases found
  · exact if_neg (by rw [unclosed]; exact Bool.false_ne_true)

/-- A text in parentheses behind a modifier list is the keystroke in them with those modifiers. -/
theorem ofChars_wrapped {cs list inner : List Char}
    (wrapped : KeyCode.bareName cs = list ++ '(' :: (inner ++ [')'])) (opens : '(' ∉ list) :
    ofChars cs =
      match ModifierSet.ofChars list with
      | .error _ => .error (.unknownModifier (String.ofList list))
      | .ok set => (ofChars inner).map fun stroke => ⟨stroke.code, stroke.modifiers ∪ set⟩ := by
  have parts : cut? (· == '(') (KeyCode.bareName cs) = some (list, inner ++ [')']) := by
    rw [wrapped]
    refine cut?_append (fun c member => beq_eq_false_iff_ne.2 ?_) rfl _
    rintro rfl
    exact opens member
  have filled : (KeyCode.bareName cs).isEmpty = false := by
    rw [wrapped]
    cases list <;> rfl
  rw [ofChars]
  simp only [filled, Bool.false_eq_true, if_false]
  split
  · rename_i found
    obtain ⟨rfl, rfl⟩ := Prod.mk.inj (Option.some.inj (parts.symm.trans found))
    split
    · rename_i missing
      rw [dropClose?_append] at missing
      cases missing
    · rename_i kept
      obtain rfl := Option.some.inj ((dropClose?_append inner).symm.trans kept)
      rfl
  · rename_i missing
    rw [parts] at missing
    cases missing

/-- A keystroke with modifiers is written as a list with the name of a code behind it in parentheses. -/
theorem chars_of_modifiers {stroke : Keystroke} (attached : stroke.modifiers.isEmpty = false) :
    stroke.chars = stroke.modifiers.chars ++ '(' :: (stroke.code.name.toList ++ [')']) := by
  rw [chars, if_neg (Bool.eq_false_iff.1 attached), List.append_assoc, List.cons_append]

/-- The written form of a keystroke is not empty. -/
theorem chars_ne_nil (stroke : Keystroke) : stroke.chars ≠ [] := by
  cases attached : stroke.modifiers.isEmpty with
  | true =>
    rw [chars, if_pos attached]
    exact stroke.code.name_ne_nil
  | false =>
    rw [chars_of_modifiers attached]
    simp

/-- A written keystroke has no blank at its ends. -/
theorem tight_chars (stroke : Keystroke) : Tight stroke.chars := by
  cases attached : stroke.modifiers.isEmpty with
  | true =>
    rw [chars, if_pos attached]
    exact stroke.code.plain_name.tight
  | false =>
    have filled : stroke.modifiers.chars ≠ [] := by
      intro none
      have first := ModifierSet.head?_chars attached
      simp [none] at first
    rw [chars, if_neg (Bool.eq_false_iff.1 attached)]
    exact stroke.modifiers.plain_chars.tight.append tight_close filled (List.cons_ne_nil _ _) _

/-- A written keystroke is one entry. -/
theorem within?_chars (stroke : Keystroke) : Entries.within? 0 stroke.chars = some 0 := by
  have named (depth : Nat) := Entries.within?_of_plain depth stroke.code.plain_name
  cases attached : stroke.modifiers.isEmpty with
  | true =>
    rw [chars, if_pos attached]
    exact named 0
  | false =>
    rw [chars_of_modifiers attached, Entries.within?_append,
      Entries.within?_of_plain 0 stroke.modifiers.plain_chars]
    exact Entries.within?_enclosed (named 1)

/-- The name of a code is read as that code with no modifiers. -/
theorem ofChars_name (code : KeyCode) : ofChars code.name.toList = .ok (ofCode code) := by
  have bare := code.bareName_name
  rw [ofChars_bare] <;> rw [bare]
  · rw [ofSymbol?_name, KeyCode.ofChars_name]
    rfl
  · exact code.name_ne_nil
  · exact code.plain_name.not_mem rfl
  · exact code.plain_name.not_mem rfl

/-- What is written of a keystroke is read as that keystroke. -/
theorem ofChars_chars (stroke : Keystroke) : ofChars stroke.chars = .ok stroke := by
  have bare : (∅ : ModifierSet) ∪ stroke.modifiers = stroke.modifiers :=
    ModifierSet.ext_contains fun m => by simp
  cases attached : stroke.modifiers.isEmpty with
  | true =>
    rw [chars, if_pos attached, ofChars_name, ofCode, ← ModifierSet.isEmpty_iff.1 attached]
  | false =>
    have whole : KeyCode.bareName stroke.chars = stroke.chars := by
      refine KeyCode.bareName_of_side stroke.tight_chars ?_
      have first := ModifierSet.head?_chars attached
      rw [chars_of_modifiers attached, List.head?_append]
      rcases first with left | right
      · exact .inl (by rw [left]; rfl)
      · exact .inr (by rw [right]; rfl)
    rw [ofChars_wrapped (whole.trans (chars_of_modifiers attached))
      (stroke.modifiers.plain_chars.not_mem rfl), ModifierSet.ofChars_chars]
    show (ofChars stroke.code.name.toList).map _ = _
    rw [ofChars_name]
    show Except.ok (Keystroke.mk stroke.code (∅ ∪ stroke.modifiers)) = _
    rw [bare]

end Keystroke

namespace Decimal

/-- A digit is read back from its character. -/
theorem digit?_digitChar {d : Nat} (small : d < 10) : digit? d.digitChar = some d := by
  have checked : ∀ d < 10, digit? (Nat.digitChar d) = some d := by decide
  exact checked d small

/-- Digits in a row are read one part after the other, the second from the value of the first. -/
theorem valueFrom?_append (high : Nat) (cs more : List Char) :
    valueFrom? high (cs ++ more) = (valueFrom? high cs).bind (valueFrom? · more) := by
  induction cs generalizing high with
  | nil => rfl
  | cons c rest ih =>
    rw [List.cons_append, valueFrom?, valueFrom?]
    cases digit? c with
    | none => rfl
    | some d => exact ih _

/-- The digits of a number have its value. -/
theorem valueFrom?_write (n : Nat) : valueFrom? 0 (write n) = some n := by
  induction n using Nat.strong_induction_on with
  | h n ih =>
    unfold write at ih ⊢
    by_cases small : n < 10
    · rw [Nat.toDigits_of_lt_base small, valueFrom?, digit?_digitChar small]
      simp [valueFrom?]
    · have last : n % 10 < 10 := Nat.mod_lt n (by decide)
      rw [Nat.toDigits_of_base_le (by decide) (Nat.le_of_not_lt small), valueFrom?_append,
        ih (n / 10) (by omega)]
      show valueFrom? (n / 10) [(n % 10).digitChar] = some n
      rw [valueFrom?, digit?_digitChar last]
      show some (10 * (n / 10) + n % 10) = some n
      rw [Nat.div_add_mod]

/-- Only digits are written. -/
theorem mem_write {n : Nat} {c : Char} (member : c ∈ write n) : ∃ d < 10, c = Nat.digitChar d := by
  induction n using Nat.strong_induction_on with
  | h n ih =>
    unfold write at ih member
    by_cases small : n < 10
    · rw [Nat.toDigits_of_lt_base small] at member
      exact ⟨n, small, List.mem_singleton.1 member⟩
    · rw [Nat.toDigits_of_base_le (by decide) (Nat.le_of_not_lt small)] at member
      rcases List.mem_append.1 member with high | last
      · exact ih (n / 10) (by omega) high
      · exact ⟨n % 10, Nat.mod_lt n (by decide), List.mem_singleton.1 last⟩

/-- A written number is plain. -/
theorem plain_write (n : Nat) : Plain (write n) := by
  have digits : ∀ d < 10, isPlain (Nat.digitChar d) = true := by decide
  intro c member
  obtain ⟨d, small, rfl⟩ := mem_write member
  exact digits d small

/-- What is written of a number within the bound is read as that number. -/
theorem read?_write {bound n : Nat} (le : n ≤ bound) : read? bound (write n) = some n := by
  have unsigned : ∀ d < 10, Nat.digitChar d ≠ '+' := by decide
  have value := valueFrom?_write n
  cases written : write n with
  | nil => exact absurd written Nat.toDigits_ne_nil
  | cons c rest =>
    obtain ⟨d, small, rfl⟩ := mem_write (n := n) (c := c) (written ▸ List.mem_cons_self)
    rw [written] at value
    have plain : read? bound (d.digitChar :: rest) =
        (valueFrom? 0 (d.digitChar :: rest)).filter (· ≤ bound) := by
      unfold read?
      split
      · rename_i signed
        exact absurd (List.cons.inj signed).1 (unsigned d small)
      · rfl
    rw [plain, value, Option.filter_some, decide_eq_true le, if_pos rfl]

end Decimal

end KeyEngine
