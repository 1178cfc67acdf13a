import KeyEngine.Proofs.Nesting
import KeyEngine.Proofs.Spelling

/-!
# Keystrokes within modifier lists

A keystroke is written as a name, or as another keystroke in parentheses behind a modifier list. `Denotes` is
that grammar, with the blanks and the mark that are dropped at every level, and `ofChars_eq_ok_iff` says that the
reader follows it. The reader looks for the first opening parenthesis only, and drops one closing parenthesis at
the very end. This is enough, because a modifier list that is accepted has no parenthesis in it; nor has the
name of a symbol or a code. So a text can be read in one way only, its parentheses pair up, and a text that can
be read can be put behind any list.
-/

namespace KeyEngine

open Text

/-! ### Names without marks -/

namespace Text

/-- Two texts have the same letters exactly when they are equal in lower case. -/
theorem sameLetters_iff {cs more : List Char} : sameLetters cs more = true ↔ lower cs = lower more := beq_iff_eq

/-- A blank is its own lower case. -/
theorem toLower_of_isBlank {c : Char} (blank : isBlank c = true) : c.toLower = c := by
  have above : ¬(c.val ≥ 'A'.val ∧ c.val ≤ 'Z'.val) := by
    intro letter
    have low : 65 ≤ c.toNat := UInt32.le_iff_toNat_le.1 letter.1
    have high : c.toNat ≤ 90 := UInt32.le_iff_toNat_le.1 letter.2
    simp only [isBlank, Bool.or_eq_true, Bool.and_eq_true, decide_eq_true_eq, beq_iff_eq] at blank
    omega
  exact dif_neg above

/-- Blanks that were dropped in front make no difference. -/
theorem trim_trimStart_append (cs more : List Char) : trim (trimStart cs ++ more) = trim (cs ++ more) := by
  have blank : ∀ c ∈ cs.takeWhile isBlank, isBlank c = true := fun c member => List.mem_takeWhile_imp member
  have whole : cs = cs.takeWhile isBlank ++ trimStart cs := List.takeWhile_append_dropWhile.symm
  rw [← trim_append_left blank, ← List.append_assoc, ← whole]

/-- What is enclosed behind a text has no blanks at its ends but those in front of the text. -/
theorem trim_enclosed (cs inner : List Char) :
    trim (cs ++ '(' :: (inner ++ [')'])) = trimStart cs ++ '(' :: (inner ++ [')']) := by
  rw [← trim_trimStart_append]
  refine trim_of_tight ⟨fun c first => ?_, fun c last => ?_⟩
  · cases start : trimStart cs with
    | nil =>
      rw [start] at first
      obtain rfl := Option.some.inj first
      rfl
    | cons d rest =>
      have stops := List.head?_dropWhile_not isBlank cs
      rw [show cs.dropWhile isBlank = trimStart cs from rfl, start] at stops
      rw [start] at first
      obtain rfl := Option.some.inj first
      exact stops
  · rw [← List.cons_append, ← List.append_assoc, List.getLast?_concat] at last
    obtain rfl := Option.some.inj last
    rfl

/-- Only blanks are trimmed off. -/
theorem mem_lower_trim {cs : List Char} {c : Char} (solid : isBlank c = false) (member : c ∈ lower cs) :
    c ∈ lower (trim cs) := by
  obtain ⟨front, back, same, before, behind⟩ := exists_trim cs
  obtain ⟨d, within, rfl⟩ := List.mem_map.1 member
  have filled : ¬isBlank d = true := by
    intro blank
    rw [toLower_of_isBlank blank, blank] at solid
    cases solid
  rw [same] at within
  rcases List.mem_append.1 within with first | later
  · exact absurd (before d first) filled
  · rcases List.mem_append.1 later with inner | last
    · exact List.mem_map_of_mem inner
    · exact absurd (behind d last) filled

/-- Each character of a text either parts it or is in one of its pieces. -/
theorem mem_splitAll {p : Char → Bool} {cs : List Char} {c : Char} (member : c ∈ cs) :
    p c = true ∨ ∃ piece ∈ splitAll p cs, c ∈ piece := by
  induction cs with
  | nil => cases member
  | cons d rest ih =>
    cases parts : splitAll p rest with
    | nil => exact absurd parts (splitAll_ne_nil p rest)
    | cons piece pieces =>
      rw [parts] at ih
      by_cases apart : p d = true
      · rw [splitAll, parts]
        simp only [apart, if_true]
        rcases List.mem_cons.1 member with rfl | later
        · exact .inl apart
        · refine (ih later).imp id ?_
          rintro ⟨found, listed, within⟩
          exact ⟨found, .tail _ listed, within⟩
      · rw [splitAll, parts]
        simp only [apart]
        rcases List.mem_cons.1 member with rfl | later
        · exact .inr ⟨_, .head _, .head _⟩
        · refine (ih later).imp id ?_
          rintro ⟨found, listed, within⟩
          rcases List.mem_cons.1 listed with rfl | listed
          · exact ⟨_, .head _, .tail _ within⟩
          · exact ⟨found, .tail _ listed, within⟩

end Text

namespace Entries

/-- There are no parentheses among blanks. -/
theorem parentheses_of_blank {cs : List Char} (blank : ∀ c ∈ cs, isBlank c = true) : parentheses cs = [] :=
  parentheses_eq_nil_iff.2 ⟨fun member => ne_of_isBlank (blank _ member) rfl rfl,
    fun member => ne_of_isBlank (blank _ member) rfl rfl⟩

/-- Trimming a text takes no parenthesis from it. -/
@[simp] theorem parentheses_trim (cs : List Char) : parentheses (trim cs) = parentheses cs := by
  obtain ⟨front, back, same, before, behind⟩ := exists_trim cs
  conv_rhs => rw [same]
  simp [parentheses_of_blank before, parentheses_of_blank behind]

/-- No parenthesis has another case. -/
theorem parentheses_of_lower {cs : List Char} (bare : parentheses (lower cs) = []) : parentheses cs = [] := by
  obtain ⟨opens, closes⟩ := parentheses_eq_nil_iff.1 bare
  exact parentheses_eq_nil_iff.2 ⟨fun member => opens (List.mem_map_of_mem (f := Char.toLower) member),
    fun member => closes (List.mem_map_of_mem (f := Char.toLower) member)⟩

/-- What is dropped around a name has no parentheses in it. -/
@[simp] theorem parentheses_bareName (cs : List Char) : parentheses (KeyCode.bareName cs) = parentheses cs := by
  unfold KeyCode.bareName
  dsimp only
  split
  · rename_i marked
    have none : parentheses ((trim cs).take 3) = [] := by
      refine parentheses_of_lower ?_
      rw [sameLetters_iff.1 marked]
      rfl
    have whole : parentheses ((trim cs).take 3 ++ (trim cs).drop 3) = parentheses cs := by
      rw [List.take_append_drop, parentheses_trim]
    rwa [parentheses_append, none] at whole
  · exact parentheses_trim cs

end Entries

/-! ### What is in an accepted modifier list -/

/-- The parentheses around a keystroke and the end of the mark in front of a name. -/
def Keystroke.marks : List Char := ['(', ')', '_']

namespace Modifier

/-- No name of a modifier has one of the marks in it. -/
theorem not_mem_of_ofName? {cs : List Char} {m : Modifier} (named : ofName? cs = some m) :
    ∀ mark ∈ Keystroke.marks, mark ∉ lower cs := by
  unfold ofName? at named
  have some := List.find?_some named
  obtain ⟨name, accepted, same⟩ := List.any_eq_true.1 some
  have checked : ∀ m ∈ all, ∀ name ∈ m.names,
      Keystroke.marks.all (fun mark => decide (mark ∉ lower name.toList)) = true := by decide
  intro mark listed
  rw [← sameLetters_iff.1 same]
  exact of_decide_eq_true (List.all_eq_true.1 (checked m m.mem_all name accepted) mark listed)

end Modifier

namespace ModifierSet

/-- Each piece of an accepted list is the name of a modifier, with blanks around it. -/
theorem exists_of_ofNames {pieces : List (List Char)} {set : ModifierSet} (given : ofNames pieces = .ok set) :
    ∀ piece ∈ pieces, ∃ m, Modifier.ofName? (trim piece) = some m := by
  induction pieces generalizing set with
  | nil => exact List.forall_mem_nil _
  | cons piece rest ih =>
    rw [ofNames] at given
    cases named : Modifier.ofName? (trim piece) with
    | none =>
      rw [named] at given
      cases given
    | some m =>
      rw [named] at given
      cases later : ofNames rest with
      | error _ =>
        rw [later] at given
        cases given
      | ok _ => exact List.forall_mem_cons.2 ⟨⟨m, named⟩, ih later⟩

/-- An accepted list has none of the marks in it. -/
theorem not_mem_of_ofChars {cs : List Char} {set : ModifierSet} (given : ofChars cs = .ok set) :
    ∀ mark ∈ Keystroke.marks, mark ∉ lower cs := by
  intro mark listed member
  have checked : Keystroke.marks.all (fun mark =>
      decide (isBlank mark = false ∧ mark ∉ ['|', '+'] ∧ mark ∉ lower "NONE".toList)) = true := by decide
  obtain ⟨solid, whole, unlike⟩ := of_decide_eq_true (List.all_eq_true.1 checked mark listed)
  have kept : mark ∈ lower (trim cs) := mem_lower_trim solid member
  unfold ofChars at given
  dsimp only at given
  split at given
  · rename_i none
    rcases Bool.or_eq_true_iff.1 none with empty | same
    · rw [List.isEmpty_iff.1 empty] at kept
      cases kept
    · rw [sameLetters_iff.1 same] at kept
      exact unlike kept
  · obtain ⟨c, within, rfl⟩ := List.mem_map.1 kept
    rcases mem_splitAll (p := fun c => c == '|' || c == '+') within with parts | ⟨piece, found, within⟩
    · refine whole ?_
      rcases Bool.or_eq_true_iff.1 parts with same | same
      · rw [eq_of_beq same]
        decide
      · rw [eq_of_beq same]
        decide
    · obtain ⟨m, named⟩ := exists_of_ofNames given piece found
      exact Modifier.not_mem_of_ofName? named _ listed (mem_lower_trim solid (List.mem_map_of_mem within))

/-- An accepted list has no parentheses in it. -/
theorem parentheses_of_ofChars {cs : List Char} {set : ModifierSet} (given : ofChars cs = .ok set) :
    Entries.parentheses cs = [] :=
  Entries.parentheses_of_lower (Entries.parentheses_eq_nil_iff.2
    ⟨not_mem_of_ofChars given '(' (by decide), not_mem_of_ofChars given ')' (by decide)⟩)

/-- Blanks in front of a list make no difference. -/
theorem ofChars_trimStart (cs : List Char) : ofChars (trimStart cs) = ofChars cs := by
  have same : trim (trimStart cs) = trim cs := by
    have whole := trim_trimStart_append cs []
    rwa [List.append_nil, List.append_nil] at whole
  unfold ofChars
  rw [same]

end ModifierSet

/-! ### What a name is -/

namespace KeyCode

/-- What has the name of a code has no parentheses in it. -/
theorem parentheses_of_ofChars {cs : List Char} {code : KeyCode} (named : ofChars cs = .ok code) :
    Entries.parentheses cs = [] := by
  have checked : ∀ code ∈ all, ∀ name ∈ code.names, Entries.parentheses (lower name.toList) = [] := by
    decide +kernel
  unfold ofChars at named
  dsimp only at named
  split at named
  · cases named
  · cases found : ofName? cs with
    | none =>
      rw [found] at named
      cases named
    | some code =>
      unfold ofName? at found
      have some := List.find?_some found
      obtain ⟨name, accepted, same⟩ := List.any_eq_true.1 some
      have none := checked code (mem_all code) name accepted
      rw [sameLetters_iff.1 same] at none
      rw [← Entries.parentheses_bareName, Entries.parentheses_of_lower none]

/-- A parenthesis behind a text without underscores keeps it from starting with the mark that reading drops. -/
theorem unmarked_of_open {cs : List Char} (under : '_' ∉ lower cs) (rest : List Char) :
    sameLetters ((cs ++ '(' :: rest).take 3) "KC_".toList = false := by
  refine Bool.eq_false_iff.2 fun same => ?_
  have same : lower ((cs ++ '(' :: rest).take 3) = ['k', 'c', '_'] := sameLetters_iff.1 same
  -- One of the first three characters is the parenthesis, or the third is in the text.
  rcases cs with _ | ⟨first, _ | ⟨second, _ | ⟨third, more⟩⟩⟩
  · exact absurd (List.cons.inj same).1 (by decide)
  · exact absurd (List.cons.inj (List.cons.inj same).2).1 (by decide)
  · exact absurd (List.cons.inj (List.cons.inj (List.cons.inj same).2).2).1 (by decide)
  · have last : third.toLower = '_' := (List.cons.inj (List.cons.inj (List.cons.inj same).2).2).1
    exact under (List.mem_map.2 ⟨third, by simp, last⟩)

/-- Of a keystroke behind a modifier list, only blanks in front are dropped. -/
theorem bareName_of_list {list : List Char} {set : ModifierSet} (given : ModifierSet.ofChars list = .ok set)
    (inner : List Char) :
    bareName (list ++ '(' :: (inner ++ [')'])) = trimStart list ++ '(' :: (inner ++ [')']) := by
  have under : '_' ∉ lower (trimStart list) := by
    rw [← ModifierSet.ofChars_trimStart] at given
    exact ModifierSet.not_mem_of_ofChars given '_' (by decide)
  unfold bareName
  dsimp only
  rw [trim_enclosed, unmarked_of_open under, if_neg Bool.false_ne_true]

end KeyCode

namespace Keystroke

/-- What has the name of a symbol has no parentheses in it. -/
theorem parentheses_of_ofSymbol? {cs : List Char} {stroke : Keystroke} (named : ofSymbol? cs = some stroke) :
    Entries.parentheses cs = [] := by
  have checked : ∀ entry ∈ KeyCode.shiftedSymbols, Entries.parentheses (lower entry.1.toList) = [] := by decide
  obtain ⟨entry, found, -⟩ := Option.map_eq_some_iff.1 named
  have same := List.find?_some found
  have none := checked entry (List.mem_of_find?_eq_some found)
  rw [sameLetters_iff.1 same] at none
  exact Entries.parentheses_of_lower none

/-- Which keystroke a text stands for. -/
inductive Denotes : List Char → Keystroke → Prop where
  /-- The name of a symbol stands for its key with the left shift. -/
  | symbol {cs : List Char} {stroke : Keystroke} (named : ofSymbol? (KeyCode.bareName cs) = some stroke) :
    Denotes cs stroke
  /-- Any other name stands for its code. -/
  | code {cs : List Char} {code : KeyCode} (other : ofSymbol? (KeyCode.bareName cs) = none)
    (named : KeyCode.ofChars (KeyCode.bareName cs) = .ok code) : Denotes cs (ofCode code)
  /-- A modifier list adds its modifiers to the keystroke in parentheses behind it. -/
  | wrapped {cs list inner : List Char} {set : ModifierSet} {stroke : Keystroke}
    (parts : KeyCode.bareName cs = list ++ '(' :: (inner ++ [')'])) (given : ModifierSet.ofChars list = .ok set)
    (within : Denotes inner stroke) : Denotes cs ⟨stroke.code, stroke.modifiers ∪ set⟩

variable {cs : List Char} {stroke : Keystroke}

/-- A text from which a closing parenthesis was dropped had it at its end. -/
theorem eq_append_of_dropClose? {inner : List Char} (kept : dropClose? cs = some inner) : cs = inner ++ [')'] := by
  unfold dropClose? at kept
  split at kept
  · rename_i closes
    rw [← Option.some.inj kept]
    exact (List.dropLast_append_getLast? _ closes).symm
  · cases kept

/-- What is read of a text is what it stands for. -/
theorem denotes_of_ofChars (read : ofChars cs = .ok stroke) : Denotes cs stroke := by
  fun_induction ofChars cs generalizing stroke with
  | case1 => cases read
  | case2 => cases read
  | case3 => cases read
  | case4 =>
    rename_i list rest cut inner kept set given ih
    cases within : ofChars inner with
    | error _ =>
      rw [within] at read
      cases read
    | ok kernel =>
      rw [within] at read
      obtain ⟨mark, opens, parts⟩ := cut?_eq_some cut
      rw [eq_of_beq opens, eq_append_of_dropClose? kept] at parts
      obtain rfl := Except.ok.inj read
      exact .wrapped parts given (ih within)
  | case5 => cases read
  | case6 =>
    rename_i named
    obtain rfl := Except.ok.inj read
    exact .symbol named
  | case7 cs =>
    rename_i other
    cases named : KeyCode.ofChars (KeyCode.bareName cs) with
    | error _ =>
      rw [named] at read
      cases read
    | ok code =>
      rw [named] at read
      obtain rfl := Except.ok.inj read
      exact .code other named

/-- What a text stands for is read of it. -/
theorem ofChars_of_denotes (denotes : Denotes cs stroke) : ofChars cs = .ok stroke := by
  have bare {cs : List Char} (filled : KeyCode.bareName cs ≠ [])
      (none : Entries.parentheses (KeyCode.bareName cs) = []) := ofChars_bare filled
    (Entries.parentheses_eq_nil_iff.1 none).1 (Entries.parentheses_eq_nil_iff.1 none).2
  induction denotes with
  | symbol named =>
    rw [bare _ (parentheses_of_ofSymbol? named), named]
    intro empty
    rw [empty] at named
    cases named
  | code other named =>
    rw [bare _ (KeyCode.parentheses_of_ofChars named), other, named]
    · rfl
    · intro empty
      rw [empty] at named
      cases named
  | wrapped parts given within ih =>
    have opens := (Entries.parentheses_eq_nil_iff.1 (ModifierSet.parentheses_of_ofChars given)).1
    rw [ofChars_wrapped parts opens, given]
    dsimp only
    rw [ih]
    rfl

/-- The reader follows the grammar. -/
theorem ofChars_eq_ok_iff : ofChars cs = .ok stroke ↔ Denotes cs stroke :=
  ⟨denotes_of_ofChars, ofChars_of_denotes⟩

/-- The parentheses of a text that stands for a keystroke pair up. -/
theorem balanced_of_denotes (denotes : Denotes cs stroke) : Entries.Balanced cs := by
  rw [Entries.balanced_iff]
  induction denotes with
  | symbol named =>
    rw [← Entries.parentheses_bareName, parentheses_of_ofSymbol? named]
    rfl
  | code other named =>
    rw [← Entries.parentheses_bareName, KeyCode.parentheses_of_ofChars named]
    rfl
  | @wrapped cs list inner set stroke parts given within ih =>
    have outer : Entries.parentheses cs = '(' :: (Entries.parentheses inner ++ [')']) := by
      rw [← Entries.parentheses_bareName, parts, Entries.parentheses_append,
        ModifierSet.parentheses_of_ofChars given, List.nil_append, ← List.singleton_append,
        Entries.parentheses_append, Entries.parentheses_append]
      rfl
    rw [outer]
    exact Entries.within?_enclosed (Entries.within?_succ ih)

/-! ### Lists around a keystroke -/

/-- A text in parentheses behind a modifier list. -/
def enclose (list inner : String) : String := list ++ "(" ++ inner ++ ")"

/-- A text within modifier lists, of which the first one is outermost. -/
def wrap (lists : List String) (s : String) : String := lists.foldr enclose s

/-- The characters of an enclosed text are those of the list, a parenthesis, those of the text, and
another one. -/
theorem toList_enclose (list inner : String) :
    (enclose list inner).toList = list.toList ++ '(' :: (inner.toList ++ [')']) := by
  simp [enclose]

/-- A list around a text adds its modifiers to what is read of the text. -/
theorem ofString_enclose {list inner : String} {set : ModifierSet} (given : ModifierSet.ofString list = .ok set)
    (read : ofString inner = .ok stroke) :
    ofString (enclose list inner) = .ok ⟨stroke.code, stroke.modifiers ∪ set⟩ := by
  have parts : KeyCode.bareName (enclose list inner).toList =
      trimStart list.toList ++ '(' :: (inner.toList ++ [')']) := by
    rw [toList_enclose, KeyCode.bareName_of_list given]
  have trimmed : ModifierSet.ofChars (trimStart list.toList) = .ok set :=
    (ModifierSet.ofChars_trimStart _).trans given
  exact ofChars_eq_ok_iff.2 (.wrapped parts trimmed (ofChars_eq_ok_iff.1 read))

/-- Lists around a text add the modifiers of each of them. -/
theorem exists_of_wrap {lists : List String} {s : String}
    (given : ∀ list ∈ lists, ∃ set, ModifierSet.ofString list = .ok set) (read : ofString s = .ok stroke) :
    ∃ found, ofString (wrap lists s) = .ok found ∧ found.code = stroke.code ∧
      ∀ m, m ∈ found.modifiers ↔
        m ∈ stroke.modifiers ∨ ∃ list ∈ lists, ∃ set, ModifierSet.ofString list = .ok set ∧ m ∈ set := by
  induction lists with
  | nil => exact ⟨stroke, read, rfl, fun m => by simp⟩
  | cons list rest ih =>
    obtain ⟨set, first⟩ := given list (.head _)
    obtain ⟨found, inner, same, members⟩ := ih fun list member => given list (.tail _ member)
    refine ⟨_, ofString_enclose first inner, same, fun m => ?_⟩
    have added : m ∈ found.modifiers ∪ set ↔ m ∈ found.modifiers ∨ m ∈ set := by
      simp [ModifierSet.mem_iff]
    have given : (∃ list' ∈ list :: rest, ∃ set, ModifierSet.ofString list' = .ok set ∧ m ∈ set) ↔
        m ∈ set ∨ ∃ list ∈ rest, ∃ set, ModifierSet.ofString list = .ok set ∧ m ∈ set := by
      simp [first]
    rw [added, members, given, or_right_comm, or_assoc]

/-- Which texts are read at all. -/
theorem exists_ofString_iff (s : String) : (∃ stroke, ofString s = .ok stroke) ↔
    (∃ entry ∈ KeyCode.shiftedSymbols, sameLetters entry.1.toList (KeyCode.bareName s.toList) = true) ∨
    (∃ code, KeyCode.ofChars (KeyCode.bareName s.toList) = .ok code) ∨
    ∃ list inner, KeyCode.bareName s.toList = (enclose list inner).toList ∧
      (∃ set, ModifierSet.ofString list = .ok set) ∧ ∃ stroke, ofString inner = .ok stroke := by
  constructor
  · rintro ⟨stroke, read⟩
    cases ofChars_eq_ok_iff.1 read with
    | symbol named =>
      obtain ⟨entry, found, -⟩ := Option.map_eq_some_iff.1 named
      have same := List.find?_some found
      exact .inl ⟨entry, List.mem_of_find?_eq_some found, same⟩
    | code _ named => exact .inr (.inl ⟨_, named⟩)
    | @wrapped _ list inner set kernel parts given within =>
      refine .inr (.inr ⟨.ofList list, .ofList inner, ?_, ⟨set, ?_⟩, kernel, ?_⟩)
      · rw [toList_enclose, String.toList_ofList, String.toList_ofList, parts]
      · rw [ModifierSet.ofString, String.toList_ofList, given]
      · rw [ofString, String.toList_ofList, ofChars_eq_ok_iff.2 within]
  · rintro (⟨entry, listed, same⟩ | ⟨code, named⟩ | ⟨list, inner, parts, ⟨set, given⟩, kernel, within⟩)
    · have some : (ofSymbol? (KeyCode.bareName s.toList)).isSome = true := by
        rw [ofSymbol?, Option.isSome_map, List.find?_isSome]
        exact ⟨entry, listed, same⟩
      obtain ⟨stroke, named⟩ := Option.isSome_iff_exists.1 some
      exact ⟨stroke, ofChars_eq_ok_iff.2 (.symbol named)⟩
    · cases symbol : ofSymbol? (KeyCode.bareName s.toList) with
      | none => exact ⟨_, ofChars_eq_ok_iff.2 (.code symbol named)⟩
      | some stroke => exact ⟨stroke, ofChars_eq_ok_iff.2 (.symbol symbol)⟩
    · rw [toList_enclose] at parts
      exact ⟨_, ofChars_eq_ok_iff.2 (.wrapped parts given (ofChars_eq_ok_iff.1 within))⟩

/-- A text is read if and only if it is the name of a symbol or a code, or another text that is read, in
parentheses behind a modifier list. Lists around a text that is read add their modifiers to its own, in whichever
order and however often they stand there. A text whose parentheses do not pair up is not read. -/
theorem wrap_collects :
    (∀ s : String, (∃ stroke, ofString s = .ok stroke) ↔
      (∃ entry ∈ KeyCode.shiftedSymbols, sameLetters entry.1.toList (KeyCode.bareName s.toList) = true) ∨
      (∃ code, KeyCode.ofChars (KeyCode.bareName s.toList) = .ok code) ∨
      ∃ list inner, KeyCode.bareName s.toList = (enclose list inner).toList ∧
        (∃ set, ModifierSet.ofString list = .ok set) ∧ ∃ stroke, ofString inner = .ok stroke) ∧
    (∀ (lists : List String) (s : String) (stroke : Keystroke),
      (∀ list ∈ lists, ∃ set, ModifierSet.ofString list = .ok set) → ofString s = .ok stroke →
      ∃ found, ofString (wrap lists s) = .ok found ∧ found.code = stroke.code ∧
        (∀ m, m ∈ found.modifiers ↔
          m ∈ stroke.modifiers ∨ ∃ list ∈ lists, ∃ set, ModifierSet.ofString list = .ok set ∧ m ∈ set) ∧
        ∀ others, (∀ list, list ∈ others ↔ list ∈ lists) → ofString (wrap others s) = .ok found) ∧
    ∀ s : String, ¬Entries.Balanced s.toList → ∃ error, ofString s = .error error := by
  refine ⟨exists_ofString_iff, fun lists s stroke given read => ?_, fun s unpaired => ?_⟩
  · obtain ⟨found, collected, code, members⟩ := exists_of_wrap given read
    refine ⟨found, collected, code, members, fun others same => ?_⟩
    obtain ⟨found', collected', code', members'⟩ :=
      exists_of_wrap (fun list member => given list ((same list).1 member)) read
    have modifiers : found'.modifiers = found.modifiers := by
      refine ModifierSet.ext_contains fun m => Bool.eq_iff_iff.2 ?_
      rw [← ModifierSet.mem_iff, ← ModifierSet.mem_iff, members', members]
      simp only [same]
    have whole : found' = found := by
      cases found
      cases found'
      exact congrArg₂ _ (code'.trans code.symm) modifiers
    rw [collected', whole]
  · cases read : ofString s with
    | error error => exact ⟨error, rfl⟩
    | ok stroke => exact absurd (balanced_of_denotes (ofChars_eq_ok_iff.1 read)) unpaired

/-- The question mark with the modifiers of three lists around it, in two orders. Two keystrokes in a row are
refused: their parentheses do not pair up, or those of what stands between the outer ones do not. -/
theorem wrap_collects_symbol :
    ofString (wrap ["S", " LCTL + lsft ", "none"] "kc_QUES") =
      .ok ⟨.slash, .single .leftShift ∪ .single .leftControl⟩ ∧
    ofString (wrap ["none", " LCTL + lsft ", "S", "none"] "kc_QUES") =
      .ok ⟨.slash, .single .leftShift ∪ .single .leftControl⟩ ∧
    (∃ error, ofString "S(A)(B))" = .error error) ∧ ∃ error, ofString "(S)(A)" = .error error := by
  obtain ⟨-, collects, refuses⟩ := wrap_collects
  have shift : ModifierSet.ofString "S" = .ok (.single .leftShift) := rfl
  have both : ModifierSet.ofString " LCTL + lsft " = .ok (.single .leftControl ∪ .single .leftShift) := rfl
  have none : ModifierSet.ofString "none" = .ok ∅ := rfl
  have mark : ofString "kc_QUES" = .ok ⟨.slash, .single .leftShift⟩ := ofChars_eq_ok_iff.2 (.symbol rfl)
  obtain ⟨⟨code, modifiers⟩, read, rfl, members, ordered⟩ := collects ["S", " LCTL + lsft ", "none"] "kc_QUES" _
    (by simp [shift, both, none]) mark
  have same : modifiers = .single .leftShift ∪ .single .leftControl := by
    refine ModifierSet.ext_contains fun m => Bool.eq_iff_iff.2 ((members m).trans ?_)
    simp [shift, both, none, ModifierSet.mem_iff]
    tauto
  rw [same] at read ordered
  have parts : KeyCode.bareName "(S)(A)".toList = [] ++ '(' :: ("S)(A".toList ++ [')']) := by decide
  have outer : ofString "(S)(A)" = (ofString "S)(A").map fun stroke => ⟨stroke.code, stroke.modifiers ∪ ∅⟩ :=
    ofChars_wrapped parts List.not_mem_nil
  obtain ⟨error, inner⟩ := refuses "S)(A" (by decide)
  rw [inner] at outer
  exact ⟨read, ordered _ (by grind), refuses _ (by decide), error, outer⟩

end Keystroke

end KeyEngine
