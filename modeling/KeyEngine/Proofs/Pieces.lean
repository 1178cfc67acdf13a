import Mathlib.Data.List.DropRight
import KeyEngine.Text

/-!
# Texts that are trimmed, joined and cut

What is written is read back piece by piece, so each way to take a text apart has to undo the way in which
it was put together. A text without blanks at its ends is its own trimming; pieces that were joined come
apart again where none of them has the separator in it; and a text is cut exactly at the character that was
put behind its first part. The plain characters, of which all names are made, are never in the way.
-/

namespace KeyEngine.Text

/-- Whether a character is neither blank nor a parenthesis nor a comma. -/
def isPlain (c : Char) : Bool := !isBlank c && c != '(' && c != ')' && c != ','

/-- Only plain characters. -/
def Plain (cs : List Char) : Prop := ∀ c ∈ cs, isPlain c = true

instance (cs : List Char) : Decidable (Plain cs) :=
  decidable_of_iff (cs.all isPlain = true) List.all_eq_true

/-- No blank at either end. -/
def Tight (cs : List Char) : Prop :=
  (∀ c ∈ cs.head?, isBlank c = false) ∧ ∀ c ∈ cs.getLast?, isBlank c = false

/-- A plain character is no blank. -/
theorem isBlank_of_isPlain {c : Char} (plain : isPlain c = true) : isBlank c = false := by
  simp only [isPlain, Bool.and_eq_true, Bool.not_eq_true'] at plain
  exact plain.1.1.1

/-- A plain character is none that is not plain. -/
theorem ne_of_isPlain {c d : Char} (plain : isPlain c = true) (marks : isPlain d = false) : c ≠ d := by
  rintro rfl
  rw [plain] at marks
  cases marks

/-- A blank is no character that is not blank. -/
theorem ne_of_isBlank {c d : Char} (blank : isBlank c = true) (marks : isBlank d = false) : c ≠ d := by
  rintro rfl
  rw [blank] at marks
  cases marks

namespace Plain

variable {cs more : List Char}

/-- Plain texts in a row are a plain text. -/
theorem append (plain : Plain cs) (others : Plain more) : Plain (cs ++ more) := fun c member =>
  (List.mem_append.1 member).elim (plain c) (others c)

/-- No character that is not plain stands in a plain text. -/
theorem not_mem (plain : Plain cs) {d : Char} (marks : isPlain d = false) : d ∉ cs :=
  fun member => ne_of_isPlain (plain d member) marks rfl

/-- A plain text has no blank at either end. -/
theorem tight (plain : Plain cs) : Tight cs :=
  ⟨fun _ first => isBlank_of_isPlain (plain _ (List.mem_of_head? first)),
    fun _ last => isBlank_of_isPlain (plain _ (List.mem_of_getLast? last))⟩

end Plain

/-- The parenthesis that ends a call is no blank. -/
theorem tight_close : Tight [')'] := by simp [Tight, isBlank]

/-- Two texts without blanks at their ends make up another one, whatever stands between them. -/
theorem Tight.append {front back : List Char} (first : Tight front) (last : Tight back)
    (some : front ≠ []) (more : back ≠ []) (between : List Char) :
    Tight (front ++ between ++ back) := by
  constructor
  · rw [List.append_assoc, List.head?_append_of_ne_nil _ some]
    exact first.1
  · rw [List.getLast?_append_of_ne_nil _ more]
    exact last.2

/-- Trimming leaves no blank at the ends. -/
theorem tight_trim (cs : List Char) : Tight (trim cs) := by
  constructor
  · intro c first
    -- What is left after trimming the end is a beginning of what was left after trimming the start.
    obtain ⟨rest, same⟩ : trim cs <+: trimStart cs := List.rdropWhile_prefix isBlank _
    have starts : (trimStart cs).head? = some c := by
      rw [← same, List.head?_append, Option.mem_def.1 first]
      rfl
    have stops := List.head?_dropWhile_not isBlank cs
    rw [show cs.dropWhile isBlank = trimStart cs from rfl, starts] at stops
    exact stops
  · intro c last
    have some : trim cs ≠ [] := List.ne_nil_of_mem (List.mem_of_getLast? last)
    have stops := List.rdropWhile_last_not isBlank (trimStart cs) some
    rw [Option.mem_def, List.getLast?_eq_some_getLast some] at last
    rw [← Option.some.inj last]
    exact Bool.eq_false_iff.2 stops

/-- A text without blanks at its ends is its own trimming. -/
theorem trim_of_tight {cs : List Char} (tight : Tight cs) : trim cs = cs := by
  have start : trimStart cs = cs := by
    refine List.dropWhile_eq_self_iff.2 fun long => ?_
    rw [tight.1 cs[0] (by simp [List.head?_eq_getElem?, long])]
    exact Bool.false_ne_true
  have stop : trimEnd cs = cs := by
    refine List.rdropWhile_eq_self_iff.2 fun some => ?_
    rw [tight.2 (cs.getLast some) (List.getLast?_eq_some_getLast some)]
    exact Bool.false_ne_true
  rw [trim, start, stop]

/-- A trimmed text is its own trimming. -/
theorem trim_trim (cs : List Char) : trim (trim cs) = trim cs := trim_of_tight (tight_trim cs)

/-- Blanks in front make no difference. -/
theorem trim_append_left {blanks : List Char} (blank : ∀ c ∈ blanks, isBlank c = true) (cs : List Char) :
    trim (blanks ++ cs) = trim cs := by
  rw [trim, trimStart, List.dropWhile_append_of_pos blank]
  rfl

/-- Blanks behind make no difference. -/
theorem trim_append_right {blanks : List Char} (blank : ∀ c ∈ blanks, isBlank c = true) (cs : List Char) :
    trim (cs ++ blanks) = trim cs := by
  have stop (front : List Char) : trimEnd (front ++ blanks) = trimEnd front := by
    rw [trimEnd, List.reverse_append,
      List.dropWhile_append_of_pos fun c member => blank c (List.mem_reverse.1 member)]
    rfl
  rw [trim, trim, trimStart, List.dropWhile_append]
  split
  · rename_i empty
    rw [List.isEmpty_iff] at empty
    rw [trimStart, empty, ← List.nil_append (blanks.dropWhile isBlank),
      List.dropWhile_eq_nil_iff.2 blank]
    rfl
  · exact stop _

/-- Nothing is left of blanks when they are trimmed. -/
theorem trim_of_blank {blanks : List Char} (blank : ∀ c ∈ blanks, isBlank c = true) : trim blanks = [] :=
  trim_append_right blank []

/-- A blank in front makes no difference. -/
theorem trim_cons {c : Char} (blank : isBlank c = true) (cs : List Char) : trim (c :: cs) = trim cs :=
  trim_append_left (List.forall_mem_singleton.2 blank) cs

/-- A text is its trimming with blanks around it. -/
theorem exists_trim (cs : List Char) : ∃ front back, cs = front ++ (trim cs ++ back) ∧
    (∀ c ∈ front, isBlank c = true) ∧ ∀ c ∈ back, isBlank c = true := by
  refine ⟨cs.takeWhile isBlank, ((trimStart cs).reverse.takeWhile isBlank).reverse, ?_,
    fun c member => List.mem_takeWhile_imp member,
    fun c member => List.mem_takeWhile_imp (List.mem_reverse.1 member)⟩
  have stop : trim cs ++ ((trimStart cs).reverse.takeWhile isBlank).reverse = trimStart cs := by
    rw [trim, trimEnd, ← List.reverse_append, List.takeWhile_append_dropWhile, List.reverse_reverse]
  rw [stop, trimStart, List.takeWhile_append_dropWhile]

/-- Nothing is left of a text by trimming if and only if it is blank. -/
theorem trim_eq_nil_iff {cs : List Char} : trim cs = [] ↔ ∀ c ∈ cs, isBlank c = true := by
  constructor
  · intro empty
    obtain ⟨front, back, same, before, behind⟩ := exists_trim cs
    rw [same, empty, List.nil_append]
    exact List.forall_mem_append.2 ⟨before, behind⟩
  · exact trim_of_blank

/-- A text is split as the library splits lists. -/
theorem splitAll_eq_splitOnP (p : Char → Bool) (cs : List Char) : splitAll p cs = cs.splitOnP p := by
  induction cs with
  | nil => rfl
  | cons c rest ih =>
    rw [splitAll, ih, List.splitOnP_cons_eq_if_modifyHead]
    cases pieces : rest.splitOnP p with
    | nil => exact absurd (ih.trans pieces) (splitAll_ne_nil p rest)
    | cons piece others => rfl

/-- Joined pieces come apart again at the separators. -/
theorem splitAll_join {p : Char → Bool} {separator : Char} (parts : p separator = true)
    {pieces : List (List Char)} (some : pieces ≠ [])
    (whole : ∀ piece ∈ pieces, ∀ c ∈ piece, p c = false) :
    splitAll p (join [separator] pieces) = pieces := by
  rw [splitAll_eq_splitOnP]
  induction pieces with
  | nil => exact absurd rfl some
  | cons piece rest ih =>
    have first := whole piece (.head _)
    cases rest with
    | nil => exact List.splitOnP_eq_singleton first
    | cons second others =>
      show List.splitOnP p (piece ++ [separator] ++ join [separator] (second :: others)) = _
      rw [List.append_assoc, List.singleton_append,
        List.splitOnP_append_cons_of_forall_mem first _ parts,
        ih (List.cons_ne_nil _ _) fun piece member => whole piece (.tail _ member)]

/-- The first of several pieces stands in front of a separator and the others joined. -/
theorem join_cons {separator piece : List Char} {rest : List (List Char)} (some : rest ≠ []) :
    join separator (piece :: rest) = piece ++ separator ++ join separator rest := by
  cases rest with
  | nil => exact absurd rfl some
  | cons second others => rfl

/-- What stands in front of the first piece stands in front of the joined pieces. -/
theorem join_front (separator front piece : List Char) (rest : List (List Char)) :
    join separator ((front ++ piece) :: rest) = front ++ join separator (piece :: rest) := by
  cases rest with
  | nil => rfl
  | cons second others =>
    rw [join_cons (List.cons_ne_nil _ _), join_cons (List.cons_ne_nil _ _), List.append_assoc, List.append_assoc,
      List.append_assoc]

/-- The end of a separator may as well be the beginning of the piece behind it. -/
theorem join_append (separator more piece : List Char) (rest : List (List Char)) :
    join (separator ++ more) (piece :: rest) = join separator (piece :: rest.map (more ++ ·)) := by
  induction rest generalizing piece with
  | nil => rfl
  | cons second others ih =>
    rw [List.map_cons, join_cons (List.cons_ne_nil _ _), join_cons (List.cons_ne_nil _ _), ih, join_front,
      ← List.append_assoc piece, List.append_assoc]

/-- One more piece comes behind one more separator. -/
theorem join_concat {pieces : List (List Char)} (some : pieces ≠ []) (separator last : List Char) :
    join separator (pieces ++ [last]) = join separator pieces ++ separator ++ last := by
  induction pieces with
  | nil => exact absurd rfl some
  | cons piece rest ih =>
    cases rest with
    | nil => rfl
    | cons second others =>
      rw [List.cons_append, join_cons (by simp), ih (List.cons_ne_nil _ _), join_cons (List.cons_ne_nil _ _)]
      simp only [List.append_assoc]

/-- Joined pieces start as the first one does. -/
theorem head?_join (separator : List Char) {piece : List Char} (filled : piece ≠ [])
    (rest : List (List Char)) : (join separator (piece :: rest)).head? = piece.head? := by
  cases rest with
  | nil => rfl
  | cons second others =>
    show (piece ++ separator ++ join separator (second :: others)).head? = _
    rw [List.append_assoc, List.head?_append_of_ne_nil _ filled]

/-- A text is cut behind its first part, if the character there is the first one that `p` accepts. -/
theorem cut?_append {p : Char → Bool} {front : List Char} (before : ∀ c ∈ front, p c = false) {c : Char}
    (at_c : p c = true) (rest : List Char) : cut? p (front ++ c :: rest) = some (front, rest) := by
  induction front with
  | nil => rw [List.nil_append, cut?, if_pos at_c]
  | cons d others ih =>
    have first : ¬p d = true := Bool.eq_false_iff.1 (before d (.head _))
    rw [List.cons_append, cut?, if_neg first, ih fun c member => before c (.tail _ member)]
    rfl

/-- A text without a character that `p` accepts is not cut. -/
theorem cut?_eq_none {p : Char → Bool} {cs : List Char} (never : ∀ c ∈ cs, p c = false) :
    cut? p cs = none := by
  cases found : cut? p cs with
  | none => rfl
  | some parts =>
    obtain ⟨c, accepts, rfl⟩ := cut?_eq_some found
    rw [never c (List.mem_append_right _ (.head _))] at accepts
    cases accepts

end KeyEngine.Text
