import KeyEngine.Action.Entries
import KeyEngine.Proofs.Pieces

/-!
# Entries that are joined by commas

An entry is one text: its parentheses pair up, and no comma stands outside of them all. Reading it changes
the number of open parentheses and nothing else, however many were open before. `within?` follows that
number, and `single_iff` says that it finds nothing open exactly behind the texts in which the parentheses,
counted one by one, never fall short. Entries that were joined by commas are therefore found again:
`ofChars?_join` says so of a list of entries, and of one that ends in a comma.
-/

namespace KeyEngine.Entries

open Text

/-- The parentheses of a text pair up: up to each point no more are closed than were opened, and in the
end as many. -/
structure Balanced (cs : List Char) : Prop where
  /-- Nothing is closed that was not opened. -/
  opened : ∀ front, front <+: cs → front.count ')' ≤ front.count '('
  /-- Nothing stays open. -/
  closed : cs.count '(' = cs.count ')'

/-- A text that is one entry: its parentheses pair up, and every comma stands inside of some. -/
structure Single (cs : List Char) : Prop extends Balanced cs where
  /-- In front of every comma there is a parenthesis that is still open. -/
  inside : ∀ front rest, cs = front ++ ',' :: rest → front.count ')' < front.count '('

/-- How many parentheses are open behind a text, if `depth` are open in front of it; nothing if one is
closed that is not open, or if a comma stands outside of them all. -/
def within? : (depth : Nat) → List Char → Option Nat
  | depth, [] => some depth
  | depth, '(' :: rest => within? (depth + 1) rest
  | 0, ')' :: _ => none
  | depth + 1, ')' :: rest => within? depth rest
  | 0, ',' :: _ => none
  | depth, _ :: rest => within? depth rest

/-- Every other character leaves open what is open, but for a comma outside of all parentheses. -/
theorem within?_cons {depth : Nat} {c : Char} (opens : c ≠ '(') (closes : c ≠ ')')
    (parts : c = ',' → depth ≠ 0) (rest : List Char) :
    within? depth (c :: rest) = within? depth rest := by
  rw [within?]
  · exact opens
  · exact fun _ => closes
  · exact fun _ _ => closes
  · exact fun outside same => parts same outside

/-- A character that closes neither where nothing is open nor where something is closes nothing. -/
theorem ne_close {depth : Nat} {c : Char} (outside : depth = 0 → c ≠ ')')
    (inside : ∀ less, depth = less + 1 → c ≠ ')') : c ≠ ')' := by
  cases depth with
  | zero => exact outside rfl
  | succ less => exact inside less rfl

/-- The counts of the parentheses in a text, with `depth` open in front of it and `left` behind it. -/
structure Counted (depth left : Nat) (cs : List Char) : Prop where
  /-- Nothing is closed that was not opened. -/
  opened : ∀ front, front <+: cs → front.count ')' ≤ depth + front.count '('
  /-- What was opened and not closed is left open. -/
  closed : depth + cs.count '(' = left + cs.count ')'
  /-- In front of every comma there is a parenthesis that is still open. -/
  inside : ∀ front rest, cs = front ++ ',' :: rest → front.count ')' < depth + front.count '('

namespace Counted

variable {depth left : Nat} {rest : List Char}

/-- What the first character counts comes apart. -/
theorem count_front (c : Char) (front : List Char) (d : Char) :
    (c :: front).count d = [c].count d + front.count d := by
  rw [← List.singleton_append, List.count_append]

/-- After the first character, the counts go on from what it leaves open. -/
theorem tail {c : Char} (counted : Counted depth left (c :: rest)) (next : Nat)
    (goes : depth + [c].count '(' = next + [c].count ')') : Counted next left rest := by
  constructor
  · intro front before
    have upTo := counted.opened (c :: front) (List.cons_prefix_cons.2 ⟨rfl, before⟩)
    rw [count_front c front ')', count_front c front '('] at upTo
    omega
  · have whole := counted.closed
    rw [count_front c rest '(', count_front c rest ')'] at whole
    omega
  · intro front others same
    have upTo := counted.inside (c :: front) others (by rw [same]; rfl)
    rw [count_front c front ')', count_front c front '('] at upTo
    omega

/-- In front of counts stands any character that leaves open what they start with, but for a comma
outside of all parentheses. -/
theorem cons {c : Char} {next : Nat} (counted : Counted next left rest)
    (goes : depth + [c].count '(' = next + [c].count ')') (parts : c = ',' → depth ≠ 0) :
    Counted depth left (c :: rest) := by
  constructor
  · intro front before
    cases front with
    | nil => exact Nat.zero_le _
    | cons d front =>
      obtain ⟨rfl, later⟩ := List.cons_prefix_cons.1 before
      have upTo := counted.opened front later
      rw [count_front _ front ')', count_front _ front '(']
      omega
  · have whole := counted.closed
    rw [count_front c rest '(', count_front c rest ')']
    omega
  · intro front others same
    cases front with
    | nil => exact Nat.pos_of_ne_zero (parts (List.cons.inj same).1)
    | cons d front =>
      obtain ⟨rfl, later⟩ := List.cons.inj same
      have upTo := counted.inside front others later
      rw [count_front _ front ')', count_front _ front '(']
      omega

/-- What is followed to its end was counted. -/
theorem of_within? {cs : List Char} (found : within? depth cs = some left) : Counted depth left cs := by
  fun_induction within? depth cs with
  | case1 depth =>
    cases found
    exact ⟨fun front before => by rw [List.prefix_nil.1 before]; exact Nat.zero_le _, rfl,
      fun front rest same => by simp at same⟩
  | case2 depth rest ih => exact (ih found).cons rfl (fun comma => absurd comma (by decide))
  | case3 => cases found
  | case4 depth rest ih => exact (ih found).cons rfl (fun comma => absurd comma (by decide))
  | case5 => cases found
  | case6 depth c rest opens shut closes parts ih =>
    have opens : c ≠ '(' := opens
    refine (ih found).cons ?_ fun comma outside => parts outside comma
    rw [List.count_singleton, List.count_singleton]
    simp [opens, ne_close shut closes]

/-- The counts of a text are followed to their end. -/
theorem within?_eq {cs : List Char} (counted : Counted depth left cs) : within? depth cs = some left := by
  induction cs generalizing depth with
  | nil => exact congrArg some counted.closed
  | cons c rest ih =>
    by_cases opens : c = '('
    · subst opens
      exact ih (counted.tail (depth + 1) rfl)
    · have closing : c = ')' → depth ≠ 0 := by
        rintro rfl rfl
        have first := counted.opened [')'] (List.cons_prefix_cons.2 ⟨rfl, List.nil_prefix⟩)
        exact absurd first (by decide)
      have parting : c = ',' → depth ≠ 0 := by
        rintro rfl rfl
        exact absurd (counted.inside [] rest rfl) (by decide)
      by_cases closes : c = ')'
      · subst closes
        obtain ⟨less, rfl⟩ := Nat.exists_eq_succ_of_ne_zero (closing rfl)
        exact ih (counted.tail less rfl)
      · rw [within?_cons opens closes parting]
        refine ih (counted.tail depth ?_)
        rw [List.count_singleton, List.count_singleton]
        simp [opens, closes]

end Counted

/-- A text is one entry if and only if reading it leaves nothing open. -/
theorem single_iff {cs : List Char} : Single cs ↔ within? 0 cs = some 0 := by
  constructor
  · intro single
    refine Counted.within?_eq ⟨fun front before => ?_, ?_, fun front rest same => ?_⟩
    · rw [Nat.zero_add]
      exact single.opened front before
    · rw [Nat.zero_add, Nat.zero_add]
      exact single.closed
    · rw [Nat.zero_add]
      exact single.inside front rest same
  · intro found
    obtain ⟨opened, closed, inside⟩ := Counted.of_within? found
    simp only [Nat.zero_add] at opened closed inside
    exact ⟨⟨opened, closed⟩, inside⟩

instance : DecidablePred Single := fun _ => decidable_of_iff' _ single_iff

/-- The parentheses of a text, and nothing else. -/
def parentheses (cs : List Char) : List Char := cs.filter fun c => c == '(' || c == ')'

/-- The parentheses of two texts in a row are those of the first and then those of the second. -/
@[simp] theorem parentheses_append (cs more : List Char) :
    parentheses (cs ++ more) = parentheses cs ++ parentheses more := List.filter_append cs more

/-- A text has no parentheses exactly when it has neither an opening nor a closing one. -/
theorem parentheses_eq_nil_iff {cs : List Char} : parentheses cs = [] ↔ '(' ∉ cs ∧ ')' ∉ cs := by
  rw [parentheses, List.filter_eq_nil_iff]
  constructor
  · exact fun none => ⟨fun opens => none _ opens rfl, fun closes => none _ closes rfl⟩
  · rintro ⟨opens, closes⟩ c member mark
    rcases Bool.or_eq_true_iff.1 mark with same | same
    · exact opens (eq_of_beq same ▸ member)
    · exact closes (eq_of_beq same ▸ member)

/-- Whether the parentheses of a text pair up can be read off from them alone. -/
theorem balanced_iff {cs : List Char} : Balanced cs ↔ within? 0 (parentheses cs) = some 0 := by
  have opens (cs : List Char) : (parentheses cs).count '(' = cs.count '(' := List.count_filter rfl
  have closes (cs : List Char) : (parentheses cs).count ')' = cs.count ')' := List.count_filter rfl
  have unparted (front rest : List Char) : parentheses cs ≠ front ++ ',' :: rest := by
    intro same
    have comma : ',' ∈ parentheses cs := same ▸ List.mem_append_right front (.head rest)
    exact absurd (List.mem_filter.1 comma).2 (by decide)
  rw [← single_iff]
  constructor
  · rintro ⟨opened, closed⟩
    refine ⟨⟨fun front before => ?_, ?_⟩, fun front rest same => absurd same (unparted front rest)⟩
    · obtain ⟨whole, earlier, rfl⟩ := List.prefix_filter_iff.1 before
      exact (closes whole).trans_le ((opened whole earlier).trans_eq (opens whole).symm)
    · rw [opens, closes]
      exact closed
  · rintro ⟨⟨opened, closed⟩, -⟩
    rw [opens, closes] at closed
    refine ⟨fun front before => ?_, closed⟩
    have upTo := opened (parentheses front) (before.filter _)
    rwa [opens, closes] at upTo

instance : DecidablePred Balanced := fun _ => decidable_of_iff' _ balanced_iff

variable {depth left : Nat} {cs more : List Char}

/-- What `within?` goes on with after a character that is no parenthesis. -/
theorem within?_append (depth : Nat) (cs more : List Char) :
    within? depth (cs ++ more) = (within? depth cs).bind (within? · more) := by
  fun_induction within? depth cs with
  | case1 => rfl
  | case2 depth rest ih => exact ih
  | case3 => rfl
  | case4 depth rest ih => exact ih
  | case5 => rfl
  | case6 depth c rest opens shut closes parts ih =>
    rw [List.cons_append, within?_cons opens (ne_close shut closes) fun same outside => parts outside same, ih]

/-- A text without parentheses and commas opens and closes nothing. -/
theorem within?_of_unmarked (depth : Nat) (unmarked : ∀ c ∈ cs, c ≠ '(' ∧ c ≠ ')' ∧ c ≠ ',') :
    within? depth cs = some depth := by
  induction cs with
  | nil => rfl
  | cons c rest ih =>
    obtain ⟨opens, closes, parts⟩ := unmarked c (.head _)
    rw [within?_cons opens closes fun same => absurd same parts]
    exact ih fun c member => unmarked c (.tail _ member)

/-- Plain text leaves as many parentheses open as were open in front of it. -/
theorem within?_of_plain (depth : Nat) (plain : Plain cs) : within? depth cs = some depth :=
  within?_of_unmarked depth fun c member =>
    ⟨ne_of_isPlain (plain c member) rfl, ne_of_isPlain (plain c member) rfl, ne_of_isPlain (plain c member) rfl⟩

/-- Blanks leave as many parentheses open as were open in front of them. -/
theorem within?_of_blank (depth : Nat) (blank : ∀ c ∈ cs, isBlank c = true) : within? depth cs = some depth :=
  within?_of_unmarked depth fun c member =>
    ⟨ne_of_isBlank (blank c member) rfl, ne_of_isBlank (blank c member) rfl, ne_of_isBlank (blank c member) rfl⟩

/-- Inside of parentheses a text is read as outside of them. -/
theorem within?_succ (found : within? depth cs = some left) :
    within? (depth + 1) cs = some (left + 1) := by
  fun_induction within? depth cs with
  | case1 => rw [within?, Option.some.inj found]
  | case2 depth rest ih => exact ih found
  | case3 => cases found
  | case4 depth rest ih => exact ih found
  | case5 => cases found
  | case6 depth c rest opens shut closes parts ih =>
    rw [within?_cons opens (ne_close shut closes) fun _ => Nat.succ_ne_zero depth]
    exact ih found

/-- Entries between parentheses, joined by commas, leave open what is open. -/
theorem within?_join {entries : List (List Char)} (single : ∀ entry ∈ entries, within? 0 entry = some 0) :
    within? 1 (join [',', ' '] entries) = some 1 := by
  induction entries with
  | nil => rfl
  | cons entry rest ih =>
    have first : within? 1 entry = some 1 := within?_succ (single entry (.head _))
    cases rest with
    | nil => exact first
    | cons second others =>
      have later := ih fun entry member => single entry (.tail _ member)
      show within? 1 (entry ++ [',', ' '] ++ join [',', ' '] (second :: others)) = some 1
      rw [within?_append, within?_append, first]
      exact later

/-- What is put in parentheses is read as one. -/
theorem within?_enclosed (inner : within? (depth + 1) cs = some (depth + 1)) :
    within? depth ('(' :: cs ++ [')']) = some depth := by
  rw [List.cons_append, within?, within?_append, inner]
  rfl

/-- Up to the end of an entry, a text has no comma that parts it. -/
theorem pieces?_append (found : within? depth cs = some left) (more : List Char) :
    pieces? depth (cs ++ more) = (pieces? left more).map (cs.foldr pieces?.push) := by
  fun_induction within? depth cs with
  | case1 depth =>
    rw [Option.some.inj found]
    exact Option.map_id'.symm
  | case2 depth rest ih =>
    rw [List.cons_append, pieces?, ih found, Option.map_map]
    rfl
  | case3 => cases found
  | case4 depth rest ih =>
    rw [List.cons_append, pieces?, ih found, Option.map_map]
    rfl
  | case5 => cases found
  | case6 depth c rest opens shut closes parts ih =>
    rw [List.cons_append, pieces?, ih found, Option.map_map]
    · rfl
    all_goals assumption

/-- Characters that are put in front of pieces belong to the first one. -/
theorem foldr_push (cs piece : List Char) (rest : List (List Char)) :
    cs.foldr pieces?.push (piece :: rest) = (cs ++ piece) :: rest := by
  induction cs with
  | nil => rfl
  | cons c others ih =>
    rw [List.foldr_cons, ih]
    rfl

/-- Joined entries are parted at the commas between them. -/
theorem pieces?_join {first : List Char} {entries : List (List Char)}
    (single : ∀ entry ∈ first :: entries, within? 0 entry = some 0) :
    pieces? 0 (join [','] (first :: entries)) = some (first :: entries) := by
  have whole : within? 0 first = some 0 := single first (.head _)
  induction entries generalizing first with
  | nil =>
    have alone := pieces?_append whole []
    rw [List.append_nil, pieces?, Option.map_some, foldr_push, List.append_nil] at alone
    exact alone
  | cons second others ih =>
    have later := ih (fun entry member => single entry (.tail _ member)) (single second (.tail _ (.head _)))
    rw [join_cons (List.cons_ne_nil _ _), List.append_assoc, List.singleton_append, pieces?_append whole,
      pieces?, later, Option.map_some, Option.map_some, foldr_push, List.append_nil]

/-- The pieces of a text are its entries, once they are trimmed, unless there is nothing but blanks. -/
theorem ofChars?_of_pieces {pieces : List (List Char)} (parted : pieces? 0 cs = some pieces)
    (filled : pieces.map trim ≠ [[]]) : ofChars? cs = some (pieces.map trim) := by
  rw [ofChars?, parted, Option.map_some]
  split
  · contradiction
  · rfl

/-- Entries that were joined by commas are found again, trimmed; behind a comma at the end there is an
empty one. -/
theorem ofChars?_join {entries : List (List Char)} (present : entries ≠ [])
    (single : ∀ entry ∈ entries, within? 0 entry = some 0) (filled : ∀ entry ∈ entries, trim entry ≠ []) :
    ofChars? (join [',', ' '] entries) = some (entries.map trim) ∧
      ofChars? (join [',', ' '] entries ++ [',']) = some (entries.map trim ++ [[]]) := by
  cases entries with
  | nil => exact absurd rfl present
  | cons first others =>
    have found (more : List (List Char)) (plus : ∀ entry ∈ more, within? 0 entry = some 0) :
        ofChars? (join [','] (first :: (others.map (' ' :: ·) ++ more))) =
          some ((first :: others).map trim ++ more.map trim) := by
      have blanked : ∀ entry ∈ others.map (' ' :: ·), within? 0 entry = some 0 :=
        List.forall_mem_map.2 fun entry member => single entry (.tail _ member)
      have whole : ∀ entry ∈ first :: (others.map (' ' :: ·) ++ more), within? 0 entry = some 0 :=
        List.forall_mem_cons.2 ⟨single first (.head _), List.forall_mem_append.2 ⟨blanked, plus⟩⟩
      have trimmed : (first :: (others.map (' ' :: ·) ++ more)).map trim =
          (first :: others).map trim ++ more.map trim := by
        rw [List.map_cons, List.map_append, List.map_map, List.map_cons, List.cons_append]
        exact congrArg (_ :: · ++ _) (List.map_congr_left fun entry _ => trim_cons rfl entry)
      rw [ofChars?_of_pieces (pieces?_join whole) (by simp [filled first (.head _)]), trimmed]
    -- The blank behind a comma belongs to the entry that follows.
    rw [show [',', ' '] = [','] ++ [' '] from rfl, join_append]
    constructor
    · simpa using found [] (List.forall_mem_nil _)
    · have ended := found [[]] (List.forall_mem_singleton.2 rfl)
      rw [← List.cons_append, join_concat (List.cons_ne_nil _ _), List.append_nil] at ended
      exact ended

end KeyEngine.Entries
