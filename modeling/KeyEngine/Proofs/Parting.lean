import Mathlib.Data.List.Basic
import KeyEngine.Action.Parser
import KeyEngine.Proofs.Nesting

/-!
# Lists are parted at the commas outside of all parentheses

A list of entries has entries exactly if its parentheses pair up, and then it is parted at those commas in front
of which as many parentheses are closed as opened: `partings` are their places, and `between` the texts between
them. The reader knows neither of these. It puts one character after the other in front of the first piece of
what follows, and `pieces?_eq_some_iff` says what comes of it: pieces are found if and only if the text is those
pieces, joined by commas, and each of them is one entry. Since an entry is parted nowhere, the places follow
piece by piece (`partings_append`).
-/

namespace KeyEngine.Entries

open Text

/-- Whether a comma stands at a place, and in front of it as many parentheses are closed as opened. -/
def Parts (cs : List Char) (place : Nat) : Prop :=
  cs[place]? = some ',' ∧ (cs.take place).count '(' = (cs.take place).count ')'

instance (cs : List Char) : DecidablePred (Parts cs) := fun _ => inferInstanceAs (Decidable (_ ∧ _))

/-- The places of the commas that stand outside of all parentheses. -/
def partings (cs : List Char) : List Nat := (List.range cs.length).filter (Parts cs ·)

/-- The texts from the start to the first of these commas, from behind each of them to the next, and from
behind the last one to the end. -/
def between (cs : List Char) : List (List Char) :=
  List.zipWith (cs.extract · ·) (0 :: (partings cs).map (· + 1)) (partings cs ++ [cs.length])

section
variable {depth : Nat} {cs front back : List Char} {pieces : List (List Char)}

/-! ### Which texts have pieces -/

/-- A text has pieces if and only if its parentheses close what is open in front of it and nothing else. -/
theorem isSome_pieces? (depth : Nat) (cs : List Char) :
    (pieces? depth cs).isSome = true ↔ within? depth (parentheses cs) = some 0 := by
  fun_induction pieces? depth cs with
  | case1 => simp [parentheses, within?]
  | case2 less => simp [parentheses, within?]
  | case3 depth rest ih => simpa [parentheses, within?] using ih
  | case4 => simp [parentheses, within?]
  | case5 less rest ih => simpa [parentheses, within?] using ih
  | case6 rest ih => simpa [parentheses] using ih
  | case7 depth c rest opens shut closes parts ih =>
    have opens : c ≠ '(' := opens
    have closes : c ≠ ')' := ne_close shut closes
    rw [Option.isSome_map, ih, parentheses, parentheses, List.filter_cons_of_neg (by simp [opens, closes])]

/-- A text has pieces if and only if its parentheses pair up. -/
theorem isSome_pieces?_iff : (pieces? 0 cs).isSome = true ↔ Balanced cs :=
  (isSome_pieces? 0 cs).trans balanced_iff.symm

/-! ### Which pieces they are -/

/-- A text comes apart into pieces: joined by commas, they are the text; the first one closes what is open in
front of it, and each of the others is one entry. -/
structure Parted (depth : Nat) (cs first : List Char) (rest : List (List Char)) : Prop where
  /-- The first piece leaves nothing open. -/
  closes : within? depth first = some 0
  /-- The other pieces are entries. -/
  single : ∀ piece ∈ rest, within? 0 piece = some 0
  /-- Nothing is lost but the commas between the pieces. -/
  joined : join [','] (first :: rest) = cs

/-- A character that does not part the text belongs to the first piece. -/
theorem Parted.push {next : Nat} {first : List Char} {rest : List (List Char)}
    (parted : Parted next cs first rest) {c : Char} (goes : ∀ cs, within? depth (c :: cs) = within? next cs) :
    Parted depth (c :: cs) (c :: first) rest where
  closes := (goes first).trans parted.closes
  single := parted.single
  joined := (join_front [','] [c] first rest).trans (congrArg (c :: ·) parted.joined)

/-- A text comes apart into the pieces that are found in it. -/
theorem parted_of_pieces? (found : pieces? depth cs = some pieces) :
    ∃ first rest, pieces = first :: rest ∧ Parted depth cs first rest := by
  fun_induction pieces? depth cs generalizing pieces with
  | case1 =>
    cases found
    exact ⟨[], [], rfl, rfl, List.forall_mem_nil _, rfl⟩
  | case2 => cases found
  | case3 depth rest ih =>
    obtain ⟨_, later, rfl⟩ := Option.map_eq_some_iff.1 found
    obtain ⟨first, others, rfl, parted⟩ := ih later
    exact ⟨_, others, rfl, parted.push fun _ => rfl⟩
  | case4 => cases found
  | case5 less rest ih =>
    obtain ⟨_, later, rfl⟩ := Option.map_eq_some_iff.1 found
    obtain ⟨first, others, rfl, parted⟩ := ih later
    exact ⟨_, others, rfl, parted.push fun _ => rfl⟩
  | case6 rest ih =>
    obtain ⟨_, later, rfl⟩ := Option.map_eq_some_iff.1 found
    obtain ⟨first, others, rfl, parted⟩ := ih later
    exact ⟨[], first :: others, rfl, rfl, List.forall_mem_cons.2 ⟨parted.closes, parted.single⟩,
      congrArg (',' :: ·) parted.joined⟩
  | case7 depth c rest opens shut closes parts ih =>
    obtain ⟨_, later, rfl⟩ := Option.map_eq_some_iff.1 found
    obtain ⟨first, others, rfl, parted⟩ := ih later
    have goes := within?_cons opens (ne_close shut closes) fun same outside => parts outside same
    exact ⟨_, others, rfl, parted.push goes⟩

/-- Pieces are found in a text if and only if it is those pieces, joined by commas, and each of them is one
entry. -/
theorem pieces?_eq_some_iff : pieces? 0 cs = some pieces ↔
    pieces ≠ [] ∧ (∀ piece ∈ pieces, Single piece) ∧ join [','] pieces = cs := by
  constructor
  · intro found
    obtain ⟨first, rest, rfl, parted⟩ := parted_of_pieces? found
    refine ⟨List.cons_ne_nil _ _, fun piece member => single_iff.2 ?_, parted.joined⟩
    rcases List.mem_cons.1 member with rfl | later
    · exact parted.closes
    · exact parted.single piece later
  · rintro ⟨some, single, rfl⟩
    obtain ⟨first, rest, rfl⟩ := List.exists_cons_of_ne_nil some
    exact pieces?_join fun piece member => single_iff.1 (single piece member)

/-! ### Where they are parted -/

/-- Behind a text whose parentheses pair up, a text is parted as it is by itself. -/
theorem partings_append (closed : front.count '(' = front.count ')') (back : List Char) :
    partings (front ++ back) = partings front ++ (partings back).map (front.length + ·) := by
  have before : ∀ place ∈ List.range front.length, Parts (front ++ back) place ↔ Parts front place := by
    intro place within
    have within : place < front.length := List.mem_range.1 within
    rw [Parts, Parts, List.getElem?_append_left within, List.take_append_of_le_length (Nat.le_of_lt within)]
  have behind (place : Nat) : Parts (front ++ back) (front.length + place) ↔ Parts back place := by
    rw [Parts, Parts, List.getElem?_append_right (Nat.le_add_right _ _), Nat.add_sub_cancel_left,
      List.take_length_add_append, List.count_append, List.count_append, closed, Nat.add_right_inj]
  rw [partings, List.length_append, List.range_add, List.filter_append, List.filter_map]
  refine congrArg₂ (· ++ ·) (List.filter_congr fun place within => ?_)
    (congrArg _ (List.filter_congr fun place _ => ?_))
  · exact decide_eq_decide.2 (before place within)
  · exact decide_eq_decide.2 (behind place)

/-- An entry is parted nowhere. -/
theorem partings_of_single (single : Single cs) : partings cs = [] := by
  refine List.filter_eq_nil_iff.2 fun place within parts => ?_
  obtain ⟨comma, even⟩ := of_decide_eq_true parts
  obtain ⟨inside, comma⟩ := List.getElem?_eq_some_iff.1 comma
  have split : cs = cs.take place ++ ',' :: cs.drop (place + 1) := by
    rw [← comma, List.getElem_cons_drop, List.take_append_drop]
  exact Nat.ne_of_gt (single.inside _ _ split) even

/-- The text in front of the first comma outside of all parentheses is an entry, and the other texts are
those of what follows. -/
theorem between_append (single : Single front) (back : List Char) :
    between (front ++ ',' :: back) = front :: between back := by
  have places : partings (front ++ ',' :: back) =
      front.length :: (partings back).map (front.length + 1 + ·) := by
    have comma : partings ([','] ++ back) = 0 :: (partings back).map (1 + ·) := partings_append rfl back
    rw [partings_append single.closed, partings_of_single single, ← List.singleton_append, comma, List.nil_append,
      List.map_cons, List.map_map]
    simp [Function.comp_def, Nat.add_assoc]
  have starts : (front.length + 1) :: ((partings back).map (front.length + 1 + ·)).map (· + 1) =
      (0 :: (partings back).map (· + 1)).map (front.length + 1 + ·) := by
    simp [Function.comp_def, Nat.add_assoc]
  have stops : (partings back).map (front.length + 1 + ·) ++ [(front ++ ',' :: back).length] =
      (partings back ++ [back.length]).map (front.length + 1 + ·) := by
    have length : (front ++ ',' :: back).length = front.length + 1 + back.length := by simp; omega
    rw [length, List.map_append]
    rfl
  have later (start stop : Nat) : (front ++ ',' :: back).extract (front.length + 1 + start)
      (front.length + 1 + stop) = back.extract start stop := by
    have drop : (front ++ ',' :: back).drop (front.length + 1 + start) = back.drop start := by
      rw [Nat.add_assoc, List.drop_length_add_append, Nat.add_comm 1, List.drop_succ_cons]
    rw [List.extract_eq_take_drop, List.extract_eq_take_drop, drop, Nat.add_sub_add_left]
  rw [between, places, List.map_cons, List.cons_append, List.zipWith_cons_cons, starts, stops, List.zipWith_map]
  simp only [later]
  exact congrArg (· :: between back) (by simp)

/-- The texts between the commas outside of all parentheses are the pieces that were joined. -/
theorem between_join {first : List Char} {rest : List (List Char)}
    (single : ∀ piece ∈ first :: rest, Single piece) : between (join [','] (first :: rest)) = first :: rest := by
  have whole : Single first := single first (.head _)
  induction rest generalizing first with
  | nil => simp [join, between, partings_of_single whole]
  | cons second others ih =>
    have others := ih (fun piece member => single piece (.tail _ member)) (single second (.tail _ (.head _)))
    rw [join_cons (List.cons_ne_nil _ _), List.append_assoc, List.singleton_append, between_append whole, others]

/-- There is one text more than there are such commas. -/
theorem length_between (cs : List Char) : (between cs).length = (partings cs).length + 1 := by
  simp [between]

/-! ### The entries -/

/-- Blanks around an entry are not part of it. -/
theorem single_trim (single : Single cs) : Single (trim cs) := by
  obtain ⟨front, back, same, before, behind⟩ := exists_trim cs
  have found : within? 0 cs = some 0 := single_iff.1 single
  rw [same, within?_append, within?_of_blank 0 before, Option.bind_some, within?_append] at found
  obtain ⟨left, inner, rest⟩ := Option.bind_eq_some_iff.1 found
  rw [within?_of_blank left behind] at rest
  exact single_iff.2 (inner.trans rest)

/-- A text that is no list of entries is refused as a whole. -/
theorem entries_of_unbalanced (unpaired : ¬Balanced cs) :
    Action.entries cs = .error (.unbalanced (String.ofList cs)) := by
  have none : pieces? 0 cs = none :=
    Option.not_isSome_iff_eq_none.1 fun found => unpaired (isSome_pieces?_iff.1 found)
  rw [Action.entries, ofChars?, none]
  rfl

/-- The entries of a list are the pieces that its text comes apart into. -/
theorem entries_eq_ok_iff {found : List (List Char)} :
    Action.entries cs = .ok found ↔ ofChars? cs = some found := by
  rw [Action.entries]
  cases ofChars? cs with
  | none => simp [Action.required]
  | some entries => simp [Action.required]

/-- A blank text has no entries. -/
theorem ofChars?_of_blank (blank : ∀ c ∈ cs, isBlank c = true) : ofChars? cs = some [] := by
  have single : Single cs := single_iff.2 (within?_of_blank 0 blank)
  have alone : pieces? 0 cs = some [cs] :=
    pieces?_eq_some_iff.2 ⟨List.cons_ne_nil _ _, List.forall_mem_singleton.2 single, rfl⟩
  rw [ofChars?, alone]
  simp [trim_of_blank blank]

/-- A text that is not blank and whose parentheses pair up has entries: the texts between its outer commas,
trimmed. Joined by commas they are found again. -/
theorem ofChars?_of_filled (balanced : Balanced cs) (filled : trim cs ≠ []) :
    ofChars? cs = some ((between cs).map trim) ∧ (∀ entry ∈ (between cs).map trim, Single entry) ∧
      ofChars? (join [','] ((between cs).map trim)) = some ((between cs).map trim) := by
  obtain ⟨pieces, found⟩ := Option.isSome_iff_exists.1 (isSome_pieces?_iff.2 balanced)
  obtain ⟨present, single, rfl⟩ := pieces?_eq_some_iff.1 found
  obtain ⟨first, rest, rfl⟩ := List.exists_cons_of_ne_nil present
  rw [between_join single]
  have kept : (first :: rest).map trim ≠ [[]] := by
    intro blank
    obtain ⟨empty, none⟩ := List.cons.inj blank
    rw [List.map_eq_nil_iff.1 none] at filled
    exact filled empty
  have trimmed : ((first :: rest).map trim).map trim = (first :: rest).map trim := by
    rw [List.map_map]
    exact List.map_congr_left fun piece _ => trim_trim piece
  have whole : ∀ entry ∈ (first :: rest).map trim, Single entry :=
    List.forall_mem_map.2 fun piece member => single_trim (single piece member)
  have again : pieces? 0 (join [','] ((first :: rest).map trim)) = some ((first :: rest).map trim) :=
    pieces?_eq_some_iff.2 ⟨List.cons_ne_nil _ _, whole, rfl⟩
  have found' := ofChars?_of_pieces again
  rw [trimmed] at found'
  exact ⟨ofChars?_of_pieces found kept, whole, found' kept⟩

end

/-- A text is a list of entries if and only if its parentheses pair up: up to each point no more are closed than
were opened, and in the end as many. A blank text then has no entries. Any other text has one more than it has
commas outside of all parentheses: they are the texts between consecutive such commas, trimmed. Each of them
is one entry, and joined by commas they are found again. -/
theorem parted_at_outer_commas (s : String) :
    ((∃ found, Action.entries s.toList = .ok found) ↔ Balanced s.toList) ∧
    (¬Balanced s.toList → Action.entries s.toList = .error (.unbalanced s)) ∧
    ∀ found, Action.entries s.toList = .ok found →
      ((∀ c ∈ s.toList, isBlank c = true) → found = []) ∧
      ((∃ c ∈ s.toList, isBlank c = false) →
        found.length = (partings s.toList).length + 1 ∧ found = (between s.toList).map trim) ∧
      (∀ entry ∈ found, Single entry) ∧
      Action.entries (join [','] found) = .ok found := by
  have pairs {found : List (List Char)} (same : Action.entries s.toList = .ok found) : Balanced s.toList := by
    by_contra unpaired
    rw [entries_of_unbalanced unpaired] at same
    cases same
  refine ⟨⟨?_, ?_⟩, ?_, ?_⟩
  · rintro ⟨found, same⟩
    exact pairs same
  · intro balanced
    by_cases blank : trim s.toList = []
    · exact ⟨_, entries_eq_ok_iff.2 (ofChars?_of_blank (trim_eq_nil_iff.1 blank))⟩
    · exact ⟨_, entries_eq_ok_iff.2 (ofChars?_of_filled balanced blank).1⟩
  · intro unpaired
    rw [entries_of_unbalanced unpaired, String.ofList_toList]
  · intro found same
    have balanced : Balanced s.toList := pairs same
    rw [entries_eq_ok_iff] at same
    by_cases blank : trim s.toList = []
    · have blank := trim_eq_nil_iff.1 blank
      obtain rfl := Option.some.inj ((ofChars?_of_blank blank).symm.trans same)
      refine ⟨fun _ => rfl, ?_, List.forall_mem_nil _, rfl⟩
      rintro ⟨c, member, filled⟩
      rw [blank c member] at filled
      cases filled
    · obtain ⟨parted, single, again⟩ := ofChars?_of_filled balanced blank
      obtain rfl := Option.some.inj (parted.symm.trans same)
      have length : ((between s.toList).map trim).length = (partings s.toList).length + 1 := by
        rw [List.length_map, length_between]
      exact ⟨fun all => absurd (trim_eq_nil_iff.2 all) blank, fun _ => ⟨length, rfl⟩, single,
        entries_eq_ok_iff.2 again⟩

/-- Three commas stand outside of all parentheses, so there are four entries, two of which are empty. With one
parenthesis more there are none. -/
theorem parted_at_outer_commas_nested :
    (partings "A , S(B, (C,D)) ,,".toList).length = 3 ∧
    Action.entries "A , S(B, (C,D)) ,,".toList = .ok ["A".toList, "S(B, (C,D))".toList, [], []] ∧
    Action.entries "A,S(B, (C,D)),,".toList = .ok ["A".toList, "S(B, (C,D))".toList, [], []] ∧
    Action.entries "A , S(B, (C,D))) ,,".toList = .error (.unbalanced "A , S(B, (C,D))) ,,") := by
  obtain ⟨found, -, parts⟩ := parted_at_outer_commas "A , S(B, (C,D)) ,,"
  obtain ⟨found, same⟩ := found.2 (by decide)
  obtain ⟨-, filled, -, again⟩ := parts found same
  obtain ⟨more, texts⟩ := filled ⟨'A', by decide, rfl⟩
  have entries : found = ["A".toList, "S(B, (C,D))".toList, [], []] := texts.trans (by decide +kernel)
  rw [entries] at same more again
  exact ⟨(Nat.succ.inj more).symm, same, again, (parted_at_outer_commas "A , S(B, (C,D))) ,,").2.1 (by decide)⟩

end KeyEngine.Entries
