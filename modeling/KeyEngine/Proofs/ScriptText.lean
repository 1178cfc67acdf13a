import Mathlib.Data.List.Chain
import Mathlib.Data.List.Forall2
import KeyEngine.Script
import KeyEngine.Proofs.Spelling

/-!
# Scripts are read line by line

A script is read exactly: every line that is not blank without its comment is one entry, in order, and the times
never decrease. `readLines_eq_ok_iff` says so for what is read, and `readLines_eq_error` says of what is not read
that the first line at fault is named, whatever comes behind it. `Listing` describes the texts in which entries
are written out, with blank lines and comments anywhere, and `reads_chars` says that a written entry is read as
itself; so a listing is read as what was written.
-/

namespace KeyEngine

namespace Text

variable {cs : List Char}

/-- The pieces of a text, joined again, are the text. -/
theorem join_splitAll (separator : Char) (cs : List Char) :
    join [separator] (splitAll (· == separator) cs) = cs := by
  induction cs with
  | nil => rfl
  | cons c rest ih =>
    rw [splitAll]
    cases pieces : splitAll (· == separator) rest with
    | nil => exact absurd pieces (splitAll_ne_nil _ _)
    | cons piece others =>
      rw [pieces] at ih
      dsimp only
      split
      · rename_i same
        rw [join_cons (List.cons_ne_nil _ _), ih, eq_of_beq same]
        rfl
      · cases others with
        | nil => exact congrArg (c :: ·) ih
        | cons second others => exact congrArg (c :: ·) ih

/-- No piece has a separator in it. -/
theorem whole_splitAll (p : Char → Bool) (cs : List Char) :
    ∀ piece ∈ splitAll p cs, ∀ c ∈ piece, p c = false := by
  induction cs with
  | nil => simp [splitAll]
  | cons c rest ih =>
    rw [splitAll]
    cases pieces : splitAll p rest with
    | nil => simp
    | cons piece others =>
      rw [pieces] at ih
      cases parts : p c with
      | true => simpa using ih
      | false => simpa [parts] using ih

/-- The words of a text in which words are joined by one blank. -/
theorem words_join {words : List (List Char)} (some : words ≠ [])
    (whole : ∀ word ∈ words, word ≠ [] ∧ ∀ c ∈ word, isBlank c = false) :
    Text.words (join [' '] words) = words := by
  rw [Text.words, splitAll_join (by decide) some fun word member => (whole word member).2]
  exact List.filter_eq_self.2 fun word member => by simpa using (whole word member).1

/-- The lines of a text are its pieces between line feeds, without carriage returns, and without an empty piece
at the end. -/
theorem lines_of_splitAll {pieces : List (List Char)} {last : List Char}
    (split : splitAll (· == '\n') cs = pieces ++ [last]) :
    lines cs = pieces.map dropReturn ++ if last = [] then [] else [last] := by
  rw [lines, split]
  simp only [List.dropLast_concat, List.getLast?_concat]
  cases last with
  | nil => simp
  | cons c rest => simp

/-- The first lines of a text make up a text that it begins with, if there is a line behind them. -/
theorem exists_prefix_of_lines {k : Nat} (within : k < (lines cs).length) :
    ∃ front, front <+: cs ∧ lines front = (lines cs).take k := by
  obtain ⟨pieces, last, split⟩ : ∃ pieces last, splitAll (· == '\n') cs = pieces ++ [last] :=
    ⟨_, _, (List.dropLast_append_getLast (splitAll_ne_nil _ cs)).symm⟩
  have few : k ≤ pieces.length := by
    rw [lines_of_splitAll split, List.length_append, List.length_map] at within
    split at within <;> simp at within <;> omega
  -- The text that ends with the line feed of the last of them; it is split behind that line feed.
  have begins (front back : List (List Char)) (more : back ≠ []) :
      join ['\n'] (front ++ [[]]) <+: join ['\n'] (front ++ back) := by
    induction front with
    | nil => exact List.nil_prefix
    | cons piece rest ih =>
      rw [List.cons_append, List.cons_append, join_cons (by simp), join_cons (by simp [more])]
      exact (List.prefix_append_right_inj _).2 ih
  refine ⟨join ['\n'] (pieces.take k ++ [[]]), ?_, ?_⟩
  · have same := join_splitAll '\n' cs
    rw [split, ← List.take_append_drop k pieces, List.append_assoc] at same
    rw [← same]
    exact begins _ _ (by simp)
  · have whole : ∀ piece ∈ pieces.take k ++ [[]], ∀ c ∈ piece, (c == '\n') = false := by
      intro piece member
      rcases List.mem_append.1 member with early | empty
      · refine whole_splitAll (· == '\n') cs piece ?_
        rw [split]
        exact List.mem_append_left _ (List.mem_of_mem_take early)
      · rw [List.mem_singleton.1 empty]
        exact List.forall_mem_nil _
    rw [lines_of_splitAll (splitAll_join (by decide) (by simp) whole), lines_of_splitAll split,
      List.take_append_of_le_length (by simpa using few), List.map_take]
    simp

end Text

namespace Command

/-- The words of a command. -/
def words : Command → List (List Char)
  | down key => ["down".toList, 'k' :: Decimal.write key.number.toNat]
  | up key => ["up".toList, 'k' :: Decimal.write key.number.toNat]
  | tick => ["tick".toList]
  | cancel => ["cancel".toList]
  | quit => ["quit".toList]

/-- The written form of a command. -/
def chars (command : Command) : List Char := Text.join [' '] command.words

end Command

/-- The written form of an entry: its time and its command. -/
def ScriptLine.chars (line : ScriptLine) : List Char :=
  Decimal.write line.time.count ++ ' ' :: line.command.chars

/-- The line that an error is about. -/
def ScriptError.line : ScriptError → Nat
  | syntaxError line _ => line
  | backwards line _ _ => line

/-- A key is read back from its number behind a letter. -/
theorem Key.ofChars?_write (key : Key) : ofChars? ('k' :: Decimal.write key.number.toNat) = some key := by
  have read : Decimal.read? 65535 (Decimal.write key.number.toNat) = some key.number.toNat :=
    Decimal.read?_write (Nat.le_of_lt_succ key.number.toNat_lt)
  show (Decimal.read? 65535 (Decimal.write key.number.toNat)).map _ = _
  rw [read, Option.map_some, UInt16.ofNat_toNat]

namespace Command

/-- The words of a command are plain and not empty. -/
theorem plain_words (command : Command) : ∀ word ∈ command.words, word ≠ [] ∧ Text.Plain word := by
  have key (number : Nat) : Text.Plain ('k' :: Decimal.write number) := by
    have letter : Text.Plain ['k'] := by decide
    exact letter.append (Decimal.plain_write number)
  cases command with
  | down pressed => simpa [words, key] using (by decide : Text.Plain "down".toList)
  | up pressed => simpa [words, key] using (by decide : Text.Plain "up".toList)
  | tick => simp only [words, List.forall_mem_singleton]; decide
  | cancel => simp only [words, List.forall_mem_singleton]; decide
  | quit => simp only [words, List.forall_mem_singleton]; decide

/-- Every command has a word. -/
theorem words_ne_nil (command : Command) : command.words ≠ [] := by cases command <;> simp [words]

/-- A written command is read as itself. -/
theorem ofChars_chars (command : Command) : ofChars command.chars = .ok command := by
  have whole : ∀ word ∈ command.words, word ≠ [] ∧ ∀ c ∈ word, Text.isBlank c = false := fun word member =>
    have plain := command.plain_words word member
    ⟨plain.1, fun c inside => Text.isBlank_of_isPlain (plain.2 c inside)⟩
  rw [ofChars, chars, Text.words_join command.words_ne_nil whole]
  cases command with
  | down key =>
    have verb : Verb.ofWord? (Text.lower "down".toList) = some (.event true) := by decide
    simp only [words, ofWords, verb, key.ofChars?_write]
    rfl
  | up key =>
    have verb : Verb.ofWord? (Text.lower "up".toList) = some (.event false) := by decide
    simp only [words, ofWords, verb, key.ofChars?_write]
    rfl
  | tick => rfl
  | cancel => rfl
  | quit => rfl

end Command

namespace Script

variable {number : Nat} {previous : Millis} {text line : List Char} {lines : List (List Char)}
  {entry : ScriptLine} {script : List ScriptLine} {error : ScriptError}

/-- What the content of a line says: a time, a blank, and a command. -/
def Reads (text : List Char) (entry : ScriptLine) : Prop :=
  ∃ word rest, Text.cut? Text.isBlank text = some (word, rest) ∧ readTime? word = some entry.time ∧
    Command.ofChars rest = .ok entry.command

/-- A line is read as an entry exactly if it says the entry, and that is not too early. -/
theorem readLine_eq_ok_iff :
    readLine number previous text = .ok entry ↔ previous ≤ entry.time ∧ Reads text entry := by
  constructor
  · intro read
    unfold readLine at read
    split at read
    · cases read
    · rename_i word rest cut
      split at read
      · cases read
      · rename_i time timed
        split at read
        · cases read
        · rename_i later
          split at read
          · cases read
          · rename_i command commands
            cases read
            exact ⟨Nat.le_of_not_lt later, word, rest, cut, timed, commands⟩
  · rintro ⟨later, word, rest, cut, timed, commands⟩
    have early : ¬entry.time < previous := Nat.not_lt.2 later
    simp [readLine, cut, timed, early, commands]

/-- A line that cannot be read is named by its own number. -/
theorem line_of_readLine (failed : readLine number previous text = .error error) : error.line = number := by
  unfold readLine at failed
  split at failed
  · cases failed
    rfl
  · split at failed
    · cases failed
      rfl
    · split at failed
      · cases failed
        rfl
      · split at failed
        · cases failed
          rfl
        · cases failed

/-- Whether there is something in a line besides blanks and a comment. -/
def hasEntry (line : List Char) : Bool := !(content line).isEmpty

/-- A line without an entry is passed over, and counts as a line. -/
theorem readLines_of_empty (empty : hasEntry line = false) (number : Nat) (previous : Millis)
    (rest : List (List Char)) :
    readLines number previous (line :: rest) = readLines (number + 1) previous rest := by
  have none : (content line).isEmpty = true := by simpa [hasEntry] using empty
  rw [readLines, if_pos none]

/-- The first line that cannot be read decides, whatever comes behind it. -/
theorem readLines_of_error (filled : hasEntry line = true)
    (failed : readLine number previous (content line) = .error error) (rest : List (List Char)) :
    readLines number previous (line :: rest) = .error error := by
  have some : ¬(content line).isEmpty = true := by simpa [hasEntry] using filled
  simp only [readLines, if_neg some, failed]

/-- Behind an entry the rest is read from its time on, and either both are read or neither is. -/
theorem readLines_of_ok (filled : hasEntry line = true)
    (read : readLine number previous (content line) = .ok entry) (rest : List (List Char)) :
    (∀ script, readLines number previous (line :: rest) = .ok script ↔
      ∃ others, readLines (number + 1) entry.time rest = .ok others ∧ entry :: others = script) ∧
    ∀ error, readLines number previous (line :: rest) = .error error ↔
      readLines (number + 1) entry.time rest = .error error := by
  have some : ¬(content line).isEmpty = true := by simpa [hasEntry] using filled
  simp only [readLines, if_neg some, read]
  cases readLines (number + 1) entry.time rest with
  | error fault => simp [Except.map]
  | ok others => simp [Except.map]

/-- Lines are read as a script exactly if those that say something say its entries, in order, and the times never
decrease. -/
theorem readLines_eq_ok_iff : readLines number previous lines = .ok script ↔
    (previous :: script.map (·.time)).IsChain (· ≤ ·) ∧
      List.Forall₂ (fun line entry => Reads (content line) entry) (lines.filter hasEntry) script := by
  induction lines generalizing number previous script with
  | nil =>
    constructor
    · intro read
      cases read
      exact ⟨.singleton previous, .nil⟩
    · rintro ⟨-, entries⟩
      cases entries
      rfl
  | cons line rest ih =>
    cases filled : hasEntry line with
    | false => rw [readLines_of_empty filled, ih, List.filter_cons_of_neg (Bool.eq_false_iff.1 filled)]
    | true =>
      rw [List.filter_cons_of_pos filled]
      constructor
      · intro read
        cases known : readLine number previous (content line) with
        | error fault => cases (readLines_of_error filled known rest).symm.trans read
        | ok first =>
          obtain ⟨others, behind, rfl⟩ := ((readLines_of_ok filled known rest).1 _).1 read
          obtain ⟨later, reads⟩ := readLine_eq_ok_iff.1 known
          obtain ⟨times, all⟩ := ih.1 behind
          exact ⟨times.cons_cons later, .cons reads all⟩
      · rintro ⟨times, entries⟩
        cases entries with
        | @cons _ first _ others reads all =>
          obtain ⟨later, times⟩ := List.isChain_cons_cons.1 times
          have known : readLine number previous (content line) = .ok first :=
            readLine_eq_ok_iff.2 ⟨later, reads⟩
          exact ((readLines_of_ok filled known rest).1 _).2 ⟨others, ih.2 ⟨times, all⟩, rfl⟩

/-- The lines of a script are in the order of their times. -/
theorem inOrder_readLines (read : readLines number previous lines = .ok script) :
    (previous :: script.map (·.time)).IsChain (· ≤ ·) := (readLines_eq_ok_iff.1 read).1

/-- Lines that are not read have a first one at fault: those in front of it are read, and whatever comes behind it,
the error is the same. -/
theorem readLines_eq_error (failed : readLines number previous lines = .error error) :
    ∃ k < lines.length, error.line = number + k ∧
      (∃ earlier, readLines number previous (lines.take k) = .ok earlier) ∧
      ∀ others, others.take (k + 1) = lines.take (k + 1) → readLines number previous others = .error error := by
  induction lines generalizing number previous with
  | nil => cases failed
  | cons line rest ih =>
    -- Lines that agree with these on more than the first start with it.
    have starts {k : Nat} {others : List (List Char)}
        (same : others.take (k + 1) = (line :: rest).take (k + 1)) :
        ∃ more, others = line :: more ∧ more.take k = rest.take k := by
      cases others with
      | nil => cases same
      | cons other more =>
        rw [List.take_succ_cons, List.take_succ_cons, List.cons.injEq] at same
        obtain ⟨rfl, agree⟩ := same
        exact ⟨more, rfl, agree⟩
    cases filled : hasEntry line with
    | false =>
      rw [readLines_of_empty filled] at failed
      obtain ⟨k, within, named, ⟨earlier, read⟩, decides⟩ := ih failed
      refine ⟨k + 1, Nat.succ_lt_succ within, by omega, ⟨earlier, ?_⟩, fun others same => ?_⟩
      · rw [List.take_succ_cons, readLines_of_empty filled, read]
      · obtain ⟨more, rfl, agree⟩ := starts same
        rw [readLines_of_empty filled, decides more agree]
    | true =>
      cases known : readLine number previous (content line) with
      | error fault =>
        rw [readLines_of_error filled known] at failed
        cases failed
        refine ⟨0, Nat.succ_pos _, line_of_readLine known, ⟨[], rfl⟩, fun others same => ?_⟩
        obtain ⟨more, rfl, -⟩ := starts same
        exact readLines_of_error filled known more
      | ok first =>
        obtain ⟨k, within, named, ⟨earlier, read⟩, decides⟩ :=
          ih (((readLines_of_ok filled known rest).2 _).1 failed)
        refine ⟨k + 1, Nat.succ_lt_succ within, by omega, ⟨first :: earlier, ?_⟩, fun others same => ?_⟩
        · rw [List.take_succ_cons]
          exact ((readLines_of_ok filled known _).1 _).2 ⟨earlier, read, rfl⟩
        · obtain ⟨more, rfl, agree⟩ := starts same
          exact ((readLines_of_ok filled known more).2 _).2 (decides more agree)

/-- A carriage return at the end of a line is a blank, or belongs to the comment. -/
theorem content_dropReturn (line : List Char) : content (Text.dropReturn line) = content line := by
  unfold Text.dropReturn
  split
  · rename_i ends
    obtain ⟨front, rfl⟩ := List.getLast?_eq_some_iff.1 ends
    rw [List.dropLast_concat, content, content, List.takeWhile_append]
    split
    · rename_i whole
      rw [(List.takeWhile_prefix _).eq_of_length whole]
      exact (Text.trim_append_right (by simp [Text.isBlank]) front).symm
    · rfl
  · rfl

/-- The lines of a text say what its pieces between line feeds say. -/
theorem contents_lines (cs : List Char) : ((Text.lines cs).filter hasEntry).map content =
    ((Text.splitAll (· == '\n') cs).filter hasEntry).map content := by
  obtain ⟨pieces, last, split⟩ : ∃ pieces last, Text.splitAll (· == '\n') cs = pieces ++ [last] :=
    ⟨_, _, (List.dropLast_append_getLast (Text.splitAll_ne_nil _ cs)).symm⟩
  have entries : hasEntry ∘ Text.dropReturn = hasEntry := by
    funext line
    rw [Function.comp, hasEntry, content_dropReturn, hasEntry]
  have same : content ∘ Text.dropReturn = content := funext content_dropReturn
  rw [Text.lines_of_splitAll split, split, List.filter_append, List.filter_append, List.map_append,
    List.map_append, List.filter_map, List.map_map, entries, same]
  split
  · rename_i empty
    rw [empty]
    rfl
  · rfl

/-- A written number has no unit to drop. -/
theorem dropUnits_write (n : Nat) : dropUnits (Decimal.write n) = Decimal.write n := by
  have digits : ∀ d < 10, 's' ≠ Nat.digitChar d := by decide
  have stays : dropUnits.go (Decimal.write n).reverse = (Decimal.write n).reverse := by
    unfold dropUnits.go
    split
    · rename_i rest ends
      obtain ⟨d, small, same⟩ := Decimal.mem_write (n := n) (c := 's')
        (List.mem_reverse.1 (ends ▸ List.mem_cons_self))
      exact absurd same (digits d small)
    · rfl
  rw [dropUnits, stays, List.reverse_reverse]

/-- A time is read back from its count. -/
theorem readTime?_write (time : Millis) : readTime? (Decimal.write time.count) = some time := by
  have le : time.count ≤ Millis.last.count := Nat.le_of_lt_succ time.fits
  rw [readTime?, dropUnits_write, Decimal.read?_write le, Option.bind_some, Millis.ofNat?, dif_pos time.fits]

/-- What is written of an entry says that entry. -/
theorem reads_chars (entry : ScriptLine) : Reads entry.chars entry := by
  have digits : ∀ c ∈ Decimal.write entry.time.count, Text.isBlank c = false := fun c member =>
    Text.isBlank_of_isPlain (Decimal.plain_write _ c member)
  exact ⟨_, _, Text.cut?_append digits rfl _, readTime?_write entry.time, entry.command.ofChars_chars⟩

/-- A comment, or nothing. -/
def IsComment (cs : List Char) : Prop := ∀ c ∈ cs.head?, c = '#'

/-- The lines in which a script is listed: one for each entry, in order, with blanks and a comment around what is
written of it, and lines with nothing but blanks and a comment anywhere between them. -/
inductive Listing : List ScriptLine → List (List Char) → Prop where
  /-- No line. -/
  | nil : Listing [] []
  /-- A line without an entry. -/
  | skip {script : List ScriptLine} {lines : List (List Char)} (blanks comment : List Char)
      (blank : ∀ c ∈ blanks, Text.isBlank c = true) (ends : IsComment comment) (rest : Listing script lines) :
      Listing script ((blanks ++ comment) :: lines)
  /-- A line with an entry. -/
  | entry {script : List ScriptLine} {lines : List (List Char)} (line : ScriptLine)
      (lead trail comment : List Char) (before : ∀ c ∈ lead, Text.isBlank c = true)
      (after : ∀ c ∈ trail, Text.isBlank c = true) (ends : IsComment comment) (rest : Listing script lines) :
      Listing (line :: script) ((lead ++ line.chars ++ trail ++ comment) :: lines)

/-- The comment of a line is not part of what it says. -/
theorem content_append {cs comment : List Char} (free : '#' ∉ cs) (ends : IsComment comment) :
    content (cs ++ comment) = Text.trim cs := by
  have stops : comment.takeWhile (· != '#') = [] := by
    cases comment with
    | nil => rfl
    | cons c rest =>
      have starts : c = '#' := ends c rfl
      simp [starts]
  rw [content, List.takeWhile_append_of_pos fun c member => by simpa using ne_of_mem_of_not_mem member free,
    stops, List.append_nil]

/-- No comment starts among blanks. -/
theorem not_mem_of_blank {blanks : List Char} (blank : ∀ c ∈ blanks, Text.isBlank c = true) : '#' ∉ blanks :=
  fun member => Bool.noConfusion ((blank _ member).symm.trans (by decide : Text.isBlank '#' = false))

/-- No comment starts in a written number. -/
theorem not_mem_write (n : Nat) : '#' ∉ Decimal.write n := by
  have digits : ∀ d < 10, '#' ≠ Nat.digitChar d := by decide
  intro member
  obtain ⟨d, small, same⟩ := Decimal.mem_write member
  exact digits d small same

/-- What is written of a command starts and ends without a blank, and is no comment. -/
theorem bare_command (command : Command) :
    command.chars ≠ [] ∧ Text.Tight command.chars ∧ '#' ∉ command.chars := by
  have event (verb : List Char) (filled : verb ≠ []) (tight : Text.Tight verb) (free : '#' ∉ verb) (number : Nat) :
      Text.join [' '] [verb, 'k' :: Decimal.write number] ≠ [] ∧
        Text.Tight (Text.join [' '] [verb, 'k' :: Decimal.write number]) ∧
        '#' ∉ Text.join [' '] [verb, 'k' :: Decimal.write number] := by
    have letter : Text.Plain ['k'] := by decide
    have key : Text.Tight ('k' :: Decimal.write number) := (letter.append (Decimal.plain_write number)).tight
    rw [Text.join_cons (List.cons_ne_nil _ _)]
    exact ⟨by simp [filled], tight.append key filled (List.cons_ne_nil _ _) [' '],
      by simp [Text.join, free, not_mem_write]⟩
  cases command with
  | down key => exact event "down".toList (by decide) (by decide : Text.Plain _).tight (by decide) _
  | up key => exact event "up".toList (by decide) (by decide : Text.Plain _).tight (by decide) _
  | tick => exact ⟨by decide, (by decide : Text.Plain "tick".toList).tight, by decide⟩
  | cancel => exact ⟨by decide, (by decide : Text.Plain "cancel".toList).tight, by decide⟩
  | quit => exact ⟨by decide, (by decide : Text.Plain "quit".toList).tight, by decide⟩

/-- The content of a line is the entry that is written in it, without blanks and comment. -/
theorem content_entry (entry : ScriptLine) {lead trail comment : List Char}
    (before : ∀ c ∈ lead, Text.isBlank c = true) (after : ∀ c ∈ trail, Text.isBlank c = true)
    (ends : IsComment comment) : content (lead ++ entry.chars ++ trail ++ comment) = entry.chars := by
  obtain ⟨filled, tight, free⟩ := bare_command entry.command
  have whole : Text.Tight entry.chars := by
    have time : Decimal.write entry.time.count ≠ [] := Nat.toDigits_ne_nil
    have both := (Decimal.plain_write entry.time.count).tight.append tight time filled [' ']
    rwa [List.append_assoc] at both
  have clean : '#' ∉ lead ++ entry.chars ++ trail := by
    simp [ScriptLine.chars, not_mem_of_blank before, not_mem_of_blank after, not_mem_write, free]
  rw [content_append clean ends, Text.trim_append_right after, Text.trim_append_left before,
    Text.trim_of_tight whole]

/-- The lines of a listing that say something say its entries. -/
theorem Listing.reads (listing : Listing script lines) :
    List.Forall₂ (fun line entry => Reads (content line) entry) (lines.filter hasEntry) script := by
  induction listing with
  | nil => exact .nil
  | skip blanks comment blank ends _ ih =>
    rw [List.filter_cons_of_neg]
    · exact ih
    · simp [hasEntry, content_append (not_mem_of_blank blank) ends, Text.trim_of_blank blank]
  | entry line lead trail comment before after ends _ ih =>
    have same := content_entry line before after ends
    have filled : hasEntry (lead ++ line.chars ++ trail ++ comment) = true := by
      rw [hasEntry, same]
      simp [ScriptLine.chars]
    rw [List.filter_cons_of_pos filled]
    refine .cons ?_ ih
    rw [same]
    exact reads_chars line

/-- A listing is read as what is listed. -/
theorem Listing.ofChars_join (listing : Listing script lines) (whole : ∀ line ∈ lines, '\n' ∉ line)
    (times : (script.map (·.time)).IsChain (· ≤ ·)) : ofChars (Text.join ['\n'] lines) = .ok script := by
  have starts : (Millis.zero :: script.map (·.time)).IsChain (· ≤ ·) :=
    times.cons fun _ _ => Nat.zero_le _
  refine readLines_eq_ok_iff.2 ⟨starts, ?_⟩
  rw [← List.forall₂_map_left_iff (f := content) (R := Reads), contents_lines, List.forall₂_map_left_iff]
  cases lines with
  | nil =>
    cases listing
    exact .nil
  | cons line rest =>
    rw [Text.splitAll_join (by decide) (List.cons_ne_nil _ _) fun piece member c inside => by
      simpa using ne_of_mem_of_not_mem inside (whole piece member)]
    exact listing.reads

/-- Scripts are read exactly. A text is read as a script if and only if the times of the script never decrease and
its entries are said, one by one and in order, by the lines that are not blank without their comment. If a text is
not read, the error bears the number of a line, counted from one: the text in front of that line is read, and every
text with the same lines up to it has the same error. And whatever is listed, in the order of its times, with
comments and blank lines anywhere, is read as just that. -/
theorem read_exactly :
    (∀ cs script, ofChars cs = .ok script ↔
      (script.map (·.time)).IsChain (· ≤ ·) ∧
        List.Forall₂ (fun line entry => Reads (content line) entry)
          ((Text.lines cs).filter fun line => !(content line).isEmpty) script) ∧
    (∀ cs error, ofChars cs = .error error →
      ∃ k < (Text.lines cs).length, error.line = k + 1 ∧
        (∃ front earlier, front <+: cs ∧ Text.lines front = (Text.lines cs).take k ∧
          ofChars front = .ok earlier) ∧
        ∀ other, (Text.lines other).take (k + 1) = (Text.lines cs).take (k + 1) →
          ofChars other = .error error) ∧
    ∀ script lines, Listing script lines → (∀ line ∈ lines, '\n' ∉ line) →
      (script.map (·.time)).IsChain (· ≤ ·) → ofChars (Text.join ['\n'] lines) = .ok script := by
  refine ⟨fun cs script => ?_, fun cs error failed => ?_, fun _ _ listing => listing.ofChars_join⟩
  · refine readLines_eq_ok_iff.trans (and_congr_left fun _ => ⟨List.IsChain.tail, fun times => ?_⟩)
    exact times.cons fun _ _ => Nat.zero_le _
  · obtain ⟨k, within, named, ⟨earlier, read⟩, decides⟩ := readLines_eq_error failed
    obtain ⟨front, begins, same⟩ := Text.exists_prefix_of_lines within
    refine ⟨k, within, by omega, ⟨front, earlier, begins, same, ?_⟩, fun other agree => decides _ agree⟩
    rw [ofChars, same, read]

/-- A comment, an entry with blanks and a comment around it, an empty line, and another entry. -/
theorem read_exactly_two :
    ofChars (Text.join ['\n'] [['#', '1'], [' ', '1', '0', ' ', 'u', 'p', ' ', 'k', '7', '\t', '#'], [],
      ['2', '5', ' ', 't', 'i', 'c', 'k'], []]) =
        .ok [⟨.ofWord 10, .up ⟨7⟩⟩, ⟨.ofWord 25, .tick⟩] := by
  have up : ScriptLine.chars ⟨.ofWord 10, .up ⟨7⟩⟩ = ['1', '0', ' ', 'u', 'p', ' ', 'k', '7'] := by decide
  have tick : ScriptLine.chars ⟨.ofWord 25, .tick⟩ = ['2', '5', ' ', 't', 'i', 'c', 'k'] := by decide
  have said (rest : List Char) : IsComment ('#' :: rest) := fun c first => (Option.some.inj first).symm
  have last : Listing [⟨.ofWord 25, .tick⟩] [['2', '5', ' ', 't', 'i', 'c', 'k'], []] :=
    tick ▸ .entry ⟨.ofWord 25, .tick⟩ [] [] [] nofun nofun nofun (.skip [] [] nofun nofun .nil)
  have first := Listing.entry ⟨.ofWord 10, .up ⟨7⟩⟩ [' '] ['\t'] ['#'] (by simp [Text.isBlank])
    (by simp [Text.isBlank]) (said []) (.skip [] [] nofun nofun last)
  rw [up] at first
  exact read_exactly.2.2 _ _ (.skip [] ['#', '1'] nofun (said ['1']) first) (by decide) (by decide)

end Script

end KeyEngine
