import KeyEngine.Command

/-!
# Scripts

A script lists commands with their times, one on a line, each no earlier than the one before. A line may
end in a comment, and lines with nothing else are skipped.
-/

namespace KeyEngine

/-- A command with its time. -/
structure ScriptLine where
  /-- The time. -/
  time : Millis
  /-- The command. -/
  command : Command
deriving DecidableEq

/-- What is wrong with the text of a line. -/
inductive LineError where
  /-- There is a time, or something else, but no command behind it. -/
  | incomplete (text : String)
  /-- The first word is no time. -/
  | invalidTime (word : String)
  /-- What follows the time is no command. -/
  | command (error : CommandError)
deriving DecidableEq

/-- Why a text is no script. -/
inductive ScriptError where
  /-- A line cannot be read. -/
  | syntaxError (line : Nat) (error : LineError)
  /-- A line is earlier than the one before. -/
  | backwards (line : Nat) (time previous : Millis)
deriving DecidableEq

/-- The wording of the error. -/
def LineError.message : LineError → String
  | incomplete text => "expected '<ms> <command>', got '" ++ text ++ "'"
  | invalidTime word => "invalid time '" ++ word ++ "'"
  | command error => error.message

/-- The wording of the error. -/
def ScriptError.message : ScriptError → String
  | syntaxError line error => "line " ++ toString line ++ ": " ++ error.message
  | backwards line time previous =>
    "line " ++ toString line ++ ": time " ++ time.text ++ " is earlier than the previous line (" ++
      previous.text ++ ")"

namespace Script

/-- Drops the unit `ms` from the end, as often as it is there. -/
def dropUnits (cs : List Char) : List Char := (go cs.reverse).reverse
where
  /-- Works on the reversed text. -/
  go : List Char → List Char
    | 's' :: 'm' :: rest => go rest
    | cs => cs

/-- Reads a time, with or without its unit. -/
def readTime? (cs : List Char) : Option Millis :=
  (Decimal.read? Millis.last.count (dropUnits cs)).bind Millis.ofNat?

/-- The text of a line without the comment and the blanks around it. -/
def content (line : List Char) : List Char := Text.trim (line.takeWhile (· != '#'))

/-- Reads the content of the line of a given number, which follows a line of a given time. -/
def readLine (number : Nat) (previous : Millis) (text : List Char) : Except ScriptError ScriptLine :=
  match Text.cut? Text.isBlank text with
  | none => .error (.syntaxError number (.incomplete (String.ofList text)))
  | some (word, rest) =>
    match readTime? word with
    | none => .error (.syntaxError number (.invalidTime (String.ofList word)))
    | some time =>
      if time < previous then .error (.backwards number time previous)
      else
        match Command.ofChars rest with
        | .error error => .error (.syntaxError number (.command error))
        | .ok command => .ok ⟨time, command⟩

/-- Reads lines, the first of which has a given number and follows a line of a given time. -/
def readLines (number : Nat) (previous : Millis) :
    List (List Char) → Except ScriptError (List ScriptLine)
  | [] => .ok []
  | line :: rest =>
    let text := content line
    if text.isEmpty then readLines (number + 1) previous rest
    else
      match readLine number previous text with
      | .error error => .error error
      | .ok first => (readLines (number + 1) first.time rest).map (first :: ·)

/-- Reads a script. -/
def ofChars (cs : List Char) : Except ScriptError (List ScriptLine) :=
  readLines 1 .zero (Text.lines cs)

/-- Reads a script from a string. -/
def ofString (s : String) : Except ScriptError (List ScriptLine) := ofChars s.toList

end Script

end KeyEngine
