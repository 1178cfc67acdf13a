import KeyEngine.Engine.Agenda
import KeyEngine.Text.Decimal

/-!
# Commands

A session is driven by short commands: a key goes down or up, time passes, everything is cancelled, or
the session ends. A command is a verb, in any case of its letters, and for a key event the key.
-/

namespace KeyEngine

/-- Reads a key number with or without the letter `k` in front. -/
def Key.ofChars? (cs : List Char) : Option Key :=
  let digits := match cs with
    | 'k' :: rest => rest
    | 'K' :: rest => rest
    | _ => cs
  (Decimal.read? 65535 digits).map fun n => ⟨UInt16.ofNat n⟩

/-- What a session can be told to do. -/
inductive Command where
  /-- A key goes down. -/
  | down (key : Key)
  /-- A key goes up. -/
  | up (key : Key)
  /-- Time passes. -/
  | tick
  /-- Everything is dropped and released. -/
  | cancel
  /-- The session ends. -/
  | quit
deriving DecidableEq

/-- Why a text is no command. -/
inductive CommandError where
  /-- There is no word. -/
  | missing
  /-- The verb needs a key. -/
  | needsKey (verb : String)
  /-- The word after the verb is no key. -/
  | invalidKey (word : String)
  /-- There is no such verb; it is shown in small letters. -/
  | unknown (verb : String)
  /-- There are further words. -/
  | unexpected (word : String)
deriving DecidableEq

/-- The wording of the error. -/
def CommandError.message : CommandError → String
  | missing => "missing command"
  | needsKey verb => "'" ++ verb ++ "' needs a key"
  | invalidKey word => "invalid key '" ++ word ++ "'"
  | unknown verb => "unknown command '" ++ verb ++ "'"
  | unexpected word => "unexpected '" ++ word ++ "'"

namespace Command

/-- What a verb may stand for. -/
inductive Verb where
  /-- A key event. -/
  | event (pressed : Bool)
  /-- A command without a key. -/
  | plain (command : Command)
deriving DecidableEq

/-- The verb of a word in small letters. -/
def Verb.ofWord? (word : List Char) : Option Verb :=
  match String.ofList word with
  | "down" => some (event true)
  | "up" => some (event false)
  | "tick" => some (plain .tick)
  | "cancel" => some (plain .cancel)
  | "quit" | "exit" => some (plain .quit)
  | _ => none

/-- The command, if no further word follows it. -/
def alone (command : Command) : List (List Char) → Except CommandError Command
  | [] => .ok command
  | word :: _ => .error (.unexpected (String.ofList word))

/-- The command of a key event. -/
def ofEvent (pressed : Bool) (key : Key) : Command := if pressed then down key else up key

/-- Reads a command from its words. -/
def ofWords : List (List Char) → Except CommandError Command
  | [] => .error .missing
  | verb :: rest =>
    match Verb.ofWord? (Text.lower verb) with
    | none => .error (.unknown (String.ofList (Text.lower verb)))
    | some (.plain command) => alone command rest
    | some (.event pressed) =>
      match rest with
      | [] => .error (.needsKey (String.ofList verb))
      | word :: rest =>
        match Key.ofChars? word with
        | none => .error (.invalidKey (String.ofList word))
        | some key => alone (ofEvent pressed key) rest

/-- Reads a command. -/
def ofChars (cs : List Char) : Except CommandError Command := ofWords (Text.words cs)

/-- Reads a command from a string. -/
def ofString (s : String) : Except CommandError Command := ofChars s.toList

/-- Whether a session goes on after the command. -/
def continues (command : Command) : Bool := decide (command ≠ quit)

end Command

/-- Does what a command says at a moment. -/
def Engine.apply (p : Profile) (now : Millis) (command : Command) (s : Engine) : Engine :=
  match command with
  | .down key => s.process p ⟨key, true, now⟩
  | .up key => s.process p ⟨key, false, now⟩
  | .tick => s.tick p now
  | .cancel => s.cancel p
  | .quit => s

end KeyEngine
