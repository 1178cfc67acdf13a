import KeyEngine.KeyCode

/-!
# Keystrokes

A keystroke is a key code together with the modifiers that are down while it is. It is written as the
code alone, or as `MODS(CODE)`. Reading also takes nested forms such as `S(G(Z))`, whose modifiers are
collected, and the names of shifted symbols.
-/

namespace KeyEngine

/-- A key code and the modifiers attached to it. -/
structure Keystroke where
  /-- The key that is pressed. -/
  code : KeyCode
  /-- The modifiers that are on while it is down. -/
  modifiers : ModifierSet
deriving DecidableEq

namespace Keystroke

/-- A code without attached modifiers. -/
def ofCode (code : KeyCode) : Keystroke := ⟨code, ∅⟩

/-- A modifier key with nothing attached; pressing it sends no code. -/
def isModifierOnly (stroke : Keystroke) : Bool :=
  stroke.code.isModifier && stroke.modifiers.isEmpty

/-- All modifiers that the stroke turns on: those attached and the one that the code stands for. -/
def allModifiers (stroke : Keystroke) : ModifierSet := stroke.modifiers ∪ stroke.code.modifierBit

/-- `CODE`, or `MODS(CODE)` if modifiers are attached. -/
def chars (stroke : Keystroke) : List Char :=
  if stroke.modifiers.isEmpty then stroke.code.name.toList
  else stroke.modifiers.chars ++ '(' :: stroke.code.name.toList ++ [')']

/-- The written form as a string. -/
def text (stroke : Keystroke) : String := String.ofList stroke.chars

/-- The text without the closing parenthesis at its end. -/
def dropClose? (cs : List Char) : Option (List Char) :=
  if cs.getLast? = some ')' then some cs.dropLast else none

/-- What stands inside a bracket is no longer than the text with its closing bracket. -/
theorem dropClose?_length_le {cs inner : List Char} (h : dropClose? cs = some inner) :
    inner.length ≤ cs.length := by
  unfold dropClose? at h
  split at h
  · cases h
    simp
  · cases h

/-- The symbol with a given name, in any case of its letters: its key with the left shift. -/
def ofSymbol? (name : List Char) : Option Keystroke :=
  (KeyCode.shiftedSymbols.find? fun entry => Text.sameLetters entry.1.toList name).map
    fun entry => ⟨entry.2, .single .leftShift⟩

/-- Reads a keystroke. A text with parentheses is a modifier list, an opening parenthesis, a keystroke
and a closing parenthesis at the very end. -/
def ofChars (cs : List Char) : Except KeyError Keystroke :=
  let bare := KeyCode.bareName cs
  if bare.isEmpty then .error .empty
  else
    match _hcut : Text.cut? (· == '(') bare with
    | some (list, rest) =>
      match _hinner : dropClose? rest with
      | none => .error (.unbalanced (String.ofList cs))
      | some inner =>
        match ModifierSet.ofChars list with
        | .error _ => .error (.unknownModifier (String.ofList list))
        | .ok set => (ofChars inner).map fun stroke => ⟨stroke.code, stroke.modifiers ∪ set⟩
    | none =>
      if bare.contains ')' then .error (.unbalanced (String.ofList cs))
      else
        match ofSymbol? bare with
        | some stroke => .ok stroke
        | none => (KeyCode.ofChars bare).map ofCode
termination_by cs.length
decreasing_by
  have h₁ := dropClose?_length_le _hinner
  have h₂ := Text.cut?_length_lt _hcut
  have h₃ : bare.length ≤ cs.length := KeyCode.bareName_length_le cs
  omega

/-- Reads a keystroke from a string. -/
def ofString (s : String) : Except KeyError Keystroke := ofChars s.toList

end Keystroke

end KeyEngine
