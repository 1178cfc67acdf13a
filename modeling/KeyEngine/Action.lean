import KeyEngine.Keystroke

/-!
# Key actions

What a physical key does on a layer: press a keystroke, act as one of the dual-role keys, switch a
layer, or nothing. The module holds the type, its written form and the errors of reading it; the reader
is in `KeyEngine.Action.Parser`.
-/

namespace KeyEngine

/-- The number of a layer; the base layer is 0. -/
abbrev LayerId := UInt8

/-- The base layer. It is always active and never transparent. -/
def baseLayer : LayerId := 0

/-- What a physical key does on a given layer. -/
inductive Action where
  /-- Presses a keystroke; a bare modifier key holds the modifier. -/
  | plain (stroke : Keystroke)
  /-- A keystroke when tapped, modifiers when held. -/
  | modTap (hold : ModifierSet) (tap : Keystroke)
  /-- A keystroke when tapped, a layer when held. -/
  | layerTap (layer : LayerId) (tap : Keystroke)
  /-- Modifiers for the next key. -/
  | oneShotModifier (set : ModifierSet)
  /-- A layer for the next key. -/
  | oneShotLayer (layer : LayerId)
  /-- Two strokes, chosen by whether shift is on. -/
  | manualShift (unshifted shifted : Keystroke)
  /-- Several strokes, tapped one after the other. -/
  | macroSequence (strokes : List Keystroke)
  /-- A stroke whose press the host always sees anew. -/
  | retype (stroke : Keystroke)
  /-- A layer while the key is down. -/
  | momentaryLayer (layer : LayerId)
  /-- Switches a layer on or off. -/
  | toggleLayer (layer : LayerId)
  /-- Drops everything that is pending and releases everything that is held. -/
  | cancel
  /-- What the layer below says. -/
  | transparent
  /-- Nothing. -/
  | noOp
deriving DecidableEq

namespace Action

/-- The layer that the action refers to. -/
def layer? : Action → Option LayerId
  | layerTap layer _ => some layer
  | oneShotLayer layer => some layer
  | momentaryLayer layer => some layer
  | toggleLayer layer => some layer
  | _ => none

/-- The stroke that a tap-hold key sends when tapped. -/
def tap? : Action → Option Keystroke
  | modTap _ tap => some tap
  | layerTap _ tap => some tap
  | _ => none

/-- A call: a name and its arguments in parentheses, with a comma and a blank between them. -/
def callChars (name : String) (arguments : List (List Char)) : List Char :=
  name.toList ++ '(' :: Text.join [',', ' '] arguments ++ [')']

/-- A layer number in decimal digits. -/
def layerChars (layer : LayerId) : List Char := Nat.toDigits 10 layer.toNat

/-- The written form. -/
def chars : Action → List Char
  | plain stroke => stroke.chars
  | modTap hold tap => callChars "MT" [hold.chars, tap.chars]
  | layerTap layer tap => callChars "LT" [layerChars layer, tap.chars]
  | oneShotModifier set => callChars "OSM" [set.chars]
  | oneShotLayer layer => callChars "OSL" [layerChars layer]
  | manualShift unshifted shifted => callChars "MS" [unshifted.chars, shifted.chars]
  | macroSequence strokes => callChars "MACRO" (strokes.map Keystroke.chars)
  | retype stroke => callChars "RT" [stroke.chars]
  | momentaryLayer layer => callChars "MO" [layerChars layer]
  | toggleLayer layer => callChars "TG" [layerChars layer]
  | cancel => "CANCEL".toList
  | transparent => "_______".toList
  | noOp => "XXXXXXX".toList

/-- The written form as a string. -/
def text (action : Action) : String := String.ofList action.chars

end Action

/-- How many arguments an action takes. -/
inductive Arity where
  | one | two | atLeastOne
deriving DecidableEq

namespace Arity

/-- The wording in an error message. -/
def text : Arity → String
  | one => "1"
  | two => "2"
  | atLeastOne => "at least 1"

end Arity

/-- Why a text is no action. -/
inductive ActionError where
  /-- A keystroke in it cannot be read. -/
  | key (error : KeyError)
  /-- The text in front of the parenthesis names neither an action nor modifiers. -/
  | unknownAction (text : String)
  /-- The wrong number of arguments. -/
  | arity (action : String) (expected : Arity) (found : Nat)
  /-- No number from 0 to 255. -/
  | invalidLayer (text : String)
  /-- No modifier list, or an empty one. -/
  | invalidModifiers (text : String)
  /-- A parenthesis without its partner. -/
  | unbalanced (text : String)
deriving DecidableEq

/-- The wording of the error. -/
def ActionError.message : ActionError → String
  | key error => error.message
  | unknownAction text => "unknown action: '" ++ text ++ "'"
  | arity action expected found =>
    action ++ " takes " ++ expected.text ++ " argument(s), got " ++ toString found
  | invalidLayer text => "invalid layer number: '" ++ text ++ "'"
  | invalidModifiers text => "invalid modifier list: '" ++ text ++ "'"
  | unbalanced text => "unbalanced parentheses in '" ++ text ++ "'"

end KeyEngine
