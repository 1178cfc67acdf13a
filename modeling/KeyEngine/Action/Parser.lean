import KeyEngine.Action
import KeyEngine.Action.Entries
import KeyEngine.Text.Decimal

/-!
# Reading key actions

An entry of a keymap is one of a few words, a keystroke, or a call such as `MT(LCTL, A)`. The name in
front of the first parenthesis decides; a name that is no action must be a modifier list, and the whole
entry is then a keystroke. Names are read in any case of their letters.
-/

namespace KeyEngine.Action

/-- Fails with `error` unless there is a value. -/
def required {α : Type} (error : ActionError) : Option α → Except ActionError α
  | some a => .ok a
  | none => .error error

/-- The entries of a text; parentheses that do not pair up are an error about the whole text. -/
def entries (cs : List Char) : Except ActionError (List (List Char)) :=
  required (.unbalanced (String.ofList cs)) (Entries.ofChars? cs)

/-- Reads a layer number. -/
def readLayer (cs : List Char) : Except ActionError LayerId :=
  let number := Text.trim cs
  required (.invalidLayer (String.ofList number)) ((Decimal.read? 255 number).map UInt8.ofNat)

/-- Reads a modifier list with at least one member. -/
def readModifiers (cs : List Char) : Except ActionError ModifierSet :=
  let invalid := ActionError.invalidModifiers (String.ofList (Text.trim cs))
  match ModifierSet.ofChars cs with
  | .error _ => .error invalid
  | .ok set => if set.isEmpty then .error invalid else .ok set

/-- Reads a keystroke. -/
def readStroke (cs : List Char) : Except ActionError Keystroke :=
  (Keystroke.ofChars cs).mapError .key

/-- Reads several keystrokes, in order. -/
def readStrokes : List (List Char) → Except ActionError (List Keystroke)
  | [] => .ok []
  | cs :: rest => do
    let stroke ← readStroke cs
    let strokes ← readStrokes rest
    return stroke :: strokes

/-- The words that are actions by themselves. -/
def ofWord? (cs : List Char) : Option Action :=
  let name := Text.upper cs
  match String.ofList ((Text.dropStart? "KC_".toList name).getD name) with
  | "_______" | "TRNS" | "_" => some transparent
  | "XXXXXXX" | "NO" => some noOp
  | "CANCEL" => some cancel
  | _ => none

/-- The names of calls. -/
inductive Call where
  | modTap | layerTap | oneShotModifier | oneShotLayer | manualShift | macroSequence | retype
  | momentaryLayer | toggleLayer
  /-- A tap-hold key that is named after its modifiers, such as `CTL_T`. -/
  | namedModTap (list : List Char)
deriving DecidableEq

namespace Call

/-- The call with a name in capital letters. -/
def ofName? (name : List Char) : Option Call :=
  match String.ofList name with
  | "MT" => some modTap
  | "LT" => some layerTap
  | "OSM" => some oneShotModifier
  | "OSL" => some oneShotLayer
  | "MS" => some manualShift
  | "MACRO" => some macroSequence
  | "RT" => some retype
  | "MO" => some momentaryLayer
  | "TG" => some toggleLayer
  | _ => (Text.dropStart? "T_".toList name.reverse).map fun list => namedModTap list.reverse

/-- How many arguments the call takes. -/
def arity : Call → Arity
  | modTap | layerTap | manualShift => .two
  | macroSequence => .atLeastOne
  | _ => .one

/-- The action of the call of a given name with its arguments. -/
def apply (name : List Char) : Call → List (List Char) → Except ActionError Action
  | modTap, [hold, tap] => return .modTap (← readModifiers hold) (← readStroke tap)
  | layerTap, [layer, tap] => return .layerTap (← readLayer layer) (← readStroke tap)
  | oneShotModifier, [set] => return .oneShotModifier (← readModifiers set)
  | oneShotLayer, [layer] => return .oneShotLayer (← readLayer layer)
  | manualShift, [unshifted, shifted] =>
    return .manualShift (← readStroke unshifted) (← readStroke shifted)
  | macroSequence, stroke :: strokes => return .macroSequence (← readStrokes (stroke :: strokes))
  | retype, [stroke] => return .retype (← readStroke stroke)
  | momentaryLayer, [layer] => return .momentaryLayer (← readLayer layer)
  | toggleLayer, [layer] => return .toggleLayer (← readLayer layer)
  | namedModTap list, [tap] => return .modTap (← readModifiers list) (← readStroke tap)
  | call, arguments => throw (.arity (String.ofList name) call.arity arguments.length)

end Call

/-- Reads a keystroke whose parenthesis follows no action name: an unknown modifier list is then an
unknown action. -/
def readWrappedStroke (cs : List Char) : Except ActionError Action :=
  match Keystroke.ofChars cs with
  | .ok stroke => .ok (plain stroke)
  | .error (.unknownModifier _) => .error (.unknownAction (String.ofList cs))
  | .error error => .error (.key error)

/-- Reads an action. -/
def ofChars (cs : List Char) : Except ActionError Action := do
  let entry := Text.trim cs
  if let some action := ofWord? entry then return action
  match Text.cut? (· == '(') entry with
  | none => return plain (← readStroke entry)
  | some (front, rest) =>
    let name := Text.upper (Text.trim front)
    let body ← required (.unbalanced (String.ofList entry)) (Keystroke.dropClose? rest)
    let arguments ← entries body
    match Call.ofName? name with
    | none => readWrappedStroke entry
    | some call => call.apply name arguments

/-- Reads an action from a string. -/
def ofString (s : String) : Except ActionError Action := ofChars s.toList

end KeyEngine.Action
