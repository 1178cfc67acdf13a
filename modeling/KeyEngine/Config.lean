import KeyEngine.Action.Parser
import KeyEngine.Engine

/-!
# Configurations

A configuration is what a user writes: numbers and switches, keymap entries as texts, and layers by
their names. `Config.profile` turns it into what the engine needs, or says what is wrong with it.
-/

namespace KeyEngine

/-- Values by name, in the order of the names. -/
abbrev ByName (α : Type) := List (String × α)

/-- Adds a value under a name, in place of the one that was there. -/
def ByName.insert {α : Type} (name : String) (value : α) : ByName α → ByName α
  | [] => [(name, value)]
  | entry :: rest =>
    if name < entry.1 then (name, value) :: entry :: rest
    else if name = entry.1 then (name, value) :: rest
    else entry :: ByName.insert name value rest

/-- The numbers and switches. -/
structure Globals where
  /-- How long a tap may last, in milliseconds. -/
  tappingTerm : Millis
  /-- Another key that is pressed and released means hold. -/
  permissiveHold : Bool
  /-- Only time and the key's own release decide. -/
  ignoreInterrupt : Bool
  /-- Another key that is pressed means hold. -/
  holdOnOtherKeyPress : Bool
  /-- A key that was just tapped may be held at once. -/
  tappingForceHold : Bool
  /-- How many taps keep a one-shot on. -/
  tapToggle : UInt8
  /-- How long a one-shot waits, in milliseconds. -/
  oneShotTimeout : Millis
deriving DecidableEq

/-- The actions that one-shots ignore, as texts. -/
structure OneShotRules where
  /-- Ignored by every one-shot. -/
  ignore : List String
  /-- Ignored by the one-shot of a trigger. -/
  perTrigger : ByName (List String)
deriving DecidableEq

/-- A layer as texts. -/
structure LayerRows where
  /-- The name of the layer. -/
  name : String
  /-- Rows of keymap entries, separated by commas. -/
  rows : List String
deriving DecidableEq

/-- A configuration. -/
structure Config where
  /-- The numbers and switches. -/
  globals : Globals
  /-- What one-shots ignore. -/
  oneShot : OneShotRules
  /-- The modifiers that are on while a layer is. -/
  layerModifiers : ByName ModifierSet
  /-- The layers. -/
  layers : List LayerRows
deriving DecidableEq

/-- What is wrong with a configuration. -/
inductive ConfigError where
  /-- An entry of a layer cannot be read. -/
  | action (layer : String) (key : Nat) (error : ActionError)
  /-- The layers make no keymap. -/
  | keymap (error : KeymapError)
  /-- There is no layer of that name. -/
  | unknownLayer (name : String)
  /-- More than one way to react to other keys is switched on. -/
  | conflictingPolicies
  /-- An action that one-shots ignore cannot be read. -/
  | oneShotKey (field : String) (error : ActionError)
deriving DecidableEq

/-- The wording of the error. -/
def ConfigError.message : ConfigError → String
  | action layer key error =>
    "layer '" ++ layer ++ "' key " ++ toString key ++ ": " ++ error.message
  | keymap error => error.message
  | unknownLayer name => "no layer named '" ++ name ++ "'"
  | conflictingPolicies =>
    "only one of permissive_hold, ignore_mod_tap_interrupt and hold_on_other_key_press may be enabled"
  | oneShotKey field error => "one_shot." ++ field ++ ": " ++ error.message

/-- The way to react to other keys. At most one switch may be on; none means to ignore them. -/
def Globals.policy (g : Globals) : Except ConfigError InterruptPolicy :=
  match g.permissiveHold, g.ignoreInterrupt, g.holdOnOtherKeyPress with
  | true, false, false => .ok .permissiveHold
  | false, _, false => .ok .ignoreInterrupt
  | false, false, true => .ok .holdOnOtherKeyPress
  | _, _, _ => .error .conflictingPolicies

namespace LayerRows

/-- Reads entries, the first of which is the one of key number `key`. -/
def readEntries (layer : String) (key : Nat) : List (List Char) → Except ConfigError (List Action)
  | [] => .ok []
  | entry :: rest => do
    let action ← (Action.ofChars entry).mapError (.action layer key)
    let actions ← readEntries layer (key + 1) rest
    return action :: actions

/-- Drops the empty entry behind a comma that ends a row. -/
def dropTrailing (entries : List (List Char)) : List (List Char) :=
  if entries.getLast? = some [] then entries.dropLast else entries

/-- Reads rows, the first of which starts with key number `key`. -/
def readRows (layer : String) (key : Nat) : List String → Except ConfigError (List Action)
  | [] => .ok []
  | row :: rest => do
    let entries ← (Action.entries row.toList).mapError (.action layer key)
    let actions ← readEntries layer key (dropTrailing entries)
    let more ← readRows layer (key + actions.length) rest
    return actions ++ more

/-- The actions of a layer. -/
def actions (layer : LayerRows) : Except ConfigError (List Action) :=
  readRows layer.name 0 layer.rows

end LayerRows

namespace Config

/-- The layers with their actions. -/
def readLayers : List LayerRows → Except ConfigError (List Layer)
  | [] => .ok []
  | layer :: rest => do
    let actions ← layer.actions
    let layers ← readLayers rest
    return ⟨layer.name, actions⟩ :: layers

/-- The keymap. -/
def keymap (c : Config) : Except ConfigError Keymap := do
  let layers ← readLayers c.layers
  (Keymap.ofLayers layers).mapError .keymap

/-- Reads the actions of a list that one-shots ignore. -/
def readIgnored (field : String) : List String → Except ConfigError (List Action)
  | [] => .ok []
  | entry :: rest => do
    let action ← (Action.ofString entry).mapError (.oneShotKey field)
    let actions ← readIgnored field rest
    return action :: actions

/-- Reads the lists of actions that are ignored by trigger. -/
def readTriggers : ByName (List String) → Except ConfigError (List (Action × List Action))
  | [] => .ok []
  | (trigger, entries) :: rest => do
    let field := "per_trigger." ++ trigger
    let action ← (Action.ofString trigger).mapError (.oneShotKey field)
    let ignored ← readIgnored field entries
    let more ← readTriggers rest
    return (action, ignored) :: more

/-- The settings of the engine. -/
def settings (c : Config) : Except ConfigError Settings := do
  let ignored ← readIgnored "ignore" c.oneShot.ignore
  let ignoredBy ← readTriggers c.oneShot.perTrigger
  let policy ← c.globals.policy
  return {
    tappingTerm := c.globals.tappingTerm
    policy := policy
    tappingForceHold := c.globals.tappingForceHold
    tapToggle := c.globals.tapToggle
    oneShotTimeout := c.globals.oneShotTimeout
    ignored := ignored
    ignoredBy := ignoredBy }

/-- The modifiers of layers, by the numbers of the layers; of two names of one layer the later
counts. -/
def readLayerModifiers (map : Keymap) (found : LayerModifiers) :
    ByName ModifierSet → Except ConfigError LayerModifiers
  | [] => .ok found
  | (name, set) :: rest =>
    match map.layerId? name with
    | none => .error (.unknownLayer name)
    | some id => readLayerModifiers map (found.insert id set) rest

/-- The modifiers that layers hold while they are on. -/
def heldByLayers (c : Config) (map : Keymap) : Except ConfigError LayerModifiers :=
  readLayerModifiers map .none c.layerModifiers

/-- What the engine is to do. -/
def profile (c : Config) : Except ConfigError Profile := do
  let keymap ← c.keymap
  let settings ← c.settings
  let layerModifiers ← c.heldByLayers keymap
  return ⟨keymap, settings, layerModifiers⟩

end Config

end KeyEngine
