import KeyEngine.Config.Standard
import KeyEngine.Document

/-!
# Configurations as documents

The field names of a configuration in a file, what a missing field means, and the document that shows
every field. A name in a layer or a list of modifiers may be written in any accepted form; modifiers
are shown in their written form.
-/

namespace KeyEngine

open Document (Dialect)

/-- A field that may be missing, with what it means then. -/
def Document.optionalField {α : Type} (standard : α) (read : Document → Option α) :
    Option Document → Option α
  | none => some standard
  | some value => read value

/-- A number of milliseconds. -/
def Document.asMillis? (value : Document) : Option Millis :=
  (value.asNat? Millis.last.count).bind Millis.ofNat?

/-- A number from 0 to 255. -/
def Document.asByte? (value : Document) : Option UInt8 := (value.asNat? 255).map UInt8.ofNat

/-- A modifier list. -/
def Document.asModifiers? (value : Document) : Option ModifierSet :=
  value.asText?.bind fun list => (ModifierSet.ofString list).toOption

/-- A list of texts. -/
def Document.asTexts? (value : Document) : Option (List String) :=
  value.asList?.bind fun items => items.mapM asText?

/-- A table of values; of two values with one name the later counts. -/
def Document.asByName? {α : Type} (read : Document → Option α) (value : Document) :
    Option (ByName α) :=
  value.asTable?.bind fun entries =>
    entries.foldlM (fun found entry => (read entry.2).map fun a => ByName.insert entry.1 a found) []

namespace Globals

/-- The names of the fields. -/
def fieldNames : List String :=
  ["tapping_term", "permissive_hold", "ignore_mod_tap_interrupt", "hold_on_other_key_press",
   "tapping_force_hold", "oneshot_tap_toggle", "oneshot_timeout"]

/-- Reads the numbers and switches. -/
def ofDocument? (dialect : Dialect) (value : Document) : Option Globals := do
  let [term, permissive, ignore, hold, force, toggle, timeout] ← value.fields? dialect fieldNames
    | none
  return {
    tappingTerm := ← Document.optionalField standard.tappingTerm Document.asMillis? term
    permissiveHold := ← Document.optionalField standard.permissiveHold Document.asBool? permissive
    ignoreInterrupt := ← Document.optionalField standard.ignoreInterrupt Document.asBool? ignore
    holdOnOtherKeyPress := ← Document.optionalField standard.holdOnOtherKeyPress Document.asBool? hold
    tappingForceHold := ← Document.optionalField standard.tappingForceHold Document.asBool? force
    tapToggle := ← Document.optionalField standard.tapToggle Document.asByte? toggle
    oneShotTimeout := ← Document.optionalField standard.oneShotTimeout Document.asMillis? timeout }

/-- The document of the numbers and switches. -/
def document (g : Globals) : Document :=
  .ofNames [("tapping_term", .integer g.tappingTerm.count), ("permissive_hold", .boolean g.permissiveHold),
    ("ignore_mod_tap_interrupt", .boolean g.ignoreInterrupt),
    ("hold_on_other_key_press", .boolean g.holdOnOtherKeyPress),
    ("tapping_force_hold", .boolean g.tappingForceHold),
    ("oneshot_tap_toggle", .integer g.tapToggle.toNat),
    ("oneshot_timeout", .integer g.oneShotTimeout.count)]

end Globals

namespace OneShotRules

/-- The names of the fields. -/
def fieldNames : List String := ["ignore", "per_trigger"]

/-- Reads what one-shots ignore. -/
def ofDocument? (dialect : Dialect) (value : Document) : Option OneShotRules := do
  let [ignore, perTrigger] ← value.fields? dialect fieldNames | none
  return {
    ignore := ← Document.optionalField standard.ignore Document.asTexts? ignore
    perTrigger := ← Document.optionalField standard.perTrigger
      (Document.asByName? Document.asTexts?) perTrigger }

/-- The document of what one-shots ignore. -/
def document (r : OneShotRules) : Document :=
  .ofNames [("ignore", .list (r.ignore.map .text)),
    ("per_trigger", .ofNames (r.perTrigger.map fun entry => (entry.1, .list (entry.2.map .text))))]

end OneShotRules

namespace LayerRows

/-- The names of the fields. -/
def fieldNames : List String := ["name", "keys"]

/-- Reads a layer; both fields are needed. -/
def ofDocument? (dialect : Dialect) (value : Document) : Option LayerRows := do
  let [some name, some rows] ← value.fields? dialect fieldNames | none
  return ⟨← name.asText?, ← rows.asTexts?⟩

/-- The document of a layer. -/
def document (layer : LayerRows) : Document :=
  .ofNames [("name", .text layer.name), ("keys", .list (layer.rows.map .text))]

end LayerRows

namespace Config

/-- The names of the fields. -/
def fieldNames : List String := ["globals", "one_shot", "layer_modifiers", "layers"]

/-- Reads a configuration. -/
def ofDocument? (dialect : Dialect) (value : Document) : Option Config := do
  let [globals, oneShot, layerModifiers, layers] ← value.fields? dialect fieldNames | none
  return {
    globals := ← Document.optionalField standard.globals (Globals.ofDocument? dialect) globals
    oneShot := ← Document.optionalField standard.oneShot (OneShotRules.ofDocument? dialect) oneShot
    layerModifiers := ← Document.optionalField standard.layerModifiers
      (Document.asByName? Document.asModifiers?) layerModifiers
    layers := ← Document.optionalField standard.layers
      (fun value => value.asList?.bind fun items => items.mapM (LayerRows.ofDocument? dialect)) layers }

/-- The document of a configuration. -/
def document (c : Config) : Document :=
  .ofNames [("globals", c.globals.document), ("one_shot", c.oneShot.document),
    ("layer_modifiers", .ofNames (c.layerModifiers.map fun entry => (entry.1, .text entry.2.text))),
    ("layers", .list (c.layers.map LayerRows.document))]

end Config

end KeyEngine
