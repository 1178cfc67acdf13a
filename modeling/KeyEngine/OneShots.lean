import KeyEngine.OneShot
import KeyEngine.Holdings

/-!
# The one-shots of a keyboard

There is one machine for every set of one-shot modifiers and for every one-shot layer, made when its
trigger is first pressed. The machines decide, and what they decide is done to the holdings. Layers
come before modifiers, and within each the machine made first comes first.
-/

namespace KeyEngine

/-- Machines, each for one thing, in the order in which they were made. -/
structure Machines (α : Type) where
  /-- The things with their machines. -/
  entries : List (α × OneShot)
deriving DecidableEq

namespace Machines

variable {α : Type} [DecidableEq α]

/-- No machine was made. -/
def empty : Machines α := ⟨[]⟩

/-- The machine of a thing. -/
def get (machines : Machines α) (thing : α) : OneShot :=
  (machines.entries.lookup thing).getD .new

/-- Changes the machine of a thing, which is made if it is missing. -/
def set (machines : Machines α) (thing : α) (machine : OneShot) : Machines α :=
  if machines.entries.any (·.1 == thing) then
    ⟨machines.entries.map fun entry => if entry.1 = thing then (entry.1, machine) else entry⟩
  else ⟨machines.entries ++ [(thing, machine)]⟩

/-- A transition of every machine, each with its answer. -/
def sweep (machines : Machines α) (step : α → OneShot → OneShot × Option OneShotChange) :
    Machines α × List (α × OneShotChange) :=
  (⟨machines.entries.map fun entry => (entry.1, (step entry.1 entry.2).1)⟩,
    machines.entries.filterMap fun entry => (step entry.1 entry.2).2.map (entry.1, ·))

end Machines

/-- All one-shots. -/
structure OneShots where
  /-- The one-shots that turn on modifiers. -/
  modifiers : Machines ModifierSet
  /-- The one-shots that turn on a layer. -/
  layers : Machines LayerId
deriving DecidableEq

/-- Does to the one-shot modifiers what a machine answered. -/
def Holdings.applyOneShotModifiers (h : Holdings) (set : ModifierSet) : OneShotChange → Holdings
  | .apply => (h.mapModifiers (·.addOneShot set)).sync
  | .revoke => (h.mapModifiers (·.removeOneShot set)).sync

/-- Does to a one-shot layer what a machine answered. -/
def Holdings.applyOneShotLayer (h : Holdings) (layers : LayerModifiers) (id : LayerId) :
    OneShotChange → Holdings
  | .apply => h.activateLayer layers id .oneShot
  | .revoke => h.deactivateLayer layers id .oneShot

namespace OneShots

/-- No trigger was pressed. -/
def empty : OneShots := ⟨.empty, .empty⟩

/-- A transition of the machine of a trigger; any other action has no machine. -/
def step (shots : OneShots) (h : Holdings) (layers : LayerModifiers) (trigger : Action)
    (f : OneShot → OneShot × Option OneShotChange) : OneShots × Holdings :=
  match trigger with
  | .oneShotModifier set =>
    let (machine, change) := f (shots.modifiers.get set)
    ({ shots with modifiers := shots.modifiers.set set machine },
      change.elim h (h.applyOneShotModifiers set))
  | .oneShotLayer id =>
    let (machine, change) := f (shots.layers.get id)
    ({ shots with layers := shots.layers.set id machine },
      change.elim h (h.applyOneShotLayer layers id))
  | _ => (shots, h)

/-- A transition of every machine, by its trigger. -/
def sweep (shots : OneShots) (h : Holdings) (layers : LayerModifiers)
    (f : Action → OneShot → OneShot × Option OneShotChange) : OneShots × Holdings :=
  let (newLayers, layerChanges) := shots.layers.sweep fun id => f (.oneShotLayer id)
  let (newModifiers, modifierChanges) := shots.modifiers.sweep fun set => f (.oneShotModifier set)
  let h := layerChanges.foldl (fun h change => h.applyOneShotLayer layers change.1 change.2) h
  (⟨newModifiers, newLayers⟩,
    modifierChanges.foldl (fun h change => h.applyOneShotModifiers change.1 change.2) h)

/-- A trigger goes down. -/
def press (shots : OneShots) (h : Holdings) (settings : Settings) (layers : LayerModifiers)
    (trigger : Action) (time : Millis) : OneShots × Holdings :=
  shots.step h layers trigger (OneShot.press settings time)

/-- A trigger goes up. -/
def release (shots : OneShots) (h : Holdings) (settings : Settings) (layers : LayerModifiers)
    (trigger : Action) (time : Millis) : OneShots × Holdings :=
  shots.step h layers trigger (OneShot.release settings time)

/-- An action was pressed that counts for every one-shot that does not ignore it. -/
def consume (shots : OneShots) (h : Holdings) (settings : Settings) (layers : LayerModifiers)
    (action : Action) : OneShots × Holdings :=
  shots.sweep h layers fun trigger machine =>
    if settings.ignores trigger action then (machine, none) else machine.consume

/-- Time has passed. -/
def tick (shots : OneShots) (h : Holdings) (settings : Settings) (layers : LayerModifiers)
    (now : Millis) : OneShots × Holdings :=
  shots.sweep h layers fun _ machine => machine.tick settings now

/-- Turns every machine off. What they turned on is taken back by whoever cancels. -/
def cancel (shots : OneShots) : OneShots :=
  ⟨(shots.modifiers.sweep fun _ machine => (machine.cancel, none)).1,
    (shots.layers.sweep fun _ machine => (machine.cancel, none)).1⟩

end OneShots

end KeyEngine
