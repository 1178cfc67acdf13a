import KeyEngine.ActiveKeys
import KeyEngine.OneShots

/-!
# The engine: acting on a key

The state of the engine is what the keyboard holds, the tap-hold key that waits, the one-shots and the
keys that are down. This module says what the press and the release of a key do once it is their turn;
in which order events get their turn is said in `KeyEngine.Engine.Agenda`.
-/

namespace KeyEngine

/-- What a keyboard is set up to do. -/
structure Profile where
  /-- The actions of the keys. -/
  keymap : Keymap
  /-- The settings. -/
  settings : Settings
  /-- The modifiers that layers hold while they are on. -/
  layerModifiers : LayerModifiers

/-- The state of the engine. -/
structure Engine where
  /-- What is on. -/
  holdings : Holdings
  /-- The tap-hold key that waits, and the last tap. -/
  tapHold : TapHold
  /-- The one-shots. -/
  oneShots : OneShots
  /-- The keys that are down. -/
  active : ActiveKeys
deriving DecidableEq

namespace Engine

/-- Nothing was pressed yet. -/
def start : Engine := ⟨.empty, .idle, .empty, .empty⟩

/-- What a key means with the layers that are on. -/
def resolve (p : Profile) (s : Engine) (key : Key) : Action := s.holdings.layers.resolve p.keymap key

/-- The modifiers that the host should see. -/
def modifiers (s : Engine) : ModifierSet := s.holdings.effective

/-- Whether a tap-hold key waits. -/
def isPending (s : Engine) : Bool := s.tapHold.isPending

/-- What happened so far. -/
def journal (s : Engine) : Journal := s.holdings.journal

/-- The state with an empty journal. -/
def drained (s : Engine) : Engine := { s with holdings := { s.holdings with journal := #[] } }

/-- Changes what is on. -/
def mapHoldings (s : Engine) (f : Holdings → Holdings) : Engine :=
  { s with holdings := f s.holdings }

/-- Adds a signal to the journal. -/
def announce (s : Engine) (signal : Signal) : Engine := s.mapHoldings (·.announce signal)

/-- Warns about something that was ignored. -/
def warn (s : Engine) (warning : Warning) : Engine := s.mapHoldings (·.warn warning)

/-- Changes the one-shots together with what they turn on. -/
def mapOneShots (s : Engine) (f : OneShots → Holdings → OneShots × Holdings) : Engine :=
  let (oneShots, holdings) := f s.oneShots s.holdings
  { s with oneShots, holdings }

/-- An action counts as the key that the one-shots wait for. -/
def consume (p : Profile) (action : Action) (s : Engine) : Engine :=
  s.mapOneShots (·.consume · p.settings p.layerModifiers action)

/-- Drops the key that waits and every event behind it, turns off the one-shots and releases
everything. Keys that are down have nothing to undo any more. -/
def cancel (p : Profile) (s : Engine) : Engine where
  holdings := s.holdings.releaseEverything p.layerModifiers
  tapHold := .idle
  oneShots := s.oneShots.cancel
  active := s.active.makeInert

/-- Whether a press of a tap-hold key repeats the tap that came just before. -/
def repeatsTap (p : Profile) (s : Engine) (event : KeyEvent) : Bool :=
  !p.settings.tappingForceHold && s.tapHold.repressed event.key event.time p.settings.tappingTerm

/-- A tap-hold key goes down: it repeats its tap, or waits. -/
def pressTapHold (p : Profile) (event : KeyEvent) (action : Action) (tap : Keystroke) (s : Engine) :
    KeyState × Engine :=
  if s.repeatsTap p event then
    (.tapped, (s.mapHoldings (·.pressStroke tap)).consume p action)
  else
    (.pending event.time,
      { s with tapHold := s.tapHold.begin event.key action event.time p.settings.tappingTerm })

/-- Does what a press of an action does, and says what its release has to undo. -/
def perform (p : Profile) (event : KeyEvent) (action : Action) (s : Engine) : KeyState × Engine :=
  match action with
  | .plain stroke =>
    if stroke.isModifierOnly then
      (.modifiers stroke.code.modifierBit, s.mapHoldings (·.holdModifiers stroke.code.modifierBit))
    else (.stroke stroke, (s.mapHoldings (·.pressStroke stroke)).consume p action)
  | .modTap _ tap | .layerTap _ tap => s.pressTapHold p event action tap
  | .oneShotModifier _ | .oneShotLayer _ =>
    (.oneShot, s.mapOneShots (·.press · p.settings p.layerModifiers action event.time))
  | .manualShift unshifted shifted =>
    (.stroke (s.holdings.chooseShifted unshifted shifted),
      (s.mapHoldings (·.pressManualShift unshifted shifted)).consume p action)
  | .macroSequence strokes => (.inert, (s.mapHoldings (·.tapStrokes strokes)).consume p action)
  | .retype stroke => (.stroke stroke, (s.mapHoldings (·.retypeStroke stroke)).consume p action)
  | .momentaryLayer id => (.layer id, s.mapHoldings (·.activateLayer p.layerModifiers id .held))
  | .toggleLayer id => (.inert, s.mapHoldings (·.toggleLayer p.layerModifiers id))
  | .cancel => (.inert, s.cancel p)
  | .transparent | .noOp => (.inert, s)

/-- A key goes down. A key that is down already is ignored. -/
def press (p : Profile) (event : KeyEvent) (s : Engine) : Engine :=
  if s.active.contains event.key then s.warn (.pressedTwice event.key)
  else
    let action := s.resolve p event.key
    let (state, s) := { s with tapHold := s.tapHold.forgetOther event.key }.perform p event action
    let s := s.announce (.key event.key action true)
    { s with active := s.active.insert event.key ⟨action, state⟩ }

/-- Undoes what the press of a key did. -/
def undo (p : Profile) (event : KeyEvent) (entry : ActiveKey) (s : Engine) : Engine :=
  match entry.state with
  | .stroke stroke => s.mapHoldings (·.releaseStroke stroke)
  | .modifiers set => s.mapHoldings (·.unholdModifiers set)
  | .tapped =>
    let s := match entry.action.tap? with
      | some tap => s.mapHoldings (·.releaseStroke tap)
      | none => s
    { s with tapHold := s.tapHold.rememberTap event.key event.time }
  | .held => s.mapHoldings (·.unholdAction p.layerModifiers entry.action)
  | .pending _ => s
  | .oneShot => s.mapOneShots (·.release · p.settings p.layerModifiers entry.action event.time)
  | .layer id => s.mapHoldings (·.deactivateLayer p.layerModifiers id .held)
  | .inert => s

/-- A key goes up. A key that is not down is ignored. -/
def release (p : Profile) (event : KeyEvent) (s : Engine) : Engine :=
  match s.active.find? event.key with
  | none => s.warn (.releasedWithoutPress event.key)
  | some entry =>
    ({ s with active := s.active.remove event.key }.undo p event entry).announce
      (.key event.key entry.action false)

/-- Acts on an event. -/
def dispatch (p : Profile) (event : KeyEvent) (s : Engine) : Engine :=
  let s := s.announce (.dispatched event)
  if event.pressed then s.press p event else s.release p event

/-- Settles how a waiting key was meant, after it stopped waiting. Its tap counts for the one-shots
unless it is a bare modifier key. -/
def settle (p : Profile) (decision : Decision) (head : PendingKey) (s : Engine) : Engine :=
  let s := s.announce (.settled head.key decision)
  match decision with
  | .tap =>
    let s := { s with active := s.active.setState head.key .tapped }
    match head.action.tap? with
    | some tap =>
      let s := s.mapHoldings (·.pressStroke tap)
      if tap.isModifierOnly then s else s.consume p head.action
    | none => s
  | .hold =>
    { s with active := s.active.setState head.key .held }.mapHoldings
      (·.holdAction p.layerModifiers head.action)

end Engine

end KeyEngine
