import KeyEngine.HostEvent
import KeyEngine.TapHold
import KeyEngine.LayerStack

/-!
# The journal of the engine

Everything the engine does leaves a signal in a journal: what the host is told, what observers of
layers and keys see, warnings about input that makes no sense, and the two decisive steps of the
engine itself, an event that is acted on and a tap-hold key that is settled.
-/

namespace KeyEngine

/-- Something that was ignored. -/
inductive Warning where
  /-- A key went down that waits already. -/
  | pressedWhilePending (key : Key)
  /-- A key went down that is down. -/
  | pressedTwice (key : Key)
  /-- A key went up that is not down. -/
  | releasedWithoutPress (key : Key)
  /-- A layer was to be switched on, but the stack is full. -/
  | layerRefused (id : LayerId)
deriving DecidableEq

/-- The wording of a warning. -/
def Warning.message : Warning → String
  | pressedWhilePending key => key.text ++ " pressed while pending, ignored"
  | pressedTwice key => key.text ++ " pressed twice without a release, ignored"
  | releasedWithoutPress key => key.text ++ " released without a press, ignored"
  | layerRefused id =>
    "Layer " ++ toString id.toNat ++ " not activated, " ++ toString LayerStack.maxEntries ++
      " layers already active"

/-- An entry of the journal. -/
inductive Signal where
  /-- The host is told something. -/
  | host (event : HostEvent)
  /-- A layer was switched on or off, with the modifiers that are on at that moment. -/
  | layer (id : LayerId) (active : Bool) (modifiers : ModifierSet)
  /-- A key was pressed or released, with what its press resolved to. -/
  | key (key : Key) (action : Action) (pressed : Bool)
  /-- Something was ignored. -/
  | warning (warning : Warning)
  /-- An event is acted on. -/
  | dispatched (event : KeyEvent)
  /-- It was settled how a tap-hold key was meant. -/
  | settled (key : Key) (decision : Decision)
deriving DecidableEq

namespace Signal

/-- What the host is told by a signal. -/
def host? : Signal → Option HostEvent
  | host event => some event
  | _ => none

/-- The warning in a signal. -/
def warning? : Signal → Option Warning
  | warning w => some w
  | _ => none

/-- The event that a signal says is acted on. -/
def dispatched? : Signal → Option KeyEvent
  | dispatched event => some event
  | _ => none

end Signal

/-- All signals so far, in order. -/
abbrev Journal := Array Signal

namespace Journal

/-- What the host was told. -/
def stream (journal : Journal) : List HostEvent := journal.toList.filterMap Signal.host?

/-- The warnings. -/
def warnings (journal : Journal) : List Warning := journal.toList.filterMap Signal.warning?

/-- The events that were acted on. -/
def dispatched (journal : Journal) : List KeyEvent := journal.toList.filterMap Signal.dispatched?

/-- An empty journal has sent nothing to the host. -/
@[simp] theorem stream_empty : stream #[] = [] := rfl

/-- A signal entered in the journal goes to the host last, if it goes there at all. -/
@[simp] theorem stream_push (journal : Journal) (signal : Signal) :
    stream (journal.push signal) = stream journal ++ signal.host?.toList := by
  simp only [stream, Array.toList_push, List.filterMap_append, List.filterMap_cons, List.filterMap_nil]
  cases signal.host? <;> rfl

end Journal

end KeyEngine
