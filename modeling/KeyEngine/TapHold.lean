import KeyEngine.Settings
import KeyEngine.KeyEvent

/-!
# Tap-hold keys

A tap-hold key waits until it is known whether it is tapped or held. While it waits, the events of all
other keys are kept back behind it. The module holds the waiting key with those events, the rule by
which an event of another key decides, and the memory of the last tap.
-/

namespace KeyEngine

/-- How a tap-hold key was meant. -/
inductive Decision where
  | tap | hold
deriving DecidableEq

/-- A tap-hold key that waits, with the events kept back behind it. -/
structure PendingKey where
  /-- The key. -/
  key : Key
  /-- Its tap-hold action. -/
  action : Action
  /-- When it went down. -/
  since : Millis
  /-- When it counts as held. -/
  deadline : Millis
  /-- The events of other keys since then, in order. -/
  buffer : List KeyEvent
deriving DecidableEq

namespace PendingKey

/-- A key that starts to wait. -/
def new (key : Key) (action : Action) (time term : Millis) : PendingKey :=
  ⟨key, action, time, time.after term, []⟩

/-- Whether another key went down behind this one. -/
def pressedSince (head : PendingKey) (key : Key) : Bool :=
  head.buffer.any fun e => e.pressed && e.key == key

/-- Keeps an event back. -/
def push (head : PendingKey) (event : KeyEvent) : PendingKey :=
  { head with buffer := head.buffer ++ [event] }

/-- Whether an event that was kept back last decides that the key is held. -/
def interruptedBy (head : PendingKey) (policy : InterruptPolicy) (event : KeyEvent) : Bool :=
  match policy with
  | .holdOnOtherKeyPress => event.pressed
  | .permissiveHold => !event.pressed && head.pressedSince event.key
  | .ignoreInterrupt => false

end PendingKey

/-- A key that was tapped, and when it went up. -/
structure Tap where
  /-- The key. -/
  key : Key
  /-- When it went up. -/
  released : Millis
deriving DecidableEq

/-- The waiting key and the last tap. -/
structure TapHold where
  /-- The key that waits. -/
  head : Option PendingKey
  /-- The last tap of a tap-hold key, unless another key was pressed since. -/
  lastTap : Option Tap
deriving DecidableEq

namespace TapHold

/-- Nothing waits and nothing was tapped. -/
def idle : TapHold := ⟨none, none⟩

/-- Whether a key waits. -/
def isPending (t : TapHold) : Bool := t.head.isSome

/-- A key starts to wait. -/
def begin (t : TapHold) (key : Key) (action : Action) (time term : Millis) : TapHold :=
  { t with head := some (.new key action time term) }

/-- Nothing waits any more. -/
def dropHead (t : TapHold) : TapHold := { t with head := none }

/-- Whether the waiting key counts as held. -/
def isDue (t : TapHold) (now : Millis) : Bool := t.head.any (·.deadline.isDue now)

/-- Keeps an event of another key back, if a key waits; whether that decides that the key is held. -/
def interrupt (t : TapHold) (policy : InterruptPolicy) (event : KeyEvent) : TapHold × Bool :=
  match t.head with
  | none => (t, false)
  | some head =>
    let head := head.push event
    ({ t with head := some head }, head.interruptedBy policy event)

/-- Remembers a tap. -/
def rememberTap (t : TapHold) (key : Key) (released : Millis) : TapHold :=
  { t with lastTap := some ⟨key, released⟩ }

/-- Whether a key was tapped last, and goes down again within the tapping term. -/
def repressed (t : TapHold) (key : Key) (time term : Millis) : Bool :=
  t.lastTap.any fun tap => tap.key == key && decide (time.since tap.released < term)

/-- A key goes down: the tap of any other key no longer counts. -/
def forgetOther (t : TapHold) (key : Key) : TapHold :=
  { t with lastTap := t.lastTap.filter (·.key == key) }

/-- Forgetting a remembered tap leaves the waiting key alone. -/
@[simp] theorem head_forgetOther (t : TapHold) (key : Key) : (t.forgetOther key).head = t.head := rfl

/-- Remembering a tap leaves the waiting key alone. -/
@[simp] theorem head_rememberTap (t : TapHold) (key : Key) (released : Millis) :
    (t.rememberTap key released).head = t.head := rfl

end TapHold

end KeyEngine
