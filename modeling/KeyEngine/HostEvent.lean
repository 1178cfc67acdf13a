import KeyEngine.Action

/-!
# What the host is told

The keyboard tells the host that codes go down and up, which modifiers are on, and which layers. Three
views say what a stream of such events amounts to: the codes that are down after it, the modifiers that
are on after it, and the layers that are on after it.
-/

namespace KeyEngine

/-- One thing that the host is told. -/
inductive HostEvent where
  /-- A code goes down. -/
  | press (code : KeyCode)
  /-- A code goes up. -/
  | release (code : KeyCode)
  /-- The modifiers that are on from now. -/
  | modifiers (set : ModifierSet)
  /-- A layer was switched on. -/
  | layerOn (id : LayerId)
  /-- A layer was switched off. -/
  | layerOff (id : LayerId)
deriving DecidableEq

namespace HostEvent

/-- The written form of an event. -/
def text : HostEvent → String
  | press code => "press " ++ code.name
  | release code => "release " ++ code.name
  | modifiers set => "mods " ++ set.text
  | layerOn id => "layer " ++ toString id.toNat ++ " on"
  | layerOff id => "layer " ++ toString id.toNat ++ " off"

/-- The codes that are down after an event, if `down` were before it; the one pressed last comes
last. -/
def pressedAfter (down : List KeyCode) : HostEvent → List KeyCode
  | press code => down ++ [code]
  | release code => down.erase code
  | _ => down

/-- The modifiers that are on after an event. -/
def modifiersAfter (on : ModifierSet) : HostEvent → ModifierSet
  | modifiers set => set
  | _ => on

/-- The layers that are on after an event. -/
def layersAfter (on : List LayerId) : HostEvent → List LayerId
  | layerOn id => on ++ [id]
  | layerOff id => on.erase id
  | _ => on

/-- The codes that are down after a stream of events, in the order of their presses. -/
def pressed (stream : List HostEvent) : List KeyCode := stream.foldl pressedAfter []

/-- The modifiers that are on after a stream of events. -/
def lastModifiers (stream : List HostEvent) : ModifierSet := stream.foldl modifiersAfter ∅

/-- The layers that are on after a stream of events. -/
def layersOn (stream : List HostEvent) : List LayerId := stream.foldl layersAfter []

end HostEvent

end KeyEngine
