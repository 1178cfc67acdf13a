import KeyEngine.Modifier.State
import KeyEngine.Register
import KeyEngine.Signal

/-!
# What the keyboard holds

The holdings are everything that is on at a moment: modifiers with their counts, layers, pressed codes,
and the modifiers that the host was last told. The operations of this module are all that ever changes
them. Each tells the host what it has to know: a code after the modifiers that belong to it, and the
modifiers only when they differ from those last told.
-/

namespace KeyEngine

/-- The modifiers that some layers hold while they are on. -/
structure LayerModifiers where
  /-- The layers with their modifiers, each layer at most once. -/
  sets : List (LayerId × ModifierSet)
deriving DecidableEq

namespace LayerModifiers

/-- No layer holds modifiers. -/
def none : LayerModifiers := ⟨[]⟩

/-- Whether no layer holds modifiers. -/
def isEmpty (m : LayerModifiers) : Bool := m.sets.isEmpty

/-- The modifiers that a layer holds. -/
def find? (m : LayerModifiers) (id : LayerId) : Option ModifierSet := m.sets.lookup id

/-- Gives a layer its modifiers, in place of those it had. -/
def insert (m : LayerModifiers) (id : LayerId) (set : ModifierSet) : LayerModifiers :=
  ⟨(id, set) :: m.sets.filter (·.1 != id)⟩

/-- The modifiers of several layers; the last word on a layer counts. -/
def ofList (entries : List (LayerId × ModifierSet)) : LayerModifiers :=
  entries.foldl (fun m entry => m.insert entry.1 entry.2) none

end LayerModifiers

/-- Everything that is on. -/
structure Holdings where
  /-- The modifiers, by where they come from. -/
  modifiers : ModifierState
  /-- The layers. -/
  layers : LayerStack
  /-- The codes. -/
  register : Register
  /-- The modifiers that the host was last told. -/
  sent : ModifierSet
  /-- What happened so far. -/
  journal : Journal
deriving DecidableEq

namespace Holdings

/-- Nothing is on. -/
def empty : Holdings := ⟨.empty, .empty, .empty, ∅, #[]⟩

/-- The modifiers that the host should see. -/
def effective (h : Holdings) : ModifierSet := h.modifiers.effective

/-- Adds a signal to the journal. -/
def announce (h : Holdings) (signal : Signal) : Holdings :=
  { h with journal := h.journal.push signal }

/-- Tells the host something. -/
def tell (h : Holdings) (event : HostEvent) : Holdings := h.announce (.host event)

/-- Warns about something that was ignored. -/
def warn (h : Holdings) (warning : Warning) : Holdings := h.announce (.warning warning)

/-- Changes the modifiers, without telling the host. -/
def mapModifiers (h : Holdings) (f : ModifierState → ModifierState) : Holdings :=
  { h with modifiers := f h.modifiers }

/-- Tells the host the modifiers if they differ from those it was last told. -/
def sync (h : Holdings) : Holdings :=
  if h.effective = h.sent then h
  else { h with sent := h.effective }.tell (.modifiers h.effective)

/-- Changes the register and tells the host what follows from it. -/
def mapRegister (h : Holdings) (f : Register → Register × List HostEvent) : Holdings :=
  let (register, events) := f h.register
  events.foldl tell { h with register }

/-- Changes the register for the code of a stroke; a modifier key has no place in the register. -/
def mapCode (h : Holdings) (stroke : Keystroke)
    (f : Register → KeyCode → Register × List HostEvent) : Holdings :=
  if stroke.code.isModifier then h else h.mapRegister (f · stroke.code)

/-- Turns on the modifiers of a stroke. -/
def attach (h : Holdings) (stroke : Keystroke) : Holdings :=
  (h.mapModifiers (·.attach stroke.allModifiers)).sync

/-- Turns off the modifiers of a stroke. -/
def detach (h : Holdings) (stroke : Keystroke) : Holdings :=
  (h.mapModifiers (·.detach stroke.allModifiers)).sync

/-- Presses a stroke: its modifiers, then its code. -/
def pressStroke (h : Holdings) (stroke : Keystroke) : Holdings :=
  (h.attach stroke).mapCode stroke Register.press

/-- Releases a stroke: its code, then its modifiers. -/
def releaseStroke (h : Holdings) (stroke : Keystroke) : Holdings :=
  (h.mapCode stroke Register.release).detach stroke

/-- Presses and releases a stroke. -/
def tapStroke (h : Holdings) (stroke : Keystroke) : Holdings :=
  ((h.attach stroke).mapCode stroke Register.tap).detach stroke

/-- Presses a stroke such that the host sees a fresh press. -/
def retypeStroke (h : Holdings) (stroke : Keystroke) : Holdings :=
  (h.attach stroke).mapCode stroke Register.retype

/-- Taps strokes in order. -/
def tapStrokes (h : Holdings) (strokes : List Keystroke) : Holdings := strokes.foldl tapStroke h

/-- The shift modifiers that are on. -/
def shiftOn (h : Holdings) : ModifierSet := h.effective ∩ .shift

/-- The stroke of a manual-shift key: the second one while shift is on. -/
def chooseShifted (h : Holdings) (unshifted shifted : Keystroke) : Keystroke :=
  if h.shiftOn.isEmpty then unshifted else shifted

/-- Presses the stroke of a manual-shift key, with shift masked while its code goes down. -/
def pressManualShift (h : Holdings) (unshifted shifted : Keystroke) : Holdings :=
  let shift := h.shiftOn
  if shift.isEmpty then h.pressStroke unshifted
  else
    (((h.mapModifiers (·.suppress shift)).pressStroke shifted).mapModifiers (·.unsuppress shift)).sync

/-- Holds modifiers. -/
def holdModifiers (h : Holdings) (set : ModifierSet) : Holdings := (h.mapModifiers (·.hold set)).sync

/-- Takes back one hold of modifiers. -/
def unholdModifiers (h : Holdings) (set : ModifierSet) : Holdings :=
  (h.mapModifiers (·.unhold set)).sync

/-- Counts the modifiers of a layer as held, or no longer. -/
def mapLayerModifiers (h : Holdings) (layers : LayerModifiers) (id : LayerId) (active : Bool) :
    Holdings :=
  match layers.find? id with
  | none => h
  | some set => h.mapModifiers fun m => if active then m.hold set else m.unhold set

/-- What follows from a layer that was switched on or off. -/
def layerChanged (h : Holdings) (layers : LayerModifiers) (id : LayerId) (active : Bool) : Holdings :=
  let h := (h.tell (if active then .layerOn id else .layerOff id)).mapLayerModifiers layers id active
  (h.announce (.layer id active h.effective)).sync

/-- Switches a layer on for a reason. -/
def activateLayer (h : Holdings) (layers : LayerModifiers) (id : LayerId) (kind : Activation) :
    Holdings :=
  match h.layers.activate id kind with
  | (stack, .opened) => { h with layers := stack }.layerChanged layers id true
  | (stack, .kept) => { h with layers := stack }
  | (stack, .refused) => { h with layers := stack }.warn (.layerRefused id)

/-- Takes back a reason for a layer. -/
def deactivateLayer (h : Holdings) (layers : LayerModifiers) (id : LayerId) (kind : Activation) :
    Holdings :=
  match h.layers.deactivate id kind with
  | (stack, true) => { h with layers := stack }.layerChanged layers id false
  | (stack, false) => { h with layers := stack }

/-- Switches a layer on until it is switched off, or off if it is on for that reason. -/
def toggleLayer (h : Holdings) (layers : LayerModifiers) (id : LayerId) : Holdings :=
  if h.layers.contains id .toggled then h.deactivateLayer layers id .toggled
  else h.activateLayer layers id .toggled

/-- Does what a tap-hold key does when it is held. -/
def holdAction (h : Holdings) (layers : LayerModifiers) : Action → Holdings
  | .modTap hold _ => h.holdModifiers hold
  | .layerTap layer _ => h.activateLayer layers layer .held
  | _ => h

/-- Undoes what a tap-hold key does when it is held. -/
def unholdAction (h : Holdings) (layers : LayerModifiers) : Action → Holdings
  | .modTap hold _ => h.unholdModifiers hold
  | .layerTap layer _ => h.deactivateLayer layers layer .held
  | _ => h

/-- Switches every layer off, then drops every modifier, then releases every code. -/
def releaseEverything (h : Holdings) (layers : LayerModifiers) : Holdings :=
  let cleared := h.layers.clear
  let off := cleared.2.foldl (fun h id => h.layerChanged layers id false)
    { h with layers := cleared.1 }
  ((off.mapModifiers fun _ => .empty).mapRegister Register.releaseAll).sync

/-- After telling the host, what it was told are the modifiers that it should see. -/
theorem sent_sync (h : Holdings) : h.sync.sent = h.effective := by
  unfold sync
  split
  · simp_all
  · rfl

/-- Reporting the modifiers to the host does not change which of them are in force. -/
@[simp] theorem effective_sync (h : Holdings) : h.sync.effective = h.effective := by
  unfold sync
  split <;> rfl

end Holdings

end KeyEngine
