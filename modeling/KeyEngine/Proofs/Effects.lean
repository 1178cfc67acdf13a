import KeyEngine.Proofs.Accounts
import KeyEngine.Proofs.Latch

/-!
# What a deed does to layers and one-shots

A layer is on for reasons, each of one kind, and one-shot modifiers are counted apart from all others.
Most operations touch neither. The lemmas say which reasons each operation enters or takes back, and
`effect_spec`, `undone_spec` and `settlement_spec` list what the press of an action, its release and the
settling of a waiting key come to in these terms, so that later proofs need not tell the actions apart.
-/

namespace KeyEngine

/-- Whether an action turns on a one-shot. -/
def Action.isTrigger : Action → Bool
  | .oneShotModifier _ | .oneShotLayer _ => true
  | _ => false

namespace Holdings

/-- The layers that are on for reasons of a kind are the same. -/
def SameReasons (kind : Activation) (h next : Holdings) : Prop :=
  ∀ id, ⟨id, kind⟩ ∈ next.layers.entries ↔ ⟨id, kind⟩ ∈ h.layers.entries

namespace SameReasons

variable {kind : Activation} {h next last : Holdings}

/-- The same layers are on for the same reasons of every kind. -/
theorem of_layers (same : next.layers = h.layers) : SameReasons kind h next := fun id => by rw [same]

/-- Reasons that two operations in a row leave alone are the same after both. -/
theorem trans (first : SameReasons kind h next) (second : SameReasons kind next last) :
    SameReasons kind h last :=
  fun id => (second id).trans (first id)

end SameReasons

variable {h : Holdings} {lm : LayerModifiers} {kind : Activation}

/-- Turning a layer on for one reason leaves the reasons of another kind. -/
theorem sameReasons_activateLayer {id : LayerId} {why : Activation} (differs : kind ≠ why) :
    SameReasons kind h (h.activateLayer lm id why) := by
  intro other
  rw [layers_activateLayer]
  exact LayerStack.mem_activate_of_ne (by simp [differs])

/-- Turning a layer off for one reason leaves the reasons of another kind. -/
theorem sameReasons_deactivateLayer {id : LayerId} {why : Activation} (differs : kind ≠ why) :
    SameReasons kind h (h.deactivateLayer lm id why) := by
  intro other
  rw [layers_deactivateLayer, LayerStack.mem_deactivate]
  simp [differs]

/-- Toggling a layer leaves the reasons of every other kind. -/
theorem sameReasons_toggleLayer {id : LayerId} (differs : kind ≠ .toggled) :
    SameReasons kind h (h.toggleLayer lm id) := by
  unfold toggleLayer
  split
  · exact sameReasons_deactivateLayer differs
  · exact sameReasons_activateLayer differs

/-- A layer that goes on brings no one-shot modifier. -/
theorem oneShot_activateLayer (id : LayerId) (why : Activation) :
    (h.activateLayer lm id why).modifiers.oneShot = h.modifiers.oneShot := by
  rw [modifiers_activateLayer]

/-- A layer that goes off takes no one-shot modifier with it. -/
theorem oneShot_deactivateLayer (id : LayerId) (why : Activation) :
    (h.deactivateLayer lm id why).modifiers.oneShot = h.modifiers.oneShot := by
  rw [modifiers_deactivateLayer]

/-- One-shot modifiers do not turn layers on or off. -/
theorem layers_applyOneShotModifiers (set : ModifierSet) (change : OneShotChange) :
    (h.applyOneShotModifiers set change).layers = h.layers := by
  cases change <;> simp [applyOneShotModifiers]

/-- Both layers and one-shot modifiers are as they were. -/
structure Alike (h next : Holdings) : Prop where
  /-- The layers are the same, for the same reasons. -/
  layers : next.layers = h.layers
  /-- The one-shot modifiers are counted the same. -/
  oneShot : next.modifiers.oneShot = h.modifiers.oneShot

namespace Alike

variable {next last : Holdings}

/-- Layers and one-shot modifiers are alike where nothing happens. -/
theorem refl (h : Holdings) : h.Alike h := ⟨rfl, rfl⟩

/-- Two operations in a row that leave layers and one-shot modifiers alike do so together. -/
theorem trans (first : h.Alike next) (second : next.Alike last) : h.Alike last :=
  ⟨second.layers.trans first.layers, second.oneShot.trans first.oneShot⟩

/-- A note in the journal leaves layers and one-shot modifiers alike. -/
theorem announce (h : Holdings) (signal : Signal) : h.Alike (h.announce signal) := ⟨rfl, rfl⟩

/-- Holding modifiers leaves layers and one-shot modifiers alike. -/
theorem holdModifiers (set : ModifierSet) : h.Alike (h.holdModifiers set) := by
  constructor <;> simp [Holdings.holdModifiers, ModifierState.hold]

/-- Letting modifiers go leaves layers and one-shot modifiers alike. -/
theorem unholdModifiers (set : ModifierSet) : h.Alike (h.unholdModifiers set) := by
  constructor <;> simp [Holdings.unholdModifiers, ModifierState.unhold]

end Alike

/-- Strokes were pressed or released, which leaves the held modifiers as they were as well. -/
structure Typed (h next : Holdings) : Prop extends h.Alike next where
  /-- The held modifiers are counted the same. -/
  held : next.modifiers.held = h.modifiers.held

namespace Typed

variable {next last : Holdings}

/-- Typing nothing leaves everything as it was. -/
theorem refl (h : Holdings) : h.Typed h := ⟨.refl h, rfl⟩

/-- Typing in two steps is typing. -/
theorem trans (first : h.Typed next) (second : next.Typed last) : h.Typed last :=
  ⟨first.toAlike.trans second.toAlike, second.held.trans first.held⟩

/-- A stroke that is pressed was typed. -/
theorem pressStroke (stroke : Keystroke) : h.Typed (h.pressStroke stroke) := by
  refine ⟨⟨?_, ?_⟩, ?_⟩ <;> simp [Holdings.pressStroke, ModifierState.attach]

/-- A stroke that is released was typed. -/
theorem releaseStroke (stroke : Keystroke) : h.Typed (h.releaseStroke stroke) := by
  refine ⟨⟨?_, ?_⟩, ?_⟩ <;> simp [Holdings.releaseStroke, ModifierState.detach]

/-- Strokes that are tapped in a row were typed. -/
theorem tapStrokes (strokes : List Keystroke) : h.Typed (h.tapStrokes strokes) := by
  refine List.foldlRecOn strokes Holdings.tapStroke (refl h) fun next typed stroke _ => ?_
  refine typed.trans ⟨⟨?_, ?_⟩, ?_⟩ <;>
    simp [tapStroke, ModifierState.attach, ModifierState.detach]

/-- A stroke that is typed anew was typed. -/
theorem retypeStroke (stroke : Keystroke) : h.Typed (h.retypeStroke stroke) := by
  refine ⟨⟨?_, ?_⟩, ?_⟩ <;> simp [Holdings.retypeStroke, ModifierState.attach]

/-- A manual-shift key types one of its strokes. -/
theorem pressManualShift (unshifted shifted : Keystroke) :
    h.Typed (h.pressManualShift unshifted shifted) := by
  unfold Holdings.pressManualShift
  dsimp only
  split
  · exact pressStroke unshifted
  · refine ⟨⟨?_, ?_⟩, ?_⟩ <;>
      simp [Holdings.pressStroke, ModifierState.attach, ModifierState.suppress,
        ModifierState.unsuppress]

end Typed

/-- Types the strokes of an action. -/
def types (h : Holdings) : Action → Holdings
  | .plain stroke => h.pressStroke stroke
  | .modTap _ tap | .layerTap _ tap => h.pressStroke tap
  | .manualShift unshifted shifted => h.pressManualShift unshifted shifted
  | .macroSequence strokes => h.tapStrokes strokes
  | .retype stroke => h.retypeStroke stroke
  | _ => h

/-- A tap-hold action types its tap. -/
theorem types_of_dual {action : Action} {tap : Keystroke} (dual : action.tap? = some tap) :
    h.types action = h.pressStroke tap := by
  cases action with
  | modTap hold stroke => cases dual; rfl
  | layerTap id stroke => cases dual; rfl
  | _ => cases dual

/-- What is true of doing nothing and of every way to type strokes is true of typing those of an action. -/
theorem types_induction {motive : (Holdings → Holdings) → Prop} (nothing : motive fun h => h)
    (press : ∀ stroke, motive (·.pressStroke stroke))
    (manual : ∀ unshifted shifted, motive (·.pressManualShift unshifted shifted))
    (tap : ∀ strokes, motive (·.tapStrokes strokes))
    (retype : ∀ stroke, motive (·.retypeStroke stroke)) (action : Action) :
    motive (·.types action) := by
  cases action with
  | plain stroke => exact press stroke
  | modTap hold stroke => exact press stroke
  | layerTap id stroke => exact press stroke
  | manualShift unshifted shifted => exact manual unshifted shifted
  | macroSequence strokes => exact tap strokes
  | retype stroke => exact retype stroke
  | _ => exact nothing

/-- Typing the strokes of an action leaves layers, one-shot and held modifiers as they were. -/
theorem Typed.types (action : Action) : h.Typed (h.types action) :=
  types_induction (motive := fun f => h.Typed (f h)) (.refl h) .pressStroke .pressManualShift .tapStrokes
    .retypeStroke action

/-- Typing the strokes of an action leaves layers and one-shot modifiers alike. -/
theorem Alike.types (action : Action) : h.Alike (h.types action) := (Typed.types action).toAlike

/-- Typing the strokes of an action adds to the journal nothing that is said of presses. -/
theorem Appends.types (action : Action) : Appends (·.types action) h :=
  types_induction (motive := (Appends · h)) .nothing (fun stroke => .pressStroke stroke)
    (fun unshifted shifted => .pressManualShift unshifted shifted) (fun strokes => .tapStrokes strokes)
    (fun stroke => .retypeStroke stroke) action

end Holdings

namespace Engine

variable {p : Profile} {event : KeyEvent} {s : Engine}

/-- What the press of an action comes to: the state of the key, and what is done. -/
inductive Effect (p : Profile) (event : KeyEvent) (s : Engine) : Action → KeyState × Engine → Prop where
  /-- Strokes are typed, which counts for the one-shots. -/
  | types {action : Action} {state : KeyState} (counts : s.countsOn p event action = true)
      (low : (ActiveKey.mk action state).layer? = none) :
      Effect p event s action (state, (s.mapHoldings (·.types action)).consume p action)
  /-- A trigger goes down. -/
  | triggers {action : Action} (starts : action.isTrigger = true) : Effect p event s action
      (.oneShot, s.mapOneShots (·.press · p.settings p.layerModifiers action event.time))
  /-- A modifier is held. -/
  | holds {stroke : Keystroke} (bare : stroke.isModifierOnly = true) : Effect p event s (.plain stroke)
      (.modifiers stroke.code.modifierBit, s.mapHoldings (·.holdModifiers stroke.code.modifierBit))
  /-- A layer is held. -/
  | takes (id : LayerId) : Effect p event s (.momentaryLayer id)
      (.layer id, s.mapHoldings (·.activateLayer p.layerModifiers id .held))
  /-- A layer is switched on until it is switched off, or off. -/
  | toggles (id : LayerId) : Effect p event s (.toggleLayer id)
      (.inert, s.mapHoldings (·.toggleLayer p.layerModifiers id))
  /-- Everything is dropped and released. -/
  | cancels : Effect p event s .cancel (.inert, s.cancel p)
  /-- Nothing is done, though a key may wait from now on. -/
  | waits {action : Action} {state : KeyState} (tapHold : TapHold)
      (silent : s.countsOn p event action = false) (low : (ActiveKey.mk action state).layer? = none) :
      Effect p event s action (state, { s with tapHold })

/-- A tap-hold key that goes down types its tap, which counts, or concerns nothing yet. -/
theorem effect_pressTapHold {action : Action} {tap : Keystroke} (dual : action.tap? = some tap)
    (counts : s.countsOn p event action = s.repeatsTap p event) :
    Effect p event s action (s.pressTapHold p event action tap) := by
  unfold pressTapHold
  split
  · rename_i again
    have typed : s.mapHoldings (·.pressStroke tap) = s.mapHoldings (·.types action) := by
      simp only [mapHoldings, Holdings.types_of_dual dual]
    rw [typed]
    exact .types (counts.trans again) rfl
  · rename_i fresh
    exact .waits _ (counts.trans (Bool.eq_false_iff.2 fresh)) rfl

/-- Every press of an action comes to one of these. -/
theorem effect_spec (p : Profile) (event : KeyEvent) (action : Action) (s : Engine) :
    Effect p event s action (s.perform p event action) := by
  cases action with
  | plain stroke =>
    unfold perform
    dsimp only
    split
    · rename_i bare
      exact .holds bare
    · rename_i types
      exact .types (by simp [countsOn, types]) rfl
  | modTap hold tap => exact effect_pressTapHold rfl rfl
  | layerTap id tap => exact effect_pressTapHold rfl rfl
  | oneShotModifier set => exact .triggers rfl
  | oneShotLayer id => exact .triggers rfl
  | manualShift unshifted shifted => exact .types rfl rfl
  | macroSequence strokes => exact .types rfl rfl
  | retype stroke => exact .types rfl rfl
  | momentaryLayer id => exact .takes id
  | toggleLayer id => exact .toggles id
  | cancel => exact .cancels
  | transparent => exact .waits s.tapHold rfl rfl
  | noOp => exact .waits s.tapHold rfl rfl

/-- An action that counts for the one-shots types its strokes, and then they are told. -/
theorem perform_of_counts {action : Action} (counts : s.countsOn p event action = true) :
    (s.perform p event action).2 = (s.mapHoldings (·.types action)).consume p action := by
  have spec := effect_spec p event action s
  generalize s.perform p event action = result at spec ⊢
  cases spec with
  | types => rfl
  | triggers starts =>
    cases action with
    | oneShotModifier set => cases counts
    | oneShotLayer id => cases counts
    | _ => cases starts
  | holds bare =>
    rw [countsOn, bare] at counts
    cases counts
  | takes id => cases counts
  | toggles id => cases counts
  | cancels => cases counts
  | waits _ silent => exact absurd (silent.symm.trans counts) Bool.false_ne_true

/-- What undoing a press comes to. -/
inductive Undone (p : Profile) (event : KeyEvent) (entry : ActiveKey) (s : Engine) : Engine → Prop where
  /-- A layer is let go. -/
  | lets (id : LayerId) (held : entry.layer? = some id) :
      Undone p event entry s (s.mapHoldings (·.deactivateLayer p.layerModifiers id .held))
  /-- A trigger goes up. -/
  | lifts (pressed : entry.state = .oneShot) : Undone p event entry s
      (s.mapOneShots (·.release · p.settings p.layerModifiers entry.action event.time))
  /-- Neither layers nor one-shots are concerned. -/
  | frees {next : Engine} (low : entry.layer? = none) (alike : s.holdings.Alike next.holdings)
      (oneShots : next.oneShots = s.oneShots) : Undone p event entry s next

/-- Undoing a press always comes to one of these. -/
theorem undone_spec (p : Profile) (event : KeyEvent) (entry : ActiveKey) (s : Engine) :
    Undone p event entry s (s.undo p event entry) := by
  obtain ⟨action, state⟩ := entry
  cases state with
  | stroke stroke => exact .frees rfl (Holdings.Typed.releaseStroke stroke).toAlike rfl
  | modifiers set => exact .frees rfl (.unholdModifiers set) rfl
  | tapped =>
    unfold undo
    dsimp only
    cases action.tap? with
    | none => exact .frees rfl (.refl _) rfl
    | some tap => exact .frees rfl (Holdings.Typed.releaseStroke tap).toAlike rfl
  | held =>
    cases action with
    | modTap hold tap => exact .frees rfl (.unholdModifiers hold) rfl
    | layerTap id tap => exact .lets id rfl
    | _ => exact .frees rfl (.refl _) rfl
  | pending since => exact .frees rfl (.refl _) rfl
  | oneShot => exact .lifts rfl
  | layer id => exact .lets id rfl
  | inert => exact .frees rfl (.refl _) rfl

/-- The state in which the waiting key was noted as settled, and nothing was done yet. -/
def marked (decision : Decision) (head : PendingKey) (s : Engine) : Engine where
  holdings := s.holdings.announce (.settled head.key decision)
  tapHold := s.tapHold.dropHead
  oneShots := s.oneShots
  active := s.active.setState head.key decision.state

/-- What settling a waiting key comes to. -/
inductive Settlement (p : Profile) (head : PendingKey) (s : Engine) : Decision → Engine → Prop where
  /-- Its tap is typed, which counts for the one-shots. -/
  | types (counts : head.counts = true) : Settlement p head s .tap
      (((s.marked .tap head).mapHoldings (·.types head.action)).consume p head.action)
  /-- It holds a layer. -/
  | takes (id : LayerId) (held : (ActiveKey.mk head.action .held).layer? = some id) :
      Settlement p head s .hold
        ((s.marked .hold head).mapHoldings (·.activateLayer p.layerModifiers id .held))
  /-- Neither layers nor one-shots are concerned. -/
  | spares {decision : Decision} {next : Engine} (silent : decision = .tap → head.counts = false)
      (low : (ActiveKey.mk head.action decision.state).layer? = none)
      (alike : s.holdings.Alike next.holdings) (oneShots : next.oneShots = s.oneShots) :
      Settlement p head s decision next

/-- Settling a waiting key always comes to one of these. -/
theorem settlement_spec (p : Profile) (decision : Decision) (head : PendingKey) (s : Engine) :
    Settlement p head s decision (s.settled p decision head) := by
  have noted : s.holdings.Alike (s.marked decision head).holdings := .announce _ _
  cases decision with
  | hold =>
    show Settlement p head s .hold ((s.marked .hold head).mapHoldings
      (·.holdAction p.layerModifiers head.action))
    cases means : head.action with
    | modTap hold tap => exact .spares nofun (by rw [means]; rfl) (noted.trans (.holdModifiers hold)) rfl
    | layerTap id tap => exact .takes id (by rw [means]; rfl)
    | _ => exact .spares nofun (by rw [means]; rfl) noted rfl
  | tap =>
    unfold settled settle
    dsimp only
    split
    · rename_i tap dual
      split
      · rename_i bare
        exact .spares (fun _ => by simp [PendingKey.counts, dual, bare]) rfl
          (noted.trans (Holdings.Typed.pressStroke tap).toAlike) rfl
      · rename_i types
        have counts : head.counts = true := by simp [PendingKey.counts, dual, types]
        have typed : (s.marked .tap head).mapHoldings (·.pressStroke tap) =
            (s.marked .tap head).mapHoldings (·.types head.action) := by
          simp only [mapHoldings, Holdings.types_of_dual dual]
        show Settlement p head s .tap
          (((s.marked .tap head).mapHoldings (·.pressStroke tap)).consume p head.action)
        rw [typed]
        exact .types counts
    · rename_i single
      exact .spares (fun _ => by simp [PendingKey.counts, single]) rfl noted rfl

end Engine

end KeyEngine
