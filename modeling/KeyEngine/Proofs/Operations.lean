import KeyEngine.Proofs.Calls

/-!
# What is on changes only by its own operations

Whatever the engine does, it changes what is on by the operations of `KeyEngine.Holdings` alone.
`Durable.lasting` says so in the form in which it is used: a property that every one of these
operations keeps, and that does not depend on the engine's own notes in the journal, holds of what is on
throughout every run.
-/

namespace KeyEngine

namespace Holdings

/-- A property of what is on that every operation keeps. -/
structure Durable (layers : LayerModifiers) (inv : Holdings → Prop) : Prop where
  /-- Pressing a stroke. -/
  pressStroke : ∀ h stroke, inv h → inv (h.pressStroke stroke)
  /-- Releasing a stroke. -/
  releaseStroke : ∀ h stroke, inv h → inv (h.releaseStroke stroke)
  /-- Pressing and releasing a stroke. -/
  tapStroke : ∀ h stroke, inv h → inv (h.tapStroke stroke)
  /-- Pressing a stroke anew. -/
  retypeStroke : ∀ h stroke, inv h → inv (h.retypeStroke stroke)
  /-- Pressing one of the strokes of a manual-shift key. -/
  pressManualShift : ∀ h unshifted shifted, inv h → inv (h.pressManualShift unshifted shifted)
  /-- Holding modifiers. -/
  holdModifiers : ∀ h set, inv h → inv (h.holdModifiers set)
  /-- Letting go of modifiers. -/
  unholdModifiers : ∀ h set, inv h → inv (h.unholdModifiers set)
  /-- Switching a layer on. -/
  activateLayer : ∀ h id kind, inv h → inv (h.activateLayer layers id kind)
  /-- Taking back a reason for a layer. -/
  deactivateLayer : ∀ h id kind, inv h → inv (h.deactivateLayer layers id kind)
  /-- Doing to one-shot modifiers what their machine answered. -/
  applyOneShotModifiers : ∀ h set change, inv h → inv (h.applyOneShotModifiers set change)
  /-- Releasing everything. -/
  releaseEverything : ∀ h, inv h → inv (h.releaseEverything layers)

/-- A property of what is on that the operations of one-shots keep. -/
structure OneShotDurable (layers : LayerModifiers) (inv : Holdings → Prop) : Prop where
  /-- Doing to a one-shot layer what its machine answered. -/
  applyOneShotLayer : ∀ h id change, inv h → inv (h.applyOneShotLayer layers id change)
  /-- Doing to one-shot modifiers what their machine answered. -/
  applyOneShotModifiers : ∀ h set change, inv h → inv (h.applyOneShotModifiers set change)

namespace OneShotDurable

variable {layers : LayerModifiers} {inv : Holdings → Prop} {h : Holdings}

/-- A transition of one machine keeps what one-shots keep. -/
theorem step (durable : OneShotDurable layers inv) (shots : OneShots) (trigger : Action)
    (f : OneShot → OneShot × Option OneShotChange) (holds : inv h) :
    inv (shots.step h layers trigger f).2 := by
  unfold OneShots.step
  split
  · rename_i set
    cases change : (f (shots.modifiers.get set)).2 with
    | none => simpa [change] using holds
    | some _ => simpa [change] using durable.applyOneShotModifiers _ _ _ holds
  · rename_i id
    cases change : (f (shots.layers.get id)).2 with
    | none => simpa [change] using holds
    | some _ => simpa [change] using durable.applyOneShotLayer _ _ _ holds
  · exact holds

/-- A transition of all machines keeps what one-shots keep. -/
theorem sweep (durable : OneShotDurable layers inv) (shots : OneShots)
    (f : Action → OneShot → OneShot × Option OneShotChange) (holds : inv h) :
    inv (shots.sweep h layers f).2 := by
  unfold OneShots.sweep
  refine List.foldlRecOn _ _ (List.foldlRecOn _ _ holds ?_) ?_
  · exact fun _ holds _ _ => durable.applyOneShotLayer _ _ _ holds
  · exact fun _ holds _ _ => durable.applyOneShotModifiers _ _ _ holds

end OneShotDurable

namespace Durable

variable {layers : LayerModifiers} {inv : Holdings → Prop} {h : Holdings}

/-- What every operation keeps, those of one-shots keep. -/
theorem oneShots (durable : Durable layers inv) : OneShotDurable layers inv where
  applyOneShotLayer h id change holds := by
    cases change with
    | apply => exact durable.activateLayer _ _ _ holds
    | revoke => exact durable.deactivateLayer _ _ _ holds
  applyOneShotModifiers := durable.applyOneShotModifiers

/-- Toggling a layer keeps a durable property. -/
theorem toggleLayer (durable : Durable layers inv) (id : LayerId) (holds : inv h) :
    inv (h.toggleLayer layers id) := by
  unfold Holdings.toggleLayer
  split
  · exact durable.deactivateLayer _ _ _ holds
  · exact durable.activateLayer _ _ _ holds

/-- Holding what an action holds keeps a durable property. -/
theorem holdAction (durable : Durable layers inv) (action : Action) (holds : inv h) :
    inv (h.holdAction layers action) := by
  cases action with
  | modTap => exact durable.holdModifiers _ _ holds
  | layerTap => exact durable.activateLayer _ _ _ holds
  | _ => exact holds

/-- Letting go of what an action holds keeps a durable property. -/
theorem unholdAction (durable : Durable layers inv) (action : Action) (holds : inv h) :
    inv (h.unholdAction layers action) := by
  cases action with
  | modTap => exact durable.unholdModifiers _ _ holds
  | layerTap => exact durable.deactivateLayer _ _ _ holds
  | _ => exact holds

/-- Tapping strokes in a row keeps a durable property. -/
theorem tapStrokes (durable : Durable layers inv) (strokes : List Keystroke) (holds : inv h) :
    inv (h.tapStrokes strokes) :=
  List.foldlRecOn _ _ holds fun _ holds _ _ => durable.tapStroke _ _ holds

end Durable

end Holdings

namespace Holdings.OneShotDurable

variable {p : Profile} {inv : Holdings → Prop} {s : Engine}

/-- A key that uses up the one-shots keeps what their operations keep. -/
theorem consume (durable : OneShotDurable p.layerModifiers inv) (action : Action) (holds : inv s.holdings) :
    inv (s.consume p action).holdings := by
  show inv (s.oneShots.consume s.holdings p.settings p.layerModifiers action).2
  exact durable.sweep _ _ holds

/-- A trigger that goes down keeps what the operations of one-shots keep. -/
theorem pressTrigger (durable : OneShotDurable p.layerModifiers inv) (action : Action) (time : Millis)
    (holds : inv s.holdings) :
    inv (s.mapOneShots (·.press · p.settings p.layerModifiers action time)).holdings := by
  show inv (s.oneShots.press s.holdings p.settings p.layerModifiers action time).2
  exact durable.step _ _ _ holds

/-- A trigger that goes up keeps what the operations of one-shots keep. -/
theorem releaseTrigger (durable : OneShotDurable p.layerModifiers inv) (action : Action) (time : Millis)
    (holds : inv s.holdings) :
    inv (s.mapOneShots (·.release · p.settings p.layerModifiers action time)).holdings := by
  show inv (s.oneShots.release s.holdings p.settings p.layerModifiers action time).2
  exact durable.step _ _ _ holds

/-- Time that passes keeps what the operations of one-shots keep. -/
theorem elapse (durable : OneShotDurable p.layerModifiers inv) (now : Millis) (holds : inv s.holdings) :
    inv (s.mapOneShots (·.tick · p.settings p.layerModifiers now)).holdings := by
  show inv (s.oneShots.tick s.holdings p.settings p.layerModifiers now).2
  exact durable.sweep _ _ holds

end Holdings.OneShotDurable

namespace Holdings.Durable

variable {p : Profile} {inv : Holdings → Prop} {s : Engine}

/-- A tap-hold key that goes down keeps a durable property. -/
theorem pressTapHold (durable : Durable p.layerModifiers inv) (event : KeyEvent) (action : Action)
    (tap : Keystroke) (holds : inv s.holdings) :
    inv (s.pressTapHold p event action tap).2.holdings := by
  unfold Engine.pressTapHold
  split
  · exact durable.oneShots.consume action (durable.pressStroke _ _ holds)
  · exact holds

/-- What the press of an action does keeps a durable property. -/
theorem perform (durable : Durable p.layerModifiers inv) (event : KeyEvent) (action : Action)
    (holds : inv s.holdings) : inv (s.perform p event action).2.holdings := by
  unfold Engine.perform
  cases action with
  | plain stroke =>
    dsimp only
    split
    · exact durable.holdModifiers _ _ holds
    · exact durable.oneShots.consume _ (durable.pressStroke _ _ holds)
  | modTap hold tap => exact durable.pressTapHold _ _ _ holds
  | layerTap layer tap => exact durable.pressTapHold _ _ _ holds
  | oneShotModifier set => exact durable.oneShots.pressTrigger _ _ holds
  | oneShotLayer layer => exact durable.oneShots.pressTrigger _ _ holds
  | manualShift unshifted shifted =>
    exact durable.oneShots.consume _ (durable.pressManualShift _ _ _ holds)
  | macroSequence strokes => exact durable.oneShots.consume _ (durable.tapStrokes _ holds)
  | retype stroke => exact durable.oneShots.consume _ (durable.retypeStroke _ _ holds)
  | momentaryLayer layer => exact durable.activateLayer _ _ _ holds
  | toggleLayer layer => exact durable.toggleLayer _ holds
  | cancel => exact durable.releaseEverything _ holds
  | transparent => exact holds
  | noOp => exact holds

/-- Undoing a press keeps a durable property. -/
theorem undo (durable : Durable p.layerModifiers inv) (event : KeyEvent) (entry : ActiveKey)
    (holds : inv s.holdings) : inv (s.undo p event entry).holdings := by
  obtain ⟨action, state⟩ := entry
  unfold Engine.undo
  cases state with
  | stroke stroke => exact durable.releaseStroke _ _ holds
  | modifiers set => exact durable.unholdModifiers _ _ holds
  | tapped =>
    dsimp only
    cases action.tap? with
    | none => exact holds
    | some tap => exact durable.releaseStroke _ _ holds
  | held => exact durable.unholdAction _ holds
  | pending since => exact holds
  | oneShot => exact durable.oneShots.releaseTrigger _ _ holds
  | layer id => exact durable.deactivateLayer _ _ _ holds
  | inert => exact holds

/-- A durable property that does not depend on the engine's own notes in the journal lasts. -/
theorem lasting (durable : Durable p.layerModifiers inv)
    (noted : ∀ h signal, signal.host? = none → inv h → inv (h.announce signal)) :
    Engine.Lasting p fun s => inv s.holdings where
  dispatch s event _ holds := by
    have holds := noted _ (.dispatched event) rfl holds
    unfold Engine.dispatch
    dsimp only
    split
    · unfold Engine.press
      split
      · exact noted _ (.warning _) rfl holds
      · exact noted _ (.key _ _ _) rfl (durable.perform _ _ holds)
    · unfold Engine.release
      split
      · exact noted _ (.warning _) rfl holds
      · exact noted _ (.key _ _ _) rfl (durable.undo _ _ holds)
  settled s decision head _ holds := by
    have holds := noted _ (.settled head.key decision) rfl holds
    cases decision with
    | hold => exact durable.holdAction _ holds
    | tap =>
      unfold Engine.settled Engine.settle
      dsimp only
      cases head.action.tap? with
      | none => exact holds
      | some tap =>
        dsimp only
        split
        · exact durable.pressStroke _ _ holds
        · exact durable.oneShots.consume _ (durable.pressStroke _ _ holds)
  keptBack _ _ _ _ _ holds := holds
  warn _ _ holds := noted _ (.warning _) rfl holds
  elapse _ _ holds := durable.oneShots.elapse _ holds
  cancel _ holds := durable.releaseEverything _ holds

end Holdings.Durable

end KeyEngine
