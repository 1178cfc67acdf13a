import KeyEngine.Action
import KeyEngine.Millis

/-!
# Settings of the engine

How long a dual-role key waits, how it reacts to other keys, and how one-shots end.
-/

namespace KeyEngine

/-- How a waiting tap-hold key reacts to other keys. -/
inductive InterruptPolicy where
  /-- Another key that is pressed and released in the meantime means hold. -/
  | permissiveHold
  /-- Only time and the key's own release decide. -/
  | ignoreInterrupt
  /-- Another key that is pressed means hold. -/
  | holdOnOtherKeyPress
deriving DecidableEq

/-- What can be set. -/
structure Settings where
  /-- How long a tap may last. -/
  tappingTerm : Millis
  /-- How a waiting tap-hold key reacts to other keys. -/
  policy : InterruptPolicy
  /-- Whether a key that was just tapped may be held at once; otherwise it repeats its tap. -/
  tappingForceHold : Bool
  /-- How many taps keep a one-shot on; 0 for never. -/
  tapToggle : UInt8
  /-- How long a one-shot waits for a key; 0 for no limit. -/
  oneShotTimeout : Millis
  /-- The actions that no one-shot counts as its key. -/
  ignored : List Action
  /-- Further such actions, by the trigger of the one-shot. -/
  ignoredBy : List (Action × List Action)
deriving DecidableEq

namespace Settings

/-- The settings of an engine that is not configured. -/
def standard : Settings where
  tappingTerm := .ofWord 200
  policy := .permissiveHold
  tappingForceHold := true
  tapToggle := 3
  oneShotTimeout := .ofWord 2000
  ignored := []
  ignoredBy := []

/-- Whether an action is not counted as the key that the one-shot of `trigger` waits for. -/
def ignores (s : Settings) (trigger action : Action) : Bool :=
  s.ignored.contains action ||
    s.ignoredBy.any fun entry => entry.1 == trigger && entry.2.contains action

/-- A one-shot ignores an action when the list for all triggers has it or the list for its own trigger
does. -/
theorem ignores_iff {s : Settings} {trigger action : Action} :
    s.ignores trigger action = true ↔
      action ∈ s.ignored ∨ ∃ list, (trigger, list) ∈ s.ignoredBy ∧ action ∈ list := by
  simp only [ignores, Bool.or_eq_true, List.contains_iff_mem, List.any_eq_true, Bool.and_eq_true,
    beq_iff_eq]
  constructor
  · rintro (h | ⟨⟨t, list⟩, hm, rfl, ha⟩)
    · exact .inl h
    · exact .inr ⟨list, hm, ha⟩
  · rintro (h | ⟨list, hm, ha⟩)
    · exact .inl h
    · exact .inr ⟨_, hm, rfl, ha⟩

end Settings

end KeyEngine
