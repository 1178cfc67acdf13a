import KeyEngine.Proofs.Calls

/-!
# Acting on an event

A press does what the action of the key says and notes what its release has to undo; `perform_spec` tells
what that comes to, and is the only place where the actions are told apart for it. The other lemmas say of
the press and the release of a key, and of the settling of a waiting key, how they change each part of the
state, so that later proofs need not unfold them.
-/

namespace KeyEngine

/-- The state of a tap-hold key that was settled. -/
def Decision.state : Decision → KeyState
  | .tap => .tapped
  | .hold => .held

/-- A key that was settled does not wait any more. -/
theorem Decision.state_ne_pending (decision : Decision) (since : Millis) :
    decision.state ≠ .pending since := by
  cases decision <;> exact KeyState.noConfusion

namespace Engine

/-- What the press of an action comes to: the state of the key and the state of the engine. -/
inductive Performed (p : Profile) (event : KeyEvent) (action : Action) (s : Engine) :
    KeyState × Engine → Prop where
  /-- The action was done; nothing waits that did not wait before. -/
  | acted {state : KeyState} {next : Engine} (goes : action ≠ .cancel)
      (settled : ∀ since, state ≠ .pending since) (tapHold : next.tapHold = s.tapHold)
      (active : next.active = s.active) : Performed p event action s (state, next)
  /-- The key waits. -/
  | waits {tap : Keystroke} (dual : action.tap? = some tap) :
      Performed p event action s (.pending event.time,
        { s with tapHold := s.tapHold.begin event.key action event.time p.settings.tappingTerm })
  /-- Everything was dropped and released. -/
  | cancelled (cancels : action = .cancel) : Performed p event action s (.inert, s.cancel p)

/-- A tap-hold key that goes down repeats its tap or starts to wait. -/
theorem pressTapHold_spec (p : Profile) (event : KeyEvent) {action : Action} {tap : Keystroke}
    (dual : action.tap? = some tap) (s : Engine) :
    Performed p event action s (s.pressTapHold p event action tap) := by
  unfold pressTapHold
  split
  · refine .acted ?_ (fun _ => KeyState.noConfusion) rfl rfl
    rintro rfl
    cases dual
  · exact .waits dual

/-- Every press of an action comes to one of these. -/
theorem perform_spec (p : Profile) (event : KeyEvent) (action : Action) (s : Engine) :
    Performed p event action s (s.perform p event action) := by
  unfold perform
  cases action with
  | modTap hold tap => exact pressTapHold_spec p event rfl s
  | layerTap layer tap => exact pressTapHold_spec p event rfl s
  | cancel => exact .cancelled rfl
  | plain stroke =>
    dsimp only
    split <;> exact .acted Action.noConfusion (fun _ => KeyState.noConfusion) rfl rfl
  | _ => exact .acted Action.noConfusion (fun _ => KeyState.noConfusion) rfl rfl

/-- Undoing what a key did does not change which keys are down. -/
theorem active_undo (p : Profile) (event : KeyEvent) (entry : ActiveKey) (s : Engine) :
    (s.undo p event entry).active = s.active := by
  unfold undo
  split <;> (try split) <;> rfl

/-- Settling a waiting key changes its own entry among the keys that are down and no other. -/
theorem active_settled (p : Profile) (decision : Decision) (head : PendingKey) (s : Engine) :
    (s.settled p decision head).active = s.active.setState head.key decision.state := by
  unfold settled settle
  cases decision with
  | hold => rfl
  | tap =>
    dsimp only
    split
    · split <;> rfl
    · rfl

/-- After the waiting key is settled no key waits, and the remembered tap is the same. -/
theorem tapHold_settled (p : Profile) (decision : Decision) (head : PendingKey) (s : Engine) :
    (s.settled p decision head).tapHold = s.tapHold.dropHead :=
  head_settle p decision head _

/-- Performing an action, other than cancel, does not change which keys are down. -/
theorem active_perform (p : Profile) (event : KeyEvent) {action : Action} (goes : action ≠ .cancel)
    (s : Engine) : (s.perform p event action).2.active = s.active := by
  have spec := perform_spec p event action s
  generalize s.perform p event action = result at spec ⊢
  cases spec with
  | acted _ _ _ active => exact active
  | waits => rfl
  | cancelled cancels => exact absurd cancels goes

/-- The state in which a key is about to go down: the tap of any other key no longer counts. -/
def readied (event : KeyEvent) (s : Engine) : Engine :=
  { s with tapHold := s.tapHold.forgetOther event.key }

/-- What the action of a key that goes down comes to. -/
def performed (p : Profile) (event : KeyEvent) (s : Engine) : KeyState × Engine :=
  (s.readied event).perform p event (s.resolve p event.key)

/-- A key that is down already is ignored. -/
theorem press_of_down {p : Profile} {event : KeyEvent} {s : Engine}
    (down : s.active.contains event.key = true) :
    s.press p event = s.warn (.pressedTwice event.key) := by
  rw [press, if_pos down]

/-- A key that was up does what its action says, and is noted with what its release has to undo. -/
theorem press_of_up {p : Profile} {event : KeyEvent} {s : Engine}
    (up : s.active.contains event.key = false) :
    s.press p event =
      { (s.performed p event).2.announce (.key event.key (s.resolve p event.key) true) with
        active := (s.performed p event).2.active.insert event.key
          ⟨s.resolve p event.key, (s.performed p event).1⟩ } := by
  rw [press, if_neg (Bool.eq_false_iff.1 up)]
  rfl

/-- A key that is not down is ignored. -/
theorem release_of_up {p : Profile} {event : KeyEvent} {s : Engine}
    (up : s.active.find? event.key = none) :
    s.release p event = s.warn (.releasedWithoutPress event.key) := by
  rw [release, up]

/-- A key that was down has its press undone, and is forgotten. -/
theorem release_of_down {p : Profile} {event : KeyEvent} {s : Engine} {entry : ActiveKey}
    (down : s.active.find? event.key = some entry) :
    s.release p event = ({ s with active := s.active.remove event.key }.undo p event entry).announce
      (.key event.key entry.action false) := by
  rw [release, down]

end Engine

end KeyEngine
