import KeyEngine.Proofs.KeysDown
import KeyEngine.Proofs.Operations
import KeyEngine.Proofs.Verdicts

/-!
# A keyboard that never waits

On a direct keyboard every event is acted on at once, in the order of arrival. It has no one-shots and
cannot be cancelled. When a tap-hold key goes down, the keyboard has to be told at once how the press will
end, so it reads verdicts along with the events; it stops if the next verdict is about another press.
-/

namespace KeyEngine

/-- A keyboard that never waits: what is on, and the keys that are down. -/
structure Direct where
  /-- What is on. -/
  holdings : Holdings
  /-- The keys that are down. -/
  active : ActiveKeys

namespace Direct

/-- Nothing was pressed yet. -/
def start : Direct := ⟨.empty, .empty⟩

/-- Does what the press of an action with one meaning does, and says what its release has to undo. -/
def perform (p : Profile) (action : Action) (h : Holdings) : KeyState × Holdings :=
  match action with
  | .plain stroke =>
    if stroke.isModifierOnly then
      (.modifiers stroke.code.modifierBit, h.holdModifiers stroke.code.modifierBit)
    else (.stroke stroke, h.pressStroke stroke)
  | .manualShift unshifted shifted =>
    (.stroke (h.chooseShifted unshifted shifted), h.pressManualShift unshifted shifted)
  | .macroSequence strokes => (.inert, h.tapStrokes strokes)
  | .retype stroke => (.stroke stroke, h.retypeStroke stroke)
  | .momentaryLayer id => (.layer id, h.activateLayer p.layerModifiers id .held)
  | .toggleLayer id => (.inert, h.toggleLayer p.layerModifiers id)
  | _ => (.inert, h)

/-- Does what the press of a tap-hold action does, given how it was meant. -/
def settle (p : Profile) (action : Action) (tap : Keystroke) (decision : Decision) (h : Holdings) :
    KeyState × Holdings :=
  match decision with
  | .tap => (.tapped, h.pressStroke tap)
  | .hold => (.held, h.holdAction p.layerModifiers action)

/-- Undoes what the press of a key did. -/
def undo (p : Profile) (entry : ActiveKey) (h : Holdings) : Holdings :=
  match entry.state with
  | .stroke stroke => h.releaseStroke stroke
  | .modifiers set => h.unholdModifiers set
  | .tapped =>
    match entry.action.tap? with
    | some tap => h.releaseStroke tap
    | none => h
  | .held => h.unholdAction p.layerModifiers entry.action
  | .layer id => h.deactivateLayer p.layerModifiers id .held
  | _ => h

/-- A key is noted as down, with what its press came to. -/
def enter (d : Direct) (key : Key) (action : Action) (result : KeyState × Holdings) : Direct :=
  ⟨result.2, d.active.insert key ⟨action, result.1⟩⟩

/-- A key goes down. A key that is down already is ignored; a tap-hold key takes the next verdict. -/
def press (p : Profile) (event : KeyEvent) (d : Direct) (verdicts : List Verdict) :
    Option (Direct × List Verdict) :=
  if d.active.contains event.key then some (d, verdicts)
  else
    let action := d.holdings.layers.resolve p.keymap event.key
    match action.tap?, verdicts with
    | none, verdicts => some (d.enter event.key action (perform p action d.holdings), verdicts)
    | some _, [] => none
    | some tap, verdict :: rest =>
      if verdict.event = event then
        some (d.enter event.key action (settle p action tap verdict.decision d.holdings), rest)
      else none

/-- A key goes up. A key that is not down is ignored. -/
def release (p : Profile) (key : Key) (d : Direct) : Direct :=
  match d.active.find? key with
  | none => d
  | some entry => ⟨undo p entry d.holdings, d.active.remove key⟩

/-- Takes an event. -/
def take (p : Profile) (event : KeyEvent) (d : Direct) (verdicts : List Verdict) :
    Option (Direct × List Verdict) :=
  if event.pressed then d.press p event verdicts else some (d.release p event.key, verdicts)

/-- Takes events in order, and returns the verdicts that are left. -/
def run (p : Profile) (d : Direct) : List KeyEvent → List Verdict → Option (Direct × List Verdict)
  | [], verdicts => some (d, verdicts)
  | event :: rest, verdicts =>
    (d.take p event verdicts).bind fun result => result.1.run p rest result.2

variable {p : Profile} {d : Direct}

/-- Without events a direct keyboard stays as it is and uses no verdict. -/
@[simp] theorem run_nil (verdicts : List Verdict) : d.run p [] verdicts = some (d, verdicts) := rfl

/-- A direct keyboard takes the first event and goes on with the verdicts that are left. -/
theorem run_cons (event : KeyEvent) (rest : List KeyEvent) (verdicts : List Verdict) :
    d.run p (event :: rest) verdicts =
      (d.take p event verdicts).bind fun result => result.1.run p rest result.2 := rfl

/-- Taking two lists of events in a row is taking the one they make together. -/
theorem run_append (events rest : List KeyEvent) (verdicts : List Verdict) :
    d.run p (events ++ rest) verdicts =
      (d.run p events verdicts).bind fun result => result.1.run p rest result.2 := by
  induction events generalizing d verdicts with
  | nil => rfl
  | cons event others ih =>
    rw [List.cons_append, run_cons, run_cons, Option.bind_assoc]
    congr 1
    funext result
    exact ih result.2

/-- A press is answered first, with a verdict if it needs one. -/
theorem run_pressed {event : KeyEvent} (pressed : event.pressed = true) (rest : List KeyEvent)
    (verdicts : List Verdict) : d.run p (event :: rest) verdicts =
      (d.press p event verdicts).bind fun result => result.1.run p rest result.2 := by
  rw [run_cons, take, if_pos pressed]

/-- A release is answered first and needs no verdict. -/
theorem run_released {event : KeyEvent} (released : event.pressed = false) (rest : List KeyEvent)
    (verdicts : List Verdict) :
    d.run p (event :: rest) verdicts = (d.release p event.key).run p rest verdicts := by
  rw [run_cons, take, if_neg (Bool.eq_false_iff.1 released)]
  rfl

/-- A key that is down is ignored. -/
theorem press_of_down {event : KeyEvent} (down : d.active.contains event.key = true)
    (verdicts : List Verdict) : d.press p event verdicts = some (d, verdicts) := by
  rw [press, if_pos down]

/-- A key with one meaning is acted on. -/
theorem press_of_single {event : KeyEvent} {action : Action}
    (up : d.active.contains event.key = false)
    (means : d.holdings.layers.resolve p.keymap event.key = action) (single : action.tap? = none)
    (verdicts : List Verdict) : d.press p event verdicts =
      some (d.enter event.key action (perform p action d.holdings), verdicts) := by
  rw [press, if_neg (Bool.eq_false_iff.1 up), means]
  simp only [single]

/-- A tap-hold key is acted on as its verdict says. -/
theorem press_of_dual {event : KeyEvent} {action : Action} {tap : Keystroke}
    (up : d.active.contains event.key = false)
    (means : d.holdings.layers.resolve p.keymap event.key = action) (dual : action.tap? = some tap)
    (decision : Decision) (rest : List Verdict) : d.press p event (⟨event, decision⟩ :: rest) =
      some (d.enter event.key action (settle p action tap decision d.holdings), rest) := by
  rw [press, if_neg (Bool.eq_false_iff.1 up), means]
  simp only [dual, if_true]

/-- A key that was entered is down, and the other keys are as they were. -/
theorem contains_enter (key other : Key) (action : Action) (result : KeyState × Holdings) :
    (d.enter key action result).active.contains other =
      if other = key then true else d.active.contains other := by
  rw [ActiveKeys.contains, enter, ActiveKeys.find?_insert]
  split <;> rfl

/-- A key that goes down is down, and no other key goes up. -/
theorem contains_press {event : KeyEvent} {verdicts : List Verdict} {result : Direct × List Verdict}
    (pressed : d.press p event verdicts = some result) (other : Key) :
    result.1.active.contains other = (if other = event.key then true else d.active.contains other) := by
  unfold press at pressed
  split at pressed
  · rename_i down
    obtain rfl := Option.some.inj pressed
    by_cases same : other = event.key
    · rw [if_pos same, same, down]
    · rw [if_neg same]
  · dsimp only at pressed
    split at pressed
    · obtain rfl := Option.some.inj pressed
      exact contains_enter _ _ _ _
    · cases pressed
    · split at pressed
      · obtain rfl := Option.some.inj pressed
        exact contains_enter _ _ _ _
      · cases pressed

/-- Events of other keys leave a key that is down where it is. -/
theorem contains_run {key : Key} {events : List KeyEvent} (others : ∀ event ∈ events, event.key ≠ key)
    (down : d.active.contains key = true) {verdicts : List Verdict} {result : Direct × List Verdict}
    (ran : d.run p events verdicts = some result) : result.1.active.contains key = true := by
  induction events generalizing d verdicts with
  | nil =>
    obtain rfl := Option.some.inj ran
    exact down
  | cons event rest ih =>
    obtain ⟨next, took, ran⟩ := Option.bind_eq_some_iff.1 ran
    have other : key ≠ event.key := Ne.symm (others event (.head _))
    refine ih (fun later member => others later (.tail _ member)) ?_ ran
    unfold take at took
    split at took
    · rw [contains_press took, if_neg other, down]
    · obtain rfl := Option.some.inj took
      unfold release
      split
      · exact down
      · rw [ActiveKeys.contains, ActiveKeys.find?_remove, if_neg other]
        exact down

/-- After a key went down, and before anything else is heard of it, another press of it may be left
out. -/
theorem run_press_again {event again : KeyEvent} {others rest : List KeyEvent}
    (pressed : event.pressed = true) (same : again.key = event.key) (anew : again.pressed = true)
    (apart : ∀ other ∈ others, other.key ≠ event.key) (verdicts : List Verdict) :
    d.run p (event :: (others ++ again :: rest)) verdicts =
      d.run p (event :: (others ++ rest)) verdicts := by
  rw [run_pressed pressed, run_pressed pressed]
  refine Option.bind_congr fun next went => ?_
  have down : next.1.active.contains event.key = true := by
    rw [contains_press went, if_pos rfl]
  rw [run_append, run_append]
  refine Option.bind_congr fun result ran => ?_
  have still := contains_run apart down ran
  rw [run_pressed anew, press_of_down (same ▸ still)]
  rfl

end Direct

end KeyEngine
