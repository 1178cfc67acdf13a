import KeyEngine.Settings

/-!
# One-shot machines

A one-shot turns something on for the next key. Its machine follows the trigger key: down, it is queued
and may become an ordinary hold; tapped, it latches until a key uses it or its time is over; tapped
often enough, it stays on until the next tap. Every transition answers with what has to be done to the
thing that the one-shot turns on. `press_change`, `release_change`, `consume_change` and `tick_change`
say that the answer is right: the thing is on exactly while the machine is not idle.
-/

namespace KeyEngine

/-- Where a one-shot stands. -/
inductive OneShotPhase where
  /-- Off. -/
  | idle
  /-- The trigger went down at a moment and has neither been used nor held long. -/
  | queued (since : Millis)
  /-- The trigger is held, or was used while it was down. -/
  | heldActive
  /-- The trigger was tapped; waits for a key, for ever if there is no deadline. -/
  | latched (deadline : Option Millis)
  /-- Tapped so often that it stays on. -/
  | toggled
deriving DecidableEq

/-- What happens to the thing that a one-shot turns on. -/
inductive OneShotChange where
  /-- It is turned on. -/
  | apply
  /-- It is turned off. -/
  | revoke
deriving DecidableEq

/-- The machine of a one-shot. -/
structure OneShot where
  /-- Where it stands. -/
  phase : OneShotPhase
  /-- How many quick taps in a row there were, at most 255. -/
  taps : Nat
  /-- When the trigger last went up from a tap. -/
  lastRelease : Option Millis
deriving DecidableEq

namespace OneShot

/-- A machine whose trigger was never pressed. -/
def new : OneShot := ⟨.idle, 0, none⟩

/-- The largest number of taps that is counted. -/
def maxTaps : Nat := 255

/-- Whether the thing that the one-shot turns on is on. -/
def isActive (m : OneShot) : Bool := decide (m.phase ≠ .idle)

/-- Turns off and forgets the taps. -/
def reset (m : OneShot) : OneShot := { m with phase := .idle, taps := 0 }

/-- Where a press with a given number of taps leads. -/
def phaseAfter (settings : Settings) (time : Millis) (taps : Nat) : OneShotPhase :=
  if 0 < settings.tapToggle.toNat ∧ settings.tapToggle.toNat ≤ taps then .toggled else .queued time

/-- Whether a press comes within the tapping term of the last release. -/
def isQuick (settings : Settings) (m : OneShot) (time : Millis) : Bool :=
  m.lastRelease.any fun released => time.since released < settings.tappingTerm

/-- The trigger goes down. -/
def press (settings : Settings) (time : Millis) (m : OneShot) : OneShot × Option OneShotChange :=
  match m.phase with
  | .idle => ({ m with phase := phaseAfter settings time 1, taps := 1 }, some .apply)
  | .latched _ =>
    let taps := if isQuick settings m time then min maxTaps (m.taps + 1) else 1
    ({ m with phase := phaseAfter settings time taps, taps := taps }, none)
  | .toggled => (m.reset, some .revoke)
  | .queued _ | .heldActive => (m, none)

/-- When a one-shot latched at `time` ends. -/
def deadlineFrom (settings : Settings) (time : Millis) : Option Millis :=
  if settings.oneShotTimeout = .zero then none else some (time.after settings.oneShotTimeout)

/-- The trigger goes up. -/
def release (settings : Settings) (time : Millis) (m : OneShot) : OneShot × Option OneShotChange :=
  match m.phase with
  | .queued since =>
    if time.since since < settings.tappingTerm then
      ({ m with phase := .latched (deadlineFrom settings time), lastRelease := some time }, none)
    else (m.reset, some .revoke)
  | .heldActive => (m.reset, some .revoke)
  | _ => (m, none)

/-- A key that counts for the one-shot was pressed. -/
def consume (m : OneShot) : OneShot × Option OneShotChange :=
  match m.phase with
  | .queued _ => ({ m with phase := .heldActive }, none)
  | .latched _ => (m.reset, some .revoke)
  | _ => (m, none)

/-- Time has passed. -/
def tick (settings : Settings) (now : Millis) (m : OneShot) : OneShot × Option OneShotChange :=
  match m.phase with
  | .queued since =>
    if settings.tappingTerm ≤ now.since since then ({ m with phase := .heldActive }, none)
    else (m, none)
  | .latched (some deadline) => if deadline.isDue now then (m.reset, some .revoke) else (m, none)
  | _ => (m, none)

/-- Turns off and forgets everything; what the one-shot turned on is taken back elsewhere. -/
def cancel (m : OneShot) : OneShot := { m.reset with lastRelease := none }

/-- What a transition from `old` to `new` has to answer. -/
def changeBetween (old new : OneShot) : Option OneShotChange :=
  if old.isActive = new.isActive then none
  else if new.isActive then some .apply
  else some .revoke

/-- However often it was tapped, a pressed one-shot key is on. -/
theorem phaseAfter_ne_idle (settings : Settings) (time : Millis) (taps : Nat) :
    phaseAfter settings time taps ≠ .idle := by
  unfold phaseAfter
  split <;> simp

/-- A press answers with exactly the change that it makes. -/
theorem press_change (settings : Settings) (time : Millis) (m : OneShot) :
    (m.press settings time).2 = changeBetween m (m.press settings time).1 := by
  unfold press changeBetween isActive
  split <;> simp_all [reset, phaseAfter_ne_idle]

/-- A release answers with exactly the change that it makes. -/
theorem release_change (settings : Settings) (time : Millis) (m : OneShot) :
    (m.release settings time).2 = changeBetween m (m.release settings time).1 := by
  unfold release changeBetween isActive
  split <;> (try split) <;> simp_all [reset]

/-- Being used answers with exactly the change that it makes. -/
theorem consume_change (m : OneShot) : m.consume.2 = changeBetween m m.consume.1 := by
  unfold consume changeBetween isActive
  split <;> simp_all [reset]

/-- A tick answers with exactly the change that it makes. -/
theorem tick_change (settings : Settings) (now : Millis) (m : OneShot) :
    (m.tick settings now).2 = changeBetween m (m.tick settings now).1 := by
  unfold tick changeBetween isActive
  split <;> (try split) <;> simp_all [reset]

end OneShot

end KeyEngine
