import KeyEngine.Proofs.Presses

/-!
# A quick tap latches

A one-shot latches when its trigger goes down and up quickly and nothing uses it meanwhile. The times of
the press and the release decide what is quick, unless the release is kept back behind a waiting key:
then the machine is told the time again and again, and waits no longer once its tapping term is over.
`latches_iff` says that nothing else can go wrong. It rests on frame lemmas that say of every deed
whether it moves the machine of a given trigger.
-/

namespace KeyEngine

namespace Call

/-- On the mixed keyboard, the one-shot shift tapped for a tenth of a second, with its release behind a
key that waits; the time is told once before that key is settled. -/
def shiftTapped (told : UInt64) : List Call :=
  [.down 3 0, .down 0 50, .up 3 100, .tick (.ofWord told), .tick (.ofWord 250)]

end Call

namespace Machines

variable {α : Type} [DecidableEq α] (machines : Machines α)

/-- The thing whose machine was put in has it, and the other things keep theirs. -/
theorem get_set (thing other : α) (m : OneShot) :
    (machines.set thing m).get other = if other = thing then m else machines.get other := by
  unfold set get
  split
  · rename_i known
    have changed : (machines.entries.map fun entry => if entry.1 = thing then (entry.1, m) else entry) =
        machines.entries.map fun entry => (entry.1, if entry.1 = thing then m else entry.2) := by
      refine List.map_congr_left fun entry _ => ?_
      split <;> rfl
    -- The thing has a machine, which is replaced in its place.
    rw [changed, ActiveKeys.lookup_map]
    split
    · rename_i same
      obtain ⟨entry, listed, named⟩ := List.any_eq_true.1 known
      have found : machines.entries.lookup other ≠ none := fun absent => by
        simpa [same, eq_of_beq named] using List.lookup_eq_none_iff.1 absent entry listed
      obtain ⟨old, found⟩ := Option.ne_none_iff_exists'.1 found
      rw [found]
      rfl
    · cases machines.entries.lookup other <;> rfl
  · rename_i missing
    by_cases same : other = thing
    · have absent : machines.entries.lookup other = none :=
        List.lookup_eq_none_iff.2 fun entry listed => bne_iff_ne.2 fun named =>
          missing (List.any_eq_true.2 ⟨entry, listed, beq_iff_eq.2 (named.symm.trans same)⟩)
      rw [List.lookup_append, absent, List.lookup_cons, beq_iff_eq.2 same, if_pos same]
      rfl
    · rw [List.lookup_append, List.lookup_cons, beq_false_of_ne same, if_neg same]
      cases machines.entries.lookup other <;> rfl

/-- After a transition of all machines that leaves a new one as it is, each is where it led. -/
theorem get_sweep (step : α → OneShot → OneShot × Option OneShotChange) (thing : α)
    (still : (step thing .new).1 = .new) :
    (machines.sweep step).1.get thing = (step thing (machines.get thing)).1 := by
  unfold sweep get
  dsimp only
  rw [ActiveKeys.lookup_map]
  cases machines.entries.lookup thing with
  | none => exact still.symm
  | some m => rfl

end Machines

namespace OneShot

variable {since : Millis} {m : OneShot} (settings : Settings) (now : Millis)

/-- A queued machine that is told the time goes on to being held once the tapping term is over. -/
theorem phase_tick_of_queued (queued : m.phase = .queued since) : (m.tick settings now).1.phase =
    if settings.tappingTerm ≤ now.since since then .heldActive else .queued since := by
  unfold tick
  rw [queued]
  dsimp only
  split
  · rfl
  · exact queued

/-- A machine that is held stays so whatever time it is told. -/
theorem phase_tick_of_held (held : m.phase = .heldActive) :
    (m.tick settings now).1.phase = .heldActive := by
  unfold tick
  rw [held]
  exact held

/-- A release that comes soon latches a machine that waits for it. -/
theorem phase_release_of_queued {settings : Settings} {time : Millis} (queued : m.phase = .queued since)
    (quick : time.since since < settings.tappingTerm) :
    (m.release settings time).1.phase = .latched (deadlineFrom settings time) := by
  unfold release
  rw [queued]
  dsimp only
  rw [if_pos quick]

/-- A release turns off a machine that waits for it no longer. -/
theorem phase_release_of_held {settings : Settings} {time : Millis} (held : m.phase = .heldActive) :
    (m.release settings time).1.phase = .idle := by
  unfold release
  rw [held]
  rfl

end OneShot

namespace OneShots

variable (shots : OneShots) (h : Holdings) (lm : LayerModifiers) (settings : Settings)

/-- The machine of a trigger; one that was never pressed has a new one, and so has an action that is no
trigger. -/
def machine : Action → OneShot
  | .oneShotModifier set => shots.modifiers.get set
  | .oneShotLayer id => shots.layers.get id
  | _ => .new

/-- A transition of one machine leaves all others as they are. -/
theorem machine_step_of_ne {trigger other : Action} (differs : other ≠ trigger)
    (f : OneShot → OneShot × Option OneShotChange) :
    (shots.step h lm other f).1.machine trigger = shots.machine trigger := by
  cases other with
  | oneShotModifier set =>
    cases trigger with
    | oneShotModifier thing =>
      refine (shots.modifiers.get_set set thing _).trans (if_neg ?_)
      rintro rfl
      exact differs rfl
    | _ => rfl
  | oneShotLayer id =>
    cases trigger with
    | oneShotLayer thing =>
      refine (shots.layers.get_set id thing _).trans (if_neg ?_)
      rintro rfl
      exact differs rfl
    | _ => rfl
  | _ => rfl

/-- A machine that stands somewhere is that of a trigger. -/
theorem machine_step_self {trigger : Action} (known : shots.machine trigger ≠ .new)
    (f : OneShot → OneShot × Option OneShotChange) :
    (shots.step h lm trigger f).1.machine trigger = (f (shots.machine trigger)).1 := by
  cases trigger with
  | oneShotModifier set => exact (shots.modifiers.get_set set set _).trans (if_pos rfl)
  | oneShotLayer id => exact (shots.layers.get_set id id _).trans (if_pos rfl)
  | _ => exact absurd rfl known

/-- A transition of all machines that leaves a new one as it is. -/
theorem machine_sweep {f : Action → OneShot → OneShot × Option OneShotChange}
    (still : ∀ trigger, (f trigger .new).1 = .new) (trigger : Action) :
    (shots.sweep h lm f).1.machine trigger = (f trigger (shots.machine trigger)).1 := by
  cases trigger with
  | oneShotModifier set =>
    exact shots.modifiers.get_sweep (fun set => f (.oneShotModifier set)) set (still _)
  | oneShotLayer id => exact shots.layers.get_sweep (fun id => f (.oneShotLayer id)) id (still _)
  | _ => exact (still _).symm

/-- Time is told to every machine alike. -/
theorem machine_tick (now : Millis) (trigger : Action) :
    (shots.tick h settings lm now).1.machine trigger =
      ((shots.machine trigger).tick settings now).1 :=
  shots.machine_sweep h lm (fun _ => rfl) trigger

/-- An action that a one-shot ignores does not use it. -/
theorem machine_consume_of_ignored {action trigger : Action}
    (ignored : settings.ignores trigger action = true) :
    (shots.consume h settings lm action).1.machine trigger = shots.machine trigger := by
  refine (shots.machine_sweep h lm (fun trigger => ?_) trigger).trans ?_
  · split <;> rfl
  · rw [if_pos ignored]

end OneShots

/-- What a key means with some layers on stands in the keymap, unless it is nothing. -/
theorem LayerStack.exists_of_resolve {layers : LayerStack} {map : Keymap} {key : Key} {action : Action}
    (means : layers.resolve map key = action) (something : action ≠ .noOp) :
    ∃ layer, map.action? layer key = some action := by
  unfold resolve at means
  cases found : (layers.entries.filterMap fun e => map.action? e.id key).find? (· != .transparent) with
  | some highest =>
    rw [found, Option.getD_some] at means
    obtain ⟨entry, -, stands⟩ := List.mem_filterMap.1 (List.mem_of_find?_eq_some found)
    exact ⟨entry.id, means ▸ stands⟩
  | none =>
    rw [found, Option.getD_none, Keymap.base] at means
    cases stands : map.action? baseLayer key with
    | some action => exact ⟨baseLayer, by rw [stands, ← means, stands]; rfl⟩
    | none =>
      rw [stands] at means
      exact absurd means.symm something

/-- Whether the tap of a waiting key counts for the one-shots. -/
def PendingKey.counts (head : PendingKey) : Bool := head.action.tap?.any (!·.isModifierOnly)

namespace Engine

variable {p : Profile} {s : Engine} {trigger : Action}

/-- Whether the action of a key that goes down counts for the one-shots. -/
def countsOn (p : Profile) (event : KeyEvent) (s : Engine) : Action → Bool
  | .plain stroke => !stroke.isModifierOnly
  | .modTap _ _ | .layerTap _ _ => s.repeatsTap p event
  | .manualShift _ _ | .macroSequence _ | .retype _ => true
  | _ => false

/-- An action that a trigger ignores does not use up its one-shot. -/
theorem machine_consume_of_ignored {action : Action}
    (ignored : p.settings.ignores trigger action = true) :
    (s.consume p action).oneShots.machine trigger = s.oneShots.machine trigger :=
  s.oneShots.machine_consume_of_ignored s.holdings p.layerModifiers p.settings ignored

/-- What an action does moves no machine but its own, unless it counts for the one-shot of that
machine. -/
theorem machine_perform {event : KeyEvent} {action : Action} (goes : action ≠ .cancel)
    (differs : action ≠ trigger)
    (unused : s.countsOn p event action = true → p.settings.ignores trigger action = true) :
    (s.perform p event action).2.oneShots.machine trigger = s.oneShots.machine trigger := by
  have dual (tap : Keystroke)
      (unused : s.repeatsTap p event = true → p.settings.ignores trigger action = true) :
      (s.pressTapHold p event action tap).2.oneShots.machine trigger = s.oneShots.machine trigger := by
    unfold pressTapHold
    split
    · rename_i again
      exact machine_consume_of_ignored (s := s.mapHoldings (·.pressStroke tap)) (unused again)
    · rfl
  cases action with
  | plain stroke =>
    unfold perform
    dsimp only
    split
    · rfl
    · rename_i types
      have counts : s.countsOn p event (.plain stroke) = true := by simp [countsOn, types]
      exact machine_consume_of_ignored (s := s.mapHoldings (·.pressStroke stroke)) (unused counts)
  | modTap hold tap => exact dual tap unused
  | layerTap layer tap => exact dual tap unused
  | oneShotModifier set =>
    exact s.oneShots.machine_step_of_ne s.holdings p.layerModifiers differs
      (OneShot.press p.settings event.time)
  | oneShotLayer layer =>
    exact s.oneShots.machine_step_of_ne s.holdings p.layerModifiers differs
      (OneShot.press p.settings event.time)
  | manualShift unshifted shifted =>
    exact machine_consume_of_ignored (s := s.mapHoldings (·.pressManualShift unshifted shifted))
      (unused rfl)
  | macroSequence strokes =>
    exact machine_consume_of_ignored (s := s.mapHoldings (·.tapStrokes strokes)) (unused rfl)
  | retype stroke =>
    exact machine_consume_of_ignored (s := s.mapHoldings (·.retypeStroke stroke)) (unused rfl)
  | cancel => exact absurd rfl goes
  | _ => rfl

/-- Undoing a press moves no machine but that of its own trigger. -/
theorem machine_undo {event : KeyEvent} {entry : ActiveKey}
    (differs : entry.state = .oneShot → entry.action ≠ trigger) :
    (s.undo p event entry).oneShots.machine trigger = s.oneShots.machine trigger := by
  obtain ⟨action, state⟩ := entry
  unfold undo
  cases state with
  | oneShot =>
    exact s.oneShots.machine_step_of_ne s.holdings p.layerModifiers (differs rfl)
      (OneShot.release p.settings event.time)
  | tapped =>
    dsimp only
    split <;> rfl
  | _ => rfl

/-- Settling a waiting key leaves a machine alone unless a tap is typed that counts for it. -/
theorem machine_settled {decision : Decision} {head : PendingKey}
    (unused : decision = .tap → head.counts = true → p.settings.ignores trigger head.action = true) :
    (s.settled p decision head).oneShots.machine trigger = s.oneShots.machine trigger := by
  unfold settled settle
  cases decision with
  | hold => rfl
  | tap =>
    dsimp only
    split
    · rename_i tap dual
      split
      · rfl
      · rename_i types
        have counts : head.counts = true := by simp [PendingKey.counts, dual, types]
        exact machine_consume_of_ignored (unused rfl counts)
    · rfl

/-- Every key that is down has an action that it means with some layers on. -/
def Sourced (p : Profile) (s : Engine) : Prop :=
  ∀ key entry, s.active.find? key = some entry →
    ∃ layers : LayerStack, entry.action = layers.resolve p.keymap key

namespace Sourced

/-- Where the keys that are down come from depends on them alone. -/
theorem congr {next : Engine} (sourced : s.Sourced p) (active : next.active = s.active) :
    next.Sourced p :=
  fun key entry found => sourced key entry (active ▸ found)

/-- A cancel leaves the keys their actions. -/
theorem cancel (sourced : s.Sourced p) : (s.cancel p).Sourced p := by
  intro key entry found
  rw [Engine.cancel, ActiveKeys.find?_makeInert, Option.map_eq_some_iff] at found
  obtain ⟨old, found, rfl⟩ := found
  exact sourced key old found

/-- A key that goes down has the action that the layers give it. -/
theorem press (sourced : s.Sourced p) (event : KeyEvent) : (s.press p event).Sourced p := by
  cases up : s.active.contains event.key with
  | true =>
    rw [press_of_down up]
    exact sourced
  | false =>
    have others : (s.performed p event).2.Sourced p := by
      by_cases means : s.resolve p event.key = .cancel
      · rw [performed, means]
        exact cancel (s := s.readied event) sourced
      · exact sourced.congr (active_perform p event means (s.readied event))
    rw [press_of_up up]
    intro key entry found
    rw [ActiveKeys.find?_insert] at found
    split at found
    · rename_i same
      rw [← Option.some.inj found, same]
      exact ⟨_, rfl⟩
    · exact others key entry found

/-- A key that goes up leaves the actions of the others. -/
theorem release (sourced : s.Sourced p) (event : KeyEvent) : (s.release p event).Sourced p := by
  cases down : s.active.find? event.key with
  | none =>
    rw [release_of_up down]
    exact sourced
  | some entry =>
    rw [release_of_down down]
    intro key other found
    have left : ({ s with active := s.active.remove event.key }.undo p event entry).active.find? key =
        some other := found
    rw [active_undo, ActiveKeys.find?_remove] at left
    split at left
    · cases left
    · exact sourced key other left

end Sourced

/-- At the start no key is down. -/
theorem sourced_start : start.Sourced p := by
  intro key entry found
  cases found

/-- Whatever the engine does, the keys that are down have actions of the keymap. -/
theorem sourced_lasting (p : Profile) : Lasting p (Sourced p) where
  dispatch s event _ sourced := by
    unfold dispatch
    dsimp only
    split
    · exact Sourced.press (s := s.announce (.dispatched event)) sourced event
    · exact Sourced.release (s := s.announce (.dispatched event)) sourced event
  settled s decision head _ sourced := by
    intro key entry found
    rw [active_settled, ActiveKeys.find?_setState, Option.map_eq_some_iff] at found
    obtain ⟨old, found, rfl⟩ := found
    obtain ⟨layers, means⟩ := sourced key old found
    refine ⟨layers, ?_⟩
    split <;> exact means
  keptBack _ _ _ _ _ sourced := sourced
  warn _ _ sourced := sourced
  elapse _ _ sourced := sourced
  cancel _ sourced := sourced.cancel

end Engine

namespace Moment

/-- Whether an action gets its turn at a moment that counts for the one-shot of a trigger. -/
def uses (p : Profile) (trigger : Action) (m : Moment) : Bool :=
  match m.deed with
  | .task (.feed event) =>
    match m.state.tapHold.head with
    | none =>
      event.pressed && !m.state.active.contains event.key &&
        m.state.countsOn p event (m.state.resolve p event.key) &&
        !p.settings.ignores trigger (m.state.resolve p event.key)
    | some head =>
      head.key == event.key && !event.pressed && head.counts && !p.settings.ignores trigger head.action
  | _ => false

/-- Whether the release of a key gets its turn at a moment. -/
def lifts (key : Key) (m : Moment) : Bool :=
  match m.deed with
  | .task (.feed event) => event.key == key && !event.pressed && !m.state.isPending
  | _ => false

/-- Nothing happens at a moment to a one-shot whose trigger is down: no action counts for it, nothing is
cancelled, and its key does not go up. -/
structure Spares (p : Profile) (trigger : Action) (key : Key) (m : Moment) : Prop where
  /-- No action counts for it. -/
  unused : m.uses p trigger = false
  /-- Nothing is cancelled. -/
  going : m.drops p = false
  /-- Its key does not go up. -/
  stays : m.lifts key = false

/-- Whether the one-shots are told a time at a moment at which the tapping term is over. -/
def isLate (settings : Settings) (since : Millis) (m : Moment) : Bool :=
  match m.deed with
  | .elapse now => decide (settings.tappingTerm ≤ now.since since)
  | _ => false

/-- Where a machine stands after a moment that spares its one-shot. -/
def phase (settings : Settings) (m : Moment) : OneShotPhase → OneShotPhase
  | .queued since => if m.isLate settings since then .heldActive else .queued since
  | phase => phase

/-- A machine that is held stays so at any moments that spare its one-shot. -/
theorem foldl_phase_held (settings : Settings) (moments : List Moment) :
    moments.foldl (fun phase m => m.phase settings phase) .heldActive = .heldActive := by
  induction moments with
  | nil => rfl
  | cons m rest ih => exact ih

/-- A machine waits for the release until it is told too late a time. -/
theorem foldl_phase (settings : Settings) (since : Millis) (moments : List Moment) :
    moments.foldl (fun phase m => m.phase settings phase) (.queued since) =
      if moments.any (·.isLate settings since) then .heldActive else .queued since := by
  induction moments with
  | nil => rfl
  | cons m rest ih =>
    rw [List.foldl_cons, List.any_cons]
    cases late : m.isLate settings since with
    | true =>
      rw [phase, if_pos late, Bool.true_or, if_pos rfl]
      exact foldl_phase_held settings rest
    | false => rw [phase, if_neg (Bool.eq_false_iff.1 late), ih, Bool.false_or]

end Moment

namespace Engine

variable {p : Profile} {s : Engine} {trigger : Action} {key : Key} {phase : OneShotPhase}

/-- Whether an action counts does not depend on the tap of another key being forgotten. -/
theorem countsOn_readied (event : KeyEvent) (action : Action) :
    (s.readied event).countsOn p event action = s.countsOn p event action := by
  have repeats : (s.readied event).repeatsTap p event = s.repeatsTap p event := by
    unfold repeatsTap readied TapHold.repressed TapHold.forgetOther
    cases s.tapHold.lastTap with
    | none => rfl
    | some tap => cases same : tap.key == event.key <;> simp [Option.filter, same]
  cases action <;> first | rfl | exact repeats

/-- A trigger is down, and its machine stands in some phase. -/
structure Poised (p : Profile) (trigger : Action) (key : Key) (phase : OneShotPhase) (s : Engine) :
    Prop where
  /-- What is noted of the waiting key agrees. -/
  consistent : s.Consistent
  /-- Every key that is down has one of its actions. -/
  sourced : s.Sourced p
  /-- The key that pressed the trigger is down. -/
  down : s.active.find? key = some ⟨trigger, .oneShot⟩
  /-- Its machine stands in the phase. -/
  stands : (s.oneShots.machine trigger).phase = phase
  /-- It says that the trigger is down. -/
  waits : phase = .heldActive ∨ ∃ since, phase = .queued since

namespace Poised

variable (alone : ∀ layer other, p.keymap.action? layer other = some trigger → other = key)

/-- A trigger stays poised where its key and its machine are as they were. -/
theorem congr (poised : Poised p trigger key phase s) {next : Engine} (consistent : next.Consistent)
    (sourced : next.Sourced p) (down : next.active.find? key = s.active.find? key)
    (machine : next.oneShots.machine trigger = s.oneShots.machine trigger) :
    Poised p trigger key phase next :=
  ⟨consistent, sourced, down.trans poised.down, machine ▸ poised.stands, poised.waits⟩

/-- The machine was made when the trigger went down. -/
theorem known (poised : Poised p trigger key phase s) : s.oneShots.machine trigger ≠ .new := by
  intro new
  have off : OneShot.new.phase = phase := new ▸ poised.stands
  rcases poised.waits with rfl | ⟨since, rfl⟩
  · cases off
  · cases off

/-- A note in the journal leaves a trigger poised. -/
theorem noted (poised : Poised p trigger key phase s) (event : KeyEvent) :
    Poised p trigger key phase (s.announce (.dispatched event)) :=
  poised.congr (poised.consistent.congr rfl rfl) poised.sourced rfl rfl

include alone in
/-- No other key means the trigger. -/
theorem means_other (poised : Poised p trigger key phase s) {layers : LayerStack} {other : Key}
    (differs : other ≠ key) : layers.resolve p.keymap other ≠ trigger := by
  intro means
  have something : trigger ≠ .noOp := by
    rintro rfl
    exact poised.known rfl
  obtain ⟨layer, stands⟩ := LayerStack.exists_of_resolve means something
  exact differs (alone layer other stands)

/-- Settling a waiting key leaves a trigger poised unless a tap is typed that counts for it. -/
theorem settled (poised : Poised p trigger key phase s) {head : PendingKey}
    (waiting : s.tapHold.head = some head) {decision : Decision}
    (unused : decision = .tap → head.counts = true →
      p.settings.ignores trigger head.action = true) :
    Poised p trigger key phase (s.settled p decision head) := by
  have differs : head.key ≠ key := by
    rintro rfl
    have both := (poised.consistent.down head waiting).symm.trans poised.down
    cases both
  refine poised.congr (poised.consistent.settled decision waiting)
    ((sourced_lasting p).settled s decision head waiting poised.sourced) ?_ (machine_settled unused)
  rw [active_settled, ActiveKeys.find?_setState, poised.down]
  simp [Ne.symm differs]

include alone in
/-- Another key that goes down leaves a trigger poised unless it counts for it or cancels. -/
theorem press (poised : Poised p trigger key phase s) {event : KeyEvent} (acts : s.ActsOn p event)
    (pressed : event.pressed = true)
    (unused : (Moment.mk s (.task (.feed event))).uses p trigger = false)
    (going : (Moment.mk s (.task (.feed event))).drops p = false) :
    Poised p trigger key phase (s.press p event) := by
  have consistent := poised.consistent.press acts
  have sourced := poised.sourced.press event
  cases up : s.active.contains event.key with
  | true =>
    rw [press_of_down up] at consistent sourced ⊢
    exact poised.congr consistent sourced rfl rfl
  | false =>
    -- The key that pressed the trigger is down, so this is another one, and does not mean the trigger.
    have differs : event.key ≠ key := by
      rintro rfl
      rw [ActiveKeys.contains, poised.down] at up
      cases up
    have goes : s.resolve p event.key ≠ .cancel := by
      intro means
      rw [Moment.drops, cancels_of_actsOn acts pressed means] at going
      simp [Moment.ignores, up] at going
    have idle := Consistent.idle_of_actsOn acts goes
    have ignored : (s.readied event).countsOn p event (s.resolve p event.key) = true →
        p.settings.ignores trigger (s.resolve p event.key) = true := by
      intro counts
      rw [countsOn_readied] at counts
      simpa [Moment.uses, idle, pressed, up, counts] using unused
    refine poised.congr consistent sourced ?_ ?_
    · rw [press_of_up up, ActiveKeys.find?_insert, if_neg (Ne.symm differs)]
      exact congrArg (·.find? key) (active_perform p event goes (s.readied event))
    · rw [press_of_up up]
      exact machine_perform goes (poised.means_other alone differs) ignored

include alone in
/-- Another key that goes up leaves a trigger poised. -/
theorem release (poised : Poised p trigger key phase s) {event : KeyEvent}
    (idle : s.tapHold.head = none) (differs : event.key ≠ key) :
    Poised p trigger key phase (s.release p event) := by
  have consistent : (s.release p event).Consistent := poised.consistent.release idle
  have sourced := poised.sourced.release event
  cases found : s.active.find? event.key with
  | none =>
    rw [release_of_up found] at consistent sourced ⊢
    exact poised.congr consistent sourced rfl rfl
  | some entry =>
    have other : entry.action ≠ trigger := by
      obtain ⟨layers, means⟩ := poised.sourced event.key entry found
      rw [means]
      exact poised.means_other alone differs
    refine poised.congr consistent sourced ?_ ?_
    · rw [release_of_down found]
      show ({ s with active := s.active.remove event.key }.undo p event entry).active.find? key = _
      rw [active_undo, ActiveKeys.find?_remove, if_neg (Ne.symm differs)]
    · rw [release_of_down found]
      exact machine_undo (s := { s with active := s.active.remove event.key }) fun _ => other

include alone in
/-- Acting on an event leaves a trigger poised at a moment that spares it. -/
theorem dispatch (poised : Poised p trigger key phase s) {event : KeyEvent} (acts : s.ActsOn p event)
    (spares : (Moment.mk s (.task (.feed event))).Spares p trigger key) :
    Poised p trigger key phase (s.dispatch p event) := by
  have noted := poised.noted event
  unfold Engine.dispatch
  dsimp only
  split
  · rename_i pressed
    exact noted.press alone acts pressed spares.unused spares.going
  · rename_i released
    have idle := Consistent.idle_of_released acts (Bool.eq_false_iff.2 released)
    refine noted.release alone idle fun same => ?_
    have stays := spares.stays
    simp [Moment.lifts, isPending, TapHold.isPending, same, released, idle] at stays

include alone in
/-- A task that spares the one-shot leaves its machine where it is. -/
theorem step (poised : Poised p trigger key phase s) {task : Task} {more : List Task} {next : Engine}
    (taken : Step p s task next more) (spares : (Moment.mk s (.task task)).Spares p trigger key) :
    Poised p trigger key phase next := by
  cases taken with
  | early => exact poised
  | due waiting => exact poised.settled waiting Decision.noConfusion
  | act idle => exact poised.dispatch alone (actsOn_of_idle idle) spares
  | again => exact poised.congr (poised.consistent.congr rfl rfl) poised.sourced rfl rfl
  | lift waiting same released =>
    refine poised.settled waiting fun _ counts => ?_
    simpa [Moment.uses, waiting, same, released, counts] using spares.unused
  | abort waiting other pressed cancels =>
    exact poised.dispatch alone (actsOn_of_cancel waiting other pressed cancels) spares
  | keep waiting other =>
    exact poised.congr (poised.consistent.keptBack waiting other) poised.sourced rfl rfl
  | @interrupt event head waiting other =>
    have kept : Poised p trigger key phase (s.keptBack head event) :=
      poised.congr (poised.consistent.keptBack waiting other) poised.sourced rfl rfl
    exact kept.settled (head_keptBack head event s) Decision.noConfusion

/-- A machine that is told the time stops waiting for the release once the tapping term is over. -/
theorem elapse (poised : Poised p trigger key phase s) (now : Millis) :
    Poised p trigger key ((Moment.mk s (.elapse now)).phase p.settings phase) (s.elapse p now) := by
  have consistent : (s.elapse p now).Consistent := poised.consistent.congr rfl rfl
  have told : (s.elapse p now).oneShots.machine trigger =
      ((s.oneShots.machine trigger).tick p.settings now).1 :=
    s.oneShots.machine_tick s.holdings p.layerModifiers p.settings now trigger
  rcases poised.waits with rfl | ⟨since, rfl⟩
  · have stands := OneShot.phase_tick_of_held p.settings now poised.stands
    exact ⟨consistent, poised.sourced, poised.down, told ▸ stands, .inl rfl⟩
  · have stands := OneShot.phase_tick_of_queued p.settings now poised.stands
    have same : (Moment.mk s (.elapse now)).phase p.settings (.queued since) =
        if p.settings.tappingTerm ≤ now.since since then .heldActive else .queued since := by
      simp [Moment.phase, Moment.isLate]
    rw [same]
    refine ⟨consistent, poised.sourced, poised.down, told ▸ stands, ?_⟩
    split
    · exact .inl rfl
    · exact .inr ⟨since, rfl⟩

include alone in
/-- A moment that spares a trigger leaves it poised, and moves its machine by the time alone. -/
theorem next {m : Moment} (poised : Poised p trigger key phase m.state)
    (spares : m.Spares p trigger key) : Poised p trigger key (m.phase p.settings phase) (m.next p) := by
  obtain ⟨s, deed⟩ := m
  cases deed with
  | task task =>
    have still : (Moment.mk s (.task task)).phase p.settings phase = phase := by
      cases phase <;> rfl
    rw [still]
    exact poised.step alone (step_spec p s task) spares
  | elapse now => exact poised.elapse now
  | cancel => cases spares.going

include alone in
/-- Moments that spare the one-shot only tell its machine the time. -/
theorem leads {t : Engine} {moments : List Moment} (poised : Poised p trigger key phase s)
    (leads : Leads p s moments t) (spares : ∀ m ∈ moments, m.Spares p trigger key) :
    Poised p trigger key (moments.foldl (fun phase m => m.phase p.settings phase) phase) t := by
  induction moments generalizing s phase with
  | nil => exact leads ▸ poised
  | cons m rest ih =>
    obtain ⟨rfl, later⟩ := leads
    exact ih (poised.next alone (spares m (.head _))) later fun n member => spares n (.tail _ member)

end Poised

/-- A quick tap of a trigger among the moments of a run: its press gets its turn, later its release does,
and nothing happens to its one-shot in between. -/
structure QuickTap (p : Profile) (trigger : Action) (press release : KeyEvent) (down : Moment)
    (between : List Moment) (up : Moment) : Prop where
  /-- The press gets its turn. -/
  presses : down.deed = .task (.feed press) ∧ press.pressed = true ∧ down.state.isPending = false
  /-- Its key was up. -/
  fresh : down.state.active.contains press.key = false
  /-- It means the trigger. -/
  means : down.state.resolve p press.key = trigger
  /-- It makes the machine wait for the release. -/
  queued : ((down.next p).oneShots.machine trigger).phase = .queued press.time
  /-- Nothing happens to the one-shot. -/
  spares : ∀ m ∈ between, m.Spares p trigger press.key
  /-- The release of the key gets its turn. -/
  releases : up.deed = .task (.feed release) ∧ release.pressed = false ∧ up.state.isPending = false
  /-- It is the same key. -/
  same : release.key = press.key
  /-- The key was not down for long. -/
  quick : release.time.since press.time < p.settings.tappingTerm

/-- The press of a quick tap leaves its trigger poised, with the machine queued. -/
theorem QuickTap.poised {press release : KeyEvent} {down up : Moment} {between : List Moment}
    (tap : QuickTap p trigger press release down between up) (consistent : down.state.Consistent)
    (sourced : down.state.Sourced p) :
    Poised p trigger press.key (.queued press.time) (down.next p) := by
  obtain ⟨s, deed⟩ := down
  obtain ⟨rfl, pressed, free⟩ := tap.presses
  have acts : s.ActsOn p press := actsOn_of_idle (head_of_free free)
  have after := next_of_actsOn acts
  have means : (s.announce (.dispatched press)).resolve p press.key = trigger := tap.means
  have noted : (s.dispatch p press).active.find? press.key =
      some ⟨trigger, ((s.announce (.dispatched press)).performed p press).1⟩ := by
    have up : (s.announce (.dispatched press)).active.contains press.key = false := tap.fresh
    rw [dispatch, if_pos pressed, press_of_up up, ActiveKeys.find?_insert, if_pos rfl, means]
  have state : ((s.announce (.dispatched press)).performed p press).1 = .oneShot := by
    have queued := tap.queued
    rw [performed, means]
    cases trigger with
    | oneShotModifier set => rfl
    | oneShotLayer id => rfl
    | _ => cases queued
  rw [after]
  exact ⟨(consistent_lasting p).dispatch s press acts consistent,
    (sourced_lasting p).dispatch s press acts sourced, state ▸ noted, after ▸ tap.queued, .inr ⟨_, rfl⟩⟩

/-- The release of a trigger that is down brings its machine the release. -/
theorem Poised.machine_release (poised : Poised p trigger key phase s) {event : KeyEvent}
    (own : event.key = key) : (s.release p event).oneShots.machine trigger =
      ((s.oneShots.machine trigger).release p.settings event.time).1 := by
  rw [release_of_down (own ▸ poised.down)]
  exact s.oneShots.machine_step_self s.holdings p.layerModifiers poised.known
    (OneShot.release p.settings event.time)

/-- A quick tap of a one-shot trigger latches. In every run of calls, and for every trigger of one key
only: if its press makes its machine wait, its release comes within the tapping term, and nothing
happens to the one-shot in between, then acting on the release latches the machine exactly if no time
that is told between the press and the release is past the tapping term. -/
theorem latches_iff (p : Profile) (calls : List Call) {before between rest : List Moment}
    {down up : Moment} {press release : KeyEvent} {trigger : Action}
    (course : start.course p calls = before ++ down :: between ++ up :: rest)
    (tap : QuickTap p trigger press release down between up)
    (alone : ∀ layer other, p.keymap.action? layer other = some trigger → other = press.key) :
    ((up.next p).oneShots.machine trigger).phase =
        .latched (OneShot.deadlineFrom p.settings release.time) ↔
      ∀ m ∈ between, m.isLate p.settings press.time = false := by
  have leads := leads_course p start calls
  rw [course] at leads
  obtain ⟨u, first, starts, -⟩ := leads_append.1 leads
  obtain ⟨v, begins, rfl, middle⟩ := leads_append.1 first
  obtain rfl := starts
  -- Between the two moments the machine is only told the time, which settles where the release finds it.
  have poised := (tap.poised ((consistent_lasting p).leads begins consistent_start)
    ((sourced_lasting p).leads begins sourced_start)).leads alone middle tap.spares
  obtain ⟨s, deed⟩ := up
  obtain ⟨rfl, released, free⟩ := tap.releases
  have after : (Moment.mk s (.task (.feed release))).next p = s.dispatch p release :=
    next_of_actsOn (actsOn_of_idle (head_of_free free))
  have moves : ((s.dispatch p release).oneShots.machine trigger) =
      ((s.oneShots.machine trigger).release p.settings release.time).1 := by
    rw [dispatch, if_neg (Bool.eq_false_iff.1 released)]
    exact (poised.noted release).machine_release tap.same
  have early : (∀ m ∈ between, m.isLate p.settings press.time = false) ↔
      between.any (·.isLate p.settings press.time) = false := by simp
  rw [after, moves, early]
  rw [Moment.foldl_phase] at poised
  cases late : between.any (·.isLate p.settings press.time) with
  | false =>
    rw [late] at poised
    exact iff_of_true (OneShot.phase_release_of_queued poised.stands tap.quick) rfl
  | true =>
    rw [late] at poised
    rw [OneShot.phase_release_of_held poised.stands]
    exact iff_of_false OneShotPhase.noConfusion Bool.noConfusion

/-- The trigger of the one-shot shift. -/
def shiftTrigger : Action := .oneShotModifier (.single .leftShift)

/-- The press of the one-shot shift. -/
def shiftPress : KeyEvent := ⟨⟨3⟩, true, .ofWord 0⟩

/-- The release of the one-shot shift. -/
def shiftRelease : KeyEvent := ⟨⟨3⟩, false, .ofWord 100⟩

/-- The moment of the press. -/
def shiftDown : Moment := ⟨start.tick .mixed (.ofWord 0), .task (.feed shiftPress)⟩

/-- The moment of the release: the waiting key was just settled. -/
def shiftUp (told : UInt64) : Moment :=
  ⟨((after .mixed ((Call.shiftTapped told).take 4)).step .mixed (.expire (.ofWord 250))).1,
    .task (.feed shiftRelease)⟩

/-- The moments between the press and the release. -/
def shiftBetween (told : UInt64) : List Moment :=
  ((start.course .mixed (Call.shiftTapped told)).drop 3).take 10

/-- No other key of the mixed keyboard has the trigger. -/
theorem shiftTrigger_alone (layer : LayerId) (other : Key)
    (stands : Profile.mixed.keymap.action? layer other = some shiftTrigger) : other = ⟨3⟩ := by
  obtain ⟨found, listed, entry⟩ := Option.bind_eq_some_iff.1 stands
  have places : ∀ l ∈ Profile.mixed.keymap.layers, l.keys.length ≤ 5 ∧
      ∀ i < 5, l.keys[i]? = some shiftTrigger → i = 3 := by decide
  obtain ⟨short, only⟩ := places found (List.mem_of_getElem? listed)
  obtain ⟨within, -⟩ := List.getElem?_eq_some_iff.1 entry
  have same := only other.number.toNat (Nat.lt_of_lt_of_le within short) entry
  obtain ⟨number⟩ := other
  congr 1
  exact UInt16.toNat_inj.1 same

set_option maxRecDepth 10000 in
/-- The course of the run is cut at the press and at the release of the one-shot shift. -/
theorem shiftTap_course {told : UInt64} (known : told = 150 ∨ told = 220) :
    start.course .mixed (Call.shiftTapped told) =
      (start.course .mixed (Call.shiftTapped told)).take 2 ++ shiftDown :: shiftBetween told ++
        shiftUp told :: (start.course .mixed (Call.shiftTapped told)).drop 14 := by
  rcases known with rfl | rfl
  · cbv
  · cbv

set_option maxRecDepth 10000 in
/-- The one-shot shift is tapped quickly, whichever time is told meanwhile. -/
theorem shiftTap_quick {told : UInt64} (known : told = 150 ∨ told = 220) :
    QuickTap .mixed shiftTrigger shiftPress shiftRelease shiftDown (shiftBetween told)
      (shiftUp told) := by
  have spares : ∀ m ∈ shiftBetween told, m.Spares .mixed shiftTrigger ⟨3⟩ := by
    have all : (shiftBetween told).all (fun m =>
        !m.uses .mixed shiftTrigger && !m.drops .mixed && !m.lifts ⟨3⟩) = true := by
      rcases known with rfl | rfl
      · cbv
      · cbv
    intro m member
    have checked := List.all_eq_true.1 all m member
    simp only [Bool.and_eq_true, Bool.not_eq_true'] at checked
    exact ⟨checked.1.1, checked.1.2, checked.2⟩
  have free : (shiftUp told).state.isPending = false := by
    rcases known with rfl | rfl
    · cbv
    · cbv
  exact ⟨⟨rfl, rfl, by cbv⟩, by cbv, by cbv, by cbv, spares, ⟨rfl, rfl, free⟩, rfl, by decide⟩

set_option maxRecDepth 10000 in
/-- The release is kept back, but the time that is told meanwhile is within the tapping term. -/
theorem latches_behind_waiting :
    Call.Regular (Call.shiftTapped 150) ∧
    (shiftBetween 150).map (·.isLate .standard shiftPress.time) = List.replicate 10 false ∧
    (((shiftUp 150).next .mixed).oneShots.machine shiftTrigger).phase =
      .latched (some (.ofWord 2100)) := by
  have early : ∀ m ∈ shiftBetween 150, m.isLate .standard shiftPress.time = false := by
    have all : (shiftBetween 150).all (!·.isLate .standard shiftPress.time) = true := by cbv
    simpa using all
  refine ⟨by decide, by cbv, ?_⟩
  exact (latches_iff .mixed (Call.shiftTapped 150) (shiftTap_course (.inl rfl))
    (shiftTap_quick (.inl rfl)) shiftTrigger_alone).2 early

set_option maxRecDepth 10000 in
/-- If the time is told when the tapping term is over, but before the waiting key is settled, then the
release that was kept back turns the one-shot off, quick as it was. -/
theorem late_tick_unlatches :
    Call.Regular (Call.shiftTapped 220) ∧ (∀ call ∈ Call.shiftTapped 220, call ≠ .cancel) ∧
    (start.course .mixed (Call.shiftTapped 220) =
      (start.course .mixed (Call.shiftTapped 220)).take 2 ++ shiftDown :: shiftBetween 220 ++
        shiftUp 220 :: (start.course .mixed (Call.shiftTapped 220)).drop 14) ∧
    QuickTap .mixed shiftTrigger shiftPress shiftRelease shiftDown (shiftBetween 220) (shiftUp 220) ∧
    (∀ layer other, Profile.mixed.keymap.action? layer other = some shiftTrigger →
      other = shiftPress.key) ∧
    (((shiftUp 220).next .mixed).oneShots.machine shiftTrigger).phase = .idle := by
  refine ⟨by decide, by decide, shiftTap_course (.inr rfl), shiftTap_quick (.inr rfl),
    shiftTrigger_alone, ?_⟩
  cbv

end Engine

end KeyEngine
