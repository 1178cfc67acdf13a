import KeyEngine.Engine.Agenda

/-!
# Runs of the engine

The engine is driven by calls: an event, a tick, or a cancel. A run is what a list of calls makes of the
engine that was just started. `Step` lists everything a single task of the agenda can do, with the reason
for it, and `step_spec` says that the list is complete. From it follow the two ways in which facts about
runs are proved: `run_induction` follows one agenda to its end, and `Lasting.after` carries a property of
states from the start through every run.
-/

namespace KeyEngine

namespace KeyEvent

/-- The edge of a key in an event. -/
def edge? (key : Key) (event : KeyEvent) : Option Bool :=
  if event.key = key then some event.pressed else none

/-- The edges of a key in events. -/
def edges (key : Key) (events : List KeyEvent) : List Bool := events.filterMap (edge? key)

end KeyEvent

/-- What the engine can be asked for. -/
inductive Call where
  /-- A key event arrives. -/
  | event (event : KeyEvent)
  /-- Time has passed. -/
  | tick (now : Millis)
  /-- Everything is dropped and released. -/
  | cancel
deriving DecidableEq

namespace Call

/-- A key goes down at a moment. -/
def down (key : UInt16) (time : UInt64) : Call := .event ⟨⟨key⟩, true, .ofWord time⟩

/-- A key goes up at a moment. -/
def up (key : UInt16) (time : UInt64) : Call := .event ⟨⟨key⟩, false, .ofWord time⟩

/-- The event that a call brings. -/
def event? : Call → Option KeyEvent
  | .event arriving => some arriving
  | _ => none

/-- The events that calls bring, in order. -/
def events (calls : List Call) : List KeyEvent := calls.filterMap event?

/-- The events of a list of calls are that of the first and those of the others. -/
theorem events_cons (call : Call) (rest : List Call) : events (call :: rest) = events [call] ++ events rest :=
  List.filterMap_append (l := [call])

end Call

/-- A small keyboard to try things on: a modifier when held, a layer when held, a stroke with shift that
the layer above replaces by a plain one. The layer holds right alt while it is on. -/
def Profile.sample : Profile where
  keymap :=
    ⟨[⟨"base", [.modTap (.single .leftControl) (.ofCode .a), .layerTap 1 (.ofCode .b),
        .plain ⟨.c, .single .leftShift⟩]⟩,
      ⟨"above", [.transparent, .transparent, .plain (.ofCode .d)]⟩],
      Keymap.firstFault_eq_none_iff.1 (by decide)⟩
  settings := .standard
  layerModifiers := ⟨[(1, .single .rightAlt)]⟩

/-- On the small keyboard, two keys that wait behind each other, and a third one typed behind both. -/
def Call.nested : List Call := [.down 0 0, .down 1 10, .down 2 20, .up 2 30]

/-- The third key goes down once more. -/
def Call.nestedAgain : List Call := Call.nested ++ [.down 2 40]

/-- The keys that waited go up. -/
def Call.nestedUp : List Call := Call.nested ++ [.up 1 50, .up 0 60]

namespace Task

/-- The event that a task brings. -/
def event? : Task → Option KeyEvent
  | .expire _ => none
  | .feed event => some event

/-- The events of an agenda. -/
def events (agenda : List Task) : List KeyEvent := agenda.filterMap event?

/-- An empty agenda brings no event. -/
@[simp] theorem events_nil : events [] = [] := rfl

/-- A task that settles what is due brings no event. -/
@[simp] theorem events_expire (now : Millis) (rest : List Task) :
    events (.expire now :: rest) = events rest := rfl

/-- A task that takes an event brings it before those of the others. -/
@[simp] theorem events_feed (event : KeyEvent) (rest : List Task) :
    events (.feed event :: rest) = event :: events rest := rfl

/-- The events of two agendas follow each other as the agendas do. -/
@[simp] theorem events_append (agenda rest : List Task) :
    events (agenda ++ rest) = events agenda ++ events rest := List.filterMap_append

/-- Events that were kept back come again. -/
@[simp] theorem events_replay (kept : List KeyEvent) : events (replay kept) = kept := by
  induction kept with
  | nil => rfl
  | cons event rest ih =>
    show events (.expire event.time :: .feed event :: replay rest) = event :: rest
    rw [events_expire, events_feed, ih]

end Task

namespace Engine

/-- The events that were kept back behind the waiting key. -/
def kept (s : Engine) : List KeyEvent := (s.tapHold.head.map (·.buffer)).getD []

/-- Nothing is kept back while no key waits. -/
theorem kept_of_idle {s : Engine} (idle : s.tapHold.head = none) : s.kept = [] := by
  rw [kept, idle]
  rfl

/-- What is kept back is what lies behind the waiting key. -/
theorem kept_of_waiting {s : Engine} {head : PendingKey} (waiting : s.tapHold.head = some head) :
    s.kept = head.buffer := by
  rw [kept, waiting]
  rfl

/-- The answer to one call. -/
def answer (p : Profile) (s : Engine) : Call → Engine
  | .event event => s.process p event
  | .tick now => s.tick p now
  | .cancel => s.cancel p

/-- The state after a run of calls. -/
def after (p : Profile) (calls : List Call) : Engine := calls.foldl (answer p) start

/-- The state in which the waiting key is settled and waits no longer. -/
def settled (p : Profile) (decision : Decision) (head : PendingKey) (s : Engine) : Engine :=
  { s with tapHold := s.tapHold.dropHead }.settle p decision head

/-- The state in which an event was kept back behind the waiting key. -/
def keptBack (head : PendingKey) (event : KeyEvent) (s : Engine) : Engine :=
  { s with tapHold := { s.tapHold with head := some (head.push event) } }

/-- The key that waited waits on, with one more event behind it. -/
theorem head_keptBack (head : PendingKey) (event : KeyEvent) (s : Engine) :
    (s.keptBack head event).tapHold.head = some (head.push event) := rfl

/-- Whether an event is acted on as it arrives: nothing waits, or another key goes down that means
cancel. -/
def ActsOn (p : Profile) (s : Engine) (event : KeyEvent) : Prop :=
  ∀ head, s.tapHold.head = some head →
    head.key ≠ event.key ∧ event.pressed = true ∧ s.resolve p event.key = .cancel

/-- What a task can do to a state: the next state, and the tasks put in front of the agenda. -/
inductive Step (p : Profile) (s : Engine) : Task → Engine → List Task → Prop where
  /-- Nothing waits that is due. -/
  | early {now : Millis} (early : s.tapHold.isDue now = false) : Step p s (.expire now) s []
  /-- The waiting key is due: it is held. -/
  | due {now : Millis} {head : PendingKey} (waiting : s.tapHold.head = some head)
      (due : head.deadline.isDue now = true) :
      Step p s (.expire now) (s.settled p .hold head) (Task.replay head.buffer ++ [.expire now])
  /-- Nothing waits: the event is acted on. -/
  | act {event : KeyEvent} (idle : s.tapHold.head = none) :
      Step p s (.feed event) (s.dispatch p event) []
  /-- The waiting key goes down once more: the event is dropped. -/
  | again {event : KeyEvent} {head : PendingKey} (waiting : s.tapHold.head = some head)
      (same : head.key = event.key) (pressed : event.pressed = true) :
      Step p s (.feed event) (s.warn (.pressedWhilePending event.key)) []
  /-- The waiting key goes up: it is tapped, and its release comes after what was kept back. -/
  | lift {event : KeyEvent} {head : PendingKey} (waiting : s.tapHold.head = some head)
      (same : head.key = event.key) (released : event.pressed = false) :
      Step p s (.feed event) (s.settled p .tap head) (Task.replay head.buffer ++ [.feed event])
  /-- A key goes down that means cancel: it is acted on at once. -/
  | abort {event : KeyEvent} {head : PendingKey} (waiting : s.tapHold.head = some head)
      (other : head.key ≠ event.key) (pressed : event.pressed = true)
      (cancels : s.resolve p event.key = .cancel) : Step p s (.feed event) (s.dispatch p event) []
  /-- The event of another key is kept back. -/
  | keep {event : KeyEvent} {head : PendingKey} (waiting : s.tapHold.head = some head)
      (other : head.key ≠ event.key)
      (goes : event.pressed = true → s.resolve p event.key ≠ .cancel)
      (undecided : (head.push event).interruptedBy p.settings.policy event = false) :
      Step p s (.feed event) (s.keptBack head event) []
  /-- The event of another key is kept back and decides that the waiting key is held. -/
  | interrupt {event : KeyEvent} {head : PendingKey} (waiting : s.tapHold.head = some head)
      (other : head.key ≠ event.key)
      (goes : event.pressed = true → s.resolve p event.key ≠ .cancel)
      (decides : (head.push event).interruptedBy p.settings.policy event = true) :
      Step p s (.feed event) (s.settled p .hold (head.push event))
        (Task.replay (head.push event).buffer)

/-- While no key waits an event is acted on as it arrives. -/
theorem actsOn_of_idle {p : Profile} {s : Engine} {event : KeyEvent}
    (idle : s.tapHold.head = none) : s.ActsOn p event := by
  intro head waiting
  rw [idle] at waiting
  cases waiting

/-- Cancel is acted on as it is pressed, even behind a waiting key. -/
theorem actsOn_of_cancel {p : Profile} {s : Engine} {event : KeyEvent} {head : PendingKey}
    (waiting : s.tapHold.head = some head) (other : head.key ≠ event.key)
    (pressed : event.pressed = true) (cancels : s.resolve p event.key = .cancel) :
    s.ActsOn p event := by
  intro found same
  obtain rfl := Option.some.inj (waiting.symm.trans same)
  exact ⟨other, pressed, cancels⟩

/-- Every task does one of the listed things. -/
theorem step_spec (p : Profile) (s : Engine) (task : Task) :
    Step p s task (step p s task).1 (step p s task).2 := by
  cases task with
  | expire now =>
    cases waiting : s.tapHold.head with
    | none =>
      simp only [step, waiting]
      exact .early (by simp [TapHold.isDue, waiting])
    | some head =>
      simp only [step, waiting]
      by_cases due : head.deadline.isDue now = true
      · simp only [due, if_true]
        exact .due waiting due
      · simp only [due]
        exact .early (by simp [TapHold.isDue, waiting, due])
  | feed event =>
    cases waiting : s.tapHold.head with
    | none =>
      simp only [step, waiting]
      exact .act waiting
    | some head =>
      simp only [step, waiting]
      by_cases same : head.key = event.key
      · by_cases pressed : event.pressed = true
        · simp only [same, pressed, if_true]
          exact .again waiting same pressed
        · simp only [same, pressed, if_true]
          exact .lift waiting same (by simpa using pressed)
      · by_cases cancels : (event.pressed && s.resolve p event.key == .cancel) = true
        · simp only [same, cancels, if_false, if_true]
          obtain ⟨pressed, means⟩ := Bool.and_eq_true_iff.1 cancels
          exact .abort waiting same pressed (eq_of_beq means)
        · simp only [same, cancels, if_false]
          have goes : event.pressed = true → s.resolve p event.key ≠ .cancel := by
            intro pressed means
            exact cancels (by rw [pressed, means]; rfl)
          by_cases decides : (head.push event).interruptedBy p.settings.policy event = true
          · simp only [decides, if_true, settleHead, List.append_nil]
            exact .interrupt waiting same goes decides
          · simp only [decides]
            exact .keep waiting same goes (Bool.eq_false_iff.2 decides)

/-- An empty agenda changes nothing. -/
@[simp] theorem run_nil (p : Profile) (s : Engine) : s.run p [] = s := by rw [run]

/-- Doing an agenda is doing its first task, then what that put in front, then the rest. -/
theorem run_cons (p : Profile) (s : Engine) (task : Task) (rest : List Task) :
    s.run p (task :: rest) = (step p s task).1.run p ((step p s task).2 ++ rest) := by rw [run]

/-- What holds at the end of an agenda and is handed back through every step holds of whole runs. -/
theorem run_induction {p : Profile} {motive : Engine → List Task → Engine → Prop}
    (done : ∀ s, motive s [] s)
    (next : ∀ s task rest next more final, Step p s task next more →
      motive next (more ++ rest) final → motive s (task :: rest) final)
    (s : Engine) (agenda : List Task) : motive s agenda (s.run p agenda) := by
  induction s, agenda using run.induct p with
  | case1 s =>
    rw [run_nil]
    exact done s
  | case2 s task rest ih =>
    rw [run_cons]
    exact next s task rest _ _ _ (step_spec p s task) ih

/-- A property of states together with what is still to be done, kept by every step, is kept by the
whole agenda. -/
theorem run_invariant {p : Profile} (inv : Engine → List Task → Prop)
    (kept : ∀ s task rest next more, Step p s task next more → inv s (task :: rest) →
      inv next (more ++ rest))
    {s : Engine} {agenda : List Task} (holds : inv s agenda) : inv (s.run p agenda) [] := by
  refine run_induction (motive := fun s agenda final => inv s agenda → inv final []) ?_ ?_ s agenda
    holds
  · exact fun _ holds => holds
  · exact fun s task rest next more final taken ih holds => ih (kept s task rest next more taken holds)

/-- The states that doing an agenda passes through, from the first to the last. -/
def trail (p : Profile) (s : Engine) : List Task → List Engine
  | [] => [s]
  | task :: rest => s :: trail p (step p s task).1 ((step p s task).2 ++ rest)
termination_by agenda => (s.backlog + feeds agenda, agenda.length)
decreasing_by exact agenda_decreases p s task rest

/-- A state is on its own trail. -/
theorem self_mem_trail (p : Profile) (s : Engine) (agenda : List Task) : s ∈ s.trail p agenda := by
  cases agenda <;> rw [trail] <;> exact List.mem_cons_self

/-- The state in which an agenda ends is on its trail. -/
theorem run_mem_trail (p : Profile) (s : Engine) (agenda : List Task) :
    s.run p agenda ∈ s.trail p agenda := by
  induction s, agenda using run.induct p with
  | case1 s =>
    rw [run_nil, trail]
    exact List.mem_singleton_self s
  | case2 s task rest ih =>
    rw [run_cons, trail]
    exact List.mem_cons_of_mem _ ih

/-- A property that every step into a good state keeps is kept by an agenda that passes through good
states only. -/
theorem trail_invariant {p : Profile} (inv good : Engine → Prop)
    (kept : ∀ s task next more, Step p s task next more → good next → inv s → inv next)
    {s : Engine} {agenda : List Task} (passed : ∀ t ∈ s.trail p agenda, good t) (holds : inv s) :
    inv (s.run p agenda) := by
  induction s, agenda using run.induct p with
  | case1 s =>
    rw [run_nil]
    exact holds
  | case2 s task rest ih =>
    rw [trail] at passed
    rw [run_cons]
    have next := passed _ (List.mem_cons_of_mem _ (self_mem_trail p _ _))
    exact ih (fun t member => passed t (List.mem_cons_of_mem _ member))
      (kept s task _ _ (step_spec p s task) next holds)

/-- The states that the answer to a call passes through. -/
def visits (p : Profile) (s : Engine) : Call → List Engine
  | .event event => s.trail p [.expire event.time] ++ (s.tick p event.time).trail p [.feed event]
  | .tick now => s.trail p [.expire now]
  | .cancel => [s.cancel p]

/-- The states that a run of calls passes through. -/
def history (p : Profile) (s : Engine) : List Call → List Engine
  | [] => [s]
  | call :: rest => s.visits p call ++ history p (s.answer p call) rest

/-- A property of states that nothing the engine does can end. -/
structure Lasting (p : Profile) (inv : Engine → Prop) : Prop where
  /-- Acting on an event. -/
  dispatch : ∀ s event, s.ActsOn p event → inv s → inv (s.dispatch p event)
  /-- Settling the waiting key. -/
  settled : ∀ s decision head, s.tapHold.head = some head → inv s → inv (s.settled p decision head)
  /-- Keeping an event of another key back. -/
  keptBack : ∀ s head event, s.tapHold.head = some head → head.key ≠ event.key → inv s →
    inv (s.keptBack head event)
  /-- Dropping a press of the waiting key. -/
  warn : ∀ s warning, inv s → inv (s.warn warning)
  /-- Time passes for the one-shots. -/
  elapse : ∀ s now, inv s → inv (s.mapOneShots (·.tick · p.settings p.layerModifiers now))
  /-- Dropping and releasing everything. -/
  cancel : ∀ s, inv s → inv (s.cancel p)

namespace Lasting

variable {p : Profile} {inv : Engine → Prop}

/-- No task ends a lasting property. An event that interrupts is first kept back, and then the waiting
key is settled. -/
theorem step (lasting : Lasting p inv) {s next : Engine} {task : Task} {more : List Task}
    (taken : Step p s task next more) (holds : inv s) : inv next := by
  cases taken with
  | early => exact holds
  | due waiting => exact lasting.settled _ _ _ waiting holds
  | act idle => exact lasting.dispatch _ _ (actsOn_of_idle idle) holds
  | again => exact lasting.warn _ _ holds
  | lift waiting => exact lasting.settled _ _ _ waiting holds
  | abort waiting other pressed cancels =>
    exact lasting.dispatch _ _ (actsOn_of_cancel waiting other pressed cancels) holds
  | keep waiting other => exact lasting.keptBack _ _ _ waiting other holds
  | @interrupt event head waiting other =>
    exact lasting.settled (s.keptBack head event) .hold _ (head_keptBack head event s)
      (lasting.keptBack _ _ _ waiting other holds)

/-- No agenda ends a lasting property. -/
theorem run (lasting : Lasting p inv) {s : Engine} (agenda : List Task) (holds : inv s) :
    inv (s.run p agenda) :=
  run_invariant (fun s _ => inv s)
    (fun _ _ _ _ _ taken holds => lasting.step taken holds) holds

/-- No tick ends a lasting property. -/
theorem tick (lasting : Lasting p inv) {s : Engine} (now : Millis) (holds : inv s) :
    inv (s.tick p now) :=
  lasting.elapse _ _ (lasting.run _ holds)

/-- No call ends a lasting property. -/
theorem answer (lasting : Lasting p inv) {s : Engine} (call : Call) (holds : inv s) :
    inv (s.answer p call) := by
  cases call with
  | event event => exact lasting.run _ (lasting.tick _ holds)
  | tick now => exact lasting.tick _ holds
  | cancel => exact lasting.cancel _ holds

/-- No calls end a lasting property. -/
theorem answers (lasting : Lasting p inv) {s : Engine} (calls : List Call) (holds : inv s) :
    inv (calls.foldl (Engine.answer p) s) := by
  induction calls generalizing s with
  | nil => exact holds
  | cons call rest ih => exact ih (lasting.answer call holds)

/-- A lasting property of the start holds after every run. -/
theorem after (lasting : Lasting p inv) (start : inv .start) (calls : List Call) :
    inv (after p calls) :=
  lasting.answers calls start

end Lasting

end Engine

end KeyEngine
