import KeyEngine.Proofs.Latch

/-!
# Events get their turn in order

An event that arrives is acted on, kept back behind a waiting key, or dropped. When that key is settled,
what was kept back comes again, and may be kept back once more behind the next key that waits. However
deep this goes, the events that were acted on, those that are kept back and those that are still to come
stand in one line, in the order in which they arrived. `leaves_step` says so of a single task, and
`first_in_first_out` of a whole run: on a keyboard without cancel the line loses nothing but the presses
of keys that wait themselves, each from its own place.
-/

namespace KeyEngine

namespace Call

/-- On the small keyboard, two keys wait behind each other, and each goes down once more while it waits;
a third one is typed behind both. -/
def pressedAgain : List Call :=
  [.down 0 0, .down 1 10, .down 1 15, .down 0 20, .down 2 25, .up 0 30, .tick (.ofWord 40)]

end Call

namespace Engine

/-- The events that come before the one that is fed next: those that were acted on, and those that are
kept back. -/
def ahead (s : Engine) : List KeyEvent := s.journal.dispatched ++ s.kept

end Engine

/-- The press that is dropped at a moment, since its key waits itself. -/
def Moment.repeated? (m : Moment) : Option KeyEvent :=
  match m.deed with
  | .task (.feed event) =>
    if event.pressed && m.state.tapHold.head.any (·.key == event.key) then some event else none
  | _ => none

/-- What moments leave of a line of events. A press that is dropped leaves the line from its place behind
the events ahead of it; every other event keeps its place. -/
inductive Leaves : List KeyEvent → List Moment → List KeyEvent → Prop where
  /-- There is nothing that could be dropped. -/
  | all (line : List KeyEvent) : Leaves line [] line
  /-- Nothing is dropped first. -/
  | stays {m : Moment} {line left : List KeyEvent} {rest : List Moment} (stays : m.repeated? = none)
      (later : Leaves line rest left) : Leaves line (m :: rest) left
  /-- A press is dropped first. -/
  | drops {m : Moment} {event : KeyEvent} {behind left : List KeyEvent} {rest : List Moment}
      (drops : m.repeated? = some event) (later : Leaves (m.state.ahead ++ behind) rest left) :
      Leaves (m.state.ahead ++ event :: behind) (m :: rest) left

namespace Leaves

variable {line middle left : List KeyEvent} {m : Moment} {moments more : List Moment}

/-- What is left at first is what later moments find. -/
theorem append (first : Leaves line moments middle) (second : Leaves middle more left) :
    Leaves line (moments ++ more) left := by
  induction first with
  | all => exact second
  | stays stays _ ih => exact .stays stays (ih second)
  | drops drops _ ih => exact .drops drops (ih second)

/-- A moment at which nothing is dropped leaves the line as it is. -/
theorem same (stays : m.repeated? = none) (same : line = left) : Leaves line [m] left :=
  same ▸ .stays stays (.all line)

end Leaves

namespace Engine

variable {p : Profile} {s : Engine} {event : KeyEvent} {coming : List KeyEvent}

/-- Where no layer has cancel, no key means it. -/
theorem resolve_ne_cancel (never : ∀ layer ∈ p.keymap.layers, Action.cancel ∉ layer.keys) (s : Engine)
    (key : Key) : s.resolve p key ≠ .cancel := by
  intro means
  obtain ⟨id, stands⟩ := LayerStack.exists_of_resolve means Action.noConfusion
  obtain ⟨layer, listed, entry⟩ := Option.bind_eq_some_iff.1 stands
  exact never layer (List.mem_of_getElem? listed) (List.mem_of_getElem? entry)

/-- Notes that say nothing of events leave those ahead as they are, if nothing else is kept back. -/
theorem ahead_congr {next : Engine} {notes : List Signal} (kept : next.kept = s.kept)
    (noted : next.journal.own = s.journal.own ++ notes)
    (quiet : notes.filterMap Signal.dispatched? = []) : next.ahead = s.ahead := by
  rw [ahead, Journal.dispatched_of_own noted, quiet, List.append_nil, kept, ahead]

/-- What was kept back is no longer ahead once the waiting key is settled. -/
theorem ahead_settled (decision : Decision) {head : PendingKey}
    (waiting : s.tapHold.head = some head) :
    s.ahead = (s.settled p decision head).ahead ++ head.buffer := by
  have free : (s.settled p decision head).kept = [] :=
    kept_of_idle (congrArg TapHold.head (tapHold_settled p decision head s))
  have acted : (s.settled p decision head).journal.dispatched = s.journal.dispatched := by
    have noted := Journal.dispatched_of_own (own_settled p s decision head)
    rwa [List.filterMap_cons_none rfl, List.filterMap_nil, List.append_nil] at noted
  rw [ahead, ahead, free, acted, List.append_nil, kept_of_waiting waiting]

/-- An event that is kept back is the last one ahead. -/
theorem ahead_keptBack {head : PendingKey} (waiting : s.tapHold.head = some head) :
    (s.keptBack head event).ahead = s.ahead ++ [event] := by
  have kept : (s.keptBack head event).kept = s.kept ++ [event] := by
    rw [kept_of_waiting (head_keptBack head event s), kept_of_waiting waiting, PendingKey.push]
  have acted : (s.keptBack head event).journal.dispatched = s.journal.dispatched := rfl
  rw [ahead, acted, kept, ← List.append_assoc, ahead]

/-- An event that is acted on while nothing waits is the last one ahead. -/
theorem ahead_dispatch (idle : s.tapHold.head = none) (goes : s.resolve p event.key ≠ .cancel) :
    (s.dispatch p event).ahead = s.ahead ++ [event] := by
  have acts : s.ActsOn p event := actsOn_of_idle idle
  have nothing : s.kept = [] := kept_of_idle idle
  have spares : (Moment.mk s (.task (.feed event))).drops p = false := by
    simp [Moment.drops, Moment.cancels, goes]
  have still : (s.dispatch p event).kept = [] := (kept_dispatch_of_spares acts spares).trans nothing
  have acted : (s.dispatch p event).journal.dispatched = s.journal.dispatched ++ [event] := by
    rw [Journal.dispatched_of_own (own_dispatch p s event),
      List.filterMap_cons_some (f := Signal.dispatched?) rfl,
      List.filterMap_cons_none (dispatched?_outcome p s event), List.filterMap_nil]
  rw [ahead, ahead, still, nothing, acted, List.append_nil, List.append_nil]

/-- A task leaves the line as it is, apart from the press that it drops. -/
theorem leaves_step {task : Task} {rest more : List Task} {next : Engine}
    (never : ∀ key, s.resolve p key ≠ .cancel) (taken : Step p s task next more) :
    Leaves (s.ahead ++ (Task.events (task :: rest) ++ coming)) [⟨s, .task task⟩]
      (next.ahead ++ (Task.events (more ++ rest) ++ coming)) := by
  have fed {event : KeyEvent} {head : PendingKey} (waiting : s.tapHold.head = some head)
      (stays : event.pressed = false ∨ head.key ≠ event.key) :
      (Moment.mk s (.task (.feed event))).repeated? = none := by
    rcases stays with released | other
    · simp [Moment.repeated?, released]
    · simp [Moment.repeated?, waiting, other]
  cases taken with
  | early => exact .same rfl rfl
  | due waiting =>
    refine .same rfl ?_
    simp [ahead_settled (p := p) .hold waiting]
  | act idle =>
    refine .same (by simp [Moment.repeated?, idle]) ?_
    simp [ahead_dispatch idle (never _)]
  | @again event head waiting same pressed =>
    have dropped : (Moment.mk s (.task (.feed event))).repeated? = some event := by
      simp [Moment.repeated?, waiting, same, pressed]
    have noted : (s.warn (.pressedWhilePending event.key)).journal.own =
        s.journal.own ++ [.warning (.pressedWhilePending event.key)] := own_announce s rfl
    have still : (s.warn (.pressedWhilePending event.key)).ahead = s.ahead :=
      ahead_congr rfl noted rfl
    rw [still]
    exact .drops dropped (.all _)
  | lift waiting same released =>
    refine .same (fed waiting (.inl released)) ?_
    simp [ahead_settled (p := p) .tap waiting]
  | abort waiting other pressed cancels => exact absurd cancels (never _)
  | keep waiting other =>
    refine .same (fed waiting (.inr other)) ?_
    simp [ahead_keptBack waiting]
  | @interrupt event head waiting other =>
    -- The event is first kept back; then the waiting key is settled, and all that was kept back comes.
    have kept : s.ahead ++ [event] = (s.keptBack head event).ahead := (ahead_keptBack waiting).symm
    have settled := ahead_settled (p := p) .hold (head_keptBack head event s)
    have same : (s.keptBack head event).settled p .hold (head.push event) =
        s.settled p .hold (head.push event) := rfl
    rw [same] at settled
    refine .same (fed waiting (.inr other)) ?_
    rw [Task.events_feed, List.cons_append, List.append_cons, kept, settled, Task.events_append,
      Task.events_replay, List.append_assoc, List.append_assoc]

variable (never : ∀ layer ∈ p.keymap.layers, Action.cancel ∉ layer.keys)

include never in
/-- So does a whole agenda. -/
theorem leaves_doing (s : Engine) (agenda : List Task) :
    Leaves (s.ahead ++ (Task.events agenda ++ coming)) (s.doing p agenda)
      ((s.run p agenda).ahead ++ coming) := by
  induction s, agenda using run.induct p with
  | case1 s =>
    rw [run_nil, doing, Task.events_nil, List.nil_append]
    exact .all _
  | case2 s task rest ih =>
    rw [run_cons, doing]
    exact (leaves_step (resolve_ne_cancel never s) (step_spec p s task)).append ih

include never in
/-- Telling the time brings no event. -/
theorem leaves_ticking (s : Engine) (now : Millis) :
    Leaves (s.ahead ++ coming) (s.ticking p now) ((s.tick p now).ahead ++ coming) := by
  have settled : Leaves (s.ahead ++ coming) (s.doing p [.expire now])
      ((s.run p [.expire now]).ahead ++ coming) := leaves_doing never s [.expire now]
  have still : ((s.run p [.expire now]).elapse p now).ahead = (s.run p [.expire now]).ahead :=
    ahead_congr rfl ((own_elapse p _ now).trans (List.append_nil _).symm) rfl
  exact settled.append (.same rfl (congrArg (· ++ coming) still.symm))

include never in
/-- The event that a call brings is the next one in line. -/
theorem leaves_answering (s : Engine) {call : Call} (going : call ≠ .cancel) :
    Leaves (s.ahead ++ (Call.events [call] ++ coming)) (s.answering p call)
      ((s.answer p call).ahead ++ coming) := by
  cases call with
  | event event =>
    have ticked : Leaves (s.ahead ++ ([event] ++ coming)) (s.ticking p event.time)
        ((s.tick p event.time).ahead ++ ([event] ++ coming)) := leaves_ticking never s event.time
    exact ticked.append (leaves_doing never (s.tick p event.time) [.feed event])
  | tick now => exact leaves_ticking never s now
  | cancel => exact absurd rfl going

include never in
/-- Over calls without a cancel the line of events loses only the presses that are dropped. -/
theorem leaves_course (s : Engine) {calls : List Call} (going : .cancel ∉ calls) :
    Leaves (s.ahead ++ (Call.events calls ++ coming)) (s.course p calls)
      ((calls.foldl (answer p) s).ahead ++ coming) := by
  induction calls generalizing s with
  | nil => exact .all _
  | cons call rest ih =>
    have first : call ≠ .cancel := fun same => going (same ▸ List.mem_cons_self)
    have others : .cancel ∉ rest := fun member => going (List.mem_cons_of_mem _ member)
    rw [Call.events_cons, List.append_assoc]
    exact (leaves_answering never s first).append (ih (s.answer p call) others)

/-- First in, first out. On a keyboard without cancel, and after every run of calls in which nothing is
cancelled: the events that were acted on, followed by those that are kept back, are the events that
arrived, in order, without the presses of keys that were waiting themselves as these presses were fed. -/
theorem first_in_first_out (p : Profile) (calls : List Call)
    (never : ∀ layer ∈ p.keymap.layers, Action.cancel ∉ layer.keys) (going : .cancel ∉ calls) :
    Leaves (Call.events calls) (start.course p calls)
      ((after p calls).journal.dispatched ++ (after p calls).kept) := by
  have leaves : Leaves (start.ahead ++ (Call.events calls ++ [])) (start.course p calls)
      ((after p calls).ahead ++ []) := leaves_course never start going
  rw [List.append_nil, List.append_nil] at leaves
  exact leaves

set_option maxRecDepth 10000 in
/-- Of two keys that wait behind each other, the second one is settled last; both repeated presses are
dropped, the later one first, since the other one was kept back for a while. -/
theorem first_in_first_out_nested :
    (∀ layer ∈ Profile.sample.keymap.layers, Action.cancel ∉ layer.keys) ∧
    .cancel ∉ Call.pressedAgain ∧
    (start.course .sample Call.pressedAgain).filterMap Moment.repeated? =
      [⟨⟨0⟩, true, .ofWord 20⟩, ⟨⟨1⟩, true, .ofWord 15⟩] ∧
    Leaves (Call.events Call.pressedAgain) (start.course .sample Call.pressedAgain)
      ([⟨⟨0⟩, true, .ofWord 0⟩, ⟨⟨1⟩, true, .ofWord 10⟩] ++
        [⟨⟨2⟩, true, .ofWord 25⟩, ⟨⟨0⟩, false, .ofWord 30⟩]) := by
  have acted : (after .sample Call.pressedAgain).journal.dispatched =
      [⟨⟨0⟩, true, .ofWord 0⟩, ⟨⟨1⟩, true, .ofWord 10⟩] := by cbv
  have kept : (after .sample Call.pressedAgain).kept =
      [⟨⟨2⟩, true, .ofWord 25⟩, ⟨⟨0⟩, false, .ofWord 30⟩] := by cbv
  have never : ∀ layer ∈ Profile.sample.keymap.layers, Action.cancel ∉ layer.keys := by decide
  have going : .cancel ∉ Call.pressedAgain := by decide
  refine ⟨never, going, by cbv, ?_⟩
  rw [← acted, ← kept]
  exact first_in_first_out .sample Call.pressedAgain never going

end Engine

end KeyEngine
