import KeyEngine.Proofs.Presses
import KeyEngine.Proofs.Timers

/-!
# What is kept back

Behind a waiting key, the engine keeps back the events of all other keys. They say more of a key than the
keys that count as down do: once they got their turn, the key will count as down if its latest event was a
press. `expects` says what is to be expected of a key, and `expects_after` that this is what its latest
event says, unless a cancel found the engine not up to date with the key and dropped what would have
brought it there. Besides, the events come in the order of their times (`Ordered`), so that no key that
starts to wait when they get their turn is due before the key behind which they were kept back (`Early`);
and the engine never keeps back both a press and a release that would have decided (`Undecided`).
-/

namespace KeyEngine

namespace KeyEvent

/-- Whether a key is down after events, given whether it was down before: its latest event says so. -/
def downAfter (key : Key) (down : Bool) (events : List KeyEvent) : Bool :=
  events.foldl (fun down event => if event.key = key then event.pressed else down) down

variable (key : Key) (down : Bool)

/-- Without events a key is down if it was before. -/
@[simp] theorem downAfter_nil : downAfter key down [] = down := rfl

/-- The first event says whether its own key is down, and the others go on from there. -/
theorem downAfter_cons (event : KeyEvent) (rest : List KeyEvent) : downAfter key down (event :: rest) =
    downAfter key (if event.key = key then event.pressed else down) rest := rfl

/-- The events behind others go on from what those left. -/
@[simp] theorem downAfter_append (events rest : List KeyEvent) :
    downAfter key down (events ++ rest) = downAfter key (downAfter key down events) rest :=
  List.foldl_append

/-- Events of other keys say nothing. -/
theorem downAfter_of_others {key : Key} {events : List KeyEvent}
    (others : ∀ event ∈ events, event.key ≠ key) : downAfter key down events = down := by
  induction events generalizing down with
  | nil => rfl
  | cons event rest ih =>
    rw [downAfter_cons, if_neg (others event (.head _))]
    exact ih down fun later member => others later (.tail _ member)

end KeyEvent

open KeyEvent

namespace Engine

variable {p : Profile} {s next : Engine} {event : KeyEvent} {key : Key}

/-- Whether a key will count as down once what is kept back got its turn. -/
def expects (s : Engine) (key : Key) : Bool := downAfter key (s.active.contains key) s.kept

/-- What is kept back does not change whether a key counts as down. -/
def UpToDate (s : Engine) (key : Key) : Prop := s.expects key = s.active.contains key

instance (s : Engine) (key : Key) : Decidable (s.UpToDate key) := inferInstanceAs (Decidable (_ = _))

/-- While no key waits, what is expected of a key is what it is. -/
theorem expects_of_idle (idle : s.tapHold.head = none) (key : Key) :
    s.expects key = s.active.contains key := by
  rw [expects, kept_of_idle idle, downAfter_nil]

/-- Acting on an event makes the engine expect of its key what the event says; a cancel that drops what is
kept back makes no difference where the engine is up to date. -/
theorem expects_dispatch (acts : s.ActsOn p event)
    (spared : (Moment.mk s (.task (.feed event))).overtakes p key = true → s.UpToDate key) :
    (s.dispatch p event).expects key = downAfter key (s.expects key) [event] := by
  rw [expects, contains_dispatch, downAfter_cons, downAfter_nil]
  cases drops : (Moment.mk s (.task (.feed event))).drops p with
  | true =>
    rw [kept_dispatch_of_drops acts drops, downAfter_nil, spared (Moment.overtakes_of_drops drops key)]
    exact if_congr eq_comm rfl rfl
  | false =>
    rw [kept_dispatch_of_spares acts drops]
    by_cases own : key = event.key
    · rw [if_pos own, if_pos own.symm]
      cases waiting : s.tapHold.head with
      | none => rw [kept_of_idle waiting, downAfter_nil]
      | some head =>
        -- Only a press that means cancel is acted on while a key waits, and this one is ignored.
        obtain ⟨-, pressed, means⟩ := acts head waiting
        have cancels := cancels_of_actsOn acts pressed means
        have ahead : (Moment.mk s (.task (.feed event))).overtakes p key = true := by
          simp [Moment.overtakes, Moment.concerns, cancels, own]
        rw [Moment.drops, cancels] at drops
        have down : s.active.contains key = true := by
          rw [own]
          simpa [Moment.ignores] using drops
        have still := spared ahead
        rw [UpToDate, expects, down] at still
        rw [pressed, still]
    · rw [if_neg own, if_neg (Ne.symm own), expects]

/-- What is expected of a key does not change as the waiting key is settled and its buffer comes again.
-/
theorem expects_settled (decision : Decision) {head : PendingKey} (waiting : s.tapHold.head = some head)
    (key : Key) : downAfter key ((s.settled p decision head).expects key) head.buffer = s.expects key := by
  rw [expects_of_idle (by rw [tapHold_settled]; rfl), contains_settled, expects, kept_of_waiting waiting]

/-- An event that is kept back decides what is expected of its key. -/
theorem expects_keptBack {head : PendingKey} (waiting : s.tapHold.head = some head) (event : KeyEvent)
    (key : Key) : (s.keptBack head event).expects key = downAfter key (s.expects key) [event] := by
  have later : (s.keptBack head event).kept = head.buffer ++ [event] := rfl
  rw [expects, later, downAfter_append, expects, kept_of_waiting waiting]
  rfl

/-- Every task leaves to be expected what was to be expected with the events it brings. -/
theorem expects_step {task : Task} {more : List Task} (taken : Step p s task next more)
    (consistent : s.Consistent)
    (spared : (Moment.mk s (.task task)).overtakes p key = true → s.UpToDate key) :
    downAfter key (next.expects key) (Task.events more) =
      downAfter key (s.expects key) (Task.events [task]) := by
  cases taken with
  | early => rfl
  | due waiting =>
    rw [Task.events_append, Task.events_replay, downAfter_append, expects_settled .hold waiting]
  | act idle => exact expects_dispatch (actsOn_of_idle idle) spared
  | @again event head waiting same pressed =>
    show s.expects key = downAfter key (s.expects key) [event]
    rw [downAfter_cons, downAfter_nil]
    by_cases own : event.key = key
    · have down : s.active.contains key = true := by
        rw [ActiveKeys.contains, ← own, ← same, consistent.down head waiting]
        rfl
      have others : ∀ kept ∈ s.kept, kept.key ≠ key := by
        rw [kept_of_waiting waiting, ← own, ← same]
        exact consistent.others head waiting
      rw [if_pos own, pressed, expects, downAfter_of_others _ others, down]
    · rw [if_neg own]
  | lift waiting =>
    rw [Task.events_append, Task.events_replay, downAfter_append, expects_settled .tap waiting]
  | abort waiting other pressed cancels =>
    exact expects_dispatch (actsOn_of_cancel waiting other pressed cancels) spared
  | keep waiting => exact expects_keptBack waiting _ key
  | @interrupt event head waiting =>
    rw [Task.events_replay]
    have settled := expects_settled (p := p) (s := s.keptBack head event) .hold
      (head_keptBack head event s) key
    exact settled.trans (expects_keptBack waiting event key)

/-- So does a whole agenda. -/
theorem expects_run (agenda : List Task) (consistent : s.Consistent)
    (spared : ∀ m ∈ s.doing p agenda, m.overtakes p key = true → m.state.UpToDate key) :
    (s.run p agenda).expects key = downAfter key (s.expects key) (Task.events agenda) := by
  induction s, agenda using run.induct p with
  | case1 s =>
    rw [run_nil]
    rfl
  | case2 s task rest ih =>
    rw [doing] at spared
    have taken := step_spec p s task
    have first := expects_step taken consistent (spared _ (.head _))
    have later := ih ((consistent_lasting p).step taken consistent) fun m member =>
      spared m (.tail _ member)
    have parts : Task.events (task :: rest) = Task.events [task] ++ Task.events rest :=
      Task.events_append [task] rest
    rw [run_cons, later, Task.events_append, downAfter_append, first, parts, downAfter_append]

/-- A tick does not change what is expected of a key, unless the key is overtaken while the engine is not up
to date with it. -/
theorem expects_tick (now : Millis) (consistent : s.Consistent)
    (spared : ∀ m ∈ s.ticking p now, m.overtakes p key = true → m.state.UpToDate key) :
    (s.tick p now).expects key = s.expects key :=
  expects_run [.expire now] consistent fun m member => spared m (List.mem_append_left _ member)

/-- Nor does a run of calls, with the same exception. -/
theorem expects_answers {calls : List Call} (consistent : s.Consistent)
    (spared : ∀ m ∈ s.course p calls, m.overtakes p key = true → m.state.UpToDate key) :
    (calls.foldl (answer p) s).expects key = downAfter key (s.expects key) (Call.events calls) := by
  induction calls generalizing s with
  | nil => rfl
  | cons call rest ih =>
    have first : (s.answer p call).expects key =
        downAfter key (s.expects key) (Call.events [call]) := by
      have here (m) (member : m ∈ s.answering p call) := spared m (List.mem_append_left _ member)
      cases call with
      | event event =>
        have ticked := expects_tick event.time consistent fun m member =>
          here m (List.mem_append_left _ member)
        have fed := expects_run [.feed event] ((consistent_lasting p).tick event.time consistent)
          fun m member => here m (List.mem_append_right _ member)
        exact fed.trans (by rw [ticked]; rfl)
      | tick now => exact expects_tick now consistent here
      | cancel =>
        have current : s.UpToDate key := here _ (.head _) rfl
        have down : (s.cancel p).active.contains key = s.active.contains key := by
          simp [cancel, ActiveKeys.contains]
        show (s.cancel p).expects key = s.expects key
        rw [expects_of_idle rfl, down, current]
    have later := ih ((consistent_lasting p).answer call consistent) fun m member =>
      spared m (List.mem_append_right _ member)
    rw [List.foldl_cons, later, first, Call.events_cons call rest, downAfter_append]

/-- If the engine was up to date with a key whenever something got ahead of what was kept back of it, what is
to be expected of the key is what its latest event says. -/
theorem expects_after (calls : List Call) (key : Key)
    (spared : ∀ m ∈ start.course p calls, m.overtakes p key = true → m.state.UpToDate key) :
    (after p calls).expects key = downAfter key false (Call.events calls) :=
  expects_answers consistent_start spared

/-- A release leaves the waiting key as it is. -/
theorem head_dispatch_of_release (released : event.pressed = false) :
    (s.dispatch p event).tapHold.head = s.tapHold.head := by
  unfold dispatch
  rw [if_neg (Bool.eq_false_iff.1 released)]
  cases found : s.active.find? event.key with
  | none =>
    rw [release_of_up (s := s.announce (.dispatched event)) found]
    rfl
  | some entry =>
    rw [release_of_down (s := s.announce (.dispatched event)) found]
    exact head_undo p event entry _

/-- After the engine acted on an event, the same key waits, or none does, or the key of the event does with
nothing behind it. -/
theorem head_dispatch (p : Profile) (event : KeyEvent) (s : Engine) :
    (s.dispatch p event).tapHold.head = s.tapHold.head ∨ (s.dispatch p event).tapHold.head = none ∨
      ∃ action, (s.dispatch p event).tapHold.head =
        some (.new event.key action event.time p.settings.tappingTerm) := by
  cases pressed : event.pressed with
  | false => exact .inl (head_dispatch_of_release pressed)
  | true =>
    unfold dispatch
    rw [if_pos pressed]
    cases down : s.active.contains event.key with
    | true =>
      rw [press_of_down (s := s.announce (.dispatched event)) down]
      exact .inl rfl
    | false =>
      rw [press_of_up (s := s.announce (.dispatched event)) down]
      have spec := perform_spec p event (s.resolve p event.key)
        ((s.announce (.dispatched event)).readied event)
      change Performed p event _ _ ((s.announce (.dispatched event)).performed p event) at spec
      generalize (s.announce (.dispatched event)).performed p event = result at spec ⊢
      cases spec with
      | @acted state next _ _ tapHold =>
        have still : next.tapHold.head = s.tapHold.head := by
          rw [tapHold]
          rfl
        exact .inl still
      | waits => exact .inr (.inr ⟨_, rfl⟩)
      | cancelled => exact .inr (.inl rfl)

/-- The events that are kept back and those to come are in the order of their times, none of them is earlier
than the press of the waiting key, and that key is due a tapping term after it was pressed. -/
structure Ordered (p : Profile) (s : Engine) (coming : List KeyEvent) : Prop where
  /-- No event is earlier than one that comes before it. -/
  inOrder : (s.kept ++ coming).Pairwise (·.time ≤ ·.time)
  /-- The deadline follows from the time of the press. -/
  deadline : ∀ head, s.tapHold.head = some head →
    head.deadline = head.since.after p.settings.tappingTerm
  /-- The waiting key was pressed first. -/
  since : ∀ head, s.tapHold.head = some head → ∀ event ∈ s.kept ++ coming, head.since ≤ event.time

namespace Ordered

variable {coming later : List KeyEvent}

/-- Fewer events behind the same key are in order, too. -/
theorem fewer (ordered : s.Ordered p coming) (head : next.tapHold.head = s.tapHold.head)
    (fewer : (next.kept ++ later).Sublist (s.kept ++ coming)) : next.Ordered p later where
  inOrder := ordered.inOrder.sublist fewer
  deadline found waiting := ordered.deadline found (head ▸ waiting)
  since found waiting event member := ordered.since found (head ▸ waiting) event (fewer.subset member)

/-- So are fewer events behind no key. -/
theorem free (ordered : s.Ordered p coming) (idle : next.tapHold.head = none)
    (fewer : later.Sublist (s.kept ++ coming)) : next.Ordered p later := by
  refine ⟨?_, fun head waiting => ?_, fun head waiting => ?_⟩
  · rw [kept_of_idle idle]
    exact ordered.inOrder.sublist fewer
  · rw [idle] at waiting
    cases waiting
  · rw [idle] at waiting
    cases waiting

/-- The events stay in order when the first of them is acted on. -/
theorem dispatch (ordered : s.Ordered p (event :: coming)) : (s.dispatch p event).Ordered p coming := by
  have behind : coming.Sublist (s.kept ++ event :: coming) :=
    (List.sublist_cons_self _ _).trans (List.sublist_append_right _ _)
  rcases head_dispatch p event s with same | idle | ⟨action, waits⟩
  · have kept : (s.dispatch p event).kept = s.kept := by simp only [kept, same]
    refine ordered.fewer same ?_
    rw [kept]
    exact (List.sublist_cons_self _ _).append_left _
  · exact ordered.free idle behind
  · have nothing : (s.dispatch p event).kept = [] := kept_of_waiting waits
    have turns : (event :: coming).Pairwise (·.time ≤ ·.time) := (List.pairwise_append.1 ordered.inOrder).2.1
    refine ⟨?_, fun head waiting => ?_, fun head waiting => ?_⟩
    · rw [nothing]
      exact ordered.inOrder.sublist behind
    · obtain rfl := Option.some.inj (waits.symm.trans waiting)
      rfl
    · obtain rfl := Option.some.inj (waits.symm.trans waiting)
      rw [nothing]
      exact (List.pairwise_cons.1 turns).1

/-- The events stay in order when the waiting key is settled and those behind it come again. -/
theorem settled (ordered : s.Ordered p coming) (decision : Decision) {head : PendingKey}
    (waiting : s.tapHold.head = some head) : (s.settled p decision head).Ordered p (head.buffer ++ coming) := by
  refine ordered.free (by rw [tapHold_settled]; rfl) ?_
  rw [kept_of_waiting waiting]

/-- The events stay in order when the first of them is kept back. -/
theorem keptBack (ordered : s.Ordered p (event :: coming)) {head : PendingKey}
    (waiting : s.tapHold.head = some head) : (s.keptBack head event).Ordered p coming := by
  have same : (s.keptBack head event).kept ++ coming = s.kept ++ event :: coming := by
    show head.buffer ++ [event] ++ coming = _
    rw [kept_of_waiting waiting, List.append_assoc]
    rfl
  refine ⟨same ▸ ordered.inOrder, ?_, ?_⟩
  · rintro _ ⟨⟩
    exact ordered.deadline head waiting
  · rintro _ ⟨⟩
    rw [same]
    exact ordered.since head waiting

/-- Every task keeps the events in order. -/
theorem step {task : Task} {rest more : List Task}
    (ordered : s.Ordered p (Task.events (task :: rest) ++ coming)) (taken : Step p s task next more) :
    next.Ordered p (Task.events (more ++ rest) ++ coming) := by
  rw [Task.events_append, List.append_assoc]
  cases taken with
  | early => exact ordered
  | due waiting => simpa using ordered.settled .hold waiting
  | act => exact ordered.dispatch
  | again =>
    exact ordered.fewer rfl ((List.sublist_cons_self _ _).append_left _)
  | lift waiting => simpa using ordered.settled .tap waiting
  | abort => exact ordered.dispatch
  | keep waiting => exact ordered.keptBack waiting
  | @interrupt event head waiting =>
    rw [Task.events_replay]
    exact (ordered.keptBack waiting).settled .hold (head_keptBack head event s)

/-- The events stay in order while an agenda is done. -/
theorem run (agenda : List Task) (ordered : s.Ordered p (Task.events agenda ++ coming)) :
    (s.run p agenda).Ordered p coming :=
  run_invariant (fun s agenda => s.Ordered p (Task.events agenda ++ coming))
    (fun _ _ _ _ _ taken ordered => ordered.step taken) ordered

/-- The events stay in order over a tick. -/
theorem tick (ordered : s.Ordered p coming) (now : Millis) : (s.tick p now).Ordered p coming :=
  (run [.expire now] ordered).fewer rfl (List.Sublist.refl _)

/-- The events stay in order over a run of calls. -/
theorem answers {calls : List Call} (ordered : s.Ordered p (Call.events calls ++ coming)) :
    (calls.foldl (answer p) s).Ordered p coming := by
  induction calls generalizing s with
  | nil => exact ordered
  | cons call rest ih =>
    refine ih ?_
    cases call with
    | event event => exact run [.feed event] (ordered.tick event.time)
    | tick now => exact ordered.tick now
    | cancel => exact ordered.free rfl (List.sublist_append_right _ _)

/-- Before the first call, all events are to come. -/
theorem start (inOrder : coming.Pairwise (·.time ≤ ·.time)) : Engine.start.Ordered p coming where
  inOrder := inOrder
  deadline _ waiting := nomatch waiting
  since _ waiting := nomatch waiting

end Ordered

/-- Before the waiting key is due, its deadline is still to come. -/
theorem lt_deadline {head : PendingKey} (waiting : s.tapHold.head = some head) {now : Millis}
    (early : s.tapHold.isDue now = false) : now < head.deadline := by
  have waits : head.deadline.isDue now = false := by
    rw [TapHold.isDue, waiting] at early
    exact early
  rw [Bool.eq_false_iff, ne_eq, Millis.isDue_iff] at waits
  exact Nat.lt_of_not_le waits

/-- Neither the waiting key is due at a moment, nor would any key be that is pressed by an event kept back or
to come. -/
structure Early (p : Profile) (now : Millis) (s : Engine) (coming : List KeyEvent) : Prop where
  /-- The waiting key is not due. -/
  head : ∀ head, s.tapHold.head = some head → head.deadline.isDue now = false
  /-- No other key would be due. -/
  events : ∀ event ∈ s.kept ++ coming, (event.time.after p.settings.tappingTerm).isDue now = false

namespace Early

variable {coming : List KeyEvent} {now : Millis}

/-- No key is due early. -/
theorem isDue (early : s.Early p now coming) : s.tapHold.isDue now = false := by
  unfold TapHold.isDue
  cases waiting : s.tapHold.head with
  | none => rfl
  | some head => exact early.head head waiting

/-- What was kept back in order behind a key that is not due is not due before it. -/
theorem of_ordered {later : List KeyEvent} (ordered : s.Ordered p later) (early : s.tapHold.isDue now = false) :
    s.Early p now [] := by
  have head (found) (waiting : s.tapHold.head = some found) : found.deadline.isDue now = false := by
    rw [TapHold.isDue, waiting] at early
    exact early
  refine ⟨head, fun event member => ?_⟩
  rw [List.append_nil] at member
  cases waiting : s.tapHold.head with
  | none =>
    rw [kept_of_idle waiting] at member
    cases member
  | some found =>
    have first := ordered.since found waiting event (List.mem_append_left _ member)
    have waits := head found waiting
    rw [ordered.deadline found waiting] at waits
    rw [Bool.eq_false_iff, ne_eq, Millis.isDue_iff] at waits ⊢
    simp only [Millis.le_def, Millis.count_after] at first waits ⊢
    omega

/-- It is early still after the first event was acted on. -/
theorem dispatch (early : s.Early p now (event :: coming)) : (s.dispatch p event).Early p now coming := by
  have behind (other) (member : other ∈ coming) := 
    early.events other (List.mem_append_right _ (.tail _ member))
  rcases head_dispatch p event s with same | idle | ⟨action, waits⟩
  · have kept : (s.dispatch p event).kept = s.kept := by simp only [kept, same]
    refine ⟨fun head waiting => early.head head (same ▸ waiting), fun other member => ?_⟩
    rw [kept] at member
    rcases List.mem_append.1 member with earlier | later
    · exact early.events other (List.mem_append_left _ earlier)
    · exact behind other later
  · refine ⟨fun head waiting => ?_, ?_⟩
    · rw [idle] at waiting
      cases waiting
    · rw [kept_of_idle idle]
      exact behind
  · refine ⟨fun head waiting => ?_, ?_⟩
    · obtain rfl := Option.some.inj (waits.symm.trans waiting)
      exact early.events event (List.mem_append_right _ (.head _))
    · rw [kept_of_waiting waits]
      exact behind

/-- It is early still after the waiting key was settled and the events behind it come again. -/
theorem settled (early : s.Early p now coming) (decision : Decision) {head : PendingKey}
    (waiting : s.tapHold.head = some head) :
    (s.settled p decision head).Early p now (head.buffer ++ coming) := by
  have idle : (s.settled p decision head).tapHold.head = none := by
    rw [tapHold_settled]
    rfl
  refine ⟨fun found waits => ?_, ?_⟩
  · rw [idle] at waits
    cases waits
  · rw [kept_of_idle idle, List.nil_append, ← kept_of_waiting waiting]
    exact early.events

/-- It is early still after the first event was kept back. -/
theorem keptBack (early : s.Early p now (event :: coming)) {head : PendingKey}
    (waiting : s.tapHold.head = some head) : (s.keptBack head event).Early p now coming := by
  refine ⟨?_, ?_⟩
  · rintro _ ⟨⟩
    exact early.head head waiting
  · show ∀ other ∈ head.buffer ++ [event] ++ coming, _
    rw [List.append_assoc, ← kept_of_waiting waiting]
    exact early.events

/-- No task makes a key due. -/
theorem step {task : Task} {rest more : List Task} (early : s.Early p now (Task.events (task :: rest)))
    (taken : Step p s task next more) : next.Early p now (Task.events (more ++ rest)) := by
  rw [Task.events_append]
  cases taken with
  | early => exact early
  | due waiting => simpa using early.settled .hold waiting
  | act => exact early.dispatch
  | again =>
    refine ⟨early.head, fun other member => early.events other ?_⟩
    exact List.Sublist.subset ((List.sublist_cons_self _ _).append_left _) member
  | lift waiting => simpa using early.settled .tap waiting
  | abort => exact early.dispatch
  | keep waiting => exact early.keptBack waiting
  | @interrupt event head waiting =>
    rw [Task.events_replay]
    exact (early.keptBack waiting).settled .hold (head_keptBack head event s)

end Early

/-- Once what is due at a moment has happened, nothing is due at it any more. -/
theorem isDue_run_expire (s : Engine) (agenda : List Task) (now : Millis) :
    (s.run p (agenda ++ [.expire now])).tapHold.isDue now = false := by
  -- A key that is settled puts its events in front of the last task, so the beginning is left open.
  generalize same : agenda ++ [.expire now] = tasks
  induction s, tasks using run.induct p generalizing agenda with
  | case1 s => simp at same
  | case2 s task rest ih =>
    rw [run_cons]
    cases agenda with
    | cons first others =>
      obtain ⟨rfl, rfl⟩ := List.cons.inj same
      exact ih _ (List.append_assoc _ _ _)
    | nil =>
      obtain ⟨rfl, rfl⟩ := List.cons.inj same
      cases due : s.tapHold.isDue now with
      | false =>
        rw [step_expire_of_early due, List.nil_append, run_nil]
        exact due
      | true =>
        obtain ⟨head, waiting, due⟩ := (Option.any_eq_true _ _).1 due
        rw [step_expire_of_due waiting due] at ih ⊢
        exact ih (Task.replay head.buffer) (by simp)

/-- What a tick leaves waiting is not due at its time. -/
theorem isDue_tick (p : Profile) (now : Millis) (s : Engine) : (s.tick p now).tapHold.isDue now = false :=
  isDue_run_expire s [] now

/-- Where a press and its release decide that a key is held, no key that was pressed behind the waiting key
was released since. -/
def Undecided (p : Profile) (s : Engine) : Prop :=
  p.settings.policy = .permissiveHold → ∀ head, s.tapHold.head = some head →
    ∀ key down, head.pressedSince key = true → downAfter key down head.buffer = true

namespace Undecided

/-- Nothing can have decided while no key waits. -/
theorem of_idle (idle : s.tapHold.head = none) : s.Undecided p := by
  intro _ head waiting
  rw [idle] at waiting
  cases waiting

/-- Acting on an event leaves nothing behind that would have decided. -/
theorem dispatch (undecided : s.Undecided p) (event : KeyEvent) : (s.dispatch p event).Undecided p := by
  rcases head_dispatch p event s with same | idle | ⟨action, waits⟩
  · exact fun permissive head waiting => undecided permissive head (same ▸ waiting)
  · exact of_idle idle
  · intro _ head waiting key down pressed
    obtain rfl := Option.some.inj (waits.symm.trans waiting)
    cases pressed

/-- An event that does not decide is kept back. -/
theorem keptBack (undecided : s.Undecided p) {head : PendingKey} (waiting : s.tapHold.head = some head)
    (goes : (head.push event).interruptedBy p.settings.policy event = false) :
    (s.keptBack head event).Undecided p := by
  rintro permissive _ ⟨⟩ key down pressed
  rw [permissive] at goes
  show downAfter key down (head.buffer ++ [event]) = true
  rw [downAfter_append, downAfter_cons, downAfter_nil]
  by_cases own : event.key = key
  · rw [if_pos own]
    cases went : event.pressed with
    | true => rfl
    | false =>
      have since : (head.push event).pressedSince event.key = false := by
        simpa [PendingKey.interruptedBy, went] using goes
      rw [own, pressed] at since
      cases since
  · rw [if_neg own]
    refine undecided permissive head waiting key down ?_
    simpa [PendingKey.pressedSince, PendingKey.push, own] using pressed

/-- No task leaves what was kept back decisive. -/
theorem step {task : Task} {more : List Task} (undecided : s.Undecided p)
    (taken : Step p s task next more) : next.Undecided p := by
  cases taken with
  | early => exact undecided
  | due => exact of_idle (by rw [tapHold_settled]; rfl)
  | act => exact undecided.dispatch _
  | again => exact undecided
  | lift => exact of_idle (by rw [tapHold_settled]; rfl)
  | abort => exact undecided.dispatch _
  | keep waiting _ _ goes => exact undecided.keptBack waiting goes
  | interrupt => exact of_idle (by rw [tapHold_settled]; rfl)

/-- Doing an agenda leaves nothing behind that would have decided. -/
theorem run (undecided : s.Undecided p) (agenda : List Task) : (s.run p agenda).Undecided p :=
  run_invariant (fun s _ => s.Undecided p) (fun _ _ _ _ _ taken undecided => undecided.step taken) undecided

/-- Calls leave nothing behind that would have decided. -/
theorem answers (undecided : s.Undecided p) (calls : List Call) :
    (calls.foldl (answer p) s).Undecided p := by
  induction calls generalizing s with
  | nil => exact undecided
  | cons call rest ih =>
    refine ih ?_
    cases call with
    | event event =>
      have ticked : (s.tick p event.time).Undecided p := undecided.run [.expire event.time]
      exact ticked.run [.feed event]
    | tick now => exact undecided.run [.expire now]
    | cancel => exact of_idle rfl

end Undecided

end Engine

end KeyEngine
