import KeyEngine.Proofs.KeptBack
import KeyEngine.Proofs.Twins

/-!
# Events that make no sense

A key that is down goes down once more, or a key that is up goes up: such an event should leave everything
as it is. Where nothing waits it does, since the engine ignores it. Behind a waiting key, the engine keeps
it back like any other and does not look at it before its turn; until then, the run that was given the event
and the run that was given a tick instead differ in what is kept back. `UpTo` says how they differ between
two calls, and `Ahead` in the midst of one, where the event may be about to get its turn: then the run that
was given it has more to do. `malformed_ignored` draws the conclusion. Two things stand against it: where
other keys decide about the one that waits, a press that makes no sense decides as well, at once or with the
release that follows it (`betrays`); and a cancel may drop what would have brought the engine up to date with
the key. `malformed_ignored_of_uncancelled` says what is left of the conditions where nothing is cancelled and
no press decides.
-/

namespace KeyEngine

namespace Call

/-- On the mixed keyboard, a plain key goes down behind a key that waits. -/
def pressedBehind : List Call := [.down 0 0, .down 1 10]

/-- The plain key goes down first. -/
def pressedAhead : List Call := [.down 1 0, .down 0 10]

/-- The plain key goes up, and the other one after it. -/
def bothLifted : List Call := [.up 1 30, .up 0 40]

/-- The plain key goes up last. -/
def bothLiftedLate : List Call := [.up 0 30, .up 1 40]

end Call

open KeyEvent

namespace Engine

variable {p : Profile} {s t : Engine} {event extra : KeyEvent} {moments : List (Moment × List KeyEvent)}

/-- An event is kept back behind a waiting key. -/
def KeepsBack (p : Profile) (s : Engine) (event : KeyEvent) : Prop :=
  ∃ head ∈ s.tapHold.head, head.key ≠ event.key ∧
    (event.pressed = true → s.resolve p event.key ≠ .cancel)

instance (p : Profile) (s : Engine) (event : KeyEvent) : Decidable (s.KeepsBack p event) :=
  inferInstanceAs (Decidable (∃ head ∈ s.tapHold.head, _))

/-- Whether an event that is kept back decides at a moment: a release of its key is kept back behind it, and
behind no press of that key but this event. -/
def betrays (p : Profile) (extra : KeyEvent) (m : Moment) : Bool :=
  match m.deed with
  | .task (.feed event) =>
    !event.pressed && event.key == extra.key && decide (m.state.KeepsBack p event) &&
      m.state.kept.contains extra && !(m.state.kept.erase extra).any fun e => e.pressed && e.key == extra.key
  | _ => false

/-- The moments in which the tasks of an agenda are done, each with the events to come. -/
def watching (p : Profile) (s : Engine) : List Task → List (Moment × List KeyEvent)
  | [] => []
  | task :: rest =>
    (⟨s, .task task⟩, Task.events (task :: rest)) ::
      watching p (step p s task).1 ((step p s task).2 ++ rest)
termination_by agenda => (s.backlog + feeds agenda, agenda.length)
decreasing_by exact agenda_decreases p s task rest

/-- The moments of the tasks that the answers to calls take, each with the events to come. -/
def watch (p : Profile) (s : Engine) : List Call → List (Moment × List KeyEvent)
  | [] => []
  | .event event :: rest =>
    s.watching p [.expire event.time] ++
      ((s.tick p event.time).watching p [.feed event] ++ watch p (s.process p event) rest)
  | .tick now :: rest => s.watching p [.expire now] ++ watch p (s.tick p now) rest
  | .cancel :: rest => watch p (s.cancel p) rest

/-- Behind these events, one more never makes a difference to the policy: it is a release, or the policy does
not look at presses, or it looks at those that are released again, and either there is one of the same key
already or no release at these moments is kept back behind this one alone. -/
def Overlooked (p : Profile) (extra : KeyEvent) (moments : List (Moment × List KeyEvent))
    (kept : List KeyEvent) : Prop :=
  extra.pressed = true → p.settings.policy = .ignoreInterrupt ∨
    p.settings.policy = .permissiveHold ∧
      ((∃ press ∈ kept, press.pressed = true ∧ press.key = extra.key) ∨
        ∀ m ∈ moments, betrays p extra m.1 = false)

instance (p : Profile) (extra : KeyEvent) (moments : List (Moment × List KeyEvent)) (kept : List KeyEvent) :
    Decidable (Overlooked p extra moments kept) :=
  inferInstanceAs (Decidable (_ → _))

/-- While an event is to come, the engine is up to date with its key whenever something gets ahead of what is
kept back of it; and whenever the event is kept back, the policy overlooks it. -/
def Spares (p : Profile) (extra : KeyEvent) (moments : List (Moment × List KeyEvent)) : Prop :=
  ∀ m ∈ moments,
    (extra ∈ m.2 → m.1.overtakes p extra.key = true → m.1.state.UpToDate extra.key) ∧
      (m.1.deed = .task (.feed extra) → m.1.state.KeepsBack p extra →
        Overlooked p extra moments m.1.state.kept)

instance (p : Profile) (extra : KeyEvent) (moments : List (Moment × List KeyEvent)) :
    Decidable (Spares p extra moments) :=
  inferInstanceAs (Decidable (∀ m ∈ moments, _))

/-- The state with other events behind the waiting key. -/
def withBuffer (head : PendingKey) (buffer : List KeyEvent) (s : Engine) : Engine :=
  { s with tapHold := { s.tapHold with head := some { head with buffer := buffer } } }

/-- A state with its own buffer put in is that state. -/
theorem withBuffer_self {head : PendingKey} (waiting : s.tapHold.head = some head) :
    s.withBuffer head head.buffer = s := by
  obtain ⟨holdings, ⟨_, lastTap⟩, oneShots, active⟩ := s
  obtain rfl : _ = some head := waiting
  rfl

/-- What the engine does with an event while a key waits. -/
theorem step_feed_of_waiting {head : PendingKey} (waiting : s.tapHold.head = some head) (event : KeyEvent) :
    step p s (.feed event) =
      if head.key = event.key then
        if event.pressed then (s.warn (.pressedWhilePending event.key), [])
        else (s.settled p .tap head, Task.replay head.buffer ++ [.feed event])
      else if event.pressed && s.resolve p event.key == .cancel then (s.dispatch p event, [])
      else if (head.push event).interruptedBy p.settings.policy event then
        (s.settled p .hold (head.push event), Task.replay (head.push event).buffer ++ [])
      else (s.keptBack head event, []) := by
  unfold step
  simp only [waiting]
  rfl

/-- What the engine does with an event that is kept back. -/
theorem step_feed_of_keeps {head : PendingKey} (waiting : s.tapHold.head = some head)
    (other : head.key ≠ event.key) (goes : event.pressed = true → s.resolve p event.key ≠ .cancel) :
    step p s (.feed event) =
      if (head.push event).interruptedBy p.settings.policy event then
        (s.settled p .hold (head.push event), Task.replay (head.push event).buffer ++ [])
      else (s.keptBack head event, []) := by
  have stays : ¬(event.pressed && s.resolve p event.key == .cancel) = true := by
    simpa using goes
  rw [step_feed_of_waiting waiting, if_neg other, if_neg stays]

/-- The press of a key that is down is ignored. -/
theorem dispatch_of_down (pressed : event.pressed = true) (down : s.active.contains event.key = true) :
    s.dispatch p event = (s.announce (.dispatched event)).warn (.pressedTwice event.key) := by
  unfold dispatch
  dsimp only
  rw [if_pos pressed, press_of_down (s := s.announce (.dispatched event)) down]

/-- A press that means cancel drops what is kept back, whatever that is. -/
theorem dispatch_withBuffer {head : PendingKey} (buffer : List KeyEvent) (pressed : event.pressed = true)
    (cancels : s.resolve p event.key = .cancel) (up : s.active.contains event.key = false) :
    (s.withBuffer head buffer).dispatch p event = s.dispatch p event := by
  unfold dispatch
  dsimp only
  rw [if_pos pressed, if_pos pressed, press_of_up (s := s.announce (.dispatched event)) up,
    press_of_up (s := (s.withBuffer head buffer).announce (.dispatched event)) up]
  unfold performed
  have means : (s.announce (.dispatched event)).resolve p event.key = .cancel := cancels
  have means' : ((s.withBuffer head buffer).announce (.dispatched event)).resolve p event.key = .cancel :=
    cancels
  rw [means, means']
  rfl

/-- An event that says what is known of its key is ignored. -/
theorem Twins.ignore (twins : Twins s t) (known : s.active.contains event.key = event.pressed) :
    Twins (s.dispatch p event) t := by
  have noted : Twins (s.announce (.dispatched event)) t := twins.note rfl
  unfold Engine.dispatch
  dsimp only
  split
  · rename_i pressed
    rw [press_of_down (s := s.announce (.dispatched event)) (known.trans pressed)]
    exact noted.note rfl
  · rename_i released
    have up : s.active.find? event.key = none := by
      rw [Bool.eq_false_iff.2 released] at known
      simpa [ActiveKeys.contains] using known
    rw [release_of_up (s := s.announce (.dispatched event)) up]
    exact noted.note rfl

/-- An event that says what is expected of its key is ignored at once, unless it is kept back. -/
theorem Twins.step_of_expected (twins : Twins s t) (consistent : s.Consistent)
    (expected : s.expects extra.key = extra.pressed) (apart : ¬s.KeepsBack p extra)
    (spared : (Moment.mk s (.task (.feed extra))).overtakes p extra.key = true → s.UpToDate extra.key) :
    Twins (Engine.step p s (.feed extra)).1 t ∧ (Engine.step p s (.feed extra)).2 = [] := by
  have taken := step_spec p s (.feed extra)
  generalize Engine.step p s (.feed extra) = result at taken ⊢
  obtain ⟨next, more⟩ := result
  dsimp only at taken ⊢
  cases taken with
  | act idle => exact ⟨twins.ignore ((expects_of_idle idle _).symm.trans expected), rfl⟩
  | again => exact ⟨twins.note rfl, rfl⟩
  | @lift _ head waiting same released =>
    -- The waiting key counts as down, and nothing else is expected of it.
    have down : s.active.contains extra.key = true := by
      rw [ActiveKeys.contains, ← same, consistent.down head waiting]
      rfl
    have others : ∀ event ∈ s.kept, event.key ≠ extra.key := by
      rw [kept_of_waiting waiting, ← same]
      exact consistent.others head waiting
    rw [expects, downAfter_of_others _ others, down, released] at expected
    cases expected
  | abort waiting other pressed cancels =>
    have acts := actsOn_of_cancel waiting other pressed cancels
    have ahead : (Moment.mk s (.task (.feed extra))).overtakes p extra.key = true := by
      simp [Moment.overtakes, Moment.concerns, cancels_of_actsOn acts pressed cancels]
    exact ⟨twins.ignore ((spared ahead).symm.trans expected), rfl⟩
  | @keep _ head waiting other goes =>
    exact absurd ⟨head, waiting, other, goes⟩ apart
  | @interrupt _ head waiting other goes =>
    exact absurd ⟨head, waiting, other, goes⟩ apart

/-- What is overlooked does not decide when it is kept back, since no press and release of its key would. -/
theorem Overlooked.goes {head : PendingKey} (overlooked : Overlooked p extra moments head.buffer)
    (undecided : s.Undecided p) (waiting : s.tapHold.head = some head)
    (expected : s.expects extra.key = extra.pressed) :
    (head.push extra).interruptedBy p.settings.policy extra = false := by
  cases went : extra.pressed with
  | true =>
    cases policy : p.settings.policy with
    | holdOnOtherKeyPress => simp [Overlooked, policy, went] at overlooked
    | permissiveHold => simp [PendingKey.interruptedBy, went]
    | ignoreInterrupt => rfl
  | false =>
    cases policy : p.settings.policy with
    | holdOnOtherKeyPress => exact went
    | permissiveHold =>
      cases since : head.pressedSince extra.key with
      | true =>
        rw [expects, kept_of_waiting waiting, undecided policy head waiting _ _ since, went] at expected
        cases expected
      | false =>
        have still : (head.push extra).pressedSince extra.key = false := by
          simpa [PendingKey.pressedSince, PendingKey.push, went] using since
        simp [PendingKey.interruptedBy, still]
    | ignoreInterrupt => rfl

/-- One more event among those behind a waiting key matters to the policy only as a press of a key that has
none there. -/
theorem pressedSince_of_more {head other : PendingKey} {key : Key}
    (more : other.buffer.Perm (extra :: head.buffer))
    (matched : extra.pressed = true → extra.key = key → head.pressedSince key = true) :
    other.pressedSince key = head.pressedSince key := by
  rw [PendingKey.pressedSince, more.any_eq, List.any_cons, ← PendingKey.pressedSince]
  cases one : extra.pressed && extra.key == key with
  | false => rw [Bool.false_or]
  | true =>
    rw [Bool.and_eq_true, beq_iff_eq] at one
    rw [matched one.1 one.2, Bool.true_or]

/-- When a release of its key is kept back, an overlooked press is not the only one of that key. -/
theorem Overlooked.matched {kept back : List KeyEvent} (overlooked : Overlooked p extra moments kept)
    (behind : s.kept.Perm (extra :: (kept ++ back))) (keeps : s.KeepsBack p event)
    (watched : ∃ coming, (⟨s, .task (.feed event)⟩, coming) ∈ moments)
    (permissive : p.settings.policy = .permissiveHold) (went : event.pressed = false)
    (pressed : extra.pressed = true) (own : extra.key = event.key) :
    ∃ press ∈ kept ++ back, press.pressed = true ∧ press.key = event.key := by
  obtain ignore | ⟨-, ⟨press, member, down, same⟩ | silent⟩ := overlooked pressed
  · rw [permissive] at ignore
    cases ignore
  · exact ⟨press, List.mem_append_left _ member, down, same.trans own⟩
  · obtain ⟨coming, watched⟩ := watched
    have hidden := silent _ watched
    have listed : extra ∈ s.kept := behind.mem_iff.2 (.head _)
    have others : (s.kept.erase extra).Perm (kept ++ back) := by
      simpa using behind.erase extra
    simp only [betrays, went, own, keeps, Bool.not_false, BEq.rfl, Bool.true_and, decide_true,
      List.contains_iff_mem.2 listed, Bool.not_eq_false', List.any_eq_true, Bool.and_eq_true,
      beq_iff_eq] at hidden
    obtain ⟨press, member, down, same⟩ := hidden
    exact ⟨press, others.mem_iff.1 member, down, same⟩

/-- Nor does what is overlooked change what later events that are kept back decide. -/
theorem Overlooked.interruptedBy {head : PendingKey} {front back : List KeyEvent}
    (overlooked : Overlooked p extra moments front) (waiting : s.tapHold.head = some head)
    (buffer : head.buffer = front ++ extra :: back) (keeps : s.KeepsBack p event)
    (watched : ∃ coming, (⟨s, .task (.feed event)⟩, coming) ∈ moments) :
    ({ head with buffer := front ++ back }.push event).interruptedBy p.settings.policy event =
      (head.push event).interruptedBy p.settings.policy event := by
  cases policy : p.settings.policy with
  | holdOnOtherKeyPress => rfl
  | permissiveHold =>
    cases went : event.pressed with
    | true => simp [PendingKey.interruptedBy, went]
    | false =>
      have behind : s.kept.Perm (extra :: (front ++ back)) := by
        rw [kept_of_waiting waiting, buffer]
        exact List.perm_middle
      have more : (head.push event).buffer.Perm (extra :: (front ++ back ++ [event])) :=
        (kept_of_waiting waiting ▸ behind).append_right [event]
      have same : (head.push event).pressedSince event.key =
          ({ head with buffer := front ++ back }.push event).pressedSince event.key := by
        refine pressedSince_of_more more fun pressed own => ?_
        obtain ⟨press, member, down, same⟩ :=
          overlooked.matched behind keeps watched policy went pressed own
        refine List.any_eq_true.2 ⟨press, List.mem_append_left _ member, ?_⟩
        simp [down, same]
      simp only [PendingKey.interruptedBy, same]
  | ignoreInterrupt => rfl

/-- Two states are the same up to an event that makes no sense. -/
inductive UpTo (p : Profile) (extra : KeyEvent) (moments : List (Moment × List KeyEvent)) (s t : Engine) :
    Prop where
  /-- The event was ignored or dropped. -/
  | gone (twins : Twins s t)
  /-- The event is kept back. -/
  | kept {head : PendingKey} {front back : List KeyEvent} (waiting : s.tapHold.head = some head)
      (buffer : head.buffer = front ++ extra :: back)
      (twins : Twins (s.withBuffer head (front ++ back)) t)
      (early : ∀ event ∈ front, (event.time.after p.settings.tappingTerm).isDue extra.time = false)
      (expected : downAfter extra.key (s.active.contains extra.key) front = extra.pressed)
      (overlooked : Overlooked p extra moments front)

namespace UpTo

/-- Such states have the same on, told the host the same, and have the same one-shots and the same keys
down. -/
theorem parts (upTo : UpTo p extra moments s t) :
    s.holdings.Same t.holdings ∧ t.oneShots = s.oneShots ∧ t.active = s.active := by
  cases upTo with
  | gone twins => exact ⟨twins.same, twins.oneShots, twins.active⟩
  | kept _ _ twins => exact ⟨twins.same, twins.oneShots, twins.active⟩

/-- Time that passes for the one-shots leaves the states the same up to the event. -/
theorem elapse (upTo : UpTo p extra moments s t) (now : Millis) :
    UpTo p extra moments (s.elapse p now) (t.elapse p now) := by
  cases upTo with
  | gone twins => exact .gone (twins.elapse now)
  | kept waiting buffer twins early expected overlooked =>
    exact .kept waiting buffer (twins.elapse now) early expected overlooked

end UpTo

/-- Two states in which the same is on and which told the host the same. -/
structure Agrees (s t : Engine) : Prop where
  /-- The host was told the same over the whole run. -/
  stream : s.holdings.journal.stream = t.holdings.journal.stream
  /-- The same layers are on, for the same reasons and in the same order. -/
  layers : s.holdings.layers = t.holdings.layers
  /-- The same modifiers are on, wherever they come from. -/
  modifiers : s.holdings.modifiers = t.holdings.modifiers
  /-- The same codes are down, as often. -/
  register : s.holdings.register = t.holdings.register
  /-- The one-shots are in the same phases. -/
  oneShots : s.oneShots = t.oneShots

/-- States that are the same up to an event kept back have the same on and told the host the same. -/
theorem UpTo.agrees (upTo : UpTo p extra moments s t) : s.Agrees t := by
  obtain ⟨⟨same, told⟩, oneShots, -⟩ := upTo.parts
  refine ⟨told.symm, ?_, ?_, ?_, oneShots.symm⟩ <;> rw [same] <;> rfl

/-- A run to which an event was given that makes no sense is ahead of one to which it was not: they differ
in where the event is. -/
inductive Ahead (p : Profile) (extra : KeyEvent) (moments : List (Moment × List KeyEvent)) (s : Engine) :
    List Task → Engine → List Task → Prop where
  /-- The event is gone or kept back, and the same is to be done. -/
  | upTo {t : Engine} {agenda : List Task} (upTo : UpTo p extra moments s t) :
      Ahead p extra moments s agenda t agenda
  /-- The event is to come, with what is due at its time. -/
  | coming {t : Engine} {front back : List Task} (twins : Twins s t)
      (early : s.Early p extra.time (Task.events front))
      (expected : downAfter extra.key (s.expects extra.key) (Task.events front) = extra.pressed) :
      Ahead p extra moments s (front ++ .expire extra.time :: .feed extra :: back) t (front ++ back)
  /-- It is the turn of the event. -/
  | turn {t : Engine} {back : List Task} (twins : Twins s t) (early : s.Early p extra.time [])
      (expected : s.expects extra.key = extra.pressed) :
      Ahead p extra moments s (.feed extra :: back) t back

namespace Ahead

variable {agenda others rest : List Task} {head : PendingKey} {front back : List KeyEvent}

/-- When the waiting key is settled, the event is to come. -/
theorem settled (buffer : head.buffer = front ++ extra :: back)
    (early : ∀ event ∈ front, (event.time.after p.settings.tappingTerm).isDue extra.time = false)
    (expected : downAfter extra.key (s.active.contains extra.key) front = extra.pressed)
    (decision : Decision) (twins : Twins (s.settled p decision head) t) (rest : List Task) :
    Ahead p extra moments (s.settled p decision head) (Task.replay head.buffer ++ rest) t
      (Task.replay (front ++ back) ++ rest) := by
  have idle : (s.settled p decision head).tapHold.head = none := by
    rw [tapHold_settled]
    rfl
  have parts : Task.replay head.buffer ++ rest =
      Task.replay front ++ .expire extra.time :: .feed extra :: (Task.replay back ++ rest) := by
    rw [buffer]
    simp [Task.replay]
  have others : Task.replay (front ++ back) ++ rest = Task.replay front ++ (Task.replay back ++ rest) := by
    simp [Task.replay]
  rw [parts, others]
  refine .coming twins ⟨fun found waiting => ?_, ?_⟩ ?_
  · rw [idle] at waiting
    cases waiting
  · rw [kept_of_idle idle, Task.events_replay]
    exact early
  · rw [Task.events_replay, expects_of_idle idle, contains_settled]
    exact expected

section
variable (waiting : s.tapHold.head = some head) (buffer : head.buffer = front ++ extra :: back)
  (early : ∀ event ∈ front, (event.time.after p.settings.tappingTerm).isDue extra.time = false)
  (expected : downAfter extra.key (s.active.contains extra.key) front = extra.pressed)
  (overlooked : Overlooked p extra moments front)
include waiting buffer early expected overlooked

/-- A press that means cancel drops the event, or is ignored and leaves it where it is. -/
theorem step_of_cancel (other : head.key ≠ event.key) (pressed : event.pressed = true)
    (cancels : s.resolve p event.key = .cancel) (rest : List Task)
    (twins : Twins (step p (s.withBuffer head (front ++ back)) (.feed event)).1 t) :
    Ahead p extra moments (step p s (.feed event)).1 ((step p s (.feed event)).2 ++ rest) t
      ((step p (s.withBuffer head (front ++ back)) (.feed event)).2 ++ rest) := by
  have behind : (s.withBuffer head (front ++ back)).tapHold.head =
    some { head with buffer := front ++ back } := rfl
  rw [step_feed_of_actsOn (actsOn_of_cancel waiting other pressed cancels)]
  rw [step_feed_of_actsOn (actsOn_of_cancel behind other pressed cancels)] at twins ⊢
  cases down : s.active.contains event.key with
  | true =>
    rw [dispatch_of_down pressed (s := s.withBuffer head (front ++ back)) down] at twins
    rw [dispatch_of_down pressed down]
    exact .upTo (.kept waiting buffer twins early expected overlooked)
  | false =>
    rw [dispatch_withBuffer _ pressed cancels down] at twins
    exact .upTo (.gone twins)

/-- An event of another key is kept back behind the event, or decides in both runs. -/
theorem step_of_keeps (other : head.key ≠ event.key)
    (goes : event.pressed = true → s.resolve p event.key ≠ .cancel)
    (watched : ∃ coming, (⟨s, .task (.feed event)⟩, coming) ∈ moments) (rest : List Task)
    (twins : Twins (step p (s.withBuffer head (front ++ back)) (.feed event)).1 t) :
    Ahead p extra moments (step p s (.feed event)).1 ((step p s (.feed event)).2 ++ rest) t
      ((step p (s.withBuffer head (front ++ back)) (.feed event)).2 ++ rest) := by
  have behind : (s.withBuffer head (front ++ back)).tapHold.head =
    some { head with buffer := front ++ back } := rfl
  have pushed : (head.push event).buffer = front ++ extra :: (back ++ [event]) := by
    simp [PendingKey.push, buffer]
  have pushed' : ({ head with buffer := front ++ back }.push event).buffer = front ++ (back ++ [event]) :=
    List.append_assoc _ _ _
  have decides := overlooked.interruptedBy waiting buffer ⟨head, waiting, other, goes⟩ watched
  rw [step_feed_of_keeps waiting other goes]
  rw [step_feed_of_keeps behind other goes, decides] at twins ⊢
  cases decided : (head.push event).interruptedBy p.settings.policy event with
  | true =>
    simp only [decided, if_true, List.append_nil, pushed'] at twins ⊢
    exact settled pushed early expected .hold twins rest
  | false =>
    rw [decided, if_neg Bool.false_ne_true] at twins
    rw [if_neg Bool.false_ne_true, if_neg Bool.false_ne_true]
    refine .upTo (.kept (head_keptBack head event s) pushed ?_ early expected overlooked)
    have same : (s.keptBack head event).withBuffer (head.push event) (front ++ (back ++ [event])) =
        (s.withBuffer head (front ++ back)).keptBack { head with buffer := front ++ back } event := by
      rw [← pushed']
      rfl
    rw [same]
    exact twins

/-- While the event is kept back, both runs do the same. -/
theorem step_of_kept (task : Task) (rest : List Task)
    (watched : ∃ coming, (⟨s, .task task⟩, coming) ∈ moments)
    (twins : Twins (step p (s.withBuffer head (front ++ back)) task).1 t) :
    Ahead p extra moments (step p s task).1 ((step p s task).2 ++ rest) t
      ((step p (s.withBuffer head (front ++ back)) task).2 ++ rest) := by
  have behind : (s.withBuffer head (front ++ back)).tapHold.head =
    some { head with buffer := front ++ back } := rfl
  cases task with
  | expire now =>
    cases due : head.deadline.isDue now with
    | false =>
      rw [step_expire_of_early (by rw [TapHold.isDue, waiting]; exact due)]
      rw [step_expire_of_early (by rw [TapHold.isDue, behind]; exact due)] at twins ⊢
      exact .upTo (.kept waiting buffer twins early expected overlooked)
    | true =>
      rw [step_expire_of_due waiting due]
      rw [step_expire_of_due behind due] at twins ⊢
      simp only [List.append_assoc]
      exact settled buffer early expected .hold twins _
  | feed event =>
    by_cases same : head.key = event.key
    · rw [step_feed_of_waiting waiting, if_pos same]
      rw [step_feed_of_waiting behind, if_pos same] at twins ⊢
      by_cases pressed : event.pressed = true
      · rw [if_pos pressed] at twins
        rw [if_pos pressed, if_pos pressed]
        exact .upTo (.kept waiting buffer twins early expected overlooked)
      · rw [if_neg pressed] at twins
        rw [if_neg pressed, if_neg pressed]
        simp only [List.append_assoc]
        exact settled buffer early expected .tap twins _
    · by_cases cancels : event.pressed = true ∧ s.resolve p event.key = .cancel
      · exact step_of_cancel waiting buffer early expected overlooked same cancels.1 cancels.2 rest twins
      · exact step_of_keeps waiting buffer early expected overlooked same
          (fun pressed means => cancels ⟨pressed, means⟩) watched rest twins

end

/-- The event is ignored or kept back when it is its turn. -/
theorem step_of_turn (rest : List Task) (twins : Twins s t) (early : s.Early p extra.time [])
    (expected : s.expects extra.key = extra.pressed) (consistent : s.Consistent)
    (undecided : s.Undecided p)
    (spared : (Moment.mk s (.task (.feed extra))).overtakes p extra.key = true → s.UpToDate extra.key)
    (overlooked : s.KeepsBack p extra → Overlooked p extra moments s.kept) :
    Ahead p extra moments (step p s (.feed extra)).1 ((step p s (.feed extra)).2 ++ rest) t rest := by
  by_cases apart : s.KeepsBack p extra
  · have unseen := overlooked apart
    obtain ⟨head, waiting, other, goes⟩ := apart
    rw [kept_of_waiting waiting] at unseen
    rw [step_feed_of_keeps waiting other goes, unseen.goes undecided waiting expected,
      if_neg Bool.false_ne_true]
    refine .upTo (.kept (head_keptBack head extra s) rfl ?_ (fun event member => ?_) ?_ unseen)
    · have same : (s.keptBack head extra).withBuffer (head.push extra) (head.buffer ++ []) = s := by
        rw [List.append_nil]
        exact withBuffer_self waiting
      rw [same]
      exact twins
    · refine early.events event (List.mem_append_left _ ?_)
      rw [kept_of_waiting waiting]
      exact member
    · rw [expects, kept_of_waiting waiting] at expected
      exact expected
  · obtain ⟨twins, more⟩ := twins.step_of_expected consistent expected apart spared
    rw [more]
    exact .upTo (.gone twins)

/-- A task of the run that is ahead either has its like in the other run or takes the event further. -/
theorem step {task : Task} (ahead : Ahead p extra moments s (task :: rest) t others)
    (consistent : s.Consistent) (undecided : s.Undecided p) (spared : Spares p extra moments)
    (watched : ∀ m ∈ s.watching p (task :: rest), m ∈ moments) :
    ∃ t' others', Ahead p extra moments (step p s task).1 ((step p s task).2 ++ rest) t' others' ∧
      t'.run p others' = t.run p others := by
  have here : (⟨s, .task task⟩, Task.events (task :: rest)) ∈ moments := watched _ (by
    rw [watching]
    exact .head _)
  obtain ⟨current, overlooked⟩ := spared _ here
  generalize same : task :: rest = agenda at ahead current
  cases ahead with
  | upTo upTo =>
    subst same
    cases upTo with
    | gone twins =>
      obtain ⟨next, more⟩ := twins.step (p := p) task
      refine ⟨_, _, .upTo (.gone next), ?_⟩
      rw [run_cons, more]
    | kept waiting buffer twins early expected unseen =>
      obtain ⟨next, more⟩ := twins.step (p := p) task
      refine ⟨_, _, step_of_kept waiting buffer early expected unseen task rest ⟨_, here⟩ next, ?_⟩
      rw [run_cons, more]
  | @turn _ _ twins early expected =>
    obtain ⟨rfl, rfl⟩ := List.cons.inj same
    exact ⟨t, rest, step_of_turn rest twins early expected consistent undecided
      (current (.head _)) (overlooked rfl), rfl⟩
  | @coming _ front back twins early expected =>
    cases front with
    | nil =>
      obtain ⟨rfl, rfl⟩ := List.cons.inj same
      rw [step_expire_of_early early.isDue]
      exact ⟨t, back, .turn twins early expected, rfl⟩
    | cons first front =>
      obtain ⟨rfl, after⟩ := List.cons.inj same
      obtain rfl : rest = front ++ .expire extra.time :: .feed extra :: back := after
      have taken := step_spec p s task
      obtain ⟨next, more⟩ := twins.step (p := p) task
      have member : extra ∈ Task.events (task :: front ++ .expire extra.time :: .feed extra :: back) := by
        rw [Task.events_append]
        exact List.mem_append_right _ (.head _)
      have later := expects_step taken consistent (current member)
      refine ⟨(Engine.step p t task).1, (Engine.step p t task).2 ++ (front ++ back), ?_, ?_⟩
      · rw [more, ← List.append_assoc, ← List.append_assoc]
        refine .coming next (early.step taken) ?_
        rw [Task.events_append, downAfter_append, later, ← downAfter_append, ← Task.events_append]
        exact expected
      · rw [List.cons_append, run_cons]

/-- A whole agenda takes the event to where it is gone or kept back. -/
theorem run (ahead : Ahead p extra moments s agenda t others) (consistent : s.Consistent)
    (undecided : s.Undecided p) (spared : Spares p extra moments)
    (watched : ∀ m ∈ s.watching p agenda, m ∈ moments) :
    UpTo p extra moments (s.run p agenda) (t.run p others) := by
  induction s, agenda using run.induct p generalizing t others with
  | case1 s =>
    generalize same : [] = agenda at ahead
    cases ahead with
    | upTo upTo =>
      subst same
      rw [run_nil, run_nil]
      exact upTo
    | @coming _ front => cases front <;> cases same
    | turn => cases same
  | case2 s task rest ih =>
    obtain ⟨t', others', next, same⟩ := ahead.step consistent undecided spared watched
    have taken := step_spec p s task
    rw [watching] at watched
    rw [run_cons, ← same]
    exact ih next ((consistent_lasting p).step taken consistent) (undecided.step taken)
      fun m member => watched m (.tail _ member)

end Ahead

/-- A tick leaves the states the same up to the event, as long as it is spared. -/
theorem UpTo.tick (upTo : UpTo p extra moments s t) (now : Millis) (consistent : s.Consistent)
    (undecided : s.Undecided p) (spared : Spares p extra moments)
    (watched : ∀ m ∈ s.watching p [.expire now], m ∈ moments) :
    UpTo p extra moments (s.tick p now) (t.tick p now) :=
  ((Ahead.upTo upTo).run consistent undecided spared watched).elapse now

/-- States that are the same up to the event stay so in the calls that follow. -/
theorem UpTo.answers {calls : List Call} (upTo : UpTo p extra moments s t) (consistent : s.Consistent)
    (undecided : s.Undecided p) (spared : Spares p extra moments)
    (watched : ∀ m ∈ s.watch p calls, m ∈ moments) :
    UpTo p extra moments (calls.foldl (answer p) s) (calls.foldl (answer p) t) := by
  induction calls generalizing s t with
  | nil => exact upTo
  | cons call rest ih =>
    have consistent' := (consistent_lasting p).answer call consistent
    have undecided' : (s.answer p call).Undecided p := undecided.answers [call]
    cases call with
    | event event =>
      simp only [watch, List.forall_mem_append] at watched
      obtain ⟨first, second, later⟩ := watched
      have ticked := upTo.tick event.time consistent undecided spared first
      have asked : Ahead p extra moments (s.tick p event.time) [.feed event] (t.tick p event.time)
          [.feed event] := .upTo ticked
      have fed := asked.run ((consistent_lasting p).tick event.time consistent)
        (undecided.answers [.tick event.time]) spared second
      exact ih fed consistent' undecided' later
    | tick now =>
      rw [watch, List.forall_mem_append] at watched
      exact ih (upTo.tick now consistent undecided spared watched.1) consistent' undecided' watched.2
    | cancel =>
      rw [watch] at watched
      obtain ⟨same, oneShots, active⟩ := upTo.parts
      exact ih (.gone (.cancel same oneShots active)) consistent' undecided' watched

/-- An event that says what is expected of its key changes nothing: the run goes on as if the engine had been
given a tick instead. -/
theorem agrees_of_expected (p : Profile) (before later : List Call) (event : KeyEvent)
    (inOrder : (Call.events before).Pairwise (·.time ≤ ·.time))
    (expected : (after p (before ++ [.tick event.time])).expects event.key = event.pressed)
    (spared : Spares p event ((after p before).watch p (.event event :: later))) :
    (after p (before ++ .event event :: later)).Agrees (after p (before ++ .tick event.time :: later)) := by
  have parts (call : Call) :
      after p (before ++ call :: later) = later.foldl (answer p) ((after p before).answer p call) := by
    rw [after, after, List.foldl_append, List.foldl_cons]
  have ticked : (after p before).tick p event.time = after p (before ++ [.tick event.time]) := by
    rw [after, after, List.foldl_append]
    rfl
  have consistent := (consistent_lasting p).after consistent_start
  have undecided (calls : List Call) : (after p calls).Undecided p := (Undecided.of_idle rfl).answers calls
  have ordered : (after p before).Ordered p [] := by
    refine Ordered.answers (Ordered.start ?_)
    rwa [List.append_nil]
  have early := Early.of_ordered (ordered.tick event.time) (isDue_tick p event.time _)
  generalize all : (after p before).watch p (.event event :: later) = watched at spared
  have within : ∀ m ∈ (after p before).watch p (.event event :: later), m ∈ watched :=
    fun m member => all ▸ member
  simp only [watch, ticked, List.forall_mem_append] at within
  obtain ⟨-, feeding, rest⟩ := within
  rw [ticked] at early
  -- The answer to the event begins as that to the tick does, and then the event gets its turn.
  have fed : UpTo p event watched ((after p before).answer p (.event event))
      ((after p before).answer p (.tick event.time)) := by
    have turn : Ahead p event watched _ [.feed event] _ [] := .turn (.refl _) early expected
    have upTo := turn.run (consistent _) (undecided _) spared feeding
    rw [run_nil, ← ticked] at upTo
    exact upTo
  have upTo := fed.answers ((consistent_lasting p).answer _ (consistent before))
    ((undecided before).answers [.event event]) spared rest
  rw [parts, parts]
  exact upTo.agrees

/-- A moment that is watched is one of those in which the agenda is done. -/
theorem mem_doing_of_watching {m : Moment × List KeyEvent} {agenda : List Task}
    (member : m ∈ s.watching p agenda) : m.1 ∈ s.doing p agenda := by
  induction s, agenda using run.induct p with
  | case1 s =>
    rw [watching] at member
    cases member
  | case2 s task rest ih =>
    rw [watching] at member
    rw [doing]
    rcases List.mem_cons.1 member with rfl | later
    · exact .head _
    · exact .tail _ (ih later)

/-- The moments that are watched are moments of the run. -/
theorem mem_course_of_watch {m : Moment × List KeyEvent} {calls : List Call}
    (member : m ∈ s.watch p calls) : m.1 ∈ s.course p calls := by
  induction calls generalizing s with
  | nil =>
    rw [watch] at member
    cases member
  | cons call rest ih =>
    rw [course]
    cases call with
    | event event =>
      rw [watch] at member
      rcases List.mem_append.1 member with ticking | fed
      · exact List.mem_append_left _ (List.mem_append_left _
          (List.mem_append_left _ (mem_doing_of_watching ticking)))
      · rcases List.mem_append.1 fed with feeding | later
        · exact List.mem_append_left _ (List.mem_append_right _ (mem_doing_of_watching feeding))
        · exact List.mem_append_right _ (ih later)
    | tick now =>
      rw [watch] at member
      rcases List.mem_append.1 member with ticking | later
      · exact List.mem_append_left _ (List.mem_append_left _ (mem_doing_of_watching ticking))
      · exact List.mem_append_right _ (ih later)
    | cancel =>
      rw [watch] at member
      exact List.mem_append_right _ (ih member)

/-- In a run in which nothing gets ahead of what is kept back of a key, a release of it that makes no sense
always changes nothing, and so does a press if the policy does not look at other keys. -/
theorem malformed_ignored_of_uncancelled (p : Profile) (before later : List Call) (event : KeyEvent)
    (inOrder : (Call.events before).Pairwise (·.time ≤ ·.time))
    (malformed : downAfter event.key false (Call.events before) = event.pressed)
    (uncancelled : ∀ m ∈ start.course p (before ++ .event event :: later), m.overtakes p event.key = false)
    (unseen : event.pressed = true → p.settings.policy = .ignoreInterrupt) :
    (after p (before ++ .event event :: later)).Agrees (after p (before ++ .tick event.time :: later)) := by
  rw [course_append] at uncancelled
  have inStep := expects_after (p := p) (before ++ [.tick event.time]) event.key fun m member ahead => by
    rw [course_append] at member
    have within : m ∈ start.course p before ++ (after p before).course p (.event event :: later) := by
      rcases List.mem_append.1 member with earlier | ticking
      · exact List.mem_append_left _ earlier
      · rw [course, course, List.append_nil] at ticking
        exact List.mem_append_right _ (List.mem_append_left _ (List.mem_append_left _ ticking))
    rw [uncancelled m within] at ahead
    cases ahead
  have same : Call.events (before ++ [.tick event.time]) = Call.events before := by
    rw [Call.events, Call.events, List.filterMap_append]
    exact List.append_nil _
  rw [same] at inStep
  refine agrees_of_expected p before later event inOrder (inStep.trans malformed) fun m member => ⟨?_, ?_⟩
  · intro _ ahead
    rw [uncancelled m.1 (List.mem_append_right _ (mem_course_of_watch member))] at ahead
    cases ahead
  · exact fun _ _ pressed => .inl (unseen pressed)

/-- An event that makes no sense changes nothing: if a key goes down whose latest event was a press, or up
whose latest event was not, then the run goes on as if the engine had been given a tick instead, whether or
not a key waits. The engine must be in step with the key when the event comes, as `expects_after` says it is
unless a cancel dropped something; and while the event is on its way, neither may anything get ahead of what
is kept back while the engine is out of step nor may the policy take notice of the event: by a press at all,
or by a release of a key of which nothing else was pressed behind the waiting one. -/
theorem malformed_ignored (p : Profile) (before later : List Call) (event : KeyEvent)
    (inOrder : (Call.events before).Pairwise (·.time ≤ ·.time))
    (malformed : downAfter event.key false (Call.events before) = event.pressed)
    (inStep : (after p (before ++ [.tick event.time])).expects event.key =
      downAfter event.key false (Call.events before))
    (spared : Spares p event ((after p before).watch p (.event event :: later))) :
    (after p (before ++ .event event :: later)).Agrees (after p (before ++ .tick event.time :: later)) := by
  have expected := inStep.trans malformed
  exact agrees_of_expected p before later event inOrder expected spared

set_option maxRecDepth 10000 in
/-- A key that went down behind the waiting one goes down once more; the second press is kept back, too, but
the first one is there already. Where the key went down first, the second press is the only one behind the
waiting key, but no release follows while that key waits. -/
theorem malformed_ignored_behind_waiting :
    downAfter ⟨1⟩ false (Call.events Call.pressedBehind) = true ∧
    (after .mixed (Call.pressedBehind ++ [.tick (.ofWord 20)])).KeepsBack .mixed
      ⟨⟨1⟩, true, .ofWord 20⟩ ∧
    (after .mixed (Call.pressedBehind ++ .down 1 20 :: Call.bothLifted)).Agrees
      (after .mixed (Call.pressedBehind ++ .tick (.ofWord 20) :: Call.bothLifted)) ∧
    (after .mixed (Call.pressedAhead ++ [.tick (.ofWord 20)])).KeepsBack .mixed
      ⟨⟨1⟩, true, .ofWord 20⟩ ∧
    (after .mixed (Call.pressedAhead ++ .down 1 20 :: Call.bothLiftedLate)).Agrees
      (after .mixed (Call.pressedAhead ++ .tick (.ofWord 20) :: Call.bothLiftedLate)) := by
  have inStep : (after .mixed (Call.pressedBehind ++ [.tick (.ofWord 20)])).expects ⟨1⟩ = true := by cbv
  have spared : Spares .mixed ⟨⟨1⟩, true, .ofWord 20⟩
      ((after .mixed Call.pressedBehind).watch .mixed (.down 1 20 :: Call.bothLifted)) :=
    of_decide_eq_true (by cbv)
  have keepsBack : (after .mixed (Call.pressedBehind ++ [.tick (.ofWord 20)])).KeepsBack .mixed
      ⟨⟨1⟩, true, .ofWord 20⟩ := of_decide_eq_true (by cbv)
  have inStep' : (after .mixed (Call.pressedAhead ++ [.tick (.ofWord 20)])).expects ⟨1⟩ = true := by cbv
  have spared' : Spares .mixed ⟨⟨1⟩, true, .ofWord 20⟩
      ((after .mixed Call.pressedAhead).watch .mixed (.down 1 20 :: Call.bothLiftedLate)) :=
    of_decide_eq_true (by cbv)
  have keepsBack' : (after .mixed (Call.pressedAhead ++ [.tick (.ofWord 20)])).KeepsBack .mixed
      ⟨⟨1⟩, true, .ofWord 20⟩ := of_decide_eq_true (by cbv)
  refine ⟨by decide, keepsBack, ?_, keepsBack', ?_⟩
  · exact malformed_ignored .mixed Call.pressedBehind Call.bothLifted ⟨⟨1⟩, true, .ofWord 20⟩
      (by decide) (by decide) inStep spared
  · exact malformed_ignored .mixed Call.pressedAhead Call.bothLiftedLate ⟨⟨1⟩, true, .ofWord 20⟩
      (by decide) (by decide) inStep' spared'

set_option maxRecDepth 10000 in
/-- If the key went down before the waiting one did, the second press is the only one behind the waiting key,
and with the release that follows it decides that the waiting key is held. -/
theorem malformed_decides :
    ((Call.pressedAhead ++ .down 1 20 :: Call.bothLifted).filterMap Call.time?).Pairwise (· ≤ ·) ∧
    downAfter ⟨1⟩ false (Call.events Call.pressedAhead) = true ∧
    (after .mixed (Call.pressedAhead ++ [.tick (.ofWord 20)])).expects ⟨1⟩ = true ∧
    (after .mixed (Call.pressedAhead ++ .down 1 20 :: Call.bothLifted)).journal.stream =
      [.press .b, .modifiers (.single .leftControl), .release .b, .modifiers ∅] ∧
    (after .mixed (Call.pressedAhead ++ .tick (.ofWord 20) :: Call.bothLifted)).journal.stream =
      [.press .b, .press .a, .release .b, .release .a] ∧
    ¬(after .mixed (Call.pressedAhead ++ .down 1 20 :: Call.bothLifted)).Agrees
      (after .mixed (Call.pressedAhead ++ .tick (.ofWord 20) :: Call.bothLifted)) := by
  have given : (after .mixed (Call.pressedAhead ++ .down 1 20 :: Call.bothLifted)).journal.stream =
      [.press .b, .modifiers (.single .leftControl), .release .b, .modifiers ∅] := by cbv
  have spare : (after .mixed (Call.pressedAhead ++ .tick (.ofWord 20) :: Call.bothLifted)).journal.stream =
      [.press .b, .press .a, .release .b, .release .a] := by cbv
  refine ⟨by decide, by decide, by cbv, given, spare, fun agrees => ?_⟩
  exact absurd (given.symm.trans (agrees.stream.trans spare)) (by decide)

end Engine

end KeyEngine
