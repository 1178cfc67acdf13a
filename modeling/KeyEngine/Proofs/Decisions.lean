import Mathlib.Data.List.DropRight
import KeyEngine.Proofs.KeptBack

/-!
# When a waiting key is settled

How a key was meant that waits is decided by what the engine does after the press: time passes, the key
itself goes up, or the event of another key tells. `ruling` says what decides, and knows of the past only
the press and the events fed since. `settled_as_ruled` says that the engine settles the key at the first
moment that decides, and as this moment decides.

One thing is not obvious: the engine never asks whether an event comes too late for the waiting key. It
need not, as it looks at the deadline in front of each event that arrives or that gets its turn. The one
event without such a look in front is a release that settled a key and gets its turn after what was kept
back behind that key. It comes in time for every key that starts to wait meanwhile, since that key went
down later than the one that was settled (`InTime.step`).
-/

namespace KeyEngine

namespace Signal

/-- The key that was settled by a signal, and how it was meant. -/
def settled? : Signal → Option (Key × Decision)
  | settled waiting decision => some (waiting, decision)
  | _ => none

end Signal

namespace Journal

/-- The keys that were settled, and how they were meant. -/
def settlements (journal : Journal) : List (Key × Decision) := journal.toList.filterMap Signal.settled?

/-- What more notes say of the keys that were settled. -/
theorem settlements_of_own {journal next : Journal} {notes : List Signal}
    (noted : next.own = journal.own ++ notes) :
    next.settlements = journal.settlements ++ notes.filterMap Signal.settled? := by
  have eq (journal : Journal) : journal.settlements = journal.own.filterMap Signal.settled? := by
    refine (filterMap_own (fun signal silent => ?_) journal).symm
    cases signal with
    | settled key decision => cases silent
    | _ => rfl
  rw [eq, noted, List.filterMap_append, ← eq]

/-- A warning says nothing of them. -/
theorem settlements_warn (s : Engine) (warning : Warning) :
    (s.warn warning).journal.settlements = s.journal.settlements := by
  show settlements (s.journal.push (.warning warning)) = _
  simp [settlements, Signal.settled?]

end Journal

/-- Whether the event of another key decides that a waiting key is held, by the events fed since. -/
def InterruptPolicy.decides (policy : InterruptPolicy) (fed : List KeyEvent) (event : KeyEvent) : Bool :=
  match policy with
  | .holdOnOtherKeyPress => event.pressed
  | .permissiveHold => !event.pressed && fed.any fun e => e.pressed && e.key == event.key
  | .ignoreInterrupt => false

/-- How a deed decides that a key was meant which went down at a moment and waits, by the events fed since;
nothing if it decides nothing. -/
def Deed.ruling (settings : Settings) (key : Key) (since : Millis) (fed : List KeyEvent) :
    Deed → Option Decision
  | .task (.expire now) => if since.after settings.tappingTerm ≤ now then some .hold else none
  | .task (.feed event) =>
    if since.after settings.tappingTerm ≤ event.time then some .hold
    else if event.key = key then if event.pressed then none else some .tap
    else if settings.policy.decides fed event then some .hold else none
  | .elapse _ => none
  | .cancel => none

namespace Moment

/-- The event that a moment feeds to the key that waits. A press that means cancel is acted on instead. -/
def fed? (p : Profile) (m : Moment) : Option KeyEvent :=
  match m.deed with
  | .task task => if m.cancels p then none else task.event?
  | _ => none

/-- The events that moments feed to the key that waits. -/
def fed (p : Profile) (moments : List Moment) : List KeyEvent := moments.filterMap (fed? p)

/-- An event is fed before the waiting key is due. -/
def InTime (m : Moment) : Prop :=
  ∀ event, m.deed = .task (.feed event) → m.state.tapHold.isDue event.time = false

end Moment

/-- On the small keyboard, a key waits behind another one, and a third one goes down behind both; then the
first one is tapped. -/
def Call.behindTapped : List Call := [.down 0 0, .down 1 10, .down 2 20, .up 0 50]

namespace PendingKey

/-- The key that waits, after events were fed to it: those of other keys were kept back. -/
def fed (head : PendingKey) (events : List KeyEvent) : PendingKey :=
  { head with buffer := head.buffer ++ events.filter (·.key ≠ head.key) }

variable {head : PendingKey} {events : List KeyEvent} {event : KeyEvent}

/-- An event of the waiting key itself is not kept back behind it. -/
theorem fed_own (own : (head.fed events).key = event.key) :
    head.fed (events ++ [event]) = head.fed events := by
  have own : head.key = event.key := own
  simp [fed, own]

/-- An event of another key is kept back behind the waiting key. -/
theorem fed_other (other : (head.fed events).key ≠ event.key) :
    head.fed (events ++ [event]) = (head.fed events).push event := by
  have other : head.key ≠ event.key := other
  simp [fed, push, Ne.symm other]

/-- An event decides by what was kept back as by everything that was fed. -/
theorem interruptedBy_fed {action : Action} {key : Key} {time term : Millis} (other : key ≠ event.key)
    (policy : InterruptPolicy) : (((new key action time term).fed events).push event).interruptedBy policy event =
      policy.decides events event := by
  cases policy with
  | holdOnOtherKeyPress => rfl
  | ignoreInterrupt => rfl
  | permissiveHold =>
    have only (e : KeyEvent) : (decide (e.key ≠ key) && (e.pressed && e.key == event.key)) =
        (e.pressed && e.key == event.key) := by
      by_cases same : e.key = event.key
      · simp [same, Ne.symm other]
      · simp [same]
    show (!event.pressed && (events.filter (·.key ≠ key) ++ [event]).any fun e =>
      e.pressed && e.key == event.key) = (!event.pressed && events.any fun e => e.pressed && e.key == event.key)
    rw [List.any_append, List.any_filter, funext only]
    cases pressed : event.pressed <;> simp [pressed]

end PendingKey

namespace Engine

variable {p : Profile} {s next : Engine} {coming : List KeyEvent}

/-- Every event of an agenda comes in time for whatever key will wait when it gets its turn: either the
engine looks at the deadline right before, or no key will be due. -/
def InTime (p : Profile) (s : Engine) (agenda : List Task) : Prop :=
  ∀ front event back, agenda = front ++ .feed event :: back →
    (∃ sooner, front = sooner ++ [.expire event.time]) ∨ s.Early p event.time (Task.events front)

namespace InTime

/-- The engine looks at the deadline before each event that was kept back. -/
theorem replay {events : List KeyEvent} {front back : List Task} {event : KeyEvent}
    (parts : Task.replay events = front ++ .feed event :: back) :
    ∃ sooner, front = sooner ++ [.expire event.time] := by
  induction events generalizing front with
  | nil => simp [Task.replay] at parts
  | cons first rest ih =>
    change .expire first.time :: .feed first :: Task.replay rest = _ at parts
    rcases front with - | ⟨task, - | ⟨other, front⟩⟩
    · cases parts
    · cases parts
      exact ⟨[], rfl⟩
    · simp only [List.cons_append, List.cons.injEq] at parts
      obtain ⟨rfl, rfl, later⟩ := parts
      obtain ⟨sooner, rfl⟩ := ih later
      exact ⟨.expire first.time :: .feed first :: sooner, rfl⟩

/-- Every task leaves the events of the agenda in time, if they are in the order of their times. -/
theorem step {task : Task} {rest more : List Task}
    (ordered : s.Ordered p (Task.events (task :: rest) ++ coming)) (inTime : InTime p s (task :: rest))
    (taken : Step p s task next more) : InTime p next (more ++ rest) := by
  intro front event back parts
  rcases append_eq_append_cons parts with ⟨others, parts'⟩ | ⟨others, rfl, rfl⟩
  · -- The event was kept back, or it is the release that settled the key.
    cases taken with
    | @due now head =>
      rcases append_eq_append_cons parts' with ⟨others, kept⟩ | ⟨others, -, last⟩
      · exact .inl (replay kept)
      · simp [List.singleton_eq_append_iff] at last
    | @lift release head waiting =>
      rcases append_eq_append_cons parts' with ⟨others, kept⟩ | ⟨others, rfl, last⟩
      · exact .inl (replay kept)
      · obtain ⟨rfl, rfl⟩ : others = [] ∧ release = event := by
          cases others with
          | nil => cases last; exact ⟨rfl, rfl⟩
          | cons first others => simp at last
        rcases inTime [] release rest rfl with ⟨sooner, looks⟩ | early
        · simp at looks
        · simpa using Or.inr (early.settled .tap waiting)
    | interrupt => exact .inl (replay parts')
    | _ => simp at parts'
  · rcases inTime (task :: others) event back rfl with ⟨sooner, looks⟩ | early
    · cases others with
      | nil =>
        obtain ⟨rfl, rfl⟩ : sooner = [] ∧ task = .expire event.time := by
          cases sooner with
          | nil => exact ⟨rfl, (List.cons.inj looks).1⟩
          | cons first sooner => simp at looks
        cases taken with
        | early early => exact .inr (.of_ordered ordered early)
        | @due now head waiting due => exact .inl ⟨Task.replay head.buffer, by simp⟩
      | cons first others =>
        -- The look right before the event is still to come.
        obtain ⟨sooner', rfl⟩ : ∃ sooner', sooner = task :: sooner' := by
          cases sooner with
          | nil => simp at looks
          | cons head sooner => exact ⟨sooner, by rw [(List.cons.inj looks).1]⟩
        obtain ⟨-, looks⟩ := List.cons.inj looks
        exact .inl ⟨more ++ sooner', by rw [looks, List.append_assoc]; rfl⟩
    · exact .inr (early.step taken)

/-- Every moment of doing an agenda that comes in time is in time. -/
theorem doing {agenda : List Task} (inTime : InTime p s agenda)
    (ordered : s.Ordered p (Task.events agenda ++ coming)) : ∀ m ∈ s.doing p agenda, m.InTime := by
  induction s, agenda using run.induct p with
  | case1 s =>
    rw [Engine.doing]
    intro m member
    cases member
  | case2 s task rest ih =>
    rw [Engine.doing]
    intro m member
    rcases List.mem_cons.1 member with rfl | later
    · rintro event ⟨⟩
      rcases inTime [] event rest rfl with ⟨sooner, looks⟩ | early
      · simp at looks
      · exact early.isDue
    · have taken := step_spec p s task
      exact ih (step ordered inTime taken) (ordered.step taken) m later

/-- Every moment of a tick is in time. -/
theorem ticking (ordered : s.Ordered p coming) (now : Millis) : ∀ m ∈ s.ticking p now, m.InTime := by
  intro m member
  rcases List.mem_append.1 member with within | last
  · have looks : InTime p s [.expire now] := by
      intro front event back parts
      cases front with
      | nil => cases parts
      | cons first front => simp at parts
    have here : s.Ordered p (Task.events [.expire now] ++ coming) := ordered
    exact looks.doing here m within
  · rw [List.mem_singleton.1 last]
    rintro event ⟨⟩

/-- No event comes too late for a waiting key, if all events are in the order of their times. -/
theorem course {calls : List Call} (ordered : s.Ordered p (Call.events calls)) :
    ∀ m ∈ s.course p calls, m.InTime := by
  induction calls generalizing s with
  | nil =>
    intro m member
    cases member
  | cons call rest ih =>
    rw [Call.events_cons] at ordered
    have next : ([call].foldl (answer p) s).Ordered p (Call.events rest) := ordered.answers
    intro m member
    rcases List.mem_append.1 member with here | later
    · cases call with
      | event event =>
        rcases List.mem_append.1 here with ticks | feeds
        · exact ticking ordered event.time m ticks
        · have ticked := ordered.tick event.time
          have early : InTime p (s.tick p event.time) [.feed event] := by
            intro front other back parts
            cases front with
            | nil =>
              cases parts
              exact .inr (.of_ordered ticked (isDue_tick p event.time s))
            | cons first front => simp at parts
          exact early.doing ticked m feeds
      | tick now => exact ticking ordered now m here
      | cancel =>
        rw [List.mem_singleton.1 here]
        rintro event ⟨⟩
    · exact ih next m later

end InTime

/-- As long as a key waits, a task puts nothing in front of the agenda. -/
theorem doing_of_pending {task : Task} (still : (step p s task).1.isPending = true) :
    s.doing p [task] = [⟨s, .task task⟩] := by
  have nothing : (step p s task).2 = [] := by
    have taken := step_spec p s task
    generalize (step p s task).1 = next, (step p s task).2 = more at taken still ⊢
    have ends {decision : Decision} {head : PendingKey} (still : (s.settled p decision head).isPending = true) :
        more = [] := by
      rw [isPending, tapHold_settled] at still
      cases still
    cases taken with
    | due | lift | interrupt => exact ends still
    | _ => rfl
  rw [doing, nothing, List.nil_append, doing]

/-- The first moment of a task that is done while a key waits is the only one before it is settled. -/
theorem inTime_of_doing {task : Task} {waits later : List Moment} {m : Moment}
    (parts : s.doing p [task] = waits ++ m :: later) (stays : ∀ n ∈ waits, (n.next p).isPending = true)
    (prompt : ∀ event, task = .feed event → s.tapHold.isDue event.time = false) : m.InTime := by
  cases waits with
  | nil =>
    rw [doing] at parts
    cases parts
    rintro event ⟨⟩
    exact prompt event rfl
  | cons n waits =>
    have first : n = ⟨s, .task task⟩ := by
      rw [doing] at parts
      exact (List.cons.inj parts).1.symm
    have still : (step p s task).1.isPending = true := by
      have := stays n (.head _)
      rwa [first] at this
    rw [doing_of_pending still] at parts
    simp at parts

/-- Between two calls nothing is on the agenda. Up to where the waiting key is settled, no event comes too
late for it then, whatever the times are. -/
theorem inTime_of_stays {calls : List Call} {waits later : List Moment} {m : Moment}
    (parts : s.course p calls = waits ++ m :: later) (stays : ∀ n ∈ waits, (n.next p).isPending = true) :
    m.InTime := by
  have ticks {s : Engine} {now : Millis} {waits later : List Moment}
      (parts : s.ticking p now = waits ++ m :: later) (stays : ∀ n ∈ waits, (n.next p).isPending = true) :
      m.InTime := by
    rcases append_eq_append_cons parts with ⟨others, here⟩ | ⟨others, rfl, last⟩
    · exact inTime_of_doing here stays nofun
    · have here : m ∈ [(⟨s.run p [.expire now], .elapse now⟩ : Moment)] := by simp [last]
      rw [List.mem_singleton.1 here]
      rintro event ⟨⟩
  induction calls generalizing s waits with
  | nil => simp [course] at parts
  | cons call rest ih =>
    rcases append_eq_append_cons parts with ⟨others, here⟩ | ⟨others, rfl, later⟩
    · cases call with
      | event event =>
        rcases append_eq_append_cons here with ⟨others, here⟩ | ⟨others, rfl, fed⟩
        · exact ticks here stays
        · refine inTime_of_doing fed (fun n member => stays n (List.mem_append_right _ member)) ?_
          rintro _ ⟨⟩
          exact isDue_tick p event.time s
      | tick now => exact ticks here stays
      | cancel =>
        have last : m ∈ [(⟨s, .cancel⟩ : Moment)] := by
          change [_] = _ at here
          simp [here]
        rw [List.mem_singleton.1 last]
        rintro event ⟨⟩
    · exact ih later fun n member => stays n (List.mem_append_right _ member)

/-- A key waits that went down at a moment, and events were fed to it since. -/
def Awaits (p : Profile) (s : Engine) (key : Key) (action : Action) (since : Millis)
    (events : List KeyEvent) : Prop :=
  s.tapHold.head = some ((PendingKey.new key action since p.settings.tappingTerm).fed events)

/-- A press that means cancel is ignored, or nothing waits any more. -/
theorem head_dispatch_of_cancel {event : KeyEvent} (pressed : event.pressed = true)
    (cancels : s.resolve p event.key = .cancel) : (s.dispatch p event).tapHold.head = s.tapHold.head ∨
      (s.dispatch p event).tapHold.head = none := by
  unfold dispatch
  rw [if_pos pressed]
  cases down : s.active.contains event.key with
  | true =>
    rw [press_of_down (s := s.announce (.dispatched event)) down]
    exact .inl rfl
  | false =>
    have means : (s.announce (.dispatched event)).resolve p event.key = .cancel := cancels
    rw [press_of_up (s := s.announce (.dispatched event)) down, performed, means]
    exact .inr rfl

namespace Awaits

variable {key : Key} {action : Action} {since : Millis} {events : List KeyEvent} {m : Moment}

/-- An awaited key waits. -/
theorem isPending (awaits : s.Awaits p key action since events) : s.isPending = true := by
  rw [Engine.isPending, TapHold.isPending, show s.tapHold.head = _ from awaits]
  rfl

/-- An awaited key is down, and is noted as waiting since its press. -/
theorem down (awaits : s.Awaits p key action since events) (consistent : s.Consistent) :
    s.active.find? key = some ⟨action, .pending since⟩ :=
  consistent.down _ awaits

/-- An awaited key is due once the tapping term has passed since its press. -/
theorem isDue_eq (awaits : s.Awaits p key action since events) (now : Millis) :
    s.tapHold.isDue now = decide (since.after p.settings.tappingTerm ≤ now) := by
  rw [TapHold.isDue, show s.tapHold.head = _ from awaits]
  rfl

/-- An event in time for an awaited key is fed before the tapping term has passed. -/
theorem not_late {event : KeyEvent} (awaits : s.Awaits p key action since events)
    (inTime : (Moment.mk s (.task (.feed event))).InTime) :
    ¬since.after p.settings.tappingTerm ≤ event.time := by
  have early := inTime event rfl
  rwa [awaits.isDue_eq, decide_eq_false_iff_not] at early

/-- The event of another key decides as what was kept back says. -/
theorem ruling_other {event : KeyEvent} (awaits : s.Awaits p key action since events)
    (other : key ≠ event.key) (inTime : (Moment.mk s (.task (.feed event))).InTime) :
    Deed.ruling p.settings key since events (.task (.feed event)) =
      if (((PendingKey.new key action since p.settings.tappingTerm).fed events).push event).interruptedBy
        p.settings.policy event then some .hold else none := by
  rw [Deed.ruling, if_neg (awaits.not_late inTime), if_neg (Ne.symm other), PendingKey.interruptedBy_fed other]

/-- As long as the key waits, everything fed to it is added. -/
theorem after_moment (awaits : m.state.Awaits p key action since events)
    (still : (m.next p).isPending = true) :
    (m.next p).Awaits p key action since (events ++ (m.fed? p).toList) := by
  obtain ⟨s, deed⟩ := m
  have settles {decision : Decision} {head : PendingKey} {goal : Prop}
      (still : (s.settled p decision head).isPending = true) : goal := by
    rw [Engine.isPending, tapHold_settled] at still
    cases still
  cases deed with
  | elapse now =>
    rw [Moment.fed?, Option.toList_none, List.append_nil]
    exact awaits
  | cancel => cases still
  | task task =>
    have taken := step_spec p s task
    change (step p s task).1.isPending = true at still
    show (step p s task).1.Awaits p key action since _
    generalize (step p s task).1 = next, (step p s task).2 = more at taken still ⊢
    cases taken with
    | early => simpa [Moment.fed?, Task.event?] using awaits
    | due => exact settles still
    | act idle =>
      rw [Awaits, idle] at awaits
      cases awaits
    | @again event head waiting own =>
      obtain rfl := Option.some.inj (waiting.symm.trans awaits)
      have fed : (Moment.mk s (.task (.feed event))).fed? p = some event := by
        simp [Moment.fed?, Moment.cancels, waiting, own, Task.event?]
      rw [fed, Awaits, Option.toList_some, PendingKey.fed_own own]
      exact waiting
    | lift => exact settles still
    | @abort event head waiting other pressed cancels =>
      have fed : (Moment.mk s (.task (.feed event))).fed? p = none := by
        simp [Moment.fed?, cancels_of_actsOn (actsOn_of_cancel waiting other pressed cancels) pressed cancels]
      rw [fed, Option.toList_none, List.append_nil]
      rcases head_dispatch_of_cancel pressed cancels with same | idle
      · exact same.trans awaits
      · rw [Engine.isPending, TapHold.isPending, idle] at still
        cases still
    | @keep event head waiting other goes =>
      obtain rfl := Option.some.inj (waiting.symm.trans awaits)
      have spares : (Moment.mk s (.task (.feed event))).cancels p = false := by
        cases pressed : event.pressed with
        | false => simp [Moment.cancels, pressed]
        | true => simp [Moment.cancels, goes pressed]
      have fed : (Moment.mk s (.task (.feed event))).fed? p = some event := by
        simp [Moment.fed?, spares, Task.event?]
      rw [fed, Awaits, Option.toList_some, PendingKey.fed_other other]
      rfl
    | interrupt => exact settles still

/-- A moment other than a cancel, at which an event comes in time, settles the waiting key exactly if it
decides, and then as it decides. -/
theorem ruled (awaits : m.state.Awaits p key action since events) (goes : m.cancels p = false)
    (inTime : m.InTime) :
    (m.deed.ruling p.settings key since events = none ∧ (m.next p).isPending = true ∧
      (m.next p).journal.settlements = m.state.journal.settlements) ∨
    ∃ decision last, m.deed.ruling p.settings key since events = some decision ∧ last.key = key ∧
      m.next p = m.state.settled p decision last := by
  obtain ⟨s, deed⟩ := m
  cases deed with
  | elapse now =>
    refine .inl ⟨rfl, awaits.isPending, ?_⟩
    have noted : (s.elapse p now).journal.own = s.journal.own ++ [] := by rw [own_elapse, List.append_nil]
    exact (Journal.settlements_of_own noted).trans (List.append_nil _)
  | cancel => cases goes
  | task task =>
    have taken := step_spec p s task
    show (_ ∧ (step p s task).1.isPending = true ∧ (step p s task).1.journal.settlements = _) ∨
      ∃ decision last, _ ∧ _ ∧ (step p s task).1 = _
    generalize (step p s task).1 = next, (step p s task).2 = more at taken
    cases taken with
    | @early now early =>
      rw [awaits.isDue_eq, decide_eq_false_iff_not] at early
      exact .inl ⟨if_neg early, awaits.isPending, rfl⟩
    | @due now head waiting due =>
      obtain rfl := Option.some.inj (waiting.symm.trans awaits)
      exact .inr ⟨.hold, _, if_pos (Millis.isDue_iff.1 due), rfl, rfl⟩
    | act idle =>
      rw [Awaits, idle] at awaits
      cases awaits
    | @again event head waiting own pressed =>
      obtain rfl := Option.some.inj (waiting.symm.trans awaits)
      have own : event.key = key := own.symm
      have decides : Deed.ruling p.settings key since events (.task (.feed event)) = none := by
        rw [Deed.ruling, if_neg (awaits.not_late inTime), if_pos own, if_pos pressed]
      exact .inl ⟨decides, awaits.isPending, Journal.settlements_warn _ _⟩
    | @lift event head waiting own released =>
      obtain rfl := Option.some.inj (waiting.symm.trans awaits)
      have own : event.key = key := own.symm
      have decides : Deed.ruling p.settings key since events (.task (.feed event)) = some .tap := by
        rw [Deed.ruling, if_neg (awaits.not_late inTime), if_pos own, if_neg (Bool.eq_false_iff.1 released)]
      exact .inr ⟨.tap, _, decides, rfl, rfl⟩
    | @abort event head waiting other pressed cancels =>
      rw [cancels_of_actsOn (actsOn_of_cancel waiting other pressed cancels) pressed cancels] at goes
      cases goes
    | @keep event head waiting other _ undecided =>
      obtain rfl := Option.some.inj (waiting.symm.trans awaits)
      exact .inl ⟨awaits.ruling_other other inTime |>.trans (if_neg (by simp [undecided])), rfl, rfl⟩
    | @interrupt event head waiting other _ decides =>
      obtain rfl := Option.some.inj (waiting.symm.trans awaits)
      exact .inr ⟨.hold, _, awaits.ruling_other other inTime |>.trans (if_pos decides), rfl, rfl⟩

/-- At a moment other than a cancel, at which an event comes in time, what is noted, whether a key waits and
what the release of the key has to undo are as the moment decides. -/
theorem outcome (awaits : m.state.Awaits p key action since events) (consistent : m.state.Consistent)
    (goes : m.cancels p = false) (inTime : m.InTime) :
    let ruled := m.deed.ruling p.settings key since events
    (m.next p).journal.settlements = m.state.journal.settlements ++ (ruled.map (key, ·)).toList ∧
    (m.next p).isPending = ruled.isNone ∧
    (m.next p).active.find? key = some ⟨action, (ruled.map Decision.state).getD (.pending since)⟩ := by
  intro ruled
  rcases awaits.ruled goes inTime with ⟨silent, still, same⟩ | ⟨decision, last, decides, own, settles⟩
  · have later := (consistent_lasting p).next m consistent
    rw [show ruled = none from silent]
    exact ⟨same.trans (List.append_nil _).symm, still, (awaits.after_moment still).down later⟩
  · rw [show ruled = some decision from decides, settles]
    refine ⟨?_, ?_, ?_⟩
    · rw [Journal.settlements_of_own (own_settled p m.state decision last), own]
      rfl
    · rw [Engine.isPending, tapHold_settled]
      rfl
    · rw [active_settled, ActiveKeys.find?_setState, own, awaits.down consistent]
      simp

/-- A key starts to wait when its press is acted on. -/
theorem begins {b : Moment} (free : b.state.isPending = false) (waits : (b.next p).isPending = true) :
    ∃ key action since, b.deed = .task (.feed ⟨key, true, since⟩) ∧
      (b.next p).Awaits p key action since [] := by
  obtain ⟨s, deed⟩ := b
  have idle := head_of_free free
  have waiting (next : Engine) (same : next.tapHold.head = none) : next.isPending ≠ true := by
    rw [Engine.isPending, TapHold.isPending, same]
    exact Bool.false_ne_true
  cases deed with
  | elapse now => exact absurd waits (waiting _ idle)
  | cancel => exact absurd waits (waiting _ rfl)
  | task task =>
    cases task with
    | expire now =>
      have early : s.tapHold.isDue now = false := by
        rw [TapHold.isDue, show s.tapHold.head = none from idle]
        rfl
      have waits : (step p s (.expire now)).1.isPending = true := waits
      rw [step_expire_of_early early] at waits
      exact absurd waits (waiting s idle)
    | feed event =>
      rw [next_of_actsOn (actsOn_of_idle idle)] at waits ⊢
      cases pressed : event.pressed with
      | false =>
        exact absurd waits (waiting _ ((head_dispatch_of_release pressed).trans idle))
      | true =>
        rcases head_dispatch p event s with same | none | ⟨action, begun⟩
        · exact absurd waits (waiting _ (same.trans idle))
        · exact absurd waits (waiting _ none)
        · obtain ⟨key, _, since⟩ := event
          cases pressed
          exact ⟨key, action, since, rfl, begun⟩

/-- It still waits, with everything that was fed since. -/
theorem later {t : Engine} {moments : List Moment} (awaits : s.Awaits p key action since events)
    (leads : Leads p s moments t) (stays : ∀ n ∈ moments, (n.next p).isPending = true) :
    t.Awaits p key action since (events ++ Moment.fed p moments) := by
  induction moments generalizing s events with
  | nil =>
    rw [Moment.fed, List.filterMap_nil, List.append_nil]
    exact leads ▸ awaits
  | cons n rest ih =>
    obtain ⟨rfl, leads⟩ := leads
    have grown := ih (awaits.after_moment (stays n (.head _))) leads fun m member => stays m (.tail _ member)
    have parts : Moment.fed p (n :: rest) = (n.fed? p).toList ++ Moment.fed p rest := by
      rw [Moment.fed, List.filterMap_cons]
      cases n.fed? p <;> rfl
    rwa [parts, ← List.append_assoc]

end Awaits

/-- Moments lead from one state to one state only. -/
theorem Leads.unique {t u : Engine} {moments : List Moment} (leads : Leads p s moments t)
    (other : Leads p s moments u) : t = u := by
  induction moments generalizing s with
  | nil => exact leads.symm.trans other
  | cons m rest ih => exact ih leads.2 other.2

/-- The moments at the end of a course since a key waits, which all start with the key waiting. -/
def sinceBegun (moments : List Moment) : List Moment := moments.rtakeWhile (·.state.isPending)

/-- Where a key waits, its press was acted on at some moment, and nothing but what was fed since is kept
back. -/
theorem begun {moments : List Moment} {head : PendingKey} (leads : Leads p start moments s)
    (waiting : s.tapHold.head = some head) :
    (∃ before b, moments = before ++ b :: sinceBegun moments ∧ b.state.isPending = false ∧
      b.deed = .task (.feed ⟨head.key, true, head.since⟩)) ∧
    s.Awaits p head.key head.action head.since (Moment.fed p (sinceBegun moments)) := by
  have pending : s.isPending = true := by rw [isPending, TapHold.isPending, waiting, Option.isSome_some]
  obtain ⟨before, b, since, rfl, free, waits, stays⟩ :=
    leads.last_start (P := fun s => s.isPending = true) Bool.false_ne_true pending
  have free := Bool.eq_false_iff.2 free
  have last : sinceBegun (before ++ b :: since) = since := by
    have all : ∀ n ∈ since.reverse, n.state.isPending = true := fun n member =>
      (stays n (List.mem_reverse.1 member)).1
    have ends : (b :: before.reverse).takeWhile (·.state.isPending) = [] :=
      List.takeWhile_cons_of_neg (Bool.eq_false_iff.1 free)
    rw [sinceBegun, List.rtakeWhile, List.reverse_append, List.reverse_cons, List.append_assoc,
      List.takeWhile_append_of_pos all, List.singleton_append, ends, List.append_nil, List.reverse_reverse]
  obtain ⟨key, action, pressed, fed, begins⟩ := Awaits.begins free waits
  obtain ⟨u, -, rfl, leads⟩ := leads_append.1 leads
  have awaits := begins.later leads fun n member => (stays n member).2
  obtain rfl := Option.some.inj (waiting.symm.trans awaits)
  rw [last]
  exact ⟨⟨before, b, rfl, free, fed⟩, awaits⟩

/-- As long as nothing decides, the key waits. -/
theorem Awaits.undecided {t : Engine} {key : Key} {action : Action} {since : Millis} {events : List KeyEvent}
    {waits : List Moment} (awaits : s.Awaits p key action since events) (leads : Leads p s waits t)
    (goes : ∀ n ∈ waits, n.cancels p = false)
    (prompt : ∀ front m back, waits = front ++ m :: back → (∀ n ∈ front, (n.next p).isPending = true) →
      m.InTime)
    (undecided : ∀ front m back, waits = front ++ m :: back →
      m.deed.ruling p.settings key since (events ++ Moment.fed p front) = none) :
    ∀ n ∈ waits, (n.next p).isPending = true := by
  induction waits using List.reverseRecOn generalizing t with
  | nil =>
    intro n member
    cases member
  | append_singleton front m ih =>
    obtain ⟨u, first, rfl, rfl⟩ := leads_append.1 leads
    have stays := ih first (fun n member => goes n (List.mem_append_left _ member))
      (fun front' n back parts => prompt front' n (back ++ [m]) (by rw [parts]; simp))
      (fun front' n back parts => undecided front' n (back ++ [m]) (by rw [parts]; simp))
    have grown := awaits.later first stays
    rcases grown.ruled (goes m (by simp)) (prompt front m [] rfl stays) with
      ⟨-, still, -⟩ | ⟨decision, last, decides, -⟩
    · intro n member
      rcases List.mem_append.1 member with earlier | here
      · exact stays n earlier
      · rw [List.mem_singleton.1 here]
        exact still
    · rw [undecided front m [] rfl] at decides
      cases decides

/-- A waiting key is settled by what decides first. After any calls, let a key wait at some point: it went
down at a moment since which it waits. Of what comes next, up to a cancel or a press that means cancel,
the first thing that decides by the press and by the events fed since settles the key, and settles it
accordingly; nothing before it does. It does not matter how the key began to wait, by an event that had
just arrived or by one that had been kept back, if all events kept back and to come are in the order of
their times; and if the point lies between two calls, it does not matter either what their times are. -/
theorem settled_as_ruled (p : Profile) (earlier calls : List Call) {before rest : List Moment} {s : Engine}
    {head : PendingKey} (course : (after p earlier).course p calls = before ++ rest)
    (leads : Leads p (after p earlier) before s) (waiting : s.tapHold.head = some head)
    (timely : before = [] ∨ (after p earlier).Ordered p (Call.events calls)) :
    let since := sinceBegun (start.course p earlier ++ before)
    (∃ first b, start.course p earlier ++ before = first ++ b :: since ∧ b.state.isPending = false ∧
      b.deed = .task (.feed ⟨head.key, true, head.since⟩)) ∧
    ∀ waits m later, rest = waits ++ m :: later → (∀ n ∈ waits ++ [m], n.cancels p = false) →
      (∀ front n back, waits = front ++ n :: back →
        n.deed.ruling p.settings head.key head.since (Moment.fed p (since ++ front)) = none) →
      let ruled := m.deed.ruling p.settings head.key head.since (Moment.fed p (since ++ waits))
      (m.next p).journal.settlements = m.state.journal.settlements ++ (ruled.map (head.key, ·)).toList ∧
      (m.next p).isPending = ruled.isNone ∧
      (m.next p).active.find? head.key =
        some ⟨head.action, (ruled.map Decision.state).getD (.pending head.since)⟩ := by
  have whole : Leads p start (start.course p earlier ++ before) s :=
    leads_append.2 ⟨_, leads_course p start earlier, leads⟩
  have consistent : s.Consistent := (consistent_lasting p).leads whole consistent_start
  obtain ⟨origin, awaits⟩ := begun whole waiting
  generalize sinceBegun (start.course p earlier ++ before) = since at origin awaits ⊢
  refine ⟨origin, fun waits m later parts goes undecided => ?_⟩
  subst parts
  obtain ⟨u, first, onward⟩ := leads_append.1 (course ▸ leads_course p (after p earlier) calls)
  obtain rfl := first.unique leads
  obtain ⟨v, leads, starts, -⟩ := leads_append.1 onward
  subst starts
  have prompt (front : List Moment) (n : Moment) (back) (parts : waits ++ [m] = front ++ n :: back)
      (stays : ∀ k ∈ front, (k.next p).isPending = true) : n.InTime := by
    have parts : (after p earlier).course p calls = before ++ (front ++ n :: (back ++ later)) := by
      rw [course, ← List.singleton_append, ← List.append_assoc waits, parts]
      simp
    rcases timely with rfl | ordered
    · exact inTime_of_stays parts stays
    · exact InTime.course ordered n (by simp [parts])
  have stays := awaits.undecided leads (fun n member => goes n (List.mem_append_left _ member))
    (fun front n back parts => prompt front n (back ++ [m]) (by rw [parts]; simp))
    (fun front n back parts => by
      have silent := undecided front n back parts
      rwa [Moment.fed, List.filterMap_append] at silent)
  have grown := awaits.later leads stays
  have consistent := (consistent_lasting p).leads leads consistent
  have fed : Moment.fed p (since ++ waits) = Moment.fed p since ++ Moment.fed p waits :=
    List.filterMap_append
  rw [fed]
  exact grown.outcome consistent (goes m (by simp)) (prompt waits m [] rfl stays)

/-- The third key goes up while the second one waits. -/
def thirdUp : Moment :=
  ⟨(after .sample Call.behindTapped).tick .sample (.ofWord 60), .task (.feed ⟨⟨2⟩, false, .ofWord 60⟩)⟩

set_option maxRecDepth 10000 in
/-- The second key began to wait when the first one was tapped, and the press of the third one was fed to it
then. The release of the third key decides that it is held. -/
theorem settled_as_ruled_nested :
    (after .sample Call.behindTapped).tapHold.head = some ⟨⟨1⟩, .layerTap 1 (.ofCode .b), .ofWord 10,
      .ofWord 210, [⟨⟨2⟩, true, .ofWord 20⟩, ⟨⟨0⟩, false, .ofWord 50⟩]⟩ ∧
    (thirdUp.next .sample).journal.settlements = [(⟨0⟩, .tap), (⟨1⟩, .hold)] ∧
    (thirdUp.next .sample).active.find? ⟨1⟩ = some ⟨.layerTap 1 (.ofCode .b), .held⟩ := by
  have waiting : (after .sample Call.behindTapped).tapHold.head = some ⟨⟨1⟩, .layerTap 1 (.ofCode .b),
      .ofWord 10, .ofWord 210, [⟨⟨2⟩, true, .ofWord 20⟩, ⟨⟨0⟩, false, .ofWord 50⟩]⟩ := by cbv
  have still : (step .sample (after .sample Call.behindTapped) (.expire (.ofWord 60))).1.isPending = true := by
    cbv
  have feeds : ∃ later, thirdUp.state.doing .sample [.feed ⟨⟨2⟩, false, .ofWord 60⟩] = thirdUp :: later := by
    rw [doing]
    exact ⟨_, rfl⟩
  obtain ⟨later, feeds⟩ := feeds
  have parts : (after .sample Call.behindTapped).course .sample [.up 2 60] =
      [⟨after .sample Call.behindTapped, .task (.expire (.ofWord 60))⟩,
        ⟨(after .sample Call.behindTapped).run .sample [.expire (.ofWord 60)], .elapse (.ofWord 60)⟩] ++
      thirdUp :: later := by
    rw [← feeds]
    simp only [course, Call.up, answering, ticking, doing_of_pending still, List.append_nil]
    rfl
  have fed : Moment.fed .sample (sinceBegun (start.course .sample Call.behindTapped ++ [])) =
      [⟨⟨2⟩, true, .ofWord 20⟩, ⟨⟨0⟩, false, .ofWord 50⟩] := by cbv
  have settled := (settled_as_ruled .sample Call.behindTapped [.up 2 60] (List.nil_append _).symm rfl waiting
    (.inl rfl)).2 _ _ later parts ?_ ?_
  · have ruled : thirdUp.deed.ruling Profile.sample.settings ⟨1⟩ (.ofWord 10)
        [⟨⟨2⟩, true, .ofWord 20⟩, ⟨⟨0⟩, false, .ofWord 50⟩] = some .hold := by decide
    have before : thirdUp.state.journal.settlements = [(⟨0⟩, .tap)] := by cbv
    rw [Moment.fed, List.filterMap_append, ← Moment.fed, fed] at settled
    dsimp only at settled
    obtain ⟨noted, -, state⟩ := ruled ▸ settled
    exact ⟨waiting, noted.trans (congrArg (· ++ _) before), state⟩
  · rintro n member
    simp only [List.cons_append, List.nil_append, List.mem_cons, List.not_mem_nil, or_false] at member
    rcases member with rfl | rfl | rfl <;> rfl
  · intro front n back same
    rcases front with - | ⟨first, - | ⟨second, front⟩⟩
    · cases same
      decide
    · cases same
      rfl
    · simp at same

end Engine

end KeyEngine
