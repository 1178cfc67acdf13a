import KeyEngine.Proofs.Decisions
import KeyEngine.Proofs.Overdue

/-!
# The waiting key throughout a run

A key that waits is noted twice, and with it what is kept back behind it. `Coherent` lists what then holds:
the two notes agree, nothing of the key itself is kept back, and what is kept back came in order, after the
key went down and before it was due. While a key is being settled and the events behind it get their turns
again, none of this may be taken for granted: one of these events may make the next key wait, and the events
behind it are kept back once more, together with the release that settled the first key. They all came before
the first key was due, and the next one went down later. `coherent_throughout` therefore speaks of every moment
of a run, and of its end.
-/

namespace KeyEngine

namespace Engine

variable {p : Profile} {s : Engine} {coming : List KeyEvent}

namespace Ordered

/-- Events are in order whenever a task is done. -/
theorem of_mem_doing {agenda : List Task} {m : Moment} (ordered : s.Ordered p (Task.events agenda ++ coming))
    (member : m ∈ s.doing p agenda) : ∃ later, m.state.Ordered p later := by
  induction s, agenda using run.induct p with
  | case1 s =>
    rw [doing] at member
    cases member
  | case2 s task rest ih =>
    rw [doing] at member
    rcases List.mem_cons.1 member with rfl | later
    · exact ⟨_, ordered⟩
    · exact ih (ordered.step (step_spec p s task)) later

/-- The events are in order at every moment of a tick. -/
theorem of_mem_ticking {m : Moment} (ordered : s.Ordered p coming) {now : Millis}
    (member : m ∈ s.ticking p now) : ∃ later, m.state.Ordered p later := by
  have due : s.Ordered p (Task.events [.expire now] ++ coming) := ordered
  rcases List.mem_append.1 member with within | last
  · exact due.of_mem_doing within
  · rw [List.mem_singleton.1 last]
    exact ⟨coming, due.run⟩

/-- Events are in order at every moment of a run. -/
theorem of_mem_course {calls : List Call} {m : Moment} (ordered : s.Ordered p (Call.events calls))
    (member : m ∈ s.course p calls) : ∃ later, m.state.Ordered p later := by
  induction calls generalizing s with
  | nil => cases member
  | cons call rest ih =>
    rw [Call.events_cons] at ordered
    rcases List.mem_append.1 member with here | later
    · cases call with
      | event event =>
        rcases List.mem_append.1 here with ticks | feeds
        · exact ordered.of_mem_ticking ticks
        · have fed : (s.tick p event.time).Ordered p (Task.events [.feed event] ++ Call.events rest) :=
            ordered.tick event.time
          exact fed.of_mem_doing feeds
      | tick now => exact ordered.of_mem_ticking here
      | cancel =>
        rw [List.mem_singleton.1 here]
        exact ⟨_, ordered⟩
    · have next : ([call].foldl (answer p) s).Ordered p (Call.events rest) := ordered.answers
      exact ih next later

end Ordered

/-- Whatever is kept back came before the waiting key was due. -/
def KeptInTime (s : Engine) : Prop :=
  ∀ head, s.tapHold.head = some head → ∀ event ∈ head.buffer, event.time < head.deadline

namespace KeptInTime

/-- What is kept back is in time where the same key waits. -/
theorem congr {next : Engine} (kept : s.KeptInTime) (head : next.tapHold.head = s.tapHold.head) :
    next.KeptInTime := fun found waiting => kept found (head ▸ waiting)

/-- Nothing that is kept back can be late while no key waits. -/
theorem of_idle (idle : s.tapHold.head = none) : s.KeptInTime := fun head waiting => by
  rw [idle] at waiting
  cases waiting

/-- A key that starts to wait has nothing behind it. -/
theorem dispatch (kept : s.KeptInTime) (event : KeyEvent) : (s.dispatch p event).KeptInTime := by
  rcases head_dispatch p event s with same | idle | ⟨action, waits⟩
  · exact kept.congr same
  · exact .of_idle idle
  · intro head waiting event member
    obtain rfl := Option.some.inj (waits.symm.trans waiting)
    cases member

/-- Nothing is kept back right after the waiting key was settled. -/
theorem settled (decision : Decision) (head : PendingKey) : (s.settled p decision head).KeptInTime :=
  .of_idle (by rw [tapHold_settled]; rfl)

/-- An event that is kept back before the waiting key is due comes in time. -/
theorem keptBack (kept : s.KeptInTime) {head : PendingKey} (waiting : s.tapHold.head = some head)
    {event : KeyEvent} (early : s.tapHold.isDue event.time = false) : (s.keptBack head event).KeptInTime := by
  rintro _ ⟨⟩ other member
  rcases List.mem_append.1 member with before | last
  · exact kept head waiting other before
  · rw [List.mem_singleton.1 last]
    exact lt_deadline waiting early

/-- No deed changes this, as long as events come in time. -/
theorem next {m : Moment} (inTime : m.InTime) (kept : m.state.KeptInTime) : (m.next p).KeptInTime := by
  obtain ⟨s, deed⟩ := m
  cases deed with
  | elapse now => exact kept.congr rfl
  | cancel => exact .of_idle rfl
  | task task =>
    have taken := step_spec p s task
    show (step p s task).1.KeptInTime
    generalize (step p s task).1 = next, (step p s task).2 = more at taken ⊢
    cases taken with
    | early => exact kept
    | due => exact .settled _ _
    | act => exact kept.dispatch _
    | again => exact kept.congr rfl
    | lift => exact .settled _ _
    | abort => exact kept.dispatch _
    | keep waiting => exact kept.keptBack waiting (inTime _ rfl)
    | interrupt => exact .settled _ _

/-- So it holds at every moment of a run in which events come in time, and at its end. -/
theorem leads {t : Engine} {moments : List Moment} (leads : Leads p s moments t)
    (inTime : ∀ m ∈ moments, m.InTime) (kept : s.KeptInTime) : t.KeptInTime :=
  leads.invariant (fun m member => next (inTime m member)) kept

end KeptInTime

/-- What is noted of the waiting key, and of the events behind it, fits together. -/
structure Coherent (s : Engine) : Prop where
  /-- The key that waits is noted with its action and the moment since which it waits, and no other key is
  noted as waiting. -/
  pending_iff : ∀ key action since, s.active.find? key = some ⟨action, .pending since⟩ ↔
    ∃ head, s.tapHold.head = some head ∧ head.key = key ∧ head.action = action ∧ head.since = since
  /-- At most one key is noted as waiting. -/
  single : ∀ key other action another since later, s.active.find? key = some ⟨action, .pending since⟩ →
    s.active.find? other = some ⟨another, .pending later⟩ → key = other
  /-- The key that waits is down. -/
  down : ∀ head, s.tapHold.head = some head → s.active.contains head.key = true
  /-- Only events of other keys are kept back. -/
  others : ∀ head, s.tapHold.head = some head → ∀ event ∈ head.buffer, event.key ≠ head.key
  /-- They are in the order of their times. -/
  inOrder : ∀ head, s.tapHold.head = some head → head.buffer.Pairwise (·.time ≤ ·.time)
  /-- None of them is earlier than the press of the key, and all came before it was due. -/
  within : ∀ head, s.tapHold.head = some head → ∀ event ∈ head.buffer,
    head.since ≤ event.time ∧ event.time < head.deadline

/-- That a key waits is noted twice alike, and what is kept back behind it is in order and in time. -/
theorem Consistent.coherent (consistent : s.Consistent) (ordered : s.Ordered p coming) (kept : s.KeptInTime) :
    s.Coherent where
  pending_iff key action since := by
    constructor
    · intro waits
      obtain ⟨head, waiting, rfl⟩ := consistent.only key action since waits
      have same := (consistent.down head waiting).symm.trans waits
      simp only [Option.some.injEq, ActiveKey.mk.injEq, KeyState.pending.injEq] at same
      exact ⟨head, waiting, rfl, same⟩
    · rintro ⟨head, waiting, rfl, rfl, rfl⟩
      exact consistent.down head waiting
  single key other action another since later waits waits' := by
    obtain ⟨head, waiting, rfl⟩ := consistent.only key action since waits
    obtain ⟨head', waiting', rfl⟩ := consistent.only other another later waits'
    rw [Option.some.inj (waiting.symm.trans waiting')]
  down head waiting := by
    rw [ActiveKeys.contains, consistent.down head waiting]
    rfl
  others := consistent.others
  inOrder head waiting := by
    have inOrder := (List.pairwise_append.1 ordered.inOrder).1
    rwa [kept_of_waiting waiting] at inOrder
  within head waiting event member := by
    rw [← kept_of_waiting waiting] at member
    have first := ordered.since head waiting event (List.mem_append_left _ member)
    rw [kept_of_waiting waiting] at member
    exact ⟨first, kept head waiting event member⟩

/-- The waiting key and the keys that are down agree. At every moment of a run in which time does not run
backwards, also while events are fed again, and at its end: a key that is down is noted as waiting if and only if
it is the head, with its action and the moment since which it waits, so there is at most one; the head is down;
and the events behind it are of other keys, in the order of their times, not earlier than the press of the head
and earlier than its deadline. -/
theorem coherent_throughout (p : Profile) (calls : List Call)
    (times : (calls.filterMap Call.time?).Pairwise (· ≤ ·)) :
    (∀ m ∈ start.course p calls, m.state.Coherent) ∧ (after p calls).Coherent := by
  have inOrder : start.Ordered p (Call.events calls) := .start (Call.events_inOrder times)
  have inTime : ∀ m ∈ start.course p calls, m.InTime := InTime.course inOrder
  have idle : start.KeptInTime := .of_idle rfl
  constructor
  · intro m member
    obtain ⟨later, ordered⟩ := inOrder.of_mem_course member
    have consistent : m.state.Consistent := (consistent_lasting p).of_mem_course consistent_start member
    obtain ⟨before, behind, split⟩ := List.append_of_mem member
    obtain ⟨_, earlier, rfl, -⟩ := leads_append.1 (split ▸ leads_course p start calls)
    have kept : m.state.KeptInTime :=
      idle.leads earlier fun n within => inTime n (split ▸ List.mem_append_left _ within)
    exact consistent.coherent ordered kept
  · have ordered : start.Ordered p (Call.events calls ++ []) := (List.append_nil _).symm ▸ inOrder
    have consistent : (after p calls).Consistent := (consistent_lasting p).after consistent_start calls
    exact consistent.coherent ordered.answers (idle.leads (leads_course p start calls) inTime)

set_option maxRecDepth 10000 in
/-- A key waits that went down behind another one; the events behind it were fed again when the other one was
tapped, and its release with them. -/
theorem coherent_throughout_nested :
    (Call.behindTapped.filterMap Call.time?).Pairwise (· ≤ ·) ∧
    (after .sample Call.behindTapped).tapHold.head =
      some ⟨⟨1⟩, .layerTap 1 (.ofCode .b), .ofWord 10, .ofWord 210,
        [⟨⟨2⟩, true, .ofWord 20⟩, ⟨⟨0⟩, false, .ofWord 50⟩]⟩ ∧
    (∀ key action since,
      (after .sample Call.behindTapped).active.find? key = some ⟨action, .pending since⟩ ↔
        ⟨1⟩ = key ∧ .layerTap 1 (.ofCode .b) = action ∧ .ofWord 10 = since) := by
  have times : (Call.behindTapped.filterMap Call.time?).Pairwise (· ≤ ·) := by decide
  have waiting : (after .sample Call.behindTapped).tapHold.head =
      some ⟨⟨1⟩, .layerTap 1 (.ofCode .b), .ofWord 10, .ofWord 210,
        [⟨⟨2⟩, true, .ofWord 20⟩, ⟨⟨0⟩, false, .ofWord 50⟩]⟩ := by cbv
  obtain ⟨-, coherent⟩ := coherent_throughout .sample Call.behindTapped times
  refine ⟨times, waiting, fun key action since => ?_⟩
  rw [coherent.pending_iff, waiting]
  simp

end Engine

end KeyEngine
