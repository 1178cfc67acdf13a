import KeyEngine.Proofs.Decisions

/-!
# How much there is to do

When a waiting key is settled, what was kept back behind it comes again and may be kept back once more, behind
a key that only now starts to wait. This ends soon. The agenda is done after a number of tasks that grows with
the square of the events at hand (`advance_iterate`): whenever a task puts others in front of it, there is one
event or one waiting key less, and the tasks it puts there are at most twice as many as those. And for every key
that is settled there was a press that made it wait (`Settles.step`), so that a tick settles one key, and one
more for each press that was kept back, at most. What it leaves is not due (`tick_settles_what_is_due`).
-/

namespace KeyEngine

/-- Each replayed event comes with a look at the deadline in front of it. -/
theorem Task.length_replay (events : List KeyEvent) : (replay events).length = 2 * events.length := by
  induction events with
  | nil => rfl
  | cons event rest ih =>
    show (replay rest).length + 1 + 1 = 2 * (rest.length + 1)
    rw [ih]
    omega

namespace OneShot

/-- A machine that was told the time is not due. -/
theorem isDue_tick (settings : Settings) (now : Millis) (m : OneShot) :
    (m.tick settings now).1.isDue settings now = false := by
  cases due : m.isDue settings now with
  | false => rw [m.tick_of_early settings due, due]
  | true =>
    obtain ⟨phase, taps, lastRelease⟩ := m
    cases phase with
    | queued since =>
      have long : settings.tappingTerm ≤ now.since since := of_decide_eq_true due
      simp [tick, long, isDue]
    | latched deadline =>
      cases deadline with
      | none => cases due
      | some deadline =>
        have come : deadline.isDue now = true := due
        simp [tick, come, isDue, reset]
    | _ => cases due

/-- What it says of a machine that it is not due. -/
theorem isDue_eq_false_iff {settings : Settings} {now : Millis} {m : OneShot} :
    m.isDue settings now = false ↔
      (∀ since, m.phase = .queued since → now.since since < settings.tappingTerm) ∧
        ∀ deadline, m.phase = .latched (some deadline) → now < deadline := by
  obtain ⟨phase, taps, lastRelease⟩ := m
  cases phase with
  | queued since => simp [isDue, Millis.le_def, Millis.lt_def]
  | latched deadline =>
    cases deadline with
    | none => simp [isDue]
    | some deadline => simp [isDue, Bool.eq_false_iff, Millis.isDue_iff, Millis.le_def, Millis.lt_def]
  | _ => simp [isDue]

end OneShot

namespace Engine

variable {p : Profile} {s next : Engine} {coming : List KeyEvent}

/-- Does the first task of an agenda, if there is one. -/
def advance (p : Profile) : Engine × List Task → Engine × List Task
  | (s, []) => (s, [])
  | (s, task :: rest) => ((step p s task).1, (step p s task).2 ++ rest)

/-- The events at hand: those that are kept back, the waiting key, and those of the agenda. -/
def atHand (s : Engine) (agenda : List Task) : Nat := s.backlog + feeds agenda

/-- Tasks at the end of an agenda bring their events to those at hand. -/
theorem atHand_append (s : Engine) (agenda rest : List Task) :
    s.atHand (agenda ++ rest) = s.atHand agenda + feeds rest := by
  simp only [atHand, feeds, List.countP_append, Nat.add_assoc]

/-- A task puts at most twice as many tasks in front of the agenda as there are events at hand. -/
theorem length_step_le (p : Profile) (s : Engine) (task : Task) :
    (step p s task).2.length ≤ 2 * s.atHand [task] := by
  have taken := step_spec p s task
  have waits {head : PendingKey} (waiting : s.tapHold.head = some head) :
      head.buffer.length + 1 = s.backlog := by
    rw [backlog, waiting]
  generalize (step p s task).1 = next, (step p s task).2 = more at taken ⊢
  unfold atHand
  cases taken with
  | due waiting =>
    rw [List.length_append, Task.length_replay, ← waits waiting, List.length_singleton]
    omega
  | lift waiting =>
    rw [List.length_append, Task.length_replay, ← waits waiting, List.length_singleton]
    omega
  | @interrupt event head waiting =>
    have one : feeds [.feed event] = 1 := rfl
    rw [Task.length_replay, ← waits waiting, one, PendingKey.push, List.length_append,
      List.length_singleton]
    omega
  | _ => exact Nat.zero_le _

/-- What is left to do after a task: as many more tasks as it puts in front of the agenda are paid for by the
event that is no longer at hand. -/
theorem effort_decreases (p : Profile) (s : Engine) (task : Task) (rest : List Task) :
    ((step p s task).2 ++ rest).length +
        (step p s task).1.atHand ((step p s task).2 ++ rest) *
          ((step p s task).1.atHand ((step p s task).2 ++ rest) + 1) <
      (task :: rest).length + s.atHand (task :: rest) * (s.atHand (task :: rest) + 1) := by
  have fewer := step_decreases p s task
  have length := length_step_le p s task
  have split : s.atHand (task :: rest) = s.atHand [task] + feeds rest := s.atHand_append [task] rest
  rw [split, atHand_append, List.length_append, List.length_cons]
  change (step p s task).1.atHand (step p s task).2 < s.atHand [task] ∨
    ((step p s task).1.atHand (step p s task).2 ≤ s.atHand [task] ∧ (step p s task).2 = []) at fewer
  generalize (step p s task).1.atHand (step p s task).2 = later at fewer ⊢
  generalize s.atHand [task] = now at fewer length ⊢
  rcases fewer with fewer | ⟨fewer, nothing⟩
  · have paid : (later + feeds rest) * (later + feeds rest + 1) + 2 * (now + feeds rest) ≤
        (now + feeds rest) * (now + feeds rest + 1) := by
      calc (later + feeds rest) * (later + feeds rest + 1) + 2 * (now + feeds rest)
          ≤ (now + feeds rest - 1) * (now + feeds rest) + 2 * (now + feeds rest) := by
            refine Nat.add_le_add_right (Nat.mul_le_mul ?_ ?_) _ <;> omega
        _ = (now + feeds rest) * (now + feeds rest + 1) := by
            obtain ⟨n, total⟩ : ∃ n, now + feeds rest = n + 1 := ⟨now + feeds rest - 1, by omega⟩
            rw [total, Nat.add_sub_cancel]
            ring
    omega
  · have same : (later + feeds rest) * (later + feeds rest + 1) ≤
        (now + feeds rest) * (now + feeds rest + 1) := Nat.mul_le_mul (by omega) (by omega)
    rw [nothing, List.length_nil]
    omega

/-- Task by task, an agenda is done after a number of tasks that grows with the square of the events at
hand. -/
theorem advance_iterate (p : Profile) (s : Engine) (agenda : List Task) :
    ∃ n ≤ agenda.length + s.atHand agenda * (s.atHand agenda + 1),
      (advance p)^[n] (s, agenda) = (s.run p agenda, []) := by
  induction s, agenda using run.induct p with
  | case1 s => exact ⟨0, Nat.zero_le _, by rw [run_nil]; rfl⟩
  | case2 s task rest ih =>
    obtain ⟨n, few, ends⟩ := ih
    refine ⟨n + 1, Nat.lt_of_le_of_lt few (effort_decreases p s task rest), ?_⟩
    rw [Function.iterate_succ_apply, run_cons]
    exact ends

/-- How many keys can still be settled: the one that waits, and one for each press that is kept back or to
come. -/
def canSettle (s : Engine) (coming : List KeyEvent) : Nat :=
  s.isPending.toNat + (s.kept ++ coming).countP (·.pressed)

/-- While no key waits, only presses to come can lead to a settlement. -/
theorem canSettle_of_idle (idle : s.tapHold.head = none) (coming : List KeyEvent) :
    s.canSettle coming = coming.countP (·.pressed) := by
  rw [canSettle, isPending, TapHold.isPending, idle, kept_of_idle idle, List.nil_append]
  exact Nat.zero_add _

/-- While a key waits, it can be settled, and so can one key for each press behind it or to come. -/
theorem canSettle_of_waiting {head : PendingKey} (waiting : s.tapHold.head = some head)
    (coming : List KeyEvent) :
    s.canSettle coming = (head.buffer ++ coming).countP (·.pressed) + 1 := by
  rw [canSettle, isPending, TapHold.isPending, waiting, kept_of_waiting waiting]
  exact Nat.add_comm _ _

/-- How many keys can be settled is read off the waiting key and the events to come. -/
theorem canSettle_congr (same : next.tapHold.head = s.tapHold.head) (coming : List KeyEvent) :
    next.canSettle coming = s.canSettle coming := by
  simp only [canSettle, isPending, TapHold.isPending, kept, same]

/-- An event less to come makes no more keys wait. -/
theorem canSettle_le_cons (s : Engine) (event : KeyEvent) (coming : List KeyEvent) :
    s.canSettle coming ≤ s.canSettle (event :: coming) := by
  refine Nat.add_le_add_left (List.Sublist.countP_le ?_) _
  exact (List.sublist_cons_self event coming).append_left _

/-- Only a press makes a key wait. -/
theorem canSettle_dispatch (event : KeyEvent) :
    (s.dispatch p event).canSettle coming ≤ s.canSettle (event :: coming) := by
  cases pressed : event.pressed with
  | false =>
    rw [canSettle_congr (head_dispatch_of_release pressed)]
    exact s.canSettle_le_cons event coming
  | true =>
    have more : coming.countP (·.pressed) + 1 ≤ s.canSettle (event :: coming) := by
      rw [canSettle, List.countP_append, List.countP_cons, if_pos pressed]
      omega
    rcases head_dispatch p event s with same | idle | ⟨action, waits⟩
    · rw [canSettle_congr same]
      exact s.canSettle_le_cons event coming
    · rw [canSettle_of_idle idle]
      exact Nat.le_of_succ_le more
    · rw [canSettle_of_waiting waits]
      exact more

/-- Settling the waiting key, whose events come again, leaves one key less to settle. -/
theorem canSettle_settled (decision : Decision) {head : PendingKey} (waiting : s.tapHold.head = some head) :
    (s.settled p decision head).canSettle (head.buffer ++ coming) + 1 = s.canSettle coming := by
  rw [canSettle_of_idle (by rw [tapHold_settled]; rfl), canSettle_of_waiting waiting]

/-- An event that is kept back counts as it did when it was to come. -/
theorem canSettle_keptBack {head : PendingKey} (waiting : s.tapHold.head = some head) (event : KeyEvent) :
    (s.keptBack head event).canSettle coming = s.canSettle (event :: coming) := by
  rw [canSettle_of_waiting (head_keptBack head event s), canSettle_of_waiting waiting]
  simp only [PendingKey.push, List.append_assoc, List.singleton_append]

/-- A run so far settled some keys more than a state had, and can settle no more than that state could. -/
def Settles (s next : Engine) (atMost : Nat) (coming : List KeyEvent) : Prop :=
  ∃ more, next.journal.settlements = s.journal.settlements ++ more ∧
    more.length + next.canSettle coming ≤ atMost

namespace Settles

variable {first : Engine} {atMost : Nat} {later : List KeyEvent}

/-- What settles no key. -/
theorem same (settles : Settles first s atMost coming)
    (noted : next.journal.settlements = s.journal.settlements)
    (fewer : next.canSettle later ≤ s.canSettle coming) : Settles first next atMost later := by
  obtain ⟨more, found, bound⟩ := settles
  exact ⟨more, noted.trans found, by omega⟩

/-- Settling the waiting key uses up one of the settlements that are left. -/
theorem settled (settles : Settles first s atMost coming) (decision : Decision) {head : PendingKey}
    (waiting : s.tapHold.head = some head) :
    Settles first (s.settled p decision head) atMost (head.buffer ++ coming) := by
  obtain ⟨more, found, bound⟩ := settles
  have noted := Journal.settlements_of_own (own_settled p s decision head)
  rw [found, List.append_assoc] at noted
  refine ⟨_, noted, ?_⟩
  have fewer : (s.settled p decision head).canSettle (head.buffer ++ coming) + 1 = s.canSettle coming :=
    canSettle_settled decision waiting
  have one : ([Signal.settled head.key decision].filterMap Signal.settled?).length = 1 := rfl
  rw [List.length_append, one]
  omega

/-- Acting on an event does not add to the settlements that are left. -/
theorem dispatch {event : KeyEvent} (settles : Settles first s atMost (event :: coming)) :
    Settles first (s.dispatch p event) atMost coming := by
  refine settles.same ?_ (canSettle_dispatch event)
  rw [Journal.settlements_of_own (own_dispatch p s event)]
  have silent : (s.outcome p event).settled? = none := by
    unfold outcome
    split
    · split <;> rfl
    · split <;> rfl
  rw [List.filterMap_cons_none (f := Signal.settled?) rfl, List.filterMap_cons_none silent,
    List.filterMap_nil, List.append_nil]

/-- Keeping an event back leaves as many settlements. -/
theorem keptBack {event : KeyEvent} (settles : Settles first s atMost (event :: coming)) {head : PendingKey}
    (waiting : s.tapHold.head = some head) : Settles first (s.keptBack head event) atMost coming :=
  settles.same rfl (Nat.le_of_eq (canSettle_keptBack waiting event))

/-- For every key that a task settles, one less can be settled afterwards. -/
theorem step {task : Task} {rest more : List Task}
    (settles : Settles first s atMost (Task.events (task :: rest))) (taken : Step p s task next more) :
    Settles first next atMost (Task.events (more ++ rest)) := by
  rw [Task.events_append]
  cases taken with
  | early => exact settles
  | due waiting => simpa using settles.settled .hold waiting
  | act => exact settles.dispatch
  | @again event =>
    exact settles.same (Journal.settlements_warn s _) (s.canSettle_le_cons event _)
  | lift waiting => simpa using settles.settled .tap waiting
  | abort => exact settles.dispatch
  | keep waiting => exact settles.keptBack waiting
  | @interrupt event head waiting =>
    rw [Task.events_replay]
    exact (settles.keptBack waiting).settled .hold (head_keptBack head event s)

end Settles

/-- Doing an agenda settles no more keys than the state can settle with the events it brings. -/
theorem settles_run (s : Engine) (agenda : List Task) :
    Settles s (s.run p agenda) (s.canSettle (Task.events agenda)) [] := by
  have begins : Settles s s (s.canSettle (Task.events agenda)) (Task.events agenda) :=
    ⟨[], (List.append_nil _).symm, Nat.le_of_eq (Nat.zero_add _)⟩
  exact run_invariant (fun next rest => Settles s next _ (Task.events rest))
    (fun _ _ _ _ _ taken settles => settles.step taken) begins

/-- After the one-shots were told the time, none of them is due. -/
theorem isDue_elapse (p : Profile) (now : Millis) (s : Engine) :
    ∀ m ∈ (s.elapse p now).oneShots.modifiers.entries.map (·.2) ++
      (s.elapse p now).oneShots.layers.entries.map (·.2), m.isDue p.settings now = false := by
  intro m listed
  rw [oneShots_elapse] at listed
  rcases List.mem_append.1 listed with turned | switched
  · obtain ⟨⟨set, _⟩, member, rfl⟩ := List.mem_map.1 turned
    obtain ⟨old, -, rfl⟩ := Machines.mem_sweep (fun _ m => m.tick p.settings now) member
    exact old.isDue_tick p.settings now
  · obtain ⟨⟨id, _⟩, member, rfl⟩ := List.mem_map.1 switched
    obtain ⟨old, -, rfl⟩ := Machines.mem_sweep (fun _ m => m.tick p.settings now) member
    exact old.isDue_tick p.settings now

/-- A tick settles what is due. In every state, whatever there is to do is done after a number of tasks that
grows with the square of the events at hand; a tick settles at most the waiting key and one more for each press
that is kept back behind it, and none if no key waits; and after it no waiting key is due, no one-shot whose
trigger is down has been so for the tapping term, and none that is latched is over. -/
theorem tick_settles_what_is_due (p : Profile) (s : Engine) (now : Millis) :
    let t := s.tick p now
    (∀ agenda, ∃ n ≤ agenda.length + s.atHand agenda * (s.atHand agenda + 1),
      (advance p)^[n] (s, agenda) = (s.run p agenda, [])) ∧
    (∃ settled, t.journal.settlements = s.journal.settlements ++ settled ∧
      settled.length ≤ if s.isPending then 1 + s.kept.countP (·.pressed) else 0) ∧
    (∀ head, t.tapHold.head = some head → now < head.deadline) ∧
    ∀ m ∈ t.oneShots.modifiers.entries.map (·.2) ++ t.oneShots.layers.entries.map (·.2),
      (∀ since, m.phase = .queued since → now.since since < p.settings.tappingTerm) ∧
        ∀ deadline, m.phase = .latched (some deadline) → now < deadline := by
  intro t
  refine ⟨advance_iterate p s, ?_, fun head waiting => ?_, fun m listed => ?_⟩
  · obtain ⟨settled, found, bound⟩ := settles_run (p := p) s [.expire now]
    have told : t.journal.settlements = (s.run p [.expire now]).journal.settlements := by
      have noted : t.journal.own = (s.run p [.expire now]).journal.own ++ [] := by
        rw [List.append_nil]
        exact own_elapse p (s.run p [.expire now]) now
      rw [Journal.settlements_of_own noted, List.filterMap_nil, List.append_nil]
    refine ⟨settled, told.trans found, ?_⟩
    have most : settled.length ≤ s.canSettle [] := Nat.le_trans (Nat.le_add_right _ _) bound
    cases waiting : s.tapHold.head with
    | none =>
      rw [canSettle_of_idle waiting] at most
      exact Nat.le_trans most (Nat.zero_le _)
    | some head =>
      have pending : s.isPending = true := by rw [isPending, TapHold.isPending, waiting]; rfl
      rw [canSettle_of_waiting waiting, List.append_nil] at most
      rw [if_pos pending, kept_of_waiting waiting, Nat.add_comm]
      exact most
  · have early : t.tapHold.isDue now = false := isDue_tick p now s
    rw [TapHold.isDue, waiting, Option.any_some, Bool.eq_false_iff, ne_eq, Millis.isDue_iff] at early
    exact Nat.lt_of_not_le early
  · exact OneShot.isDue_eq_false_iff.1 (isDue_elapse p now (s.run p [.expire now]) m listed)

end Engine

end KeyEngine
