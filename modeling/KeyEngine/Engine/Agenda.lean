import KeyEngine.Engine

/-!
# The engine: whose turn it is

While a tap-hold key waits, events are kept back behind it; once it is settled they get their turn, each
at its own time, and one of them may make the next key wait. What is still to be done is therefore an
agenda: a list of tasks, the next one in front. A step does the first task and may put the events that
were kept back in front of the rest. The agenda ends because every event is either acted on, or kept
back behind a key that can be settled only once: `step_decreases` states the measure.
-/

namespace KeyEngine

/-- Something the engine has to do. -/
inductive Task where
  /-- Settle the waiting key if it is due at a moment. -/
  | expire (now : Millis)
  /-- Take an event: act on it or keep it back. -/
  | feed (event : KeyEvent)
deriving DecidableEq

namespace Task

/-- Whether the task brings an event. -/
def isFeed : Task → Bool
  | expire _ => false
  | feed _ => true

/-- Events that were kept back, each preceded by what is due at its time. -/
def replay (events : List KeyEvent) : List Task :=
  events.flatMap fun event => [expire event.time, feed event]

end Task

namespace Engine

/-- Settles the waiting key; what was kept back behind it is to be done next, and then `rest`. -/
def settleHead (p : Profile) (decision : Decision) (head : PendingKey) (rest : List Task)
    (s : Engine) : Engine × List Task :=
  ({ s with tapHold := s.tapHold.dropHead }.settle p decision head, Task.replay head.buffer ++ rest)

/-- Does one task, and returns what it puts in front of the agenda. An event of the waiting key itself
settles the key if it is a release. Events of other keys are kept back and may settle it; a press of a
key that means cancel is acted on at once. -/
def step (p : Profile) (s : Engine) : Task → Engine × List Task
  | .expire now =>
    match s.tapHold.head with
    | none => (s, [])
    | some head =>
      if head.deadline.isDue now then s.settleHead p .hold head [.expire now] else (s, [])
  | .feed event =>
    match s.tapHold.head with
    | none => (s.dispatch p event, [])
    | some head =>
      if head.key = event.key then
        if event.pressed then (s.warn (.pressedWhilePending event.key), [])
        else s.settleHead p .tap head [.feed event]
      else if event.pressed && s.resolve p event.key == .cancel then (s.dispatch p event, [])
      else
        let head := head.push event
        if head.interruptedBy p.settings.policy event then s.settleHead p .hold head []
        else ({ s with tapHold := { s.tapHold with head := some head } }, [])

/-- The waiting key, and the events behind it. -/
def backlog (s : Engine) : Nat :=
  match s.tapHold.head with
  | none => 0
  | some head => head.buffer.length + 1

/-- The events of an agenda. -/
def feeds (agenda : List Task) : Nat := agenda.countP Task.isFeed

/-- A replay owes one feed for each event it still holds. -/
theorem feeds_replay (events : List KeyEvent) : feeds (Task.replay events) = events.length := by
  induction events with
  | nil => rfl
  | cons event rest ih =>
    simp only [feeds, Task.replay, List.flatMap_cons, List.countP_append] at ih ⊢
    simp [ih, Task.isFeed]
    omega

/-- What is held can change without the waiting key being touched. -/
theorem tapHold_mapHoldings (s : Engine) (f : Holdings → Holdings) :
    (s.mapHoldings f).tapHold = s.tapHold := rfl

/-- The key that uses up the one-shots leaves the waiting key as it is. -/
theorem tapHold_consume (p : Profile) (action : Action) (s : Engine) :
    (s.consume p action).tapHold = s.tapHold := rfl

/-- What an action does leaves the waiting key as it is, unless it ends all waiting or is the action of
a key that starts to wait with nothing behind it. -/
theorem backlog_perform (p : Profile) (event : KeyEvent) (action : Action) (s : Engine) :
    (s.perform p event action).2.tapHold.head = s.tapHold.head ∨
      (s.perform p event action).2.backlog ≤ 1 := by
  have pressed (tap : Keystroke) (t : Engine) (ht : t.tapHold = s.tapHold) :
      (t.pressTapHold p event action tap).2.tapHold.head = s.tapHold.head ∨
        (t.pressTapHold p event action tap).2.backlog ≤ 1 := by
    unfold pressTapHold
    split
    · exact .inl (by simp only [tapHold_consume, tapHold_mapHoldings, ht])
    · exact .inr (by simp [backlog, TapHold.begin, PendingKey.new])
  unfold perform
  split
  next => split <;> exact .inl rfl
  next => exact pressed _ _ rfl
  next => exact pressed _ _ rfl
  next => exact .inl rfl
  next => exact .inl rfl
  next => exact .inl rfl
  next => exact .inl rfl
  next => exact .inl rfl
  next => exact .inl rfl
  next => exact .inl rfl
  next => exact .inr (by simp [backlog, cancel, TapHold.idle])
  next => exact .inl rfl
  next => exact .inl rfl

/-- The backlog is read off the waiting key alone. -/
theorem backlog_congr {s t : Engine} (h : s.tapHold.head = t.tapHold.head) :
    s.backlog = t.backlog := by
  simp only [backlog, h]

/-- A press adds at most the work of the one key it may start waiting on. -/
theorem backlog_press_le (p : Profile) (event : KeyEvent) (s : Engine) :
    (s.press p event).backlog ≤ max s.backlog 1 := by
  unfold press
  split
  · exact Nat.le_max_left s.backlog 1
  · have h := backlog_perform p event (s.resolve p event.key)
      { s with tapHold := s.tapHold.forgetOther event.key }
    rcases h with h | h
    · exact Nat.le_trans (Nat.le_of_eq (backlog_congr (t := s) h)) (Nat.le_max_left _ _)
    · exact Nat.le_trans h (Nat.le_max_right _ _)

/-- Undoing what a key did leaves the waiting key as it is. -/
theorem head_undo (p : Profile) (event : KeyEvent) (entry : ActiveKey) (s : Engine) :
    (s.undo p event entry).tapHold.head = s.tapHold.head := by
  unfold undo
  split <;> (try split) <;> rfl

/-- A release adds no work. -/
theorem backlog_release (p : Profile) (event : KeyEvent) (s : Engine) :
    (s.release p event).backlog = s.backlog := by
  unfold release
  split
  · rfl
  · exact backlog_congr (head_undo p event _ _)

/-- Acting on an event makes at most one key wait. -/
theorem backlog_dispatch_le (p : Profile) (event : KeyEvent) (s : Engine) :
    (s.dispatch p event).backlog ≤ max s.backlog 1 := by
  unfold dispatch
  dsimp only
  split
  · exact backlog_press_le p event _
  · rw [backlog_release]
    exact Nat.le_max_left _ _

/-- The effects of a verdict do not touch the waiting key; it has been taken off before. -/
theorem head_settle (p : Profile) (decision : Decision) (head : PendingKey) (s : Engine) :
    (s.settle p decision head).tapHold = s.tapHold := by
  unfold settle
  dsimp only
  split
  · split
    · split <;> rfl
    · rfl
  · rfl

/-- Once the waiting key is settled nothing of it is left in the backlog. -/
theorem backlog_settleHead (p : Profile) (decision : Decision) (head : PendingKey)
    (rest : List Task) (s : Engine) : (s.settleHead p decision head rest).1.backlog = 0 := by
  simp [settleHead, backlog, head_settle, TapHold.dropHead]

/-- A settled key hands its whole buffer over to the agenda. -/
theorem feeds_settleHead (p : Profile) (decision : Decision) (head : PendingKey)
    (rest : List Task) (s : Engine) :
    feeds (s.settleHead p decision head rest).2 = head.buffer.length + feeds rest := by
  simp [settleHead, feeds, ← feeds_replay head.buffer]

/-- A step does not make more work: the events kept back, the waiting key and the events of the agenda
become fewer, or stay as many while the agenda gets shorter. -/
theorem step_decreases (p : Profile) (s : Engine) (task : Task) :
    (step p s task).1.backlog + feeds (step p s task).2 < s.backlog + feeds [task] ∨
      ((step p s task).1.backlog + feeds (step p s task).2 ≤ s.backlog + feeds [task] ∧
        (step p s task).2 = []) := by
  have dispatched (event : KeyEvent) :
      (s.dispatch p event).backlog + feeds [] ≤ s.backlog + feeds [.feed event] := by
    have := backlog_dispatch_le p event s
    simp only [feeds, List.countP_nil, List.countP_cons, Task.isFeed, if_true]
    omega
  unfold step
  split
  next now =>
    split
    next => exact .inr ⟨Nat.add_le_add_left (Nat.zero_le _) _, rfl⟩
    next head hhead =>
      split
      · left
        rw [backlog_settleHead, feeds_settleHead]
        simp [backlog, hhead]
      · exact .inr ⟨Nat.add_le_add_left (Nat.zero_le _) _, rfl⟩
  next event =>
    split
    next => exact .inr ⟨dispatched event, rfl⟩
    next head hhead =>
      split
      · split
        · left
          have : (s.warn (.pressedWhilePending event.key)).backlog = s.backlog := rfl
          simp [this, feeds, Task.isFeed]
        · left
          rw [backlog_settleHead, feeds_settleHead]
          simp [backlog, hhead]
      · split
        · exact .inr ⟨dispatched event, rfl⟩
        · dsimp only
          split
          · left
            rw [backlog_settleHead, feeds_settleHead]
            simp [backlog, hhead, PendingKey.push, feeds, Task.isFeed]
          · right
            simp [backlog, hhead, PendingKey.push, feeds, Task.isFeed]

/-- Doing the first task makes the measure of an agenda smaller: the work that is left, and with as much
work left the number of tasks. -/
theorem agenda_decreases (p : Profile) (s : Engine) (task : Task) (rest : List Task) :
    Prod.Lex (· < ·) (· < ·)
      ((step p s task).1.backlog + feeds ((step p s task).2 ++ rest), ((step p s task).2 ++ rest).length)
      (s.backlog + feeds (task :: rest), (task :: rest).length) := by
  have h := step_decreases p s task
  simp only [feeds, List.countP_append, List.countP_cons, List.countP_nil] at h ⊢
  rcases h with h | ⟨h, hnil⟩
  · exact Prod.Lex.left _ _ (by omega)
  · rw [hnil] at h ⊢
    rcases Nat.lt_or_eq_of_le h with hlt | heq
    · exact Prod.Lex.left _ _ (by simp only [List.countP_nil] at hlt ⊢; omega)
    · simp only [List.countP_nil, Nat.zero_add, List.nil_append, List.length_cons] at heq ⊢
      rw [show (step p s task).1.backlog + List.countP Task.isFeed rest =
        s.backlog + (List.countP Task.isFeed rest + if task.isFeed = true then 1 else 0) by omega]
      exact Prod.Lex.right _ (by omega)

/-- Does all tasks of an agenda, in order. -/
def run (p : Profile) (s : Engine) : List Task → Engine
  | [] => s
  | task :: rest => run p (step p s task).1 ((step p s task).2 ++ rest)
termination_by agenda => (s.backlog + feeds agenda, agenda.length)
decreasing_by exact agenda_decreases p s task rest

/-- Time has passed: what is due happens, first to the waiting key, then to the one-shots. -/
def tick (p : Profile) (now : Millis) (s : Engine) : Engine :=
  (s.run p [.expire now]).mapOneShots (·.tick · p.settings p.layerModifiers now)

/-- A key event arrives: first what is due at its time happens, then the event gets its turn. -/
def process (p : Profile) (event : KeyEvent) (s : Engine) : Engine :=
  (s.tick p event.time).run p [.feed event]

end Engine

end KeyEngine
