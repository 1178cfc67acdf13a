import KeyEngine.Proofs.Notes
import KeyEngine.Proofs.Redeem

/-!
# No press is lost

A key counts as down from the press on which the engine acts to the release on which it acts. While a
release is kept back behind a waiting key, the engine lags behind the keyboard. That is harmless as long
as the release gets its turn before the next press does. Only a cancel can come in between: it drops
what was kept back, or overtakes it if the press itself means cancel. `no_press_lost` says that nothing
else can make the engine ignore a press, and `cancel_acts_iff` that a key that means cancel acts at once
exactly when the engine does not lag behind it.
-/

namespace KeyEngine

namespace KeyEvent

variable {key : Key} {events others : List KeyEvent}

/-- The edges of a key are read off its own events. -/
theorem edges_eq_map_filter : edges key events = (events.filter (·.key = key)).map (·.pressed) := by
  induction events with
  | nil => rfl
  | cons event rest ih =>
    by_cases same : event.key = key
    · rw [edges_cons_self same, ih, List.filter_cons_of_pos (by simpa using same), List.map_cons]
    · rw [edges_cons_of_ne same, ih, List.filter_cons_of_neg (by simpa using same)]

/-- The edges of a key depend on its own events only. -/
theorem edges_congr (same : events.filter (·.key = key) = others.filter (·.key = key)) :
    edges key events = edges key others := by
  rw [edges_eq_map_filter, same, ← edges_eq_map_filter]

/-- How often an event comes depends on the events of its key only. -/
theorem count_congr (same : events.filter (·.key = key) = others.filter (·.key = key))
    {event : KeyEvent} (own : event.key = key) : events.count event = others.count event := by
  have concerned (list : List KeyEvent) : (list.filter (·.key = key)).count event = list.count event :=
    List.count_filter (decide_eq_true own)
  rw [← concerned events, same, concerned]

end KeyEvent

open KeyEvent

namespace Call

/-- On the mixed keyboard, a plain key that is down when two cancels come, and goes up while a key waits. The
key that means cancel goes down once more before its own release got its turn; the plain one goes down once
more later. -/
def heldAtCancel : List Call :=
  [.down 1 0, .down 0 10, .cancel, .up 0 15, .down 2 20, .down 0 30, .up 1 40, .up 2 50, .down 2 60,
    .up 0 70, .down 1 80]

/-- A plain key that goes up before a cancel comes, while a key waits. -/
def liftedAtCancel : List Call := [.down 1 0, .down 0 10, .up 1 20, .cancel, .down 1 30]

/-- The key that means cancel is tapped; then a one-shot shift and a key that waits go down. -/
def cancelTapped : List Call := [.down 2 0, .up 2 2, .down 3 5, .down 0 10]

/-- The same, but the key that means cancel goes up last. -/
def cancelLifted : List Call := [.down 2 0, .down 3 5, .down 0 10, .up 2 20]

end Call

namespace Engine

/-- The engine lags behind a key that is up: the key counts as down, since its release is kept back. -/
def Lags (s : Engine) (key : Key) : Prop :=
  s.active.contains key = true ∧ (edges key s.kept).getLast? = some false

instance (s : Engine) (key : Key) : Decidable (s.Lags key) := inferInstanceAs (Decidable (_ ∧ _))

end Engine

namespace Moment

/-- Whether a moment cancels everything, or would if the press were not ignored: it is a cancel, or a
press that means cancel gets its turn. -/
def cancels (p : Profile) (m : Moment) : Bool :=
  match m.deed with
  | .task (.feed event) =>
    event.pressed && m.state.tapHold.head.all (·.key != event.key) &&
      m.state.resolve p event.key == .cancel
  | .cancel => true
  | _ => false

/-- Whether the press of a moment is ignored, since its key counts as down. -/
def ignores (m : Moment) : Bool :=
  match m.deed with
  | .task (.feed event) => m.state.active.contains event.key
  | _ => false

/-- Whether a moment drops what is kept back. -/
def drops (p : Profile) (m : Moment) : Bool := m.cancels p && !m.ignores

/-- Whether a moment is about an event of a key. -/
def concerns (key : Key) (m : Moment) : Bool :=
  match m.deed with
  | .task (.feed event) => event.key == key
  | _ => false

/-- Whether a moment gets ahead of what is kept back of a key: it drops all that is kept back, or is a press
of the key itself that means cancel. -/
def overtakes (p : Profile) (key : Key) (m : Moment) : Bool :=
  m.cancels p && (!m.ignores || m.concerns key)

/-- A moment that drops what is kept back gets ahead of it for every key. -/
theorem overtakes_of_drops {p : Profile} {m : Moment} (drops : m.drops p = true) (key : Key) :
    m.overtakes p key = true := by
  obtain ⟨cancels, taken⟩ := Bool.and_eq_true_iff.1 drops
  simp [overtakes, cancels, taken]

/-- The events that a moment drops. -/
def dropped (p : Profile) (m : Moment) : List KeyEvent := if m.drops p then m.state.kept else []

end Moment

namespace Engine

variable {p : Profile} {s : Engine} {key : Key} {event : KeyEvent}

/-- The events that a run of calls drops. -/
def dropped (p : Profile) (s : Engine) (calls : List Call) : List KeyEvent :=
  (s.course p calls).flatMap (Moment.dropped p)

/-- A press that means cancel and is acted on cancels. -/
theorem cancels_of_actsOn (acts : s.ActsOn p event) (pressed : event.pressed = true)
    (means : s.resolve p event.key = .cancel) :
    (Moment.mk s (.task (.feed event))).cancels p = true := by
  have others : s.tapHold.head.all (·.key != event.key) = true := by
    cases waiting : s.tapHold.head with
    | none => rfl
    | some head => exact bne_iff_ne.2 (acts head waiting).1
  simp [Moment.cancels, pressed, others, means]

/-- An event that does not mean cancel drops nothing. -/
theorem dropped_of_goes (goes : event.pressed = true → s.resolve p event.key ≠ .cancel) :
    (Moment.mk s (.task (.feed event))).dropped p = [] := by
  have spares : (Moment.mk s (.task (.feed event))).drops p = false := by
    cases pressed : event.pressed with
    | false => simp [Moment.drops, Moment.cancels, pressed]
    | true => simp [Moment.drops, Moment.cancels, goes pressed]
  rw [Moment.dropped, spares]
  rfl

/-- A press adds its key to those that count as down. -/
theorem contains_press (key : Key) : (s.press p event).active.contains key =
    (s.active.contains key || decide (key = event.key)) := by
  cases down : s.active.contains event.key with
  | true =>
    rw [press_of_down down]
    show s.active.contains key = _
    by_cases same : key = event.key
    · simp [same, down]
    · simp [same]
  | false =>
    have kept : (s.performed p event).2.active.contains key = s.active.contains key := by
      have spec := perform_spec p event (s.resolve p event.key) (s.readied event)
      change Performed p event _ _ (s.performed p event) at spec
      generalize s.performed p event = result at spec ⊢
      cases spec with
      | acted _ _ _ active => rw [active, readied]
      | waits => rfl
      | cancelled => simp [cancel, readied, ActiveKeys.contains]
    rw [press_of_up down, ← kept]
    simp only [ActiveKeys.contains, ActiveKeys.find?_insert]
    by_cases same : key = event.key
    · simp [same]
    · simp [same]

/-- A release takes its key away from those that count as down. -/
theorem contains_release (key : Key) : (s.release p event).active.contains key =
    (s.active.contains key && !decide (key = event.key)) := by
  cases found : s.active.find? event.key with
  | none =>
    rw [release_of_up found]
    show s.active.contains key = _
    by_cases same : key = event.key
    · simp [same, ActiveKeys.contains, found]
    · simp [same]
  | some entry =>
    have left : (({ s with active := s.active.remove event.key }.undo p event entry).announce
        (.key event.key entry.action false)).active = s.active.remove event.key :=
      active_undo p event entry _
    rw [release_of_down found, left]
    by_cases same : key = event.key
    · simp [ActiveKeys.contains, same]
    · simp [ActiveKeys.contains, same]

/-- After the engine acted on an event, the key counts as down if the event was a press. -/
theorem contains_dispatch (key : Key) : (s.dispatch p event).active.contains key =
    if key = event.key then event.pressed else s.active.contains key := by
  have still : (s.announce (.dispatched event)).active.contains key = s.active.contains key := rfl
  unfold dispatch
  dsimp only
  split
  · rename_i pressed
    rw [contains_press, still, pressed]
    by_cases same : key = event.key <;> simp [same]
  · rename_i released
    rw [contains_release, still, Bool.eq_false_iff.2 released]
    by_cases same : key = event.key <;> simp [same]

/-- The same keys count as down after the waiting key was settled. -/
theorem contains_settled (decision : Decision) (head : PendingKey) (key : Key) :
    (s.settled p decision head).active.contains key = s.active.contains key := by
  simp [active_settled, ActiveKeys.contains]

/-- What was kept back is kept on or dropped by the press that is acted on. -/
theorem kept_press (acts : s.ActsOn p event) (pressed : event.pressed = true) : s.kept =
    (s.press p event).kept ++ (Moment.mk s (.task (.feed event))).dropped p := by
  cases down : s.active.contains event.key with
  | true =>
    have nothing : (Moment.mk s (.task (.feed event))).dropped p = [] := by
      simp [Moment.dropped, Moment.drops, Moment.ignores, down]
    rw [press_of_down down, nothing, List.append_nil]
    rfl
  | false =>
    by_cases means : s.resolve p event.key = .cancel
    · have all : (Moment.mk s (.task (.feed event))).dropped p = s.kept := by
        simp [Moment.dropped, Moment.drops, Moment.ignores, cancels_of_actsOn acts pressed means, down]
      have still : (s.press p event).kept = [] := by
        rw [press_of_up down]
        simp only [performed, perform, means]
        rfl
      rw [all, still, List.nil_append]
    · have idle := Consistent.idle_of_actsOn acts means
      have nothing : (Moment.mk s (.task (.feed event))).dropped p = [] := by
        simp [Moment.dropped, Moment.drops, Moment.cancels, means]
      have still : (s.press p event).kept = [] := by
        rw [press_of_up down]
        exact RedeemedBy.kept_performed idle means
      rw [nothing, still, kept_of_idle idle, List.append_nil]

/-- Nothing is kept back after a release that is acted on. -/
theorem kept_release (idle : s.tapHold.head = none) : (s.release p event).kept = [] := by
  refine kept_of_idle ?_
  cases found : s.active.find? event.key with
  | none =>
    rw [release_of_up found]
    exact idle
  | some entry =>
    rw [release_of_down found]
    exact (head_undo p event entry _).trans idle

/-- What was kept back still is after the engine acted on an event, or was dropped. -/
theorem kept_dispatch (acts : s.ActsOn p event) : s.kept =
    (s.dispatch p event).kept ++ (Moment.mk s (.task (.feed event))).dropped p := by
  unfold dispatch
  dsimp only
  split
  · rename_i pressed
    exact kept_press (s := s.announce (.dispatched event)) acts pressed
  · rename_i released
    have idle := Consistent.idle_of_released acts (Bool.eq_false_iff.2 released)
    have nothing : (Moment.mk s (.task (.feed event))).dropped p = [] := by
      simp [Moment.dropped, Moment.drops, Moment.cancels, released]
    have still : (release p event (s.announce (.dispatched event))).kept = [] := kept_release idle
    rw [still, nothing, kept_of_idle idle, List.append_nil]

/-- Nothing is left of what was kept back once it is dropped. -/
theorem kept_dispatch_of_drops (acts : s.ActsOn p event)
    (drops : (Moment.mk s (.task (.feed event))).drops p = true) : (s.dispatch p event).kept = [] := by
  have parts := kept_dispatch acts
  rw [Moment.dropped, if_pos drops] at parts
  exact List.append_left_eq_self.1 parts.symm

/-- What is kept back stays if an event that is acted on does not drop it. -/
theorem kept_dispatch_of_spares (acts : s.ActsOn p event)
    (spares : (Moment.mk s (.task (.feed event))).drops p = false) :
    (s.dispatch p event).kept = s.kept := by
  have parts := kept_dispatch acts
  rw [Moment.dropped, if_neg (Bool.eq_false_iff.1 spares), List.append_nil] at parts
  exact parts.symm

/-- Nothing is kept back after an event that was not ignored. -/
theorem kept_dispatch_of_taken (acts : s.ActsOn p event)
    (taken : event.pressed = true → s.active.contains event.key = false) :
    (s.dispatch p event).kept = [] := by
  cases drops : (Moment.mk s (.task (.feed event))).drops p with
  | true => exact kept_dispatch_of_drops acts drops
  | false =>
    rw [kept_dispatch_of_spares acts drops]
    refine kept_of_idle ?_
    cases pressed : event.pressed with
    | false => exact Consistent.idle_of_released acts pressed
    | true =>
      refine Consistent.idle_of_actsOn acts fun means => ?_
      have cancels := cancels_of_actsOn acts pressed means
      have ignored : (Moment.mk s (.task (.feed event))).ignores = false := taken pressed
      rw [Moment.drops, cancels, ignored] at drops
      cases drops

/-- No press of a key was lost on the way to a state: of all `given` events, those of the key were acted
on, are kept back, are still `coming` or were `dropped`, and every press of it that was acted on was
reported. -/
structure OnTrack (key : Key) (given : List KeyEvent) (s : Engine) (coming dropped : List KeyEvent) :
    Prop where
  /-- What is noted of the waiting key agrees. -/
  consistent : s.Consistent
  /-- The events of the key that are kept back or coming take turns; while the key counts as down, the
  next one is a release. -/
  turns : Edges.MayFollow (s.active.contains key) (edges key (s.kept ++ coming))
  /-- Every event of the key is accounted for. -/
  account : ∀ event, event.key = key → given.count event =
    s.journal.dispatched.count event + (s.kept ++ coming).count event + dropped.count event
  /-- No press of the key was ignored. -/
  taken : .warning (.pressedTwice key) ∉ s.journal.own
  /-- Every press of the key that was acted on was reported. -/
  reported : s.journal.reported.count key = s.journal.presses.count key

/-- Whether a signal says nothing of the presses of a key. -/
def Quiet (key : Key) (signal : Signal) : Prop :=
  signal.dispatched? = none ∧ signal.reported? = none ∧ signal ≠ .warning (.pressedTwice key)

/-- The outcome of an event is not the note that it is acted on. -/
theorem dispatched?_outcome (p : Profile) (s : Engine) (event : KeyEvent) :
    (s.outcome p event).dispatched? = none := by
  unfold outcome
  split
  · split <;> rfl
  · split <;> rfl

/-- The outcome of an event reports a press exactly if a key goes down that was up. -/
theorem reported?_outcome (p : Profile) (s : Engine) (event : KeyEvent) :
    (s.outcome p event).reported? =
      if event.pressed && !s.active.contains event.key then some event.key else none := by
  unfold outcome
  cases event.pressed with
  | true => cases s.active.contains event.key <;> rfl
  | false => cases s.active.find? event.key <;> rfl

/-- A press is ignored as one too many only if its key counts as down. -/
theorem outcome_eq_pressedTwice {key : Key}
    (ignored : s.outcome p event = .warning (.pressedTwice key)) :
    event.key = key ∧ event.pressed = true ∧ s.active.contains event.key = true := by
  unfold outcome at ignored
  split at ignored
  · rename_i pressed
    split at ignored
    · rename_i down
      cases ignored
      exact ⟨rfl, pressed, down⟩
    · cases ignored
  · split at ignored <;> cases ignored

namespace OnTrack

variable {given coming dropped : List KeyEvent}

/-- What leaves the events of the key where they are, and notes nothing of its presses, keeps it on
track. -/
theorem congr (track : OnTrack key given s coming dropped) {next : Engine} {later : List KeyEvent}
    {notes : List Signal} (consistent : next.Consistent)
    (down : next.active.contains key = s.active.contains key)
    (same : (next.kept ++ later).filter (·.key = key) = (s.kept ++ coming).filter (·.key = key))
    (noted : next.journal.own = s.journal.own ++ notes) (quiet : ∀ signal ∈ notes, Quiet key signal) :
    OnTrack key given next later dropped := by
  have acted : next.journal.dispatched = s.journal.dispatched := by
    have none : notes.filterMap Signal.dispatched? = [] :=
      List.filterMap_eq_nil_iff.2 fun signal member => (quiet signal member).1
    rw [Journal.dispatched_of_own noted, none, List.append_nil]
  have told : next.journal.reported = s.journal.reported := by
    have none : notes.filterMap Signal.reported? = [] :=
      List.filterMap_eq_nil_iff.2 fun signal member => (quiet signal member).2.1
    rw [Journal.reported_of_own noted, none, List.append_nil]
  refine ⟨consistent, ?_, fun event own => ?_, ?_, ?_⟩
  · rw [down, edges_congr same]
    exact track.turns
  · rw [acted, count_congr same own]
    exact track.account event own
  · rw [noted, List.mem_append]
    rintro (earlier | added)
    · exact track.taken earlier
    · exact (quiet _ added).2.2 rfl
  · rw [told, Journal.presses, acted]
    exact track.reported

/-- A press of the key that gets its turn is never the second one. -/
theorem fresh (track : OnTrack key given s (event :: coming) dropped) (acts : s.ActsOn p event)
    (spared : (Moment.mk s (.task (.feed event))).overtakes p key = true → ¬s.Lags key)
    (own : event.key = key) (pressed : event.pressed = true) : s.active.contains key = false := by
  rw [Bool.eq_false_iff]
  intro down
  -- The key counts as down and goes down once more, so its release must be among what is kept back. Only a
  -- press that means cancel gets its turn before that release does.
  have turns := track.turns
  rw [down, edges_append, edges_cons_self own, pressed] at turns
  have lags : s.Lags key := ⟨down, turns.last_off⟩
  by_cases means : s.resolve p event.key = .cancel
  · refine spared ?_ lags
    simp [Moment.overtakes, Moment.concerns, cancels_of_actsOn acts pressed means, own]
  · have last := lags.2
    rw [kept_of_idle (Consistent.idle_of_actsOn acts means)] at last
    cases last

/-- Events that are dropped leave a key on track if the engine does not lag behind it. -/
theorem turns_of_dropped (track : OnTrack key given s coming dropped) (spared : ¬s.Lags key) :
    Edges.MayFollow (s.active.contains key) (edges key coming) := by
  have turns := track.turns
  rw [edges_append] at turns
  exact turns.leave_out fun down last => spared ⟨down, last⟩

/-- The events of a key go on taking turns after one is acted on, unless it overtakes a release kept
back. -/
theorem turns_dispatch (track : OnTrack key given s (event :: coming) dropped)
    (acts : s.ActsOn p event)
    (spared : (Moment.mk s (.task (.feed event))).overtakes p key = true → ¬s.Lags key) :
    Edges.MayFollow ((s.dispatch p event).active.contains key)
      (edges key ((s.dispatch p event).kept ++ coming)) := by
  have turns := track.turns
  rw [contains_dispatch]
  by_cases own : event.key = key
  · rw [if_pos own.symm, kept_dispatch_of_taken acts, List.nil_append]
    · rw [edges_append, edges_cons_self own] at turns
      cases pressed : event.pressed with
      | true =>
        rw [pressed] at turns
        exact turns.after_on
      | false =>
        rw [pressed, kept_of_idle (Consistent.idle_of_released acts pressed)] at turns
        exact turns.after_off
    · rw [own]
      exact fun pressed => track.fresh acts spared own pressed
  · rw [if_neg (Ne.symm own)]
    rw [edges_append, edges_cons_of_ne own, ← edges_append] at turns
    cases takes : (Moment.mk s (.task (.feed event))).drops p with
    | true =>
      have left := track.turns_of_dropped (spared (Moment.overtakes_of_drops takes key))
      rw [kept_dispatch_of_drops acts takes, List.nil_append]
      rwa [edges_cons_of_ne own] at left
    | false => rwa [kept_dispatch_of_spares acts takes]

/-- Acting on an event keeps the key on track. -/
theorem dispatch (track : OnTrack key given s (event :: coming) dropped) (acts : s.ActsOn p event)
    (spared : (Moment.mk s (.task (.feed event))).overtakes p key = true → ¬s.Lags key) :
    OnTrack key given (s.dispatch p event) coming
      (dropped ++ (Moment.mk s (.task (.feed event))).dropped p) := by
  have noted := own_dispatch p s event
  have acted : (s.dispatch p event).journal.dispatched = s.journal.dispatched ++ [event] := by
    rw [Journal.dispatched_of_own noted, List.filterMap_cons_some (f := Signal.dispatched?) rfl,
      List.filterMap_cons_none (dispatched?_outcome p s event), List.filterMap_nil]
  have told : (s.dispatch p event).journal.reported =
      s.journal.reported ++ (s.outcome p event).reported?.toList := by
    rw [Journal.reported_of_own noted, List.filterMap_cons_none rfl, List.filterMap_cons]
    cases (s.outcome p event).reported? <;> rfl
  refine ⟨(consistent_lasting p).dispatch s event acts track.consistent,
    track.turns_dispatch acts spared, fun other own => ?_, ?_, ?_⟩
  · have account := track.account other own
    rw [kept_dispatch acts] at account
    rw [acted]
    simp only [List.count_append, List.count_cons, List.count_nil] at account ⊢
    omega
  · rw [noted, List.mem_append]
    rintro (earlier | added)
    · exact track.taken earlier
    · have ignored : .warning (.pressedTwice key) = s.outcome p event := by simpa using added
      obtain ⟨own, pressed, down⟩ := outcome_eq_pressedTwice ignored.symm
      rw [own, track.fresh acts spared own pressed] at down
      cases down
  · rw [told, reported?_outcome, Journal.presses, acted]
    have same := track.reported
    rw [Journal.presses] at same
    by_cases own : event.key = key
    · cases pressed : event.pressed with
      | true =>
        have up := track.fresh acts spared own pressed
        simp [same, own, pressed, up]
      | false => simp [same, pressed]
    · cases pressed : event.pressed <;> cases s.active.contains event.key <;>
        simp [same, own, pressed]

/-- A key does not go down again while it waits. -/
theorem not_waiting (track : OnTrack event.key given s (event :: coming) dropped)
    (pressed : event.pressed = true) {head : PendingKey} (waiting : s.tapHold.head = some head) :
    head.key ≠ event.key := by
  intro same
  have down : s.active.contains event.key = true := by
    have found := track.consistent.down head waiting
    rw [same] at found
    rw [ActiveKeys.contains, found]
    rfl
  have none : edges event.key s.kept = [] := by
    rw [kept_of_waiting waiting]
    exact edges_eq_nil (same ▸ track.consistent.others head waiting)
  have turns := track.turns
  rw [down, edges_append, none, edges_cons_self rfl, pressed] at turns
  cases turns.last_off

/-- The press of a key that waits already is dropped; it is that of another key. -/
theorem again (track : OnTrack key given s (event :: coming) dropped) {head : PendingKey}
    (waiting : s.tapHold.head = some head) (same : head.key = event.key)
    (pressed : event.pressed = true) :
    OnTrack key given (s.warn (.pressedWhilePending event.key)) coming dropped := by
  have noted : (s.warn (.pressedWhilePending event.key)).journal.own =
      s.journal.own ++ [.warning (.pressedWhilePending event.key)] := own_announce s rfl
  have other : event.key ≠ key := by
    rintro rfl
    exact track.not_waiting pressed waiting same
  refine track.congr (track.consistent.congr rfl rfl) rfl ?_ noted ?_
  · show (s.kept ++ coming).filter _ = _
    rw [List.filter_append, List.filter_append, List.filter_cons_of_neg (by simpa using other)]
  · intro signal member
    rw [List.mem_singleton.1 member]
    exact ⟨rfl, rfl, by simp⟩

/-- The events that were kept back come next when the waiting key is settled. -/
theorem settled (track : OnTrack key given s coming dropped) {head : PendingKey}
    (waiting : s.tapHold.head = some head) (decision : Decision) :
    OnTrack key given (s.settled p decision head) (head.buffer ++ coming) dropped := by
  refine track.congr (track.consistent.settled decision waiting)
    (contains_settled decision head key) ?_ (own_settled p s decision head) ?_
  · rw [kept_of_idle (by rw [tapHold_settled]; rfl), kept_of_waiting waiting, List.nil_append]
  · intro signal member
    rw [List.mem_singleton.1 member]
    exact ⟨rfl, rfl, by simp⟩

/-- A key stays on track when an event of another one, or of itself, is kept back. -/
theorem keptBack (track : OnTrack key given s (event :: coming) dropped) {head : PendingKey}
    (waiting : s.tapHold.head = some head) (other : head.key ≠ event.key) :
    OnTrack key given (s.keptBack head event) coming dropped := by
  refine track.congr (track.consistent.keptBack waiting other) rfl ?_
    (List.append_nil s.journal.own).symm (fun _ member => absurd member List.not_mem_nil)
  have later : (s.keptBack head event).kept = head.buffer ++ [event] := rfl
  rw [later, kept_of_waiting waiting, List.append_assoc, List.singleton_append]

/-- A key stays on track as time passes for the one-shots. -/
theorem elapse (track : OnTrack key given s coming dropped) (now : Millis) :
    OnTrack key given (s.elapse p now) coming dropped :=
  track.congr ((consistent_lasting p).elapse s now track.consistent) rfl rfl
    ((own_elapse p s now).trans (List.append_nil _).symm)
    (fun _ member => absurd member List.not_mem_nil)

/-- A cancel drops what was kept back; a key behind which the engine does not lag is still on track. -/
theorem cancel (track : OnTrack key given s coming dropped) (spared : ¬s.Lags key) :
    OnTrack key given (s.cancel p) coming (dropped ++ s.kept) := by
  have noted := own_cancel p s
  have down : (s.cancel p).active.contains key = s.active.contains key := by
    simp [Engine.cancel, ActiveKeys.contains]
  refine ⟨.cancel s, ?_, fun event own => ?_, ?_, ?_⟩
  · rw [down]
    exact track.turns_of_dropped spared
  · have account := track.account event own
    have nothing : (s.cancel p).kept = [] := rfl
    rw [Journal.dispatched_eq, noted, ← Journal.dispatched_eq, nothing]
    simp only [List.count_append, List.nil_append] at account ⊢
    omega
  · rw [noted]
    exact track.taken
  · rw [Journal.reported_eq, Journal.presses, Journal.dispatched_eq, noted, ← Journal.dispatched_eq,
      ← Journal.reported_eq]
    exact track.reported

/-- Every task keeps the key on track. -/
theorem step {task : Task} {rest more : List Task} {next : Engine}
    (track : OnTrack key given s (Task.events (task :: rest) ++ coming) dropped)
    (taken : Step p s task next more)
    (spared : (Moment.mk s (.task task)).overtakes p key = true → ¬s.Lags key) :
    OnTrack key given next (Task.events (more ++ rest) ++ coming)
      (dropped ++ (Moment.mk s (.task task)).dropped p) := by
  rw [Task.events_append, List.append_assoc]
  cases taken with
  | early => simpa [Moment.dropped, Moment.drops, Moment.cancels] using track
  | due waiting =>
    have settled := track.settled (p := p) waiting .hold
    simpa [Moment.dropped, Moment.drops, Moment.cancels] using settled
  | act idle => exact track.dispatch (actsOn_of_idle idle) spared
  | @again event _ waiting same pressed =>
    have nothing : (Moment.mk s (.task (.feed event))).dropped p = [] := by
      simp [Moment.dropped, Moment.drops, Moment.cancels, waiting, same]
    rw [nothing, List.append_nil]
    exact track.again waiting same pressed
  | lift waiting same released =>
    have settled := track.settled (p := p) waiting .tap
    simpa [Moment.dropped, Moment.drops, Moment.cancels, released] using settled
  | abort waiting other pressed cancels =>
    exact track.dispatch (actsOn_of_cancel waiting other pressed cancels) spared
  | keep waiting other goes =>
    have kept := track.keptBack waiting other
    rwa [dropped_of_goes goes, List.append_nil]
  | @interrupt event head waiting other goes =>
    have settled := (track.keptBack waiting other).settled (p := p) (head_keptBack head event s) .hold
    rwa [dropped_of_goes goes, List.append_nil, Task.events_replay]

/-- So does a whole agenda. -/
theorem run (agenda : List Task)
    (track : OnTrack key given s (Task.events agenda ++ coming) dropped)
    (spared : ∀ m ∈ s.doing p agenda, m.overtakes p key = true → ¬m.state.Lags key) :
    OnTrack key given (s.run p agenda) coming
      (dropped ++ (s.doing p agenda).flatMap (Moment.dropped p)) := by
  induction s, agenda using run.induct p generalizing dropped with
  | case1 s =>
    rw [run_nil, doing, List.flatMap_nil, List.append_nil]
    exact track
  | case2 s task rest ih =>
    rw [doing] at spared
    rw [run_cons, doing, List.flatMap_cons, ← List.append_assoc]
    exact ih (track.step (step_spec p s task) (spared _ (.head _)))
      fun m member => spared m (.tail _ member)

/-- A key stays on track over a tick that does not overtake its release. -/
theorem tick (track : OnTrack key given s coming dropped) (now : Millis)
    (spared : ∀ m ∈ s.ticking p now, m.overtakes p key = true → ¬m.state.Lags key) :
    OnTrack key given (s.tick p now) coming
      (dropped ++ (s.ticking p now).flatMap (Moment.dropped p)) := by
  have done := run (p := p) [.expire now] track fun m member =>
    spared m (List.mem_append_left _ member)
  have nothing : (Moment.mk (s.run p [.expire now]) (.elapse now)).dropped p = [] := rfl
  rw [ticking, List.flatMap_append, List.flatMap_singleton, nothing, List.append_nil]
  exact done.elapse now

/-- A key stays on track over the answer to a call that does not overtake its release. -/
theorem answer {call : Call} (track : OnTrack key given s (Call.events [call] ++ coming) dropped)
    (spared : ∀ m ∈ s.answering p call, m.overtakes p key = true → ¬m.state.Lags key) :
    OnTrack key given (s.answer p call) coming
      (dropped ++ (s.answering p call).flatMap (Moment.dropped p)) := by
  cases call with
  | event event =>
    have ticked := track.tick (p := p) event.time fun m member =>
      spared m (List.mem_append_left _ member)
    rw [answering, List.flatMap_append, ← List.append_assoc]
    exact run [.feed event] ticked fun m member => spared m (List.mem_append_right _ member)
  | tick now => exact track.tick now spared
  | cancel =>
    have all : (Moment.mk s .cancel).dropped p = s.kept := rfl
    rw [answering, List.flatMap_singleton, all]
    exact track.cancel (spared _ (.head _) rfl)

/-- A key stays on track over calls that do not overtake its release. -/
theorem answers {calls : List Call} (track : OnTrack key given s (Call.events calls ++ coming) dropped)
    (spared : ∀ m ∈ s.course p calls, m.overtakes p key = true → ¬m.state.Lags key) :
    OnTrack key given (calls.foldl (Engine.answer p) s) coming (dropped ++ s.dropped p calls) := by
  induction calls generalizing s dropped with
  | nil =>
    rw [Engine.dropped, course, List.flatMap_nil, List.append_nil]
    exact track
  | cons call rest ih =>
    rw [Call.events_cons, List.append_assoc] at track
    rw [Engine.dropped, course, List.flatMap_append, ← List.append_assoc]
    exact ih (track.answer fun m member => spared m (List.mem_append_left _ member))
      fun m member => spared m (List.mem_append_right _ member)

/-- Before the first call, all events are coming. -/
theorem start (turns : Edges.Alternates (edges key given)) : OnTrack key given .start given [] where
  consistent := consistent_start
  turns := Edges.mayFollow_of_alternates turns
  account event _ := by
    show given.count event = 0 + ([] ++ given).count event + 0
    rw [List.nil_append, Nat.zero_add, Nat.add_zero]
  taken := List.not_mem_nil
  reported := rfl

end OnTrack

/-- No press is lost. After every run of calls, and for every key that goes down and up in turns: if the
engine never lags behind the key when a cancel drops what is kept back, or when the key means cancel and
goes down itself, then no press of it is ignored as a second one, every press of it that was acted on was
reported to the observers, and every event of it was acted on, is kept back, or was dropped by a cancel
with all that was kept back. -/
theorem no_press_lost (p : Profile) (calls : List Call) (key : Key)
    (turns : Edges.Alternates (edges key (Call.events calls)))
    (spared : ∀ m ∈ start.course p calls, m.overtakes p key = true → ¬m.state.Lags key) :
    let s := after p calls
    .pressedTwice key ∉ s.journal.warnings ∧
    s.journal.reported.count key = s.journal.presses.count key ∧
    ∀ event, event.key = key → (Call.events calls).count event =
      s.journal.dispatched.count event + s.kept.count event + (start.dropped p calls).count event := by
  intro s
  have begins : OnTrack key (Call.events calls) start (Call.events calls ++ []) [] := by
    rw [List.append_nil]
    exact .start turns
  have track : OnTrack key (Call.events calls) s [] (start.dropped p calls) := begins.answers spared
  refine ⟨?_, track.reported, fun event own => ?_⟩
  · rw [Journal.pressedTwice_mem_iff]
    exact track.taken
  · have account := track.account event own
    rwa [List.append_nil] at account

set_option maxRecDepth 10000 in
/-- A plain key is down when a cancel comes while a key waits, and again when the key that means cancel goes
down. Later the engine lags behind it when that key goes down once more, but this press is ignored, and so
drops nothing. -/
theorem no_press_lost_at_cancel :
    Call.Regular Call.heldAtCancel ∧
    (start.course .mixed Call.heldAtCancel).countP (Moment.cancels .mixed) = 3 ∧
    (start.course .mixed Call.heldAtCancel).countP
      (fun m => m.cancels .mixed && decide (m.state.Lags ⟨1⟩)) = 1 ∧
    .pressedTwice ⟨1⟩ ∉ (after .mixed Call.heldAtCancel).journal.warnings ∧
    (after .mixed Call.heldAtCancel).journal.presses.count ⟨1⟩ = 2 ∧
    (after .mixed Call.heldAtCancel).journal.reported.count ⟨1⟩ = 2 := by
  have turns : Edges.Alternates (edges ⟨1⟩ (Call.events Call.heldAtCancel)) := by decide
  have spared : ∀ m ∈ start.course .mixed Call.heldAtCancel,
      m.overtakes .mixed ⟨1⟩ = true → ¬m.state.Lags ⟨1⟩ := by
    have all : (start.course .mixed Call.heldAtCancel).all
        (fun m => !m.overtakes .mixed ⟨1⟩ || !decide (m.state.Lags ⟨1⟩)) = true := by cbv
    simpa [imp_iff_not_or] using all
  obtain ⟨taken, reported, -⟩ := no_press_lost .mixed Call.heldAtCancel ⟨1⟩ turns spared
  have presses : (after .mixed Call.heldAtCancel).journal.presses.count ⟨1⟩ = 2 := by cbv
  exact ⟨by decide, by cbv, by cbv, taken, presses, reported.trans presses⟩

set_option maxRecDepth 10000 in
/-- If the key goes up before the cancel, its release is kept back and dropped. The engine still takes
the key to be down, ignores its next press, and does not report it. -/
theorem press_lost_after_cancel :
    Call.Regular Call.liftedAtCancel ∧
    (start.course .mixed Call.liftedAtCancel).countP
      (fun m => m.cancels .mixed && decide (m.state.Lags ⟨1⟩)) = 1 ∧
    .pressedTwice ⟨1⟩ ∈ (after .mixed Call.liftedAtCancel).journal.warnings ∧
    (after .mixed Call.liftedAtCancel).journal.presses.count ⟨1⟩ = 2 ∧
    (after .mixed Call.liftedAtCancel).journal.reported.count ⟨1⟩ = 1 := by
  refine ⟨by decide, by cbv, ?_, by cbv, by cbv⟩
  have warned : (after .mixed Call.liftedAtCancel).journal.warnings = [.pressedTwice ⟨1⟩] := by cbv
  rw [warned]
  exact List.mem_singleton_self _

/-- Everything is off. -/
structure Cleared (s : Engine) : Prop where
  /-- No key waits. -/
  free : s.isPending = false
  /-- No layer is on. -/
  layers : s.holdings.layers = .empty
  /-- No modifier is on. -/
  modifiers : s.modifiers = ∅
  /-- No code is down. -/
  codes : s.holdings.register.registered = []
  /-- No one-shot is on. -/
  oneShots : ∀ m ∈ s.oneShots.modifiers.entries.map (·.2) ++ s.oneShots.layers.entries.map (·.2),
    m.phase = .idle

/-- Everything is off after a cancel. -/
theorem cleared_cancel (p : Profile) (s : Engine) : (s.cancel p).Cleared where
  free := rfl
  layers := Holdings.layers_releaseEverything _ _
  modifiers := by
    show (s.holdings.releaseEverything p.layerModifiers).modifiers.effective = ∅
    rw [Holdings.modifiers_releaseEverything]
    decide
  codes := by
    show (s.holdings.releaseEverything p.layerModifiers).register.registered = []
    rw [Holdings.register_releaseEverything, List.eq_nil_iff_forall_not_mem]
    intro code down
    rw [Register.mem_registered, Register.count_empty] at down
    exact Nat.lt_irrefl 0 down
  oneShots m listed := by
    rcases List.mem_append.1 listed with turned | switched
    · obtain ⟨⟨set, _⟩, member, rfl⟩ := List.mem_map.1 turned
      obtain ⟨old, -, rfl⟩ := Machines.mem_sweep (fun _ m => (m.cancel, none)) member
      rfl
    · obtain ⟨⟨id, _⟩, member, rfl⟩ := List.mem_map.1 switched
      obtain ⟨old, -, rfl⟩ := Machines.mem_sweep (fun _ m => (m.cancel, none)) member
      rfl

/-- Everything is still off when a note is made and the keys that are down change. -/
theorem Cleared.noted (cleared : s.Cleared) (signal : Signal) (active : ActiveKeys) :
    Cleared { s.announce signal with active := active } :=
  ⟨cleared.free, cleared.layers, cleared.modifiers, cleared.codes, cleared.oneShots⟩

/-- The press of a key that means cancel and was up turns everything off. -/
theorem cleared_press (up : s.active.contains event.key = false)
    (means : s.resolve p event.key = .cancel) : (s.press p event).Cleared := by
  rw [press_of_up up]
  simp only [performed, perform, means]
  exact (cleared_cancel p (s.readied event)).noted _ _

/-- An event that is acted on as it arrives leaves nothing else to do. -/
theorem step_feed_of_actsOn (acts : s.ActsOn p event) :
    step p s (.feed event) = (s.dispatch p event, []) := by
  unfold step
  cases waiting : s.tapHold.head with
  | none => rfl
  | some head =>
    obtain ⟨other, pressed, means⟩ := acts head waiting
    simp [other, pressed, means]

/-- At a moment of an event that is acted on, the engine acts on it. -/
theorem next_of_actsOn (acts : s.ActsOn p event) :
    (Moment.mk s (.task (.feed event))).next p = s.dispatch p event :=
  congrArg Prod.fst (step_feed_of_actsOn acts)

/-- A key that was up goes down with nothing waiting: its action is performed. -/
theorem next_of_press (idle : s.tapHold.head = none) (pressed : event.pressed = true)
    (up : s.active.contains event.key = false) :
    (Moment.mk s (.task (.feed event))).next p =
      { ((s.announce (.dispatched event)).performed p event).2.announce
          (.key event.key (s.resolve p event.key) true) with
        active := ((s.announce (.dispatched event)).performed p event).2.active.insert event.key
          ⟨s.resolve p event.key, ((s.announce (.dispatched event)).performed p event).1⟩ } := by
  rw [next_of_actsOn (actsOn_of_idle idle), dispatch, if_pos pressed]
  exact press_of_up (s := s.announce (.dispatched event)) up

/-- The waiting key goes up: it is settled as its tap. -/
theorem next_of_lift {head : PendingKey} (waiting : s.tapHold.head = some head)
    (same : head.key = event.key) (released : event.pressed = false) :
    (Moment.mk s (.task (.feed event))).next p = s.settled p .tap head := by
  simp [Moment.next, step, waiting, same, released, settleHead, settled]

/-- A key that means cancel acts at once. After every run of calls, and for every key that goes down and
up in turns and behind which the engine never lagged when something got ahead of what is kept back of it:
if the key means cancel once all has happened that is due when it goes down, then its press turns
everything off exactly if the engine does not lag behind the key just then. -/
theorem cancel_acts_iff (p : Profile) (calls : List Call) (event : KeyEvent)
    (pressed : event.pressed = true)
    (turns : Edges.Alternates (edges event.key (Call.events (calls ++ [Call.event event]))))
    (spared : ∀ m ∈ start.course p (calls ++ [Call.tick event.time]),
      m.overtakes p event.key = true → ¬m.state.Lags event.key)
    (means : (after p (calls ++ [Call.tick event.time])).resolve p event.key = .cancel) :
    (after p (calls ++ [Call.event event])).Cleared ↔
      ¬(after p (calls ++ [Call.tick event.time])).Lags event.key := by
  obtain ⟨given, dropped, track⟩ : ∃ given dropped, OnTrack event.key given
      (after p (calls ++ [Call.tick event.time])) [event] dropped := by
    have coming : Call.events (calls ++ [Call.event event]) =
        Call.events (calls ++ [Call.tick event.time]) ++ [event] := by
      simp only [Call.events, List.filterMap_append, List.append_assoc]
      rfl
    have begins := coming ▸ OnTrack.start turns
    exact ⟨_, _, begins.answers spared⟩
  have arrives : after p (calls ++ [Call.event event]) =
      (after p (calls ++ [Call.tick event.time])).run p [.feed event] := by
    simp only [after, List.foldl_append]
    rfl
  rw [arrives]
  generalize after p (calls ++ [Call.tick event.time]) = t at means track ⊢
  have acts : t.ActsOn p event :=
    fun head waiting => ⟨track.not_waiting pressed waiting, pressed, means⟩
  rw [run_cons, step_feed_of_actsOn acts, List.nil_append, run_nil, dispatch, if_pos pressed]
  constructor
  · rintro cleared ⟨down, last⟩
    -- The press is ignored, and what it lags behind still waits.
    rw [press_of_down (s := t.announce (.dispatched event)) down] at cleared
    have idle : t.tapHold.head = none := head_of_free cleared.free
    rw [kept_of_idle idle] at last
    cases last
  · intro prompt
    have up := track.fresh acts (fun _ => prompt) rfl pressed
    exact cleared_press (s := t.announce (.dispatched event)) up means

set_option maxRecDepth 10000 in
/-- The second press of the key that means cancel finds a key that waits and shift on, and ends both. -/
theorem cancel_acts_at_once :
    Call.Regular (Call.cancelTapped ++ [Call.down 2 30]) ∧
    (after .mixed Call.cancelTapped).isPending = true ∧
    (after .mixed Call.cancelTapped).modifiers = .single .leftShift ∧
    (after .mixed (Call.cancelTapped ++ [Call.down 2 30])).Cleared := by
  have turns : Edges.Alternates (edges ⟨2⟩ (Call.events (Call.cancelTapped ++ [Call.down 2 30]))) := by
    decide
  have spared : ∀ m ∈ start.course .mixed (Call.cancelTapped ++ [Call.tick (.ofWord 30)]),
      m.overtakes .mixed ⟨2⟩ = true → ¬m.state.Lags ⟨2⟩ := by
    have all : (start.course .mixed (Call.cancelTapped ++ [Call.tick (.ofWord 30)])).all
        (fun m => !m.overtakes .mixed ⟨2⟩ || !decide (m.state.Lags ⟨2⟩)) = true := by cbv
    simpa [imp_iff_not_or] using all
  have means : (after .mixed (Call.cancelTapped ++ [Call.tick (.ofWord 30)])).resolve .mixed ⟨2⟩ =
      .cancel := by cbv
  have prompt : ¬(after .mixed (Call.cancelTapped ++ [Call.tick (.ofWord 30)])).Lags ⟨2⟩ := by
    have checked : decide ((after .mixed (Call.cancelTapped ++ [Call.tick (.ofWord 30)])).Lags ⟨2⟩) =
        false := by cbv
    exact of_decide_eq_false checked
  refine ⟨by decide, by cbv, by cbv, ?_⟩
  exact (cancel_acts_iff .mixed Call.cancelTapped ⟨⟨2⟩, true, .ofWord 30⟩ rfl turns spared
    means).2 prompt

set_option maxRecDepth 10000 in
/-- If the first release of the key that means cancel is kept back behind the key that waits, its second
press does nothing: the key still waits, and shift is still on. -/
theorem cancel_ignored_behind_waiting :
    Call.Regular (Call.cancelLifted ++ [Call.down 2 30]) ∧
    (∀ call ∈ Call.cancelLifted, call ≠ .cancel) ∧
    (after .mixed (Call.cancelLifted ++ [Call.tick (.ofWord 30)])).resolve .mixed ⟨2⟩ = .cancel ∧
    (after .mixed (Call.cancelLifted ++ [Call.down 2 30])).isPending = true ∧
    (after .mixed (Call.cancelLifted ++ [Call.down 2 30])).modifiers = .single .leftShift := by
  exact ⟨by decide, by decide, by cbv, by cbv, by cbv⟩

end Engine

end KeyEngine
