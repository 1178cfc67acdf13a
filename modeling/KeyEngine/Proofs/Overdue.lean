import Mathlib.Data.List.DropRight
import KeyEngine.Proofs.KeptBack
import KeyEngine.Proofs.NextKey
import KeyEngine.Proofs.Timers

/-!
# One-shots that are over

A one-shot that was tapped waits for a key, but only until its deadline. It is turned off when the one-shots are
told the time, which happens ahead of every event that arrives. Events that were kept back are another matter:
they get their turns one after the other, each at its own time, and the one-shots are told nothing in between.
`over_before_next_event` says that this is the only gap. An event finds a one-shot latched whose deadline has
come only if the trigger went up since the time was last told, and then the deadline of one-shots is shorter
than the tapping term, since events that get their turns together lie within one tapping term.
-/

namespace KeyEngine

/-- A keyboard like the mixed one, on which only time and its own release settle a waiting key, and one-shots
end after the given time. -/
def Profile.waiting (timeout : UInt64) : Profile :=
  { Profile.mixed with
    settings := { Settings.standard with policy := .ignoreInterrupt, oneShotTimeout := .ofWord timeout } }

/-- A key waits; behind it the one-shot shift is tapped, and much later a stroke goes down. -/
def Call.tappedBehind : List Call := [.down 0 0, .down 3 10, .up 3 20, .down 1 150, .tick (.ofWord 200)]

/-- Whether the one-shots are told the time at a moment. -/
def Moment.tells (m : Moment) : Bool :=
  match m.deed with
  | .elapse _ => true
  | _ => false

/-- Events arrive in the order of their times if the calls that bring them are made in that order. -/
theorem Call.events_inOrder {calls : List Call} (times : (calls.filterMap time?).Pairwise (· ≤ ·)) :
    (events calls).Pairwise (·.time ≤ ·.time) := by
  rw [List.pairwise_filterMap] at times
  rw [events, List.pairwise_filterMap]
  refine times.imp fun {call other} le event brings later follows => ?_
  cases call <;> cases brings
  cases other <;> cases follows
  exact le _ rfl _ rfl

namespace Millis

/-- Of two lengths that begin at once, the one that ends first is the shorter one. -/
theorem lt_of_after_lt {start first second : Millis} (ends : start.after first < start.after second) :
    first < second := by
  simp only [lt_def, count_after] at ends ⊢
  omega

/-- A later start has no earlier deadline. -/
theorem after_mono {first second : Millis} (le : first ≤ second) (length : Millis) :
    first.after length ≤ second.after length := by
  simp only [le_def, count_after] at le ⊢
  omega

end Millis

namespace OneShot

variable {settings : Settings} {time now : Millis} {m : OneShot} {limit : Option Millis}

/-- A press latches nothing. -/
theorem phase_press_ne_latched : (m.press settings time).1.phase ≠ .latched limit := by
  have begins (taps : Nat) : phaseAfter settings time taps ≠ .latched limit := by
    unfold phaseAfter
    split <;> exact OneShotPhase.noConfusion
  obtain ⟨phase, taps, lastRelease⟩ := m
  cases phase with
  | idle => exact begins 1
  | latched earlier => exact begins _
  | _ => exact OneShotPhase.noConfusion

/-- A machine that is told of a key does not wait for one any more. -/
theorem phase_consume_ne_latched : m.consume.1.phase ≠ .latched limit := by
  obtain ⟨phase, taps, lastRelease⟩ := m
  cases phase <;> exact OneShotPhase.noConfusion

/-- A release latches a machine from its own time on, or leaves it latched. -/
theorem latched_of_release (latched : (m.release settings time).1.phase = .latched limit) :
    m.phase = .latched limit ∨ deadlineFrom settings time = limit := by
  obtain ⟨phase, taps, lastRelease⟩ := m
  cases phase with
  | queued since =>
    unfold release at latched
    dsimp only at latched
    split at latched
    · exact .inr (OneShotPhase.latched.inj latched)
    · cases latched
  | heldActive => cases latched
  | _ => exact .inl latched

/-- A machine that stays latched when it is told the time is not over. -/
theorem latched_of_tick {deadline : Millis}
    (latched : (m.tick settings now).1.phase = .latched (some deadline)) :
    m.phase = .latched (some deadline) ∧ now < deadline := by
  obtain ⟨phase, taps, lastRelease⟩ := m
  cases phase with
  | queued since =>
    unfold tick at latched
    dsimp only at latched
    split at latched <;> cases latched
  | latched earlier =>
    cases earlier with
    | none => cases latched
    | some earlier =>
      unfold tick at latched
      dsimp only at latched
      split at latched
      · cases latched
      · rename_i early
        cases latched
        exact ⟨rfl, Nat.lt_of_not_le fun le => early (Millis.isDue_iff.2 le)⟩
  | _ => cases latched

/-- A deadline lies a fixed time after the release. -/
theorem eq_after_of_deadlineFrom {deadline : Millis} (limit : deadlineFrom settings time = some deadline) :
    deadline = time.after settings.oneShotTimeout := by
  unfold deadlineFrom at limit
  split at limit
  · cases limit
  · exact (Option.some.inj limit).symm

end OneShot

namespace OneShots

variable (shots : OneShots) (h : Holdings) (lm : LayerModifiers)

/-- A transition of one machine leaves a machine as it is, unless it is that machine. -/
theorem machine_step (trigger other : Action) (f : OneShot → OneShot × Option OneShotChange) :
    (shots.step h lm other f).1.machine trigger = shots.machine trigger ∨
      other = trigger ∧ (shots.step h lm other f).1.machine trigger = (f (shots.machine trigger)).1 := by
  by_cases same : other = trigger
  · subst same
    cases other with
    | oneShotModifier set => exact .inr ⟨rfl, (shots.modifiers.get_set set set _).trans (if_pos rfl)⟩
    | oneShotLayer id => exact .inr ⟨rfl, (shots.layers.get_set id id _).trans (if_pos rfl)⟩
    | _ => exact .inl rfl
  · exact .inl (shots.machine_step_of_ne h lm same f)

/-- Every machine rests after a cancel. -/
theorem machine_cancel (trigger : Action) : (shots.cancel.machine trigger).phase = .idle := by
  cases trigger with
  | oneShotModifier set =>
    exact congrArg OneShot.phase (shots.modifiers.get_sweep (fun _ m => (m.cancel, none)) set rfl)
  | oneShotLayer id =>
    exact congrArg OneShot.phase (shots.layers.get_sweep (fun _ m => (m.cancel, none)) id rfl)
  | _ => rfl

end OneShots

namespace Engine

variable {p : Profile} {s t next : Engine} {trigger : Action} {deadline : Millis} {event : KeyEvent}

/-- The one-shot of a trigger is latched until a deadline. -/
def LatchedTill (s : Engine) (trigger : Action) (deadline : Millis) : Prop :=
  (s.oneShots.machine trigger).phase = .latched (some deadline)

namespace LatchedTill

/-- The next key latches no one-shot. -/
theorem of_consume {action : Action} (latched : (s.consume p action).LatchedTill trigger deadline) :
    s.LatchedTill trigger deadline := by
  cases ignored : p.settings.ignores trigger action with
  | true =>
    rw [LatchedTill, machine_consume_of_ignored ignored] at latched
    exact latched
  | false =>
    have told : (s.consume p action).oneShots.machine trigger = (s.oneShots.machine trigger).consume.1 :=
      s.oneShots.machine_consume s.holdings p.layerModifiers trigger ignored
    rw [LatchedTill, told] at latched
    exact absurd latched OneShot.phase_consume_ne_latched

/-- The press of a key latches no one-shot. -/
theorem of_perform {action : Action} (latched : (s.perform p event action).2.LatchedTill trigger deadline) :
    s.LatchedTill trigger deadline := by
  have spec := effect_spec p event action s
  generalize s.perform p event action = result at spec latched
  cases spec with
  | types => exact of_consume latched
  | triggers =>
    rcases s.oneShots.machine_step s.holdings p.layerModifiers trigger action
      (OneShot.press p.settings event.time) with same | ⟨-, pressed⟩
    · exact (congrArg OneShot.phase same).symm.trans latched
    · exact absurd ((congrArg OneShot.phase pressed).symm.trans latched) OneShot.phase_press_ne_latched
  | cancels =>
    have idle := s.oneShots.machine_cancel trigger
    exact OneShotPhase.noConfusion (idle.symm.trans latched)
  | _ => exact latched

/-- Undoing what a key did latches a one-shot only if the key is its trigger, with the deadline that
follows from the time. -/
theorem of_undo {entry : ActiveKey} (latched : (s.undo p event entry).LatchedTill trigger deadline) :
    s.LatchedTill trigger deadline ∨
      entry = ⟨trigger, .oneShot⟩ ∧ OneShot.deadlineFrom p.settings event.time = some deadline := by
  have spec := undone_spec p event entry s
  generalize s.undo p event entry = next at spec latched
  cases spec with
  | lets => exact .inl latched
  | lifts pressed =>
    rcases s.oneShots.machine_step s.holdings p.layerModifiers trigger entry.action
      (OneShot.release p.settings event.time) with same | ⟨own, released⟩
    · exact .inl ((congrArg OneShot.phase same).symm.trans latched)
    · have latched := (congrArg OneShot.phase released).symm.trans latched
      refine (OneShot.latched_of_release latched).imp_right fun limit => ⟨?_, limit⟩
      rw [← own, ← pressed]
  | frees _ _ oneShots =>
    rw [LatchedTill, oneShots] at latched
    exact .inl latched

/-- Settling a waiting key latches no one-shot. -/
theorem of_settled {decision : Decision} {head : PendingKey}
    (latched : (s.settled p decision head).LatchedTill trigger deadline) :
    s.LatchedTill trigger deadline := by
  have spec := settlement_spec p decision head s
  generalize s.settled p decision head = next at spec latched
  cases spec with
  | types => exact of_consume latched
  | takes => exact latched
  | spares _ _ _ oneShots =>
    rw [LatchedTill, oneShots] at latched
    exact latched

/-- An event latches a one-shot only as the release of its trigger, with the deadline that follows from
its time. -/
theorem of_dispatch (latched : (s.dispatch p event).LatchedTill trigger deadline) :
    s.LatchedTill trigger deadline ∨ event.pressed = false ∧
      s.active.find? event.key = some ⟨trigger, .oneShot⟩ ∧
      OneShot.deadlineFrom p.settings event.time = some deadline := by
  unfold dispatch at latched
  dsimp only at latched
  split at latched
  · cases down : s.active.contains event.key with
    | true =>
      rw [press_of_down (s := s.announce (.dispatched event)) down] at latched
      exact .inl latched
    | false =>
      rw [press_of_up (s := s.announce (.dispatched event)) down] at latched
      exact .inl (of_perform (s := (s.announce (.dispatched event)).readied event) latched)
  · rename_i released
    cases found : s.active.find? event.key with
    | none =>
      rw [release_of_up (s := s.announce (.dispatched event)) found] at latched
      exact .inl latched
    | some entry =>
      rw [release_of_down (s := s.announce (.dispatched event)) found] at latched
      refine (of_undo latched).imp_right fun ⟨own, limit⟩ => ?_
      exact ⟨Bool.eq_false_iff.2 released, by rw [own], limit⟩

end LatchedTill

/-- The trigger of a one-shot goes up at a moment by a release from which its deadline follows. -/
structure Latches (p : Profile) (trigger : Action) (deadline : Millis) (release : KeyEvent) (m : Moment) :
    Prop where
  /-- The release gets its turn. -/
  lifts : m.deed = .task (.feed release) ∧ release.pressed = false ∧ m.state.tapHold.head = none
  /-- Its key is down as the trigger. -/
  down : m.state.active.find? release.key = some ⟨trigger, .oneShot⟩
  /-- The deadline follows from its time. -/
  limit : OneShot.deadlineFrom p.settings release.time = some deadline

/-- A one-shot that is latched after a task was so before, or is latched by it. -/
theorem LatchedTill.of_step {task : Task} {more : List Task} (taken : Step p s task next more)
    (latched : next.LatchedTill trigger deadline) : s.LatchedTill trigger deadline ∨
      ∃ release, Latches p trigger deadline release ⟨s, .task task⟩ := by
  cases taken with
  | early => exact .inl latched
  | due => exact .inl latched.of_settled
  | act idle =>
    refine latched.of_dispatch.imp_right fun ⟨released, down, limit⟩ => ?_
    exact ⟨_, ⟨rfl, released, idle⟩, down, limit⟩
  | again => exact .inl latched
  | lift => exact .inl latched.of_settled
  | abort _ _ pressed =>
    refine latched.of_dispatch.imp_right fun ⟨released, _⟩ => ?_
    exact Bool.noConfusion (pressed.symm.trans released)
  | keep => exact .inl latched
  | @interrupt event head => exact .inl (of_settled (s := s.keptBack head event) latched)

/-- A task brings no event that was neither kept back nor to come, and leaves their order as it is. -/
theorem sublist_of_step {task : Task} {rest more : List Task} (taken : Step p s task next more) :
    (next.kept ++ Task.events (more ++ rest)).Sublist (s.kept ++ Task.events (task :: rest)) := by
  have settled (decision : Decision) (head : PendingKey) (s : Engine) :
      (s.settled p decision head).kept = [] := kept_of_idle (by rw [tapHold_settled]; rfl)
  have dispatch (event : KeyEvent) : (s.dispatch p event).kept.Sublist s.kept := by
    rcases head_dispatch p event s with same | idle | ⟨action, waits⟩
    · simp only [kept, same, List.Sublist.refl]
    · rw [kept_of_idle idle]
      exact List.nil_sublist _
    · rw [kept_of_waiting waits]
      exact List.nil_sublist _
  rw [Task.events_append]
  cases taken with
  | early => exact .refl _
  | due waiting =>
    rw [settled, kept_of_waiting waiting]
    simp
  | act => exact (dispatch _).append (List.sublist_cons_self _ _)
  | again => exact (List.Sublist.refl _).append (List.sublist_cons_self _ _)
  | lift waiting =>
    rw [settled, kept_of_waiting waiting]
    simp
  | abort => exact (dispatch _).append (List.sublist_cons_self _ _)
  | @keep event head waiting =>
    rw [kept_of_waiting (head_keptBack head event s), kept_of_waiting waiting]
    simp [PendingKey.push]
  | @interrupt event head waiting =>
    rw [settled, kept_of_waiting waiting]
    simp [PendingKey.push]

/-- The moments at the end of a course since the one-shots were last told the time. -/
def sinceTold (moments : List Moment) : List Moment := moments.rtakeWhile (!·.tells)

/-- A moment at which the one-shots are told nothing comes after the same telling. -/
theorem sinceTold_concat {moments : List Moment} {m : Moment} (silent : m.tells = false) :
    sinceTold (moments ++ [m]) = sinceTold moments ++ [m] := by
  rw [sinceTold, List.rtakeWhile_concat_pos _ _ _ (by simp [silent]), sinceTold]

/-- A one-shot was latched by a release since the one-shots were last told the time. -/
def LatchedSince (p : Profile) (past : List Moment) (trigger : Action) (deadline : Millis)
    (release : KeyEvent) : Prop :=
  ∃ up ∈ sinceTold past, Latches p trigger deadline release up

/-- What was latched since the one-shots were told the time still is after a moment that tells them
nothing. -/
theorem LatchedSince.concat {past : List Moment} {m : Moment} {release : KeyEvent}
    (since : LatchedSince p past trigger deadline release) (silent : m.tells = false) :
    LatchedSince p (past ++ [m]) trigger deadline release := by
  obtain ⟨up, member, latches⟩ := since
  rw [LatchedSince, sinceTold_concat silent]
  exact ⟨up, List.mem_append_left _ member, latches⟩

/-- The one-shots were last told a time after which nothing has happened that they would have to be told: no
event is later, those that get their turns without another word lie close together, and every one-shot whose
deadline has come was latched in the meantime, by an event that is close to those, too. -/
structure Told (p : Profile) (now : Millis) (past : List Moment) (s : Engine) (coming : List KeyEvent) :
    Prop where
  /-- No event that is kept back or to come is later than the time that was told. -/
  recent : ∀ event ∈ s.kept ++ coming, event.time ≤ now
  /-- None comes a tapping term or more after another one. -/
  close : (s.kept ++ coming).Pairwise fun first second =>
    second.time < first.time.after p.settings.tappingTerm
  /-- A one-shot that should have ended was latched since. -/
  latched : ∀ trigger deadline, s.LatchedTill trigger deadline → now < deadline ∨
    ∃ release, LatchedSince p past trigger deadline release ∧
      ∀ event ∈ s.kept ++ coming, event.time < release.time.after p.settings.tappingTerm

/-- If an event gets its turn at a moment, every one-shot that is latched then is not over by the time of the
event, or was latched since the one-shots were told the time. -/
def Prompt (p : Profile) (past : List Moment) (m : Moment) : Prop :=
  ∀ event, m.deed = .task (.feed event) → ∀ trigger deadline, m.state.LatchedTill trigger deadline →
    event.time < deadline ∨ p.settings.oneShotTimeout < p.settings.tappingTerm ∧
      ∃ release, LatchedSince p past trigger deadline release

/-- The engine is prompt at every one of some moments that come after others. -/
def AllPrompt (p : Profile) (past moments : List Moment) : Prop :=
  ∀ before m later, moments = before ++ m :: later → Prompt p (past ++ before) m

namespace AllPrompt

variable {past first second : List Moment} {m : Moment}

/-- The engine is prompt at no moments. -/
theorem nil : AllPrompt p past [] := fun before m later parts => by simp at parts

/-- The engine is prompt at a single moment if it is so after the others. -/
theorem single (prompt : Prompt p past m) : AllPrompt p past [m] := by
  intro before n later parts
  obtain ⟨rfl, rfl, rfl⟩ : before = [] ∧ m = n ∧ later = [] := by
    cases before with
    | nil => simpa using parts
    | cons => simp at parts
  rwa [List.append_nil]

/-- The engine is prompt at moments in a row if it is so at the first ones and, after those, at the
others. -/
theorem append (prompt : AllPrompt p past first) (onward : AllPrompt p (past ++ first) second) :
    AllPrompt p past (first ++ second) := by
  intro before m later parts
  rcases append_eq_append_cons parts with ⟨others, here⟩ | ⟨others, rfl, here⟩
  · exact prompt before m others here
  · rw [← List.append_assoc]
    exact onward others m later here

/-- Nothing is asked of a moment that is no task. -/
theorem silent {s : Engine} {deed : Deed} (silent : ∀ event, deed ≠ .task (.feed event)) :
    AllPrompt p past [⟨s, deed⟩] :=
  single fun event fed => absurd fed (silent event)

end AllPrompt

namespace Told

variable {now : Millis} {past : List Moment} {coming : List KeyEvent}

/-- At the start nothing is latched, whatever time was told. -/
theorem start (p : Profile) (now : Millis) : Told p now [] start [] where
  recent _ member := absurd member List.not_mem_nil
  close := .nil
  latched trigger deadline latched := by
    have idle : (Engine.start.oneShots.machine trigger).phase = .idle := by cases trigger <;> rfl
    exact OneShotPhase.noConfusion (idle.symm.trans latched)

/-- While the one-shots know the time, the next task is done promptly. -/
theorem prompt {task : Task} {rest : List Task} (told : Told p now past s (Task.events (task :: rest))) :
    Prompt p past ⟨s, .task task⟩ := by
  rintro event ⟨⟩ trigger deadline latched
  have member : event ∈ s.kept ++ event :: Task.events rest := List.mem_append_right _ (.head _)
  rcases told.latched trigger deadline latched with later | ⟨release, since, close⟩
  · exact .inl (Nat.lt_of_le_of_lt (told.recent event member) later)
  · refine (Nat.lt_or_ge event.time.count deadline.count).imp_right fun ended => ⟨?_, release, since⟩
    obtain ⟨up, -, latches⟩ := since
    have ends := OneShot.eq_after_of_deadlineFrom latches.limit
    exact Millis.lt_of_after_lt (Nat.lt_of_le_of_lt (ends ▸ ended) (close event member))

/-- A task of the agenda leaves the one-shots told. -/
theorem step {task : Task} {rest more : List Task} (told : Told p now past s (Task.events (task :: rest)))
    (taken : Step p s task next more) :
    Told p now (past ++ [⟨s, .task task⟩]) next (Task.events (more ++ rest)) := by
  have fewer : (next.kept ++ Task.events (more ++ rest)).Sublist (s.kept ++ Task.events (task :: rest)) :=
    sublist_of_step taken
  refine ⟨fun event member => told.recent event (fewer.subset member), told.close.sublist fewer,
    fun trigger deadline latched => ?_⟩
  rcases latched.of_step taken with earlier | ⟨release, latches⟩
  · refine (told.latched trigger deadline earlier).imp_right fun ⟨release, since, close⟩ => ?_
    exact ⟨release, since.concat rfl, fun event member => close event (fewer.subset member)⟩
  · refine .inr ⟨release, ⟨⟨s, .task task⟩, ?_, latches⟩, ?_⟩
    · rw [sinceTold_concat rfl]
      exact List.mem_append_right _ (.head _)
    · -- Whatever gets its turn without another word to the one-shots comes after the release and close to it.
      obtain ⟨⟨⟩, released, idle⟩ := latches.lifts
      cases taken with
      | act =>
        have nothing : (s.dispatch p release).kept = [] :=
          kept_of_idle ((head_dispatch_of_release released).trans idle)
        have close := told.close
        rw [kept_of_idle idle] at close
        rw [nothing]
        exact (List.pairwise_cons.1 close).1
      | again waiting | lift waiting | abort waiting | keep waiting | interrupt waiting =>
        rw [idle] at waiting
        cases waiting

/-- An agenda is done without another word to the one-shots. -/
theorem doing {agenda : List Task} (told : Told p now past s (Task.events agenda)) :
    Told p now (past ++ s.doing p agenda) (s.run p agenda) [] ∧ AllPrompt p past (s.doing p agenda) := by
  induction s, agenda using run.induct p generalizing past with
  | case1 s =>
    rw [Engine.doing, run_nil, List.append_nil]
    exact ⟨told, .nil⟩
  | case2 s task rest ih =>
    obtain ⟨ends, onward⟩ := ih (told.step (step_spec p s task))
    rw [Engine.doing, run_cons, ← List.singleton_append, ← List.append_assoc]
    exact ⟨ends, .append (.single told.prompt) onward⟩

/-- The one-shots are told the time once nothing is due. What is kept back then was pressed after the waiting
key, and that key is not due yet. -/
theorem elapse (ordered : s.Ordered p coming) (early : s.tapHold.isDue now = false)
    (recent : ∀ event ∈ s.kept ++ coming, event.time ≤ now) (few : coming.length ≤ 1) :
    Told p now (past ++ [⟨s, .elapse now⟩]) (s.elapse p now) coming := by
  refine ⟨recent, ?_, fun trigger deadline latched => .inl ?_⟩
  · show (s.kept ++ coming).Pairwise _
    cases waiting : s.tapHold.head with
    | none =>
      rw [kept_of_idle waiting, List.nil_append]
      match coming, few with
      | [], _ => exact .nil
      | [event], _ => exact List.pairwise_singleton _ _
    | some head =>
      -- All events lie between the press of the waiting key and its deadline.
      refine List.pairwise_of_forall_mem_list fun first firstIn second secondIn => ?_
      have ends : now < head.deadline := lt_deadline waiting early
      have begins := Millis.after_mono (ordered.since head waiting first firstIn) p.settings.tappingTerm
      rw [← ordered.deadline head waiting] at begins
      exact Nat.lt_of_le_of_lt (recent second secondIn) (Nat.lt_of_lt_of_le ends begins)
  · have told : (s.elapse p now).oneShots.machine trigger =
        ((s.oneShots.machine trigger).tick p.settings now).1 :=
      s.oneShots.machine_tick s.holdings p.layerModifiers p.settings now trigger
    exact (OneShot.latched_of_tick ((congrArg OneShot.phase told).symm.trans latched)).2

/-- A tick tells the one-shots its own time and is prompt, with one event to come at most. -/
theorem ticking (told : Told p now past s []) (ordered : s.Ordered p coming) {time : Millis} (le : now ≤ time)
    (recent : ∀ event ∈ coming, event.time ≤ time) (few : coming.length ≤ 1) :
    Told p time (past ++ s.ticking p time) (s.tick p time) coming ∧ AllPrompt p past (s.ticking p time) := by
  have begins : Told p now past s (Task.events [.expire time]) := told
  obtain ⟨ends, prompt⟩ := begins.doing
  refine ⟨?_, prompt.append (.silent fun event => Deed.noConfusion)⟩
  have done : (s.run p [.expire time]).Ordered p coming := Ordered.run [.expire time] ordered
  rw [Engine.ticking, ← List.append_assoc]
  refine elapse done (isDue_run_expire s [] time) (fun event member => ?_) few
  rcases List.mem_append.1 member with kept | arriving
  · exact Nat.le_trans (ends.recent event (List.mem_append_left _ kept)) le
  · exact recent event arriving

/-- The answer to a call tells the one-shots the time of the call and is prompt. -/
theorem answering {call : Call} (told : Told p now past s []) (ordered : s.Ordered p (Call.events [call]))
    (le : ∀ time ∈ call.time?, now ≤ time) :
    Told p (call.time?.getD now) (past ++ s.answering p call) (s.answer p call) [] ∧
      AllPrompt p past (s.answering p call) := by
  cases call with
  | event event =>
    have arrives (other) (member : other ∈ [event]) : other.time ≤ event.time := by
      rw [List.mem_singleton.1 member]
      exact Nat.le_refl _
    obtain ⟨ticked, first⟩ := told.ticking ordered (le event.time rfl) arrives (Nat.le_refl _)
    have begins : Told p event.time (past ++ s.ticking p event.time) (s.tick p event.time)
        (Task.events [.feed event]) := ticked
    obtain ⟨ends, second⟩ := begins.doing
    rw [Engine.answering, ← List.append_assoc]
    exact ⟨ends, first.append second⟩
  | tick time =>
    exact told.ticking ordered (le time rfl) (fun _ member => absurd member List.not_mem_nil) (Nat.zero_le _)
  | cancel =>
    refine ⟨⟨fun _ member => absurd member List.not_mem_nil, .nil, fun trigger _ latched => ?_⟩,
      .silent fun event => Deed.noConfusion⟩
    exact OneShotPhase.noConfusion ((s.oneShots.machine_cancel trigger).symm.trans latched)

/-- At every moment of a run the engine is prompt. -/
theorem course {calls : List Call} (told : Told p now past s []) (ordered : s.Ordered p (Call.events calls))
    (times : (now :: calls.filterMap Call.time?).Pairwise (· ≤ ·)) :
    AllPrompt p past (s.course p calls) := by
  induction calls generalizing s now past with
  | nil => exact .nil
  | cons call rest ih =>
    rw [Call.events_cons] at ordered
    have le (time) (known : time ∈ call.time?) : now ≤ time := by
      rw [List.filterMap_cons_some known] at times
      exact (List.pairwise_cons.1 times).1 time (.head _)
    have onward : ((call.time?.getD now) :: rest.filterMap Call.time?).Pairwise (· ≤ ·) := by
      cases known : call.time? with
      | none => rwa [List.filterMap_cons_none known] at times
      | some time =>
        rw [List.filterMap_cons_some known] at times
        exact (List.pairwise_cons.1 times).2
    obtain ⟨ends, first⟩ := told.answering (ordered.fewer rfl (by simp)) le
    have answered : ([call].foldl (answer p) s).Ordered p (Call.events rest) := ordered.answers
    exact first.append (ih ends answered onward)

end Told

/-- A one-shot that is over touches no later event, but for one that was latched meanwhile. In every run of
calls in the order of their times, let an event get its turn while a one-shot is latched: then the one-shot
ends after the time of the event, or its trigger went up since the one-shots were last told the time, and
one-shots end within less than a tapping term. -/
theorem over_before_next_event (p : Profile) (calls : List Call)
    (times : (calls.filterMap Call.time?).Pairwise (· ≤ ·)) {before later : List Moment} {m : Moment}
    {event : KeyEvent} {trigger : Action} {deadline : Millis}
    (course : start.course p calls = before ++ m :: later) (turn : m.deed = .task (.feed event))
    (latched : (m.state.oneShots.machine trigger).phase = .latched (some deadline)) :
    event.time < deadline ∨ p.settings.oneShotTimeout < p.settings.tappingTerm ∧
      ∃ release, LatchedSince p before trigger deadline release := by
  have times : (Millis.zero :: calls.filterMap Call.time?).Pairwise (· ≤ ·) :=
    List.pairwise_cons.2 ⟨fun time _ => Nat.zero_le _, times⟩
  have ordered := Ordered.start (p := p) (Call.events_inOrder (List.pairwise_cons.1 times).2)
  exact (Told.start p .zero).course ordered times before m later course event turn trigger deadline latched

/-- The stroke behind the tapped one-shot gets its turn: the waiting key was settled, and the one-shot was
tapped. -/
def strokeDown (timeout : UInt64) : Moment :=
  let p := Profile.waiting timeout
  let settled := ((after p (Call.tappedBehind.take 4)).step p (.expire (.ofWord 200))).1
  ⟨(settled.dispatch p ⟨⟨3⟩, true, .ofWord 10⟩).dispatch p ⟨⟨3⟩, false, .ofWord 20⟩,
    .task (.feed ⟨⟨1⟩, true, .ofWord 150⟩)⟩

set_option maxRecDepth 10000 in
/-- The course of the run is cut at the press of the stroke behind the tapped one-shot. -/
theorem strokeDown_course {timeout : UInt64} (known : timeout = 50 ∨ timeout = 500) :
    start.course (.waiting timeout) Call.tappedBehind =
      (start.course (.waiting timeout) Call.tappedBehind).take 18 ++ strokeDown timeout ::
        (start.course (.waiting timeout) Call.tappedBehind).drop 19 := by
  rcases known with rfl | rfl
  · cbv
  · cbv

set_option maxRecDepth 10000 in
/-- If one-shots end after half a second, the one that was latched behind the waiting key is in time for the
stroke. If they end after fifty milliseconds it is not, and was latched by an event that was kept back as the
stroke was. -/
theorem over_before_next_event_behind_waiting :
    Call.Regular Call.tappedBehind ∧ Millis.ofWord 150 < .ofWord 520 ∧
    ∃ release, LatchedSince (.waiting 50) ((start.course (.waiting 50) Call.tappedBehind).take 18) shiftTrigger
      (.ofWord 70) release := by
  have regular : Call.Regular Call.tappedBehind := by decide
  have long : ((strokeDown 500).state.oneShots.machine shiftTrigger).phase = .latched (some (.ofWord 520)) := by
    cbv
  have short : ((strokeDown 50).state.oneShots.machine shiftTrigger).phase = .latched (some (.ofWord 70)) := by
    cbv
  have late := over_before_next_event (.waiting 500) Call.tappedBehind regular.2 (strokeDown_course (.inr rfl))
    rfl long
  have soon := over_before_next_event (.waiting 50) Call.tappedBehind regular.2 (strokeDown_course (.inl rfl))
    rfl short
  exact ⟨regular, late.resolve_right fun short => absurd short.1 (by decide),
    (soon.resolve_left (by decide)).2⟩

set_option maxRecDepth 10000 in
/-- One-shots that end after fifty milliseconds: the one that was tapped at twenty is on for a stroke that goes
down at a hundred and fifty, since both were kept back behind a waiting key. -/
theorem stroke_after_deadline_is_shifted :
    Call.Regular Call.tappedBehind ∧ (∀ call ∈ Call.tappedBehind, call ≠ .cancel) ∧
    (start.course (.waiting 50) Call.tappedBehind =
      (start.course (.waiting 50) Call.tappedBehind).take 18 ++ strokeDown 50 ::
        (start.course (.waiting 50) Call.tappedBehind).drop 19) ∧
    (strokeDown 50).deed = .task (.feed ⟨⟨1⟩, true, .ofWord 150⟩) ∧
    (strokeDown 50).state.isPending = false ∧ (strokeDown 50).state.active.contains ⟨1⟩ = false ∧
    ((strokeDown 50).state.oneShots.machine shiftTrigger).phase = .latched (some (.ofWord 70)) ∧
    ((strokeDown 50).next (.waiting 50)).journal.stream =
      [.modifiers (.single .leftControl), .modifiers (.single .leftControl ∪ .single .leftShift), .press .b,
        .modifiers (.single .leftControl)] := by
  refine ⟨by decide, by decide, strokeDown_course (.inl rfl), rfl, ?_, ?_, ?_, ?_⟩
  · cbv
  · cbv
  · cbv
  · cbv

end Engine

end KeyEngine
