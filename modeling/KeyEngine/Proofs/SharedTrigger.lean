import KeyEngine.Proofs.Overdue
import KeyEngine.Proofs.Repeats

/-!
# Keys that share a one-shot

Several keys can be the trigger of one one-shot, and they share its machine. The machine does not count them:
while it is held, a further press of the trigger changes nothing, and a release turns it off. So
`held_until_one_lets_go` says that a held one-shot stays on exactly until the first of its keys lets go, whichever
of them turned it on. `revoked_while_held` is a case in which the modifier is gone although the key that turned it
on is still down.
-/

namespace KeyEngine

/-- A keyboard with two keys for the one-shot shift. -/
def Profile.sharedShift : Profile where
  keymap :=
    ⟨[⟨"base", [.oneShotModifier (.single .leftShift), .oneShotModifier (.single .leftShift),
        .plain (.ofCode .b)]⟩],
      Keymap.firstFault_eq_none_iff.1 (by decide)⟩
  settings := .standard
  layerModifiers := .none

/-- The first key is down for longer than the tapping term, then the second one goes down and up. -/
def Call.heldByBoth : List Call := [.down 0 0, .tick (.ofWord 300), .down 1 310, .up 1 330]

namespace OneShot

variable {m : OneShot} (settings : Settings) (time : Millis)

/-- While a machine is held, another press of its trigger changes nothing. -/
theorem press_of_held (held : m.phase = .heldActive) : m.press settings time = (m, none) := by
  unfold press
  rw [held]

/-- While a machine is held, keys that use it change nothing. -/
theorem consume_of_held (held : m.phase = .heldActive) : m.consume = (m, none) := by
  unfold consume
  rw [held]

end OneShot

namespace Engine

variable {p : Profile} {s : Engine} {trigger : Action} {event : KeyEvent} {key : Key}

/-- The one-shot of a trigger is held. -/
def HeldOn (s : Engine) (trigger : Action) : Prop := (s.oneShots.machine trigger).phase = .heldActive

/-- A key is down as the trigger of a one-shot. -/
def TriggeredBy (s : Engine) (trigger : Action) (key : Key) : Prop :=
  s.active.find? key = some ⟨trigger, .oneShot⟩

end Engine

namespace Moment

/-- A key that was down as a trigger is so no longer. -/
def LetsGo (p : Profile) (trigger : Action) (m : Moment) : Prop :=
  ∃ key, m.state.TriggeredBy trigger key ∧ ¬(m.next p).TriggeredBy trigger key

/-- A key goes up at a moment by a release of it that gets its turn while no key waits. -/
theorem exists_of_lifts {m : Moment} {key : Key} (lifts : m.lifts key = true) :
    ∃ event, m = ⟨m.state, .task (.feed event)⟩ ∧ event.key = key ∧ event.pressed = false ∧
      m.state.tapHold.head = none := by
  obtain ⟨s, deed⟩ := m
  cases deed with
  | elapse | cancel => cases lifts
  | task task =>
    cases task with
    | expire => cases lifts
    | feed event =>
      simp only [Moment.lifts, Bool.and_eq_true, beq_iff_eq, Bool.not_eq_true'] at lifts
      exact ⟨event, rfl, lifts.1.1, lifts.1.2, Engine.head_of_free lifts.2⟩

/-- Where everything is dropped, the one-shots are turned off and no key has anything left to undo. -/
theorem next_of_drops {p : Profile} {m : Moment} (drops : m.drops p = true) :
    (m.next p).oneShots = m.state.oneShots.cancel ∧
      ∀ key entry, (m.next p).active.find? key = some entry → entry.state = .inert := by
  have inert (keys : ActiveKeys) (key : Key) (entry : ActiveKey)
      (found : keys.makeInert.find? key = some entry) : entry.state = .inert := by
    rw [ActiveKeys.find?_makeInert, Option.map_eq_some_iff] at found
    obtain ⟨old, -, rfl⟩ := found
    rfl
  obtain ⟨s, deed⟩ := m
  cases deed with
  | elapse => cases drops
  | cancel => exact ⟨rfl, inert s.active⟩
  | task task =>
    cases task with
    | expire => cases drops
    | feed event =>
      simp only [Moment.drops, cancels, ignores, Bool.and_eq_true, beq_iff_eq, Bool.not_eq_true'] at drops
      obtain ⟨⟨⟨pressed, others⟩, means⟩, up⟩ := drops
      have acts : s.ActsOn p event := fun head waiting => by
        rw [waiting] at others
        exact ⟨bne_iff_ne.1 others, pressed, means⟩
      have meant : (s.announce (.dispatched event)).resolve p event.key = .cancel := means
      rw [Engine.next_of_actsOn acts, Engine.dispatch, if_pos pressed,
        Engine.press_of_up (s := s.announce (.dispatched event)) up, Engine.performed, meant]
      refine ⟨rfl, fun key entry found => ?_⟩
      rw [ActiveKeys.find?_insert] at found
      split at found
      · rw [← Option.some.inj found]
        rfl
      · exact inert s.active key entry found

end Moment

namespace Engine

variable {p : Profile} {s : Engine} {trigger : Action} {event : KeyEvent} {key : Key}

namespace HeldOn

/-- The machine was made when the trigger went down. -/
theorem known (held : s.HeldOn trigger) : s.oneShots.machine trigger ≠ .new := by
  intro new
  rw [HeldOn, new] at held
  cases held

/-- A one-shot is held on where its machine stands as it stood. -/
theorem congr {next : Engine} (held : s.HeldOn trigger)
    (same : next.oneShots.machine trigger = s.oneShots.machine trigger) : next.HeldOn trigger := by
  rw [HeldOn, same]
  exact held

/-- The next key leaves a held one-shot on. -/
theorem consume (held : s.HeldOn trigger) (action : Action) : (s.consume p action).HeldOn trigger := by
  refine held.congr ?_
  cases ignored : p.settings.ignores trigger action with
  | true => exact machine_consume_of_ignored ignored
  | false =>
    have told : (s.consume p action).oneShots.machine trigger = (s.oneShots.machine trigger).consume.1 :=
      s.oneShots.machine_consume s.holdings p.layerModifiers trigger ignored
    rw [told, OneShot.consume_of_held held]

/-- The press of a key, other than cancel, leaves a held one-shot on. -/
theorem perform (held : s.HeldOn trigger) {action : Action} (goes : action ≠ .cancel) :
    (s.perform p event action).2.HeldOn trigger := by
  have spec := effect_spec p event action s
  generalize s.perform p event action = result at spec
  cases spec with
  | types => exact consume (s := s.mapHoldings (·.types action)) held action
  | triggers =>
    rcases s.oneShots.machine_step s.holdings p.layerModifiers trigger action
      (OneShot.press p.settings event.time) with same | ⟨-, pressed⟩
    · exact held.congr same
    · rw [OneShot.press_of_held p.settings event.time held] at pressed
      exact held.congr pressed
  | cancels => exact absurd rfl goes
  | _ => exact held

/-- Settling a waiting key leaves a held one-shot on. -/
theorem settled (held : s.HeldOn trigger) (decision : Decision) (head : PendingKey) :
    (s.settled p decision head).HeldOn trigger := by
  have spec := settlement_spec p decision head s
  generalize s.settled p decision head = next at spec
  cases spec with
  | types => exact consume (s := (s.marked .tap head).mapHoldings (·.types head.action)) held head.action
  | takes => exact held
  | spares _ _ _ oneShots => exact held.congr (congrArg (·.machine trigger) oneShots)

/-- The release of a key that is not down as the trigger, and a press that cancels nothing, leave the machine
held. -/
theorem dispatch (held : s.HeldOn trigger) (acts : s.ActsOn p event)
    (others : (Moment.mk s (.task (.feed event))).lifts event.key = true → ¬s.TriggeredBy trigger event.key)
    (going : (Moment.mk s (.task (.feed event))).drops p = false) : (s.dispatch p event).HeldOn trigger := by
  unfold Engine.dispatch
  dsimp only
  split
  · rename_i pressed
    cases up : s.active.contains event.key with
    | true =>
      rw [press_of_down (s := s.announce (.dispatched event)) up]
      exact held
    | false =>
      have goes : s.resolve p event.key ≠ .cancel := fun means => by
        have ignored : (Moment.mk s (.task (.feed event))).ignores = false := up
        rw [Moment.drops, cancels_of_actsOn acts pressed means, ignored] at going
        cases going
      rw [press_of_up (s := s.announce (.dispatched event)) up]
      exact perform (s := (s.announce (.dispatched event)).readied event) held goes
  · rename_i released
    have idle := Consistent.idle_of_released acts (Bool.eq_false_iff.2 released)
    cases found : s.active.find? event.key with
    | none =>
      rw [release_of_up (s := s.announce (.dispatched event)) found]
      exact held
    | some entry =>
      have differs : entry.state = .oneShot → entry.action ≠ trigger := by
        rintro pressed rfl
        refine others ?_ ?_
        · simp [Moment.lifts, isPending, TapHold.isPending, idle, released]
        · rw [TriggeredBy, found, ← pressed]
      rw [release_of_down (s := s.announce (.dispatched event)) found]
      exact held.congr (machine_undo
        (s := { s.announce (.dispatched event) with active := s.active.remove event.key }) differs)

/-- The release of a key that is down as the trigger turns the machine off. -/
theorem lifted (held : s.HeldOn trigger) (released : event.pressed = false)
    (down : s.TriggeredBy trigger event.key) :
    ((s.dispatch p event).oneShots.machine trigger).phase = .idle := by
  rw [Engine.dispatch, if_neg (Bool.eq_false_iff.1 released),
    release_of_down (s := s.announce (.dispatched event)) down]
  have lifted := s.oneShots.machine_step_self (s.announce (.dispatched event)).holdings p.layerModifiers
    held.known (OneShot.release p.settings event.time)
  exact (congrArg OneShot.phase lifted).trans (OneShot.phase_release_of_held held)

/-- A held machine stays held where no key lets go of the trigger and nothing is cancelled. -/
theorem next {m : Moment} (held : m.state.HeldOn trigger)
    (others : ∀ key, m.lifts key = true → ¬m.state.TriggeredBy trigger key) (going : m.drops p = false) :
    (m.next p).HeldOn trigger := by
  obtain ⟨s, deed⟩ := m
  cases deed with
  | elapse now =>
    have told : (s.elapse p now).oneShots.machine trigger =
        ((s.oneShots.machine trigger).tick p.settings now).1 :=
      s.oneShots.machine_tick s.holdings p.layerModifiers p.settings now trigger
    exact (congrArg OneShot.phase told).trans (OneShot.phase_tick_of_held p.settings now held)
  | cancel => cases going
  | task task =>
    have taken := step_spec p s task
    show (step p s task).1.HeldOn trigger
    generalize (step p s task).1 = next, (step p s task).2 = more at taken
    cases taken with
    | early => exact held
    | due => exact settled (s := s) held .hold _
    | act idle => exact dispatch held (actsOn_of_idle idle) (others _) going
    | again => exact held
    | lift => exact settled (s := s) held .tap _
    | abort waiting other pressed cancels =>
      exact dispatch held (actsOn_of_cancel waiting other pressed cancels) (others _) going
    | keep => exact held
    | @interrupt event head => exact settled (s := s.keptBack head event) held .hold _

/-- A held machine stays held exactly if no key lets go of the trigger, and is off otherwise. -/
theorem next_iff {m : Moment} (held : m.state.HeldOn trigger) (consistent : m.state.Consistent)
    (down : ∃ key, m.state.TriggeredBy trigger key) :
    ((m.next p).HeldOn trigger ↔ ¬m.LetsGo p trigger) ∧
      (m.LetsGo p trigger → ((m.next p).oneShots.machine trigger).phase = .idle) := by
  have off : m.LetsGo p trigger → ((m.next p).oneShots.machine trigger).phase = .idle := by
    rintro ⟨key, was, gone⟩
    cases drops : m.drops p with
    | true =>
      rw [(Moment.next_of_drops drops).1]
      exact m.state.oneShots.machine_cancel trigger
    | false =>
      cases lifts : m.lifts key with
      | true =>
        obtain ⟨event, same, rfl, released, idle⟩ := Moment.exists_of_lifts lifts
        rw [same, next_of_actsOn (actsOn_of_idle idle)]
        exact held.lifted released was
      | false => exact absurd (find?_next consistent was (fun _ => KeyState.noConfusion) lifts drops) gone
  refine ⟨⟨fun still lets => ?_, fun none => ?_⟩, off⟩
  · have idle := off lets
    rw [HeldOn, idle] at still
    cases still
  · refine held.next (fun key lifts was => none ⟨key, was, fun still => ?_⟩) ?_
    · obtain ⟨event, same, rfl, released, idle⟩ := Moment.exists_of_lifts lifts
      rw [same, next_of_actsOn (actsOn_of_idle idle), TriggeredBy, (dispatch_of_lift released was).2,
        ActiveKeys.find?_remove_self] at still
      cases still
    · refine Bool.eq_false_iff.2 fun drops => ?_
      obtain ⟨key, was⟩ := down
      exact none ⟨key, was, fun still => KeyState.noConfusion ((Moment.next_of_drops drops).2 _ _ still)⟩

end HeldOn

/-- The modifiers of a one-shot that is on are in force. -/
theorem contains_of_isActive (backed : s.oneShots.Backed s.holdings)
    (clear : s.holdings.modifiers.suppressed = ∅) {set : ModifierSet}
    (on : (s.oneShots.modifiers.get set).isActive = true) {bit : Modifier} (within : bit ∈ set) :
    bit ∈ s.modifiers := by
  have counted : 0 < s.holdings.modifiers.oneShot.count bit := by
    rw [backed.counted, Machines.tally, List.countP_pos_iff]
    refine ⟨_, Machines.mem_of_isActive on, ?_⟩
    rw [on, Bool.true_and]
    exact within
  show s.holdings.modifiers.effective.contains bit = true
  rw [ModifierState.contains_effective, clear]
  simp [counted]

variable {set : ModifierSet}

/-- The machine of a held one-shot is on. -/
theorem HeldOn.isActive (held : s.HeldOn (.oneShotModifier set)) :
    (s.oneShots.modifiers.get set).isActive = true := by
  have phase : (s.oneShots.modifiers.get set).phase = .heldActive := held
  simp [OneShot.isActive, phase]

/-- While a one-shot is held, some key is down as its trigger. -/
theorem HeldOn.down (held : s.HeldOn (.oneShotModifier set)) (triggered : s.Triggered) :
    ∃ key, s.TriggeredBy (.oneShotModifier set) key := by
  have phase : (s.oneShots.modifiers.get set).phase = .heldActive := held
  exact triggered _ ⟨_, Machines.mem_of_isActive held.isActive, by simp [OneShot.isDown, phase]⟩

/-- A held one-shot stays held through moments exactly if at none of them a key lets go of its trigger. The
induction is on the moments: until the first such moment the machine stays held, and there it is turned off. -/
theorem HeldOn.leads {moments : List Moment} {t : Engine} (leads : Leads p s moments t)
    (agrees : s.Consistent ∧ s.Triggered) (held : s.HeldOn (.oneShotModifier set)) :
    (∀ n ∈ moments, (n.next p).HeldOn (.oneShotModifier set)) ↔
      ∀ n ∈ moments, ¬n.LetsGo p (.oneShotModifier set) := by
  induction moments generalizing s with
  | nil => simp
  | cons m rest ih =>
    obtain ⟨rfl, later⟩ := leads
    have goes := (held.next_iff (p := p) agrees.1 (held.down agrees.2)).1
    rw [List.forall_mem_cons, List.forall_mem_cons, goes]
    exact and_congr_right fun stays => ih later ((triggered_lasting p).next m agrees) (goes.2 stays)

/-- A held one-shot stays on until the first of its keys lets go. In every run, from a moment on at which the
machine of some modifiers is held, some key is down as its trigger; the machine stays held, and its modifiers stay
in force, through a stretch of moments exactly if at none of them a key lets go of the trigger; and whenever one
does while the machine is held, the machine is turned off, whichever other keys are still down as its trigger. -/
theorem held_until_one_lets_go (p : Profile) (calls : List Call) {set : ModifierSet}
    {before stretch later : List Moment} {m : Moment}
    (split : start.course p calls = before ++ m :: stretch ++ later)
    (held : (m.state.oneShots.modifiers.get set).phase = .heldActive) :
    (∃ key, m.state.active.find? key = some ⟨.oneShotModifier set, .oneShot⟩) ∧
    ((∀ n ∈ m :: stretch, ((n.next p).oneShots.modifiers.get set).phase = .heldActive ∧
        ∀ bit ∈ set, bit ∈ (n.next p).modifiers) ↔
      ∀ n ∈ m :: stretch, ¬n.LetsGo p (.oneShotModifier set)) ∧
    ∀ n ∈ m :: stretch, (n.state.oneShots.modifiers.get set).phase = .heldActive →
      n.LetsGo p (.oneShotModifier set) → ((n.next p).oneShots.modifiers.get set).phase = .idle := by
  have within {n : Moment} (member : n ∈ m :: stretch) : n ∈ start.course p calls := by
    rw [split]
    exact List.mem_append_left _ (List.mem_append_right _ member)
  have agree {n : Moment} (member : n ∈ m :: stretch) : n.state.Consistent ∧ n.state.Triggered :=
    (triggered_lasting p).of_mem_course ⟨consistent_start, .start⟩ (within member)
  have force {n : Moment} (member : n ∈ m :: stretch) (on : (n.next p).HeldOn (.oneShotModifier set))
      (bit : Modifier) : bit ∈ set → bit ∈ (n.next p).modifiers :=
    contains_of_isActive ((Turned.moment p n).backed (backed_of_mem_course (within member)))
      ((unmasked_lasting p).next n ((unmasked_lasting p).of_mem_course rfl (within member))) on.isActive
  have starts : m.state.HeldOn (.oneShotModifier set) := held
  obtain ⟨_, course, -⟩ := leads_append.1 (split ▸ leads_course p start calls)
  obtain ⟨_, -, leads⟩ := leads_append.1 course
  obtain rfl := leads.1
  refine ⟨starts.down (agree (.head _)).2, ?_, fun n member on => ?_⟩
  · rw [← HeldOn.leads leads (agree (.head _)) starts]
    exact ⟨fun all n member => (all n member).1, fun all n member => ⟨all n member, force member (all n member)⟩⟩
  · have on : n.state.HeldOn (.oneShotModifier set) := on
    exact (on.next_iff (agree member).1 (on.down (agree member).2)).2

/-- The second key is about to go down while the one-shot is held. -/
def bothSoon : Moment :=
  ⟨after .sharedShift (Call.heldByBoth.take 2), .task (.expire (.ofWord 310))⟩

/-- The second key goes up. -/
def secondUp : Moment :=
  ⟨(after .sharedShift (Call.heldByBoth.take 3)).tick .sharedShift (.ofWord 330),
    .task (.feed ⟨⟨1⟩, false, .ofWord 330⟩)⟩

/-- What happens until the second key goes up. -/
def whileBoth : List Moment := ((start.course .sharedShift Call.heldByBoth).drop 6).take 4

set_option maxRecDepth 10000 in
/-- No key lets go of the trigger until the second one goes up; that release turns the machine off. -/
theorem held_until_second_lets_go :
    (start.course .sharedShift Call.heldByBoth =
      (start.course .sharedShift Call.heldByBoth).take 5 ++ bothSoon :: (whileBoth ++ [secondUp]) ++ []) ∧
    bothSoon.state.HeldOn (.oneShotModifier (.single .leftShift)) ∧
    secondUp.state.HeldOn (.oneShotModifier (.single .leftShift)) ∧
    ¬(secondUp.next .sharedShift).HeldOn (.oneShotModifier (.single .leftShift)) ∧
    secondUp.LetsGo .sharedShift (.oneShotModifier (.single .leftShift)) := by
  have split : start.course .sharedShift Call.heldByBoth =
      (start.course .sharedShift Call.heldByBoth).take 5 ++ bothSoon :: (whileBoth ++ [secondUp]) ++ [] := by
    cbv
  have soon : bothSoon.state.HeldOn (.oneShotModifier (.single .leftShift)) := by
    unfold HeldOn
    cbv
  have still : secondUp.state.HeldOn (.oneShotModifier (.single .leftShift)) := by
    unfold HeldOn
    cbv
  have lets : secondUp.LetsGo .sharedShift (.oneShotModifier (.single .leftShift)) := by
    have gone : (secondUp.next .sharedShift).active.find? ⟨1⟩ = none := by cbv
    refine ⟨⟨1⟩, ?_, by rw [TriggeredBy, gone]; exact (Option.some_ne_none _).symm⟩
    unfold TriggeredBy
    cbv
  obtain ⟨-, -, off⟩ := held_until_one_lets_go .sharedShift Call.heldByBoth split soon
  have idle := off secondUp (by simp) still lets
  refine ⟨split, soon, still, fun on => ?_, lets⟩
  exact OneShotPhase.noConfusion (idle.symm.trans on)

set_option maxRecDepth 10000 in
/-- The first key turned shift on and is still down when the second one, whose press did nothing, goes up: shift
is taken back. -/
theorem revoked_while_held :
    Call.Regular Call.heldByBoth ∧ (∀ call ∈ Call.heldByBoth, call ≠ .cancel) ∧
    (after .sharedShift (Call.heldByBoth.take 3)).HeldOn (.oneShotModifier (.single .leftShift)) ∧
    (∀ key ∈ [⟨0⟩, ⟨1⟩], (after .sharedShift (Call.heldByBoth.take 3)).TriggeredBy
      (.oneShotModifier (.single .leftShift)) key) ∧
    (after .sharedShift (Call.heldByBoth.take 3)).modifiers = .single .leftShift ∧
    (after .sharedShift Call.heldByBoth).TriggeredBy (.oneShotModifier (.single .leftShift)) ⟨0⟩ ∧
    ¬(after .sharedShift Call.heldByBoth).HeldOn (.oneShotModifier (.single .leftShift)) ∧
    (after .sharedShift Call.heldByBoth).modifiers = ∅ := by
  have idle : ((after .sharedShift Call.heldByBoth).oneShots.machine
      (.oneShotModifier (.single .leftShift))).phase = .idle := by
    cbv
  unfold HeldOn TriggeredBy
  refine ⟨by decide, by decide, by cbv, ?_, by cbv, by cbv, by rw [idle]; exact OneShotPhase.noConfusion,
    by cbv⟩
  intro key member
  fin_cases member
  · cbv
  · cbv

end Engine

end KeyEngine
