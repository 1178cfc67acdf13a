import KeyEngine.Proofs.NextKey

/-!
# Bare modifiers and one-shots

A key that types nothing but bare modifiers is no next key for the one-shots. A plain key and the tap of a
key that waited are looked at before they count, and so leave the one-shots alone. Other strokes are not
looked at: those of a tap that is repeated, of manual-shift keys, of macros and of retyped strokes count
whatever they are. `bare_key_spares` says for every moment which of the two it is, and `bare_key_unlatches`
is a case in which a one-shot is used up by a modifier whose key left it alone just before.
-/

namespace KeyEngine

/-- A keyboard with a modifier when held and another one when tapped, and a one-shot shift. A tap-hold key
that goes down again soon repeats its tap. -/
def Profile.bare : Profile where
  keymap :=
    ⟨[⟨"base", [.modTap (.single .leftControl) (.ofCode .leftAlt),
        .oneShotModifier (.single .leftShift)]⟩],
      Keymap.firstFault_eq_none_iff.1 (by decide)⟩
  settings := { Settings.standard with tappingForceHold := false }
  layerModifiers := .none

/-- On the bare keyboard, the one-shot shift is tapped, then the other key, which goes down once more. -/
def Call.tappedAgain : List Call := [.down 1 0, .up 1 10, .down 0 20, .up 0 30, .down 0 40]

namespace Engine

/-- The one-shots are left alone, and so is what they turn on. -/
structure Rests (s next : Engine) : Prop where
  /-- Their machines stay as they are. -/
  oneShots : next.oneShots = s.oneShots
  /-- What they turned on is counted the same. -/
  spares : s.holdings.Spares next.holdings

variable {p : Profile} {s next : Engine} {event : KeyEvent} {action : Action}

/-- The one-shots rest where the same things are on and the machines stand where they stood. -/
theorem Rests.of_alike (alike : s.holdings.Alike next.holdings) (oneShots : next.oneShots = s.oneShots) :
    Rests s next :=
  ⟨oneShots, alike.spares⟩

/-- What does not count for the one-shots leaves them alone, unless it is a trigger or cancels. -/
theorem rests_perform (single : action.isTrigger = false) (goes : action ≠ .cancel)
    (silent : s.countsOn p event action = false) : Rests s (s.perform p event action).2 := by
  have spec := effect_spec p event action s
  generalize s.perform p event action = result at spec ⊢
  cases spec with
  | types counts => exact absurd (silent.symm.trans counts) Bool.false_ne_true
  | triggers starts => exact absurd (single.symm.trans starts) Bool.false_ne_true
  | holds => exact .of_alike (.holdModifiers _) rfl
  | takes id => exact ⟨rfl, .activateLayer _ _ id⟩
  | toggles id => exact ⟨rfl, .toggleLayer _ _ id⟩
  | cancels => exact absurd rfl goes
  | waits => exact .of_alike (.refl _) rfl

/-- A waiting key whose tap does not count leaves the one-shots alone when it is settled as its tap. -/
theorem rests_settled {head : PendingKey} (silent : head.counts = false) :
    Rests s (s.settled p .tap head) := by
  have spec := settlement_spec p .tap head s
  generalize s.settled p .tap head = next at spec ⊢
  cases spec with
  | types counts => exact absurd (silent.symm.trans counts) Bool.false_ne_true
  | spares _ _ alike oneShots => exact .of_alike alike oneShots

/-- Whether an action counts for the one-shots without a look at its strokes: a tap that is repeated, a
manual-shift key, a macro or a retyped stroke. -/
def overlooks (p : Profile) (event : KeyEvent) (s : Engine) : Action → Bool
  | .modTap _ _ | .layerTap _ _ => s.repeatsTap p event
  | .manualShift _ _ | .macroSequence _ | .retype _ => true
  | _ => false

/-- Bare modifiers count exactly if they are not looked at. -/
theorem countsOn_of_bare (bare : (s.strokes p event action).all (·.isModifierOnly) = true) :
    s.countsOn p event action = s.overlooks p event action := by
  cases action with
  | plain stroke =>
    have only : stroke.isModifierOnly = true := by simpa [strokes] using bare
    rw [countsOn, only]
    rfl
  | _ => rfl

end Engine

namespace Moment

/-- The action that types nothing but bare modifiers at a moment: one that goes down and is neither a
trigger nor cancel, or that of a waiting key that is settled as its tap. -/
def bareKey? (p : Profile) (m : Moment) : Option Action :=
  match m.deed with
  | .task (.feed event) =>
    match m.state.tapHold.head with
    | none =>
      let action := m.state.resolve p event.key
      if event.pressed && !m.state.active.contains event.key && !action.isTrigger && action != .cancel &&
          (m.state.strokes p event action).all (·.isModifierOnly) then
        some action
      else none
    | some head =>
      if head.key == event.key && !event.pressed && head.action.tap?.any (·.isModifierOnly) then
        some head.action
      else none
  | _ => none

/-- Whether a key goes down at a moment whose strokes are not looked at. -/
def overlooks (p : Profile) (m : Moment) : Bool :=
  match m.deed with
  | .task (.feed event) =>
    !m.state.isPending && m.state.overlooks p event (m.state.resolve p event.key)
  | _ => false

end Moment

namespace Engine

variable {p : Profile} {s : Engine} {event : KeyEvent} {action : Action}

/-- A key that goes down with nothing waiting leaves the one-shots alone if its action does. -/
theorem rests_next (idle : s.tapHold.head = none) (pressed : event.pressed = true)
    (up : s.active.contains event.key = false) (single : (s.resolve p event.key).isTrigger = false)
    (goes : s.resolve p event.key ≠ .cancel)
    (silent : s.countsOn p event (s.resolve p event.key) = false) :
    Rests s ((Moment.mk s (.task (.feed event))).next p) := by
  have done : Rests ((s.announce (.dispatched event)).readied event)
      ((s.announce (.dispatched event)).performed p event).2 :=
    rests_perform single goes ((countsOn_readied event _).trans silent)
  have before : s.holdings.Alike (s.announce (.dispatched event)).holdings := .announce _ _
  rw [next_of_press idle pressed up]
  exact ⟨done.oneShots, (before.spares.trans done.spares).trans (Holdings.Alike.announce _ _).spares⟩

/-- Bare modifiers leave the one-shots alone if they are looked at, and the one-shots are told of them
otherwise. -/
theorem bareKey_spec {m : Moment} (bare : m.bareKey? p = some action) :
    (m.overlooks p = false → m.state.Rests (m.next p)) ∧ (m.overlooks p = true → m.Tells p action) := by
  obtain ⟨s, deed⟩ := m
  cases deed with
  | elapse now => cases bare
  | cancel => cases bare
  | task task =>
    cases task with
    | expire now => cases bare
    | feed event =>
      cases waiting : s.tapHold.head with
      | none =>
        simp only [Moment.bareKey?, waiting, Option.ite_none_right_eq_some, Bool.and_eq_true,
          Bool.not_eq_true', bne_iff_ne, Option.some.injEq] at bare
        obtain ⟨⟨⟨⟨⟨pressed, up⟩, single⟩, goes⟩, bare⟩, rfl⟩ := bare
        have looks : (Moment.mk s (.task (.feed event))).overlooks p =
            s.countsOn p event (s.resolve p event.key) := by
          simp [Moment.overlooks, isPending, TapHold.isPending, waiting, countsOn_of_bare bare]
        rw [looks]
        exact ⟨rests_next waiting pressed up single goes, tells_of_counts waiting pressed up⟩
      | some head =>
        simp only [Moment.bareKey?, waiting, Option.ite_none_right_eq_some, Bool.and_eq_true,
          Bool.not_eq_true', beq_iff_eq, Option.some.injEq] at bare
        obtain ⟨⟨⟨same, released⟩, bare⟩, rfl⟩ := bare
        have looks : (Moment.mk s (.task (.feed event))).overlooks p = false := by
          simp [Moment.overlooks, isPending, TapHold.isPending, waiting]
        have silent : head.counts = false := by
          obtain ⟨tap, dual, only⟩ := (Option.any_eq_true _ _).1 bare
          simp [PendingKey.counts, dual, only]
        rw [looks, next_of_lift waiting same released]
        exact ⟨fun _ => rests_settled silent, fun missed => absurd missed Bool.false_ne_true⟩

/-- The next key leaves the machine of a trigger as it is exactly if the trigger ignores it, or the machine
neither waits for a key nor has its trigger just gone down. -/
theorem machine_eq_iff {m : Moment} (serves : m.Serves p action) (trigger : Action) :
    (m.next p).oneShots.machine trigger = m.state.oneShots.machine trigger ↔
      (p.settings.ignores trigger action = false →
        (m.state.oneShots.machine trigger).isLatched = false ∧
          ∀ since, (m.state.oneShots.machine trigger).phase ≠ .queued since) := by
  constructor
  · intro still meant
    constructor
    · by_contra waits
      have latched : (m.state.oneShots.machine trigger).isLatched = true := by simpa using waits
      have off := serves.latched trigger meant latched
      rw [still] at off
      rw [OneShot.isLatched, off] at latched
      cases latched
    · intro since queued
      have held := serves.queued trigger since queued meant
      rw [still, queued] at held
      cases held
  · intro spared
    cases meant : p.settings.ignores trigger action with
    | true => exact serves.ignored trigger meant
    | false =>
      obtain ⟨unlatched, unqueued⟩ := spared meant
      exact serves.others trigger unlatched unqueued

/-- What bare modifiers do to the one-shots. At every moment of a run at which a key types nothing but
bare modifiers: if they are looked at, the one-shots are left alone, and so is what they turned on; if not,
the action is the next key for the one-shots like any other. So the machine of a trigger stays as it is
exactly if they are looked at, or the trigger ignores the action, or the machine neither waits for a key
nor has its trigger just gone down. -/
theorem bare_key_spares (p : Profile) (calls : List Call) {m : Moment} (member : m ∈ start.course p calls)
    {action : Action} (bare : m.bareKey? p = some action) :
    (m.overlooks p = false → m.state.Rests (m.next p)) ∧
    (m.overlooks p = true → m.Serves p action) ∧
    ∀ trigger, (m.next p).oneShots.machine trigger = m.state.oneShots.machine trigger ↔
      (m.overlooks p = true → p.settings.ignores trigger action = false →
        (m.state.oneShots.machine trigger).isLatched = false ∧
          ∀ since, (m.state.oneShots.machine trigger).phase ≠ .queued since) := by
  obtain ⟨rests, tells⟩ := bareKey_spec bare
  have serves (missed : m.overlooks p = true) : m.Serves p action :=
    serves_of_tells (backed_of_mem_course member) (tells missed)
  refine ⟨rests, serves, fun trigger => ?_⟩
  cases looks : m.overlooks p with
  | false => simp [(rests looks).oneShots]
  | true => simpa using machine_eq_iff (serves looks) trigger

/-- The key goes up, and is settled as its tap. -/
def bareTap : Moment :=
  ⟨(after .bare (Call.tappedAgain.take 3)).tick .bare (.ofWord 30), .task (.feed ⟨⟨0⟩, false, .ofWord 30⟩)⟩

/-- The key goes down again, and repeats its tap. -/
def bareTapAgain : Moment :=
  ⟨(after .bare (Call.tappedAgain.take 4)).tick .bare (.ofWord 40), .task (.feed ⟨⟨0⟩, true, .ofWord 40⟩)⟩

/-- The tap of the bare key is a moment of the run in which it is settled. -/
theorem bareTap_mem : bareTap ∈ start.course .bare (Call.tappedAgain.take 4) := by
  have parts : start.course .bare (Call.tappedAgain.take 4) =
      start.course .bare (Call.tappedAgain.take 3) ++
        (after .bare (Call.tappedAgain.take 3)).course .bare [.up 0 30] :=
    course_append start (Call.tappedAgain.take 3) [.up 0 30]
  rw [parts]
  refine List.mem_append_right _ (List.mem_append_left _ (List.mem_append_right _ ?_))
  rw [doing]
  exact .head _

set_option maxRecDepth 10000 in
/-- The tap is looked at: the one-shot shift waits on. -/
theorem bare_key_spares_settled :
    bareTap.bareKey? .bare = some (.modTap (.single .leftControl) (.ofCode .leftAlt)) ∧
    (bareTap.state.oneShots.machine shiftTrigger).isLatched = true ∧
    bareTap.state.Rests (bareTap.next .bare) ∧
    (bareTap.next .bare).oneShots.machine shiftTrigger = bareTap.state.oneShots.machine shiftTrigger := by
  have bare : bareTap.bareKey? .bare = some (.modTap (.single .leftControl) (.ofCode .leftAlt)) := by cbv
  have looked : bareTap.overlooks .bare = false := by cbv
  obtain ⟨rests, -, machines⟩ := bare_key_spares .bare _ bareTap_mem bare
  refine ⟨bare, by cbv, rests looked, (machines shiftTrigger).2 fun missed => ?_⟩
  exact absurd (looked.symm.trans missed) Bool.false_ne_true

set_option maxRecDepth 10000 in
/-- The tap that is repeated is not looked at: a bare modifier uses up the one-shot shift, which had
waited on when the same key was tapped before. -/
theorem bare_key_unlatches :
    (start.course .bare Call.tappedAgain).getLast? = some bareTapAgain ∧
    bareTapAgain.bareKey? .bare = some (.modTap (.single .leftControl) (.ofCode .leftAlt)) ∧
    (bareTapAgain.state.oneShots.machine shiftTrigger).isLatched = true ∧
    ((bareTapAgain.next .bare).oneShots.machine shiftTrigger).phase = .idle ∧
    (bareTapAgain.next .bare).journal.stream =
      bareTapAgain.state.journal.stream ++
        [.modifiers (.single .leftShift ∪ .single .leftAlt), .modifiers (.single .leftAlt)] :=
  ⟨by cbv, by cbv, by cbv, by cbv, by cbv⟩

end Engine

end KeyEngine
