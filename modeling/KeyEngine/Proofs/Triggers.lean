import KeyEngine.Proofs.Waiting

/-!
# Triggers that are down

The machine of a one-shot follows its trigger. A machine that says that the trigger is down is right: some
key is down that pressed it, and its release will turn the machine off or latch it. So once no key is
down, every machine is idle, latched or toggled.
-/

namespace KeyEngine

namespace OneShot

/-- Whether a machine says that its trigger is down. -/
def isDown (m : OneShot) : Bool :=
  match m.phase with
  | .queued _ => true
  | .heldActive => true
  | _ => false

variable (m : OneShot) (settings : Settings) (time : Millis)

/-- Being used moves no trigger. -/
theorem isDown_consume (down : m.consume.1.isDown = true) : m.isDown = true := by
  unfold consume at down
  unfold isDown
  split at down <;> rename_i phase <;> simp_all [isDown, reset]

/-- Time moves no trigger. -/
theorem isDown_tick (down : (m.tick settings time).1.isDown = true) : m.isDown = true := by
  unfold tick at down
  unfold isDown
  split at down <;> rename_i phase <;> (try split at down) <;> simp_all [isDown, reset]

/-- After a release the trigger is up. -/
theorem isDown_release : (m.release settings time).1.isDown = false := by
  unfold release
  split
  · split <;> rfl
  · rfl
  · unfold isDown
    split <;> simp_all

/-- A machine whose trigger is up is idle, latched or toggled. -/
theorem phase_of_up {m : OneShot} (up : m.isDown = false) :
    m.phase = .idle ∨ (∃ deadline, m.phase = .latched deadline) ∨ m.phase = .toggled := by
  obtain ⟨phase, taps, lastRelease⟩ := m
  cases phase with
  | idle => exact .inl rfl
  | queued since => cases up
  | heldActive => cases up
  | latched deadline => exact .inr (.inl ⟨deadline, rfl⟩)
  | toggled => exact .inr (.inr rfl)

end OneShot

namespace Machines

variable {α : Type} {machines : Machines α} {thing other : α} {machine : OneShot}

/-- After a change of one machine, the others are as they were. -/
theorem mem_set [DecidableEq α] {new : OneShot}
    (member : (other, machine) ∈ (machines.set thing new).entries) :
    other = thing ∧ machine = new ∨ other ≠ thing ∧ (other, machine) ∈ machines.entries := by
  unfold set at member
  split at member
  · obtain ⟨⟨name, old⟩, listed, changed⟩ := List.mem_map.1 member
    by_cases same : name = thing
    · rw [if_pos same, Prod.mk.injEq] at changed
      exact .inl ⟨changed.1 ▸ same, changed.2.symm⟩
    · rw [if_neg same] at changed
      obtain ⟨rfl, rfl⟩ := Prod.mk.inj changed
      exact .inr ⟨same, listed⟩
  · rename_i missing
    rcases List.mem_append.1 member with listed | added
    · refine .inr ⟨?_, listed⟩
      rintro rfl
      exact missing (List.any_eq_true.2 ⟨_, listed, by simp⟩)
    · exact .inl (Prod.mk.inj (List.mem_singleton.1 added))

/-- After a transition of all machines, each is what its transition led to. -/
theorem mem_sweep (step : α → OneShot → OneShot × Option OneShotChange)
    (member : (thing, machine) ∈ (machines.sweep step).1.entries) :
    ∃ old, (thing, old) ∈ machines.entries ∧ machine = (step thing old).1 := by
  obtain ⟨⟨name, old⟩, listed, changed⟩ := List.mem_map.1 member
  obtain ⟨rfl, rfl⟩ := Prod.mk.inj changed
  exact ⟨old, listed, rfl⟩

end Machines

namespace OneShots

/-- Whether some machine says that the trigger is down. -/
def IsDown (shots : OneShots) : Action → Prop
  | .oneShotModifier set => ∃ m, (set, m) ∈ shots.modifiers.entries ∧ m.isDown = true
  | .oneShotLayer id => ∃ m, (id, m) ∈ shots.layers.entries ∧ m.isDown = true
  | _ => False

variable {shots : OneShots} {h : Holdings} {lm : LayerModifiers} {trigger other : Action}

/-- A transition of one machine moves no other trigger. -/
theorem isDown_step {f : OneShot → OneShot × Option OneShotChange}
    (down : (shots.step h lm trigger f).1.IsDown other) :
    other = trigger ∧ (∃ m, (f m).1.isDown = true) ∨ other ≠ trigger ∧ shots.IsDown other := by
  cases trigger with
  | oneShotModifier set =>
    cases other with
    | oneShotModifier thing =>
      obtain ⟨m, member, down⟩ := down
      rcases Machines.mem_set member with ⟨rfl, rfl⟩ | ⟨differs, listed⟩
      · exact .inl ⟨rfl, _, down⟩
      · exact .inr ⟨by simpa using differs, m, listed, down⟩
    | oneShotLayer thing => exact .inr ⟨Action.noConfusion, down⟩
    | _ => exact down.elim
  | oneShotLayer id =>
    cases other with
    | oneShotLayer thing =>
      obtain ⟨m, member, down⟩ := down
      rcases Machines.mem_set member with ⟨rfl, rfl⟩ | ⟨differs, listed⟩
      · exact .inl ⟨rfl, _, down⟩
      · exact .inr ⟨by simpa using differs, m, listed, down⟩
    | oneShotModifier thing => exact .inr ⟨Action.noConfusion, down⟩
    | _ => exact down.elim
  | _ =>
    refine .inr ⟨?_, down⟩
    rintro rfl
    exact down

/-- A transition of all machines that moves no trigger up to down. -/
theorem isDown_sweep {f : Action → OneShot → OneShot × Option OneShotChange}
    (kept : ∀ trigger m, (f trigger m).1.isDown = true → m.isDown = true)
    (down : (shots.sweep h lm f).1.IsDown other) : shots.IsDown other := by
  cases other with
  | oneShotModifier thing =>
    obtain ⟨m, member, down⟩ := down
    obtain ⟨old, listed, rfl⟩ :=
      Machines.mem_sweep (fun set => f (.oneShotModifier set)) member
    exact ⟨old, listed, kept _ _ down⟩
  | oneShotLayer thing =>
    obtain ⟨m, member, down⟩ := down
    obtain ⟨old, listed, rfl⟩ := Machines.mem_sweep (fun id => f (.oneShotLayer id)) member
    exact ⟨old, listed, kept _ _ down⟩
  | _ => exact down.elim

/-- The next key lets no machine say that its trigger is down which did not say so before. -/
theorem isDown_consume {settings : Settings} {action : Action}
    (down : (shots.consume h settings lm action).1.IsDown other) : shots.IsDown other := by
  refine isDown_sweep (fun trigger m down => ?_) down
  split at down
  · exact down
  · exact m.isDown_consume down

/-- Time lets no machine say that its trigger is down which did not say so before. -/
theorem isDown_tick {settings : Settings} {now : Millis}
    (down : (shots.tick h settings lm now).1.IsDown other) : shots.IsDown other :=
  isDown_sweep (fun _ m down => m.isDown_tick settings now down) down

/-- A machine whose trigger went up says so, and the others say what they said. -/
theorem isDown_release {settings : Settings} {time : Millis}
    (down : (shots.release h settings lm trigger time).1.IsDown other) :
    other ≠ trigger ∧ shots.IsDown other := by
  rcases isDown_step down with ⟨-, m, still⟩ | others
  · rw [m.isDown_release] at still
    cases still
  · exact others

/-- A machine that was turned off says that its trigger is up. -/
theorem not_isDown_cancel : ¬shots.cancel.IsDown other := by
  intro down
  cases other with
  | oneShotModifier thing =>
    obtain ⟨m, member, down⟩ := down
    obtain ⟨old, -, rfl⟩ := Machines.mem_sweep (fun _ m => (m.cancel, none)) member
    cases down
  | oneShotLayer thing =>
    obtain ⟨m, member, down⟩ := down
    obtain ⟨old, -, rfl⟩ := Machines.mem_sweep (fun _ m => (m.cancel, none)) member
    cases down
  | _ => exact down

end OneShots

namespace Engine

variable {p : Profile} {s : Engine} {other : Action}

/-- After the next key, a machine that says that its trigger is down said so before. -/
theorem isDown_consume {action : Action} (down : (s.consume p action).oneShots.IsDown other) :
    s.oneShots.IsDown other := by
  have used : (s.oneShots.consume s.holdings p.settings p.layerModifiers action).1.IsDown other := down
  exact OneShots.isDown_consume used

/-- After a tap-hold key went down, a machine that says that its trigger is down said so before. -/
theorem isDown_pressTapHold {event : KeyEvent} {action : Action} {tap : Keystroke}
    (down : (s.pressTapHold p event action tap).2.oneShots.IsDown other) :
    s.oneShots.IsDown other := by
  unfold pressTapHold at down
  split at down
  · exact isDown_consume (s := s.mapHoldings (·.pressStroke tap)) down
  · exact down

/-- After a trigger went down, its own machine may say so, and the others say what they said. -/
theorem isDown_pressTrigger (trigger : Action) (time : Millis)
    (down : (s.mapOneShots (·.press · p.settings p.layerModifiers trigger time)).oneShots.IsDown
      other) : other = trigger ∨ s.oneShots.IsDown other := by
  have pressed : (s.oneShots.step s.holdings p.layerModifiers trigger
      (OneShot.press p.settings time)).1.IsDown other := down
  rcases OneShots.isDown_step pressed with ⟨same, -⟩ | ⟨-, others⟩
  · exact .inl same
  · exact .inr others

/-- The press of an action moves no trigger but its own. -/
theorem isDown_perform {event : KeyEvent} {action : Action}
    (down : (s.perform p event action).2.oneShots.IsDown other) :
    other = action ∧ (s.perform p event action).1 = .oneShot ∨
      action ≠ .cancel ∧ s.oneShots.IsDown other := by
  cases action with
  | plain stroke =>
    refine .inr ⟨Action.noConfusion, ?_⟩
    unfold perform at down
    dsimp only at down
    split at down
    · exact down
    · exact isDown_consume (s := s.mapHoldings (·.pressStroke stroke)) down
  | modTap hold tap => exact .inr ⟨Action.noConfusion, isDown_pressTapHold down⟩
  | layerTap layer tap => exact .inr ⟨Action.noConfusion, isDown_pressTapHold down⟩
  | oneShotModifier set =>
    rcases isDown_pressTrigger (p := p) (.oneShotModifier set) event.time down with same | down
    · exact .inl ⟨same, rfl⟩
    · exact .inr ⟨Action.noConfusion, down⟩
  | oneShotLayer layer =>
    rcases isDown_pressTrigger (p := p) (.oneShotLayer layer) event.time down with same | down
    · exact .inl ⟨same, rfl⟩
    · exact .inr ⟨Action.noConfusion, down⟩
  | manualShift unshifted shifted =>
    have used := isDown_consume (s := s.mapHoldings (·.pressManualShift unshifted shifted)) down
    exact .inr ⟨Action.noConfusion, used⟩
  | macroSequence strokes =>
    have used := isDown_consume (s := s.mapHoldings (·.tapStrokes strokes)) down
    exact .inr ⟨Action.noConfusion, used⟩
  | retype stroke =>
    have used := isDown_consume (s := s.mapHoldings (·.retypeStroke stroke)) down
    exact .inr ⟨Action.noConfusion, used⟩
  | cancel => exact absurd down OneShots.not_isDown_cancel
  | _ => exact .inr ⟨Action.noConfusion, down⟩

/-- Undoing a press moves no trigger down, and its own trigger up. -/
theorem isDown_undo {event : KeyEvent} {entry : ActiveKey}
    (down : (s.undo p event entry).oneShots.IsDown other) :
    s.oneShots.IsDown other ∧ (entry.state = .oneShot → other ≠ entry.action) := by
  obtain ⟨action, state⟩ := entry
  unfold undo at down
  cases state with
  | oneShot =>
    have released : (s.oneShots.release s.holdings p.settings p.layerModifiers action
        event.time).1.IsDown other := down
    obtain ⟨differs, down⟩ := OneShots.isDown_release released
    exact ⟨down, fun _ => differs⟩
  | tapped =>
    dsimp only at down
    refine ⟨?_, KeyState.noConfusion⟩
    split at down <;> exact down
  | _ => exact ⟨down, KeyState.noConfusion⟩

/-- After a waiting key was settled, a machine that says that its trigger is down said so before. -/
theorem isDown_settled {decision : Decision} {head : PendingKey}
    (down : (s.settled p decision head).oneShots.IsDown other) : s.oneShots.IsDown other := by
  unfold settled settle at down
  cases decision with
  | hold => exact down
  | tap =>
    dsimp only at down
    split at down
    · split at down
      · exact down
      · exact isDown_consume down
    · exact down

/-- Whenever a machine says that its trigger is down, a key is down that pressed it. -/
def Triggered (s : Engine) : Prop :=
  ∀ trigger, s.oneShots.IsDown trigger → ∃ key, s.active.find? key = some ⟨trigger, .oneShot⟩

namespace Triggered

/-- At the start no machine says that its trigger is down. -/
theorem start : Engine.start.Triggered := by
  intro trigger down
  cases trigger with
  | oneShotModifier set =>
    obtain ⟨_, member, _⟩ := down
    cases member
  | oneShotLayer id =>
    obtain ⟨_, member, _⟩ := down
    cases member
  | _ => exact down.elim

/-- A press leaves a key down for every trigger that is said to be down. -/
theorem press (triggered : s.Triggered) (event : KeyEvent) : (s.press p event).Triggered := by
  cases up : s.active.contains event.key with
  | true =>
    rw [press_of_down up]
    exact triggered
  | false =>
    rw [press_of_up up]
    intro trigger down
    rcases isDown_perform (p := p) (s := s.readied event) down with ⟨rfl, state⟩ | ⟨goes, down⟩
    · refine ⟨event.key, ?_⟩
      have noted : (s.performed p event).1 = .oneShot := state
      rw [ActiveKeys.find?_insert, if_pos rfl, noted]
    · obtain ⟨key, found⟩ := triggered trigger down
      refine ⟨key, ?_⟩
      have differs : key ≠ event.key := by
        rintro rfl
        simp [ActiveKeys.contains, found] at up
      have kept : (s.performed p event).2.active = s.active := active_perform p event goes _
      rw [ActiveKeys.find?_insert, if_neg differs, kept, found]

/-- A release leaves a key down for every trigger that is still said to be down. -/
theorem release (triggered : s.Triggered) (event : KeyEvent) : (s.release p event).Triggered := by
  cases found : s.active.find? event.key with
  | none =>
    rw [release_of_up found]
    exact triggered
  | some entry =>
    rw [release_of_down found]
    intro trigger down
    obtain ⟨down, differs⟩ := isDown_undo (s := { s with active := s.active.remove event.key }) down
    obtain ⟨key, pressed⟩ := triggered trigger down
    refine ⟨key, ?_⟩
    have others : key ≠ event.key := by
      rintro rfl
      obtain rfl := Option.some.inj (found.symm.trans pressed)
      exact differs rfl rfl
    have left : (({ s with active := s.active.remove event.key }.undo p event entry).announce
        (.key event.key entry.action false)).active = s.active.remove event.key :=
      active_undo p event entry _
    rw [left, ActiveKeys.find?_remove, if_neg others, pressed]

/-- Settling a waiting key leaves the triggers that are down as they are. -/
theorem settled (triggered : s.Triggered) {head : PendingKey}
    (waits : s.active.find? head.key = some ⟨head.action, .pending head.since⟩)
    (decision : Decision) : (s.settled p decision head).Triggered := by
  intro trigger down
  obtain ⟨key, pressed⟩ := triggered trigger (isDown_settled down)
  have others : key ≠ head.key := by
    rintro rfl
    rw [waits] at pressed
    cases pressed
  refine ⟨key, ?_⟩
  rw [active_settled, ActiveKeys.find?_setState, pressed]
  simp [others]

end Triggered

/-- Throughout every run, machines that say so are right that their triggers are down. -/
theorem triggered_lasting (p : Profile) : Lasting p fun s => s.Consistent ∧ s.Triggered where
  dispatch s event acts holds := by
    refine ⟨(consistent_lasting p).dispatch s event acts holds.1, ?_⟩
    have noted : (s.announce (.dispatched event)).Triggered := holds.2
    unfold dispatch
    dsimp only
    split
    · exact noted.press event
    · exact noted.release event
  settled _ decision head waiting holds :=
    ⟨holds.1.settled decision waiting, holds.2.settled (holds.1.down head waiting) decision⟩
  keptBack _ _ _ waiting other holds := ⟨holds.1.keptBack waiting other, holds.2⟩
  warn _ _ holds := ⟨holds.1.congr rfl rfl, holds.2⟩
  elapse s now holds := by
    refine ⟨holds.1.congr rfl rfl, fun trigger down => ?_⟩
    have still : (s.oneShots.tick s.holdings p.settings p.layerModifiers now).1.IsDown trigger := down
    exact holds.2 trigger (OneShots.isDown_tick still)
  cancel _ _ := ⟨.cancel _, fun _ down => absurd down OneShots.not_isDown_cancel⟩

end Engine

end KeyEngine
