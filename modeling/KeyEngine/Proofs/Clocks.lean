import Mathlib.Data.List.Forall2
import KeyEngine.Proofs.Notes

/-!
# The same run by two clocks

The engine never asks what time it is. It asks how much time has passed between two moments, and whether a
deadline has come that lies a fixed length after a moment. Two clocks that agree on these questions
therefore make no difference to it. `Clocks` says what they have to agree on, and the relations after it
carry this over to everything in which a time is stored, from the events that are kept back to the machines
of the one-shots. `InStep.step` says that a task does the same by both clocks, and `InStep.answer` that a
call does.
-/

namespace KeyEngine

/-- Two clocks that agree on what the engine asks of them. -/
structure Clocks (settings : Settings) where
  /-- Two readings of the same moment. -/
  now : Millis → Millis → Prop
  /-- Two readings of the same deadline. -/
  deadline : Millis → Millis → Prop
  /-- As much has passed between two moments. -/
  since : ∀ {t u t' u' : Millis}, now t u → now t' u' → u.since u' = t.since t'
  /-- A deadline has come or has not. -/
  isDue : ∀ {t u t' u' : Millis}, deadline t u → now t' u' → u.isDue u' = t.isDue t'
  /-- The tapping term ends at the same deadline. -/
  term : ∀ {t u : Millis}, now t u →
    deadline (t.after settings.tappingTerm) (u.after settings.tappingTerm)
  /-- So does the time that a one-shot waits. -/
  timeout : ∀ {t u : Millis}, now t u →
    deadline (t.after settings.oneShotTimeout) (u.after settings.oneShotTimeout)

namespace Clocks

/-- Two entries with the same name, whose values are related. -/
def Named {κ α β : Type} (related : α → β → Prop) (entry : κ × α) (other : κ × β) : Prop :=
  other.1 = entry.1 ∧ related entry.2 other.2

/-- Lists that are related name by name give related answers to every lookup. -/
theorem lookup_named {κ α β : Type} [BEq κ] {related : α → β → Prop} {entries : List (κ × α)}
    {others : List (κ × β)} (same : List.Forall₂ (Named related) entries others) (name : κ) :
    Option.Rel related (entries.lookup name) (others.lookup name) := by
  induction same with
  | nil => exact .none
  | @cons entry other _ _ head _ ih =>
    rw [List.lookup_cons, List.lookup_cons, head.1]
    cases name == entry.1 with
    | true => exact .some head.2
    | false => exact ih

/-- Nothing is related to nothing only. -/
theorem rel_none_iff {α β : Type} {related : α → β → Prop} {other : Option β} :
    Option.Rel related none other ↔ other = none := by
  constructor
  · rintro ⟨⟩
    rfl
  · rintro rfl
    exact .none

/-- Something is related to something that is related to it. -/
theorem rel_some_iff {α β : Type} {related : α → β → Prop} {a : α} {other : Option β} :
    Option.Rel related (some a) other ↔ ∃ b, other = some b ∧ related a b := by
  constructor
  · rintro ⟨same⟩
    exact ⟨_, rfl, same⟩
  · rintro ⟨b, rfl, same⟩
    exact .some same

variable {settings : Settings} (c : Clocks settings)

/-- The same event. -/
structure SameEvent (event other : KeyEvent) : Prop where
  /-- Of the same key. -/
  key : other.key = event.key
  /-- In the same direction. -/
  pressed : other.pressed = event.pressed
  /-- At the same moment. -/
  time : c.now event.time other.time

/-- The same task. -/
inductive SameTask : Task → Task → Prop where
  /-- Settling what is due at the same moment. -/
  | expire {t u : Millis} (now : c.now t u) : SameTask (.expire t) (.expire u)
  /-- Taking the same event. -/
  | feed {event other : KeyEvent} (same : c.SameEvent event other) : SameTask (.feed event) (.feed other)

/-- The same call. -/
inductive SameCall : Call → Call → Prop where
  /-- The same event arrives. -/
  | event {event other : KeyEvent} (same : c.SameEvent event other) : SameCall (.event event) (.event other)
  /-- Time has passed up to the same moment. -/
  | tick {t u : Millis} (now : c.now t u) : SameCall (.tick t) (.tick u)
  | cancel : SameCall .cancel .cancel

/-- The same waiting key. -/
structure SameHead (head other : PendingKey) : Prop where
  /-- The same key. -/
  key : other.key = head.key
  /-- With the same action. -/
  action : other.action = head.action
  /-- Which went down at the same moment. -/
  since : c.now head.since other.since
  /-- And counts as held from the same deadline on. -/
  deadline : c.deadline head.deadline other.deadline
  /-- With the same events behind it. -/
  buffer : List.Forall₂ c.SameEvent head.buffer other.buffer

/-- The same tap. -/
structure SameTap (tap other : Tap) : Prop where
  /-- Of the same key. -/
  key : other.key = tap.key
  /-- Which went up at the same moment. -/
  released : c.now tap.released other.released

/-- The same key waits, and the same tap was the last one. -/
structure SameTapHold (tapHold other : TapHold) : Prop where
  /-- The waiting key. -/
  head : Option.Rel c.SameHead tapHold.head other.head
  /-- The last tap. -/
  lastTap : Option.Rel c.SameTap tapHold.lastTap other.lastTap

/-- Machines stand at the same point. -/
inductive SamePhase : OneShotPhase → OneShotPhase → Prop where
  | idle : SamePhase .idle .idle
  /-- Their triggers went down at the same moment. -/
  | queued {t u : Millis} (since : c.now t u) : SamePhase (.queued t) (.queued u)
  | heldActive : SamePhase .heldActive .heldActive
  /-- They wait for a key up to the same deadline, if there is one. -/
  | latched {deadline other : Option Millis} (same : Option.Rel c.deadline deadline other) :
    SamePhase (.latched deadline) (.latched other)
  | toggled : SamePhase .toggled .toggled

/-- The same machine. -/
structure SameMachine (machine other : OneShot) : Prop where
  /-- At the same point. -/
  phase : c.SamePhase machine.phase other.phase
  /-- After as many taps. -/
  taps : other.taps = machine.taps
  /-- The last of which ended at the same moment. -/
  lastRelease : Option.Rel c.now machine.lastRelease other.lastRelease

/-- The same machines. -/
def SameMachines {α : Type} (machines others : Machines α) : Prop :=
  List.Forall₂ (Named c.SameMachine) machines.entries others.entries

/-- The same one-shots. -/
structure SameOneShots (shots others : OneShots) : Prop where
  /-- Of modifiers. -/
  modifiers : c.SameMachines shots.modifiers others.modifiers
  /-- Of layers. -/
  layers : c.SameMachines shots.layers others.layers

/-- A press did the same. -/
inductive SameState : KeyState → KeyState → Prop where
  /-- The key waits since the same moment. -/
  | pending {t u : Millis} (since : c.now t u) : SameState (.pending t) (.pending u)
  /-- Nothing else depends on the time. -/
  | settled (state : KeyState) : SameState state state

/-- A key is down with the same action, and its press did the same. -/
structure SameKey (entry other : ActiveKey) : Prop where
  /-- The action. -/
  action : other.action = entry.action
  /-- What the press did. -/
  state : c.SameState entry.state other.state

/-- The same keys are down. -/
def SameKeys (keys others : ActiveKeys) : Prop :=
  List.Forall₂ (Named c.SameKey) keys.entries others.entries

/-- Answers of machines to the same question: the same machines, and the same changes. -/
structure SameAnswer (answer other : OneShot × Option OneShotChange) : Prop where
  /-- The machine. -/
  machine : c.SameMachine answer.1 other.1
  /-- The change. -/
  change : other.2 = answer.2

section
variable {c} {t u : Millis} {m n : OneShot}

/-- A trigger pressed at the same moment after as many taps brings its machine to the same point. -/
theorem SamePhase.phaseAfter (now : c.now t u) (taps : Nat) :
    c.SamePhase (OneShot.phaseAfter settings t taps) (OneShot.phaseAfter settings u taps) := by
  unfold OneShot.phaseAfter
  split
  · exact .toggled
  · exact .queued now

/-- A one-shot latched at the same moment waits up to the same deadline. -/
theorem deadlineFrom (now : c.now t u) :
    Option.Rel c.deadline (OneShot.deadlineFrom settings t) (OneShot.deadlineFrom settings u) := by
  unfold OneShot.deadlineFrom
  split
  · exact .none
  · exact .some (c.timeout now)

namespace SameMachine

/-- New machines are the same. -/
theorem new : c.SameMachine .new .new := ⟨.idle, rfl, .none⟩

/-- Machines that are cancelled are the same, whatever they were before. -/
theorem cancel (m n : OneShot) : c.SameMachine m.cancel n.cancel := ⟨.idle, rfl, .none⟩

/-- A press that is quick by one clock is quick by the other. -/
theorem isQuick (same : c.SameMachine m n) (now : c.now t u) :
    n.isQuick settings u = m.isQuick settings t := by
  obtain ⟨phase, taps, released⟩ := m
  obtain ⟨phase', taps', released'⟩ := n
  cases same.lastRelease with
  | none => rfl
  | some earlier =>
    show decide (_ < settings.tappingTerm) = decide (_ < settings.tappingTerm)
    rw [c.since now earlier]

/-- A trigger goes down. -/
theorem press (same : c.SameMachine m n) (now : c.now t u) :
    c.SameAnswer (m.press settings t) (n.press settings u) := by
  have quick := same.isQuick now
  obtain ⟨phase, taps, released⟩ := m
  obtain ⟨phase', taps', released'⟩ := n
  obtain ⟨point, counted, last⟩ := same
  cases counted
  unfold OneShot.press
  cases point with
  | idle => exact ⟨⟨.phaseAfter now 1, rfl, last⟩, rfl⟩
  | queued since => exact ⟨⟨.queued since, rfl, last⟩, rfl⟩
  | heldActive => exact ⟨⟨.heldActive, rfl, last⟩, rfl⟩
  | latched =>
    dsimp only
    rw [quick]
    exact ⟨⟨.phaseAfter now _, rfl, last⟩, rfl⟩
  | toggled => exact ⟨⟨.idle, rfl, last⟩, rfl⟩

/-- A trigger goes up. -/
theorem release (same : c.SameMachine m n) (now : c.now t u) :
    c.SameAnswer (m.release settings t) (n.release settings u) := by
  obtain ⟨phase, taps, released⟩ := m
  obtain ⟨phase', taps', released'⟩ := n
  obtain ⟨point, counted, last⟩ := same
  cases counted
  unfold OneShot.release
  cases point with
  | queued since =>
    dsimp only
    rw [c.since now since]
    split
    · exact ⟨⟨.latched (deadlineFrom now), rfl, .some now⟩, rfl⟩
    · exact ⟨⟨.idle, rfl, last⟩, rfl⟩
  | idle => exact ⟨⟨.idle, rfl, last⟩, rfl⟩
  | heldActive => exact ⟨⟨.idle, rfl, last⟩, rfl⟩
  | latched deadline => exact ⟨⟨.latched deadline, rfl, last⟩, rfl⟩
  | toggled => exact ⟨⟨.toggled, rfl, last⟩, rfl⟩

/-- A key is used. -/
theorem consume (same : c.SameMachine m n) : c.SameAnswer m.consume n.consume := by
  obtain ⟨phase, taps, released⟩ := m
  obtain ⟨phase', taps', released'⟩ := n
  obtain ⟨point, counted, last⟩ := same
  cases counted
  unfold OneShot.consume
  cases point with
  | idle => exact ⟨⟨.idle, rfl, last⟩, rfl⟩
  | queued => exact ⟨⟨.heldActive, rfl, last⟩, rfl⟩
  | heldActive => exact ⟨⟨.heldActive, rfl, last⟩, rfl⟩
  | latched => exact ⟨⟨.idle, rfl, last⟩, rfl⟩
  | toggled => exact ⟨⟨.toggled, rfl, last⟩, rfl⟩

/-- Time has passed. -/
theorem tick (same : c.SameMachine m n) (now : c.now t u) :
    c.SameAnswer (m.tick settings t) (n.tick settings u) := by
  obtain ⟨phase, taps, released⟩ := m
  obtain ⟨phase', taps', released'⟩ := n
  obtain ⟨point, counted, last⟩ := same
  cases counted
  unfold OneShot.tick
  cases point with
  | queued since =>
    dsimp only
    rw [c.since now since]
    split
    · exact ⟨⟨.heldActive, rfl, last⟩, rfl⟩
    · exact ⟨⟨.queued since, rfl, last⟩, rfl⟩
  | latched deadline =>
    cases deadline with
    | none => exact ⟨⟨.latched .none, rfl, last⟩, rfl⟩
    | some due =>
      dsimp only
      rw [c.isDue due now]
      split
      · exact ⟨⟨.idle, rfl, last⟩, rfl⟩
      · exact ⟨⟨.latched (.some due), rfl, last⟩, rfl⟩
  | idle => exact ⟨⟨.idle, rfl, last⟩, rfl⟩
  | heldActive => exact ⟨⟨.heldActive, rfl, last⟩, rfl⟩
  | toggled => exact ⟨⟨.toggled, rfl, last⟩, rfl⟩

end SameMachine

namespace SameMachines

variable {α : Type} {machines others : Machines α}

/-- The same machines hold the same machine for each trigger. -/
theorem get [DecidableEq α] (same : c.SameMachines machines others) (thing : α) :
    c.SameMachine (machines.get thing) (others.get thing) := by
  have found := lookup_named same thing
  unfold Machines.get
  generalize machines.entries.lookup thing = machine, others.entries.lookup thing = other at found ⊢
  cases found with
  | none => exact .new
  | some machine => exact machine

/-- Putting the same machine in for a trigger keeps the machines the same. -/
theorem set [DecidableEq α] (same : c.SameMachines machines others) (thing : α)
    (machine : c.SameMachine m n) : c.SameMachines (machines.set thing m) (others.set thing n) := by
  have known : others.entries.any (·.1 == thing) = machines.entries.any (·.1 == thing) := by
    unfold SameMachines at same
    generalize machines.entries = entries, others.entries = rest at same
    induction same with
    | nil => rfl
    | cons head _ ih => rw [List.any_cons, List.any_cons, head.1, ih]
  unfold Machines.set
  rw [known]
  split
  · refine List.rel_map (fun entry other named => ?_) same
    simp only [named.1]
    split
    · exact ⟨rfl, machine⟩
    · exact named
  · exact List.rel_append same (.cons ⟨rfl, machine⟩ .nil)

/-- A transition of all machines to which each of them gives the same answer. -/
theorem sweep (same : c.SameMachines machines others) {f g : α → OneShot → OneShot × Option OneShotChange}
    (answers : ∀ thing m n, c.SameMachine m n → c.SameAnswer (f thing m) (g thing n)) :
    c.SameMachines (machines.sweep f).1 (others.sweep g).1 ∧ (others.sweep g).2 = (machines.sweep f).2 := by
  constructor
  · refine List.rel_map (fun entry other named => ⟨named.1, ?_⟩) same
    rw [named.1]
    exact (answers _ _ _ named.2).machine
  · unfold Machines.sweep
    unfold SameMachines at same
    generalize machines.entries = entries, others.entries = rest at same
    dsimp only
    induction same with
    | nil => rfl
    | cons head _ ih =>
      rw [List.filterMap_cons, List.filterMap_cons, ih, head.1, (answers _ _ _ head.2).change]

end SameMachines

namespace SameOneShots

variable {shots others : OneShots} {h held : Holdings}

/-- A machine that gives the same answer does the same to what is on. -/
theorem step (lm : LayerModifiers) (trigger : Action) (same : c.SameOneShots shots others)
    (on : h.Same held) {f g : OneShot → OneShot × Option OneShotChange}
    (answers : ∀ m n, c.SameMachine m n → c.SameAnswer (f m) (g n)) :
    c.SameOneShots (shots.step h lm trigger f).1 (others.step held lm trigger g).1 ∧
      (shots.step h lm trigger f).2.Same (others.step held lm trigger g).2 := by
  have alike : (others.step held lm trigger g).2 = (shots.step held lm trigger f).2 := by
    cases trigger with
    | oneShotModifier set =>
      show Option.elim (g _).2 _ _ = Option.elim (f _).2 _ _
      rw [(answers _ _ (same.modifiers.get set)).change]
    | oneShotLayer id =>
      show Option.elim (g _).2 _ _ = Option.elim (f _).2 _ _
      rw [(answers _ _ (same.layers.get id)).change]
    | _ => rfl
  refine ⟨?_, alike ▸ on.apply (.step lm shots trigger f)⟩
  cases trigger with
  | oneShotModifier set =>
    exact ⟨same.modifiers.set set (answers _ _ (same.modifiers.get set)).machine, same.layers⟩
  | oneShotLayer id => exact ⟨same.modifiers, same.layers.set id (answers _ _ (same.layers.get id)).machine⟩
  | _ => exact same

/-- So do all machines. -/
theorem sweep (lm : LayerModifiers) (same : c.SameOneShots shots others) (on : h.Same held)
    {f g : Action → OneShot → OneShot × Option OneShotChange}
    (answers : ∀ trigger m n, c.SameMachine m n → c.SameAnswer (f trigger m) (g trigger n)) :
    c.SameOneShots (shots.sweep h lm f).1 (others.sweep held lm g).1 ∧
      (shots.sweep h lm f).2.Same (others.sweep held lm g).2 := by
  have layers := same.layers.sweep fun id => answers (.oneShotLayer id)
  have modifiers := same.modifiers.sweep fun set => answers (.oneShotModifier set)
  have alike : (others.sweep held lm g).2 = (shots.sweep held lm f).2 := by
    unfold OneShots.sweep
    dsimp only
    rw [layers.2, modifiers.2]
  exact ⟨⟨modifiers.1, layers.1⟩, alike ▸ on.apply (.sweep lm shots f)⟩

/-- The same one-shots are the same after a cancel. -/
theorem cancel (same : c.SameOneShots shots others) : c.SameOneShots shots.cancel others.cancel where
  modifiers := List.rel_map (fun _ _ named => ⟨named.1, .cancel _ _⟩) same.modifiers
  layers := List.rel_map (fun _ _ named => ⟨named.1, .cancel _ _⟩) same.layers

end SameOneShots

namespace SameHead

variable {head other : PendingKey} {e f : KeyEvent}

/-- The same event behind the same waiting key leaves the same key waiting. -/
theorem push (same : c.SameHead head other) (event : c.SameEvent e f) :
    c.SameHead (head.push e) (other.push f) :=
  ⟨same.key, same.action, same.since, same.deadline, List.rel_append same.buffer (.cons event .nil)⟩

/-- A key went down behind the waiting key by both clocks or by neither. -/
theorem pressedSince (same : c.SameHead head other) (key : Key) :
    other.pressedSince key = head.pressedSince key := by
  have buffer := same.buffer
  unfold PendingKey.pressedSince
  generalize head.buffer = events, other.buffer = others at buffer
  induction buffer with
  | nil => rfl
  | cons event _ ih => rw [List.any_cons, List.any_cons, event.pressed, event.key, ih]

/-- The same event interrupts the same waiting key or leaves it waiting, whatever the policy. -/
theorem interruptedBy (same : c.SameHead head other) (policy : InterruptPolicy)
    (event : c.SameEvent e f) : other.interruptedBy policy f = head.interruptedBy policy e := by
  unfold PendingKey.interruptedBy
  rw [event.pressed, event.key, same.pressedSince]

/-- What was kept back comes again. -/
theorem replay (same : c.SameHead head other) :
    List.Forall₂ c.SameTask (Task.replay head.buffer) (Task.replay other.buffer) :=
  List.rel_flatMap same.buffer fun _ _ event => .cons (.expire event.time) (.cons (.feed event) .nil)

end SameHead

namespace SameKeys

variable {keys others : ActiveKeys} {key : Key}

/-- The same keys have the same entry for each key, or none. -/
theorem find? (same : c.SameKeys keys others) (key : Key) :
    Option.Rel c.SameKey (keys.find? key) (others.find? key) := lookup_named same key

/-- A key is down by both clocks or by neither. -/
theorem contains (same : c.SameKeys keys others) (key : Key) : others.contains key = keys.contains key := by
  have found := same.find? key
  unfold ActiveKeys.contains
  generalize keys.find? key = entry, others.find? key = other at found
  cases found <;> rfl

/-- Taking the same key out leaves the same keys. -/
theorem remove (same : c.SameKeys keys others) (key : Key) :
    c.SameKeys (keys.remove key) (others.remove key) := by
  unfold SameKeys ActiveKeys.remove at *
  generalize keys.entries = entries, others.entries = rest at same
  dsimp only
  induction same with
  | nil => exact .nil
  | cons head _ ih =>
    rw [List.filter_cons, List.filter_cons, head.1]
    split
    · exact .cons head ih
    · exact ih

/-- Putting a key in with the same entry leaves the same keys. -/
theorem insert (same : c.SameKeys keys others) (key : Key) {entry other : ActiveKey}
    (entered : c.SameKey entry other) : c.SameKeys (keys.insert key entry) (others.insert key other) :=
  .cons ⟨rfl, entered⟩ (same.remove key)

/-- A new state for one of the same keys leaves the same keys. -/
theorem setState (same : c.SameKeys keys others) (key : Key) (state : KeyState) :
    c.SameKeys (keys.setState key state) (others.setState key state) := by
  refine List.rel_map (fun entry other named => ?_) same
  simp only [named.1]
  split
  · exact ⟨rfl, named.2.action, .settled state⟩
  · exact named

/-- The same keys are the same once they are inert. -/
theorem makeInert (same : c.SameKeys keys others) : c.SameKeys keys.makeInert others.makeInert :=
  List.rel_map (fun _ _ named => ⟨named.1, named.2.action, .settled .inert⟩) same

end SameKeys

end

end Clocks

namespace Engine

open Clocks

/-- Two states that are the same by two clocks. -/
structure InStep {settings : Settings} (c : Clocks settings) (s t : Engine) : Prop where
  /-- The same is on, and the host was told the same. -/
  same : s.holdings.Same t.holdings
  /-- The same key waits, with the same events behind it. -/
  tapHold : c.SameTapHold s.tapHold t.tapHold
  /-- The one-shots are the same. -/
  oneShots : c.SameOneShots s.oneShots t.oneShots
  /-- The same keys are down. -/
  active : c.SameKeys s.active t.active

namespace InStep

variable {p : Profile} {c : Clocks p.settings} {s t : Engine} {now other : Millis} {e f : KeyEvent}

/-- The keyboards start in step. -/
theorem start : InStep c start start :=
  ⟨.refl _, ⟨.none, .none⟩, ⟨.nil, .nil⟩, .nil⟩

/-- A note that the host does not see makes no difference, whatever it says. -/
theorem announce (inStep : InStep c s t) {signal note : Signal} (told : note.host? = signal.host?) :
    InStep c (s.announce signal) (t.announce note) :=
  ⟨inStep.same.announce told, inStep.tapHold, inStep.oneShots, inStep.active⟩

/-- A note in both journals keeps them in step. -/
theorem note (inStep : InStep c s t) (signal : Signal) :
    InStep c (s.announce signal) (t.announce signal) :=
  inStep.announce rfl

/-- A change of what is held that does not read the journal keeps them in step. -/
theorem mapHoldings (inStep : InStep c s t) {f : Holdings → Holdings} (appends : s.holdings.Appends f) :
    InStep c (s.mapHoldings f) (t.mapHoldings f) :=
  ⟨inStep.same.apply appends, inStep.tapHold, inStep.oneShots, inStep.active⟩

/-- They stay in step with any two waiting keys that are the same. -/
theorem withTapHold (inStep : InStep c s t) {tapHold tapHold' : TapHold}
    (same : c.SameTapHold tapHold tapHold') : InStep c { s with tapHold } { t with tapHold := tapHold' } :=
  ⟨inStep.same, same, inStep.oneShots, inStep.active⟩

/-- They stay in step with any keys down that are the same. -/
theorem withActive (inStep : InStep c s t) {active active' : ActiveKeys} (same : c.SameKeys active active') :
    InStep c { s with active } { t with active := active' } :=
  ⟨inStep.same, inStep.tapHold, inStep.oneShots, same⟩

/-- A key that uses up the one-shots does so by both clocks. -/
theorem consume (inStep : InStep c s t) (action : Action) :
    InStep c (s.consume p action) (t.consume p action) := by
  obtain ⟨oneShots, same⟩ := inStep.oneShots.sweep p.layerModifiers inStep.same
    fun trigger m n machine => by
      show c.SameAnswer (if p.settings.ignores trigger action then (m, none) else m.consume)
        (if p.settings.ignores trigger action then (n, none) else n.consume)
      split
      · exact ⟨machine, rfl⟩
      · exact machine.consume
  exact ⟨same, inStep.tapHold, oneShots, inStep.active⟩

/-- One machine that moves the same way by both clocks leaves them in step. -/
theorem stepTrigger (inStep : InStep c s t) (action : Action)
    {f g : OneShot → OneShot × Option OneShotChange}
    (answers : ∀ m n, c.SameMachine m n → c.SameAnswer (f m) (g n)) :
    InStep c (s.mapOneShots (·.step · p.layerModifiers action f))
      (t.mapOneShots (·.step · p.layerModifiers action g)) := by
  obtain ⟨oneShots, same⟩ := inStep.oneShots.step p.layerModifiers action inStep.same answers
  exact ⟨same, inStep.tapHold, oneShots, inStep.active⟩

/-- A trigger pressed at the same moment keeps them in step. -/
theorem pressTrigger (inStep : InStep c s t) (action : Action) (time : c.now now other) :
    InStep c (s.mapOneShots (·.press · p.settings p.layerModifiers action now))
      (t.mapOneShots (·.press · p.settings p.layerModifiers action other)) :=
  inStep.stepTrigger action fun _ _ machine => machine.press time

/-- A trigger released at the same moment keeps them in step. -/
theorem releaseTrigger (inStep : InStep c s t) (action : Action) (time : c.now now other) :
    InStep c (s.mapOneShots (·.release · p.settings p.layerModifiers action now))
      (t.mapOneShots (·.release · p.settings p.layerModifiers action other)) :=
  inStep.stepTrigger action fun _ _ machine => machine.release time

/-- One-shots run out at the same moment by both clocks. -/
theorem elapse (inStep : InStep c s t) (time : c.now now other) :
    InStep c (s.elapse p now) (t.elapse p other) := by
  obtain ⟨oneShots, same⟩ := inStep.oneShots.sweep p.layerModifiers inStep.same
    fun _ m n machine => machine.tick time
  exact ⟨same, inStep.tapHold, oneShots, inStep.active⟩

/-- A cancel keeps them in step. -/
theorem cancel (inStep : InStep c s t) : InStep c (s.cancel p) (t.cancel p) where
  same := inStep.same.apply (.releaseEverything p.layerModifiers)
  tapHold := ⟨.none, .none⟩
  oneShots := inStep.oneShots.cancel
  active := inStep.active.makeInert

/-- Keyboards in step give a key the same action. -/
theorem resolve (inStep : InStep c s t) (key : Key) : t.resolve p key = s.resolve p key := by
  show t.holdings.layers.resolve p.keymap key = s.holdings.layers.resolve p.keymap key
  rw [inStep.same.parts]
  rfl

/-- A press repeats a remembered tap by both clocks or by neither. -/
theorem repeatsTap (inStep : InStep c s t) (same : c.SameEvent e f) :
    t.repeatsTap p f = s.repeatsTap p e := by
  have last := inStep.tapHold.lastTap
  unfold Engine.repeatsTap TapHold.repressed
  rw [same.key]
  generalize s.tapHold.lastTap = tap, t.tapHold.lastTap = tap' at last
  cases last with
  | none => rfl
  | some tapped => rw [Option.any_some, Option.any_some, tapped.key, c.since same.time tapped.released]

/-- A tap-hold key pressed at the same moment is left in the same state and keeps them in step. -/
theorem pressTapHold (inStep : InStep c s t) (same : c.SameEvent e f) (action : Action) (tap : Keystroke) :
    c.SameState (s.pressTapHold p e action tap).1 (t.pressTapHold p f action tap).1 ∧
      InStep c (s.pressTapHold p e action tap).2 (t.pressTapHold p f action tap).2 := by
  unfold Engine.pressTapHold
  rw [inStep.repeatsTap same]
  split
  · exact ⟨.settled .tapped, (inStep.mapHoldings (.pressStroke tap)).consume action⟩
  · refine ⟨.pending same.time, inStep.withTapHold ⟨.some ?_, inStep.tapHold.lastTap⟩⟩
    exact ⟨same.key, rfl, same.time, c.term same.time, .nil⟩

/-- The press of an action does the same by both clocks. -/
theorem perform (inStep : InStep c s t) (same : c.SameEvent e f) (action : Action) :
    c.SameState (s.perform p e action).1 (t.perform p f action).1 ∧
      InStep c (s.perform p e action).2 (t.perform p f action).2 := by
  cases action with
  | plain stroke =>
    unfold Engine.perform
    dsimp only
    split
    · exact ⟨.settled _, inStep.mapHoldings (.holdModifiers _)⟩
    · exact ⟨.settled _, (inStep.mapHoldings (.pressStroke stroke)).consume _⟩
  | modTap hold tap => exact inStep.pressTapHold same _ tap
  | layerTap layer tap => exact inStep.pressTapHold same _ tap
  | oneShotModifier set => exact ⟨.settled _, inStep.pressTrigger (.oneShotModifier set) same.time⟩
  | oneShotLayer layer => exact ⟨.settled _, inStep.pressTrigger (.oneShotLayer layer) same.time⟩
  | manualShift unshifted shifted =>
    have chosen : t.holdings.chooseShifted unshifted shifted =
        s.holdings.chooseShifted unshifted shifted := by
      rw [inStep.same.parts]
      rfl
    refine ⟨?_, (inStep.mapHoldings (.pressManualShift unshifted shifted)).consume _⟩
    show c.SameState (.stroke (s.holdings.chooseShifted unshifted shifted))
      (.stroke (t.holdings.chooseShifted unshifted shifted))
    rw [chosen]
    exact .settled _
  | macroSequence strokes => exact ⟨.settled _, (inStep.mapHoldings (.tapStrokes strokes)).consume _⟩
  | retype stroke => exact ⟨.settled _, (inStep.mapHoldings (.retypeStroke stroke)).consume _⟩
  | momentaryLayer id =>
    exact ⟨.settled _, inStep.mapHoldings (.activateLayer p.layerModifiers id .held)⟩
  | toggleLayer id => exact ⟨.settled _, inStep.mapHoldings (.toggleLayer p.layerModifiers id)⟩
  | cancel => exact ⟨.settled _, inStep.cancel⟩
  | transparent => exact ⟨.settled _, inStep⟩
  | noOp => exact ⟨.settled _, inStep⟩

/-- They are in step still when a key is about to go down. -/
theorem readied (inStep : InStep c s t) (same : c.SameEvent e f) :
    InStep c (s.readied e) (t.readied f) := by
  refine inStep.withTapHold ⟨inStep.tapHold.head, ?_⟩
  have last := inStep.tapHold.lastTap
  unfold TapHold.forgetOther
  rw [same.key]
  generalize s.tapHold.lastTap = tap, t.tapHold.lastTap = tap' at last
  cases last with
  | none => exact .none
  | some tapped =>
    dsimp only
    rw [Option.filter_some, Option.filter_some, tapped.key]
    split
    · exact .some tapped
    · exact .none

/-- The same press keeps them in step. -/
theorem press (inStep : InStep c s t) (same : c.SameEvent e f) :
    InStep c (s.press p e) (t.press p f) := by
  have known : t.active.contains f.key = s.active.contains e.key := by
    rw [same.key, inStep.active.contains]
  cases down : s.active.contains e.key with
  | true =>
    rw [press_of_down down, press_of_down (known.trans down)]
    exact inStep.announce rfl
  | false =>
    obtain ⟨state, performed⟩ := (inStep.readied same).perform same (s.resolve p e.key)
    rw [press_of_up down, press_of_up (known.trans down)]
    unfold Engine.performed
    rw [same.key, inStep.resolve]
    have noted := performed.note (.key e.key (s.resolve p e.key) true)
    exact noted.withActive (performed.active.insert e.key ⟨rfl, state⟩)

/-- Undoing the same key keeps them in step. -/
theorem undo (inStep : InStep c s t) (same : c.SameEvent e f) {entry entry' : ActiveKey}
    (key : c.SameKey entry entry') : InStep c (s.undo p e entry) (t.undo p f entry') := by
  obtain ⟨action, state⟩ := entry
  obtain ⟨action', state'⟩ := entry'
  obtain ⟨acts, did⟩ := key
  cases acts
  unfold Engine.undo
  cases did with
  | pending => exact inStep
  | settled state =>
    cases state with
    | stroke stroke => exact inStep.mapHoldings (.releaseStroke stroke)
    | modifiers set => exact inStep.mapHoldings (.unholdModifiers set)
    | tapped =>
      have remembered {u v : Engine} (inStep : InStep c u v) :
          InStep c { u with tapHold := u.tapHold.rememberTap e.key e.time }
            { v with tapHold := v.tapHold.rememberTap f.key f.time } :=
        inStep.withTapHold ⟨inStep.tapHold.head, .some ⟨same.key, same.time⟩⟩
      dsimp only
      cases action.tap? with
      | none => exact remembered inStep
      | some tap => exact remembered (inStep.mapHoldings (.releaseStroke tap))
    | held => exact inStep.mapHoldings (.unholdAction p.layerModifiers action)
    | pending since => exact inStep
    | oneShot => exact inStep.releaseTrigger action same.time
    | layer id => exact inStep.mapHoldings (.deactivateLayer p.layerModifiers id .held)
    | inert => exact inStep

/-- The same release keeps them in step. -/
theorem release (inStep : InStep c s t) (same : c.SameEvent e f) :
    InStep c (s.release p e) (t.release p f) := by
  have found := inStep.active.find? e.key
  cases down : s.active.find? e.key with
  | none =>
    rw [down, rel_none_iff, ← same.key] at found
    rw [release_of_up down, release_of_up found]
    exact inStep.announce rfl
  | some entry =>
    rw [down, rel_some_iff, ← same.key] at found
    obtain ⟨entry', found, key⟩ := found
    rw [release_of_down down, release_of_down found, same.key]
    exact ((inStep.withActive (inStep.active.remove e.key)).undo same key).announce rfl

/-- Acting on the same event keeps them in step. -/
theorem dispatch (inStep : InStep c s t) (same : c.SameEvent e f) :
    InStep c (s.dispatch p e) (t.dispatch p f) := by
  have noted : InStep c (s.announce (.dispatched e)) (t.announce (.dispatched f)) := inStep.announce rfl
  unfold Engine.dispatch
  rw [same.pressed]
  dsimp only
  split
  · exact noted.press same
  · exact noted.release same

/-- The same verdict on the same waiting key keeps them in step. -/
theorem settled (inStep : InStep c s t) (decision : Decision) {head other : PendingKey}
    (same : c.SameHead head other) : InStep c (s.settled p decision head) (t.settled p decision other) := by
  have free : InStep c { s with tapHold := s.tapHold.dropHead } { t with tapHold := t.tapHold.dropHead } :=
    inStep.withTapHold ⟨.none, inStep.tapHold.lastTap⟩
  have noted := free.note (.settled head.key decision)
  unfold Engine.settled Engine.settle
  rw [same.key, same.action]
  cases decision with
  | hold =>
    have marked := noted.withActive (inStep.active.setState head.key .held)
    exact marked.mapHoldings (.holdAction p.layerModifiers head.action)
  | tap =>
    have marked := noted.withActive (inStep.active.setState head.key .tapped)
    dsimp only
    cases head.action.tap? with
    | none => exact marked
    | some tap =>
      dsimp only
      split
      · exact marked.mapHoldings (.pressStroke tap)
      · exact (marked.mapHoldings (.pressStroke tap)).consume _

/-- A task does the same by both clocks, and puts the same tasks in front. -/
theorem step (inStep : InStep c s t) {task task' : Task} (same : c.SameTask task task') :
    InStep c (Engine.step p s task).1 (Engine.step p t task').1 ∧
      List.Forall₂ c.SameTask (Engine.step p s task).2 (Engine.step p t task').2 := by
  have waiting := inStep.tapHold.head
  cases same with
  | expire time =>
    unfold Engine.step
    dsimp only
    generalize s.tapHold.head = head, t.tapHold.head = head' at waiting
    cases waiting with
    | none => exact ⟨inStep, .nil⟩
    | some head =>
      dsimp only
      rw [c.isDue head.deadline time]
      split
      · exact ⟨inStep.settled .hold head, List.rel_append head.replay (.cons (.expire time) .nil)⟩
      · exact ⟨inStep, .nil⟩
  | feed event =>
    unfold Engine.step
    dsimp only
    rw [event.key, event.pressed, inStep.resolve]
    generalize s.tapHold.head = head, t.tapHold.head = head' at waiting
    cases waiting with
    | none => exact ⟨inStep.dispatch event, .nil⟩
    | some head =>
      dsimp only
      rw [head.key, (head.push event).interruptedBy p.settings.policy event]
      split
      · split
        · exact ⟨inStep.announce rfl, .nil⟩
        · exact ⟨inStep.settled .tap head, List.rel_append head.replay (.cons (.feed event) .nil)⟩
      · split
        · exact ⟨inStep.dispatch event, .nil⟩
        · split
          · exact ⟨inStep.settled .hold (head.push event), List.rel_append (head.push event).replay .nil⟩
          · exact ⟨inStep.withTapHold ⟨.some (head.push event), inStep.tapHold.lastTap⟩, .nil⟩

/-- The same agenda comes to the same by both clocks. -/
theorem run (inStep : InStep c s t) {agenda agenda' : List Task}
    (same : List.Forall₂ c.SameTask agenda agenda') : InStep c (s.run p agenda) (t.run p agenda') := by
  induction s, agenda using run.induct p generalizing t agenda' with
  | case1 s =>
    cases same
    rw [run_nil, run_nil]
    exact inStep
  | case2 s task rest ih =>
    obtain ⟨⟩ | ⟨first, others⟩ := same
    obtain ⟨next, more⟩ := inStep.step first
    rw [run_cons, run_cons]
    exact ih next (List.rel_append more others)

/-- A tick at the same moment keeps them in step. -/
theorem tick (inStep : InStep c s t) (time : c.now now other) : InStep c (s.tick p now) (t.tick p other) :=
  (inStep.run (.cons (.expire time) .nil)).elapse time

/-- The same call is answered the same by both clocks. -/
theorem answer (inStep : InStep c s t) {call call' : Call} (same : c.SameCall call call') :
    InStep c (s.answer p call) (t.answer p call') := by
  cases same with
  | event event => exact (inStep.tick event.time).run (.cons (.feed event) .nil)
  | tick time => exact inStep.tick time
  | cancel => exact inStep.cancel

/-- So are several calls. -/
theorem answers (inStep : InStep c s t) {calls calls' : List Call}
    (same : List.Forall₂ c.SameCall calls calls') :
    InStep c (calls.foldl (Engine.answer p) s) (calls'.foldl (Engine.answer p) t) := by
  induction same generalizing s t with
  | nil => exact inStep
  | cons call _ ih => exact ih (inStep.answer call)

end InStep

end Engine

end KeyEngine
