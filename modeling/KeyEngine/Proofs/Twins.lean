import KeyEngine.Proofs.Clocks
import KeyEngine.Proofs.Moments

/-!
# Twins

Two states are twins if the same is on in both, the same keys are down, the same key waits with the same
events behind it, and the host was told the same; only what the engine noted for itself may differ. These
are the states that are in step by one and the same clock, so twins to which the same happens stay twins:
`Twins.step` says so of a task.
-/

namespace KeyEngine

namespace Clocks

/-- One clock, twice. -/
def one (settings : Settings) : Clocks settings where
  now := Eq
  deadline := Eq
  since now earlier := now ▸ earlier ▸ rfl
  isDue deadline now := deadline ▸ now ▸ rfl
  term now := now ▸ rfl
  timeout now := now ▸ rfl

section
variable {α κ : Type} {related : α → α → Prop} (one : ∀ {a b : α}, related a b ↔ b = a)
include one

/-- Lists whose items are related by equality are equal. -/
theorem forall₂_one {items others : List α} : List.Forall₂ related items others ↔ others = items := by
  constructor
  · intro same
    induction same with
    | nil => rfl
    | cons head _ ih => rw [one.1 head, ih]
  · rintro rfl
    exact List.forall₂_same.2 fun _ _ => one.2 rfl

/-- What may be missing is related by equality when it is equal. -/
theorem rel_one {item other : Option α} : Option.Rel related item other ↔ other = item := by
  cases item with
  | none => exact rel_none_iff
  | some a => simp [rel_some_iff, one]

/-- An entry with the same name and the same value is the same entry. -/
theorem named_one {entry other : κ × α} : Named related entry other ↔ other = entry := by
  rw [Prod.ext_iff]
  exact and_congr_right fun _ => one

end

variable {settings : Settings}

/-- By one clock the same event is the event itself. -/
theorem sameEvent_one {event other : KeyEvent} :
    (one settings).SameEvent event other ↔ other = event := by
  obtain ⟨key, pressed, time⟩ := event
  constructor
  · rintro ⟨⟨⟩, ⟨⟩, ⟨⟩⟩
    rfl
  · rintro rfl
    exact ⟨rfl, rfl, rfl⟩

/-- By one clock the same task is the task itself. -/
theorem sameTask_one {task other : Task} : (one settings).SameTask task other ↔ other = task := by
  constructor
  · rintro (⟨⟨⟩⟩ | ⟨same⟩)
    · rfl
    · rw [sameEvent_one.1 same]
  · rintro rfl
    cases other with
    | expire now => exact .expire rfl
    | feed event => exact .feed (sameEvent_one.2 rfl)

/-- By one clock the same waiting key is the waiting key itself. -/
theorem sameHead_one {head other : PendingKey} : (one settings).SameHead head other ↔ other = head := by
  obtain ⟨key, action, since, deadline, buffer⟩ := head
  constructor
  · rintro ⟨⟨⟩, ⟨⟩, ⟨⟩, ⟨⟩, behind⟩
    cases (forall₂_one sameEvent_one).1 behind
    rfl
  · rintro rfl
    exact ⟨rfl, rfl, rfl, rfl, (forall₂_one sameEvent_one).2 rfl⟩

/-- By one clock the same tap is the tap itself. -/
theorem sameTap_one {tap other : Tap} : (one settings).SameTap tap other ↔ other = tap := by
  obtain ⟨key, released⟩ := tap
  constructor
  · rintro ⟨⟨⟩, ⟨⟩⟩
    rfl
  · rintro rfl
    exact ⟨rfl, rfl⟩

/-- By one clock the same key waits, and the same tap is remembered, only in the same record. -/
theorem sameTapHold_one {tapHold other : TapHold} :
    (one settings).SameTapHold tapHold other ↔ other = tapHold := by
  obtain ⟨head, lastTap⟩ := tapHold
  obtain ⟨head', lastTap'⟩ := other
  constructor
  · rintro ⟨waiting, tapped⟩
    cases (rel_one sameHead_one).1 waiting
    cases (rel_one sameTap_one).1 tapped
    rfl
  · rintro ⟨⟩
    exact ⟨(rel_one sameHead_one).2 rfl, (rel_one sameTap_one).2 rfl⟩

/-- By one clock the same phase is the phase itself. -/
theorem samePhase_one {phase other : OneShotPhase} :
    (one settings).SamePhase phase other ↔ other = phase := by
  constructor
  · rintro (_ | ⟨⟨⟩⟩ | _ | ⟨same⟩ | _)
    · rfl
    · rfl
    · rfl
    · rw [(rel_one eq_comm).1 same]
    · rfl
  · rintro rfl
    cases other with
    | idle => exact .idle
    | queued since => exact .queued rfl
    | heldActive => exact .heldActive
    | latched deadline => exact .latched ((rel_one eq_comm).2 rfl)
    | toggled => exact .toggled

/-- By one clock the same machine is the machine itself. -/
theorem sameMachine_one {machine other : OneShot} :
    (one settings).SameMachine machine other ↔ other = machine := by
  obtain ⟨phase, taps, lastRelease⟩ := machine
  obtain ⟨phase', taps', lastRelease'⟩ := other
  constructor
  · rintro ⟨point, ⟨⟩, last⟩
    cases samePhase_one.1 point
    cases (rel_one eq_comm).1 last
    rfl
  · rintro ⟨⟩
    exact ⟨samePhase_one.2 rfl, rfl, (rel_one eq_comm).2 rfl⟩

/-- By one clock the same machines are the machines themselves. -/
theorem sameMachines_one {α : Type} {machines others : Machines α} :
    (one settings).SameMachines machines others ↔ others = machines := by
  obtain ⟨entries⟩ := machines
  obtain ⟨entries'⟩ := others
  exact (forall₂_one (named_one sameMachine_one)).trans (Machines.mk.injEq entries' entries ▸ Iff.rfl)

/-- By one clock the same one-shots are the one-shots themselves. -/
theorem sameOneShots_one {shots others : OneShots} :
    (one settings).SameOneShots shots others ↔ others = shots := by
  obtain ⟨modifiers, layers⟩ := shots
  obtain ⟨modifiers', layers'⟩ := others
  constructor
  · rintro ⟨ofModifiers, ofLayers⟩
    cases sameMachines_one.1 ofModifiers
    cases sameMachines_one.1 ofLayers
    rfl
  · rintro ⟨⟩
    exact ⟨sameMachines_one.2 rfl, sameMachines_one.2 rfl⟩

/-- By one clock the same key that is down is the key itself. -/
theorem sameKey_one {entry other : ActiveKey} : (one settings).SameKey entry other ↔ other = entry := by
  obtain ⟨action, state⟩ := entry
  obtain ⟨action', state'⟩ := other
  constructor
  · rintro ⟨⟨⟩, ⟨⟨⟩⟩ | ⟨state⟩⟩
    · rfl
    · rfl
  · rintro ⟨⟩
    exact ⟨rfl, .settled state⟩

/-- By one clock the same keys that are down are the keys themselves. -/
theorem sameKeys_one {keys others : ActiveKeys} :
    (one settings).SameKeys keys others ↔ others = keys := by
  obtain ⟨entries⟩ := keys
  obtain ⟨entries'⟩ := others
  exact (forall₂_one (named_one sameKey_one)).trans (ActiveKeys.mk.injEq entries' entries ▸ Iff.rfl)

end Clocks

namespace Engine

open Clocks

/-- Two states that differ in their journals at most, which told the host the same. -/
structure Twins (s t : Engine) : Prop where
  /-- The same is on, and the host was told the same. -/
  same : s.holdings.Same t.holdings
  /-- The same key waits, with the same events behind it. -/
  tapHold : t.tapHold = s.tapHold
  /-- The one-shots are the same. -/
  oneShots : t.oneShots = s.oneShots
  /-- The same keys are down. -/
  active : t.active = s.active

namespace Twins

variable {p : Profile} {s t : Engine}

/-- Every state is its own twin. -/
theorem refl (s : Engine) : Twins s s := ⟨.refl _, rfl, rfl, rfl⟩

/-- A note that the host does not see makes no difference. -/
theorem note (twins : Twins s t) {signal : Signal} (silent : signal.host? = none) :
    Twins (s.announce signal) t :=
  ⟨twins.same.note silent, twins.tapHold, twins.oneShots, twins.active⟩

/-- Twins are in step by one clock. -/
theorem iff_inStep (settings : Settings) : Twins s t ↔ InStep (one settings) s t := by
  constructor
  · rintro ⟨same, tapHold, oneShots, active⟩
    exact ⟨same, sameTapHold_one.2 tapHold, sameOneShots_one.2 oneShots, sameKeys_one.2 active⟩
  · rintro ⟨same, tapHold, oneShots, active⟩
    exact ⟨same, sameTapHold_one.1 tapHold, sameOneShots_one.1 oneShots, sameKeys_one.1 active⟩

/-- Twins stay twins as time passes for the one-shots. -/
theorem elapse (twins : Twins s t) (now : Millis) : Twins (s.elapse p now) (t.elapse p now) :=
  (iff_inStep p.settings).2 (((iff_inStep p.settings).1 twins).elapse rfl)

/-- Cancelling makes twins of states in which other keys waited. -/
theorem cancel (same : s.holdings.Same t.holdings) (oneShots : t.oneShots = s.oneShots)
    (active : t.active = s.active) : Twins (s.cancel p) (t.cancel p) := by
  refine ⟨same.apply (.releaseEverything p.layerModifiers), rfl, ?_, ?_⟩
  · simp only [Engine.cancel, oneShots]
  · simp only [Engine.cancel, active]

/-- A task does the same to twins, and leaves the same to do. -/
theorem step (twins : Twins s t) (task : Task) :
    Twins (step p s task).1 (step p t task).1 ∧ (step p t task).2 = (step p s task).2 := by
  obtain ⟨next, more⟩ := ((iff_inStep p.settings).1 twins).step (sameTask_one.2 (rfl : task = task))
  exact ⟨(iff_inStep p.settings).2 next, (forall₂_one sameTask_one).1 more⟩

end Twins

end Engine

end KeyEngine
