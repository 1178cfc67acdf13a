import KeyEngine.Proofs.TurnedOn

/-!
# A one-shot lasts for one key

A press that types something, or the tap of a key that waited, is the next key for every one-shot that
does not ignore it. First its strokes are typed, as if there were no one-shots; then the one-shots that
waited are turned off, and those whose trigger is down become ordinary holds. `Serves` says what that
does to each machine, to what the machines turned on and to what the host is told. A one-shot that waits
for a key therefore meets one such key at most.
-/

namespace KeyEngine

namespace Call

/-- On the mixed keyboard, the one-shot shift and the one-shot layer are tapped, and then a key. -/
def latchedBoth : List Call := [.down 3 0, .up 3 10, .down 4 20, .up 4 30, .down 1 40]

end Call

namespace OneShot

/-- Whether a machine waits for a key. -/
def isLatched (m : OneShot) : Bool :=
  match m.phase with
  | .latched _ => true
  | _ => false

variable {m : OneShot}

/-- A latched machine rests once its one-shot is used up. -/
theorem phase_consume_of_latched (latched : m.isLatched = true) : m.consume.1.phase = .idle := by
  obtain ⟨phase, taps, lastRelease⟩ := m
  cases phase <;> first | rfl | cases latched

/-- A machine whose trigger is down becomes an ordinary hold with the next key. -/
theorem phase_consume_of_queued {since : Millis} (queued : m.phase = .queued since) :
    m.consume.1.phase = .heldActive := by
  unfold consume
  rw [queued]

/-- Any other machine is left as it is by the next key. -/
theorem consume_of_still (unlatched : m.isLatched = false) (unqueued : ∀ since, m.phase ≠ .queued since) :
    m.consume.1 = m := by
  obtain ⟨phase, taps, lastRelease⟩ := m
  cases phase with
  | queued since => exact absurd rfl (unqueued since)
  | latched deadline => cases unlatched
  | _ => rfl

/-- Being used turns off a machine that waits for a key, and no other. -/
theorem ends_consume (m : OneShot) : (m.isActive && !m.consume.1.isActive) = m.isLatched := by
  obtain ⟨phase, taps, lastRelease⟩ := m
  cases phase <;> rfl

/-- Whether a one-shot is used up by an action: it waits for a key and does not ignore the action. -/
def usedUp (settings : Settings) (action trigger : Action) (m : OneShot) : Bool :=
  m.isLatched && !settings.ignores trigger action

end OneShot

namespace HostEvent

/-- Whether an event tells the host that something was turned off. -/
def takesBack : HostEvent → Bool
  | .modifiers _ => true
  | .layerOff _ => true
  | _ => false

end HostEvent

namespace Holdings

/-- The host is told more, but only that things were turned off. -/
def TakesBack (h next : Holdings) : Prop :=
  ∃ out : List HostEvent, next.journal.stream = h.journal.stream ++ out ∧
    ∀ event ∈ out, event.takesBack = true

namespace TakesBack

variable {h next last : Holdings}

/-- Where the host is told nothing more, nothing is turned off. -/
theorem of_stream (same : next.journal.stream = h.journal.stream) : TakesBack h next :=
  ⟨[], by simp [same], by simp⟩

/-- What is turned off in two steps is turned off. -/
theorem trans (first : TakesBack h next) (second : TakesBack next last) : TakesBack h last := by
  obtain ⟨out, told, only⟩ := first
  obtain ⟨more, told', only'⟩ := second
  refine ⟨out ++ more, by rw [told', told, List.append_assoc], fun event member => ?_⟩
  rcases List.mem_append.1 member with earlier | later
  · exact only event earlier
  · exact only' event later

/-- Telling the host about the modifiers counts as turning something off. -/
theorem sync (h : Holdings) : TakesBack h h.sync := by
  unfold Holdings.sync
  split
  · exact of_stream rfl
  · exact ⟨[.modifiers h.effective], stream_announce _ _, by simp [HostEvent.takesBack]⟩

/-- The host is told that a layer went off, and which modifiers are left. -/
theorem layerChanged (h : Holdings) (lm : LayerModifiers) (id : LayerId) :
    TakesBack h (h.layerChanged lm id false) := by
  have told : TakesBack h (h.tell (.layerOff id)) :=
    ⟨[.layerOff id], stream_announce _ _, by simp [HostEvent.takesBack]⟩
  have counted (h : Holdings) : TakesBack h (h.mapLayerModifiers lm id false) := by
    unfold mapLayerModifiers
    split <;> exact of_stream rfl
  have noted (h : Holdings) : TakesBack h (h.announce (.layer id false h.effective)) :=
    of_stream (by simp [Signal.host?])
  exact ((told.trans (counted _)).trans (noted _)).trans (sync _)

/-- A layer that is turned off for a reason goes off or stays on for another. -/
theorem deactivateLayer (h : Holdings) (lm : LayerModifiers) (id : LayerId) (kind : Activation) :
    TakesBack h (h.deactivateLayer lm id kind) := by
  unfold Holdings.deactivateLayer
  split
  · rename_i stack _
    have lower : TakesBack h { h with layers := stack } := of_stream rfl
    exact lower.trans (layerChanged _ lm id)
  · exact of_stream rfl

/-- A one-shot that is revoked is turned off. -/
theorem revoke (h : Holdings) (lm : LayerModifiers) (trigger : Action) :
    TakesBack h (h.revoke lm trigger) := by
  cases trigger with
  | oneShotModifier set =>
    have counted : TakesBack h (h.mapModifiers (·.removeOneShot set)) := of_stream rfl
    exact counted.trans (sync _)
  | oneShotLayer id => exact deactivateLayer h lm id .oneShot
  | _ => exact of_stream rfl

/-- One-shots that are revoked one by one are turned off. -/
theorem foldl_revoke (lm : LayerModifiers) (triggers : List Action) (h : Holdings) :
    TakesBack h (triggers.foldl (Holdings.revoke lm) h) := by
  induction triggers generalizing h with
  | nil => exact of_stream rfl
  | cons trigger rest ih => exact (revoke h lm trigger).trans (ih _)

end TakesBack

/-- Revoking a one-shot adds to the journal and never reads it. -/
theorem Appends.revoke {h : Holdings} (lm : LayerModifiers) (trigger : Action) :
    Appends (·.revoke lm trigger) h := by
  cases trigger with
  | oneShotModifier set => exact (mapModifiers _).comp sync
  | oneShotLayer id => exact deactivateLayer lm id .oneShot
  | _ => exact nothing

/-- Revoking one-shots one by one adds to the journal and never reads it. -/
theorem Appends.foldl_revoke {h : Holdings} (lm : LayerModifiers) (triggers : List Action) :
    Appends (triggers.foldl (Holdings.revoke lm)) h := by
  induction triggers generalizing h with
  | nil => exact nothing
  | cons trigger rest ih => exact (Appends.revoke lm trigger).comp ih

end Holdings

namespace OneShots

variable {shots : OneShots} {settings : Settings} {lm : LayerModifiers} {action : Action}

/-- The triggers of the one-shots that an action uses up. -/
def usedUp (settings : Settings) (action : Action) (shots : OneShots) : List Action :=
  shots.ended fun trigger m => if settings.ignores trigger action then (m, none) else m.consume

/-- The next key ends a one-shot exactly when it uses it up. -/
theorem ends_uses (settings : Settings) (action trigger : Action) (m : OneShot) :
    (m.isActive && !(if settings.ignores trigger action then (m, none) else m.consume).1.isActive) =
      m.usedUp settings action trigger := by
  cases ignored : settings.ignores trigger action with
  | true => simp [OneShot.usedUp, ignored]
  | false => simp [OneShot.usedUp, ignored, OneShot.ends_consume]

/-- An action turns off what is on for the one-shots that it uses up. -/
theorem consume_holdings (h : Holdings) : (shots.consume h settings lm action).2 =
    (shots.usedUp settings action).foldl (Holdings.revoke lm) h :=
  sweep_holdings (.uses settings action) h

/-- The host is told only of what is turned off. -/
theorem takesBack_consume (h : Holdings) : h.TakesBack (shots.consume h settings lm action).2 := by
  rw [consume_holdings]
  exact .foldl_revoke _ _ _

/-- The sets of modifiers whose one-shots are used up. -/
theorem countP_usedUp (shots : OneShots) (settings : Settings) (action : Action)
    (has : ModifierSet → Bool) :
    (shots.modifiers.ended fun set m =>
        if settings.ignores (.oneShotModifier set) action then (m, none) else m.consume).countP has =
      shots.modifiers.entries.countP fun entry =>
        entry.2.usedUp settings action (.oneShotModifier entry.1) && has entry.1 := by
  rw [Machines.ended, List.countP_map, List.countP_filter]
  refine List.countP_congr fun entry _ => ?_
  rw [ends_uses, Function.comp, Bool.and_comm]

/-- A one-shot layer is among those used up exactly when its own machine is. -/
theorem mem_usedUp (distinct : shots.layers.Distinct) {id : LayerId} :
    .oneShotLayer id ∈ shots.usedUp settings action ↔
      (shots.machine (.oneShotLayer id)).usedUp settings action (.oneShotLayer id) = true := by
  rw [← ends_uses, usedUp, ended]
  simp only [List.mem_append, List.mem_map, Action.oneShotLayer.injEq, exists_eq_right, reduceCtorEq,
    and_false, exists_false, or_false, Machines.mem_ended distinct, Bool.and_eq_true, Bool.not_eq_true']
  exact Iff.rfl

/-- Every modifier is counted once less for each one-shot that is used up and has it. -/
theorem Backed.count_consume {h : Holdings} (backed : shots.Backed h) (bit : Modifier) :
    (shots.consume h settings lm action).2.modifiers.oneShot.count bit +
        (shots.modifiers.entries.countP fun entry =>
          entry.2.usedUp settings action (.oneShotModifier entry.1) && entry.1.contains bit) =
      h.modifiers.oneShot.count bit := by
  have counted := backed.counted bit
  have used := shots.countP_usedUp settings action (·.contains bit)
  have rest := shots.modifiers.tally_sweep
    (fun set => .uses settings action (.oneShotModifier set)) (·.contains bit)
  rw [consume_holdings, usedUp, ended, List.foldl_append, Holdings.count_foldl_revoke,
    Holdings.oneShot_foldl_revoke, ← used]
  omega

/-- The layers that still wait for a key are those whose one-shots were not used up. -/
theorem Backed.mem_consume {h : Holdings} (backed : shots.Backed h) (id : LayerId) :
    ⟨id, .oneShot⟩ ∈ (shots.consume h settings lm action).2.layers.entries ↔
      ⟨id, .oneShot⟩ ∈ h.layers.entries ∧
        (shots.machine (.oneShotLayer id)).usedUp settings action (.oneShotLayer id) = false := by
  rw [consume_holdings, Holdings.mem_foldl_revoke, mem_usedUp backed.layers, Bool.not_eq_true]

/-- The next key winds down the machine of every trigger that does not ignore it. -/
theorem machine_consume (h : Holdings) (lm : LayerModifiers) (trigger : Action)
    (meant : settings.ignores trigger action = false) :
    (shots.consume h settings lm action).1.machine trigger = (shots.machine trigger).consume.1 := by
  refine (shots.machine_sweep h lm (fun trigger => ?_) trigger).trans ?_
  · split <;> rfl
  · simp [meant]

end OneShots

namespace Engine

variable {p : Profile} {s : Engine} {event : KeyEvent} {action : Action}

/-- The strokes that the press of an action types. -/
def strokes (p : Profile) (event : KeyEvent) (s : Engine) : Action → List Keystroke
  | .plain stroke | .retype stroke => [stroke]
  | .modTap _ tap | .layerTap _ tap => if s.repeatsTap p event then [tap] else []
  | .manualShift unshifted shifted => [s.holdings.chooseShifted unshifted shifted]
  | .macroSequence strokes => strokes
  | _ => []

/-- What types more than bare modifiers counts for the one-shots. -/
theorem countsOn_of_strokes (typed : (s.strokes p event action).any (!·.isModifierOnly) = true) :
    s.countsOn p event action = true := by
  cases action with
  | plain stroke => simpa [strokes, countsOn] using typed
  | modTap hold tap =>
    by_contra silent
    simp_all [strokes, countsOn]
  | layerTap id tap =>
    by_contra silent
    simp_all [strokes, countsOn]
  | manualShift unshifted shifted => rfl
  | macroSequence strokes => rfl
  | retype stroke => rfl
  | _ => cases typed

end Engine

namespace Moment

/-- The action that is the next key for the one-shots at a moment: one that goes down and types more than
bare modifiers, or that of a waiting key that is settled as such a tap. -/
def nextKey? (p : Profile) (m : Moment) : Option Action :=
  match m.deed with
  | .task (.feed event) =>
    match m.state.tapHold.head with
    | none =>
      if event.pressed && !m.state.active.contains event.key &&
          (m.state.strokes p event (m.state.resolve p event.key)).any (!·.isModifierOnly) then
        some (m.state.resolve p event.key)
      else none
    | some head =>
      if head.key == event.key && !event.pressed && head.counts then some head.action else none
  | _ => none

/-- Whether a moment has a next key that the one-shot of a trigger does not ignore. -/
def meets (p : Profile) (trigger : Action) (m : Moment) : Bool :=
  (m.nextKey? p).any (!p.settings.ignores trigger ·)

/-- What an action does at a moment as the next key for the one-shots. -/
structure Serves (p : Profile) (action : Action) (m : Moment) : Prop where
  /-- A one-shot that ignores the action keeps its machine. -/
  ignored : ∀ trigger, p.settings.ignores trigger action = true →
    (m.next p).oneShots.machine trigger = m.state.oneShots.machine trigger
  /-- One that waits for a key is turned off. -/
  latched : ∀ trigger, p.settings.ignores trigger action = false →
    (m.state.oneShots.machine trigger).isLatched = true →
      ((m.next p).oneShots.machine trigger).phase = .idle
  /-- One whose trigger just went down becomes an ordinary hold. -/
  queued : ∀ trigger since, (m.state.oneShots.machine trigger).phase = .queued since →
    p.settings.ignores trigger action = false →
      ((m.next p).oneShots.machine trigger).phase = .heldActive
  /-- Every other one keeps its machine. -/
  others : ∀ trigger, (m.state.oneShots.machine trigger).isLatched = false →
    (∀ since, (m.state.oneShots.machine trigger).phase ≠ .queued since) →
      (m.next p).oneShots.machine trigger = m.state.oneShots.machine trigger
  /-- Every modifier is counted once less for each one-shot that was used up and has it. -/
  modifiers : ∀ bit, (m.next p).holdings.modifiers.oneShot.count bit +
      (m.state.oneShots.modifiers.entries.countP fun entry =>
        entry.2.usedUp p.settings action (.oneShotModifier entry.1) && entry.1.contains bit) =
    m.state.holdings.modifiers.oneShot.count bit
  /-- The layers that still wait for a key are those whose one-shots were not used up. -/
  layers : ∀ id, ⟨id, .oneShot⟩ ∈ (m.next p).holdings.layers.entries ↔
    ⟨id, .oneShot⟩ ∈ m.state.holdings.layers.entries ∧
      (m.state.oneShots.machine (.oneShotLayer id)).usedUp p.settings action (.oneShotLayer id) = false
  /-- The host is told of the strokes as if there were no one-shots, and after them only of what was
  turned off. -/
  strokes : (m.state.holdings.types action).TakesBack (m.next p).holdings

/-- The strokes of an action are typed at a moment, and then the one-shots are told; what else is noted
does not matter. -/
structure Tells (p : Profile) (action : Action) (m : Moment) : Prop where
  /-- The one-shots are told. -/
  oneShots : (m.next p).oneShots = ((m.state.mapHoldings (·.types action)).consume p action).oneShots
  /-- What is on, and what the host sees, comes from the strokes and the one-shots alone. -/
  holdings : (m.next p).holdings.Same ((m.state.mapHoldings (·.types action)).consume p action).holdings

end Moment

namespace Engine

variable {p : Profile} {s : Engine} {event : KeyEvent} {action : Action}

/-- To tell the one-shots of an action only adds to the journal. -/
theorem appends_consume (p : Profile) (s : Engine) (action : Action) (h : Holdings) :
    Holdings.Appends (s.oneShots.consume · p.settings p.layerModifiers action |>.2) h :=
  .congr (fun _ => OneShots.consume_holdings _)
    (.foldl_revoke p.layerModifiers (s.oneShots.usedUp p.settings action))

/-- The action of a key that goes down with nothing waiting is told to the one-shots if it counts. -/
theorem tells_of_counts (idle : s.tapHold.head = none) (pressed : event.pressed = true)
    (up : s.active.contains event.key = false)
    (counts : s.countsOn p event (s.resolve p event.key) = true) :
    Moment.Tells p (s.resolve p event.key) ⟨s, .task (.feed event)⟩ := by
  have noted : (s.announce (.dispatched event)).holdings.Same s.holdings :=
    (Holdings.Same.refl s.holdings).note rfl
  have counts : countsOn p event ((s.announce (.dispatched event)).readied event)
      (s.resolve p event.key) = true := (countsOn_readied event _).trans counts
  have done : ((s.announce (.dispatched event)).performed p event).2 = _ := perform_of_counts counts
  have next := next_of_press (p := p) idle pressed up
  rw [done] at next
  constructor
  · rw [next]
    rfl
  · rw [next]
    exact ((noted.apply (.types (s.resolve p event.key))).apply (appends_consume p s _ _)).note rfl

/-- The action of a waiting key that is settled as its tap is told to the one-shots if the tap counts. -/
theorem tells_of_settled {head : PendingKey} (waiting : s.tapHold.head = some head)
    (same : head.key = event.key) (released : event.pressed = false) (counts : head.counts = true) :
    Moment.Tells p head.action ⟨s, .task (.feed event)⟩ := by
  have noted : (s.marked .tap head).holdings.Same s.holdings :=
    (Holdings.Same.refl s.holdings).note rfl
  have done : s.settled p .tap head =
      ((s.marked .tap head).mapHoldings (·.types head.action)).consume p head.action := by
    have spec := settlement_spec p .tap head s
    generalize s.settled p .tap head = next at spec ⊢
    cases spec with
    | types => rfl
    | spares silent => exact absurd ((silent rfl).symm.trans counts) Bool.false_ne_true
  constructor
  · rw [next_of_lift waiting same released, done]
    rfl
  · rw [next_of_lift waiting same released, done]
    exact (noted.apply (.types head.action)).apply (appends_consume p s _ _)

/-- The one-shots are told of the next key. -/
theorem tells_of_nextKey {m : Moment} (serves : m.nextKey? p = some action) : m.Tells p action := by
  obtain ⟨s, deed⟩ := m
  cases deed with
  | elapse now => cases serves
  | cancel => cases serves
  | task task =>
    cases task with
    | expire now => cases serves
    | feed event =>
      cases waiting : s.tapHold.head with
      | none =>
        simp only [Moment.nextKey?, waiting, Option.ite_none_right_eq_some, Bool.and_eq_true,
          Bool.not_eq_true', Option.some.injEq] at serves
        obtain ⟨⟨⟨pressed, up⟩, typed⟩, rfl⟩ := serves
        exact tells_of_counts waiting pressed up (countsOn_of_strokes typed)
      | some head =>
        simp only [Moment.nextKey?, waiting, Option.ite_none_right_eq_some, Bool.and_eq_true,
          Bool.not_eq_true', beq_iff_eq, Option.some.injEq] at serves
        obtain ⟨⟨⟨same, released⟩, counts⟩, rfl⟩ := serves
        exact tells_of_settled waiting same released counts

/-- What becomes of the one-shots that are told of an action. -/
theorem serves_of_tells {m : Moment} (backed : m.state.oneShots.Backed m.state.holdings)
    (told : m.Tells p action) : m.Serves p action := by
  obtain ⟨oneShots, same⟩ := told
  have typed : m.state.holdings.Alike (m.state.holdings.types action) := .types action
  have still : m.state.oneShots.Backed (m.state.holdings.types action) := backed.congr typed.spares
  have consumed (trigger : Action) (meant : p.settings.ignores trigger action = false) :
      (m.next p).oneShots.machine trigger = (m.state.oneShots.machine trigger).consume.1 := by
    rw [oneShots]
    exact OneShots.machine_consume (m.state.holdings.types action) p.layerModifiers trigger meant
  have ignored (trigger : Action) (ignored : p.settings.ignores trigger action = true) :
      (m.next p).oneShots.machine trigger = m.state.oneShots.machine trigger := by
    rw [oneShots]
    exact machine_consume_of_ignored ignored
  constructor
  case ignored => exact ignored
  case latched =>
    intro trigger meant latched
    rw [consumed trigger meant]
    exact OneShot.phase_consume_of_latched latched
  case queued =>
    intro trigger since queued meant
    rw [consumed trigger meant]
    exact OneShot.phase_consume_of_queued queued
  case others =>
    intro trigger unlatched unqueued
    cases meant : p.settings.ignores trigger action with
    | true => exact ignored trigger meant
    | false =>
      rw [consumed trigger meant]
      exact OneShot.consume_of_still unlatched unqueued
  case modifiers =>
    intro bit
    have turned : (m.next p).holdings.modifiers = (m.state.oneShots.consume
        (m.state.holdings.types action) p.settings p.layerModifiers action).2.modifiers :=
      (congrArg Holdings.modifiers same.parts).symm
    rw [turned, still.count_consume, typed.oneShot]
  case layers =>
    intro id
    have turned : (m.next p).holdings.layers = (m.state.oneShots.consume
        (m.state.holdings.types action) p.settings p.layerModifiers action).2.layers :=
      (congrArg Holdings.layers same.parts).symm
    rw [turned, still.mem_consume, typed.layers]
  case strokes =>
    exact (OneShots.takesBack_consume _).trans (.of_stream same.stream.symm)

/-- As long as a one-shot waits for a key, it meets one next key at most. -/
theorem Leads.meets_le_one {waits : List Moment} {t : Engine} {trigger : Action}
    (leads : Leads p s waits t) (backed : s.oneShots.Backed s.holdings)
    (latched : ∀ m ∈ waits, (m.state.oneShots.machine trigger).isLatched = true) :
    waits.countP (·.meets p trigger) ≤ 1 := by
  induction waits generalizing s with
  | nil => exact Nat.zero_le 1
  | cons m rest ih =>
    obtain ⟨rfl, later⟩ := leads
    rw [List.countP_cons]
    cases meets : m.meets p trigger with
    | false =>
      have fewer := ih later ((Turned.moment p m).backed backed) fun n member =>
        latched n (.tail _ member)
      simpa using fewer
    | true =>
      obtain ⟨action, serves, meant⟩ := (Option.any_eq_true _ _).1 meets
      have off : ((m.next p).oneShots.machine trigger).phase = .idle :=
        (serves_of_tells backed (tells_of_nextKey serves)).latched trigger (by simpa using meant) (latched m (.head _))
      -- The one-shot is turned off, so that no later moment finds it waiting.
      cases rest with
      | nil => simp
      | cons n more =>
        have waits := latched n (.tail _ (.head _))
        rw [later.1, OneShot.isLatched, off] at waits
        cases waits

/-- A one-shot lasts for one key. In every run of calls: each moment at which an action is the next key
for the one-shots serves them all; and as long as a one-shot waits for a key, there is one moment at most
with a next key that it does not ignore. -/
theorem one_key_each (p : Profile) (calls : List Call) :
    (∀ m ∈ start.course p calls, ∀ action, m.nextKey? p = some action → m.Serves p action) ∧
    ∀ trigger before waits rest, start.course p calls = before ++ waits ++ rest →
      (∀ m ∈ waits, (m.state.oneShots.machine trigger).isLatched = true) →
        waits.countP (·.meets p trigger) ≤ 1 := by
  constructor
  · intro m member action serves
    exact serves_of_tells (backed_of_mem_course member) (tells_of_nextKey serves)
  · intro trigger before waits rest split latched
    have course := leads_course p start calls
    rw [split] at course
    obtain ⟨u, within, -⟩ := leads_append.1 course
    obtain ⟨v, first, leads⟩ := leads_append.1 within
    exact leads.meets_le_one (first.backed backed_start) latched

/-- The press of the key behind both one-shots gets its turn. -/
def keyBehindBoth : Moment :=
  ⟨(after .mixed (Call.latchedBoth.take 4)).tick .mixed (.ofWord 40),
    .task (.feed ⟨⟨1⟩, true, .ofWord 40⟩)⟩

set_option maxRecDepth 10000 in
/-- Both one-shots wait for the key, which means what the layer above says; both are used up by it, and
the host sees the shift go off after the key went down. -/
theorem one_key_each_both :
    keyBehindBoth.nextKey? .mixed = some (.plain (.ofCode .c)) ∧
    (keyBehindBoth.state.oneShots.machine shiftTrigger).isLatched = true ∧
    (keyBehindBoth.state.oneShots.machine (.oneShotLayer 1)).isLatched = true ∧
    keyBehindBoth.Serves .mixed (.plain (.ofCode .c)) ∧
    ((keyBehindBoth.next .mixed).oneShots.machine shiftTrigger).phase = .idle ∧
    ((keyBehindBoth.next .mixed).oneShots.machine (.oneShotLayer 1)).phase = .idle ∧
    (keyBehindBoth.next .mixed).journal.stream =
      [.modifiers (.single .leftShift), .layerOn 1, .press .c, .layerOff 1, .modifiers ∅] := by
  have last : (start.course .mixed Call.latchedBoth).getLast? = some keyBehindBoth := by cbv
  have next : keyBehindBoth.nextKey? .mixed = some (.plain (.ofCode .c)) := by cbv
  have shift : (keyBehindBoth.state.oneShots.machine shiftTrigger).isLatched = true := by cbv
  have layer : (keyBehindBoth.state.oneShots.machine (.oneShotLayer 1)).isLatched = true := by cbv
  have serves := (one_key_each .mixed Call.latchedBoth).1 keyBehindBoth (List.mem_of_getLast? last) _ next
  exact ⟨next, shift, layer, serves, serves.latched _ (by decide) shift,
    serves.latched _ (by decide) layer, by cbv⟩

end Engine

end KeyEngine
