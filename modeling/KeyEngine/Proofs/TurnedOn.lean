import KeyEngine.Proofs.Effects
import KeyEngine.Proofs.Machines
import KeyEngine.Proofs.Timers

/-!
# What one-shots turn on

The machines of the one-shots only answer what is to be done; it is done elsewhere, to counts of
modifiers and to the stack of layers. `Backed` says that the machines account for what is on: every
modifier is counted once for each machine that is on and has it, and no layer waits for a key without
its machine. `Turned` lists what a deed can do to the one-shots, and each of these keeps the account, so
that `one_shots_in_step` follows for whole runs. In one way only can a machine be on without its layer:
there was no room for the layer when the machine was turned on.
-/

namespace KeyEngine

namespace Holdings

/-- One-shot modifiers are counted the same, and the same layers wait for a key. -/
structure Spares (h next : Holdings) : Prop where
  /-- The same layers wait. -/
  reasons : h.SameReasons .oneShot next
  /-- The modifiers are counted the same. -/
  oneShot : next.modifiers.oneShot = h.modifiers.oneShot

/-- Where layers and one-shot modifiers are alike, the one-shots are spared. -/
theorem Alike.spares {h next : Holdings} (alike : h.Alike next) : h.Spares next :=
  ⟨.of_layers alike.layers, alike.oneShot⟩

/-- What spares the one-shots in two steps spares them. -/
theorem Spares.trans {h next last : Holdings} (first : h.Spares next) (second : next.Spares last) :
    h.Spares last :=
  ⟨first.reasons.trans second.reasons, second.oneShot.trans first.oneShot⟩

namespace Spares

variable (h : Holdings) (lm : LayerModifiers) (id : LayerId)

/-- A layer that a key takes spares the one-shots. -/
theorem activateLayer : h.Spares (h.activateLayer lm id .held) :=
  ⟨sameReasons_activateLayer (by decide), oneShot_activateLayer id .held⟩

/-- A layer that a key lets go spares the one-shots. -/
theorem deactivateLayer : h.Spares (h.deactivateLayer lm id .held) :=
  ⟨sameReasons_deactivateLayer (by decide), oneShot_deactivateLayer id .held⟩

/-- A layer that is toggled spares the one-shots. -/
theorem toggleLayer : h.Spares (h.toggleLayer lm id) := by
  refine ⟨sameReasons_toggleLayer (by decide), ?_⟩
  unfold Holdings.toggleLayer
  split
  · exact oneShot_deactivateLayer id .toggled
  · exact oneShot_activateLayer id .toggled

end Spares

section
variable (h : Holdings) (lm : LayerModifiers) {id : LayerId} (change : Option OneShotChange)

/-- An answer for modifiers concerns no layer. -/
theorem layers_answer (set : ModifierSet) :
    (change.elim h (h.applyOneShotModifiers set)).layers = h.layers := by
  cases change with
  | none => rfl
  | some change => exact layers_applyOneShotModifiers set change

/-- An answer for a layer concerns no one-shot modifiers. -/
theorem oneShot_answer :
    (change.elim h (h.applyOneShotLayer lm id)).modifiers.oneShot = h.modifiers.oneShot := by
  rcases change with - | - | -
  · rfl
  · exact oneShot_activateLayer id .oneShot
  · exact oneShot_deactivateLayer id .oneShot

/-- An answer for a layer concerns no other layer. -/
theorem mem_answer_of_ne {other : LayerId} (differs : other ≠ id) :
    ⟨other, .oneShot⟩ ∈ (change.elim h (h.applyOneShotLayer lm id)).layers.entries ↔
      ⟨other, .oneShot⟩ ∈ h.layers.entries := by
  rcases change with - | - | -
  · exact Iff.rfl
  · show _ ∈ (h.activateLayer lm id .oneShot).layers.entries ↔ _
    rw [layers_activateLayer]
    exact LayerStack.mem_activate_of_ne (by simp [differs])
  · show _ ∈ (h.deactivateLayer lm id .oneShot).layers.entries ↔ _
    rw [layers_deactivateLayer, LayerStack.mem_deactivate]
    exact and_iff_left (by simp [differs])

end

section
variable (lm : LayerModifiers) (triggers : List Action) (h : Holdings)

/-- Turning one-shots off takes back their layers. -/
theorem mem_foldl_revoke (id : LayerId) :
    ⟨id, .oneShot⟩ ∈ (triggers.foldl (revoke lm) h).layers.entries ↔
      ⟨id, .oneShot⟩ ∈ h.layers.entries ∧ .oneShotLayer id ∉ triggers := by
  induction triggers generalizing h with
  | nil => simp
  | cons trigger rest ih =>
    have first : ⟨id, .oneShot⟩ ∈ (h.revoke lm trigger).layers.entries ↔
        ⟨id, .oneShot⟩ ∈ h.layers.entries ∧ .oneShotLayer id ≠ trigger := by
      cases trigger with
      | oneShotModifier set => simp [revoke, layers_applyOneShotModifiers]
      | oneShotLayer other =>
        simp [revoke, applyOneShotLayer, layers_deactivateLayer, LayerStack.mem_deactivate]
      | _ => simp [revoke]
    rw [List.foldl_cons, ih, first, List.mem_cons, not_or, and_assoc]

/-- Turning one-shots off counts their modifiers no longer. -/
theorem count_foldl_revoke (m : Modifier) (sets : List ModifierSet) :
    ((sets.map .oneShotModifier).foldl (revoke lm) h).modifiers.oneShot.count m =
      h.modifiers.oneShot.count m - sets.countP (·.contains m) := by
  induction sets generalizing h with
  | nil => rfl
  | cons set rest ih =>
    have first : (h.revoke lm (.oneShotModifier set)).modifiers.oneShot.count m =
        h.modifiers.oneShot.count m - if set.contains m = true then 1 else 0 := by
      simp only [revoke, applyOneShotModifiers, modifiers_sync, modifiers_mapModifiers,
        ModifierState.removeOneShot, Tally.count_remove]
      split <;> rfl
    rw [List.map_cons, List.foldl_cons, ih, first, List.countP_cons]
    omega

/-- Turning off the one-shots of layers changes no count of one-shot modifiers. -/
theorem oneShot_foldl_revoke (ids : List LayerId) :
    ((ids.map .oneShotLayer).foldl (revoke lm) h).modifiers.oneShot = h.modifiers.oneShot := by
  induction ids generalizing h with
  | nil => rfl
  | cons id rest ih =>
    rw [List.map_cons, List.foldl_cons, ih]
    exact oneShot_deactivateLayer id .oneShot

end

end Holdings

namespace OneShots

variable {shots : OneShots} {h next : Holdings} {lm : LayerModifiers} {trigger : Action}
  {f : OneShot → OneShot × Option OneShotChange}
  {each : Action → OneShot → OneShot × Option OneShotChange}

/-- The triggers of the one-shots that a transition of all machines turns off. -/
def ended (each : Action → OneShot → OneShot × Option OneShotChange) (shots : OneShots) :
    List Action :=
  (shots.layers.ended fun id => each (.oneShotLayer id)).map .oneShotLayer ++
    (shots.modifiers.ended fun set => each (.oneShotModifier set)).map .oneShotModifier

/-- A transition that winds all machines down turns off what is on for those that it turns off. -/
theorem sweep_holdings (winds : ∀ trigger, OneShot.WindsDown (each trigger)) (h : Holdings) :
    (shots.sweep h lm each).2 = (shots.ended each).foldl (Holdings.revoke lm) h := by
  unfold sweep
  dsimp only
  rw [Machines.answers_sweep fun id => winds (.oneShotLayer id),
    Machines.answers_sweep fun set => winds (.oneShotModifier set), ended, List.foldl_append]
  simp only [List.foldl_map]
  rfl

/-- The machines account for what one-shots turned on: every modifier is counted once for each machine
that is on and has it, and every layer that waits for a key has a machine that is on. -/
structure Backed (shots : OneShots) (h : Holdings) : Prop where
  /-- Every set of modifiers has one machine at most. -/
  modifiers : shots.modifiers.Distinct
  /-- Every layer has one machine at most. -/
  layers : shots.layers.Distinct
  /-- The modifiers are counted as often as machines are on for them. -/
  counted : ∀ m, h.modifiers.oneShot.count m = shots.modifiers.tally (·.contains m)
  /-- A layer that waits for a key has a machine that is on. -/
  owned : ∀ id, ⟨id, .oneShot⟩ ∈ h.layers.entries → (shots.layers.get id).isActive = true

namespace Backed

/-- The machines account for what is on as long as the one-shots are spared. -/
theorem congr (backed : shots.Backed h) (spares : h.Spares next) : shots.Backed next where
  modifiers := backed.modifiers
  layers := backed.layers
  counted m := by rw [spares.oneShot, backed.counted]
  owned id listed := backed.owned id ((spares.reasons id).1 listed)

/-- A change of a machine for modifiers, with its answer. -/
theorem setModifiers (backed : shots.Backed h) (set : ModifierSet) (m : OneShot) :
    Backed { shots with modifiers := shots.modifiers.set set m }
      ((OneShot.changeBetween (shots.modifiers.get set) m).elim h (h.applyOneShotModifiers set)) where
  modifiers := backed.modifiers.set set m
  layers := backed.layers
  counted bit := by
    have before := backed.counted bit
    have turns := Machines.tally_set backed.modifiers set m (·.contains bit)
    have few := Machines.tally_le (backed.modifiers.set set m) bit
    cases was : (shots.modifiers.get set).isActive <;> cases is : m.isActive <;>
      cases has : set.contains bit <;>
      simp [OneShot.changeBetween, Holdings.applyOneShotModifiers, ModifierState.addOneShot,
        ModifierState.removeOneShot, was, is, has] at turns ⊢ <;> omega
  owned id listed := by
    rw [Holdings.layers_answer] at listed
    exact backed.owned id listed

/-- A change of a machine for a layer, with its answer. -/
theorem setLayer (backed : shots.Backed h) (lm : LayerModifiers) (id : LayerId) (m : OneShot) :
    Backed { shots with layers := shots.layers.set id m }
      ((OneShot.changeBetween (shots.layers.get id) m).elim h (h.applyOneShotLayer lm id)) where
  modifiers := backed.modifiers
  layers := backed.layers.set id m
  counted bit := by
    rw [Holdings.oneShot_answer]
    exact backed.counted bit
  owned other listed := by
    show ((shots.layers.set id m).get other).isActive = true
    rw [Machines.get_set]
    split
    · rename_i same
      subst same
      -- A machine that is off afterwards was off before, or its layer was taken back.
      cases is : m.isActive with
      | true => rfl
      | false =>
        cases was : (shots.layers.get other).isActive with
        | false =>
          simp only [OneShot.changeBetween, was, is, if_true, Option.elim_none] at listed
          exact absurd (was.symm.trans (backed.owned other listed)) Bool.false_ne_true
        | true =>
          simp [OneShot.changeBetween, was, is, Holdings.applyOneShotLayer,
            LayerStack.mem_deactivate] at listed
    · rename_i differs
      exact backed.owned other ((Holdings.mem_answer_of_ne h lm _ differs).1 listed)

/-- A transition of one machine that answers with its change. -/
theorem step (backed : shots.Backed h) (answers : ∀ m, (f m).2 = OneShot.changeBetween m (f m).1) :
    (shots.step h lm trigger f).1.Backed (shots.step h lm trigger f).2 := by
  cases trigger with
  | oneShotModifier set =>
    have changed := backed.setModifiers set (f (shots.modifiers.get set)).1
    rw [← answers] at changed
    exact changed
  | oneShotLayer id =>
    have changed := backed.setLayer lm id (f (shots.layers.get id)).1
    rw [← answers] at changed
    exact changed
  | _ => exact backed

/-- A transition that winds all machines down. -/
theorem sweep (backed : shots.Backed h) (winds : ∀ trigger, OneShot.WindsDown (each trigger)) :
    (shots.sweep h lm each).1.Backed (shots.sweep h lm each).2 where
  modifiers := backed.modifiers.sweep fun set => each (.oneShotModifier set)
  layers := backed.layers.sweep fun id => each (.oneShotLayer id)
  counted m := by
    have turned := shots.modifiers.tally_sweep (fun set => winds (.oneShotModifier set)) (·.contains m)
    rw [sweep_holdings winds, ended, List.foldl_append, Holdings.count_foldl_revoke,
      Holdings.oneShot_foldl_revoke, backed.counted]
    exact (Nat.eq_sub_of_add_eq turned).symm
  owned id listed := by
    rw [sweep_holdings winds, Holdings.mem_foldl_revoke] at listed
    have on := backed.owned id listed.1
    have kept : id ∉ shots.layers.ended fun id => each (.oneShotLayer id) := fun off =>
      listed.2 (List.mem_append_left _ (List.mem_map_of_mem off))
    show ((shots.layers.sweep fun id => each (.oneShotLayer id)).1.get id).isActive = true
    rw [Machines.get_sweep_of_isActive on]
    simpa [Machines.mem_ended backed.layers, on] using kept

/-- Where everything is released and every machine is turned off, nothing is on. -/
theorem cancel (backed : shots.Backed h) (layers : next.layers = .empty)
    (oneShot : next.modifiers.oneShot = .empty) : shots.cancel.Backed next where
  modifiers := backed.modifiers.sweep fun _ m => (m.cancel, none)
  layers := backed.layers.sweep fun _ m => (m.cancel, none)
  counted m := by
    have off : shots.cancel.modifiers.tally (·.contains m) = 0 := by
      show (shots.modifiers.entries.map _).countP _ = 0
      simp [List.countP_map, List.countP_eq_zero, OneShot.cancel, OneShot.reset, OneShot.isActive]
    rw [oneShot, off]
    exact Tally.count_empty m
  owned id listed := by
    rw [layers] at listed
    cases listed

end Backed

/-- A transition of one machine leaves those of other layers as they are. -/
theorem get_step (id : LayerId) : (shots.step h lm trigger f).1.layers.get id =
    if trigger = .oneShotLayer id then (f (shots.layers.get id)).1 else shots.layers.get id := by
  cases trigger with
  | oneShotLayer other =>
    refine (Machines.get_set shots.layers other id _).trans ?_
    by_cases same : id = other
    · simp [same]
    · simp [same, Ne.symm same]
  | _ => simp [step]

/-- What can be done to the one-shots, and to what they turn on. -/
inductive Move (lm : LayerModifiers) (shots : OneShots) (h : Holdings) : OneShots × Holdings → Prop where
  /-- One machine moves and answers with its change. -/
  | one (trigger : Action) {f : OneShot → OneShot × Option OneShotChange}
      (answers : ∀ m, (f m).2 = OneShot.changeBetween m (f m).1) :
      Move lm shots h (shots.step h lm trigger f)
  /-- All machines wind down. -/
  | all {each : Action → OneShot → OneShot × Option OneShotChange}
      (winds : ∀ trigger, OneShot.WindsDown (each trigger)) : Move lm shots h (shots.sweep h lm each)

namespace Move

variable {result : OneShots × Holdings} {id : LayerId} {settings : Settings}

/-- A trigger that goes down moves its own machine. -/
theorem press (trigger : Action) (time : Millis) :
    shots.Move lm h (shots.press h settings lm trigger time) :=
  .one trigger (OneShot.press_change settings time)

/-- A trigger that goes up moves its own machine. -/
theorem release (trigger : Action) (time : Millis) :
    shots.Move lm h (shots.release h settings lm trigger time) :=
  .one trigger (OneShot.release_change settings time)

/-- Time winds all machines down. -/
theorem tick (now : Millis) : shots.Move lm h (shots.tick h settings lm now) :=
  .all fun _ => .tick settings now

/-- The next key winds all machines down. -/
theorem consume (action : Action) : shots.Move lm h (shots.consume h settings lm action) :=
  .all fun trigger => .uses settings action trigger

/-- A move of the one-shots keeps their account of what is on. -/
theorem backed (move : shots.Move lm h result) (backed : shots.Backed h) :
    result.1.Backed result.2 := by
  cases move with
  | one trigger answers => exact backed.step answers
  | all winds => exact backed.sweep winds

/-- Layers that are on for other reasons are not concerned. -/
theorem sameReasons (move : shots.Move lm h result) {kind : Activation} (differs : kind ≠ .oneShot) :
    h.SameReasons kind result.2 := by
  have durable : Holdings.OneShotDurable lm (h.SameReasons kind) := by
    constructor
    case applyOneShotLayer =>
      intro next id change same
      cases change with
      | apply => exact same.trans (Holdings.sameReasons_activateLayer differs)
      | revoke => exact same.trans (Holdings.sameReasons_deactivateLayer differs)
    case applyOneShotModifiers =>
      intro next set change same
      exact same.trans (.of_layers (Holdings.layers_applyOneShotModifiers set change))
  have still : h.SameReasons kind h := .of_layers rfl
  cases move with
  | one trigger answers => exact durable.step shots trigger _ still
  | all winds => exact durable.sweep shots _ still

/-- A machine that is turned on has its layer from then on, unless that is the base layer or there is no
room. -/
theorem opens (move : shots.Move lm h result) (off : (shots.layers.get id).isActive = false)
    (on : (result.1.layers.get id).isActive = true) (above : id ≠ baseLayer) :
    ⟨id, .oneShot⟩ ∈ result.2.layers.entries ↔ (h.layers.activate id .oneShot).2 ≠ .refused := by
  cases move with
  | @one trigger f answers =>
    rw [get_step] at on
    split at on
    · rename_i own
      subst own
      have opened : (shots.step h lm (.oneShotLayer id) f).2 = h.activateLayer lm id .oneShot := by
        show Option.elim (f (shots.layers.get id)).2 h _ = _
        rw [answers, OneShot.changeBetween, off, on]
        rfl
      rw [opened, Holdings.layers_activateLayer, LayerStack.mem_activate_self above]
    · rw [off] at on
      cases on
  | @all each winds =>
    have still := Machines.isActive_sweep_of_off (fun id => winds (.oneShotLayer id)) off
    exact absurd (still.symm.trans on) Bool.false_ne_true

/-- A machine that stays on keeps its layer. -/
theorem keeps (move : shots.Move lm h result) (backed : shots.Backed h)
    (on : (result.1.layers.get id).isActive = true) (listed : ⟨id, .oneShot⟩ ∈ h.layers.entries) :
    ⟨id, .oneShot⟩ ∈ result.2.layers.entries := by
  cases move with
  | @one trigger f answers =>
    rw [get_step] at on
    cases trigger with
    | oneShotModifier set =>
      show _ ∈ (Option.elim (f (shots.modifiers.get set)).2 h _).layers.entries
      rw [Holdings.layers_answer]
      exact listed
    | oneShotLayer other =>
      show _ ∈ (Option.elim (f (shots.layers.get other)).2 h _).layers.entries
      by_cases same : id = other
      · subst same
        rw [if_pos rfl] at on
        -- A machine that is on afterwards does not answer that its layer is to be taken back.
        rw [answers, OneShot.changeBetween, backed.owned id listed, on]
        exact listed
      · exact (Holdings.mem_answer_of_ne h lm _ same).2 listed
    | _ => exact listed
  | @all each winds =>
    have was := backed.owned id listed
    have still : ((shots.layers.sweep fun id => each (.oneShotLayer id)).1.get id).isActive = true := on
    rw [Machines.get_sweep_of_isActive was] at still
    have stays : .oneShotLayer id ∉ shots.ended each := by
      simp [ended, Machines.mem_ended backed.layers, still]
    rw [sweep_holdings winds, Holdings.mem_foldl_revoke]
    exact ⟨listed, stays⟩

end Move

end OneShots

namespace Engine

variable {p : Profile} {s next : Engine}

/-- What one deed does to the one-shots, and to what they turn on. -/
inductive Turned (p : Profile) (s next : Engine) : Prop where
  /-- It leaves them alone. -/
  | rests (oneShots : next.oneShots = s.oneShots) (spares : s.holdings.Spares next.holdings)
  /-- It moves them once. -/
  | moves {before : Holdings} {result : OneShots × Holdings} (alike : s.holdings.Alike before)
      (move : s.oneShots.Move p.layerModifiers before result) (oneShots : next.oneShots = result.1)
      (spares : result.2.Spares next.holdings)
  /-- It turns all of them off and releases everything. -/
  | cancels (oneShots : next.oneShots = s.oneShots.cancel) (layers : next.holdings.layers = .empty)
      (oneShot : next.holdings.modifiers.oneShot = .empty)

namespace Turned

/-- Nothing is turned where layers and one-shot modifiers are alike and the machines stand where they
stood. -/
theorem of_alike (alike : s.holdings.Alike next.holdings) (oneShots : next.oneShots = s.oneShots) :
    Turned p s next :=
  .rests oneShots alike.spares

/-- What does not concern the one-shots may come before and after. -/
theorem congr {before after last : Engine} (turned : Turned p before after)
    (first : s.holdings.Alike before.holdings) (same : before.oneShots = s.oneShots)
    (later : after.holdings.Alike last.holdings) (still : last.oneShots = after.oneShots) :
    Turned p s last := by
  cases turned with
  | rests oneShots spares =>
    exact .rests (still.trans (oneShots.trans same)) ((first.spares.trans spares).trans later.spares)
  | moves alike move oneShots spares =>
    exact .moves (first.trans alike) (same ▸ move) (still.trans oneShots) (spares.trans later.spares)
  | cancels oneShots layers oneShot =>
    exact .cancels (still.trans (same ▸ oneShots)) (later.layers.trans layers)
      (later.oneShot.trans oneShot)

/-- A cancel turns all one-shots off. -/
theorem cancel (s : Engine) : Turned p s (s.cancel p) :=
  .cancels rfl (Holdings.layers_releaseEverything _ _)
    (congrArg ModifierState.oneShot (Holdings.modifiers_releaseEverything _ _))

/-- Typing strokes that count moves the one-shots once. -/
theorem types (s : Engine) (action : Action) :
    Turned p s ((s.mapHoldings (·.types action)).consume p action) :=
  .moves (.types action) (.consume action) rfl (Holdings.Alike.refl _).spares

/-- A layer that a key takes leaves the one-shots alone. -/
theorem activateLayer (s : Engine) (id : LayerId) :
    Turned p s (s.mapHoldings (·.activateLayer p.layerModifiers id .held)) :=
  .rests rfl (.activateLayer s.holdings p.layerModifiers id)

/-- A layer that a key lets go leaves the one-shots alone. -/
theorem deactivateLayer (s : Engine) (id : LayerId) :
    Turned p s (s.mapHoldings (·.deactivateLayer p.layerModifiers id .held)) :=
  .rests rfl (.deactivateLayer s.holdings p.layerModifiers id)

/-- A layer that is toggled leaves the one-shots alone. -/
theorem toggleLayer (s : Engine) (id : LayerId) :
    Turned p s (s.mapHoldings (·.toggleLayer p.layerModifiers id)) :=
  .rests rfl (.toggleLayer s.holdings p.layerModifiers id)

/-- The press of an action leaves the one-shots alone, moves them once, or cancels them. -/
theorem perform (event : KeyEvent) (action : Action) (s : Engine) :
    Turned p s (s.perform p event action).2 := by
  have spec := effect_spec p event action s
  generalize s.perform p event action = result at spec ⊢
  cases spec with
  | types => exact types s action
  | triggers => exact .moves (.refl _) (.press action event.time) rfl (Holdings.Alike.refl _).spares
  | holds => exact of_alike (.holdModifiers _) rfl
  | takes id => exact activateLayer s id
  | toggles id => exact toggleLayer s id
  | cancels => exact cancel s
  | waits tapHold => exact of_alike (.refl _) rfl

/-- The release of a key leaves the one-shots alone or moves that of its trigger. -/
theorem undo (event : KeyEvent) (entry : ActiveKey) (s : Engine) :
    Turned p s (s.undo p event entry) := by
  have spec := undone_spec p event entry s
  generalize s.undo p event entry = next at spec ⊢
  cases spec with
  | lets id => exact deactivateLayer s id
  | lifts =>
    exact .moves (.refl _) (.release entry.action event.time) rfl (Holdings.Alike.refl _).spares
  | frees _ alike oneShots => exact of_alike alike oneShots

/-- Settling a waiting key leaves the one-shots alone or moves them once. -/
theorem settled (decision : Decision) (head : PendingKey) (s : Engine) :
    Turned p s (s.settled p decision head) := by
  have noted (decision : Decision) : s.holdings.Alike (s.marked decision head).holdings :=
    .announce _ _
  have spec := settlement_spec p decision head s
  generalize s.settled p decision head = next at spec ⊢
  cases spec with
  | types => exact (types _ head.action).congr (noted .tap) rfl (.refl _) rfl
  | takes id => exact (activateLayer _ id).congr (noted .hold) rfl (.refl _) rfl
  | spares _ _ alike oneShots => exact of_alike alike oneShots

/-- Acting on an event leaves the one-shots alone, moves them once, or cancels them. -/
theorem dispatch (event : KeyEvent) (s : Engine) : Turned p s (s.dispatch p event) := by
  have noted : s.holdings.Alike (s.announce (.dispatched event)).holdings := .announce _ _
  unfold Engine.dispatch
  dsimp only
  split
  · cases up : (s.announce (.dispatched event)).active.contains event.key with
    | true =>
      rw [press_of_down up]
      exact of_alike (noted.trans (.announce _ _)) rfl
    | false =>
      rw [press_of_up up]
      exact (perform event _ ((s.announce (.dispatched event)).readied event)).congr noted rfl
        (.announce _ _) rfl
  · cases found : (s.announce (.dispatched event)).active.find? event.key with
    | none =>
      rw [release_of_up found]
      exact of_alike (noted.trans (.announce _ _)) rfl
    | some entry =>
      rw [release_of_down found]
      have undone : Turned p ({ s.announce (.dispatched event) with
          active := (s.announce (.dispatched event)).active.remove event.key }) _ := undo event entry _
      exact undone.congr noted rfl (.announce _ _) rfl

/-- Every deed does one of these things. -/
theorem moment (p : Profile) (m : Moment) : Turned p m.state (m.next p) := by
  obtain ⟨s, deed⟩ := m
  cases deed with
  | elapse now => exact .moves (.refl _) (.tick now) rfl (Holdings.Alike.refl _).spares
  | cancel => exact cancel s
  | task task =>
    have taken := step_spec p s task
    show Turned p s (step p s task).1
    generalize (step p s task).1 = result, (step p s task).2 = more at taken ⊢
    cases taken with
    | early => exact of_alike (.refl _) rfl
    | due => exact settled .hold _ s
    | act => exact dispatch _ s
    | again => exact of_alike (.announce _ _) rfl
    | lift => exact settled .tap _ s
    | abort => exact dispatch _ s
    | keep => exact of_alike (.refl _) rfl
    | interrupt => exact settled .hold _ s

/-- Throughout, the machines account for what one-shots turned on. -/
theorem backed (turned : Turned p s next) (backed : s.oneShots.Backed s.holdings) :
    next.oneShots.Backed next.holdings := by
  cases turned with
  | rests oneShots spares => exact oneShots ▸ backed.congr spares
  | moves alike move oneShots spares =>
    exact oneShots ▸ (move.backed (backed.congr alike.spares)).congr spares
  | cancels oneShots layers oneShot => exact oneShots ▸ backed.cancel layers oneShot

variable {id : LayerId}

/-- No machine is on after a cancel. -/
theorem isActive_cancel (shots : OneShots) (id : LayerId) :
    (shots.cancel.layers.get id).isActive = false := by
  refine (congrArg OneShot.isActive (Machines.get_sweep shots.layers (fun _ m => (m.cancel, none)) id
    rfl)).trans ?_
  simp [OneShot.cancel, OneShot.reset, OneShot.isActive]

/-- A one-shot layer that is turned on is entered on the stack unless there is no room for it. -/
theorem opens (turned : Turned p s next) (off : (s.oneShots.layers.get id).isActive = false)
    (on : (next.oneShots.layers.get id).isActive = true) (above : id ≠ baseLayer) :
    ⟨id, .oneShot⟩ ∈ next.holdings.layers.entries ↔
      (s.holdings.layers.activate id .oneShot).2 ≠ .refused := by
  cases turned with
  | rests oneShots spares =>
    rw [oneShots, off] at on
    cases on
  | moves alike move oneShots spares =>
    rw [spares.reasons id, move.opens off (oneShots ▸ on) above, alike.layers]
  | cancels oneShots layers oneShot =>
    rw [oneShots, isActive_cancel] at on
    cases on

/-- A one-shot layer stays on the stack while its machine is on. -/
theorem keeps (turned : Turned p s next) (backed : s.oneShots.Backed s.holdings)
    (on : (next.oneShots.layers.get id).isActive = true)
    (listed : ⟨id, .oneShot⟩ ∈ s.holdings.layers.entries) :
    ⟨id, .oneShot⟩ ∈ next.holdings.layers.entries := by
  cases turned with
  | rests oneShots spares => exact (spares.reasons id).2 listed
  | moves alike move oneShots spares =>
    refine (spares.reasons id).2 (move.keeps (backed.congr alike.spares) (oneShots ▸ on) ?_)
    rw [alike.layers]
    exact listed
  | cancels oneShots layers oneShot =>
    rw [oneShots, isActive_cancel] at on
    cases on

end Turned

/-- There was no room for a layer when its one-shot was turned on in a run, and the one-shot has been on
ever since. -/
def Refused (p : Profile) (calls : List Call) (id : LayerId) : Prop :=
  ∃ before m later, start.course p calls = before ++ m :: later ∧
    (m.state.oneShots.layers.get id).isActive = false ∧
    (m.state.holdings.layers.activate id .oneShot).2 = .refused ∧
    ((m.next p).oneShots.layers.get id).isActive = true ∧
    ∀ n ∈ later, (n.state.oneShots.layers.get id).isActive = true

/-- At the start no machine is on, and nothing was turned on. -/
theorem backed_start : start.oneShots.Backed start.holdings where
  modifiers := List.nodup_nil
  layers := List.nodup_nil
  counted m := Tally.count_empty m
  owned id listed := by cases listed

/-- Moments lead from an account of what is on to another one. -/
theorem Leads.backed {moments : List Moment} {t : Engine} (leads : Leads p s moments t)
    (backed : s.oneShots.Backed s.holdings) : t.oneShots.Backed t.holdings :=
  @Leads.invariant p s t (fun s => s.oneShots.Backed s.holdings) moments leads
    (fun m _ backed => (Turned.moment p m).backed backed) backed

/-- At every moment of a run, the machines account for what is on. -/
theorem backed_of_mem_course {calls : List Call} {m : Moment} (member : m ∈ start.course p calls) :
    m.state.oneShots.Backed m.state.holdings := by
  have course := leads_course p start calls
  obtain ⟨before, later, split⟩ := List.append_of_mem member
  rw [split] at course
  obtain ⟨u, first, rfl, -⟩ := leads_append.1 course
  exact first.backed backed_start

/-- A one-shot of a layer that is on has its layer, unless that is the base layer or there was no room
for it. -/
theorem entered_or_refused (p : Profile) (calls : List Call) {id : LayerId} (above : id ≠ baseLayer)
    (on : ((after p calls).oneShots.layers.get id).isActive = true) :
    ⟨id, .oneShot⟩ ∈ (after p calls).holdings.layers.entries ∨ Refused p calls id := by
  have course := leads_course p start calls
  obtain ⟨before, m, later, split, off, starts, stays⟩ :=
    course.last_start (P := fun s => (s.oneShots.layers.get id).isActive = true) Bool.false_ne_true on
  by_cases room : (m.state.holdings.layers.activate id .oneShot).2 = .refused
  · exact .inr ⟨before, m, later, split, Bool.eq_false_iff.2 off, room, starts,
      fun n member => (stays n member).1⟩
  · left
    rw [split] at course
    obtain ⟨u, first, rfl, rest⟩ := leads_append.1 course
    -- From the moment on at which the layer was entered, its machine was always on.
    have backed := first.backed backed_start
    have turned := Turned.moment p m
    have entered := (turned.opens (Bool.eq_false_iff.2 off) starts above).2 room
    have kept := @Leads.invariant p _ _ (fun s => s.oneShots.Backed s.holdings ∧
        ⟨id, .oneShot⟩ ∈ s.holdings.layers.entries) later rest
      (fun n member holds => ⟨(Turned.moment p n).backed holds.1,
        (Turned.moment p n).keeps holds.1 (stays n member).2 holds.2⟩)
      ⟨turned.backed backed, entered⟩
    exact kept.2

/-- One-shots and what they turned on never drift apart. After every run of calls, every set of modifiers
and every layer has one machine at most; every modifier is counted once for each machine that is on and
has it; a layer waits for a key only while its machine is on; a machine that is on has its layer, unless
that is the base layer or there was no room for it; and a machine that says that its trigger is down is
right. -/
theorem one_shots_in_step (p : Profile) (calls : List Call) :
    (after p calls).oneShots.modifiers.Distinct ∧ (after p calls).oneShots.layers.Distinct ∧
    (∀ bit, (after p calls).holdings.modifiers.oneShot.count bit =
      (after p calls).oneShots.modifiers.tally (·.contains bit)) ∧
    (∀ id, ⟨id, .oneShot⟩ ∈ (after p calls).holdings.layers.entries →
      ∃ m, (id, m) ∈ (after p calls).oneShots.layers.entries ∧ m.isActive = true) ∧
    (∀ id m, (id, m) ∈ (after p calls).oneShots.layers.entries → m.isActive = true →
      ⟨id, .oneShot⟩ ∈ (after p calls).holdings.layers.entries ∨ id = baseLayer ∨
        Refused p calls id) ∧
    ∀ trigger, (after p calls).oneShots.IsDown trigger →
      ∃ key, (after p calls).active.find? key = some ⟨trigger, .oneShot⟩ := by
  have backed := (leads_course p start calls).backed backed_start
  have triggered := (triggered_lasting p).after ⟨consistent_start, .start⟩ calls
  refine ⟨backed.modifiers, backed.layers, backed.counted, fun id listed => ?_, fun id m listed on => ?_,
    triggered.2⟩
  · exact ⟨_, Machines.mem_of_isActive (backed.owned id listed), backed.owned id listed⟩
  · by_cases base : id = baseLayer
    · exact .inr (.inl base)
    · have own := Machines.get_of_mem backed.layers listed
      exact (entered_or_refused p calls base (own ▸ on)).imp_right .inr

end Engine

end KeyEngine
