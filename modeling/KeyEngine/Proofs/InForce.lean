import KeyEngine.Config.Standard
import KeyEngine.Proofs.Accounts
import KeyEngine.Proofs.TurnedOn

/-!
# The modifiers of layers are in force

A layer that goes on counts its modifiers as held, once more each, and one that goes off once less; keys
that hold modifiers use the same counts. Every deed leaves such a count as high as the holders are many,
as long as they are not more than a count can tell: `Counted.next`. So a modifier that the profile gives
to a layer is in force while the layer is on. What the profile gives is read off the configuration, where
several names may mean one layer and the last of them counts alone: `layer_modifiers_in_force`.
-/

namespace KeyEngine

namespace Holdings.HeldBy

variable {exact : Prop} {lm : LayerModifiers} {m : Modifier} {keys : Nat} {h : Holdings}
  {shots : OneShots}

/-- Typing leaves the holders of a modifier counted. -/
theorem typed (heldBy : h.HeldBy exact lm m keys) {next : Holdings} (typed : h.Typed next) :
    next.HeldBy exact lm m keys :=
  heldBy.congr typed.held typed.layers

/-- A note in the journal leaves the holders of a modifier counted. -/
theorem announce (heldBy : h.HeldBy exact lm m keys) (signal : Signal) :
    (h.announce signal).HeldBy exact lm m keys :=
  heldBy.congr rfl rfl

/-- A layer that is toggled adds itself to the holders of a modifier or leaves them. -/
theorem toggleLayer (heldBy : h.HeldBy exact lm m keys) (id : LayerId)
    (room : exact → keys + lm.share (h.toggleLayer lm id).layers.activeIds m ≤ Tally.limit) :
    (h.toggleLayer lm id).HeldBy exact lm m keys := by
  unfold Holdings.toggleLayer at room ⊢
  split
  · exact heldBy.deactivateLayer id .toggled
  · rename_i off
    rw [if_neg off] at room
    exact heldBy.activateLayer id .toggled room

/-- One-shot modifiers are counted elsewhere. -/
theorem applyOneShotModifiers (heldBy : h.HeldBy exact lm m keys) (set : ModifierSet)
    (change : OneShotChange) : (h.applyOneShotModifiers set change).HeldBy exact lm m keys := by
  refine heldBy.congr ?_ (layers_applyOneShotModifiers set change)
  cases change <;>
    simp [Holdings.applyOneShotModifiers, ModifierState.addOneShot, ModifierState.removeOneShot]

/-- One-shots that are revoked, of layers too, leave the holders of a modifier counted. -/
theorem revoke (heldBy : h.HeldBy exact lm m keys) (trigger : Action) :
    (h.revoke lm trigger).HeldBy exact lm m keys := by
  cases trigger with
  | oneShotModifier set => exact heldBy.applyOneShotModifiers set .revoke
  | oneShotLayer id => exact heldBy.deactivateLayer id .oneShot
  | _ => exact heldBy

/-- Where all machines wind down, layers only go off. -/
theorem sweep {each : Action → OneShot → OneShot × Option OneShotChange}
    (heldBy : h.HeldBy exact lm m keys) (winds : ∀ trigger, OneShot.WindsDown (each trigger)) :
    (shots.sweep h lm each).2.HeldBy exact lm m keys := by
  rw [OneShots.sweep_holdings winds]
  exact List.foldlRecOn (shots.ended each) (Holdings.revoke lm) heldBy
    fun _ heldBy trigger _ => heldBy.revoke trigger

/-- Where one machine moves, at most one layer goes on. -/
theorem step (heldBy : h.HeldBy exact lm m keys) (trigger : Action)
    (f : OneShot → OneShot × Option OneShotChange)
    (room : exact → keys + lm.share (shots.step h lm trigger f).2.layers.activeIds m ≤ Tally.limit) :
    (shots.step h lm trigger f).2.HeldBy exact lm m keys := by
  cases trigger with
  | oneShotModifier set =>
    show ((f (shots.modifiers.get set)).2.elim h (h.applyOneShotModifiers set)).HeldBy exact lm m keys
    cases (f (shots.modifiers.get set)).2 with
    | none => exact heldBy
    | some change => exact heldBy.applyOneShotModifiers set change
  | oneShotLayer id =>
    unfold OneShots.step at room ⊢
    dsimp only at room ⊢
    generalize (f (shots.layers.get id)).2 = answer at room ⊢
    rcases answer with - | - | -
    · exact heldBy
    · exact heldBy.activateLayer id .oneShot room
    · exact heldBy.deactivateLayer id .oneShot
  | _ => exact heldBy

end Holdings.HeldBy

namespace Engine

/-- How many hold a modifier: the keys that are down and the layers that are on. -/
def holders (p : Profile) (s : Engine) (m : Modifier) : Nat :=
  s.active.tally (·.holds m) + p.layerModifiers.share s.holdings.layers.activeIds m

variable {p : Profile} {s : Engine} {m : Modifier} {keys : Nat}

/-- A key that holds no modifiers adds nothing. -/
theorem add_holds_of_free {entry : ActiveKey} (free : entry.heldSet = ∅) :
    keys + (entry.holds m).toNat = keys := by
  simp [ActiveKey.holds, free]

/-- A modifier is counted as often as it is held. -/
def CountedFor (p : Profile) (m : Modifier) (keys : Nat) (s : Engine) : Prop :=
  s.holdings.HeldBy True p.layerModifiers m keys

namespace CountedFor

/-- A key that uses up the one-shots leaves the holders of a modifier counted. -/
theorem consume (counted : s.CountedFor p m keys) (action : Action) :
    (s.consume p action).CountedFor p m keys :=
  Holdings.HeldBy.sweep counted fun trigger => .uses p.settings action trigger

/-- Typing strokes that count for the one-shots leaves the holders of a modifier counted. -/
theorem types {f : Holdings → Holdings} (counted : s.CountedFor p m keys)
    (typed : s.holdings.Typed (f s.holdings)) (action : Action) :
    ((s.mapHoldings f).consume p action).CountedFor p m keys :=
  consume (s := s.mapHoldings f) (counted.typed typed) action

/-- A machine that moves leaves the holders counted, the layer it turns on among them. -/
theorem stepTrigger (counted : s.CountedFor p m keys) (action : Action)
    {f : OneShot → OneShot × Option OneShotChange}
    (room : keys + p.layerModifiers.share (s.mapOneShots
      (·.step · p.layerModifiers action f)).holdings.layers.activeIds m ≤ Tally.limit) :
    (s.mapOneShots (·.step · p.layerModifiers action f)).CountedFor p m keys :=
  Holdings.HeldBy.step counted action f fun _ => room

/-- A tap-hold key that goes down holds nothing yet, and the holders of a modifier are counted. -/
theorem pressTapHold (counted : s.CountedFor p m keys) (event : KeyEvent) (action : Action)
    (tap : Keystroke) : (s.pressTapHold p event action tap).2.CountedFor p m
      (keys + (ActiveKey.holds ⟨action, (s.pressTapHold p event action tap).1⟩ m).toNat) := by
  unfold Engine.pressTapHold
  split
  · rw [add_holds_of_free rfl]
    exact counted.types (.pressStroke tap) action
  · rw [add_holds_of_free rfl]
    exact counted

/-- The press of an action other than cancel counts what the key holds from now on, if there is room for
all the holders. -/
theorem perform (counted : s.CountedFor p m keys) (event : KeyEvent) {action : Action}
    (goes : action ≠ .cancel)
    (room : keys + (ActiveKey.holds ⟨action, (s.perform p event action).1⟩ m).toNat +
      p.layerModifiers.share (s.perform p event action).2.holdings.layers.activeIds m ≤ Tally.limit) :
    (s.perform p event action).2.CountedFor p m
      (keys + (ActiveKey.holds ⟨action, (s.perform p event action).1⟩ m).toNat) := by
  unfold Engine.perform at room ⊢
  -- Only what holds a modifier or switches a layer on counts higher, and none of that counts for the
  -- one-shots: where they are used up, layers only go off.
  cases action with
  | plain stroke =>
    dsimp only at room ⊢
    split
    · rename_i bare
      rw [if_pos bare] at room
      refine Holdings.HeldBy.holdModifiers counted _ fun _ => ?_
      simpa [mapHoldings, Holdings.holdModifiers, ActiveKey.holds, ActiveKey.heldSet] using room
    · rw [add_holds_of_free rfl]
      exact counted.types (.pressStroke stroke) _
  | modTap hold tap => exact counted.pressTapHold event _ tap
  | layerTap layer tap => exact counted.pressTapHold event _ tap
  | oneShotModifier set =>
    rw [add_holds_of_free rfl] at room ⊢
    exact counted.stepTrigger _ room
  | oneShotLayer layer =>
    rw [add_holds_of_free rfl] at room ⊢
    exact counted.stepTrigger _ room
  | manualShift unshifted shifted =>
    rw [add_holds_of_free rfl]
    exact counted.types (.pressManualShift unshifted shifted) _
  | macroSequence strokes =>
    rw [add_holds_of_free rfl]
    exact counted.types (.tapStrokes strokes) _
  | retype stroke =>
    rw [add_holds_of_free rfl]
    exact counted.types (.retypeStroke stroke) _
  | momentaryLayer layer =>
    rw [add_holds_of_free rfl] at room ⊢
    exact Holdings.HeldBy.activateLayer counted layer .held fun _ => room
  | toggleLayer layer =>
    rw [add_holds_of_free rfl] at room ⊢
    exact Holdings.HeldBy.toggleLayer counted layer fun _ => room
  | cancel => exact absurd rfl goes
  | transparent =>
    rw [add_holds_of_free rfl]
    exact counted
  | noOp =>
    rw [add_holds_of_free rfl]
    exact counted

/-- Undoing a press no longer counts what the key held. -/
theorem undo (event : KeyEvent) (entry : ActiveKey)
    (counted : s.CountedFor p m (keys + (entry.holds m).toNat))
    (room : keys + p.layerModifiers.share (s.undo p event entry).holdings.layers.activeIds m ≤
      Tally.limit) : (s.undo p event entry).CountedFor p m keys := by
  obtain ⟨action, state⟩ := entry
  unfold Engine.undo at room ⊢
  cases state with
  | stroke stroke =>
    rw [add_holds_of_free rfl] at counted
    exact counted.typed (.releaseStroke stroke)
  | modifiers set => exact Holdings.HeldBy.unholdModifiers counted
  | tapped =>
    rw [add_holds_of_free rfl] at counted
    dsimp only
    cases action.tap? with
    | none => exact counted
    | some tap => exact counted.typed (.releaseStroke tap)
  | held =>
    cases action with
    | modTap hold tap => exact Holdings.HeldBy.unholdModifiers counted
    | layerTap layer tap =>
      rw [add_holds_of_free rfl] at counted
      exact Holdings.HeldBy.deactivateLayer counted layer .held
    | _ =>
      rw [add_holds_of_free rfl] at counted
      exact counted
  | oneShot =>
    rw [add_holds_of_free rfl] at counted
    exact counted.stepTrigger _ room
  | layer id =>
    rw [add_holds_of_free rfl] at counted
    exact Holdings.HeldBy.deactivateLayer counted id .held
  | pending since =>
    rw [add_holds_of_free rfl] at counted
    exact counted
  | inert =>
    rw [add_holds_of_free rfl] at counted
    exact counted

/-- Settling a waiting key counts what the key holds from now on. -/
theorem settled (counted : s.CountedFor p m keys) (decision : Decision) (head : PendingKey)
    (room : keys + (ActiveKey.holds ⟨head.action, decision.state⟩ m).toNat +
      p.layerModifiers.share (s.settled p decision head).holdings.layers.activeIds m ≤ Tally.limit) :
    (s.settled p decision head).CountedFor p m
      (keys + (ActiveKey.holds ⟨head.action, decision.state⟩ m).toNat) := by
  have noted : (s.marked decision head).CountedFor p m keys := counted.announce _
  cases decision with
  | hold =>
    show ((s.marked .hold head).holdings.holdAction p.layerModifiers head.action).HeldBy True _ m _
    have after : (s.settled p .hold head).holdings =
      (s.marked .hold head).holdings.holdAction p.layerModifiers head.action := rfl
    rw [after] at room
    cases means : head.action with
    | modTap hold tap =>
      rw [means] at room
      refine Holdings.HeldBy.holdModifiers noted hold fun _ => ?_
      simpa [Holdings.holdAction, Holdings.holdModifiers, ActiveKey.holds, ActiveKey.heldSet,
        Decision.state] using room
    | layerTap layer tap =>
      rw [means, add_holds_of_free rfl] at room
      rw [add_holds_of_free rfl]
      exact Holdings.HeldBy.activateLayer noted layer .held fun _ => room
    | _ =>
      rw [add_holds_of_free rfl]
      exact noted
  | tap =>
    rw [add_holds_of_free rfl]
    unfold Engine.settled settle
    dsimp only
    split
    · rename_i tap _
      split
      · exact noted.typed (.pressStroke tap)
      · exact noted.types (.pressStroke tap) head.action
    · exact noted

end CountedFor

/-- A modifier is counted as often as keys that are down and layers that are on hold it. -/
def Counted (p : Profile) (m : Modifier) (s : Engine) : Prop :=
  s.CountedFor p m (s.active.tally (·.holds m))

namespace Counted

/-- At the start nobody holds a modifier and none is counted. -/
theorem start (p : Profile) (m : Modifier) : Engine.start.Counted p m :=
  .empty True p.layerModifiers m rfl rfl

/-- Counting what so many keys hold is enough if so many keys hold it. -/
theorem of_tally {keys : Nat} (counted : s.CountedFor p m keys)
    (tally : s.active.tally (·.holds m) = keys) : s.Counted p m := by
  unfold Counted
  rw [tally]
  exact counted

/-- After a cancel nobody holds a modifier and none is counted. -/
theorem cancel (p : Profile) (m : Modifier) (s : Engine) : (s.cancel p).Counted p m := by
  refine of_tally (.empty True p.layerModifiers m ?_ ?_)
    (s.active.tally_makeInert (·.holds m) fun _ => ModifierSet.contains_empty m)
  · exact Holdings.modifiers_releaseEverything _ _
  · exact Holdings.layers_releaseEverything _ _

/-- A note in the journal leaves the counts of the whole keyboard as they are. -/
theorem announce (counted : s.Counted p m) (signal : Signal) : (s.announce signal).Counted p m :=
  Holdings.HeldBy.announce counted signal

/-- A key that goes down is counted with what it holds. -/
theorem press (counted : s.Counted p m) {event : KeyEvent}
    (room : (s.press p event).holders p m ≤ Tally.limit) : (s.press p event).Counted p m := by
  cases up : s.active.contains event.key with
  | true =>
    rw [press_of_down up]
    exact counted.announce _
  | false =>
    have absent := ActiveKeys.contains_eq_false_iff.1 up
    rw [press_of_up up] at room ⊢
    by_cases cancels : s.resolve p event.key = .cancel
    -- A key that cancels holds nothing itself, and leaves nobody who holds anything.
    · have gone : s.active.makeInert.find? event.key = none := by simp [absent]
      have released := cancel p m (s.readied event)
      simp only [performed, perform, cancels]
      refine of_tally (released.announce _) ?_
      exact (ActiveKeys.tally_insert gone _ _).trans (add_holds_of_free rfl)
    · have kept : (s.performed p event).2.active = s.active := active_perform p event cancels _
      have more : ((s.performed p event).2.active.insert event.key
          ⟨s.resolve p event.key, (s.performed p event).1⟩).tally (·.holds m) =
          s.active.tally (·.holds m) +
            (ActiveKey.holds ⟨s.resolve p event.key, (s.performed p event).1⟩ m).toNat := by
        rw [kept]
        exact ActiveKeys.tally_insert absent _ _
      unfold holders at room
      rw [more] at room
      have held := CountedFor.perform (s := s.readied event) counted event cancels room
      exact of_tally (held.announce _) more

/-- A key that goes up is no longer counted. -/
theorem release (counted : s.Counted p m) (distinct : s.active.Distinct) {event : KeyEvent}
    (room : (s.release p event).holders p m ≤ Tally.limit) : (s.release p event).Counted p m := by
  cases down : s.active.find? event.key with
  | none =>
    rw [release_of_up down]
    exact counted.announce _
  | some entry =>
    rw [release_of_down down] at room ⊢
    unfold Counted at counted
    rw [ActiveKeys.tally_remove distinct down] at counted
    have left := active_undo p event entry { s with active := s.active.remove event.key }
    have less := congrArg (ActiveKeys.tally · (·.holds m)) left
    unfold holders at room
    have held := CountedFor.undo (s := { s with active := s.active.remove event.key }) event entry
      counted (less ▸ room)
    exact of_tally (held.announce _) less

/-- Acting on an event leaves the holders counted, as long as they are not too many afterwards. -/
theorem dispatch (counted : s.Counted p m) (distinct : s.active.Distinct) {event : KeyEvent}
    (room : (s.dispatch p event).holders p m ≤ Tally.limit) : (s.dispatch p event).Counted p m := by
  have noted := counted.announce (.dispatched event)
  unfold Engine.dispatch at room ⊢
  dsimp only at room ⊢
  split
  · rename_i pressed
    rw [if_pos pressed] at room
    exact noted.press room
  · rename_i released
    rw [if_neg released] at room
    exact noted.release distinct room

/-- A waiting key that is settled held nothing before. -/
theorem settled (counted : s.Counted p m) (distinct : s.active.Distinct) {head : PendingKey}
    (down : s.active.find? head.key = some ⟨head.action, .pending head.since⟩) (decision : Decision)
    (room : (s.settled p decision head).holders p m ≤ Tally.limit) :
    (s.settled p decision head).Counted p m := by
  unfold Counted at counted
  rw [ActiveKeys.tally_remove distinct down, add_holds_of_free rfl] at counted
  have changed : (s.settled p decision head).active.tally (·.holds m) = _ :=
    active_settled p decision head s ▸ ActiveKeys.tally_setState distinct down decision.state _
  unfold holders at room
  rw [changed] at room
  exact of_tally (CountedFor.settled counted decision head room) changed

/-- A task after which a count can tell the holders leaves them counted. -/
theorem step (counted : s.Counted p m) (distinct : s.active.Distinct) (consistent : s.Consistent)
    {task : Task} {next : Engine} {more : List Task} (taken : Step p s task next more)
    (room : next.holders p m ≤ Tally.limit) : next.Counted p m := by
  cases taken with
  | early => exact counted
  | due waiting => exact counted.settled distinct (consistent.down _ waiting) .hold room
  | act => exact counted.dispatch distinct room
  | again => exact counted.announce _
  | lift waiting => exact counted.settled distinct (consistent.down _ waiting) .tap room
  | abort => exact counted.dispatch distinct room
  | keep => exact counted
  | @interrupt event head waiting other =>
    have kept : (s.keptBack head event).Counted p m := counted
    have waits := head_keptBack head event s
    exact kept.settled distinct ((consistent.keptBack waiting other).down _ waits) .hold room

/-- Any deed after which a count can tell the holders leaves them counted. -/
theorem next (n : Moment) (counted : n.state.Counted p m) (distinct : n.state.active.Distinct)
    (consistent : n.state.Consistent) (room : (n.next p).holders p m ≤ Tally.limit) :
    (n.next p).Counted p m := by
  obtain ⟨s, deed⟩ := n
  cases deed with
  | task task => exact counted.step distinct consistent (step_spec p s task) room
  | elapse now => exact Holdings.HeldBy.sweep counted fun _ => .tick p.settings now
  | cancel => exact cancel p m s

end Counted

/-- After a run in which a count could always tell the holders of a modifier they are counted. -/
theorem counted_after (p : Profile) (m : Modifier) (calls : List Call)
    (room : ∀ n ∈ start.course p calls, (n.next p).holders p m ≤ Tally.limit) :
    (after p calls).Counted p m := by
  have always := @Leads.invariant p _ _
    (fun s => (s.Consistent ∧ s.Accounted False p) ∧ s.Counted p m) _ (leads_course p start calls)
    (fun n member holds => ⟨(accounted_lasting p).next n holds.1,
      holds.2.next n holds.1.2.distinct holds.1.1 (room n member)⟩)
    ⟨⟨consistent_start, .start False p⟩, .start p m⟩
  exact always.2

/-- A modifier that a layer holds is in force while the layer is on. -/
theorem in_force {calls : List Call} {id : LayerId} (above : id ≠ baseLayer)
    (holds : p.layerModifiers.holds id m = true)
    (room : ∀ n ∈ start.course p calls, (n.next p).holders p m ≤ Tally.limit)
    (on : (after p calls).holdings.layers.isActive id = true) :
    (after p calls).modifiers.contains m = true := by
  have counted := (counted_after p m calls room).agrees.2 trivial
  have listed : 0 < p.layerModifiers.share (after p calls).holdings.layers.activeIds m :=
    List.countP_pos_iff.2 ⟨id, (LayerStack.isActive_iff_mem above).1 on, holds⟩
  -- The layer itself is one of the holders, so the count is not zero.
  have positive : 0 < (after p calls).holdings.modifiers.held.count m := by omega
  simp [Engine.modifiers, Holdings.effective, unmasked, positive]

end Engine

namespace LayerModifiers

/-- The layer that was given modifiers has them, in place of any it had, and the other layers keep
theirs. -/
theorem find?_insert (lm : LayerModifiers) (id other : LayerId) (set : ModifierSet) :
    (lm.insert id set).find? other = if other = id then some set else lm.find? other := by
  rw [insert, find?, ActiveKeys.lookup_cons_ite, ActiveKeys.lookup_filter_ne]
  split <;> rfl

end LayerModifiers

namespace Config

variable {map : Keymap} {found lm : LayerModifiers} {entries : ByName ModifierSet}

/-- What was accepted has only names that name a layer. -/
theorem layerId?_of_read (read : readLayerModifiers map found entries = .ok lm)
    {entry : String × ModifierSet} (listed : entry ∈ entries) : ∃ id, map.layerId? entry.1 = some id := by
  induction entries generalizing found with
  | nil => cases listed
  | cons first rest ih =>
    unfold readLayerModifiers at read
    split at read
    · cases read
    · rename_i named means
      rcases List.mem_cons.1 listed with rfl | later
      · exact ⟨named, means⟩
      · exact ih read later

/-- The last entry that names a layer says what the layer holds. -/
theorem find?_of_read (read : readLayerModifiers map found entries = .ok lm) (id : LayerId) :
    lm.find? id =
      ((entries.reverse.find? fun entry => map.layerId? entry.1 = some id).map (·.2)).or
        (found.find? id) := by
  induction entries generalizing found with
  | nil =>
    cases read
    rfl
  | cons first rest ih =>
    obtain ⟨name, set⟩ := first
    unfold readLayerModifiers at read
    split at read
    · cases read
    · rename_i named means
      rw [ih read, LayerModifiers.find?_insert, List.reverse_cons, List.find?_append]
      cases rest.reverse.find? fun entry => map.layerId? entry.1 = some id with
      | some later => rfl
      | none =>
        by_cases same : named = id
        · simp [means, same]
        · simp [means, same, Ne.symm same]

/-- A layer holds a modifier if the last entry that names the layer has it. -/
theorem holds_of_read {name : String} {set : ModifierSet} {earlier later : ByName ModifierSet}
    (read : readLayerModifiers map found (earlier ++ (name, set) :: later) = .ok lm) {id : LayerId}
    (means : map.layerId? name = some id) {m : Modifier} (has : set.contains m = true)
    (others : ∀ entry ∈ later, map.layerId? entry.1 = some id → entry.2.contains m = true) :
    lm.holds id m = true := by
  have last := find?_of_read read id
  rw [List.reverse_append, List.reverse_cons, List.append_assoc, List.find?_append] at last
  unfold LayerModifiers.holds
  rw [last]
  cases found : later.reverse.find? fun entry => map.layerId? entry.1 = some id with
  | some entry =>
    have listed := List.mem_reverse.1 (List.mem_of_find?_eq_some found)
    have names : map.layerId? entry.1 = some id := by simpa using List.find?_some found
    simpa using others entry listed names
  | none => simp [means, has]

/-- The modifiers of layers in a profile are read from the configuration. -/
theorem heldByLayers_of_profile {c : Config} {p : Profile} (made : c.profile = .ok p) :
    c.heldByLayers p.keymap = .ok p.layerModifiers := by
  unfold profile at made
  simp only [bind, Except.bind] at made
  split at made
  · cases made
  · split at made
    · cases made
    · split at made
      · cases made
      · rename_i read
        cases made
        exact read

/-- A small keyboard to try things on: two keys turn on the second layer, one while it is held and one
until it is pressed again, and the layer is given modifiers under two spellings of its name. -/
def twiceNamed : Config where
  globals := .standard
  oneShot := .standard
  layerModifiers := [("NUMS", .single .leftControl), ("nums", .single .leftShift)]
  layers := [⟨"base", ["MO(1), TG(1)"]⟩, ⟨"nums", ["_______, _______"]⟩]

end Config

/-- What the engine makes of it. -/
def Profile.twiceNamed : Profile where
  keymap :=
    ⟨[⟨"base", [.momentaryLayer 1, .toggleLayer 1]⟩, ⟨"nums", [.transparent, .transparent]⟩],
      Keymap.firstFault_eq_none_iff.1 (by decide)⟩
  settings := { Settings.standard with tappingTerm := .ofWord 220 }
  layerModifiers := ⟨[(1, .single .leftShift)]⟩

/-- The configuration that names a layer twice gives the profile with the modifiers named last. -/
theorem Config.profile_twiceNamed : twiceNamed.profile = .ok .twiceNamed := by
  have layers : readLayers twiceNamed.layers = .ok Profile.twiceNamed.keymap.layers := by cbv
  have keymap : Keymap.ofLayers Profile.twiceNamed.keymap.layers = .ok Profile.twiceNamed.keymap :=
    Keymap.ofLayers_eq_ok_iff.2 rfl
  have settings : twiceNamed.settings = .ok Profile.twiceNamed.settings := by cbv
  have held : twiceNamed.heldByLayers Profile.twiceNamed.keymap =
    .ok Profile.twiceNamed.layerModifiers := by cbv
  simp only [profile, Config.keymap, layers, bind, Except.bind, keymap, Except.mapError, settings, held,
    pure, Except.pure]

namespace Engine

/-- The modifiers that a configuration gives to a layer are in force while the layer is on. For every
configuration that is accepted, each name names a layer; and if that is not the base layer, then after
every run each of its modifiers is in force if the layer is on. This takes two more things: later entries
that name the same layer have the modifier as well, for the last of them counts alone, and there were
never more than 255 keys and layers that held the modifier, for no count goes higher. -/
theorem layer_modifiers_in_force {c : Config} {p : Profile} (made : c.profile = .ok p) {name : String}
    {set : ModifierSet} {earlier later : ByName ModifierSet}
    (given : c.layerModifiers = earlier ++ (name, set) :: later) :
    ∃ id, p.keymap.layerId? name = some id ∧ ∀ calls m, id ≠ baseLayer → set.contains m = true →
      (∀ entry ∈ later, p.keymap.layerId? entry.1 = some id → entry.2.contains m = true) →
      (∀ n ∈ start.course p calls, (n.next p).holders p m ≤ 255) →
      (after p calls).holdings.layers.isActive id = true →
      (after p calls).modifiers.contains m = true := by
  have read := Config.heldByLayers_of_profile made
  rw [Config.heldByLayers, given] at read
  obtain ⟨id, means⟩ := Config.layerId?_of_read read (List.mem_append_right earlier (.head later))
  refine ⟨id, means, fun calls m above has others room on => ?_⟩
  exact in_force above (Config.holds_of_read read means has others) room on

set_option maxRecDepth 10000 in
/-- The layer stays on when the key that held it goes up, for it was switched on as well; the shift that
its second name gives it stays in force. -/
theorem layer_modifiers_in_force_switched :
    Config.twiceNamed.profile = .ok .twiceNamed ∧
    (∀ n ∈ start.course .twiceNamed [.down 0 0, .down 1 10, .up 0 20],
      (n.next .twiceNamed).holders .twiceNamed .leftShift ≤ 255) ∧
    (after .twiceNamed [.down 0 0, .down 1 10, .up 0 20]).holdings.layers.isActive 1 = true ∧
    (after .twiceNamed [.down 0 0, .down 1 10, .up 0 20]).modifiers.contains .leftShift = true := by
  have room : ∀ n ∈ start.course .twiceNamed [.down 0 0, .down 1 10, .up 0 20],
      (n.next .twiceNamed).holders .twiceNamed .leftShift ≤ 255 := by
    have all : (start.course .twiceNamed [.down 0 0, .down 1 10, .up 0 20]).all
        (fun n => decide ((n.next .twiceNamed).holders .twiceNamed .leftShift ≤ 255)) = true := by cbv
    simpa using all
  have on : (after .twiceNamed [.down 0 0, .down 1 10, .up 0 20]).holdings.layers.isActive 1 = true := by
    cbv
  have given : Config.twiceNamed.layerModifiers =
    [("NUMS", .single .leftControl)] ++ ("nums", .single .leftShift) :: [] := rfl
  obtain ⟨id, means, inForce⟩ := layer_modifiers_in_force Config.profile_twiceNamed given
  have second : Profile.twiceNamed.keymap.layerId? "nums" = some 1 := by cbv
  obtain rfl : 1 = id := Option.some.inj (second.symm.trans means)
  exact ⟨Config.profile_twiceNamed, room, on,
    inForce _ .leftShift (by decide) (by decide) (fun _ later => absurd later List.not_mem_nil) room on⟩

set_option maxRecDepth 10000 in
/-- The control that the first name gives to the layer is not in force, though the layer is on. -/
theorem layer_modifiers_overridden :
    Config.twiceNamed.profile = .ok .twiceNamed ∧
    ("NUMS", .single .leftControl) ∈ Config.twiceNamed.layerModifiers ∧
    Profile.twiceNamed.keymap.layerId? "NUMS" = some 1 ∧
    (after .twiceNamed [.down 0 0]).holdings.layers.isActive 1 = true ∧
    (after .twiceNamed [.down 0 0]).modifiers.contains .leftControl = false :=
  ⟨Config.profile_twiceNamed, .head _, by cbv, by cbv, by cbv⟩

end Engine

end KeyEngine
