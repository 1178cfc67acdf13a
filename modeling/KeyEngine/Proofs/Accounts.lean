import Mathlib
import KeyEngine.Proofs.Demand
import KeyEngine.Proofs.KeysDown
import KeyEngine.Proofs.Waiting

/-!
# Every key that is down accounts for what is on

A key that is down asks for the stroke, the modifiers or the layer that its release takes back.
`Accounted` says that what is on meets the demand of the keys that are down. Each task of the agenda
keeps it, for a key that goes down adds its demand, one that goes up takes it away, and one that is
settled changes it.
-/

namespace KeyEngine

namespace ActiveKey

/-- The stroke that a key keeps down. -/
def stroke? (entry : ActiveKey) : Option Keystroke :=
  match entry.state with
  | .stroke stroke => some stroke
  | .tapped => entry.action.tap?
  | _ => none

/-- The modifiers that a key holds. -/
def heldSet (entry : ActiveKey) : ModifierSet :=
  match entry.state, entry.action with
  | .modifiers set, _ => set
  | .held, .modTap hold _ => hold
  | _, _ => ∅

/-- The layer that a key holds. -/
def layer? (entry : ActiveKey) : Option LayerId :=
  match entry.state, entry.action with
  | .layer id, _ => some id
  | .held, .layerTap id _ => some id
  | _, _ => none

/-- Whether a key keeps a code down. -/
def presses (entry : ActiveKey) (code : KeyCode) : Bool := entry.stroke?.any (·.code = code)

/-- Whether a key keeps a stroke down that a modifier is attached to. -/
def attaches (entry : ActiveKey) (m : Modifier) : Bool := entry.stroke?.any (·.allModifiers.contains m)

/-- Whether a key holds a modifier. -/
def holds (entry : ActiveKey) (m : Modifier) : Bool := entry.heldSet.contains m

/-- Whether a key holds a layer. -/
def holdsLayer (entry : ActiveKey) (id : LayerId) : Bool := entry.layer?.any (· = id)

end ActiveKey

namespace Demand

/-- One more key is down. -/
def add (d : Demand) (entry : ActiveKey) : Demand where
  codes code := d.codes code + (entry.presses code).toNat
  attached m := d.attached m + (entry.attaches m).toNat
  held m := d.held m + (entry.holds m).toNat
  layers id := d.layers id + (entry.holdsLayer id).toNat

/-- A key that keeps a stroke down asks for it. -/
theorem add_press (d : Demand) {entry : ActiveKey} {stroke : Keystroke}
    (pressed : entry.stroke? = some stroke) (free : entry.heldSet = ∅) (low : entry.layer? = .none) :
    d.add entry = d.press stroke := by
  simp [add, press, ActiveKey.presses, ActiveKey.attaches, ActiveKey.holds, ActiveKey.holdsLayer,
    pressed, free, low]

/-- A key that holds modifiers asks for them. -/
theorem add_hold (d : Demand) {entry : ActiveKey} (silent : entry.stroke? = .none)
    (low : entry.layer? = .none) : d.add entry = d.hold entry.heldSet := by
  simp [add, hold, ActiveKey.presses, ActiveKey.attaches, ActiveKey.holds, ActiveKey.holdsLayer,
    silent, low]

/-- A key that holds a layer asks for it. -/
theorem add_holdLayer (d : Demand) {entry : ActiveKey} {id : LayerId} (silent : entry.stroke? = .none)
    (free : entry.heldSet = ∅) (holds : entry.layer? = some id) : d.add entry = d.holdLayer id := by
  simp [add, holdLayer, ActiveKey.presses, ActiveKey.attaches, ActiveKey.holds, ActiveKey.holdsLayer,
    silent, free, holds]

/-- Any other key asks for nothing. -/
theorem add_none (d : Demand) {entry : ActiveKey} (silent : entry.stroke? = .none)
    (free : entry.heldSet = ∅) (low : entry.layer? = .none) : d.add entry = d := by
  rw [add_hold d silent low, free]
  simp [hold]

/-- A demand that is small with one more key down is small without it. -/
theorem AtMost.of_add {d : Demand} {entry : ActiveKey} {most : Nat} (few : (d.add entry).AtMost most) :
    d.AtMost most :=
  ⟨fun code => Nat.le_trans (Nat.le_add_right _ _) (few.codes code),
    fun m => Nat.le_trans (Nat.le_add_right _ _) (few.attached m),
    fun m => Nat.le_trans (Nat.le_add_right _ _) (few.held m)⟩

end Demand

namespace ActiveKeys

/-- What the keys that are down ask for. -/
def demand (keys : ActiveKeys) : Demand where
  codes code := keys.tally (·.presses code)
  attached m := keys.tally (·.attaches m)
  held m := keys.tally (·.holds m)
  layers id := keys.tally (·.holdsLayer id)

/-- If every count has one more to count, one more key is down. -/
theorem demand_add {keys others : ActiveKeys} {entry : ActiveKey}
    (counted : ∀ does, keys.tally does = others.tally does + (does entry).toNat) :
    keys.demand = others.demand.add entry := by
  ext thing
  · exact counted (·.presses thing)
  · exact counted (·.attaches thing)
  · exact counted (·.holds thing)
  · exact counted (·.holdsLayer thing)

/-- A key that goes down adds its own demand to that of the others. -/
theorem demand_insert {keys : ActiveKeys} {key : Key} (absent : keys.find? key = none)
    (entry : ActiveKey) : (keys.insert key entry).demand = keys.demand.add entry :=
  demand_add (tally_insert absent entry)

/-- The demand of all keys is that of the others and of the one that is down. -/
theorem demand_remove {keys : ActiveKeys} (distinct : keys.Distinct) {key : Key} {entry : ActiveKey}
    (down : keys.find? key = some entry) : keys.demand = (keys.remove key).demand.add entry :=
  demand_add (tally_remove distinct down)

/-- A key that changes its state changes its own share of the demand and no other. -/
theorem demand_setState {keys : ActiveKeys} (distinct : keys.Distinct) {key : Key}
    {entry : ActiveKey} (down : keys.find? key = some entry) (state : KeyState) :
    (keys.setState key state).demand = (keys.remove key).demand.add { entry with state := state } :=
  demand_add (tally_setState distinct down state)

/-- Keys that have nothing to undo ask for nothing. -/
theorem demand_makeInert (keys : ActiveKeys) : keys.makeInert.demand = .none := by
  ext thing
  · exact keys.tally_makeInert (·.presses thing) fun _ => rfl
  · exact keys.tally_makeInert (·.attaches thing) fun _ => rfl
  · refine keys.tally_makeInert (·.holds thing) fun _ => ?_
    exact ModifierSet.contains_empty thing
  · exact keys.tally_makeInert (·.holdsLayer thing) fun _ => rfl

/-- Inert keys ask for nothing. -/
theorem demand_of_inert {keys : ActiveKeys} (distinct : keys.Distinct)
    (inert : ∀ key entry, keys.find? key = some entry → entry.state = .inert) :
    keys.demand = .none := by
  have silent (does : ActiveKey → Bool) (idle : ∀ action, does ⟨action, .inert⟩ = false) :
      keys.tally does = 0 := by
    refine tally_eq_zero distinct fun key entry found => ?_
    have state := inert key entry found
    obtain ⟨action, _⟩ := entry
    cases state
    exact idle action
  ext thing
  · exact silent (·.presses thing) fun _ => rfl
  · exact silent (·.attaches thing) fun _ => rfl
  · exact silent (·.holds thing) fun _ => ModifierSet.contains_empty thing
  · exact silent (·.holdsLayer thing) fun _ => rfl

/-- Each key asks for a thing at most once, so no demand is larger than the number of keys down. -/
theorem demand_atMost (keys : ActiveKeys) : keys.demand.AtMost keys.size :=
  ⟨fun code => keys.tally_le_size (·.presses code), fun m => keys.tally_le_size (·.attaches m),
    fun m => keys.tally_le_size (·.holds m)⟩

end ActiveKeys

namespace Engine

variable {exact : Prop} {p : Profile} {s : Engine} {d : Demand}

/-- A key that presses a stroke and counts for the one-shots asks for the stroke. -/
theorem meets_pressed {f : Holdings → Holdings} {stroke : Keystroke} {entry : ActiveKey}
    (keeps : entry.stroke? = some stroke) (free : entry.heldSet = ∅) (low : entry.layer? = none)
    (room : exact → (d.add entry).AtMost Demand.largest)
    (pressed : (exact → (d.press stroke).AtMost Tally.limit) →
      (f s.holdings).Meets exact p.layerModifiers (d.press stroke)) (action : Action) :
    ((s.mapHoldings f).consume p action).holdings.Meets exact p.layerModifiers (d.add entry) := by
  rw [d.add_press keeps free low] at room ⊢
  have few : exact → (d.press stroke).AtMost Tally.limit := fun sure => (room sure).mono (by decide)
  exact (Holdings.meets_oneShotDurable p.layerModifiers room).consume action (pressed few)

/-- A tap-hold key that goes down, waiting or repeating its tap, is met by what it turns on. -/
theorem meets_pressTapHold (meets : s.holdings.Meets exact p.layerModifiers d) (event : KeyEvent)
    {action : Action} {tap : Keystroke} (dual : action.tap? = some tap)
    (room : exact → (d.add ⟨action, (s.pressTapHold p event action tap).1⟩).AtMost Demand.largest) :
    (s.pressTapHold p event action tap).2.holdings.Meets exact p.layerModifiers
      (d.add ⟨action, (s.pressTapHold p event action tap).1⟩) := by
  unfold pressTapHold at room ⊢
  split
  · rename_i repeats
    rw [if_pos repeats] at room
    have keeps : ActiveKey.stroke? ⟨action, .tapped⟩ = some tap := dual
    exact meets_pressed keeps rfl rfl room (meets.pressStroke tap) action
  · rw [d.add_none rfl rfl rfl]
    exact meets

/-- The press of an action other than cancel asks for what the state of the key says. -/
theorem meets_perform (meets : s.holdings.Meets exact p.layerModifiers d) (event : KeyEvent)
    {action : Action} (goes : action ≠ .cancel)
    (room : exact → (d.add ⟨action, (s.perform p event action).1⟩).AtMost Demand.largest) :
    (s.perform p event action).2.holdings.Meets exact p.layerModifiers
      (d.add ⟨action, (s.perform p event action).1⟩) := by
  have kept : exact → d.AtMost Demand.largest := fun sure => (room sure).of_add
  have oneShots := Holdings.meets_oneShotDurable p.layerModifiers kept
  unfold perform at room ⊢
  cases action with
  | plain stroke =>
    dsimp only at room ⊢
    split
    · rename_i bare
      rw [if_pos bare, d.add_hold rfl rfl] at room
      rw [d.add_hold rfl rfl]
      exact meets.holdModifiers _ room
    · rename_i full
      rw [if_neg full] at room
      exact meets_pressed rfl rfl rfl room (meets.pressStroke stroke) _
  | modTap hold tap => exact meets_pressTapHold meets event rfl room
  | layerTap layer tap => exact meets_pressTapHold meets event rfl room
  | oneShotModifier set =>
    rw [d.add_none rfl rfl rfl]
    exact oneShots.pressTrigger _ _ meets
  | oneShotLayer layer =>
    rw [d.add_none rfl rfl rfl]
    exact oneShots.pressTrigger _ _ meets
  | manualShift unshifted shifted =>
    exact meets_pressed rfl rfl rfl room (meets.pressManualShift unshifted shifted) _
  | macroSequence strokes =>
    rw [d.add_none rfl rfl rfl]
    exact oneShots.consume _ (meets.tapStrokes strokes kept)
  | retype stroke => exact meets_pressed rfl rfl rfl room (meets.retypeStroke stroke) _
  | momentaryLayer layer =>
    rw [d.add_holdLayer rfl rfl rfl] at room ⊢
    exact meets.holdLayer layer room
  | toggleLayer layer =>
    rw [d.add_none rfl rfl rfl]
    exact meets.toggleLayer layer kept
  | cancel => exact absurd rfl goes
  | transparent =>
    rw [d.add_none rfl rfl rfl]
    exact meets
  | noOp =>
    rw [d.add_none rfl rfl rfl]
    exact meets

/-- Undoing a press takes back what the key asked for. -/
theorem meets_undo (event : KeyEvent) (entry : ActiveKey)
    (meets : s.holdings.Meets exact p.layerModifiers (d.add entry))
    (room : exact → d.AtMost Demand.largest) :
    (s.undo p event entry).holdings.Meets exact p.layerModifiers d := by
  obtain ⟨action, state⟩ := entry
  unfold undo
  cases state with
  | stroke stroke =>
    rw [d.add_press rfl rfl rfl] at meets
    exact meets.releaseStroke
  | modifiers set =>
    rw [d.add_hold rfl rfl] at meets
    exact meets.unholdModifiers
  | tapped =>
    dsimp only
    cases dual : action.tap? with
    | none =>
      have silent : ActiveKey.stroke? ⟨action, .tapped⟩ = none := dual
      rw [d.add_none silent rfl rfl] at meets
      exact meets
    | some tap =>
      have keeps : ActiveKey.stroke? ⟨action, .tapped⟩ = some tap := dual
      rw [d.add_press keeps rfl rfl] at meets
      exact meets.releaseStroke
  | held =>
    cases action with
    | modTap hold tap =>
      rw [d.add_hold rfl rfl] at meets
      exact meets.unholdModifiers
    | layerTap layer tap =>
      rw [d.add_holdLayer rfl rfl rfl] at meets
      exact meets.unholdLayer
    | _ =>
      rw [d.add_none rfl rfl rfl] at meets
      exact meets
  | oneShot =>
    rw [d.add_none rfl rfl rfl] at meets
    exact (Holdings.meets_oneShotDurable p.layerModifiers room).releaseTrigger _ _ meets
  | layer id =>
    rw [d.add_holdLayer rfl rfl rfl] at meets
    exact meets.unholdLayer
  | pending since =>
    rw [d.add_none rfl rfl rfl] at meets
    exact meets
  | inert =>
    rw [d.add_none rfl rfl rfl] at meets
    exact meets

/-- Settling a waiting key asks for what its new state says. -/
theorem meets_settled (meets : s.holdings.Meets exact p.layerModifiers d) (decision : Decision)
    (head : PendingKey)
    (room : exact → (d.add ⟨head.action, decision.state⟩).AtMost Demand.largest) :
    (s.settled p decision head).holdings.Meets exact p.layerModifiers
      (d.add ⟨head.action, decision.state⟩) := by
  have noted : (s.holdings.announce (.settled head.key decision)).Meets exact p.layerModifiers d :=
    meets.announce _
  obtain ⟨key, action, since, deadline, buffer⟩ := head
  cases decision with
  | hold =>
    show ((s.holdings.announce _).holdAction p.layerModifiers action).Meets exact _ _
    dsimp only [Decision.state] at room ⊢
    cases action with
    | modTap hold tap =>
      rw [d.add_hold rfl rfl] at room ⊢
      exact noted.holdModifiers hold room
    | layerTap layer tap =>
      rw [d.add_holdLayer rfl rfl rfl] at room ⊢
      exact noted.holdLayer layer room
    | _ =>
      rw [d.add_none rfl rfl rfl]
      exact noted
  | tap =>
    dsimp only [Decision.state] at room ⊢
    unfold settled settle
    dsimp only
    cases dual : action.tap? with
    | none =>
      have silent : ActiveKey.stroke? ⟨action, .tapped⟩ = none := dual
      rw [d.add_none silent rfl rfl]
      exact noted
    | some tap =>
      have keeps : ActiveKey.stroke? ⟨action, .tapped⟩ = some tap := dual
      rw [d.add_press keeps rfl rfl] at room ⊢
      have pressed := noted.pressStroke tap fun sure => (room sure).mono (by decide)
      dsimp only
      split
      · exact pressed
      · exact (Holdings.meets_oneShotDurable p.layerModifiers room).consume action pressed

/-- What is on meets the demand of the keys that are down. -/
structure Accounted (exact : Prop) (p : Profile) (s : Engine) : Prop where
  /-- No key is down twice. -/
  distinct : s.active.Distinct
  /-- The demand is met. -/
  meets : s.holdings.Meets exact p.layerModifiers s.active.demand

namespace Accounted

/-- At the start no key is down and nothing is on. -/
theorem start (exact : Prop) (p : Profile) : Engine.start.Accounted exact p :=
  ⟨ActiveKeys.distinct_empty, .empty exact p.layerModifiers rfl rfl rfl⟩

/-- After a cancel the keys that are still down ask for nothing, and nothing is on. -/
theorem cancel (accounted : s.Accounted exact p) : (s.cancel p).Accounted exact p where
  distinct := accounted.distinct.makeInert
  meets := by
    show (s.holdings.releaseEverything p.layerModifiers).Meets exact _ s.active.makeInert.demand
    rw [s.active.demand_makeInert]
    exact .releaseEverything exact p.layerModifiers s.holdings

/-- Notes in the journal and what waits ask for nothing. -/
theorem congr (accounted : s.Accounted exact p) {next : Engine} (active : next.active = s.active)
    (meets : next.holdings.Meets exact p.layerModifiers s.active.demand) : next.Accounted exact p :=
  ⟨active ▸ accounted.distinct, active ▸ meets⟩

/-- What is noted in the journal does not bear on the accounts. -/
theorem announce (accounted : s.Accounted exact p) (signal : Signal) :
    (s.announce signal).Accounted exact p :=
  accounted.congr rfl (accounted.meets.announce signal)

/-- A key that goes down adds its demand. -/
theorem press (accounted : s.Accounted exact p) {event : KeyEvent}
    (few : exact → (s.press p event).active.size ≤ Demand.largest) :
    (s.press p event).Accounted exact p := by
  cases up : s.active.contains event.key with
  | true =>
    rw [press_of_down up]
    exact accounted.announce _
  | false =>
    have absent := ActiveKeys.contains_eq_false_iff.1 up
    rw [press_of_up up] at few ⊢
    by_cases cancels : s.resolve p event.key = .cancel
    · have gone : s.active.makeInert.find? event.key = none := by simp [absent]
      have released := Holdings.Meets.releaseEverything exact p.layerModifiers s.holdings
      simp only [performed, perform, cancels]
      refine ⟨accounted.distinct.makeInert.insert _ _, ?_⟩
      show (Holdings.announce _ _).Meets exact _ (s.active.makeInert.insert event.key _).demand
      rw [ActiveKeys.demand_insert gone, Demand.add_none _ rfl rfl rfl, ActiveKeys.demand_makeInert]
      exact released.announce _
    · have kept : (s.performed p event).2.active = s.active := active_perform p event cancels _
      dsimp only at few
      rw [kept] at few ⊢
      refine ⟨accounted.distinct.insert _ _, ?_⟩
      show (Holdings.announce _ _).Meets exact _ (s.active.insert event.key _).demand
      have room : exact → (s.active.insert event.key _).demand.AtMost Demand.largest := fun sure =>
        (ActiveKeys.demand_atMost _).mono (few sure)
      rw [ActiveKeys.demand_insert absent] at room ⊢
      have met := meets_perform (s := s.readied event) accounted.meets event cancels room
      exact met.announce _

/-- A key that goes up takes its demand away. -/
theorem release (accounted : s.Accounted exact p) {event : KeyEvent}
    (few : exact → (s.release p event).active.size ≤ Demand.largest) :
    (s.release p event).Accounted exact p := by
  cases down : s.active.find? event.key with
  | none =>
    rw [release_of_up down]
    exact accounted.announce _
  | some entry =>
    have asked := accounted.meets
    rw [ActiveKeys.demand_remove accounted.distinct down] at asked
    have left : (s.release p event).active = s.active.remove event.key := by
      rw [release_of_down down]
      exact active_undo p event entry _
    have room : exact → (s.active.remove event.key).demand.AtMost Demand.largest := fun sure =>
      (ActiveKeys.demand_atMost _).mono (left ▸ few sure)
    have met := meets_undo (s := { s with active := s.active.remove event.key }) event entry asked room
    refine ⟨left ▸ accounted.distinct.remove event.key, ?_⟩
    rw [left, release_of_down down]
    exact met.announce _

/-- Acting on an event keeps the accounts, exactly so as long as few enough keys are down afterwards. -/
theorem dispatch (accounted : s.Accounted exact p) {event : KeyEvent}
    (few : exact → (s.dispatch p event).active.size ≤ Demand.largest) :
    (s.dispatch p event).Accounted exact p := by
  have noted := accounted.announce (.dispatched event)
  unfold Engine.dispatch at few ⊢
  dsimp only at few ⊢
  split
  · rename_i pressed
    rw [if_pos pressed] at few
    exact noted.press few
  · rename_i released
    rw [if_neg released] at few
    exact noted.release few

/-- A waiting key that is settled asked for nothing before. -/
theorem settled (accounted : s.Accounted exact p) {head : PendingKey}
    (down : s.active.find? head.key = some ⟨head.action, .pending head.since⟩) (decision : Decision)
    (few : exact → (s.settled p decision head).active.size ≤ Demand.largest) :
    (s.settled p decision head).Accounted exact p := by
  have asked := accounted.meets
  rw [ActiveKeys.demand_remove accounted.distinct down, Demand.add_none _ rfl rfl rfl] at asked
  have changed := ActiveKeys.demand_setState accounted.distinct down decision.state
  have room : exact → (s.active.setState head.key decision.state).demand.AtMost Demand.largest :=
    fun sure => (ActiveKeys.demand_atMost _).mono (active_settled p decision head s ▸ few sure)
  refine ⟨active_settled p decision head s ▸ accounted.distinct.setState _ _, ?_⟩
  rw [active_settled, changed]
  rw [changed] at room
  exact meets_settled asked decision head room

/-- One-shots that run out take back what they turned on, and the keys that are down keep what they ask
for. -/
theorem elapse (accounted : s.Accounted exact p) (few : exact → s.active.size ≤ Demand.largest)
    (now : Millis) : (s.mapOneShots (·.tick · p.settings p.layerModifiers now)).Accounted exact p := by
  have room : exact → s.active.demand.AtMost Demand.largest := fun sure =>
    (ActiveKeys.demand_atMost _).mono (few sure)
  exact accounted.congr rfl
    ((Holdings.meets_oneShotDurable p.layerModifiers room).elapse now accounted.meets)

/-- A task after which there are not too many keys down leaves everything accounted for. -/
theorem step (accounted : s.Accounted exact p) (consistent : s.Consistent) {task : Task}
    {next : Engine} {more : List Task} (taken : Step p s task next more)
    (few : exact → next.active.size ≤ Demand.largest) : next.Accounted exact p := by
  cases taken with
  | early => exact accounted
  | due waiting => exact accounted.settled (consistent.down _ waiting) .hold few
  | act => exact accounted.dispatch few
  | again => exact accounted.announce _
  | lift waiting => exact accounted.settled (consistent.down _ waiting) .tap few
  | abort => exact accounted.dispatch few
  | keep => exact accounted.congr rfl accounted.meets
  | @interrupt event head waiting other =>
    have kept : (s.keptBack head event).Accounted exact p := accounted.congr rfl accounted.meets
    have waits := head_keptBack head event s
    exact kept.settled ((consistent.keptBack waiting other).down _ waits) .hold few

end Accounted

/-- While there are never too many keys down, a task leaves everything accounted for and consistent. -/
theorem Accounted.run {agenda : List Task} (accounted : s.Accounted exact p)
    (consistent : s.Consistent)
    (few : ∀ t ∈ s.trail p agenda, exact → t.active.size ≤ Demand.largest) :
    (s.run p agenda).Accounted exact p := by
  have both := trail_invariant (p := p) (fun s => s.Consistent ∧ s.Accounted exact p)
    (fun t => exact → t.active.size ≤ Demand.largest)
    (fun _ _ _ _ taken few holds =>
      ⟨(consistent_lasting p).step taken holds.1, holds.2.step holds.1 taken few⟩)
    few ⟨consistent, accounted⟩
  exact both.2

/-- A tick keeps the accounts through every key that it settles and every event that it replays. -/
theorem Accounted.tick {now : Millis} (accounted : s.Accounted exact p) (consistent : s.Consistent)
    (few : ∀ t ∈ s.trail p [.expire now], exact → t.active.size ≤ Demand.largest) :
    (s.tick p now).Accounted exact p :=
  (accounted.run consistent few).elapse (few _ (run_mem_trail p s _)) now

/-- While there are never too many keys down, a call leaves everything accounted for. -/
theorem Accounted.answer {call : Call} (accounted : s.Accounted exact p) (consistent : s.Consistent)
    (few : ∀ t ∈ s.visits p call, exact → t.active.size ≤ Demand.largest) :
    (s.answer p call).Accounted exact p := by
  cases call with
  | event event =>
    have first := fun t member => few t (List.mem_append_left _ member)
    have second := fun t member => few t (List.mem_append_right _ member)
    exact (accounted.tick consistent first).run ((consistent_lasting p).tick _ consistent) second
  | tick now => exact accounted.tick consistent few
  | cancel => exact accounted.cancel

/-- While there are never too many keys down, calls leave everything accounted for. -/
theorem Accounted.answers {calls : List Call} (accounted : s.Accounted exact p)
    (consistent : s.Consistent)
    (few : ∀ t ∈ s.history p calls, exact → t.active.size ≤ Demand.largest) :
    (calls.foldl (Engine.answer p) s).Accounted exact p := by
  induction calls generalizing s with
  | nil => exact accounted
  | cons call rest ih =>
    have first := fun t member => few t (List.mem_append_left _ member)
    have others := fun t member => few t (List.mem_append_right _ member)
    exact ih (accounted.answer consistent first) ((consistent_lasting p).answer call consistent) others

/-- Without any limit on the number of keys nothing is counted too high. -/
theorem accounted_lasting (p : Profile) :
    Lasting p fun s => s.Consistent ∧ s.Accounted False p where
  dispatch _ event acts holds :=
    ⟨(consistent_lasting p).dispatch _ event acts holds.1, holds.2.dispatch False.elim⟩
  settled _ decision head waiting holds :=
    ⟨holds.1.settled decision waiting, holds.2.settled (holds.1.down head waiting) decision False.elim⟩
  keptBack _ _ _ waiting other holds :=
    ⟨holds.1.keptBack waiting other, holds.2.congr rfl holds.2.meets⟩
  warn _ _ holds := ⟨holds.1.congr rfl rfl, holds.2.announce _⟩
  elapse _ now holds := ⟨holds.1.congr rfl rfl, holds.2.elapse False.elim now⟩
  cancel _ holds := ⟨.cancel _, holds.2.cancel⟩

/-- Between calls no modifier is masked. -/
theorem unmasked_durable (lm : LayerModifiers) :
    Holdings.Durable lm fun h => h.modifiers.suppressed = ∅ where
  pressStroke h stroke clear := by simpa [Holdings.pressStroke, ModifierState.attach] using clear
  releaseStroke h stroke clear := by simpa [Holdings.releaseStroke, ModifierState.detach] using clear
  tapStroke h stroke clear := by
    simpa [Holdings.tapStroke, ModifierState.attach, ModifierState.detach] using clear
  retypeStroke h stroke clear := by simpa [Holdings.retypeStroke, ModifierState.attach] using clear
  pressManualShift h unshifted shifted clear := by
    unfold Holdings.pressManualShift
    dsimp only
    split
    · simpa [Holdings.pressStroke, ModifierState.attach] using clear
    · refine ModifierSet.ext_contains fun m => ?_
      simp [Holdings.pressStroke, ModifierState.attach, ModifierState.suppress,
        ModifierState.unsuppress, clear]
  holdModifiers h set clear := by simpa [Holdings.holdModifiers, ModifierState.hold] using clear
  unholdModifiers h set clear := by simpa [Holdings.unholdModifiers, ModifierState.unhold] using clear
  activateLayer h id kind clear := by
    rw [Holdings.modifiers_activateLayer]
    exact clear
  deactivateLayer h id kind clear := by
    rw [Holdings.modifiers_deactivateLayer]
    exact clear
  applyOneShotModifiers h set change clear := by
    cases change with
    | apply => simpa [Holdings.applyOneShotModifiers, ModifierState.addOneShot] using clear
    | revoke => simpa [Holdings.applyOneShotModifiers, ModifierState.removeOneShot] using clear
  releaseEverything h _ := by
    rw [Holdings.modifiers_releaseEverything]
    rfl

/-- No deed leaves a modifier masked. -/
theorem unmasked_lasting (p : Profile) : Lasting p fun s => s.holdings.modifiers.suppressed = ∅ :=
  (unmasked_durable p.layerModifiers).lasting fun _ _ _ clear => clear

/-- No modifier is suppressed between two calls. -/
theorem unmasked (p : Profile) (calls : List Call) :
    (after p calls).holdings.modifiers.suppressed = ∅ :=
  (unmasked_lasting p).after rfl calls

/-- The counts are exact. After every run in which never more than 247 keys are down at once: a code that
is no modifier is counted as often as keys keep it down, a modifier attached to strokes as often as keys
keep such a stroke down, and a modifier that is held as often as keys hold it and layers that are on hold
it. Every key and every layer is counted once, the base layer is not among them, and nothing is masked. -/
theorem counts_exact (p : Profile) (calls : List Call)
    (few : ∀ t ∈ start.history p calls, t.active.size ≤ 247) :
    let s := after p calls
    let on := s.holdings.layers.activeIds
    (∀ code, code.isModifier = false →
      s.holdings.register.count code = s.active.tally (·.presses code)) ∧
    (∀ m, s.holdings.modifiers.attached.count m = s.active.tally (·.attaches m)) ∧
    (∀ m, s.holdings.modifiers.held.count m =
      s.active.tally (·.holds m) + on.countP (p.layerModifiers.holds · m)) ∧
    s.active.Distinct ∧ (baseLayer :: on).Nodup ∧
    s.holdings.modifiers.suppressed = ∅ := by
  intro s on
  have accounted : s.Accounted True p :=
    (Accounted.start True p).answers consistent_start fun t member _ => few t member
  have meets := accounted.meets
  refine ⟨fun code plain => (meets.codes code plain).eq trivial, fun m => (meets.attached m).eq trivial,
    fun m => (meets.held m).eq trivial, accounted.distinct, ?_, unmasked p calls⟩
  refine List.nodup_cons.2 ⟨?_, LayerStack.nodup_activeIds _⟩
  intro base
  obtain ⟨kind, entered⟩ := LayerStack.mem_activeIds.1 base
  exact meets.sound.base_absent _ entered rfl

set_option maxRecDepth 10000 in
/-- Three keys are down: one holds control, one holds a layer that holds alt, and one keeps the code of
that layer down after it was typed once while the others waited. -/
theorem counts_exact_nested :
    (∀ t ∈ start.history .sample Call.nestedAgain, t.active.size ≤ 247) ∧
    (after .sample Call.nestedAgain).holdings.register.count .d = 1 ∧
    (after .sample Call.nestedAgain).holdings.modifiers.attached.count .leftShift = 0 ∧
    (after .sample Call.nestedAgain).holdings.modifiers.held.count .leftControl = 1 ∧
    (after .sample Call.nestedAgain).holdings.modifiers.held.count .rightAlt = 1 := by
  have few : ∀ t ∈ start.history .sample Call.nestedAgain, t.active.size ≤ 247 := by
    have all : (start.history .sample Call.nestedAgain).all
        (fun t => decide (t.active.size ≤ 247)) = true := by cbv
    simpa using all
  obtain ⟨codes, attached, held, -⟩ := counts_exact .sample Call.nestedAgain few
  refine ⟨few, (codes .d rfl).trans ?_, (attached .leftShift).trans ?_,
    (held .leftControl).trans ?_, (held .rightAlt).trans ?_⟩
  · cbv
  · cbv
  · cbv
  · cbv

end Engine

end KeyEngine
