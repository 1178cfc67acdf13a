import KeyEngine.Proofs.TurnedOn

/-!
# Layers that keys hold

A key can hold a layer, and several keys can hold the same one. The stack has one entry for all of them,
and the first of them that lets go takes it away: `active_iff_held` says that a layer is on for being held
exactly if some key took it, there was room for it then, and no key that held it has let go since. So a
layer can be off while a key still holds it.
-/

namespace KeyEngine

/-- A keyboard with two keys for one layer, and a key that the layer replaces. -/
def Profile.sharedLayer : Profile where
  keymap :=
    ⟨[⟨"base", [.momentaryLayer 1, .momentaryLayer 1, .plain (.ofCode .b)]⟩,
      ⟨"above", [.transparent, .transparent, .plain (.ofCode .c)]⟩],
      Keymap.firstFault_eq_none_iff.1 (by decide)⟩
  settings := .standard
  layerModifiers := .none

/-- Both keys for the layer go down, and the first one goes up. -/
def Call.heldTwice : List Call := [.down 0 0, .down 1 10, .up 0 20]

namespace Engine

variable {p : Profile} {s next : Engine}

/-- Whether a key holds a layer. -/
def Holds (s : Engine) (key : Key) (id : LayerId) : Prop :=
  (s.active.find? key).bind ActiveKey.layer? = some id

/-- A key holds one layer at most. -/
theorem Holds.unique {key : Key} {id other : LayerId} (held : s.Holds key id)
    (also : s.Holds key other) : id = other :=
  Option.some.inj (held.symm.trans also)

/-- What a deed does to the layers that keys hold. -/
inductive Grip (s next : Engine) : Prop where
  /-- Nothing. -/
  | same (keys : ∀ key id, next.Holds key id ↔ s.Holds key id)
      (reasons : s.holdings.SameReasons .held next.holdings)
  /-- A key takes a layer. -/
  | takes (key : Key) (id : LayerId) (fresh : ∀ other, ¬s.Holds key other)
      (keys : ∀ other above, next.Holds other above ↔ s.Holds other above ∨ other = key ∧ above = id)
      (layers : next.holdings.layers = (s.holdings.layers.activate id .held).1)
  /-- A key lets go of a layer. -/
  | lets (key : Key) (id : LayerId) (held : s.Holds key id)
      (keys : ∀ other above, next.Holds other above ↔ s.Holds other above ∧ other ≠ key)
      (layers : next.holdings.layers = (s.holdings.layers.deactivate id .held).1)
  /-- All keys let go of everything, and all layers go off. -/
  | drops (none : ∀ key id, ¬next.Holds key id) (layers : next.holdings.layers = .empty)

namespace Grip

/-- What concerns neither layers nor keys may come before and after. -/
theorem congr {before after last : Engine} (grip : Grip before after)
    (first : before.holdings.layers = s.holdings.layers) (keys : before.active = s.active)
    (later : last.holdings.layers = after.holdings.layers) (still : last.active = after.active) :
    Grip s last := by
  have start (key : Key) (id : LayerId) : before.Holds key id ↔ s.Holds key id := by
    rw [Holds, Holds, keys]
  have done (key : Key) (id : LayerId) : last.Holds key id ↔ after.Holds key id := by
    rw [Holds, Holds, still]
  cases grip with
  | same keys reasons =>
    refine .same (fun key id => (done key id).trans ((keys key id).trans (start key id))) fun id => ?_
    rw [later, reasons id, first]
  | takes key id fresh keys layers =>
    refine .takes key id (fun other => mt (start key other).2 (fresh other)) (fun other above => ?_) ?_
    · rw [done, keys, start]
    · rw [later, layers, first]
  | lets key id held keys layers =>
    refine .lets key id ((start key id).1 held) (fun other above => ?_) ?_
    · rw [done, keys, start]
    · rw [later, layers, first]
  | drops none layers =>
    exact .drops (fun key id => mt (done key id).1 (none key id)) (later.trans layers)

/-- Nothing changes for the held layers where the same keys are down and the same layers are on for
being held. -/
theorem of_same (active : next.active = s.active) (reasons : s.holdings.SameReasons .held next.holdings) :
    Grip s next :=
  .same (fun key id => by rw [Holds, Holds, active]) reasons

/-- No key holds a layer after a cancel. -/
theorem not_holds_makeInert (keys : ActiveKeys) (key : Key) (id : LayerId) :
    (keys.makeInert.find? key).bind ActiveKey.layer? ≠ some id := by
  rw [ActiveKeys.find?_makeInert]
  cases keys.find? key <;> nofun

/-- A cancel takes every layer from every key. -/
theorem cancel (s : Engine) : Grip s (s.cancel p) :=
  .drops (not_holds_makeInert s.active) (Holdings.layers_releaseEverything _ _)

/-- A key that goes down without taking a layer. -/
theorem of_insert {key : Key} {entry : ActiveKey} (free : ∀ id, ¬s.Holds key id)
    (low : entry.layer? = none) (active : next.active = s.active.insert key entry)
    (reasons : s.holdings.SameReasons .held next.holdings) : Grip s next := by
  refine .same (fun other id => ?_) reasons
  rw [Holds, active, ActiveKeys.find?_insert]
  split
  · rename_i same
    rw [same, Option.bind_some, low]
    exact iff_of_false nofun (free id)
  · exact Iff.rfl

/-- A key that goes down takes a layer or leaves the held ones alone. -/
theorem press {event : KeyEvent} (up : s.active.contains event.key = false) :
    Grip s (s.press p event) := by
  have free (id : LayerId) : ¬s.Holds event.key id := by
    have absent : s.active.find? event.key = none := by simpa [ActiveKeys.contains] using up
    rw [Holds, absent]
    intro taken
    cases taken
  rw [press_of_up up]
  have spec := effect_spec p event (s.resolve p event.key) (s.readied event)
  change Effect p event _ _ (s.performed p event) at spec
  generalize s.performed p event = result at spec ⊢
  generalize s.resolve p event.key = action at spec ⊢
  cases spec with
  | types counts low =>
    have typed : s.holdings.Alike (s.holdings.types action) := .types action
    have used : (s.holdings.types action).SameReasons .held
        (s.oneShots.consume (s.holdings.types action) p.settings p.layerModifiers action).2 :=
      (OneShots.Move.consume action).sameReasons (by decide)
    exact of_insert free low rfl ((Holdings.SameReasons.of_layers typed.layers).trans used)
  | triggers starts =>
    have pressed : s.holdings.SameReasons .held
        (s.oneShots.press s.holdings p.settings p.layerModifiers action event.time).2 :=
      (OneShots.Move.press action event.time).sameReasons (by decide)
    exact of_insert free rfl rfl pressed
  | holds => exact of_insert free rfl rfl (.of_layers (Holdings.Alike.holdModifiers _).layers)
  | takes id =>
    refine .takes event.key id free (fun other above => ?_) (Holdings.layers_activateLayer _ _ _ _)
    rw [Holds, ActiveKeys.find?_insert]
    split
    · rename_i same
      have low : (ActiveKey.mk (.momentaryLayer id) (.layer id)).layer? = some id := rfl
      rw [Option.bind_some, low]
      simp [same, free, eq_comm]
    · rename_i differs
      exact (or_iff_left fun both => differs both.1).symm
  | toggles id => exact of_insert free rfl rfl (Holdings.sameReasons_toggleLayer (by decide))
  | cancels =>
    refine .drops (fun key id => ?_) (Holdings.layers_releaseEverything _ _)
    rw [Holds, ActiveKeys.find?_insert]
    split
    · intro taken
      cases taken
    · exact not_holds_makeInert s.active key id
  | waits tapHold _ low => exact of_insert free low rfl (.of_layers rfl)

/-- A key that goes up and held no layer. -/
theorem of_remove {key : Key} (free : ∀ id, ¬s.Holds key id)
    (active : next.active = s.active.remove key)
    (reasons : s.holdings.SameReasons .held next.holdings) : Grip s next := by
  refine .same (fun other id => ?_) reasons
  rw [Holds, active, ActiveKeys.find?_remove]
  split
  · rename_i same
    rw [same]
    exact iff_of_false nofun (free id)
  · exact Iff.rfl

/-- A key that goes up lets its layer go or leaves the held ones alone. -/
theorem release {event : KeyEvent} {entry : ActiveKey}
    (down : s.active.find? event.key = some entry) : Grip s (s.release p event) := by
  have holds (id : LayerId) : s.Holds event.key id ↔ entry.layer? = some id := by
    rw [Holds, down, Option.bind_some]
  rw [release_of_down down]
  have spec := undone_spec p event entry { s with active := s.active.remove event.key }
  have active := active_undo p event entry { s with active := s.active.remove event.key }
  generalize Engine.undo p event entry { s with active := s.active.remove event.key } = result at *
  cases spec with
  | lets id held =>
    refine .lets event.key id ((holds id).2 held) (fun other above => ?_)
      (Holdings.layers_deactivateLayer _ _ _ _)
    rw [Holds]
    show ((s.active.remove event.key).find? other).bind _ = _ ↔ _
    rw [ActiveKeys.find?_remove]
    split
    · rename_i same
      simp [same]
    · rename_i differs
      exact (and_iff_left differs).symm
  | lifts pressed =>
    have low : entry.layer? = none := by
      obtain ⟨action, state⟩ := entry
      cases pressed
      rfl
    have lifted : s.holdings.SameReasons .held
        (s.oneShots.release s.holdings p.settings p.layerModifiers entry.action event.time).2 :=
      (OneShots.Move.release entry.action event.time).sameReasons (by decide)
    exact of_remove (fun id => by rw [holds, low]; nofun) rfl lifted
  | frees low alike =>
    exact of_remove (fun id => by rw [holds, low]; nofun) active (.of_layers alike.layers)

/-- Acting on an event does one of these things to the held layers. -/
theorem dispatch (event : KeyEvent) (s : Engine) : Grip s (s.dispatch p event) := by
  unfold Engine.dispatch
  dsimp only
  split
  · cases up : (s.announce (.dispatched event)).active.contains event.key with
    | true =>
      rw [press_of_down up]
      exact of_same rfl (.of_layers rfl)
    | false => exact (press (p := p) up).congr rfl rfl rfl rfl
  · cases found : (s.announce (.dispatched event)).active.find? event.key with
    | none =>
      rw [release_of_up found]
      exact of_same rfl (.of_layers rfl)
    | some entry => exact (release (p := p) found).congr rfl rfl rfl rfl

/-- A waiting key that is settled. -/
theorem settled {decision : Decision} {head : PendingKey}
    (waits : s.active.find? head.key = some ⟨head.action, .pending head.since⟩) :
    Grip s (s.settled p decision head) := by
  have free (id : LayerId) : ¬s.Holds head.key id := by
    rw [Holds, waits]
    nofun
  have active := active_settled p decision head s
  have after (key : Key) (id : LayerId) : (s.settled p decision head).Holds key id ↔
      if key = head.key then (ActiveKey.mk head.action decision.state).layer? = some id
      else s.Holds key id := by
    rw [Holds, active, ActiveKeys.find?_setState]
    split
    · rename_i same
      rw [same, waits]
      exact Iff.rfl
    · rw [Option.map_id']
      exact Iff.rfl
  have low (none : (ActiveKey.mk head.action decision.state).layer? = none) (key : Key)
      (id : LayerId) : (s.settled p decision head).Holds key id ↔ s.Holds key id := by
    rw [after]
    split
    · rename_i same
      rw [none, same]
      exact iff_of_false nofun (free id)
    · exact Iff.rfl
  have spec := settlement_spec p decision head s
  generalize s.settled p decision head = next at *
  cases spec with
  | types =>
    have typed : s.holdings.Alike ((s.marked .tap head).holdings.types head.action) :=
      (Holdings.Alike.announce _ _).trans (.types head.action)
    have used : ((s.marked .tap head).holdings.types head.action).SameReasons .held
        (s.oneShots.consume ((s.marked .tap head).holdings.types head.action) p.settings
          p.layerModifiers head.action).2 :=
      (OneShots.Move.consume head.action).sameReasons (by decide)
    exact .same (low rfl) ((Holdings.SameReasons.of_layers typed.layers).trans used)
  | takes id held =>
    refine .takes head.key id free (fun other above => ?_) (Holdings.layers_activateLayer _ _ _ _)
    rw [after]
    split
    · rename_i same
      have taken : (ActiveKey.mk head.action Decision.hold.state).layer? = some id := held
      rw [taken]
      simp [same, free, eq_comm]
    · rename_i differs
      exact (or_iff_left fun both => differs both.1).symm
  | spares _ none alike => exact .same (low none) (.of_layers alike.layers)

/-- Every deed does one of these things. -/
theorem moment (p : Profile) {m : Moment} (consistent : m.state.Consistent) :
    Grip m.state (m.next p) := by
  obtain ⟨s, deed⟩ := m
  cases deed with
  | elapse now =>
    have told : s.holdings.SameReasons .held
        (s.oneShots.tick s.holdings p.settings p.layerModifiers now).2 :=
      (OneShots.Move.tick now).sameReasons (by decide)
    exact of_same rfl told
  | cancel => exact cancel s
  | task task =>
    have taken := step_spec p s task
    show Grip s (step p s task).1
    generalize (step p s task).1 = result, (step p s task).2 = more at taken ⊢
    cases taken with
    | early => exact of_same rfl (.of_layers rfl)
    | due waiting => exact settled (consistent.down _ waiting)
    | act => exact dispatch _ s
    | again => exact of_same rfl (.of_layers rfl)
    | lift waiting => exact settled (consistent.down _ waiting)
    | abort => exact dispatch _ s
    | keep => exact of_same rfl (.of_layers rfl)
    | @interrupt event head waiting =>
      have waits : s.active.find? (head.push event).key =
          some ⟨(head.push event).action, .pending (head.push event).since⟩ :=
        consistent.down head waiting
      exact settled waits

end Grip

end Engine

namespace Moment

/-- Some key takes a layer at a moment: it did not hold the layer before. -/
def Takes (p : Profile) (id : LayerId) (m : Moment) : Prop :=
  ∃ key, ¬m.state.Holds key id ∧ (m.next p).Holds key id

/-- Some key lets go of a layer at a moment: it holds the layer no longer. -/
def Lets (p : Profile) (id : LayerId) (m : Moment) : Prop :=
  ∃ key, m.state.Holds key id ∧ ¬(m.next p).Holds key id

end Moment

namespace Engine

variable {p : Profile} {s : Engine} {id : LayerId}

/-- A layer is on for being held only while some key holds it. -/
theorem Accounted.holder (accounted : s.Accounted False p)
    (listed : ⟨id, .held⟩ ∈ s.holdings.layers.entries) : ∃ key, s.Holds key id := by
  have asked : 0 < s.active.tally (·.holdsLayer id) := accounted.meets.entered id listed
  obtain ⟨⟨key, entry⟩, down, holds⟩ := List.countP_pos_iff.1 asked
  obtain ⟨held, takes, same⟩ := (Option.any_eq_true _ _).1 holds
  refine ⟨key, ?_⟩
  rw [Holds, ActiveKeys.find?_of_mem accounted.distinct down, Option.bind_some, takes,
    of_decide_eq_true same]

/-- No key takes a layer while another lets go of it. -/
theorem Grip.apart {m : Moment} (grip : Grip m.state (m.next p)) (taken : m.Takes p id) :
    ¬m.Lets p id := by
  obtain ⟨taker, free, takes⟩ := taken
  rintro ⟨key, held, lets⟩
  cases grip with
  | same keys => exact lets ((keys key id).2 held)
  | takes _ _ _ keys => exact lets ((keys key id).2 (.inl held))
  | lets _ _ _ keys => exact free ((keys taker id).1 takes).1
  | drops none => exact none taker id takes

/-- A layer is on for being held after a moment if it was taken then, and there was room, or if it was on
before and no key let go. -/
theorem Grip.held_iff {m : Moment} (grip : Grip m.state (m.next p)) (above : id ≠ baseLayer)
    (holder : ⟨id, .held⟩ ∈ m.state.holdings.layers.entries → ∃ key, m.state.Holds key id) :
    ⟨id, .held⟩ ∈ (m.next p).holdings.layers.entries ↔
      (m.Takes p id ∧ (m.state.holdings.layers.activate id .held).2 ≠ .refused) ∨
        (⟨id, .held⟩ ∈ m.state.holdings.layers.entries ∧ ¬m.Lets p id) := by
  unfold Moment.Takes Moment.Lets
  cases grip with
  | same keys reasons =>
    rw [reasons id]
    simp [keys]
  | takes key other fresh keys layers =>
    rw [layers]
    by_cases same : id = other
    · subst same
      rw [LayerStack.mem_activate_self above]
      have known (listed : ⟨id, .held⟩ ∈ m.state.holdings.layers.entries) :
          (m.state.holdings.layers.activate id .held).2 ≠ .refused := by
        rw [← LayerStack.mem_activate_self above]
        exact LayerStack.mem_activate_of_mem listed id .held
      have taken : ∃ key, ¬m.state.Holds key id ∧ (m.next p).Holds key id :=
        ⟨key, fresh id, (keys key id).2 (.inr ⟨rfl, rfl⟩)⟩
      constructor
      · exact fun room => .inl ⟨taken, room⟩
      · rintro (⟨-, room⟩ | ⟨listed, -⟩)
        · exact room
        · exact known listed
    · rw [LayerStack.mem_activate_of_ne (by simp [same])]
      simp [keys, same]
  | lets key other held keys layers =>
    have untaken : ¬∃ key, ¬m.state.Holds key id ∧ (m.next p).Holds key id := by
      rintro ⟨free, before, after⟩
      exact before ((keys free id).1 after).1
    rw [layers, LayerStack.mem_deactivate]
    by_cases same : id = other
    · subst same
      have lets : ∃ key, m.state.Holds key id ∧ ¬(m.next p).Holds key id :=
        ⟨key, held, fun after => ((keys key id).1 after).2 rfl⟩
      refine iff_of_false (fun stays => stays.2 rfl) ?_
      rintro (⟨taken, -⟩ | ⟨-, stays⟩)
      · exact untaken taken
      · exact stays lets
    · have stays : ¬∃ key, m.state.Holds key id ∧ ¬(m.next p).Holds key id := by
        rintro ⟨holder, before, after⟩
        refine after ((keys holder id).2 ⟨before, ?_⟩)
        rintro rfl
        exact same (before.unique held)
      simp only [untaken, false_and, false_or, stays, not_false_eq_true, and_true]
      exact and_iff_left (by simp [same])
  | drops none layers =>
    rw [layers]
    refine iff_of_false List.not_mem_nil ?_
    rintro (⟨⟨key, -, after⟩, -⟩ | ⟨listed, stays⟩)
    · exact none key id after
    · obtain ⟨key, held⟩ := holder listed
      exact stays ⟨key, held, none key id⟩

/-- A layer is on for being held exactly if some key took it in the run, there was room for it then, and
no key that held it has let go since. -/
theorem held_iff (p : Profile) (calls : List Call) (above : id ≠ baseLayer) :
    ⟨id, .held⟩ ∈ (after p calls).holdings.layers.entries ↔
      ∃ before m later, start.course p calls = before ++ m :: later ∧ m.Takes p id ∧
        (m.state.holdings.layers.activate id .held).2 ≠ .refused ∧ ∀ n ∈ later, ¬n.Lets p id := by
  have course := leads_course p start calls
  have lasts := accounted_lasting p
  have sound : start.Consistent ∧ start.Accounted False p := ⟨consistent_start, .start False p⟩
  have deed {m : Moment} (holds : m.state.Consistent ∧ m.state.Accounted False p) :=
    (Grip.moment p holds.1).held_iff above holds.2.holder
  constructor
  · intro listed
    obtain ⟨before, m, later, split, off, starts, stays⟩ :=
      course.last_start (P := fun s => ⟨id, .held⟩ ∈ s.holdings.layers.entries) List.not_mem_nil listed
    rw [split] at course
    obtain ⟨u, first, rfl, rest⟩ := leads_append.1 course
    have holds := lasts.leads first sound
    obtain ⟨taken, room⟩ | ⟨on, -⟩ := (deed holds).1 starts
    · refine ⟨before, m, later, split, taken, room, fun n member => ?_⟩
      obtain ⟨earlier, others, rfl⟩ := List.append_of_mem member
      obtain ⟨v, within, rfl, -⟩ := leads_append.1 rest
      have still := lasts.leads within (lasts.next m holds)
      obtain ⟨again, -⟩ | ⟨-, stays⟩ := (deed still).1 (stays n member).2
      · exact (Grip.moment p still.1).apart again
      · exact stays
    · exact absurd on off
  · rintro ⟨before, m, later, split, taken, room, stays⟩
    rw [split] at course
    obtain ⟨u, first, rfl, rest⟩ := leads_append.1 course
    have holds := lasts.leads first sound
    have opened := (deed holds).2 (.inl ⟨taken, room⟩)
    have kept := @Leads.invariant p _ _ (fun s => (s.Consistent ∧ s.Accounted False p) ∧
        ⟨id, .held⟩ ∈ s.holdings.layers.entries) later rest
      (fun n member held => ⟨lasts.next n held.1, (deed held.1).2 (.inr ⟨held.2, stays n member⟩)⟩)
      ⟨lasts.next m holds, opened⟩
    exact kept.2

/-- A held layer stays on until the first of its keys lets go. After every run of calls, a layer above the
base layer is on exactly if it is on for another reason than being held, or some key took it, there was
room for it then, and no key that held it has let go since. -/
theorem active_iff_held (p : Profile) (calls : List Call) (above : id ≠ baseLayer) :
    (after p calls).holdings.layers.isActive id = true ↔
      (∃ kind, kind ≠ .held ∧ ⟨id, kind⟩ ∈ (after p calls).holdings.layers.entries) ∨
      ∃ before m later, start.course p calls = before ++ m :: later ∧ m.Takes p id ∧
        (m.state.holdings.layers.activate id .held).2 ≠ .refused ∧ ∀ n ∈ later, ¬n.Lets p id := by
  rw [LayerStack.isActive_iff, ← held_iff p calls above]
  constructor
  · rintro (base | ⟨kind, listed⟩)
    · exact absurd base above
    · by_cases held : kind = .held
      · exact .inr (held ▸ listed)
      · exact .inl ⟨kind, held, listed⟩
  · rintro (⟨kind, -, listed⟩ | listed)
    · exact .inr ⟨kind, listed⟩
    · exact .inr ⟨.held, listed⟩

set_option maxRecDepth 10000 in
/-- While both keys are down the layer is on, for one of them took it and none let go; once the first one
is up, every moment at which the layer was taken is followed by one at which a key let go of it. -/
theorem active_iff_held_twice :
    (1 : LayerId) ≠ baseLayer ∧
    (∃ before m later, start.course .sharedLayer (Call.heldTwice.take 2) = before ++ m :: later ∧
      m.Takes .sharedLayer 1 ∧ (m.state.holdings.layers.activate 1 .held).2 ≠ .refused ∧
      ∀ n ∈ later, ¬n.Lets .sharedLayer 1) ∧
    ¬∃ before m later, start.course .sharedLayer Call.heldTwice = before ++ m :: later ∧
      m.Takes .sharedLayer 1 ∧ (m.state.holdings.layers.activate 1 .held).2 ≠ .refused ∧
      ∀ n ∈ later, ¬n.Lets .sharedLayer 1 := by
  have above : (1 : LayerId) ≠ baseLayer := by decide
  have on : (after .sharedLayer (Call.heldTwice.take 2)).holdings.layers.isActive 1 = true := by cbv
  have off : (after .sharedLayer Call.heldTwice).holdings.layers.isActive 1 = false := by cbv
  have only : (after .sharedLayer (Call.heldTwice.take 2)).holdings.layers.entries =
      [⟨1, .held⟩] := by cbv
  refine ⟨above, ?_, fun taken => ?_⟩
  · have held := (active_iff_held .sharedLayer (Call.heldTwice.take 2) above).1 on
    rcases held with ⟨kind, other, listed⟩ | taken
    · rw [only] at listed
      simp [other] at listed
    · exact taken
  · have still := (active_iff_held .sharedLayer Call.heldTwice above).2 (.inr taken)
    rw [off] at still
    cases still

/-- The second key for the layer goes down. -/
def secondTake : Moment :=
  ⟨(after .sharedLayer (Call.heldTwice.take 1)).tick .sharedLayer (.ofWord 10),
    .task (.feed ⟨⟨1⟩, true, .ofWord 10⟩)⟩

set_option maxRecDepth 10000 in
/-- The second key took the layer, for which there was room, and still holds it; but the layer is off,
since the first key went up. -/
theorem off_while_held :
    Call.Regular Call.heldTwice ∧ secondTake ∈ start.course .sharedLayer Call.heldTwice ∧
    (¬secondTake.state.Holds ⟨1⟩ 1 ∧ (secondTake.next .sharedLayer).Holds ⟨1⟩ 1) ∧
    (secondTake.state.holdings.layers.activate 1 .held).2 ≠ .refused ∧
    (after .sharedLayer Call.heldTwice).Holds ⟨1⟩ 1 ∧
    (after .sharedLayer Call.heldTwice).holdings.layers.isActive 1 = false := by
  have course : start.course .sharedLayer Call.heldTwice =
      (start.course .sharedLayer Call.heldTwice).take 5 ++ secondTake ::
        (start.course .sharedLayer Call.heldTwice).drop 6 := by cbv
  have absent : secondTake.state.active.find? ⟨1⟩ = none := by cbv
  have down : (secondTake.next .sharedLayer).active.find? ⟨1⟩ =
      some ⟨.momentaryLayer 1, .layer 1⟩ := by cbv
  have room : (secondTake.state.holdings.layers.activate 1 .held).2 = .kept := by cbv
  have still : (after .sharedLayer Call.heldTwice).active.find? ⟨1⟩ =
      some ⟨.momentaryLayer 1, .layer 1⟩ := by cbv
  refine ⟨by decide, ?_, ⟨?_, ?_⟩, ?_, ?_, by cbv⟩
  · rw [course]
    exact List.mem_append_right _ List.mem_cons_self
  · rw [Holds, absent]
    intro taken
    cases taken
  · rw [Holds, down]
    rfl
  · rw [room]
    intro refused
    cases refused
  · rw [Holds, still]
    rfl

end Engine

end KeyEngine
