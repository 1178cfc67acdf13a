import Mathlib
import KeyEngine.Proofs.Demand
import KeyEngine.Proofs.Mirror
import KeyEngine.Proofs.Moments

/-!
# Telling the time more often

Two kinds of timers run in the engine. A key that waits is settled when its deadline has come, and the
events behind it then get their turn at their own times; a one-shot moves on when the engine is told the
time. Each kind alone does not care how often the time is told: `run_expire_expire` says so of the
waiting key, and `bare_elapse_elapse` of the one-shots, where the order in which they end may differ but
not the outcome. `tick_after_tick` puts the two together. They disturb each other where a one-shot moves
on at a tick that comes before a waiting key is settled: too early for the events behind that key, or, if
there are none, in time to make room for the layer that the key holds. A key that is `Lone` has no event
behind it and needs no such room.
-/

namespace KeyEngine

namespace Call

/-- On the mixed keyboard, a layer latched for two seconds; then a key goes down that waits, and a stroke
behind it, both at given times. -/
def latchedThen (waits types : UInt64) : List Call :=
  [.down 4 0, .up 4 10, .down 0 waits, .down 1 types]

/-- Seven layers are toggled and another one is latched, so that the stack is full; then the ninth key goes
down. -/
def crowd : List Call :=
  [.down 0 0, .down 1 0, .down 2 0, .down 3 0, .down 4 0, .down 5 0, .down 6 0, .down 7 10, .up 7 20,
    .down 8 1900]

end Call

/-- A keyboard with seven layers to be toggled, a one-shot for another one, and one more that is held by a key
that waits. -/
def Profile.crowded : Profile where
  keymap :=
    ⟨⟨"base", [.toggleLayer 1, .toggleLayer 2, .toggleLayer 3, .toggleLayer 4, .toggleLayer 5,
        .toggleLayer 6, .toggleLayer 7, .oneShotLayer 8, .layerTap 9 (.ofCode .a)]⟩ ::
      List.replicate 9 ⟨"above", []⟩, Keymap.firstFault_eq_none_iff.1 (by decide)⟩
  settings := .standard
  layerModifiers := .none

namespace Millis

variable {earlier now : Millis}

/-- At a later moment no less time has passed since a start. -/
theorem since_mono (le : earlier ≤ now) (start : Millis) : earlier.since start ≤ now.since start := by
  rw [le_def] at le ⊢
  simp only [count_since]
  omega

/-- A deadline that has come stays due. -/
theorem isDue_mono (le : earlier ≤ now) {deadline : Millis} (due : deadline.isDue earlier = true) :
    deadline.isDue now = true :=
  isDue_iff.2 (Nat.le_trans (isDue_iff.1 due) le)

end Millis

namespace OneShot

/-- Whether a machine moves on when it is told the time. -/
def isDue (settings : Settings) (now : Millis) (m : OneShot) : Bool :=
  match m.phase with
  | .queued since => decide (settings.tappingTerm ≤ now.since since)
  | .latched (some deadline) => deadline.isDue now
  | _ => false

/-- Whether a machine is turned off when it is told the time. -/
def ends (now : Millis) (m : OneShot) : Bool :=
  match m.phase with
  | .latched (some deadline) => deadline.isDue now
  | _ => false

variable (settings : Settings) (m : OneShot) {earlier now : Millis}

/-- A machine that is not due is left as it is when it is told the time. -/
theorem tick_of_early (early : m.isDue settings now = false) : m.tick settings now = (m, none) := by
  obtain ⟨phase, taps, lastRelease⟩ := m
  cases phase with
  | queued since => simpa [tick] using of_decide_eq_false early
  | latched deadline =>
    cases deadline with
    | none => rfl
    | some deadline =>
      have early : deadline.isDue now = false := early
      simp [tick, early]
  | _ => rfl

/-- A machine that is told the time answers with a revocation exactly if that ends it. -/
theorem tick_answer (now : Millis) :
    (m.tick settings now).2 = if m.ends now then some .revoke else none := by
  obtain ⟨phase, taps, lastRelease⟩ := m
  cases phase with
  | queued since => by_cases long : settings.tappingTerm ≤ now.since since <;> simp [tick, ends, long]
  | latched deadline =>
    cases deadline with
    | none => rfl
    | some deadline => by_cases due : deadline.isDue now = true <;> simp [tick, ends, due]
  | _ => rfl

/-- A machine that would end at one time would end at every later one. -/
theorem ends_mono (le : earlier ≤ now) (ended : m.ends earlier = true) : m.ends now = true := by
  unfold ends at ended ⊢
  split at ended
  · exact Millis.isDue_mono le ended
  · cases ended

/-- A machine that is told the time twice ends up where the second time alone leads it. -/
theorem tick_tick (le : earlier ≤ now) :
    ((m.tick settings earlier).1.tick settings now).1 = (m.tick settings now).1 := by
  obtain ⟨phase, taps, lastRelease⟩ := m
  cases phase with
  | queued since =>
    by_cases long : settings.tappingTerm ≤ earlier.since since
    · have longer : settings.tappingTerm ≤ now.since since :=
        Nat.le_trans long (Millis.since_mono le since)
      simp [tick, long, longer]
    · simp [tick, long]
  | latched deadline =>
    cases deadline with
    | none => rfl
    | some deadline =>
      cases due : deadline.isDue earlier with
      | true => simp [tick, due, Millis.isDue_mono le due, reset]
      | false => simp [tick, due]
  | _ => rfl

/-- What is turned off at the second time is what was not turned off at the first. -/
theorem ends_tick (earlier now : Millis) :
    (m.tick settings earlier).1.ends now = (m.ends now && !m.ends earlier) := by
  obtain ⟨phase, taps, lastRelease⟩ := m
  cases phase with
  | queued since =>
    by_cases long : settings.tappingTerm ≤ earlier.since since <;> simp [tick, ends, long]
  | latched deadline =>
    cases deadline with
    | none => rfl
    | some deadline => cases due : deadline.isDue earlier <;> simp [tick, ends, due, reset]
  | _ => rfl

end OneShot

namespace Machines

variable {α : Type} (machines : Machines α) (settings : Settings) {earlier now : Millis}

/-- The things whose machines are turned off when they are told the time. -/
def ending (now : Millis) (machines : Machines α) : List α :=
  (machines.entries.filter (·.2.ends now)).map (·.1)

/-- All machines are told the time. -/
theorem answers_tick (now : Millis) : (machines.sweep fun _ m => m.tick settings now).2 =
    (machines.ending now).map (·, .revoke) := by
  show machines.entries.filterMap _ = _
  rw [ending, List.map_map, ← List.filterMap_eq_map, List.filterMap_filter]
  congr 1
  funext ⟨thing, m⟩
  rw [m.tick_answer]
  cases m.ends now <;> rfl

/-- Machines that are told two times stand where the later time alone would have brought them. -/
theorem tick_tick (le : earlier ≤ now) :
    ((machines.sweep fun _ m => m.tick settings earlier).1.sweep fun _ m => m.tick settings now).1 =
      (machines.sweep fun _ m => m.tick settings now).1 := by
  simp only [sweep, List.map_map, mk.injEq]
  refine List.map_congr_left fun entry _ => ?_
  simp [OneShot.tick_tick settings entry.2 le]

/-- Whatever is turned off at one of two times is turned off at the second one if it is told alone. -/
theorem ending_perm (le : earlier ≤ now) :
    (machines.ending earlier ++ ((machines.sweep fun _ m => m.tick settings earlier).1.ending now)).Perm
      (machines.ending now) := by
  have first : machines.ending earlier =
      ((machines.entries.filter (·.2.ends now)).filter (·.2.ends earlier)).map (·.1) := by
    rw [ending, List.filter_filter]
    congr 1
    refine List.filter_congr fun entry _ => ?_
    cases ended : entry.2.ends earlier with
    | true => rw [entry.2.ends_mono le ended]; rfl
    | false => rfl
  have second : (machines.sweep fun _ m => m.tick settings earlier).1.ending now =
      ((machines.entries.filter (·.2.ends now)).filter (!·.2.ends earlier)).map (·.1) := by
    simp only [ending, sweep, List.filter_map, List.map_map, List.filter_filter]
    congr 1
    refine List.filter_congr fun entry _ => ?_
    rw [Function.comp, OneShot.ends_tick, Bool.and_comm]
  rw [first, second, ending, ← List.map_append]
  have parts := List.filter_append_perm (fun entry => entry.2.ends earlier)
    (machines.entries.filter (·.2.ends now))
  simpa using parts.map (·.1)

/-- Machines of which none is due are left as they are when they are told the time. -/
theorem tick_of_early (early : ∀ entry ∈ machines.entries, entry.2.isDue settings now = false) :
    (machines.sweep fun _ m => m.tick settings now) = (machines, []) := by
  have still (entry) (listed : entry ∈ machines.entries) : entry.2.tick settings now = (entry.2, none) :=
    entry.2.tick_of_early settings (early entry listed)
  have same : machines.entries.map (fun entry => (entry.1, (entry.2.tick settings now).1)) =
      machines.entries :=
    (List.map_congr_left fun entry listed => by rw [still entry listed]; rfl).trans (List.map_id _)
  have silent : machines.entries.filterMap
      (fun entry => (entry.2.tick settings now).2.map (entry.1, ·)) = [] :=
    List.filterMap_eq_nil_iff.2 fun entry listed => by rw [still entry listed]; rfl
  rw [sweep, same, silent]

end Machines

namespace Tally

/-- Nothing is counted down for the empty set. -/
@[simp] theorem remove_empty (t : Tally) : t.remove ∅ = t := ext_count fun m => by simp

/-- Two sets may be counted down in either order. -/
theorem remove_comm (t : Tally) (first second : ModifierSet) :
    (t.remove first).remove second = (t.remove second).remove first := by
  refine ext_count fun m => ?_
  simp only [count_remove]
  split <;> split <;> rfl

/-- Nothing is counted up for the empty set. -/
@[simp] theorem add_empty (t : Tally) : t.add ∅ = t := ext_count fun m => by simp

/-- Modifiers may be counted before others are taken back, unless a count is at its limit or at zero. -/
theorem remove_add_comm (t : Tally) (more less : ModifierSet)
    (free : ∀ m, less.contains m = true → 0 < t.count m) (room : ∀ m, t.count m < limit) :
    (t.remove less).add more = (t.add more).remove less := by
  refine ext_count fun m => ?_
  have room := room m
  simp only [count_add, count_remove]
  by_cases lost : less.contains m = true
  · have free := free m lost
    simp only [lost, if_true]
    split <;> omega
  · simp only [lost, if_false, Bool.false_eq_true]

/-- What is taken back and counted again is counted as before, unless the count is at zero. -/
theorem add_remove (t : Tally) (set : ModifierSet) (free : ∀ m, set.contains m = true → 0 < t.count m)
    (room : ∀ m, t.count m < limit) : (t.remove set).add set = t := by
  refine ext_count fun m => ?_
  have room := room m
  simp only [count_add, count_remove]
  by_cases lost : set.contains m = true
  · have free := free m lost
    simp only [lost, if_true]
    omega
  · simp only [lost, if_false, Bool.false_eq_true]

end Tally

namespace LayerStack

variable (s : LayerStack) (lm : LayerModifiers) {id other : LayerId} (kind : Activation)

/-- Two layers may be switched off in either order. -/
theorem deactivate_comm (id other : LayerId) :
    ((s.deactivate id kind).1.deactivate other kind).1 =
      ((s.deactivate other kind).1.deactivate id kind).1 := by
  simp [deactivate, List.filter_filter, Bool.and_comm]

/-- The modifiers that a layer holds no longer when a reason for it is taken back. -/
def freed (id : LayerId) : ModifierSet :=
  if (s.deactivate id kind).2 then (lm.find? id).getD ∅ else ∅

/-- What a layer frees does not depend on the other layers. -/
theorem freed_deactivate (differs : other ≠ id) :
    (s.deactivate id kind).1.freed lm kind other = s.freed lm kind other := by
  have stays (why : Activation) : (⟨other, why⟩ : LayerEntry) ≠ ⟨id, kind⟩ := by simp [differs]
  have closes : ((s.deactivate id kind).1.deactivate other kind).2 = (s.deactivate other kind).2 := by
    rw [Bool.eq_iff_iff]
    simp [deactivate, isActive_iff, ← Bool.not_eq_true, stays]
  rw [freed, closes, freed]

variable {s kind} {why : Activation}

/-- The modifiers that a layer holds from now on when it is switched on for a reason. -/
def gained (kind : Activation) (id : LayerId) : ModifierSet :=
  if (s.activate id kind).2 = .opened then (lm.find? id).getD ∅ else ∅

/-- A layer that is not refused is opened if it was off. -/
theorem activate_answer (above : id ≠ baseLayer) (admitted : (s.activate id kind).2 ≠ .refused) :
    (s.activate id kind).2 = if s.isActive id then .kept else .opened := by
  unfold activate at admitted ⊢
  by_cases known : s.contains id kind = true
  · have on : s.isActive id = true := isActive_iff.2 (.inr ⟨kind, contains_iff.1 known⟩)
    simp [above, known, on]
  · by_cases full : maxEntries ≤ s.entries.length
    · simp [above, known, full] at admitted
    · simp [above, known, full]

/-- A layer for which there is room still finds it when a reason for some layer was taken back. -/
theorem activate_deactivate (other : LayerId) (differs : kind ≠ why)
    (admitted : (s.activate id kind).2 ≠ .refused) :
    ((s.deactivate other why).1.activate id kind).2 ≠ .refused ∧
    ((s.deactivate other why).1.activate id kind).1 = ((s.activate id kind).1.deactivate other why).1 := by
  have apart : (⟨id, kind⟩ : LayerEntry) ≠ ⟨other, why⟩ := by simp [differs]
  unfold activate at admitted ⊢
  by_cases above : id = baseLayer
  · simp [above, deactivate]
  · by_cases known : s.contains id kind = true
    · have still : (s.deactivate other why).1.contains id kind = true :=
        contains_iff.2 (mem_deactivate.2 ⟨contains_iff.1 known, apart⟩)
      simp only [above, known, still, if_true, if_false]
      refine ⟨by decide, ?_⟩
      simp [deactivate, apart, List.erase_filter]
    · have absent : (s.deactivate other why).1.contains id kind ≠ true := fun still =>
        known (contains_iff.2 (mem_deactivate.1 (contains_iff.1 still)).1)
      have room : s.entries.length < maxEntries := by
        by_contra full
        simp [above, known, Nat.le_of_not_lt full] at admitted
      have fewer : (s.deactivate other why).1.entries.length < maxEntries :=
        Nat.lt_of_le_of_lt (List.length_filter_le _ _) room
      simp only [above, known, absent, Nat.not_le.2 room, Nat.not_le.2 fewer, if_false]
      refine ⟨?_, ?_⟩
      · show (if _ then Opening.kept else Opening.opened) ≠ .refused
        split <;> decide
      · simp [deactivate, apart]

/-- What one layer frees does not depend on another one that is switched on. -/
theorem freed_activate (differs : other ≠ id) :
    (s.activate id kind).1.freed lm why other = s.freed lm why other := by
  have same (reason : Activation) : (⟨other, reason⟩ : LayerEntry) ∈ (s.activate id kind).1.entries ↔
      ⟨other, reason⟩ ∈ s.entries := mem_activate_of_ne (by simp [differs])
  have closes : ((s.activate id kind).1.deactivate other why).2 = (s.deactivate other why).2 := by
    rw [Bool.eq_iff_iff]
    simp [deactivate, isActive_iff, ← Bool.not_eq_true, same]
  rw [freed, closes, freed]

/-- What one layer gains does not depend on reasons for another one. -/
theorem gained_deactivate (differs : other ≠ id) (apart : kind ≠ why)
    (admitted : (s.activate id kind).2 ≠ .refused) :
    (s.deactivate other why).1.gained lm kind id = s.gained lm kind id := by
  by_cases above : id = baseLayer
  · simp [gained, activate, above]
  · have still := (activate_deactivate other apart admitted).1
    have on : (s.deactivate other why).1.isActive id = s.isActive id := by
      rw [Bool.eq_iff_iff]
      simp [isActive_iff, mem_deactivate, Ne.symm differs]
    rw [gained, gained, activate_answer above still, activate_answer above admitted, on]

/-- A layer that was switched on for a reason frees nothing when another reason is taken back. -/
theorem freed_activate_self (apart : kind ≠ why) (admitted : (s.activate id kind).2 ≠ .refused) :
    (s.activate id kind).1.freed lm why id = ∅ := by
  have stays : ((s.activate id kind).1.deactivate id why).1.isActive id = true := by
    by_cases base : id = baseLayer
    · rw [base, isActive_base]
    · have entered := (mem_activate_self base).2 admitted
      exact isActive_iff.2 (.inr ⟨kind, mem_deactivate.2 ⟨entered, by simp [apart]⟩⟩)
  have kept : ((s.activate id kind).1.deactivate id why).2 = false := by
    rw [deactivate] at stays ⊢
    dsimp only at stays ⊢
    rw [stays, Bool.not_true, Bool.and_false]
  rw [freed, kept, if_neg Bool.false_ne_true]

/-- A layer that frees its modifiers gains them when it is switched on again, and would have gained nothing
before; one that frees none gains what it would have gained before. -/
theorem freed_or_gained (apart : kind ≠ why) (admitted : (s.activate id kind).2 ≠ .refused) :
    s.gained lm kind id = ∅ ∧ (s.deactivate id why).1.gained lm kind id = s.freed lm why id ∨
    s.freed lm why id = ∅ ∧ (s.deactivate id why).1.gained lm kind id = s.gained lm kind id := by
  by_cases base : id = baseLayer
  · refine .inr ⟨?_, ?_⟩
    · simp [freed, deactivate, base]
    · simp [gained, activate, base]
  · have still := (activate_deactivate id apart admitted).1
    rw [gained, gained, activate_answer base still, activate_answer base admitted, freed]
    by_cases closed : (s.deactivate id why).2 = true
    · have on : s.isActive id = true := (isActive_iff_mem base).2 (deactivate_closed closed)
      have off : (s.deactivate id why).1.isActive id = false := by
        simp only [deactivate, Bool.and_eq_true, Bool.not_eq_true'] at closed
        exact closed.2
      refine .inl ⟨by simp [on], by simp [off, closed]⟩
    · have same : (s.deactivate id why).1.isActive id = s.isActive id := by
        rw [Bool.eq_iff_iff]
        constructor
        · intro after
          obtain rfl | ⟨reason, listed⟩ := isActive_iff.1 after
          · exact absurd rfl base
          · exact isActive_iff.2 (.inr ⟨reason, (mem_deactivate.1 listed).1⟩)
        · intro before
          by_contra off
          refine closed ?_
          obtain rfl | ⟨reason, listed⟩ := isActive_iff.1 before
          · exact absurd rfl base
          -- Any other reason would have kept the layer on.
          · obtain rfl : reason = why := by
              by_contra other
              exact off (isActive_iff.2 (.inr ⟨reason, mem_deactivate.2 ⟨listed, by simp [other]⟩⟩))
            simp only [deactivate, Bool.and_eq_true, Bool.not_eq_true', contains_iff]
            exact ⟨listed, Bool.eq_false_iff.2 off⟩
      exact .inr ⟨by simp [closed], by rw [same]⟩

end LayerStack

namespace Holdings

variable (lm : LayerModifiers) (h : Holdings)

/-- What is on, apart from what the host was told. -/
def bare : Holdings := { h with sent := ∅, journal := #[] }

/-- Which modifiers are in force does not depend on what the host was told. -/
theorem effective_bare : h.bare.effective = h.effective := rfl

/-- Turns off what a one-shot turned on. -/
def revoke : Action → Holdings
  | .oneShotModifier set => h.applyOneShotModifiers set .revoke
  | .oneShotLayer id => h.applyOneShotLayer lm id .revoke
  | _ => h

/-- What is on after a one-shot was turned off. -/
def bareRevoke (trigger : Action) : Holdings := (h.revoke lm trigger).bare

/-- Revoking one-shot modifiers counts them down, and nothing else changes. -/
theorem bareRevoke_modifier (set : ModifierSet) : h.bareRevoke lm (.oneShotModifier set) =
    { h.bare with modifiers := h.modifiers.removeOneShot set } := by
  simp [bareRevoke, revoke, applyOneShotModifiers, bare]

/-- Revoking a one-shot layer takes its entry from the stack, and its modifiers if it went off. -/
theorem bareRevoke_layer (id : LayerId) : h.bareRevoke lm (.oneShotLayer id) =
    { h.bare with
      layers := (h.layers.deactivate id .oneShot).1
      modifiers := h.modifiers.unhold (h.layers.freed lm .oneShot id) } := by
  show (h.deactivateLayer lm id .oneShot).bare = _
  unfold deactivateLayer LayerStack.freed
  split <;> rename_i closed
  · cases found : lm.find? id <;> simp [closed, found, bare, mapLayerModifiers, ModifierState.unhold]
  · simp [closed, bare, ModifierState.unhold]

/-- What a revocation leaves on does not depend on what the host was told. -/
theorem bareRevoke_bare (trigger : Action) : h.bare.bareRevoke lm trigger = h.bareRevoke lm trigger := by
  cases trigger with
  | oneShotModifier set => rw [bareRevoke_modifier, bareRevoke_modifier]; rfl
  | oneShotLayer id => rw [bareRevoke_layer, bareRevoke_layer]; rfl
  | _ => rfl

/-- The order in which one-shots are turned off makes no difference. -/
theorem bareRevoke_comm (trigger other : Action) :
    (h.bareRevoke lm trigger).bareRevoke lm other = (h.bareRevoke lm other).bareRevoke lm trigger := by
  cases trigger with
  | oneShotModifier set =>
    cases other with
    | oneShotModifier others =>
      simp only [bareRevoke_modifier, ModifierState.removeOneShot, Tally.remove_comm _ set others]
      rfl
    | oneShotLayer id =>
      simp only [bareRevoke_modifier, bareRevoke_layer]
      rfl
    | _ => exact (bareRevoke_bare lm h _).symm
  | oneShotLayer id =>
    cases other with
    | oneShotModifier set =>
      simp only [bareRevoke_modifier, bareRevoke_layer]
      rfl
    | oneShotLayer above =>
      by_cases same : above = id
      · rw [same]
      · simp only [bareRevoke_layer, ModifierState.unhold, h.layers.deactivate_comm _ id above,
          h.layers.freed_deactivate lm _ same, h.layers.freed_deactivate lm _ (Ne.symm same),
          Tally.remove_comm _ (h.layers.freed lm .oneShot id)]
        rfl
    | _ => exact (bareRevoke_bare lm h _).symm
  | _ => exact bareRevoke_bare lm h other

/-- What several revocations leave on does not depend on what the host was told in between. -/
theorem bare_foldl_revoke (triggers : List Action) :
    (triggers.foldl (revoke lm) h).bare = triggers.foldl (bareRevoke lm) h.bare := by
  induction triggers generalizing h with
  | nil => rfl
  | cons trigger rest ih =>
    rw [List.foldl_cons, List.foldl_cons, ih, bareRevoke_bare, bareRevoke]

/-- One-shots may be revoked in any order. -/
theorem foldl_bareRevoke_perm {triggers others : List Action} (perm : triggers.Perm others) :
    triggers.foldl (bareRevoke lm) h = others.foldl (bareRevoke lm) h :=
  perm.foldl_eq' (fun first _ second _ h => bareRevoke_comm lm h first second) h

/-- What is on after a waiting key counts as held. -/
def bareHold (action : Action) : Holdings := (h.holdAction lm action).bare

/-- A key that holds modifiers counts them up, and nothing else changes. -/
theorem bareHold_modTap (set : ModifierSet) (tap : Keystroke) : h.bareHold lm (.modTap set tap) =
    { h.bare with modifiers := h.modifiers.hold set } := by
  simp [bareHold, holdAction, holdModifiers, bare]

/-- A key that holds a layer enters it on the stack, and adds its modifiers if it went on. -/
theorem bareHold_layerTap (id : LayerId) (tap : Keystroke) : h.bareHold lm (.layerTap id tap) =
    { h.bare with
      layers := (h.layers.activate id .held).1
      modifiers := h.modifiers.hold (h.layers.gained lm .held id) } := by
  show (h.activateLayer lm id .held).bare = _
  unfold activateLayer LayerStack.gained
  split <;> rename_i answer
  · cases found : lm.find? id <;> simp [answer, found, bare, mapLayerModifiers, ModifierState.hold]
  · simp [answer, bare, ModifierState.hold]
  · simp [answer, bare, ModifierState.hold, warn]

/-- What a held key turns on does not depend on what the host was told. -/
theorem bareHold_bare (action : Action) : h.bare.bareHold lm action = h.bareHold lm action := by
  cases action with
  | modTap set tap => rw [bareHold_modTap, bareHold_modTap]; rfl
  | layerTap id tap => rw [bareHold_layerTap, bareHold_layerTap]; rfl
  | _ => rfl

/-- The layers that are on are counted with their modifiers, and no count is at its limit. -/
structure Roomy : Prop where
  /-- The layers were switched on and off properly. -/
  sound : h.layers.Sound
  /-- Every layer that holds a modifier is counted. -/
  counted : ∀ m, lm.share h.layers.activeIds m ≤ h.modifiers.held.count m
  /-- Every modifier can be held once more. -/
  room : ∀ m, h.modifiers.held.count m < Tally.limit

/-- Whether the layer that a waiting key holds, if it does, is not refused. -/
def admits : Action → Bool
  | .layerTap id _ => (h.layers.activate id .held).2 != .refused
  | _ => true

variable {lm h}

/-- What a layer frees was counted. -/
theorem Roomy.count_pos (roomy : h.Roomy lm) {id : LayerId} {kind : Activation} {m : Modifier}
    (frees : (h.layers.freed lm kind id).contains m = true) : 0 < h.modifiers.held.count m := by
  unfold LayerStack.freed at frees
  split at frees
  · rename_i closed
    have on : id ∈ h.layers.activeIds := LayerStack.deactivate_closed closed
    have holds : lm.holds id m = true := by
      unfold LayerModifiers.holds
      cases found : lm.find? id with
      | none => simp [found] at frees
      | some set => simpa [found] using frees
    have one : 0 < lm.share h.layers.activeIds m := List.countP_pos_iff.2 ⟨id, on, holds⟩
    exact Nat.lt_of_lt_of_le one (roomy.counted m)
  · simp at frees

/-- One-shots that are turned off leave more room. -/
theorem Roomy.bareRevoke (roomy : h.Roomy lm) (trigger : Action) : (h.bareRevoke lm trigger).Roomy lm := by
  cases trigger with
  | oneShotModifier set =>
    rw [bareRevoke_modifier]
    exact ⟨roomy.sound, roomy.counted, roomy.room⟩
  | oneShotLayer id =>
    -- What is not counted for layers is counted for keys, and these keep it.
    have counted (m : Modifier) : h.HeldBy True lm m
        (h.modifiers.held.count m - lm.share h.layers.activeIds m) := by
      refine ⟨?_, roomy.sound⟩
      rw [Nat.sub_add_cancel (roomy.counted m)]
      exact ⟨Nat.le_refl _, fun _ => Nat.le_refl _⟩
    refine ⟨((counted .leftShift).deactivateLayer id .oneShot).sound, fun m => ?_, fun m => ?_⟩
    · exact (((counted m).deactivateLayer id .oneShot).agrees.eq trivial).symm ▸ Nat.le_add_left _ _
    · have fewer : (h.bareRevoke lm (.oneShotLayer id)).modifiers.held.count m ≤
          h.modifiers.held.count m := by
        rw [bareRevoke_layer, ModifierState.unhold, Tally.count_remove]
        split <;> omega
      exact Nat.lt_of_le_of_lt fewer (roomy.room m)
  | _ => exact ⟨roomy.sound, roomy.counted, roomy.room⟩

/-- A layer that is not refused is not refused either when one-shots have ended. -/
theorem admits_bareRevoke {action : Action} (admits : h.admits action = true) (trigger : Action) :
    (h.bareRevoke lm trigger).admits action = true := by
  cases action with
  | layerTap id tap =>
    cases trigger with
    | oneShotModifier set =>
      rw [bareRevoke_modifier]
      exact admits
    | oneShotLayer other =>
      rw [bareRevoke_layer]
      exact bne_iff_ne.2 (LayerStack.activate_deactivate other (by decide) (bne_iff_ne.1 admits)).1
    | _ => exact admits
  | _ => rfl

/-- Whether a one-shot is turned off before a waiting key counts as held or afterwards makes no
difference. -/
theorem bareHold_bareRevoke (roomy : h.Roomy lm) {action : Action} (admits : h.admits action = true)
    (trigger : Action) :
    (h.bareRevoke lm trigger).bareHold lm action = (h.bareHold lm action).bareRevoke lm trigger := by
  cases trigger with
  | oneShotModifier set =>
    cases action with
    | modTap hold tap => simp only [bareRevoke_modifier, bareHold_modTap]; rfl
    | layerTap id tap => simp only [bareRevoke_modifier, bareHold_layerTap]; rfl
    | _ => exact (bareRevoke_bare lm h _).symm
  | oneShotLayer other =>
    cases action with
    | modTap hold tap =>
      simp only [bareRevoke_layer, bareHold_modTap, ModifierState.unhold, ModifierState.hold,
        Tally.remove_add_comm _ hold _ (fun m => roomy.count_pos) roomy.room]
      rfl
    | layerTap id tap =>
      have admitted : (h.layers.activate id .held).2 ≠ .refused := bne_iff_ne.1 admits
      have apart : Activation.held ≠ .oneShot := by decide
      have held : (h.modifiers.held.remove (h.layers.freed lm .oneShot other)).add
          ((h.layers.deactivate other .oneShot).1.gained lm .held id) =
          (h.modifiers.held.add (h.layers.gained lm .held id)).remove
            ((h.layers.activate id .held).1.freed lm .oneShot other) := by
        by_cases same : other = id
        · subst same
          rw [LayerStack.freed_activate_self lm apart admitted, Tally.remove_empty]
          rcases LayerStack.freed_or_gained lm apart admitted with ⟨none, again⟩ | ⟨none, again⟩
          · rw [none, again, Tally.add_empty]
            exact Tally.add_remove _ _ (fun m => roomy.count_pos) roomy.room
          · rw [none, again, Tally.remove_empty]
        · rw [LayerStack.freed_activate lm same, LayerStack.gained_deactivate lm same apart admitted]
          exact Tally.remove_add_comm _ _ _ (fun m => roomy.count_pos) roomy.room
      simp only [bareRevoke_layer, bareHold_layerTap, ModifierState.unhold, ModifierState.hold]
      simp only [bare, held, (LayerStack.activate_deactivate other apart admitted).2]
    | _ => exact (bareRevoke_bare lm h _).symm
  | _ => exact bareHold_bare lm h action

end Holdings

namespace OneShots

variable (shots : OneShots) (settings : Settings) {earlier now : Millis}

/-- The one-shots after they were told the time. -/
def later (now : Millis) : OneShots :=
  ⟨(shots.modifiers.sweep fun _ m => m.tick settings now).1,
    (shots.layers.sweep fun _ m => m.tick settings now).1⟩

/-- The triggers of the one-shots that are turned off when they are told the time. -/
def ending (now : Millis) : List Action :=
  (shots.layers.ending now).map .oneShotLayer ++ (shots.modifiers.ending now).map .oneShotModifier

/-- Whether a one-shot moves on when it is told the time. -/
def isDue (now : Millis) : Bool :=
  shots.layers.entries.any (·.2.isDue settings now) ||
    shots.modifiers.entries.any (·.2.isDue settings now)

/-- Telling the one-shots the time turns off what is on for those that end. -/
theorem tick_eq (h : Holdings) (lm : LayerModifiers) (now : Millis) : shots.tick h settings lm now =
    (shots.later settings now, (shots.ending now).foldl (Holdings.revoke lm) h) := by
  unfold tick sweep
  dsimp only
  rw [shots.layers.answers_tick, shots.modifiers.answers_tick, ending, List.foldl_append]
  simp only [List.foldl_map]
  rfl

/-- One-shots that are told two times stand where the later time alone would have brought them. -/
theorem later_later (le : earlier ≤ now) :
    (shots.later settings earlier).later settings now = shots.later settings now := by
  simp only [later, shots.layers.tick_tick settings le, shots.modifiers.tick_tick settings le]

/-- Whatever is turned off at one of two times is turned off at the second one if it is told alone. -/
theorem ending_perm (le : earlier ≤ now) :
    (shots.ending earlier ++ (shots.later settings earlier).ending now).Perm (shots.ending now) := by
  have layers := (shots.layers.ending_perm settings le).map Action.oneShotLayer
  have modifiers := (shots.modifiers.ending_perm settings le).map Action.oneShotModifier
  rw [List.map_append] at layers modifiers
  refine .trans ?_ (layers.append modifiers)
  simp only [ending, later, List.append_assoc]
  exact (List.perm_append_comm_assoc _ _ _).append_left _

/-- One-shots of which none is due are left as they are when they are told the time. -/
theorem tick_of_early (early : shots.isDue settings now = false) (h : Holdings) (lm : LayerModifiers) :
    shots.tick h settings lm now = (shots, h) := by
  simp only [isDue, Bool.or_eq_false_iff, List.any_eq_false, Bool.not_eq_true] at early
  unfold tick sweep
  dsimp only
  rw [shots.layers.tick_of_early settings early.1, shots.modifiers.tick_of_early settings early.2]
  rfl

end OneShots

namespace Engine

variable {p : Profile} {s t : Engine} {earlier now : Millis}

/-- Time that passes changes nothing while no one-shot is due. -/
theorem elapse_of_early (early : s.oneShots.isDue p.settings now = false) : s.elapse p now = s := by
  simp only [elapse, mapOneShots, s.oneShots.tick_of_early p.settings early]

/-- The one-shots move on as they do when they are told the time. -/
theorem oneShots_elapse (p : Profile) (now : Millis) (s : Engine) :
    (s.elapse p now).oneShots = s.oneShots.later p.settings now := by
  simp only [elapse, mapOneShots, OneShots.tick_eq]

/-- Time turns off just what the ending one-shots had turned on. -/
theorem bare_elapse (p : Profile) (now : Millis) (s : Engine) : (s.elapse p now).holdings.bare =
    (s.oneShots.ending now).foldl (Holdings.bareRevoke p.layerModifiers) s.holdings.bare := by
  simp only [elapse, mapOneShots, OneShots.tick_eq, Holdings.bare_foldl_revoke]

/-- One-shots that are told the time twice leave on what they leave on if they are told the second time
alone. -/
theorem bare_elapse_elapse (le : earlier ≤ now) :
    ((s.elapse p earlier).elapse p now).holdings.bare = (s.elapse p now).holdings.bare := by
  rw [bare_elapse, bare_elapse, bare_elapse, oneShots_elapse, ← List.foldl_append]
  exact Holdings.foldl_bareRevoke_perm _ _ (s.oneShots.ending_perm p.settings le)

/-- Nothing is to be done about a waiting key that is not due. -/
theorem step_expire_of_early (early : s.tapHold.isDue now = false) :
    step p s (.expire now) = (s, []) := by
  unfold step
  cases waiting : s.tapHold.head with
  | none => rfl
  | some head =>
    rw [TapHold.isDue, waiting, Option.any_some] at early
    simp [early]

/-- A waiting key that is due is held, and the events behind it come again. -/
theorem step_expire_of_due {head : PendingKey} (waiting : s.tapHold.head = some head)
    (due : head.deadline.isDue now = true) : step p s (.expire now) =
      (s.settled p .hold head, Task.replay head.buffer ++ [.expire now]) := by
  unfold step
  simp only [waiting, due, if_true]
  rfl

/-- Settling what is due leaves a state in which nothing is due as it is. -/
theorem run_expire_of_early (early : s.tapHold.isDue now = false) : s.run p [.expire now] = s := by
  rw [run_cons, step_expire_of_early early]
  exact run_nil p s

/-- What is due at a time and then at a later one is what is due at the later one. -/
theorem run_expire_expire (le : earlier ≤ now) (s : Engine) (agenda : List Task) :
    s.run p (agenda ++ [.expire earlier, .expire now]) = s.run p (agenda ++ [.expire now]) := by
  -- Both agendas do the same tasks until only the last ones are left. What is settled then puts new tasks
  -- in front, so the induction is on the longer agenda and leaves its beginning open.
  generalize same : agenda ++ [.expire earlier, .expire now] = tasks
  induction s, tasks using run.induct p generalizing agenda with
  | case1 s => simp at same
  | case2 s task rest ih =>
    cases agenda with
    | cons first others =>
      obtain ⟨rfl, rfl⟩ := List.cons.inj same
      rw [run_cons, List.cons_append, run_cons, ← List.append_assoc]
      exact ih _ (List.append_assoc _ _ _)
    | nil =>
      obtain ⟨rfl, rfl⟩ := List.cons.inj same
      cases due : s.tapHold.isDue earlier with
      | false =>
        rw [run_cons, step_expire_of_early due]
      | true =>
        obtain ⟨head, waiting, due⟩ := (Option.any_eq_true _ _).1 due
        rw [step_expire_of_due waiting due] at ih
        rw [run_cons, step_expire_of_due waiting due, List.nil_append, run_cons,
          step_expire_of_due waiting (Millis.isDue_mono le due), List.append_nil]
        exact ih (Task.replay head.buffer) (by simp)

/-- What the engine is in, apart from what the host was told. -/
def bare (s : Engine) : Engine := { s with holdings := s.holdings.bare }

/-- States that agree on their parts agree apart from what the host was told. -/
theorem bare_congr (holdings : s.holdings.bare = t.holdings.bare) (tapHold : s.tapHold = t.tapHold)
    (oneShots : s.oneShots = t.oneShots) (active : s.active = t.active) : s.bare = t.bare := by
  simp only [bare, holdings, tapHold, oneShots, active]

/-- If the host was told the current modifiers, it makes no difference what it was told before. -/
theorem drained_congr (same : s.bare = t.bare) (told : s.holdings.sent = s.holdings.effective)
    (told' : t.holdings.sent = t.holdings.effective) : s.drained = t.drained := by
  have holdings : s.holdings.bare = t.holdings.bare := congrArg Engine.holdings same
  have sent : s.holdings.sent = t.holdings.sent := by
    rw [told, told', ← Holdings.effective_bare, holdings, Holdings.effective_bare]
  simp only [Holdings.bare, Holdings.mk.injEq] at holdings
  simp only [bare, Engine.mk.injEq] at same
  simp [drained, holdings, sent, same]

/-- The waiting key has no event behind it, and holding it asks for nothing that the end of a one-shot
could make possible: a layer that it holds is not refused, the layers that are on are counted with their
modifiers, and no count is at its limit. -/
structure Lone (p : Profile) (s : Engine) : Prop where
  /-- Nothing is kept back. -/
  alone : ∀ head ∈ s.tapHold.head, head.buffer = []
  /-- The layer that the waiting key holds, if it does, is not refused. -/
  admits : ∀ head ∈ s.tapHold.head, s.holdings.admits head.action = true
  /-- Every layer that holds a modifier is counted. -/
  counted : ∀ m, p.layerModifiers.share s.holdings.layers.activeIds m ≤ s.holdings.modifiers.held.count m
  /-- Every modifier can be held once more. -/
  room : ∀ m, s.holdings.modifiers.held.count m < Tally.limit

instance (p : Profile) (s : Engine) : Decidable (s.Lone p) :=
  decidable_of_iff ((∀ head ∈ s.tapHold.head, head.buffer = []) ∧
      (∀ head ∈ s.tapHold.head, s.holdings.admits head.action = true) ∧
      ∀ m ∈ Modifier.all,
        p.layerModifiers.share s.holdings.layers.activeIds m ≤ s.holdings.modifiers.held.count m ∧
          s.holdings.modifiers.held.count m < Tally.limit)
    ⟨fun ⟨alone, admits, counts⟩ => ⟨alone, admits, fun m => (counts m m.mem_all).1,
        fun m => (counts m m.mem_all).2⟩,
      fun lone => ⟨lone.alone, lone.admits, fun m _ => ⟨lone.counted m, lone.room m⟩⟩⟩

/-- Settling a waiting key as held turns on what the key holds. -/
theorem bare_settled_hold (p : Profile) (head : PendingKey) (s : Engine) :
    (s.settled p .hold head).holdings.bare = s.holdings.bareHold p.layerModifiers head.action :=
  (Holdings.bareHold_bare p.layerModifiers (s.holdings.announce (.settled head.key .hold)) _).symm.trans
    (Holdings.bareHold_bare p.layerModifiers s.holdings _)

/-- A waiting key with nothing behind it is all that is settled when it is due. -/
theorem run_expire_of_alone {head : PendingKey} (waiting : s.tapHold.head = some head)
    (due : head.deadline.isDue now = true) (alone : head.buffer = []) :
    s.run p [.expire now] = s.settled p .hold head := by
  rw [run_cons, step_expire_of_due waiting due, alone]
  exact run_expire_of_early (s := s.settled p .hold head) rfl

/-- What one-shots turn off in the meantime makes no difference to a waiting key with nothing behind it. -/
theorem bareHold_elapse (roomy : s.holdings.Roomy p.layerModifiers) {action : Action}
    (admits : s.holdings.admits action = true) (earlier : Millis) :
    (s.elapse p earlier).holdings.bareHold p.layerModifiers action =
      (s.oneShots.ending earlier).foldl (Holdings.bareRevoke p.layerModifiers)
        (s.holdings.bareHold p.layerModifiers action) := by
  have ended (triggers : List Action) (h : Holdings) (roomy : h.Roomy p.layerModifiers)
      (admits : h.admits action = true) :
      (triggers.foldl (Holdings.bareRevoke p.layerModifiers) h).bareHold p.layerModifiers action =
        triggers.foldl (Holdings.bareRevoke p.layerModifiers) (h.bareHold p.layerModifiers action) := by
    induction triggers generalizing h with
    | nil => rfl
    | cons trigger rest ih =>
      rw [List.foldl_cons, List.foldl_cons,
        ih _ (roomy.bareRevoke trigger) (Holdings.admits_bareRevoke admits trigger),
        Holdings.bareHold_bareRevoke roomy admits]
  have bare : s.holdings.bare.Roomy p.layerModifiers := ⟨roomy.sound, roomy.counted, roomy.room⟩
  rw [← Holdings.bareHold_bare, bare_elapse, ended _ _ bare admits, Holdings.bareHold_bare]

/-- What is due at a time, and then at a later one, is settled as it is at the later one alone. -/
theorem run_run_expire (p : Profile) (le : earlier ≤ now) (s : Engine) :
    (s.run p [.expire earlier]).run p [.expire now] = s.run p [.expire now] := by
  rw [← run_append]
  exact run_expire_expire le s []

/-- Where the second tick settles nothing more, the one-shots are told the time twice in a row. -/
theorem bare_tick_tick_of_idle (le : earlier ≤ now)
    (idle : (s.run p [.expire earlier]).tapHold.isDue now = false) :
    ((s.tick p earlier).tick p now).bare = (s.tick p now).bare := by
  have settled : s.run p [.expire earlier] = s.run p [.expire now] := by
    rw [← run_run_expire p le, run_expire_of_early idle]
  have first : s.tick p earlier = (s.run p [.expire now]).elapse p earlier := by
    rw [← settled]
    rfl
  have second : (s.tick p earlier).tick p now =
      ((s.run p [.expire now]).elapse p earlier).elapse p now := by
    have still : ((s.run p [.expire now]).elapse p earlier).tapHold.isDue now = false := settled ▸ idle
    rw [first, tick, run_expire_of_early still]
    rfl
  rw [second]
  refine bare_congr (bare_elapse_elapse le) rfl ?_ rfl
  show _ = ((s.run p [.expire now]).elapse p now).oneShots
  rw [oneShots_elapse, oneShots_elapse, oneShots_elapse, OneShots.later_later _ _ le]

/-- Where no one-shot moves on at the first tick, only the waiting keys are told the time twice. -/
theorem tick_tick_of_early (le : earlier ≤ now)
    (early : (s.run p [.expire earlier]).oneShots.isDue p.settings earlier = false) :
    (s.tick p earlier).tick p now = s.tick p now := by
  have still : s.tick p earlier = s.run p [.expire earlier] := elapse_of_early early
  rw [still, tick, run_run_expire p le, ← tick]

/-- Where the second tick settles a waiting key alone, it makes no difference whether one-shots end before
that or after it. -/
theorem bare_tick_tick_of_lone (le : earlier ≤ now)
    (due : (s.run p [.expire earlier]).tapHold.isDue now = true)
    (lone : (s.run p [.expire earlier]).Lone p)
    (sound : (s.run p [.expire earlier]).holdings.layers.Sound) :
    ((s.tick p earlier).tick p now).bare = (s.tick p now).bare := by
  have settles := run_run_expire p le s
  generalize settled : s.run p [.expire earlier] = t at due lone sound settles
  obtain ⟨head, waiting, due⟩ := (Option.any_eq_true _ _).1 due
  have alone := lone.alone head waiting
  have roomy : t.holdings.Roomy p.layerModifiers := ⟨sound, lone.counted, lone.room⟩
  have first : s.tick p earlier = t.elapse p earlier := settled ▸ rfl
  have second : (s.tick p earlier).tick p now =
      ((t.elapse p earlier).settled p .hold head).elapse p now := by
    rw [first]
    exact congrArg (elapse p now) (run_expire_of_alone (s := t.elapse p earlier) waiting due alone)
  have only : s.tick p now = (t.settled p .hold head).elapse p now :=
    congrArg (elapse p now) (settles.symm.trans (run_expire_of_alone waiting due alone))
  rw [second, only]
  refine bare_congr ?_ rfl ?_ rfl
  · rw [bare_elapse, bare_elapse, bare_settled_hold, bare_settled_hold,
      bareHold_elapse roomy (lone.admits head waiting), ← List.foldl_append]
    exact Holdings.foldl_bareRevoke_perm _ _ (t.oneShots.ending_perm p.settings le)
  · rw [oneShots_elapse, oneShots_elapse]
    show ((t.elapse p earlier).oneShots.later p.settings now) = t.oneShots.later p.settings now
    rw [oneShots_elapse, OneShots.later_later _ _ le]

/-- The engine does not depend on how often it is told the time. After every run of calls: a tick, and
then another one that is not earlier, lead to the state to which the second one alone leads, unless a
one-shot moves on at the first tick while a key still waits that is due by the second one and has events
behind it, or asks for what only the end of the one-shot makes possible. -/
theorem tick_after_tick (p : Profile) (calls : List Call) {earlier now : Millis} (le : earlier ≤ now)
    (apart : ((after p calls).run p [.expire earlier]).tapHold.isDue now = true →
      ((after p calls).run p [.expire earlier]).oneShots.isDue p.settings earlier = false ∨
        ((after p calls).run p [.expire earlier]).Lone p) :
    (((after p calls).tick p earlier).tick p now).drained = ((after p calls).tick p now).drained := by
  have once : (after p (calls ++ [Call.tick now])).holdings.Reported := reported p _
  have twice : (after p (calls ++ [Call.tick earlier, Call.tick now])).holdings.Reported := reported p _
  simp only [after, List.foldl_append, List.foldl_cons, List.foldl_nil, answer] at once twice
  rw [← after] at once twice
  refine drained_congr ?_ twice.synced once.synced
  cases due : ((after p calls).run p [.expire earlier]).tapHold.isDue now with
  | false => exact bare_tick_tick_of_idle le due
  | true =>
    rcases apart due with early | lone
    · exact congrArg bare (tick_tick_of_early le early)
    · have settled := (told_lasting p).run [.expire earlier] (reported p calls)
      exact bare_tick_tick_of_lone le due lone settled.sound

set_option maxRecDepth 10000 in
/-- The layer ends at the first of two ticks while a key waits. The key that went down late still waits
after the second one, with a stroke behind it; the other is held by then, and has nothing behind it. -/
theorem tick_after_tick_waiting :
    Call.Regular (Call.latchedThen 2000 2005) ∧
    (after .mixed (Call.latchedThen 2000 2005)).holdings.layers.activeIds = [1] ∧
    ((after .mixed (Call.latchedThen 2000 2005)).tick .mixed
        (.ofWord 2050)).holdings.layers.activeIds = [] ∧
    (((after .mixed (Call.latchedThen 2000 2005)).tick .mixed (.ofWord 2050)).tick .mixed
        (.ofWord 2100)).drained =
      ((after .mixed (Call.latchedThen 2000 2005)).tick .mixed (.ofWord 2100)).drained ∧
    ((after .mixed (Call.latchedThen 1900 1950).dropLast).tick .mixed
        (.ofWord 2050)).holdings.layers.activeIds = [] ∧
    (((after .mixed (Call.latchedThen 1900 1950).dropLast).tick .mixed (.ofWord 2050)).tick .mixed
        (.ofWord 2100)).drained =
      ((after .mixed (Call.latchedThen 1900 1950).dropLast).tick .mixed (.ofWord 2100)).drained ∧
    ((after .mixed (Call.latchedThen 1900 1950).dropLast).tick .mixed
        (.ofWord 2100)).holdings.effective = .single .leftControl := by
  have apart : ((after .mixed (Call.latchedThen 2000 2005)).run .mixed
      [.expire (.ofWord 2050)]).tapHold.isDue (.ofWord 2100) = false := by cbv
  have lone : ((after .mixed (Call.latchedThen 1900 1950).dropLast).run .mixed
      [.expire (.ofWord 2050)]).Lone .mixed := by
    exact of_decide_eq_true (by cbv)
  refine ⟨by decide, by cbv, by cbv, ?_, by cbv, ?_, by cbv⟩
  · refine tick_after_tick .mixed (Call.latchedThen 2000 2005) (by decide) fun due => ?_
    rw [apart] at due
    cases due
  · exact tick_after_tick .mixed (Call.latchedThen 1900 1950).dropLast (by decide) fun _ => .inr lone

set_option maxRecDepth 10000 in
/-- If the key that waits is settled by the second tick, the stroke behind it, typed while the layer was
on, is that of the layer only if there was no first tick. -/
theorem early_tick_takes_layer :
    Call.Regular (Call.latchedThen 1900 1950 ++ [Call.tick (.ofWord 2050), Call.tick (.ofWord 2100)]) ∧
    (((after .mixed (Call.latchedThen 1900 1950)).tick .mixed (.ofWord 2050)).tick .mixed
        (.ofWord 2100)).holdings.register.registered = [.b] ∧
    ((after .mixed (Call.latchedThen 1900 1950)).tick .mixed
        (.ofWord 2100)).holdings.register.registered = [.c] := by
  exact ⟨by decide, by cbv, by cbv⟩

set_option maxRecDepth 10000 in
/-- With nothing behind it, the key that waits finds room for its layer only if a first tick has ended the
one-shot. -/
example :
    (((after .crowded Call.crowd).tick .crowded (.ofWord 2050)).tick .crowded
        (.ofWord 2100)).holdings.layers.activeIds = [9, 7, 6, 5, 4, 3, 2, 1] ∧
    ((after .crowded Call.crowd).tick .crowded
        (.ofWord 2100)).holdings.layers.activeIds = [7, 6, 5, 4, 3, 2, 1] := by
  exact ⟨by cbv, by cbv⟩

end Engine

end KeyEngine
