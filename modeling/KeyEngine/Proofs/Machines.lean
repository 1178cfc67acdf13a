import Mathlib
import KeyEngine.Proofs.Latch

/-!
# Machines, each for one thing

There is one machine for every thing that a one-shot can turn on. `tally` counts those that are on, by
their things. A change of one machine changes the tally by that machine; a transition that only winds
machines down takes away those that it turns off, and these are just the ones that it answers with.
Sets with a given modifier are too few for the tally to reach the largest count of a modifier.
-/

namespace KeyEngine

namespace OneShot

/-- A transition that turns no machine on and answers with the change that it makes. -/
structure WindsDown (f : OneShot → OneShot × Option OneShotChange) : Prop where
  /-- No machine is turned on. -/
  stays : ∀ m, m.isActive = false → (f m).1.isActive = false
  /-- The answer is the change. -/
  answers : ∀ m, (f m).2 = changeBetween m (f m).1

/-- What winds machines down answers that a machine is to be revoked exactly when it turns it off. -/
theorem WindsDown.answer {f : OneShot → OneShot × Option OneShotChange} (winds : WindsDown f)
    (m : OneShot) : (f m).2 = if m.isActive && !(f m).1.isActive then some .revoke else none := by
  rw [winds.answers, changeBetween]
  cases on : m.isActive with
  | false => simp [winds.stays m on]
  | true => cases (f m).1.isActive <;> simp

/-- A key that uses up a one-shot winds its machine down. -/
theorem WindsDown.consume : WindsDown OneShot.consume where
  stays m off := by
    have idle : m.phase = .idle := by simpa [isActive] using off
    unfold OneShot.consume
    rw [idle]
    exact off
  answers := consume_change

/-- Time winds a machine down. -/
theorem WindsDown.tick (settings : Settings) (now : Millis) : WindsDown (OneShot.tick settings now) where
  stays m off := by
    have idle : m.phase = .idle := by simpa [isActive] using off
    unfold OneShot.tick
    rw [idle]
    exact off
  answers := tick_change settings now

/-- An action that counts for the machines whose triggers do not ignore it winds them down. -/
theorem WindsDown.uses (settings : Settings) (action trigger : Action) :
    WindsDown fun m => if settings.ignores trigger action then (m, none) else m.consume := by
  cases settings.ignores trigger action with
  | true => exact ⟨fun _ off => off, fun m => by simp [changeBetween]⟩
  | false => exact .consume

end OneShot

namespace Machines

variable {α : Type}

/-- Every thing has one machine at most. -/
def Distinct (machines : Machines α) : Prop := (machines.entries.map (·.1)).Nodup

/-- How many machines are on for things of some kind. -/
def tally (machines : Machines α) (has : α → Bool) : Nat :=
  machines.entries.countP fun entry => entry.2.isActive && has entry.1

/-- The things whose machines a transition turns off. -/
def ended (machines : Machines α) (step : α → OneShot → OneShot × Option OneShotChange) : List α :=
  (machines.entries.filter fun entry =>
    entry.2.isActive && !(step entry.1 entry.2).1.isActive).map (·.1)

section
variable {machines : Machines α} {step : α → OneShot → OneShot × Option OneShotChange}

/-- A step of all machines gives no thing a second one. -/
theorem Distinct.sweep (distinct : machines.Distinct)
    (step : α → OneShot → OneShot × Option OneShotChange) : (machines.sweep step).1.Distinct := by
  have names : (machines.sweep step).1.entries.map (·.1) = machines.entries.map (·.1) :=
    List.map_map
  rw [Distinct, names]
  exact distinct

/-- A transition that winds all machines down answers with those that it turns off. -/
theorem answers_sweep (winds : ∀ thing, OneShot.WindsDown (step thing)) :
    (machines.sweep step).2 = (machines.ended step).map (·, .revoke) := by
  show machines.entries.filterMap _ = _
  rw [ended, List.map_map, ← List.filterMap_eq_map, List.filterMap_filter]
  congr 1
  funext ⟨thing, m⟩
  rw [(winds thing).answer]
  cases m.isActive && !(step thing m).1.isActive <;> rfl

/-- The machines that are on before are those that stay on and those that are turned off. -/
theorem tally_sweep (winds : ∀ thing, OneShot.WindsDown (step thing)) (has : α → Bool) :
    (machines.sweep step).1.tally has + (machines.ended step).countP has = machines.tally has := by
  obtain ⟨entries⟩ := machines
  simp only [tally, ended, sweep, List.countP_map, List.countP_filter]
  induction entries with
  | nil => rfl
  | cons entry rest ih =>
    have first : (if ((step entry.1 entry.2).1.isActive && has entry.1) = true then 1 else 0) +
        (if (has entry.1 && (entry.2.isActive && !(step entry.1 entry.2).1.isActive)) = true then 1
          else 0) = if (entry.2.isActive && has entry.1) = true then 1 else 0 := by
      cases on : entry.2.isActive with
      | false => simp [(winds entry.1).stays entry.2 on]
      | true => cases (step entry.1 entry.2).1.isActive <;> simp
    simp only [List.countP_cons, Function.comp] at ih ⊢
    omega

end

section
variable [DecidableEq α] {machines : Machines α} {thing other : α} {m : OneShot}
  {step : α → OneShot → OneShot × Option OneShotChange}

/-- A listed machine is the one of its thing. -/
theorem get_of_mem (distinct : machines.Distinct) (listed : (thing, m) ∈ machines.entries) :
    machines.get thing = m := by
  obtain ⟨before, after, split⟩ := List.append_of_mem listed
  have others : ∀ entry ∈ before, (thing != entry.1) = true := by
    rw [Distinct, split, List.map_append, List.nodup_append] at distinct
    refine fun entry member => bne_iff_ne.2 fun same => ?_
    exact distinct.2.2 entry.1 (List.mem_map_of_mem member) thing (by simp) same.symm
  have found : machines.entries.lookup thing = some m :=
    List.lookup_eq_some_iff.2 ⟨before, after, split, others⟩
  rw [get, found]
  rfl

/-- Only a thing with a machine has one that is on. -/
theorem mem_of_isActive (on : (machines.get thing).isActive = true) :
    (thing, machines.get thing) ∈ machines.entries := by
  unfold get at on ⊢
  cases found : machines.entries.lookup thing with
  | none =>
    rw [found] at on
    cases on
  | some m =>
    obtain ⟨before, after, split, -⟩ := List.lookup_eq_some_iff.1 found
    simp [split]

/-- A machine that is on makes the step of its own thing. -/
theorem get_sweep_of_isActive (on : (machines.get thing).isActive = true) :
    (machines.sweep step).1.get thing = (step thing (machines.get thing)).1 := by
  unfold sweep get at *
  dsimp only
  rw [ActiveKeys.lookup_map]
  cases found : machines.entries.lookup thing with
  | none =>
    rw [found] at on
    cases on
  | some m => rfl

/-- Winding down leaves a machine off that is off. -/
theorem isActive_sweep_of_off (winds : ∀ thing, OneShot.WindsDown (step thing))
    (off : (machines.get thing).isActive = false) :
    ((machines.sweep step).1.get thing).isActive = false := by
  unfold sweep get at *
  dsimp only
  rw [ActiveKeys.lookup_map]
  cases found : machines.entries.lookup thing with
  | none => rfl
  | some m =>
    rw [found] at off
    exact (winds thing).stays m off

/-- A thing is among the ended ones exactly when its machine was on and the step turned it off. -/
theorem mem_ended (distinct : machines.Distinct) : thing ∈ machines.ended step ↔
    (machines.get thing).isActive = true ∧ (step thing (machines.get thing)).1.isActive = false := by
  simp only [ended, List.mem_map, List.mem_filter, Bool.and_eq_true, Bool.not_eq_true']
  constructor
  · rintro ⟨⟨_, m⟩, ⟨listed, off⟩, rfl⟩
    rw [get_of_mem distinct listed]
    exact off
  · exact fun off => ⟨_, ⟨mem_of_isActive off.1, off⟩, rfl⟩

/-- A machine that is put in replaces that of the same thing, so no thing has two. -/
theorem Distinct.set (distinct : machines.Distinct) (thing : α) (m : OneShot) :
    (machines.set thing m).Distinct := by
  unfold Machines.set
  split
  · have names : (machines.entries.map fun entry => if entry.1 = thing then (entry.1, m) else entry).map
        (·.1) = machines.entries.map (·.1) := by
      rw [List.map_map]
      refine List.map_congr_left fun entry _ => ?_
      simp only [Function.comp]
      split <;> rfl
    rw [Distinct, names]
    exact distinct
  · rename_i missing
    have fresh : thing ∉ machines.entries.map (·.1) := fun member => by
      obtain ⟨entry, listed, named⟩ := List.mem_map.1 member
      exact missing (List.any_eq_true.2 ⟨entry, listed, beq_iff_eq.2 named⟩)
    rw [Distinct, List.map_append]
    exact List.nodup_append.2 ⟨distinct, by simp, by
      rintro name listed _ added rfl
      exact fresh (by simpa [List.mem_singleton.1 added] using listed)⟩

/-- A change of one machine changes the tally by that machine. -/
theorem tally_set (distinct : machines.Distinct) (thing : α) (m : OneShot) (has : α → Bool) :
    (machines.set thing m).tally has +
        (if ((machines.get thing).isActive && has thing) = true then 1 else 0) =
      machines.tally has + if (m.isActive && has thing) = true then 1 else 0 := by
  by_cases known : machines.entries.any (·.1 == thing) = true
  · obtain ⟨⟨name, old⟩, listed, named⟩ := List.any_eq_true.1 known
    obtain rfl : name = thing := beq_iff_eq.1 named
    obtain ⟨before, after, split⟩ := List.append_of_mem listed
    have others : ∀ entry ∈ before ++ after, entry.1 ≠ name := by
      rw [Distinct, split, (List.perm_middle.map _).nodup_iff, List.map_cons,
        List.nodup_cons] at distinct
      exact fun entry member same => distinct.1 (List.mem_map.2 ⟨entry, member, same⟩)
    have still (part : List (α × OneShot)) (within : part ⊆ before ++ after) :
        part.map (fun entry => if entry.1 = name then (entry.1, m) else entry) = part :=
      (List.map_congr_left fun entry member => if_neg (others entry (within member))).trans
        (List.map_id _)
    have changed : (machines.set name m).entries = before ++ (name, m) :: after := by
      rw [Machines.set, if_pos known]
      show machines.entries.map _ = _
      rw [split, List.map_append, List.map_cons, if_pos rfl, still before (by simp),
        still after (by simp)]
    rw [get_of_mem distinct listed, tally, tally, changed, split]
    simp only [List.countP_append, List.countP_cons]
    omega
  · have none : machines.get thing = .new := by
      rw [get, List.lookup_eq_none_iff.2 fun entry listed => bne_iff_ne.2 fun named =>
        known (List.any_eq_true.2 ⟨entry, listed, beq_iff_eq.2 named.symm⟩)]
      rfl
    have added : (machines.set thing m).entries = machines.entries ++ [(thing, m)] := by
      rw [Machines.set, if_neg known]
    rw [none, tally, tally, added]
    simp [OneShot.isActive, OneShot.new, List.countP_append, List.countP_cons]

end

/-- There are fewer sets with a given modifier than can be counted. -/
theorem tally_le {machines : Machines ModifierSet} (distinct : machines.Distinct) (m : Modifier) :
    machines.tally (·.contains m) ≤ Tally.limit := by
  have names : ((machines.entries.filter fun entry => entry.2.isActive && entry.1.contains m).map
      (·.1)).Nodup := distinct.sublist (List.filter_sublist.map _)
  -- The empty set is none of them, so that one more name still is one of the 256 bytes.
  have fresh : ∅ ∉ (machines.entries.filter fun entry => entry.2.isActive && entry.1.contains m).map
      (·.1) := by
    intro member
    obtain ⟨entry, counted, empty⟩ := List.mem_map.1 member
    have has := (List.mem_filter.1 counted).2
    simp [empty] at has
  have bytes : Function.Injective fun set : ModifierSet => set.bits.toFin := by
    rintro ⟨first⟩ ⟨second⟩ same
    exact congrArg ModifierSet.mk (BitVec.toFin_inj.1 same)
  have few := ((List.nodup_cons.2 ⟨fresh, names⟩).map bytes).length_le_card
  rw [List.length_map, List.length_cons, List.length_map, ← List.countP_eq_length_filter,
    Fintype.card_fin] at few
  exact Nat.le_of_lt_succ few

end Machines

end KeyEngine
