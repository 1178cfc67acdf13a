import Mathlib.Data.List.Perm.Basic
import Mathlib.Data.List.Nodup
import KeyEngine.ActiveKeys

/-!
# Counting the keys that are down

Every key is down at most once, so how many keys do a thing is a count over the entries. The lemmas say
what a key that goes down or up, or whose state changes, adds to such a count and takes from it.
-/

namespace KeyEngine

namespace ActiveKeys

/-- Every key is listed at most once. -/
def Distinct (keys : ActiveKeys) : Prop := (keys.entries.map (·.1)).Nodup

/-- How many keys are down. -/
def size (keys : ActiveKeys) : Nat := keys.entries.length

/-- How many of the keys that are down do a thing. -/
def tally (keys : ActiveKeys) (does : ActiveKey → Bool) : Nat :=
  keys.entries.countP fun entry => does entry.2

/-- A key is up exactly when it is not listed. -/
theorem find?_eq_none_iff {keys : ActiveKeys} {key : Key} :
    keys.find? key = none ↔ key ∉ keys.entries.map (·.1) := by
  obtain ⟨entries⟩ := keys
  unfold find?
  dsimp only
  induction entries with
  | nil => simp
  | cons entry rest ih =>
    rw [lookup_cons_ite]
    by_cases same : key = entry.1
    · simp [same]
    · simp [same, ih]

/-- A key is up exactly when no entry is found for it. -/
theorem contains_eq_false_iff {keys : ActiveKeys} {key : Key} :
    keys.contains key = false ↔ keys.find? key = none := by
  simp [contains]

/-- A key that is not listed can be left out. -/
theorem filter_ne_of_absent {entries : List (Key × ActiveKey)} {key : Key}
    (absent : key ∉ entries.map (·.1)) : entries.filter (fun entry => entry.1 != key) = entries := by
  rw [List.filter_eq_self]
  intro entry member
  rw [bne_iff_ne]
  rintro rfl
  exact absent (List.mem_map_of_mem member)

/-- Forgetting a key that is not down changes nothing. -/
theorem remove_of_absent {keys : ActiveKeys} {key : Key} (absent : keys.find? key = none) :
    keys.remove key = keys := by
  rw [remove, filter_ne_of_absent (find?_eq_none_iff.1 absent)]

/-- A key that was taken out is up. -/
theorem find?_remove_self (keys : ActiveKeys) (key : Key) : (keys.remove key).find? key = none := by
  simp

/-- A key that was forgotten has no state to change. -/
theorem setState_remove (keys : ActiveKeys) (key : Key) (state : KeyState) :
    (keys.remove key).setState key state = keys.remove key := by
  rw [setState, List.map_congr_left (g := id), List.map_id]
  intro entry member
  have differs : ¬entry.1 = key := by simpa using (List.mem_filter.1 member).2
  rw [if_neg differs, id]

/-- Whether its state changed before does not matter for a key that is forgotten. -/
theorem remove_setState (keys : ActiveKeys) (key : Key) (state : KeyState) :
    (keys.setState key state).remove key = keys.remove key := by
  have swapped : (keys.setState key state).remove key = (keys.remove key).setState key state := by
    rw [remove, setState, setState, remove, List.filter_map]
    congr 2
    refine List.filter_congr fun entry _ => ?_
    rw [Function.comp_apply]
    split <;> rfl
  rw [swapped, setState_remove]

/-- The state of a key that just went down is replaced. -/
theorem setState_insert (keys : ActiveKeys) (key : Key) (action : Action) (before after : KeyState) :
    (keys.insert key ⟨action, before⟩).setState key after = keys.insert key ⟨action, after⟩ := by
  have others := congrArg entries (setState_remove keys key after)
  simp only [setState] at others
  simp only [insert, setState, List.map_cons, if_true, others]

/-- A key that is down is one entry among those of the other keys. -/
theorem perm_remove {keys : ActiveKeys} (distinct : keys.Distinct) {key : Key} {entry : ActiveKey}
    (down : keys.find? key = some entry) :
    keys.entries.Perm ((key, entry) :: (keys.remove key).entries) := by
  obtain ⟨entries⟩ := keys
  unfold Distinct at distinct
  unfold find? at down
  unfold remove
  dsimp only at distinct down ⊢
  induction entries with
  | nil => simp at down
  | cons first rest ih =>
    obtain ⟨absent, distinct⟩ := List.nodup_cons.1 distinct
    rw [lookup_cons_ite] at down
    by_cases same : key = first.1
    · rw [if_pos same] at down
      have others : rest.filter (fun entry => entry.1 != key) = rest :=
        filter_ne_of_absent (by simpa only [same] using absent)
      have first_eq : first = (key, entry) := Prod.ext same.symm (Option.some.inj down)
      rw [List.filter_cons_of_neg (by simp [same]), others, first_eq]
    · rw [if_neg same] at down
      rw [List.filter_cons_of_pos (by simpa using Ne.symm same)]
      exact ((ih distinct down).cons first).trans (List.Perm.swap _ _ _)

/-- What is listed for a key is found. -/
theorem find?_of_mem {keys : ActiveKeys} (distinct : keys.Distinct) {key : Key} {entry : ActiveKey}
    (listed : (key, entry) ∈ keys.entries) : keys.find? key = some entry := by
  obtain ⟨entries⟩ := keys
  unfold Distinct at distinct
  unfold find?
  dsimp only at distinct listed ⊢
  induction entries with
  | nil => cases listed
  | cons first rest ih =>
    obtain ⟨absent, distinct⟩ := List.nodup_cons.1 distinct
    rw [lookup_cons_ite]
    rcases List.mem_cons.1 listed with rfl | later
    · rw [if_pos rfl]
    · have differs : ¬key = first.1 := by
        rintro rfl
        exact absent (List.mem_map.2 ⟨_, later, rfl⟩)
      rw [if_neg differs]
      exact ih distinct later

/-- Where no key is listed, none is listed twice. -/
theorem distinct_empty : empty.Distinct := List.nodup_nil

namespace Distinct

variable {keys : ActiveKeys}

/-- Taking a key out lists no key twice. -/
theorem remove (distinct : keys.Distinct) (key : Key) : (keys.remove key).Distinct :=
  List.Nodup.sublist (List.filter_sublist.map _) distinct

/-- A key that goes down replaces its own entry, so none is listed twice. -/
theorem insert (distinct : keys.Distinct) (key : Key) (entry : ActiveKey) :
    (keys.insert key entry).Distinct := by
  refine List.nodup_cons.2 ⟨?_, distinct.remove key⟩
  rw [← find?_eq_none_iff]
  exact find?_remove_self keys key

/-- A key that changes its state is listed no more often than before. -/
theorem setState (distinct : keys.Distinct) (key : Key) (state : KeyState) :
    (keys.setState key state).Distinct := by
  have same : (keys.setState key state).entries.map (·.1) = keys.entries.map (·.1) := by
    rw [ActiveKeys.setState, List.map_map]
    refine List.map_congr_left fun entry _ => ?_
    rw [Function.comp_apply]
    split <;> rfl
  rw [Distinct, same]
  exact distinct

/-- Keys that become inert are listed no more often than before. -/
theorem makeInert (distinct : keys.Distinct) : keys.makeInert.Distinct := by
  rw [Distinct, ActiveKeys.makeInert, List.map_map]
  exact distinct

end Distinct

/-- The first key adds itself to the count if it does the thing. -/
theorem tally_cons (key : Key) (entry : ActiveKey) (entries : List (Key × ActiveKey))
    (does : ActiveKey → Bool) :
    tally ⟨(key, entry) :: entries⟩ does = tally ⟨entries⟩ does + (does entry).toNat := by
  rw [tally, List.countP_cons]
  cases does entry <;> rfl

/-- A key that goes down adds what it does. -/
theorem tally_insert {keys : ActiveKeys} {key : Key} (absent : keys.find? key = none)
    (entry : ActiveKey) (does : ActiveKey → Bool) :
    (keys.insert key entry).tally does = keys.tally does + (does entry).toNat := by
  rw [insert, remove_of_absent absent]
  exact tally_cons key entry keys.entries does

/-- A key that goes up takes away what it did. -/
theorem tally_remove {keys : ActiveKeys} (distinct : keys.Distinct) {key : Key} {entry : ActiveKey}
    (down : keys.find? key = some entry) (does : ActiveKey → Bool) :
    keys.tally does = (keys.remove key).tally does + (does entry).toNat := by
  rw [tally, (perm_remove distinct down).countP_eq]
  exact tally_cons key entry (keys.remove key).entries does

/-- A key whose state changes takes away what it did and adds what it does now. -/
theorem tally_setState {keys : ActiveKeys} (distinct : keys.Distinct) {key : Key}
    {entry : ActiveKey} (down : keys.find? key = some entry) (state : KeyState)
    (does : ActiveKey → Bool) :
    (keys.setState key state).tally does =
      (keys.remove key).tally does + (does { entry with state := state }).toNat := by
  have changed : (keys.setState key state).find? key = some { entry with state := state } := by
    simp [down]
  rw [tally_remove (distinct.setState key state) changed, remove_setState]

/-- Keys that have nothing to undo do nothing that needs undoing. -/
theorem tally_makeInert (keys : ActiveKeys) (does : ActiveKey → Bool)
    (idle : ∀ action, does ⟨action, .inert⟩ = false) : keys.makeInert.tally does = 0 := by
  rw [tally, makeInert, List.countP_map, List.countP_eq_zero]
  intro entry _
  simp [idle]

/-- Where no key that is down does a thing, it is not done. -/
theorem tally_eq_zero {keys : ActiveKeys} (distinct : keys.Distinct) {does : ActiveKey → Bool}
    (none : ∀ key entry, keys.find? key = some entry → does entry = false) : keys.tally does = 0 := by
  rw [tally, List.countP_eq_zero]
  intro entry listed
  rw [none entry.1 entry.2 (find?_of_mem distinct listed)]
  exact Bool.false_ne_true

/-- No more keys do a thing than are down. -/
theorem tally_le_size (keys : ActiveKeys) (does : ActiveKey → Bool) : keys.tally does ≤ keys.size :=
  List.countP_le_length

end ActiveKeys

end KeyEngine
