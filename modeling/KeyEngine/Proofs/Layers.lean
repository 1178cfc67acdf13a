import Mathlib.Data.List.Perm.Basic
import Mathlib.Data.List.Perm.Subperm
import Mathlib.Data.List.Nodup
import KeyEngine.LayerStack

/-!
# Layers that go on and off

The entries of a layer stack are reasons; what the host and the observers see is only which layers are
on. `mem_activeIds_activate` and `mem_activeIds_deactivate` say that the answers of the two operations
are exact: a layer goes on when it was opened, goes off when it was closed, and no other layer changes.
-/

namespace KeyEngine

namespace LayerStack

/-- What holds of every stack that was built by switching layers on and off. -/
structure Sound (s : LayerStack) : Prop where
  /-- The base layer has no entry. -/
  base_absent : ∀ entry ∈ s.entries, entry.id ≠ baseLayer
  /-- The stack is not too high. -/
  few : s.entries.length ≤ maxEntries
  /-- No reason is entered twice. -/
  distinct : s.entries.Nodup

/-- A layer is on when it is entered for some reason. -/
theorem mem_activeIds {s : LayerStack} {id : LayerId} :
    id ∈ s.activeIds ↔ ∃ kind, ⟨id, kind⟩ ∈ s.entries := by
  simp only [activeIds, List.mem_eraseDups, List.mem_map]
  constructor
  · rintro ⟨⟨_, kind⟩, member, rfl⟩
    exact ⟨kind, member⟩
  · rintro ⟨kind, member⟩
    exact ⟨_, member, rfl⟩

/-- Removing repetitions leaves none. -/
theorem nodup_eraseDups (ids : List LayerId) : ids.eraseDups.Nodup := by
  match ids with
  | [] => exact List.nodup_nil
  | id :: rest =>
    have shorter : (rest.filter fun other => !other == id).length < rest.length + 1 :=
      Nat.lt_succ_of_le (List.length_filter_le _ _)
    rw [List.eraseDups_cons, List.nodup_cons]
    refine ⟨?_, nodup_eraseDups _⟩
    simp [List.mem_eraseDups]
termination_by ids.length

/-- Every layer that is on is listed once. -/
theorem nodup_activeIds (s : LayerStack) : s.activeIds.Nodup := nodup_eraseDups _

/-- There are at most as many layers on as there are reasons. -/
theorem length_activeIds_le (s : LayerStack) : s.activeIds.length ≤ s.entries.length := by
  have subset : s.activeIds ⊆ s.entries.map (·.id) := fun id member => List.mem_eraseDups.1 member
  simpa using (s.nodup_activeIds.subperm subset).length_le

/-- A layer other than the base layer is active exactly when it is listed. -/
theorem isActive_iff_mem {s : LayerStack} {id : LayerId} (above : id ≠ baseLayer) :
    s.isActive id = true ↔ id ∈ s.activeIds := by
  simp [isActive_iff, mem_activeIds, above]

/-- No layer is on in the empty stack. -/
@[simp] theorem activeIds_empty : empty.activeIds = [] := by
  simp [activeIds, empty]

/-- Nothing is wrong with a stack without entries. -/
theorem sound_empty : empty.Sound := ⟨by simp [empty], by simp [empty], List.nodup_nil⟩

/-- A layer that was opened is not the base layer, was off before, and found room in the stack. -/
theorem activate_opened {s : LayerStack} {id : LayerId} {kind : Activation}
    (opened : (s.activate id kind).2 = .opened) :
    id ≠ baseLayer ∧ id ∉ s.activeIds ∧ s.entries.length < maxEntries ∧
      (s.activate id kind).1 = ⟨⟨id, kind⟩ :: s.entries⟩ := by
  unfold activate at opened ⊢
  by_cases base : id = baseLayer
  · simp [base] at opened
  · by_cases known : s.contains id kind = true
    · simp [base, known] at opened
    · by_cases full : maxEntries ≤ s.entries.length
      · simp [base, known, full] at opened
      · by_cases active : s.isActive id = true
        · simp [base, known, full, active] at opened
        · rw [isActive_iff_mem base] at active
          simp [base, known, full, active, Nat.lt_of_not_le full]

/-- One more entry turns on its own layer and no other. -/
theorem mem_activeIds_cons {entries : List LayerEntry} {id other : LayerId} {kind : Activation} :
    other ∈ activeIds ⟨⟨id, kind⟩ :: entries⟩ ↔ other ∈ activeIds ⟨entries⟩ ∨ other = id := by
  simp only [activeIds, List.mem_eraseDups, List.map_cons, List.mem_cons]
  exact or_comm

/-- Switching a layer on enters no other reason. -/
theorem mem_activate {s : LayerStack} {id : LayerId} {kind : Activation} {entry : LayerEntry}
    (listed : entry ∈ (s.activate id kind).1.entries) : entry ∈ s.entries ∨ entry = ⟨id, kind⟩ := by
  unfold activate at listed
  split at listed
  · exact .inl listed
  · split at listed
    · rcases List.mem_cons.1 listed with added | earlier
      · exact .inr added
      · exact .inl (List.mem_of_mem_erase earlier)
    · split at listed
      · exact .inl listed
      · exact (List.mem_cons.1 listed).symm

/-- Switching a layer on for a reason leaves all other reasons as they are. -/
theorem mem_activate_of_ne {s : LayerStack} {id : LayerId} {kind : Activation} {entry : LayerEntry}
    (differs : entry ≠ ⟨id, kind⟩) : entry ∈ (s.activate id kind).1.entries ↔ entry ∈ s.entries := by
  unfold activate
  split
  · exact Iff.rfl
  · split
    · simp [differs, List.mem_erase_of_ne differs]
    · split
      · exact Iff.rfl
      · simp [differs]

/-- A layer is on for a reason once it was switched on for it, unless there was no room. -/
theorem mem_activate_self {s : LayerStack} {id : LayerId} {kind : Activation} (above : id ≠ baseLayer) :
    ⟨id, kind⟩ ∈ (s.activate id kind).1.entries ↔ (s.activate id kind).2 ≠ .refused := by
  unfold activate
  by_cases known : s.contains id kind = true
  · simp [above, known]
  · have absent : ⟨id, kind⟩ ∉ s.entries := fun listed => known (contains_iff.2 listed)
    by_cases full : maxEntries ≤ s.entries.length
    · simp [above, known, full, absent]
    · by_cases active : s.isActive id = true <;> simp [above, known, full, active]

/-- Switching a layer on takes no reason back. -/
theorem mem_activate_of_mem {s : LayerStack} {entry : LayerEntry} (listed : entry ∈ s.entries)
    (id : LayerId) (kind : Activation) : entry ∈ (s.activate id kind).1.entries := by
  by_cases same : entry = ⟨id, kind⟩
  · rw [activate]
    split
    · exact listed
    · have known : s.contains id kind = true := contains_iff.2 (same ▸ listed)
      rw [if_pos known, same]
      exact List.mem_cons_self
  · exact (mem_activate_of_ne same).2 listed

/-- A layer is on after switching one on exactly when it was on before or was opened. -/
theorem mem_activeIds_activate (s : LayerStack) (id : LayerId) (kind : Activation) (other : LayerId) :
    other ∈ (s.activate id kind).1.activeIds ↔
      other ∈ s.activeIds ∨ (s.activate id kind).2 = .opened ∧ other = id := by
  unfold activate
  by_cases base : id = baseLayer
  · simp [base]
  · by_cases known : s.contains id kind = true
    · -- the entry only moves to the top
      have moved := List.perm_cons_erase (contains_iff.1 known)
      simp [base, known, mem_activeIds, moved.mem_iff]
    · by_cases full : maxEntries ≤ s.entries.length
      · simp [base, known, full]
      · simp only [base, known, full, if_false, Bool.false_eq_true, mem_activeIds_cons]
        by_cases active : s.isActive id = true
        · have on := (isActive_iff_mem base).1 active
          simp only [active, if_true, reduceCtorEq, false_and, or_false, or_iff_left_iff_imp]
          rintro rfl
          exact on
        · simp only [active, if_false, Bool.false_eq_true, true_and]

/-- Switching a layer on keeps a stack sound. -/
theorem Sound.activate {s : LayerStack} (sound : s.Sound) (id : LayerId) (kind : Activation) :
    (s.activate id kind).1.Sound := by
  unfold LayerStack.activate
  by_cases base : id = baseLayer
  · simpa [base] using sound
  · by_cases known : s.contains id kind = true
    · have moved := List.perm_cons_erase (contains_iff.1 known)
      simp only [base, known, if_true, if_false]
      exact ⟨fun entry member => sound.base_absent entry (moved.mem_iff.2 member),
        moved.length_eq ▸ sound.few, moved.nodup_iff.1 sound.distinct⟩
    · by_cases full : maxEntries ≤ s.entries.length
      · simpa [base, known, full] using sound
      · simp only [base, known, full, if_false]
        refine ⟨?_, Nat.lt_of_not_le full, List.nodup_cons.2 ⟨?_, sound.distinct⟩⟩
        · rintro entry (_ | ⟨_, member⟩)
          · exact base
          · exact sound.base_absent entry member
        · simpa using known

/-- A reason is there after taking one back exactly when it was there and is another one. -/
theorem mem_deactivate {s : LayerStack} {id : LayerId} {kind : Activation} {entry : LayerEntry} :
    entry ∈ (s.deactivate id kind).1.entries ↔ entry ∈ s.entries ∧ entry ≠ ⟨id, kind⟩ := by
  simp [deactivate]

/-- A layer that was closed was on before. -/
theorem deactivate_closed {s : LayerStack} {id : LayerId} {kind : Activation}
    (closed : (s.deactivate id kind).2 = true) : id ∈ s.activeIds := by
  simp only [deactivate, Bool.and_eq_true, contains_iff] at closed
  exact mem_activeIds.2 ⟨kind, closed.1⟩

/-- A layer is on after a reason was taken back exactly when it was on before and was not closed. -/
theorem mem_activeIds_deactivate {s : LayerStack} (sound : s.Sound) (id : LayerId)
    (kind : Activation) (other : LayerId) :
    other ∈ (s.deactivate id kind).1.activeIds ↔
      other ∈ s.activeIds ∧ ¬((s.deactivate id kind).2 = true ∧ other = id) := by
  by_cases same : other = id
  · subst same
    simp only [and_true]
    by_cases known : ⟨other, kind⟩ ∈ s.entries
    · have above : other ≠ baseLayer := sound.base_absent _ known
      have on : other ∈ s.activeIds := mem_activeIds.2 ⟨kind, known⟩
      rw [← isActive_iff_mem above]
      simp only [deactivate, contains_iff.2 known, Bool.true_and, on, true_and]
      simp
    · have unchanged : ∀ entry, entry ∈ (s.deactivate other kind).1.entries ↔ entry ∈ s.entries := by
        intro entry
        rw [mem_deactivate, and_iff_left_iff_imp]
        rintro member rfl
        exact known member
      have kept : (s.deactivate other kind).2 = false := by simp [deactivate, known]
      simp [mem_activeIds, unchanged, kept]
  · simp only [mem_activeIds, mem_deactivate, same, and_false, not_false_eq_true, and_true]
    simp [same]

/-- Taking a reason back keeps a stack sound. -/
theorem Sound.deactivate {s : LayerStack} (sound : s.Sound) (id : LayerId) (kind : Activation) :
    (s.deactivate id kind).1.Sound where
  base_absent entry member := sound.base_absent entry (mem_deactivate.1 member).1
  few := Nat.le_trans (List.length_filter_le _ _) sound.few
  distinct := sound.distinct.filter _

end LayerStack

end KeyEngine
