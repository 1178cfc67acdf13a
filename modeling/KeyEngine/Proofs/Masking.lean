import KeyEngine.Proofs.NextKey

/-!
# Shift is masked for a manual-shift key

A manual-shift key presses its second stroke while shift is on, and masks shift for the moment in which
the code of that stroke goes down. The mask covers what is held and what one-shots turn on. It does not
cover what is attached to strokes, since the stroke's own modifiers are among these; so the shift of a
shifted symbol that another key still holds down gets through. `manual_shift_masks` says what the host was
told exactly when the code goes down, and `manual_shift_leaks` is a case in which that is wrong.
-/

namespace KeyEngine

namespace ModifierSet

/-- More members make no difference within a set if they are members already. -/
theorem union_inter_eq_iff {more set within : ModifierSet} :
    (more ∪ set) ∩ within = set ∩ within ↔ ∀ m, m ∈ more ∩ within → m ∈ set := by
  constructor
  · intro same m member
    have same := congrArg (contains · m) same
    simp only [mem_iff, contains_inter, contains_union, Bool.and_eq_true] at same member ⊢
    simpa [member] using same
  · intro known
    refine ext_contains fun m => ?_
    simp only [contains_inter, contains_union]
    cases both : more.contains m && within.contains m with
    | true =>
      have own : set.contains m = true := known m ((contains_inter more within m).trans both)
      simp [own]
    | false => rw [Bool.and_or_distrib_right, both, Bool.false_or]

end ModifierSet

namespace Holdings

variable {h next : Holdings} {since : List HostEvent} {fits : KeyCode → ModifierSet → Prop}

/-- Every code that went down since a stream was told fits the modifiers named last before it. -/
structure PressesFit (since : List HostEvent) (fits : KeyCode → ModifierSet → Prop) (h : Holdings) :
    Prop where
  /-- The stream was only added to. -/
  starts : ∃ out, h.journal.stream = since ++ out
  /-- What was added presses what fits. -/
  pressed : ∀ front code back, h.journal.stream = since ++ (front ++ .press code :: back) →
    fits code (HostEvent.lastModifiers (since ++ front))

namespace PressesFit

/-- Nothing was added yet. -/
theorem nothing (h : Holdings) (fits : KeyCode → ModifierSet → Prop) : PressesFit h.journal.stream fits h where
  starts := ⟨[], (List.append_nil _).symm⟩
  pressed front code back same := by
    have none := List.append_right_eq_self.1 same.symm
    simp at none

/-- Whatever only turns things off presses nothing. -/
theorem later (fit : PressesFit since fits h) (takes : TakesBack h next) : PressesFit since fits next := by
  obtain ⟨out, starts⟩ := fit.starts
  obtain ⟨more, told, only⟩ := takes
  refine ⟨⟨out ++ more, by rw [told, starts, List.append_assoc]⟩, fun front code back same => ?_⟩
  rw [told, starts, List.append_assoc] at same
  rcases append_eq_append_cons (List.append_cancel_left same) with ⟨others, earlier⟩ | ⟨others, -, here⟩
  · exact fit.pressed front code others (by rw [starts, earlier])
  · cases only (.press code) (by simp [here])

/-- A change of the modifiers presses nothing. -/
theorem mapModifiers (fit : PressesFit since fits h) (f : ModifierState → ModifierState) :
    PressesFit since fits (h.mapModifiers f) :=
  fit.later (.of_stream rfl)

/-- Telling the host about the modifiers presses nothing. -/
theorem sync (fit : PressesFit since fits h) : PressesFit since fits h.sync := fit.later (.sync h)

/-- The code of a stroke goes down, unless it is that of a modifier or was down before. -/
theorem press (fit : PressesFit since fits h) {stroke : Keystroke}
    (last : stroke.code.isModifier = false → fits stroke.code (HostEvent.lastModifiers h.journal.stream)) :
    PressesFit since fits (h.mapCode stroke Register.press) := by
  unfold Holdings.mapCode
  split
  · exact fit
  · rename_i plain
    have told := stream_mapRegister h (·.press stroke.code)
    cases down : h.register.isRegistered stroke.code with
    | true =>
      rw [Register.press, down, if_pos rfl, List.append_nil] at told
      exact fit.later (.of_stream told)
    | false =>
      rw [Register.press, down, if_neg Bool.false_ne_true] at told
      obtain ⟨out, starts⟩ := fit.starts
      refine ⟨⟨out ++ [.press stroke.code], by rw [told, starts, List.append_assoc]⟩,
        fun front code back same => ?_⟩
      rw [told, starts, List.append_assoc] at same
      rcases append_eq_append_cons (List.append_cancel_left same) with ⟨others, earlier⟩ | ⟨others, rfl, here⟩
      · exact fit.pressed front code others (by rw [starts, earlier])
      · obtain ⟨rfl, rfl⟩ : others = [] ∧ stroke.code = code := by
          cases others with
          | nil => exact ⟨rfl, HostEvent.press.inj (List.cons.inj here).1⟩
          | cons first others => simp at here
        rw [List.append_nil, ← starts]
        exact last (Bool.eq_false_iff.2 plain)

end PressesFit

/-- The modifiers of a stroke come on in addition to what is on. -/
theorem effective_attach (h : Holdings) (stroke : Keystroke) :
    (h.attach stroke).effective = h.effective ∪ stroke.allModifiers := by
  refine ModifierSet.ext_contains fun m => ?_
  cases has : stroke.allModifiers.contains m <;>
    simp [effective, ModifierState.attach, has, Tally.limit]

/-- While shift is masked, the shift that comes through is attached to a stroke. -/
theorem effective_masked (clear : h.modifiers.suppressed = ∅) :
    (h.mapModifiers (·.suppress h.shiftOn)).effective ∩ .shift =
      h.modifiers.attached.present ∩ .shift := by
  refine ModifierSet.ext_contains fun m => ?_
  cases held : decide (0 < h.modifiers.held.count m) <;>
    cases oneShot : decide (0 < h.modifiers.oneShot.count m) <;>
    cases attached : decide (0 < h.modifiers.attached.count m) <;>
    simp [effective, shiftOn, ModifierState.suppress, clear, held, oneShot, attached]

/-- The modifiers of the stroke that is pressed come on, and all others are on as before. -/
theorem effective_pressManualShift (clear : h.modifiers.suppressed = ∅) (unshifted shifted : Keystroke) :
    (h.pressManualShift unshifted shifted).effective =
      h.effective ∪ (h.chooseShifted unshifted shifted).allModifiers := by
  unfold pressManualShift chooseShifted
  dsimp only
  split
  · rw [pressStroke, effective_mapCode, effective_attach]
  · have lifted : (((h.mapModifiers (·.suppress h.shiftOn)).attach shifted).mapModifiers
        (·.unsuppress h.shiftOn)).modifiers = (h.attach shifted).modifiers := by
      have same : (∅ ∪ h.shiftOn) \ h.shiftOn = (∅ : ModifierSet) :=
        ModifierSet.ext_contains fun m => by simp
      simp [ModifierState.suppress, ModifierState.unsuppress, ModifierState.attach, clear, same]
    rw [effective_sync, ← effective_attach, effective, effective, ← lifted]
    simp [pressStroke]

/-- Where the shift that is on is that of other strokes, the code of a stroke goes down under it and under
the stroke's own. -/
theorem pressStroke_fits {ids : List LayerId} (mirrored : h.Mirrored ids) {attached : ModifierSet}
    (shift : h.effective ∩ .shift = attached ∩ .shift) (stroke : Keystroke) :
    PressesFit h.journal.stream
      (fun code on => code = stroke.code ∧ on ∩ .shift = (attached ∪ stroke.modifiers) ∩ .shift)
      (h.pressStroke stroke) := by
  have attaching := (PressesFit.nothing h fun code on =>
    code = stroke.code ∧ on ∩ .shift = (attached ∪ stroke.modifiers) ∩ .shift).mapModifiers
      (·.attach stroke.allModifiers)
  refine attaching.sync.press fun plain => ⟨rfl, ?_⟩
  have named : HostEvent.lastModifiers (h.attach stroke).journal.stream = h.effective ∪ stroke.modifiers := by
    rw [(mirrored.attach stroke).told, attach, synced_sync, ← attach, effective_attach,
      Keystroke.allModifiers, (KeyCode.modifierBit_eq_empty_iff _).2 plain]
    exact ModifierSet.ext_contains fun m => by simp
  refine (congrArg (· ∩ .shift) named).trans (ModifierSet.ext_contains fun m => ?_)
  have same := congrArg (ModifierSet.contains · m) shift
  simp only [ModifierSet.contains_inter, ModifierSet.contains_union, Bool.and_or_distrib_right] at same ⊢
  rw [same]

/-- The code of a manual-shift key goes down under the shift of its stroke and of other strokes. -/
theorem pressManualShift_fits (reported : h.Reported) (clear : h.modifiers.suppressed = ∅)
    (unshifted shifted : Keystroke) :
    PressesFit h.journal.stream
      (fun code on => code = (h.chooseShifted unshifted shifted).code ∧ on ∩ .shift =
        (h.modifiers.attached.present ∪ (h.chooseShifted unshifted shifted).modifiers) ∩ .shift)
      (h.pressManualShift unshifted shifted) := by
  unfold pressManualShift chooseShifted
  dsimp only
  split
  · rename_i none
    refine pressStroke_fits reported.mirrored (ModifierSet.ext_contains fun m => ?_) unshifted
    have off := congrArg (ModifierSet.contains · m) (ModifierSet.isEmpty_iff.1 none)
    rw [shiftOn, effective, ModifierSet.contains_inter, ModifierState.contains_effective] at off
    rw [ModifierSet.contains_inter, ModifierSet.contains_inter, effective, ModifierState.contains_effective,
      Tally.contains_present]
    cases attached : decide (0 < h.modifiers.attached.count m) <;> simp_all
  · exact ((pressStroke_fits (h := h.mapModifiers (·.suppress h.shiftOn)) (reported.mirrored.mapModifiers _)
      (effective_masked clear) shifted).mapModifiers _).sync

end Holdings

/-- A keyboard with a shifted symbol, a manual-shift key for comma and dot, and left shift. -/
def Profile.symbols : Profile where
  keymap :=
    ⟨[⟨"base", [.plain ⟨.a, .single .leftShift⟩, .manualShift (.ofCode .comma) (.ofCode .dot),
        .plain (.ofCode .leftShift)]⟩],
      Keymap.firstFault_eq_none_iff.1 (by decide)⟩
  settings := .standard
  layerModifiers := .none

namespace Engine

/-- A manual-shift key masks shift, except for what is attached to strokes that are down. Whenever the press
of such a key is acted on, the second stroke is chosen exactly while shift is on. If its code goes down, no
other does, and the host was last told, as far as shift is concerned, the modifiers of the stroke and those
attached to other strokes; so these are the stroke's own exactly if no other stroke adds to them. Before
the one-shots are told, the modifiers of the stroke are on in addition to those that were on before. -/
theorem manual_shift_masks (p : Profile) (calls : List Call) {m : Moment}
    (member : m ∈ start.course p calls) {event : KeyEvent} (fed : m.deed = .task (.feed event))
    (pressed : event.pressed = true) (free : m.state.isPending = false)
    (up : m.state.active.contains event.key = false) {unshifted shifted : Keystroke}
    (means : m.state.resolve p event.key = .manualShift unshifted shifted) :
    let chosen := if (m.state.modifiers ∩ .shift).isEmpty then unshifted else shifted
    let attached := m.state.holdings.modifiers.attached.present
    let typed := ((m.state.announce (.dispatched event)).readied event).mapHoldings
      (·.pressManualShift unshifted shifted)
    (m.next p).active.find? event.key = some ⟨.manualShift unshifted shifted, .stroke chosen⟩ ∧
    (∀ front code back, (m.next p).journal.stream =
        m.state.journal.stream ++ (front ++ .press code :: back) →
      let told := HostEvent.lastModifiers (m.state.journal.stream ++ front)
      code = chosen.code ∧ told ∩ .shift = (attached ∪ chosen.modifiers) ∩ .shift ∧
      (told ∩ .shift = chosen.modifiers ∩ .shift ↔
        ∀ modifier, modifier ∈ attached ∩ .shift → modifier ∈ chosen.modifiers)) ∧
    typed.modifiers = m.state.modifiers ∪ chosen.allModifiers ∧
    (m.next p).modifiers = (typed.consume p (.manualShift unshifted shifted)).modifiers ∧
    (m.next p).oneShots = (typed.consume p (.manualShift unshifted shifted)).oneShots := by
  obtain ⟨s, deed⟩ := m
  subst fed
  intro chosen attached typed
  have next : (Moment.mk s (.task (.feed event))).next p =
      { (typed.consume p (.manualShift unshifted shifted)).announce
          (.key event.key (.manualShift unshifted shifted) true) with
        active := s.active.insert event.key ⟨.manualShift unshifted shifted, .stroke chosen⟩ } := by
    have meant : (s.announce (.dispatched event)).resolve p event.key = .manualShift unshifted shifted := means
    rw [next_of_press (head_of_free free) pressed up, means, performed, meant]
    rfl
  have reported : (s.announce (.dispatched event)).holdings.Reported := by
    have reported : s.holdings.Reported :=
      (told_lasting p).of_mem_course Holdings.reported_empty member
    exact reported.of_layers rfl (reported.mirrored.announce rfl) reported.synced
  have clear : (s.announce (.dispatched event)).holdings.modifiers.suppressed = ∅ :=
    (unmasked_lasting p).of_mem_course rfl member
  have typing := Holdings.pressManualShift_fits reported clear unshifted shifted
  have told : (s.announce (.dispatched event)).holdings.journal.stream = s.holdings.journal.stream :=
    (Holdings.stream_announce _ _).trans (List.append_nil _)
  rw [told] at typing
  rw [next]
  refine ⟨?_, fun front code back same => ?_, Holdings.effective_pressManualShift clear unshifted shifted, rfl, rfl⟩
  · simp
  · have counted : typed.holdings.TakesBack (typed.consume p (.manualShift unshifted shifted)).holdings :=
      OneShots.takesBack_consume _
    have fits := (typing.later counted).later (.of_stream
      ((Holdings.stream_announce _ (.key event.key (.manualShift unshifted shifted) true)).trans
        (List.append_nil _)))
    obtain ⟨code, shift⟩ := fits.pressed front code back same
    exact ⟨code, shift, shift ▸ ModifierSet.union_inter_eq_iff⟩

/-- Left shift is held, and the manual-shift key goes down. -/
def shiftHeld : Moment :=
  ⟨(after .symbols [.down 2 0]).tick .symbols (.ofWord 10), .task (.feed ⟨⟨1⟩, true, .ofWord 10⟩)⟩

/-- The moment in which the manual-shift key goes down under a held shift belongs to the run. -/
theorem shiftHeld_mem : shiftHeld ∈ start.course .symbols [.down 2 0, .down 1 10] := by
  refine List.mem_append_right _ (List.mem_append_left _ (List.mem_append_right _ ?_))
  rw [doing]
  exact .head _

set_option maxRecDepth 10000 in
/-- The dot goes down without the shift that is held, which comes back at once. -/
theorem manual_shift_masks_held :
    (shiftHeld.next .symbols).active.find? ⟨1⟩ =
      some ⟨.manualShift (.ofCode .comma) (.ofCode .dot), .stroke (.ofCode .dot)⟩ ∧
    (shiftHeld.next .symbols).journal.stream = shiftHeld.state.journal.stream ++
      ([.modifiers ∅] ++ .press .dot :: [.modifiers (.single .leftShift)]) ∧
    HostEvent.lastModifiers (shiftHeld.state.journal.stream ++ [.modifiers ∅]) ∩ .shift = ∅ := by
  have free : shiftHeld.state.isPending = false := by cbv
  have up : shiftHeld.state.active.contains ⟨1⟩ = false := by cbv
  have means : shiftHeld.state.resolve .symbols ⟨1⟩ = .manualShift (.ofCode .comma) (.ofCode .dot) := by cbv
  have shift : (shiftHeld.state.modifiers ∩ .shift).isEmpty = false := by cbv
  have alone : shiftHeld.state.holdings.modifiers.attached.present = ∅ := by cbv
  have told : (shiftHeld.next .symbols).journal.stream = shiftHeld.state.journal.stream ++
      ([.modifiers ∅] ++ .press .dot :: [.modifiers (.single .leftShift)]) := by cbv
  obtain ⟨chosen, presses, -⟩ := manual_shift_masks .symbols _ shiftHeld_mem rfl rfl free up means
  rw [shift] at chosen presses
  obtain ⟨-, masked, -⟩ := presses _ _ _ told
  refine ⟨chosen, told, masked.trans ?_⟩
  rw [alone]
  decide

set_option maxRecDepth 10000 in
/-- The first key holds down a shifted symbol when the manual-shift key goes down: its second stroke, which
has no modifiers, goes down under shift. -/
theorem manual_shift_leaks :
    (after .symbols [.down 0 0, .down 1 10]).active.find? ⟨1⟩ =
      some ⟨.manualShift (.ofCode .comma) (.ofCode .dot), .stroke (.ofCode .dot)⟩ ∧
    (after .symbols [.down 0 0, .down 1 10]).journal.stream =
      [.modifiers (.single .leftShift), .press .a] ++ [.press .dot] ∧
    HostEvent.lastModifiers [.modifiers (.single .leftShift), .press .a] ∩ .shift ≠
      (Keystroke.ofCode .dot).modifiers ∩ .shift :=
  ⟨by cbv, by cbv, by decide⟩

end Engine

end KeyEngine
