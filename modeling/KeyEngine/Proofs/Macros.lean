import KeyEngine.Proofs.Masking

/-!
# Macros leave things as they were

A macro taps its strokes one after the other, on top of whatever the other keys hold: a code of the macro may
be down already, and so may its modifiers. `Shows` says what the host sees between two states: which events,
apart from changes of the modifiers, and under which modifiers each of them. A tap shows the press and the
release of its code and puts everything back, so by induction a macro shows those of its strokes, each under
the modifiers from before the macro and the stroke's own.
-/

namespace KeyEngine

namespace HostEvent

/-- What is said apart from the modifiers, each event with the modifiers that are on when it comes. -/
def shown (on : ModifierSet) : List HostEvent → List (HostEvent × ModifierSet)
  | [] => []
  | modifiers set :: rest => shown set rest
  | event :: rest => (event, on) :: shown on rest

/-- What two outputs show is what the first shows, and then the second under the modifiers the first
left on. -/
theorem shown_append (on : ModifierSet) (front back : List HostEvent) :
    shown on (front ++ back) = shown on front ++ shown (front.foldl modifiersAfter on) back := by
  induction front generalizing on with
  | nil => rfl
  | cons event rest ih =>
    cases event with
    | modifiers set => exact ih set
    | _ => exact congrArg (_ :: ·) (ih on)

/-- While the modifiers are not named, everything is shown under the same ones. -/
theorem shown_of_silent (on : ModifierSet) {events : List HostEvent}
    (silent : ∀ event ∈ events, modifiers? event = none) :
    shown on events = events.map (·, on) ∧ events.foldl modifiersAfter on = on := by
  induction events with
  | nil => exact ⟨rfl, rfl⟩
  | cons event rest ih =>
    obtain ⟨seen, last⟩ := ih fun other member => silent other (.tail _ member)
    cases event with
    | modifiers set => cases silent _ (.head _)
    | _ => exact ⟨congrArg (_ :: ·) seen, last⟩

end HostEvent

namespace Keystroke

/-- A stroke that is no modifier key turns on the modifiers attached to it. -/
theorem allModifiers_of_plain {stroke : Keystroke} (plain : stroke.code.isModifier = false) :
    stroke.allModifiers = stroke.modifiers := by
  rw [allModifiers, (KeyCode.modifierBit_eq_empty_iff _).2 plain]
  refine ModifierSet.ext_contains fun m => ?_
  rw [ModifierSet.contains_union, ModifierSet.contains_empty, Bool.or_false]

end Keystroke

namespace Holdings

variable {h mid next : Holdings} {seen more : List (HostEvent × ModifierSet)}

/-- From one state to the other the host sees certain events, each under certain modifiers. -/
def Shows (h next : Holdings) (seen : List (HostEvent × ModifierSet)) : Prop :=
  ∃ out, next.journal.stream = h.journal.stream ++ out ∧ HostEvent.shown h.sent out = seen ∧
    out.foldl HostEvent.modifiersAfter h.sent = next.sent

namespace Shows

/-- Nothing is shown while nothing is told. -/
theorem quiet (told : next.journal.stream = h.journal.stream) (sent : next.sent = h.sent) :
    Shows h next [] :=
  ⟨[], told.trans (List.append_nil _).symm, rfl, sent.symm⟩

/-- What is seen in two steps is seen one after the other. -/
theorem trans (first : Shows h mid seen) (second : Shows mid next more) : Shows h next (seen ++ more) := by
  obtain ⟨out, told, rfl, last⟩ := first
  obtain ⟨rest, ended, rfl, final⟩ := second
  refine ⟨out ++ rest, by rw [ended, told, List.append_assoc], ?_, ?_⟩
  · rw [HostEvent.shown_append, last]
  · rw [List.foldl_append, last, final]

/-- Telling the modifiers shows nothing else. -/
theorem sync (h : Holdings) : Shows h h.sync [] := by
  unfold Holdings.sync
  split
  · exact .quiet rfl rfl
  · exact ⟨[.modifiers h.effective], stream_announce _ _, rfl, rfl⟩

/-- A change of the modifiers shows nothing before the host is told of it. -/
theorem mapModifiers (h : Holdings) (f : ModifierState → ModifierState) : Shows h (h.mapModifiers f) [] :=
  quiet rfl rfl

/-- The modifiers of a stroke show nothing when they are attached. -/
theorem attach (h : Holdings) (stroke : Keystroke) : Shows h (h.attach stroke) [] :=
  (mapModifiers h _).trans (sync _)

/-- The modifiers of a stroke show nothing when they are detached. -/
theorem detach (h : Holdings) (stroke : Keystroke) : Shows h (h.detach stroke) [] :=
  (mapModifiers h _).trans (sync _)

/-- A change of the register shows what it tells, under the modifiers told last. -/
theorem mapCode (h : Holdings) (stroke : Keystroke) {f : Register → KeyCode → Register × List HostEvent}
    (silent : ∀ event ∈ (f h.register stroke.code).2, HostEvent.modifiers? event = none) :
    Shows h (h.mapCode stroke f)
      (if stroke.code.isModifier then [] else (f h.register stroke.code).2.map (·, h.sent)) := by
  unfold Holdings.mapCode
  split
  · exact .quiet rfl rfl
  · obtain ⟨seen, last⟩ := HostEvent.shown_of_silent h.sent silent
    exact ⟨_, stream_mapRegister _ _, seen, last.trans (sent_mapRegister _ _).symm⟩

end Shows

/-- After its modifiers are attached, the host was told what is on together with them. -/
theorem sent_attach (h : Holdings) (stroke : Keystroke) :
    (h.attach stroke).sent = h.effective ∪ stroke.allModifiers := by
  rw [← effective_attach]
  exact synced_sync _

/-- A tapped code names no modifiers to the host. -/
theorem silent_tap (r : Register) (code : KeyCode) :
    ∀ event ∈ (r.tap code).2, HostEvent.modifiers? event = none := by
  unfold Register.tap
  split <;> simp [HostEvent.modifiers?]

/-- A code that is typed anew names no modifiers to the host. -/
theorem silent_retype (r : Register) (code : KeyCode) :
    ∀ event ∈ (r.retype code).2, HostEvent.modifiers? event = none := by
  unfold Register.retype
  split <;> simp [HostEvent.modifiers?]

/-- What a tap of a stroke shows: a press and a release of its code, the release first if the code is down
already, under the modifiers that are on and the stroke's own. A modifier key shows nothing. -/
def tapSeen (h : Holdings) (stroke : Keystroke) : List (HostEvent × ModifierSet) :=
  let under := h.effective ∪ stroke.modifiers
  if stroke.code.isModifier then []
  else if 0 < h.register.count stroke.code then [(.release stroke.code, under), (.press stroke.code, under)]
  else [(.press stroke.code, under), (.release stroke.code, under)]

/-- A tapped stroke shows the press and the release of its code, under its own modifiers and those that
are on. -/
theorem shows_tapStroke (h : Holdings) (stroke : Keystroke) : Shows h (h.tapStroke stroke) (h.tapSeen stroke) := by
  have tapped := (Shows.attach h stroke).trans
    ((Shows.mapCode _ stroke (silent_tap _ _)).trans (Shows.detach _ stroke))
  rw [List.nil_append, List.append_nil, sent_attach, register_attach] at tapped
  change Shows h (h.tapStroke stroke) _ at tapped
  cases plain : stroke.code.isModifier with
  | true => simpa only [tapSeen, plain, if_true] using tapped
  | false =>
    rw [plain, if_neg Bool.false_ne_true, Keystroke.allModifiers_of_plain plain] at tapped
    by_cases down : 0 < h.register.count stroke.code
    · simpa [tapSeen, plain, Register.tap, Register.isRegistered, down] using tapped
    · simpa [tapSeen, plain, Register.tap, Register.isRegistered, down] using tapped

/-- A tap puts the modifiers back; a count that was full is full enough afterwards. -/
theorem effective_tapStroke (h : Holdings) (stroke : Keystroke) :
    (h.tapStroke stroke).effective = h.effective := by
  refine ModifierSet.ext_contains fun m => ?_
  have back : (0 < min Tally.limit (h.modifiers.attached.count m + 1) - 1) ↔ 0 < h.modifiers.attached.count m := by
    unfold Tally.limit
    omega
  cases has : stroke.allModifiers.contains m <;>
    simp [effective, tapStroke, ModifierState.attach, ModifierState.detach, has, back]

/-- A tapped stroke leaves the register as it was. -/
theorem register_tapStroke (h : Holdings) (stroke : Keystroke) :
    (h.tapStroke stroke).register = h.register := by
  simp [tapStroke, register_mapCode, Register.tap]

/-- A tapped stroke leaves the layers as they were. -/
theorem layers_tapStroke (h : Holdings) (stroke : Keystroke) : (h.tapStroke stroke).layers = h.layers := by
  simp [tapStroke]

/-- What a tap shows depends on the modifiers that are on and on the codes that are down. -/
theorem tapSeen_congr {other : Holdings} (effective : other.effective = h.effective)
    (register : other.register = h.register) (stroke : Keystroke) : other.tapSeen stroke = h.tapSeen stroke := by
  rw [tapSeen, tapSeen, effective, register]

/-- A macro shows the taps of its strokes in order, each as if the others were not there, and puts everything
back. The induction is on the strokes: each tap leaves what the next ones depend on. -/
theorem tapStrokes_spec (h : Holdings) (strokes : List Keystroke) :
    Shows h (h.tapStrokes strokes) (strokes.flatMap h.tapSeen) ∧
      (h.tapStrokes strokes).effective = h.effective ∧ (h.tapStrokes strokes).register = h.register ∧
      (h.tapStrokes strokes).layers = h.layers := by
  induction strokes generalizing h with
  | nil => exact ⟨.quiet rfl rfl, rfl, rfl, rfl⟩
  | cons stroke rest ih =>
    obtain ⟨seen, effective, register, layers⟩ := ih (h.tapStroke stroke)
    have same : (h.tapStroke stroke).tapSeen = h.tapSeen :=
      funext (tapSeen_congr (effective_tapStroke h stroke) (register_tapStroke h stroke))
    rw [same] at seen
    exact ⟨(shows_tapStroke h stroke).trans seen, effective.trans (effective_tapStroke h stroke),
      register.trans (register_tapStroke h stroke), layers.trans (layers_tapStroke h stroke)⟩

/-- Retyping a stroke shows a press of its code, after a release if the code was down. -/
theorem shows_retypeStroke (h : Holdings) {stroke : Keystroke} (plain : stroke.code.isModifier = false) :
    Shows h (h.retypeStroke stroke)
      ((if 0 < h.register.count stroke.code then [.release stroke.code, .press stroke.code]
        else [.press stroke.code]).map (·, h.effective ∪ stroke.modifiers)) := by
  have typed := (Shows.attach h stroke).trans (Shows.mapCode _ stroke (silent_retype _ _))
  rw [List.nil_append, sent_attach, register_attach, plain, if_neg Bool.false_ne_true,
    Keystroke.allModifiers_of_plain plain] at typed
  simpa only [Register.retype, Register.isRegistered, decide_eq_true_eq, retypeStroke] using typed

end Holdings

namespace Engine

/-- Macros are atomic and put everything back. At every moment of every run, the strokes of a macro show, one
after the other, a press and a release of each code that is no modifier key, the release first exactly if the
code was down, and nothing else; each under the modifiers that were on before the macro and the stroke's own.
Afterwards the modifiers that are on and those that the host was told last, the codes with their counts, and the
layers are as they were. A stroke that is retyped shows a press of its code in any case, under the modifiers
that were on and its own. -/
theorem macro_atomic (p : Profile) (calls : List Call) {m : Moment} (during : m ∈ start.course p calls) :
    let h := m.state.holdings
    let told := HostEvent.lastModifiers h.journal.stream
    (∀ strokes, ∃ out, (h.tapStrokes strokes).journal.stream = h.journal.stream ++ out ∧
      HostEvent.shown told out = (strokes.flatMap fun stroke =>
        let under := h.effective ∪ stroke.modifiers
        if stroke.code.isModifier then []
        else if 0 < h.register.count stroke.code then
          [(.release stroke.code, under), (.press stroke.code, under)]
        else [(.press stroke.code, under), (.release stroke.code, under)]) ∧
      (h.tapStrokes strokes).effective = h.effective ∧
      HostEvent.lastModifiers (h.tapStrokes strokes).journal.stream = h.effective ∧
      (h.tapStrokes strokes).register = h.register ∧ (h.tapStrokes strokes).layers = h.layers) ∧
    ∀ stroke, stroke.code.isModifier = false →
      ∃ out, (h.retypeStroke stroke).journal.stream = h.journal.stream ++ out ∧
        HostEvent.shown told out =
          (if 0 < h.register.count stroke.code then [.release stroke.code, .press stroke.code]
            else [.press stroke.code]).map (·, h.effective ∪ stroke.modifiers) := by
  intro h told
  have reported : h.Reported := (told_lasting p).of_mem_course Holdings.reported_empty during
  have sent : told = h.sent := reported.mirrored.told
  rw [sent]
  constructor
  · intro strokes
    obtain ⟨⟨out, starts, seen, -⟩, effective, register, layers⟩ := h.tapStrokes_spec strokes
    have after := (Holdings.reported_durable p.layerModifiers).tapStrokes strokes reported
    exact ⟨out, starts, seen, effective, (after.mirrored.told.trans after.synced).trans effective,
      register, layers⟩
  · intro stroke plain
    obtain ⟨out, starts, seen, -⟩ := h.shows_retypeStroke plain
    exact ⟨out, starts, seen⟩

/-- The first key holds down a shifted symbol, and time passes. -/
def symbolHeld : Moment := ⟨after .symbols [.down 0 0], .task (.expire (.ofWord 10))⟩

/-- The moment in which the symbol is held down belongs to the run. -/
theorem symbolHeld_mem : symbolHeld ∈ start.course .symbols [.down 0 0, .tick (.ofWord 10)] := by
  refine List.mem_append_right _ (List.mem_append_left _ (List.mem_append_left _ ?_))
  rw [doing]
  exact .head _

/-- A macro of the code that is down, of another one with control, and of a modifier key. -/
def threeStrokes : List Keystroke := [.ofCode .a, ⟨.b, .single .leftControl⟩, .ofCode .leftAlt]

set_option maxRecDepth 10000 in
/-- While the shifted symbol is down, the macro shows its code under shift, released first, then the other one
under both modifiers, and nothing of the modifier key. -/
theorem macro_atomic_symbolHeld :
    symbolHeld ∈ start.course .symbols [.down 0 0, .tick (.ofWord 10)] ∧
    ∃ out, (symbolHeld.state.holdings.tapStrokes threeStrokes).journal.stream =
        symbolHeld.state.holdings.journal.stream ++ out ∧
      HostEvent.shown (.single .leftShift) out =
        [(.release .a, .single .leftShift), (.press .a, .single .leftShift),
          (.press .b, .single .leftShift ∪ .single .leftControl),
          (.release .b, .single .leftShift ∪ .single .leftControl)] ∧
      (symbolHeld.state.holdings.tapStrokes threeStrokes).effective = .single .leftShift := by
  have told : HostEvent.lastModifiers symbolHeld.state.holdings.journal.stream = .single .leftShift := by cbv
  have on : symbolHeld.state.holdings.effective = .single .leftShift := by cbv
  have down : symbolHeld.state.holdings.register.count .a = 1 := by cbv
  have up : symbolHeld.state.holdings.register.count .b = 0 := by cbv
  obtain ⟨out, starts, seen, restored, -⟩ :=
    (macro_atomic .symbols _ symbolHeld_mem).1 threeStrokes
  refine ⟨symbolHeld_mem, out, starts, ?_, restored.trans on⟩
  rw [told] at seen
  rw [seen, on]
  simp only [threeStrokes, Keystroke.ofCode, List.flatMap_cons, List.flatMap_nil, down, up]
  decide

end Engine

end KeyEngine
