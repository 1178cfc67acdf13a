import KeyEngine.Proofs.Accounts
import KeyEngine.Proofs.Buffering
import KeyEngine.Proofs.KeptBack
import KeyEngine.Proofs.Latch

/-!
# Repeating a tap

Where a tap-hold key may not be held right after its tap, a second press within the tapping term repeats the
tap at once, and the stroke stays down with the key. The engine remembers one tap for the whole keyboard, the
last one: the press of another key makes it forget, and so does the release of another key that was tapped,
which is then the last tap itself. `repeats_tap_iff` says that nothing else does.
-/

namespace KeyEngine

/-- A keyboard like the small one, on which a key that was just tapped repeats its tap. -/
def Profile.repeating : Profile :=
  { Profile.sample with settings := { Settings.standard with tappingForceHold := false } }

namespace Call

/-- A key is tapped and goes down once more; a plain key is up in between, which was down before. -/
def tappedTwice : List Call := [.down 2 0, .down 0 10, .up 0 20, .up 2 30, .down 0 40, .tick (.ofWord 500)]

/-- The same with another tap-hold key, which goes down behind the first one and up after it. -/
def tappedAcross : List Call := [.down 0 0, .down 1 10, .up 0 20, .up 1 30, .down 0 40]

end Call

namespace TapHold

/-- Whether a press repeats a tap depends on the taps of its own key only. -/
theorem repressed_forgetOther (t : TapHold) (key : Key) (time term : Millis) :
    (t.forgetOther key).repressed key time term = t.repressed key time term := by
  cases last : t.lastTap with
  | none => simp [repressed, forgetOther, last]
  | some tap =>
    by_cases same : tap.key = key
    · simp [repressed, forgetOther, last, same]
    · simp [repressed, forgetOther, last, same, Option.filter]

end TapHold

namespace Holdings

variable {h : Holdings} {stroke : Keystroke}

/-- A stroke is down: its code is pressed, unless it is a modifier key, and the host sees all its modifiers. -/
structure Down (h : Holdings) (stroke : Keystroke) : Prop where
  /-- The code is pressed. -/
  code : stroke.code.isModifier = false → h.register.isRegistered stroke.code = true
  /-- The modifiers are on. -/
  modifiers : ∀ m, stroke.allModifiers.contains m = true → h.effective.contains m = true

/-- A stroke is down for its own sake: its modifiers are attached, and not only held by other keys. -/
structure Keeps (h : Holdings) (stroke : Keystroke) : Prop where
  /-- The code is pressed. -/
  code : stroke.code.isModifier = false → h.register.isRegistered stroke.code = true
  /-- The modifiers are attached. -/
  attached : ∀ m, stroke.allModifiers.contains m = true → 0 < h.modifiers.attached.count m

/-- A stroke that is kept down is down. -/
theorem Keeps.down (keeps : h.Keeps stroke) : h.Down stroke where
  code := keeps.code
  modifiers m has := by
    rw [effective, ModifierState.contains_effective, decide_eq_true (keeps.attached m has), Bool.or_true]

/-- A stroke that was pressed is down. -/
theorem keeps_pressStroke (h : Holdings) (stroke : Keystroke) : (h.pressStroke stroke).Keeps stroke := by
  constructor
  · intro plain
    have counted : (h.pressStroke stroke).register.count stroke.code =
        min Register.limit ((h.attach stroke).register.count stroke.code + 1) := by
      rw [pressStroke, count_mapCode plain (fun n => min Register.limit (n + 1)) Register.count_press]
      simp
    have limit : 0 < Register.limit := by decide
    rw [Register.isRegistered, counted, decide_eq_true_eq]
    omega
  · intro m has
    have limit : 0 < Tally.limit := by decide
    have counted : (h.pressStroke stroke).modifiers.attached.count m =
        min Tally.limit (h.modifiers.attached.count m + 1) := by
      simp [pressStroke, ModifierState.attach, has]
    rw [counted]
    omega

/-- The codes and the attached modifiers are all that matters. -/
theorem Keeps.congr (keeps : h.Keeps stroke) {next : Holdings} (register : next.register = h.register)
    (attached : next.modifiers.attached = h.modifiers.attached) : next.Keeps stroke :=
  ⟨fun plain => register ▸ keeps.code plain, fun m has => attached ▸ keeps.attached m has⟩

/-- One-shots leave a stroke down. -/
theorem keeps_durable (lm : LayerModifiers) (stroke : Keystroke) : OneShotDurable lm (·.Keeps stroke) where
  applyOneShotLayer h id change keeps := by
    cases change with
    | apply =>
      exact keeps.congr (register_activateLayer h lm id .oneShot)
        (congrArg (·.attached) (modifiers_activateLayer h lm id .oneShot))
    | revoke =>
      exact keeps.congr (register_deactivateLayer h lm id .oneShot)
        (congrArg (·.attached) (modifiers_deactivateLayer h lm id .oneShot))
  applyOneShotModifiers h set change keeps := by
    cases change with
    | apply =>
      exact keeps.congr (by simp [applyOneShotModifiers])
        (by simp [applyOneShotModifiers, ModifierState.addOneShot])
    | revoke =>
      exact keeps.congr (by simp [applyOneShotModifiers])
        (by simp [applyOneShotModifiers, ModifierState.removeOneShot])

end Holdings

namespace Moment

/-- The tap that ends at a moment: the release of a key that was tapped gets its turn. -/
def tapUp? (m : Moment) : Option Tap :=
  match m.deed with
  | .task (.feed event) =>
    if !event.pressed && !m.state.isPending && (m.state.active.find? event.key).any (·.state == .tapped) then
      some ⟨event.key, event.time⟩
    else none
  | _ => none

/-- Whether a key goes down at a moment that was up, or everything is cancelled. -/
def intrudes (p : Profile) (m : Moment) : Bool :=
  match m.deed with
  | .task (.feed event) =>
    event.pressed && !m.state.active.contains event.key &&
      (!m.state.isPending || m.state.resolve p event.key == .cancel)
  | .cancel => true
  | _ => false

end Moment

namespace Engine

variable {p : Profile} {s t : Engine} {key : Key}

/-- No key waits where there is no waiting key. -/
theorem free_of_head (idle : s.tapHold.head = none) : s.isPending = false := by
  rw [isPending, TapHold.isPending, idle, Option.isSome_none]

/-- The tap that ends last at some moments. -/
def lastTapUp (moments : List Moment) : Option Tap := (moments.filterMap Moment.tapUp?).getLast?

/-- The last tap at moments ends at the last of them, or else at one before. -/
theorem lastTapUp_concat (moments : List Moment) (m : Moment) :
    lastTapUp (moments ++ [m]) = m.tapUp?.or (lastTapUp moments) := by
  rw [lastTapUp, List.filterMap_append, List.getLast?_append, lastTapUp]
  cases tap : m.tapUp? <;> simp [tap]

/-- Undoing a press remembers the tap of a key that was tapped. -/
theorem tapHold_undo (p : Profile) (event : KeyEvent) (entry : ActiveKey) (s : Engine) :
    (s.undo p event entry).tapHold =
      if entry.state = .tapped then s.tapHold.rememberTap event.key event.time else s.tapHold := by
  obtain ⟨action, state⟩ := entry
  cases state with
  | tapped =>
    unfold undo
    dsimp only
    cases action.tap? <;> rfl
  | _ => rfl

/-- A key that was down goes up: it is forgotten, and its tap is remembered if it was tapped. -/
theorem dispatch_of_lift {event : KeyEvent} {entry : ActiveKey} (released : event.pressed = false)
    (found : s.active.find? event.key = some entry) :
    (s.dispatch p event).tapHold =
        (if entry.state = .tapped then s.tapHold.rememberTap event.key event.time else s.tapHold) ∧
      (s.dispatch p event).active = s.active.remove event.key := by
  rw [dispatch, if_neg (Bool.eq_false_iff.1 released),
    release_of_down (s := s.announce (.dispatched event)) found]
  exact ⟨tapHold_undo p event entry _, active_undo p event entry _⟩

/-- Nothing waits, a key is up, and a given tap is remembered. -/
structure Ready (key : Key) (last : Option Tap) (s : Engine) : Prop where
  /-- Nothing waits. -/
  idle : s.tapHold.head = none
  /-- The key is up. -/
  up : s.active.find? key = none
  /-- The tap is remembered. -/
  last : s.tapHold.lastTap = last

namespace Ready

variable {last : Option Tap}

/-- What touches neither the tap-hold keys nor the keys that are down leaves the last tap remembered. -/
theorem silent (ready : s.Ready key last) {m : Moment} {next : Engine} (silent : m.tapUp? = none)
    (tapHold : next.tapHold = s.tapHold) (active : next.active = s.active) :
    next.Ready key (m.tapUp?.or last) ∧ ∀ tap, m.tapUp? = some tap → tap.key ≠ key := by
  rw [silent]
  refine ⟨⟨tapHold ▸ ready.idle, active ▸ ready.up, tapHold ▸ ready.last⟩, fun tap ends => ?_⟩
  cases ends

/-- A release that gets its turn is remembered if the key was tapped. -/
theorem release (ready : s.Ready key last) {event : KeyEvent} (released : event.pressed = false) :
    (s.dispatch p event).Ready key ((Moment.mk s (.task (.feed event))).tapUp?.or last) ∧
      ∀ tap, (Moment.mk s (.task (.feed event))).tapUp? = some tap → tap.key ≠ key := by
  have tapUp : (Moment.mk s (.task (.feed event))).tapUp? =
      if (s.active.find? event.key).any (·.state == .tapped) then some ⟨event.key, event.time⟩
      else none := by
    simp [Moment.tapUp?, released, free_of_head ready.idle]
  cases found : s.active.find? event.key with
  | none =>
    rw [dispatch, if_neg (Bool.eq_false_iff.1 released),
      release_of_up (s := s.announce (.dispatched event)) found]
    exact ready.silent (by rw [tapUp, found]; rfl) rfl rfl
  | some entry =>
    have other : event.key ≠ key := by
      rintro rfl
      rw [ready.up] at found
      cases found
    rw [found] at tapUp
    rw [tapUp]
    obtain ⟨tapHold, active⟩ := dispatch_of_lift (p := p) released found
    have up : (s.dispatch p event).active.find? key = none := by
      rw [active, ActiveKeys.find?_remove, ready.up, ite_self]
    by_cases tapped : entry.state = .tapped
    · rw [if_pos tapped] at tapHold
      refine ⟨⟨tapHold ▸ ready.idle, up, by simp [tapHold, tapped, TapHold.rememberTap]⟩,
        fun tap ends => ?_⟩
      obtain rfl : (⟨event.key, event.time⟩ : Tap) = tap := by simpa [tapped] using ends
      exact other
    · rw [if_neg tapped] at tapHold
      refine ⟨⟨tapHold ▸ ready.idle, up, by simpa [tapHold, tapped] using ready.last⟩,
        fun tap ends => ?_⟩
      simp [tapped] at ends

/-- As long as no key goes down, only the release of another key that was tapped is remembered. -/
theorem next {m : Moment} (ready : m.state.Ready key last) (quiet : m.intrudes p = false) :
    (m.next p).Ready key (m.tapUp?.or last) ∧ ∀ tap, m.tapUp? = some tap → tap.key ≠ key := by
  obtain ⟨s, deed⟩ := m
  cases deed with
  | elapse now => exact ready.silent rfl rfl rfl
  | cancel => cases quiet
  | task task =>
    cases task with
    | expire now =>
      have early : s.tapHold.isDue now = false := by rw [TapHold.isDue, ready.idle, Option.any_none]
      have same : (Moment.mk s (.task (.expire now))).next p = s :=
        congrArg Prod.fst (step_expire_of_early early)
      rw [same]
      exact ready.silent rfl rfl rfl
    | feed event =>
      rw [next_of_actsOn (actsOn_of_idle ready.idle)]
      cases pressed : event.pressed with
      | false => exact ready.release pressed
      | true =>
        have down : s.active.contains event.key = true := by
          simpa [Moment.intrudes, pressed, free_of_head ready.idle] using quiet
        rw [dispatch, if_pos pressed, press_of_down (s := s.announce (.dispatched event)) down]
        exact ready.silent (m := ⟨s, .task (.feed event)⟩) (by simp [Moment.tapUp?, pressed]) rfl rfl

/-- The tap that ends last is remembered; if there is none, the one that was remembered still is. -/
theorem leads {moments : List Moment} (ready : s.Ready key last) (leads : Leads p s moments t)
    (quiet : ∀ m ∈ moments, m.intrudes p = false) : t.Ready key ((lastTapUp moments).or last) ∧
      ∀ tap ∈ lastTapUp moments, tap.key ≠ key := by
  induction moments using List.reverseRecOn generalizing t with
  | nil =>
    refine ⟨leads ▸ ready, fun tap ends => ?_⟩
    cases ends
  | append_singleton earlier m ih =>
    obtain ⟨u, first, rfl, rfl⟩ := leads_append.1 leads
    obtain ⟨still, others⟩ := ih first fun n member => quiet n (List.mem_append_left _ member)
    obtain ⟨after, other⟩ := still.next (quiet m (by simp))
    rw [lastTapUp_concat, Option.or_assoc]
    refine ⟨after, fun tap ends => ?_⟩
    rcases Option.or_eq_some_iff.1 ends with here | ⟨-, before⟩
    · exact other tap here
    · exact others tap before

end Ready

/-- A tap-hold key goes down with nothing waiting: it repeats the tap that is remembered of it, or waits. -/
theorem next_of_dual (event : KeyEvent) {stroke : Keystroke} (idle : s.tapHold.head = none)
    (up : s.active.find? event.key = none) (pressed : event.pressed = true)
    (dual : (s.resolve p event.key).tap? = some stroke) :
    let next := (Moment.mk s (.task (.feed event))).next p
    if s.repeatsTap p event then
      next.active.find? event.key = some ⟨s.resolve p event.key, .tapped⟩ ∧ next.tapHold.head = none ∧
        next.holdings.Keeps stroke
    else
      next.active.find? event.key = some ⟨s.resolve p event.key, .pending event.time⟩ ∧
        next.tapHold.head = some (.new event.key (s.resolve p event.key) event.time p.settings.tappingTerm) := by
  intro next
  have absent := ActiveKeys.contains_eq_false_iff.2 up
  have does : (s.announce (.dispatched event)).performed p event =
      ((s.announce (.dispatched event)).readied event).pressTapHold p event (s.resolve p event.key) stroke :=
    perform_of_dual dual event
  have again : ((s.announce (.dispatched event)).readied event).repeatsTap p event = s.repeatsTap p event := by
    show (_ && (s.tapHold.forgetOther event.key).repressed _ _ _) = _
    rw [TapHold.repressed_forgetOther, repeatsTap]
  have after : next = _ := next_of_press idle pressed absent
  rw [after, does, pressTapHold, again]
  split
  · refine ⟨by rw [ActiveKeys.find?_insert, if_pos rfl], idle, ?_⟩
    have keeps := (Holdings.keeps_durable p.layerModifiers stroke).consume
      (s := ((s.announce (.dispatched event)).readied event).mapHoldings (·.pressStroke stroke))
      (s.resolve p event.key) (Holdings.keeps_pressStroke _ stroke)
    exact keeps.congr rfl rfl
  · exact ⟨by rw [ActiveKeys.find?_insert, if_pos rfl], rfl⟩

/-- Settling the waiting key changes no key that does not wait. -/
theorem find?_settled {decision : Decision} {head : PendingKey} {entry : ActiveKey}
    (waits : s.active.find? head.key = some ⟨head.action, .pending head.since⟩)
    (down : s.active.find? key = some entry) (settled : ∀ since, entry.state ≠ .pending since) :
    (s.settled p decision head).active.find? key = some entry := by
  have other : key ≠ head.key := by
    rintro rfl
    obtain rfl := Option.some.inj (waits.symm.trans down)
    exact settled head.since rfl
  rw [active_settled, ActiveKeys.find?_setState, down, Option.map_some, if_neg other]

/-- Acting on an event changes a key that is down only if it goes up or everything is cancelled. -/
theorem find?_dispatch {event : KeyEvent} {entry : ActiveKey} (acts : s.ActsOn p event)
    (down : s.active.find? key = some entry) (stays : (Moment.mk s (.task (.feed event))).lifts key = false)
    (going : (Moment.mk s (.task (.feed event))).drops p = false) :
    (s.dispatch p event).active.find? key = some entry := by
  cases pressed : event.pressed with
  | true =>
    rw [dispatch, if_pos pressed]
    cases again : s.active.contains event.key with
    | true =>
      rw [press_of_down (s := s.announce (.dispatched event)) again]
      exact down
    | false =>
      have goes : s.resolve p event.key ≠ .cancel := fun means => by
        have ignored : (Moment.mk s (.task (.feed event))).ignores = false := again
        rw [Moment.drops, cancels_of_actsOn acts pressed means, ignored] at going
        cases going
      have other : key ≠ event.key := by
        rintro rfl
        rw [ActiveKeys.contains_eq_false_iff.1 again] at down
        cases down
      rw [press_of_up (s := s.announce (.dispatched event)) again, ActiveKeys.find?_insert, if_neg other]
      have kept : ((s.announce (.dispatched event)).performed p event).2.active = s.active :=
        active_perform p event goes _
      rw [kept, down]
  | false =>
    have idle := Consistent.idle_of_released acts pressed
    have other : key ≠ event.key := by
      rintro rfl
      simp [Moment.lifts, isPending, TapHold.isPending, idle, pressed] at stays
    cases found : s.active.find? event.key with
    | none =>
      rw [dispatch, if_neg (Bool.eq_false_iff.1 pressed),
        release_of_up (s := s.announce (.dispatched event)) found]
      exact down
    | some lifted => rw [(dispatch_of_lift pressed found).2, ActiveKeys.find?_remove, if_neg other, down]

/-- What a key that is down does stays as it is until the key goes up or everything is cancelled, unless the
key waits. -/
theorem find?_next {m : Moment} {entry : ActiveKey} (consistent : m.state.Consistent)
    (down : m.state.active.find? key = some entry) (settled : ∀ since, entry.state ≠ .pending since)
    (stays : m.lifts key = false) (going : m.drops p = false) :
    (m.next p).active.find? key = some entry := by
  obtain ⟨s, deed⟩ := m
  cases deed with
  | elapse now => exact down
  | cancel => cases going
  | task task =>
    have taken := step_spec p s task
    show (step p s task).1.active.find? key = some entry
    generalize (step p s task).1 = next, (step p s task).2 = more at taken
    cases taken with
    | early => exact down
    | due waiting => exact find?_settled (consistent.down _ waiting) down settled
    | act idle => exact find?_dispatch (actsOn_of_idle idle) down stays going
    | again => exact down
    | lift waiting => exact find?_settled (consistent.down _ waiting) down settled
    | abort waiting other pressed cancels =>
      exact find?_dispatch (actsOn_of_cancel waiting other pressed cancels) down stays going
    | keep => exact down
    | @interrupt event head waiting =>
      have waits : s.active.find? (head.push event).key =
          some ⟨(head.push event).action, .pending (head.push event).since⟩ := consistent.down head waiting
      exact find?_settled waits down settled

/-- A key that is down does the same until it goes up or everything is cancelled. -/
theorem Leads.find? {moments : List Moment} {entry : ActiveKey} (leads : Leads p s moments t)
    (consistent : s.Consistent) (down : s.active.find? key = some entry)
    (settled : ∀ since, entry.state ≠ .pending since)
    (stays : ∀ m ∈ moments, m.lifts key = false ∧ m.drops p = false) : t.active.find? key = some entry := by
  have kept := @Leads.invariant p _ _ (fun s => s.Consistent ∧ s.active.find? key = some entry) moments leads
    (fun m member holds => ⟨(consistent_lasting p).next m holds.1,
      find?_next holds.1 holds.2 settled (stays m member).1 (stays m member).2⟩) ⟨consistent, down⟩
  exact kept.2

/-- A stroke is down as long as a key keeps it down, if never too many keys are. -/
theorem Accounted.keeps (accounted : s.Accounted True p) {entry : ActiveKey} {stroke : Keystroke}
    (down : s.active.find? key = some entry) (keeps : entry.stroke? = some stroke) :
    s.holdings.Keeps stroke := by
  have meets := accounted.meets
  rw [ActiveKeys.demand_remove accounted.distinct down] at meets
  refine ⟨fun plain => ?_, fun m has => ?_⟩
  · have asked := (meets.codes stroke.code plain).2 trivial
    have presses : entry.presses stroke.code = true := by simp [ActiveKey.presses, keeps]
    simp only [Demand.add, presses, Bool.toNat_true] at asked
    exact decide_eq_true (Nat.lt_of_lt_of_le (Nat.succ_pos _) asked)
  · have asked := (meets.attached m).2 trivial
    have attaches : entry.attaches m = true := by simp [ActiveKey.attaches, keeps, has]
    simp only [Demand.add, attaches, Bool.toNat_true] at asked
    exact Nat.lt_of_lt_of_le (Nat.succ_pos _) asked

/-- Moments with not too many keys down leave everything accounted for. -/
theorem Accounted.leads {exact : Prop} (accounted : s.Accounted exact p) (consistent : s.Consistent)
    {moments : List Moment} (leads : Leads p s moments t)
    (few : ∀ m ∈ moments, exact → m.state.active.size ≤ Demand.largest)
    (last : exact → t.active.size ≤ Demand.largest) : t.Accounted exact p := by
  induction moments using List.reverseRecOn generalizing t with
  | nil => exact leads ▸ accounted
  | append_singleton earlier m ih =>
    obtain ⟨u, first, rfl, rfl⟩ := leads_append.1 leads
    have here := few m (by simp)
    have before := ih first (fun n member => few n (List.mem_append_left _ member)) here
    have agrees := (consistent_lasting p).leads first consistent
    obtain ⟨s, deed⟩ := m
    cases deed with
    | task task => exact before.step agrees (step_spec p s task) last
    | elapse now => exact before.elapse here now
    | cancel => exact before.cancel

/-- A key that was tapped goes down once more, and the press means a tap-hold action: it comes within the
tapping term of the release, and in between no other key goes down and nothing is cancelled. -/
structure Retap (p : Profile) (key : Key) (action : Action) (stroke : Keystroke) (time : Millis)
    (up : Moment) (between : List Moment) (down : Moment) : Prop where
  /-- The release of the tap gets its turn. -/
  taps : ∃ released, up.tapUp? = some ⟨key, released⟩ ∧ time.since released < p.settings.tappingTerm
  /-- No other key goes down. -/
  quiet : ∀ n ∈ between, n.intrudes p = false
  /-- The key goes down. -/
  presses : down.deed = .task (.feed ⟨key, true, time⟩)
  /-- It means an action. -/
  means : down.state.resolve p key = action
  /-- The action has a tap. -/
  dual : action.tap? = some stroke

/-- Once a tap has ended, it is remembered. -/
theorem ready_of_tapUp {up : Moment} {tap : Tap} (ends : up.tapUp? = some tap) :
    (up.next p).Ready tap.key (some tap) := by
  obtain ⟨s, deed⟩ := up
  unfold Moment.tapUp? at ends
  split at ends
  · rename_i event fed
    obtain rfl : deed = .task (.feed event) := fed
    split at ends
    · rename_i lifts
      cases ends
      simp only [Bool.and_eq_true, Bool.not_eq_true', Option.any_eq_true, beq_iff_eq] at lifts
      obtain ⟨⟨released, free⟩, entry, found, tapped⟩ := lifts
      have idle := head_of_free free
      obtain ⟨tapHold, active⟩ := dispatch_of_lift (p := p) released found
      rw [if_pos tapped] at tapHold
      rw [next_of_actsOn (actsOn_of_idle idle)]
      refine ⟨tapHold ▸ idle, ?_, by rw [tapHold]; rfl⟩
      rw [active, ActiveKeys.find?_remove, if_pos rfl]
    · cases ends
  · cases ends

/-- The last tap is repeated unless another tap has ended since. -/
theorem Retap.repeatsTap_iff {action : Action} {stroke : Keystroke} {time : Millis} {up down : Moment}
    {between : List Moment} (retap : Retap p key action stroke time up between down)
    (off : p.settings.tappingForceHold = false) (middle : Leads p (up.next p) between down.state) :
    down.state.tapHold.head = none ∧ down.state.active.find? key = none ∧
      (down.state.repeatsTap p ⟨key, true, time⟩ = true ↔ ∀ n ∈ between, n.tapUp? = none) := by
  obtain ⟨released, ends, soon⟩ := retap.taps
  obtain ⟨ready, others⟩ := (ready_of_tapUp ends).leads middle retap.quiet
  have none_iff : lastTapUp between = none ↔ ∀ n ∈ between, n.tapUp? = none := by
    rw [lastTapUp, List.getLast?_eq_none_iff, List.filterMap_eq_nil_iff]
  refine ⟨ready.idle, ready.up, ?_⟩
  rw [← none_iff, repeatsTap, off, TapHold.repressed, ready.last]
  cases last : lastTapUp between with
  | none => simp [soon]
  | some tap => simp [others tap last]

/-- Where a key that was just tapped may not be held at once, a second press repeats its tap, unless the tap of
another key has ended since. In every run of calls, let a key that was tapped go up, and let it go down once
more within the tapping term as a tap-hold key, when no other key has gone down and nothing was cancelled: the
press is a tap at once exactly if no other key that was tapped has gone up since. Then the key does not wait and
its stroke is down, and until it goes up or everything is cancelled it stays so, if never too many keys are down
to count them. -/
theorem repeats_tap_iff (p : Profile) (calls : List Call) (off : p.settings.tappingForceHold = false)
    {before between rest : List Moment} {up down : Moment} {key : Key} {action : Action} {stroke : Keystroke}
    {time : Millis} (course : start.course p calls = before ++ up :: between ++ down :: rest)
    (retap : Retap p key action stroke time up between down) :
    ((down.next p).active.find? key = some ⟨action, .tapped⟩ ↔ ∀ n ∈ between, n.tapUp? = none) ∧
    ((∀ n ∈ between, n.tapUp? = none) →
      (down.next p).isPending = false ∧ (down.next p).holdings.Down stroke ∧
      ∀ front n back, rest = front ++ n :: back →
        (∀ x ∈ front, x.lifts key = false ∧ x.drops p = false) →
        n.state.active.find? key = some ⟨action, .tapped⟩ ∧
          ((∀ x ∈ start.course p calls, x.state.active.size ≤ 247) → n.state.holdings.Down stroke)) := by
  have leads := leads_course p start calls
  rw [course] at leads
  obtain ⟨u, first, rfl, later⟩ := leads_append.1 leads
  obtain ⟨v, begins, starts, middle⟩ := leads_append.1 first
  obtain ⟨idle, absent, again⟩ := retap.repeatsTap_iff off middle
  have dual : (down.state.resolve p key).tap? = some stroke := by rw [retap.means, retap.dual]
  have spec := next_of_dual (p := p) ⟨key, true, time⟩ idle absent rfl dual
  have same : down = ⟨down.state, .task (.feed ⟨key, true, time⟩)⟩ := by rw [← retap.presses]
  rw [← same, retap.means] at spec
  rw [← again]
  by_cases repeats : down.state.repeatsTap p ⟨key, true, time⟩ = true
  · simp only [repeats, if_true] at spec
    obtain ⟨tapped, free, pressed⟩ := spec
    refine ⟨iff_of_true tapped repeats,
      fun _ => ⟨free_of_head free, pressed.down, fun front n back parts stays => ?_⟩⟩
    subst parts
    obtain ⟨w, onward, rfl, -⟩ := leads_append.1 later
    have consistent : down.state.Consistent := (consistent_lasting p).leads first consistent_start
    have still := onward.find? ((consistent_lasting p).next down consistent) tapped
      (fun _ => KeyState.noConfusion) stays
    refine ⟨still, fun few => ?_⟩
    rw [course] at few
    have whole : Leads p start (before ++ up :: between ++ down :: front) n.state :=
      leads_append.2 ⟨_, first, rfl, onward⟩
    have earlier (x) (member : x ∈ before ++ up :: between ++ down :: front) : x.state.active.size ≤ 247 := by
      refine few x ?_
      rw [← List.cons_append, ← List.append_assoc]
      exact List.mem_append_left _ member
    have accounted : n.state.Accounted True p :=
      (Accounted.start True p).leads consistent_start whole (fun x member _ => earlier x member)
        fun _ => few n (by simp)
    exact (accounted.keeps still retap.dual).down
  · simp only [repeats, if_false, Bool.false_eq_true] at spec
    refine ⟨iff_of_false (fun tapped => ?_) repeats, fun quick => absurd quick repeats⟩
    rw [spec.1] at tapped
    cases tapped

/-- The first key goes up for the first time, after it was settled as a tap. -/
def firstUp : Moment :=
  ⟨(((after .repeating (Call.tappedTwice.take 2)).tick .repeating (.ofWord 20)).step .repeating
      (.feed ⟨⟨0⟩, false, .ofWord 20⟩)).1, .task (.feed ⟨⟨0⟩, false, .ofWord 20⟩)⟩

/-- It goes down once more. -/
def secondDown : Moment :=
  ⟨(after .repeating (Call.tappedTwice.take 4)).tick .repeating (.ofWord 40),
    .task (.feed ⟨⟨0⟩, true, .ofWord 40⟩)⟩

/-- It is still down, much later. -/
def stillDown : Moment :=
  ⟨(after .repeating (Call.tappedTwice.take 5)).run .repeating [.expire (.ofWord 500)], .elapse (.ofWord 500)⟩

/-- The same key goes up behind the other one, which was just settled as a tap, too. -/
def acrossUp : Moment :=
  ⟨(((after .repeating (Call.tappedAcross.take 3)).tick .repeating (.ofWord 30)).step .repeating
      (.feed ⟨⟨1⟩, false, .ofWord 30⟩)).1, .task (.feed ⟨⟨0⟩, false, .ofWord 20⟩)⟩

/-- It goes down once more. -/
def acrossDown : Moment :=
  ⟨(after .repeating (Call.tappedAcross.take 4)).tick .repeating (.ofWord 40),
    .task (.feed ⟨⟨0⟩, true, .ofWord 40⟩)⟩

/-- What happens before it goes down once more. -/
def sinceFirstUp : List Moment := ((start.course .repeating Call.tappedTwice).drop 10).take 5

/-- What happens there before it goes down once more. -/
def sinceAcrossUp : List Moment := ((start.course .repeating Call.tappedAcross).drop 17).take 3

set_option maxRecDepth 10000 in
/-- The release of a plain key in between does not matter: the tap is repeated, and goes on for as long as the
key is down. -/
theorem repeats_tap_while_down :
    Call.Regular Call.tappedTwice ∧
    (secondDown.next .repeating).active.find? ⟨0⟩ =
      some ⟨.modTap (.single .leftControl) (.ofCode .a), .tapped⟩ ∧
    stillDown.state.holdings.Down (.ofCode .a) := by
  have course : start.course .repeating Call.tappedTwice =
      (start.course .repeating Call.tappedTwice).take 9 ++ firstUp :: sinceFirstUp ++ secondDown ::
        ([⟨after .repeating (Call.tappedTwice.take 5), .task (.expire (.ofWord 500))⟩] ++
          stillDown :: []) := by
    cbv
  have between : sinceFirstUp.all (fun n => !n.intrudes .repeating && n.tapUp? == none) = true := by cbv
  have few : (start.course .repeating Call.tappedTwice).all
      (fun x => decide (x.state.active.size ≤ 247)) = true := by cbv
  simp only [List.all_eq_true, Bool.and_eq_true, Bool.not_eq_true', beq_iff_eq, decide_eq_true_eq]
    at between few
  have retap : Retap .repeating ⟨0⟩ (.modTap (.single .leftControl) (.ofCode .a)) (.ofCode .a) (.ofWord 40)
      firstUp sinceFirstUp secondDown :=
    ⟨⟨.ofWord 20, by cbv, by decide⟩, fun n member => (between n member).1, rfl, by cbv, rfl⟩
  obtain ⟨repeats, stays⟩ := repeats_tap_iff .repeating Call.tappedTwice rfl course retap
  have silent := fun n member => (between n member).2
  have down := (stays silent).2.2 _ stillDown [] rfl fun x member => by
    rw [List.mem_singleton.1 member]
    exact ⟨rfl, rfl⟩
  exact ⟨by decide, repeats.2 silent, down.2 few⟩

set_option maxRecDepth 10000 in
/-- The release of the other key takes the place of the tap that was remembered: the first key waits, although
it goes down within the tapping term of its own tap and no key has gone down since. -/
theorem other_tap_forgets :
    Call.Regular Call.tappedAcross ∧ (∀ call ∈ Call.tappedAcross, call ≠ .cancel) ∧
    Profile.repeating.settings.tappingForceHold = false ∧
    (start.course .repeating Call.tappedAcross =
      (start.course .repeating Call.tappedAcross).take 16 ++ acrossUp :: sinceAcrossUp ++ acrossDown ::
        (start.course .repeating Call.tappedAcross).drop 21) ∧
    Retap .repeating ⟨0⟩ (.modTap (.single .leftControl) (.ofCode .a)) (.ofCode .a) (.ofWord 40) acrossUp
      sinceAcrossUp acrossDown ∧
    (acrossDown.next .repeating).isPending = true ∧
    (acrossDown.next .repeating).holdings.register.registered = [] := by
  have quiet : sinceAcrossUp.all (!·.intrudes .repeating) = true := by cbv
  simp only [List.all_eq_true, Bool.not_eq_true'] at quiet
  have retap : Retap .repeating ⟨0⟩ (.modTap (.single .leftControl) (.ofCode .a)) (.ofCode .a) (.ofWord 40)
      acrossUp sinceAcrossUp acrossDown :=
    ⟨⟨.ofWord 20, by cbv, by decide⟩, quiet, rfl, by cbv, rfl⟩
  exact ⟨by decide, by decide, rfl, by cbv, retap, by cbv, by cbv⟩

end Engine

end KeyEngine
