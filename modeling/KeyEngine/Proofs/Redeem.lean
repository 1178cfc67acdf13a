import KeyEngine.Proofs.Accounts
import KeyEngine.Proofs.Mirror
import KeyEngine.Proofs.Triggers

/-!
# Nothing stays stuck

Whatever a key that is down has done is taken back when it goes up. So it is enough to know that a release
is still to come for every key that is down, be it kept back behind the waiting key, in the agenda or in
calls that are yet to be made. `RedeemedBy` says so. It is kept by every task: a press that is acted on is
followed by its release, and a cancel that drops events leaves keys that have nothing to take back.
-/

namespace KeyEngine

namespace KeyEvent

/-- The edges of a key over events in a row are those of the first and then those of the others. -/
theorem edges_append (key : Key) (events more : List KeyEvent) :
    edges key (events ++ more) = edges key events ++ edges key more := List.filterMap_append

/-- An event of the key is its first edge. -/
theorem edges_cons_self {key : Key} {event : KeyEvent} (same : event.key = key)
    (rest : List KeyEvent) : edges key (event :: rest) = event.pressed :: edges key rest := by
  simp [edges, edge?, same]

/-- An event of another key is no edge. -/
theorem edges_cons_of_ne {key : Key} {event : KeyEvent} (other : event.key ≠ key)
    (rest : List KeyEvent) : edges key (event :: rest) = edges key rest := by
  simp [edges, edge?, other]

/-- Events of other keys have no edges of the key. -/
theorem edges_eq_nil {key : Key} {events : List KeyEvent} (others : ∀ event ∈ events, event.key ≠ key) :
    edges key events = [] := by
  rw [edges, List.filterMap_eq_nil_iff]
  intro event member
  simp [edge?, others event member]

end KeyEvent

open KeyEvent

namespace Engine

variable {p : Profile} {s : Engine} {coming : List KeyEvent}

/-- The events that are still to come take back what is on. -/
structure RedeemedBy (s : Engine) (coming : List KeyEvent) : Prop where
  /-- Every press to come is followed by a release of its key. -/
  paired : ∀ key, Edges.paired (edges key (s.kept ++ coming)) = true
  /-- The next event of a key that is down with something to take back is its release. -/
  live : ∀ key entry, s.active.find? key = some entry → entry.state ≠ .inert →
    (edges key (s.kept ++ coming)).head? = some false

namespace RedeemedBy

/-- The same events take back what no more keys have done. -/
theorem congr (redeemed : s.RedeemedBy coming) {next : Engine} {later : List KeyEvent}
    (same : next.kept ++ later = s.kept ++ coming)
    (down : ∀ key entry, next.active.find? key = some entry → entry.state ≠ .inert →
      ∃ before, s.active.find? key = some before ∧ before.state ≠ .inert) :
    next.RedeemedBy later where
  paired key := same ▸ redeemed.paired key
  live key entry found acts := by
    obtain ⟨before, found, acts⟩ := down key entry found acts
    exact same ▸ redeemed.live key before found acts

/-- What nothing has to be taken back of is redeemed by any events that are paired. -/
theorem of_inert {next : Engine} {later : List KeyEvent}
    (paired : ∀ key, Edges.paired (edges key (next.kept ++ later)) = true)
    (inert : ∀ key entry, next.active.find? key = some entry → entry.state = .inert) :
    next.RedeemedBy later :=
  ⟨paired, fun key entry found acts => absurd (inert key entry found) acts⟩

/-- Every key that is down is inert after a cancel. -/
theorem inert_makeInert {keys : ActiveKeys} {key : Key} {entry : ActiveKey}
    (found : keys.makeInert.find? key = some entry) : entry.state = .inert := by
  rw [ActiveKeys.find?_makeInert] at found
  obtain ⟨before, -, rfl⟩ := Option.map_eq_some_iff.1 found
  rfl

/-- A cancel drops what was kept back, and leaves nothing to take back. -/
theorem cancel (redeemed : s.RedeemedBy coming) : (s.cancel p).RedeemedBy coming := by
  refine of_inert (fun key => ?_) fun key entry found => inert_makeInert found
  have pairs := redeemed.paired key
  rw [edges_append] at pairs
  exact Edges.paired_of_append pairs

/-- What is on stays redeemed when the waiting key is settled and the events behind it come again. -/
theorem settled (redeemed : s.RedeemedBy coming) (consistent : s.Consistent) {head : PendingKey}
    (waiting : s.tapHold.head = some head) (decision : Decision) :
    (s.settled p decision head).RedeemedBy (head.buffer ++ coming) := by
  refine redeemed.congr ?_ fun key entry found acts => ?_
  · rw [kept_of_idle (by rw [tapHold_settled]; rfl), kept_of_waiting waiting]
    rfl
  · rw [active_settled, ActiveKeys.find?_setState] at found
    obtain ⟨before, down, rfl⟩ := Option.map_eq_some_iff.1 found
    refine ⟨before, down, ?_⟩
    by_cases same : key = head.key
    · rw [same, consistent.down head waiting] at down
      cases down
      exact KeyState.noConfusion
    · simpa only [if_neg same] using acts

/-- The waiting key does not go down once more before it went up. -/
theorem not_again {event : KeyEvent} (redeemed : s.RedeemedBy (event :: coming))
    (consistent : s.Consistent) {head : PendingKey} (waiting : s.tapHold.head = some head)
    (same : head.key = event.key) : event.pressed = false := by
  have next := redeemed.live head.key _ (consistent.down head waiting) KeyState.noConfusion
  rw [kept_of_waiting waiting, edges_append, edges_eq_nil (consistent.others head waiting),
    List.nil_append, edges_cons_self same.symm] at next
  exact Option.some.inj next

/-- A press that is ignored may be left out. -/
theorem ignored {event : KeyEvent} (redeemed : s.RedeemedBy (event :: coming))
    (pressed : event.pressed = true) (signal : Signal) :
    (s.announce signal).RedeemedBy coming := by
  constructor
  · intro key
    have pairs := redeemed.paired key
    rw [edges_append] at pairs
    show Edges.paired (edges key (s.kept ++ coming)) = true
    rw [edges_append]
    by_cases same : event.key = key
    · rw [edges_cons_self same, pressed] at pairs
      exact Edges.paired_leave_out pairs
    · rwa [edges_cons_of_ne same] at pairs
  · intro key entry found acts
    have next := redeemed.live key entry found acts
    rw [edges_append] at next
    show (edges key (s.kept ++ coming)).head? = some false
    rw [edges_append]
    by_cases same : event.key = key
    · rw [edges_cons_self same, pressed] at next
      cases before : edges key s.kept with
      | nil =>
        rw [before] at next
        cases next
      | cons first others =>
        rw [before] at next
        exact next
    · rwa [edges_cons_of_ne same] at next

/-- After the next event of a key, the events of other keys are to come as before. -/
theorem later {event : KeyEvent} (redeemed : s.RedeemedBy (event :: coming))
    (idle : s.tapHold.head = none) {next : Engine} (still : next.kept = [])
    (others : ∀ key ≠ event.key, next.active.find? key = s.active.find? key)
    (released : ∀ entry, next.active.find? event.key = some entry → entry.state ≠ .inert →
      (edges event.key coming).head? = some false) : next.RedeemedBy coming := by
  constructor
  · intro key
    have pairs := redeemed.paired key
    rw [kept_of_idle idle, List.nil_append] at pairs
    rw [still, List.nil_append]
    by_cases same : event.key = key
    · rw [edges_cons_self same] at pairs
      exact Edges.paired_of_cons pairs
    · rwa [edges_cons_of_ne same] at pairs
  · intro key entry found acts
    rw [still, List.nil_append]
    by_cases same : event.key = key
    · subst same
      exact released entry found acts
    · rw [others key (Ne.symm same)] at found
      have next := redeemed.live key entry found acts
      rwa [kept_of_idle idle, List.nil_append, edges_cons_of_ne same] at next

/-- A key that goes down keeps nothing back yet. -/
theorem kept_performed {event : KeyEvent} (idle : s.tapHold.head = none)
    (goes : s.resolve p event.key ≠ .cancel) : (s.performed p event).2.kept = [] := by
  have spec := perform_spec p event (s.resolve p event.key) (s.readied event)
  change Performed p event _ _ (s.performed p event) at spec
  generalize s.performed p event = result at spec ⊢
  cases spec with
  | @acted _ next _ _ tapHold _ =>
    refine kept_of_idle ?_
    rw [tapHold]
    exact idle
  | waits => rfl
  | cancelled cancels => exact absurd cancels goes

/-- What a press does is taken back by the release that follows it. -/
theorem press {event : KeyEvent} (redeemed : s.RedeemedBy (event :: coming))
    (acts : s.ActsOn p event) (pressed : event.pressed = true) :
    (s.press p event).RedeemedBy coming := by
  cases up : s.active.contains event.key with
  | true =>
    rw [press_of_down up]
    exact redeemed.ignored pressed _
  | false =>
    rw [press_of_up up]
    by_cases cancels : s.resolve p event.key = .cancel
    · simp only [performed, perform, cancels]
      refine of_inert (fun key => ?_) fun key entry found => ?_
      · have pairs := redeemed.paired key
        rw [List.append_cons, edges_append] at pairs
        exact Edges.paired_of_append pairs
      · dsimp only at found
        rw [ActiveKeys.find?_insert] at found
        split at found
        · rw [← Option.some.inj found]
        · exact inert_makeInert found
    · have idle := Consistent.idle_of_actsOn acts cancels
      have kept : (s.performed p event).2.active = s.active := active_perform p event cancels _
      refine redeemed.later idle (kept_performed idle cancels) (fun key other => ?_) fun entry _ _ => ?_
      · rw [ActiveKeys.find?_insert, if_neg other, kept]
      · have pairs := redeemed.paired event.key
        rw [kept_of_idle idle, List.nil_append, edges_cons_self rfl, pressed] at pairs
        exact Edges.head?_of_paired [] pairs

/-- A release takes back what its key did, and the rest stays redeemed. -/
theorem release {event : KeyEvent} (redeemed : s.RedeemedBy (event :: coming))
    (idle : s.tapHold.head = none) : (s.release p event).RedeemedBy coming := by
  cases found : s.active.find? event.key with
  | none =>
    rw [release_of_up found]
    refine redeemed.later idle (kept_of_idle idle) (fun _ _ => rfl) fun entry down _ => ?_
    have absent : s.active.find? event.key = some entry := down
    rw [found] at absent
    cases absent
  | some entry =>
    rw [release_of_down found]
    have still : (({ s with active := s.active.remove event.key }.undo p event entry).announce
        (.key event.key entry.action false)).tapHold.head = none :=
      (head_undo p event entry _).trans idle
    have left : (({ s with active := s.active.remove event.key }.undo p event entry).announce
        (.key event.key entry.action false)).active = s.active.remove event.key :=
      active_undo p event entry _
    refine redeemed.later idle (kept_of_idle still) (fun key other => ?_) fun entry down _ => ?_
    · rw [left, ActiveKeys.find?_remove, if_neg other]
    · rw [left, ActiveKeys.find?_remove_self] at down
      cases down

/-- What is on stays redeemed when the first event is acted on. -/
theorem dispatch {event : KeyEvent} (redeemed : s.RedeemedBy (event :: coming))
    (acts : s.ActsOn p event) : (s.dispatch p event).RedeemedBy coming := by
  have noted : (s.announce (.dispatched event)).RedeemedBy (event :: coming) :=
    redeemed.congr rfl fun key entry found acts => ⟨entry, found, acts⟩
  unfold Engine.dispatch
  dsimp only
  split
  · rename_i pressed
    exact noted.press acts pressed
  · rename_i released
    exact noted.release (Consistent.idle_of_released acts (Bool.eq_false_iff.2 released))

/-- Every task leaves enough releases to come. -/
theorem step {task : Task} {rest more : List Task} {next : Engine}
    (redeemed : s.RedeemedBy (Task.events (task :: rest) ++ coming)) (consistent : s.Consistent)
    (taken : Step p s task next more) : next.RedeemedBy (Task.events (more ++ rest) ++ coming) := by
  rw [Task.events_append, List.append_assoc]
  cases taken with
  | early => exact redeemed
  | due waiting =>
    rw [Task.events_append, Task.events_replay, Task.events_expire, Task.events_nil, List.append_nil]
    exact redeemed.settled consistent waiting .hold
  | act idle => exact redeemed.dispatch (actsOn_of_idle idle)
  | again waiting same pressed =>
    have released := redeemed.not_again consistent waiting same
    rw [pressed] at released
    cases released
  | lift waiting =>
    rw [Task.events_append, Task.events_replay, Task.events_feed, Task.events_nil, List.append_assoc]
    exact redeemed.settled consistent waiting .tap
  | abort waiting other pressed cancels =>
    exact redeemed.dispatch (actsOn_of_cancel waiting other pressed cancels)
  | @keep event head waiting =>
    refine redeemed.congr ?_ fun key entry found acts => ⟨entry, found, acts⟩
    rw [kept_of_waiting waiting]
    show (head.buffer ++ [event]) ++ _ = _
    rw [List.append_assoc]
    rfl
  | @interrupt event head waiting other =>
    have later : (s.keptBack head event).RedeemedBy (Task.events rest ++ coming) := by
      refine redeemed.congr ?_ fun key entry found acts => ⟨entry, found, acts⟩
      rw [kept_of_waiting waiting]
      show (head.buffer ++ [event]) ++ _ = _
      rw [List.append_assoc]
      rfl
    rw [Task.events_replay]
    exact later.settled (consistent.keptBack waiting other) (head_keptBack head event s) .hold

/-- What is on stays redeemed while an agenda is done. -/
theorem run (agenda : List Task) (redeemed : s.RedeemedBy (Task.events agenda ++ coming))
    (consistent : s.Consistent) : (s.run p agenda).RedeemedBy coming := by
  have both := run_invariant (p := p) (s := s)
    (fun s agenda => s.Consistent ∧ s.RedeemedBy (Task.events agenda ++ coming))
    (fun _ _ _ _ _ taken holds =>
      ⟨(consistent_lasting p).step taken holds.1, holds.2.step holds.1 taken⟩)
    ⟨consistent, redeemed⟩
  exact both.2

/-- What is on stays redeemed over a tick. -/
theorem tick (redeemed : s.RedeemedBy coming) (consistent : s.Consistent) (now : Millis) :
    (s.tick p now).RedeemedBy coming := by
  have done : (s.run p [.expire now]).RedeemedBy coming := run [.expire now] redeemed consistent
  exact done.congr rfl fun key entry found acts => ⟨entry, found, acts⟩

/-- Every call leaves enough releases to come with the calls after it. -/
theorem answer {call : Call} {rest : List Call} (redeemed : s.RedeemedBy (Call.events (call :: rest)))
    (consistent : s.Consistent) : (s.answer p call).RedeemedBy (Call.events rest) := by
  cases call with
  | event event =>
    exact run [.feed event] (redeemed.tick consistent event.time)
      ((consistent_lasting p).tick event.time consistent)
  | tick now => exact redeemed.tick consistent now
  | cancel => exact redeemed.cancel

/-- After all calls, no event need come any more to take back what is on. -/
theorem answers {calls : List Call} (redeemed : s.RedeemedBy (Call.events calls))
    (consistent : s.Consistent) : (calls.foldl (Engine.answer p) s).RedeemedBy [] := by
  induction calls generalizing s with
  | nil => exact redeemed
  | cons call rest ih =>
    exact ih (redeemed.answer consistent) ((consistent_lasting p).answer call consistent)

/-- With no events to come, nothing waits, and no key that is down has anything to take back. -/
theorem quiet (redeemed : s.RedeemedBy []) (consistent : s.Consistent) :
    s.tapHold.head = none ∧
      ∀ key entry, s.active.find? key = some entry → entry.state = .inert := by
  have idle : s.tapHold.head = none := by
    cases waiting : s.tapHold.head with
    | none => rfl
    | some head =>
      have next := redeemed.live head.key _ (consistent.down head waiting) KeyState.noConfusion
      rw [kept_of_waiting waiting, List.append_nil,
        edges_eq_nil (consistent.others head waiting)] at next
      cases next
  refine ⟨idle, fun key entry found => ?_⟩
  by_contra acts
  have next := redeemed.live key entry found acts
  rw [kept_of_idle idle] at next
  cases next

end RedeemedBy

/-- Nothing stays stuck. After every run of calls in which each key goes down and up in turns, and is up
in the end: no key waits; the host sees no code down; no layer is held; every one-shot is idle, latched or
toggled; and a modifier that is on belongs to a one-shot or to a layer that is on. -/
theorem nothing_stuck (p : Profile) (calls : List Call)
    (turns : ∀ key, Edges.Alternates (edges key (Call.events calls)) ∧
      Edges.endsOn (edges key (Call.events calls)) = false) :
    let s := after p calls
    s.isPending = false ∧ HostEvent.pressed s.journal.stream = [] ∧
    (∀ id, ⟨id, .held⟩ ∉ s.holdings.layers.entries) ∧
    (∀ m ∈ s.oneShots.modifiers.entries.map (·.2) ++ s.oneShots.layers.entries.map (·.2),
      m.phase = .idle ∨ (∃ deadline, m.phase = .latched deadline) ∨ m.phase = .toggled) ∧
    (∀ m ∈ s.modifiers, m ∈ s.holdings.modifiers.oneShot.present ∨
      ∃ id ∈ s.holdings.layers.activeIds, p.layerModifiers.holds id m = true) := by
  intro s
  have begins : start.RedeemedBy (Call.events calls) := by
    refine .of_inert (fun key => ?_) fun key entry found => by cases found
    exact Edges.paired_of_alternatesFrom (turns key).1 (turns key).2
  have consistent : s.Consistent := (consistent_lasting p).after consistent_start calls
  have redeemed : s.RedeemedBy [] := begins.answers consistent_start
  obtain ⟨idle, inert⟩ := redeemed.quiet consistent
  have accounted : s.Accounted False p :=
    ((accounted_lasting p).after ⟨consistent_start, .start False p⟩ calls).2
  have triggered : s.Triggered :=
    ((triggered_lasting p).after ⟨consistent_start, .start⟩ calls).2
  have meets := accounted.meets
  rw [ActiveKeys.demand_of_inert accounted.distinct inert] at meets
  have up : ∀ trigger, ¬s.oneShots.IsDown trigger := by
    intro trigger down
    obtain ⟨key, found⟩ := triggered trigger down
    cases inert key _ found
  have mirrored := (reported p calls).mirrored
  refine ⟨?_, ?_, fun id listed => ?_, fun m listed => ?_, fun m on => ?_⟩
  · show s.tapHold.head.isSome = false
    rw [idle]
    rfl
  · rw [List.eq_nil_iff_forall_not_mem]
    intro code down
    have pressed := (mirrored.codes code).1 down
    have free := (meets.codes code (mirrored.orderly.pressed_plain down)).1
    exact absurd (Nat.lt_of_lt_of_le pressed free) (Nat.lt_irrefl 0)
  · exact Nat.lt_irrefl 0 (meets.entered id listed)
  · refine OneShot.phase_of_up (Bool.eq_false_iff.2 fun down => ?_)
    rcases List.mem_append.1 listed with turned | switched
    · obtain ⟨⟨set, _⟩, member, rfl⟩ := List.mem_map.1 turned
      exact up (.oneShotModifier set) ⟨_, member, down⟩
    · obtain ⟨⟨id, _⟩, member, rfl⟩ := List.mem_map.1 switched
      exact up (.oneShotLayer id) ⟨_, member, down⟩
  · have attached : s.holdings.modifiers.attached.count m = 0 := Nat.le_zero.1 (meets.attached m).1
    have held := (meets.held m).1
    rw [ModifierSet.mem_iff, modifiers, Holdings.effective, ModifierState.contains_effective,
      attached] at on
    rw [ModifierSet.mem_iff, Tally.contains_present]
    by_cases waits : 0 < s.holdings.modifiers.oneShot.count m
    · exact .inl (decide_eq_true waits)
    · right
      have counted : 0 < s.holdings.modifiers.held.count m := by
        simp only [waits, decide_false, Bool.or_false, Nat.lt_irrefl] at on
        exact of_decide_eq_true (Bool.and_eq_true_iff.1 on).1
      have shared : 0 < p.layerModifiers.share s.holdings.layers.activeIds m := by
        have none : Demand.none.held m = 0 := rfl
        omega
      exact List.countP_pos_iff.1 shared

set_option maxRecDepth 10000 in
/-- Two keys that waited behind each other were held, and then all keys went up. -/
theorem nothing_stuck_nested :
    (∀ key, Edges.Alternates (edges key (Call.events Call.nestedUp)) ∧
      Edges.endsOn (edges key (Call.events Call.nestedUp)) = false) ∧
    (after .sample Call.nestedUp).journal.stream.length = 8 ∧
    HostEvent.pressed (after .sample Call.nestedUp).journal.stream = [] := by
  have turns : ∀ key,
      Edges.Alternates (edges key (Call.events Call.nestedUp)) ∧
      Edges.endsOn (edges key (Call.events Call.nestedUp)) = false := by
    have checked : ∀ key ∈ (Call.events Call.nestedUp).map (·.key),
        Edges.Alternates (edges key (Call.events Call.nestedUp)) ∧
        Edges.endsOn (edges key (Call.events Call.nestedUp)) = false := by
      decide
    intro key
    by_cases used : key ∈ (Call.events Call.nestedUp).map (·.key)
    · exact checked key used
    · rw [edges_eq_nil]
      · exact ⟨Edges.alternates_nil, Edges.endsOn_nil⟩
      · rintro event member rfl
        exact used (List.mem_map_of_mem member)
  refine ⟨turns, ?_, (nothing_stuck .sample _ turns).2.1⟩
  cbv

end Engine

end KeyEngine
