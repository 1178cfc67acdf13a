import Mathlib.Data.List.Induction
import KeyEngine.OneShot

/-!
# Counting taps

A one-shot that is tapped often enough stays on. Its machine counts the taps in a number that stops at 255,
is set back by everything that turns the machine off, and is carried through whatever happens between two
taps. `Chain` says what should be counted, from the history alone: a press that finds the machine idle starts
a chain, one that finds it latched goes on with the chain of the press counted before, or starts a new one if
it comes too late after the release that latched the machine. `toggled_iff_chain` says that the machine gets
this right for chains of every length, and that only the next press ends what they bring about.
-/

namespace KeyEngine

/-- Something that happens to a one-shot. -/
inductive Touch where
  /-- Its trigger goes down. -/
  | press (time : Millis)
  /-- Its trigger goes up. -/
  | release (time : Millis)
  /-- A key uses it. -/
  | consume
  /-- It is told the time. -/
  | tick (now : Millis)
deriving DecidableEq

/-- Whether the trigger goes down. -/
def Touch.isPress : Touch → Bool
  | press _ => true
  | _ => false

/-- The latest entry of a history that has a property, with the history before it. -/
inductive Latest {α : Type} (P : List α → α → Prop) : List α → List α → α → Prop where
  /-- The last entry has the property. -/
  | now {history : List α} {entry : α} (has : P history entry) :
      Latest P (history ++ [entry]) history entry
  /-- An earlier entry has it, and the last one has not. -/
  | before {history front : List α} {entry last : α} (latest : Latest P history front entry)
      (lacks : ¬P history last) : Latest P (history ++ [last]) front entry

namespace Latest

variable {α : Type} {P : List α → α → Prop} {history front : List α} {entry : α}

/-- There is one latest entry at most. -/
theorem unique {other : List α} {found : α} (latest : Latest P history front entry)
    (also : Latest P history other found) : front = other ∧ entry = found := by
  induction latest generalizing other found with
  | @now history entry has =>
    generalize same : history ++ [entry] = whole at also
    cases also with
    | now => exact ⟨(List.append_inj' same rfl).1, List.singleton_inj.1 (List.append_inj' same rfl).2⟩
    | before _ lacks =>
      obtain ⟨rfl, last⟩ := List.append_inj' same rfl
      exact absurd (List.singleton_inj.1 last ▸ has) lacks
  | @before history front entry last latest lacks ih =>
    generalize same : history ++ [last] = whole at also
    cases also with
    | now has =>
      obtain ⟨rfl, last⟩ := List.append_inj' same rfl
      exact absurd (List.singleton_inj.1 last ▸ has) lacks
    | before earlier =>
      obtain ⟨rfl, -⟩ := List.append_inj' same rfl
      exact ih earlier

end Latest

namespace OneShot

/-- What something that happens does to a machine. -/
def touch (settings : Settings) (m : OneShot) : Touch → OneShot × Option OneShotChange
  | .press time => m.press settings time
  | .release time => m.release settings time
  | .consume => m.consume
  | .tick now => m.tick settings now

/-- What a history makes of a new machine. -/
def after (settings : Settings) (history : List Touch) : OneShot :=
  history.foldl (fun m touch => (m.touch settings touch).1) .new

/-- Whether a machine waits for a key. -/
def IsLatched (m : OneShot) : Prop := ∃ deadline, m.phase = .latched deadline

instance (m : OneShot) : Decidable m.IsLatched :=
  match phase : m.phase with
  | .latched deadline => isTrue ⟨deadline, phase⟩
  | .idle | .queued _ | .heldActive | .toggled => isFalse (by simp [IsLatched, phase])

/-- Whether a press is counted: it finds the machine idle or latched. -/
def Counts (settings : Settings) (before : List Touch) (touch : Touch) : Prop :=
  touch.isPress = true ∧ ((after settings before).phase = .idle ∨ (after settings before).IsLatched)

instance (settings : Settings) (before : List Touch) (touch : Touch) :
    Decidable (Counts settings before touch) := inferInstanceAs (Decidable (_ ∧ _))

/-- Whether something that happens latches the machine. -/
def Latches (settings : Settings) (before : List Touch) (touch : Touch) : Prop :=
  ¬(after settings before).IsLatched ∧ (after settings (before ++ [touch])).IsLatched

instance (settings : Settings) (before : List Touch) (touch : Touch) :
    Decidable (Latches settings before touch) := inferInstanceAs (Decidable (_ ∧ _))

/-- How long the chain of taps is to which a press belongs that comes after a history and is counted. -/
inductive Chain (settings : Settings) : List Touch → Millis → Nat → Prop where
  /-- The machine is idle: a chain starts. -/
  | idle {before : List Touch} {time : Millis} (idle : (after settings before).phase = .idle) :
      Chain settings before time 1
  /-- The machine was latched a tapping term ago, or earlier: a new chain starts. -/
  | late {before front : List Touch} {time released : Millis} (latched : (after settings before).IsLatched)
      (latching : Latest (Latches settings) before front (.release released))
      (late : settings.tappingTerm ≤ time.since released) : Chain settings before time 1
  /-- The machine was latched within the tapping term: the chain of the press counted before goes on. -/
  | soon {before front earlier : List Touch} {time released start : Millis} {n : Nat}
      (latched : (after settings before).IsLatched)
      (latching : Latest (Latches settings) before front (.release released))
      (soon : time.since released < settings.tappingTerm)
      (previous : Latest (Counts settings) before earlier (.press start))
      (chain : Chain settings earlier start n) : Chain settings before time (n + 1)

variable {settings : Settings} {history : List Touch} {touch : Touch} {time : Millis}

/-- What happens last is done to the machine that the history before it made. -/
theorem after_concat (settings : Settings) (history : List Touch) (touch : Touch) :
    after settings (history ++ [touch]) = ((after settings history).touch settings touch).1 := by
  simp [after]

/-- A press belongs to one chain only. -/
theorem Chain.unique {n k : Nat} (chain : Chain settings history time n)
    (also : Chain settings history time k) : n = k := by
  induction chain generalizing k with
  | idle idle =>
    cases also with
    | idle => rfl
    | late => rfl
    | soon latched =>
      obtain ⟨deadline, latched⟩ := latched
      cases idle.symm.trans latched
  | late latched latching late =>
    cases also with
    | idle => rfl
    | late => rfl
    | soon _ other soon =>
      obtain ⟨-, same⟩ := latching.unique other
      cases same
      exact absurd late (Nat.not_le_of_lt soon)
  | soon latched latching soon previous _ ih =>
    cases also with
    | idle idle =>
      obtain ⟨deadline, latched⟩ := latched
      cases idle.symm.trans latched
    | late _ other late =>
      obtain ⟨-, same⟩ := latching.unique other
      cases same
      exact absurd late (Nat.not_le_of_lt soon)
    | soon _ _ _ before chain =>
      obtain ⟨rfl, same⟩ := previous.unique before
      cases same
      rw [ih chain]

/-- What can become of a machine that is on, or off, when something happens that is not counted. -/
inductive Turn (settings : Settings) (m : OneShot) : Touch → OneShot → Prop where
  /-- A release latches it. -/
  | latches {time : Millis} {since : Millis} {limit : Option Millis} (queued : m.phase = .queued since) :
      Turn settings m (.release time) { m with phase := .latched limit, lastRelease := some time }
  /-- It stays on, and whether it is latched or toggled stays as it was. -/
  | stays {touch : Touch} {next : OneShot} (on : m.phase ≠ .idle) (taps : next.taps = m.taps)
      (lastRelease : next.lastRelease = m.lastRelease)
      (toggled : m.phase = .toggled → next.phase = .toggled) (latched : next.IsLatched ↔ m.IsLatched) :
      Turn settings m touch next
  /-- It is off. -/
  | off {touch : Touch} {next : OneShot} (idle : next.phase = .idle) : Turn settings m touch next

/-- Whatever is not counted does one of these things. -/
theorem turn_spec (settings : Settings) (m : OneShot) {touch : Touch}
    (uncounted : touch.isPress = true → m.phase ≠ .idle ∧ ¬m.IsLatched) :
    Turn settings m touch (m.touch settings touch).1 := by
  obtain ⟨phase, taps, lastRelease⟩ := m
  have same (touch : Touch) (on : phase ≠ .idle) :
      Turn settings ⟨phase, taps, lastRelease⟩ touch ⟨phase, taps, lastRelease⟩ :=
    .stays on rfl rfl id Iff.rfl
  have held (touch : Touch) (since : Millis) :
      Turn settings ⟨.queued since, taps, lastRelease⟩ touch ⟨.heldActive, taps, lastRelease⟩ :=
    .stays OneShotPhase.noConfusion rfl rfl OneShotPhase.noConfusion (by simp [IsLatched])
  cases phase with
  | idle =>
    cases touch with
    | press time => exact absurd rfl (uncounted rfl).1
    | _ => exact .off rfl
  | queued since =>
    cases touch with
    | press time => exact same _ OneShotPhase.noConfusion
    | release time =>
      simp only [OneShot.touch, release]
      split
      · exact .latches rfl
      · exact .off rfl
    | consume => exact held _ since
    | tick now =>
      simp only [OneShot.touch, tick]
      split
      · exact held _ since
      · exact same _ OneShotPhase.noConfusion
  | heldActive =>
    cases touch with
    | release time => exact .off rfl
    | _ => exact same _ OneShotPhase.noConfusion
  | latched deadline =>
    cases touch with
    | press time => exact absurd ⟨deadline, rfl⟩ (uncounted rfl).2
    | release time => exact same _ OneShotPhase.noConfusion
    | consume => exact .off rfl
    | tick now =>
      cases deadline with
      | none => exact same _ OneShotPhase.noConfusion
      | some deadline =>
        simp only [OneShot.touch, tick]
        split
        · exact .off rfl
        · exact same _ OneShotPhase.noConfusion
  | toggled =>
    cases touch with
    | press time => exact .off rfl
    | _ => exact same _ OneShotPhase.noConfusion

/-- The counter of a machine follows the chain: as long as the machine is on for its taps, the counter tells
the length of the chain of the press counted last, up to the largest number that is counted, and a latched
machine remembers the release that latched it. -/
structure Keeps (settings : Settings) (history : List Touch) : Prop where
  /-- The counter tells the chain. -/
  counter : (after settings history).phase ≠ .idle → (after settings history).phase ≠ .toggled →
    ∃ earlier start n, Latest (Counts settings) history earlier (.press start) ∧
      Chain settings earlier start n ∧ (after settings history).taps = min maxTaps n
  /-- The release is remembered. -/
  latched : (after settings history).IsLatched →
    ∃ front released, Latest (Latches settings) history front (.release released) ∧
      (after settings history).lastRelease = some released

namespace Keeps

/-- A press that is counted leads where the length of its chain says. -/
theorem press (keeps : Keeps settings history) (time : Millis)
    (waits : (after settings history).phase = .idle ∨ (after settings history).IsLatched) :
    ∃ n, Chain settings history time n ∧
      ((after settings history).press settings time).1.taps = min maxTaps n ∧
      ((after settings history).press settings time).1.phase = phaseAfter settings time (min maxTaps n) := by
  rcases waits with idle | ⟨deadline, latched⟩
  · refine ⟨1, .idle idle, ?_⟩
    simp only [OneShot.press, idle]
    exact ⟨rfl, rfl⟩
  · have on : (after settings history).IsLatched := ⟨deadline, latched⟩
    obtain ⟨front, released, latching, remembered⟩ := keeps.latched on
    by_cases soon : time.since released < settings.tappingTerm
    · obtain ⟨earlier, start, n, previous, chain, taps⟩ :=
        keeps.counter (by simp [latched]) (by simp [latched])
      have counted : min maxTaps (min maxTaps n + 1) = min maxTaps (n + 1) := by omega
      refine ⟨n + 1, .soon on latching soon previous chain, ?_⟩
      simp [OneShot.press, latched, isQuick, remembered, soon, taps, counted]
    · refine ⟨1, .late on latching (Nat.le_of_not_lt soon), ?_⟩
      simp [OneShot.press, latched, isQuick, remembered, soon, maxTaps]

/-- Before anything happens the machine is idle. -/
theorem nil (settings : Settings) : Keeps settings [] where
  counter on _ := absurd rfl on
  latched := by
    rintro ⟨deadline, latched⟩
    cases latched

/-- A press that is counted. -/
theorem concat_press (keeps : Keeps settings history) (time : Millis)
    (waits : (after settings history).phase = .idle ∨ (after settings history).IsLatched) :
    Keeps settings (history ++ [.press time]) := by
  obtain ⟨n, chain, taps, phase⟩ := keeps.press time waits
  have next : after settings (history ++ [.press time]) = ((after settings history).press settings time).1 :=
    after_concat settings history _
  refine ⟨fun _ _ => ⟨history, time, n, .now ⟨rfl, waits⟩, chain, next ▸ taps⟩, ?_⟩
  rintro ⟨deadline, latched⟩
  rw [next, phase] at latched
  unfold phaseAfter at latched
  split at latched <;> cases latched

/-- Something that is not counted. -/
theorem concat_uncounted (keeps : Keeps settings history) (uncounted : ¬Counts settings history touch) :
    Keeps settings (history ++ [touch]) := by
  have turn : Turn settings (after settings history) touch ((after settings history).touch settings touch).1 :=
    turn_spec settings _ fun pressed => not_or.1 fun waits => uncounted ⟨pressed, waits⟩
  rw [← after_concat] at turn
  generalize result : after settings (history ++ [touch]) = next at turn
  -- The press that was counted last is still the last one.
  have counter (on : (after settings history).phase ≠ .idle) (goes : (after settings history).phase ≠ .toggled)
      (taps : next.taps = (after settings history).taps) :
      ∃ earlier start n, Latest (Counts settings) (history ++ [touch]) earlier (.press start) ∧
        Chain settings earlier start n ∧ (after settings (history ++ [touch])).taps = min maxTaps n := by
    obtain ⟨earlier, start, n, previous, chain, counted⟩ := keeps.counter on goes
    exact ⟨earlier, start, n, previous.before uncounted, chain, (result ▸ taps).trans counted⟩
  cases turn with
  | @latches time since limit queued =>
    have off : ¬(after settings history).IsLatched := by
      rintro ⟨deadline, latched⟩
      cases queued.symm.trans latched
    have latching : Latches settings history (.release time) := ⟨off, limit, by rw [result]⟩
    refine ⟨fun _ _ => counter ?_ ?_ rfl, fun _ => ⟨history, time, .now latching, by rw [result]⟩⟩
    · rw [queued]
      exact OneShotPhase.noConfusion
    · rw [queued]
      exact OneShotPhase.noConfusion
  | stays on taps lastRelease toggled latched =>
    rw [← result] at toggled latched lastRelease
    refine ⟨fun _ goes => counter on (fun was => goes (toggled was)) taps, fun still => ?_⟩
    obtain ⟨front, released, latching, remembered⟩ := keeps.latched (latched.1 still)
    have again : ¬Latches settings history touch := fun latches => latches.1 (latched.1 still)
    exact ⟨front, released, latching.before again, lastRelease.trans remembered⟩
  | off idle =>
    rw [← result] at idle
    refine ⟨fun on => absurd idle on, ?_⟩
    rintro ⟨deadline, latched⟩
    cases idle.symm.trans latched

end Keeps

/-- After every history the counter follows the chain. -/
theorem keeps (settings : Settings) (history : List Touch) : Keeps settings history := by
  induction history using List.reverseRecOn with
  | nil => exact .nil settings
  | append_singleton history touch ih =>
    by_cases counts : Counts settings history touch
    · obtain ⟨pressed, waits⟩ := counts
      cases touch with
      | press time => exact ih.concat_press time waits
      | _ => cases pressed
    · exact ih.concat_uncounted counts

/-- A number of taps that is counted up to the largest one toggles the machine on if it is large enough. -/
theorem phaseAfter_eq_toggled_iff (settings : Settings) (time : Millis) (n : Nat) :
    phaseAfter settings time (min maxTaps n) = .toggled ↔
      0 < settings.tapToggle.toNat ∧ settings.tapToggle.toNat ≤ n := by
  have small : settings.tapToggle.toNat ≤ maxTaps := Nat.le_of_lt_succ settings.tapToggle.toNat_lt
  unfold phaseAfter
  split
  · rename_i enough
    exact iff_of_true rfl ⟨enough.1, Nat.le_trans enough.2 (Nat.min_le_right _ _)⟩
  · rename_i few
    exact iff_of_false OneShotPhase.noConfusion fun enough => few ⟨enough.1, Nat.le_min.2 ⟨small, enough.2⟩⟩

/-- Taps are counted exactly. After everything that can happen to a new machine, a press that finds it idle or
latched belongs to one chain, of one length, and toggles the machine on exactly if tapping is set up to do so
and the chain is long enough. Only the next press ends that, and takes back what the one-shot turned on. -/
theorem toggled_iff_chain (settings : Settings) (history : List Touch) :
    let m := after settings history
    (∀ time, m.phase = .idle ∨ m.IsLatched →
      ∃ n, (∀ k, Chain settings history time k ↔ k = n) ∧
        ((m.press settings time).1.phase = .toggled ↔
          0 < settings.tapToggle.toNat ∧ settings.tapToggle.toNat ≤ n)) ∧
    (m.phase = .toggled →
      (∀ touch : Touch, touch.isPress = false → m.touch settings touch = (m, none)) ∧
      ∀ time, (m.press settings time).1.phase = .idle ∧ (m.press settings time).2 = some .revoke) := by
  intro m
  refine ⟨fun time waits => ?_, fun toggled => ⟨fun touch other => ?_, fun time => ?_⟩⟩
  · obtain ⟨n, chain, -, phase⟩ := (keeps settings history).press time waits
    refine ⟨n, fun k => ⟨fun also => also.unique chain, fun same => same ▸ chain⟩, ?_⟩
    rw [phase, phaseAfter_eq_toggled_iff]
  · cases touch with
    | press time => cases other
    | _ => simp [OneShot.touch, release, OneShot.consume, OneShot.tick, toggled]
  · simp [OneShot.press, toggled, reset]

/-- A quick tap. -/
def firstTap : List Touch := [.press (.ofWord 0), .release (.ofWord 30)]

/-- Another one. -/
def secondTap : List Touch := [.press (.ofWord 80), .release (.ofWord 110)]

/-- The third quick tap belongs to a chain of three, and toggles the one-shot on. -/
theorem toggled_iff_chain_three :
    (after .standard (firstTap ++ secondTap)).IsLatched ∧
    Chain .standard (firstTap ++ secondTap) (.ofWord 160) 3 ∧
    ((after .standard (firstTap ++ secondTap)).press .standard (.ofWord 160)).1.phase = .toggled := by
  have latched : (after .standard (firstTap ++ secondTap)).IsLatched := by decide
  have first : Latest (Latches .standard) ([firstTap[0]] ++ [firstTap[1]]) [firstTap[0]] firstTap[1] :=
    .now (by decide)
  have pressed : Latest (Counts .standard) ([] ++ [firstTap[0]] ++ [firstTap[1]]) [] firstTap[0] :=
    (Latest.now (by decide)).before (by decide)
  have chain : Chain .standard firstTap (.ofWord 80) 2 :=
    .soon (by decide) first (by decide) pressed (.idle rfl)
  have second : Latest (Latches .standard) (firstTap ++ [secondTap[0]] ++ [secondTap[1]])
      (firstTap ++ [secondTap[0]]) secondTap[1] := .now (by decide)
  have again : Latest (Counts .standard) (firstTap ++ [secondTap[0]] ++ [secondTap[1]]) firstTap
      secondTap[0] := (Latest.now (by decide)).before (by decide)
  have three : Chain .standard (firstTap ++ secondTap) (.ofWord 160) 3 :=
    .soon latched second (by decide) again chain
  obtain ⟨n, only, toggled⟩ :=
    (toggled_iff_chain .standard (firstTap ++ secondTap)).1 (.ofWord 160) (.inr latched)
  obtain rfl := (only 3).1 three
  exact ⟨latched, three, toggled.2 (by decide)⟩

end OneShot

end KeyEngine
