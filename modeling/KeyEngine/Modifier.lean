import KeyEngine.Text

/-!
# Modifiers and sets of modifiers

A keyboard reports eight modifiers in one byte, left control in the lowest bit and right GUI in the
highest. A set is that byte. It is written as the names of its members joined by `|`, and read from any
list of accepted names separated by `|` or `+`. Sets are equal exactly when they have the same members.
-/

namespace KeyEngine

/-- The eight modifiers, in the order of their bits. -/
inductive Modifier where
  | leftControl | leftShift | leftAlt | leftGui
  | rightControl | rightShift | rightAlt | rightGui
deriving DecidableEq

namespace Modifier

/-- All modifiers in the order of their bits. -/
def all : List Modifier :=
  [leftControl, leftShift, leftAlt, leftGui, rightControl, rightShift, rightAlt, rightGui]

/-- The position of the modifier's bit. -/
def index : Modifier → Fin 8
  | leftControl => 0
  | leftShift => 1
  | leftAlt => 2
  | leftGui => 3
  | rightControl => 4
  | rightShift => 5
  | rightAlt => 6
  | rightGui => 7

/-- The accepted names; the first one is written. -/
def names : Modifier → List String
  | leftControl => ["LCTL", "LCTRL", "CTL", "CTRL", "C"]
  | leftShift => ["LSFT", "LSHIFT", "SFT", "SHIFT", "S"]
  | leftAlt => ["LALT", "LOPT", "ALT", "OPT", "A"]
  | leftGui => ["LGUI", "LCMD", "LWIN", "GUI", "CMD", "WIN", "G"]
  | rightControl => ["RCTL", "RCTRL"]
  | rightShift => ["RSFT", "RSHIFT"]
  | rightAlt => ["RALT", "ROPT", "ALGR"]
  | rightGui => ["RGUI", "RCMD", "RWIN"]

/-- The written name. -/
def name : Modifier → String
  | leftControl => "LCTL"
  | leftShift => "LSFT"
  | leftAlt => "LALT"
  | leftGui => "LGUI"
  | rightControl => "RCTL"
  | rightShift => "RSFT"
  | rightAlt => "RALT"
  | rightGui => "RGUI"

/-- The list of the modifiers misses none. -/
theorem mem_all (m : Modifier) : m ∈ all := by cases m <;> decide

/-- Different modifiers have different indices. -/
theorem index_injective {m n : Modifier} (h : m.index = n.index) : m = n := by
  cases m <;> cases n <;> first | rfl | exact absurd h (by decide)

/-- Every bit belongs to a modifier. -/
theorem exists_index (i : Fin 8) : ∃ m : Modifier, m.index = i := by
  revert i
  have h : ∀ i : Fin 8, ∃ m ∈ all, m.index = i := by decide
  exact fun i => (h i).imp fun _ hm => hm.2

/-- The written name is the first accepted one. -/
theorem names_head (m : Modifier) : m.names.head? = some m.name := by cases m <;> rfl

/-- The modifier that has a name, in any case of its letters. -/
def ofName? (text : List Char) : Option Modifier :=
  all.find? fun m => m.names.any fun n => Text.sameLetters n.toList text

end Modifier

/-- A set of modifiers as the byte that is reported to the host. -/
structure ModifierSet where
  /-- Bit `m.index` is set exactly when `m` is a member. -/
  bits : BitVec 8
deriving DecidableEq

namespace ModifierSet

/-- Whether `m` is a member. -/
def contains (s : ModifierSet) (m : Modifier) : Bool := s.bits.getLsbD m.index

/-- The set without members. -/
def empty : ModifierSet := ⟨0⟩

instance : EmptyCollection ModifierSet := ⟨empty⟩
instance : Inhabited ModifierSet := ⟨∅⟩
instance : Union ModifierSet := ⟨fun s t => ⟨s.bits ||| t.bits⟩⟩
instance : Inter ModifierSet := ⟨fun s t => ⟨s.bits &&& t.bits⟩⟩
instance : SDiff ModifierSet := ⟨fun s t => ⟨s.bits &&& ~~~t.bits⟩⟩
instance : Membership Modifier ModifierSet := ⟨fun s m => s.contains m = true⟩
instance : LT ModifierSet := ⟨fun s t => s.bits < t.bits⟩

instance (m : Modifier) (s : ModifierSet) : Decidable (m ∈ s) :=
  inferInstanceAs (Decidable (s.contains m = true))

instance (s t : ModifierSet) : Decidable (s < t) := inferInstanceAs (Decidable (s.bits < t.bits))

/-- Every modifier that is not a member. -/
def complement (s : ModifierSet) : ModifierSet := ⟨~~~s.bits⟩

/-- The set with one member. -/
def single (m : Modifier) : ModifierSet := ⟨BitVec.twoPow 8 m.index⟩

/-- Both shift modifiers. -/
def shift : ModifierSet := single .leftShift ∪ single .rightShift

/-- Whether there is no member. -/
def isEmpty (s : ModifierSet) : Bool := s.bits == 0

/-- The members in the order of their bits. -/
def toList (s : ModifierSet) : List Modifier := Modifier.all.filter s.contains

/-- Membership in a set of modifiers is decided by its bit. -/
theorem mem_iff {m : Modifier} {s : ModifierSet} : m ∈ s ↔ s.contains m = true := Iff.rfl

/-- The empty set contains no modifier. -/
@[simp] theorem contains_empty (m : Modifier) : (∅ : ModifierSet).contains m = false := by
  cases m <;> rfl

/-- A union contains what either side contains. -/
@[simp] theorem contains_union (s t : ModifierSet) (m : Modifier) :
    (s ∪ t).contains m = (s.contains m || t.contains m) :=
  BitVec.getLsbD_or

/-- An intersection contains what both sides contain. -/
@[simp] theorem contains_inter (s t : ModifierSet) (m : Modifier) :
    (s ∩ t).contains m = (s.contains m && t.contains m) :=
  BitVec.getLsbD_and

/-- A difference contains what the left side has and the right side has not. -/
@[simp] theorem contains_sdiff (s t : ModifierSet) (m : Modifier) :
    (s \ t).contains m = (s.contains m && !t.contains m) := by
  have hm := m.index.isLt
  change (s.bits &&& ~~~t.bits).getLsbD m.index = _
  rw [BitVec.getLsbD_and, BitVec.getLsbD_not]
  simp [contains, hm]

/-- A set of one modifier contains that one and no other. -/
@[simp] theorem contains_single (m n : Modifier) : (single m).contains n = decide (m = n) := by
  cases m <;> cases n <;> rfl

/-- Sets with the same members are equal. -/
theorem ext_contains {s t : ModifierSet} (h : ∀ m, s.contains m = t.contains m) : s = t := by
  obtain ⟨a⟩ := s
  obtain ⟨b⟩ := t
  congr 1
  apply BitVec.eq_of_getLsbD_eq
  intro i hi
  obtain ⟨m, hm⟩ := Modifier.exists_index ⟨i, hi⟩
  have := h m
  simpa [contains, hm] using this

/-- Only the empty set counts as empty. -/
theorem isEmpty_iff {s : ModifierSet} : s.isEmpty = true ↔ s = ∅ := by
  obtain ⟨a⟩ := s
  change (a == 0) = true ↔ ModifierSet.mk a = ModifierSet.mk 0
  simp

/-- Listing a set keeps its members and adds none. -/
theorem mem_toList {m : Modifier} {s : ModifierSet} : m ∈ s.toList ↔ m ∈ s := by
  simp [toList, Modifier.mem_all, mem_iff]

/-- `NONE` for the empty set, else the names of the members joined by `|`. -/
def chars (s : ModifierSet) : List Char :=
  if s.isEmpty then "NONE".toList else Text.join ['|'] (s.toList.map (·.name.toList))

/-- The written form as a string. -/
def text (s : ModifierSet) : String := String.ofList s.chars

end ModifierSet

/-- A modifier list with a name that no modifier has. -/
structure UnknownModifier where
  /-- The first such name, without the blanks around it. -/
  name : String
deriving DecidableEq

/-- The wording of the error. -/
def UnknownModifier.message (e : UnknownModifier) : String := "unknown modifier: " ++ e.name

namespace ModifierSet

/-- The set of the named modifiers. -/
def ofNames : List (List Char) → Except UnknownModifier ModifierSet
  | [] => .ok ∅
  | piece :: rest =>
    match Modifier.ofName? (Text.trim piece) with
    | none => .error ⟨String.ofList (Text.trim piece)⟩
    | some m => (ofNames rest).map (single m ∪ ·)

/-- Reads a list of names separated by `|` or `+`. A blank text and the word `NONE` are the empty
set. -/
def ofChars (cs : List Char) : Except UnknownModifier ModifierSet :=
  let list := Text.trim cs
  if list.isEmpty || Text.sameLetters list "NONE".toList then .ok ∅
  else ofNames (Text.splitAll (fun c => c == '|' || c == '+') list)

/-- Reads a list of names from a string. -/
def ofString (s : String) : Except UnknownModifier ModifierSet := ofChars s.toList

end ModifierSet

end KeyEngine
