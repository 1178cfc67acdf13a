import KeyEngine.Modifier

/-!
# Key codes

A key code is a usage of the keyboard page of the USB HID tables. Each code has one or more names in
capital letters; the first is written. Reading ignores case, blanks around the name and one `KC_` in
front of it. The eight modifier keys have the usages from 0xE0 in the order of the modifier bits.
-/

namespace KeyEngine

/-- The supported codes, in the order of their usages. -/
inductive KeyCode where
  | a | b | c | d | e | f | g | h | i | j | k | l | m | n | o | p | q | r | s | t | u | v | w | x
  | y | z | digit1 | digit2 | digit3 | digit4 | digit5 | digit6 | digit7 | digit8 | digit9
  | digit0 | enter | escape | backspace | tab | space | minus | equal | leftBracket
  | rightBracket | backslash | nonUsHash | semicolon | quote | grave | comma | dot | slash
  | capsLock | f1 | f2 | f3 | f4 | f5 | f6 | f7 | f8 | f9 | f10 | f11 | f12 | printScreen
  | scrollLock | pause | insert | home | pageUp | delete | endKey | pageDown | rightArrow
  | leftArrow | downArrow | upArrow | numLock | keypadSlash | keypadAsterisk | keypadMinus
  | keypadPlus | keypadEnter | keypad1 | keypad2 | keypad3 | keypad4 | keypad5 | keypad6
  | keypad7 | keypad8 | keypad9 | keypad0 | keypadDot | nonUsBackslash | application | mute
  | volumeUp | volumeDown | leftControl | leftShift | leftAlt | leftGui | rightControl
  | rightShift | rightAlt | rightGui
deriving DecidableEq

namespace KeyCode

/-- All codes in the order of their usages. -/
def all : List KeyCode :=
  [a, b, c, d, e, f, g, h, i, j, k, l, m, n, o, p, q, r, s, t, u, v, w, x, y, z, digit1, digit2,
   digit3, digit4, digit5, digit6, digit7, digit8, digit9, digit0, enter, escape, backspace, tab,
   space, minus, equal, leftBracket, rightBracket, backslash, nonUsHash, semicolon, quote, grave,
   comma, dot, slash, capsLock, f1, f2, f3, f4, f5, f6, f7, f8, f9, f10, f11, f12, printScreen,
   scrollLock, pause, insert, home, pageUp, delete, endKey, pageDown, rightArrow, leftArrow,
   downArrow, upArrow, numLock, keypadSlash, keypadAsterisk, keypadMinus, keypadPlus,
   keypadEnter, keypad1, keypad2, keypad3, keypad4, keypad5, keypad6, keypad7, keypad8, keypad9,
   keypad0, keypadDot, nonUsBackslash, application, mute, volumeUp, volumeDown, leftControl,
   leftShift, leftAlt, leftGui, rightControl, rightShift, rightAlt, rightGui]

/-- The number of the code on the keyboard page. -/
def usage : KeyCode → UInt8
  | a => 0x04
  | b => 0x05
  | c => 0x06
  | d => 0x07
  | e => 0x08
  | f => 0x09
  | g => 0x0A
  | h => 0x0B
  | i => 0x0C
  | j => 0x0D
  | k => 0x0E
  | l => 0x0F
  | m => 0x10
  | n => 0x11
  | o => 0x12
  | p => 0x13
  | q => 0x14
  | r => 0x15
  | s => 0x16
  | t => 0x17
  | u => 0x18
  | v => 0x19
  | w => 0x1A
  | x => 0x1B
  | y => 0x1C
  | z => 0x1D
  | digit1 => 0x1E
  | digit2 => 0x1F
  | digit3 => 0x20
  | digit4 => 0x21
  | digit5 => 0x22
  | digit6 => 0x23
  | digit7 => 0x24
  | digit8 => 0x25
  | digit9 => 0x26
  | digit0 => 0x27
  | enter => 0x28
  | escape => 0x29
  | backspace => 0x2A
  | tab => 0x2B
  | space => 0x2C
  | minus => 0x2D
  | equal => 0x2E
  | leftBracket => 0x2F
  | rightBracket => 0x30
  | backslash => 0x31
  | nonUsHash => 0x32
  | semicolon => 0x33
  | quote => 0x34
  | grave => 0x35
  | comma => 0x36
  | dot => 0x37
  | slash => 0x38
  | capsLock => 0x39
  | f1 => 0x3A
  | f2 => 0x3B
  | f3 => 0x3C
  | f4 => 0x3D
  | f5 => 0x3E
  | f6 => 0x3F
  | f7 => 0x40
  | f8 => 0x41
  | f9 => 0x42
  | f10 => 0x43
  | f11 => 0x44
  | f12 => 0x45
  | printScreen => 0x46
  | scrollLock => 0x47
  | pause => 0x48
  | insert => 0x49
  | home => 0x4A
  | pageUp => 0x4B
  | delete => 0x4C
  | endKey => 0x4D
  | pageDown => 0x4E
  | rightArrow => 0x4F
  | leftArrow => 0x50
  | downArrow => 0x51
  | upArrow => 0x52
  | numLock => 0x53
  | keypadSlash => 0x54
  | keypadAsterisk => 0x55
  | keypadMinus => 0x56
  | keypadPlus => 0x57
  | keypadEnter => 0x58
  | keypad1 => 0x59
  | keypad2 => 0x5A
  | keypad3 => 0x5B
  | keypad4 => 0x5C
  | keypad5 => 0x5D
  | keypad6 => 0x5E
  | keypad7 => 0x5F
  | keypad8 => 0x60
  | keypad9 => 0x61
  | keypad0 => 0x62
  | keypadDot => 0x63
  | nonUsBackslash => 0x64
  | application => 0x65
  | mute => 0x7F
  | volumeUp => 0x80
  | volumeDown => 0x81
  | leftControl => 0xE0
  | leftShift => 0xE1
  | leftAlt => 0xE2
  | leftGui => 0xE3
  | rightControl => 0xE4
  | rightShift => 0xE5
  | rightAlt => 0xE6
  | rightGui => 0xE7

/-- The accepted names; the first one is written. -/
def names : KeyCode → List String
  | a => ["A"]
  | b => ["B"]
  | c => ["C"]
  | d => ["D"]
  | e => ["E"]
  | f => ["F"]
  | g => ["G"]
  | h => ["H"]
  | i => ["I"]
  | j => ["J"]
  | k => ["K"]
  | l => ["L"]
  | m => ["M"]
  | n => ["N"]
  | o => ["O"]
  | p => ["P"]
  | q => ["Q"]
  | r => ["R"]
  | s => ["S"]
  | t => ["T"]
  | u => ["U"]
  | v => ["V"]
  | w => ["W"]
  | x => ["X"]
  | y => ["Y"]
  | z => ["Z"]
  | digit1 => ["1", "N1"]
  | digit2 => ["2", "N2"]
  | digit3 => ["3", "N3"]
  | digit4 => ["4", "N4"]
  | digit5 => ["5", "N5"]
  | digit6 => ["6", "N6"]
  | digit7 => ["7", "N7"]
  | digit8 => ["8", "N8"]
  | digit9 => ["9", "N9"]
  | digit0 => ["0", "N0"]
  | enter => ["ENT", "ENTER"]
  | escape => ["ESC", "ESCAPE"]
  | backspace => ["BSPC", "BACKSPACE"]
  | tab => ["TAB"]
  | space => ["SPC", "SPACE"]
  | minus => ["MINS", "MINUS"]
  | equal => ["EQL", "EQUAL"]
  | leftBracket => ["LBRC", "LBRACKET"]
  | rightBracket => ["RBRC", "RBRACKET"]
  | backslash => ["BSLS", "BACKSLASH"]
  | nonUsHash => ["NUHS"]
  | semicolon => ["SCLN", "SEMICOLON"]
  | quote => ["QUOT", "QUOTE"]
  | grave => ["GRV", "GRAVE"]
  | comma => ["COMM", "COMMA"]
  | dot => ["DOT"]
  | slash => ["SLSH", "SLASH"]
  | capsLock => ["CAPS", "CAPSLOCK"]
  | f1 => ["F1"]
  | f2 => ["F2"]
  | f3 => ["F3"]
  | f4 => ["F4"]
  | f5 => ["F5"]
  | f6 => ["F6"]
  | f7 => ["F7"]
  | f8 => ["F8"]
  | f9 => ["F9"]
  | f10 => ["F10"]
  | f11 => ["F11"]
  | f12 => ["F12"]
  | printScreen => ["PSCR", "PRINTSCREEN"]
  | scrollLock => ["SCRL", "SCROLLLOCK"]
  | pause => ["PAUS", "PAUSE"]
  | insert => ["INS", "INSERT"]
  | home => ["HOME"]
  | pageUp => ["PGUP", "PAGEUP"]
  | delete => ["DEL", "DELETE"]
  | endKey => ["END"]
  | pageDown => ["PGDN", "PAGEDOWN"]
  | rightArrow => ["RGHT", "RIGHT"]
  | leftArrow => ["LEFT"]
  | downArrow => ["DOWN"]
  | upArrow => ["UP"]
  | numLock => ["NUM", "NUMLOCK"]
  | keypadSlash => ["PSLS", "KP_SLASH"]
  | keypadAsterisk => ["PAST", "KP_ASTERISK"]
  | keypadMinus => ["PMNS", "KP_MINUS"]
  | keypadPlus => ["PPLS", "KP_PLUS"]
  | keypadEnter => ["PENT", "KP_ENTER"]
  | keypad1 => ["P1", "KP_1"]
  | keypad2 => ["P2", "KP_2"]
  | keypad3 => ["P3", "KP_3"]
  | keypad4 => ["P4", "KP_4"]
  | keypad5 => ["P5", "KP_5"]
  | keypad6 => ["P6", "KP_6"]
  | keypad7 => ["P7", "KP_7"]
  | keypad8 => ["P8", "KP_8"]
  | keypad9 => ["P9", "KP_9"]
  | keypad0 => ["P0", "KP_0"]
  | keypadDot => ["PDOT", "KP_DOT"]
  | nonUsBackslash => ["NUBS"]
  | application => ["APP", "APPLICATION"]
  | mute => ["MUTE"]
  | volumeUp => ["VOLU", "VOLUP"]
  | volumeDown => ["VOLD", "VOLDOWN"]
  | leftControl => ["LCTL", "LCTRL"]
  | leftShift => ["LSFT", "LSHIFT"]
  | leftAlt => ["LALT", "LOPT"]
  | leftGui => ["LGUI", "LCMD", "LWIN"]
  | rightControl => ["RCTL", "RCTRL"]
  | rightShift => ["RSFT", "RSHIFT"]
  | rightAlt => ["RALT", "ROPT", "ALGR"]
  | rightGui => ["RGUI", "RCMD", "RWIN"]

/-- The written name. -/
def name (code : KeyCode) : String := code.names.headD ""

/-- The modifier that a modifier key stands for. -/
def modifier? : KeyCode → Option Modifier
  | leftControl => some .leftControl
  | leftShift => some .leftShift
  | leftAlt => some .leftAlt
  | leftGui => some .leftGui
  | rightControl => some .rightControl
  | rightShift => some .rightShift
  | rightAlt => some .rightAlt
  | rightGui => some .rightGui
  | _ => none

/-- Whether the code is a modifier key. -/
def isModifier (code : KeyCode) : Bool := code.modifier?.isSome

/-- The set with the modifier of a modifier key; empty for every other code. -/
def modifierBit (code : KeyCode) : ModifierSet := (code.modifier?.map .single).getD ∅

/-- Names of symbols that are a shifted key on a US layout, with the code of that key. -/
def shiftedSymbols : List (String × KeyCode) :=
  [("TILD", .grave),
   ("EXLM", .digit1),
   ("AT", .digit2),
   ("HASH", .digit3),
   ("DLR", .digit4),
   ("PERC", .digit5),
   ("CIRC", .digit6),
   ("AMPR", .digit7),
   ("ASTR", .digit8),
   ("LPRN", .digit9),
   ("RPRN", .digit0),
   ("UNDS", .minus),
   ("PLUS", .equal),
   ("LCBR", .leftBracket),
   ("RCBR", .rightBracket),
   ("PIPE", .backslash),
   ("COLN", .semicolon),
   ("DQUO", .quote),
   ("DQT", .quote),
   ("LT", .comma),
   ("GT", .dot),
   ("QUES", .slash)]

/-- Drops the blanks around a name and one `KC_` in front, in any case of its letters. -/
def bareName (cs : List Char) : List Char :=
  let name := Text.trim cs
  if Text.sameLetters (name.take 3) "KC_".toList then name.drop 3 else name

/-- The first code that has a name, in any case of its letters. -/
def ofName? (cs : List Char) : Option KeyCode :=
  let name := bareName cs
  all.find? fun code => code.names.any fun n => Text.sameLetters n.toList name

/-- The list of the codes misses none. -/
theorem mem_all (code : KeyCode) : code ∈ all := by cases code <;> decide

/-- The codes are listed in ascending order of their usages. -/
theorem usages_ascending : (all.map usage).Pairwise (· < ·) := by decide +kernel

/-- Codes with the same usage are equal. -/
theorem usage_injective {code other : KeyCode} (h : code.usage = other.usage) : code = other := by
  have apart := List.pairwise_iff_getElem.1 (List.pairwise_map.1 usages_ascending)
  obtain ⟨i, hi, rfl⟩ := List.getElem_of_mem (mem_all code)
  obtain ⟨j, hj, rfl⟩ := List.getElem_of_mem (mem_all other)
  rcases Nat.lt_trichotomy i j with hlt | rfl | hlt
  · exact absurd (apart i j hi hj hlt) (by simp [h])
  · rfl
  · exact absurd (apart j i hj hi hlt) (by simp [h])

/-- The modifier keys are the eight usages from 0xE0. -/
theorem isModifier_iff (code : KeyCode) :
    code.isModifier = true ↔ 0xE0 ≤ code.usage ∧ code.usage ≤ 0xE7 := by
  cases code <;> decide

/-- The usage of a modifier key is 0xE0 plus the position of its bit. -/
theorem usage_of_modifier? (code : KeyCode) (m : Modifier) (h : code.modifier? = some m) :
    code.usage.toNat = 0xE0 + m.index := by
  cases code <;> cases h <;> rfl

/-- A code stands for no modifier exactly when it is not a modifier key. -/
theorem modifierBit_eq_empty_iff (code : KeyCode) :
    code.modifierBit = ∅ ↔ code.isModifier = false := by
  cases code <;> decide

/-- A bare name is no longer than the name as written. -/
theorem bareName_length_le (cs : List Char) : (bareName cs).length ≤ cs.length := by
  have := Text.trim_length_le cs
  unfold bareName
  dsimp only
  split
  · simp only [List.length_drop]
    omega
  · exact this

end KeyCode

/-- Why a text is no key name or keystroke. -/
inductive KeyError where
  /-- Nothing but blanks. -/
  | empty
  /-- A name that no code has. -/
  | unknownKey (name : String)
  /-- The text in front of a parenthesis is no modifier list. -/
  | unknownModifier (list : String)
  /-- A parenthesis without its partner. -/
  | unbalanced (text : String)
deriving DecidableEq

/-- The wording of the error. -/
def KeyError.message : KeyError → String
  | empty => "empty key name"
  | unknownKey name => "unknown key name: '" ++ name ++ "'"
  | unknownModifier list => "unknown modifier: '" ++ list ++ "'"
  | unbalanced text => "unbalanced parentheses in '" ++ text ++ "'"

namespace KeyCode

/-- Reads the name of a code. -/
def ofChars (cs : List Char) : Except KeyError KeyCode :=
  let name := Text.trim cs
  if name.isEmpty then .error .empty
  else
    match ofName? cs with
    | some code => .ok code
    | none => .error (.unknownKey (String.ofList name))

/-- Reads the name of a code from a string. -/
def ofString (s : String) : Except KeyError KeyCode := ofChars s.toList

end KeyCode

end KeyEngine
