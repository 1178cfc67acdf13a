import KeyEngine.Millis

/-!
# Physical keys and their events

The scanner numbers the keys of the keyboard in the order in which the keymap lists them, and reports
when one goes down or up.
-/

namespace KeyEngine

/-- A position on the keyboard. -/
structure Key where
  /-- The number of the position. -/
  number : UInt16
deriving DecidableEq

/-- The letter `k` and the number. -/
def Key.text (key : Key) : String := "k" ++ toString key.number.toNat

/-- A key that went down or up. -/
structure KeyEvent where
  /-- Which key. -/
  key : Key
  /-- Whether it went down. -/
  pressed : Bool
  /-- When it did. -/
  time : Millis
deriving DecidableEq

end KeyEngine
