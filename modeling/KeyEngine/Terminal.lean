import KeyEngine.HostEvent
import KeyEngine.Millis

/-!
# What the host is told, as lines on a terminal

Each event is a line with its time, an arrow or sign, what it is about, and a tag. Lines about
modifiers stand further to the right. The arrow and the tag have colours; how a text is shown in one is
up to the terminal.
-/

namespace KeyEngine

/-- Something that the host is told, with its time. -/
structure TimedEvent where
  /-- The time. -/
  time : Millis
  /-- What the host is told. -/
  event : HostEvent
deriving DecidableEq

/-- The colours of a terminal. -/
inductive Terminal.Color where
  | red | green | yellow | magenta | cyan
deriving DecidableEq

/-- How events are shown. -/
structure Terminal where
  /-- The names of the layers, base layer first. -/
  layerNames : List String
  /-- Shows a text in a colour, bold or not. -/
  paint : Terminal.Color → (bold : Bool) → (text : String) → String

namespace Terminal

/-- A layer by its number, and its name if it has one. -/
def layerText (t : Terminal) (id : LayerId) : String :=
  match t.layerNames[id.toNat]? with
  | some name => toString id.toNat ++ " (" ++ name ++ ")"
  | none => toString id.toNat

/-- The time at the end of a column of seven characters. -/
def timeColumn (time : Millis) : String :=
  String.ofList (List.replicate (7 - time.text.length) ' ') ++ time.text

/-- A line from its parts. -/
def compose (t : Terminal) (time : Millis) (arrow : String) (color : Color) (indented : Bool)
    (text tag : String) : String :=
  timeColumn time ++ " " ++ (if indented then "    " else "") ++ "[" ++ t.paint color true arrow ++
    "] " ++ text ++ " [" ++ t.paint .magenta false tag ++ "]"

/-- The line of an event. -/
def line (t : Terminal) (timed : TimedEvent) : String :=
  let time := timed.time
  match timed.event with
  | .press code => t.compose time "↓" .green code.isModifier code.name "key"
  | .release code => t.compose time "↑" .red code.isModifier code.name "key"
  | .modifiers set => t.compose time "=" .cyan true set.text "mods"
  | .layerOn id => t.compose time "+" .yellow false (t.layerText id) "layer"
  | .layerOff id => t.compose time "-" .yellow false (t.layerText id) "layer"

end Terminal

end KeyEngine
