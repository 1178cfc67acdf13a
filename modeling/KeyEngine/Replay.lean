import KeyEngine.Script
import KeyEngine.Terminal

/-!
# Replaying a script

A script is replayed with its own times as the clock, up to the first command that ends the session.
What the host is told in the meantime is listed with the time of the line that caused it.
-/

namespace KeyEngine

namespace Replay

/-- Replays the lines of a script from a state, with the clock at a given moment. -/
def runFrom (p : Profile) (clock : Millis) (s : Engine) : List ScriptLine → Engine × List TimedEvent
  | [] => (s, [])
  | line :: rest =>
    if line.command.continues then
      let now := clock.advance line.time
      let next := s.drained.apply p now line.command
      let events := next.journal.stream.map (TimedEvent.mk now)
      let (final, later) := runFrom p now next rest
      (final, events ++ later)
    else (s, [])

/-- Replays a script from a state. -/
def run (p : Profile) (s : Engine) (script : List ScriptLine) : Engine × List TimedEvent :=
  runFrom p .zero s script

/-- The lines that a terminal shows for a script, from an engine at its start. -/
def lines (p : Profile) (terminal : Terminal) (script : List ScriptLine) : List String :=
  (run p .start script).2.map terminal.line

end Replay

end KeyEngine
