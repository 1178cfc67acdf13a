import KeyEngine.Config.File
import KeyEngine.Replay

/-!
# Sessions

A session opens a configuration, builds the engine, and replays a script from a file. The first step
that fails ends it. Colours, where they are wanted, are the escape sequences of a terminal.
-/

namespace KeyEngine

/-- Why a session ends early. -/
inductive SessionError where
  /-- The configuration cannot be opened. -/
  | file (error : FileError)
  /-- The configuration makes no engine. -/
  | config (error : ConfigError)
  /-- The file of the script cannot be read. -/
  | scriptFile
  /-- The file of the script holds no script. -/
  | script (error : ScriptError)
deriving DecidableEq

/-- The wording of the error. -/
def SessionError.message : SessionError → String
  | file error => error.message
  | config error => error.message
  | scriptFile => "the script cannot be read"
  | script error => error.message

/-- The number of a colour in an escape sequence. -/
def Terminal.Color.code : Terminal.Color → String
  | red => "31"
  | green => "32"
  | yellow => "33"
  | magenta => "35"
  | cyan => "36"

/-- A text in a colour, bold or not, between escape sequences. -/
def Terminal.escape (color : Color) (bold : Bool) (text : String) : String :=
  "\x1b[" ++ (if bold then "1;" else "") ++ color.code ++ "m" ++ text ++ "\x1b[0m"

/-- The terminal for a keymap, with or without colours. -/
def Replay.terminal (map : Keymap) (colored : Bool) : Terminal where
  layerNames := map.layers.map (·.name)
  paint color bold text := if colored then Terminal.escape color bold text else text

namespace Session

variable {m : Type → Type} [Monad m]

/-- The lines that a session shows for the configuration and the script at some paths. -/
def run (files : FileSystem m) (configPath scriptPath : String) (colored : Bool) :
    ExceptT SessionError m (List String) := do
  let config ← (Config.openFile files configPath).adapt SessionError.file
  let profile ← config.profile.mapError SessionError.config
  match ← files.read? scriptPath with
  | none => throw .scriptFile
  | some text =>
    let script ← (Script.ofString text).mapError SessionError.script
    return Replay.lines profile (Replay.terminal profile.keymap colored) script

end Session

end KeyEngine
