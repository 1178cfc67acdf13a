import KeyEngine.Session

/-!
# The command line

`keyengine CONFIG SCRIPT` replays a script and prints what the host is told. If there is no file at
`CONFIG`, the standard configuration is written there first.
-/

namespace KeyEngine.Main

/-- The text of a path in front of its last slash, if there is any. -/
def folderOf? (path : String) : Option String :=
  match Text.cut? (· == '/') path.toList.reverse with
  | some (_, front) => if front.isEmpty then none else some (String.ofList front.reverse)
  | none => none

/-- Whether an action works. -/
def works (action : IO Unit) : IO Bool := do
  try
    action
    return true
  catch _ => return false

/-- The file system of the machine. -/
def machine : FileSystem IO where
  isPresent path := do
    try
      discard (IO.FS.readFile path)
      return true
    catch
      | .noFileOrDirectory .. => return false
      | _ => return true
  read? path := do
    try return some (← IO.FS.readFile path)
    catch _ => return none
  makeFolders path :=
    match folderOf? path with
    | some folder => works (IO.FS.createDirAll folder)
    | none => return true
  write path text := works (IO.FS.writeFile path text)

end KeyEngine.Main

/-- Replays a script with a configuration. -/
def main (arguments : List String) : IO UInt32 := do
  let [configPath, scriptPath] := arguments
    | IO.eprintln "usage: keyengine CONFIG SCRIPT"
      return 2
  match ← (KeyEngine.Session.run KeyEngine.Main.machine configPath scriptPath false).run with
  | .ok lines =>
    lines.forM fun line => IO.println line
    return 0
  | .error error =>
    IO.eprintln ("error: " ++ error.message)
    return 1
