import KeyEngine.Config.Format

/-!
# Files of configurations

Loading, saving, and opening a configuration: opening saves the standard configuration where there is no
file. The file system is a parameter, so that the same rules hold for the folders of a machine and for
folders that are only a value.
-/

namespace KeyEngine

/-- What can be done with files, given by their paths. -/
structure FileSystem (m : Type → Type) where
  /-- Whether a path leads to something. -/
  isPresent : String → m Bool
  /-- The text of a file, if it can be read. -/
  read? : String → m (Option String)
  /-- Makes the folders that a file is to be in; whether they are there then. -/
  makeFolders : String → m Bool
  /-- Writes a file; whether that worked. -/
  write : String → String → m Bool

/-- Why a file gives no configuration. -/
inductive FileError where
  /-- The extension belongs to no format. -/
  | unknownExtension (ending : String)
  /-- The file cannot be read or written. -/
  | inaccessible
  /-- The file does not hold a configuration in its format. -/
  | malformed (format : Format)
deriving DecidableEq

/-- The wording of the error. -/
def FileError.message : FileError → String
  | unknownExtension ending =>
    "unknown config extension '" ++ ending ++ "', expected .yml, .yaml or .toml"
  | inaccessible => "the file cannot be read or written"
  | malformed .yaml => "invalid YAML config"
  | malformed .toml => "invalid TOML config"

/-- The format of a path. -/
def Format.ofFile (path : String) : Except FileError Format :=
  (Format.ofPath (.ofString path)).mapError .unknownExtension

namespace Config

variable {m : Type → Type} [Monad m] (files : FileSystem m)

/-- Reads the configuration of a file. -/
def load (path : String) : ExceptT FileError m Config := do
  let format ← Format.ofFile path
  match ← files.read? path with
  | none => throw .inaccessible
  | some text =>
    match ofString? format text with
    | none => throw (.malformed format)
    | some config => return config

/-- Writes a configuration to a file, in folders that are made if they are missing. -/
def save (config : Config) (path : String) : ExceptT FileError m Unit := do
  let format ← Format.ofFile path
  if !(← files.makeFolders path) then throw .inaccessible
  if !(← files.write path (config.toText format)) then throw .inaccessible

/-- Reads the configuration of a file; if there is none, writes the standard one. -/
def openFile (path : String) : ExceptT FileError m Config := do
  if ← files.isPresent path then load files path
  else
    save files standard path
    return standard

end Config

end KeyEngine
