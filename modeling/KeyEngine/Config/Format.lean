import KeyEngine.Config.Record
import KeyEngine.Path
import KeyEngine.Toml.Reader
import KeyEngine.Toml.Writer
import KeyEngine.Yaml.Reader
import KeyEngine.Yaml.Writer

/-!
# Formats of configurations

A configuration is written in YAML or TOML, and the extension of a path says in which. In YAML a record
that is written as a list has no more items than fields; in TOML further items do not matter.
-/

namespace KeyEngine

/-- The formats of configurations. -/
inductive Format where
  | yaml | toml
deriving DecidableEq

namespace Format

/-- The format that an extension stands for, in either case. -/
def ofExtension? (ending : String) : Option Format :=
  if Text.sameLetters ending.toList "yml".toList || Text.sameLetters ending.toList "yaml".toList then
    some yaml
  else if Text.sameLetters ending.toList "toml".toList then some toml
  else none

/-- The format of a path; without an extension it is YAML. An unknown extension is returned. -/
def ofPath (path : Path) : Except String Format :=
  match path.extension? with
  | none => .ok yaml
  | some ending =>
    match ofExtension? ending with
    | some format => .ok format
    | none => .error ending

/-- Reads a document. -/
def read? : Format → List Char → Option Document
  | yaml => Yaml.read?
  | toml => Toml.read?

/-- Writes a document. -/
def write : Format → Document → List Char
  | yaml => Yaml.write
  | toml => Toml.write

/-- What is allowed in records. -/
def dialect : Format → Document.Dialect
  | yaml => ⟨false⟩
  | toml => ⟨true⟩

end Format

namespace Config

/-- Reads a configuration. -/
def ofString? (format : Format) (text : String) : Option Config :=
  (format.read? text.toList).bind (ofDocument? format.dialect)

/-- Writes a configuration. -/
def toText (c : Config) (format : Format) : String := String.ofList (format.write c.document)

end Config

end KeyEngine
