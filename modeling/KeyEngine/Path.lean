import KeyEngine.Text

/-!
# Paths

A path lists names with slashes between them. Empty names and single dots do not count, except that a
path which ends in one can only lead to a folder; two dots lead back out of a folder.
-/

namespace KeyEngine

/-- A path to a file or folder. -/
structure Path where
  /-- The names on the way. -/
  names : List String
  /-- It can only lead to a folder. -/
  isFolder : Bool
deriving DecidableEq

namespace Path

/-- Whether a name between slashes does not count. -/
def isIdle (name : List Char) : Bool := name.isEmpty || name == ['.']

/-- Reads a path. -/
def ofString (text : String) : Path :=
  let pieces := Text.splitAll (· == '/') text.toList
  ⟨(pieces.filter (!isIdle ·)).map String.ofList, pieces.getLast?.all isIdle⟩

/-- What stands behind the last dot of a name, unless nothing stands in front of it. -/
def extensionOf? (name : String) : Option String :=
  match Text.cut? (· == '.') name.toList.reverse with
  | some (ending, front) => if front.isEmpty then none else some (String.ofList ending.reverse)
  | none => none

/-- The extension of the last name. -/
def extension? (path : Path) : Option String :=
  (path.names.getLast?.filter (· != "..")).bind extensionOf?

/-- The names of the folder that the last name is in. -/
def parent (path : Path) : List String := path.names.dropLast

end Path

end KeyEngine
