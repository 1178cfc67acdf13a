import KeyEngine.Config.File

/-!
# Folders as values

A folder is a tree of files and folders, and a path is followed from its root. Every name on the way
must lead to a folder; only the last one may be missing.
-/

namespace KeyEngine

/-- A file or folder. -/
inductive Folder where
  /-- A file. -/
  | file (text : String)
  /-- A folder. -/
  | folder (entries : List (String × Folder))

namespace Folder

/-- A folder with nothing in it. -/
def empty : Folder := folder []

/-- Whether it is a folder. -/
def isFolder : Folder → Bool
  | folder _ => true
  | file _ => false

/-- What some names lead to. -/
def find? (root : Folder) : List String → Option Folder
  | [] => some root
  | name :: rest =>
    match root with
    | folder entries => (entries.lookup name).bind (find? · rest)
    | file _ => none

/-- Puts something where names lead to; the folders on the way must be there. -/
def put (root item : Folder) : List String → Folder
  | [] => item
  | name :: rest =>
    match root with
    | folder entries =>
      let inner := ((entries.lookup name).getD empty).put item rest
      folder ((name, inner) :: entries.filter (·.1 != name))
    | file text => file text

/-- Names of files have at most 255 bytes and no zero character. -/
def isName (name : String) : Bool := name.utf8ByteSize ≤ 255 && !name.toList.contains (Char.ofNat 0)

/-- The place that a path leads to from a folder in the tree: names without any that lead back. -/
def resolve? (root : Folder) (here : List String) : List String → Option (List String)
  | [] => some here
  | name :: rest =>
    if !(root.find? here).any isFolder then none
    else if name == ".." then resolve? root here.dropLast rest
    else if isName name then resolve? root (here ++ [name]) rest
    else none

/-- What a path leads to. -/
def at? (root : Folder) (path : Path) : Option Folder :=
  ((root.resolve? [] path.names).bind root.find?).filter fun item => item.isFolder || !path.isFolder

/-- Makes the folders on the way from a folder in the tree, where they are missing. -/
def makeWay? (root : Folder) (here : List String) : List String → Option Folder
  | [] => some root
  | name :: rest =>
    if name == ".." then makeWay? root here.dropLast rest
    else if !isName name then none
    else
      let here := here ++ [name]
      match root.find? here with
      | some (folder _) => makeWay? root here rest
      | some (file _) => none
      | none => makeWay? (root.put empty here) here rest

/-- Writes a file. -/
def write? (root : Folder) (path : Path) (text : String) : Option Folder := do
  let place ← root.resolve? [] path.names
  if path.isFolder || (root.find? place).any isFolder then none
  if !(root.find? place.dropLast).any isFolder then none
  return root.put (file text) place

/-- Writes a file in folders that are made if they are missing. -/
def add? (root : Folder) (path text : String) : Option Folder := do
  let path := Path.ofString path
  let root ← root.makeWay? [] path.parent
  root.write? path text

/-- The text of a file. -/
def text? (root : Folder) (path : String) : Option String :=
  match root.at? (.ofString path) with
  | some (file text) => some text
  | _ => none

/-- Keeps what a change made, if it worked. -/
def attempt (change : Folder → Option Folder) : StateM Folder Bool := do
  match change (← get) with
  | some root =>
    set root
    return true
  | none => return false

/-- The file system of a folder. -/
def files : FileSystem (StateM Folder) where
  isPresent path := return ((← get).at? (.ofString path)).isSome
  read? path := return (← get).text? path
  makeFolders path := attempt (·.makeWay? [] (Path.ofString path).parent)
  write path text := attempt (·.write? (.ofString path) text)

end Folder

end KeyEngine
