import Flowpress.Files.Path

/-!
# File trees

The files and directories of a machine, and the working directory from which
paths are followed unless they start at the root. There are no links, and nothing
is forbidden.

`Tree.resolve` follows a path to something that is there. `Tree.locate` follows
all but its last part, which is where something may be made or replaced.
-/

namespace Flowpress.Files

/-- Why files cannot be read or changed. -/
inductive FileError where
  | notFound
  | busy
  | exists
  | notDirectory
  | isDirectory
  /-- The content is no text. -/
  | notText
  /-- Any other reason, in words. -/
  | other (message : String)
deriving DecidableEq, Repr

/-- The error in words. -/
def FileError.message : FileError → String
  | .notFound => "No such file or directory (os error 2)"
  | .busy => "Device or resource busy (os error 16)"
  | .exists => "File exists (os error 17)"
  | .notDirectory => "Not a directory (os error 20)"
  | .isDirectory => "Is a directory (os error 21)"
  | .notText => "stream did not contain valid UTF-8"
  | .other message => message

/-- What a name in a directory stands for. -/
inductive Entry where
  | directory
  | file (content : ByteArray)

instance : DecidableEq Entry
  | .directory, .directory => isTrue rfl
  | .directory, .file _ => isFalse nofun
  | .file _, .directory => isFalse nofun
  | .file first, .file second =>
    match ByteArray.instDecidableEq first second with
    | isTrue same => isTrue (congrArg Entry.file same)
    | isFalse differ => isFalse fun same => differ (Entry.file.inj same)

/-- Names from the root downwards. -/
abbrev Place := List String

/-- Files and directories, and the working directory. -/
structure Tree where
  entries : List (Place × Entry)
  home : Place

namespace Tree

/-- What is at a place. The root is always there. -/
def entry? (tree : Tree) (place : Place) : Option Entry :=
  if place = [] then some .directory else tree.entries.lookup place

/-- Puts an entry at a place, replacing what was there. -/
def put (tree : Tree) (place : Place) (entry : Entry) : Tree :=
  { tree with entries := (place, entry) :: tree.entries.filter fun other => other.1 != place }

/-- Puts directories where none are, on the way to a place. -/
def putParents (tree : Tree) (place : Place) : Tree :=
  (List.range place.length).foldl (fun tree length =>
    let parent := place.take length
    if (tree.entry? parent).isSome then tree else tree.put parent .directory) tree

/-- An empty working directory. -/
def atHome (home : Place) : Tree := (Tree.putParents ⟨[], home⟩ home).put home .directory

/-- Follows steps from a place. -/
def follow (tree : Tree) (place : Place) : List String → Except FileError Place
  | [] => .ok place
  | step :: steps =>
    match tree.entry? place with
    | none => .error .notFound
    | some (.file _) => .error .notDirectory
    | some .directory =>
      if step = "." then follow tree place steps
      else if step = ".." then follow tree place.dropLast steps
      else
        let inner := place ++ [step]
        match tree.entry? inner with
        | none => .error .notFound
        | some _ => follow tree inner steps

/-- Where a path starts. -/
def origin (tree : Tree) (path : Path) : Place := if path.isAbsolute then [] else tree.home

/-- The place that a path leads to. The empty path leads nowhere. -/
def resolve (tree : Tree) (path : Path) : Except FileError Place :=
  if path.text = "" then .error .notFound else tree.follow (tree.origin path) path.steps

/-- Whether a path leads to something. -/
def isPresent (tree : Tree) (path : Path) : Bool := (tree.resolve path).toOption.isSome

/-- Whether a path leads to a directory. -/
def isDirectory (tree : Tree) (path : Path) : Bool :=
  match tree.resolve path with
  | .ok place => decide (tree.entry? place = some .directory)
  | .error _ => false

/-- The directory in front of the last part of a path, and that part. The root is in itself. -/
def locate (tree : Tree) (path : Path) : Except FileError (Place × String) :=
  if path.text = "" then .error .notFound
  else
    (tree.follow (tree.origin path) (path.parts.dropLast ++ ["."])).map fun directory =>
      (directory, path.parts.getLast?.getD ".")

/-- The text of a file. -/
def readText (tree : Tree) (path : Path) : Except FileError String := do
  let place ← tree.resolve path
  match tree.entry? place with
  | some (.file content) =>
    match String.fromUTF8? content with
    | some text => .ok text
    | none => .error .notText
  | some .directory => .error .isDirectory
  | none => .error .notFound

/-- Makes one directory in one that is there. -/
def makeDirectory (tree : Tree) (path : Path) : Except FileError Tree := do
  let (directory, last) ← tree.locate path
  if last = "." ∨ last = ".." then .error .exists
  let place := directory ++ [last]
  match tree.entry? place with
  | some _ => .error .exists
  | none => .ok (tree.put place .directory)

/-- Puts a text into a file, which need not be there yet. -/
def replaceFile (tree : Tree) (path : Path) (text : String) : Except FileError Tree := do
  let (directory, last) ← tree.locate path
  if last = "." ∨ last = ".." then .error .busy
  if path.endsWithSlash then .error .notDirectory
  let place := directory ++ [last]
  match tree.entry? place with
  | some .directory => .error .isDirectory
  | _ => .ok (tree.put place (.file text.toUTF8))

end Tree

end Flowpress.Files
