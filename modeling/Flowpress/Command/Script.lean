import Flowpress.Files.Tree

/-!
# Scripts

A script is a conversation with the surroundings, one request at a time: it
prints, asks for files and changes them, and goes on with the answers. What a
script does is a value, so it can be run on a `Files.Tree` here and on the files
of a machine elsewhere.
-/

namespace Flowpress.Command

open Files (FileError Path Tree)

/-- A conversation that ends with a result. -/
inductive Script (α : Type) where
  | done (result : α)
  | print (text : String) (next : Script α)
  | readText (path : Path) (next : Except FileError String → Script α)
  | isPresent (path : Path) (next : Bool → Script α)
  | isDirectory (path : Path) (next : Bool → Script α)
  | makeDirectory (path : Path) (next : Except FileError Unit → Script α)
  | replaceFile (path : Path) (text : String) (next : Except FileError Unit → Script α)

namespace Script

variable {α β : Type}

/-- Goes on with the result of a script. -/
def bind (script : Script α) (continuation : α → Script β) : Script β :=
  match script with
  | .done result => continuation result
  | .print text next => .print text (next.bind continuation)
  | .readText path next => .readText path fun answer => (next answer).bind continuation
  | .isPresent path next => .isPresent path fun answer => (next answer).bind continuation
  | .isDirectory path next => .isDirectory path fun answer => (next answer).bind continuation
  | .makeDirectory path next => .makeDirectory path fun answer => (next answer).bind continuation
  | .replaceFile path text next =>
    .replaceFile path text fun answer => (next answer).bind continuation

instance : Monad Script where
  pure := .done
  bind := bind

/-! ## Making directories -/

/-- Accepts an error in making a directory if the directory is there all the same. -/
def tolerate (path : Path) (error : FileError) : Script (Except FileError Unit) :=
  .isDirectory path fun isThere => .done (if isThere then .ok () else .error error)

/-- Makes a directory and, where they are missing, at most `bound` of those on the way to it. -/
def ensureDirectoryWithin : Nat → Path → Script (Except FileError Unit)
  | 0, _ => return .ok ()
  | bound + 1, path => do
    if path.text = "" then return .ok ()
    match ← Script.makeDirectory path .done, path.parent with
    | .ok (), _ => return .ok ()
    | .error .notFound, none => return .error .notFound
    | .error .notFound, some parent =>
      match ← ensureDirectoryWithin bound parent with
      | .error error => return .error error
      | .ok () =>
        match ← Script.makeDirectory path .done with
        | .ok () => return .ok ()
        | .error error => tolerate path error
    | .error error, _ => tolerate path error

/-- Makes a directory and, where they are missing, those on the way to it. It may be there
already. -/
def ensureDirectory (path : Path) : Script (Except FileError Unit) :=
  ensureDirectoryWithin (path.text.length + 1) path

/-! ## Running -/

/-- What a script leaves behind. -/
structure Trail (α : Type) where
  tree : Tree
  /-- All that was printed. -/
  printed : String
  /-- The files that were replaced, with their new texts, in order. -/
  replaced : List (Path × String)
  result : α

/-- Runs a script on a tree. What cannot be made or replaced stays as it is. -/
def run (tree : Tree) : Script α → Trail α
  | .done result => ⟨tree, "", [], result⟩
  | .print text next =>
    let trail := next.run tree
    { trail with printed := text ++ trail.printed }
  | .readText path next => (next (tree.readText path)).run tree
  | .isPresent path next => (next (tree.isPresent path)).run tree
  | .isDirectory path next => (next (tree.isDirectory path)).run tree
  | .makeDirectory path next =>
    match tree.makeDirectory path with
    | .ok tree => (next (.ok ())).run tree
    | .error error => (next (.error error)).run tree
  | .replaceFile path text next =>
    match tree.replaceFile path text with
    | .ok tree =>
      let trail := (next (.ok ())).run tree
      { trail with replaced := (path, text) :: trail.replaced }
    | .error error => (next (.error error)).run tree

end Script

end Flowpress.Command
