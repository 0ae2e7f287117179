/-!
# Paths

A path is a text whose parts are separated by slashes. Empty parts say nothing; a
single dot stays where it is, two dots go up. A path that ends with a slash names
a directory, as if a dot stood behind the slash.

The parent of a path and the stem of its last part are found in the text alone.
For them, a dot counts only as the first part.
-/

namespace Flowpress.Files

/-- A path as it is written. -/
structure Path where
  text : String
deriving DecidableEq, Repr

/-- The parts of a text between slashes; `part` holds the beginning of the first, last character
first. -/
def partsAfter (part : List Char) : List Char → List String
  | [] => [String.ofList part.reverse]
  | char :: rest =>
    if char = '/' then String.ofList part.reverse :: partsAfter [] rest
    else partsAfter (char :: part) rest

namespace Path

/-- Whether a path starts at the root. -/
def isAbsolute (path : Path) : Bool := path.text.toList.head? == some '/'

/-- Whether a path ends with a slash. -/
def endsWithSlash (path : Path) : Bool := path.text.toList.getLast? == some '/'

/-- The parts of a path that are not empty. -/
def parts (path : Path) : List String := (partsAfter [] path.text.toList).filter (· != "")

/-- The parts that a walk along the path takes. -/
def steps (path : Path) : List String :=
  if path.endsWithSlash then path.parts ++ ["."] else path.parts

/-- The path of a name in a directory. -/
def join (directory : Path) (name : String) : Path :=
  if directory.text.isEmpty ∨ directory.endsWithSlash then ⟨directory.text ++ name⟩
  else ⟨directory.text ++ "/" ++ name⟩

/-- Drops slashes and dots without meaning at the end of a path, which is given last character
first. The slash of the root stays. -/
def trimReversed : List Char → List Char
  | ['/'] => ['/']
  | '/' :: rest => trimReversed rest
  | '.' :: '/' :: rest => trimReversed ('/' :: rest)
  | text => text

/-- The path without slashes and dots at its end. -/
def trimmed (path : Path) : List Char := (trimReversed path.text.toList.reverse).reverse

/-- The path without its last part; none if it has no part. The parent of a single name is the
empty path. -/
def parent (path : Path) : Option Path :=
  let reversed := path.trimmed.reverse
  if reversed = [] ∨ reversed = ['/'] then none
  else some ⟨String.ofList (trimReversed (reversed.dropWhile (· != '/'))).reverse⟩

/-- The last part of a path, if that is a name. -/
def fileName? (path : Path) : Option String :=
  match (partsAfter [] path.trimmed).getLast? with
  | some name => if name = "" ∨ name = "." ∨ name = ".." then none else some name
  | none => none

/-- The last part of a path without its extension: what stands in front of its last dot, unless
that is nothing. -/
def stem? (path : Path) : Option String := do
  let name ← path.fileName?
  let behindDot := name.toList.reverse.dropWhile (· != '.')
  match behindDot.drop 1 with
  | [] => some name
  | stem => some (String.ofList stem.reverse)

end Path

end Flowpress.Files
