import Bindery.Text.Blank

/-!
# Paths

A path is a text of names with slashes between them. `parent?` drops the last name of a path, and
`steps` are the names to go through from the directory the path starts in; a slash at the end asks
for a directory and adds a step to the place itself.
-/

set_option autoImplicit false
set_option relaxedAutoImplicit false

namespace Bindery.Path

/-- The texts between the slashes of a path; some may be empty. -/
def segments (path : String) : List String :=
  (Text.splitBy (· = '/') path.toList).map String.ofList

def isAbsolute (path : String) : Bool := path.toList.head? = some '/'

def endsInSlash (path : String) : Bool := path.toList.getLast? = some '/'

/-- Whether a segment names nothing of its own. -/
def isIdle (segment : String) : Bool := segment = "" || segment = "."

/-- Drops the idle segments at the end. -/
def dropIdle (segments : List String) : List String :=
  (segments.reverse.dropWhile isIdle).reverse

/-- The path without its last name; the root and the empty path have no parent. -/
def parent? (path : String) : Option String :=
  match segments path with
  | [] => none
  | first :: rest =>
    match (dropIdle rest).reverse with
    | [] => if first = "" then none else some ""
    | _ :: front =>
      let kept := dropIdle front.reverse
      if first = "" ∧ kept.isEmpty then some "/" else some ("/".intercalate (first :: kept))

/-- A path below another. -/
def join (directory name : String) : String :=
  if directory = "" || endsInSlash directory then directory ++ name else directory ++ "/" ++ name

/-- The names of a path, `.` and `..` among them. -/
def names (path : String) : List String := (segments path).filter fun segment => segment ≠ ""

/-- The names to go through, and a step to the place itself for a slash at the end. -/
def steps (path : String) : List String :=
  names path ++ if endsInSlash path then ["."] else []

end Bindery.Path
