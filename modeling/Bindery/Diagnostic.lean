/-!
# Diagnostics

A `Diagnostic` is what the user is told about a failure: a message, perhaps a place, lines of
context and suggestions. It is built up by notes in any order; `Diagnostic.format` always shows the
place first, then the context, then the numbered suggestions.
-/

set_option autoImplicit false
set_option relaxedAutoImplicit false

namespace Bindery

inductive Severity
  | error
  | warning
  deriving DecidableEq

structure Diagnostic where
  severity : Severity
  message : String
  location : Option String
  context : List String
  suggestions : List String
  deriving DecidableEq

/-- What can be added to a diagnostic. -/
inductive Note
  | context (text : String)
  | suggestion (text : String)
  | location (path : String)
  deriving DecidableEq

namespace Diagnostic

/-- A diagnostic that is only a message. -/
def plain (severity : Severity) (message : String) : Diagnostic := ⟨severity, message, none, [], []⟩

/-- Adds a note: a later location replaces an earlier one, all else is kept in order. -/
def add (diagnostic : Diagnostic) : Note → Diagnostic
  | .context text => { diagnostic with context := diagnostic.context ++ [text] }
  | .suggestion text => { diagnostic with suggestions := diagnostic.suggestions ++ [text] }
  | .location path => { diagnostic with location := some path }

/-- A message with notes, added from left to right. -/
def build (severity : Severity) (message : String) (notes : List Note) : Diagnostic :=
  notes.foldl add (plain severity message)

/-- Text in bold and in the colour with the given number, if colours are wanted. -/
def paint (color : Bool) (number text : String) : String :=
  if color then "\x1b[1;" ++ number ++ "m" ++ text ++ "\x1b[0m" else text

def severityLabel (color : Bool) : Severity → String
  | .error => paint color "31" "error"
  | .warning => paint color "33" "warning"

/-- The suggestions, numbered from one. -/
def numbered (suggestions : List String) : String :=
  String.join <| suggestions.zipIdx.map fun (suggestion, index) =>
    "  " ++ toString (index + 1) ++ ". " ++ suggestion ++ "\n"

/-- The text of a diagnostic. -/
def format (color : Bool) (diagnostic : Diagnostic) : String :=
  severityLabel color diagnostic.severity ++ ": " ++ diagnostic.message ++ "\n" ++
    (match diagnostic.location with
      | some path => "  --> " ++ path ++ "\n"
      | none => "") ++
    String.join (diagnostic.context.map fun text => "  = " ++ text ++ "\n") ++
    (if diagnostic.suggestions.isEmpty then ""
      else "\n" ++ paint color "32" "help" ++ ": consider:\n" ++ numbered diagnostic.suggestions)

end Diagnostic

end Bindery
