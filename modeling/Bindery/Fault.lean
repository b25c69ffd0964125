import Bindery.Diagnostic
import Bindery.Json.Problem

/-!
# Why a module cannot be generated

A `Fault` is the cause for which the bindings of one module are not written. `Fault.message` says it
in one line, and `Fault.diagnostic` adds where it is and what can be done.
-/

set_option autoImplicit false
set_option relaxedAutoImplicit false

namespace Bindery

/-- Why a file or a directory cannot be used. -/
inductive FileTrouble
  | notFound
  | notADirectory
  | isADirectory
  | alreadyExists
  | busy
  | nameTooLong
  | invalidName
  | notText
  | other (text : String)
  deriving DecidableEq

def FileTrouble.message : FileTrouble → String
  | .notFound => "No such file or directory (os error 2)"
  | .notADirectory => "Not a directory (os error 20)"
  | .isADirectory => "Is a directory (os error 21)"
  | .alreadyExists => "File exists (os error 17)"
  | .busy => "Device or resource busy (os error 16)"
  | .nameTooLong => "File name too long (os error 36)"
  | .invalidName => "file name contained an unexpected NUL byte"
  | .notText => "stream did not contain valid UTF-8"
  | .other text => text

inductive Fault
  | missingInput (path : String)
  | malformedInput (path : String) (problem : Json.Problem)
  | malformedType (descriptor reason : String)
  | unresolvedVariadic (function : String)
  | unknownModule (name : String)
  | file (path : String) (trouble : FileTrouble)
  deriving DecidableEq

namespace Fault

def message : Fault → String
  | .missingInput path => "API description not found: " ++ path
  | .malformedInput path problem => "malformed API description " ++ path ++ ": " ++ problem.message
  | .malformedType descriptor reason =>
    "malformed type descriptor `" ++ descriptor ++ "`: " ++ reason
  | .unresolvedVariadic function => "no variadic type override for `" ++ function ++ "`"
  | .unknownModule name => "unknown module `" ++ name ++ "`"
  | .file path trouble => "I/O error on " ++ path ++ ": " ++ trouble.message

/-- The message of the diagnostic of a fault. -/
def headline : Fault → String
  | .missingInput path => "API description `" ++ path ++ "` does not exist"
  | .malformedInput path _ => "could not read API description `" ++ path ++ "`"
  | .malformedType descriptor _ => "cannot map C type `" ++ descriptor ++ "`"
  | .unresolvedVariadic function =>
    "function `" ++ function ++ "` takes variadic arguments with no configured type"
  | .unknownModule name => "no module configuration named `" ++ name ++ "`"
  | .file path _ => "I/O error on `" ++ path ++ "`"

/-- What the diagnostic of a fault says beside its message. -/
def notes : Fault → List Note
  | .missingInput path =>
    [.location path,
     .suggestion ("Generate it with raylib's parser: " ++
       "`raylib_parser -i raylib.h -o raylib_api.json -f JSON -d RLAPI`"),
     .suggestion "Point the job at the right file in Raygen.toml"]
  | .malformedInput path problem =>
    [.location path, .context problem.message,
     .suggestion "Regenerate the file with `raylib_parser -f JSON`"]
  | .malformedType _ reason => [.context reason]
  | .unresolvedVariadic function =>
    [.suggestion ("Add `" ++ function ++ "` to the module's variadic overrides")]
  | .unknownModule _ => [.suggestion "Run `raygen modules` to list the built-in modules"]
  | .file path trouble => [.location path, .context trouble.message]

/-- What the user is told about a fault. -/
def diagnostic (fault : Fault) : Diagnostic := .build .error fault.headline fault.notes

end Fault

end Bindery
