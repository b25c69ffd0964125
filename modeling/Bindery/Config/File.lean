import Bindery.Config.Toml
import Bindery.FileTree
import Bindery.Log

/-!
# The file of a configuration

A configuration is loaded from a file that has to exist, or from the usual file of a directory if
there is one. Saving makes the directories above the file.
-/

set_option autoImplicit false
set_option relaxedAutoImplicit false

namespace Bindery

/-- Why a configuration cannot be loaded or saved. -/
inductive ConfigFault
  | unreadable (path : String) (trouble : FileTrouble)
  | malformed (path : String)
  | noDirectory (path : String) (trouble : FileTrouble)
  | unwritable (path : String) (trouble : FileTrouble)
  deriving DecidableEq

namespace ConfigFault

def message : ConfigFault → String
  | .unreadable path _ => "failed to read config file: " ++ path
  | .malformed path => "failed to parse config file: " ++ path
  | .noDirectory path _ => "failed to create config directory: " ++ path
  | .unwritable path _ => "failed to write config file: " ++ path

/-- The message with its cause. -/
def detail (fault : ConfigFault) : String :=
  match fault with
  | .unreadable _ trouble | .noDirectory _ trouble | .unwritable _ trouble =>
    fault.message ++ ": " ++ trouble.message
  | .malformed _ => fault.message

end ConfigFault

namespace Config

def load (tree : FileTree) (path : String) : Except ConfigFault Config :=
  match tree.readText path with
  | .error trouble => .error (.unreadable path trouble)
  | .ok document =>
    match parse? document with
    | some config => .ok config
    | none => .error (.malformed path)

/-- The configuration to use in a directory: that of the file given, else that of the usual file if
there is one, else the standard one. -/
def resolve (tree : FileTree) (explicit : Option String) (directory : String) :
    List LogLine × Except ConfigFault Config :=
  match explicit with
  | some path => ([], load tree path)
  | none =>
    let path := Path.join directory fileName
    if tree.exists? path then ([], load tree path)
    else ([⟨.debug, "no " ++ fileName ++ " in " ++ directory ++ ", using defaults"⟩], .ok standard)

/-- Saves a configuration; the directories above the file are kept even if the file fails. -/
def save (config : Config) (tree : FileTree) (path : String) :
    FileTree × Except ConfigFault Unit :=
  let prepared : FileTree.Change := match Path.parent? path with
    | none => ⟨tree, none⟩
    | some parent => tree.makeDirectories parent
  match prepared.trouble with
  | some trouble => (prepared.tree, .error (.noDirectory ((Path.parent? path).getD "") trouble))
  | none =>
    match prepared.tree.overwrite path (.text config.write) with
    | .error trouble => (prepared.tree, .error (.unwritable path trouble))
    | .ok written => (written, .ok ())

end Config

end Bindery
