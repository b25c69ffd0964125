/-!
# Log lines

What the program reports about its progress, each line with a level. Lines of the lowest level are
shown only on demand. A message cannot steer the terminal it is shown on: the controls that could do
so are spelled out.
-/

set_option autoImplicit false
set_option relaxedAutoImplicit false

namespace Bindery

inductive Level
  | debug
  | info
  | warning
  deriving DecidableEq

structure LogLine where
  level : Level
  message : String
  deriving DecidableEq

/-- The name of a level, in five columns. -/
def Level.label : Level → String
  | .debug => "DEBUG"
  | .info => " INFO"
  | .warning => " WARN"

/-- A character of a message; a control that could steer a terminal is spelled by its code point in
hexadecimal. -/
def LogLine.showChar (c : Char) : List Char :=
  if ['\x07', '\x08', '\x0c', '\x1b', '\x7f'].contains c then
    ['\\', 'x', Nat.digitChar (c.toNat / 16), Nat.digitChar (c.toNat % 16)]
  else if 0x80 ≤ c.toNat ∧ c.toNat ≤ 0x9f then
    ['\\', 'u', '\x7b'] ++ Nat.toDigits 16 c.toNat ++ ['\x7d']
  else [c]

def LogLine.render (line : LogLine) : String :=
  line.level.label ++ " " ++ String.ofList (line.message.toList.flatMap showChar) ++ "\n"

end Bindery
