import Bindery.FileTree

/-!
# Octets

Scripts and the tools they call work on octets. `Octets` holds each octet as the character of its
number, so that the notation of scripts, which is ASCII, reads as usual. `encode` gives the octets
of a text, and `decode` the text of octets, in which a mark stands for each part that encodes
nothing.
-/

set_option autoImplicit false
set_option relaxedAutoImplicit false

namespace Bindery

/-- A sequence of octets, each as the character of its number. -/
abbrev Octets := String

namespace Octets

def ofBytes (bytes : List UInt8) : Octets :=
  String.ofList (bytes.map fun byte => Char.ofNat byte.toNat)

def bytes (octets : Octets) : List UInt8 := octets.toList.map fun c => c.toNat.toUInt8

/-- The octets of a text. -/
def encode (text : String) : Octets :=
  if text.toList.all fun c => c.toNat < 0x80 then text else ofBytes text.toUTF8.toList

/-- What an octet that begins a character of several octets promises: how many follow, and the
least and the greatest value of the next. -/
def lead? (octet : Nat) : Option (Nat × Nat × Nat) :=
  if octet < 0xc2 then none
  else if octet < 0xe0 then some (1, 0x80, 0xbf)
  else if octet = 0xe0 then some (2, 0xa0, 0xbf)
  else if octet = 0xed then some (2, 0x80, 0x9f)
  else if octet < 0xf0 then some (2, 0x80, 0xbf)
  else if octet = 0xf0 then some (3, 0x90, 0xbf)
  else if octet < 0xf4 then some (3, 0x80, 0xbf)
  else if octet = 0xf4 then some (3, 0x80, 0x8f)
  else none

/-- How many of the next octets, up to a count, go on with a character. -/
def followers : Nat → Nat → Nat → List Nat → Nat
  | count + 1, low, high, octet :: rest =>
    if low ≤ octet ∧ octet ≤ high then followers count 0x80 0xbf rest + 1 else 0
  | _, _, _, _ => 0

/-- The number of the character of a leading octet and those that follow. -/
def codePoint (lead : Nat) (follow : List Nat) : Nat :=
  let bits := match follow.length with
    | 1 => lead - 0xc0
    | 2 => lead - 0xe0
    | _ => lead - 0xf0
  follow.foldl (fun value octet => value * 0x40 + (octet - 0x80)) bits

/-- The characters of some octets; `fuel` is at least their number. -/
def decodeList : Nat → List Nat → List Char
  | 0, _ | _, [] => []
  | fuel + 1, octet :: rest =>
    if octet < 0x80 then Char.ofNat octet :: decodeList fuel rest
    else match lead? octet with
      | none => '\ufffd' :: decodeList fuel rest
      | some (count, low, high) =>
        let valid := followers count low high rest
        let decoded :=
          if valid = count then Char.ofNat (codePoint octet (rest.take valid)) else '\ufffd'
        decoded :: decodeList fuel (rest.drop valid)

/-- The text of some octets. Each part that encodes nothing gives one mark. -/
def decode (octets : Octets) : String :=
  if octets.toList.all fun c => c.toNat < 0x80 then octets
  else String.ofList (decodeList octets.length (octets.toList.map Char.toNat))

end Octets

/-- The octets of a content. -/
def Content.octets : Content → Octets
  | .text value => Octets.encode value
  | .binary bytes => Octets.ofBytes bytes

/-- The content that some octets are. -/
def Content.ofOctets (octets : Octets) : Content :=
  if octets.toList.all fun c => c.toNat < 0x80 then .text octets else .ofBytes octets.bytes

end Bindery
