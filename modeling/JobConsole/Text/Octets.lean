import JobConsole.Text.Utf8

/-! # Texts of octets

A text of octets has one character for each octet, whose number is the value of the octet. Programs
that know nothing of encodings count, compare and cut such texts. Where a text comes in or goes out it
is UTF-8.
-/

namespace JobConsole.Text.Octets

def ofBytes (bs : List UInt8) : String := String.ofList (bs.map fun b => Char.ofNat b.toNat)

def toBytes (s : String) : List UInt8 := s.toList.map fun c => c.toNat.toUInt8

/-- The octets that write a text. -/
def encode (s : String) : String := ofBytes (Utf8.encode s)

/-- The text that octets write. -/
def decode (s : String) : String := Utf8.decodeLossy (toBytes s)

end JobConsole.Text.Octets
