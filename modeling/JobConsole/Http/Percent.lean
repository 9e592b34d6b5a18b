import JobConsole.Json.Token
import JobConsole.Text.Utf8

/-! # Percent encoding

An escape is a percent sign with two hexadecimal digits and stands for one octet. A percent sign
that starts no escape stands for itself.
-/

namespace JobConsole.Http.Percent

def percentSign : UInt8 := 37

def hexOctet? (high low : UInt8) : Option UInt8 :=
  match Json.hexValue? (Char.ofNat high.toNat), Json.hexValue? (Char.ofNat low.toNat) with
  | some h, some l => some (16 * h + l).toUInt8
  | _, _ => none

def octets : List UInt8 → List UInt8
  | [] => []
  | [a] => [a]
  | [a, b] => [a, b]
  | a :: b :: c :: r =>
    if a = percentSign then
      match hexOctet? b c with
      | some o => o :: octets r
      | none => a :: octets (b :: c :: r)
    else a :: octets (b :: c :: r)

/-- The text that is meant, if the octets are the encoding of one. -/
def decode? (s : String) : Option String := Text.Utf8.decode? (octets (Text.Utf8.encode s))

end JobConsole.Http.Percent
