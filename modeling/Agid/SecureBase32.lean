import Agid.Clock
import Agid.Grid
import Agid.Sha256

/-!
# The base32 of AGID-S

`base32Encode` and `base32Decode` of `src/lib/agidSecureShare.ts`, on numbers of 32 bits that keep what
has been shifted out of use.
-/

namespace Agid.AgidSecureShare

open Sha256 (bitOr shiftLeft shiftRight)

/-- `while (bits >= 5)`: the digits that are complete are put out. -/
def emitDigits (value : ℤ) (bits : ℕ) (output : JsString) : ℕ × JsString :=
  if 5 ≤ bits then
    emitDigits value (bits - 5)
      (output ++ textAt BASE32_ALPHABET (bitAnd (shiftRight value (bits - 5)) 31))
  else (bits, output)

/-- The variables of `base32Encode`. -/
structure Encoding where
  value : ℤ
  bits : ℕ
  output : JsString

def encodeByte (s : Encoding) (byte : UInt8) : Encoding :=
  let value := bitOr (shiftLeft s.value 8) byte.toNat
  let (bits, output) := emitDigits value (s.bits + 8) s.output
  ⟨value, bits, output⟩

def base32Encode (bytes : List UInt8) : JsString :=
  let s := bytes.foldl encodeByte ⟨0, 0, []⟩
  if s.bits > 0 then
    s.output ++ textAt BASE32_ALPHABET (bitAnd (shiftLeft s.value (5 - s.bits)) 31)
  else s.output

/-- `BASE32_LOOKUP.get(char)`. -/
def base32Digit : JsString → Option ℕ
  | [c] => BASE32_ALPHABET.idxOf? c
  | _ => none

/-- The variables of `base32Decode`. -/
structure Decoding where
  buffer : ℤ
  bits : ℕ
  bytes : List UInt8

def decodeDigit (s : Decoding) (digit : ℕ) : Decoding :=
  let buffer := bitOr (shiftLeft s.buffer 5) digit
  let bits := s.bits + 5
  if bits ≥ 8 then
    ⟨buffer, bits - 8, s.bytes ++ [UInt8.ofNat (bitAnd (shiftRight buffer (bits - 8)) 0xff).toNat]⟩
  else ⟨buffer, bits, s.bytes⟩

def decodeChars : List JsString → Decoding → Except JsString Decoding
  | [], s => .ok s
  | char :: chars, s =>
    match base32Digit char with
    | none => .error (js "Invalid AGID-S base32 character: " ++ char)
    | some digit => decodeChars chars (decodeDigit s digit)

-- `s.toUpperCase()`
variable (toUpperCase : JsString → JsString)

def base32Decode (value : JsString) : Except JsString (List UInt8) := do
  let cleaned := toUpperCase (trim value)
  let s ← decodeChars (chars cleaned) ⟨0, 0, []⟩
  if s.bits > 0 ∧ bitAnd (shiftLeft s.buffer (8 - s.bits)) 0xff ≠ 0 then
    .error (js "Invalid AGID-S base32 padding bits.")
  else .ok s.bytes

end Agid.AgidSecureShare
