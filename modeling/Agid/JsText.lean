import Agid.Js

/-!
# Strings as bytes

What a string iterates over, and the functions of the platform that make bytes of a string and a
string of percent-encoded bytes: `TextEncoder`, `encodeURIComponent` and `unescape`.
-/

namespace Agid

/-! ## Code points -/

def isHighSurrogate (c : CodeUnit) : Bool := 0xD800 ≤ c.val && c.val < 0xDC00

def isLowSurrogate (c : CodeUnit) : Bool := 0xDC00 ≤ c.val && c.val < 0xE000

/-- What a string iterates over: each pair of surrogates, and each other code unit by itself. -/
def chars : JsString → List JsString
  | [] => []
  | [c] => [[c]]
  | c :: d :: s =>
    if isHighSurrogate c && isLowSurrogate d then [c, d] :: chars s else [c] :: chars (d :: s)

/-- `char.codePointAt(0)` of what a string iterates over. -/
def codePoint : JsString → ℕ
  | [c, d] => 0x10000 + (c.val - 0xD800) * 0x400 + (d.val - 0xDC00)
  | [c] => c.val
  | _ => 0

def codePoints (s : JsString) : List ℕ := (chars s).map codePoint

/-- No surrogate of the string is alone. -/
def isWellFormed (s : JsString) : Bool := (codePoints s).all fun p => p.isValidChar

/-! ## Bytes -/

/-- The scalar value that is encoded for a code point: U+FFFD for a surrogate. -/
def scalar (p : ℕ) : Char := if p.isValidChar then Char.ofNat p else Char.ofNat 0xFFFD

/-- `new TextEncoder().encode(s)`. -/
def textEncode (s : JsString) : List UInt8 :=
  (codePoints s).flatMap fun p => String.utf8EncodeChar (scalar p)

/-! ## Percent-encoding -/

/-- A letter, a digit or one of `-_.!~*'()`. -/
def isUnreserved (p : ℕ) : Bool :=
  (65 ≤ p && p ≤ 90) || (97 ≤ p && p ≤ 122) || (48 ≤ p && p ≤ 57)
    || p = 45 || p = 95 || p = 46 || p = 33 || p = 126 || p = 42 || p = 39 || p = 40 || p = 41

def upperHexDigit (n : ℕ) : CodeUnit := Fin.ofNat 65536 (if n < 10 then 48 + n else 55 + n)

/-- `%` and the two digits of a byte. -/
def percentByte (b : UInt8) : JsString :=
  [37, upperHexDigit (b.toNat / 16), upperHexDigit (b.toNat % 16)]

/-- `encodeURIComponent(s)`, none where it throws a `URIError`. -/
def encodeURIComponent (s : JsString) : Option JsString :=
  if isWellFormed s then
    some ((codePoints s).flatMap fun p =>
      if isUnreserved p then [Fin.ofNat 65536 p]
      else (String.utf8EncodeChar (scalar p)).flatMap percentByte)
  else none

def hexValue (c : CodeUnit) : Option ℕ :=
  if 48 ≤ c.val ∧ c.val ≤ 57 then some (c.val - 48)
  else if 65 ≤ c.val ∧ c.val ≤ 70 then some (c.val - 55)
  else if 97 ≤ c.val ∧ c.val ≤ 102 then some (c.val - 87)
  else none

/-- The number that hexadecimal digits write. -/
def hexNumber (s : JsString) : Option ℕ :=
  s.foldlM (fun n c => (hexValue c).map (16 * n + ·)) 0

/-- What follows a `%` and is decoded with it: the code unit and how long the text is. -/
def escaped (s : JsString) : Option (CodeUnit × ℕ) :=
  match s with
  | 117 :: a :: b :: c :: d :: _ =>
    (hexNumber [a, b, c, d]).map fun n => (Fin.ofNat 65536 n, 5)
  | a :: b :: _ => (hexNumber [a, b]).map fun n => (Fin.ofNat 65536 n, 2)
  | _ => none

/-- `unescape(s)`. -/
def unescape : JsString → JsString
  | [] => []
  | c :: s =>
    if c = 37 then
      match escaped s with
      | some (d, length) => d :: unescape (s.drop length)
      | none => c :: unescape s
    else c :: unescape s
termination_by s => s.length
decreasing_by all_goals simp only [List.length_drop, List.length_cons]; omega

end Agid
