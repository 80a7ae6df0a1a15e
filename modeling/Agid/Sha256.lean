import Agid.JsText

/-!
# The hash in the browser

`sha256Hex` of `src/lib/sha256.ts`.  Its numbers are doubles that it keeps integral: a sum or a
product is the double nearest to it, and the bit operators go through 32 bits with a sign, but `>>>`,
which leaves none.
-/

namespace Agid.Sha256

/-! ## Numbers -/

/-- The double nearest to an integer, and of two the even one. -/
def nearestNumber (z : ℤ) : ℤ :=
  let ulp : ℤ := 2 ^ (Nat.log2 z.natAbs - 52)
  let q := z / ulp
  let r := z % ulp
  if 2 * r < ulp ∨ 2 * r = ulp ∧ q % 2 = 0 then q * ulp else (q + 1) * ulp

def plus (x y : ℤ) : ℤ := nearestNumber (x + y)

def times (x y : ℤ) : ℤ := nearestNumber (x * y)

def bitOr (x y : ℤ) : ℤ := (BitVec.ofInt 32 x ||| BitVec.ofInt 32 y).toInt

def bitXor (x y : ℤ) : ℤ := (BitVec.ofInt 32 x ^^^ BitVec.ofInt 32 y).toInt

def bitNot (x : ℤ) : ℤ := (~~~BitVec.ofInt 32 x).toInt

/-- `x << n`. -/
def shiftLeft (x : ℤ) (n : ℕ) : ℤ := (BitVec.ofInt 32 x <<< (n % 32)).toInt

/-- `x >>> n`. -/
def shiftRight (x : ℤ) (n : ℕ) : ℤ := (BitVec.ofInt 32 x >>> (n % 32)).toNat

/-- `x.toString(16)` of a number that is not negative. -/
def toString16 (x : ℤ) : JsString := js (String.ofList (Nat.toDigits 16 x.toNat))

/-- `s.padStart(n, '0')`. -/
def padStart0 (s : JsString) (n : ℕ) : JsString := List.replicate (n - s.length) 48 ++ s

/-! ## `sha256Hex` -/

def K : List ℤ := [
  0x428a2f98, 0x71374491, 0xb5c0fbcf, 0xe9b5dba5, 0x3956c25b, 0x59f111f1, 0x923f82a4, 0xab1c5ed5,
  0xd807aa98, 0x12835b01, 0x243185be, 0x550c7dc3, 0x72be5d74, 0x80deb1fe, 0x9bdc06a7, 0xc19bf174,
  0xe49b69c1, 0xefbe4786, 0x0fc19dc6, 0x240ca1cc, 0x2de92c6f, 0x4a7484aa, 0x5cb0a9dc, 0x76f988da,
  0x983e5152, 0xa831c66d, 0xb00327c8, 0xbf597fc7, 0xc6e00bf3, 0xd5a79147, 0x06ca6351, 0x14292967,
  0x27b70a85, 0x2e1b2138, 0x4d2c6dfc, 0x53380d13, 0x650a7354, 0x766a0abb, 0x81c2c92e, 0x92722c85,
  0xa2bfe8a1, 0xa81a664b, 0xc24b8b70, 0xc76c51a3, 0xd192e819, 0xd6990624, 0xf40e3585, 0x106aa070,
  0x19a4c116, 0x1e376c08, 0x2748774c, 0x34b0bcb5, 0x391c0cb3, 0x4ed8aa4a, 0x5b9cca4f, 0x682e6ff3,
  0x748f82ee, 0x78a5636f, 0x84c87814, 0x8cc70208, 0x90befffa, 0xa4506ceb, 0xbef9a3f7, 0xc67178f2]

def rotr (value : ℤ) (shift : ℕ) : ℤ :=
  bitOr (shiftRight value shift) (shiftLeft value (32 - shift))

/-- Where there is no `TextEncoder`, a surrogate that is alone makes `encodeURIComponent` throw. -/
def bytesFromUtf8 (hasTextEncoder : Bool) (input : JsString) : Option (List ℤ) :=
  if hasTextEncoder then some ((textEncode input).map fun b => (b.toNat : ℤ))
  else (encodeURIComponent input).map fun encoded =>
    (chars (unescape encoded)).map fun char => ((char.headD 0).val : ℤ)

def toHex (value : ℤ) : JsString := padStart0 (toString16 (shiftRight value 0)) 8

/-- `while ((bytes.length % 64) !== 56) bytes.push(0)`. -/
def pushZeros (bytes : List ℤ) : List ℤ :=
  if bytes.length % 64 ≠ 56 then pushZeros (bytes ++ [0]) else bytes
termination_by (120 - bytes.length % 64) % 64
decreasing_by
  simp only [List.length_append, List.length_singleton]
  omega

/-- The four bytes that are pushed for a word of the bit length. -/
def wordBytes (x : ℤ) : List ℤ :=
  [bitAnd (shiftRight x 24) 0xff, bitAnd (shiftRight x 16) 0xff, bitAnd (shiftRight x 8) 0xff,
    bitAnd x 0xff]

/-- The bytes of a message with all that is pushed to them. -/
def pushPadding (bytes : List ℤ) : List ℤ :=
  let bitLength := times bytes.length 8
  let high := bitLength / 0x100000000
  let low := shiftRight bitLength 0
  pushZeros (bytes ++ [0x80]) ++ wordBytes high ++ wordBytes low

/-- The hash so far, and the variables of the rounds. -/
structure State where
  a : ℤ
  b : ℤ
  c : ℤ
  d : ℤ
  e : ℤ
  f : ℤ
  g : ℤ
  hh : ℤ

def initial : State where
  a := 0x6a09e667
  b := 0xbb67ae85
  c := 0x3c6ef372
  d := 0xa54ff53a
  e := 0x510e527f
  f := 0x9b05688c
  g := 0x1f83d9ab
  hh := 0x5be0cd19

/-- `w[i]` for an `i` below 16; a byte that is missing reads `undefined`, which the shifts take for
zero. -/
def loaded (bytes : List ℤ) (offset i : ℕ) : ℤ :=
  let j := offset + i * 4
  shiftRight
    (bitOr
      (bitOr (bitOr (shiftLeft (bytes.getD j 0) 24) (shiftLeft (bytes.getD (j + 1) 0) 16))
        (shiftLeft (bytes.getD (j + 2) 0) 8))
      (bytes.getD (j + 3) 0)) 0

/-- `w[i]` for an `i` from 16 on. -/
def extended (w : List ℤ) (i : ℕ) : ℤ :=
  let w15 := w.getD (i - 15) 0
  let w2 := w.getD (i - 2) 0
  let s0 := shiftRight (bitXor (bitXor (rotr w15 7) (rotr w15 18)) (shiftRight w15 3)) 0
  let s1 := shiftRight (bitXor (bitXor (rotr w2 17) (rotr w2 19)) (shiftRight w2 10)) 0
  shiftRight (plus (plus (plus (w.getD (i - 16) 0) s0) (w.getD (i - 7) 0)) s1) 0

/-- The words of the block, each put after those it is made of. -/
def words (bytes : List ℤ) (offset : ℕ) : List ℤ :=
  (List.range' 16 48).foldl (fun w i => w ++ [extended w i]) ((List.range 16).map (loaded bytes offset))

def round (k w : ℤ) (s : State) : State :=
  let s1 := shiftRight (bitXor (bitXor (rotr s.e 6) (rotr s.e 11)) (rotr s.e 25)) 0
  let ch := shiftRight (bitXor (bitAnd s.e s.f) (bitAnd (bitNot s.e) s.g)) 0
  let temp1 := shiftRight (plus (plus (plus (plus s.hh s1) ch) k) w) 0
  let s0 := shiftRight (bitXor (bitXor (rotr s.a 2) (rotr s.a 13)) (rotr s.a 22)) 0
  let maj := shiftRight (bitXor (bitXor (bitAnd s.a s.b) (bitAnd s.a s.c)) (bitAnd s.b s.c)) 0
  let temp2 := shiftRight (plus s0 maj) 0
  { hh := s.g
    g := s.f
    f := s.e
    e := shiftRight (plus s.d temp1) 0
    d := s.c
    c := s.b
    b := s.a
    a := shiftRight (plus temp1 temp2) 0 }

/-- The hash after the block at an offset. -/
def block (bytes : List ℤ) (offset : ℕ) (h : State) : State :=
  let w := words bytes offset
  let s := (List.range 64).foldl (fun s i => round (K.getD i 0) (w.getD i 0) s) h
  { a := shiftRight (plus h.a s.a) 0
    b := shiftRight (plus h.b s.b) 0
    c := shiftRight (plus h.c s.c) 0
    d := shiftRight (plus h.d s.d) 0
    e := shiftRight (plus h.e s.e) 0
    f := shiftRight (plus h.f s.f) 0
    g := shiftRight (plus h.g s.g) 0
    hh := shiftRight (plus h.hh s.hh) 0 }

def State.toList (h : State) : List ℤ := [h.a, h.b, h.c, h.d, h.e, h.f, h.g, h.hh]

def hash (bytes : List ℤ) : State :=
  (List.range ((bytes.length + 63) / 64)).foldl (fun h i => block bytes (64 * i) h) initial

def sha256Hex (hasTextEncoder : Bool) (input : JsString) : Option JsString :=
  (bytesFromUtf8 hasTextEncoder input).map fun bytes =>
    (hash (pushPadding bytes)).toList.flatMap toHex

end Agid.Sha256
