import Agid.Sha256
import Agid.Lib.Hmac

/-!
# Signatures of playlist webhooks

What `src/lib/playlistCommerceWebhook.ts` signs with in the browser, a hash and a keyed hash over
typed arrays that it writes out itself, and what `src/lib/playlistCommerceWebhookServer.ts` signs and
compares with, `createHmac` and `timingSafeEqual` of the platform.  A payload is given as the text
that both make of it.  Lengths of arrays are numbers that a double holds as they are.
-/

namespace Agid.PlaylistWebhook

open Sha256

/-! ## Typed arrays -/

/-- `array.set(values, offset)` of values that the array has room for. -/
def setBytes (array values : List UInt8) (offset : ℕ) : List UInt8 :=
  array.take offset ++ values ++ array.drop (offset + values.length)

/-- `view.getUint32(offset)`. -/
def getUint32 (array : List UInt8) (offset : ℕ) : ℤ :=
  ((((array.getD offset 0).toNat * 256 + (array.getD (offset + 1) 0).toNat) * 256
    + (array.getD (offset + 2) 0).toNat) * 256 + (array.getD (offset + 3) 0).toNat : ℕ)

/-- `view.setUint32(offset, value)`. -/
def setUint32 (array : List UInt8) (offset : ℕ) (value : ℤ) : List UInt8 :=
  let n := (toUint32 value).toNat
  setBytes array [.ofNat (n / 2 ^ 24), .ofNat (n / 2 ^ 16), .ofNat (n / 2 ^ 8), .ofNat n] offset

/-! ## In the browser -/

def DEFAULT_TEST_SECRET : JsString := js "playlist-commerce-test-secret"

def SHA256_BLOCK_BYTES : ℕ := 64

def SHA256_DIGEST_BYTES : ℕ := 32

def SHA256_K : List ℤ := [
  0x428a2f98, 0x71374491, 0xb5c0fbcf, 0xe9b5dba5, 0x3956c25b, 0x59f111f1, 0x923f82a4, 0xab1c5ed5,
  0xd807aa98, 0x12835b01, 0x243185be, 0x550c7dc3, 0x72be5d74, 0x80deb1fe, 0x9bdc06a7, 0xc19bf174,
  0xe49b69c1, 0xefbe4786, 0x0fc19dc6, 0x240ca1cc, 0x2de92c6f, 0x4a7484aa, 0x5cb0a9dc, 0x76f988da,
  0x983e5152, 0xa831c66d, 0xb00327c8, 0xbf597fc7, 0xc6e00bf3, 0xd5a79147, 0x06ca6351, 0x14292967,
  0x27b70a85, 0x2e1b2138, 0x4d2c6dfc, 0x53380d13, 0x650a7354, 0x766a0abb, 0x81c2c92e, 0x92722c85,
  0xa2bfe8a1, 0xa81a664b, 0xc24b8b70, 0xc76c51a3, 0xd192e819, 0xd6990624, 0xf40e3585, 0x106aa070,
  0x19a4c116, 0x1e376c08, 0x2748774c, 0x34b0bcb5, 0x391c0cb3, 0x4ed8aa4a, 0x5b9cca4f, 0x682e6ff3,
  0x748f82ee, 0x78a5636f, 0x84c87814, 0x8cc70208, 0x90befffa, 0xa4506ceb, 0xbef9a3f7, 0xc67178f2]

def rotateRight (value : ℤ) (bits : ℕ) : ℤ :=
  bitOr (shiftRight value bits) (shiftLeft value (32 - bits))

/-- The parts are set one after the other in an array of the length of all. -/
def concatBytes (parts : List (List UInt8)) : List UInt8 :=
  let totalLength := parts.foldl (fun sum part => sum + part.length) 0
  (parts.foldl
    (fun (output, offset) part => (setBytes output part offset, offset + part.length))
    (List.replicate totalLength 0, 0)).1

/-- `words[index]` for an `index` from 16 on. -/
def extendedWord (words : List ℤ) (index : ℕ) : ℤ :=
  let w15 := words.getD (index - 15) 0
  let w2 := words.getD (index - 2) 0
  let s0 := bitXor (bitXor (rotateRight w15 7) (rotateRight w15 18)) (shiftRight w15 3)
  let s1 := bitXor (bitXor (rotateRight w2 17) (rotateRight w2 19)) (shiftRight w2 10)
  shiftRight (plus (plus (plus (words.getD (index - 16) 0) s0) (words.getD (index - 7) 0)) s1) 0

/-- The words of the block at an offset; each of the 64 is written before it is read. -/
def blockWords (padded : List UInt8) (offset : ℕ) : List ℤ :=
  (List.range' 16 48).foldl (fun words index => words ++ [extendedWord words index])
    ((List.range 16).map fun index => getUint32 padded (offset + index * 4))

/-- The body of the loop over the 64 words. -/
def roundStep (k w : ℤ) (s : State) : State :=
  let sigma1 := bitXor (bitXor (rotateRight s.e 6) (rotateRight s.e 11)) (rotateRight s.e 25)
  let choice := bitXor (bitAnd s.e s.f) (bitAnd (bitNot s.e) s.g)
  let temp1 := shiftRight (plus (plus (plus (plus s.hh sigma1) choice) k) w) 0
  let sigma0 := bitXor (bitXor (rotateRight s.a 2) (rotateRight s.a 13)) (rotateRight s.a 22)
  let majority := bitXor (bitXor (bitAnd s.a s.b) (bitAnd s.a s.c)) (bitAnd s.b s.c)
  let temp2 := shiftRight (plus sigma0 majority) 0
  { hh := s.g
    g := s.f
    f := s.e
    e := shiftRight (plus s.d temp1) 0
    d := s.c
    c := s.b
    b := s.a
    a := shiftRight (plus temp1 temp2) 0 }

/-- `h0` to `h7` after the block at an offset. -/
def blockStep (padded : List UInt8) (offset : ℕ) (h : State) : State :=
  let words := blockWords padded offset
  let s := (List.range 64).foldl
    (fun s index => roundStep (SHA256_K.getD index 0) (words.getD index 0) s) h
  { a := shiftRight (plus h.a s.a) 0
    b := shiftRight (plus h.b s.b) 0
    c := shiftRight (plus h.c s.c) 0
    d := shiftRight (plus h.d s.d) 0
    e := shiftRight (plus h.e s.e) 0
    f := shiftRight (plus h.f s.f) 0
    g := shiftRight (plus h.g s.g) 0
    hh := shiftRight (plus h.hh s.hh) 0 }

/-- `Math.ceil((message.length + 9) / SHA256_BLOCK_BYTES) * SHA256_BLOCK_BYTES`. -/
def paddedLength (message : List UInt8) : ℕ :=
  (message.length + 9 + (SHA256_BLOCK_BYTES - 1)) / SHA256_BLOCK_BYTES * SHA256_BLOCK_BYTES

def padMessage (message : List UInt8) : List UInt8 :=
  let padded := setBytes (List.replicate (paddedLength message) 0) message 0
  let padded := padded.set message.length 0x80
  let bitLength : ℤ := message.length * 8
  let padded := setUint32 padded (paddedLength message - 8) (bitLength / 0x100000000)
  setUint32 padded (paddedLength message - 4) (shiftRight bitLength 0)

/-- `h0` to `h7` before the first block. -/
def initialHash : State where
  a := 0x6a09e667
  b := 0xbb67ae85
  c := 0x3c6ef372
  d := 0xa54ff53a
  e := 0x510e527f
  f := 0x9b05688c
  g := 0x1f83d9ab
  hh := 0x5be0cd19

def sha256Bytes (message : List UInt8) : List UInt8 :=
  let padded := padMessage message
  let h := (List.range (paddedLength message / SHA256_BLOCK_BYTES)).foldl
    (fun h i => blockStep padded (SHA256_BLOCK_BYTES * i) h) initialHash
  (h.toList.zipIdx.foldl (fun digest (value, index) => setUint32 digest (index * 4) value)
    (List.replicate SHA256_DIGEST_BYTES 0))

def bytesToHex (bytes : List UInt8) : JsString :=
  bytes.flatMap fun byte => padStart0 (toString16 byte.toNat) 2

def hmacSha256Hex (secret message : JsString) : JsString :=
  let rawKey := textEncode secret
  let key := if rawKey.length > SHA256_BLOCK_BYTES then sha256Bytes rawKey else rawKey
  let keyBlock := setBytes (List.replicate SHA256_BLOCK_BYTES 0) key 0
  let outerPad := (List.range SHA256_BLOCK_BYTES).map fun index => keyBlock.getD index 0 ^^^ 0x5c
  let innerPad := (List.range SHA256_BLOCK_BYTES).map fun index => keyBlock.getD index 0 ^^^ 0x36
  let innerDigest := sha256Bytes (concatBytes [innerPad, textEncode message])
  bytesToHex (sha256Bytes (concatBytes [outerPad, innerDigest]))

def signPlaylistCommerceWebhookPayload (payload secret : JsString) : JsString :=
  js "sha256=" ++ hmacSha256Hex secret payload

/-! ## On the server -/

/-- `createHmac('sha256', secret).update(message)`: both texts are hashed as UTF-8. -/
def createHmac (secret message : JsString) : List UInt8 :=
  Hmac.hmac Fips180.hashBytes 64 (textEncode secret) (textEncode message)

/-- `digest('hex')`. -/
def hexDigest (bytes : List UInt8) : JsString :=
  js (String.ofList ((Fips180.hexDigits (Fips180.ofBytes bytes)).map Nat.digitChar))

def signPlaylistCommerceWebhookPayloadServer (payload secret : JsString) : JsString :=
  js "sha256=" ++ hexDigest (createHmac secret payload)

/-- `Buffer.from` makes the bytes of a text that `TextEncoder` does. -/
def constantTimeEqual (left right : JsString) : Bool :=
  let leftBytes := textEncode left
  let rightBytes := textEncode right
  if leftBytes.length ≠ rightBytes.length then false else leftBytes == rightBytes

/-- What `validatePlaylistCommerceWebhookEnvelope` says of the signature in the headers. -/
def signatureErrors (signature payload secret : JsString) : List JsString :=
  if signature ≠ signPlaylistCommerceWebhookPayload payload secret then [js "signature-mismatch"]
  else []

/-- What `verifyPlaylistCommerceWebhookEnvelopeServer` says of the signature in the headers, under the
secret of the key that they name. -/
def signatureErrorsServer (signature payload secret : JsString) : List JsString :=
  let expectedSignature := signPlaylistCommerceWebhookPayloadServer payload secret
  if !constantTimeEqual signature expectedSignature then [js "signature-mismatch"] else []

end Agid.PlaylistWebhook
