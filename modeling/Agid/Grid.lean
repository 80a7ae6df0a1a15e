import Agid.Native

/-!
# The grid code of an AGID

`src/lib/agid.ts` from a quantized cell to its hash and back, with the checks of
`src/lib/agidSecurity.ts`.  Every function that asks for the native core takes it as an argument:
`none` until it is loaded, and then the exports of `agidCore`.  The native core's arguments and
results pass through 32 bits, and JavaScript reads its results as signed.
-/

namespace Agid

/-- The exports `src/lib/agidWasm.ts` asks for, as functions of JavaScript numbers. -/
structure AgidWasmExports where
  agidEncodeHilbertHi : ℤ → ℤ → ℤ
  agidEncodeHilbertLo : ℤ → ℤ → ℤ
  agidDecodeHilbertX : ℤ → ℤ → ℤ
  agidDecodeHilbertY : ℤ → ℤ → ℤ
  agidGetLat : ℤ → ℤ → ℤ → ℚ
  agidGetLon : ℤ → ℤ → ℤ → ℚ

/-- A number passed to the native core. -/
def toI32 (x : ℤ) : Native.U32 := BitVec.ofInt 32 x

/-- The native core as JavaScript sees it. -/
def agidCore (project : ℤ → ℚ → ℚ → LatLon) : AgidWasmExports where
  agidEncodeHilbertHi qx qy := (Native.agidEncodeHilbertHi (toI32 qx) (toI32 qy)).toInt
  agidEncodeHilbertLo qx qy := (Native.agidEncodeHilbertLo (toI32 qx) (toI32 qy)).toInt
  agidDecodeHilbertX hi lo := (Native.agidDecodeHilbertX (toI32 hi) (toI32 lo)).toInt
  agidDecodeHilbertY hi lo := (Native.agidDecodeHilbertY (toI32 hi) (toI32 lo)).toInt
  agidGetLat face qx qy := Native.agidGetLat project (toI32 face) (toI32 qx) (toI32 qy)
  agidGetLon face qx qy := Native.agidGetLon project (toI32 face) (toI32 qx) (toI32 qy)

/-- The core in use: the native one once it is loaded. -/
def getAgidWasmCore (project : ℤ → ℚ → ℚ → LatLon) (loaded : Bool) : Option AgidWasmExports :=
  if loaded then some (agidCore project) else none

def combineWasmU32Pair (hi lo : ℤ) : ℤ := Int.lor (toUint32 hi <<< (32 : ℕ)) (toUint32 lo)

/-! ## The Hilbert curve -/

def AGID_GRID_AXIS_BITS : ℕ := 21

def AGID_GRID_AXIS_CELLS : ℕ := 2 ^ AGID_GRID_AXIS_BITS

def K : ℕ := AGID_GRID_AXIS_CELLS

/-- A quantized cell. -/
structure Cell where
  face : ℕ
  qx : ℕ
  qy : ℕ
  face_lt : face < 6
  qx_lt : qx < K
  qy_lt : qy < K

def rot (n x y rx ry : ℤ) : ℤ × ℤ :=
  if ry = 0 then
    if rx = 1 then
      let x := n - 1 - x
      let y := n - 1 - y
      (y, x)
    else (y, x)
  else (x, y)

/-- The loop of `encodeHilbert` from the step `s` on.  `x` and `y` keep their bits above `s`, and
go below zero where `rot` reflects them. -/
def encodeHilbertLoop (s : ℕ) (x y d : ℤ) : ℤ :=
  if 0 < s then
    let rx : ℕ := if 0 < bitAnd x s then 1 else 0
    let ry : ℕ := if 0 < bitAnd y s then 1 else 0
    let d := d + s * s * ((3 * rx) ^^^ ry : ℕ)
    let p := rot s x y rx ry
    encodeHilbertLoop (s / 2) p.1 p.2 d
  else d
termination_by s
decreasing_by omega

def encodeHilbert (wasmCore : Option AgidWasmExports) (n : ℕ) (x y : ℤ) : ℤ :=
  match wasmCore with
  | some core =>
    if n = K then
      combineWasmU32Pair (core.agidEncodeHilbertHi x y) (core.agidEncodeHilbertLo x y)
    else encodeHilbertLoop (n / 2) x y 0
  | none => encodeHilbertLoop (n / 2) x y 0

/-- The loop of `decodeHilbert` from the step `s`, which starts at 1, on. -/
def decodeHilbertLoop (n s : ℕ) (x y t : ℤ) : ℤ × ℤ :=
  if 0 < s ∧ s < n then
    let rx := Int.land 1 (t.tdiv 2)
    let ry := Int.land 1 (Int.xor t rx)
    let p := rot s x y rx ry
    decodeHilbertLoop n (s * 2) (p.1 + s * rx) (p.2 + s * ry) (t.tdiv 4)
  else (x, y)
termination_by n - s
decreasing_by omega

def decodeHilbert (wasmCore : Option AgidWasmExports) (n : ℕ) (d : ℤ) : ℤ × ℤ :=
  match wasmCore with
  | some core =>
    if n = K then
      let hi := Int.land (d >>> (32 : ℕ)) 0xFFFFFFFF
      let lo := Int.land d 0xFFFFFFFF
      (core.agidDecodeHilbertX hi lo, core.agidDecodeHilbertY hi lo)
    else decodeHilbertLoop n 1 0 0 d
  | none => decodeHilbertLoop n 1 0 0 d

/-! ## The packed value and its hash -/

def packAGID (face h : ℤ) : ℤ := Int.lor (face <<< (42 : ℕ)) h

/-- The face and the place on its curve. -/
def unpackAGID (packed : ℤ) : ℤ × ℤ := (packed >>> (42 : ℕ), Int.land packed ((1 <<< (42 : ℕ)) - 1))

def AGID_FACE_COUNT : ℤ := 6

def AGID_PACKED_BITS_USED : ℕ := 45

def AGID_MAX_PACKED_VALUE : ℤ := (1 <<< AGID_PACKED_BITS_USED) - 1

def isAgidPackedValueInRange (packedValue : ℤ) : Bool :=
  if packedValue < 0 ∨ packedValue > AGID_MAX_PACKED_VALUE then false
  else
    let face := packedValue >>> (42 : ℕ)
    decide (face ≥ 0 ∧ face < AGID_FACE_COUNT)

def BASE32_ALPHABET : JsString := js "0123456789ABCDEFGHJKMNPQRSTVWXYZ"

/-- The loop of `encodeBase32`, the digits found so far in `result`. -/
def encodeBase32Loop : ℕ → ℤ → JsString → JsString
  | 0, _, result => result
  | i + 1, temp, result =>
    let index := temp.tmod 32
    encodeBase32Loop i (temp.tdiv 32) (textAt BASE32_ALPHABET index ++ result)

def encodeBase32 (value : ℤ) (length : ℕ) : JsString := encodeBase32Loop length value []

/-- The loop of `decodeBase32` over what is left of the hash. -/
def decodeBase32Loop : JsString → ℤ → Except JsString ℤ
  | [], result => .ok result
  | c :: hash, result =>
    match BASE32_ALPHABET.idxOf? c with
    | none => .error (js "Invalid character in AGID: " ++ [c])
    | some index => decodeBase32Loop hash (result * 32 + index)

def decodeBase32 (hash : JsString) : Except JsString ℤ := decodeBase32Loop hash 0

def AGID_HASH_LENGTH : ℕ := 10

def AGID_PREFIX_LENGTH : ℕ := 2

/-- The hash `encodeAGID` writes after the prefix. -/
def encodeAGIDHash (wasmCore : Option AgidWasmExports) (face qx qy : ℤ) : JsString :=
  encodeBase32 (packAGID face (encodeHilbert wasmCore K qx qy)) AGID_HASH_LENGTH

/-- The face and cell `decodeAGID` reads from a hash; an error of `decodeBase32` is caught. -/
def decodeAGIDHash (wasmCore : Option AgidWasmExports) (hash : JsString) : Option (ℤ × ℤ × ℤ) :=
  match decodeBase32 hash with
  | .error _ => none
  | .ok packedValue =>
    if isAgidPackedValueInRange packedValue then
      let u := unpackAGID packedValue
      let q := decodeHilbert wasmCore K u.2
      some (u.1, q.1, q.2)
    else none

/-- `AGID_FORMAT_PATTERN` on an id already trimmed and upper-cased. -/
def isValidAGIDFormat (id : JsString) : Bool :=
  id.length = AGID_PREFIX_LENGTH + AGID_HASH_LENGTH
    && (id.take AGID_PREFIX_LENGTH).all (fun c => c ∈ js "0123456789ABCDEFGHIJKLMNOPQRSTUVWXYZ")
    && (id.drop AGID_PREFIX_LENGTH).all (fun c => c ∈ BASE32_ALPHABET)

/-! ## Cells -/

section Cells

variable (wasmCore : Option AgidWasmExports) (project : ℤ → ℚ → ℚ → LatLon)

/-- `project` is the inverse projection both cores compute.  A coordinate that is not an integer
stays with the TypeScript core. -/
def getFromQuantized (face : ℤ) (qx qy : ℚ) : LatLon :=
  match wasmCore with
  | some core =>
    if qx.isInt && qy.isInt then
      ⟨core.agidGetLat face qx.num qy.num, core.agidGetLon face qx.num qy.num⟩
    else project face qx qy
  | none => project face qx qy

def getCellCorners (face : ℤ) (quantX quantY step : ℚ) : List LatLon :=
  let p1 := getFromQuantized wasmCore project face quantX quantY
  let p2 := getFromQuantized wasmCore project face (quantX + step) quantY
  let p3 := getFromQuantized wasmCore project face (quantX + step) (quantY + step)
  let p4 := getFromQuantized wasmCore project face quantX (quantY + step)
  [p1, p2, p3, p4]

/-- A corner's longitude moved to within half a turn of the first corner's. -/
def adjustCorner (refLon : ℚ) (corner : LatLon) : LatLon :=
  let lon := corner.lon
  if lon - refLon > 180 then { corner with lon := lon - 360 }
  else if lon - refLon < -180 then { corner with lon := lon + 360 }
  else corner

def getAdjustedCellCorners (face : ℤ) (quantX quantY step : ℚ) : List LatLon :=
  let corners := getCellCorners wasmCore project face quantX quantY step
  let refLon := (corners.headD ⟨0, 0⟩).lon
  corners.map (adjustCorner refLon)

structure CellBounds where
  minLat : ℚ
  maxLat : ℚ
  minLon : ℚ
  maxLon : ℚ
deriving DecidableEq

/-- `Math.min(...xs)` of the corners' values. -/
def minOf (xs : List ℚ) : ℚ := xs.foldl min (xs.headD 0)

/-- `Math.max(...xs)` of the corners' values. -/
def maxOf (xs : List ℚ) : ℚ := xs.foldl max (xs.headD 0)

def getCellBounds (face : ℤ) (quantX quantY step : ℚ) : CellBounds :=
  let corners := getAdjustedCellCorners wasmCore project face quantX quantY step
  { minLat := minOf (corners.map LatLon.lat)
    maxLat := maxOf (corners.map LatLon.lat)
    minLon := minOf (corners.map LatLon.lon)
    maxLon := maxOf (corners.map LatLon.lon) }

end Cells

end Agid
