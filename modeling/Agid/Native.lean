import Agid.Js

/-!
# The native core

`native/agid-core/src/lib.rs`, as built in release mode: the arithmetic of `u32` and `u64` wraps.
The projection between cells and coordinates is floating point and stands as a parameter.
-/

namespace Agid

/-- A latitude and longitude in degrees. -/
structure LatLon where
  lat : ℚ
  lon : ℚ
deriving DecidableEq

namespace Native

abbrev U32 := BitVec 32
abbrev U64 := BitVec 64

/-- `2^21`. -/
def K : U32 := 2097152

/-- `2^21 - 1`. -/
def M : U32 := 2097151

def rot (n x y rx ry : U32) : U32 × U32 :=
  if ry = 0 then
    if rx = 1 then
      let x := n - 1 - x
      let y := n - 1 - y
      (y, x)
    else (y, x)
  else (x, y)

/-- The loop of `encode_hilbert` from the step `s` on. -/
def encodeLoop (s x y : U32) (d : U64) : U64 :=
  if h : 0 < s then
    let rx : U32 := if 0 < x &&& s then 1 else 0
    let ry : U32 := if 0 < y &&& s then 1 else 0
    let d := d + s.setWidth 64 * s.setWidth 64 * ((3 * rx) ^^^ ry).setWidth 64
    let p := rot s x y rx ry
    encodeLoop (s / 2) p.1 p.2 d
  else d
termination_by s.toNat
decreasing_by
  have hs : 0 < s.toNat := h
  have h2 : (2 : U32).toNat = 2 := rfl
  rw [BitVec.toNat_udiv, h2]
  omega

def encodeHilbert (n x y : U32) : U64 := encodeLoop (n / 2) x y 0

/-- The loop of `decode_hilbert` from the step `s` on.  `s` starts at 1 and doubles, so it is
positive as long as `n` is at most `2^31`; the exports pass `K`. -/
def decodeLoop (n s x y : U32) (t : U64) : U32 × U32 :=
  if h : 0 < s ∧ s < n ∧ n.toNat ≤ 2 ^ 31 then
    let rx : U32 := (t / 2 &&& 1).setWidth 32
    let ry : U32 := ((t ^^^ rx.setWidth 64) &&& 1).setWidth 32
    let p := rot s x y rx ry
    decodeLoop n (s * 2) (p.1 + s * rx) (p.2 + s * ry) (t / 4)
  else (x, y)
termination_by n.toNat - s.toNat
decreasing_by
  have hs : 0 < s.toNat := h.1
  have hn : s.toNat < n.toNat := h.2.1
  have h2 : (2 : U32).toNat = 2 := rfl
  rw [BitVec.toNat_mul, h2]
  omega

def decodeHilbert (n : U32) (d : U64) : U32 × U32 := decodeLoop n 1 0 0 d

/-- `a.min(b)`. -/
def minU32 (a b : U32) : U32 := if b < a then b else a

def agidEncodeHilbertHi (qx qy : U32) : U32 :=
  (encodeHilbert K (minU32 qx M) (minU32 qy M) >>> 32).setWidth 32

def agidEncodeHilbertLo (qx qy : U32) : U32 :=
  (encodeHilbert K (minU32 qx M) (minU32 qy M) &&& 0xFFFFFFFF).setWidth 32

/-- `((hi as u64) << 32) | lo as u64`. -/
def joinWords (hi lo : U32) : U64 := hi.setWidth 64 <<< 32 ||| lo.setWidth 64

def agidDecodeHilbertX (hi lo : U32) : U32 := (decodeHilbert K (joinWords hi lo)).1

def agidDecodeHilbertY (hi lo : U32) : U32 := (decodeHilbert K (joinWords hi lo)).2

section Projection

variable (project : ℤ → ℚ → ℚ → LatLon)

/-- `project` is the inverse projection, of a face and a place on it. -/
def getFromQuantized (face qx qy : U32) : LatLon := project face.toNat qx.toNat qy.toNat

def agidGetLat (face qx qy : U32) : ℚ :=
  (getFromQuantized project face (minU32 qx M) (minU32 qy M)).lat

def agidGetLon (face qx qy : U32) : ℚ :=
  (getFromQuantized project face (minU32 qx M) (minU32 qy M)).lon

end Projection

end Native

end Agid
