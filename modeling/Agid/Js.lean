import Agid.Lib.JsonText

/-!
# JavaScript values

The strings and the number operations the TypeScript sources use.  A string is its list of UTF-16
code units.  A number that the code keeps integral is an `ℤ`, and so is a `bigint`; the bit
operators on numbers go through 32 bits, those on `bigint` do not.
-/

namespace Agid

/-- A UTF-16 code unit. -/
abbrev CodeUnit := Fin 65536

abbrev JsString := List CodeUnit

instance lawfulBEq_units : LawfulBEq CodeUnit := inferInstance

instance lawfulBEq_strings : LawfulBEq JsString := inferInstance

/-- The code units of a text of characters below U+10000, as every literal of the sources is. -/
def js (s : String) : JsString := s.toList.map fun c => Fin.ofNat 65536 c.toNat

/-- `s[i]` put into a string: an index outside of the string reads `undefined`. -/
def textAt (s : JsString) (i : ℤ) : JsString :=
  if 0 ≤ i then
    match s[i.toNat]? with
    | some c => [c]
    | none => js "undefined"
  else js "undefined"

/-- `s.includes(t)`. -/
def includes (s t : JsString) : Bool := s.tails.any (t.isPrefixOf ·)

/-- A number that the code does not keep integral, or finite. -/
inductive JsNumber where
  | finite (q : ℚ)
  | infinity
  | negInfinity
  | nan

/-- `ToInt32`. -/
def toInt32 (x : ℤ) : ℤ := (BitVec.ofInt 32 x).toInt

/-- `x >>> 0`. -/
def toUint32 (x : ℤ) : ℤ := (BitVec.ofInt 32 x).toNat

/-- `x & s` on numbers. -/
def bitAnd (x s : ℤ) : ℤ := (BitVec.ofInt 32 x &&& BitVec.ofInt 32 s).toInt

/-- `(x / 10 | 0)` on a non-negative number, as `ToInt32` of the quotient cut to an integer. -/
def tenthOrZero (x : ℤ) : ℤ := toInt32 (x.tdiv 10)

end Agid
