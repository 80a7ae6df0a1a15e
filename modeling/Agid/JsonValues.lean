import Agid.Clock
import Agid.JsText
import Agid.Lib.JsonText

/-!
# Parsed JSON

The values that `JSON.parse` gives, and what the sources do with a value whose type nothing has
checked: read a field of it, compare it with `===`, make a string of it.
-/

namespace Agid

open JsonText (ascii Plain)

/-- A number of a JSON text.  An integer below 10²¹ prints its digits, every other finite number a
text of digits, points, signs and `e`; one that is too large for a double is infinite. -/
inductive JsonNumber where
  | int (z : ℤ)
  | other (text : JsString) (plain : Plain text)
  | infinite (negative : Bool)
deriving DecidableEq

namespace JsonNumber

/-- `String(n)`. -/
def text : JsonNumber → JsString
  | int z => js (toString z)
  | other text _ => text
  | infinite negative => js (if negative then "-Infinity" else "Infinity")

/-- `JSON.stringify(n)`. -/
def json : JsonNumber → JsString
  | infinite _ => js "null"
  | n => n.text

def MAX_SAFE_INTEGER : ℤ := 9007199254740991

/-- The integer, where `Number.isSafeInteger(n)`. -/
def safeInteger? : JsonNumber → Option ℤ
  | int z => if -MAX_SAFE_INTEGER ≤ z ∧ z ≤ MAX_SAFE_INTEGER then some z else none
  | _ => none

end JsonNumber

theorem plain_half : Plain (js "0.5") := by decide

abbrev JsonValue := JsonText.Value JsonNumber

/-- `JSON.stringify(v)`. -/
def stringify (v : JsonValue) : JsString := JsonText.write JsonNumber.json v

/-! ## A value that may be `undefined` -/

namespace JsonValue

/-- `v === w`.  Two arrays or objects that were parsed are never the same one. -/
def same : Option JsonValue → Option JsonValue → Bool
  | none, none => true
  | some .null, some .null => true
  | some (.bool a), some (.bool b) => a = b
  | some (.number m), some (.number n) => m = n
  | some (.string s), some (.string t) => s = t
  | _, _ => false

/-- A field of an object, by its name. -/
def member (name : JsString) : List (JsString × JsonValue) → Option JsonValue
  | [] => none
  | (key, v) :: members => if key = name then some v else member name members

mutual

/-- What an array joins for an item of it, none where it throws: an object with a `toString` of its
own, which is no function. -/
def itemText : JsonValue → Option JsString
  | .null => some []
  | .bool b => some (js (if b then "true" else "false"))
  | .number n => some n.text
  | .string s => some s
  | .array [] => some []
  | .array (item :: items) => do some ((← itemText item) ++ (← restText items))
  | .object members =>
    if (member (js "toString") members).isSome then none else some (js "[object Object]")

def restText : List JsonValue → Option JsString
  | [] => some []
  | item :: items => do some (js "," ++ (← itemText item) ++ (← restText items))

end

/-- `String(v)`. -/
def text : Option JsonValue → Option JsString
  | none => some (js "undefined")
  | some .null => some (js "null")
  | some v => itemText v

/-- Whether `v` counts as true. -/
def truthy : Option JsonValue → Bool
  | none | some .null => false
  | some (.bool b) => b
  | some (.number n) => n ≠ .int 0
  | some (.string s) => s ≠ []
  | some _ => true

end JsonValue

/-! ## What is thrown -/

/-- An error of the sources, by its message, or an exception of the platform. -/
inductive Thrown where
  | error (message : JsString)
  | platform

namespace JsonValue

/-- What `v.name` reads, where `name` is no property that every object, array or string has. -/
def get (v : Option JsonValue) (name : String) : Except Thrown (Option JsonValue) :=
  match v with
  | none | some .null => .error .platform
  | some (.object members) => .ok (member (js name) members)
  | some _ => .ok none

/-- `p.test(v)`, where `p` is the regular expression as a test of a string. -/
def test (p : JsString → Bool) (v : Option JsonValue) : Except Thrown Bool :=
  match text v with
  | some s => .ok (p s)
  | none => .error .platform

end JsonValue

/-- `if (!holds) throw new Error(message)`. -/
def require (holds : Bool) (message : JsString) : Except Thrown Unit :=
  if holds then .ok () else .error (.error message)

/-! ## Regular expressions -/

def isDigit (c : CodeUnit) : Bool := 48 ≤ c.val && c.val ≤ 57

def isLowerLetter (c : CodeUnit) : Bool := 97 ≤ c.val && c.val ≤ 122

/-- `/^[a-z0-9][a-z0-9._:-]{0,127}$/`. -/
def isTechnicalId : JsString → Bool
  | [] => false
  | c :: s => (isLowerLetter c || isDigit c) && s.length ≤ 127
    && s.all fun d => isLowerLetter d || isDigit d || [46, 95, 58, 45].contains d

/-- `/^sha256:[a-f0-9]{64}$/`. -/
def isSha256 (s : JsString) : Bool :=
  s.take 7 = js "sha256:" && (s.drop 7).length = 64
    && (s.drop 7).all fun c => isDigit c || (97 ≤ c.val && c.val ≤ 102)

/-- Whether a string has the shape, in which a 0 stands for any digit. -/
def hasShape : JsString → JsString → Bool
  | [], [] => true
  | d :: shape, c :: s => (if d = 48 then isDigit c else c = d) && hasShape shape s
  | _, _ => false

/-- `/^\d{4}-\d{2}-\d{2}T\d{2}:\d{2}:\d{2}(?:\.\d{3})?Z$/`. -/
def isExactUtc (s : JsString) : Bool :=
  hasShape (js "0000-00-00T00:00:00Z") s || hasShape (js "0000-00-00T00:00:00.000Z") s

def isBase64Unit (c : CodeUnit) : Bool :=
  isLowerLetter c || (65 ≤ c.val && c.val ≤ 90) || isDigit c || c = 43 || c = 47

/-- `/^[A-Za-z0-9+/]+={0,2}$/`. -/
def isBase64 (s : JsString) : Bool :=
  let letters := s.takeWhile isBase64Unit
  let padding := s.dropWhile isBase64Unit
  letters ≠ [] && padding.length ≤ 2 && padding.all (· = 61)

example : isTechnicalId (js "reviewer-1") ∧ isExactUtc (js "2026-01-31T09:00:00.000Z") := by decide

end Agid
