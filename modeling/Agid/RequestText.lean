import Agid.JsonValues
import Agid.SecurePos

/-!
# Texts of requests

What the registries do to the fields of a request before they look at them: times that are a `Date`
or a text, and pieces of their regular expressions.
-/

namespace Agid

/-- A `Date`, by its time unless that is `NaN`, or a text. -/
inductive Moment
  | date (time : Option ℤ)
  | text (s : JsString)

/-- `new Date(value).getTime()`, none for `NaN`. -/
def Moment.time (dates : Dates) : Moment → Option ℤ
  | date time => time
  | text s => dates.parse s

/-- The time of a value that is neither missing nor empty. -/
def presentTime (dates : Dates) : Option Moment → Option ℤ
  | none => none
  | some (.date time) => time
  | some (.text s) => if s = [] then none else dates.parse s

def isAsciiLetter (c : CodeUnit) : Bool :=
  (65 ≤ c.val && c.val ≤ 90) || (97 ≤ c.val && c.val ≤ 122)

/-- `\w`. -/
def isWordUnit (c : CodeUnit) : Bool := isAsciiLetter c || isDigit c || c = 95

def lowerAscii (c : CodeUnit) : CodeUnit := if 65 ≤ c.val ∧ c.val ≤ 90 then c + 32 else c

/-- What follows `\d{1,digits}\.\d+`. -/
def afterDecimal (digits : ℕ) (s : JsString) : Option JsString :=
  let whole := s.takeWhile isDigit
  match s.drop whole.length with
  | 46 :: fraction =>
    if 1 ≤ whole.length ∧ whole.length ≤ digits ∧ (fraction.takeWhile isDigit) ≠ [] then
      some (fraction.dropWhile isDigit)
    else none
  | _ => none

end Agid
