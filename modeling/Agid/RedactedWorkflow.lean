import Agid.JsonValues

/-!
# Cleaned values

What `src/lib/redactedWorkflowCore.ts` makes of a value whose type nothing has checked: texts,
numbers and booleans, and an identifier that is the hash of a value.
-/

namespace Agid.RedactedWorkflow

/-- `toNumber` is `Number(text)`, and `sha256Hex` has the digits of the hash of a text. -/
structure Platform where
  numberValue : JsonNumber → JsNumber
  toNumber : JsString → JsNumber
  toLowerCase : JsString → JsString
  toUpperCase : JsString → JsString
  sha256Hex : JsString → JsString

/-! ## Texts of values -/

mutual

/-- The members of every object in the order of their keys. -/
def sortKeys : JsonValue → JsonValue
  | .array items => .array (sortItems items)
  | .object members => .object ((sortMembers members).insertionSort fun a b => a.1 ≤ b.1)
  | v => v

def sortItems : List JsonValue → List JsonValue
  | [] => []
  | v :: items => sortKeys v :: sortItems items

def sortMembers : List (JsString × JsonValue) → List (JsString × JsonValue)
  | [] => []
  | (k, v) :: members => (k, sortKeys v) :: sortMembers members

end

def stableJson (value : JsonValue) : JsString := stringify (sortKeys value)

section Clean

variable (P : Platform)

/-- With the separator `-`, in capitals. -/
def stableId (name : String) (seed : JsonValue) (length : ℕ) : JsString :=
  js name ++ js "-" ++ P.toUpperCase ((P.sha256Hex (stableJson seed)).take length)

/-! ## Values -/

def asRecord : Option JsonValue → List (JsString × JsonValue)
  | some (.object members) => members
  | _ => []

def asArray : Option JsonValue → List JsonValue
  | some (.array items) => items
  | _ => []

/-- `record.name`. -/
def field (record : List (JsString × JsonValue)) (name : String) : Option JsonValue :=
  JsonValue.member (js name) record

def cleanText (value : Option JsonValue) : JsString :=
  match value with
  | some (.string s) => trim s
  | _ => []

/-- `cleanText(value, '', maxLength)`. -/
def cleanTextTo (maxLength : ℕ) (value : Option JsonValue) : JsString :=
  (cleanText value).take maxLength

def cleanTextArray (value : Option JsonValue) : List JsString :=
  match value with
  | some (.array items) => (items.map fun item => cleanText (some item)).filter (· ≠ [])
  | value => [cleanText value].filter (· ≠ [])

def finite? : JsNumber → Option ℚ
  | .finite q => some q
  | _ => none

def cleanNumber (value : Option JsonValue) (fallback : ℚ) : ℚ :=
  match value with
  | some (.number n) => (finite? (P.numberValue n)).getD fallback
  | some (.string s) =>
    if trim s ≠ [] then (finite? (P.toNumber s)).getD fallback else fallback
  | _ => fallback

def cleanNonNegativeInteger (value : Option JsonValue) (fallback : ℚ) : ℕ :=
  ⌊cleanNumber P value fallback⌋.toNat

def cleanBoolean (value : Option JsonValue) (fallback : Bool) : Bool :=
  match value with
  | some (.bool b) => b
  | some (.number n) =>
    match P.numberValue n with
    | .finite q => q ≠ 0
    | _ => true
  | some (.string s) =>
    let normalized := P.toLowerCase (trim s)
    if normalized ∈ ["true", "yes", "1", "on"].map js then true
    else if normalized ∈ ["false", "no", "0", "off"].map js then false
    else fallback
  | _ => fallback

end Clean

end Agid.RedactedWorkflow
