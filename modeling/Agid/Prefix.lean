import Agid.Js
import Agid.Lib.Record

/-!
# The region prefix

`generatePrefix` of `src/lib/agid.ts`.  `PREFIX_CACHE` is module state: a call takes the cache as
the calls before it left it and returns the prefix with the cache it leaves.
-/

namespace Agid

def NUMBERS : JsString := js "0123456789"

def LETTERS : JsString := js "ABCDEFGHJKMNPQRSTVWXYZ"

def OPEN_OCEAN_CODES : ℤ := 220

def COASTAL_SEA_CODES : ℤ := 220

def OTHER_CODES : ℤ := 100

inductive PrefixCategory where
  | OPEN
  | COASTAL
  | OTHER
deriving DecidableEq

def get2CharPrefix (val : ℤ) : PrefixCategory → JsString
  | .OPEN =>
    let v := val.tmod OPEN_OCEAN_CODES
    let lIdx := v / 10
    let nIdx := v.tmod 10
    textAt LETTERS lIdx ++ textAt NUMBERS nIdx
  | .COASTAL =>
    let v := val.tmod COASTAL_SEA_CODES
    let nIdx := v / 22
    let lIdx := v.tmod 22
    textAt NUMBERS nIdx ++ textAt LETTERS lIdx
  | .OTHER =>
    let v := val.tmod OTHER_CODES
    let n1 := v / 10
    let n2 := v.tmod 10
    textAt NUMBERS n1 ++ textAt NUMBERS n2

abbrev PrefixCache := Record JsString JsString

def cacheKey (code : JsString) (isSea : Bool) : JsString :=
  code ++ js "_" ++ if isSea then js "true" else js "false"

def seaCodeMap : List (JsString × JsString) :=
  [(js "NPAC", js "P1"), (js "NEPC", js "P0"), (js "SPAC", js "P3"), (js "SEPC", js "P2"),
    (js "NATL", js "A1"), (js "SATL", js "A2"), (js "NIND", js "I1"), (js "SIND", js "I2"),
    (js "SOUT", js "S0"), (js "ARCT", js "R0")]

/-- The codes of `COUNTRIES`. -/
def countryCodes : List JsString :=
  ["JP", "CN", "KR", "TW", "HK", "MO", "MN", "KP", "TH", "ID", "VN", "MY", "PH", "SG", "MM",
    "KH", "LA", "BN", "TL", "IN", "PK", "BD", "LK", "NP", "BT", "MV", "AF", "US", "CA", "MX",
    "GL", "PM", "BM", "GT", "BZ", "SV", "HN", "NI", "CR", "PA", "CU", "JM", "HT", "DO", "PR",
    "BS", "AW", "CW", "SX", "BQ", "GP", "MQ", "MF", "BL", "BB", "TT", "DM", "LC", "VC", "GD",
    "AG", "KN", "VG", "KY", "MS", "TC", "AI", "BR", "AR", "CL", "CO", "PE", "VE", "EC", "BO",
    "PY", "UY", "GY", "SR", "GF", "FK", "GS", "GB", "FR", "DE", "IT", "ES", "NL", "BE", "CH",
    "AT", "SE", "NO", "DK", "FI", "IE", "PT", "GR", "RU", "UA", "PL", "CZ", "HU", "RO", "TR",
    "IS", "EE", "LV", "LT", "BY", "MD", "BG", "SK", "HR", "RS", "BA", "AL", "MK", "SI", "ME",
    "LU", "MT", "CY", "AD", "MC", "LI", "SM", "VA", "JE", "GG", "IM", "GI", "FO", "SJ", "SA",
    "AE", "IL", "IR", "IQ", "JO", "LB", "QA", "KW", "OM", "BH", "YE", "SY", "PS", "KZ", "UZ",
    "TM", "TJ", "KG", "GE", "AM", "AZ", "EG", "ZA", "NG", "KE", "ET", "MA", "DZ", "TN", "LY",
    "SD", "GH", "CI", "SN", "TZ", "UG", "ZM", "ZW", "AO", "MZ", "MG", "CM", "CD", "CG", "GA",
    "ML", "BF", "NE", "TD", "CF", "SS", "SO", "DJ", "ER", "RW", "BI", "MW", "NA", "BW", "LS",
    "SZ", "MU", "SC", "KM", "CV", "ST", "GQ", "GN", "GW", "SL", "LR", "BJ", "TG", "MR", "GM",
    "RE", "YT", "SH", "AC", "TA", "EH", "AU", "NZ", "FJ", "PG", "SB", "VU", "WS", "TO", "KI",
    "MH", "FM", "PW", "NR", "TV", "CK", "NU", "NC", "PF", "WF", "AS", "GU", "MP", "CX", "CC",
    "NF", "TK", "PN", "IO", "TF", "SBA", "AQ", "XK", "BT_T", "CRIM", "DONB", "KASH", "SCSD",
    "EEBD", "TRNC", "SLND", "PMR", "PHIS", "BAAR", "CYGL"].map js

/-- `/^[A-Z]{2}$/`. -/
def isTwoLetters (s : JsString) : Bool :=
  s.length = 2 && s.all fun c => 65 ≤ c.val ∧ c.val ≤ 90

/-- `/^[0-9]{2}$/`. -/
def isTwoDigits (s : JsString) : Bool :=
  s.length = 2 && s.all fun c => 48 ≤ c.val ∧ c.val ≤ 57

/-- The category of a sea code that contains none of the ocean codes. -/
def seaCategory (code name : JsString) : PrefixCategory :=
  let isOpen := (js "O_").isPrefixOf code || seaCodeMap.any fun e => includes code e.1
  if isOpen then .OPEN
  else
    let isCoastalType := includes name (js "Sea") || includes name (js "Coast")
      || includes name (js "Strait") || includes name (js "Bay") || includes name (js "Gulf")
      || includes name (js "Inlet") || includes name (js "Channel")
    let isBig5Coastal := includes name (js "Pacific") || includes name (js "Atlantic")
      || includes name (js "Indian") || includes name (js "Arctic")
      || includes name (js "Southern") || isCoastalType
    if isBig5Coastal then .COASTAL else .OPEN

/-- The sum of the code units of the name and the code. -/
def hashData (name code : JsString) : ℤ := (name ++ code).foldl (fun acc c => acc + c.val) 0

/-- One round of the hash loop: `hash = ((hash << 5) - hash) + c; hash |= 0`. -/
def hashStep (hash : ℤ) (c : CodeUnit) : ℤ := toInt32 (toInt32 (hash * 32) - hash + c.val)

def codeHash (code : JsString) : ℤ := |code.foldl hashStep 0|

/-- The loop that moves past the prefixes in the cache, with `left` of its 50 attempts to go. -/
def resolveCollision (cache : PrefixCache) (hash : ℤ) (category : PrefixCategory) :
    ℕ → JsString → JsString
  | 0, pre => pre
  | left + 1, pre =>
    if pre ∈ cache.values then
      let attempts : ℤ := 50 - (left + 1 : ℕ)
      resolveCollision cache hash category left (get2CharPrefix (hash + attempts + 1) category)
    else pre

section Generate

variable (toUpperCase : JsString → JsString)

/-- `toUpperCase` is the platform's.  A code that is not a sea's has returned before the hash. -/
def generatePrefix (cache : PrefixCache) (code : JsString) (isSea : Bool) (name : JsString) :
    JsString × PrefixCache :=
  let key := cacheKey code isSea
  let cached := (cache.get? key).getD []
  if cached ≠ [] then (cached, cache)
  else if isSea then
    match seaCodeMap.find? fun e => includes code e.1 with
    | some (_, shortCode) => (shortCode, cache.set key shortCode)
    | none =>
      let category := seaCategory code name
      let hash := codeHash code
      let pre := resolveCollision cache hash category 50 (get2CharPrefix hash category)
      let pre := if isSea && isTwoLetters pre then
        textAt NUMBERS (hash.tmod 10) ++ textAt LETTERS (hash.tmod 22) else pre
      let pre := if !isSea && !isTwoLetters pre && !isTwoDigits pre then
        textAt NUMBERS (hash.tmod 10) ++ textAt NUMBERS ((tenthOrZero hash).tmod 10) else pre
      (pre, cache.set key pre)
  else
    let upperCode := toUpperCase code
    let isIsoCountry := upperCode ∈ countryCodes || code.length = 2
    if isIsoCountry && isTwoLetters upperCode then (upperCode, cache.set key upperCode)
    else
      let hashData := hashData name code
      let n1 := textAt NUMBERS (hashData.tmod 10)
      let n2 := textAt NUMBERS ((tenthOrZero hashData).tmod 10)
      let finalCode := n1 ++ n2
      (finalCode, cache.set key finalCode)

/-- A call: its code, sea flag and name. -/
structure PrefixCall where
  code : JsString
  isSea : Bool
  name : JsString

/-- The cache a history of calls leaves, from the empty one of a fresh client. -/
def cacheAfter (history : List PrefixCall) : PrefixCache :=
  history.foldl (fun cache c => (generatePrefix toUpperCase cache c.code c.isSea c.name).2) .empty

/-- What the call returns on a client that has made the calls of the history. -/
def prefixAfter (history : List PrefixCall) (c : PrefixCall) : JsString :=
  (generatePrefix toUpperCase (cacheAfter toUpperCase history) c.code c.isSea c.name).1

end Generate

end Agid
