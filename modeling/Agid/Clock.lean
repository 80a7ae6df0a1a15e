import Agid.Js
import Agid.Lib.Record

/-!
# Keys and vector clocks

The text cleaning and the clocks of `src/lib/addressOfflineSyncCrdt.ts`.  A clock as a caller
gives it holds any numbers under any keys; the functions below return clean keys and natural
numbers, and clean a clock again whenever they read it.

The records are plain maps.  Under a name of `Object.prototype` an object of the source also sees
what it inherits, so nothing here speaks of those names.
-/

namespace Agid

/-- The platform's `normalize('NFKC')`, which leaves ASCII text as it is. -/
structure Nfkc where
  normalize : JsString → JsString
  ascii : ∀ s : JsString, (∀ c ∈ s, c.val < 128) → normalize s = s

/-- The white space and line ends that `trim` drops. -/
def isWhiteSpace (c : CodeUnit) : Bool :=
  (9 ≤ c.val && c.val ≤ 13) || (8192 ≤ c.val && c.val ≤ 8202)
    || [32, 160, 5760, 8232, 8233, 8239, 8287, 12288, 65279].contains c.val

def trim (s : JsString) : JsString := (s.dropWhile isWhiteSpace).rdropWhile isWhiteSpace

theorem id_ascii (s : JsString) (_ : ∀ c ∈ s, c.val < 128) : id s = s := rfl

theorem id_trim (s : JsString) : id (trim (id s)) = trim (id s) := rfl

/-- `s.replace(/[…]+/g, u)`: each run of units of the class becomes one `u`. -/
def replaceRuns (p : CodeUnit → Bool) (u : CodeUnit) : Bool → JsString → JsString
  | _, [] => []
  | inRun, c :: s =>
    if p c then if inRun then replaceRuns p u true s else u :: replaceRuns p u true s
    else c :: replaceRuns p u false s

/-- The properties every object inherits. -/
def objectPrototype : List JsString :=
  ["constructor", "__defineGetter__", "__defineSetter__", "hasOwnProperty", "__lookupGetter__",
    "__lookupSetter__", "isPrototypeOf", "propertyIsEnumerable", "toString", "valueOf",
    "__proto__", "toLocaleString"].map js

namespace AddressOfflineCrdt

def isLineBreak (c : CodeUnit) : Bool := c.val = 13 || c.val = 10 || c.val = 9

/-- `[a-zA-Z0-9:._-]`. -/
def isKeyUnit (c : CodeUnit) : Bool :=
  (97 ≤ c.val && c.val ≤ 122) || (65 ≤ c.val && c.val ≤ 90) || (48 ≤ c.val && c.val ≤ 58)
    || c.val = 46 || c.val = 95 || c.val = 45

def hyphen : CodeUnit := 45

def space : CodeUnit := 32

/-- A clock as given by a caller. -/
abbrev RawClock := Record JsString JsNumber

abbrev Clock := Record JsString ℕ

def Clock.raw (c : Clock) : RawClock := c.map fun n : ℕ => .finite n

/-- `c[actor] ?? 0`. -/
def Clock.count (c : Clock) (actor : JsString) : ℕ := (c.get? actor).getD 0

inductive ClockOrder where
  | equal
  | before
  | after
  | concurrent
deriving DecidableEq

section Clean

variable (nfkc : Nfkc)

def cleanText (value : Option JsString) (fallback : JsString) : JsString :=
  match value with
  | some s => replaceRuns isLineBreak space false (trim (nfkc.normalize s))
  | none => fallback

def cleanKey (value : Option JsString) (fallback : JsString) : JsString :=
  let key := replaceRuns (!isKeyUnit ·) hyphen false (cleanText nfkc value fallback)
  let key := ((key.dropWhile (· = hyphen)).rdropWhile (· = hyphen)).take 120
  if key = [] then fallback else key

/-- `Math.max(0, Math.floor(value))` where it is finite. -/
def finiteCount : JsNumber → Option ℕ
  | .finite q => some ⌊q⌋.toNat
  | .negInfinity => some 0
  | .infinity => none
  | .nan => none

def normalizeClock (clock : Option RawClock) : Clock :=
  (clock.getD .empty).entries.foldl (fun result e =>
    let key := cleanKey nfkc (some e.1) []
    match finiteCount e.2 with
    | some numeric => if key ≠ [] then result.set key numeric else result
    | none => result) .empty

def localActor : JsString := js "local-actor"

def incrementClock (clock : Option RawClock) (actorId : JsString) : Clock :=
  let next := normalizeClock nfkc clock
  let actor := cleanKey nfkc (some actorId) localActor
  next.set actor (next.count actor + 1)

def joinClocks (left right : Option RawClock) : Clock :=
  let normalizedLeft := normalizeClock nfkc left
  let normalizedRight := normalizeClock nfkc right
  (normalizedLeft.keys ++ normalizedRight.keys).foldl (fun result actor =>
    result.set actor (max (normalizedLeft.count actor) (normalizedRight.count actor))) .empty

def compareClocks (left right : Option RawClock) : ClockOrder :=
  let normalizedLeft := normalizeClock nfkc left
  let normalizedRight := normalizeClock nfkc right
  let actors := normalizedLeft.keys ++ normalizedRight.keys
  let leftLess := actors.any fun actor => normalizedLeft.count actor < normalizedRight.count actor
  let leftGreater := actors.any fun actor => normalizedLeft.count actor > normalizedRight.count actor
  if !leftLess && !leftGreater then .equal
  else if leftLess && !leftGreater then .before
  else if !leftLess && leftGreater then .after
  else .concurrent

end Clean

end AddressOfflineCrdt

end Agid
