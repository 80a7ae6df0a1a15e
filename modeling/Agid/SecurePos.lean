import Agid.Clock

/-!
# The registry check of a POS terminal

`verifyAgidSecurePosRegistry` of `src/lib/agidSecurePos.ts` and what it reads.  Text that is no time
reads as none.
-/

namespace Agid

/-- `Date`: the text of a time, which is a number of milliseconds, and the time of a text. -/
structure Dates where
  toISOString : ℤ → JsString
  parse : JsString → Option ℤ
  toISOString_ne_nil : ∀ t, toISOString t ≠ []
  parse_toISOString : ∀ t, |t| ≤ 8640000000000000 → parse (toISOString t) = some t

/-- The time of `new Date(n)`, in whole milliseconds. -/
def timeClip : JsNumber → Option ℤ
  | .finite q =>
    if |q| ≤ 8640000000000000 then some (if 0 ≤ q then ⌊q⌋ else ⌈q⌉) else none
  | _ => none

/-- `n + k`. -/
def JsNumber.plus (n : JsNumber) (k : ℚ) : JsNumber :=
  match n with
  | .finite q => .finite (q + k)
  | n => n

/-- `t <= n`. -/
def JsNumber.atLeast (n : JsNumber) (t : ℤ) : Bool :=
  match n with
  | .finite q => t ≤ q
  | .infinity => true
  | .negInfinity => false
  | .nan => false

/-- `[0-9A-Z]`. -/
def isUpperAlphanumeric (c : CodeUnit) : Bool :=
  (48 ≤ c.val && c.val ≤ 57) || (65 ≤ c.val && c.val ≤ 90)

/-- `/^[0-9A-Z]{16,64}$/`. -/
def matchesJti (s : JsString) : Bool :=
  s.all isUpperAlphanumeric && 16 ≤ s.length && s.length ≤ 64

/-- `/^[A-Za-z0-9._:-]{1,48}$/`. -/
def matchesKeyId (s : JsString) : Bool :=
  s.all AddressOfflineCrdt.isKeyUnit && 1 ≤ s.length && s.length ≤ 48

/-- A text that is not empty. -/
def nonEmpty (s : JsString) : Option JsString := if s = [] then none else some s

/-- `Math.imul` and the exclusive or on 32 bits. -/
def stableHash (value : JsString) : ℕ :=
  (value.foldl (fun hash c => (hash ^^^ BitVec.ofNat 32 c.val) * 0x01000193#32) 0x811c9dc5#32).toNat

/-- `n.toString(36).toUpperCase()`. -/
def base36 (n : ℕ) : JsString :=
  let digit (d : ℕ) : CodeUnit := if d < 10 then Fin.ofNat _ (48 + d) else Fin.ofNat _ (55 + d)
  if n = 0 then js "0" else (Nat.digits 36 n).reverse.map digit

/-- `new Date(now).toISOString()`. -/
def nowIso (dates : Dates) (now : JsNumber) : Except JsString JsString :=
  match timeClip now with
  | some t => .ok (dates.toISOString t)
  | none => .error (js "Invalid time value")

namespace AgidSecurePos

def AGID_SECURE_POS_MODEL_VERSION : JsString := js "agid-secure-pos-flow-v1"

def AGID_SECURE_POS_REGISTRY_FRESHNESS_SECONDS : ℕ := 600

structure RegistrySnapshot where
  registryId : JsString
  version : JsString
  checkedAt : Option JsString
  freshUntil : Option JsString
  revokedKeyIds : List JsString
  revokedJtis : List JsString
  usedJtis : List JsString

structure RegistryDecision where
  valid : Bool
  checkedAt : JsString
  registryId : Option JsString
  errors : List JsString
  warnings : List JsString

def cleanLabel (value : Option JsString) : JsString := trim (value.getD [])

def setFromIterable (values : List JsString) : List JsString := (values.map trim).filter (· ≠ [])

def readTimestamp (dates : Dates) (value : Option JsString) : Option ℤ :=
  match value with
  | none => none
  | some [] => none
  | some text => dates.parse text

/-- The token's `exp` is in seconds; zero is none. -/
def isExpired (exp : Option ℚ) (now : JsNumber) : Bool :=
  match exp, now with
  | some exp, .finite now => exp ≠ 0 && exp ≤ ⌊now / 1000⌋
  | _, _ => false

def verifyAgidSecurePosRegistry (dates : Dates) (registry : Option RegistrySnapshot)
    (keyId jti : Option JsString) (exp : Option ℚ) (now : JsNumber) :
    Except JsString RegistryDecision := do
  let checkedAt ← nowIso dates now
  match registry with
  | none => return ⟨true, checkedAt, none, [], [js "registry-not-configured"]⟩
  | some registry =>
    let freshUntil := readTimestamp dates registry.freshUntil
    let stale := match freshUntil with
      | none => true
      | some t => t = 0 || now.atLeast t
    let keyId := cleanLabel keyId
    let jti := cleanLabel jti
    let errors := (if stale then [js "registry-stale"] else [])
      ++ (if keyId ≠ [] ∧ keyId ∈ setFromIterable registry.revokedKeyIds then
        [js "key-revoked-by-registry"] else [])
      ++ (if jti ≠ [] ∧ jti ∈ setFromIterable registry.revokedJtis then
        [js "token-revoked"] else [])
      ++ (if jti ≠ [] ∧ jti ∈ setFromIterable registry.usedJtis then
        [js "token-already-used"] else [])
      ++ (if isExpired exp now then [js "token-expired"] else [])
    return ⟨errors = [], checkedAt, some registry.registryId, errors, []⟩

end AgidSecurePos

end Agid
