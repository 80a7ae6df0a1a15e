import Agid.SecurePos

/-!
# AGID-S tokens

Opening a token, as `src/lib/agidSecureShare.ts` does.  A decrypted payload is what its JSON holds,
a field of another kind reading as none, and the texts of errors that the code catches are left
out.  The last check of a payload finds nothing in the fields that are allowed, and is not written.
-/

namespace Agid.AgidSecureShare

structure Envelope where
  kid : JsString
  n : JsString
  c : JsString
  t : JsString

structure RawPayload where
  extraKeys : List JsString
  agid : Option JsString
  exp : Option ℚ
  purpose : Option JsString
  precision : Option JsString
  iat : Option ℚ
  jti : Option JsString

structure Payload where
  agid : JsString
  exp : ℤ
  purpose : Option JsString
  precision : Option JsString
  iat : ℤ
  jti : JsString

/-- What opening a token takes from the platform: `readEnvelope` decodes and checks the text behind
the prefix, and `decrypt` has the key as hexadecimal text. -/
structure Platform where
  toUpperCase : JsString → JsString
  readEnvelope : JsString → Option Envelope
  decrypt : JsString → Envelope → Option RawPayload

inductive OpenResult where
  | opened (payload : Payload) (envelope : Envelope)
  | refused (error : JsString) (envelope : Option Envelope)

def AGID_SECURE_PREFIX : JsString := js "AGIDS1-"

def AGID_SECURE_PURPOSES : List JsString :=
  ["delivery", "humanitarian", "evacuation", "domestic-violence", "refugee-support", "pos",
    "support", "general"].map js

def AGID_SECURE_HIGH_RISK_PURPOSES : List JsString :=
  ["humanitarian", "evacuation", "domestic-violence", "refugee-support"].map js

/-- The digits of a code: no I, L, O and U. -/
def isBase32Digit (c : CodeUnit) : Bool :=
  isUpperAlphanumeric c && ¬ [73, 76, 79, 85].contains c.val

def matchesAgid (s : JsString) : Bool :=
  (s.take 2).all isUpperAlphanumeric && (s.drop 2).all isBase32Digit && s.length = 12

/-- A positive integer. -/
def positiveInteger (value : Option ℚ) : Option ℤ :=
  match value with
  | some q => if q.den = 1 ∧ 0 < q then some q.num else none
  | none => none

/-- `exp <= unixSeconds(now)`. -/
def hasPassed (exp : ℤ) (now : JsNumber) : Bool :=
  match now with
  | .finite now => exp ≤ ⌊now / 1000⌋
  | .infinity => true
  | .negInfinity => false
  | .nan => false

section Platform

variable (platform : Platform)

def isAgidSecureToken (value : JsString) : Bool :=
  AGID_SECURE_PREFIX.isPrefixOf (platform.toUpperCase (trim value))

def readAgidSecureEnvelope (token : JsString) : Option Envelope :=
  let cleaned := platform.toUpperCase (trim token)
  if AGID_SECURE_PREFIX.isPrefixOf cleaned then
    platform.readEnvelope (cleaned.drop AGID_SECURE_PREFIX.length)
  else none

def normalizeAGIDInput (value : Option JsString) : Option JsString :=
  value.bind fun s => nonEmpty (platform.toUpperCase (trim s))

/-- None where the source throws. -/
def validatePlainPayload (payload : RawPayload) : Option Payload := do
  let agid ← (normalizeAGIDInput platform payload.agid).filter matchesAgid
  let exp ← positiveInteger payload.exp
  let iat ← positiveInteger payload.iat
  let jti ← payload.jti.filter matchesJti
  let purpose := payload.purpose.bind nonEmpty
  let precision := payload.precision.bind nonEmpty
  if payload.extraKeys = [] ∧ (∀ p ∈ purpose, p ∈ AGID_SECURE_PURPOSES)
      ∧ (∀ p ∈ precision, p = js "coarse" ∨ p = js "standard")
      ∧ ((∃ p ∈ purpose, p ∈ AGID_SECURE_HIGH_RISK_PURPOSES) → precision = some (js "coarse")) then
    some ⟨agid, exp, purpose, precision, iat, jti⟩
  else none

def openAgidSecureToken (token keyMaterial : JsString) (expectedKeyId : JsString)
    (expectedPurpose : Option JsString) (now : JsNumber) : OpenResult :=
  let cleaned := platform.toUpperCase (trim token)
  if AGID_SECURE_PREFIX.isPrefixOf cleaned then
    match platform.readEnvelope (cleaned.drop AGID_SECURE_PREFIX.length) with
    | none => .refused (js "invalid-envelope") none
    | some envelope =>
      if expectedKeyId ≠ [] ∧ envelope.kid ≠ expectedKeyId then
        .refused (js "key-id-mismatch") (some envelope)
      else
        match (platform.decrypt keyMaterial envelope).bind (validatePlainPayload platform) with
        | none => .refused (js "decrypt-failed") (some envelope)
        | some payload =>
          if hasPassed payload.exp now then .refused (js "expired") (some envelope)
          else if expectedPurpose.bind nonEmpty ≠ none
              ∧ payload.purpose ≠ expectedPurpose.bind nonEmpty then
            .refused (js "purpose-mismatch") (some envelope)
          else .opened payload envelope
  else .refused (js "not-agid-s") none

end Platform

end Agid.AgidSecureShare
