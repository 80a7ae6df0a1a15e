import Agid.SecureShare

/-!
# A POS terminal

What a terminal does with a token and its copy of the registry: `openAgidSecureForPos` and
`markAgidSecurePosUsed` of `src/lib/agidSecurePos.ts`, and `unwrapPosAcceptancePayload` of
`src/lib/posAcceptance.ts`.
-/

namespace Agid.AgidSecurePos

open AgidSecureShare

inductive KeyStatus where
  | active
  | retiring
  | revoked
deriving DecidableEq

structure KeyEntry where
  keyId : JsString
  keyMaterial : JsString
  status : KeyStatus
  createdAt : JsString
  recipientId : Option JsString
  label : Option JsString
  notBefore : Option JsString
  notAfter : Option JsString
  rotatedFrom : Option JsString

inductive Channel where
  | qr
  | nfc
  | manual
deriving DecidableEq

/-- A JSON object around a payload. -/
structure Wrapper where
  payload : Option JsString
  transport : Option JsString
  tagId : Option JsString

structure Unwrapped where
  payload : JsString
  channel : Channel
  tagId : Option JsString
  warnings : List JsString

structure Terminal where
  share : AgidSecureShare.Platform
  dates : Dates
  toLowerCase : JsString → JsString
  decodeComponent : JsString → JsString
  safeJson : JsString → Option Wrapper

structure OpenInput where
  token : JsString
  keyRing : List KeyEntry
  channel : Option Channel
  expectedPurpose : Option JsString

structure Opened where
  payload : Payload
  envelope : Envelope
  key : KeyEntry
  channel : Channel
  registryDecision : RegistryDecision
  warnings : List JsString

structure Refused where
  error : JsString
  envelope : Option Envelope
  key : Option KeyEntry
  registryDecision : Option RegistryDecision
  warnings : List JsString

inductive PosOpenResult where
  | opened (result : Opened)
  | refused (result : Refused)

def POS_NFC_PREFIX : JsString := js "agid:nfc:"

def isHexDigit (c : CodeUnit) : Bool :=
  (48 ≤ c.val && c.val ≤ 57) || (65 ≤ c.val && c.val ≤ 70) || (97 ≤ c.val && c.val ≤ 102)

def isPosSecureKeyEntry (key : KeyEntry) : Bool :=
  matchesKeyId key.keyId && key.keyMaterial.all isHexDigit && key.keyMaterial.length = 64

/-- `t > n`. -/
def isAfter (t : ℤ) (n : JsNumber) : Bool :=
  match n with
  | .finite q => q < t
  | .infinity => false
  | .negInfinity => true
  | .nan => false

section Terminal

variable (terminal : Terminal)

def unwrapPosAcceptancePayload (payload : JsString) (channel : Channel) : Unwrapped :=
  let raw := trim payload
  if raw = [] then ⟨[], channel, none, [js "payload-empty"]⟩
  else if POS_NFC_PREFIX.isPrefixOf raw then
    let wrapper := terminal.safeJson (terminal.decodeComponent (raw.drop POS_NFC_PREFIX.length))
    let payload := trim ((wrapper.bind Wrapper.payload).getD [])
    ⟨payload, .nfc, (wrapper.bind Wrapper.tagId).bind fun id => nonEmpty (trim id),
      if payload = [] then [js "nfc-wrapper-missing-inner-payload"] else []⟩
  else
    match terminal.safeJson raw with
    | some ⟨some payload, transport, tagId⟩ =>
      let transport := terminal.toLowerCase (trim (transport.getD []))
      ⟨trim payload, if includes transport (js "nfc") then .nfc else channel,
        tagId.bind fun id => nonEmpty (trim id), []⟩
    | _ => ⟨raw, channel, none, []⟩

def openAgidSecureForPos (input : OpenInput) (registry : Option RegistrySnapshot)
    (now : JsNumber) : Except JsString PosOpenResult := do
  let unwrapped := unwrapPosAcceptancePayload terminal input.token (input.channel.getD .manual)
  let refused (error : String) (envelope : Option Envelope) (key : Option KeyEntry) :=
    PosOpenResult.refused ⟨js error, envelope, key, none, unwrapped.warnings⟩
  if ¬ isAgidSecureToken terminal.share unwrapped.payload then
    return refused "not-agid-s" none none
  match readAgidSecureEnvelope terminal.share unwrapped.payload with
  | none => return refused "invalid-envelope" none none
  | some envelope =>
    match input.keyRing.find? fun entry => isPosSecureKeyEntry entry && entry.keyId = envelope.kid with
    | none => return refused "key-not-found" (some envelope) none
    | some key =>
      let notBefore := (readTimestamp terminal.dates key.notBefore).filter (· ≠ 0)
      let notAfter := (readTimestamp terminal.dates key.notAfter).filter (· ≠ 0)
      if key.status = .revoked then return refused "key-revoked" (some envelope) (some key)
      else if ∃ t ∈ notBefore, isAfter t now then
        return refused "key-not-yet-valid" (some envelope) (some key)
      else if ∃ t ∈ notAfter, now.atLeast t then
        return refused "key-expired" (some envelope) (some key)
      else
        let warnings := unwrapped.warnings
          ++ if key.status = .retiring then [js "key-retiring"] else []
        match openAgidSecureToken terminal.share unwrapped.payload key.keyMaterial key.keyId
            input.expectedPurpose now with
        | .refused error _ =>
          return .refused ⟨error, some envelope, some key, none, warnings⟩
        | .opened payload openedEnvelope =>
          let decision ← verifyAgidSecurePosRegistry terminal.dates registry
            (some openedEnvelope.kid) (some payload.jti) (some payload.exp) now
          if decision.valid then
            return .opened ⟨payload, openedEnvelope, key, unwrapped.channel, decision,
              warnings ++ decision.warnings⟩
          else
            return .refused ⟨(decision.errors.head?).getD (js "registry-rejected"), some envelope,
              some key, some decision, warnings ++ decision.warnings⟩

/-- `addDaysIso(iso, days)`, the days in milliseconds. -/
def addIso (dates : Dates) (iso : JsString) (ms : ℕ) : Except JsString JsString :=
  nowIso dates (match dates.parse iso with
    | some t => .finite (t + ms)
    | none => .nan)

/-- `clock` is the time of the call, read where no time of use is given. -/
def markAgidSecurePosUsed (registry : RegistrySnapshot) (jti : JsString)
    (usedAt : Option JsString) (clock : ℤ) : Except JsString RegistrySnapshot := do
  let used := setFromIterable registry.usedJtis
  let label := cleanLabel (some jti)
  let usedAt := (usedAt.bind nonEmpty).getD (terminal.dates.toISOString clock)
  let freshUntil ←
    addIso terminal.dates usedAt (AGID_SECURE_POS_REGISTRY_FRESHNESS_SECONDS * 1000)
  return { registry with
    checkedAt := some usedAt
    freshUntil := some freshUntil
    version := registry.version ++ js "+used." ++ base36 (stableHash (jti ++ js "|" ++ usedAt))
    usedJtis := if label ∈ used then used else used ++ [label] }

/-! ## Runs of a terminal -/

/-- A step of the terminal on its copy. -/
inductive TerminalStep where
  | opens (input : OpenInput) (now : JsNumber)
  | marks (jti : JsString) (usedAt : Option JsString) (clock : ℤ)

/-- The terminal's copy of the registry, and the tokens it has marked. -/
structure TerminalState where
  registry : RegistrySnapshot
  marked : List JsString

def terminalStep (state : TerminalState) : TerminalStep → TerminalState
  | .opens _ _ => state
  | .marks jti usedAt clock =>
    match markAgidSecurePosUsed terminal state.registry jti usedAt clock with
    | .ok registry => ⟨registry, state.marked ++ [jti]⟩
    | .error _ => state

def terminalRun (registry : RegistrySnapshot) (steps : List TerminalStep) : TerminalState :=
  steps.foldl (terminalStep terminal) ⟨registry, []⟩

/-- No token is accepted once the server's copy is too old, and none that has been marked. -/
def Bounded (freshUntil : ℤ) (state : TerminalState) : Prop :=
  ∀ input now result,
    openAgidSecureForPos terminal input (some state.registry) now = .ok (.opened result) →
      now.atLeast freshUntil = false ∧ result.payload.jti ∉ state.marked

/-- A mark is stamped ten minutes before the server's copy gets too old, or its time is none. -/
def StampedInTime (freshUntil : ℤ) : TerminalStep → Prop
  | .opens _ _ => True
  | .marks _ usedAt clock =>
    ∀ t ∈ terminal.dates.parse ((usedAt.bind nonEmpty).getD (terminal.dates.toISOString clock)),
      t + (AGID_SECURE_POS_REGISTRY_FRESHNESS_SECONDS * 1000 : ℕ) ≤ freshUntil

end Terminal

end Agid.AgidSecurePos
