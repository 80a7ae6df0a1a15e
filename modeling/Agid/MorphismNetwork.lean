import Agid.Lib.History
import Agid.Lib.Record
import Agid.RequestText

/-!
# Envelopes of address resolutions

`src/lib/addressMorphismNetwork.ts`: an envelope is made of what the resolver answers, and a
registry keeps a record of each envelope it is given.  What the resolver answers is taken as it is,
and so is its arithmetic.  The claim of an envelope that is registered is parsed JSON, missing where
it is `undefined`.  The registry verifies without options, and these are left out.
-/

namespace Agid.MorphismNetwork

/-- What the network takes from the platform, and the hash of a text.  `localeLe` is
`localeCompare(…) <= 0`; `clamp` and `toFixed` are on doubles, as is the one a number is read as. -/
structure Platform where
  dates : Dates
  localeLe : JsString → JsString → Bool
  sha256Hex : JsString → JsString
  toUpperCase : JsString → JsString
  numberValue : JsonNumber → JsNumber
  clamp : JsonNumber → JsonNumber
  toFixed : ℕ → JsonNumber → JsonNumber

/-! ## Hashes -/

section Hash

variable (P : Platform)

mutual

/-- The members of every object in the order of their keys. -/
def sortKeys : JsonValue → JsonValue
  | .array items => .array (sortItems items)
  | .object members =>
    .object ((sortMembers members).insertionSort fun a b => P.localeLe a.1 b.1)
  | v => v

def sortItems : List JsonValue → List JsonValue
  | [] => []
  | v :: items => sortKeys v :: sortItems items

def sortMembers : List (JsString × JsonValue) → List (JsString × JsonValue)
  | [] => []
  | (k, v) :: members => (k, sortKeys v) :: sortMembers members

end

def stableStringify (v : JsonValue) : JsString := stringify (sortKeys P v)

def hashObject (v : JsonValue) : JsString := P.sha256Hex (stableStringify P v)

def shortUpperHash (v : JsonValue) (length : ℕ) : JsString :=
  P.toUpperCase ((hashObject P v).take length)

end Hash

/-! ## Values -/

/-- An object, without its members that are `undefined`. -/
def object (members : List (String × Option JsonValue)) : JsonValue :=
  .object (members.filterMap fun m => m.2.map (js m.1, ·))

def string? (s : Option JsString) : Option JsonValue := s.map .string

def number? (n : Option JsonNumber) : Option JsonValue := n.map .number

def text (s : String) : Option JsonValue := some (.string (js s))

def count (n : ℕ) : JsonValue := .number (.int n)

def orNull (s : Option JsString) : JsonValue := s.elim .null .string

/-- `v?.name`, by a name that no array and no string has. -/
def read (v : Option JsonValue) (name : String) : Option JsonValue :=
  match v with
  | some (.object members) => JsonValue.member (js name) members
  | _ => none

/-! ## Making an envelope -/

structure AddressMorphismCandidate where
  id : Option JsString
  canonical : JsonValue
  lat : Option JsonNumber
  lon : Option JsonNumber
  sources : Option (List JsString)
  confidence : Option JsonNumber
  validationScore : Option JsonNumber

structure AddressMorphismCluster where
  id : JsString
  canonical : JsonValue
  sources : List JsString
  candidateCount : ℕ
  support : JsonValue
  confidence : JsonNumber
  probability : JsonNumber
  energy : JsonNumber
  pid : JsString

/-- What is read of an `AddressMorphismResult`. -/
structure AddressMorphismResult where
  status : JsString
  pid : Option JsString
  selected : Option AddressMorphismCluster
  clusters : List AddressMorphismCluster
  confidence : JsonNumber
  entropy : JsonNumber
  risk : JsonNumber
  evidence : JsonNumber
  probability : JsonNumber

structure AmnResolutionPolicy where
  policyVersion : Option JsString
  resolverVersion : Option JsString
  purpose : Option JsString
  qualityThreshold : Option JsonNumber
  unresolvedPolicy : Option JsString
  privacyMode : Option JsString

structure AmnEvidenceRecord where
  sourceId : JsString
  evidenceType : JsString
  subjectCommitment : JsString
  confidence : Option JsonNumber
  observedAt : Option JsString

structure AmnHistoryUpdate where
  previousHistoryRoot : Option JsString
  nextHistoryRoot : Option JsString
  eventCount : Option JsonNumber
  updatedAt : Option JsString

structure CreateAmnResolutionEnvelopeInput where
  inputAddress : JsString
  candidates : List AddressMorphismCandidate
  context : Option JsonValue
  policy : Option AmnResolutionPolicy
  evidence : List AmnEvidenceRecord
  historyUpdate : Option AmnHistoryUpdate
  proofBundleId : Option JsString
  issuedAt : Option JsString
  expiresAt : Option JsString
  privateSalt : Option JsString

structure AmnResolutionEnvelope where
  claim : JsonValue
  privateSalt : JsString
  localCacheKey : JsString

section Create

variable (P : Platform)

def normalizePolicy (policy : Option AmnResolutionPolicy) : JsonValue :=
  object [
    ("policyVersion", some (.string ((policy.bind (·.policyVersion)).getD
      (js "amn-resolution-policy-v1")))),
    ("resolverVersion", some (.string ((policy.bind (·.resolverVersion)).getD
      (js "amt-reference-resolver-v1")))),
    ("purpose", some (.string ((policy.bind (·.purpose)).getD (js "registration")))),
    ("qualityThreshold", some (.number ((policy.bind (·.qualityThreshold)).getD
      (.other (js "0.78") (by decide))))),
    ("unresolvedPolicy", some (.string ((policy.bind (·.unresolvedPolicy)).getD
      (["do-not-issue-pid-", "for-unresolved"].flatMap js)))),
    ("privacyMode", some (.string ((policy.bind (·.privacyMode)).getD
      (js "commitments-only"))))]

def commitment (kind : String) (privateSalt : JsString) (value : JsonValue) : JsString :=
  hashObject P (object [
    ("algorithm", text "sha256-amn-commitment-v1"), ("kind", text kind),
    ("privateSalt", some (.string privateSalt)), ("value", some value)])

def strings (l : List JsString) : JsonValue := .array (l.map .string)

def publicCandidateCommitmentMaterial (candidates : List AddressMorphismCandidate) : JsonValue :=
  .array (candidates.map fun candidate => object [
    ("id", string? candidate.id), ("canonical", some candidate.canonical),
    ("latBucket", number? (candidate.lat.map (P.toFixed 3))),
    ("lonBucket", number? (candidate.lon.map (P.toFixed 3))),
    ("sources", candidate.sources.map fun l => strings (l.insertionSort (· ≤ ·))),
    ("confidence", number? candidate.confidence),
    ("validationScore", number? candidate.validationScore)])

def publicClusterCommitmentMaterial (result : AddressMorphismResult) : JsonValue :=
  .array (result.clusters.map fun cluster => object [
    ("id", some (.string cluster.id)), ("canonical", some cluster.canonical),
    ("sourceCount", some (count cluster.sources.length)),
    ("candidateCount", some (count cluster.candidateCount)), ("support", some cluster.support),
    ("confidence", some (.number cluster.confidence)),
    ("probability", some (.number cluster.probability)),
    ("energy", some (.number (P.toFixed 8 cluster.energy))), ("pid", some (.string cluster.pid))])

structure AmnEvidenceCommitment where
  sourceId : JsString
  evidenceType : JsString
  confidence : JsonNumber
  observedAt : Option JsString
  commitment : JsString

def AmnEvidenceCommitment.sortText (e : AmnEvidenceCommitment) : JsString :=
  e.sourceId ++ js ":" ++ e.evidenceType ++ js ":" ++ e.commitment

def AmnEvidenceCommitment.json (e : AmnEvidenceCommitment) : JsonValue :=
  object [("sourceId", some (.string e.sourceId)), ("evidenceType", some (.string e.evidenceType)),
    ("confidence", some (.number e.confidence)), ("observedAt", string? e.observedAt),
    ("commitment", some (.string e.commitment))]

def evidenceCommitments (evidence : List AmnEvidenceRecord) (privateSalt : JsString) :
    List AmnEvidenceCommitment :=
  (evidence.map fun record => {
    sourceId := record.sourceId
    evidenceType := record.evidenceType
    confidence := P.clamp (record.confidence.getD (.other (js "0.5") plain_half))
    observedAt := record.observedAt
    commitment := commitment P "evidence-record" privateSalt (object [
      ("sourceId", some (.string record.sourceId)),
      ("evidenceType", some (.string record.evidenceType)),
      ("subjectCommitment", some (.string record.subjectCommitment)),
      ("confidence", number? record.confidence), ("observedAt", string? record.observedAt)])
    : AmnEvidenceCommitment }).insertionSort fun a b => P.localeLe a.sortText b.sortText

def AmnHistoryUpdate.json (update : AmnHistoryUpdate) : JsonValue :=
  object [("previousHistoryRoot", string? update.previousHistoryRoot),
    ("nextHistoryRoot", string? update.nextHistoryRoot),
    ("eventCount", number? update.eventCount),
    ("updatedAt", string? update.updatedAt)]

def isPositive : JsNumber → Bool
  | .finite q => 0 < q
  | .infinity => true
  | _ => false

def workflowStep (step : String) (passed : Bool) (commitment : JsString)
    (reason otherwise : String) : JsonValue :=
  object [("step", text step), ("passed", some (.bool passed)),
    ("commitment", some (.string commitment)),
    ("publicReason", text (if passed then reason else otherwise))]

def workflowSteps (candidateCount clusterCount : ℕ) (status : JsString) (pid : Option JsString)
    (historyUpdate : Option AmnHistoryUpdate) (privateSalt candidateSet clusterSet
    historyCommitment : JsString) : JsonValue :=
  let historyPassed := historyUpdate.any fun update =>
    (update.nextHistoryRoot.bind nonEmpty).isSome
      && update.eventCount.any fun n => isPositive (P.numberValue n)
  .array [
    workflowStep "candidate-generation" (0 < candidateCount) candidateSet
      "candidate-set-committed" "no-candidates",
    workflowStep "clustering" (0 < clusterCount) clusterSet "cluster-set-committed" "no-clusters",
    workflowStep "unresolved-gate" (status ≠ js "unresolved")
      (commitment P "unresolved-gate" privateSalt (object [("status", some (.string status))]))
      "resolution-status-accepted" "unresolved",
    workflowStep "history-update" historyPassed historyCommitment "history-root-updated"
      "history-update-missing",
    workflowStep "pid-issuance" (pid.bind nonEmpty).isSome
      (commitment P "pid-issuance" privateSalt (object [("pid", some (orNull pid))]))
      "pid-issued" "pid-not-issued"]

def createDefaultPrivateSalt (input : CreateAmnResolutionEnvelopeInput) (issuedAt : JsString) :
    JsString :=
  hashObject P (object [
    ("inputAddress", some (.string input.inputAddress)),
    ("candidateCount", some (count input.candidates.length)),
    ("issuedAt", some (.string issuedAt)), ("proofBundleId", string? input.proofBundleId)])

def buildResolutionSummary (result : AddressMorphismResult) (policyHash evidenceRoot : JsString)
    (selectedClusterCommitment : Option JsString) : JsonValue :=
  let pid := result.pid.bind nonEmpty
  let rpid := pid.map fun pid => js "RPID-" ++ shortUpperHash P (object [
    ("pid", some (.string pid)), ("policyHash", some (.string policyHash)),
    ("evidenceRoot", some (.string evidenceRoot)), ("type", text "rpid")]) 32
  let dpid := pid.map fun pid => js "DPID-" ++ shortUpperHash P (object [
    ("pid", some (.string pid)),
    ("selectedClusterCommitment", some (orNull selectedClusterCommitment)),
    ("type", text "delivery-pid")]) 32
  object [("status", some (.string result.status)), ("pid", some (orNull result.pid)),
    ("rpid", some (orNull rpid)), ("dpid", some (orNull dpid)),
    ("confidence", some (.number (P.clamp result.confidence))),
    ("risk", some (.number (P.clamp result.risk))),
    ("evidence", some (.number (P.clamp result.evidence))),
    ("probability", some (.number (P.clamp result.probability))),
    ("entropy", some (.number (P.toFixed 8 result.entropy))),
    ("clusterCount", some (count result.clusters.length)),
    ("candidateCount", some (count (result.clusters.map (·.candidateCount)).sum)),
    ("selectedClusterCommitment", some (orNull selectedClusterCommitment)),
    ("selectedSourceCount", some (count (result.selected.elim 0 (·.sources.length))))]

def HIDDEN : List JsString :=
  ["input-address", "raw-candidates", "raw-clusters", "recipient", "aoid", "phone",
    "exact-private-coordinates"].map js

/-- The claim without its id. -/
def claimWithoutId (input : CreateAmnResolutionEnvelopeInput) (result : AddressMorphismResult)
    (issuedAt privateSalt : JsString) : List (String × Option JsonValue) :=
  let policy := normalizePolicy input.policy
  let policyHash := hashObject P policy
  let evidence := .array ((evidenceCommitments P input.evidence privateSalt).map
    AmnEvidenceCommitment.json)
  let evidenceRoot := hashObject P evidence
  let selectedClusterCommitment := result.selected.map fun selected =>
    commitment P "selected-cluster" privateSalt (object [
      ("id", some (.string selected.id)), ("canonical", some selected.canonical),
      ("sourceCount", some (count selected.sources.length)),
      ("candidateCount", some (count selected.candidateCount)),
      ("pid", some (.string selected.pid))])
  let inputAddress := commitment P "input-address" privateSalt (object [
    ("inputAddress", some (.string input.inputAddress)), ("context", input.context)])
  let candidateSet := commitment P "candidate-set" privateSalt
    (publicCandidateCommitmentMaterial P input.candidates)
  let clusterSet := commitment P "cluster-set" privateSalt
    (publicClusterCommitmentMaterial P result)
  let historyUpdate := commitment P "history-update" privateSalt
    (input.historyUpdate.elim (.object []) AmnHistoryUpdate.json)
  [("modelVersion", text "address-morphism-network-v1"),
    ("issuedAt", some (.string issuedAt)), ("expiresAt", string? input.expiresAt),
    ("policy", some policy), ("policyHash", some (.string policyHash)),
    ("evidenceRoot", some (.string evidenceRoot)), ("proofBundleId", string? input.proofBundleId),
    ("commitmentAlgorithm", text "sha256-amn-commitment-v1"),
    ("commitments", some (object [
      ("inputAddress", some (.string inputAddress)), ("candidateSet", some (.string candidateSet)),
      ("clusterSet", some (.string clusterSet)),
      ("historyUpdate", some (.string historyUpdate))])),
    ("evidenceCommitments", some evidence),
    ("workflow", some (workflowSteps P (result.clusters.map (·.candidateCount)).sum
      result.clusters.length result.status result.pid input.historyUpdate privateSalt candidateSet
      clusterSet historyUpdate)),
    ("resolution", some (buildResolutionSummary P result policyHash evidenceRoot
      selectedClusterCommitment)),
    ("privacy", some (object [
      ("mode", text "public-commitments-only"), ("hides", some (strings HIDDEN)),
      ("publicPayloadRule", some (.string (["publish policy hashes, evidence roots,",
        " workflow decisions, proof bundle ids,", " and opaque commitments only"].flatMap js)))]))]

def createAmnResolutionEnvelope (now : ℤ) (input : CreateAmnResolutionEnvelopeInput)
    (result : AddressMorphismResult) : Except JsString AmnResolutionEnvelope :=
  if input.inputAddress = [] then .error (js "inputAddress is required")
  else if input.candidates = [] then .error (js "at least one candidate is required")
  else
    let issuedAt := input.issuedAt.getD (P.dates.toISOString now)
    let privateSalt := input.privateSalt.getD (createDefaultPrivateSalt P input issuedAt)
    let claim := claimWithoutId P input result issuedAt privateSalt
    let envelopeId := js "AMN-" ++ shortUpperHash P (object claim) 24
    .ok {
      claim := object (claim ++ [("envelopeId", some (.string envelopeId))])
      privateSalt := privateSalt
      localCacheKey := js "AMN-CACHE-" ++ shortUpperHash P (object [
        ("envelopeId", some (.string envelopeId)),
        ("privateSalt", some (.string privateSalt))]) 24 }

end Create

/-! ## Verifying -/

structure AmnEnvelopeVerification where
  envelopeId : JsonValue
  valid : Bool
  workflowPassed : Bool
  privacyPreserved : Bool
  errors : List JsString
  warnings : List JsString

/-- `/^[a-f0-9]{64}$/u`. -/
def isHex64 : Option JsonValue → Bool
  | some (.string s) => s.length = 64 && s.all fun c => isDigit c || (97 ≤ c.val && c.val ≤ 102)
  | _ => false

/-- `/^AMN-[0-9A-F]{24}$/u`. -/
def isEnvelopeId : Option JsonValue → Bool
  | some (.string s) => s.take 4 = js "AMN-" && (s.drop 4).length = 24
    && (s.drop 4).all fun c => isDigit c || (65 ≤ c.val && c.val ≤ 70)
  | _ => false

/-- `every(step => step.passed)`, which throws where it comes to `null`. -/
def everyPassed : List JsonValue → Option Bool
  | [] => some true
  | .null :: _ => none
  | step :: steps =>
    if JsonValue.truthy (read (some step) "passed") then everyPassed steps else some false

/-- The strings of `new Set(hides ?? [])`, none where it throws.  No character is one of the names
that are looked for. -/
def hiddenStrings : Option JsonValue → Option (List JsString)
  | none | some .null => some []
  | some (.array items) => some (items.filterMap fun
    | .string s => some s
    | _ => none)
  | some (.string _) => some []
  | some _ => none

section Verify

variable (P : Platform)

/-- `new Date(v).getTime()`, none where it throws. -/
def dateTime : JsonValue → Option (Option ℤ)
  | .string s => some (P.dates.parse s)
  | .number n => some (timeClip (P.numberValue n))
  | .bool b => some (some (if b then 1 else 0))
  | .null => some (some 0)
  | v => (JsonValue.itemText v).map P.dates.parse

/-- Whether `expiresAt` is given and past, none where reading it throws. -/
def isExpired (claim : JsonValue) (now : ℤ) : Option Bool :=
  match read (some claim) "expiresAt" with
  | none => some false
  | some v => if JsonValue.truthy (some v) then (dateTime P v).map fun time => time.any (· < now)
    else some false

def isUnresolved (claim : JsonValue) : Bool :=
  JsonValue.same (read (read (some claim) "resolution") "status") (text "unresolved")

/-- The hash of a member, where both are given, is not the one that is stated. -/
def isRecomputeMismatch (claim : JsonValue) (value : Option JsonValue) (hashName : String) : Bool :=
  JsonValue.truthy (read (some claim) hashName) && value.any fun v =>
    !JsonValue.same (some (.string (hashObject P v))) (read (some claim) hashName)

def arrayOf (v : Option JsonValue) : Option JsonValue :=
  match v with
  | some (.array items) => some (.array items)
  | _ => none

/-- `v ?? undefined`. -/
def present (v : Option JsonValue) : Option JsonValue :=
  match v with
  | some .null => none
  | v => v

def when (holds : Bool) (error : String) : List JsString := if holds then [js error] else []

def workflowPassed : Option JsonValue → Option Bool
  | some (.array []) => some false
  | some (.array steps) => everyPassed steps
  | _ => some false

def verificationErrors (claim : JsonValue) (expired workflowPassed privacyPreserved : Bool) :
    List JsString :=
  let field := read (some claim)
  let policy := (field "policy").filter fun v => JsonValue.truthy (some v)
  when (match claim with
    | .array _ | .object _ => false
    | _ => true) "missing-claim"
  ++ when (!JsonValue.same (field "modelVersion") (text "address-morphism-network-v1"))
    "unsupported-model-version"
  ++ when (!isEnvelopeId (field "envelopeId")) "invalid-envelope-id"
  ++ when (!isHex64 (field "policyHash")) "invalid-policy-hash"
  ++ when (!isHex64 (field "evidenceRoot")) "invalid-evidence-root"
  ++ when (isRecomputeMismatch P claim policy "policyHash") "policy-hash-recompute-mismatch"
  ++ when (isRecomputeMismatch P claim (arrayOf (field "evidenceCommitments")) "evidenceRoot")
    "evidence-root-recompute-mismatch"
  ++ when expired "envelope-expired"
  ++ when (!workflowPassed) "workflow-not-passed"
  ++ when (!privacyPreserved) "privacy-boundary-incomplete"

/-- None where it throws. -/
def verifyAmnResolutionEnvelope (now : ℤ) (claim : Option JsonValue) :
    Option AmnEnvelopeVerification := do
  let value := claim.getD .null
  let field := read claim
  let expired ← isExpired P value now
  let workflowPassed ← workflowPassed (field "workflow")
  let hidden ← hiddenStrings (read (field "privacy") "hides")
  let privacyPreserved := HIDDEN.all hidden.contains
  let errors := verificationErrors P value expired workflowPassed privacyPreserved
  let gated := JsonValue.same (read (field "policy") "unresolvedPolicy")
    (some (.string (["do-not-issue-pid-", "for-unresolved"].flatMap js)))
  return {
    envelopeId := (present (field "envelopeId")).getD (.string [])
    valid := errors.isEmpty
    workflowPassed := workflowPassed
    privacyPreserved := privacyPreserved
    errors := errors
    warnings := when (isUnresolved value && gated) "unresolved-envelope-has-no-pid" }

/-! ## The registry -/

structure AmnRegistryRecord where
  envelopeId : JsString
  policyHash : Option JsonValue
  evidenceRoot : Option JsonValue
  proofBundleId : Option JsonValue
  resolutionStatus : Option JsonValue
  pid : Option JsonValue
  rpid : Option JsonValue
  dpid : Option JsonValue
  confidence : Option JsonValue
  registeredAt : JsString
  commitmentHash : JsString

inductive RegistrationStatus where
  | registered
  | alreadyRegistered
  | rejected
deriving DecidableEq

structure AmnRegistryRegistration where
  status : RegistrationStatus
  envelopeId : Option JsonValue
  record : Option AmnRegistryRecord
  verification : AmnEnvelopeVerification
  errors : List JsString
  warnings : List JsString

structure AmnRegistry where
  records : Record JsString AmnRegistryRecord
  rejectedEnvelopes : ℕ

def createInMemoryAmnRegistry : AmnRegistry := ⟨.empty, 0⟩

/-- The record of a claim, none where reading its resolution throws. -/
def recordOf (now : ℤ) (claim : Option JsonValue) (envelopeId : JsString) :
    Option AmnRegistryRecord :=
  match read claim "resolution" with
  | none | some .null => none
  | some resolution =>
    let summary := read (some resolution)
    some {
      envelopeId := envelopeId
      policyHash := read claim "policyHash"
      evidenceRoot := read claim "evidenceRoot"
      proofBundleId := read claim "proofBundleId"
      resolutionStatus := summary "status"
      pid := summary "pid"
      rpid := summary "rpid"
      dpid := summary "dpid"
      confidence := summary "confidence"
      registeredAt := P.dates.toISOString now
      commitmentHash := hashObject P (object [
        ("envelopeId", some (.string envelopeId)), ("policyHash", read claim "policyHash"),
        ("evidenceRoot", read claim "evidenceRoot"), ("proofBundleId", read claim "proofBundleId"),
        ("resolution", some resolution)]) }

/-- The id of a claim that is valid. -/
def acceptedId (claim : Option JsonValue) (verification : AmnEnvelopeVerification) :
    Option JsString :=
  match verification.valid, read claim "envelopeId" with
  | true, some (.string envelopeId) => nonEmpty envelopeId
  | _, _ => none

/-- The registry and what is answered, none where it throws. -/
def registerEnvelope (now : ℤ) (claim : Option JsonValue) (s : AmnRegistry) :
    Option (AmnRegistry × AmnRegistryRegistration) := do
  let verification ← verifyAmnResolutionEnvelope P now claim
  match acceptedId claim verification with
  | none =>
    return ({ s with rejectedEnvelopes := s.rejectedEnvelopes + 1 }, {
      status := .rejected
      envelopeId := present (read claim "envelopeId")
      record := none
      verification := verification
      errors := verification.errors
      warnings := verification.warnings })
  | some envelopeId =>
    let answer (status : RegistrationStatus) (record : AmnRegistryRecord) :
        AmnRegistryRegistration := {
      status := status
      envelopeId := some (.string envelopeId)
      record := some record
      verification := verification
      errors := []
      warnings := verification.warnings }
    match s.records.get? envelopeId with
    | some existing => return (s, answer .alreadyRegistered existing)
    | none =>
      let record ← recordOf P now claim envelopeId
      return ({ s with records := s.records.set envelopeId record }, answer .registered record)

def AmnRegistry.verifyEnvelope (s : AmnRegistry) (envelopeId : JsString) :
    AmnEnvelopeVerification :=
  match s.records.get? envelopeId with
  | none => {
      envelopeId := .string envelopeId
      valid := false
      workflowPassed := false
      privacyPreserved := true
      errors := [js "envelope-not-registered"]
      warnings := [] }
  | some _ => {
      envelopeId := .string envelopeId
      valid := true
      workflowPassed := true
      privacyPreserved := true
      errors := []
      warnings := [] }

end Verify

/-! ## Runs -/

section Runs

variable (P : Platform)

/-- The calls, each at its time.  The first does not touch the registry. -/
inductive Call where
  | create (now : ℤ) (input : CreateAmnResolutionEnvelopeInput) (result : AddressMorphismResult)
  | register (now : ℤ) (claim : Option JsonValue)
  | verify (now : ℤ) (envelopeId : JsString)

/-- A call that throws leaves the registry as it is. -/
def next (s : AmnRegistry) : Call → Option AmnRegistry
  | .register now claim => some (((registerEnvelope P now claim s).map Prod.fst).getD s)
  | _ => some s

abbrev Past := History.Past AmnRegistry Call

/-- The claim of the envelope that a call makes. -/
def created : Call → Option JsonValue
  | .create now input result =>
    match createAmnResolutionEnvelope P now input result with
    | .ok envelope => some envelope.claim
    | .error _ => none
  | _ => none

/-- The claim that a call registers, or finds registered. -/
def accepted (s : AmnRegistry) : Call → Option JsonValue
  | .register now claim =>
    (registerEnvelope P now claim s).bind fun r => if r.2.status = .rejected then none else claim
  | _ => none

/-- What a claim says, its id aside. -/
def contentValue : JsonValue → JsonValue
  | .object members => .object (members.filter fun m => m.1 ≠ js "envelopeId")
  | v => v

/-- The text that an id is made of: two claims with one text have the same content. -/
def content (claim : JsonValue) : JsString := stableStringify P (contentValue claim)

def contentId (claim : JsonValue) : JsString :=
  js "AMN-" ++ shortUpperHash P (contentValue claim) 24

def HasId (claim : JsonValue) (envelopeId : JsString) : Prop :=
  read (some claim) "envelopeId" = some (.string envelopeId)

/-- The claims that the calls of a run have accepted, and those that they have also made. -/
def Accepted (past : Past) (claim : JsonValue) : Prop :=
  ∃ e ∈ past, accepted P e.1 e.2 = some claim

def Known (past : Past) (claim : JsonValue) : Prop :=
  ∃ e ∈ past, accepted P e.1 e.2 = some claim ∨ created P e.2 = some claim

/-- No envelope that is unresolved or expired is found valid, and under one id there is one content,
that of the envelope that was made with it. -/
def TamperEvident : Past → Prop := History.Every fun past s call =>
  (∀ claim, accepted P s call = some claim →
    isUnresolved claim = false
      ∧ (∀ now claim', call = .register now claim' → isExpired P claim now = some false)
      ∧ ∀ other envelopeId, Known P past other → HasId claim envelopeId → HasId other envelopeId →
        content P claim = content P other)
  ∧ ∀ now envelopeId, call = .verify now envelopeId → (s.verifyEnvelope envelopeId).valid = true →
    (∃ claim, Accepted P past claim ∧ HasId claim envelopeId)
      ∧ ∀ claim, Accepted P past claim → HasId claim envelopeId →
        isUnresolved claim = false ∧ isExpired P claim now = some false

/-- Each envelope that passes the checks is resolved, has the id of its content, which is of no
other content of the run, and is not asked for after it has expired. -/
def Untampered : Past → Prop := History.Every fun past _ call =>
  (∀ now claim, call = .register now (some claim) →
    (verifyAmnResolutionEnvelope P now (some claim)).any (·.valid) →
      isUnresolved claim = false ∧ HasId claim (contentId P claim)
        ∧ ∀ other, Known P past other → contentId P other = contentId P claim →
          content P other = content P claim)
  ∧ ∀ now envelopeId, call = .verify now envelopeId → ∀ claim, Accepted P past claim →
    HasId claim envelopeId → isExpired P claim now = some false

end Runs

end Agid.MorphismNetwork
