import Agid.Contracts
import Agid.RequestText

/-!
# The registry-only mode

`markNullifierUsed` of `InMemoryEthereumRegistryOnlyStore` in `src/lib/ethereumRegistryOnlyMode.ts`,
and the same calls on the contract.  The fixed texts about privacy that each result carries are left
out.
-/

namespace Agid.EthereumRegistry

open Contracts (Bytes32 Address Evm Revert NullifierRegistry)
open Encoding (Shifted)

/-- What the store takes from the platform.  `sha256Hex` has the digits of the hash of bytes. -/
structure Platform where
  nfkc : Nfkc
  toLowerCase : JsString → JsString
  toUpperCase : JsString → JsString
  dates : Dates
  sha256Hex : List UInt8 → JsString

def ETHEREUM_REGISTRY_ONLY_MODE_VERSION : JsString := js "ethereum-registry-only-mode-v1"

def DEFAULT_NETWORK_ID : JsString := js "ethereum-l2-generic"

def GAS_ESTIMATE : ℕ := 55000

structure EthereumNullifierMarkUsedInput where
  networkId : Option JsString
  contractAddress : Option JsString
  observedTxHash : Option JsString
  now : Option Moment
  metadata : Option (List (JsString × JsonValue))
  nullifierHash : Option JsString
  scope : Option JsString

inductive Status
  | recorded
  | alreadyRecorded
  | duplicate
  | rejected
deriving DecidableEq

structure EthereumNullifierRecord where
  nullifierHash : JsString
  scope : JsString
  usedAt : JsString
  operationId : JsString
  observedTxHash : Option JsString

structure PublicArguments where
  nullifierHash : JsString
  scope : JsString
  registryKeyHash : JsString

inductive ExecutionMode
  | planned
  | observed
deriving DecidableEq

structure TxPlan where
  operationId : JsString
  networkId : JsString
  contractAddress : Option JsString
  publicArguments : PublicArguments
  callDataHash : JsString
  estimatedGasUnits : ℕ
  executionMode : ExecutionMode
  observedTxHash : Option JsString

structure Result where
  status : Status
  record : Option EthereumNullifierRecord
  txPlan : Option TxPlan
  errors : List JsString
  warnings : List JsString

abbrev Store := Record JsString EthereumNullifierRecord

/-! ## Texts -/

section Texts

variable (P : Platform)

def normalizeText (value : Option JsString) : Option JsString :=
  nonEmpty (trim (P.nfkc.normalize (value.getD [])))

def normalizeIsoDate (value : Option Moment) (clock : ℤ) : JsString :=
  P.dates.toISOString ((presentTime P.dates value).getD clock)

def normalizeNetworkId (value : Option JsString) : JsString :=
  (normalizeText P value).getD DEFAULT_NETWORK_ID

def normalizeHashLike (value : Option JsString) : Option JsString :=
  (normalizeText P value).map fun text =>
    if (js "0x").isPrefixOf text then P.toLowerCase text else text

/-! ## Private material -/

def FORBIDDEN_PRIVATE_KEYS : List JsString :=
  ["address", "addresstext", "fulladdress", "rawaddress", "streetaddress", "physicaladdress",
    "agid", "rawagid", "aoid", "rawaoid", "agids", "agidsecure", "agidsecureciphertext",
    "ciphertext",
    "encryptedpayload", "recipient", "recipientname", "name", "fullname", "phone", "telephone",
    "phonenumber", "email", "building", "room", "unit", "apartment", "postcode", "postalcode",
    "latitude", "longitude", "lat", "lng", "lon", "coordinates"].map js

def PUBLIC_TEXT_VALUE_KEYS : List JsString :=
  ["issuerid", "issuerstatus", "registryid", "networkid", "scope", "paymentid", "escrowid",
    "tokensymbol", "contractaddress", "observedtxhash"].map js

def forbiddenKeyName (key : JsString) : JsString :=
  P.toLowerCase ((P.nfkc.normalize key).filter fun c => !(isWhiteSpace c || c = 95 || c = 45))

/-- `/(?:^|\.)([^.[\]]+)$/u`: what follows the last point. -/
def lastPathKey (path : JsString) : JsString :=
  let segment := path.rtakeWhile (· ≠ 46)
  if segment ≠ [] ∧ 91 ∉ segment ∧ 93 ∉ segment then forbiddenKeyName P segment else []

/-- `/\bA(?:GID|OID)[-_][A-Z0-9]/i` of what follows a word unit, or does not. -/
def hasIdLike : Bool → JsString → Bool
  | _, [] => false
  | afterWord, c :: s =>
    let word := ((c :: s).take 4).map lowerAscii
    (!afterWord && (word = js "agid" || word = js "aoid")
        && (s.drop 3).head?.any (fun d => d = 45 || d = 95)
        && (s.drop 4).head?.any (fun d => isAsciiLetter d || isDigit d))
      || hasIdLike (isWordUnit c) s

/-- What follows `[-+]?`. -/
def afterSign : JsString → JsString
  | c :: s => if c = 43 ∨ c = 45 then s else c :: s
  | [] => []

/-- `/^\s*[-+]?\d{1,2}\.\d+\s*,\s*[-+]?\d{1,3}\.\d+\s*$/`. -/
def isCoordinateLike (s : JsString) : Bool :=
  match afterDecimal 2 (afterSign (s.dropWhile isWhiteSpace)) with
  | none => false
  | some s =>
    match s.dropWhile isWhiteSpace with
    | 44 :: s => (afterDecimal 3 (afterSign (s.dropWhile isWhiteSpace))).any (·.all isWhiteSpace)
    | _ => false

def textErrors (path text : JsString) : List JsString :=
  if lastPathKey P path ∈ PUBLIC_TEXT_VALUE_KEYS then []
  else
    (if hasIdLike false (trim text) then [path ++ js ":raw-agid-or-aoid-like-value"] else [])
      ++ if isCoordinateLike (trim text) then [path ++ js ":raw-coordinate-like-value"] else []

mutual

def collectPrivateMaterialErrors (path : JsString) : JsonValue → List JsString
  | .string s => textErrors P path s
  | .array items => itemErrors path 0 items
  | .object members => memberErrors path members
  | _ => []

def itemErrors (path : JsString) : ℕ → List JsonValue → List JsString
  | _, [] => []
  | index, item :: items =>
    collectPrivateMaterialErrors (path ++ js "[" ++ js (toString index) ++ js "]") item
      ++ itemErrors path (index + 1) items

def memberErrors (path : JsString) : List (JsString × JsonValue) → List JsString
  | [] => []
  | (key, child) :: members =>
    let childPath := path ++ js "." ++ key
    (if forbiddenKeyName P key ∈ FORBIDDEN_PRIVATE_KEYS then
        [childPath ++ js ":private-material-field-not-allowed"]
      else collectPrivateMaterialErrors childPath child) ++ memberErrors path members

end

/-- The fields of an input that may hold private material, in the order of its type. -/
def EthereumNullifierMarkUsedInput.members (input : EthereumNullifierMarkUsedInput) :
    List (JsString × JsonValue) :=
  [("networkId", input.networkId.map .string),
    ("contractAddress", input.contractAddress.map .string),
    ("observedTxHash", input.observedTxHash.map .string),
    ("now", input.now.map fun | .date _ => .object [] | .text s => .string s),
    ("metadata", input.metadata.map .object), ("nullifierHash", input.nullifierHash.map .string),
    ("scope", input.scope.map .string)].filterMap fun (name, value) => value.map (js name, ·)

def requirePublicOnly (input : EthereumNullifierMarkUsedInput) : List JsString :=
  let errors := collectPrivateMaterialErrors P (js "input") (.object input.members)
  if errors ≠ [] then js "raw-private-material-not-allowed-in-mode3" :: errors else []

/-! ## The store -/

def publicArgumentsJson (publicArguments : PublicArguments) : JsonValue :=
  .object [(js "nullifierHash", .string publicArguments.nullifierHash),
    (js "registryKeyHash", .string publicArguments.registryKeyHash),
    (js "scope", .string publicArguments.scope)]

def sha256Hex (input : JsString) : JsString := P.sha256Hex (textEncode input)

def buildOperationId (publicArguments : PublicArguments) : JsString :=
  let hash := sha256Hex P (stringify (.object [(js "args", publicArgumentsJson publicArguments),
    (js "kind", .string (js "mark-nullifier-used")),
    (js "modeVersion", .string ETHEREUM_REGISTRY_ONLY_MODE_VERSION)]))
  js "ETH3-" ++ P.toUpperCase (hash.take 24)

def buildTxPlan (networkId contractAddress observedTxHash : Option JsString)
    (publicArguments : PublicArguments) : TxPlan :=
  let observedTxHash := normalizeHashLike P observedTxHash
  { operationId := buildOperationId P publicArguments
    networkId := normalizeNetworkId P networkId
    contractAddress := normalizeText P contractAddress
    publicArguments
    callDataHash := sha256Hex P (stringify (.object [
      (js "method", .string (js "markNullifierUsed")),
      (js "operation", .string (js "mark-nullifier-used")),
      (js "publicArguments", publicArgumentsJson publicArguments)]))
    estimatedGasUnits := GAS_ESTIMATE
    executionMode := if observedTxHash.isSome then .observed else .planned
    observedTxHash }

def rejectedResult (errors : List JsString) : Result where
  status := .rejected
  record := none
  txPlan := none
  errors := errors.eraseDups
  warnings := []

/-- The text that is hashed to the key of a scope and a nullifier hash. -/
def registryText (scope nullifierHash : JsString) : JsString :=
  ETHEREUM_REGISTRY_ONLY_MODE_VERSION ++ js ":nullifier" ++ js ":" ++ scope ++ js ":"
    ++ nullifierHash

/-- With the clock of the call. -/
def markNullifierUsed (store : Store) (input : EthereumNullifierMarkUsedInput) (clock : ℤ) :
    Result × Store :=
  let privateMaterialErrors := requirePublicOnly P input
  if privateMaterialErrors ≠ [] then (rejectedResult privateMaterialErrors, store)
  else
    match normalizeHashLike P input.nullifierHash, normalizeText P input.scope with
    | some nullifierHash, some scope =>
      let registryKey := sha256Hex P (registryText scope nullifierHash)
      let txPlan := buildTxPlan P input.networkId input.contractAddress input.observedTxHash
        { nullifierHash, scope, registryKeyHash := registryKey }
      match store.get? registryKey with
      | some existing =>
        ({ status := .duplicate
           record := some existing
           txPlan := some txPlan
           errors := [js "nullifier-already-used"]
           warnings := [js "duplicate-nullifier-rejected"] }, store)
      | none =>
        let record := {
          nullifierHash
          scope
          usedAt := normalizeIsoDate P input.now clock
          operationId := txPlan.operationId
          observedTxHash := txPlan.observedTxHash }
        ({ status := .recorded
           record := some record
           txPlan := some txPlan
           errors := []
           warnings := if txPlan.executionMode = .planned then
             [js "ethereum-transaction-not-submitted-yet"] else [] },
          store.set registryKey record)
    | _, _ => (rejectedResult [js "nullifierHash-and-scope-required"], store)

end Texts

/-! ## The same calls on the contract -/

/-- How the public arguments are made words, and who sends them. -/
structure Chain where
  evm : Evm
  nullifierWord : JsString → Bytes32
  registryKeyWord : JsString → Bytes32
  sender : Address

def Chain.submit (chain : Chain) (registry : NullifierRegistry)
    (publicArguments : PublicArguments) : Except Revert NullifierRegistry :=
  Contracts.markNullifierUsed chain.evm registry chain.sender
    (chain.nullifierWord publicArguments.nullifierHash) (textEncode publicArguments.scope)
    (chain.registryKeyWord publicArguments.registryKeyHash)

/-- What the contract says of a nullifier. -/
def verdict : Except Revert NullifierRegistry → Status
  | .ok _ => .recorded
  | .error (.reason "nullifier-already-used") => .duplicate
  | .error _ => .rejected

abbrev Call := EthereumNullifierMarkUsedInput × ℤ

/-- The store and the contract after a call on both. -/
def callBoth (P : Platform) (chain : Chain) (levels : Store × NullifierRegistry) (call : Call) :
    Store × NullifierRegistry :=
  let (result, store) := markNullifierUsed P levels.1 call.1 call.2
  match result.txPlan with
  | some plan => (store, (chain.submit levels.2 plan.publicArguments).toOption.getD levels.2)
  | none => (store, levels.2)

def runBoth (P : Platform) (chain : Chain) (levels : Store × NullifierRegistry)
    (calls : List Call) : Store × NullifierRegistry :=
  calls.foldl (callBoth P chain) levels

/-- The normalized scope and nullifier hash of a call that is not rejected. -/
def names (P : Platform) (call : Call) : Option (JsString × JsString) :=
  if requirePublicOnly P call.1 ≠ [] then none
  else do some (← normalizeText P call.1.scope, ← normalizeHashLike P call.1.nullifierHash)

/-- Both levels say of each call whether its names are new. -/
structure Refines (P : Platform) (chain : Chain) (registry : NullifierRegistry)
    (calls : List Call) : Prop where
  answered : ∀ before call after, calls = before ++ call :: after →
    (markNullifierUsed P (runBoth P chain (.empty, registry) before).1 call.1 call.2).1.status
      = if names P call ∈ before.map (names P) then .duplicate else .recorded
  onChain : ∀ before call after, calls = before ++ call :: after →
    ∃ plan, (markNullifierUsed P (runBoth P chain (.empty, registry) before).1 call.1
        call.2).1.txPlan = some plan
      ∧ verdict (chain.submit (runBoth P chain (.empty, registry) before).2 plan.publicArguments)
        = if names P call ∈ before.map (names P) then .duplicate else .recorded

def utf8 (names : JsString × JsString) : List UInt8 × List UInt8 :=
  (textEncode names.1, textEncode names.2)

/-- Two pairs whose texts have the same bytes, or of which one is the other with its colon
shifted. -/
def Clash (p q : JsString × JsString) : Prop :=
  p ≠ q ∧ (utf8 p = utf8 q ∨ Shifted 58 (utf8 p) (utf8 q) ∨ Shifted 58 (utf8 q) (utf8 p))

end Agid.EthereumRegistry
