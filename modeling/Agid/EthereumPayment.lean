import Agid.EthereumRegistry
import Agid.Lib.Decimal

/-!
# Payments at the terminal

`src/lib/posEthereumPayment.ts`, and `recordPayment` of the registry-only mode, which it calls on a
new store.  A field whose type nothing has checked is read only through `String(value ?? '')`, and
that text stands for it; where the source also asks for `undefined`, the text is an option.  The
fixed texts about privacy are left out.
-/

namespace Agid.EthereumPayment

open EthereumRegistry (Platform ExecutionMode normalizeText normalizeHashLike normalizeIsoDate
  normalizeNetworkId collectPrivateMaterialErrors hasIdLike isCoordinateLike sha256Hex)

inductive PaymentKind
  | prepaid
  | collectOnDelivery
deriving DecidableEq

def PaymentKind.text : PaymentKind → JsString
  | prepaid => js "prepaid"
  | collectOnDelivery => js "collect-on-delivery"

inductive SettlementMode
  | offchainObserved
  | ethereumRegistry
  | ethereumEscrow
deriving DecidableEq

def SettlementMode.text : SettlementMode → JsString
  | offchainObserved => js "offchain-observed"
  | ethereumRegistry => js "ethereum-registry"
  | ethereumEscrow => js "ethereum-escrow"

inductive PaymentStatus
  | requiresPayment
  | authorized
  | escrowed
  | paid
  | released
  | refunded
  | cancelled
  | rejected
  | review
deriving DecidableEq

inductive EthereumPaymentStatus
  | authorized
  | escrowed
  | released
  | refunded
  | cancelled
deriving DecidableEq

def EthereumPaymentStatus.text : EthereumPaymentStatus → JsString
  | authorized => js "authorized"
  | escrowed => js "escrowed"
  | released => js "released"
  | refunded => js "refunded"
  | cancelled => js "cancelled"

/-- The finite numbers that are not negative, as the platform computes with them.  `roundMicro n` is
`Math.round(n * 1000000) / 1000000`, none where that is infinite, and `text n` is `String(n)`. -/
structure Doubles (Num : Type) where
  roundMicro : Num → Option Num
  text : Num → JsString

/-- An amount that is such a number, or the text of any other value. -/
inductive Amount (Num : Type) where
  | number (n : Num)
  | text (s : JsString)

structure PosEthereumPaymentInput (Num : Type) where
  paymentKind : JsString
  settlementMode : JsString
  paymentId : JsString
  escrowId : JsString
  waybillAlias : JsString
  waybillCommitment : JsString
  payerCommitment : JsString
  payeeCommitment : JsString
  purpose : JsString
  amount : Amount Num
  currency : Option JsString
  tokenSymbol : Option JsString
  tokenContract : JsString
  networkId : JsString
  paymentContractAddress : JsString
  observedTxHash : JsString
  paymentStatus : JsString
  paidAt : JsString
  /-- Whether the field is `false`. -/
  releaseAfterHandoffOff : Bool
  highRiskMode : Bool
  rawAddress : JsString
  rawAgid : JsString
  rawAoid : JsString
  privateKey : JsString
  seedPhrase : JsString
  cardPan : JsString
  phone : JsString

structure PosEthereumHandoffGate where
  canAcceptCarrierScan : Bool
  canReleasePackage : Bool
  canCompleteHandoff : Bool
  reason : JsString

/-! ## The record -/

structure EthereumPaymentRecordInput where
  paymentId : JsString
  escrowId : JsString
  payerCommitment : Option JsString
  payeeCommitment : Option JsString
  purposeHash : JsString
  tokenSymbol : Option JsString
  tokenContract : Option JsString
  amount : Option JsString
  paymentStatus : EthereumPaymentStatus
  networkId : JsString
  contractAddress : Option JsString
  observedTxHash : Option JsString
  now : Option JsString

structure PaymentArguments where
  paymentId : JsString
  escrowId : JsString
  payerCommitment : JsString
  payeeCommitment : JsString
  purposeHash : Option JsString
  tokenSymbol : Option JsString
  tokenContract : Option JsString
  amount : Option JsString
  paymentStatus : EthereumPaymentStatus

structure PaymentPlan where
  operationId : JsString
  networkId : JsString
  contractAddress : Option JsString
  publicArguments : PaymentArguments
  callDataHash : JsString
  estimatedGasUnits : ℕ
  executionMode : ExecutionMode
  observedTxHash : Option JsString

structure EthereumPaymentRecord where
  publicArguments : PaymentArguments
  recordedAt : JsString
  operationId : JsString
  observedTxHash : Option JsString

structure RecordResult where
  record : Option EthereumPaymentRecord
  txPlan : Option PaymentPlan
  errors : List JsString
  warnings : List JsString

section Record

variable (P : Platform)

def nullable (value : Option JsString) : JsonValue := value.elim .null .string

def PaymentArguments.json (a : PaymentArguments) : JsonValue :=
  .object [(js "amount", nullable a.amount), (js "escrowId", .string a.escrowId),
    (js "payeeCommitment", .string a.payeeCommitment),
    (js "payerCommitment", .string a.payerCommitment), (js "paymentId", .string a.paymentId),
    (js "paymentStatus", .string a.paymentStatus.text),
    (js "purposeHash", nullable a.purposeHash), (js "tokenContract", nullable a.tokenContract),
    (js "tokenSymbol", nullable a.tokenSymbol)]

/-- The fields of the input, in the order in which the caller gives them. -/
def EthereumPaymentRecordInput.members (input : EthereumPaymentRecordInput) :
    List (JsString × JsonValue) :=
  [(js "paymentId", .string input.paymentId), (js "escrowId", .string input.escrowId),
    (js "payerCommitment", nullable input.payerCommitment),
    (js "payeeCommitment", nullable input.payeeCommitment),
    (js "purposeHash", .string input.purposeHash), (js "tokenSymbol", nullable input.tokenSymbol),
    (js "tokenContract", nullable input.tokenContract), (js "amount", nullable input.amount),
    (js "paymentStatus", .string input.paymentStatus.text),
    (js "networkId", .string input.networkId),
    (js "contractAddress", nullable input.contractAddress),
    (js "observedTxHash", nullable input.observedTxHash), (js "now", nullable input.now)]

def requirePublicOnly (input : EthereumPaymentRecordInput) : List JsString :=
  let errors := collectPrivateMaterialErrors P (js "input") (.object input.members)
  if errors ≠ [] then js "raw-private-material-not-allowed-in-mode3" :: errors else []

def buildTxPlan (networkId : JsString) (contractAddress observedTxHash : Option JsString)
    (publicArguments : PaymentArguments) : PaymentPlan :=
  let observedTxHash := normalizeHashLike P observedTxHash
  let hash := sha256Hex P (stringify (.object [(js "args", publicArguments.json),
    (js "kind", .string (js "record-payment")),
    (js "modeVersion", .string EthereumRegistry.ETHEREUM_REGISTRY_ONLY_MODE_VERSION)]))
  { operationId := js "ETH3-" ++ P.toUpperCase (hash.take 24)
    networkId := normalizeNetworkId P (some networkId)
    contractAddress := normalizeText P contractAddress
    publicArguments
    callDataHash := sha256Hex P (stringify (.object [(js "method", .string (js "recordPayment")),
      (js "operation", .string (js "record-payment")),
      (js "publicArguments", publicArguments.json)]))
    estimatedGasUnits := 110000
    executionMode := if observedTxHash.isSome then .observed else .planned
    observedTxHash }

def rejectedResult (errors : List JsString) : RecordResult where
  record := none
  txPlan := none
  errors := errors.eraseDups
  warnings := []

/-- `recordPayment` on a new store, with the clock of the call. -/
def recordPayment (input : EthereumPaymentRecordInput) (clock : ℤ) : RecordResult :=
  let privateMaterialErrors := requirePublicOnly P input
  if privateMaterialErrors ≠ [] then rejectedResult privateMaterialErrors
  else
    match normalizeHashLike P input.payerCommitment, normalizeHashLike P input.payeeCommitment with
    | some payerCommitment, some payeeCommitment =>
      let escrowId := (normalizeText P (some input.escrowId)).getD
        (js "ESCROW-" ++ P.toUpperCase
          ((sha256Hex P (payerCommitment ++ js ":" ++ payeeCommitment)).take 16))
      let paymentId := (normalizeText P (some input.paymentId)).getD
        (js "PAY-" ++ P.toUpperCase ((sha256Hex P (escrowId ++ js ":" ++ input.amount.getD []
          ++ js ":" ++ input.tokenSymbol.getD [])).take 16))
      let publicArguments := {
        paymentId
        escrowId
        payerCommitment
        payeeCommitment
        purposeHash := normalizeHashLike P (some input.purposeHash)
        tokenSymbol := normalizeText P input.tokenSymbol
        tokenContract := normalizeHashLike P input.tokenContract
        amount := input.amount
        paymentStatus := input.paymentStatus }
      let txPlan := buildTxPlan P input.networkId input.contractAddress input.observedTxHash
        publicArguments
      { record := some {
          publicArguments
          recordedAt := normalizeIsoDate P (input.now.map .text) clock
          operationId := txPlan.operationId
          observedTxHash := txPlan.observedTxHash }
        txPlan := some txPlan
        errors := []
        warnings := (if txPlan.executionMode = .planned then
            [js "ethereum-transaction-not-submitted-yet"] else [])
          ++ [js "payment-wallet-metadata-can-still-leak-on-public-ledgers"] }
    | _, _ => rejectedResult [js "payerCommitment-and-payeeCommitment-required"]

end Record

/-! ## Amounts -/

def cleanText (P : Platform) (value : JsString) : JsString := trim (P.nfkc.normalize value)

/-- `/^(?:0|[1-9]\d*)(?:\.\d{1,18})?$/`, or the same with any number of digits after the point. -/
def isDecimal (maxPlaces : Option ℕ) (s : JsString) : Bool :=
  let whole := s.takeWhile isDigit
  (whole = [48] || whole.head?.any (· ≠ 48))
    && match s.drop whole.length with
      | [] => true
      | c :: places => c = 46 && places ≠ [] && places.all isDigit
        && maxPlaces.all fun most => places.length ≤ most

def cleanAmount {Num : Type} (P : Platform) (D : Doubles Num) : Amount Num → Option JsString
  | .number n => some ((D.roundMicro n).elim (js "Infinity") D.text)
  | .text value =>
    (nonEmpty (cleanText P value)).bind fun text =>
      let normalized := text.filter (· ≠ 44)
      if isDecimal (some 18) normalized then some normalized else none

def amountDecimals (symbol : Option JsString) : ℕ :=
  match symbol with
  | none => 0
  | some symbol =>
    if symbol = js "ETH" ∨ symbol = js "WETH" ∨ symbol = js "DAI" then 18
    else if symbol = js "USDC" ∨ symbol = js "USDT" then 6
    else if symbol = js "USD" ∨ symbol = js "EUR" ∨ symbol = js "GBP" then 2
    else 0

/-- `s.replace(/^0+(?=\d)/, '')`. -/
def stripZeros : JsString → JsString
  | 48 :: c :: s => if isDigit c then stripZeros (c :: s) else 48 :: c :: s
  | s => s

/-- `amount.split('.')[0]`. -/
def wholePart (amount : JsString) : JsString := amount.takeWhile (· ≠ 46)

/-- `amount.split('.')[1] ?? ''`. -/
def fractionalPart (amount : JsString) : JsString :=
  ((amount.dropWhile (· ≠ 46)).drop 1).takeWhile (· ≠ 46)

def baseUnits (decimals : ℕ) (amount : JsString) : JsString :=
  let paddedFractional := (fractionalPart amount ++ List.replicate decimals 48).take decimals
  let normalized := stripZeros (wholePart amount ++ paddedFractional)
  if normalized = [] then js "0" else normalized

def amountToBaseUnits (amount symbol : Option JsString) : Option JsString :=
  (amount.bind nonEmpty).map (baseUnits (amountDecimals symbol))

/-! ## The decision -/

section Decision

variable (P : Platform)

def cleanBoundedText (value : JsString) (maxLength : ℕ) : JsString :=
  (cleanText P value).take maxLength

def isHexDigits (length : ℕ) (s : JsString) : Bool :=
  (js "0x").isPrefixOf s && s.length = length + 2
    && (s.drop 2).all fun c =>
      isDigit c || (65 ≤ c.val && c.val ≤ 70) || (97 ≤ c.val && c.val ≤ 102)

def cleanCurrency (value : Option JsString) : Option JsString :=
  let text := P.toUpperCase (cleanText P (value.getD []))
  if 2 ≤ text.length ∧ text.length ≤ 12
      ∧ text.all fun c => isDigit c || (65 ≤ c.val && c.val ≤ 90) then some text
  else none

/-- `cleanTokenContract` and `cleanTxHash`, by the number of their digits. -/
def cleanHex (length : ℕ) (value : JsString) : Option JsString :=
  (nonEmpty (cleanText P value)).bind fun text =>
    if isHexDigits length text then some (P.toLowerCase text) else none

def cleanTokenContract (value : JsString) : Option JsString := cleanHex P 40 value

def cleanTxHash (value : JsString) : Option JsString := cleanHex P 64 value

def bytes32Hash (value : JsonValue) : JsString :=
  P.toLowerCase (js "0x" ++ sha256Hex P (stringify value))

def cleanCommitment (value : JsString) (fallbackSeed : Option JsonValue) : Option JsString :=
  let text := cleanBoundedText P value 256
  if text = [] then fallbackSeed.map (bytes32Hash P)
  else if isHexDigits 64 text then some (P.toLowerCase text)
  else if hasIdLike false text then none
  else if isCoordinateLike text then none
  else some (bytes32Hash P
    (.object [(js "kind", .string (js "agid-pos-public-commitment-alias")),
      (js "text", .string text)]))

def normalizePaymentKind (value : JsString) : PaymentKind :=
  let text := P.toLowerCase (cleanText P value)
  if text ∈ ["collect", "cod", "cash-on-delivery", "着払", "着払い", "collect-on-delivery"].map js then
    .collectOnDelivery
  else .prepaid

def normalizeSettlementMode (value : JsString) : SettlementMode :=
  let text := P.toLowerCase (cleanText P value)
  if text = js "offchain-observed" then .offchainObserved
  else if text = js "ethereum-escrow" ∨ text = js "escrow" then .ethereumEscrow
  else .ethereumRegistry

def normalizePaymentStatus (value : JsString) : PaymentStatus :=
  let text := P.toLowerCase (cleanText P value)
  if text = js "authorized" then .authorized
  else if text = js "escrowed" then .escrowed
  else if text = js "paid" then .paid
  else if text = js "released" then .released
  else if text = js "refunded" then .refunded
  else if text = js "cancelled" then .cancelled
  else if text = js "rejected" then .rejected
  else if text = js "review" then .review
  else .requiresPayment

def toEthereumPaymentStatus : PaymentStatus → EthereumPaymentStatus
  | .escrowed => .escrowed
  | .released => .released
  | .refunded => .refunded
  | .cancelled => .cancelled
  | _ => .authorized

def isPaymentSettled (status : PaymentStatus) (observedTxHash : Option JsString) : Bool :=
  observedTxHash.isSome || status ∈ [.authorized, .escrowed, .paid, .released]

/-- The fields that may not be given, in the order of `FORBIDDEN_INPUT_KEYS`. -/
def PosEthereumPaymentInput.forbidden {Num : Type} (input : PosEthereumPaymentInput Num) :
    List (String × JsString) :=
  [("rawAddress", input.rawAddress), ("rawAgid", input.rawAgid), ("rawAoid", input.rawAoid),
    ("privateKey", input.privateKey), ("seedPhrase", input.seedPhrase), ("cardPan", input.cardPan),
    ("phone", input.phone)]

/-- What is read of an input before anything is recorded. -/
structure Cleaned where
  paymentKind : PaymentKind
  settlementMode : SettlementMode
  amount : Option JsString
  currency : Option JsString
  tokenSymbol : Option JsString
  tokenContract : Option JsString
  observedTxHash : Option JsString
  networkId : JsString
  contractAddress : Option JsString
  purpose : JsString
  waybillAlias : JsString
  waybillCommitment : Option JsString
  status : PaymentStatus
  payerCommitment : Option JsString
  payeeCommitment : Option JsString

variable {Num : Type} (D : Doubles Num)

/-- The seed of a payer's commitment, and of the hash of the purpose. -/
def payerSeed (paymentKind : PaymentKind) (purpose waybillAlias : JsString)
    (waybillCommitment : Option JsString) : JsonValue :=
  .object [(js "paymentKind", .string paymentKind.text), (js "purpose", .string purpose),
    (js "waybillAlias", .string waybillAlias), (js "waybillCommitment", nullable waybillCommitment)]

def payeeSeed (settlementMode : SettlementMode) (networkId purpose : JsString) : JsonValue :=
  .object [(js "networkId", .string networkId), (js "purpose", .string purpose),
    (js "settlementMode", .string settlementMode.text)]

def clean (input : PosEthereumPaymentInput Num) : Cleaned :=
  let paymentKind := normalizePaymentKind P input.paymentKind
  let settlementMode := normalizeSettlementMode P input.settlementMode
  let currency := (cleanCurrency P input.currency).or (cleanCurrency P input.tokenSymbol)
  let observedTxHash := cleanTxHash P input.observedTxHash
  let networkId := (nonEmpty (cleanBoundedText P input.networkId 64)).getD (js "base-sepolia")
  let purpose := (nonEmpty (cleanBoundedText P input.purpose 120)).getD (js "delivery-pos-payment")
  let waybillAlias := cleanBoundedText P input.waybillAlias 120
  let waybillCommitment := cleanCommitment P input.waybillCommitment none
  let paymentStatus := normalizePaymentStatus P input.paymentStatus
  { paymentKind
    settlementMode
    amount := cleanAmount P D input.amount
    currency
    tokenSymbol := (cleanCurrency P input.tokenSymbol).or currency
    tokenContract := cleanTokenContract P input.tokenContract
    observedTxHash
    networkId
    contractAddress := cleanTokenContract P input.paymentContractAddress
    purpose
    waybillAlias
    waybillCommitment
    status := if observedTxHash.isSome ∧ paymentStatus = .requiresPayment then .paid
      else paymentStatus
    payerCommitment := cleanCommitment P input.payerCommitment
      (some (payerSeed paymentKind purpose waybillAlias waybillCommitment))
    payeeCommitment := cleanCommitment P input.payeeCommitment
      (some (payeeSeed settlementMode networkId purpose)) }

/-- `cleanText(input.amount)`. -/
def amountText : Amount Num → JsString
  | .number n => cleanText P (D.text n)
  | .text value => cleanText P value

/-- The errors that are found before anything is recorded. -/
def inputErrors (input : PosEthereumPaymentInput Num) (c : Cleaned) : List JsString :=
  (input.forbidden.filterMap fun (key, value) =>
      if cleanText P value ≠ [] then some (js key ++ js "-not-allowed-in-pos-ethereum-payment")
      else none)
    ++ (if cleanText P input.observedTxHash ≠ [] ∧ c.observedTxHash = none then
        [js "observed-payment-tx-hash-invalid"] else [])
    ++ (if cleanText P input.tokenContract ≠ [] ∧ c.tokenContract = none then
        [js "token-contract-address-invalid"] else [])
    ++ (if cleanText P input.paymentContractAddress ≠ [] ∧ c.contractAddress = none then
        [js "payment-contract-address-invalid"] else [])
    ++ (if amountText P D input.amount ≠ [] ∧ c.amount.bind nonEmpty = none then
        [js "payment-amount-invalid"] else [])
    ++ (if (input.currency ≠ none ∨ input.tokenSymbol ≠ none) ∧ c.currency = none
          ∧ c.tokenSymbol = none then
        [js "payment-currency-or-token-symbol-invalid"] else [])
    ++ (if cleanText P input.payerCommitment ≠ []
          ∧ cleanCommitment P input.payerCommitment none = none then
        [js "payer-commitment-invalid-or-private"] else [])
    ++ (if cleanText P input.payeeCommitment ≠ []
          ∧ cleanCommitment P input.payeeCommitment none = none then
        [js "payee-commitment-invalid-or-private"] else [])

def inputWarnings (input : PosEthereumPaymentInput Num) (c : Cleaned) : List JsString :=
  (if c.amount.bind nonEmpty = none then [js "payment-amount-not-captured"] else [])
    ++ (if c.currency = none ∧ c.tokenSymbol = none then
        [js "payment-currency-not-captured"] else [])
    ++ if input.highRiskMode then
        [js "high-risk-payment-mode-use-aliases-and-short-ttl"] else []

def requiredControls (input : PosEthereumPaymentInput Num) (c : Cleaned) : List JsString :=
  ["domain-separated-payment-id", "no-raw-address-or-agid-on-chain",
      "receipt-before-release"].map js
    ++ (if c.settlementMode ≠ .offchainObserved then
        [js "ethereum-registry-receipt-check"] else [])
    ++ (if c.settlementMode = .ethereumEscrow then [js "escrow-release-after-handoff"] else [])
    ++ (if c.paymentKind = .collectOnDelivery then
        [js "recipient-payment-before-release"] else [])
    ++ if input.highRiskMode then [js "short-expiry-and-post-receipt-revocation"] else []

def escrowIdOf (input : PosEthereumPaymentInput Num) (c : Cleaned) : JsString :=
  (nonEmpty (cleanBoundedText P input.escrowId 120)).getD (js "ESCROW-" ++ P.toUpperCase
    ((sha256Hex P (stringify (.object [(js "payeeCommitment", nullable c.payeeCommitment),
      (js "payerCommitment", nullable c.payerCommitment), (js "purpose", .string c.purpose),
      (js "waybillCommitment", nullable c.waybillCommitment)]))).take 16))

def paymentIdOf (input : PosEthereumPaymentInput Num) (c : Cleaned) : JsString :=
  (nonEmpty (cleanBoundedText P input.paymentId 120)).getD (js "PAY-" ++ P.toUpperCase
    ((sha256Hex P (stringify (.object [(js "amount", nullable c.amount),
      (js "currency", nullable c.currency), (js "escrowId", .string (escrowIdOf P input c)),
      (js "paymentKind", .string c.paymentKind.text),
      (js "tokenSymbol", nullable c.tokenSymbol)]))).take 16))

def buildPublicRef (input : PosEthereumPaymentInput Num) (c : Cleaned) : JsString :=
  js "PEP-" ++ P.toUpperCase ((sha256Hex P (stringify (.object [(js "amount", nullable c.amount),
    (js "currency", nullable (c.tokenSymbol.or c.currency)),
    (js "escrowId", .string (escrowIdOf P input c)),
    (js "observedTxHash", nullable c.observedTxHash),
    (js "paymentId", .string (paymentIdOf P input c)),
    (js "paymentKind", .string c.paymentKind.text)]))).take 24)

/-- The amount that is to be recorded. -/
def chainAmount (c : Cleaned) : Option JsString :=
  amountToBaseUnits c.amount (c.tokenSymbol.or c.currency)

def recordInput (input : PosEthereumPaymentInput Num) (c : Cleaned) :
    EthereumPaymentRecordInput where
  paymentId := paymentIdOf P input c
  escrowId := escrowIdOf P input c
  payerCommitment := c.payerCommitment
  payeeCommitment := c.payeeCommitment
  purposeHash := bytes32Hash P
    (payerSeed c.paymentKind c.purpose c.waybillAlias c.waybillCommitment)
  tokenSymbol := c.tokenSymbol.or c.currency
  tokenContract := c.tokenContract
  amount := chainAmount c
  paymentStatus := toEthereumPaymentStatus c.status
  networkId := c.networkId
  contractAddress := c.contractAddress
  observedTxHash := c.observedTxHash
  now := nonEmpty (cleanText P input.paidAt)

/-- The required action and the gate. -/
def handoff (input : PosEthereumPaymentInput Num) (c : Cleaned) :
    JsString × PosEthereumHandoffGate :=
  if c.status = .rejected ∨ c.status = .cancelled then
    (js "reject-payment-before-handoff",
      ⟨false, false, false, js "payment-rejected-or-cancelled"⟩)
  else if c.status = .refunded then
    (js "review-refunded-payment-before-release", ⟨true, false, false, js "payment-refunded"⟩)
  else if ¬ isPaymentSettled c.status c.observedTxHash then
    if c.paymentKind = .collectOnDelivery then
      (js "collect-payment-from-recipient-before-release",
        ⟨true, false, false, js "collect-on-delivery-payment-pending"⟩)
    else
      (js "confirm-prepayment-or-escrow-before-release",
        ⟨true, false, false, js "prepayment-pending"⟩)
  else if c.settlementMode = .ethereumEscrow ∧ ¬ input.releaseAfterHandoffOff
      ∧ c.status ≠ .released then
    (js "release-escrow-after-recipient-proof",
      ⟨true, true, true, js "escrow-funded-release-after-handoff"⟩)
  else (js "payment-ready-for-pos-handoff", ⟨true, true, true, js "payment-confirmed"⟩)

structure PosEthereumPaymentDecision where
  paymentId : JsString
  escrowId : JsString
  cleaned : Cleaned
  accepted : Bool
  requiredAction : JsString
  publicPaymentRef : JsString
  ethereumRecord : Option EthereumPaymentRecord
  txPlan : Option PaymentPlan
  handoffGate : PosEthereumHandoffGate
  requiredControls : List JsString
  errors : List JsString
  warnings : List JsString

/-- With the clock of the call. -/
def evaluatePosEthereumPayment (input : PosEthereumPaymentInput Num) (clock : ℤ) :
    PosEthereumPaymentDecision :=
  let c := clean P D input
  let errors := inputErrors P D input c
  let result : RecordResult :=
    if c.settlementMode ≠ .offchainObserved ∧ errors = [] then
      recordPayment P (recordInput P input c) clock
    else { record := none, txPlan := none, errors := [], warnings := [] }
  let (requiredAction, handoffGate) := handoff input c
  { paymentId := paymentIdOf P input c
    escrowId := escrowIdOf P input c
    cleaned := c
    accepted := errors ++ result.errors = [] ∧ handoffGate.canAcceptCarrierScan
    requiredAction
    publicPaymentRef := buildPublicRef P input c
    ethereumRecord := result.record
    txPlan := result.txPlan
    handoffGate
    requiredControls := requiredControls input c
    errors := (errors ++ result.errors).eraseDups
    warnings := (inputWarnings input c
      ++ (if (c.amount.bind nonEmpty).isSome ∧ chainAmount c ≠ c.amount then
          [js "payment-amount-converted-to-base-units-for-ethereum"] else [])
      ++ result.warnings).eraseDups }

end Decision

/-! ## Exact amounts -/

def digits (s : JsString) : List ℕ := s.map fun c => c.val - 48

/-- The number that a text writes: digits, perhaps a point and digits, perhaps an exponent. -/
def decimal (s : JsString) : ℚ :=
  let mantissa := s.takeWhile (· ≠ 101)
  let exponent := (s.drop mantissa.length).drop 1
  let power : ℤ := match exponent with
    | 45 :: places => -(Decimal.numeral (digits places) : ℤ)
    | 43 :: places => Decimal.numeral (digits places)
    | places => Decimal.numeral (digits places)
  Decimal.value (digits (wholePart mantissa)) (digits (fractionalPart mantissa)) * 10 ^ power

/-- The amount that an input names: of a number the one that it prints as, of a text the one that
is written there, apart from white space and the commas between groups of digits. -/
def namedAmount {Num : Type} (P : Platform) (D : Doubles Num) : Amount Num → ℚ
  | .number n => decimal (D.text n)
  | .text value => decimal ((cleanText P value).filter (· ≠ 44))

/-- The text is an integer, `amount` in units of `10 ^ -decimals`. -/
def Denotes (text : JsString) (decimals : ℕ) (amount : ℚ) : Prop :=
  text ≠ [] ∧ text.all isDigit ∧ (Decimal.numeral (digits text) : ℚ) = amount * 10 ^ decimals

/-- `/^\d(?:\.\d+)?e\+\d+$/`. -/
def isExponential (s : JsString) : Bool :=
  match s with
  | d :: 101 :: 43 :: power => isDigit d && power ≠ [] && power.all isDigit
  | d :: 46 :: rest => isDigit d && rest.takeWhile isDigit ≠ []
    && match rest.dropWhile isDigit with
      | 101 :: 43 :: power => power ≠ [] && power.all isDigit
      | _ => false
  | _ => false

/-- How numbers print, and that rounding to six places stays near. -/
structure Documented {Num : Type} (D : Doubles Num) : Prop where
  printed : ∀ n m, D.roundMicro n = some m →
    isDecimal none (D.text m) = true
      ∨ isExponential (D.text m) = true ∧ 10 ^ 21 ≤ decimal (D.text m)
  near : ∀ n m, D.roundMicro n = some m → decimal (D.text m) ≤ 2 * decimal (D.text n) + 1

def Representable (decimals : ℕ) (amount : ℚ) : Prop := ∃ n : ℕ, amount * 10 ^ decimals = n

section Exact

variable {Num : Type} (P : Platform) (D : Doubles Num) (input : PosEthereumPaymentInput Num)

/-- The decimals of the token that is paid in. -/
def decimalsOf : ℕ :=
  amountDecimals ((clean P D input).tokenSymbol.or (clean P D input).currency)

/-- The amount has a number of base units, and a plan records it. -/
def ExactlyPlanned (decision : PosEthereumPaymentDecision) : Prop :=
  Representable (decimalsOf P D input) (namedAmount P D input.amount)
    ∧ ∀ plan, decision.txPlan = some plan → ∃ base, plan.publicArguments.amount = some base
      ∧ Denotes base (decimalsOf P D input) (namedAmount P D input.amount)

/-- No place of the amount is beyond the token's decimals.  A number that is to be recorded must
also be left as it is by rounding to six places and to those decimals, and print without an
exponent. -/
def Fits : Prop :=
  Representable (decimalsOf P D input) (namedAmount P D input.amount)
    ∧ (normalizeSettlementMode P input.settlementMode ≠ .offchainObserved →
      match input.amount with
      | .text _ => True
      | .number n => ∃ m, D.roundMicro n = some m ∧ isDecimal none (D.text m) = true
        ∧ (⌊decimal (D.text m) * 10 ^ decimalsOf P D input⌋₊ : ℚ)
          = decimal (D.text n) * 10 ^ decimalsOf P D input)

/-- The input has an amount: a number, or a text that is not blank. -/
def HasAmount : Prop :=
  match input.amount with
  | .number _ => True
  | .text value => cleanText P value ≠ []

end Exact

end Agid.EthereumPayment
