import Agid.SecurePos

/-!
# Merged label scans

`mergeShippingLabelScanProofsWithOptions` of `src/lib/shippingLabelQr.ts`, with the stages and the
level of a proof.  Of a scan result only what the merge reads is kept.
-/

namespace Agid.LabelScans

inductive ScanRole where
  | carrier
  | recipient
deriving DecidableEq

inductive RiskLevel where
  | standard
  | high
deriving DecidableEq

inductive ProofLevel where
  | none
  | addressValid
  | carrierAccepted
  | recipientControlled
  | deliveryCompleted
deriving DecidableEq

structure ProofStage where
  level : ProofLevel
  rank : ℕ
  label : JsString
  detail : JsString
  verified : Bool

structure ScanResult where
  waybillId : JsString
  jti : JsString
  nullifier : JsString
  riskLevel : RiskLevel
  role : ScanRole
  addressVerified : Bool
  carrierScanVerified : Bool
  ownerVerified : Bool
  errors : List JsString
  warnings : List JsString

structure Claims where
  validAddressReference : Bool
  carrierHandledPackage : Bool
  recipientControl : Bool
  packageReceipt : Bool
  deliveryCompleted : Bool
deriving DecidableEq

structure MergedProof where
  waybillId : JsString
  jti : Option JsString
  nullifier : Option JsString
  riskLevel : Option RiskLevel
  proofLevel : ProofLevel
  proofStages : List ProofStage
  addressVerified : Bool
  addressAndOwnerVerified : Bool
  packageReceiptVerified : Bool
  terminalSigned : Bool
  deliveryCompleted : Bool
  carrierScanVerified : Bool
  recipientControlVerified : Bool
  ownerVerified : Bool
  claims : Claims
  errors : List JsString
  warnings : List JsString

/-! ## Stages -/

def buildShippingLabelProofStages (addressVerified carrierScanVerified recipientControlVerified
    deliveryCompleted : Bool) : List ProofStage :=
  [{  level := .addressValid
      rank := 1
      label := js "Address Valid"
      detail := ["AGID, AOID, or registered address reference", " is syntactically usable",
        " and not expired."].flatMap js
      verified := addressVerified },
    { level := .carrierAccepted
      rank := 2
      label := js "Carrier Accepted"
      detail := ["Carrier-side scan has accepted the waybill", " and address reference",
        " for package handling."].flatMap js
      verified := carrierScanVerified },
    { level := .recipientControlled
      rank := 3
      label := js "Recipient Controlled"
      detail := ["Recipient-side proof code, credential,", " or passkey evidence",
        " has been presented."].flatMap js
      verified := recipientControlVerified },
    { level := .deliveryCompleted
      rank := 4
      label := js "Delivery Completed"
      detail := ["Carrier and recipient evidence are both present", " with terminal-signed",
        " receipt evidence."].flatMap js
      verified := deliveryCompleted }]

def resolveShippingLabelProofLevel (stages : List ProofStage) : ProofLevel :=
  let verified := ((stages.filter (·.verified)).insertionSort fun a b => b.rank ≤ a.rank).head?
  (verified.map (·.level)).getD .none

/-! ## The merge -/

def blockingAddressErrors : List JsString :=
  ["shipping-label-address-reference-missing", "shipping-label-expired",
    "shipping-label-jti-missing", "shipping-label-nullifier-already-used",
    "shipping-label-nullifier-mismatch", "shipping-label-scan-waybill-mismatch"].map js

def hasBlockingAddressError (errors : List JsString) : Bool :=
  errors.any (· ∈ blockingAddressErrors)

def mergeShippingLabelScanProofsWithOptions (scans : List ScanResult)
    (terminalSigned : Option Bool) : MergedProof :=
  let first := scans.head?
  let waybillId := ((first.map (·.waybillId)).bind nonEmpty).getD (js "unknown")
  let sameWaybill := scans.all fun scan => scan.waybillId = waybillId
  let sameNullifier := scans.all fun scan => some scan.nullifier = first.map (·.nullifier)
  let carrierScanVerified := scans.any fun scan => scan.role = .carrier && scan.carrierScanVerified
  let recipientControlVerified := scans.any fun scan => scan.role = .recipient && scan.ownerVerified
  let scanErrors := (scans.flatMap (·.errors)).eraseDups
  let addressVerified := scans.any (·.addressVerified) && !hasBlockingAddressError scanErrors
  let errors := (scanErrors
    ++ (if sameWaybill then [] else [js "shipping-label-scan-waybill-mismatch"])
    ++ (if sameNullifier then [] else [js "shipping-label-scan-nullifier-mismatch"])
    ++ (if carrierScanVerified then [] else [js "carrier-scan-missing"])
    ++ (if recipientControlVerified then [] else [js "recipient-owner-proof-missing"])).eraseDups
  let warnings := (scans.flatMap (·.warnings)).eraseDups
  let packageReceiptVerified :=
    sameWaybill && carrierScanVerified && recipientControlVerified && errors.isEmpty
  let terminalSigned := terminalSigned.getD false
  let deliveryCompleted := packageReceiptVerified && terminalSigned
  let proofStages := buildShippingLabelProofStages addressVerified carrierScanVerified
    recipientControlVerified deliveryCompleted
  { waybillId := waybillId
    jti := (first.map (·.jti)).bind nonEmpty
    nullifier := (first.map (·.nullifier)).bind nonEmpty
    riskLevel := first.map (·.riskLevel)
    proofLevel := resolveShippingLabelProofLevel proofStages
    proofStages := proofStages
    addressVerified := addressVerified
    addressAndOwnerVerified := packageReceiptVerified && addressVerified
    packageReceiptVerified := packageReceiptVerified
    terminalSigned := terminalSigned
    deliveryCompleted := deliveryCompleted
    carrierScanVerified := carrierScanVerified
    recipientControlVerified := recipientControlVerified
    ownerVerified := recipientControlVerified
    claims := {
      validAddressReference := addressVerified
      carrierHandledPackage := carrierScanVerified
      recipientControl := recipientControlVerified
      packageReceipt := packageReceiptVerified
      deliveryCompleted := deliveryCompleted }
    errors := errors
    warnings := warnings }

def mergeShippingLabelScanProofs (scans : List ScanResult) : MergedProof :=
  mergeShippingLabelScanProofsWithOptions scans none

/-! ## Evidence -/

inductive Evidence where
  | address
  | carrier
  | recipient

def ScanResult.shows (scan : ScanResult) : Evidence → Bool
  | .address => scan.addressVerified
  | .carrier => scan.role = .carrier && scan.carrierScanVerified
  | .recipient => scan.role = .recipient && scan.ownerVerified

/-- A scan of the waybill id and the nullifier that a proof reports. -/
def MergedProof.Own (proof : MergedProof) (scan : ScanResult) : Prop :=
  scan.waybillId = proof.waybillId ∧ scan.nullifier = proof.nullifier.getD []

def MergedProof.claimed (proof : MergedProof) : Evidence → Bool
  | .address => proof.claims.validAddressReference
  | .carrier => proof.claims.carrierHandledPackage
  | .recipient => proof.claims.recipientControl

/-- Some scan of the proof's own shows it. -/
def MergedProof.Supported (proof : MergedProof) (scans : List ScanResult) (kind : Evidence) :
    Prop :=
  ∃ scan ∈ scans, proof.Own scan ∧ scan.shows kind

/-- Two scans without an error, and the terminal's signature. -/
structure MergedProof.Delivered (proof : MergedProof) (scans : List ScanResult)
    (terminalSigned : Option Bool) : Prop where
  carrier : ∃ scan ∈ scans, proof.Own scan ∧ scan.shows .carrier ∧ scan.errors = []
  recipient : ∃ scan ∈ scans, proof.Own scan ∧ scan.shows .recipient ∧ scan.errors = []
  signed : terminalSigned = some true

/-- What a level says. -/
def MergedProof.SupportedLevel (proof : MergedProof) (scans : List ScanResult)
    (terminalSigned : Option Bool) : ProofLevel → Prop
  | .none => True
  | .addressValid => proof.Supported scans .address
  | .carrierAccepted => proof.Supported scans .carrier
  | .recipientControlled => proof.Supported scans .recipient
  | .deliveryCompleted => proof.Delivered scans terminalSigned

/-- Every claim is supported, and on the scans of one waybill none depends on their order. -/
structure NeverBorrows (scans : List ScanResult) (terminalSigned : Option Bool) : Prop where
  claims : ∀ kind, (mergeShippingLabelScanProofsWithOptions scans terminalSigned).claimed kind →
    (mergeShippingLabelScanProofsWithOptions scans terminalSigned).Supported scans kind
  level : (mergeShippingLabelScanProofsWithOptions scans terminalSigned).SupportedLevel scans
    terminalSigned (mergeShippingLabelScanProofsWithOptions scans terminalSigned).proofLevel
  delivered :
    (mergeShippingLabelScanProofsWithOptions scans terminalSigned).claims.deliveryCompleted →
      (mergeShippingLabelScanProofsWithOptions scans terminalSigned).Delivered scans terminalSigned
  order : ∀ others, others.Perm scans → (∃ waybillId, ∀ scan ∈ scans, scan.waybillId = waybillId) →
    (mergeShippingLabelScanProofsWithOptions others terminalSigned).claims
      = (mergeShippingLabelScanProofsWithOptions scans terminalSigned).claims

/-- A scan of the first one's waybill id, `unknown` where it has none, and nullifier. -/
def OfFirst (scans : List ScanResult) (scan : ScanResult) : Prop :=
  scan.waybillId = ((scans.head?.map (·.waybillId)).bind nonEmpty).getD (js "unknown")
    ∧ some scan.nullifier = scans.head?.map (·.nullifier)

/-- Another scan shows nothing that no scan of the first one's waybill and nullifier shows; an
address is also not claimed where some scan has a blocking error. -/
def NothingForeign (scans : List ScanResult) : Prop :=
  ∀ kind, ∀ scan ∈ scans, ¬ OfFirst scans scan → scan.shows kind →
    (∃ own ∈ scans, OfFirst scans own ∧ own.shows kind)
      ∨ (kind = .address ∧ ∃ other ∈ scans, hasBlockingAddressError other.errors)

end Agid.LabelScans
