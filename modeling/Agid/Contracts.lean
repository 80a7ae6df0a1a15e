import Agid.JsText
import Agid.Lib.Encoding

/-!
# The registry contracts

`contracts/AGIDRevocationFreshnessRegistry.sol` and `contracts/AGIDNullifierRegistry.sol`.  A string
is its bytes, which nothing checks.  Of `AccessControl` and `Pausable` stand here the roles, whoever
grants or revokes them, and the flag.
-/

namespace Agid.Contracts

open Encoding (abiEncode joined)

abbrev Bytes32 := BitVec 256

abbrev Address := BitVec 160

/-- What a contract takes from the chain. -/
structure Evm where
  keccak256 : List UInt8 → Bytes32

/-- What a transaction that is reverted says. -/
inductive Revert
  | reason (text : String)
  | enforcedPause
  | expectedPause
  | unauthorizedAccount (account : Address) (neededRole : Bytes32)
deriving DecidableEq

def requireThat (holds : Bool) (reason : String) : Except Revert Unit :=
  if holds then .ok () else .error (.reason reason)

/-! ## Roles and the pause -/

/-- The state of the inherited contracts. -/
structure Access where
  hasRole : Bytes32 → Address → Bool
  paused : Bool

def role (evm : Evm) (name : String) : Bytes32 := evm.keccak256 (textEncode (js name))

def DEFAULT_ADMIN_ROLE : Bytes32 := 0

def REGISTRY_ADMIN_ROLE (evm : Evm) : Bytes32 := role evm "REGISTRY_ADMIN_ROLE"

def ROOT_ANCHOR_ROLE (evm : Evm) : Bytes32 := role evm "ROOT_ANCHOR_ROLE"

def NULLIFIER_WRITER_ROLE (evm : Evm) : Bytes32 := role evm "NULLIFIER_WRITER_ROLE"

def Access.onlyRole (access : Access) (role : Bytes32) (sender : Address) : Except Revert Unit :=
  if access.hasRole role sender then .ok () else .error (.unauthorizedAccount sender role)

def Access.whenNotPaused (access : Access) : Except Revert Unit :=
  if access.paused then .error .enforcedPause else .ok ()

def Access.whenPaused (access : Access) : Except Revert Unit :=
  if access.paused then .ok () else .error .expectedPause

def pause (evm : Evm) (access : Access) (sender : Address) : Except Revert Access := do
  access.onlyRole (REGISTRY_ADMIN_ROLE evm) sender
  access.whenNotPaused
  .ok { access with paused := true }

def unpause (evm : Evm) (access : Access) (sender : Address) : Except Revert Access := do
  access.onlyRole (REGISTRY_ADMIN_ROLE evm) sender
  access.whenPaused
  .ok { access with paused := false }

/-- The roles that a constructor grants, the last one by its name. -/
def deployed (evm : Evm) (admin : Address) (ownRole : Bytes32) : Except Revert Access := do
  requireThat (admin ≠ 0) "admin-required"
  .ok {
    hasRole role account := account = admin
      && (role = DEFAULT_ADMIN_ROLE || role = REGISTRY_ADMIN_ROLE evm || role = ownRole)
    paused := false }

/-! ## `AGIDRevocationFreshnessRegistry` -/

structure RootAnchor where
  revocationRoot : Bytes32
  freshnessRoot : Bytes32
  validUntil : BitVec 64
  anchoredAt : BitVec 64
deriving DecidableEq

structure FreshnessRegistry where
  access : Access
  anchors : Bytes32 → RootAnchor

/-- A registry and an issuer, by their strings. -/
abbrev Names := List UInt8 × List UInt8

/-- `abi.encodePacked(registryId, "\x1f", issuerId)`. -/
def packed (names : Names) : List UInt8 := joined 0x1f names

def anchorKey (evm : Evm) (names : Names) : Bytes32 := evm.keccak256 (packed names)

def FreshnessRegistry.getAnchor (registry : FreshnessRegistry) (evm : Evm) (names : Names) :
    RootAnchor :=
  registry.anchors (anchorKey evm names)

def anchorRevocationFreshnessRoot (evm : Evm) (registry : FreshnessRegistry) (sender : Address)
    (blockTimestamp : ℕ) (names : Names) (revocationRoot freshnessRoot : Bytes32)
    (validUntil : BitVec 64) : Except Revert FreshnessRegistry := do
  registry.access.whenNotPaused
  registry.access.onlyRole (ROOT_ANCHOR_ROLE evm) sender
  requireThat (0 < names.1.length) "registry-id-required"
  requireThat (0 < names.2.length) "issuer-id-required"
  requireThat (blockTimestamp < validUntil.toNat) "valid-until-in-past"
  .ok { registry with
    anchors := Function.update registry.anchors (anchorKey evm names)
      { revocationRoot, freshnessRoot, validUntil, anchoredAt := BitVec.ofNat 64 blockTimestamp } }

/-- A transaction, or a change of roles by the inherited functions. -/
inductive FreshnessCall
  | roles (hasRole : Bytes32 → Address → Bool)
  | pause (sender : Address)
  | unpause (sender : Address)
  | anchor (sender : Address) (blockTimestamp : ℕ) (names : Names)
    (revocationRoot freshnessRoot : Bytes32) (validUntil : BitVec 64)

/-- Whose anchor a call is for. -/
def FreshnessCall.names : FreshnessCall → Option Names
  | anchor _ _ names _ _ _ => some names
  | _ => none

def FreshnessRegistry.call (evm : Evm) (registry : FreshnessRegistry) :
    FreshnessCall → Except Revert FreshnessRegistry
  | .roles hasRole => .ok { registry with access := { registry.access with hasRole } }
  | .pause sender => do
    .ok { registry with access := ← Contracts.pause evm registry.access sender }
  | .unpause sender => do
    .ok { registry with access := ← Contracts.unpause evm registry.access sender }
  | .anchor sender blockTimestamp names revocationRoot freshnessRoot validUntil =>
    anchorRevocationFreshnessRoot evm registry sender blockTimestamp names revocationRoot
      freshnessRoot validUntil

/-- What a sequence of calls leaves: one that reverts leaves all as it was. -/
def FreshnessRegistry.run (evm : Evm) (registry : FreshnessRegistry) (calls : List FreshnessCall) :
    FreshnessRegistry :=
  calls.foldl (fun registry call => ((registry.call evm call).toOption).getD registry) registry

/-! ## `AGIDNullifierRegistry` -/

structure NullifierRegistry where
  access : Access
  usedNullifiers : Bytes32 → Bool

def nullifierKey (evm : Evm) (nullifierHash : Bytes32) (scope : List UInt8)
    (registryKeyHash : Bytes32) : Bytes32 :=
  evm.keccak256 (abiEncode registryKeyHash scope nullifierHash)

def NullifierRegistry.isNullifierUsed (registry : NullifierRegistry) (evm : Evm)
    (nullifierHash : Bytes32) (scope : List UInt8) (registryKeyHash : Bytes32) : Bool :=
  registry.usedNullifiers (nullifierKey evm nullifierHash scope registryKeyHash)

def markNullifierUsed (evm : Evm) (registry : NullifierRegistry) (sender : Address)
    (nullifierHash : Bytes32) (scope : List UInt8) (registryKeyHash : Bytes32) :
    Except Revert NullifierRegistry := do
  registry.access.whenNotPaused
  registry.access.onlyRole (NULLIFIER_WRITER_ROLE evm) sender
  requireThat (nullifierHash ≠ 0) "nullifier-required"
  requireThat (0 < scope.length) "scope-required"
  requireThat (registryKeyHash ≠ 0) "registry-key-required"
  let key := nullifierKey evm nullifierHash scope registryKeyHash
  requireThat (!registry.usedNullifiers key) "nullifier-already-used"
  .ok { registry with usedNullifiers := Function.update registry.usedNullifiers key true }

end Agid.Contracts
