import Agid.AddressCredential
import Agid.Proofs.IssuerTrust

/-!
# A credential and the scope of its issuer

The registry takes the caller's required country in place of the credential's own, and nothing
compares the two, as the required kind and layer are compared.  So what is found valid is in scope
just where nothing that stayed unread is out of it (`verified_scopeKept_iff`).
-/

namespace Agid.AddressCredential

open IssuerTrust (normalizeText normalizeCountryCode notIn includesValue issuerErrors trusted_iff
  registryErrors_eq_nil CredentialIssuerTrustRecord CredentialIssuerTrustRegistrySnapshot)

variable {P : Platform} {credential : AddressCredentialEnvelope}
  {snapshot : CredentialIssuerTrustRegistrySnapshot} {clock : ℤ}

theorem eq_of_not_differs {option : Option JsString} {value : JsString}
    (h : differs option value = false) :
    option = none ∨ option = some [] ∨ option = some value := by
  rcases option with _ | required
  · exact Or.inl rfl
  · by_cases hrequired : required = []
    · exact Or.inr (Or.inl (by rw [hrequired]))
    · simp only [differs, Option.bind_some, nonEmpty, if_neg hrequired, Option.any_some,
        decide_eq_false_iff_not, not_not] at h
      exact Or.inr (Or.inr (by rw [h]))

/-- A valid credential has the issuer, the layer and the kind that are asked for. -/
theorem not_differs_of_valid {options : VerifyAddressCredentialOptions}
    (h : (verifyAddressCredential P credential options clock).valid) :
    differs options.issuerId credential.signature.issuerId = false
      ∧ differs options.expectedLayer credential.claim.layer = false
      ∧ differs options.requiredClaimKind credential.claim.claimKind = false := by
  simp only [verifyAddressCredential, Bool.and_eq_true, decide_eq_true_eq, List.map_eq_nil_iff,
    List.filter_eq_nil_iff, List.forall_mem_cons, Bool.not_eq_true] at h
  obtain ⟨⟨_, _, _, hissuer, hlayer, hkind, _⟩, _⟩ := h
  exact ⟨hissuer, hlayer, hkind⟩

/-- What an issuer without errors has in its scope: what is required, or else the credential's. -/
theorem scope_of_issuerErrors {options : IssuerTrust.CredentialIssuerTrustEvaluationOptions}
    {nowIso : JsString} {issuer : CredentialIssuerTrustRecord}
    (h : issuerErrors P.toPlatform credential.forTrust snapshot options nowIso issuer = []) :
    notIn issuer.claimKinds (options.requiredClaimKind.getD credential.claim.claimKind) = false
      ∧ notIn issuer.layers (options.requiredLayer.getD credential.claim.layer) = false
      ∧ notIn issuer.countryCodes (normalizeCountryCode P.toPlatform
        (options.requiredCountryCode.or credential.claim.countryCode)) = false
      ∧ notIn issuer.policyVersions
        (normalizeText P.toPlatform credential.claim.policyVersion) = false := by
  unfold issuerErrors at h
  simp only [List.map_eq_nil_iff, List.filter_eq_nil_iff, List.forall_mem_cons,
    Bool.not_eq_true] at h
  obtain ⟨_, _, _, _, _, hkind, hlayer, hcountry, _, hpolicy, _⟩ := h
  refine ⟨?_, ?_, hcountry, hpolicy⟩
  · rcases hoption : options.requiredClaimKind with _ | required <;> rw [hoption] at hkind <;>
      exact hkind
  · rcases hoption : options.requiredLayer with _ | required <;> rw [hoption] at hlayer <;>
      exact hlayer

/-- An option that is empty or the credential's own value, put to a list. -/
theorem notIn_iff_of_option {values : List JsString} {option : Option JsString} {value : JsString}
    (hoption : option = none ∨ option = some [] ∨ option = some value)
    (h : notIn values (option.getD value) = false) :
    notIn values value = false ↔ option ≠ some [] ∨ notIn values value = false := by
  refine ⟨Or.inr, fun hscope => hscope.elim (fun hne => ?_) id⟩
  rcases hoption with rfl | rfl | rfl
  · exact h
  · exact absurd rfl hne
  · exact h

/-- The issuer of a valid credential is the one that its signature names, and it has in its scope
what is required of it. -/
theorem issuer_of_valid {options : VerifyAddressCredentialWithIssuerTrustOptions}
    (h : (verifyAddressCredentialWithIssuerTrust P credential snapshot options clock).valid) :
    ∃ issuer, snapshot.issuerRecords.find? (·.issuerId = credential.signature.issuerId)
        = some issuer
      ∧ (InScope P credential issuer ↔ Unreplaced P options credential issuer) := by
  simp only [verifyAddressCredentialWithIssuerTrust, Bool.and_eq_true] at h
  obtain ⟨hvalid, htrusted⟩ := h
  obtain ⟨hissuer, hlayer, hkind⟩ := not_differs_of_valid hvalid
  obtain ⟨hregistry, issuer, hfind, herrors⟩ := trusted_iff.1 htrusted
  obtain ⟨_, _, _, hne⟩ := registryErrors_eq_nil.1 hregistry
  obtain ⟨hkinds, hlayers, hcountry, hpolicy⟩ := scope_of_issuerErrors herrors
  have hid : normalizeText P.toPlatform credential.forTrust.issuerId
      = credential.signature.issuerId := by
    rcases eq_of_not_differs hissuer with h | h | h
    · cases h
    · exact absurd (Option.some.inj h) hne
    · exact Option.some.inj h
  rw [hid] at hfind
  refine ⟨issuer, hfind, fun h => ⟨Or.inr h.claimKind, Or.inr h.layer, Or.inr h.countryCode⟩,
    fun h => ⟨?_, ?_, ?_, hpolicy⟩⟩
  · exact (notIn_iff_of_option (eq_of_not_differs hkind) hkinds).2 h.claimKind
  · exact (notIn_iff_of_option (eq_of_not_differs hlayer) hlayers).2 h.layer
  · rcases h.countryCode with hnone | hscope
    · rw [hnone] at hcountry
      exact hcountry
    · exact hscope

/-- A credential that is found valid is in the scope of its issuer just where nothing was required
in place of a value of its own that is out of it. -/
theorem verified_scopeKept_iff {options : VerifyAddressCredentialWithIssuerTrustOptions}
    (h : (verifyAddressCredentialWithIssuerTrust P credential snapshot options clock).valid) :
    ScopeKept P credential snapshot
      ↔ ∀ issuer, snapshot.issuerRecords.find? (·.issuerId = credential.signature.issuerId)
          = some issuer → Unreplaced P options credential issuer := by
  obtain ⟨issuer, hfind, hscope⟩ := issuer_of_valid h
  constructor
  · rintro ⟨issuer', hfind', hinScope⟩ issuer'' hfind''
    rw [hfind] at hfind' hfind''
    obtain rfl := Option.some.inj hfind'
    obtain rfl := Option.some.inj hfind''
    exact hscope.1 hinScope
  · intro hunreplaced
    exact ⟨issuer, hfind, hscope.2 (hunreplaced issuer hfind)⟩

/-! ## A required country -/

def sampleCredential (country commitment value : String) : AddressCredentialEnvelope where
  claim := {
    version := ADDRESS_CREDENTIAL_VERSION
    subjectId := js "addr:" ++ (js commitment).take 24
    layer := js "AGID"
    claimKind := js "address-reference"
    assuranceLevel := js "source-checked"
    countryCode := some (js country)
    postalCodeHash := none
    addressCommitment := js commitment
    commitmentAlgorithm := ADDRESS_COMMITMENT_ALGORITHM
    evidenceCommitmentRefs := []
    qualityBand := js "verified-high"
    verificationStatus := js "verified"
    verificationScore := .int 1
    sourceIds := []
    issuedAt := js "2026-01-01T00:00:00.000Z"
    expiresAt := none
    policyVersion := none
    proofHint := ⟨true, false, js "holder-knows-address-opening-for-signed-commitment"⟩ }
  signature := ⟨ADDRESS_CREDENTIAL_SIGNATURE_ALGORITHM, js "postal", js value⟩
  privateSalt := none

def japanese : AddressCredentialEnvelope :=
  sampleCredential "JP" "XOs5A9kPyF2xOvU2flEAioXRZelIxDvsEHMPMMTbbEY"
    "k_57UocheF9Glz5n5UDk7dhe2QB0re_-MmXmMRFspUQ"

def brazilian : AddressCredentialEnvelope :=
  sampleCredential "BR" "D9TJupxXo-EwNiTYOYUEo3IzNuZgmwEJpYLqJ_-Sx7Y"
    "jygfDv6CpxiIoF-FAwpMHf8mofx5QHfeJbShao6sRdo"

/-- A platform that knows the signatures of the two credentials. -/
def samplePlatform : Platform where
  toPlatform := IssuerTrust.plainPlatform
  verifyHmacSha256 secret payload value := secret = js "issuer-secret"
    && [japanese, brazilian].any fun credential =>
      payload = credentialSigningPayload credential.claim && value = credential.signature.value
  sha256Base64Url bytes := bytes.map fun b => Fin.ofNat 65536 b.toNat

/-- The issuer is registered for Japan. -/
def sampleRegistry : CredentialIssuerTrustRegistrySnapshot :=
  { IssuerTrust.suspendedRegistry "trusted" with
    issuerRecords := [{ IssuerTrust.issuerOf "trusted" with countryCodes := [js "JP"] }] }

def sampleOptions (requiredCountryCode : Option JsString) :
    VerifyAddressCredentialWithIssuerTrustOptions where
  issuerSecret := some (js "issuer-secret")
  issuerSecretsById := none
  now := none
  expectedLayer := none
  requiredClaimKind := none
  minimumAssuranceLevel := none
  minimumCredentialScore := none
  allowedCredentialStatuses := none
  address := none
  privateSalt := none
  requiredCountryCode
  requiredSchemaHash := none
  minimumTrustScore := none
  allowedIssuerStatuses := none
  trustedRegistryRoots := none
  maxRegistryAgeSeconds := none

/-- Both credentials are found valid, the second one where Japan is required. -/
theorem samples_valid :
    (verifyAddressCredentialWithIssuerTrust samplePlatform japanese sampleRegistry
        (sampleOptions none) 0).valid = true
      ∧ (verifyAddressCredentialWithIssuerTrust samplePlatform brazilian sampleRegistry
        (sampleOptions (some (js "JP"))) 0).valid = true := by
  decide +kernel

theorem japanese_scopeKept : ScopeKept samplePlatform japanese sampleRegistry := by
  refine (verified_scopeKept_iff samples_valid.1).2 fun _ hfind => ?_
  obtain rfl := Option.some.inj hfind
  exact ⟨Or.inl (Option.some_ne_none []).symm, Or.inl (Option.some_ne_none []).symm, Or.inl rfl⟩

/-- Japan is required, and a credential for Brazil is found valid. -/
theorem brazilian_not_scopeKept :
    (verifyAddressCredentialWithIssuerTrust samplePlatform brazilian sampleRegistry
        (sampleOptions (some (js "JP"))) 0).valid = true
      ∧ ¬ ScopeKept samplePlatform brazilian sampleRegistry := by
  refine ⟨samples_valid.2, ?_⟩
  rintro ⟨issuer, hfind, hscope⟩
  obtain rfl := Option.some.inj hfind
  have := hscope.countryCode
  revert this
  decide

end Agid.AddressCredential
