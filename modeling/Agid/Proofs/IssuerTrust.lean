import Agid.IssuerTrust
import Agid.Proofs.SecurePos

/-!
# A declared root binds when it is the issuers' own

The evaluation compares the root that a document declares with the trusted ones and never computes
it.  So a trusted root vouches for the issuers exactly where the document declares the root that
they have (`binds_iff`): in every other document that has an issuer to report, whoever trusts the
declared root is told of one.
-/

namespace Agid.IssuerTrust

variable {P : Platform} {snapshot : CredentialIssuerTrustRegistrySnapshot}

theorem lessThan_self (x : JsNumber) : lessThan x x = false := by
  cases x <;> simp [lessThan]

theorem evaluate_issuer {credential : Credential}
    {options : CredentialIssuerTrustEvaluationOptions} {clock : ℤ} :
    (evaluateCredentialIssuerTrust P credential snapshot options clock).issuer
      = snapshot.issuerRecords.find? (·.issuerId = normalizeText P credential.issuerId) := by
  unfold evaluateCredentialIssuerTrust
  rcases hfind : snapshot.issuerRecords.find? (·.issuerId = normalizeText P credential.issuerId)
    with _ | issuer <;> simp [hfind]

/-- An evaluation that trusts found the issuer, and no error. -/
theorem trusted_iff {credential : Credential} {options : CredentialIssuerTrustEvaluationOptions}
    {clock : ℤ} :
    (evaluateCredentialIssuerTrust P credential snapshot options clock).trusted
      ↔ registryErrors P snapshot options (normalizeIsoDateWithFallback P options.now clock)
          (normalizeText P credential.issuerId) = []
        ∧ ∃ issuer, snapshot.issuerRecords.find? (·.issuerId = normalizeText P credential.issuerId)
            = some issuer
          ∧ issuerErrors P credential snapshot options
            (normalizeIsoDateWithFallback P options.now clock) issuer = [] := by
  unfold evaluateCredentialIssuerTrust
  rcases hfind : snapshot.issuerRecords.find? (·.issuerId = normalizeText P credential.issuerId)
    with _ | issuer <;> simp [hfind]

theorem registryErrors_eq_nil {options : CredentialIssuerTrustEvaluationOptions}
    {nowIso issuerId : JsString} :
    registryErrors P snapshot options nowIso issuerId = []
      ↔ snapshot.anchorable = true ∧ options.trustedRegistryRoots.all (snapshot.registryRoot ∈ ·)
        ∧ isStale P snapshot options nowIso = false ∧ issuerId ≠ [] := by
  unfold registryErrors
  simp only [List.append_eq_nil_iff, ite_eq_left_iff, ite_eq_right_iff, List.cons_ne_nil, imp_false,
    Bool.not_eq_true, Bool.not_eq_false]
  tauto

/-- The credential of an issuer, without a claim. -/
def bareCredential (id : Option JsString) : Credential := ⟨none, id⟩

/-- The options of a caller who takes this issuer as it is, if the root is trusted. -/
def lenient (issuer : CredentialIssuerTrustRecord) (root : JsString) (now : Option Moment)
    (credentialType : JsString) : CredentialIssuerTrustEvaluationOptions where
  now
  credentialType := some credentialType
  requiredClaimKind := none
  requiredLayer := none
  requiredCountryCode := some []
  requiredSchemaHash := none
  minimumTrustScore := some issuer.trustScore
  allowedIssuerStatuses := some [issuer.status]
  trustedRegistryRoots := some [root]
  maxRegistryAgeSeconds := none

theorem normalizeText_nil : ∀ {value : Option JsString}, value.getD [] = [] →
    normalizeText P value = [] := by
  intro value h
  unfold normalizeText
  rw [h, P.nfkc.ascii [] (by simp)]
  rfl

theorem notIn_nil (values : List JsString) : notIn values [] = false := by
  simp [notIn]

theorem issuerErrors_lenient {issuer : CredentialIssuerTrustRecord} {id : Option JsString}
    {now : Option Moment} {clock : ℤ} {credentialType : JsString} (root : JsString)
    (hnow : snapshot.trustPolicy.requireValidWindow →
      isNotYetValid P issuer (normalizeIsoDateWithFallback P now clock) = false
        ∧ isExpired P issuer (normalizeIsoDateWithFallback P now clock) = false)
    (htype : snapshot.trustPolicy.requireCredentialScopeMatch →
      includesValue issuer.credentialTypes (normalizeText P (some credentialType))) :
    issuerErrors P (bareCredential id) snapshot (lenient issuer root now credentialType)
      (normalizeIsoDateWithFallback P now clock) issuer = [] := by
  unfold issuerErrors
  simp only [List.map_eq_nil_iff, List.filter_eq_nil_iff, List.forall_mem_cons, Bool.not_eq_true,
    List.not_mem_nil, false_imp_iff, implies_true, and_true]
  have hcountry : normalizeCountryCode P (some []) = [] := by
    rw [normalizeCountryCode, normalizeText_nil rfl, P.toUpperCase_nil]
  refine ⟨?_, lessThan_self _, ?_, ?_, ?_, notIn_nil _, notIn_nil _, ?_, ?_, ?_⟩
  · simp [lenient]
  · by_cases hrequired : snapshot.trustPolicy.requireValidWindow = true
    · rw [(hnow hrequired).1, Bool.and_false]
    · rw [Bool.eq_false_of_not_eq_true hrequired, Bool.false_and]
  · by_cases hrequired : snapshot.trustPolicy.requireValidWindow = true
    · rw [(hnow hrequired).2, Bool.and_false]
    · rw [Bool.eq_false_of_not_eq_true hrequired, Bool.false_and]
  · by_cases hrequired : snapshot.trustPolicy.requireCredentialScopeMatch = true
    · have h := htype hrequired
      simp only [lenient, bareCredential, Option.some_or, Option.getD_some, h, Bool.not_true,
        Bool.and_false]
    · rw [Bool.eq_false_of_not_eq_true hrequired, Bool.false_and]
  · change notIn issuer.countryCodes (normalizeCountryCode P (some [])) = false
    rw [hcountry, notIn_nil]
  · change notIn issuer.schemaHashes (normalizeText P none) = false
    rw [normalizeText_nil rfl, notIn_nil]
  · change notIn issuer.policyVersions (normalizeText P none) = false
    rw [normalizeText_nil rfl, notIn_nil]

/-- What an issuer without errors is like. -/
theorem issuerErrors_eq_nil {credential : Credential} {issuer : CredentialIssuerTrustRecord}
    {options : CredentialIssuerTrustEvaluationOptions} {nowIso : JsString}
    (h : issuerErrors P credential snapshot options nowIso issuer = []) :
    (snapshot.trustPolicy.requireValidWindow →
        isNotYetValid P issuer nowIso = false ∧ isExpired P issuer nowIso = false)
      ∧ (snapshot.trustPolicy.requireCredentialScopeMatch → ∃ credentialType,
        includesValue issuer.credentialTypes (normalizeText P (some credentialType))) := by
  unfold issuerErrors at h
  simp only [List.map_eq_nil_iff, List.filter_eq_nil_iff, List.forall_mem_cons] at h
  obtain ⟨_, _, hfrom, huntil, hscope, _⟩ := h
  constructor
  · intro hrequired
    rw [hrequired, Bool.true_and, Bool.not_eq_true] at hfrom huntil
    exact ⟨hfrom, huntil⟩
  · intro hrequired
    rw [hrequired, Bool.true_and, Bool.not_eq_true, Bool.not_eq_false'] at hscope
    exact ⟨_, hscope⟩

/-- A trusting caller is told of a reportable issuer, whatever the declared root is. -/
theorem trusted_of_reportable (h : Reportable P snapshot) :
    ∃ credential options clock, options.trustedRegistryRoots = some [snapshot.registryRoot]
      ∧ (evaluateCredentialIssuerTrust P credential snapshot options clock).trusted := by
  obtain ⟨hanchorable, id, issuer, hid, hfind, hwindow, hscope⟩ := h
  have hnow : ∃ now clock, snapshot.trustPolicy.requireValidWindow →
      isNotYetValid P issuer (normalizeIsoDateWithFallback P now clock) = false
        ∧ isExpired P issuer (normalizeIsoDateWithFallback P now clock) = false := by
    by_cases hrequired : snapshot.trustPolicy.requireValidWindow = true
    · obtain ⟨now, clock, hvalid⟩ := hwindow hrequired
      exact ⟨now, clock, fun _ => hvalid⟩
    · exact ⟨none, 0, fun h => absurd h hrequired⟩
  have htype : ∃ credentialType, snapshot.trustPolicy.requireCredentialScopeMatch →
      includesValue issuer.credentialTypes (normalizeText P (some credentialType)) := by
    by_cases hrequired : snapshot.trustPolicy.requireCredentialScopeMatch = true
    · obtain ⟨credentialType, hincludes⟩ := hscope hrequired
      exact ⟨credentialType, fun _ => hincludes⟩
    · exact ⟨[], fun h => absurd h hrequired⟩
  obtain ⟨now, clock, hnow⟩ := hnow
  obtain ⟨credentialType, htype⟩ := htype
  refine ⟨bareCredential id, lenient issuer snapshot.registryRoot now credentialType, clock, rfl,
    ?_⟩
  refine trusted_iff.2 ⟨?_, issuer, hfind, issuerErrors_lenient _ hnow htype⟩
  rw [registryErrors_eq_nil]
  exact ⟨hanchorable, by simp [lenient], rfl, hid⟩

theorem binds_iff (P : Platform) (snapshot : CredentialIssuerTrustRegistrySnapshot) :
    Binds P snapshot
      ↔ snapshot.registryRoot = recomputedRoot P snapshot ∨ ¬ Reportable P snapshot := by
  constructor
  · intro h
    by_contra! hcon
    obtain ⟨hroot, hreportable⟩ := hcon
    obtain ⟨credential, options, clock, hroots, htrusted⟩ := trusted_of_reportable hreportable
    obtain ⟨hmem, _⟩ := h credential options clock _ hroots (List.cons_ne_nil _ _) htrusted
    exact hroot (List.mem_singleton.1 hmem).symm
  · rintro h credential options clock roots hroots _ htrusted
    rw [trusted_iff, registryErrors_eq_nil, hroots] at htrusted
    obtain ⟨⟨hanchorable, hroot, _, hid⟩, issuer, hfind, hissuer⟩ := htrusted
    rw [evaluate_issuer]
    refine ⟨?_, issuer, List.mem_of_find?_eq_some hfind, hfind⟩
    rcases h with h | h
    · rw [← h]
      exact of_decide_eq_true hroot
    · obtain ⟨hwindow, hscope⟩ := issuerErrors_eq_nil hissuer
      exact absurd ⟨hanchorable, _, issuer, hid, hfind, fun hrequired =>
        ⟨_, _, hwindow hrequired⟩, hscope⟩ h

/-! ## An altered record -/

/-- A platform on which nothing is hashed away. -/
def plainPlatform : Platform where
  nfkc := { normalize := id, ascii := id_ascii }
  toUpperCase := id
  toUpperCase_nil := rfl
  dates := Dates.ofTable .empty nodup_noTexts long_noTexts
  numberValue
    | .int z => .finite z
    | .other _ _ => .finite 0
    | .infinite negative => if negative then .negInfinity else .infinity
  sha256Hex bytes := bytes.map fun b => Fin.ofNat 65536 b.toNat

def issuerOf (status : String) : CredentialIssuerTrustRecord where
  issuerId := js "postal"
  issuerDid := js "did:kilt:postal"
  status := js status
  trustLevel := js "official"
  credentialTypes := []
  claimKinds := []
  layers := []
  countryCodes := []
  regionCodes := []
  schemaHashes := []
  policyVersions := []
  keyCommitments := [js "key"]
  publicAttestationRefs := []
  trustScore := .int 1
  validFrom := none
  validUntil := none
  sourceIds := [js "open-data"]

/-- The registry in which the issuer has this status, with the root of the one in which it is
suspended. -/
def suspendedRegistry (status : String) : CredentialIssuerTrustRegistrySnapshot where
  registryId := js "AGID"
  registryVersion := js "2026.01"
  registryRoot := buildRegistryRoot plainPlatform (js "AGID") (js "2026.01") (js "policy")
    [issuerOf "suspended"]
  trustPolicy := ⟨[js "trusted"], .int 1, true, true⟩
  trustPolicyHash := js "policy"
  generatedAt := []
  issuerRecords := [issuerOf status]
  anchorable := true

/-- The root of the registry that suspends the issuer vouches for the one that trusts it. -/
theorem suspendedRegistry_not_binds :
    (suspendedRegistry "trusted").registryRoot
        = recomputedRoot plainPlatform (suspendedRegistry "suspended")
      ∧ ¬ Binds plainPlatform (suspendedRegistry "trusted") := by
  refine ⟨rfl, fun h => ?_⟩
  have htrusted : (evaluateCredentialIssuerTrust plainPlatform (bareCredential (some (js "postal")))
      (suspendedRegistry "trusted") ⟨none, none, none, none, none, none, none, none,
        some [(suspendedRegistry "trusted").registryRoot], none⟩ 0).trusted = true := by
    decide +kernel
  have hne : recomputedRoot plainPlatform (suspendedRegistry "trusted")
      ∉ [(suspendedRegistry "trusted").registryRoot] := by decide +kernel
  exact hne (h _ _ _ _ rfl (List.cons_ne_nil _ _) htrusted).1

end Agid.IssuerTrust
