import Agid.MorphismNetwork
import Agid.Proofs.SecurePos

/-!
# The id of an envelope

An envelope is made with the id of its content (`hasId_created`), and neither the checks nor the
registry ask for that.  A record is that of an envelope that passed the checks once
(`registered_once`), whatever the time it is asked for at.
-/

namespace Agid.MorphismNetwork

variable {P : Platform}

/-! ## Ids -/

theorem member_append (name : JsString) : ∀ (l m : List (JsString × JsonValue)),
    (∀ x ∈ l, x.1 ≠ name) → JsonValue.member name (l ++ m) = JsonValue.member name m
  | [], _, _ => rfl
  | x :: l, m, h => by
    rw [List.forall_mem_cons] at h
    rw [List.cons_append, JsonValue.member, if_neg h.1, member_append name l m h.2]

/-- No member of the claim without an id is one. -/
theorem claimWithoutId_names (input : CreateAmnResolutionEnvelopeInput)
    (result : AddressMorphismResult) (issuedAt privateSalt : JsString) :
    ∀ m ∈ claimWithoutId P input result issuedAt privateSalt, js m.1 ≠ js "envelopeId" := by
  have hnames : (claimWithoutId P input result issuedAt privateSalt).map Prod.fst
      = ["modelVersion", "issuedAt", "expiresAt", "policy", "policyHash", "evidenceRoot",
        "proofBundleId", "commitmentAlgorithm", "commitments", "evidenceCommitments", "workflow",
        "resolution", "privacy"] := rfl
  intro m hm heq
  have hmem := List.mem_map_of_mem (f := Prod.fst) hm
  rw [hnames] at hmem
  have hall : ∀ name ∈ ["modelVersion", "issuedAt", "expiresAt", "policy", "policyHash",
      "evidenceRoot", "proofBundleId", "commitmentAlgorithm", "commitments",
      "evidenceCommitments", "workflow", "resolution", "privacy"],
      js name ≠ js "envelopeId" := by decide
  exact hall m.1 hmem heq

/-- An object with an id after its other members. -/
theorem object_withId {members : List (String × Option JsonValue)}
    (h : ∀ m ∈ members, js m.1 ≠ js "envelopeId") (envelopeId : JsString) :
    HasId (object (members ++ [("envelopeId", some (.string envelopeId))])) envelopeId
      ∧ contentValue (object (members ++ [("envelopeId", some (.string envelopeId))]))
        = object members := by
  have hnames : ∀ x ∈ members.filterMap fun m => m.2.map (js m.1, ·), x.1 ≠ js "envelopeId" := by
    intro x hx
    obtain ⟨m, hm, hmx⟩ := List.mem_filterMap.1 hx
    obtain ⟨v, -, rfl⟩ := Option.map_eq_some_iff.1 hmx
    exact h m hm
  constructor
  · simp only [HasId, object, read, List.filterMap_append]
    rw [member_append _ _ _ hnames]
    simp [JsonValue.member]
  · simp only [object, contentValue, List.filterMap_append, List.filter_append]
    rw [List.filter_eq_self.2 fun x hx => by simpa using hnames x hx]
    simp

/-- An envelope is made with the id of its content. -/
theorem hasId_created {call : Call} {claim : JsonValue} (h : created P call = some claim) :
    HasId claim (contentId P claim) := by
  rcases call with ⟨now, input, result⟩ | _ | _
  · simp only [created, createAmnResolutionEnvelope] at h
    split_ifs at h with haddress hcandidates
    simp only [Option.some.injEq] at h
    subst h
    unfold contentId
    obtain ⟨hid, hcontent⟩ := object_withId (claimWithoutId_names input result
      (input.issuedAt.getD (P.dates.toISOString now)) (input.privateSalt.getD
        (createDefaultPrivateSalt P input (input.issuedAt.getD (P.dates.toISOString now)))))
      (js "AMN-" ++ shortUpperHash P (object (claimWithoutId P input result
        (input.issuedAt.getD (P.dates.toISOString now)) (input.privateSalt.getD
          (createDefaultPrivateSalt P input (input.issuedAt.getD (P.dates.toISOString now)))))) 24)
    rw [hcontent]
    exact hid
  · cases h
  · cases h

/-! ## What is accepted -/

theorem isEmpty_when {holds : Bool} {error : String} : (when holds error) = [] ↔ holds = false := by
  cases holds <;> simp [when]

theorem isEnvelopeId_string {v : Option JsonValue} (h : isEnvelopeId v = true) :
    ∃ envelopeId, v = some (.string envelopeId) := by
  unfold isEnvelopeId at h
  split at h
  · exact ⟨_, rfl⟩
  · cases h

theorem verify_valid {now : ℤ} {claim : JsonValue} {v : AmnEnvelopeVerification}
    (h : verifyAmnResolutionEnvelope P now (some claim) = some v) (hvalid : v.valid = true) :
    isExpired P claim now = some false ∧ ∃ envelopeId, HasId claim envelopeId := by
  unfold verifyAmnResolutionEnvelope at h
  simp only [Option.getD_some, Option.bind_eq_bind, Option.bind_eq_some_iff] at h
  obtain ⟨expired, hexpired, passed, -, hidden, -, hv⟩ := h
  obtain rfl := Option.some.inj hv
  simp only [verificationErrors, List.isEmpty_iff, List.append_eq_nil_iff, isEmpty_when] at hvalid
  obtain ⟨⟨⟨⟨⟨⟨⟨⟨⟨-, -⟩, hid⟩, -⟩, -⟩, -⟩, -⟩, hlive⟩, -⟩, -⟩ := hvalid
  exact ⟨hlive ▸ hexpired, isEnvelopeId_string (by simpa using hid)⟩

/-- A claim that is accepted has passed the checks, and has an id. -/
theorem registerEnvelope_accepts {now : ℤ} {claim : Option JsonValue} {s : AmnRegistry}
    {r : AmnRegistry × AmnRegistryRegistration} (h : registerEnvelope P now claim s = some r)
    (hstatus : r.2.status ≠ .rejected) :
    ∃ v envelopeId, verifyAmnResolutionEnvelope P now claim = some v ∧ v.valid = true
      ∧ read claim "envelopeId" = some (.string envelopeId)
      ∧ ∀ id, r.1.records.get? id ≠ none → s.records.get? id ≠ none ∨ id = envelopeId := by
  unfold registerEnvelope at h
  obtain ⟨v, hv, h⟩ := Option.bind_eq_some_iff.1 h
  rcases hid : acceptedId claim v with _ | envelopeId
  · simp only [hid] at h
    obtain rfl := Option.some.inj h
    exact absurd rfl hstatus
  have hvalid : v.valid = true ∧ read claim "envelopeId" = some (.string envelopeId) := by
    unfold acceptedId at hid
    split at hid
    · rename_i id hvalid hread
      unfold nonEmpty at hid
      split_ifs at hid with hnil
      exact ⟨hvalid, hread.trans (by rw [Option.some.inj hid])⟩
    · cases hid
  refine ⟨v, envelopeId, hv, hvalid.1, hvalid.2, fun id hget => ?_⟩
  simp only [hid] at h
  rcases hrecord : s.records.get? envelopeId with _ | existing
  · simp only [hrecord] at h
    obtain ⟨record, -, h⟩ := Option.bind_eq_some_iff.1 h
    obtain rfl := Option.some.inj h
    by_cases hsame : envelopeId = id
    · exact .inr hsame.symm
    · exact .inl (by rwa [Record.get?_set_of_ne _ _ hsame] at hget)
  · simp only [hrecord] at h
    obtain rfl := Option.some.inj h
    exact .inl hget

theorem registerEnvelope_rejects {now : ℤ} {claim : Option JsonValue} {s : AmnRegistry}
    {r : AmnRegistry × AmnRegistryRegistration} (h : registerEnvelope P now claim s = some r)
    (hstatus : r.2.status = .rejected) : r.1.records = s.records := by
  unfold registerEnvelope at h
  obtain ⟨v, hv, h⟩ := Option.bind_eq_some_iff.1 h
  rcases hid : acceptedId claim v with _ | envelopeId
  · simp only [hid] at h
    rw [← Option.some.inj h]
  simp only [hid] at h
  rcases hrecord : s.records.get? envelopeId with _ | existing
  · simp only [hrecord] at h
    obtain ⟨record, -, h⟩ := Option.bind_eq_some_iff.1 h
    obtain rfl := Option.some.inj h
    cases hstatus
  · simp only [hrecord] at h
    obtain rfl := Option.some.inj h
    cases hstatus

theorem accepted_eq {s : AmnRegistry} {call : Call} {claim : JsonValue}
    (h : accepted P s call = some claim) :
    ∃ now v, call = .register now (some claim)
      ∧ verifyAmnResolutionEnvelope P now (some claim) = some v ∧ v.valid = true := by
  rcases call with _ | ⟨now, claim'⟩ | _
  · cases h
  · obtain ⟨r, hr, h⟩ := Option.bind_eq_some_iff.1 h
    split_ifs at h with hstatus
    subst h
    obtain ⟨v, -, hv, hvalid, -⟩ := registerEnvelope_accepts hr hstatus
    exact ⟨now, v, rfl, hv, hvalid⟩
  · cases h

/-- A record that is new is that of a claim that is accepted. -/
theorem next_records {s s' : AmnRegistry} {call : Call} (h : next P s call = some s')
    {id : JsString} (hget : s'.records.get? id ≠ none) :
    s.records.get? id ≠ none ∨ ∃ claim, accepted P s call = some claim ∧ HasId claim id := by
  rcases call with _ | ⟨now, claim⟩ | _
  · obtain rfl := Option.some.inj h
    exact .inl hget
  · have hs := Option.some.inj h
    rcases hr : registerEnvelope P now claim s with _ | r
    · rw [hr] at hs
      subst hs
      exact .inl hget
    rw [hr] at hs
    subst hs
    by_cases hstatus : r.2.status = .rejected
    · exact .inl (registerEnvelope_rejects hr hstatus ▸ hget)
    obtain ⟨v, envelopeId, -, -, hread, hnew⟩ := registerEnvelope_accepts hr hstatus
    refine (hnew id hget).imp_right fun hid => ?_
    rcases claim with _ | claim
    · cases hread
    · refine ⟨claim, ?_, hid ▸ hread⟩
      simp only [accepted, hr, Option.bind_some, hstatus, if_false]
  · obtain rfl := Option.some.inj h
    exact .inl hget

/-- What is registered was accepted once. -/
theorem registered_once {past : Past} {s : AmnRegistry}
    (h : History.Run (next P) createInMemoryAmnRegistry past s) :
    ∀ id, s.records.get? id ≠ none → ∃ claim, Accepted P past claim ∧ HasId claim id := by
  induction h with
  | init => exact fun id hget => absurd rfl hget
  | @step past s s' e _ taken ih =>
    intro id hget
    rcases next_records taken hget with hold | ⟨claim, haccepted, hid⟩
    · obtain ⟨claim, ⟨e', he', haccepted⟩, hid⟩ := ih id hold
      exact ⟨claim, ⟨e', List.mem_cons_of_mem _ he', haccepted⟩, hid⟩
    · exact ⟨claim, ⟨(s, e), List.mem_cons_self, haccepted⟩, hid⟩

/-! ## Runs -/

/-- In a run of untampered envelopes each has the id of its content. -/
theorem Untampered.hasId : ∀ {past : Past}, Untampered P past → ∀ {claim : JsonValue},
    Known P past claim → HasId claim (contentId P claim)
  | [], _, claim, ⟨e, he, _⟩ => by cases he
  | (s, call) :: past, h, claim, ⟨e, he, hknown⟩ => by
    rcases List.mem_cons.1 he with rfl | he
    · rcases hknown with haccepted | hcreated
      · obtain ⟨now, v, hcall, hv, hvalid⟩ := accepted_eq haccepted
        exact (h.1.1 now claim hcall (by simp [hv, hvalid])).2.1
      · exact hasId_created hcreated
    · exact Untampered.hasId h.2 ⟨e, he, hknown⟩

theorem Untampered.resolved : ∀ {past : Past}, Untampered P past → ∀ {claim : JsonValue},
    Accepted P past claim → isUnresolved claim = false
  | [], _, claim, ⟨e, he, _⟩ => by cases he
  | (s, call) :: past, h, claim, ⟨e, he, haccepted⟩ => by
    rcases List.mem_cons.1 he with rfl | he
    · obtain ⟨now, v, hcall, hv, hvalid⟩ := accepted_eq haccepted
      exact (h.1.1 now claim hcall (by simp [hv, hvalid])).1
    · exact Untampered.resolved h.2 ⟨e, he, haccepted⟩

theorem HasId.unique {claim : JsonValue} {a b : JsString} (ha : HasId claim a)
    (hb : HasId claim b) : a = b := by
  simpa [HasId] using ha.symm.trans hb

/-- In every run of untampered envelopes that are not asked for too late, tampering is evident. -/
theorem tamperEvident_of_untampered (P : Platform) {past : Past} {s : AmnRegistry}
    (h : History.Run (next P) createInMemoryAmnRegistry past s) (hpast : Untampered P past) :
    TamperEvident P past := by
  induction h with
  | init => trivial
  | @step past s s' call run taken ih =>
    have hbefore : Untampered P past := hpast.2
    obtain ⟨⟨hregister, hverify⟩, -⟩ := hpast
    refine ⟨⟨fun claim haccepted => ?_, fun now envelopeId hcall hvalid => ?_⟩, ih hbefore⟩
    · obtain ⟨now, v, hcall, hv, hvalid⟩ := accepted_eq haccepted
      obtain ⟨hresolved, hid, hcontent⟩ := hregister now claim hcall (by simp [hv, hvalid])
      refine ⟨hresolved, fun now' claim' hcall' => ?_, fun other envelopeId hother h₁ h₂ => ?_⟩
      · obtain ⟨rfl, rfl⟩ := Call.register.inj (hcall.symm.trans hcall')
        exact (verify_valid hv hvalid).1
      · have hsame : contentId P other = contentId P claim :=
          ((hbefore.hasId hother).unique h₂).trans (h₁.unique hid)
        exact (hcontent other hother hsame).symm
    · refine ⟨registered_once run envelopeId ?_, fun claim haccepted hid =>
        ⟨hbefore.resolved haccepted, hverify now envelopeId hcall claim haccepted hid⟩⟩
      unfold AmnRegistry.verifyEnvelope at hvalid
      split at hvalid
      · cases hvalid
      · rename_i record hget
        simp [hget]

/-! ## An altered envelope -/

/-- The digests of the sample's texts, by their lengths. -/
def sampleDigest (s : JsString) : JsString :=
  (match s.length with
    | 2 => ["4f53cda18c2baa0c", "0354bb5f9a3ecbe5", "ed12ab4d8e11ba87", "3c2f11161202b945"]
    | 166 => ["a3943a8a563084ff", "d030915829b5cb58", "f3b05d962b8bc660", "ea89f76c12ccf4c5"]
    | 1090 => ["c6b0fe94d1d839a8", "dd3b7449baab3bec", "2312ea6699e07d63", "e74782247cd1279d"]
    | 438 => ["7572c8a4d0b56ef1", "5697723e70548138", "62812964593b04e7", "859290bec3ef107d"]
    | _ => []).flatMap js

def samplePlatform : Platform where
  dates := .ofTable ⟨[(1780704180000, js "2026-06-06T00:03:00.000Z"),
    (1780790520000, js "2026-06-07T00:02:00.000Z")], by decide⟩ (by decide) (by decide)
  localeLe a b := decide (a ≤ b)
  sha256Hex := sampleDigest
  toUpperCase := List.map fun c => if 97 ≤ c.val ∧ c.val ≤ 122 then c - 32 else c
  numberValue
    | .int z => .finite z
    | _ => .nan
  clamp n := n
  toFixed _ n := n

/-- An envelope with a person's id, which is given to it as `pid`. -/
def sampleClaim (pid : String) : JsonValue := object [
  ("modelVersion", text "address-morphism-network-v1"),
  ("issuedAt", text "2026-06-06T00:02:00.000Z"), ("expiresAt", text "2026-06-07T00:02:00.000Z"),
  ("policy", some (object [("policyVersion", text "amn-resolution-policy-v1"),
    ("resolverVersion", text "r1"), ("purpose", text "shipping"),
    ("qualityThreshold", some (count 0)), ("unresolvedPolicy", text "u1"),
    ("privacyMode", text "commitments-only")])),
  ("policyHash", some (.string (["a3943a8a563084ff", "d030915829b5cb58", "f3b05d962b8bc660",
    "ea89f76c12ccf4c5"].flatMap js))),
  ("evidenceRoot", some (.string (["4f53cda18c2baa0c", "0354bb5f9a3ecbe5", "ed12ab4d8e11ba87",
    "3c2f11161202b945"].flatMap js))),
  ("commitmentAlgorithm", text "sha256-amn-commitment-v1"),
  ("commitments", some (object [("inputAddress", text "c1"), ("candidateSet", text "c2"),
    ("clusterSet", text "c3"), ("historyUpdate", text "c4")])),
  ("evidenceCommitments", some (.array [])),
  ("workflow", some (.array [object [("step", text "pid-issuance"), ("passed", some (.bool true)),
    ("commitment", text "c5")]])),
  ("resolution", some (object [("status", text "verified"), ("pid", text pid),
    ("rpid", some .null), ("dpid", some .null), ("confidence", some (count 1)),
    ("risk", some (count 0)), ("evidence", some (count 1)), ("probability", some (count 1)),
    ("entropy", some (count 0)), ("clusterCount", some (count 1)),
    ("candidateCount", some (count 1)), ("selectedClusterCommitment", some .null),
    ("selectedSourceCount", some (count 1))])),
  ("privacy", some (object [("mode", text "m"), ("hides", some (strings HIDDEN)),
    ("publicPayloadRule", text "p")])),
  ("envelopeId", text "AMN-C6B0FE94D1D839A8DD3B7449")]

/-- Three minutes past midnight. -/
def sampleNow : ℤ := 1780704180000

theorem accepted_of_status {now : ℤ} {claim : JsonValue} {s : AmnRegistry}
    (h : (registerEnvelope P now (some claim) s).any fun r => r.2.status ≠ .rejected) :
    accepted P s (.register now (some claim)) = some claim := by
  rcases hr : registerEnvelope P now (some claim) s with _ | r
  · rw [hr] at h
    cases h
  · rw [hr] at h
    simp only [accepted, hr, Option.bind_some]
    exact if_neg (by simpa using h)

/-- The registry with the envelope. -/
def sampleRegistry : AmnRegistry :=
  ((registerEnvelope samplePlatform sampleNow (some (sampleClaim "AMT-1"))
    createInMemoryAmnRegistry).map Prod.fst).getD createInMemoryAmnRegistry

/-- Both envelopes have the id they state, though their contents differ, and both are registered. -/
theorem samples_registered :
    contentId samplePlatform (sampleClaim "AMT-1") = js "AMN-C6B0FE94D1D839A8DD3B7449"
      ∧ content samplePlatform (sampleClaim "AMT-22") ≠ content samplePlatform (sampleClaim "AMT-1")
      ∧ accepted samplePlatform createInMemoryAmnRegistry
        (.register sampleNow (some (sampleClaim "AMT-1"))) = some (sampleClaim "AMT-1")
      ∧ accepted samplePlatform sampleRegistry
        (.register sampleNow (some (sampleClaim "AMT-22"))) = some (sampleClaim "AMT-22") :=
  ⟨by decide +kernel, by decide +kernel, accepted_of_status (by decide +kernel),
    accepted_of_status (by decide +kernel)⟩

/-- It is registered, and asked for at the time it expires. -/
def untamperedPast : Past :=
  [(sampleRegistry, .verify 1780790520000 (js "AMN-C6B0FE94D1D839A8DD3B7449")),
    (createInMemoryAmnRegistry, .register sampleNow (some (sampleClaim "AMT-1")))]

theorem sample_expiry :
    isExpired samplePlatform (sampleClaim "AMT-1") 1780790520000 = some false := by
  decide

theorem tamperEvident_of_untampered_sample : TamperEvident samplePlatform untamperedPast := by
  have hrun : History.Run (next samplePlatform) createInMemoryAmnRegistry untamperedPast
      sampleRegistry := (History.Run.init.step rfl).step rfl
  refine tamperEvident_of_untampered samplePlatform hrun ⟨⟨?_, ?_⟩, ⟨?_, ?_⟩, trivial⟩
  · intro now claim hcall
    cases hcall
  · rintro now envelopeId hcall claim ⟨e, he, haccepted⟩ -
    obtain ⟨rfl, rfl⟩ := Call.verify.inj hcall
    obtain rfl := List.mem_singleton.1 he
    obtain ⟨now, v, hcall, -⟩ := accepted_eq haccepted
    obtain ⟨-, hclaim⟩ := Call.register.inj hcall
    obtain rfl := Option.some.inj hclaim
    exact sample_expiry
  · intro now claim hcall _
    obtain ⟨-, hclaim⟩ := Call.register.inj hcall
    obtain rfl := Option.some.inj hclaim
    refine ⟨by decide, ?_, fun other hother => ?_⟩
    · rw [samples_registered.1]
      rfl
    · obtain ⟨e, he, -⟩ := hother
      cases he
  · intro now envelopeId hcall
    cases hcall

/-- The same envelope with another `pid` is accepted under its id. -/
theorem altered_pid_not_tamperEvident :
    ¬ ∀ past s, History.Run (next samplePlatform) createInMemoryAmnRegistry past s →
      TamperEvident samplePlatform past := by
  intro h
  have hrun : History.Run (next samplePlatform) createInMemoryAmnRegistry
      [(sampleRegistry, .register sampleNow (some (sampleClaim "AMT-22"))),
        (createInMemoryAmnRegistry, .register sampleNow (some (sampleClaim "AMT-1")))] _ :=
    (History.Run.init.step rfl).step rfl
  obtain ⟨⟨hregister, -⟩, -⟩ := h _ _ hrun
  obtain ⟨-, hne, haccepted, haltered⟩ := samples_registered
  have hcontent := (hregister _ haltered).2.2 (sampleClaim "AMT-1")
    (js "AMN-C6B0FE94D1D839A8DD3B7449") ⟨_, List.mem_singleton.2 rfl, .inl haccepted⟩ rfl rfl
  exact hne hcontent

end Agid.MorphismNetwork
