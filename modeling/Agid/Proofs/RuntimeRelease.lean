import Agid.RuntimeRelease
import Agid.Proofs.TrustPolicy

/-!
# The runtime release ledger cannot be rolled back

What a release that is accepted was checked for, that its digest is of a text with its sequence
number, and from these what a run of calls over one state file accepts.
-/

namespace Agid.AddressQl

open Checks JsonText JsonValue

variable {Key : Type} {P : Platform Key}

/-! ## The quorum -/

/-- The signature is that of a usable key, whose record has its reviewer. -/
structure SignedBy (P : Platform Key) (trust : LoadedTrustPolicy Key) (canonical : JsString)
    (item : JsonValue) (signer : Signer Key) : Prop where
  keyId : JsonValue.get (some item) "keyId" = .ok (some (.string signer.keyId))
  reviewerId : JsonValue.get (some item) "reviewerId" = .ok (some (.string signer.reviewerId))
  recorded : ∃ loaded, trust.records.get? signer.keyId = some loaded ∧ loaded.usable = true
    ∧ loaded.key = signer.key ∧ loaded.record.reviewerId = signer.reviewerId
  signs : Signs P signer.key canonical

theorem usableKey_eq_some {trust : LoadedTrustPolicy Key} {keyId : Option JsonValue} {key : Key}
    (h : trust.usableKey keyId = some key) : ∃ id loaded, keyId = some (.string id)
      ∧ trust.records.get? id = some loaded ∧ loaded.usable = true ∧ loaded.key = key := by
  obtain ⟨loaded, hloaded, hkey⟩ := Option.bind_eq_some_iff.1 h
  unfold getRecord at hloaded
  split at hloaded
  · rename_i id
    split_ifs at hkey with husable
    exact ⟨id, loaded, rfl, hloaded, husable, Option.some.inj hkey⟩
  · cases hloaded

theorem checkSignature_eq_ok {trust : LoadedTrustPolicy Key} {canonical : JsString}
    {item : JsonValue} (h : checkSignature P trust canonical item = .ok ()) :
    ∃ signer, SignedBy P trust canonical item signer := by
  unfold checkSignature at h
  obtain ⟨keyId, hkeyId, h⟩ := bind_eq_ok.1 h
  simp only at h
  split at h
  · split at h <;> cases h
  · rename_i key hkey
    obtain ⟨id, loaded, rfl, hloaded, husable, hloadedKey⟩ := usableKey_eq_some hkey
    simp only [bind_eq_ok, require_eq_ok] at h
    obtain ⟨reviewerId, hreviewerId, -, -, -, -, -, hsame, signature, hsignature, h⟩ := h
    rw [getRecord, hloaded, Option.any_some] at hsame
    have hreviewer : reviewerId = some (.string loaded.record.reviewerId) := by
      unfold same at hsame
      split at hsame <;> simp_all
    split at h
    · simp only [bind_eq_ok, require_eq_ok, Bool.and_eq_true, decide_eq_true_eq] at h
      obtain ⟨-, -, hbytes, hverify⟩ := h
      exact ⟨⟨id, loaded.record.reviewerId, key⟩, hkeyId, hreviewer ▸ hreviewerId,
        ⟨loaded, hloaded, husable, hloadedKey, rfl⟩, _, hbytes, hverify⟩
    · simp only [bind_eq_ok] at h
      obtain ⟨-, -, -, -, h⟩ := h
      split_ifs at h

theorem exists_signers {trust : LoadedTrustPolicy Key} {canonical : JsString} :
    ∀ {items : List JsonValue}, (∀ item ∈ items, checkSignature P trust canonical item = .ok ()) →
      ∃ signers, List.Forall₂ (SignedBy P trust canonical) items signers
  | [], _ => ⟨[], .nil⟩
  | item :: items, h => by
    obtain ⟨signer, hsigner⟩ := checkSignature_eq_ok (h item List.mem_cons_self)
    obtain ⟨signers, hsigners⟩ :=
      exists_signers fun item hitem => h item (List.mem_cons_of_mem _ hitem)
    exact ⟨signer :: signers, .cons hsigner hsigners⟩

theorem exists_item {trust : LoadedTrustPolicy Key} {canonical : JsString} {signer : Signer Key} :
    ∀ {items : List JsonValue} {signers : List (Signer Key)},
      List.Forall₂ (SignedBy P trust canonical) items signers → signer ∈ signers →
      ∃ item, SignedBy P trust canonical item signer
  | [], [], .nil, h => by simp at h
  | item :: _, _ :: _, .cons hsigner hsigners, h => by
    rcases List.mem_cons.1 h with rfl | h
    · exact ⟨item, hsigner⟩
    · exact exists_item hsigners h

/-- Where the values of a field are found distinct, they are, when they are strings. -/
theorem nodup_of_distinct {name : String} {items : List JsonValue} {signers : List (Signer Key)}
    {f : Signer Key → JsString} (h : distinct name items = .ok true)
    (hsigners : List.Forall₂ (fun item signer =>
      JsonValue.get (some item) name = .ok (some (.string (f signer)))) items signers) :
    (signers.map f).Nodup := by
  unfold distinct at h
  simp only [bind_eq_ok, mapM_eq_ok, Except.ok.injEq, decide_eq_true_eq] at h
  obtain ⟨values, hvalues, hpairs⟩ := h
  have heq : values = signers.map fun signer => some (.string (f signer)) := by
    clear hpairs
    induction hsigners generalizing values with
    | nil => exact List.forall₂_nil_left_iff.1 hvalues
    | cons hsigner _ ih =>
      obtain ⟨value, values', hvalue, hvalues', rfl⟩ := List.forall₂_cons_left_iff.1 hvalues
      rw [hsigner] at hvalue
      cases hvalue
      rw [ih values' hvalues', List.map_cons]
  rw [heq, List.pairwise_map] at hpairs
  refine List.pairwise_map.2 (hpairs.imp fun hne heq => ?_)
  rw [heq, same_string.2 rfl] at hne
  cases hne

theorem usableAt_of_signedBy {trust : LoadedTrustPolicy Key} {canonical : JsString}
    {item : JsonValue} {signer : Signer Key} {store entries : List (JsString × JsonValue)}
    {time : ℤ} {fingerprints : Record JsString JsString} (h : SignedBy P trust canonical item signer)
    (hentries : member (js "keys") store = some (.object entries))
    (hloads : Loads P time entries ⟨trust.records, fingerprints⟩) :
    UsableAt P (some (.object store)) time signer := by
  obtain ⟨loaded, hloaded, husable, hkey, hreviewer⟩ := h.recorded
  obtain ⟨value, hentry, hparsed⟩ := hloads.parsed hloaded
  obtain ⟨record, publicKey, validFrom, validUntil, rfl, hreviewerId, hstatus, hpublicKey, hcreate,
    hfrom, huntil, husable'⟩ := parseV2Record_eq_ok hparsed
  rw [husable] at husable'
  simp only [Bool.and_eq_true, decide_eq_true_eq, Bool.decide_and,
    Bool.true_eq] at husable'
  obtain ⟨⟨hactive, hle⟩, hge⟩ := husable'
  exact ⟨store, entries, record, publicKey, validFrom, validUntil, rfl, hentries, hentry,
    hreviewer ▸ hreviewerId, status_eq_active (hactive ▸ hstatus), hpublicKey, hkey ▸ hcreate,
    hfrom, huntil, hle, hge⟩

/-- Keys of different ids are different keys. -/
theorem nodup_keys {trust : LoadedTrustPolicy Key} {canonical : JsString} {items : List JsonValue}
    {signers : List (Signer Key)} {entries : List (JsString × JsonValue)} {time : ℤ}
    {fingerprints : Record JsString JsString}
    (h : List.Forall₂ (SignedBy P trust canonical) items signers)
    (hloads : Loads P time entries ⟨trust.records, fingerprints⟩)
    (hids : (signers.map Signer.keyId).Nodup) : (signers.map Signer.key).Nodup := by
  have hfingerprint : ∀ signer ∈ signers,
      fingerprints.get? (P.fingerprint signer.key) = some signer.keyId := by
    intro signer hsigner
    obtain ⟨item, hitem⟩ := exists_item h hsigner
    obtain ⟨loaded, hloaded, -, hkey, -⟩ := hitem.recorded
    exact hkey ▸ hloads.fingerprint hloaded
  refine List.pairwise_map.2 ((List.pairwise_map.1 hids).imp_of_mem ?_)
  intro a b ha hb hne heq
  have := hfingerprint a ha
  rw [heq, hfingerprint b hb] at this
  exact hne (Option.some.inj this).symm

/-! ## A release that is checked -/

theorem checkRelease_eq_ok {call : Call} {release : Verified}
    (h : checkRelease P call = .ok release) :
    ∃ sorted, call.hashed P = some (releaseText release.payload sorted)
      ∧ release.releaseDigest = P.sha256 (releaseText release.payload sorted)
      ∧ QuorumSigned P call release := by
  unfold checkRelease at h
  simp only [bind_eq_ok, require_eq_ok] at h
  obtain ⟨ledger, hledger, version, -, -, -, payloadValue, hpayloadValue, payload, hpayload, -, -,
    -, -, -, -, -, -, signatures, hsignatures, digest, hdigest, -, -, -, -, trust, htrust, h⟩ := h
  split at h
  · rename_i items
    simp only [bind_eq_ok, require_eq_ok] at h
    obtain ⟨-, hkeyIds, -, rfl, -, hreviewers, -, rfl, -, henough, ⟨⟩, hitems, h⟩ := h
    cases h
    unfold calculateReleaseDigest at hdigest
    obtain ⟨sorted, hsorted, hdigest⟩ := bind_eq_ok.1 hdigest
    cases hdigest
    obtain ⟨store, entries, time, fingerprints, hstore, htime, hentries, hminimum, hloads⟩ :=
      loadAddressQlTrustPolicy_eq_ok htrust
    obtain ⟨signers, hsigners⟩ := exists_signers (forM_eq_ok.1 hitems)
    have hids := nodup_of_distinct hkeyIds (hsigners.imp fun _ _ h => h.keyId)
    refine ⟨sorted, ?_, rfl, time, trust.minimumSignatures, signers, htime, hminimum, ?_,
      nodup_of_distinct hreviewers (hsigners.imp fun _ _ h => h.reviewerId),
      nodup_keys hsigners hloads hids, fun signer hsigner => ?_⟩
    · simp [Call.hashed, hledger, hpayloadValue, hpayload, hsignatures, hsorted, bind, Except.bind,
        Except.toOption]
    · rw [← hsigners.length_eq]
      exact of_decide_eq_true henough
    · obtain ⟨item, hitem⟩ := exists_item hsigners hsigner
      exact ⟨hstore ▸ usableAt_of_signedBy hitem hentries hloads, hitem.signs⟩
  · cases h

/-! ## The text of a release -/

/-- The sequence number stands after the version and the release id, if there is one, and is not the
last field. -/
theorem value_eq (payload : RuntimeReleasePayload) : ∃ k v members,
    payload.value = .object ((js "version", .string ADDRESSQL_RUNTIME_RELEASE_PAYLOAD_VERSION)
      :: (payload.releaseId.toList.map (js "releaseId", ·)
        ++ (js "sequence", .number (.int payload.sequence)) :: (k, v) :: members)) := by
  obtain ⟨k, v, members, h⟩ : ∃ k v members,
      [("previousReleaseDigest", payload.previousReleaseDigest),
        ("configDigest", payload.configDigest), ("createdAt", payload.createdAt),
        ("validFrom", payload.validFrom), ("validUntil", payload.validUntil),
        ("minimumSignatures", some (.number (.int payload.minimumSignatures)))].filterMap
          (fun field => field.2.map (js field.1, ·)) = (k, v) :: members := by
    generalize hfields : List.filterMap _ _ = fields
    cases fields with
    | nil => simp at hfields
    | cons field members => exact ⟨field.1, field.2, members, rfl⟩
  refine ⟨k, v, members, ?_⟩
  rw [RuntimeReleasePayload.value, ← h]
  cases payload.releaseId <;> simp

theorem writeMembers_cons (k : Text) (v : JsonValue) (members : List (Text × JsonValue))
    (r : Text) : writeMembers JsonNumber.json ((k, v) :: members) ++ r
      = 44 :: 34 :: (quoted k ++ 58 :: (write JsonNumber.json v
        ++ (writeMembers JsonNumber.json members ++ r))) := by
  rw [writeMembers]
  simp only [List.cons_append, List.append_assoc]

theorem sequence_of_rest {m n : ℤ} {k k' : Text} {v v' : JsonValue}
    {members members' : List (Text × JsonValue)} {r s : Text}
    (h : writeMembers JsonNumber.json ((js "sequence", .number (.int m)) :: (k, v) :: members) ++ r
      = writeMembers JsonNumber.json ((js "sequence", .number (.int n)) :: (k', v') :: members')
        ++ s) : m = n := by
  simp only [writeMembers_cons, List.cons.injEq, true_and, List.append_cancel_left_eq] at h
  exact js_toString_inj (write_append_inj plain_json (.inl rfl) (.inl rfl) h).1

theorem sequence_of_members {a b : Option JsonValue} {m n : ℤ} {k k' : Text} {v v' : JsonValue}
    {members members' : List (Text × JsonValue)} {r s : Text}
    (h : writeMembers JsonNumber.json (a.toList.map (js "releaseId", ·)
        ++ (js "sequence", .number (.int m)) :: (k, v) :: members) ++ r
      = writeMembers JsonNumber.json (b.toList.map (js "releaseId", ·)
        ++ (js "sequence", .number (.int n)) :: (k', v') :: members') ++ s) : m = n := by
  have hsequence : quoted (js "sequence") = 115 :: quoted (js "equence") := by decide
  have hreleaseId : quoted (js "releaseId") = 114 :: quoted (js "eleaseId") := by decide
  rcases a with _ | a <;> rcases b with _ | b
  · exact sequence_of_rest h
  · simp only [Option.toList_some, Option.toList_none, List.map_cons, List.map_nil,
      List.cons_append, List.nil_append, writeMembers_cons, hsequence, hreleaseId, List.cons.injEq, true_and] at h
    exact absurd h.1 (by decide)
  · simp only [Option.toList_some, Option.toList_none, List.map_cons, List.map_nil,
      List.cons_append, List.nil_append, writeMembers_cons, hsequence, hreleaseId, List.cons.injEq, true_and] at h
    exact absurd h.1 (by decide)
  · simp only [Option.toList_some, List.map_cons, List.map_nil, List.singleton_append] at h
    rw [writeMembers_cons, writeMembers_cons (js "releaseId")] at h
    simp only [List.cons.injEq, true_and, List.append_cancel_left_eq] at h
    rw [writeMembers_cons, writeMembers_cons (js "sequence")] at h
    have hrest := (write_append_inj plain_json (.inl rfl) (.inl rfl) h).2
    rw [← writeMembers_cons, ← writeMembers_cons] at hrest
    exact sequence_of_rest hrest

theorem sequence_of_releaseText {payload payload' : RuntimeReleasePayload}
    {sorted sorted' : List JsonValue}
    (h : releaseText payload sorted = releaseText payload' sorted') :
    payload.sequence = payload'.sequence := by
  obtain ⟨k, v, members, hvalue⟩ := value_eq payload
  obtain ⟨k', v', members', hvalue'⟩ := value_eq payload'
  unfold releaseText stringify at h
  rw [hvalue, hvalue'] at h
  simp only [write, List.cons_append, List.append_assoc, List.cons.injEq, true_and,
    List.append_cancel_left_eq] at h
  exact sequence_of_members h

/-! ## The state file -/

theorem sequence_eq_some {z z' : ℤ} (h : sequence? (some (.number (.int z))) = some z') :
    z' = z := by
  obtain ⟨hsafe, -⟩ := Option.filter_eq_some_iff.1 h
  unfold JsonNumber.safeInteger? at hsafe
  simp only at hsafe
  split_ifs at hsafe
  exact (Option.some.inj hsafe).symm

theorem member_stateValue (call : Call) (release : Verified) :
    ∃ members, stateValue call release = .object members
      ∧ member (js "lastSequence") members = some (.number (.int release.payload.sequence))
      ∧ member (js "lastReleaseDigest") members = some (.string release.releaseDigest) := by
  refine ⟨_, rfl, ?_, ?_⟩
  · simp only [List.filterMap_cons, Option.map_some, member]
    rw [if_neg (by decide), if_pos trivial]
  · simp only [List.filterMap_cons, Option.map_some, member]
    rw [if_neg (by decide), if_neg (by decide), if_pos trivial]

theorem readState_stateValue {call : Call} {release : Verified}
    {state : Option RuntimeReleaseState}
    (h : readState P (some (stateValue call release)) = .ok state) :
    state = some ⟨release.payload.sequence, some (.string release.releaseDigest)⟩ := by
  obtain ⟨members, hvalue, hsequence, hdigest⟩ := member_stateValue call release
  unfold readState at h
  simp only [hvalue, readJson, bind_eq_ok, Except.ok.injEq] at h
  obtain ⟨-, rfl, h⟩ := h
  simp only [get_object, hsequence, hdigest, Except.ok.injEq] at h
  obtain ⟨-, -, -, -, -, rfl, h⟩ := h
  split at h
  · cases h
  · rename_i lastSequence hlast
    simp only [bind_eq_ok, Except.ok.injEq] at h
    obtain ⟨-, rfl, -, -, -, -, -, -, -, -, -, -, -, -, -, -, rfl⟩ := h
    rw [sequence_eq_some hlast]

/-- What follows on a release. -/
def Follows (a b : Verified) : Prop :=
  b.payload.sequence = a.payload.sequence + 1
    ∧ b.payload.previousReleaseDigest = some (.string a.releaseDigest)

theorem verify_error {call : Call} {file : Option JsonValue} {thrown : Thrown} {advance : Bool}
    {file' : Option JsonValue}
    (h : verifyAddressQlRuntimeRelease P advance call file = (.error thrown, file')) :
    file' = file := by
  unfold verifyAddressQlRuntimeRelease at h
  split at h
  · cases h
    rfl
  · split at h
    · cases h
      rfl
    · split at h
      · cases h
        rfl
      · simp only at h
        split_ifs at h
        · cases h
        · cases h
          rfl
        · cases h

theorem verify_ok {call : Call} {file : Option JsonValue} {release : Verified} {advance : Bool}
    {file' : Option JsonValue}
    (h : verifyAddressQlRuntimeRelease P advance call file = (.ok release, file')) :
    checkRelease P call = .ok release ∧ ∃ state, readState P file = .ok state
      ∧ assertNoRollback release.payload release.releaseDigest state = .ok ()
      ∧ file' = if advance && state.all fun state =>
          !same state.lastReleaseDigest (some (.string release.releaseDigest))
        then some (stateValue call release) else file := by
  unfold verifyAddressQlRuntimeRelease at h
  split at h
  · cases h
  · rename_i release' hcheck
    split at h
    · cases h
    · rename_i state hstate
      split at h
      · cases h
      · rename_i hno
        simp only at h
        split_ifs at h with hadvance hwritten
        · cases h
          exact ⟨hcheck, state, hstate, hno, (if_pos hadvance).symm⟩
        · cases h
        · cases h
          exact ⟨hcheck, state, hstate, hno, (if_neg hadvance).symm⟩

theorem first_of_ok {call : Call} {release : Verified} {file' : Option JsonValue}
    (h : verifyAddressQlRuntimeRelease P true call none = (.ok release, file')) :
    release.payload.sequence = 1 ∧ release.payload.previousReleaseDigest = some .null
      ∧ file' = some (stateValue call release) := by
  obtain ⟨-, state, hstate, hno, rfl⟩ := verify_ok h
  cases hstate
  simp only [assertNoRollback, require_eq_ok, Bool.and_eq_true, decide_eq_true_eq] at hno
  exact ⟨hno.1, same_null.1 hno.2, if_pos rfl⟩

theorem next_of_ok {call previous : Call} {last release : Verified} {file' : Option JsonValue}
    (h : verifyAddressQlRuntimeRelease P true call (some (stateValue previous last))
      = (.ok release, file')) :
    (release.payload.sequence = last.payload.sequence ∧ release.releaseDigest = last.releaseDigest
        ∧ file' = some (stateValue previous last))
      ∨ Follows last release ∧ (last.releaseDigest ≠ release.releaseDigest →
        file' = some (stateValue call release)) := by
  obtain ⟨-, state, hstate, hno, rfl⟩ := verify_ok h
  cases readState_stateValue hstate
  unfold assertNoRollback at hno
  simp only [bind_eq_ok, require_eq_ok] at hno
  obtain ⟨-, -, hno⟩ := hno
  by_cases hsequence : release.payload.sequence = last.payload.sequence
  · rw [if_pos hsequence, require_eq_ok, same_string] at hno
    have hdigest : release.releaseDigest = last.releaseDigest := by simpa using hno
    refine .inl ⟨hsequence, hdigest, if_neg ?_⟩
    rw [Option.all_some, hdigest, same_string.2 rfl]
    decide
  · rw [if_neg hsequence] at hno
    simp only [bind_eq_ok, require_eq_ok, decide_eq_true_eq] at hno
    obtain ⟨-, hnext, hprevious⟩ := hno
    refine .inr ⟨⟨hnext, same_string.1 hprevious⟩, fun hne => if_pos ?_⟩
    rw [Bool.true_and, Option.all_some, Bool.not_eq_true', ← Bool.not_eq_true, same_string]
    intro heq
    exact hne (by simpa using heq)

/-! ## Runs -/

theorem unchanged_of_rejected {outcome : Outcome} :
    ∀ {calls : List Call} {file : Option JsonValue}, outcome ∈ outcomes P file calls →
      outcome.accepted = none → outcome.after = outcome.before
  | call :: calls, file, h, hrejected => by
    rw [outcomes] at h
    rcases hverify : verifyAddressQlRuntimeRelease P true call file with ⟨thrown | release, after⟩
    · rw [hverify] at h
      rcases List.mem_cons.1 h with rfl | h
      · exact verify_error hverify
      · exact unchanged_of_rejected h hrejected
    · rw [hverify] at h
      rcases List.mem_cons.1 h with rfl | h
      · cases hrejected
      · exact unchanged_of_rejected h hrejected

theorem accepted_error {call : Call} {calls : List Call} {file after : Option JsonValue}
    {thrown : Thrown}
    (h : verifyAddressQlRuntimeRelease P true call file = (.error thrown, after)) :
    accepted P file (call :: calls) = accepted P file calls := by
  rw [accepted, outcomes, h, verify_error h]
  rfl

theorem accepted_ok {call : Call} {calls : List Call} {file after : Option JsonValue}
    {release : Verified}
    (h : verifyAddressQlRuntimeRelease P true call file = (.ok release, after)) :
    accepted P file (call :: calls) = (call, release) :: accepted P after calls := by
  rw [accepted, outcomes, h]
  rfl

theorem checkRelease_of_accepted {accepting : Call × Verified} :
    ∀ {calls : List Call} {file : Option JsonValue}, accepting ∈ accepted P file calls →
      accepting.1 ∈ calls ∧ checkRelease P accepting.1 = .ok accepting.2
  | call :: calls, file, h => by
    rcases hverify : verifyAddressQlRuntimeRelease P true call file with ⟨thrown | release, after⟩
    · rw [accepted_error hverify] at h
      exact (checkRelease_of_accepted h).imp_left (List.mem_cons_of_mem _)
    · rw [accepted_ok hverify] at h
      rcases List.mem_cons.1 h with rfl | h
      · exact ⟨List.mem_cons_self, (verify_ok hverify).1⟩
      · exact (checkRelease_of_accepted h).imp_left (List.mem_cons_of_mem _)

/-- The digest of the release is that of one of the texts. -/
def Hashed (P : Platform Key) (texts : List JsString) (release : Verified) : Prop :=
  ∃ sorted, releaseText release.payload sorted ∈ texts
    ∧ release.releaseDigest = P.sha256 (releaseText release.payload sorted)

theorem hashed_of_checkRelease {texts : List JsString} {call : Call} {release : Verified}
    (htexts : ∀ text, call.hashed P = some text → text ∈ texts)
    (h : checkRelease P call = .ok release) : Hashed P texts release := by
  obtain ⟨sorted, hhashed, hdigest, -⟩ := checkRelease_eq_ok h
  exact ⟨sorted, htexts _ hhashed, hdigest⟩

/-- The last release and those that are new after it. -/
def newReleases (last : Verified) (accepting : List (Call × Verified)) : List Verified :=
  (accepting.map Prod.snd).destutter' (fun a b => a.releaseDigest ≠ b.releaseDigest) last

theorem newReleases_repeated {last release : Verified} {call : Call}
    {accepting : List (Call × Verified)} (h : release.releaseDigest = last.releaseDigest) :
    newReleases last ((call, release) :: accepting) = newReleases last accepting :=
  List.destutter'_cons_neg (R := fun a b : Verified => a.releaseDigest ≠ b.releaseDigest) _
    (not_not.2 h.symm)

theorem newReleases_new {last release : Verified} {call : Call}
    {accepting : List (Call × Verified)} (h : last.releaseDigest ≠ release.releaseDigest) :
    newReleases last ((call, release) :: accepting) = last :: newReleases release accepting :=
  List.destutter'_cons_pos (R := fun a b : Verified => a.releaseDigest ≠ b.releaseDigest) _ h

theorem newReleases_eq_cons (last : Verified) :
    ∀ accepting : List (Call × Verified), ∃ tail, newReleases last accepting = last :: tail
  | [] => ⟨[], rfl⟩
  | (call, release) :: accepting => by
    by_cases h : release.releaseDigest = last.releaseDigest
    · rw [newReleases_repeated h]
      exact newReleases_eq_cons last accepting
    · exact ⟨_, newReleases_new (Ne.symm h)⟩

section Run

variable {texts : List JsString}
  (hsha256 : ∀ s ∈ texts, ∀ t ∈ texts, P.sha256 s = P.sha256 t → s = t)

include hsha256

theorem differ_of_follows {a b : Verified} (ha : Hashed P texts a) (hb : Hashed P texts b)
    (h : Follows a b) : a.releaseDigest ≠ b.releaseDigest := by
  obtain ⟨s, hs, has⟩ := ha
  obtain ⟨t, ht, hbt⟩ := hb
  intro heq
  rw [has, hbt] at heq
  have := sequence_of_releaseText (hsha256 _ hs _ ht heq)
  have := h.1
  omega

/-- From a state file that has the last release, each new release follows on the one before it, and
what is accepted is one of them. -/
theorem follows_from : ∀ {calls : List Call} (previous : Call) {last : Verified},
    (∀ call ∈ calls, ∀ text, call.hashed P = some text → text ∈ texts) → Hashed P texts last →
    (newReleases last (accepted P (some (stateValue previous last)) calls)).IsChain Follows
      ∧ ∀ a ∈ accepted P (some (stateValue previous last)) calls,
        ∃ b ∈ newReleases last (accepted P (some (stateValue previous last)) calls),
          b.payload.sequence = a.2.payload.sequence ∧ b.releaseDigest = a.2.releaseDigest
  | [], _, _, _, _ => ⟨List.isChain_singleton _, fun _ h => by cases h⟩
  | call :: calls, previous, last, htexts, hlast => by
    have hrest : ∀ call ∈ calls, ∀ text, call.hashed P = some text → text ∈ texts :=
      fun call hcall => htexts call (List.mem_cons_of_mem _ hcall)
    rcases hverify : verifyAddressQlRuntimeRelease P true call (some (stateValue previous last))
      with ⟨thrown | release, after⟩
    · rw [accepted_error hverify]
      exact follows_from previous hrest hlast
    · rw [accepted_ok hverify]
      have hrelease : Hashed P texts release :=
        hashed_of_checkRelease (htexts call List.mem_cons_self) (verify_ok hverify).1
      rcases next_of_ok hverify with ⟨hsequence, hdigest, rfl⟩ | ⟨hfollows, hafter⟩
      · rw [newReleases_repeated hdigest]
        obtain ⟨hchain, hold⟩ := follows_from previous hrest hlast
        refine ⟨hchain, fun a ha => ?_⟩
        rcases List.mem_cons.1 ha with rfl | ha
        · exact ⟨last, List.mem_destutter' _ _ _, hsequence.symm, hdigest.symm⟩
        · exact hold a ha
      · have hne := differ_of_follows hsha256 hlast hrelease hfollows
        obtain rfl := hafter hne
        obtain ⟨hchain, hold⟩ := follows_from call hrest hrelease
        rw [newReleases_new hne]
        refine ⟨List.isChain_cons.2 ⟨fun b hb => ?_, hchain⟩, fun a ha => ?_⟩
        · obtain ⟨tail, htail⟩ := newReleases_eq_cons release (accepted P _ calls)
          rw [htail] at hb
          cases hb
          exact hfollows
        · rcases List.mem_cons.1 ha with rfl | ha
          · exact ⟨release, List.mem_cons_of_mem _ (List.mem_destutter' _ _ _), rfl, rfl⟩
          · obtain ⟨b, hb, hba⟩ := hold a ha
            exact ⟨b, List.mem_cons_of_mem _ hb, hba⟩

end Run

/-- The releases that follow on each other count up from the first. -/
theorem map_sequence : ∀ {l : List Verified} {n : ℤ}, l.IsChain Follows →
    (∀ release ∈ l.head?, release.payload.sequence = n) →
    (l.map fun release => release.payload.sequence)
      = (List.range l.length).map fun i : ℕ => (i : ℤ) + n
  | [], _, _, _ => rfl
  | a :: l, n, h, hhead => by
    obtain ⟨hnext, h⟩ := List.isChain_cons.1 h
    have ha : a.payload.sequence = n := hhead a rfl
    have htail := map_sequence (n := n + 1) h fun b hb => by rw [(hnext b hb).1, ha]
    rw [List.map_cons, htail, List.length_cons, List.range_succ_eq_map, List.map_cons,
      List.map_map, ha, Nat.cast_zero, zero_add]
    refine congrArg _ (List.map_congr_left fun i _ => ?_)
    rw [Function.comp_apply, Nat.cast_succ]
    ring

/-- Without a state file nothing is accepted, or a first release and what is accepted after it. -/
theorem accepted_none : ∀ calls : List Call, accepted P none calls = []
    ∨ ∃ call ∈ calls, ∃ release rest, (∀ call ∈ rest, call ∈ calls)
      ∧ checkRelease P call = .ok release ∧ release.payload.sequence = 1
      ∧ release.payload.previousReleaseDigest = some .null
      ∧ accepted P none calls = (call, release) :: accepted P (some (stateValue call release)) rest
  | [] => .inl rfl
  | call :: calls => by
    rcases hverify : verifyAddressQlRuntimeRelease P true call none with ⟨thrown | release, after⟩
    · rw [accepted_error hverify]
      rcases accepted_none calls with h | ⟨first, hfirst, release, rest, hrest, h⟩
      · exact .inl h
      · exact .inr ⟨first, List.mem_cons_of_mem _ hfirst, release, rest,
          fun call hcall => List.mem_cons_of_mem _ (hrest call hcall), h⟩
    · obtain ⟨hsequence, hprevious, rfl⟩ := first_of_ok hverify
      exact .inr ⟨call, List.mem_cons_self, release, calls,
        fun call hcall => List.mem_cons_of_mem _ hcall, (verify_ok hverify).1, hsequence, hprevious,
        accepted_ok hverify⟩

theorem rollbackProof (calls : List Call)
    (hsha256 : ∀ s ∈ calls.filterMap (Call.hashed P), ∀ t ∈ calls.filterMap (Call.hashed P),
      P.sha256 s = P.sha256 t → s = t) : RollbackProof P none calls := by
  have hsigned : ∀ a ∈ accepted P none calls, QuorumSigned P a.1 a.2 := fun a ha => by
    obtain ⟨-, -, -, h⟩ := checkRelease_eq_ok (checkRelease_of_accepted ha).2
    exact h
  have hunchanged : ∀ outcome ∈ outcomes P none calls, outcome.accepted = none →
      outcome.after = outcome.before := fun outcome h => unchanged_of_rejected h
  rcases accepted_none (P := P) calls with hnone | ⟨call, hcall, release, rest, hrest, hcheck,
    hfirst, hprevious, haccepted⟩
  · have hreleases : releases P none calls = [] := by rw [releases, hnone]; rfl
    constructor
    · rw [hreleases]; rfl
    · rw [hreleases]; simp
    · rw [hreleases]; exact List.isChain_nil
    · rw [hnone]; simp
    · exact hsigned
    · exact hunchanged
  · have hreleases : releases P none calls
        = newReleases release (accepted P (some (stateValue call release)) rest) := by
      rw [releases, haccepted]
      rfl
    have htexts : ∀ call ∈ calls, ∀ text, call.hashed P = some text →
        text ∈ calls.filterMap (Call.hashed P) := fun call hcall text htext =>
      List.mem_filterMap.2 ⟨call, hcall, htext⟩
    have hhashed := hashed_of_checkRelease (htexts call hcall) hcheck
    obtain ⟨hchain, hold⟩ := follows_from hsha256 call
      (fun call hcall => htexts call (hrest call hcall)) hhashed
    obtain ⟨tail, htail⟩ :=
      newReleases_eq_cons release (accepted P (some (stateValue call release)) rest)
    rw [← hreleases] at hchain hold htail
    have hnumbered := map_sequence hchain (n := 1) (by rw [htail]; rintro _ ⟨⟩; exact hfirst)
    constructor
    · exact hnumbered
    · rw [htail]
      rintro _ ⟨⟩
      exact hprevious
    · exact hchain.imp fun _ _ h => h.2
    · have hnodup :
          ((releases P none calls).map fun release => release.payload.sequence).Nodup := by
        rw [hnumbered]
        exact List.Nodup.map (fun i j h => by simpa using h) List.nodup_range
      have hold' : ∀ a ∈ accepted P none calls, ∃ b ∈ releases P none calls,
          b.payload.sequence = a.2.payload.sequence ∧ b.releaseDigest = a.2.releaseDigest := by
        rw [haccepted]
        intro a ha
        rcases List.mem_cons.1 ha with rfl | ha
        · exact ⟨release, htail ▸ List.mem_cons_self, rfl, rfl⟩
        · exact hold a ha
      intro a ha b hb heq
      obtain ⟨a', ha', hasequence, hadigest⟩ := hold' a ha
      obtain ⟨b', hb', hbsequence, hbdigest⟩ := hold' b hb
      have := List.inj_on_of_nodup_map hnodup ha' hb' (by rw [hasequence, hbsequence, heq])
      rw [← hadigest, ← hbdigest, this]
    · exact hsigned
    · exact hunchanged

/-! ## Two releases -/

def yearStart := js "2026-01-01T00:00:00Z"

def yearEnd := js "2027-01-01T00:00:00Z"

/-- Two keys, by their number, which a signature starts with.  A digest is of the length of the
text. -/
def smallPlatform : Platform ℕ where
  dateParse s := if s = yearStart then some 1767225600000
    else if s = yearEnd then some 1798761600000 else none
  createPublicKey pem :=
    if pem = js "key-a" then some 1 else if pem = js "key-b" then some 2 else none
  isEd25519 _ := true
  fingerprint key := js (toString key)
  sha256 s :=
    let digits := js (toString s.length)
    js "sha256:" ++ (List.replicate (64 - digits.length) 48 ++ digits)
  verify _ key signature := signature.head? = some (.ofNat key)
  localeLe a b := a.map Fin.val ≤ b.map Fin.val

def fields (members : List (String × JsonValue)) : JsonValue :=
  .object (members.map fun m => (js m.1, m.2))

def reviewerKey (reviewerId pem : String) : JsonValue := fields [
  ("reviewerId", .string (js reviewerId)), ("publicKey", .string (js pem)),
  ("status", .string (js "active")), ("validFrom", .string yearStart),
  ("validUntil", .string yearEnd), ("addedAt", .string yearStart)]

def smallStore : JsonValue := fields [
  ("version", .string ADDRESSQL_TRUST_POLICY_VERSION),
  ("policy", fields [("minimumSignatures", .number (.int 2))]),
  ("keys", fields [("key-a", reviewerKey "ann" "key-a"), ("key-b", reviewerKey "bob" "key-b")])]

def smallConfig : JsString × Option JsonValue :=
  (js "approved config", some (fields [
    ("version", .string ADDRESSQL_RUNTIME_CONFIG_VERSION),
    ("adapters", .array [fields [("mode", .string (js "approved"))]])]))

def smallPayload (sequence : ℤ) (previousReleaseDigest : JsonValue) : RuntimeReleasePayload where
  releaseId := some (.string (js "release"))
  sequence
  previousReleaseDigest := some previousReleaseDigest
  configDigest := some (.string (smallPlatform.sha256 smallConfig.1))
  createdAt := some (.string yearStart)
  validFrom := some (.string yearStart)
  validUntil := some (.string yearEnd)
  minimumSignatures := 2

/-- 64 bytes, the first of which two digits write. -/
def smallSignature (keyId reviewerId first : String) : JsonValue := fields [
  ("keyId", .string (js keyId)), ("reviewerId", .string (js reviewerId)),
  ("signature", .string (js first ++ List.replicate 84 65 ++ js "=="))]

def smallSignatures : List JsonValue :=
  [smallSignature "key-a" "ann" "AQ", smallSignature "key-b" "bob" "Ag"]

def smallDigest (payload : RuntimeReleasePayload) : JsString :=
  smallPlatform.sha256 (releaseText payload smallSignatures)

def smallCall (payload : RuntimeReleasePayload) : Call where
  config := some smallConfig
  ledger := some (fields [
    ("version", .string ADDRESSQL_RUNTIME_RELEASE_LEDGER_VERSION), ("payload", payload.value),
    ("signatures", .array smallSignatures), ("releaseDigest", .string (smallDigest payload))])
  trustStore := some smallStore
  now := some yearStart
  verificationClock := yearStart
  trustClock := 0
  updateClock := yearStart
  written := true
  renamed := true

def firstRelease := smallPayload 1 .null

def secondRelease := smallPayload 2 (.string (smallDigest firstRelease))

set_option maxRecDepth 100000 in
/-- The first release, the first again, and the second. -/
theorem rollbackProof_two :
    ((releases smallPlatform none
        ([firstRelease, firstRelease, secondRelease].map smallCall)).map fun release =>
          release.payload.sequence) = [1, 2]
      ∧ RollbackProof smallPlatform none
        ([firstRelease, firstRelease, secondRelease].map smallCall) :=
  ⟨by decide +kernel, rollbackProof _ (by decide +kernel)⟩

end Agid.AddressQl
