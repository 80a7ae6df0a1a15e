import Agid.ZkProofBundles
import Agid.Proofs.SecurePos

/-!
# Nullifiers that the registry has seen

The registry collects the strings whose own key names a nullifier, and keeps the hashes of those
whose path is not that of a bucket.  A value that is one of these in two bundles is in one accepted
bundle at most.  A bundle that is revoked stays revoked, as no registration writes over a record.
-/

namespace Agid.ZkProofBundles

variable {P : Platform} {options : RegistryOptions} {registry registry' : Registry} {e : Event}
  {past : History.Past Registry Event} {proofs proofs' : List JsonValue} {clock : ℤ}
  {input : RegistrationInput} {result : RegistrationResult}

/-! ## What is collected -/

mutual

theorem mem_visitObject_of_positions {p : Position} (hnamed : p.named = true) {inside : Bool} :
    ∀ {path : JsString} {value : JsonValue}, p ∈ positions P inside path value →
      ∃ v ∈ visitObject path value, v.path = p.path ∧ publicProofValue v.child = some p.value
        ∧ shouldCollectNullifier P v.key = true
  | path, .array items, h => by
    rw [positions] at h
    rw [visitObject]
    exact mem_visitItems_of_positions hnamed h
  | path, .object members, h => by
    rw [positions] at h
    rw [visitObject]
    exact mem_visitMembers_of_positions hnamed h
  | path, .null, h => by simp [positions] at h
  | path, .bool _, h => by simp [positions] at h
  | path, .number _, h => by simp [positions] at h
  | path, .string _, h => by simp [positions] at h

theorem mem_visitItems_of_positions {p : Position} (hnamed : p.named = true) {inside : Bool} :
    ∀ {path : JsString} {i : ℕ} {items : List JsonValue}, p ∈ itemPositions P inside path i items →
      ∃ v ∈ visitItems path i items, v.path = p.path ∧ publicProofValue v.child = some p.value
        ∧ shouldCollectNullifier P v.key = true
  | path, i, [], h => by simp [itemPositions] at h
  | path, i, child :: items, h => by
    simp only [itemPositions, List.mem_append, Option.mem_toList, Option.map_eq_some_iff] at h
    rw [visitItems]
    rcases h with (⟨value, hvalue, rfl⟩ | h) | h
    · refine ⟨_, List.mem_cons_self, rfl, ?_, hnamed⟩
      split_ifs at hvalue
      exact hvalue
    · obtain ⟨v, hv, hp⟩ := mem_visitObject_of_positions hnamed h
      exact ⟨v, List.mem_cons_of_mem _ (List.mem_append_left _ hv), hp⟩
    · obtain ⟨v, hv, hp⟩ := mem_visitItems_of_positions hnamed h
      exact ⟨v, List.mem_cons_of_mem _ (List.mem_append_right _ hv), hp⟩

theorem mem_visitMembers_of_positions {p : Position} (hnamed : p.named = true) {inside : Bool} :
    ∀ {path : JsString} {members : List (JsString × JsonValue)},
      p ∈ memberPositions P inside path members →
      ∃ v ∈ visitMembers path members, v.path = p.path ∧ publicProofValue v.child = some p.value
        ∧ shouldCollectNullifier P v.key = true
  | path, [], h => by simp [memberPositions] at h
  | path, (key, child) :: members, h => by
    simp only [memberPositions, List.mem_append, Option.mem_toList, Option.map_eq_some_iff] at h
    rw [visitMembers]
    rcases h with (⟨value, hvalue, rfl⟩ | h) | h
    · refine ⟨_, List.mem_cons_self, rfl, ?_, hnamed⟩
      split_ifs at hvalue
      exact hvalue
    · obtain ⟨v, hv, hp⟩ := mem_visitObject_of_positions hnamed h
      exact ⟨v, List.mem_cons_of_mem _ (List.mem_append_left _ hv), hp⟩
    · obtain ⟨v, hv, hp⟩ := mem_visitMembers_of_positions hnamed h
      exact ⟨v, List.mem_cons_of_mem _ (List.mem_append_right _ hv), hp⟩

end

/-- The hashes that a registration adds to the single-use ones. -/
def keptHashes (P : Platform) (proofs : List JsonValue) : List JsString :=
  ((nullifierHashes P proofs).filter (!isBucket ·)).map ValueHash.valueHash

theorem mem_keptHashes {value : JsString} (h : Guarded P proofs value) :
    hashProofValue P (js "nullifier") value ∈ keptHashes P proofs := by
  obtain ⟨p, hp, rfl, hnamed, husage⟩ := h
  obtain ⟨proof, hproof, hp⟩ := List.mem_flatMap.1 hp
  obtain ⟨v, hv, hpath, hvalue, hkey⟩ := mem_visitObject_of_positions hnamed hp
  obtain ⟨i, hi, rfl⟩ := List.getElem_of_mem hproof
  have hcollect : collectHash P i (getProofVersion proofs[i]) v
      = some ⟨i, getProofVersion proofs[i], v.path, some (nullifierUsageForPath P v.path),
          hashProofValue P (js "nullifier") p.value⟩ := by
    simp [collectHash, collectReference, hvalue, hkey]
  refine List.mem_map.2 ⟨_, List.mem_filter.2 ⟨List.mem_filter.2 ⟨List.mem_flatMap.2
    ⟨(proofs[i], i), List.mem_zipIdx_iff_getElem?.2 (List.getElem?_eq_getElem hi),
      List.mem_filterMap.2 ⟨v, hv, hcollect⟩⟩, rfl⟩, ?_⟩, rfl⟩
  rw [hpath]
  simpa [isBucket, Position.usage] using husage

/-! ## Registrations -/

theorem mem_addHashes {set : List JsString} {hash : JsString} :
    ∀ {hashes : List JsString}, hash ∈ set ∨ hash ∈ hashes → hash ∈ addHashes set hashes := by
  intro hashes
  unfold addHashes
  induction hashes generalizing set with
  | nil => simp
  | cons new hashes ih =>
    intro h
    rw [List.foldl_cons]
    refine ih ?_
    split_ifs with hnew
    · rcases h with h | h
      · exact Or.inl h
      · rcases List.mem_cons.1 h with rfl | h
        · exact Or.inl (List.contains_iff_mem.1 hnew)
        · exact Or.inr h
    · rcases h with h | h
      · exact Or.inl (List.mem_append_left _ h)
      · rcases List.mem_cons.1 h with rfl | h
        · exact Or.inl (by simp)
        · exact Or.inr h

/-- A registration leaves the registry, or it adds a record with a new name and hashes of which none
was there. -/
theorem registerBundle_cases
    (h : registerBundle P options clock registry input = some (registry', result)) :
    (result.status ≠ .registered ∧ registry' = registry)
    ∨ (result.status = .registered
      ∧ (∀ hash ∈ keptHashes P input.proofs, hash ∉ registry.singleUseNullifierHashes)
      ∧ (∀ hash, hash ∈ registry.singleUseNullifierHashes ∨ hash ∈ keptHashes P input.proofs →
        hash ∈ registry'.singleUseNullifierHashes)
      ∧ ∃ bundleId record, registry.recordsByBundleId.get? bundleId = none
        ∧ registry'.recordsByBundleId = registry.recordsByBundleId.set bundleId record) := by
  unfold registerBundle at h
  obtain ⟨compatibility, -, h⟩ := Option.bind_eq_some_iff.1 h
  simp only at h
  split at h
  · cases h
    exact Or.inl ⟨by simp, rfl⟩
  · rename_i hnew
    split_ifs at h with hincompatible hreused
    · cases h
      exact Or.inl ⟨by simp, rfl⟩
    · cases h
      exact Or.inl ⟨by simp, rfl⟩
    · cases h
      refine Or.inr ⟨rfl, fun hash hhash hmem => hreused ?_, fun hash => mem_addHashes, _, _, hnew,
        rfl⟩
      obtain ⟨value, hvalue, rfl⟩ := List.mem_map.1 hhash
      exact List.any_eq_true.2 ⟨value, hvalue, List.contains_iff_mem.2 hmem⟩

/-! ## Runs -/

/-- What the registry knows of the calls before. -/
structure Knows (P : Platform) (options : RegistryOptions) (past : History.Past Registry Event)
    (registry : Registry) : Prop where
  kept : ∀ entry ∈ past, accepts P options entry.1 entry.2 → ∀ proofs ∈ entry.2.proofs?,
    ∀ hash ∈ keptHashes P proofs, hash ∈ registry.singleUseNullifierHashes
  revoked : ∀ entry ∈ past, ∀ bundleId, revokes P options entry.1 entry.2 bundleId →
    ∃ record, registry.recordsByBundleId.get? bundleId = some record ∧ record.status = .revoked

/-- What a call leaves of the registry. -/
structure Registry.Keeps (registry registry' : Registry) : Prop where
  hashes : ∀ hash ∈ registry.singleUseNullifierHashes, hash ∈ registry'.singleUseNullifierHashes
  revoked : ∀ bundleId record, registry.recordsByBundleId.get? bundleId = some record →
    record.status = .revoked → ∃ record', registry'.recordsByBundleId.get? bundleId = some record'
      ∧ record'.status = .revoked

theorem Registry.Keeps.refl (registry : Registry) : registry.Keeps registry :=
  ⟨fun _ => id, fun _ record h hr => ⟨record, h, hr⟩⟩

theorem revokeBundle_keeps (bundleId : Option JsString) (reason : JsString)
    (revokedAt : Option Moment) :
    registry.Keeps (revokeBundle P clock registry bundleId reason revokedAt).1 := by
  unfold revokeBundle
  split
  · exact .refl registry
  · refine ⟨fun _ => id, fun id record hget hrevoked => ?_⟩
    simp only [Record.get?_set]
    split_ifs
    · exact ⟨_, rfl, rfl⟩
    · exact ⟨record, hget, hrevoked⟩

theorem answer_keeps (registry : Registry) (e : Event) :
    registry.Keeps (answer P options registry e).1 := by
  unfold answer
  split
  · split
    · rename_i registry' result hregister
      rcases registerBundle_cases hregister with ⟨-, rfl⟩ | ⟨-, -, hkept, id, new, hnew, hrecords⟩
      · exact .refl _
      · refine ⟨fun hash h => hkept hash (Or.inl h), fun id' record hget hrevoked => ?_⟩
        refine ⟨record, ?_, hrevoked⟩
        rw [hrecords, Record.get?_set_of_ne, hget]
        rintro rfl
        rw [hnew] at hget
        cases hget
    · exact .refl registry
  · exact revokeBundle_keeps ..
  · exact .refl registry

theorem accepts_register (h : accepts P options registry e) (hproofs : proofs ∈ e.proofs?) :
    ∃ input registry' result, e.call = .register input ∧ input.proofs = proofs
      ∧ registerBundle P options e.clock registry input = some (registry', result)
      ∧ (answer P options registry e).1 = registry' ∧ result.status = .registered := by
  obtain ⟨clock, call⟩ := e
  cases call with
  | register input =>
    cases hproofs
    unfold accepts answer at h
    rcases hregister : registerBundle P options clock registry input with _ | ⟨registry', result⟩
    · simp [hregister] at h
    · refine ⟨input, registry', result, rfl, rfl, hregister, ?_, ?_⟩
      · simp [answer, hregister]
      · simpa [hregister] using h
  | revoke => cases hproofs
  | verify => cases hproofs

theorem accepts_new (h : accepts P options registry e) (hproofs : proofs ∈ e.proofs?) :
    (∀ hash ∈ keptHashes P proofs, hash ∉ registry.singleUseNullifierHashes)
      ∧ ∀ hash ∈ keptHashes P proofs,
        hash ∈ (answer P options registry e).1.singleUseNullifierHashes := by
  obtain ⟨input, registry', result, -, rfl, hregister, hanswer, hstatus⟩ :=
    accepts_register h hproofs
  rcases registerBundle_cases hregister with ⟨hne, -⟩ | ⟨-, hnew, hkept, -⟩
  · exact absurd hstatus hne
  · exact ⟨hnew, fun hash hhash => hanswer ▸ hkept hash (Or.inr hhash)⟩

theorem revokes_revoked {bundleId : JsString} (h : revokes P options registry e bundleId) :
    ∃ record, (answer P options registry e).1.recordsByBundleId.get? bundleId = some record
      ∧ record.status = .revoked := by
  obtain ⟨hreply, reason, revokedAt, hcall⟩ := h
  simp only [answer, hcall, Reply.revocation.injEq] at hreply ⊢
  unfold revokeBundle at hreply ⊢
  split at hreply
  · cases hreply
  · exact ⟨_, Record.get?_set_self .., rfl⟩

theorem Run.knows (h : Run P options past registry) : Knows P options past registry := by
  have hinit : Knows P options [] .empty := ⟨by simp, by simp⟩
  refine History.Run.invariant hinit ?_ h
  intro past registry e registry' _ hknows hstep
  cases hstep
  have hkeeps := @answer_keeps P options registry e
  constructor
  · intro entry hentry haccepts proofs hproofs hash hhash
    rcases List.mem_cons.1 hentry with rfl | hentry
    · exact (accepts_new haccepts hproofs).2 hash hhash
    · exact hkeeps.hashes _ (hknows.kept entry hentry haccepts proofs hproofs hash hhash)
  · intro entry hentry bundleId hrevokes
    rcases List.mem_cons.1 hentry with rfl | hentry
    · exact revokes_revoked hrevokes
    · obtain ⟨record, hget, hrevoked⟩ := hknows.revoked entry hentry bundleId hrevokes
      exact hkeeps.revoked bundleId record hget hrevoked

theorem verifyBundle_revoked {bundleId : JsString} {bundleId' : Option JsString}
    {now : Option Moment} {record : BundleRecord} (hid : normalizeText P bundleId' = some bundleId)
    (hget : registry.recordsByBundleId.get? bundleId = some record)
    (hrevoked : record.status = .revoked) :
    (verifyBundle P clock registry bundleId' now).valid = false := by
  unfold verifyBundle
  simp only [hid, Option.getD_some, hget]
  simp [hrevoked, when]

/-- Two accepted bundles whose shared values are guarded share none. -/
theorem Knows.protects {everywhere : Bool} {entry : Registry × Event}
    (h : Knows P options past registry) (hentry : entry ∈ past)
    (hshares : SharesGuarded P everywhere (registry, e) entry) :
    Protects P options everywhere (registry, e) entry := by
  constructor
  · intro haccepts haccepts' proofs hproofs proofs' hproofs'
    -- a value that is guarded in both is known from the earlier one
    have hnone : ∀ value, Guarded P proofs value → ¬ Guarded P proofs' value :=
      fun value hvalue hvalue' => (accepts_new haccepts hproofs).1 _ (mem_keptHashes hvalue)
        (h.kept entry hentry haccepts' proofs' hproofs' _ (mem_keptHashes hvalue'))
    obtain ⟨hlater, hearlier⟩ := hshares proofs hproofs proofs' hproofs'
    constructor
    · intro p hp husage q hq heq
      obtain ⟨hfirst, hsecond⟩ := hlater p hp husage q hq heq
      exact hnone _ hfirst hsecond
    · intro p hp husage q hq heq
      obtain ⟨hfirst, hsecond⟩ := hearlier p hp husage q hq heq
      exact hnone _ hsecond hfirst
  · intro bundleId hrevokes bundleId' now _ hid
    obtain ⟨record, hget, hrevoked⟩ := h.revoked entry hentry bundleId hrevokes
    exact verifyBundle_revoked hid hget hrevoked

theorem protects_of_sharesGuarded (everywhere : Bool) (h : Run P options past registry)
    (hshares : past.Pairwise (SharesGuarded P everywhere)) :
    past.Pairwise (Protects P options everywhere) := by
  unfold Run at h
  induction h with
  | init => exact .nil
  | step run taken ih =>
    rw [List.pairwise_cons] at hshares ⊢
    exact ⟨fun entry hentry => (Run.knows run).protects hentry (hshares.1 entry hentry),
      ih hshares.2⟩

theorem guardedBoth_self {everywhere : Bool}
    (h : ∀ p ∈ bundlePositions P false proofs, p.usage P = .singleUse → p.named = true) :
    GuardedBoth P everywhere proofs proofs := by
  intro p hp husage q _ _
  have hguarded : Guarded P proofs p.value :=
    ⟨p, hp, rfl, h p hp husage, by rw [husage]; decide⟩
  exact ⟨hguarded, hguarded⟩

/-! ## A nullifier in a list -/

def rateProof (nullifiers : JsonValue) : JsonValue :=
  .object [(js "claim", .object [
    (js "version", .string (js "anonymous-rate-limit-proof-v1")),
    (js "scope", .string (js "delivery")),
    (js "challengeHash", .string (js "challenge-1")),
    (js "issuedAt", .string (js "2026-01-01T00:05:00.000Z")),
    (js "expiresAt", .string (js "2026-01-01T00:06:00.000Z")),
    (js "nullifiers", nullifiers),
    (js "proofHint", .object [(js "zkReady", .bool true)])])]

def rateNullifier : JsonValue := .string (js "RATE-REQUEST-NULLIFIER-001")

def singleProof : JsonValue := rateProof (.object [(js "requestNullifier", rateNullifier)])

def listProof : JsonValue := rateProof (.object [(js "requestNullifiers", .array [rateNullifier])])

/-- A registration at 00:05:30. -/
def registration (proof : JsonValue) (operationId : Option JsString) : Event where
  clock := 1767225930000
  call := .register ⟨[proof], none, none, operationId, none, none, none⟩

/-- A platform that knows the times of the proofs, and the hashes of the texts of these lengths that
the registrations have. -/
def ratePlatform : Platform where
  nfkc := ⟨id, id_ascii⟩
  toLowerCase s := s.map lowerAscii
  toUpperCase s := s.map fun c => if 97 ≤ c.val ∧ c.val ≤ 122 then c - 32 else c
  dates := .ofTable ⟨[(1767225900000, js "2026-01-01T00:05:00.000Z"),
    (1767225930000, js "2026-01-01T00:05:30.000Z"),
    (1767225960000, js "2026-01-01T00:06:00.000Z")], by decide⟩ (by decide) (by decide)
  sha256Hex text :=
    match text.length with
    | 64 => js "05250778362eff53b8c7521c0bd3be207ebd70f6689cc08acde38ffd3be15a80"
    | 720 => js "d8c2ab270577b54f7a434becf81c209bb695a31d97dd5138ee76b2349f058686"
    | 725 => js "9a78b6ee7fb8f61a7ecd89ab52abb159b5467eeb3507274f2fbc77bfbf4e2b27"
    | 444 => js "d7e300f0e1c9d9c519da47d63b921f4a3c34a232a0ce4286169d6a9ea2d56518"
    | 449 => js "aba4cc5fd59e7415f32ffd1fca929380ff75c2aaba7047ab2d61bbfdd013694c"
    | _ => []

def strictOptions : RegistryOptions := ⟨none, none, none, none, none, none⟩

/-- The registry after a call. -/
def next (registry : Registry) (e : Event) : Registry :=
  (answer ratePlatform strictOptions registry e).1

def status (registry : Registry) (e : Event) : Option RegistrationStatus :=
  match (answer ratePlatform strictOptions registry e).2 with
  | .registration result => result.map RegistrationResult.status
  | _ => none

/-- Two registrations, one after the other. -/
def twoCalls (e e' : Event) : History.Past Registry Event := [(next .empty e, e'), (.empty, e)]

theorem run_twoCalls (e e' : Event) :
    Run ratePlatform strictOptions (twoCalls e e') (next (next .empty e) e') :=
  (History.Run.init.step rfl).step rfl

/-- The second bundle with the nullifier is rejected. -/
theorem protects_of_sharesGuarded_rejected :
    ((twoCalls (registration singleProof none) (registration singleProof (some (js "order-2")))).map
        fun entry => status entry.1 entry.2) = [some .rejected, some .registered]
      ∧ (twoCalls (registration singleProof none)
          (registration singleProof (some (js "order-2")))).Pairwise
        (Protects ratePlatform strictOptions true) := by
  have hguarded : ∀ everywhere, GuardedBoth ratePlatform everywhere [singleProof] [singleProof] :=
    fun _ => guardedBoth_self (by decide)
  refine ⟨by decide +kernel, protects_of_sharesGuarded true (run_twoCalls _ _) ?_⟩
  refine List.pairwise_pair.2 fun proofs hproofs proofs' hproofs' => ?_
  cases hproofs
  cases hproofs'
  exact ⟨hguarded true, hguarded true⟩

/-- Both bundles with the nullifier in a list are accepted. -/
theorem not_protects : ¬ ∀ (P : Platform) options past registry, Run P options past registry →
    past.Pairwise (Protects P options false) := by
  intro h
  have hprotects := List.pairwise_pair.1 (h _ _ _ _ (run_twoCalls (registration listProof none)
    (registration listProof (some (js "order-2")))))
  have haccepts : accepts ratePlatform strictOptions .empty (registration listProof none) = true
      ∧ accepts ratePlatform strictOptions (next .empty (registration listProof none))
        (registration listProof (some (js "order-2"))) = true := by decide +kernel
  have hunreplayed := (hprotects.once haccepts.2 haccepts.1 _ rfl _ rfl).1
  have hposition : ∃ p ∈ bundlePositions ratePlatform false [listProof],
      p.usage ratePlatform = .singleUse := by decide
  obtain ⟨p, hp, husage⟩ := hposition
  exact hunreplayed p hp husage p hp rfl

end Agid.ZkProofBundles
