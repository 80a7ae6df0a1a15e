import Agid.RegistryApi

/-!
# What a call does to the registry

A mutation changes at most one record: a nullifier that was not there, or a revocation or an issuer
under its own key.  Nothing leaves the registry.
-/

namespace Agid.RegistryApi

/-- Revocations and issuers are under their own keys. -/
structure Keyed (r : Registry) : Prop where
  revoked : ∀ k record, r.revoked.get? k = some record → record.commitment = k
  issuers : ∀ k record, r.issuers.get? k = some record → record.issuerId = k

/-- The maps of the first registry are those of the second. -/
structure SameMaps (r r' : Registry) : Prop where
  issuers : r'.issuers = r.issuers
  revoked : r'.revoked = r.revoked
  nullifiers : r'.nullifiers = r.nullifiers

theorem keyed_empty : Keyed .empty :=
  ⟨(fun _ _ h => by cases h), (fun _ _ h => by cases h)⟩

theorem SameMaps.keyed {r r' : Registry} (h : SameMaps r r') (hk : Keyed r) : Keyed r' := by
  obtain ⟨hissuers, hrevoked, -⟩ := h
  exact ⟨by rw [hrevoked]; exact hk.revoked, by rw [hissuers]; exact hk.issuers⟩

theorem mem_recordsBy {α : Type} {key : α → JsString} {records : List α} {k : JsString} {a : α}
    (h : (recordsBy key records).get? k = some a) : key a = k ∧ a ∈ records := by
  unfold recordsBy at h
  rw [Record.get?_foldl_set_last, Record.get?_empty, Option.or_none] at h
  have ha := List.mem_of_getLast? h
  rw [List.mem_filter, decide_eq_true_eq] at ha
  exact ⟨ha.2, ha.1⟩

variable {P : Platform} {env : Env}

theorem keyed_replaceSnapshot (snapshot : JsonValue) : Keyed (replaceSnapshot P env snapshot) :=
  ⟨fun _ _ h => (mem_recordsBy h).1, fun _ _ h => (mem_recordsBy h).1⟩

/-! ## Mutations -/

theorem sameMaps_mutationResult {α : Type} (r : Registry) (operation : Operation)
    (status : MutationStatus) (record : Option α) (options : EventOptions) :
    SameMaps r (mutationResult P env r operation status record options).1 := by
  unfold mutationResult recordAudit
  exact ⟨rfl, rfl, rfl⟩

theorem registerIssuer_cases (env : Env) (r : Registry) (input : Members) :
    (SameMaps r (registerIssuer P env r input).1
        ∧ (registerIssuer P env r input).2.status = .rejected)
      ∨ ∃ record : IssuerRecord, record.issuerId = requestedIssuer P input
        ∧ record.status = requestedStatus P input
        ∧ (registerIssuer P env r input).2.status ≠ .rejected
        ∧ SameMaps { r with issuers := r.issuers.set (requestedIssuer P input) record }
          (registerIssuer P env r input).1 := by
  unfold registerIssuer
  simp only
  split_ifs with herrors
  · exact .inl ⟨sameMaps_mutationResult .., rfl⟩
  · exact .inr ⟨_, rfl, rfl, by simp [mutationResult], sameMaps_mutationResult ..⟩
  · exact .inr ⟨_, rfl, rfl, by simp [mutationResult], sameMaps_mutationResult ..⟩

theorem revokeCommitment_cases (env : Env) (r : Registry) (input : Members) :
    (SameMaps r (revokeCommitment P env r input).1
        ∧ (revokeCommitment P env r input).2.status = .rejected)
      ∨ ∃ record : RevocationRecord, record.commitment = requestedCommitment P input
        ∧ SameMaps { r with revoked := r.revoked.set (requestedCommitment P input) record }
          (revokeCommitment P env r input).1 := by
  unfold revokeCommitment
  simp only
  split_ifs with herrors
  · exact .inl ⟨sameMaps_mutationResult .., rfl⟩
  · exact .inr ⟨_, rfl, sameMaps_mutationResult ..⟩
  · exact .inr ⟨_, rfl, sameMaps_mutationResult ..⟩

theorem anchorFreshnessRoot_sameMaps (r : Registry) (input : Members) :
    SameMaps r (anchorFreshnessRoot P env r input).1 := by
  unfold anchorFreshnessRoot
  simp only
  split
  · exact ⟨rfl, rfl, rfl⟩
  · exact sameMaps_mutationResult ..
  · exact sameMaps_mutationResult ..

theorem markNullifierUsed_cases (env : Env) (r : Registry) (input : Members) :
    (SameMaps r (markNullifierUsed P env r input).1
        ∧ (markNullifierUsed P env r input).2.status ≠ .recorded)
      ∨ r.nullifiers.get? (nullifierKey (requestedScope P input) (requestedNullifier P input))
          = none
        ∧ ∃ record : NullifierRecord, record.scope = requestedScope P input
          ∧ record.nullifierHash = requestedNullifier P input
          ∧ SameMaps { r with
              nullifiers := r.nullifiers.set
                (nullifierKey (requestedScope P input) (requestedNullifier P input)) record }
            (markNullifierUsed P env r input).1 := by
  unfold markNullifierUsed
  simp only
  split_ifs with herrors
  · exact .inl ⟨sameMaps_mutationResult .., by simp [mutationResult]⟩
  · split
    · exact .inl ⟨sameMaps_mutationResult .., by simp [mutationResult]⟩
    · rename_i hnone
      exact .inr ⟨hnone, _, rfl, rfl, sameMaps_mutationResult ..⟩

theorem verify_sameMaps (r : Registry) (input : Members) :
    SameMaps r (verify P env r input).1 := by
  unfold verify recordAudit
  exact ⟨rfl, rfl, rfl⟩

theorem verify_revoked {r : Registry} {input : Members} {commitment : JsString}
    (h : commitment ∈ (verify P env r input).2.revokedCommitments) :
    (r.revoked.get? commitment).isSome :=
  (List.mem_filter.1 h).2

end Agid.RegistryApi
