import Agid.TrustPolicy
import Agid.Proofs.JsonValues

/-!
# What the trust policy loads

A usable key is that of an active record of the trust store, and no two records have one key.
-/

namespace Agid.AddressQl

open Checks JsonValue

variable {Key : Type} {P : Platform Key}

/-! ## Records -/

theorem exactTimestamp_eq_ok {v : Option JsonValue} {label : JsString} {time : ℤ}
    (h : exactTimestamp P v label = .ok time) : (text v).bind P.dateParse = some time := by
  unfold exactTimestamp at h
  simp only [bind_eq_ok] at h
  obtain ⟨-, -, -, -, h⟩ := h
  split at h
  · rename_i timestamp htime
    cases h
    exact htime
  · cases h

theorem status_eq_active {v : Option JsonValue} (h : status? v = some .active) :
    v = some (.string (js "active")) := by
  unfold status? at h
  split at h
  · split_ifs at h with hactive
    · rw [hactive]
    · cases h
    · cases h
  · cases h

theorem parsePublicKey_eq_ok {keyId pem : JsString} {key : Key}
    (h : parsePublicKey P keyId pem = .ok key) : P.createPublicKey pem = some key := by
  unfold parsePublicKey at h
  simp only [bind_eq_ok] at h
  obtain ⟨-, -, -, -, h⟩ := h
  split at h
  · rename_i key' hkey
    simp only [bind_eq_ok] at h
    obtain ⟨-, -, h⟩ := h
    cases h
    exact hkey
  · cases h

theorem parseV2Record_eq_ok {keyId : JsString} {value : JsonValue} {now : ℤ}
    {loaded : LoadedKey Key} (h : parseV2Record P keyId value now = .ok loaded) :
    ∃ record publicKey validFrom validUntil, value = .object record
      ∧ member (js "reviewerId") record = some (.string loaded.record.reviewerId)
      ∧ status? (member (js "status") record) = some loaded.record.status
      ∧ member (js "publicKey") record = some (.string publicKey)
      ∧ P.createPublicKey publicKey = some loaded.key
      ∧ (text (member (js "validFrom") record)).bind P.dateParse = some validFrom
      ∧ (text (member (js "validUntil") record)).bind P.dateParse = some validUntil
      ∧ loaded.usable
        = decide (loaded.record.status = .active && validFrom ≤ now && now ≤ validUntil) := by
  unfold parseV2Record at h
  split at h
  · rename_i members
    simp only at h
    split at h
    · rename_i reviewerId publicKey status hreviewerId hpublicKey hstatus
      simp only [bind_eq_ok, JsonValue.get, Except.ok.injEq] at h
      obtain ⟨-, -, -, rfl, validFrom, hfrom, -, rfl, validUntil, huntil, h⟩ := h
      obtain ⟨-, rfl, -, -, -, -, -, -, -, -, -, rfl, -, -, key, hkey, -, rfl, rfl⟩ := h
      exact ⟨members, publicKey, validFrom, validUntil, rfl, hreviewerId, hstatus, hpublicKey,
        parsePublicKey_eq_ok hkey, exactTimestamp_eq_ok hfrom, exactTimestamp_eq_ok huntil, by simp⟩
    · cases h
  · cases h

/-! ## The trust policy -/

/-- Each record is that of an entry, and the fingerprint of its key is its own. -/
structure Loads (P : Platform Key) (now : ℤ) (entries : List (JsString × JsonValue))
    (keys : LoadedKeys Key) : Prop where
  parsed {keyId : JsString} {loaded : LoadedKey Key} (h : keys.records.get? keyId = some loaded) :
    ∃ value, (keyId, value) ∈ entries ∧ parseV2Record P keyId value now = .ok loaded
  fingerprint {keyId : JsString} {loaded : LoadedKey Key}
    (h : keys.records.get? keyId = some loaded) :
    keys.fingerprints.get? (P.fingerprint loaded.key) = some keyId

theorem loads_empty {now : ℤ} {entries : List (JsString × JsonValue)} :
    Loads P now entries ⟨.empty, .empty⟩ :=
  ⟨fun h => by simp at h, fun h => by simp at h⟩

theorem Loads.set {now : ℤ} {entries : List (JsString × JsonValue)} {keys : LoadedKeys Key}
    {keyId : JsString} {value : JsonValue} {loaded : LoadedKey Key} (h : Loads P now entries keys)
    (hentry : (keyId, value) ∈ entries) (hparsed : parseV2Record P keyId value now = .ok loaded)
    (hnew : keys.fingerprints.get? (P.fingerprint loaded.key) = none) :
    Loads P now entries ⟨keys.records.set keyId loaded,
      keys.fingerprints.set (P.fingerprint loaded.key) keyId⟩ := by
  constructor
  · intro id other hother
    rw [Record.get?_set] at hother
    split_ifs at hother with hid
    · cases hother
      exact hid ▸ ⟨value, hentry, hparsed⟩
    · exact h.parsed hother
  · intro id other hother
    rw [Record.get?_set] at hother ⊢
    split_ifs at hother with hid
    · cases hother
      rw [if_pos rfl, hid]
    · have hold := h.fingerprint hother
      rw [if_neg fun heq => by rw [heq, hold] at hnew; cases hnew]
      exact hold

theorem loadKeys_loads {now : ℤ} {all : List (JsString × JsonValue)} {keys' : LoadedKeys Key} :
    ∀ {entries : List (JsString × JsonValue)} {keys : LoadedKeys Key},
      (∀ entry ∈ entries, entry ∈ all) → Loads P now all keys →
      loadKeys P now keys entries = .ok keys' → Loads P now all keys'
  | [], keys, _, hkeys, h => by
    cases h
    exact hkeys
  | (keyId, value) :: entries, keys, hall, hkeys, h => by
    unfold loadKeys at h
    obtain ⟨loaded, hparsed, h⟩ := bind_eq_ok.1 h
    simp only at h
    split at h
    · cases h
    · rename_i hnew
      exact loadKeys_loads (fun entry hentry => hall entry (List.mem_cons_of_mem _ hentry))
        (hkeys.set (hall _ List.mem_cons_self) hparsed hnew) h

theorem minimumSignatures_eq_some {v : Option JsonValue} {n : ℤ}
    (h : minimumSignatures? v = some n) : v = some (.number (.int n)) := by
  unfold minimumSignatures? at h
  split at h
  · split_ifs at h
    cases h
    rfl
  · cases h

/-- A trust policy that is loaded has the records of the entries, and the minimum, of its store. -/
theorem loadAddressQlTrustPolicy_eq_ok {parsed : Option JsonValue} {now : Option ℤ}
    {trust : LoadedTrustPolicy Key} (h : loadAddressQlTrustPolicy P parsed now = .ok trust) :
    ∃ store entries time fingerprints, parsed = some (.object store) ∧ now = some time
      ∧ member (js "keys") store = some (.object entries)
      ∧ policyMinimum parsed = .ok (some (.number (.int trust.minimumSignatures)))
      ∧ Loads P time entries ⟨trust.records, fingerprints⟩ := by
  unfold loadAddressQlTrustPolicy at h
  split at h
  · rename_i store time
    simp only [bind_eq_ok] at h
    obtain ⟨-, -, -, -, minimum, hminimum, h⟩ := h
    split at h
    · rename_i minimumSignatures entries hsignatures hentries
      simp only [bind_eq_ok] at h
      obtain ⟨keys, hkeys, -, -, h⟩ := h
      cases h
      rw [minimumSignatures_eq_some hsignatures] at hminimum
      exact ⟨store, entries, time, keys.fingerprints, rfl, rfl, hentries, hminimum,
        loadKeys_loads (fun _ h => h) loads_empty hkeys⟩
    · cases h
    · cases h
  all_goals cases h

end Agid.AddressQl
