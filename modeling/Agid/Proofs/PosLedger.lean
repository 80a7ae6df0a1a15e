import Agid.Proofs.SecurePos
import Agid.PosLedger

/-!
# The offline ledger keeps the first receipt

What the ledger is for is a map from nullifiers to the first receipt of each and how far it is
known.  Normalizing a ledger without doubles leaves the map as it is, a receipt is looked up and
added or flagged, and a reply only moves the status.
-/

namespace Agid.PosLedger

/-! ## First uses -/

/-- The first receipt of each nullifier, with its status. -/
abbrev Usage := JsString → Option (JsString × SyncStatus)

namespace Usage

def use (u : Usage) (nullifier receipt : JsString) : Usage :=
  Function.update u nullifier (some
    (match u nullifier with
      | none => (receipt, .pendingSync)
      | some (first, status) => (first, if first = receipt then status else .auditRequired)))

def hear (u : Usage) (nullifier : JsString) (accepted : Bool) : Usage :=
  Function.update u nullifier
    ((u nullifier).map fun p => (p.1, if accepted then .synced else .auditRequired))

theorem use_self_of_none {u : Usage} {n : JsString} (h : u n = none) (r : JsString) :
    u.use n r n = some (r, .pendingSync) := by
  simp [use, h]

theorem use_self_of_ne {u : Usage} {n first r : JsString} {s : SyncStatus}
    (h : u n = some (first, s)) (hne : first ≠ r) : u.use n r n = some (first, .auditRequired) := by
  simp [use, h, hne]

theorem use_keeps {u : Usage} {n first : JsString} {s : SyncStatus} (h : u n = some (first, s))
    (m r : JsString) : ∃ s', u.use m r n = some (first, s') := by
  by_cases hm : n = m
  · subst hm
    exact ⟨_, by rw [use, Function.update_self, h]⟩
  · exact ⟨s, by rw [use, Function.update_of_ne hm, h]⟩

theorem hear_keeps {u : Usage} {n first : JsString} {s : SyncStatus} (h : u n = some (first, s))
    (m : JsString) (b : Bool) : ∃ s', u.hear m b n = some (first, s') := by
  by_cases hm : n = m
  · subst hm
    exact ⟨_, by rw [hear, Function.update_self, h]; rfl⟩
  · exact ⟨s, by rw [hear, Function.update_of_ne hm, h]⟩

end Usage

variable {platform : Platform}

/-! ## Clean entries -/

/-- An entry that is read back with its nullifier and its receipt. -/
structure CleanEntry (platform : Platform) (e : Entry) : Prop where
  nullifier : cleanNullifier platform (some e.nullifier) = e.nullifier
  nullifier_ne_nil : e.nullifier ≠ []
  receiptId : boundedText (some e.receiptId) 80 = e.receiptId
  receiptId_ne_nil : e.receiptId ≠ []

theorem upper_of_matchesNullifier {s : JsString} (h : matchesNullifier s) {c : CodeUnit}
    (hc : c ∈ s) : c.val < 128 ∧ ¬ (97 ≤ c.val ∧ c.val ≤ 122) ∧ isWhiteSpace c = false := by
  simp only [matchesNullifier, Bool.and_eq_true, List.all_eq_true] at h
  obtain ⟨⟨⟨hsln', hhex⟩, -⟩, -⟩ := h
  obtain ⟨digits, rfl⟩ := List.isPrefixOf_iff_prefix.1 hsln'
  rcases List.mem_append.1 hc with hc | hc
  · have hsln : js "SLN-" = [83, 76, 78, 45] := rfl
    simp only [hsln, List.mem_cons, List.not_mem_nil, or_false] at hc
    rcases hc with rfl | rfl | rfl | rfl <;> decide
  · have hc' := hhex c hc
    simp only [isUpperHexDigit, Bool.or_eq_true, Bool.and_eq_true, decide_eq_true_eq] at hc'
    refine ⟨by omega, by omega, not_isWhiteSpace_of_upper ?_⟩
    simp only [isUpperAlphanumeric, Bool.or_eq_true, Bool.and_eq_true, decide_eq_true_eq]
    omega

theorem cleanNullifier_of_matches {s : JsString} (h : matchesNullifier s) :
    cleanNullifier platform (some s) = s := by
  have htrim : cleanText (some s) = s :=
    trim_eq_self fun c hc => (upper_of_matchesNullifier h hc).2.2
  have hupper : platform.toUpperCase s = s := platform.toUpperCase_of_upper s fun c hc =>
    ⟨(upper_of_matchesNullifier h hc).1, (upper_of_matchesNullifier h hc).2.1⟩
  simp [cleanNullifier, htrim, hupper, h]

theorem cleanNullifier_idem (value : Option JsString)
    (h : cleanNullifier platform value ≠ []) :
    cleanNullifier platform (some (cleanNullifier platform value))
      = cleanNullifier platform value := by
  refine cleanNullifier_of_matches ?_
  simp only [cleanNullifier] at h ⊢
  split_ifs at h ⊢ with hm
  · exact hm
  · exact absurd rfl h

theorem isUpperAlphanumeric_base36 {n : ℕ} {c : CodeUnit} (hc : c ∈ base36 n) :
    isUpperAlphanumeric c := by
  unfold base36 at hc
  simp only at hc
  split_ifs at hc with hn
  · have hzero : js "0" = [48] := rfl
    rw [hzero, List.mem_singleton] at hc
    subst hc
    decide
  · obtain ⟨d, hd, rfl⟩ := List.mem_map.1 hc
    have hlt : d < 36 := Nat.digits_lt_base (by norm_num) (List.mem_reverse.1 hd)
    simp only [isUpperAlphanumeric, Bool.or_eq_true, Bool.and_eq_true, decide_eq_true_eq]
    split_ifs <;> simp only [Fin.ofNat] <;> omega

theorem length_base36_le {n k : ℕ} (hk : 0 < k) (h : n < 36 ^ k) : (base36 n).length ≤ k := by
  unfold base36
  simp only
  split_ifs
  · exact hk
  · rw [List.length_map, List.length_reverse]
    exact Nat.digits_length_le_iff (by norm_num) n |>.2 h

theorem receiptId_units (receipt : Receipt) {c : CodeUnit} (hc : c ∈ receipt.receiptId) :
    isUpperAlphanumeric c ∨ c = 45 := by
  unfold Receipt.receiptId stableReceiptHash at hc
  rcases List.mem_append.1 hc with hc | hc
  · have hpos : js "POS-" = [80, 79, 83, 45] := rfl
    simp only [hpos, List.mem_cons, List.not_mem_nil, or_false] at hc
    rcases hc with rfl | rfl | rfl | rfl <;> decide
  · rcases List.mem_append.1 hc with hc | hc
    · rw [List.eq_of_mem_replicate hc]
      decide
    · exact .inl (isUpperAlphanumeric_base36 hc)

theorem length_receiptId (receipt : Receipt) : receipt.receiptId.length = 11 := by
  have h := length_base36_le (n := stableHash receipt.hashSeed) (k := 7) (by norm_num) (by
    have := BitVec.isLt (receipt.hashSeed.foldl
      (fun hash c => (hash ^^^ BitVec.ofNat 32 c.val) * 0x01000193#32) 0x811c9dc5#32)
    unfold stableHash
    omega)
  have hpos : (js "POS-").length = 4 := rfl
  simp only [Receipt.receiptId, stableReceiptHash, List.length_append, List.length_replicate, hpos]
  omega

/-- The id of a receipt is read back as it is. -/
theorem boundedText_receiptId (receipt : Receipt) :
    boundedText (some receipt.receiptId) 80 = receipt.receiptId := by
  have hwhite : ∀ c ∈ receipt.receiptId, isWhiteSpace c = false := fun c hc => by
    rcases receiptId_units receipt hc with h | rfl
    · exact not_isWhiteSpace_of_upper h
    · decide
  have hbreak : ∀ c ∈ receipt.receiptId, AddressOfflineCrdt.isLineBreak c = false := fun c hc => by
    rcases receiptId_units receipt hc with h | rfl
    · simp only [isUpperAlphanumeric, Bool.or_eq_true, Bool.and_eq_true, decide_eq_true_eq] at h
      simp only [AddressOfflineCrdt.isLineBreak, Bool.or_eq_false_iff, decide_eq_false_iff_not]
      omega
    · decide
  have htrim : cleanText (some receipt.receiptId) = receipt.receiptId := trim_eq_self hwhite
  rw [boundedText, htrim, AddressOfflineCrdt.replaceRuns_of_forall _ _ hbreak,
    List.take_of_length_le (by rw [length_receiptId]; norm_num)]

/-! ## Normalizing -/

theorem read_clean {e : Entry} (h : CleanEntry platform e) :
    ∃ e', readEntry platform e.raw = some e' ∧ CleanEntry platform e' ∧ e'.nullifier = e.nullifier
      ∧ e'.receiptId = e.receiptId ∧ e'.syncStatus = e.syncStatus := by
  have hn : cleanNullifier platform e.raw.nullifier = e.nullifier := h.nullifier
  have hr : boundedText e.raw.receiptId 80 = e.receiptId := h.receiptId
  simp only [readEntry, hn, hr, h.nullifier_ne_nil, h.receiptId_ne_nil, or_self, if_false,
    Option.some.injEq, exists_eq_left']
  refine ⟨⟨h.nullifier, h.nullifier_ne_nil, h.receiptId, h.receiptId_ne_nil⟩, ?_⟩
  simp [Entry.raw]

/-- A clean entry as it is read back. -/
def renew (platform : Platform) (e : Entry) : Entry := (readEntry platform e.raw).getD e

theorem renew_spec {e : Entry} (h : CleanEntry platform e) :
    readEntry platform e.raw = some (renew platform e) ∧ CleanEntry platform (renew platform e)
      ∧ (renew platform e).nullifier = e.nullifier ∧ (renew platform e).receiptId = e.receiptId
      ∧ (renew platform e).syncStatus = e.syncStatus := by
  obtain ⟨e', he', hspec⟩ := read_clean h
  rw [renew, he']
  exact ⟨rfl, hspec⟩

theorem foldl_addEntry : ∀ {l : List Entry} {r : Record JsString Entry},
    (∀ e ∈ l, CleanEntry platform e) → (l.map Entry.nullifier).Nodup →
      (∀ e ∈ l, r.get? e.nullifier = none) →
        (l.map fun e => some e.raw).foldl (addEntry platform) r
          = (l.map (renew platform)).foldl (fun r e => r.set e.nullifier e) r
  | [], _, _, _, _ => rfl
  | e :: l, r, hclean, hn, hr => by
    rw [List.map_cons, List.nodup_cons] at hn
    obtain ⟨hread, -, hnull, -, -⟩ := renew_spec (hclean e List.mem_cons_self)
    have hstep : addEntry platform r (some e.raw)
        = r.set (renew platform e).nullifier (renew platform e) := by
      simp only [addEntry, Option.bind_some, hread, hnull, hr e List.mem_cons_self]
    rw [List.map_cons, List.map_cons, List.foldl_cons, List.foldl_cons, hstep]
    refine foldl_addEntry (fun b hb => hclean b (List.mem_cons_of_mem _ hb)) hn.2 fun b hb => ?_
    have hne : (renew platform e).nullifier ≠ b.nullifier := fun h =>
      hn.1 (hnull ▸ h ▸ List.mem_map_of_mem hb)
    rw [Record.get?_set_of_ne _ _ hne]
    exact hr b (List.mem_cons_of_mem _ hb)

theorem normalizeEntries_perm {l : List Entry} (hclean : ∀ e ∈ l, CleanEntry platform e)
    (hn : (l.map Entry.nullifier).Nodup) :
    (normalizeEntries platform l).Perm (l.map (renew platform)) := by
  have hmap : (l.map (renew platform)).map Entry.nullifier = l.map Entry.nullifier := by
    rw [List.map_map]
    exact List.map_congr_left fun e he => (renew_spec (hclean e he)).2.2.1
  refine (List.mergeSort_perm _ _).trans (List.Perm.of_eq ?_)
  rw [foldl_addEntry hclean hn fun _ _ => rfl,
    Record.values_foldl_set_new Entry.nullifier (hmap ▸ hn) fun _ _ => rfl]
  rfl

/-! ## A ledger and its first uses -/

/-- The ledger's entries are clean, one to a nullifier, and tell what the map does. -/
structure Represents (platform : Platform) (ledger : List Entry) (u : Usage) : Prop where
  clean : ∀ e ∈ ledger, CleanEntry platform e
  once : (ledger.map Entry.nullifier).Nodup
  tells : ∀ n r s, u n = some (r, s) ↔
    ∃ e ∈ ledger, e.nullifier = n ∧ e.receiptId = r ∧ e.syncStatus = s

theorem Represents.normalize {ledger : List Entry} {u : Usage}
    (h : Represents platform ledger u) : Represents platform (normalizeEntries platform ledger) u := by
  have hperm := normalizeEntries_perm h.clean h.once
  have hmap : (ledger.map (renew platform)).map Entry.nullifier = ledger.map Entry.nullifier := by
    rw [List.map_map]
    exact List.map_congr_left fun e he => (renew_spec (h.clean e he)).2.2.1
  refine ⟨fun e he => ?_, (hperm.map _).nodup_iff.2 (hmap ▸ h.once), fun n r s => ?_⟩
  · obtain ⟨e₀, he₀, rfl⟩ := List.mem_map.1 (hperm.mem_iff.1 he)
    exact (renew_spec (h.clean e₀ he₀)).2.1
  · rw [h.tells]
    constructor
    · rintro ⟨e, he, rfl, rfl, rfl⟩
      obtain ⟨-, -, hnull, hrec, hstatus⟩ := renew_spec (h.clean e he)
      exact ⟨_, hperm.mem_iff.2 (List.mem_map_of_mem he), hnull, hrec, hstatus⟩
    · rintro ⟨e, he, rfl, rfl, rfl⟩
      obtain ⟨e₀, he₀, rfl⟩ := List.mem_map.1 (hperm.mem_iff.1 he)
      obtain ⟨-, -, hnull, hrec, hstatus⟩ := renew_spec (h.clean e₀ he₀)
      exact ⟨e₀, he₀, hnull.symm, hrec.symm, hstatus.symm⟩

theorem Represents.none_iff {ledger : List Entry} {u : Usage} (h : Represents platform ledger u)
    {n : JsString} : u n = none ↔ ∀ e ∈ ledger, e.nullifier ≠ n := by
  constructor
  · rintro hn e he rfl
    simpa [hn] using (h.tells _ _ _).2 ⟨e, he, rfl, rfl, rfl⟩
  · intro hn
    rcases hu : u n with _ | ⟨r, s⟩
    · rfl
    · obtain ⟨e, he, rfl, -⟩ := (h.tells _ _ _).1 hu
      exact absurd rfl (hn e he)

theorem represents_nil : Represents platform [] fun _ => none :=
  ⟨by simp, by simp, by simp⟩

theorem Represents.congr {ledger ledger' : List Entry} {u : Usage}
    (h : Represents platform ledger u) (hperm : ledger'.Perm ledger) :
    Represents platform ledger' u where
  clean e he := h.clean e (hperm.mem_iff.1 he)
  once := (hperm.map _).nodup_iff.2 h.once
  tells n r s := by simp only [h.tells, hperm.mem_iff]

/-! ## Recording -/

theorem clean_of_receipt {receipt : Receipt} {now : Option JsString} {entry : Entry}
    (h : createPosOfflineUsageEntryFromReceipt platform receipt now = some entry) :
    CleanEntry platform entry ∧ entry.receiptId = receipt.receiptId
      ∧ entry.syncStatus = .pendingSync := by
  unfold createPosOfflineUsageEntryFromReceipt at h
  rcases hl : receipt.shippingLabel with _ | label
  · simp [hl] at h
  · simp only [hl, Option.ite_none_right_eq_some, Option.some.injEq] at h
    obtain ⟨⟨-, -, -, hn⟩, rfl⟩ := h
    refine ⟨⟨cleanNullifier_idem _ hn, hn, boundedText_receiptId receipt, ?_⟩, rfl, rfl⟩
    intro (hnil : receipt.receiptId = [])
    have hlength := length_receiptId receipt
    rw [hnil] at hlength
    cases hlength

theorem Represents.cons {ledger : List Entry} {u : Usage} (h : Represents platform ledger u)
    {e : Entry} (he : CleanEntry platform e) (hnew : u e.nullifier = none)
    (hpending : e.syncStatus = .pendingSync) :
    Represents platform (e :: ledger) (u.use e.nullifier e.receiptId) := by
  refine ⟨fun b hb => ?_, ?_, fun n r s => ?_⟩
  · rcases List.mem_cons.1 hb with rfl | hb
    · exact he
    · exact h.clean b hb
  · rw [List.map_cons, List.nodup_cons]
    refine ⟨fun hmem => ?_, h.once⟩
    obtain ⟨b, hb, hn⟩ := List.mem_map.1 hmem
    exact h.none_iff.1 hnew b hb hn
  · by_cases hn : n = e.nullifier
    · subst hn
      rw [Usage.use_self_of_none hnew, ← hpending]
      constructor
      · rintro ⟨⟩
        exact ⟨e, List.mem_cons_self, rfl, rfl, rfl⟩
      · rintro ⟨b, hb, hbn, rfl, rfl⟩
        rcases List.mem_cons.1 hb with rfl | hb
        · rfl
        · exact absurd hbn (h.none_iff.1 hnew b hb)
    · rw [Usage.use, Function.update_of_ne hn, h.tells]
      constructor
      · rintro ⟨b, hb, hspec⟩
        exact ⟨b, List.mem_cons_of_mem _ hb, hspec⟩
      · rintro ⟨b, hb, rfl, hspec⟩
        rcases List.mem_cons.1 hb with rfl | hb
        · exact absurd rfl hn
        · exact ⟨b, hb, rfl, hspec⟩

/-- An entry in place of the one with its nullifier. -/
theorem Represents.set {ledger : List Entry} {u : Usage} (h : Represents platform ledger u)
    {i : ℕ} {existing e : Entry} (hi : ledger[i]? = some existing) (he : CleanEntry platform e)
    (hn : e.nullifier = existing.nullifier) :
    Represents platform (ledger.set i e)
      (Function.update u e.nullifier (some (e.receiptId, e.syncStatus))) := by
  obtain ⟨hlt, hget⟩ := List.getElem?_eq_some_iff.1 hi
  have hmap : (ledger.set i e).map Entry.nullifier = ledger.map Entry.nullifier := by
    rw [List.map_set, hn, ← hget, ← List.getElem_map Entry.nullifier (h := by simpa using hlt),
      List.set_getElem_self]
  have hother : ∀ b ∈ ledger.set i e, b.nullifier ≠ e.nullifier → b ∈ ledger := fun b hb hne => by
    rcases List.mem_or_eq_of_mem_set hb with hb | rfl
    · exact hb
    · exact absurd rfl hne
  refine ⟨fun b hb => ?_, hmap ▸ h.once, fun n r s => ?_⟩
  · rcases List.mem_or_eq_of_mem_set hb with hb | rfl
    · exact h.clean b hb
    · exact he
  · by_cases hne : n = e.nullifier
    · subst hne
      rw [Function.update_self]
      constructor
      · rintro ⟨⟩
        exact ⟨e, List.mem_set hlt e, rfl, rfl, rfl⟩
      · rintro ⟨b, hb, hbn, rfl, rfl⟩
        have hnodup : ((ledger.set i e).map Entry.nullifier).Nodup := hmap ▸ h.once
        rw [List.inj_on_of_nodup_map hnodup hb (List.mem_set hlt e) hbn]
    · rw [Function.update_of_ne hne, h.tells]
      constructor
      · rintro ⟨b, hb, rfl, hspec⟩
        obtain ⟨j, hj, rfl⟩ := List.mem_iff_getElem.1 hb
        have hij : i ≠ j := by
          rintro rfl
          exact hne (by rw [hn, hget])
        refine ⟨ledger[j], ?_, rfl, hspec⟩
        rw [← List.getElem_set_ne hij (by simpa using hj)]
        exact List.getElem_mem _
      · rintro ⟨b, hb, rfl, hspec⟩
        exact ⟨b, hother b hb hne, rfl, hspec⟩

/-- A receipt that makes no entry leaves the map, and one that does is used. -/
def Usage.record (u : Usage) : Option Entry → Usage
  | none => u
  | some entry => u.use entry.nullifier entry.receiptId

/-- Recording tells of a conflict exactly where another receipt is first. -/
theorem Represents.record {ledger : List Entry} {u : Usage} (h : Represents platform ledger u)
    (receipt : Receipt) (now : Option JsString) :
    Represents platform (recordPosOfflineUsage platform ledger receipt now).entries
        (u.record (createPosOfflineUsageEntryFromReceipt platform receipt now))
      ∧ ∀ n, ((recordPosOfflineUsage platform ledger receipt now).conflict ∧
          (recordPosOfflineUsage platform ledger receipt now).entry.map Entry.nullifier = some n) ↔
        ∃ entry, createPosOfflineUsageEntryFromReceipt platform receipt now = some entry ∧
          entry.nullifier = n ∧ ∃ first s, u n = some (first, s) ∧ first ≠ entry.receiptId := by
  have hu := h.normalize
  rcases hentry : createPosOfflineUsageEntryFromReceipt platform receipt now with _ | entry
  · simp only [recordPosOfflineUsage, hentry]
    exact ⟨hu, by simp⟩
  · obtain ⟨hclean, -, hpending⟩ := clean_of_receipt hentry
    rcases hfind : (normalizeEntries platform ledger).findIdx?
      (·.nullifier = entry.nullifier) with _ | i
    · have hnew : u entry.nullifier = none := hu.none_iff.2 fun e he => by
        simpa using List.findIdx?_eq_none_iff.1 hfind e he
      simp only [recordPosOfflineUsage, hentry, hfind, Usage.record]
      refine ⟨(hu.cons hclean hnew hpending).normalize, fun n => ?_⟩
      simp only [Bool.false_eq_true, false_and, Option.some.injEq, exists_eq_left', false_iff]
      rintro ⟨rfl, first, s, hs, -⟩
      cases hnew.symm.trans hs
    · obtain ⟨hlt, hn, -⟩ := List.findIdx?_eq_some_iff_getElem.1 hfind
      simp only [decide_eq_true_eq] at hn
      have hget := List.getElem?_eq_getElem hlt
      set existing := (normalizeEntries platform ledger)[i] with hexisting
      have hmem : existing ∈ normalizeEntries platform ledger := List.getElem_mem hlt
      have hold : u entry.nullifier = some (existing.receiptId, existing.syncStatus) :=
        (hu.tells _ _ _).2 ⟨existing, hmem, hn, rfl, rfl⟩
      by_cases hr : existing.receiptId = entry.receiptId
      · simp only [recordPosOfflineUsage, hentry, hfind, hget, hr, if_true, Usage.record]
        have hsame : u.use entry.nullifier entry.receiptId = u := by
          rw [Usage.use, hold]
          simp only [hr, if_true]
          rw [← hr, ← hold, Function.update_eq_self]
        rw [hsame]
        refine ⟨hu, fun n => ?_⟩
        simp only [Bool.false_eq_true, false_and, Option.some.injEq, exists_eq_left', false_iff]
        rintro ⟨rfl, first, s, hs, hne⟩
        rw [hold] at hs
        cases hs
        exact hne hr
      · simp only [recordPosOfflineUsage, hentry, hfind, hget, hr, if_false, Usage.record]
        have hset := hu.set hget (e := { existing with
            syncStatus := .auditRequired
            conflictReason := some (js "local-nullifier-duplicate")
            conflictingReceiptId := some entry.receiptId
            conflictDetectedAt := some (cleanIsoTimestamp platform now entry.createdAt)
            updatedAt := cleanIsoTimestamp platform now entry.createdAt })
          ⟨(hu.clean _ hmem).nullifier, (hu.clean _ hmem).nullifier_ne_nil,
            (hu.clean _ hmem).receiptId, (hu.clean _ hmem).receiptId_ne_nil⟩ rfl
        have huse : u.use entry.nullifier entry.receiptId = Function.update u existing.nullifier
            (some (existing.receiptId, .auditRequired)) := by
          rw [Usage.use, hold, hn]
          simp only [hr, if_false]
        refine ⟨huse ▸ hset.normalize, fun n => ?_⟩
        simp only [Option.map_some, Option.some.injEq, true_and, exists_eq_left', hn]
        constructor
        · rintro rfl
          exact ⟨rfl, _, _, hold, hr⟩
        · exact And.left

/-! ## Reconciling -/

/-- A table of clean entries under their nullifiers. -/
structure Tabled (platform : Platform) (table : Record JsString Entry) (u : Usage) : Prop where
  clean : ∀ n e, table.get? n = some e → CleanEntry platform e ∧ e.nullifier = n
  tells : ∀ n, u n = (table.get? n).map fun e => (e.receiptId, e.syncStatus)

theorem Represents.tabled {ledger : List Entry} {u : Usage} (h : Represents platform ledger u) :
    Tabled platform (ledger.foldl (fun table e => table.set e.nullifier e) .empty) u := by
  set table := ledger.foldl (fun table e => table.set e.nullifier e) Record.empty with htable
  have hvalues : table.values = ledger :=
    Record.values_foldl_set_new Entry.nullifier h.once fun _ _ => rfl
  have hkey : ∀ n e, table.get? n = some e → e.nullifier = n := fun n e he => by
    rw [htable, Record.get?_foldl_set_last, Record.get?_empty, Option.or_none] at he
    simpa using (List.mem_filter.1 (List.mem_of_getLast? he)).2
  have hmem : ∀ n e, table.get? n = some e → e ∈ ledger := fun n e he =>
    hvalues ▸ Record.mem_values.2 ⟨n, he⟩
  refine ⟨fun n e he => ⟨h.clean e (hmem n e he), hkey n e he⟩, fun n => ?_⟩
  rcases ht : table.get? n with _ | e
  · refine h.none_iff.2 fun e he hn => ?_
    obtain ⟨m, hm⟩ := Record.mem_values.1 (hvalues.symm ▸ he : e ∈ table.values)
    obtain rfl := (hkey m e hm).symm.trans hn
    rw [ht] at hm
    cases hm
  · exact (h.tells _ _ _).2 ⟨e, hmem n e ht, hkey n e ht, rfl, rfl⟩

theorem Tabled.represents {table : Record JsString Entry} {u : Usage}
    (h : Tabled platform table u) : Represents platform table.values u := by
  have hkeys : table.values.map Entry.nullifier = table.keys := by
    rw [Record.values, Record.keys, List.map_map]
    exact List.map_congr_left fun e he => (h.clean _ _ (Record.mem_entries.1 he)).2
  refine ⟨fun e he => ?_, hkeys ▸ table.nodup, fun n r s => ?_⟩
  · obtain ⟨n, hn⟩ := Record.mem_values.1 he
    exact (h.clean n e hn).1
  · rw [h.tells, Option.map_eq_some_iff]
    constructor
    · rintro ⟨e, he, heq⟩
      cases heq
      exact ⟨e, Record.mem_values.2 ⟨n, he⟩, (h.clean n e he).2, rfl, rfl⟩
    · rintro ⟨e, he, rfl, rfl, rfl⟩
      obtain ⟨n, hn⟩ := Record.mem_values.1 he
      exact ⟨e, (h.clean n e hn).2 ▸ hn, rfl⟩

theorem Tabled.set {table : Record JsString Entry} {u : Usage} (h : Tabled platform table u)
    {n : JsString} {e : Entry} (he : CleanEntry platform e) (hn : e.nullifier = n) :
    Tabled platform (table.set n e) (Function.update u n (some (e.receiptId, e.syncStatus))) := by
  refine ⟨fun m b hb => ?_, fun m => ?_⟩
  · by_cases hm : n = m
    · subst hm
      rw [Record.get?_set_self] at hb
      cases hb
      exact ⟨he, hn⟩
    · rw [Record.get?_set_of_ne _ _ hm] at hb
      exact h.clean m b hb
  · by_cases hm : n = m
    · subst hm
      rw [Record.get?_set_self, Function.update_self, Option.map_some]
    · rw [Record.get?_set_of_ne _ _ hm, Function.update_of_ne (Ne.symm hm), h.tells]

/-- Hearing an event's outcome. -/
def Usage.hearEvent (platform : Platform) (u : Usage) (event : SyncEvent) : Usage :=
  u.hear (cleanNullifier platform (some event.nullifier)) (event.outcome = .accepted)

theorem Tabled.event {table : Record JsString Entry} {u : Usage} (h : Tabled platform table u)
    (now : JsString) (event : SyncEvent) :
    Tabled platform (reconcileEvent platform now table event) (u.hearEvent platform event) := by
  have hunknown : ∀ n, table.get? n = none → u.hear n (event.outcome = .accepted) = u := by
    intro n hn
    rw [Usage.hear, h.tells, hn, Option.map_none, Option.map_none]
    exact Function.update_eq_self_iff.2 (by rw [h.tells, hn, Option.map_none])
  unfold reconcileEvent Usage.hearEvent
  set n := cleanNullifier platform (some event.nullifier)
  rcases hget : table.get? n with _ | existing
  · simp only [hget, ite_self, hunknown n hget]
    exact h
  · obtain ⟨hclean, hn⟩ := h.clean n existing hget
    rw [if_neg (hn ▸ hclean.nullifier_ne_nil)]
    simp only [hget]
    have hheard : u.hear n (event.outcome = .accepted) = Function.update u n
        (some (existing.receiptId,
          if event.outcome = .accepted then .synced else .auditRequired)) := by
      rw [Usage.hear, h.tells, hget]
      simp
    rw [hheard]
    exact h.set ⟨hclean.nullifier, hclean.nullifier_ne_nil, hclean.receiptId,
      hclean.receiptId_ne_nil⟩ hn

theorem Tabled.events (now : JsString) : ∀ (events : List SyncEvent)
    {table : Record JsString Entry} {u : Usage}, Tabled platform table u →
      Tabled platform (events.foldl (reconcileEvent platform now) table)
        (events.foldl (Usage.hearEvent platform) u)
  | [], _, _, h => h
  | event :: events, _, _, h => Tabled.events now events (h.event now event)

theorem Represents.reconcile {ledger : List Entry} {u : Usage} (h : Represents platform ledger u)
    (result : SyncResult) (now : Option JsString) (clock : ℤ) :
    Represents platform (reconcilePosOfflineUsageSync platform ledger result now clock)
      (result.events.foldl (Usage.hearEvent platform) u) :=
  (Tabled.events _ result.events h.normalize.tabled).represents.normalize

/-- The last event of a nullifier decides. -/
theorem hearEvents_apply (n : JsString) : ∀ (events : List SyncEvent) (u : Usage),
    events.foldl (Usage.hearEvent platform) u n =
      match (events.filter fun event =>
        cleanNullifier platform (some event.nullifier) = n).getLast? with
      | none => u n
      | some event => (u n).map fun p =>
          (p.1, if event.outcome = .accepted then .synced else .auditRequired)
  | [], _ => rfl
  | event :: events, u => by
    rw [List.foldl_cons, hearEvents_apply n events]
    by_cases hn : cleanNullifier platform (some event.nullifier) = n
    · rw [List.filter_cons_of_pos (by simpa using hn), List.getLast?_cons, Usage.hearEvent,
        Usage.hear, hn, Function.update_self]
      cases (events.filter fun event =>
          cleanNullifier platform (some event.nullifier) = n).getLast? with
      | none => simp
      | some last => simp [Function.comp_def]
    · rw [List.filter_cons_of_neg (by simpa using hn), Usage.hearEvent, Usage.hear,
        Function.update_of_ne (Ne.symm hn)]

end Agid.PosLedger
