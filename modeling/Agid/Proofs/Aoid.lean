import Agid.Aoid
import Agid.Proofs.SecureBase32

/-!
# AOID ids

The ids that the generator returns for an AGID: its anchor and six characters after it.  The rule
against four consecutive characters is the only one that an anchor can break by itself.
-/

namespace Agid.Aoid

open AgidSecureShare (alphabet_units)

section Owned

variable {P : Platform} {value : Option JsonValue} {id : JsString}

/-! ## Runs -/

theorem sequentialRun_cons (a b c d : ℤ) (l : List ℤ) : sequentialRun (a :: b :: c :: d :: l)
    = (isRun a b c d || sequentialRun (b :: c :: d :: l)) := rfl

theorem sequentialRun_append : ∀ {l : List ℤ} (r : List ℤ), sequentialRun l →
    sequentialRun (l ++ r)
  | a :: b :: c :: d :: l, r, h => by
    rw [sequentialRun_cons, Bool.or_eq_true] at h
    simp only [List.cons_append, sequentialRun_cons, Bool.or_eq_true]
    exact h.imp_right (sequentialRun_append (l := b :: c :: d :: l) r)
  | [], _, h | [_], _, h | [_, _], _, h | [_, _, _], _, h => by simp [sequentialRun] at h

theorem isRun_second (a c d : ℤ) : isRun a a c d = false := by simp [isRun]

theorem isRun_third (a b d : ℤ) : isRun a b b d = false := by
  simp only [isRun, Bool.and_eq_false_iff, Bool.or_eq_false_iff, decide_eq_false_iff_not]
  omega

theorem isRun_fourth (a b c : ℤ) : isRun a b c c = false := by
  simp only [isRun, Bool.and_eq_false_iff, Bool.or_eq_false_iff, decide_eq_false_iff_not]
  omega

/-- A character that is repeated ends every run, and so does each one after it. -/
theorem sequentialRun_doubled (z d : ℤ) : ∀ {l : List ℤ}, sequentialRun (l ++ [z]) = false →
    sequentialRun (l ++ [z, z, d, d, d, d, d]) = false
  | [], _ => by simp [sequentialRun_cons, isRun_second, isRun_third, sequentialRun]
  | [a], _ => by simp [sequentialRun_cons, isRun_second, isRun_third, sequentialRun]
  | [a, b], _ => by
    simp [sequentialRun_cons, isRun_second, isRun_third, isRun_fourth, sequentialRun]
  | [a, b, c], h => by
    simp only [List.cons_append, List.nil_append, sequentialRun_cons, Bool.or_eq_false_iff] at h ⊢
    exact ⟨h.1, by simp [sequentialRun, isRun_second, isRun_third, isRun_fourth]⟩
  | a :: b :: c :: e :: l, h => by
    simp only [List.cons_append, sequentialRun_cons, Bool.or_eq_false_iff] at h ⊢
    exact ⟨h.1, sequentialRun_doubled z d (l := b :: c :: e :: l) h.2⟩

/-! ## Characters -/

theorem toUpperCase_eq_self {s : JsString} (h : ∀ c ∈ s, isUpperAlphanumeric c = true) :
    P.toUpperCase s = s := by
  have hunit : ∀ c ∈ s, c.val < 128 ∧ upperAscii c = c := fun c hc => by
    have hc := h c hc
    simp only [isUpperAlphanumeric, Bool.or_eq_true, Bool.and_eq_true, decide_eq_true_eq] at hc
    exact ⟨by omega, if_neg (by omega)⟩
  rw [P.toUpperCase_ascii s fun c hc => (hunit c hc).1]
  exact (List.map_congr_left fun c hc => (hunit c hc).2).trans (List.map_id s)

theorem isAoidUnit_of_mem {c : CodeUnit} (hc : c ∈ BASE32_ALPHABET) : isAoidUnit c = true := by
  have hall : (BASE32_ALPHABET.all isAoidUnit) = true := by rfl
  exact List.all_eq_true.1 hall c hc

theorem trim_of_mem {s : JsString} (h : ∀ c ∈ s, c ∈ BASE32_ALPHABET) : trim s = s :=
  trim_eq_self fun c hc => (alphabet_units (h c hc)).2.1

theorem toUpperCase_of_mem {s : JsString} (h : ∀ c ∈ s, c ∈ BASE32_ALPHABET) :
    P.toUpperCase s = s :=
  toUpperCase_eq_self fun c hc => (alphabet_units (h c hc)).1

/-- Two characters are not one character sixteen times. -/
theorem not_allSame_of_ne {c d : CodeUnit} (hid : ∀ c ∈ id, c ∈ BASE32_ALPHABET) (hc : c ∈ id)
    (hd : d ∈ id) (hne : c ≠ d) : hasAOIDAllSame16 id = false := by
  have hchars : chars id = id.map fun c => [c] :=
    Sha256.chars_of_units fun c hc => (alphabet_units (hid c hc)).2.2
  rw [hasAOIDAllSame16, Bool.and_eq_false_iff]
  right
  rw [decide_eq_false_iff_not, List.length_eq_one_iff]
  rintro ⟨x, hx⟩
  have hmem : ∀ e ∈ id, [e] = x := fun e he => by
    have : [e] ∈ (chars id).eraseDups := by
      rw [List.mem_eraseDups, hchars]
      exact List.mem_map_of_mem he
    simpa [hx] using this
  exact hne (List.cons.inj ((hmem c hc).trans (hmem d hd).symm)).1

/-! ## Ids of the alphabet -/

/-- What is left of the check of an id of sixteen characters of the alphabet. -/
theorem normalizeAOIDId_of_mem (hid : ∀ c ∈ id, c ∈ BASE32_ALPHABET)
    (hlength : id.length = AOID_ID_MAX_LENGTH) :
    normalizeAOIDId P (some (.string id)) value
      = if hasAOIDAllSame16 id then
          .error (js "Invalid AOID id. AOID ids cannot be 16 repeated characters.")
        else if hasAOIDSequentialRun id then
          .error (js "Invalid AOID id. AOID ids cannot contain four consecutive base32 characters.")
        else if JsonValue.truthy value && !isAOIDLinkedToAGID P id value then
          .error (js "Invalid AOID id. AOID ids must contain the linked AGID base32 anchor.")
        else .ok id := by
  have hunits : id.all isAoidUnit = true :=
    List.all_eq_true.2 fun c hc => isAoidUnit_of_mem (hid c hc)
  have hmatch : matchesAoidId id = true := by
    simp [matchesAoidId, hlength, hunits, AOID_ID_MIN_LENGTH, AOID_ID_MAX_LENGTH]
  simp only [normalizeAOIDId, clean, trim_of_mem hid, toUpperCase_of_mem hid, hmatch, Bool.not_true,
    Bool.false_eq_true, if_false]

theorem linked_of_prefix {anchor : JsString} (hanchor : getAOIDLinkedAGIDAnchor P value = anchor)
    (hne : anchor ≠ []) (hid : anchor <+: id) : isAOIDLinkedToAGID P id value = true := by
  have hincludes : includes id anchor = true :=
    List.any_eq_true.2 ⟨id, by simp, List.isPrefixOf_iff_prefix.2 hid⟩
  simp only [isAOIDLinkedToAGID, hanchor, if_neg hne, if_neg (not_lt.2 hid.length_le), hincludes]

/-! ## Anchors -/

theorem upper_of_format {agid : JsString} (h : Agid.isValidAGIDFormat agid = true) :
    ∀ c ∈ agid, isUpperAlphanumeric c = true := by
  have hall : (js "0123456789ABCDEFGHIJKLMNOPQRSTUVWXYZ").all isUpperAlphanumeric = true := by rfl
  simp only [Agid.isValidAGIDFormat, Bool.and_eq_true, List.all_eq_true, decide_eq_true_eq] at h
  intro c hc
  rw [← List.take_append_drop AGID_PREFIX_LENGTH agid, List.mem_append] at hc
  rcases hc with hc | hc
  · exact List.all_eq_true.1 hall c (h.1.2 c hc)
  · exact (alphabet_units (h.2 c hc)).1

/-- An AGID is normalized to itself. -/
theorem normalizeAGIDInput_of_format {agid : JsString} (h : Agid.isValidAGIDFormat agid = true) :
    normalizeAGIDInput P (some (.string agid)) = some agid := by
  have hne : agid ≠ [] := by
    rintro rfl
    simp [Agid.isValidAGIDFormat, AGID_PREFIX_LENGTH, AGID_HASH_LENGTH] at h
  have htrim : trim agid = agid :=
    trim_eq_self fun c hc => not_isWhiteSpace_of_upper (upper_of_format h c hc)
  rw [normalizeAGIDInput, htrim, toUpperCase_eq_self (upper_of_format h), nonEmpty, if_neg hne]

theorem isValidAGIDFormat_of_format {agid : JsString} (h : Agid.isValidAGIDFormat agid = true) :
    isValidAGIDFormat P (some (.string agid)) = true := by
  rw [isValidAGIDFormat, normalizeAGIDInput_of_format h, Option.any_some, h]

theorem cleanAgid_of_normalized {agid : JsString} (hvalue : normalizeAGIDInput P value = some agid)
    (h : Agid.isValidAGIDFormat agid = true) : cleanAgid P value = agid := by
  rw [cleanAgid, hvalue]
  exact if_pos (isValidAGIDFormat_of_format h)

/-- The AGID that a value is read as. -/
theorem exists_cleanAgid (h : isValidAGIDFormat P value = true) :
    Agid.isValidAGIDFormat (cleanAgid P value) = true := by
  obtain ⟨agid, hagid, hformat⟩ := (Option.any_eq_true _ _).1 h
  rwa [cleanAgid_of_normalized hagid hformat]

theorem anchor_of_format (h : Agid.isValidAGIDFormat (cleanAgid P value) = true) :
    (getAOIDLinkedAGIDAnchor P value).length = AGID_HASH_LENGTH
      ∧ ∀ c ∈ getAOIDLinkedAGIDAnchor P value, c ∈ BASE32_ALPHABET := by
  simp only [Agid.isValidAGIDFormat, Bool.and_eq_true, List.all_eq_true, decide_eq_true_eq] at h
  constructor
  · simp only [getAOIDLinkedAGIDAnchor, List.length_take, List.length_drop, h.1.1]
    decide
  · exact fun c hc => h.2 c (List.mem_of_mem_take hc)

/-! ## Candidates -/

theorem candidate_length (random : Random) {anchor : JsString}
    (hanchor : anchor.length = AGID_HASH_LENGTH) (attempt : ℕ) :
    (candidate random anchor attempt).length = AOID_ID_MAX_LENGTH := by
  simp [candidate, hanchor, AGID_HASH_LENGTH, AOID_ID_MAX_LENGTH]

theorem candidate_mem (random : Random) {anchor : JsString} (attempt : ℕ)
    (hanchor : ∀ c ∈ anchor, c ∈ BASE32_ALPHABET) :
    ∀ c ∈ candidate random anchor attempt, c ∈ BASE32_ALPHABET := by
  intro c hc
  rcases List.mem_append.1 hc with hc | hc
  · exact hanchor c hc
  · obtain ⟨i, -, rfl⟩ := List.mem_map.1 hc
    have hlt : (random attempt i).val % BASE32_ALPHABET.length < BASE32_ALPHABET.length :=
      Nat.mod_lt _ (by decide)
    rw [List.getD_eq_getElem _ _ hlt]
    exact List.getElem_mem hlt

theorem anchor_ne_nil (h : Agid.isValidAGIDFormat (cleanAgid P value) = true) :
    getAOIDLinkedAGIDAnchor P value ≠ [] := by
  intro hnil
  have hlength := (anchor_of_format h).1
  simp [hnil, AGID_HASH_LENGTH] at hlength

/-- The check of an id that begins with the anchor leaves the two patterns to look at. -/
theorem normalizeAOIDId_eq_ok {linked : Option JsonValue} {other : JsString}
    (hid : ∀ c ∈ id, c ∈ BASE32_ALPHABET) (hlength : id.length = AOID_ID_MAX_LENGTH)
    (hlinked : JsonValue.truthy linked = true → isAOIDLinkedToAGID P id linked = true) :
    normalizeAOIDId P (some (.string id)) linked = .ok other
      ↔ hasAOIDAllSame16 id = false ∧ hasAOIDSequentialRun id = false ∧ id = other := by
  have hkept : (JsonValue.truthy linked && !isAOIDLinkedToAGID P id linked) = false := by
    rw [Bool.and_eq_false_imp, Bool.not_eq_false']
    exact hlinked
  rw [normalizeAOIDId_of_mem hid hlength, hkept]
  split_ifs with hsame hrun hfalse
  · simp [hsame]
  · simp [hrun]
  · exact hfalse.elim
  · simp [hsame, hrun]

section Generated

variable {random : Random}

/-- An id that is generated is a candidate that the check keeps. -/
theorem candidate_of_generated (h : Agid.isValidAGIDFormat (cleanAgid P value) = true)
    (hid : generateAOID P random value = .ok id) :
    ∃ attempt, normalizeAOIDId P (some (.string
      (candidate random (getAOIDLinkedAGIDAnchor P value) attempt))) value = .ok id := by
  simp only [generateAOID, if_neg (anchor_ne_nil h)] at hid
  split at hid
  · next found hfound =>
      cases hid
      obtain ⟨attempt, -, hattempt⟩ := List.exists_of_findSome?_eq_some hfound
      exact ⟨attempt, Checks.eq_ok_of_toOption hattempt⟩
  · cases hid

theorem generated_of_candidate (h : Agid.isValidAGIDFormat (cleanAgid P value) = true)
    (hid : normalizeAOIDId P (some (.string
      (candidate random (getAOIDLinkedAGIDAnchor P value) 0))) value = .ok id) :
    generateAOID P random value = .ok id := by
  simp only [generateAOID, if_neg (anchor_ne_nil h)]
  rw [List.range_eq_range', List.range'_succ, List.findSome?_cons, hid]
  rfl

theorem candidate_linked (h : Agid.isValidAGIDFormat (cleanAgid P value) = true) (attempt : ℕ) :
    isAOIDLinkedToAGID P (candidate random (getAOIDLinkedAGIDAnchor P value) attempt) value
      = true :=
  linked_of_prefix rfl (anchor_ne_nil h) (List.prefix_append _ _)

theorem generated_eq_candidate (h : Agid.isValidAGIDFormat (cleanAgid P value) = true)
    (hid : generateAOID P random value = .ok id) :
    ∃ attempt, id = candidate random (getAOIDLinkedAGIDAnchor P value) attempt
      ∧ hasAOIDAllSame16 id = false ∧ hasAOIDSequentialRun id = false := by
  obtain ⟨hlength, hunits⟩ := anchor_of_format h
  obtain ⟨attempt, hattempt⟩ := candidate_of_generated h hid
  obtain ⟨hsame, hrun, rfl⟩ := (normalizeAOIDId_eq_ok (candidate_mem random attempt hunits)
    (candidate_length random hlength attempt) fun _ => candidate_linked h attempt).1 hattempt
  exact ⟨attempt, rfl, hsame, hrun⟩

/-- A run in the anchor is one in every candidate. -/
theorem not_generated_of_run (h : Agid.isValidAGIDFormat (cleanAgid P value) = true)
    (hrun : hasAOIDSequentialRun (getAOIDLinkedAGIDAnchor P value) = true) :
    generateAOID P random value ≠ .ok id := by
  intro hid
  obtain ⟨attempt, rfl, -, hno⟩ := generated_eq_candidate h hid
  rw [hasAOIDSequentialRun, candidate, List.map_append] at hno
  exact Bool.false_ne_true (hno.symm.trans (sequentialRun_append _ hrun))

end Generated

/-! ## A suffix for every anchor -/

/-- The anchor's last character once more, and another one after it. -/
def doubling (last other : Fin (2 ^ 32)) : Random := fun _ i => if i = 0 then last else other

theorem candidate_doubling {anchor : JsString} (hanchor : anchor.length = AGID_HASH_LENGTH)
    (last other : Fin (2 ^ 32)) : candidate (doubling last other) anchor 0 = anchor
      ++ [BASE32_ALPHABET.getD (last.val % 32) 0, BASE32_ALPHABET.getD (other.val % 32) 0,
        BASE32_ALPHABET.getD (other.val % 32) 0, BASE32_ALPHABET.getD (other.val % 32) 0,
        BASE32_ALPHABET.getD (other.val % 32) 0, BASE32_ALPHABET.getD (other.val % 32) 0] := by
  rw [candidate, hanchor]
  rfl

theorem exists_index {c : CodeUnit} (hc : c ∈ BASE32_ALPHABET) :
    ∃ n : Fin (2 ^ 32), BASE32_ALPHABET.getD (n.val % 32) 0 = c := by
  obtain ⟨i, hi, rfl⟩ := List.getElem_of_mem hc
  have hlt : i < 32 := hi
  refine ⟨⟨i, by omega⟩, ?_⟩
  rw [Nat.mod_eq_of_lt hlt, List.getD_eq_getElem _ _ hi]

theorem exists_other (c : CodeUnit) : ∃ d ∈ BASE32_ALPHABET, c ≠ d := by
  by_cases hc : c = 48
  · exact ⟨49, by decide, by rw [hc]; decide⟩
  · exact ⟨48, by decide, hc⟩

theorem exists_generated (h : Agid.isValidAGIDFormat (cleanAgid P value) = true)
    (hrun : hasAOIDSequentialRun (getAOIDLinkedAGIDAnchor P value) = false) :
    ∃ random id, generateAOID P random value = .ok id := by
  obtain ⟨hlength, hunits⟩ := anchor_of_format h
  obtain ⟨front, last, hanchor⟩ : ∃ front last, getAOIDLinkedAGIDAnchor P value = front ++ [last] :=
    ⟨_, _, (List.dropLast_append_getLast (anchor_ne_nil h)).symm⟩
  have hlast : last ∈ BASE32_ALPHABET := hunits last (by simp [hanchor])
  obtain ⟨other, hother, hne⟩ := exists_other last
  obtain ⟨n, hn⟩ := exists_index hlast
  obtain ⟨m, hm⟩ := exists_index hother
  have hcandidate := candidate_doubling hlength n m
  rw [hn, hm] at hcandidate
  refine ⟨doubling n m, _, generated_of_candidate h ((normalizeAOIDId_eq_ok
    (candidate_mem _ 0 hunits) (candidate_length _ hlength 0)
    fun _ => candidate_linked h 0).2 ⟨?_, ?_, rfl⟩)⟩
  · exact not_allSame_of_ne (candidate_mem _ 0 hunits) (by simp [hcandidate]) (by simp [hcandidate])
      hne
  · rw [hasAOIDSequentialRun, hanchor, List.map_append] at hrun
    rw [hasAOIDSequentialRun, hcandidate, hanchor]
    simpa using sequentialRun_doubled (indexOf last) (indexOf other) hrun

/-! ## Records of an id -/

/-- No field has members of its own, and each has a text. -/
def Plain (record : Members) : Prop :=
  ∀ entry ∈ record, asObject (some entry.2) = [] ∧ (JsonValue.text (some entry.2)).isSome

section Plain

variable {record : Members}

theorem mem_of_member {name : JsString} {v : JsonValue} {members : Members}
    (h : JsonValue.member name members = some v) : (name, v) ∈ members := by
  induction members with
  | nil => cases h
  | cons entry members ih =>
    obtain ⟨key, w⟩ := entry
    rw [JsonValue.member] at h
    split_ifs at h with hkey
    · cases h
      exact hkey ▸ List.mem_cons_self
    · exact List.mem_cons_of_mem _ (ih h)

theorem asObject_field (h : Plain record) (name : String) : asObject (field record name) = [] := by
  cases hfield : field record name with
  | none => rfl
  | some v => exact (h _ (mem_of_member hfield)).1

theorem exists_cleanAnyText (h : Plain record) (name : String) (maxLength : ℕ) :
    ∃ s, cleanAnyText P (field record name) maxLength = .ok s := by
  have htext : ∃ s, JsonValue.text (nullish (field record name) (some (.string []))) = some s := by
    cases hfield : field record name with
    | none => exact ⟨[], rfl⟩
    | some v =>
      obtain ⟨s, hs⟩ := Option.isSome_iff_exists.1 (h _ (mem_of_member hfield)).2
      cases v with
      | null => exact ⟨[], rfl⟩
      | _ => exact ⟨s, hs⟩
  obtain ⟨s, hs⟩ := htext
  simp only [cleanAnyText, hs]
  exact ⟨_, rfl⟩

theorem exists_cleanAccessKind (h : Plain record) (name : String) :
    ∃ kind, cleanAccessKind P (field record name) = .ok kind := by
  obtain ⟨s, hs⟩ := exists_cleanAnyText (P := P) h name 160
  rw [cleanAccessKind, hs]
  exact ⟨_, rfl⟩

theorem exists_firstAccessKind (h : Plain record) (names : List String) :
    ∃ kind, firstAccessKind P record names = .ok kind := by
  induction names with
  | nil => exact ⟨none, rfl⟩
  | cons name names ih =>
    obtain ⟨kind, hkind⟩ := exists_cleanAccessKind (P := P) h name
    rw [firstAccessKind, hkind]
    cases kind with
    | none => exact ih
    | some kind => exact ⟨some kind, rfl⟩

theorem exists_recordSearchText (h : Plain record) : ∃ s, recordSearchText P record = .ok s := by
  have hall : ∀ names : List String,
      ∃ texts, names.mapM (fun name => cleanAnyText P (field record name) 160) = .ok texts := by
    intro names
    induction names with
    | nil => exact ⟨[], rfl⟩
    | cons name names ih =>
      obtain ⟨text, htext⟩ := exists_cleanAnyText (P := P) h name 160
      obtain ⟨texts, htexts⟩ := ih
      rw [List.mapM_cons, htext]
      exact ⟨text :: texts, by simp only [Bind.bind, Except.bind, htexts]; rfl⟩
  obtain ⟨texts, htexts⟩ := hall SEARCH_FIELDS
  rw [recordSearchText, htexts]
  exact ⟨_, rfl⟩

theorem exists_inferDeliveryAccessKind (h : Plain record) :
    ∃ kind, inferDeliveryAccessKind P record = .ok kind := by
  obtain ⟨explicit, hexplicit⟩ := exists_firstAccessKind (P := P) h
    ["deliveryAccessKind", "accessKind", "deliveryAccessType"]
  obtain ⟨s, hs⟩ := exists_recordSearchText (P := P) h
  have hempty : Plain [] := by simp [Plain]
  obtain ⟨nested, hnested⟩ := exists_cleanAccessKind (P := P) hempty "kind"
  rw [inferDeliveryAccessKind, explicitKind, hexplicit, asObject_field h]
  simp only [Bind.bind, Except.bind, hs, hnested]
  split
  · exact ⟨_, rfl⟩
  · split
    · exact ⟨_, rfl⟩
    · split <;> exact ⟨_, rfl⟩

theorem exists_deliveryAccess (h : Plain record) :
    ∃ access, normalizeAOIDDeliveryAccessProfile P record = .ok access := by
  obtain ⟨kind, hkind⟩ := exists_inferDeliveryAccessKind (P := P) h
  obtain ⟨s, hs⟩ := exists_cleanAnyText (P := P) h "deliveryInstructionCommitment" 120
  rw [normalizeAOIDDeliveryAccessProfile, hkind, asObject_field h]
  have hnone : nullish (field [] "instructionCommitment")
      (field record "deliveryInstructionCommitment")
        = field record "deliveryInstructionCommitment" := rfl
  simp only [Bind.bind, Except.bind, hnone, hs]
  exact ⟨_, rfl⟩

theorem exists_privateBody {agid : JsString} (h : Plain record)
    (hagid : Agid.isValidAGIDFormat agid = true) :
    ∃ body, buildAOIDPrivateBody P (withAgid record agid) = .ok body ∧ body.agid = agid := by
  have hne : js "agid" ≠ js "privateBody" := by decide
  have hexisting : asObject (field (withAgid record agid) "privateBody") = [] := by
    rw [field, withAgid, JsonValue.member, if_neg hne]
    exact asObject_field h "privateBody"
  have hown : nullish (field [] "agid") (field (withAgid record agid) "agid")
      = some (.string agid) := by
    rw [field, withAgid, field, JsonValue.member, JsonValue.member, if_pos rfl]
    rfl
  simp only [buildAOIDPrivateBody, hexisting, hown, normalizeAGIDInput_of_format hagid,
    isValidAGIDFormat_of_format hagid, Bool.not_true, Bool.false_eq_true, if_false]
  exact ⟨_, rfl, rfl⟩

theorem cleanAgid_of_format {agid : JsString} (h : Agid.isValidAGIDFormat agid = true) :
    cleanAgid P (some (.string agid)) = agid :=
  cleanAgid_of_normalized (normalizeAGIDInput_of_format h) h

/-- A record of the id and the AGID is accepted where the check keeps the id for both. -/
theorem exists_record {now : JsonNumber} {required : Bool} (h : Plain record)
    (hagid : Agid.isValidAGIDFormat (cleanAgid P value) = true)
    (hvalue : field record "agid" = value) (hfield : field record "id" = some (.string id))
    (hlinked : normalizeAOIDId P (some (.string id)) (some (.string (cleanAgid P value))) = .ok id)
    (halone : normalizeAOIDId P (some (.string id)) none = .ok id) :
    ∃ normalized, normalizeAOIDRecord P now record required = .ok normalized
      ∧ normalized.id = id ∧ normalized.agid = some (cleanAgid P value) := by
  obtain ⟨access, haccess⟩ := exists_deliveryAccess (P := P) h
  obtain ⟨body, hbody, -⟩ := exists_privateBody (P := P) h hagid
  have hne : cleanAgid P value ≠ [] := by
    intro hnil
    simp [hnil, Agid.isValidAGIDFormat, AGID_PREFIX_LENGTH, AGID_HASH_LENGTH] at hagid
  have hsome : textValue (nonEmpty (cleanAgid P value)) = some (.string (cleanAgid P value)) := by
    rw [nonEmpty, if_neg hne]
    rfl
  simp only [normalizeAOIDRecord, hvalue, hfield, hsome, hlinked, halone, haccess, hbody, hne,
    thrown, require, decide_false, Bool.and_false, Bool.not_false, if_true, if_false, Except.map,
    Bind.bind, Except.bind]
  exact ⟨_, rfl, rfl, by rw [nonEmpty, if_neg hne]⟩

end Plain

/-! ## Every location can be owned -/

/-- What an id for an AGID is good for. -/
structure OwnedId (P : Platform) (value : Option JsonValue) (id : JsString) : Prop where
  kept : normalizeAOIDId P (some (.string id)) value = .ok id
  linked : isAOIDLinkedToAGID P id value = true
  recorded : ∀ now required record, Plain record → field record "agid" = value →
    field record "id" = some (.string id) →
      ∃ normalized, normalizeAOIDRecord P now record required = .ok normalized
        ∧ normalized.id = id ∧ normalized.agid = some (cleanAgid P value)
  carried : ∃ record, Plain record ∧ field record "agid" = value
    ∧ field record "id" = some (.string id)

/-- Some random values give an id, and each one that is given can be used. -/
structure Ownable (P : Platform) (value : Option JsonValue) : Prop where
  generated : ∃ random id, generateAOID P random value = .ok id
  owned : ∀ random id, generateAOID P random value = .ok id → OwnedId P value id

theorem ownedId_of_generated {random : Random} (hvalid : isValidAGIDFormat P value = true)
    (hid : generateAOID P random value = .ok id) : OwnedId P value id := by
  have h := exists_cleanAgid hvalid
  obtain ⟨hlength, hunits⟩ := anchor_of_format h
  obtain ⟨attempt, rfl, hsame, hrun⟩ := generated_eq_candidate h hid
  have hlinked : isAOIDLinkedToAGID P (candidate random (getAOIDLinkedAGIDAnchor P value) attempt)
      value = true := candidate_linked h attempt
  generalize hcandidate : candidate random (getAOIDLinkedAGIDAnchor P value) attempt = id at *
  have hprefix : getAOIDLinkedAGIDAnchor P value <+: id := ⟨_, hcandidate⟩
  have hkept : ∀ linked, (JsonValue.truthy linked = true → isAOIDLinkedToAGID P id linked = true) →
      normalizeAOIDId P (some (.string id)) linked = .ok id := fun linked hlinked => by
    subst hcandidate
    exact (normalizeAOIDId_eq_ok (candidate_mem random attempt hunits)
      (candidate_length random hlength attempt) hlinked).2 ⟨hsame, hrun, rfl⟩
  have hagain : getAOIDLinkedAGIDAnchor P (some (.string (cleanAgid P value)))
      = getAOIDLinkedAGIDAnchor P value := by
    rw [getAOIDLinkedAGIDAnchor, cleanAgid_of_format h]
    rfl
  refine ⟨hkept value fun _ => hlinked, hlinked, fun now required record hplain hagid hfield =>
    exists_record hplain h hagid hfield
      (hkept _ fun _ => linked_of_prefix hagain (anchor_ne_nil h) hprefix)
      (hkept none fun hnone => Bool.noConfusion hnone), ?_⟩
  cases value with
  | none => cases hvalid
  | some v =>
    cases v with
    | string s =>
      refine ⟨[(js "agid", .string s), (js "id", .string id)], ?_, rfl, rfl⟩
      simp only [Plain, List.forall_mem_cons]
      exact ⟨⟨rfl, rfl⟩, ⟨rfl, rfl⟩, by simp⟩
    | _ => cases hvalid

/-- An AGID can be owned where its anchor has no four characters that follow each other. -/
theorem ownable_iff (h : isValidAGIDFormat P value = true) :
    Ownable P value ↔ hasAOIDSequentialRun (getAOIDLinkedAGIDAnchor P value) = false := by
  constructor
  · rintro ⟨⟨random, id, hid⟩, -⟩
    exact Bool.eq_false_of_not_eq_true fun hrun =>
      not_generated_of_run (exists_cleanAgid h) hrun hid
  · exact fun hrun => ⟨exists_generated (exists_cleanAgid h) hrun,
      fun _ _ => ownedId_of_generated h⟩

end Owned

theorem id_id (s : JsString) : id (id s) = id s := rfl

theorem id_infix (s t : JsString) (_ : id s = s) (_ : t <:+: s) : id t = t := rfl

theorem mapped_ascii (f : CodeUnit → CodeUnit) (s : JsString) (_ : ∀ c ∈ s, c.val < 128) :
    s.map f = s.map f := rfl

def asciiPlatform : Platform where
  nfkc := ⟨id, id_ascii⟩
  normalize_normalize := id_id
  normalize_infix := id_infix
  toUpperCase := List.map upperAscii
  toUpperCase_ascii := mapped_ascii upperAscii
  toLowerCase := List.map lowerAscii
  toLowerCase_ascii := mapped_ascii lowerAscii

/-- Every character of the anchor is `0`. -/
theorem ownable_iff_zeros :
    isValidAGIDFormat asciiPlatform (some (.string (js "AA0000000000"))) = true
      ∧ Ownable asciiPlatform (some (.string (js "AA0000000000"))) :=
  ⟨by decide, (ownable_iff (by decide)).2 (by decide)⟩

/-- The characters `0123` are in the anchor. -/
theorem not_ownable :
    ¬ ∀ P value, isValidAGIDFormat P value = true → Ownable P value := by
  intro h
  have hvalid : isValidAGIDFormat asciiPlatform (some (.string (js "AA0123000000"))) = true := by
    decide
  obtain ⟨random, id, hid⟩ := (h _ _ hvalid).generated
  exact not_generated_of_run (exists_cleanAgid hvalid) (by decide) hid

end Agid.Aoid
