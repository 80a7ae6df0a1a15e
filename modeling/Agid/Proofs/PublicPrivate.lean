import Agid.Proofs.JsonValues
import Agid.Proofs.SecurePos
import Agid.PublicPrivate

/-!
# What a separation shows

The public part of a separation is its heading, the tree of the leaves that are public by their own
key and value, the names of the others beside their commitments, and the flags.  So it is decided by
these leaves and names.  A key above a leaf decides nothing: the leaves of an array or an object
under a private key are shown.
-/

namespace Agid.PublicPrivate

open JsonText (Value)
open JsonTree (leaves memberLeaves memberOf select setAll prune Selection)

variable {P : Platform} {settings : Settings} {payload payload' : JsonValue}

/-! ## Leaves -/

/-- The leaf at a path below some key. -/
def leafAt (path : List JsString) (key : JsString) (l : List JsString × JsonValue) : Leaf :=
  ⟨path ++ l.1, l.1.getLast?.getD key, l.2⟩

theorem leafAt_cons (path : List JsString) (key k : JsString) (l : List JsString × JsonValue) :
    leafAt path key (k :: l.1, l.2) = leafAt (path ++ [k]) k l := by
  simp [leafAt, List.getLast?_cons]

mutual

theorem visit_eq : ∀ (path : List JsString) (key : JsString) (v : JsonValue),
    visit path key v = (leaves indexKey v).map (leafAt path key)
  | path, key, .array items => by rw [visit, leaves, visitItems_eq path key 0 items]
  | path, key, .object members => by rw [visit, leaves, visitMembers_eq path key members]
  | path, key, .null | path, key, .bool _ | path, key, .number _ | path, key, .string _ => by
    simp [visit, leaves, leafAt]

theorem visitItems_eq : ∀ (path : List JsString) (key : JsString) (i : ℕ) (items : List JsonValue),
    visitItems path i items = (JsonTree.itemLeaves indexKey i items).map (leafAt path key)
  | path, key, i, [] => rfl
  | path, key, i, item :: items => by
    rw [visitItems, JsonTree.itemLeaves, visit_eq, visitItems_eq path key, List.map_append,
      List.map_map]
    exact congrArg (· ++ _) (List.map_congr_left fun l _ => (leafAt_cons path key _ l).symm)

theorem visitMembers_eq : ∀ (path : List JsString) (key : JsString) (members : Members),
    visitMembers path members = (memberLeaves indexKey members).map (leafAt path key)
  | path, key, [] => rfl
  | path, key, (k, v) :: members => by
    rw [visitMembers, memberLeaves, visit_eq, visitMembers_eq path key, List.map_append,
      List.map_map]
    exact congrArg (· ++ _) (List.map_congr_left fun l _ => (leafAt_cons path key _ l).symm)

end

/-- The payload below its first name. -/
def named (payload : JsonValue) : JsonValue := .object [(js "payload", payload)]

/-- A leaf of the payload, from its whole path. -/
def leafOf (l : List JsString × JsonValue) : Leaf := leafAt [] (js "payload") l

theorem visit_payload (payload : JsonValue) :
    visit [js "payload"] (js "payload") payload = (leaves indexKey (named payload)).map leafOf := by
  rw [visit_eq, named, leaves, memberLeaves, memberLeaves, List.append_nil, List.map_map]
  exact List.map_congr_left fun l _ => (leafAt_cons [] (js "payload") _ l).symm

/-! ## The tree of the public leaves -/

/-- What is shown of a leaf. -/
def shown (P : Platform) (settings : Settings) : Selection JsonNumber := fun path v =>
  if isPublicLeaf P settings (leafOf (path, v)) then some (cloneJson v) else none

theorem shown_leafy : (shown P settings).Leafy := by
  intro path v w hv hw
  unfold shown at hw
  split_ifs at hw
  cases hw
  cases v with
  | number n => cases n <;> rfl
  | array => cases hv
  | object => cases hv
  | _ => rfl

theorem publicLeaves_map : (publicLeaves P settings payload).map
      (fun leaf => (leaf.path, cloneJson leaf.value))
    = select (shown P settings) (leaves indexKey (named payload)) := by
  rw [publicLeaves, visit_payload, List.filter_map, List.map_map, select, ← List.filterMap_eq_map,
    List.filterMap_filter]
  refine List.filterMap_congr fun l _ => ?_
  simp only [shown, Function.comp, Option.map_if]
  rfl

theorem indexKey_injective : indexKey.Injective := fun i j h => by
  have hint : (i : ℤ) = j := js_toString_inj h
  omega

theorem withData_publicLeaves (hp : JsonTree.Proper payload) {members : Members}
    (hdata : js "data" ∉ members.map Prod.fst) :
    withData members (publicLeaves P settings payload)
      = members ++ memberOf (js "data") (prune indexKey (shown P settings) (named payload)) := by
  have hproper : JsonTree.Proper (named payload) := by
    simpa [named, JsonTree.Proper, JsonTree.ProperMembers] using hp
  rw [← JsonTree.setAll_select indexKey_injective shown_leafy hproper hdata, ← publicLeaves_map,
    List.map_map, withData, setAll, List.foldl_map]
  rfl

/-! ## Texts that are no coordinates -/

theorem head_of_afterDecimal {digits : ℕ} {s rest : JsString}
    (h : afterDecimal digits s = some rest) :
    ∃ c t, s = c :: t ∧ isDigit c = true := by
  unfold afterDecimal at h
  simp only at h
  split at h
  · split_ifs at h with hwhole
    cases s with
    | nil => simp at hwhole
    | cons c t =>
      refine ⟨c, t, rfl, ?_⟩
      by_contra hc
      simp [hc] at hwhole
  · cases h

theorem afterDecimal_suffix {digits : ℕ} {s rest : JsString}
    (h : afterDecimal digits s = some rest) : rest <:+ s := by
  unfold afterDecimal at h
  simp only at h
  split at h
  · rename_i fraction hfraction
    split_ifs at h
    cases h
    have hdrop : 46 :: fraction <:+ s := hfraction ▸ List.drop_suffix ..
    exact (List.dropWhile_suffix _).trans ((List.suffix_cons _ _).trans hdrop)
  · cases h

theorem withoutSign_suffix (s : JsString) : withoutSign s <:+ s := by
  unfold withoutSign
  split
  · exact List.suffix_cons ..
  · exact List.suffix_rfl

theorem trim_sublist (s : JsString) : (trim s).Sublist s :=
  (List.rdropWhile_prefix _ _).sublist.trans (List.dropWhile_sublist _)

theorem comma_of_looksLike {s : JsString} (h : looksLikeCoordinatePair s = true) : 44 ∈ s := by
  unfold looksLikeCoordinatePair at h
  split at h
  · cases h
  · rename_i rest hrest
    split at h
    · rename_i rest' hcomma
      have hmem : 44 ∈ rest.dropWhile isWhiteSpace := hcomma ▸ List.mem_cons_self
      refine (trim_sublist s).subset ((withoutSign_suffix _).subset ?_)
      exact (afterDecimal_suffix hrest).subset ((List.dropWhile_suffix _).subset hmem)
    · cases h

theorem head_of_looksLike {s : JsString} (h : looksLikeCoordinatePair s = true) :
    ∃ c t, trim s = c :: t ∧ (c = 45 ∨ isDigit c = true) := by
  unfold looksLikeCoordinatePair at h
  split at h
  · cases h
  · rename_i rest hrest
    obtain ⟨c, t, hs, hc⟩ := head_of_afterDecimal hrest
    rcases htrim : trim s with _ | ⟨d, u⟩
    · rw [htrim] at hs
      cases hs
    · rw [htrim] at hs
      refine ⟨d, u, rfl, ?_⟩
      unfold withoutSign at hs
      split at hs
      · rename_i hd
        exact Or.inl (List.cons.inj hd).1
      · cases hs
        exact Or.inr hc

theorem looksLike_nil : looksLikeCoordinatePair [] = false := by decide

theorem trim_cons {c : CodeUnit} (hc : isWhiteSpace c = false) (s : JsString) :
    ∃ t, trim (c :: s) = c :: t := by
  have hne : trim (c :: s) ≠ [] := by
    rw [trim, List.dropWhile_cons_of_neg (by simp [hc]), Ne, List.rdropWhile_eq_nil_iff]
    exact fun hall => by simp [hc] at hall
  have hprefix : trim (c :: s) <+: c :: s := by
    rw [trim, List.dropWhile_cons_of_neg (by simp [hc])]
    exact List.rdropWhile_prefix _ _
  obtain ⟨d, t, ht⟩ := List.exists_cons_of_ne_nil hne
  rw [ht] at hprefix ⊢
  exact ⟨t, by rw [(List.cons_prefix_cons.1 hprefix).1]⟩

theorem letter_facts {c : CodeUnit} (hc : isAsciiLetter c = true) :
    isWhiteSpace c = false ∧ c ≠ 45 ∧ isDigit c = false := by
  simp only [isAsciiLetter, Bool.or_eq_true, Bool.and_eq_true, decide_eq_true_eq] at hc
  have hval : (45 : CodeUnit).val = 45 := rfl
  refine ⟨?_, fun h => ?_, ?_⟩
  · simp [isWhiteSpace]
    omega
  · rw [h, hval] at hc
    omega
  · simp [isDigit]
    omega

/-- A text of which the first two units are letters. -/
theorem not_looksLike_letters {c d : CodeUnit} (hc : isAsciiLetter c = true)
    (hd : isAsciiLetter d = true) (s : JsString) :
    looksLikeCoordinatePair (clean P (.string (c :: d :: s))) = false := by
  by_contra h
  obtain ⟨e, t, htrim, he⟩ := head_of_looksLike (Bool.eq_true_of_not_eq_false h)
  have hhead := P.nfkc_head c d s hc hd
  obtain ⟨hspace, hsign, hdigit⟩ := letter_facts hc
  rw [clean, trim_trim] at htrim
  rcases hnormal : P.nfkc.normalize (c :: d :: s) with _ | ⟨c', rest⟩
  · rw [hnormal] at hhead
    cases hhead
  · rw [hnormal] at hhead htrim
    cases hhead
    obtain ⟨t', ht'⟩ := trim_cons hspace rest
    rw [ht'] at htrim
    cases htrim
    rcases he with he | he
    · exact hsign he
    · rw [hdigit] at he
      cases he

/-! ## The domain -/

theorem mem_replaceRuns {p : CodeUnit → Bool} {u c : CodeUnit} : ∀ {inRun : Bool} {s : JsString},
    c ∈ replaceRuns p u inRun s → c = u ∨ p c = false
  | _, [], h => by simp [replaceRuns] at h
  | inRun, d :: s, h => by
    rw [replaceRuns] at h
    split_ifs at h with hd hrun
    · exact mem_replaceRuns h
    · rcases List.mem_cons.1 h with rfl | h
      · exact Or.inl rfl
      · exact mem_replaceRuns h
    · rcases List.mem_cons.1 h with rfl | h
      · exact Or.inr (by simpa using hd)
      · exact mem_replaceRuns h

theorem not_looksLike_domain :
    looksLikeCoordinatePair (clean P (.string (domainOf P settings))) = false := by
  have hunit : ∀ c ∈ domainOf P settings, c = 45 ∨ isDomainUnit c = true := fun c hc => by
    rcases mem_replaceRuns hc with h | h
    · exact Or.inl h
    · exact Or.inr (by simpa using h)
  have hfacts : ∀ c : CodeUnit, c = 45 ∨ isDomainUnit c = true → c.val < 128 ∧ c ≠ 44 := by
    intro c hc
    rcases hc with rfl | hc
    · decide
    · simp only [isDomainUnit, isLowerLetter, isDigit, Bool.or_eq_true, Bool.and_eq_true,
        decide_eq_true_eq, List.contains_eq_mem, List.mem_cons, List.not_mem_nil, or_false] at hc
      rcases hc with (hc | hc) | rfl | rfl | rfl | rfl
      · exact ⟨by omega, fun h => by rw [h] at hc; exact absurd hc.1 (by decide)⟩
      · exact ⟨by omega, fun h => by rw [h] at hc; exact absurd hc.1 (by decide)⟩
      all_goals decide
  by_contra h
  have hcomma := comma_of_looksLike (Bool.eq_true_of_not_eq_false h)
  rw [clean, P.nfkc.ascii _ fun c hc => (hfacts c (hunit c hc)).1] at hcomma
  exact (hfacts 44 (hunit 44 ((trim_sublist _).subset hcomma))).2 rfl

/-! ## The public part -/

def rawAgidOf (P : Platform) (settings : Settings) (payload : JsonValue) : Bool :=
  (publicLeaves P settings payload).any (isAgidKey P ·.key)

theorem rawAgidPublic_eq (P : Platform) (settings : Settings) (payload : JsonValue) :
    (separatePublicPrivatePayload P settings payload).rawAgidPublic
      = rawAgidOf P settings payload := by
  simp only [separatePublicPrivatePayload, rawAgidOf, publicLeaves, List.any_map, List.any_filter]
  rfl

theorem publicPayload_eq (hp : JsonTree.Proper payload) :
    (separatePublicPrivatePayload P settings payload).publicPayload
      = heading settings (domainOf P settings)
        ++ memberOf (js "data") (prune indexKey (shown P settings) (named payload))
        ++ commitmentsMember (commitmentsOf P settings payload)
        ++ [(js "privacy", privacyOf (rawAgidOf P settings payload))] := by
  have hdata : js "data" ∉ (heading settings (domainOf P settings)).map Prod.fst := by
    simp only [heading, List.map_cons, List.map_nil]
    decide
  rw [← rawAgidPublic_eq, ← withData_publicLeaves hp hdata]
  rfl

/-- The names of the private leaves, where they are committed. -/
def names (P : Platform) (settings : Settings) (payload : JsonValue) :
    List (JsString × JsString) :=
  (commitmentsOf P settings payload).map fun commitment => (commitment.path, commitment.key)

theorem names_eq (P : Platform) (settings : Settings) (payload : JsonValue) :
    names P settings payload = if settings.salt.bind nonEmpty = none then []
      else (privateLeaves P settings payload).map fun leaf => (leaf.fieldPath, leaf.key) := by
  unfold names commitmentsOf
  rcases settings.salt.bind nonEmpty with _ | salt
  · rfl
  · simp [Leaf.commit]

/-- A commitment by its name alone. -/
def hiddenJson (domain : JsString) (name : JsString × JsString) : JsonValue :=
  .object [(js "path", .string name.1), (js "key", .string name.2),
    (js "algorithm", .string PUBLIC_PRIVATE_COMMITMENT_ALGORITHM), (js "domain", .string domain),
    (js "commitment", .null)]

theorem hiddenJson_injective (domain : JsString) : (hiddenJson domain).Injective := by
  intro name name' h
  simp only [hiddenJson, Value.object.injEq, List.cons.injEq, Prod.mk.injEq, Value.string.injEq,
    true_and, and_true] at h
  exact Prod.ext h.1 h.2

theorem hideCommitment_json (commitment : Commitment) :
    hideCommitment commitment.json
      = hiddenJson commitment.domain (commitment.path, commitment.key) := by
  have hkeys : js "path" ≠ js "commitment" ∧ js "key" ≠ js "commitment"
      ∧ js "algorithm" ≠ js "commitment" ∧ js "domain" ≠ js "commitment" := by decide
  simp [hideCommitment, Commitment.json, hiddenJson, hkeys]

/-- The member that the names leave of the commitments. -/
def namesMember (domain : JsString) (names : List (JsString × JsString)) : Members :=
  if names = [] then []
  else [(js "privateCommitments", .array (names.map (hiddenJson domain)))]

theorem namesMember_inj {domain : JsString} {l l' : List (JsString × JsString)}
    (h : namesMember domain l = namesMember domain l') : l = l' := by
  unfold namesMember at h
  split_ifs at h with hl hl' hl'
  · rw [hl, hl']
  · simp only [List.cons.injEq, Prod.mk.injEq, Value.array.injEq, true_and, and_true] at h
    exact List.map_injective_iff.2 (hiddenJson_injective domain) h

theorem commitment_domain {commitment : Commitment}
    (h : commitment ∈ commitmentsOf P settings payload) :
    commitment.domain = domainOf P settings := by
  unfold commitmentsOf at h
  split at h
  · obtain ⟨leaf, -, rfl⟩ := List.mem_map.1 h
    rfl
  · cases h

theorem hide_commitmentsMember :
    hideCommitments (commitmentsMember (commitmentsOf P settings payload))
      = namesMember (domainOf P settings) (names P settings payload) := by
  have hmap : (commitmentsOf P settings payload).map (fun c => hideCommitment c.json)
      = (names P settings payload).map (hiddenJson (domainOf P settings)) := by
    rw [names, List.map_map]
    refine List.map_congr_left fun c hc => ?_
    rw [hideCommitment_json, commitment_domain hc]
    rfl
  unfold commitmentsMember namesMember
  rw [← hmap]
  simp only [names, List.map_eq_nil_iff]
  split_ifs
  · rfl
  · simp [hideCommitments]

theorem hideCommitments_of_ne {members : Members}
    (h : ∀ e ∈ members, e.1 ≠ js "privateCommitments") : hideCommitments members = members := by
  unfold hideCommitments
  refine (List.map_congr_left fun e he => ?_).trans (List.map_id _)
  simp [h e he]

theorem hidden_eq (hp : JsonTree.Proper payload) :
    hideCommitments (separatePublicPrivatePayload P settings payload).publicPayload
      = heading settings (domainOf P settings)
        ++ (memberOf (js "data") (prune indexKey (shown P settings) (named payload))
        ++ (namesMember (domainOf P settings) (names P settings payload)
        ++ [(js "privacy", privacyOf (rawAgidOf P settings payload))])) := by
  have hmap : ∀ l l' : Members,
      hideCommitments (l ++ l') = hideCommitments l ++ hideCommitments l' :=
    fun l l' => List.map_append
  rw [publicPayload_eq hp, hmap, hmap, hmap, hide_commitmentsMember, hideCommitments_of_ne,
    hideCommitments_of_ne, hideCommitments_of_ne]
  · simp only [List.append_assoc]
  · intro e he
    rw [List.mem_singleton.1 he]
    exact (by decide : js "privacy" ≠ js "privateCommitments")
  · intro e he
    have hkey := JsonTree.keys_memberOf (List.mem_map_of_mem he)
    rw [hkey]
    decide
  · intro e he
    simp only [heading, List.mem_cons, List.not_mem_nil, or_false] at he
    rcases he with rfl | rfl | rfl
    · exact (by decide : js "version" ≠ js "privateCommitments")
    · exact (by decide : js "mode" ≠ js "privateCommitments")
    · exact (by decide : js "domain" ≠ js "privateCommitments")

theorem lookup_data (t : Option JsonValue) (domain : JsString) (l : List (JsString × JsString))
    (flags : JsonValue) :
    Record.lookup (js "data") (memberOf (js "data") t ++ (namesMember domain l
      ++ [(js "privacy", flags)])) = t := by
  cases t with
  | some v => simp [memberOf, Record.lookup]
  | none =>
    refine Record.lookup_eq_none fun h => ?_
    simp only [memberOf, Option.map_none, Option.toList_none, List.nil_append, List.map_append,
      List.mem_append, List.map_cons, List.map_nil, List.mem_singleton] at h
    rcases h with h | h
    · unfold namesMember at h
      split_ifs at h
      · simp at h
      · rw [List.map_cons, List.map_nil, List.mem_singleton] at h
        exact absurd h (by decide : js "data" ≠ js "privateCommitments")
    · exact absurd h (by decide)

theorem key_of_mem_publicLeaves {leaf : Leaf} (h : leaf ∈ publicLeaves P settings payload) :
    leaf.key = leaf.path.getLast?.getD (js "payload") := by
  rw [publicLeaves, visit_payload] at h
  obtain ⟨l, -, rfl⟩ := List.mem_map.1 (List.mem_of_mem_filter h)
  rfl

theorem path_ne_nil {leaf : Leaf} (h : leaf ∈ publicLeaves P settings payload) :
    leaf.path ≠ [] := by
  rw [publicLeaves, visit_payload] at h
  obtain ⟨l, hl, rfl⟩ := List.mem_map.1 (List.mem_of_mem_filter h)
  exact JsonTree.memberLeaves_paths indexKey _ l hl

theorem rawAgidOf_eq (P : Platform) (settings : Settings) (payload : JsonValue) :
    rawAgidOf P settings payload
      = ((publicLeaves P settings payload).map fun leaf => (leaf.path, cloneJson leaf.value)).any
        fun l => isAgidKey P (l.1.getLast?.getD (js "payload")) := by
  rw [rawAgidOf, List.any_map, Bool.eq_iff_iff, List.any_eq_true, List.any_eq_true]
  refine exists_congr fun leaf => and_congr_right fun hleaf => ?_
  rw [key_of_mem_publicLeaves hleaf]
  rfl

theorem hidden_iff (hp : JsonTree.Proper payload) (hp' : JsonTree.Proper payload') :
    hideCommitments (separatePublicPrivatePayload P settings payload).publicPayload
        = hideCommitments (separatePublicPrivatePayload P settings payload').publicPayload
      ↔ SameLeaves P settings payload payload' := by
  have hnames : names P settings payload = names P settings payload'
      ↔ (settings.salt.bind nonEmpty ≠ none →
        (privateLeaves P settings payload).map (fun leaf => (leaf.fieldPath, leaf.key))
          = (privateLeaves P settings payload').map (fun leaf => (leaf.fieldPath, leaf.key))) := by
    rw [names_eq, names_eq]
    split_ifs with hsalt
    · simp [hsalt]
    · exact ⟨fun h _ => h, fun h => h hsalt⟩
  rw [hidden_eq hp, hidden_eq hp']
  constructor
  · intro h
    have hrest := List.append_cancel_left h
    have htree := congrArg (Record.lookup (js "data")) hrest
    rw [lookup_data, lookup_data] at htree
    rw [htree] at hrest
    obtain ⟨hmember, -⟩ := List.append_inj' (List.append_cancel_left hrest) rfl
    refine ⟨?_, hnames.1 (namesMember_inj hmember)⟩
    rw [publicLeaves_map, publicLeaves_map]
    exact JsonTree.prune_inj shown_leafy shown_leafy htree
  · rintro ⟨hleaves, hprivate⟩
    have hdata : ∀ {payload : JsonValue}, JsonTree.Proper payload →
        memberOf (js "data") (prune indexKey (shown P settings) (named payload))
          = withData [] (publicLeaves P settings payload) := fun hp => by
      rw [withData_publicLeaves hp (by simp), List.nil_append]
    have hwith : ∀ payload : JsonValue, withData [] (publicLeaves P settings payload)
        = setAll [] (((publicLeaves P settings payload).map
          fun leaf => (leaf.path, cloneJson leaf.value)).map fun l => (js "data" :: l.1, l.2)) :=
      fun payload => by
        rw [List.map_map, withData, setAll, List.foldl_map]
        rfl
    rw [hdata hp, hdata hp', hwith, hwith, hleaves, hnames.2 hprivate, rawAgidOf_eq, rawAgidOf_eq,
      hleaves]

/-! ## The validation -/

/-- What the validation asks of a leaf. -/
structure Fine (P : Platform) (key : JsString) (v : JsonValue) : Prop where
  key : PRIVATE_KEY_SET.contains (normalizeKey P key) = false ∧ isAoidKey P key = false
  value : looksLikeCoordinatePair (clean P v) = false

theorem findings_eq_nil {leaf : Leaf} : leaf.findings P = [] ↔ Fine P leaf.key leaf.value := by
  unfold Leaf.findings
  rw [List.append_eq_nil_iff]
  constructor
  · rintro ⟨hkey, hvalue⟩
    constructor
    · simpa using hkey
    · rcases hclean : clean P leaf.value with _ | ⟨c, s⟩
      · exact looksLike_nil
      · simpa [hclean] using hvalue
  · rintro ⟨⟨hprivate, haoid⟩, hvalue⟩
    simp only [hprivate, haoid, hvalue, Bool.or_false, Bool.and_false]
    exact ⟨rfl, rfl⟩

/-- All leaves of the members are fine. -/
def FineMembers (P : Platform) (members : Members) : Prop :=
  ∀ l ∈ memberLeaves indexKey members, Fine P (l.1.getLast?.getD []) l.2

theorem valid_iff {members : Members} :
    (validatePublicPayloadSeparation P (.object members)).valid = true
      ↔ FineMembers P members := by
  simp only [validatePublicPayloadSeparation, decide_eq_true_eq, List.flatMap_eq_nil_iff,
    findings_eq_nil]
  rw [visit_eq, leaves, List.forall_mem_map]
  rfl

theorem fineMembers_append {l l' : Members} :
    FineMembers P (l ++ l') ↔ FineMembers P l ∧ FineMembers P l' := by
  unfold FineMembers
  rw [JsonTree.memberLeaves_append, List.forall_mem_append]

/-- The keys that the separation itself writes to leaves. -/
def fixedKeys : List JsString :=
  ["version", "mode", "domain", "path", "key", "algorithm", "commitment", "rawAddressStored",
    "rawAgidStored", "rawAoidStored", "rawCoordinatesStored", "recipientIdentityStored"].map js

theorem fixedKeys_fine : ∀ key ∈ fixedKeys,
    PRIVATE_KEY_SET.contains (normalizeKey P key) = false ∧ isAoidKey P key = false := by
  have hascii : fixedKeys.all (fun key => key.all fun c => c.val < 128) = true := by
    decide
  have hnormal : fixedKeys.all (fun key =>
      let normal := (key.map lowerAscii).filter fun c => isLowerLetter c || isDigit c
      !PRIVATE_KEY_SET.contains normal && !(normal == js "aoid") && !(normal == js "rawaoid"))
        = true := by
    decide
  intro key hkey
  have hkeyAscii : ∀ c ∈ key, c.val < 128 := fun c hc =>
    of_decide_eq_true (List.all_eq_true.1 (List.all_eq_true.1 hascii key hkey) c hc)
  have hfacts := List.all_eq_true.1 hnormal key hkey
  simp only [Bool.and_eq_true, Bool.not_eq_true', beq_eq_false_iff_ne] at hfacts
  rw [isAoidKey, normalizeKey, P.toLowerCase_ascii key hkeyAscii]
  exact ⟨hfacts.1.1, by simp [hfacts.1.2, hfacts.2]⟩

/-- The first two units are letters. -/
def startsWithLetters : JsString → Bool
  | c :: d :: _ => isAsciiLetter c && isAsciiLetter d
  | _ => false

theorem not_looksLike_text {s : JsString} (h : startsWithLetters s = true) :
    looksLikeCoordinatePair (clean P (.string s)) = false := by
  match s, h with
  | c :: d :: s, h =>
    rw [startsWithLetters, Bool.and_eq_true] at h
    exact not_looksLike_letters h.1 h.2 s

theorem startsWithLetters_append {s : JsString} (h : startsWithLetters s = true) (t : JsString) :
    startsWithLetters (s ++ t) = true := by
  match s, h with
  | c :: d :: s, h => exact h

theorem fineMembers_leaf {key : JsString} {v : JsonValue} (hleaf : JsonTree.isLeaf v = true)
    {members : Members} :
    FineMembers P ((key, v) :: members) ↔ Fine P key v ∧ FineMembers P members := by
  rw [FineMembers, memberLeaves, JsonTree.leaves_of_isLeaf indexKey hleaf, List.forall_mem_append]
  simp [FineMembers]

theorem fineMembers_nil : FineMembers P [] := fun _ h => by cases h

theorem fine_fixed {key : JsString} (hkey : key ∈ fixedKeys) {v : JsonValue}
    (hv : looksLikeCoordinatePair (clean P v) = false) : Fine P key v :=
  ⟨fixedKeys_fine key hkey, hv⟩

theorem fine_heading : FineMembers P (heading settings (domainOf P settings)) := by
  have hmode : startsWithLetters settings.mode.text = true := by
    cases settings.mode <;> decide
  rw [heading, fineMembers_leaf rfl, fineMembers_leaf rfl, fineMembers_leaf rfl]
  exact ⟨fine_fixed (by decide) (not_looksLike_text (by decide)),
    fine_fixed (by decide) (not_looksLike_text hmode),
    fine_fixed (by decide) not_looksLike_domain, fineMembers_nil⟩

/-- Leaves below an object are fine whatever leads to it. -/
theorem fine_below {inner : Members} {key : JsString} :
    (∀ l ∈ (memberLeaves indexKey inner).map fun l => (key :: l.1, l.2),
        Fine P (l.1.getLast?.getD []) l.2) ↔ FineMembers P inner := by
  rw [List.forall_mem_map]
  refine forall₂_congr fun l hl => ?_
  obtain ⟨k, path, hpath⟩ := List.exists_cons_of_ne_nil
    (JsonTree.memberLeaves_paths indexKey inner l hl)
  simp [hpath, List.getLast?_cons]

theorem fineMembers_object {key : JsString} {inner members : Members} :
    FineMembers P ((key, .object inner) :: members)
      ↔ FineMembers P inner ∧ FineMembers P members := by
  rw [FineMembers, memberLeaves, leaves, List.forall_mem_append, fine_below]
  rfl

theorem fine_privacy (rawAgidPublic : Bool) :
    FineMembers P [(js "privacy", privacyOf rawAgidPublic)] := by
  rw [privacyOf, fineMembers_object]
  refine ⟨?_, fineMembers_nil⟩
  rw [fineMembers_leaf rfl, fineMembers_leaf rfl, fineMembers_leaf rfl, fineMembers_leaf rfl,
    fineMembers_leaf rfl]
  exact ⟨fine_fixed (by decide) looksLike_nil, fine_fixed (by decide) looksLike_nil,
    fine_fixed (by decide) looksLike_nil, fine_fixed (by decide) looksLike_nil,
    fine_fixed (by decide) looksLike_nil, fineMembers_nil⟩

theorem fine_items {key : JsString} : ∀ (i : ℕ) (objects : List Members),
    (∀ l ∈ (JsonTree.itemLeaves indexKey i (objects.map Value.object)).map
        fun l => (key :: l.1, l.2), Fine P (l.1.getLast?.getD []) l.2)
      ↔ ∀ members ∈ objects, FineMembers P members
  | i, [] => by simp [JsonTree.itemLeaves]
  | i, members :: objects => by
    have hbelow : (∀ l ∈ ((leaves indexKey (.object members)).map
          fun l => (indexKey i :: l.1, l.2)).map fun l => (key :: l.1, l.2),
        Fine P (l.1.getLast?.getD []) l.2) ↔ FineMembers P members := by
      rw [← @fine_below P members (indexKey i), leaves, List.forall_mem_map]
      refine forall₂_congr fun l hl => ?_
      obtain ⟨l', -, rfl⟩ := List.mem_map.1 hl
      simp [List.getLast?_cons]
    rw [List.map_cons, JsonTree.itemLeaves, List.map_append, List.forall_mem_append, hbelow,
      fine_items (i + 1) objects, List.forall_mem_cons]

theorem fieldPath_starts {leaf : Leaf}
    (h : leaf ∈ visit [js "payload"] (js "payload") payload) :
    startsWithLetters leaf.fieldPath = true := by
  rw [visit_eq] at h
  obtain ⟨l, -, rfl⟩ := List.mem_map.1 h
  have hjoin : ∃ t, (leafAt [js "payload"] (js "payload") l).fieldPath = js "payload" ++ t := by
    unfold Leaf.fieldPath leafAt List.intercalate
    rcases l.1 with _ | ⟨k, path⟩
    · exact ⟨[], by simp⟩
    · exact ⟨_, rfl⟩
  obtain ⟨t, ht⟩ := hjoin
  rw [ht]
  exact startsWithLetters_append (by decide) t

def Commitment.fields (commitment : Commitment) : Members :=
  [(js "path", .string commitment.path), (js "key", .string commitment.key),
    (js "algorithm", .string PUBLIC_PRIVATE_COMMITMENT_ALGORITHM),
    (js "domain", .string commitment.domain), (js "commitment", .string commitment.commitment)]

/-- A commitment is fine where its key is. -/
theorem fine_fields {commitment : Commitment} (h : commitment ∈ commitmentsOf P settings payload) :
    FineMembers P commitment.fields
      ↔ looksLikeCoordinatePair (clean P (.string commitment.key)) = false := by
  have hdomain := commitment_domain h
  unfold commitmentsOf at h
  split at h
  · obtain ⟨leaf, hleaf, rfl⟩ := List.mem_map.1 h
    rw [Commitment.fields, fineMembers_leaf rfl, fineMembers_leaf rfl, fineMembers_leaf rfl,
      fineMembers_leaf rfl, fineMembers_leaf rfl, hdomain]
    have hcommitment : ∀ domain salt,
        startsWithLetters (leaf.commit P domain salt).commitment = true :=
      fun domain salt => by
        rw [Leaf.commit, commitmentFor, List.append_assoc, List.append_assoc]
        exact startsWithLetters_append (by decide) _
    have hpath := fieldPath_starts (List.mem_of_mem_filter hleaf)
    constructor
    · exact fun hfine => hfine.2.1.value
    · exact fun hkey => ⟨fine_fixed (by decide) (not_looksLike_text hpath),
        fine_fixed (by decide) hkey, fine_fixed (by decide) (not_looksLike_text (by decide)),
        fine_fixed (by decide) not_looksLike_domain,
        fine_fixed (by decide) (not_looksLike_text (hcommitment _ _)), fineMembers_nil⟩
  · cases h

theorem fine_commitments : FineMembers P (commitmentsMember (commitmentsOf P settings payload))
    ↔ ∀ commitment ∈ commitmentsOf P settings payload,
      looksLikeCoordinatePair (clean P (.string commitment.key)) = false := by
  have hfields := forall₂_congr fun commitment
    (h : commitment ∈ commitmentsOf P settings payload) => fine_fields h
  rw [← hfields]
  unfold commitmentsMember
  split_ifs with hnil
  · simp [hnil, fineMembers_nil]
  · have hjson : (commitmentsOf P settings payload).map Commitment.json
        = ((commitmentsOf P settings payload).map Commitment.fields).map Value.object := by
      rw [List.map_map]
      rfl
    rw [FineMembers, memberLeaves, leaves, hjson, memberLeaves, List.append_nil, fine_items,
      List.forall_mem_map]

theorem committed_keys (P : Platform) (settings : Settings) (payload : JsonValue) :
    (∀ commitment ∈ commitmentsOf P settings payload,
        looksLikeCoordinatePair (clean P (.string commitment.key)) = false)
      ↔ (settings.salt.bind nonEmpty ≠ none → ∀ leaf ∈ privateLeaves P settings payload,
        looksLikeCoordinatePair (clean P (.string leaf.key)) = false) := by
  unfold commitmentsOf
  rcases settings.salt.bind nonEmpty with _ | salt
  · simp
  · simp [Leaf.commit]

theorem not_private_of_isAgidKey {key : JsString} (h : isAgidKey P key = true) :
    PRIVATE_KEY_SET.contains (normalizeKey P key) = false := by
  have hnotPrivate : PRIVATE_KEY_SET.contains (js "agid") = false
      ∧ PRIVATE_KEY_SET.contains (js "rawagid") = false := by decide
  simp only [isAgidKey, Bool.or_eq_true, decide_eq_true_eq] at h
  rcases h with h | h <;> rw [h]
  · exact hnotPrivate.1
  · exact hnotPrivate.2

theorem fine_publicLeaf {leaf : Leaf} (h : isPublicLeaf P settings leaf = true) :
    Fine P leaf.key (cloneJson leaf.value)
      ↔ (isAgidKey P leaf.key = true → looksLikeCoordinatePair (clean P leaf.value) = false) := by
  have hclone : clean P (cloneJson leaf.value) = clean P leaf.value := by
    cases leaf.value with
    | number n => cases n <;> rfl
    | _ => rfl
  constructor
  · exact fun hfine _ => hclone ▸ hfine.value
  · intro hagid
    have hpublic := of_decide_eq_true h
    simp only [classifyLeaf] at hpublic
    -- the branches of the classification that are public
    split_ifs at hpublic with hsecret haoid hid hexpose hprivate hcoordinates
    · exact ⟨⟨not_private_of_isAgidKey hid, by simpa using haoid⟩, hclone ▸ hagid hid⟩
    all_goals
      refine ⟨⟨by simpa using hprivate, by simpa using haoid⟩, hclone ▸ ?_⟩
      rcases hclean : clean P leaf.value with _ | ⟨c, s⟩
      · exact looksLike_nil
      · simpa [hclean] using hcoordinates

theorem fine_data : FineMembers P (memberOf (js "data")
      (prune indexKey (shown P settings) (named payload)))
    ↔ ∀ leaf ∈ publicLeaves P settings payload, isAgidKey P leaf.key →
      looksLikeCoordinatePair (clean P leaf.value) = false := by
  have hleaves : memberLeaves indexKey (memberOf (js "data")
        (prune indexKey (shown P settings) (named payload)))
      = ((publicLeaves P settings payload).map fun leaf => (leaf.path, cloneJson leaf.value)).map
        fun l => (js "data" :: l.1, l.2) := by
    rw [JsonTree.memberLeaves_memberOf, JsonTree.leaves_prune indexKey shown_leafy,
      publicLeaves_map]
  rw [FineMembers, hleaves, List.forall_mem_map, List.forall_mem_map]
  refine forall₂_congr fun leaf hleaf => ?_
  have hkey : (js "data" :: leaf.path).getLast?.getD [] = leaf.key := by
    obtain ⟨k, path, hpath⟩ := List.exists_cons_of_ne_nil (path_ne_nil hleaf)
    rw [key_of_mem_publicLeaves hleaf, hpath]
    simp [List.getLast?_cons]
  rw [hkey]
  exact fine_publicLeaf (List.mem_filter.1 hleaf).2

theorem blocked_iff (P : Platform) (settings : Settings) (payload : JsonValue) :
    (separatePublicPrivatePayload P settings payload).blocked = true
      ↔ LacksSalt P settings payload := by
  have herror : ∀ leaf : Leaf, leaf.error P settings ≠ [] ↔ isPublicLeaf P settings leaf = false
      ∧ settings.salt.bind nonEmpty = none ∧ settings.mode ≠ .localOnly := fun leaf => by
    unfold Leaf.error
    split_ifs with h
    · simp only [Bool.or_eq_true, Option.isSome_iff_ne_none, decide_eq_true_eq] at h
      simp only [ne_eq, not_true_eq_false, false_iff, not_and]
      rcases h with (h | h) | h
      · exact fun hpublic => absurd h (by simp [hpublic])
      · exact fun _ hsalt => absurd hsalt h
      · exact fun _ _ hmode => hmode h
    · simpa [and_assoc] using h
  simp only [separatePublicPrivatePayload, decide_eq_true_eq, ne_eq, List.flatMap_eq_nil_iff,
    not_forall, exists_prop]
  constructor
  · rintro ⟨leaf, hleaf, hne⟩
    obtain ⟨hprivate, hsalt, hmode⟩ := (herror leaf).1 hne
    exact ⟨hsalt, hmode, List.ne_nil_of_mem (List.mem_filter.2 ⟨hleaf, by simp [hprivate]⟩)⟩
  · rintro ⟨hsalt, hmode, hne⟩
    obtain ⟨leaf, hleaf⟩ := List.exists_mem_of_ne_nil _ hne
    obtain ⟨hmem, hprivate⟩ := List.mem_filter.1 hleaf
    exact ⟨leaf, hmem, (herror leaf).2 ⟨by simpa using hprivate, hsalt, hmode⟩⟩

theorem accepted_iff (hp : JsonTree.Proper payload) :
    (validatePublicPayloadSeparation P
        (.object (separatePublicPrivatePayload P settings payload).publicPayload)).valid = true
      ↔ NoCoordinates P settings payload := by
  rw [valid_iff, publicPayload_eq hp, fineMembers_append, fineMembers_append, fineMembers_append,
    fine_data, fine_commitments, committed_keys]
  exact ⟨fun h => ⟨h.1.1.2, h.1.2⟩, fun h => ⟨⟨⟨fine_heading, h.1⟩, h.2⟩, fine_privacy _⟩⟩

theorem separates_iff (hp : JsonTree.Proper payload) (hp' : JsonTree.Proper payload') :
    Separates P settings payload payload'
      ↔ (SameOutside P settings payload payload' → SameLeaves P settings payload payload')
        ∧ (LacksSalt P settings payload ∨ NoCoordinates P settings payload) := by
  have hvalid : ((separatePublicPrivatePayload P settings payload).blocked = false →
        (validatePublicPayloadSeparation P
          (.object (separatePublicPrivatePayload P settings payload).publicPayload)).valid = true)
      ↔ LacksSalt P settings payload ∨ NoCoordinates P settings payload := by
    rw [accepted_iff hp, ← blocked_iff]
    cases (separatePublicPrivatePayload P settings payload).blocked <;> simp
  rw [← hvalid, ← hidden_iff hp hp']
  exact ⟨fun h => ⟨h.hidden, h.valid⟩, fun h => ⟨h.1, h.2⟩⟩

/-- A leaf whose own key is private is not shown. -/
theorem isPublicLeaf_of_isPrivateKey (leaf : Leaf)
    (h : isPrivateKey P settings leaf.key = true) : isPublicLeaf P settings leaf = false := by
  rw [Bool.eq_false_iff]
  intro hpublic
  have hpublic := of_decide_eq_true hpublic
  simp only [classifyLeaf] at hpublic
  simp only [isPrivateKey, Bool.or_eq_true, Bool.and_eq_true, Bool.not_eq_true'] at h
  split_ifs at hpublic with hsecret haoid hid hexpose hprivate
  · rcases h with ((h | h) | h) | h
    · exact hsecret h
    · exact haoid h
    · rw [hexpose] at h
      cases h.2
    · rw [not_private_of_isAgidKey hid] at h
      cases h
  all_goals
    rcases h with ((h | h) | h) | h
    · exact hsecret h
    · exact haoid h
    · exact hid h.1
    · exact hprivate h

/-! ## An address of several lines -/

def asciiPlatform : Platform where
  nfkc := ⟨id, id_ascii⟩
  nfkc_head _ _ _ _ _ := rfl
  toLowerCase s := s.map lowerAscii
  toLowerCase_ascii _ _ := rfl
  toUpperCase s := s.map fun c => if 97 ≤ c.val ∧ c.val ≤ 122 then c - 32 else c
  sha256Hex _ := []

/-- Settings without a salt. -/
def unsalted (mode : Mode) : Settings := ⟨mode, js "address-dns:delivery", none, false, false⟩

def addressPayload (address : JsonValue) : JsonValue :=
  .object [(js "label", .string (js "counter")), (js "address", address)]

def street (text : String) : JsonValue := .string (js text)

def streetLine (text : String) : JsonValue := .object [(js "line", street text)]

theorem addressPayload_proper {address : JsonValue} (h : JsonTree.Proper address) :
    JsonTree.Proper (addressPayload address) := by
  have hkeys : [js "label", js "address"].Nodup := by decide
  simpa [addressPayload, JsonTree.Proper, JsonTree.ProperMembers, h] using hkeys

theorem address_isPrivateKey (settings : Settings) :
    isPrivateKey asciiPlatform settings (js "address") = true := by
  have hkey : PRIVATE_KEY_SET.contains (normalizeKey asciiPlatform (js "address")) = true := by
    decide
  rw [isPrivateKey, hkey, Bool.or_true]

theorem addressPayload_sameOutside (settings : Settings) (address address' : JsonValue) :
    SameOutside asciiPlatform settings (addressPayload address) (addressPayload address') := by
  simp [addressPayload, SameOutside, MembersSameOutside, address_isPrivateKey]

theorem publicLeaves_street (text : String) :
    publicLeaves asciiPlatform (unsalted .localOnly) (addressPayload (street text))
      = [⟨[js "payload", js "label"], js "label", .string (js "counter")⟩] := by
  have hlabel : isPublicLeaf asciiPlatform (unsalted .localOnly)
      ⟨[js "payload", js "label"], js "label", .string (js "counter")⟩ = true := by
    decide
  have haddress := isPublicLeaf_of_isPrivateKey ⟨[js "payload", js "address"],
    js "address", street text⟩ (address_isPrivateKey (unsalted .localOnly))
  simp only [publicLeaves, addressPayload, visit, visitMembers, street] at haddress ⊢
  simp [List.filter, hlabel, haddress]

/-- Two addresses that are texts, kept on the device. -/
theorem separates_iff_street :
    Separates asciiPlatform (unsalted .localOnly) (addressPayload (street "1 Main Street"))
      (addressPayload (street "2 Main Street")) := by
  have hproper : ∀ text, JsonTree.Proper (addressPayload (street text)) := fun text =>
    addressPayload_proper (by simp [street, JsonTree.Proper])
  refine (separates_iff (hproper _) (hproper _)).2
    ⟨fun _ => ⟨?_, fun h => absurd rfl h⟩, Or.inr ⟨?_, fun h => absurd rfl h⟩⟩
  · rw [publicLeaves_street, publicLeaves_street]
  · rw [publicLeaves_street]
    decide

/-- The line of an address is shown. -/
theorem not_separates : ¬ ∀ (P : Platform) settings payload payload',
    JsonTree.Proper payload → JsonTree.Proper payload' →
      Separates P settings payload payload' := by
  intro h
  have hproper : ∀ text, JsonTree.Proper (addressPayload (streetLine text)) := fun text =>
    addressPayload_proper (by simp [streetLine, street, JsonTree.Proper, JsonTree.ProperMembers])
  have hsame := (hidden_iff (hproper _) (hproper _)).1
    ((h asciiPlatform (unsalted .addressDns) _ _ (hproper "1 Main Street")
      (hproper "2 Main Street")).hidden (addressPayload_sameOutside _ _ _))
  have htexts := congrArg (List.map fun l => clean asciiPlatform l.2) hsame.1
  exact absurd htexts (by decide)

end Agid.PublicPrivate
